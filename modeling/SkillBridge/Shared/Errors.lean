import Mathlib.Data.Nat.Notation

set_option autoImplicit false

namespace SkillBridge

/-! The exceptions of `src/shared/errors` and the texts of `src/shared/messages`. -/

inductive DbError
  | uniqueViolation
  | foreignKeyViolation
  | notNullViolation
  | dataException
  | connectionLost
  deriving DecidableEq

/-- `error` is missing where the response of the exception is a bare text. -/
structure HttpException where
  status : ℕ
  message : String
  error : Option String
  details : List (String × String)
  deriving DecidableEq

inductive Failure
  | http (e : HttpException)
  | oauthSignupRoleRequired
  | queryFailed (e : DbError)
  | error (message : String)
  deriving DecidableEq

def badRequestError (message : String) : Failure := .http ⟨400, message, some "Bad Request", []⟩
def unauthorizedError (message : String) : Failure := .http ⟨401, message, some "Unauthorized", []⟩
def forbiddenError (message : String) : Failure := .http ⟨403, message, some "Forbidden", []⟩
def notFoundError (message : String) : Failure := .http ⟨404, message, some "Not Found", []⟩
def conflictError (message : String) : Failure := .http ⟨409, message, some "Conflict", []⟩
def internalServerError (message : String) : Failure := .http ⟨500, message, some "Internal Server Error", []⟩

def unauthorizedException : Failure := .http ⟨401, "Unauthorized", none, []⟩

def Failure.status : Failure → Option ℕ
  | .http e => some e.status
  | .oauthSignupRoleRequired => some 400
  | .queryFailed _ => none
  | .error _ => none

def isPostgresUniqueViolation : Failure → Bool
  | .queryFailed .uniqueViolation => true
  | _ => false

namespace ErrorMessages

def INVALID_OR_EXPIRED_OTP := "Invalid or expired otp"
def ACCOUNT_NOT_FOUND := "Account not found"
def ACCOUNT_ALREADY_VERIFIED := "Account is already verified"
def TOO_MANY_REQUESTS := "Too many requests. Please wait before trying again."
def INVALID_CREDENTIALS := "Invalid credentials"
def EMAIL_NOT_VERIFIED := "Please verify your email to continue"
def INVALID_REFRESH_TOKEN := "Invalid refresh token"
def REFRESH_TOKEN_REVOKED := "Refresh token has been revoked"
def INVALID_ACCESS_TOKEN := "Invalid access token"
def OAUTH_SIGNUP_ROLE_REQUIRED := "OAuth signup role required"
def INVALID_OAUTH_SIGNUP_ROLE := "Invalid OAuth signup role"
def TWO_FA_REQUIRED := "Two-Factor Authentication required"
def TWO_FA_INVALID_CODE := "Invalid Two-Factor Authentication code, please try again"
def TWO_FA_NOT_SETUP := "2FA has not been set up on this account"
def TWO_FA_ALREADY_ACTIVE :=
  "A 2FA method is already active on this account. Please disable it first before setting up a new one."
def EMAIL_ALREADY_REGISTERED := "Email already registered"
def EMAIL_ALREADY_ON_WAITLIST := "Email already on waitlist"
def NOT_FOUND (id : ℕ) := s!"User {id} not found"
def UPDATE_FAILED := "Failed to update user"
def INVALID_USER := "Invalid user"
def ALREADY_COMPLETED := "Onboarding already completed"
def TALENT_PROFILE_EXISTS := "Talent profile already exists"
def EMPLOYER_PROFILE_EXISTS := "Employer profile already exists"
def INSUFFICIENT_PERMISSIONS := "Insufficient permissions"
def INTERNAL_SERVER_ERROR := "Internal server error"

end ErrorMessages

namespace SuccessMessages

def VERIFICATION_OTP_SENT := "Verification otp sent"
def EMAIL_VERIFIED := "Email verified"
def TOTP_2FA_SETUP_SUCCESS := "TOTP Two-Factor Authentication setup successful"
def TOTP_2FA_ENABLE_SUCCESS := "TOTP Two-Factor Authentication enabled successfully"
def TOTP_2FA_DISABLE_SUCCESS := "TOTP Two-Factor Authentication disabled successfully"
def VERIFICATION_EMAIL_RESENT := "Verification email resent"
def LOGIN := "Login successful"
def FORGOT_PASSWORD := "If that email exists, a reset link has been sent"
def PASSWORD_UPDATED := "Password updated. Please log in."
def TOKEN_REFRESHED := "Token refreshed successfully"
def LOGGED_OUT := "Logged out"
def TALENT_COMPLETED := "Talent onboarding completed"
def SUCCESS := "success"
def WAITLIST_JOINED := "Added to waitlist"
def MESSAGE_RECEIVED := "Message received"
def EMPLOYER_COMPLETED := "Employer onboarding completed"

end SuccessMessages

/-! Whitespace as `String.prototype.trim` has it. -/

def isJsSpace (c : Char) : Bool :=
  c.toNat ∈ [9, 10, 11, 12, 13, 32, 0xA0, 0x1680, 0x2028, 0x2029, 0x202F, 0x205F, 0x3000, 0xFEFF] ||
    (0x2000 ≤ c.toNat && c.toNat ≤ 0x200A)

def trim (s : String) : String :=
  String.ofList ((s.toList.dropWhile isJsSpace).reverse.dropWhile isJsSpace).reverse

/-- `s || null` after trimming. -/
def trimToNull (s : Option String) : Option String :=
  match s with
  | none => none
  | some s => if trim s = "" then none else some (trim s)

end SkillBridge
