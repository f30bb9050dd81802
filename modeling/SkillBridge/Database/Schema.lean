import Mathlib.Tactic.Common
import Mathlib.Data.Nat.Notation

set_option autoImplicit false

namespace SkillBridge

/-! The rows the services read and write, and the values of the libraries that are stored in them. -/

abbrev UserId := ℕ
abbrev OtpId := ℕ
abbrev TxId := ℕ

/-- What `argon2.hash` returns: `salt` differs on every call, and `verify` accepts what was hashed. -/
structure Digest (α : Type) where
  plain : α
  salt : ℕ
  deriving DecidableEq

def Digest.verify {α : Type} [DecidableEq α] (hash : Digest α) (a : α) : Bool := hash.plain = a

@[simp] theorem Digest.verify_iff {α : Type} [DecidableEq α] (hash : Digest α) (a : α) :
    hash.verify a = true ↔ hash.plain = a := by simp [verify]

inductive UserRole
  | admin
  | talent
  | employer
  deriving DecidableEq

/-- The claims of the tokens this server signs; a claim that a kind of token lacks is `none`. -/
structure JwtPayload where
  sub : UserId
  email : Option String
  role : Option UserRole
  onboardingComplete : Option Bool
  type : Option String
  jti : Option ℕ
  deriving DecidableEq

/-- A signed token: `secret` is the key it was signed with, `iat` and `exp` are in seconds. -/
structure Jwt where
  secret : String
  payload : JwtPayload
  iat : ℕ
  exp : ℕ
  deriving DecidableEq

inductive JwtError
  | jsonWebTokenError
  | tokenExpiredError
  deriving DecidableEq

def Jwt.verify (secret : String) (now : ℕ) (token : Jwt) : Except JwtError JwtPayload :=
  if token.secret ≠ secret then .error .jsonWebTokenError
  else if token.exp ≤ now / 1000 then .error .tokenExpiredError
  else .ok token.payload

theorem Jwt.verify_eq_ok {secret : String} {now : ℕ} {token : Jwt} {payload : JwtPayload} :
    token.verify secret now = .ok payload ↔
      token.secret = secret ∧ now / 1000 < token.exp ∧ token.payload = payload := by
  unfold verify
  split_ifs with hs he
  · simp [hs]
  · simp [Nat.not_lt.mpr he]
  · simp only [not_not] at hs
    simp [hs, Nat.lt_of_not_le he]

inductive TwoFactorAuthMethod
  | totp
  deriving DecidableEq

structure User where
  id : UserId
  email : String
  password : Option (Digest String)
  first_name : String
  last_name : String
  avatar_url : Option String
  country : String
  is_verified : Bool
  onboarding_complete : Bool
  role : UserRole
  signup_reason : Option String
  two_fa_enabled : Bool
  two_fa_method : Option TwoFactorAuthMethod
  two_fa_totp_secret : Option String
  refreshTokenHash : Option (Digest Jwt)
  createdAt : ℕ
  deriving DecidableEq

structure OAuthUser where
  id : ℕ
  user_id : UserId
  provider : String
  provider_id : String
  createdAt : ℕ
  deriving DecidableEq

inductive OtpSource
  | initial
  | resend
  deriving DecidableEq

inductive OtpTable
  | verification_otps
  | password_reset_otps
  deriving DecidableEq

structure Otp where
  id : OtpId
  userId : UserId
  otpHash : Digest String
  expiresAt : ℕ
  usedAt : Option ℕ
  requestSource : OtpSource
  createdAt : ℕ
  deriving DecidableEq

inductive TalentProfileStatus
  | not_started
  | in_progress
  | not_ready
  | emerging
  | job_ready
  deriving DecidableEq

structure TalentProfile where
  id : ℕ
  user_id : UserId
  role_track : String
  bio : Option String
  status : TalentProfileStatus
  profile_share_link : Option String
  is_published : Bool
  published_at : Option ℕ
  deriving DecidableEq

structure EmployerProfile where
  id : ℕ
  user_id : UserId
  company_name : String
  company_size : Option String
  industry : Option String
  website_url : Option String
  company_description : Option String
  hiring_region : Option String
  deriving DecidableEq

/-- What a `varchar(n)` column takes, and a `text` column, which has no length: no NUL, and only blanks beyond
the end of the column. -/
def fitsColumn (length : Option ℕ) (text : String) : Bool :=
  text.toList.all (fun c => c.toNat ≠ 0) && length.all fun n => (text.toList.drop n).all (· = ' ')

def fitsColumns (texts : List (Option ℕ × Option String)) : Bool :=
  texts.all fun column => column.2.all (fitsColumn column.1)

def TalentProfile.fits (profile : TalentProfile) : Bool :=
  fitsColumns [(some 50, some profile.role_track), (none, profile.bio), (some 255, profile.profile_share_link)]

def EmployerProfile.fits (profile : EmployerProfile) : Bool :=
  fitsColumns [(some 255, some profile.company_name), (some 50, profile.company_size), (some 100, profile.industry),
    (some 255, profile.website_url), (none, profile.company_description), (some 100, profile.hiring_region)]

def fitsIdentity (provider providerId : String) : Bool :=
  fitsColumns [(some 20, some provider), (some 255, some providerId)]

structure Tables where
  users : List User
  oauthAccounts : List OAuthUser
  otps : OtpTable → List Otp
  talentProfiles : List TalentProfile
  employerProfiles : List EmployerProfile

structure NewUser where
  email : String
  password : Option (Digest String)
  first_name : String
  last_name : String
  avatar_url : Option String
  country : String
  is_verified : Bool
  onboarding_complete : Bool
  role : UserRole
  signup_reason : Option String

def NewUser.toUser (payload : NewUser) (id : UserId) (createdAt : ℕ) : User :=
  { payload with
    id, createdAt
    two_fa_enabled := false
    two_fa_method := none
    two_fa_totp_secret := none
    refreshTokenHash := none }

def NewUser.fits (payload : NewUser) : Bool :=
  fitsColumns [(some 255, some payload.email), (some 255, some payload.first_name), (some 255, some payload.last_name),
    (some 500, payload.avatar_url), (some 100, some payload.country), (some 255, payload.signup_reason)]

/-- `Partial<User>`: a column that is not updated is `none`, one that is set to `NULL` is `some none`. -/
structure UserPayload where
  email : Option (Option String) := none
  password : Option (Option (Digest String)) := none
  first_name : Option (Option String) := none
  last_name : Option (Option String) := none
  avatar_url : Option (Option String) := none
  country : Option (Option String) := none
  is_verified : Option Bool := none
  onboarding_complete : Option Bool := none
  role : Option (Option UserRole) := none
  signup_reason : Option (Option String) := none
  two_fa_enabled : Option Bool := none
  two_fa_method : Option (Option TwoFactorAuthMethod) := none
  two_fa_totp_secret : Option (Option String) := none
  refreshTokenHash : Option (Option (Digest Jwt)) := none

def UserPayload.violatesNotNull (payload : UserPayload) : Bool :=
  payload.email = some none || payload.first_name = some none || payload.last_name = some none ||
    payload.country = some none || payload.role = some none

def UserPayload.fits (payload : UserPayload) : Bool :=
  fitsColumns [(some 255, payload.email.join), (some 255, payload.first_name.join), (some 255, payload.last_name.join),
    (some 500, payload.avatar_url.join), (some 100, payload.country.join), (some 255, payload.signup_reason.join)]

def UserPayload.apply (payload : UserPayload) (user : User) : User :=
  { user with
    email := payload.email.join.getD user.email
    password := payload.password.getD user.password
    first_name := payload.first_name.join.getD user.first_name
    last_name := payload.last_name.join.getD user.last_name
    avatar_url := payload.avatar_url.getD user.avatar_url
    country := payload.country.join.getD user.country
    is_verified := payload.is_verified.getD user.is_verified
    onboarding_complete := payload.onboarding_complete.getD user.onboarding_complete
    role := payload.role.join.getD user.role
    signup_reason := payload.signup_reason.getD user.signup_reason
    two_fa_enabled := payload.two_fa_enabled.getD user.two_fa_enabled
    two_fa_method := payload.two_fa_method.getD user.two_fa_method
    two_fa_totp_secret := payload.two_fa_totp_secret.getD user.two_fa_totp_secret
    refreshTokenHash := payload.refreshTokenHash.getD user.refreshTokenHash }

section Apply

variable (payload : UserPayload) (user : User)

@[simp] theorem UserPayload.apply_id : (payload.apply user).id = user.id := rfl

@[simp] theorem UserPayload.apply_email :
    (payload.apply user).email = payload.email.join.getD user.email := rfl

@[simp] theorem UserPayload.apply_password :
    (payload.apply user).password = payload.password.getD user.password := rfl

@[simp] theorem UserPayload.apply_is_verified :
    (payload.apply user).is_verified = payload.is_verified.getD user.is_verified := rfl

@[simp] theorem UserPayload.apply_two_fa_enabled :
    (payload.apply user).two_fa_enabled = payload.two_fa_enabled.getD user.two_fa_enabled := rfl

@[simp] theorem UserPayload.apply_two_fa_method :
    (payload.apply user).two_fa_method = payload.two_fa_method.getD user.two_fa_method := rfl

@[simp] theorem UserPayload.apply_two_fa_totp_secret :
    (payload.apply user).two_fa_totp_secret = payload.two_fa_totp_secret.getD user.two_fa_totp_secret := rfl

@[simp] theorem UserPayload.apply_refreshTokenHash :
    (payload.apply user).refreshTokenHash = payload.refreshTokenHash.getD user.refreshTokenHash := rfl

end Apply

structure NewOtp where
  userId : UserId
  otpHash : Digest String
  expiresAt : ℕ
  requestSource : OtpSource

def NewOtp.toOtp (payload : NewOtp) (id : OtpId) (createdAt : ℕ) : Otp :=
  { payload with id, createdAt, usedAt := none }

def Otp.Active (now : ℕ) (otp : Otp) : Prop := otp.usedAt = none ∧ now < otp.expiresAt

instance (now : ℕ) (otp : Otp) : Decidable (otp.Active now) := inferInstanceAs (Decidable (_ ∧ _))

end SkillBridge
