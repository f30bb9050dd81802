import Mathlib.Logic.Function.Basic
import Mathlib.Order.Interval.Set.Defs
import SkillBridge.Api.Requests
import SkillBridge.Interleaving.History

set_option autoImplicit false

/-!
An account as its owner knows it: a sequential object of passwords, codes and tokens, without tables, hashes and
other users.
-/

namespace SkillBridge

open Interleaving

structure LiveCode where
  code : String
  expiresAt : ℕ

/-- The last code of each kind that was sent and not used since, and when codes were sent once more. -/
structure Codes where
  live : OtpTable → Option LiveCode
  resends : List ℕ

def Codes.use (codes : Codes) (table : OtpTable) : Codes :=
  { codes with live := Function.update codes.live table none }

def Codes.send (codes : Codes) (table : OtpTable) (code : LiveCode) : Codes :=
  { codes with live := Function.update codes.live table (some code) }

def Codes.Accept (codes : Codes) (table : OtpTable) (now : ℕ) (code : String) : Prop :=
  ∃ live, codes.live table = some live ∧ live.code = code ∧ now < live.expiresAt

structure TwoFactor where
  enabled : Bool
  method : Option TwoFactorAuthMethod
  secret : Option String

structure Clocks where
  app : ℕ
  db : ℕ

/-- `session` is the refresh token that is accepted. -/
structure Account where
  profile : AuthUser
  password : Option String
  session : Option Jwt
  twoFactor : TwoFactor
  codes : Codes

def mint (secret : String) (payload : JwtPayload) (expiresIn now : ℕ) : Jwt :=
  { secret, payload, iat := now / 1000, exp := now / 1000 + expiresIn / 1000 }

def Op.Sends : Op → Bool
  | sendVerificationOtp _ | sendPasswordReset _ | enqueuePasswordReset _ => true
  | _ => false

def sent (l : List (Call backend)) : List Op := (l.map Sigma.fst).filter Op.Sends

namespace Account

variable (env : Env) (c d : Clocks) (a : Account)

def signIn (tokens : AuthTokens) : Account := { a with session := some tokens.refreshToken }

def verified : Account := { a with profile := { a.profile with is_verified := true } }

def mail (code : LiveCode) : Mail :=
  { toAddress := a.profile.email
    otp := code.code
    expiresAt := code.expiresAt
    recipientFirstName := a.profile.first_name }

def payload (jti : ℕ) : JwtPayload :=
  { sub := a.profile.id
    email := some a.profile.email
    role := some a.profile.role
    onboardingComplete := some a.profile.onboardingComplete
    type := none
    jti := some jti }

def Grants (tokens : AuthTokens) : Prop :=
  ∃ m ∈ Set.Icc c.app d.app, ∃ n ∈ Set.Icc c.app d.app, ∃ i j, tokens =
    ⟨mint env.JWT_ACCESS_SECRET (a.payload i) env.JWT_ACCESS_EXPIRES_IN m,
      mint env.JWT_REFRESH_SECRET (a.payload j) env.JWT_REFRESH_EXPIRES_IN n⟩

def Passes (secret : String) (token : Jwt) : Prop :=
  token.secret = secret ∧ token.payload.sub = a.profile.id ∧ ∃ now ∈ Set.Icc c.app d.app, now / 1000 < token.exp

def Lapsed (secret : String) (token : Jwt) : Prop :=
  token.secret = secret ∧ token.payload.sub = a.profile.id ∧ ∃ now ∈ Set.Icc c.app d.app, token.exp ≤ now / 1000

def checkTotp (code : String) (now : ℕ) : Except Failure Unit :=
  match a.twoFactor.secret with
  | none => .error (badRequestError ErrorMessages.TWO_FA_NOT_SETUP)
  | some stored => do
    let secret ← Encryption.decrypt env.aes env.encryptionKey stored
    let valid ← env.otplib.verifySync secret code now
    if valid then pure () else .error (unauthorizedError ErrorMessages.TWO_FA_INVALID_CODE)

/-- A request that arrives at the clocks `c` is answered at the clocks `d`: the answer, what is sent besides, and
the account from then on. -/
inductive Step : Request → Except Failure Response → List Op → Account → Prop
  -- passwords
  | unverified {password : String} (h : a.profile.is_verified = false) :
      Step (.login a.profile.email password)
        (.error (.http ⟨403, ErrorMessages.EMAIL_NOT_VERIFIED, some "EMAIL_NOT_VERIFIED",
          [("email", a.profile.email)]⟩)) [] a
  | secondFactorNeeded {password : String} {now : ℕ} (verified : a.profile.is_verified = true)
      (enabled : a.twoFactor.enabled = true) (time : now ∈ Set.Icc c.app d.app) :
      Step (.login a.profile.email password) (.ok (.twoFaNeeded ErrorMessages.TWO_FA_REQUIRED
        (mint env.JWT_ACCESS_SECRET { sub := a.profile.id, email := none, role := none, onboardingComplete := none
                                      type := some "2fa_pending", jti := none } (5 * 60 * 1000) now))) [] a
  | loggedIn {password : String} {tokens : AuthTokens} (verified : a.profile.is_verified = true)
      (disabled : a.twoFactor.enabled = false) (h : a.password = some password) (granted : a.Grants env c d tokens) :
      Step (.login a.profile.email password) (.ok (.session SuccessMessages.LOGIN a.profile tokens)) []
        (a.signIn tokens)
  | wrongPassword {password : String} (verified : a.profile.is_verified = true)
      (disabled : a.twoFactor.enabled = false) (h : a.password ≠ some password) :
      Step (.login a.profile.email password) (.error (unauthorizedError ErrorMessages.INVALID_CREDENTIALS)) [] a
  | forgotPassword {email : String} (h : trim email = a.profile.email) :
      Step (.forgotPassword email) (.ok (.message SuccessMessages.FORGOT_PASSWORD))
        [.enqueuePasswordReset a.profile.id] a
  | resetCodeSent {code : String} {now : ℕ} (time : now ∈ Set.Icc c.app d.app) :
      Step (.deliverPasswordReset a.profile.id) (.ok .noContent)
        [.sendPasswordReset (a.mail ⟨code, now + env.PASSWORD_RESET_OTP_EXPIRES_IN⟩)]
        { a with codes := a.codes.send .password_reset_otps ⟨code, now + env.PASSWORD_RESET_OTP_EXPIRES_IN⟩ }
  | passwordReset {email code password : String} {now : ℕ} (h : trim email = a.profile.email)
      (time : now ∈ Set.Icc c.db d.db) (accepted : a.codes.Accept .password_reset_otps now code) :
      Step (.resetPassword email code password) (.ok (.message SuccessMessages.PASSWORD_UPDATED)) []
        { a with password := some password, session := none, codes := a.codes.use .password_reset_otps }
  | resetRefused {email code password : String} {now : ℕ} (h : trim email = a.profile.email)
      (time : now ∈ Set.Icc c.db d.db) (refused : ¬ a.codes.Accept .password_reset_otps now code) :
      Step (.resetPassword email code password) (.error (badRequestError ErrorMessages.INVALID_OR_EXPIRED_OTP)) [] a
  -- the e-mail
  | emailVerified {code : String} {tokens : AuthTokens} {now : ℕ} (time : now ∈ Set.Icc c.db d.db)
      (accepted : a.codes.Accept .verification_otps now code) (granted : a.Grants env c d tokens) :
      Step (.verifyEmail a.profile.email code)
        (.ok (.session SuccessMessages.EMAIL_VERIFIED a.verified.profile tokens)) []
        { a.verified.signIn tokens with codes := a.codes.use .verification_otps }
  | emailRefused {code : String} {now : ℕ} (time : now ∈ Set.Icc c.db d.db)
      (refused : ¬ a.codes.Accept .verification_otps now code) :
      Step (.verifyEmail a.profile.email code) (.error (badRequestError ErrorMessages.INVALID_OR_EXPIRED_OTP)) [] a
  | alreadyVerified (h : a.profile.is_verified = true) :
      Step (.resendVerification a.profile.email)
        (.error (badRequestError ErrorMessages.ACCOUNT_ALREADY_VERIFIED)) [] a
  | tooManyResends {now : ℕ} (unverified : a.profile.is_verified = false) (time : now ∈ Set.Icc c.app d.app)
      (h : env.VERIFICATION_RESEND_LIMIT_PER_HOUR ≤ a.codes.resends.countP fun n => now - 60 * 60 * 1000 ≤ n) :
      Step (.resendVerification a.profile.email)
        (.error (.http ⟨429, ErrorMessages.TOO_MANY_REQUESTS, none, []⟩)) [] a
  | resent {code : String} {now now' created : ℕ} (unverified : a.profile.is_verified = false)
      (time : now ∈ Set.Icc c.app d.app) (time' : now' ∈ Set.Icc c.app d.app) (time'' : created ∈ Set.Icc c.db d.db)
      (h : a.codes.resends.countP (fun n => now - 60 * 60 * 1000 ≤ n) < env.VERIFICATION_RESEND_LIMIT_PER_HOUR) :
      Step (.resendVerification a.profile.email) (.ok (.message SuccessMessages.VERIFICATION_EMAIL_RESENT))
        [.sendVerificationOtp (a.mail ⟨code, now' + env.VERIFICATION_OTP_EXPIRES_IN⟩)]
        { a with codes := { a.codes.send .verification_otps ⟨code, now' + env.VERIFICATION_OTP_EXPIRES_IN⟩ with
          resends := a.codes.resends ++ [created] } }
  -- sessions
  | refreshed {token : Jwt} {tokens : AuthTokens} (passes : a.Passes c d env.JWT_REFRESH_SECRET token)
      (h : a.session = some token) (granted : a.Grants env c d tokens) :
      Step (.refresh (some token)) (.ok (.refreshed SuccessMessages.TOKEN_REFRESHED tokens)) [] (a.signIn tokens)
  | refreshLapsed {token : Jwt} (h : a.Lapsed c d env.JWT_REFRESH_SECRET token) :
      Step (.refresh (some token)) (.error (unauthorizedError ErrorMessages.INVALID_REFRESH_TOKEN)) [] a
  | refreshRevoked {token : Jwt} (passes : a.Passes c d env.JWT_REFRESH_SECRET token) (h : a.session = none) :
      Step (.refresh (some token)) (.error (unauthorizedError ErrorMessages.REFRESH_TOKEN_REVOKED)) [] a
  | refreshReplaced {token newer : Jwt} (passes : a.Passes c d env.JWT_REFRESH_SECRET token)
      (h : a.session = some newer) (ne : newer ≠ token) :
      Step (.refresh (some token)) (.error (unauthorizedError ErrorMessages.INVALID_REFRESH_TOKEN)) [] a
  | loggedOut {token : Jwt} (passes : a.Passes c d env.JWT_REFRESH_SECRET token) (h : a.session = some token) :
      Step (.logout (some token)) (.ok (.message SuccessMessages.LOGGED_OUT)) [] { a with session := none }
  | logoutIgnored {token : Jwt} (h : a.Lapsed c d env.JWT_REFRESH_SECRET token ∨
        a.Passes c d env.JWT_REFRESH_SECRET token ∧ a.session ≠ some token) :
      Step (.logout (some token)) (.ok (.message SuccessMessages.LOGGED_OUT)) [] a
  | lapsed {req : Request} {credentials : Credentials} {token : Jwt} (hreq : req.credentials = some credentials)
      (htoken : credentials.token = some token) (h : a.Lapsed c d env.JWT_ACCESS_SECRET token) :
      Step req (.error unauthorizedException) [] a
  | me {credentials : Credentials} {token : Jwt} (htoken : credentials.token = some token)
      (passes : a.Passes c d env.JWT_ACCESS_SECRET token) : Step (.me credentials) (.ok (.profile a.profile)) [] a
  -- the second factor
  | setupFailed {credentials : Credentials} {token : Jwt} {secret : String} {iv : List UInt8} {e : Failure}
      (htoken : credentials.token = some token) (passes : a.Passes c d env.JWT_ACCESS_SECRET token)
      (h : Encryption.encrypt env.aes env.encryptionKey iv secret = .error e) :
      Step (.setup2faTotp credentials) (.error e) [] a
  | alreadySetUp {credentials : Credentials} {token : Jwt} (htoken : credentials.token = some token)
      (passes : a.Passes c d env.JWT_ACCESS_SECRET token) (h : a.twoFactor.method ≠ none) :
      Step (.setup2faTotp credentials) (.error (conflictError ErrorMessages.TWO_FA_ALREADY_ACTIVE)) [] a
  | setUp {credentials : Credentials} {token : Jwt} {secret stored : String} {iv : List UInt8}
      (htoken : credentials.token = some token) (passes : a.Passes c d env.JWT_ACCESS_SECRET token)
      (unset : a.twoFactor.method = none)
      (h : Encryption.encrypt env.aes env.encryptionKey iv secret = .ok stored) :
      Step (.setup2faTotp credentials)
        (.ok (.totpSetup ⟨env.otplib.generateURI "SkillBridge" a.profile.email secret, secret,
          SuccessMessages.TOTP_2FA_SETUP_SUCCESS⟩)) []
        { a with twoFactor := { a.twoFactor with secret := some stored } }
  | enabled {credentials : Credentials} {token : Jwt} {code : String} {now : ℕ}
      (htoken : credentials.token = some token) (passes : a.Passes c d env.JWT_ACCESS_SECRET token)
      (time : now ∈ Set.Icc c.app d.app) (h : a.checkTotp env code now = .ok ()) :
      Step (.enable2faTotp credentials code) (.ok (.message SuccessMessages.TOTP_2FA_ENABLE_SUCCESS)) []
        { a with twoFactor := { a.twoFactor with enabled := true, method := some .totp } }
  | enableRefused {credentials : Credentials} {token : Jwt} {code : String} {now : ℕ} {e : Failure}
      (htoken : credentials.token = some token) (passes : a.Passes c d env.JWT_ACCESS_SECRET token)
      (time : now ∈ Set.Icc c.app d.app) (h : a.checkTotp env code now = .error e) :
      Step (.enable2faTotp credentials code) (.error e) [] a
  | disabled {credentials : Credentials} {token : Jwt} {code : String} {now : ℕ}
      (htoken : credentials.token = some token) (passes : a.Passes c d env.JWT_ACCESS_SECRET token)
      (method : a.twoFactor.method = some .totp) (time : now ∈ Set.Icc c.app d.app)
      (h : a.checkTotp env code now = .ok ()) :
      Step (.disable2fa credentials code) (.ok (.message SuccessMessages.TOTP_2FA_DISABLE_SUCCESS)) []
        { a with twoFactor := ⟨false, some .totp, none⟩ }
  | disableRefused {credentials : Credentials} {token : Jwt} {code : String} {now : ℕ} {e : Failure}
      (htoken : credentials.token = some token) (passes : a.Passes c d env.JWT_ACCESS_SECRET token)
      (method : a.twoFactor.method = some .totp) (time : now ∈ Set.Icc c.app d.app)
      (h : a.checkTotp env code now = .error e) : Step (.disable2fa credentials code) (.error e) [] a
  | nothingToDisable {credentials : Credentials} {token : Jwt} {code : String}
      (htoken : credentials.token = some token) (passes : a.Passes c d env.JWT_ACCESS_SECRET token)
      (h : a.twoFactor.method ≠ some .totp) :
      Step (.disable2fa credentials code) (.error (badRequestError ErrorMessages.TWO_FA_NOT_SETUP)) [] a
  | stateTokenLapsed {token : Jwt} {code : String} (h : a.Lapsed c d env.JWT_ACCESS_SECRET token) :
      Step (.verify2fa (some token) code) (.error (unauthorizedError "state_token has expired")) [] a
  | noStateToken {token : Jwt} {code : String} (passes : a.Passes c d env.JWT_ACCESS_SECRET token)
      (h : token.payload.type ≠ some "2fa_pending") :
      Step (.verify2fa (some token) code) (.error unauthorizedException) [] a
  | noSecondFactor {token : Jwt} {code : String} (passes : a.Passes c d env.JWT_ACCESS_SECRET token)
      (pending : token.payload.type = some "2fa_pending") (h : a.twoFactor.enabled = false ∨ a.twoFactor.method = none) :
      Step (.verify2fa (some token) code) (.error (badRequestError ErrorMessages.TWO_FA_NOT_SETUP)) [] a
  | secondFactorRefused {token : Jwt} {code : String} {now : ℕ} {e : Failure}
      (passes : a.Passes c d env.JWT_ACCESS_SECRET token) (pending : token.payload.type = some "2fa_pending")
      (enabled : a.twoFactor.enabled = true) (method : a.twoFactor.method ≠ none) (time : now ∈ Set.Icc c.app d.app)
      (h : a.checkTotp env code now = .error e) : Step (.verify2fa (some token) code) (.error e) [] a
  | secondFactorPassed {token : Jwt} {code : String} {now : ℕ} {tokens : AuthTokens}
      (passes : a.Passes c d env.JWT_ACCESS_SECRET token) (pending : token.payload.type = some "2fa_pending")
      (enabled : a.twoFactor.enabled = true) (method : a.twoFactor.method ≠ none) (time : now ∈ Set.Icc c.app d.app)
      (h : a.checkTotp env code now = .ok ()) (granted : a.Grants env c d tokens) :
      Step (.verify2fa (some token) code) (.ok (.session SuccessMessages.LOGIN a.profile tokens)) []
        (a.signIn tokens)

end Account

end SkillBridge
