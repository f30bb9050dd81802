import SkillBridge.Config.Env

set_option autoImplicit false

/-! `verification-otp.service.ts` and `password-reset-otp.service.ts`, which differ in table and lifetime. -/

namespace SkillBridge

open Interleaving

structure IssuedOtp where
  code : String
  expiresAt : ℕ

namespace Otp

/-- `String(randomInt(0, 1_000_000)).padStart(6, '0')`. -/
def generateCode : Action String := do
  let n : ℕ ← perform (.randomInt 1000000)
  pure (String.ofList ((toString n).toList.leftpad 6 '0'))

def issue (table : OtpTable) (expiresIn : ℕ) (userId : UserId) (requestSource : OtpSource) :
    Action IssuedOtp := do
  perform (.invalidateActiveOtps table userId)
  let code ← generateCode
  let now : ℕ ← perform .dateNow
  let expiresAt := now + expiresIn
  let otpHash ← perform (.hashText code)
  let _ ← perform (.insertOtp table { userId, otpHash, expiresAt, requestSource })
  pure { code, expiresAt }

def consume (table : OtpTable) (userId : UserId) (code : String) : Action Bool := do
  match ← perform (.findLatestOtp table userId) with
  | none => pure false
  | some latestOtp =>
    if latestOtp.otpHash.verify code then perform (.markOtpUsed table latestOtp.id) else pure false

end Otp

namespace VerificationOtpService

def issue (env : Env) (userId : UserId) (requestSource : OtpSource) : Action IssuedOtp :=
  Otp.issue .verification_otps env.VERIFICATION_OTP_EXPIRES_IN userId requestSource

def consume (userId : UserId) (code : String) : Action Bool := Otp.consume .verification_otps userId code

def countRecentResends (userId : UserId) (since : ℕ) : Action ℕ :=
  perform (.countRecentResends .verification_otps userId since)

end VerificationOtpService

namespace PasswordResetOtpService

def issue (env : Env) (userId : UserId) (requestSource : OtpSource) : Action IssuedOtp :=
  Otp.issue .password_reset_otps env.PASSWORD_RESET_OTP_EXPIRES_IN userId requestSource

def consume (userId : UserId) (code : String) : Action Bool := Otp.consume .password_reset_otps userId code

end PasswordResetOtpService

end SkillBridge
