import SkillBridge.Auth.Otp
import SkillBridge.Users.Service

set_option autoImplicit false

/-! `src/modules/auth/auth.service.ts`. -/

namespace SkillBridge

open Interleaving

structure RegisterDto where
  email : String
  password : String
  firstName : String
  lastName : String
  role : OAuthSignupRole
  reasonForJoining : Option String := none

structure AuthUser where
  id : UserId
  email : String
  first_name : String
  last_name : String
  fullname : String
  avatar_url : Option String
  country : String
  role : UserRole
  is_verified : Bool
  onboardingComplete : Bool
  deriving DecidableEq

structure AuthTokens where
  accessToken : Jwt
  refreshToken : Jwt
  deriving DecidableEq

structure AuthResult where
  message : String
  user : AuthUser
  tokens : AuthTokens
  deriving DecidableEq

inductive LoginResult
  | session (result : AuthResult)
  | twoFaNeeded (message : String) (state_token : Jwt)
  deriving DecidableEq

structure RefreshResult where
  message : String
  tokens : AuthTokens
  deriving DecidableEq

structure TotpSetup where
  uri : String
  secret : String
  message : String

/-- The texts of the profile fit the columns that they are stored in. -/
structure GoogleProfile where
  email : String
  firstName : String
  lastName : String
  picture : String
  providerId : String
  fits : fitsProfile email firstName lastName (some picture) = true
  fitsIdentity : fitsIdentity "google" providerId = true

def userProfile : GoogleProfile where
  email := "user@example.com"
  firstName := "Ada"
  lastName := "Lovelace"
  picture := ""
  providerId := "g-1"
  fits := by decide
  fitsIdentity := by decide

def adaProfile : GoogleProfile :=
  { userProfile with email := "ada@example.com", providerId := "google-1", fits := by decide, fitsIdentity := by decide }

structure AuthenticatedUser where
  sub : UserId
  email : String
  role : UserRole
  onboardingComplete : Bool

def User.fullname (user : User) : String := trim s!"{user.first_name} {user.last_name}"

namespace AuthService

def toAuthUser (user : User) : AuthUser :=
  { id := user.id
    email := user.email
    first_name := user.first_name
    last_name := user.last_name
    fullname := user.fullname
    avatar_url := user.avatar_url
    country := user.country
    role := user.role
    is_verified := user.is_verified
    onboardingComplete := user.onboarding_complete }

def sessionPayload (user : User) : JwtPayload :=
  { sub := user.id
    email := some user.email
    role := some user.role
    onboardingComplete := some user.onboarding_complete
    type := none
    jti := none }

def signTokens (env : Env) (user : User) : Action AuthTokens := do
  let accessToken ← perform
    (.signAsync (sessionPayload user) true env.JWT_ACCESS_SECRET env.JWT_ACCESS_EXPIRES_IN)
  let refreshToken ← perform
    (.signAsync (sessionPayload user) true env.JWT_REFRESH_SECRET env.JWT_REFRESH_EXPIRES_IN)
  pure { accessToken, refreshToken }

def persistRefreshToken (userId : UserId) (refreshToken : Jwt) : Action Unit := do
  let hash ← perform (.hashToken refreshToken)
  UsersService.setRefreshTokenHash userId (some hash)

def issueTokens (env : Env) (user : User) (message : String) : Action AuthResult := do
  let tokens ← signTokens env user
  persistRefreshToken user.id tokens.refreshToken
  pure { message, user := toAuthUser user, tokens }

def sendVerificationOtp (user : User) (issuedOtp : IssuedOtp) : Action Unit :=
  perform (.sendVerificationOtp
    { toAddress := user.email
      otp := issuedOtp.code
      expiresAt := issuedOtp.expiresAt
      recipientFirstName := user.first_name })

def register (env : Env) (dto : RegisterDto) : Action String := do
  let user ← UsersService.create
    { email := dto.email
      password := dto.password
      first_name := dto.firstName
      last_name := dto.lastName
      country := OAUTH_DEFAULT_COUNTRY
      role := some dto.role.toUserRole
      signup_reason := dto.reasonForJoining }
  let issuedOtp ← VerificationOtpService.issue env user.id .initial
  sendVerificationOtp user issuedOtp
  pure SuccessMessages.VERIFICATION_OTP_SENT

def verifyEmail (env : Env) (email otp : String) : Action AuthResult := do
  match ← UsersService.findByEmail email with
  | none => throw (badRequestError ErrorMessages.INVALID_OR_EXPIRED_OTP)
  | some user =>
    let isValidOtp ← VerificationOtpService.consume user.id otp
    if isValidOtp then
      let verifiedUser ← if user.is_verified then pure user else UsersService.markVerified user.id
      issueTokens env verifiedUser SuccessMessages.EMAIL_VERIFIED
    else throw (badRequestError ErrorMessages.INVALID_OR_EXPIRED_OTP)

def resendVerification (env : Env) (email : String) : Action String := do
  match ← UsersService.findByEmail email with
  | none => throw (badRequestError ErrorMessages.ACCOUNT_NOT_FOUND)
  | some user =>
    if user.is_verified then throw (badRequestError ErrorMessages.ACCOUNT_ALREADY_VERIFIED)
    else
      let now : ℕ ← perform .dateNow
      let resendCount ← VerificationOtpService.countRecentResends user.id (now - 60 * 60 * 1000)
      if env.VERIFICATION_RESEND_LIMIT_PER_HOUR ≤ resendCount then
        throw (.http ⟨429, ErrorMessages.TOO_MANY_REQUESTS, none, []⟩)
      else
        let issuedOtp ← VerificationOtpService.issue env user.id .resend
        sendVerificationOtp user issuedOtp
        pure SuccessMessages.VERIFICATION_EMAIL_RESENT

def loginUser (env : Env) (user : User) (password : String) : Action LoginResult := do
  if user.is_verified = false then
    throw (.http ⟨403, ErrorMessages.EMAIL_NOT_VERIFIED, some "EMAIL_NOT_VERIFIED", [("email", user.email)]⟩)
  else if user.two_fa_enabled then
    -- JwtModule's default secret is the access secret
    let tempToken ← perform (.signAsync
      { sub := user.id, email := none, role := none, onboardingComplete := none
        type := some "2fa_pending", jti := none }
      false env.JWT_ACCESS_SECRET (5 * 60 * 1000))
    pure (.twoFaNeeded ErrorMessages.TWO_FA_REQUIRED tempToken)
  else
    match user.password with
    | none => throw (unauthorizedError ErrorMessages.INVALID_CREDENTIALS)
    | some hash =>
      if hash.verify password then
        let result ← issueTokens env user SuccessMessages.LOGIN
        pure (.session result)
      else throw (unauthorizedError ErrorMessages.INVALID_CREDENTIALS)

def login (env : Env) (email password : String) : Action LoginResult := do
  match ← UsersService.findByEmail email with
  | none => throw (unauthorizedError ErrorMessages.INVALID_CREDENTIALS)
  | some user => loginUser env user password

def forgotPassword (email : String) : Action String := do
  match ← UsersService.findByEmail (trim email) with
  | none => pure SuccessMessages.FORGOT_PASSWORD
  | some user =>
    perform (.enqueuePasswordReset user.id)
    pure SuccessMessages.FORGOT_PASSWORD

def resetPassword (email otp password : String) : Action String := do
  match ← UsersService.findByEmail (trim email) with
  | none => throw (badRequestError ErrorMessages.INVALID_OR_EXPIRED_OTP)
  | some user =>
    let valid ← PasswordResetOtpService.consume user.id otp
    if valid then
      let passwordHash ← perform (.hashText password)
      UsersService.updatePassword user.id passwordHash
      pure SuccessMessages.PASSWORD_UPDATED
    else throw (badRequestError ErrorMessages.INVALID_OR_EXPIRED_OTP)

def finalizeOAuthLogin (env : Env) (provider : String) (profile : OAuthProfilePayload)
    (signupRole : Option OAuthSignupRole) : Action AuthResult := do
  let user ← UsersService.resolveOAuthUserFromProviderProfile provider profile signupRole
  issueTokens env user SuccessMessages.LOGIN

def googleCallback (env : Env) (profile : GoogleProfile) (signupRole : Option OAuthSignupRole) :
    Action AuthResult :=
  finalizeOAuthLogin env "google"
    { providerId := profile.providerId
      email := profile.email
      firstName := profile.firstName
      lastName := profile.lastName
      avatarUrl := some profile.picture
      fits := profile.fits }
    signupRole

def refresh (env : Env) (refreshToken : Option Jwt) : Action RefreshResult := do
  match refreshToken with
  | none => throw (unauthorizedError ErrorMessages.INVALID_REFRESH_TOKEN)
  | some refreshToken =>
    let now : ℕ ← perform .dateNow
    match refreshToken.verify env.JWT_REFRESH_SECRET now with
    | .error _ => throw (unauthorizedError ErrorMessages.INVALID_REFRESH_TOKEN)
    | .ok payload =>
      match ← UsersService.findOneOrNull payload.sub with
      | none => throw (unauthorizedError ErrorMessages.REFRESH_TOKEN_REVOKED)
      | some user =>
        match user.refreshTokenHash with
        | none => throw (unauthorizedError ErrorMessages.REFRESH_TOKEN_REVOKED)
        | some refreshTokenHash =>
          if refreshTokenHash.verify refreshToken then
            let tokens ← signTokens env user
            let nextHash ← perform (.hashToken tokens.refreshToken)
            let rotated ← UsersService.rotateRefreshTokenHash user.id refreshTokenHash nextHash
            if rotated then pure { message := SuccessMessages.TOKEN_REFRESHED, tokens }
            else throw (unauthorizedError ErrorMessages.INVALID_REFRESH_TOKEN)
          else throw (unauthorizedError ErrorMessages.INVALID_REFRESH_TOKEN)

def logoutByRefreshToken (env : Env) (refreshToken : Option Jwt) : Action Unit := do
  match refreshToken with
  | none => pure ()
  | some refreshToken =>
    let now : ℕ ← perform .dateNow
    match refreshToken.verify env.JWT_REFRESH_SECRET now with
    | .error _ => pure ()
    | .ok payload =>
      match ← UsersService.findOneOrNull payload.sub with
      | none => pure ()
      | some user =>
        match user.refreshTokenHash with
        | none => pure ()
        | some refreshTokenHash =>
          if refreshTokenHash.verify refreshToken then UsersService.setRefreshTokenHash user.id none
          else pure ()

def getProfile (userId : UserId) : Action AuthUser := do
  let user ← UsersService.findOne userId
  pure (toAuthUser user)

def issueSessionForUser (env : Env) (userId : UserId) (message : String) : Action AuthResult := do
  let user ← UsersService.findOne userId
  issueTokens env user message

def setup2faTotp (env : Env) (user : AuthenticatedUser) : Action TotpSetup := do
  let secret ← perform .generateSecret
  let uri := env.otplib.generateURI "SkillBridge" user.email secret
  let encryptedSecret ← encrypt env secret
  UsersService.setup2faTotp user.sub encryptedSecret
  pure { uri, secret, message := SuccessMessages.TOTP_2FA_SETUP_SUCCESS }

def checkTotp (env : Env) (user : User) (code : String) : Action Unit := do
  match user.two_fa_totp_secret with
  | none => throw (badRequestError ErrorMessages.TWO_FA_NOT_SETUP)
  | some stored =>
    let decryptedSecret ← decrypt env stored
    let valid ← verifySync env decryptedSecret code
    if valid then pure () else throw (unauthorizedError ErrorMessages.TWO_FA_INVALID_CODE)

def enableTotp2fa (env : Env) (userId : UserId) (code : String) : Action String := do
  let user ← UsersService.findOne userId
  checkTotp env user code
  UsersService.set2faTotpActiveState userId true
  pure SuccessMessages.TOTP_2FA_ENABLE_SUCCESS

def disable2fa (env : Env) (userId : UserId) (code : String) : Action String := do
  let user ← UsersService.findOne userId
  if user.two_fa_method = some .totp then
    checkTotp env user code
    UsersService.set2faTotpActiveState userId false
    pure SuccessMessages.TOTP_2FA_DISABLE_SUCCESS
  else throw (badRequestError ErrorMessages.TWO_FA_NOT_SETUP)

def verify2fa (env : Env) (userId : UserId) (code : String) : Action AuthResult := do
  let user ← UsersService.findOne userId
  if user.two_fa_enabled = false ∨ user.two_fa_method = none then
    throw (badRequestError ErrorMessages.TWO_FA_NOT_SETUP)
  else
    checkTotp env user code
    issueTokens env user SuccessMessages.LOGIN

def getPostLoginRedirectPath (user : AuthUser) : String :=
  if user.onboardingComplete then
    match user.role with
    | .talent => "/dashboard"
    | .employer => "/discovery"
    | .admin => "/admin"
  else
    match user.role with
    | .talent => "/talent/onboarding"
    | .employer => "/employer/onboarding"
    | .admin => "/dashboard"

def buildFrontendRedirectUrl (env : Env) (user : AuthUser) : String :=
  env.FRONTEND_URL ++ getPostLoginRedirectPath user

end AuthService

namespace PasswordResetDeliveryService

def deliverForUser (env : Env) (userId : UserId) : Action Unit := do
  match ← UsersService.findOneOrNull userId with
  | none => pure ()
  | some user =>
    let issued ← PasswordResetOtpService.issue env user.id .initial
    perform (.sendPasswordReset
      { toAddress := user.email
        otp := issued.code
        expiresAt := issued.expiresAt
        recipientFirstName := user.first_name })

end PasswordResetDeliveryService

end SkillBridge
