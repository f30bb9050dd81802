import SkillBridge.Onboarding.Service

set_option autoImplicit false

/-! The controllers behind the global guards, as one system of concurrent requests. -/

namespace SkillBridge

open Interleaving

/-- The tokens in the `access_token` cookie and in the `Authorization` header. A text that is no token of
this server is a token of another secret. -/
structure Credentials where
  accessCookie : Option Jwt := none
  authorization : Option Jwt := none

inductive Request
  | register (dto : RegisterDto)
  | verifyEmail (email otp : String)
  | resendVerification (email : String)
  | login (email password : String)
  | forgotPassword (email : String)
  | deliverPasswordReset (userId : UserId)
  | resetPassword (email otp password : String)
  | googleCallback (profile : GoogleProfile) (signupRole : Option OAuthSignupRole)
  | refresh (refreshToken : Option Jwt)
  | logout (refreshToken : Option Jwt)
  | verify2fa (authorization : Option Jwt) (code : String)
  | me (credentials : Credentials)
  | setup2faTotp (credentials : Credentials)
  | enable2faTotp (credentials : Credentials) (code : String)
  | disable2fa (credentials : Credentials) (code : String)
  | talentOnboarding (credentials : Credentials) (dto : CompleteTalentOnboardingDto)
  | employerOnboarding (credentials : Credentials) (dto : CompleteEmployerOnboardingDto)
  | createUser (credentials : Credentials) (dto : CreateUserDto)
  | listUsers (credentials : Credentials) (pagination : PaginationDto)
  | getUser (credentials : Credentials) (id : UserId)
  | updateUser (credentials : Credentials) (id : UserId) (dto : UpdateUserDto)
  | deleteUser (credentials : Credentials) (id : UserId)

inductive Response
  | message (message : String)
  | session (message : String) (user : AuthUser) (tokens : AuthTokens)
  | refreshed (message : String) (tokens : AuthTokens)
  | twoFaNeeded (message : String) (state_token : Jwt)
  | profile (user : AuthUser)
  | totpSetup (setup : TotpSetup)
  | redirect (url : String) (tokens : Option AuthTokens)
  | talentOnboarding (result : OnboardingResult TalentProfile)
  | employerOnboarding (result : OnboardingResult EmployerProfile)
  | created (user : User)
  | user (user : User)
  | users (users : List User)
  | noContent

def AuthTokens.toList (tokens : AuthTokens) : List Jwt := [tokens.accessToken, tokens.refreshToken]

def Response.authTokens : Response → Option AuthTokens
  | session _ _ tokens => some tokens
  | refreshed _ tokens => some tokens
  | redirect _ tokens => tokens
  | talentOnboarding result => some result.tokens
  | employerOnboarding result => some result.tokens
  | _ => none

def Response.stateToken : Response → Option Jwt
  | twoFaNeeded _ state_token => some state_token
  | _ => none

def Response.jwts (response : Response) : List Jwt :=
  (response.authTokens.elim [] AuthTokens.toList) ++ response.stateToken.toList

def JwtStrategy.validate (payload : JwtPayload) : Action AuthenticatedUser := do
  match ← UsersService.findOneOrNull payload.sub with
  | none => throw (unauthorizedError ErrorMessages.INVALID_ACCESS_TOKEN)
  | some user => pure { sub := user.id, email := user.email, role := user.role
                        onboardingComplete := user.onboarding_complete }

def Credentials.token (credentials : Credentials) : Option Jwt :=
  credentials.accessCookie <|> credentials.authorization

def jwtAuthGuard (env : Env) (credentials : Credentials) : Action AuthenticatedUser := do
  match credentials.token with
  | none => throw unauthorizedException
  | some token =>
    let now : ℕ ← perform .dateNow
    match token.verify env.JWT_ACCESS_SECRET now with
    | .error _ => throw unauthorizedException
    | .ok payload => JwtStrategy.validate payload

def rolesGuard (requiredRoles : List UserRole) (user : AuthenticatedUser) : Action Unit :=
  if requiredRoles = [] ∨ user.role ∈ requiredRoles then pure ()
  else throw (forbiddenError ErrorMessages.INSUFFICIENT_PERMISSIONS)

def twoFaPendingGuard (env : Env) (authorization : Option Jwt) : Action UserId := do
  match authorization with
  | none => throw unauthorizedException
  | some token =>
    let now : ℕ ← perform .dateNow
    match token.verify env.JWT_ACCESS_SECRET now with
    | .error .tokenExpiredError => throw (unauthorizedError "state_token has expired")
    | .error .jsonWebTokenError => throw unauthorizedException
    | .ok payload => if payload.type = some "2fa_pending" then pure payload.sub else throw unauthorizedException

def guarded (env : Env) (requiredRoles : List UserRole) (credentials : Credentials)
    (handler : AuthenticatedUser → Action Response) : Action Response := do
  let user ← jwtAuthGuard env credentials
  rolesGuard requiredRoles user
  handler user

namespace AuthController

def verifyEmail (env : Env) (email otp : String) : Action Response := do
  let result ← AuthService.verifyEmail env email otp
  pure (.session result.message result.user result.tokens)

def login (env : Env) (email password : String) : Action Response := do
  match ← AuthService.login env email password with
  | .twoFaNeeded message state_token => pure (.twoFaNeeded message state_token)
  | .session result => pure (.session result.message result.user result.tokens)

def googleAuthRedirect (env : Env) (profile : GoogleProfile) (signupRole : Option OAuthSignupRole) :
    Action Response :=
  tryCatch (do
      let result ← AuthService.googleCallback env profile signupRole
      pure (.redirect (AuthService.buildFrontendRedirectUrl env result.user) (some result.tokens)))
    fun error =>
      let key := if error = .oauthSignupRoleRequired then "oauth_role_required" else "oauth_failed"
      pure (.redirect s!"{env.FRONTEND_URL}/login?error={key}" none)

def refresh (env : Env) (refreshToken : Option Jwt) : Action Response := do
  let result ← AuthService.refresh env refreshToken
  pure (.refreshed result.message result.tokens)

def logout (env : Env) (refreshToken : Option Jwt) : Action Response := do
  AuthService.logoutByRefreshToken env refreshToken
  pure (.message SuccessMessages.LOGGED_OUT)

def verify2fa (env : Env) (authorization : Option Jwt) (code : String) : Action Response := do
  let sub ← twoFaPendingGuard env authorization
  let result ← AuthService.verify2fa env sub code
  pure (.session result.message result.user result.tokens)

end AuthController

def handle (env : Env) : Request → Action Response
  | .register dto => .message <$> AuthService.register env dto
  | .verifyEmail email otp => AuthController.verifyEmail env email otp
  | .resendVerification email => .message <$> AuthService.resendVerification env email
  | .login email password => AuthController.login env email password
  | .forgotPassword email => .message <$> AuthService.forgotPassword email
  | .deliverPasswordReset userId =>
    (fun _ => .noContent) <$> PasswordResetDeliveryService.deliverForUser env userId
  | .resetPassword email otp password => .message <$> AuthService.resetPassword email otp password
  | .googleCallback profile signupRole => AuthController.googleAuthRedirect env profile signupRole
  | .refresh refreshToken => AuthController.refresh env refreshToken
  | .logout refreshToken => AuthController.logout env refreshToken
  | .verify2fa authorization code => AuthController.verify2fa env authorization code
  | .me credentials => guarded env [] credentials fun user => .profile <$> AuthService.getProfile user.sub
  | .setup2faTotp credentials => guarded env [] credentials fun user =>
    .totpSetup <$> AuthService.setup2faTotp env user
  | .enable2faTotp credentials code => guarded env [] credentials fun user =>
    .message <$> AuthService.enableTotp2fa env user.sub code
  | .disable2fa credentials code => guarded env [] credentials fun user =>
    .message <$> AuthService.disable2fa env user.sub code
  | .talentOnboarding credentials dto => guarded env [.talent] credentials fun user =>
    .talentOnboarding <$> TalentService.completeOnboarding env user.sub dto
  | .employerOnboarding credentials dto => guarded env [.employer] credentials fun user =>
    .employerOnboarding <$> EmployerService.completeOnboarding env user.sub dto
  | .createUser credentials dto => guarded env [.admin] credentials fun _ => .created <$> UsersService.create dto
  | .listUsers credentials pagination => guarded env [.admin] credentials fun _ =>
    .users <$> UsersService.findAll pagination
  | .getUser credentials id => guarded env [.admin] credentials fun _ => .user <$> UsersService.findOne id
  | .updateUser credentials id dto => guarded env [.admin] credentials fun _ =>
    .user <$> UsersService.update id dto
  | .deleteUser credentials id => guarded env [.admin] credentials fun _ =>
    (fun _ => .noContent) <$> UsersService.remove id

def Request.credentials : Request → Option Credentials
  | me c | setup2faTotp c | enable2faTotp c _ | disable2fa c _ | talentOnboarding c _
  | employerOnboarding c _ | createUser c _ | listUsers c _ | getUser c _ | updateUser c _ _
  | deleteUser c _ => some c
  | _ => none

def Request.jwts : Request → List Jwt
  | refresh refreshToken => refreshToken.toList
  | logout refreshToken => refreshToken.toList
  | verify2fa authorization _ => authorization.toList
  | req => req.credentials.elim [] fun c => c.accessCookie.toList ++ c.authorization.toList

abbrev ApiPool : Type := Pool backend Database Request Response

def enqueues (userId : UserId) (e : Event backend Database Request) : Bool :=
  match e.call with
  | ⟨.enqueuePasswordReset id, .ok _⟩ => id = userId
  | _ => false

def issued (p : ApiPool) : List Jwt :=
  p.procs.flatMap fun proc =>
    match proc.prog with
    | .ret response => response.jwts
    | _ => []

/-- Signatures cannot be forged: a token of this server has been issued before it is presented. -/
def admits (env : Env) (p : ApiPool) (req : Request) : Bool :=
  (req.jwts.all fun token =>
    (token.secret ≠ env.JWT_ACCESS_SECRET && token.secret ≠ env.JWT_REFRESH_SECRET) || token ∈ issued p) &&
  match req with
  | .deliverPasswordReset userId => p.world.trace.any (enqueues userId)
  | _ => true

def api (env : Env) : System backend Database Draw Tick Request Response :=
  { server with body := handle env, admits := admits env }

end SkillBridge
