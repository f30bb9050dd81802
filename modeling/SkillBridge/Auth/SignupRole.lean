import Mathlib.Data.List.Infix
import SkillBridge.Users.Service

set_option autoImplicit false

/-! `oauth-signup-role.ts`, `auth.cookies.ts` and `google-auth.guard.ts` of `src/modules/auth`. -/

namespace SkillBridge

def UserRole.value : UserRole → String
  | admin => "admin"
  | talent => "talent"
  | employer => "employer"

def USER_ROLE_VALUES : List UserRole := [.admin, .talent, .employer]

def OAUTH_SIGNUP_ROLES : List OAuthSignupRole := [.talent, .employer]

def OAuthSignupRole.value (role : OAuthSignupRole) : String := role.toUserRole.value

def normalizeOAuthSignupRole (value : Option String) : Option OAuthSignupRole :=
  OAUTH_SIGNUP_ROLES.find? fun role => value = some role.value

@[simp] theorem normalizeOAuthSignupRole_value (role : OAuthSignupRole) :
    normalizeOAuthSignupRole (some role.value) = some role := by
  cases role <;> decide

@[simp] theorem normalizeOAuthSignupRole_none : normalizeOAuthSignupRole none = none := rfl

inductive SameSite
  | strict
  | lax
  | none
  deriving DecidableEq

structure CookieEnv where
  AUTH_COOKIE_SAMESITE : Option SameSite := none
  production : Bool := false

structure CookieOptions where
  httpOnly : Bool
  secure : Bool
  sameSite : SameSite
  path : String
  maxAge : ℕ
  deriving DecidableEq

def authCookieSameSite (env : CookieEnv) : SameSite := env.AUTH_COOKIE_SAMESITE.getD .strict

def authCookieSecure (env : CookieEnv) : Bool := authCookieSameSite env = .none || env.production

def OAUTH_SIGNUP_ROLE_MAX_AGE_MS : ℕ := 10 * 60 * 1000

def buildOAuthSignupRoleCookieOptions (env : CookieEnv) : CookieOptions where
  httpOnly := true
  secure := authCookieSecure env
  sameSite := authCookieSameSite env
  path := "/"
  maxAge := OAUTH_SIGNUP_ROLE_MAX_AGE_MS

def OAUTH_SIGNUP_ROLE_COOKIE := "oauth_signup_role"

inductive SetCookie
  | set (value : String) (options : CookieOptions)
  | clear (options : CookieOptions)
  deriving DecidableEq

def setOAuthSignupRoleCookie (env : CookieEnv) (role : OAuthSignupRole) : SetCookie :=
  .set role.value (buildOAuthSignupRoleCookieOptions env)

def clearOAuthSignupRoleCookie (env : CookieEnv) : SetCookie :=
  .clear (buildOAuthSignupRoleCookieOptions env)

/-- `cookies` are the entries of the header, decoded. -/
def readCookie (cookies : List (String × String)) (cookieName : String) : Option String :=
  (cookies.lookup cookieName).filter fun value => value ≠ ""

/-- What `GoogleOAuthGuard.canActivate` does before passport takes over, by the path and its parameter. -/
def GoogleOAuthGuard.canActivate (env : CookieEnv) (path : String) (role : Option String) :
    Except Failure (Option SetCookie) :=
  if "/google/signup/".toList <:+: path.toList then
    match role with
    | some role =>
      match normalizeOAuthSignupRole (some role) with
      | some normalizedRole => .ok (some (setOAuthSignupRoleCookie env normalizedRole))
      | none => .error (badRequestError ErrorMessages.INVALID_OAUTH_SIGNUP_ROLE)
    | none => .ok (some (clearOAuthSignupRoleCookie env))
  else .ok none

end SkillBridge
