import SkillBridge.Api.Requests

set_option autoImplicit false

/-!
The bodies that leave the server for the routes of `/users`, `GET /auth/me` and the onboarding: entities go through
`ClassSerializerInterceptor`, and `src/common/interceptors/transform.interceptor.ts` puts the envelope around them.
-/

namespace SkillBridge

/-- The properties of a `User` without those marked `@Exclude()`, with the getter marked `@Expose()`. -/
structure PlainUser where
  id : UserId
  email : String
  first_name : String
  last_name : String
  avatar_url : Option String
  country : String
  is_verified : Bool
  onboarding_complete : Bool
  fullname : String
  role : UserRole
  signup_reason : Option String
  two_fa_enabled : Bool
  two_fa_method : Option TwoFactorAuthMethod
  two_fa_totp_secret : Option String
  createdAt : ℕ
  updatedAt : ℕ
  deriving DecidableEq

/-- What the bodies take from elsewhere: `updated_at`, which no service reads, and the object that `create` of
`@hng-sdk/orm` makes of the row it has inserted, which need not be a `User`. -/
structure Rendering (γ : Type) where
  updatedAt : UserId → ℕ
  created : User → γ

variable {γ : Type} (rendering : Rendering γ)

def ClassSerializerInterceptor.serialize (user : User) : PlainUser :=
  { user with fullname := user.fullname, updatedAt := rendering.updatedAt user.id }

inductive ResponseBody (γ : Type)
  | created (status_code : ℕ) (message : String) (data : γ)
  | user (status_code : ℕ) (message : String) (data : PlainUser)
  | page (status_code : ℕ) (message : String) (data : List PlainUser) (total : ℕ)
  | profile (status_code : ℕ) (message : String) (data : AuthUser)
  | talentOnboarding (status_code : ℕ) (message : String) (user : AuthUser) (profile : TalentProfile)
  | employerOnboarding (status_code : ℕ) (message : String) (user : AuthUser) (profile : EmployerProfile)

def Request.statusCode : Request → ℕ
  | createUser _ _ => 201
  | _ => 200

/-- What has a `message` keeps it, a page becomes `data` with its `meta`, the rest becomes `data`. The tokens of an
onboarding are in the cookies. -/
def TransformInterceptor.intercept (statusCode total : ℕ) : Response → Option (ResponseBody γ)
  | .created user => some (.created statusCode SuccessMessages.SUCCESS (rendering.created user))
  | .user user =>
    some (.user statusCode SuccessMessages.SUCCESS (ClassSerializerInterceptor.serialize rendering user))
  | .users users =>
    some (.page statusCode SuccessMessages.SUCCESS (users.map (ClassSerializerInterceptor.serialize rendering)) total)
  | .profile user => some (.profile statusCode SuccessMessages.SUCCESS user)
  | .talentOnboarding result => some (.talentOnboarding statusCode result.message result.user result.profile)
  | .employerOnboarding result => some (.employerOnboarding statusCode result.message result.user result.profile)
  | _ => none

end SkillBridge
