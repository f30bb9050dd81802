import Mathlib.Tactic.Common
import SkillBridge.Shared.Errors

set_option autoImplicit false

/-! `src/common/filters/http-exception.filter.ts`. -/

namespace SkillBridge

/-- What the response of an exception holds beside `message` and `error`. Nest adds `statusCode` where it builds
the response from a text. -/
def HttpException.rest (e : HttpException) : List (String × String) :=
  if e.details = [] ∧ (e.error.isSome ∨ Failure.http e = unauthorizedException) then
    [("statusCode", toString e.status)]
  else e.details

structure ErrorBody where
  success : Bool
  status_code : ℕ
  error : String
  message : String
  details : List (String × String)
  path : String
  timestamp : ℕ
  deriving DecidableEq

namespace HttpExceptionFilter

def InternalServerError := "InternalServerError"

def error (e : HttpException) : String :=
  e.error.getD (if Failure.http e = unauthorizedException then "UnauthorizedException" else InternalServerError)

def «catch» (exception : Failure) (url : String) (now : ℕ) : ErrorBody :=
  match exception with
  | .http e => ⟨false, e.status, error e, e.message, e.rest, url, now⟩
  | .oauthSignupRoleRequired =>
    ⟨false, 400, "Bad Request", ErrorMessages.OAUTH_SIGNUP_ROLE_REQUIRED, [("statusCode", "400")], url, now⟩
  | _ => ⟨false, 500, InternalServerError, ErrorMessages.INTERNAL_SERVER_ERROR, [], url, now⟩

end HttpExceptionFilter

end SkillBridge
