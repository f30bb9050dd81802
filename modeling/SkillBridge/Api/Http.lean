import SkillBridge.Api.Requests
import SkillBridge.Auth.SignupRole

set_option autoImplicit false

/-!
The requests as they come in from outside, with the values that a role is read from: a field of a JSON
body, a segment of the path, a cookie. The other bodies hold no role, and their requests are taken as they
are after the validation.
-/

namespace SkillBridge

open Interleaving

/-- A value of a JSON body; numbers, booleans, arrays and objects are not told apart. -/
inductive Json
  | null
  | string (text : String)
  | other
  deriving DecidableEq

abbrev Body : Type := List (String × Json)

namespace Body

variable {α : Type} (body : Body)

def required (name : String) (check : Json → Option α) : Option α := (body.lookup name).bind check

/-- `@IsOptional()`: a missing field is `some none`, a `null` is `some (some none)`. -/
def optional (name : String) (check : Json → Option α) : Option (Option (Option α)) :=
  match body.lookup name with
  | none => some none
  | some .null => some (some none)
  | some value => (check value).map fun a => some (some a)

/-- `whitelist` with `forbidNonWhitelisted`. -/
def whitelisted (names : List String) : Bool := body.all fun field => field.1 ∈ names

def isBlank : Json → Bool
  | .string text => trim text = ""
  | _ => false

def withoutBlank (name : String) : Body := body.filter fun field => !(field.1 = name && isBlank field.2)

end Body

def isIn {α : Type} (value : α → String) (values : List α) : Json → Option α
  | .string text => values.find? fun a => value a = text
  | _ => none

/-- `class-validator`: `isEmail` tells which texts are addresses, and `length` is what `isLength` compares: it
counts a character and its variation selector once. -/
structure Validator where
  isEmail : String → Bool
  length : String → ℕ

namespace Validator

variable (validator : Validator)

/-- `@IsString()`, `@MinLength()` and `@MaxLength()`. -/
def text (minLength maxLength : ℕ) : Json → Option String
  | .string text => if minLength ≤ validator.length text ∧ validator.length text ≤ maxLength then some text else none
  | _ => none

def notBlank (maxLength : ℕ) (value : Json) : Option String :=
  (validator.text 1 maxLength value).filter fun text => trim text ≠ ""

def email (value : Json) : Option String := (validator.text 0 255 value).filter fun text => validator.isEmail text

end Validator

def sampleValidator : Validator := ⟨fun _ => true, String.length⟩

def RegisterDto.validate (validator : Validator) (body : Body) : Option RegisterDto := do
  let body := body.withoutBlank "reasonForJoining"
  guard (body.whitelisted ["email", "password", "firstName", "lastName", "role", "reasonForJoining"])
  let email ← body.required "email" validator.email
  let password ← body.required "password" (validator.text 8 128)
  let firstName ← body.required "firstName" (validator.notBlank 255)
  let lastName ← body.required "lastName" (validator.notBlank 255)
  let role ← body.required "role" (isIn OAuthSignupRole.value OAUTH_SIGNUP_ROLES)
  let reasonForJoining ← body.optional "reasonForJoining" (validator.notBlank 255)
  pure { email, password, firstName, lastName, role, reasonForJoining := reasonForJoining.join }

def createUserFields : List String :=
  ["email", "password", "first_name", "last_name", "country", "profile_pic_url", "signup_reason", "role"]

def CreateUserDto.validate (validator : Validator) (body : Body) : Option CreateUserDto := do
  guard (body.whitelisted createUserFields)
  let email ← body.required "email" validator.email
  let password ← body.required "password" (validator.text 8 128)
  let first_name ← body.required "first_name" (validator.text 1 255)
  let last_name ← body.required "last_name" (validator.text 1 255)
  let country ← body.required "country" (validator.text 2 100)
  let profile_pic_url ← body.optional "profile_pic_url" (validator.text 0 500)
  let signup_reason ← body.optional "signup_reason" (validator.text 0 255)
  let role ← body.optional "role" (isIn UserRole.value USER_ROLE_VALUES)
  pure { email, password, first_name, last_name, country
         profile_pic_url := profile_pic_url.join, signup_reason := signup_reason.join, role := role.join }

/-- `PartialType(CreateUserDto)`: the same checks, and every field may be missing or `null`. -/
def UpdateUserDto.validate (validator : Validator) (body : Body) : Option UpdateUserDto := do
  guard (body.whitelisted createUserFields)
  let email ← body.optional "email" validator.email
  let password ← body.optional "password" (validator.text 8 128)
  let first_name ← body.optional "first_name" (validator.text 1 255)
  let last_name ← body.optional "last_name" (validator.text 1 255)
  let country ← body.optional "country" (validator.text 2 100)
  let profile_pic_url ← body.optional "profile_pic_url" (validator.text 0 500)
  let signup_reason ← body.optional "signup_reason" (validator.text 0 255)
  let role ← body.optional "role" (isIn UserRole.value USER_ROLE_VALUES)
  pure { email, password, first_name, last_name, country, profile_pic_url, signup_reason, role }

def validationFailed : Failure := .http ⟨400, "Bad Request Exception", some "Bad Request", []⟩

def Request.carriesRole : Request → Bool
  | register _ | createUser _ _ | updateUser _ _ _ | googleCallback _ _ => true
  | _ => false

inductive HttpRequest
  | register (body : Body)
  | createUser (credentials : Credentials) (body : Body)
  | updateUser (credentials : Credentials) (id : UserId) (body : Body)
  | googleSignup (role : String)
  | googleCallback (profile : GoogleProfile) (signupRoleCookie : Option String)
  | validated (req : Request) (h : req.carriesRole = false)

/-- The body is validated after the guards have run. -/
def serve (env : Env) (cookies : CookieEnv) (validator : Validator) : HttpRequest → Action Response
  | .register body =>
    match RegisterDto.validate validator body with
    | some dto => handle env (.register dto)
    | none => throw validationFailed
  | .createUser credentials body =>
    match CreateUserDto.validate validator body with
    | some dto => handle env (.createUser credentials dto)
    | none => guarded env [.admin] credentials fun _ => throw validationFailed
  | .updateUser credentials id body =>
    match UpdateUserDto.validate validator body with
    | some dto => handle env (.updateUser credentials id dto)
    | none => guarded env [.admin] credentials fun _ => throw validationFailed
  | .googleSignup role =>
    match GoogleOAuthGuard.canActivate cookies s!"/api/v1/auth/google/signup/{role}" (some role) with
    | .ok _ => pure (.redirect "https://accounts.google.com/o/oauth2/v2/auth" none)
    | .error e => throw e
  | .googleCallback profile signupRoleCookie =>
    handle env (.googleCallback profile (normalizeOAuthSignupRole signupRoleCookie))
  | .validated req _ => handle env req

/-- Any token may be presented, forged ones included. -/
def http (env : Env) (cookies : CookieEnv) (validator : Validator) :
    System backend Database Draw Tick HttpRequest Response :=
  { server with body := serve env cookies validator, admits := fun _ _ => true }

abbrev HttpPool : Type := Pool backend Database HttpRequest Response

abbrev HttpEvent : Type := Event backend Database HttpRequest

def Request.usersRoute : Request → Option Credentials
  | createUser c _ | listUsers c _ | getUser c _ | updateUser c _ _ | deleteUser c _ => some c
  | _ => none

def HttpRequest.usersRoute : HttpRequest → Option Credentials
  | createUser c _ | updateUser c _ _ => some c
  | validated req _ => req.usersRoute
  | _ => none

section Rewriting

def Credentials.map (f : Jwt → Jwt) (c : Credentials) : Credentials :=
  ⟨c.accessCookie.map f, c.authorization.map f⟩

def Request.mapAccess (f : Jwt → Jwt) : Request → Request
  | verify2fa authorization code => verify2fa (authorization.map f) code
  | me c => me (c.map f)
  | setup2faTotp c => setup2faTotp (c.map f)
  | enable2faTotp c code => enable2faTotp (c.map f) code
  | disable2fa c code => disable2fa (c.map f) code
  | talentOnboarding c dto => talentOnboarding (c.map f) dto
  | employerOnboarding c dto => employerOnboarding (c.map f) dto
  | createUser c dto => createUser (c.map f) dto
  | listUsers c pagination => listUsers (c.map f) pagination
  | getUser c id => getUser (c.map f) id
  | updateUser c id dto => updateUser (c.map f) id dto
  | deleteUser c id => deleteUser (c.map f) id
  | req => req

theorem Request.carriesRole_mapAccess (f : Jwt → Jwt) (req : Request) :
    (req.mapAccess f).carriesRole = req.carriesRole := by
  cases req <;> rfl

def HttpRequest.mapAccess (f : Jwt → Jwt) : HttpRequest → HttpRequest
  | createUser c body => createUser (c.map f) body
  | updateUser c id body => updateUser (c.map f) id body
  | validated req h => validated (req.mapAccess f) ((req.carriesRole_mapAccess f).trans h)
  | req => req

end Rewriting

end SkillBridge
