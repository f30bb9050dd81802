import SkillBridge.Api.Http
import SkillBridge.Api.Footprint

set_option autoImplicit false

/-! What the validation lets through to the services. -/

namespace SkillBridge

open Interleaving Prog

section Parse

variable (validator : Validator)

def HttpRequest.parse : HttpRequest → Option Request
  | register body => (RegisterDto.validate validator body).map .register
  | createUser credentials body => (CreateUserDto.validate validator body).map (.createUser credentials)
  | updateUser credentials id body => (UpdateUserDto.validate validator body).map (.updateUser credentials id)
  | googleSignup _ => none
  | googleCallback profile signupRoleCookie =>
    some (.googleCallback profile (normalizeOAuthSignupRole signupRoleCookie))
  | validated req _ => some req

end Parse

/-- What a request that is not valid may still do: `JwtStrategy` reads the caller. -/
inductive Op.Authenticates : Op → Prop
  | dateNow : Op.Authenticates .dateNow
  | findUser (id : UserId) : Op.Authenticates (.findUser none id)

variable {env : Env} {cookies : CookieEnv} {validator : Validator} {req : HttpRequest} {typed : Request}

theorem serve_of_parse (h : req.parse validator = some typed) :
    serve env cookies validator req = handle env typed := by
  cases req with
  | register body =>
    obtain ⟨dto, hdto, rfl⟩ := Option.map_eq_some_iff.mp h
    simp only [serve, hdto]
  | createUser credentials body =>
    obtain ⟨dto, hdto, rfl⟩ := Option.map_eq_some_iff.mp h
    simp only [serve, hdto]
  | updateUser credentials id body =>
    obtain ⟨dto, hdto, rfl⟩ := Option.map_eq_some_iff.mp h
    simp only [serve, hdto]
  | googleSignup role => cases h
  | googleCallback profile signupRoleCookie =>
    cases h
    rfl
  | validated req hrole =>
    cases h
    rfl

theorem jwtAuthGuard_authenticates (credentials : Credentials) :
    (jwtAuthGuard env credentials).Calls Op.Authenticates := by
  unfold jwtAuthGuard
  split
  · trivial
  · refine calls_bind (calls_perform .dateNow) fun now => ?_
    split
    · trivial
    · refine calls_bind (calls_perform (.findUser _)) fun row => ?_
      cases row <;> trivial

theorem rejected_authenticates (credentials : Credentials) :
    (guarded env [.admin] credentials fun _ => Prog.throw validationFailed).Calls Op.Authenticates := by
  refine calls_bind (jwtAuthGuard_authenticates credentials) fun user => calls_bind ?_ fun _ => trivial
  unfold rolesGuard
  split_ifs <;> trivial

theorem serve_authenticates (h : req.parse validator = none) :
    (serve env cookies validator req).Calls Op.Authenticates := by
  cases req with
  | register body =>
    simp only [serve, Option.map_eq_none_iff.mp h]
    trivial
  | createUser credentials body =>
    simp only [serve, Option.map_eq_none_iff.mp h]
    exact rejected_authenticates credentials
  | updateUser credentials id body =>
    simp only [serve, Option.map_eq_none_iff.mp h]
    exact rejected_authenticates credentials
  | googleSignup role =>
    simp only [serve]
    split <;> trivial
  | googleCallback profile signupRoleCookie => cases h
  | validated req hrole => cases h

theorem serve_along {G : Option Request → ApiCall → List ApiCall → Prop}
    (authenticates : ∀ typed c l, c.1.Authenticates → G typed c l)
    (handled : ∀ typed, (handle env typed).Along (G (some typed)) (fun _ _ => True) []) :
    (serve env cookies validator req).Along (G (req.parse validator)) (fun _ _ => True) [] := by
  cases h : req.parse validator with
  | none => exact along_of_calls (fun c l => authenticates none c l) (serve_authenticates h) fun _ _ _ => trivial
  | some typed =>
    rw [serve_of_parse h]
    exact handled typed

section Passwords

def Request.password : Request → Option String
  | register dto => some dto.password
  | createUser _ dto => some dto.password
  | updateUser _ _ dto => dto.password.join
  | resetPassword _ _ password => some password
  | _ => none

/-- `@MinLength(8)` and `@MaxLength(128)`. -/
def validPassword (validator : Validator) (password : String) : Prop :=
  8 ≤ validator.length password ∧ validator.length password ≤ 128

instance (validator : Validator) (password : String) : Decidable (validPassword validator password) :=
  inferInstanceAs (Decidable (_ ∧ _))

def HttpRequest.resetsValidly (validator : Validator) : HttpRequest → Bool
  | validated (.resetPassword _ _ password) _ => decide (validPassword validator password)
  | _ => true

theorem validPassword_of_text {value : Json} {password : String} (h : validator.text 8 128 value = some password) :
    validPassword validator password := by
  cases value with
  | string text =>
    simp only [Validator.text] at h
    split_ifs at h with hlength
    obtain rfl := Option.some.inj h
    exact hlength
  | null => cases h
  | other => cases h

theorem exists_of_required {α : Type} {body : Body} {name : String} {check : Json → Option α} {a : α}
    (h : body.required name check = some a) : ∃ value, check value = some a := by
  obtain ⟨value, -, hcheck⟩ := Option.bind_eq_some_iff.mp h
  exact ⟨value, hcheck⟩

theorem exists_of_optional {α : Type} {body : Body} {name : String} {check : Json → Option α} {a : α}
    {field : Option (Option α)} (h : body.optional name check = some field) (ha : field.join = some a) :
    ∃ value, check value = some a := by
  unfold Body.optional at h
  split at h
  · cases h
    cases ha
  · cases h
    cases ha
  · obtain ⟨a', hcheck, rfl⟩ := Option.map_eq_some_iff.mp h
    obtain rfl : a' = a := Option.some.inj ha
    exact ⟨_, hcheck⟩

theorem RegisterDto.password_valid {body : Body} {dto : RegisterDto}
    (h : RegisterDto.validate validator body = some dto) : validPassword validator dto.password := by
  simp only [RegisterDto.validate, Option.bind_eq_bind, Option.bind_eq_some_iff] at h
  obtain ⟨-, -, email, -, password, hpassword, firstName, -, lastName, -, role, -, reason, -, hdto⟩ := h
  obtain ⟨value, hcheck⟩ := exists_of_required hpassword
  cases hdto
  exact validPassword_of_text hcheck

theorem CreateUserDto.password_valid {body : Body} {dto : CreateUserDto}
    (h : CreateUserDto.validate validator body = some dto) : validPassword validator dto.password := by
  simp only [CreateUserDto.validate, Option.bind_eq_bind, Option.bind_eq_some_iff] at h
  obtain ⟨-, -, email, -, password, hpassword, first_name, -, last_name, -, country, -, url, -, reason, -, role, -,
    hdto⟩ := h
  obtain ⟨value, hcheck⟩ := exists_of_required hpassword
  cases hdto
  exact validPassword_of_text hcheck

theorem UpdateUserDto.password_valid {body : Body} {dto : UpdateUserDto}
    (h : UpdateUserDto.validate validator body = some dto) {text : String}
    (htext : dto.password.join = some text) : validPassword validator text := by
  simp only [UpdateUserDto.validate, Option.bind_eq_bind, Option.bind_eq_some_iff] at h
  obtain ⟨-, -, email, -, password, hpassword, first_name, -, last_name, -, country, -, url, -, reason, -, role, -,
    hdto⟩ := h
  cases hdto
  obtain ⟨value, hcheck⟩ := exists_of_optional hpassword htext
  exact validPassword_of_text hcheck

theorem validPassword_of_parse (h : req.parse validator = some typed) (resets : req.resetsValidly validator = true)
    {password : String} (hpassword : typed.password = some password) : validPassword validator password := by
  cases req with
  | register body =>
    obtain ⟨dto, hdto, rfl⟩ := Option.map_eq_some_iff.mp h
    obtain rfl := Option.some.inj hpassword
    exact dto.password_valid hdto
  | createUser credentials body =>
    obtain ⟨dto, hdto, rfl⟩ := Option.map_eq_some_iff.mp h
    obtain rfl := Option.some.inj hpassword
    exact dto.password_valid hdto
  | updateUser credentials id body =>
    obtain ⟨dto, hdto, rfl⟩ := Option.map_eq_some_iff.mp h
    exact dto.password_valid hdto hpassword
  | googleSignup role => cases h
  | googleCallback profile signupRoleCookie =>
    cases h
    cases hpassword
  | validated req hrole =>
    cases h
    cases typed with
    | resetPassword email otp text =>
      obtain rfl := Option.some.inj hpassword
      exact of_decide_eq_true resets
    | register => cases hrole
    | createUser => cases hrole
    | updateUser => cases hrole
    | _ => cases hpassword

end Passwords

def validatedHttp (env : Env) (cookies : CookieEnv) (validator : Validator) :
    System backend Database Draw Tick HttpRequest Response :=
  { http env cookies validator with admits := fun _ req => req.resetsValidly validator }

end SkillBridge
