import Mathlib.Data.List.TakeWhile
import SkillBridge.Api.Http
import SkillBridge.Inquiries.Service

set_option autoImplicit false

/-! The bodies of the onboarding, the waitlist and the contact messages: what the `ValidationPipe` admits. -/

namespace SkillBridge

/-- `/\S/` -/
def hasNonSpace (text : String) : Bool := text.toList.any fun c => !isJsSpace c

structure TextValidator extends Validator where
  isUrl : String → Bool
  length_empty : length "" = 0
  at_mem {email : String} : isEmail email = true → '@' ∈ email.toList

section Dtos

variable (validator : TextValidator) (body : Body)

def TextValidator.nonSpaceText (minLength maxLength : ℕ) (value : Json) : Option String :=
  (validator.text minLength maxLength value).filter hasNonSpace

def TextValidator.url (maxLength : ℕ) (value : Json) : Option String :=
  (validator.text 0 maxLength value).filter validator.isUrl

def TextValidator.anyEmail : Json → Option String
  | .string text => if validator.isEmail text then some text else none
  | _ => none

def JoiningAs.value : JoiningAs → String
  | talent => "talent"
  | employer => "employer"

def JOINING_AS : List JoiningAs := [.talent, .employer]

def JoinWaitlistDto.validate : Option JoinWaitlistDto := do
  guard (body.whitelisted ["joiningAs", "fullName", "email", "preferredRole", "referralSource"])
  let joiningAs ← body.required "joiningAs" (isIn JoiningAs.value JOINING_AS)
  let fullName ← body.required "fullName" (validator.text 1 255)
  let email ← body.required "email" validator.anyEmail
  let preferredRole ← body.optional "preferredRole" (validator.text 0 255)
  let referralSource ← body.optional "referralSource" (validator.text 0 255)
  pure { joiningAs, fullName, email, preferredRole := preferredRole.join, referralSource := referralSource.join }

def CreateContactMessageDto.validate : Option CreateContactMessageDto := do
  guard (body.whitelisted ["fullName", "email", "subject", "message"])
  let fullName ← body.required "fullName" (validator.text 2 255)
  let email ← body.required "email" validator.anyEmail
  let subject ← body.required "subject" (validator.text 3 255)
  let message ← body.required "message" (validator.text 10 5000)
  pure { fullName, email, subject, message }

def CompleteTalentOnboardingDto.validate : Option CompleteTalentOnboardingDto := do
  guard (body.whitelisted ["roleTrack", "bio"])
  let roleTrack ← body.required "roleTrack" (validator.nonSpaceText 2 50)
  let bio ← body.optional "bio" (validator.text 0 1000)
  pure { roleTrack, bio := bio.join }

def CompleteEmployerOnboardingDto.validate : Option CompleteEmployerOnboardingDto := do
  guard (body.whitelisted
    ["companyName", "companySize", "industry", "websiteUrl", "companyDescription", "hiringRegion"])
  let companyName ← body.required "companyName" (validator.nonSpaceText 0 255)
  let companySize ← body.optional "companySize" (validator.text 0 50)
  let industry ← body.optional "industry" (validator.text 0 100)
  let websiteUrl ← body.optional "websiteUrl" (validator.url 255)
  let companyDescription ← body.optional "companyDescription" (validator.text 0 2000)
  let hiringRegion ← body.optional "hiringRegion" (validator.text 0 100)
  pure { companyName, companySize := companySize.join, industry := industry.join, websiteUrl := websiteUrl.join
         companyDescription := companyDescription.join, hiringRegion := hiringRegion.join }

end Dtos

structure AdmittedBody {Dto : Type} (validate : Body → Option Dto) where
  body : Body
  dto : Dto
  admitted : validate body = some dto

section Trimming

theorem mem_dropWhile_iff {α : Type} {p : α → Bool} {a : α} (ha : p a = false) (l : List α) :
    a ∈ l.dropWhile p ↔ a ∈ l := by
  constructor
  · exact fun h => (List.dropWhile_sublist p).subset h
  · intro h
    induction l with
    | nil => exact h
    | cons b l ih =>
      by_cases hb : p b = true
      · rw [List.dropWhile_cons_of_pos hb]
        apply ih
        apply List.mem_of_ne_of_mem _ h
        rintro rfl
        simp [ha] at hb
      · rwa [List.dropWhile_cons_of_neg hb]

theorem mem_trim_iff {c : Char} (hc : isJsSpace c = false) (text : String) :
    c ∈ (trim text).toList ↔ c ∈ text.toList := by
  simp only [trim, String.toList_ofList, List.mem_reverse, mem_dropWhile_iff hc]

theorem hasNonSpace_iff (text : String) : hasNonSpace text = true ↔ ∃ c ∈ text.toList, isJsSpace c = false := by
  simp [hasNonSpace]

theorem hasNonSpace_trim (text : String) : hasNonSpace (trim text) = true ↔ hasNonSpace text = true := by
  simp only [hasNonSpace_iff]
  constructor
  · rintro ⟨c, hmem, hc⟩
    exact ⟨c, (mem_trim_iff hc text).mp hmem, hc⟩
  · rintro ⟨c, hmem, hc⟩
    exact ⟨c, (mem_trim_iff hc text).mpr hmem, hc⟩

theorem trim_eq_empty (text : String) (h : hasNonSpace text = false) : trim text = "" := by
  have hspaces : ∀ c ∈ text.toList, isJsSpace c = true := by
    simpa [hasNonSpace] using h
  have hnil : text.toList.dropWhile isJsSpace = [] := List.dropWhile_eq_nil_iff.mpr hspaces
  simp [trim, hnil]

theorem length_trim_le (text : String) : (trim text).length ≤ text.length := by
  have hstart := (List.dropWhile_sublist isJsSpace (l := text.toList)).length_le
  have hend := (List.dropWhile_sublist isJsSpace (l := (text.toList.dropWhile isJsSpace).reverse)).length_le
  simp only [trim, String.length_ofList, List.length_reverse] at hend ⊢
  exact hend.trans hstart

end Trimming

section Bodies

variable {validator : TextValidator} {body : Body}

theorem nonSpaceText_eq {minLength maxLength : ℕ} {value : Json} {text : String}
    (h : validator.nonSpaceText minLength maxLength value = some text) : hasNonSpace text = true :=
  (Option.filter_eq_some_iff.mp h).2

theorem anyEmail_at {value : Json} {email : String} (h : validator.anyEmail value = some email) :
    '@' ∈ email.toList := by
  cases value with
  | string text =>
    simp only [TextValidator.anyEmail, Option.ite_none_right_eq_some] at h
    obtain ⟨hemail, heq⟩ := h
    cases heq
    exact validator.at_mem hemail
  | null => cases h
  | other => cases h

theorem required_eq {α : Type} {name : String} {check : Json → Option α} {a : α}
    (h : body.required name check = some a) : ∃ value, check value = some a := by
  obtain ⟨value, -, hcheck⟩ := Option.bind_eq_some_iff.mp h
  exact ⟨value, hcheck⟩

theorem optional_eq {α : Type} {name : String} {check : Json → Option α} {a : Option (Option α)}
    (h : body.optional name check = some a) : ∀ text ∈ a.join, ∃ value, check value = some text := by
  intro text htext
  unfold Body.optional at h
  split at h
  · cases h
    cases htext
  · cases h
    cases htext
  · next value _ _ =>
    obtain ⟨checked, hchecked, rfl⟩ := Option.map_eq_some_iff.mp h
    cases htext
    exact ⟨value, hchecked⟩

theorem text_length {minLength maxLength : ℕ} {value : Json} {text : String}
    (h : validator.text minLength maxLength value = some text) : validator.length text ≤ maxLength := by
  cases value with
  | string given =>
    simp only [Validator.text, Option.ite_none_right_eq_some] at h
    obtain ⟨⟨-, hmax⟩, heq⟩ := h
    cases heq
    exact hmax
  | null => cases h
  | other => cases h

theorem filter_length {minLength maxLength : ℕ} {value : Json} {text : String} {p : String → Bool}
    (h : (validator.text minLength maxLength value).filter p = some text) : validator.length text ≤ maxLength :=
  text_length (Option.filter_eq_some_iff.mp h).1

theorem optional_length {name : String} {minLength maxLength : ℕ} {a : Option (Option String)}
    (h : body.optional name (validator.text minLength maxLength) = some a) :
    ∀ text ∈ a.join, validator.length text ≤ maxLength := by
  intro text htext
  obtain ⟨value, hvalue⟩ := optional_eq h text htext
  exact text_length hvalue

theorem roleTrack_admitted (request : AdmittedBody (CompleteTalentOnboardingDto.validate validator)) :
    ∃ value, validator.nonSpaceText 2 50 value = some request.dto.roleTrack := by
  obtain ⟨body, dto, h⟩ := request
  simp only [CompleteTalentOnboardingDto.validate, Option.bind_eq_bind, Option.bind_eq_some_iff] at h
  obtain ⟨-, -, roleTrack, hroleTrack, _, -, hdto⟩ := h
  cases hdto
  exact required_eq hroleTrack

theorem companyName_admitted (request : AdmittedBody (CompleteEmployerOnboardingDto.validate validator)) :
    ∃ value, validator.nonSpaceText 0 255 value = some request.dto.companyName := by
  obtain ⟨body, dto, h⟩ := request
  simp only [CompleteEmployerOnboardingDto.validate, Option.bind_eq_bind, Option.bind_eq_some_iff] at h
  obtain ⟨-, -, companyName, hcompanyName, _, -, _, -, _, -, _, -, _, -, hdto⟩ := h
  cases hdto
  exact required_eq hcompanyName

theorem company_lengths (request : AdmittedBody (CompleteEmployerOnboardingDto.validate validator)) :
    (∀ text ∈ request.dto.companySize, validator.length text ≤ 50) ∧
    (∀ text ∈ request.dto.industry, validator.length text ≤ 100) ∧
    (∀ text ∈ request.dto.websiteUrl, validator.length text ≤ 255) ∧
    ∀ text ∈ request.dto.hiringRegion, validator.length text ≤ 100 := by
  obtain ⟨body, dto, h⟩ := request
  simp only [CompleteEmployerOnboardingDto.validate, Option.bind_eq_bind, Option.bind_eq_some_iff] at h
  obtain ⟨-, -, _, -, _, hsize, _, hindustry, _, hurl, _, -, _, hregion, hdto⟩ := h
  cases hdto
  refine ⟨optional_length hsize, optional_length hindustry, ?_, optional_length hregion⟩
  intro text htext
  obtain ⟨value, hvalue⟩ := optional_eq hurl text htext
  exact filter_length hvalue

theorem waitlist_email_at (request : AdmittedBody (JoinWaitlistDto.validate validator)) :
    '@' ∈ request.dto.email.toList := by
  obtain ⟨body, dto, h⟩ := request
  simp only [JoinWaitlistDto.validate, Option.bind_eq_bind, Option.bind_eq_some_iff] at h
  obtain ⟨-, -, _, -, _, -, email, hemail, _, -, _, -, hdto⟩ := h
  obtain ⟨value, hvalue⟩ := required_eq hemail
  cases hdto
  exact anyEmail_at hvalue

theorem waitlist_lengths (request : AdmittedBody (JoinWaitlistDto.validate validator)) :
    validator.length request.dto.fullName ≤ 255 ∧
    (∀ text ∈ request.dto.preferredRole, validator.length text ≤ 255) ∧
    ∀ text ∈ request.dto.referralSource, validator.length text ≤ 255 := by
  obtain ⟨body, dto, h⟩ := request
  simp only [JoinWaitlistDto.validate, Option.bind_eq_bind, Option.bind_eq_some_iff] at h
  obtain ⟨-, -, _, -, fullName, hname, _, -, _, hrole, _, hsource, hdto⟩ := h
  obtain ⟨value, hvalue⟩ := required_eq hname
  cases hdto
  exact ⟨text_length hvalue, optional_length hrole, optional_length hsource⟩

theorem contact_email_at (request : AdmittedBody (CreateContactMessageDto.validate validator)) :
    '@' ∈ request.dto.email.toList := by
  obtain ⟨body, dto, h⟩ := request
  simp only [CreateContactMessageDto.validate, Option.bind_eq_bind, Option.bind_eq_some_iff] at h
  obtain ⟨-, -, _, -, email, hemail, _, -, _, -, hdto⟩ := h
  obtain ⟨value, hvalue⟩ := required_eq hemail
  cases hdto
  exact anyEmail_at hvalue

theorem contact_lengths (request : AdmittedBody (CreateContactMessageDto.validate validator)) :
    validator.length request.dto.fullName ≤ 255 ∧ validator.length request.dto.subject ≤ 255 := by
  obtain ⟨body, dto, h⟩ := request
  simp only [CreateContactMessageDto.validate, Option.bind_eq_bind, Option.bind_eq_some_iff] at h
  obtain ⟨-, -, fullName, hname, _, -, subject, hsubject, _, -, hdto⟩ := h
  obtain ⟨nameValue, hnameValue⟩ := required_eq hname
  obtain ⟨subjectValue, hsubjectValue⟩ := required_eq hsubject
  cases hdto
  exact ⟨text_length hnameValue, text_length hsubjectValue⟩

end Bodies

end SkillBridge
