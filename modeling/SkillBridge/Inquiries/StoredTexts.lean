import SkillBridge.Api.TextBodies
import SkillBridge.Onboarding.Histories

set_option autoImplicit false

/-!
The columns that admitted texts are stored in: the services trim them and put e-mails into lower case only
after the validation.
-/

namespace SkillBridge

open Interleaving Prog

/-- `toLowerCase`, of which little is known but that it leaves `@` as it is. -/
structure LowerCase where
  toLowerCase : String → String
  at_mem {text : String} : '@' ∈ text.toList → '@' ∈ (toLowerCase text).toList

inductive Submission (validator : TextValidator)
  | talentOnboarding (userId : UserId) (request : AdmittedBody (CompleteTalentOnboardingDto.validate validator))
  | employerOnboarding (userId : UserId) (request : AdmittedBody (CompleteEmployerOnboardingDto.validate validator))
  | joinWaitlist (request : AdmittedBody (JoinWaitlistDto.validate validator))
  | createContactMessage (request : AdmittedBody (CreateContactMessageDto.validate validator))

/-!
The columns of the rows that are stored, as the entities declare them. What a DTO requires comes with the
least length that the DTO declares; a `varchar` comes with its length.
-/

structure Column where
  value : Option String
  minLength : Option ℕ
  length : Option ℕ

def Column.required (minLength : ℕ) (length : Option ℕ) (value : String) : Column :=
  ⟨some value, some minLength, length⟩

def Column.nullable (length : Option ℕ) (value : Option String) : Column := ⟨value, none, length⟩

def NewWaitlistEntry.columns (entry : NewWaitlistEntry) : List Column :=
  [.required 0 (some 255) entry.email,
   .nullable (some 20) (entry.joiningAs.map JoiningAs.value),
   ⟨entry.fullName, some 1, some 255⟩,
   .nullable (some 255) entry.preferredRole,
   .nullable (some 255) entry.referralSource]

def NewContactMessage.columns (message : NewContactMessage) : List Column :=
  [.required 2 (some 255) message.fullName,
   .required 0 (some 255) message.email,
   .required 3 (some 255) message.subject,
   .required 10 none message.message]

def TalentProfile.columns (profile : TalentProfile) : List Column :=
  [.required 2 (some 50) profile.role_track,
   .nullable none profile.bio,
   .nullable (some 255) profile.profile_share_link]

def EmployerProfile.columns (profile : EmployerProfile) : List Column :=
  [.required 0 (some 255) profile.company_name,
   .nullable (some 50) profile.company_size,
   .nullable (some 100) profile.industry,
   .nullable (some 255) profile.website_url,
   .nullable none profile.company_description,
   .nullable (some 100) profile.hiring_region]

structure Column.Holds (validator : TextValidator) (column : Column) : Prop where
  required : ∀ minLength ∈ column.minLength, ∃ text ∈ column.value,
    hasNonSpace text = true ∧ minLength ≤ validator.length text
  fits : ∀ length ∈ column.length, ∀ text ∈ column.value, text.length ≤ length

def WaitlistOp.StoresTexts (validator : TextValidator) : WaitlistOp → Prop
  | findOne _ => True
  | save entry => ∀ column ∈ entry.columns, column.Holds validator

def ContactMessageOp.StoresTexts (validator : TextValidator) : ContactMessageOp → Prop
  | save message => ∀ column ∈ message.columns, column.Holds validator

def Op.StoresTexts (validator : TextValidator) : Op → Prop
  | .insertTalentProfile _ profile => ∀ id, ∀ column ∈ (profile id).columns, column.Holds validator
  | .insertEmployerProfile _ profile => ∀ id, ∀ column ∈ (profile id).columns, column.Holds validator
  | _ => True

/-- Whatever the database answers, every row that the service asks it to store holds its texts. -/
def Submission.StoresTexts (env : Env) (lowerCase : LowerCase) {validator : TextValidator} :
    Submission validator → Prop
  | talentOnboarding userId request =>
    (TalentService.completeOnboarding env userId request.dto).Calls (Op.StoresTexts validator)
  | employerOnboarding userId request =>
    (EmployerService.completeOnboarding env userId request.dto).Calls (Op.StoresTexts validator)
  | joinWaitlist request =>
    (InquiriesService.joinWaitlist lowerCase.toLowerCase request.dto).Calls (WaitlistOp.StoresTexts validator)
  | createContactMessage request =>
    (InquiriesService.createContactMessage lowerCase.toLowerCase request.dto).Calls
      (ContactMessageOp.StoresTexts validator)

/-! When it does so, in terms of the texts in the body. -/

/-- The required texts, with the least length that their trimmed texts are to keep. -/
def Submission.minimums {validator : TextValidator} : Submission validator → List (ℕ × String)
  | talentOnboarding _ request => [(2, request.dto.roleTrack)]
  | employerOnboarding _ _ => []
  | joinWaitlist request => [(1, request.dto.fullName)]
  | createContactMessage request =>
    [(2, request.dto.fullName), (3, request.dto.subject), (10, request.dto.message)]

def Submission.limits {validator : TextValidator} : Submission validator → List (ℕ × Option String)
  | talentOnboarding _ request => [(50, some request.dto.roleTrack)]
  | employerOnboarding _ request =>
    [(255, some request.dto.companyName), (50, request.dto.companySize), (100, request.dto.industry),
     (255, request.dto.websiteUrl), (100, request.dto.hiringRegion)]
  | joinWaitlist request =>
    [(255, some request.dto.fullName), (255, request.dto.preferredRole), (255, request.dto.referralSource)]
  | createContactMessage request => [(255, some request.dto.fullName), (255, some request.dto.subject)]

def Submission.email {validator : TextValidator} : Submission validator → Option String
  | joinWaitlist request => some request.dto.email
  | createContactMessage request => some request.dto.email
  | _ => none

/-- Only a text whose characters `isLength` does not all count may be too long for its column. -/
structure Submission.Storable (lowerCase : LowerCase) {validator : TextValidator} (s : Submission validator) :
    Prop where
  minimums : ∀ minimum ∈ s.minimums, minimum.1 ≤ validator.length (trim minimum.2)
  limits : ∀ limit ∈ s.limits, ∀ text ∈ limit.2, validator.length text < text.length → (trim text).length ≤ limit.1
  email : ∀ email ∈ s.email, (InquiriesService.normalizedEmail lowerCase.toLowerCase email).length ≤ 255

theorem admitted_limits {validator : TextValidator} (s : Submission validator) :
    ∀ limit ∈ s.limits, ∀ text ∈ limit.2, validator.length text ≤ limit.1 := by
  cases s with
  | talentOnboarding userId request =>
    obtain ⟨value, hvalue⟩ := roleTrack_admitted request
    simpa [Submission.limits] using filter_length hvalue
  | employerOnboarding userId request =>
    obtain ⟨value, hvalue⟩ := companyName_admitted request
    obtain ⟨hsize, hindustry, hurl, hregion⟩ := company_lengths request
    simp only [Submission.limits, List.forall_mem_cons]
    refine ⟨?_, hsize, hindustry, hurl, hregion, by simp⟩
    simpa using filter_length hvalue
  | joinWaitlist request =>
    obtain ⟨hname, hrole, hsource⟩ := waitlist_lengths request
    simp only [Submission.limits, List.forall_mem_cons]
    exact ⟨by simpa using hname, hrole, hsource, by simp⟩
  | createContactMessage request =>
    obtain ⟨hname, hsubject⟩ := contact_lengths request
    simp only [Submission.limits, List.forall_mem_cons]
    exact ⟨by simpa using hname, by simpa using hsubject, by simp⟩

section Columns

variable {validator : TextValidator} {lowerCase : LowerCase} {minLength : ℕ} {length : Option ℕ} {text : String}

theorem hasNonSpace_of_length (hmin : 0 < minLength) (h : minLength ≤ validator.length (trim text)) :
    hasNonSpace text = true := by
  by_contra hblank
  rw [trim_eq_empty text (by simpa using hblank), validator.length_empty] at h
  omega

theorem required_holds_iff : (Column.required minLength length text).Holds validator ↔
    hasNonSpace text = true ∧ minLength ≤ validator.length text ∧ ∀ n ∈ length, text.length ≤ n := by
  constructor
  · intro h
    obtain ⟨stored, hstored, hspace, hlength⟩ := h.required minLength rfl
    cases hstored
    exact ⟨hspace, hlength, fun n hn => h.fits n hn text rfl⟩
  · intro ⟨hspace, hlength, hfits⟩
    constructor
    · intro least hleast
      cases hleast
      exact ⟨text, rfl, hspace, hlength⟩
    · intro n hn stored hstored
      cases hstored
      exact hfits n hn

theorem nullable_holds_iff {value : Option String} : (Column.nullable length value).Holds validator ↔
    ∀ n ∈ length, ∀ text ∈ value, text.length ≤ n := by
  constructor
  · exact Column.Holds.fits
  · intro hfits
    constructor
    · intro least hleast
      cases hleast
    · exact hfits

theorem minimum_holds_iff (hmin : 0 < minLength) : (Column.required minLength length (trim text)).Holds validator ↔
    minLength ≤ validator.length (trim text) ∧ ∀ n ∈ length, (trim text).length ≤ n := by
  rw [required_holds_iff, hasNonSpace_trim, and_iff_right_of_imp]
  exact fun h => hasNonSpace_of_length hmin h.1

theorem nonSpace_holds_iff (hspace : hasNonSpace text = true) :
    (Column.required 0 length (trim text)).Holds validator ↔ ∀ n ∈ length, (trim text).length ≤ n := by
  simp [required_holds_iff, hasNonSpace_trim, hspace]

theorem trimToNull_holds_iff {value : Option String} : (Column.nullable length (trimToNull value)).Holds validator ↔
    ∀ n ∈ length, ∀ text ∈ value, (trim text).length ≤ n := by
  rw [nullable_holds_iff]
  cases value with
  | none => simp [trimToNull]
  | some text =>
    by_cases hempty : trim text = ""
    · simp [trimToNull, hempty]
    · simp [trimToNull, hempty]

theorem null_holds : (Column.nullable length none).Holds validator := by
  simp [nullable_holds_iff]

theorem joiningAs_holds (joiningAs : JoiningAs) :
    (Column.nullable (some 20) (some joiningAs.value)).Holds validator := by
  have hlength : joiningAs.value.length ≤ 20 := by cases joiningAs <;> decide
  simpa [nullable_holds_iff] using hlength

theorem email_holds_iff {email : String} (hat : '@' ∈ email.toList) :
    (Column.required 0 (some 255) (InquiriesService.normalizedEmail lowerCase.toLowerCase email)).Holds validator ↔
      (InquiriesService.normalizedEmail lowerCase.toLowerCase email).length ≤ 255 := by
  have hspace : hasNonSpace (InquiriesService.normalizedEmail lowerCase.toLowerCase email) = true := by
    have htrim : '@' ∈ (trim email).toList := (mem_trim_iff (by decide) email).mpr hat
    exact (hasNonSpace_iff _).mpr ⟨'@', lowerCase.at_mem htrim, by decide⟩
  simp [required_holds_iff, hspace]

end Columns

section Services

variable {validator : TextValidator} {env : Env} {userId : UserId} {toLowerCase : String → String}

theorem outside_storesTexts {α : Type} {p : Action α} (h : p.Calls Op.Outside) :
    p.Calls (Op.StoresTexts validator) := by
  apply calls_imp h
  intro o houtside
  cases o <;> trivial

theorem completeOnboarding_storesTexts {Profile : Type} {find : TxId → Action (Option Profile)}
    {profileExists message : String} {save : TxId → Action Profile}
    (hfind : ∀ tx, (find tx).Calls (Op.StoresTexts validator))
    (hsave : ∀ tx, (save tx).Calls (Op.StoresTexts validator)) :
    (Onboarding.completeOnboarding env userId find profileExists save message).Calls (Op.StoresTexts validator) := by
  apply calls_bind
  · exact calls_transaction trivial (fun _ => trivial) (fun _ => trivial) fun tx =>
      Onboarding.calls_saveProfile trivial trivial (hfind tx) (hsave tx)
  · intro profile
    apply outside_storesTexts
    exact calls_bind (issueSessionForUser_outside _ message) fun _ => trivial

theorem talent_storesTexts_iff (dto : CompleteTalentOnboardingDto) :
    (TalentService.completeOnboarding env userId dto).Calls (Op.StoresTexts validator) ↔
      ∀ column ∈ [Column.required 2 (some 50) (trim dto.roleTrack), .nullable none (trimToNull dto.bio),
        .nullable (some 255) none], column.Holds validator := by
  constructor
  · intro h
    have hread := (h.2 (.ok (0 : ℕ))).2 (.ok (some sampleUser))
    exact (hread.2 (.ok none)).1 0
  · intro h
    apply completeOnboarding_storesTexts
    · exact fun tx => calls_perform trivial
    · exact fun tx => calls_perform fun id => h

theorem employer_storesTexts_iff (dto : CompleteEmployerOnboardingDto) :
    (EmployerService.completeOnboarding env userId dto).Calls (Op.StoresTexts validator) ↔
      ∀ column ∈ [Column.required 0 (some 255) (trim dto.companyName),
        .nullable (some 50) (trimToNull dto.companySize), .nullable (some 100) (trimToNull dto.industry),
        .nullable (some 255) (trimToNull dto.websiteUrl), .nullable none (trimToNull dto.companyDescription),
        .nullable (some 100) (trimToNull dto.hiringRegion)], column.Holds validator := by
  constructor
  · intro h
    have hread := (h.2 (.ok (0 : ℕ))).2 (.ok (some sampleUser))
    exact (hread.2 (.ok none)).1 0
  · intro h
    apply completeOnboarding_storesTexts
    · exact fun tx => calls_perform trivial
    · exact fun tx => calls_perform fun id => h

theorem waitlist_storesTexts_iff (dto : JoinWaitlistDto) :
    (InquiriesService.joinWaitlist toLowerCase dto).Calls (WaitlistOp.StoresTexts validator) ↔
      ∀ column ∈ [Column.required 0 (some 255) (InquiriesService.normalizedEmail toLowerCase dto.email),
        .nullable (some 20) (some dto.joiningAs.value), .required 1 (some 255) (trim dto.fullName),
        .nullable (some 255) (trimToNull dto.preferredRole), .nullable (some 255) (trimToNull dto.referralSource)],
        column.Holds validator := by
  constructor
  · intro h
    exact (h.2 (.ok none)).1
  · intro h
    refine calls_bind (calls_perform trivial) fun existingEntry => ?_
    cases existingEntry with
    | some _ => trivial
    | none => exact calls_bind (calls_perform h) fun _ => trivial

theorem contact_storesTexts_iff (dto : CreateContactMessageDto) :
    (InquiriesService.createContactMessage toLowerCase dto).Calls (ContactMessageOp.StoresTexts validator) ↔
      ∀ column ∈ [Column.required 2 (some 255) (trim dto.fullName),
        .required 0 (some 255) (InquiriesService.normalizedEmail toLowerCase dto.email),
        .required 3 (some 255) (trim dto.subject), .required 10 none (trim dto.message)],
        column.Holds validator := by
  constructor
  · exact And.left
  · intro h
    exact calls_bind (calls_perform h) fun _ => trivial

end Services

section Refusals

variable {validator : TextValidator}

theorem fitsColumn_iff {length : Option ℕ} {text : String} (h : ∀ n ∈ length, text.length ≤ n) :
    fitsColumn length text = true ↔ ∀ c ∈ text.toList, c.toNat ≠ 0 := by
  have hblank : (length.all fun n => (text.toList.drop n).all (· = ' ')) = true := by
    refine (Option.all_eq_true _ _).mpr fun n hn => ?_
    have hlength := h n hn
    rw [← String.length_toList] at hlength
    rw [List.drop_eq_nil_of_le hlength]
    rfl
  rw [fitsColumn, hblank, Bool.and_true]
  simp

/-- Of a row whose columns hold their texts, the database refuses no text but one with a NUL. -/
theorem fitsColumns_iff {columns : List Column} (h : ∀ column ∈ columns, column.Holds validator) :
    fitsColumns (columns.map fun column => (column.length, column.value)) = true ↔
      ∀ column ∈ columns, ∀ text ∈ column.value, ∀ c ∈ text.toList, c.toNat ≠ 0 := by
  simp only [fitsColumns, List.all_map, List.all_eq_true, Function.comp_apply, Option.all_eq_true]
  refine forall₂_congr fun column hcolumn => forall₂_congr fun text htext => ?_
  exact fitsColumn_iff fun n hn => (h column hcolumn).fits n hn text htext

theorem TalentProfile.fits_iff {profile : TalentProfile} (h : ∀ column ∈ profile.columns, column.Holds validator) :
    profile.fits = true ↔ ∀ column ∈ profile.columns, ∀ text ∈ column.value, ∀ c ∈ text.toList, c.toNat ≠ 0 :=
  fitsColumns_iff h

theorem EmployerProfile.fits_iff {profile : EmployerProfile}
    (h : ∀ column ∈ profile.columns, column.Holds validator) :
    profile.fits = true ↔ ∀ column ∈ profile.columns, ∀ text ∈ column.value, ∀ c ∈ text.toList, c.toNat ≠ 0 :=
  fitsColumns_iff h

end Refusals

theorem storable_iff {validator : TextValidator} {lowerCase : LowerCase} (s : Submission validator) :
    s.Storable lowerCase ↔ (∀ minimum ∈ s.minimums, minimum.1 ≤ validator.length (trim minimum.2)) ∧
      (∀ limit ∈ s.limits, ∀ text ∈ limit.2, (trim text).length ≤ limit.1) ∧
      ∀ email ∈ s.email, (InquiriesService.normalizedEmail lowerCase.toLowerCase email).length ≤ 255 := by
  constructor
  · intro h
    refine ⟨h.minimums, fun limit hlimit text htext => ?_, h.email⟩
    -- a text that is counted in full is no longer than the validation allows
    by_cases hcounted : validator.length text < text.length
    · exact h.limits limit hlimit text htext hcounted
    · have hadmitted := admitted_limits s limit hlimit text htext
      have htrim := length_trim_le text
      omega
  · intro ⟨minimums, limits, email⟩
    exact ⟨minimums, fun limit hlimit text htext _ => limits limit hlimit text htext, email⟩

theorem stores_texts_iff (env : Env) (lowerCase : LowerCase) {validator : TextValidator}
    (submission : Submission validator) :
    submission.StoresTexts env lowerCase ↔ submission.Storable lowerCase := by
  rw [storable_iff]
  cases submission with
  | talentOnboarding userId request =>
    rw [Submission.StoresTexts, talent_storesTexts_iff]
    simp [Submission.minimums, Submission.limits, Submission.email, minimum_holds_iff, trimToNull_holds_iff,
      null_holds]
  | employerOnboarding userId request =>
    obtain ⟨value, hvalue⟩ := companyName_admitted request
    have hspace := nonSpaceText_eq hvalue
    rw [Submission.StoresTexts, employer_storesTexts_iff]
    simp [Submission.minimums, Submission.limits, Submission.email, trimToNull_holds_iff,
      nonSpace_holds_iff hspace]
  | joinWaitlist request =>
    rw [Submission.StoresTexts, waitlist_storesTexts_iff]
    simp only [Submission.minimums, Submission.limits, Submission.email, List.mem_cons, List.not_mem_nil, or_false,
      forall_eq_or_imp, forall_eq, forall_eq', Option.mem_def, Option.some.injEq, true_and, zero_lt_one,
      minimum_holds_iff, trimToNull_holds_iff, joiningAs_holds, email_holds_iff (waitlist_email_at request)]
    constructor
    · intro ⟨hemail, ⟨hminimum, hname⟩, hrole, hsource⟩
      exact ⟨hminimum, ⟨hname, hrole, hsource⟩, hemail⟩
    · intro ⟨hminimum, ⟨hname, hrole, hsource⟩, hemail⟩
      exact ⟨hemail, ⟨hminimum, hname⟩, hrole, hsource⟩
  | createContactMessage request =>
    rw [Submission.StoresTexts, contact_storesTexts_iff]
    simp only [Submission.minimums, Submission.limits, Submission.email, List.mem_cons, List.not_mem_nil, or_false,
      forall_eq_or_imp, forall_eq, forall_eq', Option.mem_def, Option.some.injEq, Nat.ofNat_pos, reduceCtorEq,
      IsEmpty.forall_iff, implies_true, and_true, minimum_holds_iff, email_holds_iff (contact_email_at request)]
    constructor
    · intro ⟨⟨hmin, hname⟩, hemail, ⟨hminSubject, hsubject⟩, hmessage⟩
      exact ⟨⟨hmin, hminSubject, hmessage⟩, ⟨hname, hsubject⟩, hemail⟩
    · intro ⟨⟨hmin, hminSubject, hmessage⟩, ⟨hname, hsubject⟩, hemail⟩
      exact ⟨⟨hmin, hname⟩, hemail, ⟨hminSubject, hsubject⟩, hmessage⟩

def sampleTextValidator : TextValidator where
  isEmail text := '@' ∈ text.toList
  isUrl _ := true
  length := String.length
  length_empty := rfl
  at_mem h := by simpa using h

def sampleLowerCase : LowerCase := ⟨id, id⟩

def blankName : Body :=
  [("joiningAs", .string "talent"), ("fullName", .string "   "), ("email", .string "ada@example.com")]

theorem blankName_isSome : (JoinWaitlistDto.validate sampleTextValidator blankName).isSome = true := by
  decide +kernel

theorem blank_name_stored : ¬ ∀ (env : Env) (lowerCase : LowerCase) (validator : TextValidator)
    (submission : Submission validator), submission.StoresTexts env lowerCase := by
  intro h
  have hstores := h sampleEnv sampleLowerCase sampleTextValidator
    (.joinWaitlist ⟨blankName, Option.get _ blankName_isSome, (Option.some_get _).symm⟩)
  rw [Submission.StoresTexts, waitlist_storesTexts_iff] at hstores
  have hname : (Column.required 1 (some 255) (trim (Option.get _ blankName_isSome).fullName)).Holds
      sampleTextValidator := hstores _ (by simp)
  have hlength := ((minimum_holds_iff Nat.one_pos).mp hname).1
  have hblank : sampleTextValidator.length (trim (Option.get _ blankName_isSome).fullName) = 0 := by decide +kernel
  omega

end SkillBridge
