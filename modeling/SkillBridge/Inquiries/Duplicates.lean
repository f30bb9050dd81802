import SkillBridge.Common.HttpExceptionFilter
import SkillBridge.Inquiries.Service
import SkillBridge.Interleaving.Enrolment
import SkillBridge.Interleaving.Sequential
import SkillBridge.Users.Service

set_option autoImplicit false

/-! Concurrent registrations of one e-mail, in the table of the users and in that of the waitlist. -/

namespace SkillBridge

open Interleaving Enrolment

def IsConflict (message : String) (e : Failure) : Prop :=
  e = conflictError message ∧ ∀ url now, (HttpExceptionFilter.catch e url now).status_code = 409

theorem isConflict_iff {message : String} {e : Failure} : IsConflict message e ↔ e = conflictError message := by
  constructor
  · exact And.left
  · rintro rfl
    exact ⟨rfl, fun _ _ => rfl⟩

section Users

variable (email : String)

def registrations : System backend Database Draw Tick { dto : CreateUserDto // dto.email = email } User :=
  { server.reliable with body := fun dto => UsersService.create dto.1, admits := fun _ _ => true }

def isEmail (user : User) : Bool := user.email = email

def Database.users (db : Database) : List User := db.tables.users

/-- No open transaction is about to insert the e-mail. -/
def Database.Unclaimed (db : Database) : Prop := (db.others none).any (Write.insertsEmail email) = false

def CreateUserDto.fits (dto : CreateUserDto) : Bool :=
  fitsColumns [(some 255, some dto.email), (some 255, some dto.first_name), (some 255, some dto.last_name),
    (some 500, dto.profile_pic_url), (some 100, some dto.country), (some 255, trimToNull dto.signup_reason)]

def registration : Enrolment backend { dto : CreateUserDto // dto.email = email } (Digest String) User where
  look := .findUserByEmail email
  found := Option.isSome (α := User)
  fits dto := dto.1.fits
  prepare dto := Prog.perform (S := backend) (.hashText dto.1.password)
  insert dto passwordHash := .insertUser none
    { email := dto.1.email
      password := some passwordHash
      first_name := dto.1.first_name
      last_name := dto.1.last_name
      avatar_url := dto.1.profile_pic_url
      country := dto.1.country
      is_verified := false
      onboarding_complete := false
      role := dto.1.role.getD .talent
      signup_reason := trimToNull dto.1.signup_reason }
  result _ _ user := user
  conflict := conflictError ErrorMessages.EMAIL_ALREADY_REGISTERED
  clash := .queryFailed .uniqueViolation
  misfit := .queryFailed .dataException

theorem create_eq (dto : { dto : CreateUserDto // dto.email = email }) :
    UsersService.create dto.1 = (registration email).prog dto := by
  obtain ⟨dto, rfl⟩ := dto
  show Prog.call _ _ = Prog.call _ _
  congr 1
  funext reply
  cases reply with
  | error e => rfl
  | ok found =>
    cases found with
    | some user => rfl
    | none =>
      show Prog.call _ _ = Prog.call _ _
      congr 1
      funext reply
      cases reply with
      | error e => rfl
      | ok hash =>
        show Prog.call _ _ = Prog.call _ _
        congr 1
        funext reply
        cases reply <;> rfl

theorem insertUser_cases {db : Database} {payload : NewUser} (unclaimed : db.Unclaimed payload.email) :
    db.insertUser none payload = if payload.fits = false then some (.error (.queryFailed .dataException), db)
    else if db.users.any (isEmail payload.email) then some (.error (.queryFailed .uniqueViolation), db)
    else some (.ok (payload.toUser db.fresh db.dbNow), (db.save none (.insertUser payload db.fresh db.dbNow)).tick) := by
  unfold Database.insertUser Database.insertUnique
  rw [show (db.others none).any (Write.insertsEmail payload.email) = false from unclaimed]
  cases payload.fits <;> rfl

theorem registration_lawful : (registration email).Lawful (registrations email) Database.users (isEmail email)
    (fun o => ∃ text, o = .hashText text) (Database.Unclaimed email) where
  body := create_eq email
  reliable _ := rfl
  prepare dto := ⟨⟨_, rfl⟩, fun _ => trivial⟩
  quiet_ne := by
    rintro _ ⟨text, rfl⟩ h
    cases h
  insert_ne _ _ h := by cases h
  env m db h := ⟨h, rfl⟩
  look := by
    intro ω db reply t _ h
    obtain ⟨rfl, rfl⟩ := Prod.mk.inj (Option.some.inj h)
    refine ⟨rfl, _, rfl, ?_⟩
    show (db.tables.users.find? fun user => user.email = email).isSome = db.tables.users.any (isEmail email)
    rw [List.isSome_find?]
    rfl
  calls := by
    rintro _ ω db reply t ⟨text, rfl⟩ hvalid h
    obtain ⟨rfl, rfl⟩ := Prod.mk.inj (Option.some.inj h)
    exact ⟨hvalid, rfl, _, rfl⟩
  unfit := by
    rintro ⟨dto, rfl⟩ hash ω db reply t hvalid hfits h
    have hinsert := (insertUser_cases hvalid).symm.trans h
    split_ifs at hinsert with hmisfits htaken
    · cases hinsert
      exact ⟨rfl, rfl⟩
    · exact absurd hfits hmisfits
    · exact absurd hfits hmisfits
  stored := by
    rintro ⟨dto, rfl⟩ hash ω db reply t hvalid hfits hstored h
    have hinsert := (insertUser_cases hvalid).symm.trans h
    split_ifs at hinsert with hmisfits
    · exact absurd (hfits.symm.trans hmisfits) Bool.noConfusion
    · cases hinsert
      exact ⟨rfl, rfl⟩
  inserted := by
    rintro ⟨dto, rfl⟩ hash ω db reply t hvalid hfits hstored h
    have hinsert := (insertUser_cases hvalid).symm.trans h
    split_ifs at hinsert with hmisfits htaken
    · exact absurd (hfits.symm.trans hmisfits) Bool.noConfusion
    · exact absurd (hstored.symm.trans htaken) Bool.noConfusion
    · cases hinsert
      exact ⟨hvalid, _, _, rfl, decide_eq_true rfl, rfl⟩
  answers := by
    rintro o db hvalid (rfl | ⟨text, rfl⟩ | ⟨dto, hash, rfl⟩)
    · exact ⟨{}, _, _, rfl⟩
    · exact ⟨{}, _, _, rfl⟩
    · obtain ⟨dto, rfl⟩ := dto
      refine ⟨{}, ?_⟩
      show ∃ reply t, db.insertUser none _ = some (reply, t)
      rw [insertUser_cases hvalid]
      split_ifs
      · exact ⟨_, _, rfl⟩
      · exact ⟨_, _, rfl⟩
      · exact ⟨_, _, rfl⟩

end Users

section Waitlist

variable (toLowerCase : String → String) (email : String)

def waitlistRequests : System waitlistRepository Waitlist Unit ℕ
    { dto : JoinWaitlistDto // InquiriesService.normalizedEmail toLowerCase dto.email = email }
    InquiriesService.JoinResult :=
  { waitlistServer.reliable with
    body := fun dto => InquiriesService.joinWaitlist toLowerCase dto.1
    admits := fun _ _ => true }

def isEntry (entry : WaitlistEntry) : Bool := entry.email = email

def JoinWaitlistDto.fits (dto : JoinWaitlistDto) : Bool :=
  fitsColumns [(some 255, some (InquiriesService.normalizedEmail toLowerCase dto.email)),
    (some 255, some (trim dto.fullName)), (some 255, trimToNull dto.preferredRole),
    (some 255, trimToNull dto.referralSource)]

def joining : Enrolment waitlistRepository
    { dto : JoinWaitlistDto // InquiriesService.normalizedEmail toLowerCase dto.email = email } Unit
    InquiriesService.JoinResult where
  look := .findOne email
  found := Option.isSome (α := WaitlistEntry)
  fits dto := dto.1.fits toLowerCase
  prepare _ := pure ()
  insert dto _ := .save
    { email := InquiriesService.normalizedEmail toLowerCase dto.1.email
      joiningAs := some dto.1.joiningAs
      fullName := some (trim dto.1.fullName)
      preferredRole := trimToNull dto.1.preferredRole
      referralSource := trimToNull dto.1.referralSource }
  result _ _ _ := { success := true, message := SuccessMessages.WAITLIST_JOINED }
  conflict := conflictError ErrorMessages.EMAIL_ALREADY_ON_WAITLIST
  clash := .queryFailed .uniqueViolation
  misfit := .queryFailed .dataException

theorem joinWaitlist_eq
    (dto : { dto : JoinWaitlistDto // InquiriesService.normalizedEmail toLowerCase dto.email = email }) :
    InquiriesService.joinWaitlist toLowerCase dto.1 = (joining toLowerCase email).prog dto := by
  obtain ⟨dto, rfl⟩ := dto
  show Prog.call _ _ = Prog.call _ _
  congr 1
  funext reply
  cases reply with
  | error e => rfl
  | ok found =>
    cases found with
    | some entry => rfl
    | none =>
      show Prog.call _ _ = Prog.call _ _
      congr 1

theorem save_cases (entry : NewWaitlistEntry) (ω : Unit) (w : Waitlist) : Waitlist.exec (.save entry) ω w =
    if entry.fits = false then some (.error (.queryFailed .dataException), w)
    else if w.entries.any (isEntry entry.email) then some (.error (.queryFailed .uniqueViolation), w)
    else some (.ok { entry with id := w.fresh, createdAt := w.now },
      { w with entries := w.entries ++ [{ entry with id := w.fresh, createdAt := w.now }], fresh := w.fresh + 1 }) := by
  simp only [Waitlist.exec, Bool.not_eq_true']
  rfl

theorem joining_lawful : (joining toLowerCase email).Lawful (waitlistRequests toLowerCase email) Waitlist.entries
    (isEntry email) (fun _ => False) (fun _ => True) where
  body := joinWaitlist_eq toLowerCase email
  reliable _ := rfl
  prepare _ := trivial
  quiet_ne _ h := h.elim
  insert_ne _ _ h := by cases h
  env _ _ _ := ⟨trivial, rfl⟩
  look := by
    intro ω w reply t _ h
    obtain ⟨rfl, rfl⟩ := Prod.mk.inj (Option.some.inj h)
    refine ⟨rfl, _, rfl, ?_⟩
    show (w.entries.find? fun entry => entry.email = email).isSome = w.entries.any (isEntry email)
    rw [List.isSome_find?]
    rfl
  calls _ _ _ _ _ h := h.elim
  unfit := by
    rintro ⟨dto, rfl⟩ _ ω w reply t _ hfits h
    have hsave := (save_cases _ ω w).symm.trans h
    split_ifs at hsave with hmisfits htaken
    · cases hsave
      exact ⟨rfl, rfl⟩
    · exact absurd hfits hmisfits
    · exact absurd hfits hmisfits
  stored := by
    rintro ⟨dto, rfl⟩ _ ω w reply t _ hfits hstored h
    have hsave := (save_cases _ ω w).symm.trans h
    split_ifs at hsave with hmisfits
    · exact absurd (hfits.symm.trans hmisfits) Bool.noConfusion
    · cases hsave
      exact ⟨rfl, rfl⟩
  inserted := by
    rintro ⟨dto, rfl⟩ _ ω w reply t _ hfits hstored h
    have hsave := (save_cases _ ω w).symm.trans h
    split_ifs at hsave with hmisfits htaken
    · exact absurd (hfits.symm.trans hmisfits) Bool.noConfusion
    · exact absurd (hstored.symm.trans htaken) Bool.noConfusion
    · cases hsave
      exact ⟨trivial, _, _, rfl, decide_eq_true rfl, rfl⟩
  answers := by
    rintro o w _ (rfl | h | ⟨dto, _, rfl⟩)
    · exact ⟨(), _, _, rfl⟩
    · exact h.elim
    · refine ⟨(), ?_⟩
      show ∃ reply t, Waitlist.exec (.save _) () w = some (reply, t)
      rw [save_cases]
      split_ifs
      · exact ⟨_, _, rfl⟩
      · exact ⟨_, _, rfl⟩
      · exact ⟨_, _, rfl⟩

end Waitlist

section Conflicts

theorem Answered.congr {S : Signature} {σ Req α ρ : Type} {rows : σ → List ρ} {key : ρ → Bool} {L L' : S.Err → Prop}
    {s : σ} {p : Pool S σ Req α} (h : ∀ e, L e ↔ L' e) : Answered rows key L s p ↔ Answered rows key L' s p := by
  rw [show L = L' from funext fun e => propext (h e)]

variable {O : Type} {Res : O → Type} {σ Ω μ Req α β ρ : Type}

/-- However the calls interleave, all of them end, and if one of them asks for a row that the table can hold, one
succeeds and one row is stored. The others are told of the conflict exactly when no two calls look the e-mail up
before it is stored; one that has looked too early and lost gets the error of the database. -/
structure AnswersConflict (Y : System ⟨O, Res, Failure⟩ σ Ω μ Req α) (E : Enrolment ⟨O, Res, Failure⟩ Req β α)
    (rows : σ → List ρ) (key : ρ → Bool) (message : String) (s : σ) (p : Pool ⟨O, Res, Failure⟩ σ Req α) : Prop where
  inevitable : Y.Inevitable (fun _ => True) (fun q => Y.Reachable (.start s) q ∧ q.Ended) p
  one_succeeds : p.Ended → (∃ proc ∈ p.procs, E.fits proc.req = true) →
    Answered rows key (fun e : Failure => IsConflict message e ∨ e = .queryFailed .uniqueViolation ∨
      e = .queryFailed .dataException) s p
  conflict_iff : p.Ended → (Answered rows key (IsConflict message) s p ↔
    E.OneEarly rows key p.world.trace ∧ ∃ proc ∈ p.procs, E.fits proc.req = true)

theorem answersConflict [Nonempty μ] {Y : System ⟨O, Res, Failure⟩ σ Ω μ Req α}
    {E : Enrolment ⟨O, Res, Failure⟩ Req β α} {rows : σ → List ρ} {key : ρ → Bool} {quiet : O → Prop}
    {valid : σ → Prop} {message : String} {s : σ} {p : Pool ⟨O, Res, Failure⟩ σ Req α}
    (L : E.Lawful Y rows key quiet valid) (conflict : E.conflict = conflictError message)
    (clash : E.clash = .queryFailed .uniqueViolation) (misfit : E.misfit = .queryFailed .dataException)
    (hs : valid s) (absent : (rows s).any key = false) (hp : Y.Reachable (.start s) p) :
    AnswersConflict Y E rows key message s p := by
  have hconflict : ∀ e, IsConflict message e ↔ e = E.conflict := by
    intro e
    rw [conflict]
    exact isConflict_iff
  refine ⟨L.inevitable hs hp, fun ended fitting => ?_, fun ended => ?_⟩
  · refine (Answered.congr (L := fun e : Failure => e = E.conflict ∨ e = E.clash ∨ e = E.misfit)
      fun e : Failure => ?_).mp (L.ended hs absent hp ended fitting)
    rw [hconflict e, clash, misfit]
  · refine (Answered.congr hconflict).trans (L.answered_iff hs absent ?_ ?_ hp ended)
    · rw [clash, conflict]
      exact fun h => by cases h
    · rw [misfit, conflict]
      exact fun h => by cases h

theorem duplicates_conflict_iff (toLowerCase : String → String) (email : String) :
    (∀ (db : Database) p, db.users.any (isEmail email) = false → db.Unclaimed email →
      (registrations email).Reachable (.start db) p →
      AnswersConflict (registrations email) (registration email) Database.users (isEmail email)
        ErrorMessages.EMAIL_ALREADY_REGISTERED db p) ∧
    ∀ (w : Waitlist) p, w.entries.any (isEntry email) = false →
      (waitlistRequests toLowerCase email).Reachable (.start w) p →
      AnswersConflict (waitlistRequests toLowerCase email) (joining toLowerCase email) Waitlist.entries
        (isEntry email) ErrorMessages.EMAIL_ALREADY_ON_WAITLIST w p := by
  constructor
  · intro db p absent unclaimed hp
    have : Nonempty Tick := ⟨⟨0, 0⟩⟩
    exact answersConflict (registration_lawful email) rfl rfl rfl unclaimed absent hp
  · intro w p absent hp
    exact answersConflict (joining_lawful toLowerCase email) rfl rfl rfl trivial absent hp

end Conflicts

section Runs

def sampleDto : { dto : CreateUserDto // dto.email = "ada@example.com" } :=
  ⟨{ email := "ada@example.com", password := "a long password", first_name := "Ada", last_name := "Lovelace"
     country := OAUTH_DEFAULT_COUNTRY }, rfl⟩

/-- The second call looks the e-mail up before the first one has stored it. -/
def overlappingCalls : Option (Pool backend Database { dto : CreateUserDto // dto.email = "ada@example.com" } User) :=
  (registrations "ada@example.com").play (.start (sampleDatabase []))
    [.spawn sampleDto, .spawn sampleDto, .run 0 {}, .run 1 {}, .run 0 {}, .run 1 {}, .run 0 {}, .run 1 {}]

theorem overlappingCalls_isSome : overlappingCalls.isSome = true := rfl

def sampleEntry : { dto : JoinWaitlistDto // InquiriesService.normalizedEmail String.toLower dto.email =
    "ada@example.com" } :=
  ⟨{ joiningAs := .talent, fullName := "Ada Lovelace", email := " Ada@Example.com" }, by decide +kernel⟩

def joinedTwice : Option (Pool waitlistRepository Waitlist { dto : JoinWaitlistDto //
    InquiriesService.normalizedEmail String.toLower dto.email = "ada@example.com" } InquiriesService.JoinResult) :=
  (waitlistRequests String.toLower "ada@example.com").play (.start ⟨[], 0, 0⟩)
    [.spawn sampleEntry, .spawn sampleEntry, .run 0 (), .run 0 (), .run 1 ()]

theorem joinedTwice_isSome : joinedTwice.isSome = true := by decide +kernel

theorem duplicates_answered :
    AnswersConflict (registrations "ada@example.com") (registration "ada@example.com") Database.users
      (isEmail "ada@example.com") ErrorMessages.EMAIL_ALREADY_REGISTERED (sampleDatabase [])
      (overlappingCalls.get overlappingCalls_isSome) ∧
    AnswersConflict (waitlistRequests String.toLower "ada@example.com") (joining String.toLower "ada@example.com")
      Waitlist.entries (isEntry "ada@example.com") ErrorMessages.EMAIL_ALREADY_ON_WAITLIST ⟨[], 0, 0⟩
      (joinedTwice.get joinedTwice_isSome) := by
  obtain ⟨hregistrations, hwaitlist⟩ := duplicates_conflict_iff String.toLower "ada@example.com"
  exact ⟨hregistrations _ _ rfl rfl (System.reachable_of_play (Option.some_get overlappingCalls_isSome).symm),
    hwaitlist _ _ rfl (System.reachable_of_play (Option.some_get joinedTwice_isSome).symm)⟩

theorem overlap_not_conflict : ¬ ∀ email (db : Database) p, db.users.any (isEmail email) = false →
    db.Unclaimed email → (registrations email).Reachable (.start db) p → p.Ended → p.procs ≠ [] →
    Answered Database.users (isEmail email) (IsConflict ErrorMessages.EMAIL_ALREADY_REGISTERED) db p := by
  intro h
  have hp := System.reachable_of_play (Option.some_get overlappingCalls_isSome).symm
  obtain ⟨row, pid, req, a, -, -, hpid, hothers⟩ := h "ada@example.com" (sampleDatabase []) _ rfl rfl hp
    (by decide +kernel) (by decide +kernel)
  have hlost : (overlappingCalls.get overlappingCalls_isSome).procs[1]? =
      some ⟨sampleDto, .throw (.queryFailed .uniqueViolation)⟩ := rfl
  by_cases hne : 1 = pid
  · subst hne
    cases hlost.symm.trans hpid
  · obtain ⟨e, he, hconflict⟩ := hothers 1 _ hne hlost
    cases he
    cases hconflict.1

end Runs

end SkillBridge
