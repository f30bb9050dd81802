import SkillBridge.Database.Waiting
import SkillBridge.Onboarding.Profiles

set_option autoImplicit false

/-! The onboarding of one user: before the first commit, and after it. -/

namespace SkillBridge

open Interleaving Database

namespace ProfileKind

def Profile : ProfileKind → Type
  | talent => TalentProfile
  | employer => EmployerProfile

def Dto : ProfileKind → Type
  | talent => CompleteTalentOnboardingDto
  | employer => CompleteEmployerOnboardingDto

def profiles : (kind : ProfileKind) → Tables → List kind.Profile
  | talent, tables => tables.talentProfiles
  | employer, tables => tables.employerProfiles

def owner : (kind : ProfileKind) → kind.Profile → UserId
  | talent, profile => TalentProfile.user_id profile
  | employer, profile => EmployerProfile.user_id profile

def write : (kind : ProfileKind) → kind.Profile → Write
  | talent, profile => .insertTalentProfile profile
  | employer, profile => .insertEmployerProfile profile

def insertsProfileOf : ProfileKind → UserId → Write → Bool
  | talent => Write.insertsTalentProfileOf
  | employer => Write.insertsEmployerProfileOf

def rows (kind : ProfileKind) (tables : Tables) (id : UserId) : List kind.Profile :=
  (kind.profiles tables).filter fun profile => kind.owner profile = id

def row (id : UserId) : (kind : ProfileKind) → kind.Dto → ℕ → kind.Profile
  | talent, (dto : CompleteTalentOnboardingDto), n =>
    ({ id := n
       user_id := id
       role_track := trim dto.roleTrack
       bio := trimToNull dto.bio
       status := .not_started
       profile_share_link := none
       is_published := false
       published_at := none } : TalentProfile)
  | employer, (dto : CompleteEmployerOnboardingDto), n =>
    ({ id := n
       user_id := id
       company_name := trim dto.companyName
       company_size := trimToNull dto.companySize
       industry := trimToNull dto.industry
       website_url := trimToNull dto.websiteUrl
       company_description := trimToNull dto.companyDescription
       hiring_region := trimToNull dto.hiringRegion } : EmployerProfile)

def find (id : UserId) : (kind : ProfileKind) → TxId → Action (Option kind.Profile)
  | talent, tx => Prog.perform (S := backend) (.findTalentProfile tx id)
  | employer, tx => Prog.perform (S := backend) (.findEmployerProfile tx id)

def save (id : UserId) : (kind : ProfileKind) → kind.Dto → TxId → Action kind.Profile
  | talent, dto, tx => Prog.perform (S := backend) (.insertTalentProfile tx (row id talent dto))
  | employer, dto, tx => Prog.perform (S := backend) (.insertEmployerProfile tx (row id employer dto))

def fits : (kind : ProfileKind) → kind.Profile → Bool
  | talent, profile => TalentProfile.fits profile
  | employer, profile => EmployerProfile.fits profile

def storable (kind : ProfileKind) (dto : kind.Dto) : Bool := kind.fits (row 0 kind dto 0)

def profileExists : ProfileKind → String
  | talent => ErrorMessages.TALENT_PROFILE_EXISTS
  | employer => ErrorMessages.EMPLOYER_PROFILE_EXISTS

def completed : ProfileKind → String
  | talent => SuccessMessages.TALENT_COMPLETED
  | employer => SuccessMessages.EMPLOYER_COMPLETED

def completeOnboarding (env : Env) (id : UserId) :
    (kind : ProfileKind) → kind.Dto → Action (OnboardingResult kind.Profile)
  | talent, dto => TalentService.completeOnboarding env id dto
  | employer, dto => EmployerService.completeOnboarding env id dto

def insert (kind : ProfileKind) (db : Database) (tx : TxId) (profile : ℕ → kind.Profile) :
    Option (Except Failure kind.Profile × Database) :=
  let row := profile db.fresh
  db.insertUnique (kind.fits row) ((kind.profiles (db.view (some tx))).any fun other => kind.owner other = kind.owner row)
    ((db.others (some tx)).any (kind.insertsProfileOf (kind.owner row)))
    (findById (db.view (some tx)).users (kind.owner row)).isNone row (some tx) (kind.write row)

variable {kind : ProfileKind} {tables : Tables} {id : UserId} {env : Env} {dto : kind.Dto}

theorem completeOnboarding_eq : kind.completeOnboarding env id dto =
    Onboarding.completeOnboarding env id (kind.find id) kind.profileExists (kind.save id dto) kind.completed := by
  cases kind <;> rfl

@[simp] theorem owner_row (n : ℕ) : kind.owner (kind.row id dto n) = id := by cases kind <;> rfl

theorem fits_row (n : ℕ) : kind.fits (kind.row id dto n) = kind.storable dto := by cases kind <;> rfl

theorem profile_write_row (n : ℕ) : (kind.write (kind.row id dto n)).profile = some (kind, id) := by
  cases kind <;> rfl

theorem insertsProfileOf_write (profile : kind.Profile) :
    kind.insertsProfileOf (kind.owner profile) (kind.write profile) = true := by
  cases kind <;> exact decide_eq_true rfl

theorem profiles_apply_write (profile : kind.Profile) :
    kind.profiles ((kind.write profile).apply tables) = kind.profiles tables ++ [profile] := by
  cases kind <;> rfl

theorem profiles_apply_mark : kind.profiles ((Write.markOnboardingComplete id).apply tables) = kind.profiles tables := by
  cases kind <;> rfl

end ProfileKind

/-- The tables differ at most in other rows than users and profiles. -/
structure Tables.Agree (t t' : Tables) : Prop where
  users : t'.users = t.users
  talentProfiles : t'.talentProfiles = t.talentProfiles
  employerProfiles : t'.employerProfiles = t.employerProfiles

theorem Tables.Agree.refl (t : Tables) : t.Agree t := ⟨rfl, rfl, rfl⟩

theorem Tables.Agree.trans {t t' t'' : Tables} (h : t.Agree t') (h' : t'.Agree t'') : t.Agree t'' :=
  ⟨h'.users.trans h.users, h'.talentProfiles.trans h.talentProfiles, h'.employerProfiles.trans h.employerProfiles⟩

theorem Tables.Agree.profiles {t t' : Tables} (h : t.Agree t') (kind : ProfileKind) :
    kind.profiles t' = kind.profiles t := by
  cases kind with
  | talent => exact h.talentProfiles
  | employer => exact h.employerProfiles

theorem Tables.Agree.owners {t t' : Tables} (h : t.Agree t') : t'.owners = t.owners := by
  funext kind
  cases kind with
  | talent => exact congrArg _ h.talentProfiles
  | employer => exact congrArg _ h.employerProfiles

section State

structure OnboardingState (kind : ProfileKind) (id : UserId) (tables : Tables) (complete : Bool)
    (rows : List kind.Profile) : Prop where
  user : ∃ user, (tables.users.filter fun user => user.id = id) = [user] ∧ user.onboarding_complete = complete
  rows : kind.rows tables id = rows
  other : id ∉ tables.owners kind.other

variable {kind : ProfileKind} {id : UserId} {tables tables' : Tables} {complete : Bool} {rows : List kind.Profile}

theorem OnboardingState.agree (h : OnboardingState kind id tables complete rows) (hagree : tables.Agree tables') :
    OnboardingState kind id tables' complete rows := by
  refine ⟨?_, ?_, ?_⟩
  · rw [hagree.users]
    exact h.user
  · rw [ProfileKind.rows, hagree.profiles]
    exact h.rows
  · rw [hagree.owners]
    exact h.other

theorem OnboardingState.found (h : OnboardingState kind id tables complete rows) :
    ∃ user, findById tables.users id = some user ∧ user.onboarding_complete = complete := by
  obtain ⟨user, huser, hcomplete⟩ := h.user
  refine ⟨user, ?_, hcomplete⟩
  rw [findById, ← List.head?_filter, huser]
  rfl

theorem OnboardingState.find_profile (h : OnboardingState kind id tables complete rows) :
    ((kind.profiles tables).find? fun profile => kind.owner profile = id) = rows.head? := by
  rw [← List.head?_filter, ← h.rows]
  rfl

theorem filter_updateWhere {users : List User} {user : User} {f : User → User} (hf : ∀ user, (f user).id = user.id)
    (h : (users.filter fun user => user.id = id) = [user]) :
    ((updateWhere id f users).filter fun user => user.id = id) = [f user] := by
  have hid : user.id = id := by
    have hmem : user ∈ users.filter fun user => user.id = id := by simp [h]
    simpa using (List.mem_filter.mp hmem).2
  have hkey : ((fun user : User => decide (user.id = id)) ∘ fun user => if user.id = id then f user else user) =
      fun user => decide (user.id = id) := by
    funext user
    by_cases h : user.id = id <;> simp [h, hf]
  rw [updateWhere, List.filter_map, hkey, h, List.map_singleton, if_pos hid]

theorem OnboardingState.update (h : OnboardingState kind id tables complete rows) {f : User → User} {complete' : Bool}
    (husers : tables'.users = updateWhere id f tables.users) (hid : ∀ user, (f user).id = user.id)
    (hcomplete : ∀ user, user.onboarding_complete = complete → (f user).onboarding_complete = complete')
    {rows' : List kind.Profile} (hrows : kind.rows tables' id = rows') (hother : id ∉ tables'.owners kind.other) :
    OnboardingState kind id tables' complete' rows' := by
  obtain ⟨user, huser, hflag⟩ := h.user
  refine ⟨⟨f user, ?_, hcomplete user hflag⟩, hrows, hother⟩
  rw [husers]
  exact filter_updateWhere hid huser

end State

section Stage

def Commits : ApiCall → Bool
  | ⟨.commitTransaction _, .ok _⟩ => true
  | _ => false

def commitsOf {Req : Type} (l : List (Event backend Database Req)) : List (Event backend Database Req) :=
  l.filter fun e => Commits e.call

abbrev OnboardingWorld (kind : ProfileKind) : Type := ServerWorld kind.Dto

abbrev OnboardingEvent (kind : ProfileKind) : Type := Event backend Database kind.Dto

variable (kind : ProfileKind) (id : UserId)

structure Won (e : OnboardingEvent kind) (profile : kind.Profile) (w : OnboardingWorld kind) : Prop where
  state : OnboardingState kind id w.state.tables true [profile]
  once : commitsOf w.trace = [e]
  data : ∃ n, profile = kind.row id e.req n

def Saving (writes : List Write) : Prop := ∃ profile, kind.owner profile = id ∧
  (writes = [kind.write profile] ∨ writes = [kind.write profile, .markOnboardingComplete id])

inductive OnboardingStage (w : OnboardingWorld kind) : Prop
  | free (state : OnboardingState kind id w.state.tables false []) (uncommitted : commitsOf w.trace = [])
      (saving : ∀ entry ∈ w.state.transactions, entry.2 = [] ∨ Saving kind id entry.2)
      (alone : ∀ entry ∈ w.state.transactions, ∀ entry' ∈ w.state.transactions, entry.2 ≠ [] → entry'.2 ≠ [] →
        entry.1 = entry'.1)
  | won {e : OnboardingEvent kind} {profile : kind.Profile} (won : Won kind id e profile w)
      (idle : ∀ entry ∈ w.state.transactions, entry.2 = [])

/-- Only a process that has committed changes users and profiles. -/
structure Moves (w w' : OnboardingWorld kind) : Prop where
  won : ∀ {e profile}, Won kind id e profile w → Won kind id e profile w'
  kept : TransactionsKept w w'
  touched : ∃ l, w'.trace = l ++ w.trace ∧ (w.state.tables.Agree w'.state.tables ∨
    ∃ e ∈ l, ∃ e' ∈ commitsOf w'.trace, e'.pid = e.pid)

variable {kind id} {w w' w'' : OnboardingWorld kind} {pid : ℕ} {dto : kind.Dto} {o : Op} {reply : Reply o}
  {t : Database} {tx : TxId} {writes : List Write} {write : Write} {profile : kind.Profile}

theorem Moves.refl (w : OnboardingWorld kind) : Moves kind id w w :=
  ⟨fun h => h, .refl w, [], rfl, .inl (.refl _)⟩

theorem Moves.trans (h : Moves kind id w w') (h' : Moves kind id w' w'') : Moves kind id w w'' := by
  refine ⟨fun hwon => h'.won (h.won hwon), h.kept.trans h'.kept, ?_⟩
  obtain ⟨l, hl, htouched⟩ := h.touched
  obtain ⟨l', hl', htouched'⟩ := h'.touched
  refine ⟨l' ++ l, by rw [hl', hl, List.append_assoc], ?_⟩
  rcases htouched with hagree | ⟨e, he, e', he', hpid⟩
  · rcases htouched' with hagree' | ⟨e, he, he'⟩
    · exact .inl (hagree.trans hagree')
    · exact .inr ⟨e, List.mem_append_left l he, he'⟩
  · refine .inr ⟨e, List.mem_append_right l' he, e', ?_, hpid⟩
    rw [hl', commitsOf, List.filter_append]
    exact List.mem_append_right _ he'

theorem commitsOf_perform (h : Commits ⟨o, reply⟩ = false) :
    commitsOf (w.perform pid dto o reply t).trace = commitsOf w.trace := by
  simp only [commitsOf, World.perform, List.filter_cons]
  rw [if_neg]
  simpa [Event.call] using h

theorem Won.quiet {e : OnboardingEvent kind} (h : Won kind id e profile w) (hagree : w.state.tables.Agree t.tables)
    (hcommits : Commits ⟨o, reply⟩ = false) : Won kind id e profile (w.perform pid dto o reply t) :=
  ⟨h.state.agree hagree, (commitsOf_perform hcommits).trans h.once, h.data⟩

theorem Moves.quiet (hagree : w.state.tables.Agree t.tables) (hcommits : Commits ⟨o, reply⟩ = false)
    (hkept : TransactionsKept w (w.perform pid dto o reply t)) : Moves kind id w (w.perform pid dto o reply t) :=
  ⟨fun h => h.quiet hagree hcommits, hkept, [_], rfl, .inl hagree⟩

theorem OnboardingStage.env (h : OnboardingStage kind id w) (m : Tick) :
    OnboardingStage kind id ⟨server.env m w.state, w.trace⟩ := by
  cases h with
  | free state uncommitted saving alone => exact .free state uncommitted saving alone
  | won won idle => exact .won ⟨won.state, won.once, won.data⟩ idle

theorem Moves.env (w : OnboardingWorld kind) (m : Tick) : Moves kind id w ⟨server.env m w.state, w.trace⟩ :=
  ⟨fun h => ⟨h.state, h.once, h.data⟩, ⟨[], rfl, fun _ _ _ _ => rfl⟩, [], rfl, .inl (.refl _)⟩

theorem OnboardingStage.quiet (h : OnboardingStage kind id w) (hagree : w.state.tables.Agree t.tables)
    (hcommits : Commits ⟨o, reply⟩ = false)
    (hentries : ∀ entry ∈ t.transactions, entry.2 = [] ∨ entry ∈ w.state.transactions) :
    OnboardingStage kind id (w.perform pid dto o reply t) := by
  cases h with
  | free state uncommitted saving alone =>
    refine .free (state.agree hagree) ((commitsOf_perform hcommits).trans uncommitted) (fun entry hentry => ?_) ?_
    · exact (hentries entry hentry).elim .inl (saving entry)
    · intro entry hentry entry' hentry' hne hne'
      exact alone entry ((hentries entry hentry).resolve_left hne) entry' ((hentries entry' hentry').resolve_left hne')
        hne hne'
  | won won idle =>
    exact .won (won.quiet hagree hcommits) fun entry hentry => (hentries entry hentry).elim (fun h => h) (idle entry)

/-- While a transaction has written, none has committed and the others have written nothing. -/
structure Alone (kind : ProfileKind) (id : UserId) (tx : TxId) (w : OnboardingWorld kind) : Prop where
  state : OnboardingState kind id w.state.tables false []
  uncommitted : commitsOf w.trace = []
  others : ∀ entry ∈ w.state.transactions, entry.1 ≠ tx → entry.2 = []

theorem Alone.others_nil (h : Alone kind id tx w) : w.state.others (some tx) = [] := by
  rw [Database.others, List.flatMap_eq_nil_iff]
  intro entry hentry
  obtain ⟨hmem, hkey⟩ := List.mem_filter.mp hentry
  exact h.others entry hmem (by simpa using hkey)

theorem Won.not_free {e : OnboardingEvent kind} (h : Won kind id e profile w) :
    ¬ OnboardingState kind id w.state.tables false [] := by
  intro hfree
  have hrows := h.state.rows
  rw [hfree.rows] at hrows
  cases hrows

theorem OnboardingStage.alone (h : OnboardingStage kind id w) (hentries : w.state.entries tx = [(tx, writes)])
    (hne : writes ≠ []) : Alone kind id tx w := by
  cases h with
  | free state uncommitted saving alone =>
    refine ⟨state, uncommitted, fun entry hentry hkey => ?_⟩
    by_contra hwrites
    exact hkey (alone entry hentry _ (mem_of_entries hentries) hwrites hne)
  | won won idle => exact absurd (idle _ (mem_of_entries hentries)) hne

theorem Alone.save (h : Alone kind id tx w) (hentries : w.state.entries tx = [(tx, writes)])
    (hsaving : Saving kind id (writes ++ [write])) (hagree : w.state.tables.Agree t.tables)
    (htransactions : t.transactions = (w.state.save (some tx) write).transactions)
    (hcommits : Commits ⟨o, reply⟩ = false) : OnboardingStage kind id (w.perform pid dto o reply t) := by
  refine .free (h.state.agree hagree) ((commitsOf_perform hcommits).trans h.uncommitted) (fun entry hentry => ?_) ?_
  · rw [World.perform_state, htransactions] at hentry
    rcases mem_save hentries hentry with rfl | ⟨hold, hkey⟩
    · exact .inr hsaving
    · exact .inl (h.others entry hold hkey)
  · intro entry hentry entry' hentry' hne hne'
    rw [World.perform_state, htransactions] at hentry hentry'
    rcases mem_save hentries hentry with rfl | ⟨hold, hkey⟩
    · rcases mem_save hentries hentry' with rfl | ⟨hold', hkey'⟩
      · rfl
      · exact absurd (h.others entry' hold' hkey') hne'
    · exact absurd (h.others entry hold hkey) hne

end Stage

section Statements

variable {kind : ProfileKind} {id : UserId} {w : OnboardingWorld kind} {pid : ℕ} {dto : kind.Dto} {t : Database}
  {tx : TxId} {profile : kind.Profile}

theorem OnboardingStage.user (h : OnboardingStage kind id w) : ∃ user, findById w.state.tables.users id = some user ∧
    (user.onboarding_complete = true → ∃ e profile, Won kind id e profile w) := by
  cases h with
  | free state uncommitted saving alone =>
    obtain ⟨user, hfound, hcomplete⟩ := state.found
    exact ⟨user, hfound, fun h => by rw [hcomplete] at h; cases h⟩
  | won won idle =>
    obtain ⟨user, hfound, -⟩ := won.state.found
    exact ⟨user, hfound, fun _ => ⟨_, _, won⟩⟩

theorem OnboardingStage.won_of_profile (h : OnboardingStage kind id w)
    (hfind : ((kind.profiles w.state.tables).find? fun profile => kind.owner profile = id) = some profile) :
    ∃ e profile, Won kind id e profile w := by
  cases h with
  | free state uncommitted saving alone =>
    rw [state.find_profile] at hfind
    cases hfind
  | won won idle => exact ⟨_, _, won⟩

theorem Won.taken {e : OnboardingEvent kind} (h : Won kind id e profile w) :
    ((kind.profiles w.state.tables).any fun other => kind.owner other = id) = true := by
  have hmem : profile ∈ kind.rows w.state.tables id := by simp [h.state.rows]
  obtain ⟨hmem, howner⟩ := List.mem_filter.mp hmem
  exact List.any_eq_true.mpr ⟨profile, hmem, howner⟩

/-- Why a call may fail: the texts do not fit, or a call has won. -/
def Beaten (kind : ProfileKind) (id : UserId) (dto : kind.Dto) (w : OnboardingWorld kind) : Prop :=
  kind.storable dto = true → ∃ e profile, Won kind id e profile w

theorem Beaten.mono {w' : OnboardingWorld kind} (h : Beaten kind id dto w)
    (hwon : ∀ {e profile}, Won kind id e profile w → Won kind id e profile w') : Beaten kind id dto w' := by
  intro hfits
  obtain ⟨e, profile, hw⟩ := h hfits
  exact ⟨e, profile, hwon hw⟩

theorem OnboardingStage.insert (h : OnboardingStage kind id w) (hentries : w.state.entries tx = [(tx, [])])
    {reply : Except Failure kind.Profile} (hexec : kind.insert w.state tx (kind.row id dto) = some (reply, t)) :
    (∃ err, reply = .error err ∧ t = w.state ∧ Beaten kind id dto w) ∨
      reply = .ok (kind.row id dto w.state.fresh) ∧ Alone kind id tx w ∧
        t = (w.state.save (some tx) (kind.write (kind.row id dto w.state.fresh))).tick := by
  have hview : w.state.view (some tx) = w.state.tables := by rw [view_eq hentries]; rfl
  obtain ⟨user, hfound, -⟩ := h.user
  simp only [ProfileKind.insert, hview, ProfileKind.owner_row, ProfileKind.fits_row, hfound, insertUnique,
    Option.isNone_some, Bool.false_eq_true, ↓reduceIte] at hexec
  split_ifs at hexec with hfits htaken hwaits
  · cases hexec
    refine .inl ⟨_, rfl, rfl, fun hstorable => ?_⟩
    simp [hstorable] at hfits
  · cases hexec
    refine .inl ⟨_, rfl, rfl, fun _ => ?_⟩
    cases h with
    | free state uncommitted saving alone =>
      have hnil := state.rows
      rw [ProfileKind.rows, List.filter_eq_nil_iff] at hnil
      obtain ⟨other, hmem, howner⟩ := List.any_eq_true.mp htaken
      exact absurd howner (hnil other hmem)
    | won won idle => exact ⟨_, _, won⟩
  · cases hexec
    right
    refine ⟨rfl, ?_, rfl⟩
    cases h with
    | free state uncommitted saving alone =>
      refine ⟨state, uncommitted, fun entry hentry hkey => (saving entry hentry).resolve_right ?_⟩
      rintro ⟨profile, rfl, hwrites⟩
      rw [Bool.not_eq_true, List.any_eq_false] at hwaits
      refine hwaits (kind.write profile) ?_ (ProfileKind.insertsProfileOf_write profile)
      refine List.mem_flatMap.mpr ⟨entry, List.mem_filter.mpr ⟨hentry, by simpa using hkey⟩, ?_⟩
      rcases hwrites with hwrites | hwrites <;> simp [hwrites]
    | won won idle => exact absurd won.taken htaken

theorem exists_of_insert_waits {db : Database} {row : ℕ → kind.Profile} (h : kind.insert db tx row = none) :
    ∃ entry ∈ db.transactions, entry.2 ≠ [] := by
  simp only [ProfileKind.insert, insertUnique] at h
  split_ifs at h with hfits htaken hwaits
  obtain ⟨write, hmem, -⟩ := List.any_eq_true.mp hwaits
  obtain ⟨entry, hentry, hwrite⟩ := List.mem_flatMap.mp hmem
  exact ⟨entry, (List.mem_filter.mp hentry).1, List.ne_nil_of_mem hwrite⟩

theorem Alone.mark (h : Alone kind id tx w) : w.state.markOnboardingComplete tx id =
    some (.ok (), w.state.save (some tx) (.markOnboardingComplete id)) := by
  rw [markOnboardingComplete, h.others_nil]
  rfl

theorem Alone.commit (h : Alone kind id tx w) {n : ℕ}
    (hentries : w.state.entries tx = [(tx, [kind.write (kind.row id dto n), .markOnboardingComplete id])]) :
    Won kind id ⟨pid, dto, w.state, .commitTransaction tx, .ok ()⟩ (kind.row id dto n)
        (w.perform pid dto (.commitTransaction tx) (.ok ()) (w.state.commit tx)) ∧
      ∀ entry ∈ (w.state.commit tx).transactions, entry.2 = [] := by
  have hpending := Database.pending_eq hentries
  obtain ⟨husers, howners⟩ := view_onboarding hpending (ProfileKind.profile_write_row n)
  have hrows : kind.rows (w.state.view (some tx)) id = [kind.row id dto n] := by
    have hprofiles : kind.profiles (w.state.view (some tx)) = kind.profiles w.state.tables ++ [kind.row id dto n] := by
      rw [view, hpending]
      exact ProfileKind.profiles_apply_mark.trans (ProfileKind.profiles_apply_write _)
    have hnil := h.state.rows
    rw [ProfileKind.rows] at hnil ⊢
    rw [hprofiles, List.filter_append, hnil]
    simp
  refine ⟨⟨?_, ?_, n, rfl⟩, fun entry hentry => ?_⟩
  · refine h.state.update husers (fun _ => rfl) (fun _ _ => rfl) hrows fun howner => ?_
    rcases (howners kind.other id).mp howner with howner | ⟨hkind, -⟩
    · exact h.state.other howner
    · exact kind.other_ne hkind
  · exact (List.filter_cons_of_pos rfl).trans (congrArg (List.cons _) h.uncommitted)
  · obtain ⟨hmem, hkey⟩ := List.mem_filter.mp hentry
    exact h.others entry hmem (by simpa using hkey)

theorem OnboardingStage.update {e : OnboardingEvent kind} (h : OnboardingStage kind id w)
    (hwon : Won kind id e profile w) (payload : UserPayload) (email : payload.email = none)
    (notNull : payload.violatesNotNull = false) (fits : payload.fits = true) (flag : payload.onboarding_complete = none) :
    ∃ user, w.state.updateUser id payload = some (.ok (some user), w.state.update id payload) ∧
      OnboardingState kind id (w.state.update id payload).tables true [profile] ∧
      ∀ entry ∈ w.state.transactions, entry.2 = [] := by
  have hidle : ∀ entry ∈ w.state.transactions, entry.2 = [] := by
    cases h with
    | free state uncommitted saving alone => exact absurd state hwon.not_free
    | won won idle => exact idle
  obtain ⟨user, hfound, -⟩ := hwon.state.found
  have hothers : w.state.others none = [] := by
    rw [Database.others, List.flatMap_eq_nil_iff]
    exact fun entry hentry => hidle entry (List.mem_filter.mp hentry).1
  refine ⟨_, updateUser_eq hfound (by rw [hothers]; rfl) notNull fits email, ?_, hidle⟩
  have hrows : kind.rows (w.state.update id payload).tables id = [profile] := by
    cases kind <;> exact hwon.state.rows
  have hother : id ∉ (w.state.update id payload).tables.owners kind.other := by
    cases kind <;> exact hwon.state.other
  have hcomplete : ∀ user : User, user.onboarding_complete = true → (payload.apply user).onboarding_complete = true := by
    intro user hcomplete
    simp [UserPayload.apply, flag, hcomplete]
  exact @OnboardingState.update _ _ _ (w.state.update id payload).tables _ _ hwon.state payload.apply true rfl
    (fun _ => rfl) hcomplete _ hrows hother

end Statements

end SkillBridge
