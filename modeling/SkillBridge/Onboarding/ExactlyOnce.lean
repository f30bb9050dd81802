import SkillBridge.Interleaving.History
import SkillBridge.Onboarding.Completion

set_option autoImplicit false

/-! Of the onboarding calls for one user exactly one commits, and its profile is the only one. -/

namespace SkillBridge

open Interleaving Database Contract

abbrev OnboardingPool (kind : ProfileKind) : Type :=
  Pool backend Database kind.Dto (OnboardingResult kind.Profile)

def Tables.profileCount (tables : Tables) (id : UserId) : ℕ :=
  (ProfileKind.talent.rows tables id).length + (ProfileKind.employer.rows tables id).length

/-- The flag is set if and only if there is exactly one profile, with the data of the one call that has committed. -/
structure OnboardedAtMostOnce (kind : ProfileKind) (id : UserId) (w : OnboardingWorld kind) : Prop where
  flag : ∃ user, (w.state.tables.users.filter fun user => user.id = id) = [user] ∧
    (user.onboarding_complete = true ↔ w.state.tables.profileCount id = 1)
  once : (commitsOf w.trace).length ≤ 1
  data : ∀ profile ∈ kind.rows w.state.tables id, ∃ e n, commitsOf w.trace = [e] ∧ profile = kind.row id e.req n
  other : kind.other.rows w.state.tables id = []

def OnboardedOnce (kind : ProfileKind) (id : UserId) (p : OnboardingPool kind) : Prop :=
  ∃ e profile, Won kind id e profile p.world ∧ e.pid < p.procs.length ∧ ∀ pid proc, p.procs[pid]? = some proc →
    if pid = e.pid then proc.req = e.req ∧ ∃ result, proc.prog = .ret result ∧ result.profile = profile
    else ∃ err, proc.prog = .throw err

variable {env : Env} {kind : ProfileKind} {id : UserId} {db : Database} {w : OnboardingWorld kind}
  {p q r : OnboardingPool kind}

theorem ProfileKind.rows_eq_nil {tables : Tables} : kind.rows tables id = [] ↔ id ∉ tables.owners kind := by
  have howners : tables.owners kind = (kind.profiles tables).map kind.owner := by cases kind <;> rfl
  rw [ProfileKind.rows, howners, List.filter_eq_nil_iff]
  simp

theorem OnboardingState.profileCount {tables : Tables} {complete : Bool} {rows : List kind.Profile}
    (h : OnboardingState kind id tables complete rows) : tables.profileCount id = rows.length := by
  have hrows := h.rows
  have hother := ProfileKind.rows_eq_nil.mpr h.other
  cases kind with
  | talent =>
    change ProfileKind.employer.rows tables id = [] at hother
    rw [Tables.profileCount, hrows, hother]
    rfl
  | employer =>
    change ProfileKind.talent.rows tables id = [] at hother
    rw [Tables.profileCount, hrows, hother]
    exact Nat.zero_add _

theorem OnboardingStage.atMostOnce (h : OnboardingStage kind id w) : OnboardedAtMostOnce kind id w := by
  cases h with
  | free state uncommitted saving alone =>
    obtain ⟨user, huser, hcomplete⟩ := state.user
    refine ⟨⟨user, huser, ?_⟩, by simp [uncommitted], by simp [state.rows], ProfileKind.rows_eq_nil.mpr state.other⟩
    simp [hcomplete, state.profileCount]
  | @won e profile won idle =>
    obtain ⟨user, huser, hcomplete⟩ := won.state.user
    obtain ⟨n, hdata⟩ := won.data
    refine ⟨⟨user, huser, ?_⟩, by simp [won.once], fun row hrow => ?_, ProfileKind.rows_eq_nil.mpr won.state.other⟩
    · simp [hcomplete, won.state.profileCount]
    · rw [won.state.rows, List.mem_singleton] at hrow
      exact ⟨e, n, won.once, hrow.trans hdata⟩

structure NotOnboarded (db : Database) (id : UserId) : Prop where
  user : ∃ user, (db.tables.users.filter fun user => user.id = id) = [user] ∧ user.onboarding_complete = false
  profiles : db.tables.profileCount id = 0
  idle : db.transactions = []

theorem NotOnboarded.state (h : NotOnboarded db id) : OnboardingState kind id db.tables false [] := by
  have hcount := h.profiles
  rw [Tables.profileCount, Nat.add_eq_zero_iff, List.length_eq_zero_iff, List.length_eq_zero_iff] at hcount
  have hrows : ∀ kind : ProfileKind, kind.rows db.tables id = [] := by
    intro kind
    cases kind with
    | talent => exact hcount.1
    | employer => exact hcount.2
  exact ⟨h.user, hrows kind, ProfileKind.rows_eq_nil.mp (hrows kind.other)⟩

theorem onboarding_sound (h : NotOnboarded db id) :
    (onboarding kind id).Sound (onboardingCalls env id kind) (Onboarding.Outcome kind id) db := by
  refine ⟨⟨.free h.state rfl ?_ ?_, .start h.idle⟩, fun m w hw => ?_, fun p dto hp ha hnew => ?_⟩
  · simp [h.idle]
  · simp [h.idle]
  · exact ⟨⟨hw.1.env m, hw.2.env m⟩, .env w m⟩
  · refine Onboarding.safe_completeOnboarding ⟨.spawn hnew, fun e he hpid => ?_⟩
    have hmem := mem_own.mpr ⟨(List.mem_filter.mp he).1, hpid⟩
    rw [hnew] at hmem
    cases hmem

section Run

variable (h : NotOnboarded db id) (hp : (onboardingCalls env id kind).Reachable (.start db) p)
include h hp

theorem onboarding_holds : (onboarding kind id).Holds (onboardingCalls env id kind).toMachine
    (Onboarding.Outcome kind id) p :=
  (onboarding_sound h).holds hp (justified_of_split fun _ _ _ _ => trivial)

theorem onboarding_progress : p.Ended ∨ ∃ q, (onboardingCalls env id kind).Runs (fun _ => True) p q := by
  have hholds := onboarding_holds h hp
  refine progress_of_ready hholds.inv.2 (System.Reachable.pid_lt hp) (fun pid dto o k hk => hholds.ready hk rfl) ?_ ?_
  · rintro pid ⟨dto, prog⟩ hproc hend
    cases prog with
    | ret result => exact (hholds.returned hproc rfl).1
    | throw e => exact (hholds.thrown hproc rfl).1.toHolding
    | call o k => exact hend.elim
  · rintro pid dto o k hk ⟨ω, reply, t, hexec⟩
    have ha : (onboardingCalls env id kind).Answers o ((onboardingCalls env id kind).env ⟨0, 0⟩ p.world.state)
        reply t := .inl ⟨ω, hexec⟩
    exact ⟨_, .intro ⟨0, 0⟩ hk ha trivial⟩

theorem onboarding_inevitable : (onboardingCalls env id kind).Inevitable (fun _ => True)
    (fun q => ((onboardingCalls env id kind).Reachable (.start db) q ∧ q.procs.map Proc.req = p.procs.map Proc.req) ∧
      q.Ended) p := by
  apply System.inevitable_of_progress ⟨hp, rfl⟩
  · rintro q r ⟨hq, hreq⟩ hrun
    exact ⟨hq.trans hrun.reachable, hrun.advances.map_req.trans hreq⟩
  · exact fun q hq => onboarding_progress h hq.1

theorem onboardedOnce_of_ended (hstorable : ∃ dto ∈ p.procs.map Proc.req, kind.storable dto = true) (hend : p.Ended) :
    OnboardedOnce kind id p := by
  have hholds := onboarding_holds h hp
  have hwon : ∃ e profile, Won kind id e profile p.world := by
    obtain ⟨dto, hdto, hfits⟩ := hstorable
    obtain ⟨⟨_, prog⟩, hmem, rfl⟩ := List.mem_map.mp hdto
    obtain ⟨pid, hproc⟩ := List.mem_iff_getElem?.mp hmem
    cases prog with
    | ret result =>
      obtain ⟨-, e, -, -, hwon⟩ := hholds.returned hproc rfl
      exact ⟨e, _, hwon⟩
    | throw err => exact (hholds.thrown hproc rfl).2 hfits
    | call o k => exact (hend _ hmem).elim
  obtain ⟨e, profile, hwon⟩ := hwon
  have he : e ∈ commitsOf p.world.trace := by simp [hwon.once]
  refine ⟨e, profile, hwon, System.Reachable.pid_lt hp e (List.mem_filter.mp he).1, ?_⟩
  rintro pid ⟨dto, prog⟩ hproc
  cases prog with
  | ret result =>
    obtain ⟨-, e', rfl, hreq, hwon'⟩ := hholds.returned hproc rfl
    obtain rfl : e' = e := List.singleton_injective (hwon'.once.symm.trans hwon.once)
    have hrows := hwon'.state.rows.symm.trans hwon.state.rows
    simp [hreq, List.singleton_injective hrows]
  | throw err =>
    have hne : e.pid ≠ pid := (hholds.thrown hproc rfl).1.uncommitted e he
    simp [hne.symm]
  | call o k => exact (hend _ (List.mem_of_getElem? hproc)).elim

theorem rejected_changes_nothing {pid : ℕ} {dto : kind.Dto} {err : Failure}
    (hproc : p.procs[pid]? = some ⟨dto, .throw err⟩)
    (hq : (onboardingCalls env id kind).Reachable (.start db) q) (hstep : (onboardingCalls env id kind).Step q r)
    (hr : (onboardingCalls env id kind).Reachable r p) {e : OnboardingEvent kind}
    (he : r.world.trace = e :: q.world.trace) (hpid : e.pid = pid) :
    Commits e.call = false ∧ q.world.state.tables.Agree r.world.state.tables := by
  have hrunning := ((onboarding_holds h hp).thrown hproc rfl).1
  have hmoves : Moves kind id q.world r.world :=
    (onboarding_sound h).rel hq hstep (justified_of_split fun _ _ _ _ => trivial)
  obtain ⟨later, hlater⟩ := hr.trace_suffix
  have hno : ∀ e' ∈ commitsOf r.world.trace, e'.pid ≠ pid := by
    intro e' he'
    apply hrunning.uncommitted
    rw [← hlater, commitsOf, List.filter_append]
    exact List.mem_append_right _ he'
  constructor
  · by_contra hcommits
    refine hno e (List.mem_filter.mpr ⟨?_, by simpa using hcommits⟩) hpid
    rw [he]
    exact List.mem_cons_self
  · obtain ⟨l, hl, hagree | ⟨e₁, he₁, e', he', hpid'⟩⟩ := hmoves.touched
    · exact hagree
    · obtain rfl : l = [e] := List.append_cancel_right (hl.symm.trans he)
      rw [List.mem_singleton.mp he₁, hpid] at hpid'
      exact absurd hpid' (hno e' he')

/-- Onboarding happens exactly once, however the statements of the calls interleave, if one of them asks for a
profile that can be stored. -/
theorem onboarding_exactly_once : OnboardedAtMostOnce kind id p.world ∧
    (∀ pid dto err, p.procs[pid]? = some ⟨dto, .throw err⟩ → ∀ q r e,
      (onboardingCalls env id kind).Reachable (.start db) q → (onboardingCalls env id kind).Step q r →
      (onboardingCalls env id kind).Reachable r p → r.world.trace = e :: q.world.trace → e.pid = pid →
        Commits e.call = false ∧ q.world.state.tables.Agree r.world.state.tables) ∧
    ((∃ dto ∈ p.procs.map Proc.req, kind.storable dto = true) → (p.Ended → OnboardedOnce kind id p) ∧
      (onboardingCalls env id kind).Inevitable (fun _ => True)
        (fun q => OnboardedOnce kind id q ∧ q.procs.map Proc.req = p.procs.map Proc.req) p) := by
  refine ⟨(onboarding_holds h hp).inv.1.atMostOnce, ?_, fun hstorable =>
    ⟨onboardedOnce_of_ended h hp hstorable, ?_⟩⟩
  · intro pid dto err hproc q r e hq hstep hr he hpid
    exact rejected_changes_nothing h hp hproc hq hstep hr he hpid
  · apply (onboarding_inevitable h hp).mono
    rintro q ⟨⟨hq, hreq⟩, hend⟩
    exact ⟨onboardedOnce_of_ended h hq (hreq ▸ hstorable) hend, hreq⟩

end Run

/-! Both calls have found no profile before the first of them inserts its own. -/

namespace OnboardingRace

def calls : System backend Database Draw Tick CompleteTalentOnboardingDto (OnboardingResult TalentProfile) :=
  onboardingCalls sampleEnv 1 .talent

def begun : Option (OnboardingPool .talent) :=
  calls.play (.start (sampleDatabase [sampleUser])) [
    .spawn { roleTrack := "backend" }, .spawn { roleTrack := "design" },
    .run 0 {}, .run 1 {}, .run 0 {}, .run 1 {}, .run 0 {}, .run 1 {}, .run 0 {}, .run 0 {}, .run 0 {}]

theorem begun_isSome : begun.isSome = true := rfl

def failed : Option (OnboardingPool .talent) := calls.advance (begun.get begun_isSome) (.run 1 {})

theorem failed_isSome : failed.isSome = true := rfl

def ended : Option (OnboardingPool .talent) :=
  calls.play (failed.get failed_isSome) (.run 1 {} :: List.replicate 5 (.run 0 {}))

theorem ended_isSome : ended.isSome = true := rfl

theorem notOnboarded : NotOnboarded (sampleDatabase [sampleUser]) 1 :=
  ⟨⟨sampleUser, by decide +kernel, by decide +kernel⟩, by decide +kernel, rfl⟩

/-- PostgreSQL stores no NUL. -/
def refused : Option (OnboardingPool .talent) :=
  calls.play (.start (sampleDatabase [sampleUser]))
    (.spawn { roleTrack := "design\x00" } :: List.replicate 5 (.run 0 {}))

theorem refused_isSome : refused.isSome = true := rfl

end OnboardingRace

open OnboardingRace in
theorem onboarded_in_onboardingRace : OnboardedOnce .talent 1 (ended.get ended_isSome) ∧
    (begun.get begun_isSome).world.state.tables.Agree (failed.get failed_isSome).world.state.tables := by
  have hb : calls.Reachable (.start (sampleDatabase [sampleUser])) (begun.get begun_isSome) :=
    System.reachable_of_play (Option.some_get begun_isSome).symm
  have hf : calls.Step (begun.get begun_isSome) (failed.get failed_isSome) :=
    System.step_of_advance (Option.some_get failed_isSome).symm
  have he : calls.Reachable (failed.get failed_isSome) (ended.get ended_isSome) :=
    System.reachable_of_play (Option.some_get ended_isSome).symm
  obtain ⟨-, hrejected, honce⟩ := onboarding_exactly_once notOnboarded ((hb.tail hf).trans he)
  have hended : OnboardedOnce .talent 1 (ended.get ended_isSome) := (honce (by decide +kernel)).1 (by decide +kernel)
  refine ⟨hended, ?_⟩
  obtain ⟨e, profile, hwon, -, hprocs⟩ := hended
  have hwinner : ((commitsOf (ended.get ended_isSome).world.trace).all fun e => e.pid = 0) = true := by
    decide +kernel
  rw [hwon.once] at hwinner
  have hpid : e.pid = 0 := by simpa using hwinner
  have hproc := List.getElem?_eq_getElem (show 1 < (ended.get ended_isSome).procs.length by decide +kernel)
  have hlost := hprocs 1 _ hproc
  rw [hpid, if_neg Nat.one_ne_zero] at hlost
  obtain ⟨err, herr⟩ := hlost
  obtain ⟨e', htrace, hpid'⟩ := System.trace_of_run (Option.some_get failed_isSome).symm
  exact (hrejected 1 _ err (hproc.trans (by rw [← herr])) _ _ e' hb hf he htrace hpid').2

open OnboardingRace in
theorem onboarding_not_stored : ¬ ∀ (env : Env) (kind : ProfileKind) (id : UserId) (db : Database)
    (p : OnboardingPool kind), NotOnboarded db id → (onboardingCalls env id kind).Reachable (.start db) p →
    p.procs ≠ [] → p.Ended → OnboardedOnce kind id p := by
  intro h
  have hp : calls.Reachable (.start (sampleDatabase [sampleUser])) (refused.get refused_isSome) :=
    System.reachable_of_play (Option.some_get refused_isSome).symm
  obtain ⟨e, profile, hwon, -⟩ := h _ _ _ _ _ notOnboarded hp (by decide +kernel) (by decide +kernel)
  have hcommits : commitsOf (refused.get refused_isSome).world.trace = [] := rfl
  cases hcommits.symm.trans hwon.once

end SkillBridge
