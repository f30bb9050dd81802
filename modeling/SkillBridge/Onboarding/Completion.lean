import SkillBridge.Interleaving.Sequential
import SkillBridge.Onboarding.Stages

set_option autoImplicit false

/-! Concurrent onboarding calls for one user, all for the same kind of profile: exactly one of them commits. -/

namespace SkillBridge

open Interleaving Database Contract

def onboardingCalls (env : Env) (id : UserId) (kind : ProfileKind) :
    System backend Database Draw Tick kind.Dto (OnboardingResult kind.Profile) :=
  { server.reliable with body := kind.completeOnboarding env id, admits := fun _ _ => true }

def onboarding (kind : ProfileKind) (id : UserId) : Contract backend Database kind.Dto where
  Inv w := OnboardingStage kind id w ∧ Ledger w
  Rel w w' := Moves kind id w w'
  Ready pid o w := CanGoOn pid o w
  Ok _ _ := True
  refl w := .refl w
  trans h h' := h.trans h'

def Op.calm : Op → Bool
  | findUser _ _ => true
  | findTalentProfile _ _ => true
  | findEmployerProfile _ _ => true
  | hashToken _ => true
  | signAsync _ _ _ _ => true
  | _ => false

structure Running {kind : ProfileKind} (pid : ℕ) (held : List (TxId × List Write)) (w : OnboardingWorld kind) : Prop
    extends Holding pid held w where
  uncommitted : ∀ e ∈ commitsOf w.trace, e.pid ≠ pid

variable {env : Env} {kind : ProfileKind} {id : UserId} {w w' : OnboardingWorld kind} {pid : ℕ} {dto : kind.Dto}
  {held : List (TxId × List Write)} {tx : TxId}

theorem exec_of_reliable {o : Op} {s t : Database} {reply : Reply o} (h : server.reliable.Answers o s reply t) :
    ∃ ω, exec o ω s = some (reply, t) := by
  rcases h with h | ⟨e, he, -⟩
  · exact h
  · exact absurd he Bool.false_ne_true

theorem Op.calm.exec {o : Op} (ho : o.calm = true) (db : Database) :
    ∃ ω reply t, Database.exec o ω db = some (reply, t) := by
  cases o <;> first | exact ⟨{}, _, _, rfl⟩ | cases ho

theorem Op.calm.keeps {o : Op} (ho : o.calm = true) {ω : Draw} {s t : Database} {reply : Reply o}
    (h : Database.exec o ω s = some (reply, t)) : t.tables = s.tables ∧ t.transactions = s.transactions := by
  cases o <;> first | (cases h; exact ⟨rfl, rfl⟩) | cases ho

theorem Op.calm.outside {o : Op} (ho : o.calm = true) : o.transaction = none ∧ o ≠ .startTransaction := by
  cases o <;> simp [Op.calm, Op.transaction] at ho ⊢

theorem Op.calm.commits {o : Op} (ho : o.calm = true) (reply : Reply o) : Commits ⟨o, reply⟩ = false := by
  cases o <;> first | rfl | cases ho

theorem commitsOf_later (h : w.Later pid w') : ∀ e ∈ commitsOf w'.trace, e ∈ commitsOf w.trace ∨ e.pid ≠ pid := by
  obtain ⟨l, hl, hpid⟩ := h
  intro e he
  rw [hl, commitsOf, List.filter_append] at he
  rcases List.mem_append.mp he with he | he
  · exact .inr (hpid e (List.mem_filter.mp he).1)
  · exact .inl he

theorem Running.future (h : Running pid held w) (hf : (onboarding kind id).Future pid w w') : Running pid held w' :=
  ⟨h.later hf.rel.kept hf.later, fun e he => (commitsOf_later hf.later e he).elim (h.uncommitted e) fun hne => hne⟩

theorem Running.perform {o : Op} {reply : Reply o} {t : Database} {held' : List (TxId × List Write)}
    (h : Running pid held w) (hcommits : Commits ⟨o, reply⟩ = false)
    (hheld : Holding pid held' (w.perform pid dto o reply t)) : Running pid held' (w.perform pid dto o reply t) := by
  refine ⟨hheld, ?_⟩
  rw [commitsOf_perform hcommits]
  exact h.uncommitted

namespace Onboarding

section Rules

theorem safe_op {o : Op} {Q : Except Failure o.Res → OnboardingWorld kind → Prop}
    (owned : ∀ tx, o.transaction = some tx → Started w pid tx)
    (ready : ∀ u, (onboarding kind id).Future pid w u → CanGoOn pid o u)
    (h : ∀ u ω reply t, (onboarding kind id).Future pid w u → exec o ω u.state = some (reply, t) →
      TransactionsKept u (u.perform pid dto o reply t) →
      OnboardingStage kind id (u.perform pid dto o reply t) ∧ Moves kind id u (u.perform pid dto o reply t) ∧
        ∀ v, (onboarding kind id).Future pid (u.perform pid dto o reply t) v → Q reply v) :
    (onboarding kind id).Safe server.reliable pid dto Q (Prog.perform (S := backend) o) w := by
  apply safe_perform
  intro u hu
  refine ⟨ready u hu, fun reply t ha _ => ?_⟩
  obtain ⟨ω, hexec⟩ := exec_of_reliable ha
  obtain ⟨l, hl, -⟩ := hu.later
  have howned : ∀ tx, o.transaction = some tx → Started u pid tx := fun tx htx => (owned tx htx).mono hl
  obtain ⟨hledger, hkept⟩ := @Ledger.perform _ _ pid dto _ _ _ hu.inv.2 (.inl ⟨ω, hexec⟩) howned
  obtain ⟨hstage, hmoves, hQ⟩ := h u ω reply t hu hexec hkept
  exact ⟨⟨hstage, hledger⟩, hmoves, hQ⟩

theorem safe_calm {o : Op} {Q : Except Failure o.Res → OnboardingWorld kind → Prop} (ho : o.calm = true)
    (h : ∀ u ω reply t v, (onboarding kind id).Future pid w u → exec o ω u.state = some (reply, t) →
      Moves kind id u v → (∀ held, Holding pid held w → Holding pid held v) →
      (∀ held, Running pid held w → Running pid held v) → Q reply v) :
    (onboarding kind id).Safe server.reliable pid dto Q (Prog.perform (S := backend) o) w := by
  obtain ⟨htransaction, hstart⟩ := Op.calm.outside ho
  refine safe_op (by simp [htransaction]) (fun u _ => .inl (Op.calm.exec ho u.state)) ?_
  intro u ω reply t hu hexec hkept
  obtain ⟨htables, htransactions⟩ := Op.calm.keeps ho hexec
  have hcommits := Op.calm.commits ho reply
  have hagree : u.state.tables.Agree t.tables := by
    rw [htables]
    exact .refl _
  have hmoves : Moves kind id u (u.perform pid dto o reply t) := .quiet hagree hcommits hkept
  refine ⟨hu.inv.1.quiet hagree hcommits fun entry hentry => .inr (htransactions ▸ hentry), hmoves, fun v hv => ?_⟩
  have hholding : ∀ held, Holding pid held w → Holding pid held (u.perform pid dto o reply t) := fun held hheld =>
    (hheld.later hu.rel.kept hu.later).outside hu.inv.2 (.inl ⟨ω, hexec⟩) htransaction hstart
  refine h u ω reply t v hu hexec (hmoves.trans hv.rel)
    (fun held hheld => (hholding held hheld).later hv.rel.kept hv.later)
    fun held hrun => (Running.perform (hrun.future hu) hcommits (hholding held hrun.toHolding)).future hv

end Rules

section Statements

variable {e : OnboardingEvent kind} {profile : kind.Profile} {n : ℕ}

theorem view_fresh (hrun : @Running kind pid [(tx, [])] w) : w.state.view (some tx) = w.state.tables := by
  rw [view_eq hrun.toHolding.entries_eq]
  rfl

theorem safe_start {Q : Except Failure TxId → OnboardingWorld kind → Prop} (hrun : Running pid [] w)
    (h : ∀ tx v, Running pid [(tx, [])] v → Q (.ok tx) v) :
    (onboarding kind id).Safe server.reliable pid dto Q (Prog.perform (S := backend) .startTransaction) w := by
  refine safe_op (by simp [Op.transaction]) (fun u _ => .inl ⟨{}, _, _, rfl⟩) ?_
  intro u ω reply t hu hexec hkept
  cases hexec
  refine ⟨hu.inv.1.quiet (.refl _) rfl fun entry hentry => ?_, .quiet (.refl _) rfl hkept, fun v hv => ?_⟩
  · rcases List.mem_cons.mp hentry with rfl | hentry
    · exact .inl rfl
    · exact .inr hentry
  · have hru := hrun.future hu
    exact h _ v ((hru.perform rfl (hru.toHolding.start hu.inv.2 (.inl ⟨ω, rfl⟩))).future hv)

theorem safe_userOf {Q : Except Failure User → OnboardingWorld kind → Prop} (hrun : Running pid [(tx, [])] w)
    (h : ∀ user v, Running pid [(tx, [])] v →
      (user.onboarding_complete = true → ∃ e profile, Won kind id e profile v) → Q (.ok user) v) :
    (onboarding kind id).Safe server.reliable pid dto Q (Onboarding.userOf tx id) w := by
  apply Safe.tryCatch
  apply Safe.bind
  apply safe_calm rfl
  intro u ω reply t v hu hexec hmoves _ hrunning
  cases hexec
  obtain ⟨user, hfound, hwon⟩ := hu.inv.1.user
  rw [view_fresh (hrun.future hu), hfound]
  intro v' hv'
  refine h user v' ((hrunning _ hrun).future hv') fun hcomplete => ?_
  obtain ⟨e, profile, hwon⟩ := hwon hcomplete
  exact ⟨e, profile, hv'.rel.won (hmoves.won hwon)⟩

theorem safe_find {Q : Except Failure (Option kind.Profile) → OnboardingWorld kind → Prop}
    (hrun : Running pid [(tx, [])] w) (absent : ∀ v, Running pid [(tx, [])] v → Q (.ok none) v)
    (present : ∀ found v, Running pid [(tx, [])] v → (∃ e profile, Won kind id e profile v) → Q (.ok (some found)) v) :
    (onboarding kind id).Safe server.reliable pid dto Q (kind.find id tx) w := by
  have hreply : ∀ {u v}, Running pid [(tx, [])] u → OnboardingStage kind id u → Moves kind id u v →
      Running pid [(tx, [])] v → Q (.ok ((kind.profiles (u.state.view (some tx))).find? fun profile =>
        kind.owner profile = id)) v := by
    intro u v hru hstage hmoves hrv
    rw [view_fresh hru]
    cases hfind : (kind.profiles u.state.tables).find? fun profile => kind.owner profile = id with
    | none => exact absent v hrv
    | some found =>
      obtain ⟨e, profile, hwon⟩ := hstage.won_of_profile hfind
      exact present found v hrv ⟨e, profile, hmoves.won hwon⟩
  cases kind
  all_goals
    apply safe_calm rfl
    intro u ω reply t v hu hexec hmoves _ hrunning
    cases hexec
    exact hreply (hrun.future hu) hu.inv.1 hmoves (hrunning _ hrun)

theorem ready_insert {o : Op} (hrun : @Running kind pid [(tx, [])] w)
    (hexec : ∀ reply t, kind.insert w.state tx (kind.row id dto) = some (reply, t) →
      ∃ ω reply t, exec o ω w.state = some (reply, t)) : CanGoOn pid o w := by
  cases h : kind.insert w.state tx (kind.row id dto) with
  | some result => exact .inl (hexec result.1 result.2 h)
  | none => exact .inr ⟨exists_of_insert_waits h, hrun.toHolding.nil_of_started (by simp)⟩

theorem insert_outcome {o : Op} {ω : Draw} {reply : Reply o} {t : Database} {inserted : Except Failure kind.Profile}
    (hrun : Running pid [(tx, [])] w) (hinv : (onboarding kind id).Inv w) (ho : o.transaction = some tx)
    (hcommits : Commits ⟨o, reply⟩ = false) (hexec : exec o ω w.state = some (reply, t))
    (hinsert : kind.insert w.state tx (kind.row id dto) = some (inserted, t))
    (hkept : TransactionsKept w (w.perform pid dto o reply t)) :
    OnboardingStage kind id (w.perform pid dto o reply t) ∧ Moves kind id w (w.perform pid dto o reply t) ∧
      ∀ v, (onboarding kind id).Future pid (w.perform pid dto o reply t) v →
        (∃ err, inserted = .error err ∧ Running pid [(tx, [])] v ∧ Beaten kind id dto v) ∨
        ∃ n, inserted = .ok (kind.row id dto n) ∧ Running pid [(tx, [kind.write (kind.row id dto n)])] v := by
  have hentries := hrun.toHolding.entries_eq
  rcases hinv.1.insert hentries hinsert with ⟨err, rfl, rfl, hbeaten⟩ | ⟨rfl, halone, rfl⟩
  · have hmoves : Moves kind id w (w.perform pid dto o reply w.state) := .quiet (.refl _) hcommits hkept
    refine ⟨hinv.1.quiet (.refl _) hcommits fun entry hentry => .inr hentry, hmoves, fun v hv => .inl ⟨err, rfl, ?_, ?_⟩⟩
    · have hheld : Holding pid [(tx, [])] (w.perform pid dto o reply w.state) :=
        hrun.toHolding.inside hinv.2 (.inl ⟨ω, hexec⟩) ho hentries (by simp)
      exact (hrun.perform hcommits hheld).future hv
    · exact hbeaten.mono fun hwon => hv.rel.won (hmoves.won hwon)
  · have hsaved : (w.state.save (some tx) (kind.write (kind.row id dto w.state.fresh))).tick.entries tx =
        [(tx, [kind.write (kind.row id dto w.state.fresh)])] := by
      refine Eq.trans (entries_save _) ?_
      rw [hentries]
      rfl
    refine ⟨halone.save hentries ⟨_, ProfileKind.owner_row _, .inl rfl⟩ (.refl _) rfl hcommits,
      .quiet (.refl _) hcommits hkept, fun v hv => .inr ⟨_, rfl, ?_⟩⟩
    have hheld : Holding pid [(tx, [kind.write (kind.row id dto w.state.fresh)])]
        (w.perform pid dto o reply (w.state.save (some tx) (kind.write (kind.row id dto w.state.fresh))).tick) :=
      hrun.toHolding.inside hinv.2 (.inl ⟨ω, hexec⟩) ho hsaved (by simp)
    exact (hrun.perform hcommits hheld).future hv

theorem safe_save {Q : Except Failure kind.Profile → OnboardingWorld kind → Prop} (hrun : Running pid [(tx, [])] w)
    (saved : ∀ n v, Running pid [(tx, [kind.write (kind.row id dto n)])] v → Q (.ok (kind.row id dto n)) v)
    (failed : ∀ err v, Running pid [(tx, [])] v → Beaten kind id dto v → Q (.error err) v) :
    (onboarding kind id).Safe server.reliable pid dto Q (kind.save id dto tx) w := by
  cases kind
  all_goals
    refine safe_op (hrun.toHolding.owned rfl) (fun u hu => ?_) ?_
    · exact ready_insert (hrun.future hu) fun reply t hexec => ⟨{}, reply, t, hexec⟩
    · intro u ω reply t hu hexec hkept
      obtain ⟨hstage, hmoves, hQ⟩ := insert_outcome (hrun.future hu) hu.inv rfl rfl hexec hexec hkept
      refine ⟨hstage, hmoves, fun v hv => ?_⟩
      rcases hQ v hv with ⟨err, rfl, hrv, hbeaten⟩ | ⟨n, rfl, hrv⟩
      · exact failed err v hrv hbeaten
      · exact saved n v hrv

theorem safe_mark {Q : Except Failure Unit → OnboardingWorld kind → Prop}
    (hrun : Running pid [(tx, [kind.write (kind.row id dto n)])] w)
    (h : ∀ v, Running pid [(tx, [kind.write (kind.row id dto n), .markOnboardingComplete id])] v → Q (.ok ()) v) :
    (onboarding kind id).Safe server.reliable pid dto Q (UsersService.markOnboardingCompleteWithManager tx id) w := by
  have hmark : ∀ u, (onboarding kind id).Future pid w u → Alone kind id tx u := fun u hu =>
    hu.inv.1.alone (hrun.future hu).toHolding.entries_eq (by simp)
  refine safe_op (hrun.toHolding.owned rfl) (fun u hu => .inl ⟨{}, _, _, (hmark u hu).mark⟩) ?_
  intro u ω reply t hu hexec hkept
  have hru := hrun.future hu
  have hentries := hru.toHolding.entries_eq
  cases hexec.symm.trans (hmark u hu).mark
  have hsaved : (u.state.save (some tx) (.markOnboardingComplete id)).entries tx =
      [(tx, [kind.write (kind.row id dto n), .markOnboardingComplete id])] := by
    rw [entries_save, hentries]
    rfl
  have hheld : Holding pid [(tx, [kind.write (kind.row id dto n), .markOnboardingComplete id])]
      (u.perform pid dto (.markOnboardingComplete tx id) (.ok ())
        (u.state.save (some tx) (.markOnboardingComplete id))) :=
    hru.toHolding.inside hu.inv.2 (.inl ⟨ω, hexec⟩) rfl hsaved (by simp)
  exact ⟨(hmark u hu).save hentries ⟨_, ProfileKind.owner_row n, .inr rfl⟩ (.refl _) rfl rfl,
    .quiet (.refl _) rfl hkept, fun v hv => h v ((hru.perform rfl hheld).future hv)⟩

theorem safe_commit {Q : Except Failure Unit → OnboardingWorld kind → Prop}
    (hrun : Running pid [(tx, [kind.write (kind.row id dto n), .markOnboardingComplete id])] w)
    (h : ∀ e v, e.pid = pid → e.req = dto → Holding pid [] v → Won kind id e (kind.row id dto n) v → Q (.ok ()) v) :
    (onboarding kind id).Safe server.reliable pid dto Q (Prog.perform (S := backend) (.commitTransaction tx)) w := by
  refine safe_op (hrun.toHolding.owned rfl) (fun u _ => .inl ⟨{}, _, _, rfl⟩) ?_
  intro u ω reply t hu hexec hkept
  have hheld := (hrun.future hu).toHolding
  have halone := hu.inv.1.alone hheld.entries_eq (by simp)
  cases hexec
  obtain ⟨hwon, hidle⟩ := @Alone.commit kind id u pid dto tx halone n hheld.entries_eq
  refine ⟨.won hwon hidle, ⟨fun hother => absurd halone.state hother.not_free, hkept, [_], rfl, .inr ?_⟩, ?_⟩
  · exact ⟨_, List.mem_cons_self, _, List.mem_filter.mpr ⟨List.mem_cons_self, rfl⟩, rfl⟩
  · intro v hv
    have hclosed : Holding pid [] (u.perform pid dto (.commitTransaction tx) (.ok ()) (u.state.commit tx)) :=
      hheld.inside hu.inv.2 (.inl ⟨ω, rfl⟩) rfl entries_closeTransaction (by simp)
    exact h _ v rfl rfl (hclosed.later hv.rel.kept hv.later) (hv.rel.won hwon)

theorem safe_rollback {α : Type} {Q : Except Failure α → OnboardingWorld kind → Prop} {err : Failure}
    {writes : List Write} (hrun : Running pid [(tx, writes)] w)
    (h : ∀ v, Moves kind id w v → Running pid [] v → Q (.error err) v) :
    (onboarding kind id).Safe server.reliable pid dto Q (rollback tx err) w := by
  apply Safe.bind
  apply Safe.tryCatch
  refine safe_op (hrun.toHolding.owned rfl) (fun u _ => .inl ⟨{}, _, _, rfl⟩) ?_
  intro u ω reply t hu hexec hkept
  have hru := hrun.future hu
  cases hexec
  have hmoves : Moves kind id u (u.perform pid dto (.rollbackTransaction tx) (.ok ()) (u.state.rollback tx)) :=
    .quiet (.refl _) rfl hkept
  refine ⟨hu.inv.1.quiet (.refl _) rfl fun entry hentry => .inr (List.mem_filter.mp hentry).1, hmoves, ?_⟩
  intro v hv v' hv'
  have hclosed : Running pid [] (u.perform pid dto (.rollbackTransaction tx) (.ok ()) (u.state.rollback tx)) :=
    hru.perform rfl (hru.toHolding.inside hu.inv.2 (.inl ⟨ω, rfl⟩) rfl entries_closeTransaction (by simp))
  exact h v' (((hu.rel.trans hmoves).trans hv.rel).trans hv'.rel) ((hclosed.future hv).future hv')

end Statements

section Calls

variable {e : OnboardingEvent kind} {profile : kind.Profile}

theorem safe_saveProfile {Q : Except Failure kind.Profile → OnboardingWorld kind → Prop}
    (hrun : Running pid [(tx, [])] w)
    (saved : ∀ n v, Running pid [(tx, [kind.write (kind.row id dto n), .markOnboardingComplete id])] v →
      Q (.ok (kind.row id dto n)) v)
    (lost : ∀ err v, Running pid [(tx, [])] v → Beaten kind id dto v → Q (.error err) v) :
    (onboarding kind id).Safe server.reliable pid dto Q
      (Onboarding.saveProfile id (kind.find id) kind.profileExists (kind.save id dto) tx) w := by
  have hlost : ∀ {err v}, Running pid [(tx, [])] v → (∃ e profile, Won kind id e profile v) →
      (onboarding kind id).Safe server.reliable pid dto Q (throw err) v := by
    rintro err v hrv ⟨e, profile, hwon⟩ v' hv'
    exact lost err v' (hrv.future hv') fun _ => ⟨e, profile, hv'.rel.won hwon⟩
  apply Safe.bind
  apply safe_userOf hrun
  intro user v hrv hcomplete
  by_cases hflag : user.onboarding_complete = true
  · simp only [Then, hflag, ↓reduceIte]
    exact hlost hrv (hcomplete hflag)
  · simp only [Then, hflag]
    apply Safe.bind
    apply safe_find hrv
    · intro v' hrv'
      apply Safe.bind
      apply safe_save hrv'
      · intro n v₂ hrv₂
        apply Safe.bind
        apply safe_mark hrv₂
        exact fun v₃ hrv₃ v₄ hv₄ => saved n v₄ (hrv₃.future hv₄)
      · exact lost
    · exact fun found v' hrv' hwon => hlost hrv' hwon

theorem safe_setRefreshTokenHash {Q : Except Failure Unit → OnboardingWorld kind → Prop} {hash : Digest Jwt}
    (hheld : Holding pid [] w) (hpid : e.pid = pid) (hwon : Won kind id e profile w)
    (h : ∀ v, Holding pid [] v → Won kind id e profile v → Q (.ok ()) v) :
    (onboarding kind id).Safe server.reliable pid dto Q (UsersService.setRefreshTokenHash id (some hash)) w := by
  apply Safe.bind
  apply safe_op (by simp [Op.transaction])
  · intro u hu
    obtain ⟨user, hexec, -⟩ := hu.inv.1.update (hu.rel.won hwon) { refreshTokenHash := some (some hash) } rfl rfl rfl rfl
    exact .inl ⟨{}, _, _, hexec⟩
  · intro u ω reply t hu hexec hkept
    have hupdated : ∀ {e profile}, Won kind id e profile u → Won kind id e profile
        (u.perform pid dto (.updateUser id { refreshTokenHash := some (some hash) }) reply t) := by
      intro e profile hwon
      obtain ⟨user, hexec', hstate, -⟩ := hu.inv.1.update hwon { refreshTokenHash := some (some hash) } rfl rfl rfl rfl
      cases hexec.symm.trans hexec'
      exact ⟨hstate, (commitsOf_perform rfl).trans hwon.once, hwon.data⟩
    have hwon' := hupdated (hu.rel.won hwon)
    obtain ⟨user, hexec', -, hidle⟩ :=
      hu.inv.1.update (hu.rel.won hwon) { refreshTokenHash := some (some hash) } rfl rfl rfl rfl
    have hh : Holding pid [] (u.perform pid dto (.updateUser id { refreshTokenHash := some (some hash) }) reply t) :=
      (hheld.later hu.rel.kept hu.later).outside hu.inv.2 (.inl ⟨ω, hexec⟩) rfl (by simp)
    cases hexec.symm.trans hexec'
    refine ⟨.won hwon' hidle, ⟨hupdated, hkept, [_], rfl, .inr ?_⟩, fun v hv v' hv' => ?_⟩
    · refine ⟨_, List.mem_cons_self, e, ?_, hpid⟩
      rw [hwon'.once]
      exact List.mem_singleton_self e
    · exact h v' ((hh.later hv.rel.kept hv.later).later hv'.rel.kept hv'.later) (hv'.rel.won (hv.rel.won hwon'))

theorem safe_calm_won {o : Op} {Q : Except Failure o.Res → OnboardingWorld kind → Prop} (ho : o.calm = true)
    (hheld : Holding pid [] w) (hwon : Won kind id e profile w)
    (h : ∀ u ω reply t v, Won kind id e profile u → exec o ω u.state = some (reply, t) → Holding pid [] v →
      Won kind id e profile v → Q reply v) :
    (onboarding kind id).Safe server.reliable pid dto Q (Prog.perform (S := backend) o) w := by
  apply safe_calm ho
  intro u ω reply t v hu hexec hmoves hholding _
  have hwon' := hu.rel.won hwon
  exact h u ω reply t v hwon' hexec (hholding _ hheld) (hmoves.won hwon')

theorem safe_issueTokens {Q : Except Failure AuthResult → OnboardingWorld kind → Prop} {user : User}
    {message : String} (hid : user.id = id) (hheld : Holding pid [] w) (hpid : e.pid = pid)
    (hwon : Won kind id e profile w)
    (h : ∀ result v, Holding pid [] v → Won kind id e profile v → Q (.ok result) v) :
    (onboarding kind id).Safe server.reliable pid dto Q (AuthService.issueTokens env user message) w := by
  apply Safe.bind
  apply Safe.bind
  apply safe_calm_won rfl hheld hwon
  intro _ _ _ _ v₁ _ hexec hh₁ hw₁
  cases hexec
  apply Safe.bind
  apply safe_calm_won rfl hh₁ hw₁
  intro _ _ _ _ v₂ _ hexec hh₂ hw₂
  cases hexec
  intro v₃ hv₃
  apply Safe.bind
  apply Safe.bind
  apply safe_calm_won rfl (hh₂.later hv₃.rel.kept hv₃.later) (hv₃.rel.won hw₂)
  intro _ _ _ _ v₄ _ hexec hh₄ hw₄
  cases hexec
  rw [hid]
  apply safe_setRefreshTokenHash hh₄ hpid hw₄
  intro v₅ hh₅ hw₅ v₆ hv₆
  exact h _ v₆ (hh₅.later hv₆.rel.kept hv₆.later) (hv₆.rel.won hw₅)

theorem safe_issueSessionForUser {Q : Except Failure AuthResult → OnboardingWorld kind → Prop} {message : String}
    (hheld : Holding pid [] w) (hpid : e.pid = pid) (hwon : Won kind id e profile w)
    (h : ∀ result v, Holding pid [] v → Won kind id e profile v → Q (.ok result) v) :
    (onboarding kind id).Safe server.reliable pid dto Q (AuthService.issueSessionForUser env id message) w := by
  apply Safe.bind
  apply Safe.bind
  apply safe_calm_won rfl hheld hwon
  intro u _ _ _ v hw hexec hh hw'
  cases hexec
  obtain ⟨user, hfound, -⟩ := hw.state.found
  have hid : user.id = id := by simpa using List.find?_some hfound
  have hview : findById (u.state.view none).users id = some user := hfound
  rw [hview]
  intro v' hv'
  exact safe_issueTokens hid (hh.later hv'.rel.kept hv'.later) hpid (hv'.rel.won hw') h

def Outcome (kind : ProfileKind) (id : UserId) (pid : ℕ) (dto : kind.Dto) :
    Except Failure (OnboardingResult kind.Profile) → OnboardingWorld kind → Prop
  | .ok result, w => Holding pid [] w ∧ ∃ e, e.pid = pid ∧ e.req = dto ∧ Won kind id e result.profile w
  | .error _, w => Running pid [] w ∧ Beaten kind id dto w

theorem safe_completeOnboarding (hrun : Running pid [] w) :
    (onboarding kind id).Safe server.reliable pid dto (Outcome kind id pid dto) (kind.completeOnboarding env id dto) w := by
  rw [ProfileKind.completeOnboarding_eq]
  apply Safe.bind
  apply Safe.bind
  apply safe_start hrun
  intro tx v hrv
  apply Safe.tryCatch
  apply Safe.bind
  apply safe_saveProfile hrv
  · intro n v₁ hrv₁
    apply Safe.bind
    apply safe_commit hrv₁
    intro e v₂ hpid hreq hh₂ hw₂ v₃ hv₃
    apply Safe.bind
    apply safe_issueSessionForUser (hh₂.later hv₃.rel.kept hv₃.later) hpid (hv₃.rel.won hw₂)
    intro result v₄ hh₄ hw₄ v₅ hv₅
    exact ⟨hh₄.later hv₅.rel.kept hv₅.later, e, hpid, hreq, hv₅.rel.won hw₄⟩
  · intro err v₁ hrv₁ hbeaten
    apply safe_rollback hrv₁
    exact fun v₂ hmoves hrv₂ => ⟨hrv₂, hbeaten.mono hmoves.won⟩

end Calls

end Onboarding

end SkillBridge
