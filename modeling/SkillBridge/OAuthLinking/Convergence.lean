import SkillBridge.Api.Runs
import SkillBridge.Database.Constraints
import SkillBridge.OAuthLinking.Calls

set_option autoImplicit false

/-! All sign-ins with one identity end with the same user, whatever they and the registrations meet. -/

namespace SkillBridge

open Interleaving Database Contract

abbrev AccountPool : Type := Pool backend Database AccountCall AccountResult

def OAuthIdentity.accounts (i : OAuthIdentity) (db : Database) : List OAuthUser :=
  db.tables.oauthAccounts.filter fun account =>
    account.provider = i.provider && account.provider_id = i.providerId

def LinkedOnce (i : OAuthIdentity) (db : Database) (id : UserId) : Prop :=
  ∃ user account, i.users db = [user] ∧ user.id = id ∧ user.is_verified = true ∧
    i.accounts db = [account] ∧ account.user_id = id

def Converged (i : OAuthIdentity) (p : AccountPool) : Prop :=
  ∃ id, ∀ proc ∈ p.procs, ∀ profile signupRole, proc.req = .resolve profile signupRole →
    ∃ user, proc.prog = .ret (.resolved user) ∧ user.id = id ∧ LinkedOnce i p.world.state id

variable {env : Env} {i : OAuthIdentity} {db : Database} {p q : AccountPool}

theorem Linked.once {id : UserId} (h : Linked i db id) : LinkedOnce i db id := by
  obtain ⟨⟨user, hu, hid, -, hver⟩, account, ha, hauser, hapid⟩ := h
  refine ⟨user, account, hu, hid, hver rfl, ?_, hauser⟩
  have hsub : i.accounts db = (i.links db id).filter fun account => account.provider_id = i.providerId := by
    rw [OAuthIdentity.links, List.filter_filter]
    apply List.filter_congr
    intro account _
    by_cases hp : account.provider_id = i.providerId <;> simp [hp, Bool.and_comm]
  rw [hsub, ha]
  simp [hapid]

def SignInOutcome (i : OAuthIdentity) (pid : ℕ) : AccountCall → Except Failure AccountResult →
    AccountWorld → Prop
  | .resolve _ _, r, w => Holding pid [] w ∧ ∃ user, r = .ok (.resolved user) ∧ Linked i w.state user.id
  | .register _, _, w => Holding pid [] w

theorem SignInOutcome.holding {pid : ℕ} {req : AccountCall} {r : Except Failure AccountResult}
    {w : AccountWorld} (h : SignInOutcome i pid req r w) : Holding pid [] w := by
  cases req with
  | resolve profile signupRole => exact h.1
  | register dto => exact h

theorem safe_accountBody {pid : ℕ} {req : AccountCall} {w : AccountWorld} (hconcerns : req.concerns i = true)
    (hheld : Holding pid [] w) :
    (signIn i).Safe server pid req (SignInOutcome i pid req) (accountBody env i req) w := by
  cases req with
  | resolve profile signupRole =>
    apply Safe.bind
    apply safe_resolve hconcerns hheld
    intro user v hh hl
    exact fun v' hv' => ⟨hh.future hv', user, rfl, hv'.rel.1.linked hl⟩
  | register dto =>
    apply Safe.bind
    apply safe_register (by simpa [AccountCall.concerns] using hconcerns) hheld
    intro r v hh
    cases r with
    | ok message => exact fun v' hv' => hh.future hv'
    | error e => exact hh

theorem signIn_sound (hdb : Coherent i db) (hidle : db.transactions = []) :
    (signIn i).Sound (accountCalls env i) (SignInOutcome i) db := by
  refine ⟨⟨hdb, .start hidle⟩, fun m w hw => ?_, fun p req hp ha hnew => ?_⟩
  · obtain ⟨hc, hg⟩ := @Coherent.quiet i w.state (server.env m w.state) hw.1 rfl rfl rfl (Nat.le_refl _)
    exact ⟨⟨hc, hw.2.env m⟩, hg, [], rfl, fun _ _ _ _ => rfl⟩
  · exact safe_accountBody ha (.spawn hnew)

theorem insertUnique_not_failure {α : Type} {s t : Database} {fits taken waits dangling : Bool} {row : α}
    {tx : Option TxId} {w : Write} {e : Failure}
    (h : s.insertUnique fits taken waits dangling row tx w = some (.error e, t)) :
    infrastructureFailure e = false := by
  unfold insertUnique at h
  split_ifs at h
  · cases h
    rfl
  · cases h
    rfl
  · cases h
    rfl
  · cases h

theorem exec_not_failure {o : Op} {ω : Draw} {s t : Database} {e : Failure}
    (h : exec o ω s = some (.error e, t)) : infrastructureFailure e = false := by
  cases o with
  | insertUser tx payload => exact insertUnique_not_failure h
  | insertOauthAccount tx userId provider providerId => exact insertUnique_not_failure h
  | insertTalentProfile tx profile => exact insertUnique_not_failure h
  | insertEmployerProfile tx profile => exact insertUnique_not_failure h
  | updateUser id payload =>
    simp only [exec, updateUser] at h
    split at h
    · cases h
    · split_ifs at h <;> cases h <;> rfl
  | rotateRefreshTokenHash id currentHash nextHash =>
    simp only [exec, rotateRefreshTokenHash] at h
    split at h
    · cases h
    · split_ifs at h <;> cases h
  | markOnboardingComplete tx id =>
    simp only [exec, markOnboardingComplete] at h
    split_ifs at h
    cases h
  | deleteUser id =>
    simp only [exec, deleteUser] at h
    split_ifs at h
    · cases h
      rfl
    · cases h
  | insertOtp table payload =>
    simp only [exec, insertOtp] at h
    split_ifs at h
    · cases h
      rfl
    · cases h
  | randomBytes size =>
    simp only [exec] at h
    split_ifs at h
    cases h
  | _ => cases h

section Progress

variable (hdb : Coherent i db) (hidle : db.transactions = [])
include hdb hidle

theorem signIn_progress (hp : (accountCalls env i).Reachable (.start db) p)
    (hok : Justified (fun e _ => Undisturbed e) p.world.trace) :
    p.Ended ∨ ∃ q, (accountCalls env i).Runs Undisturbed p q := by
  have hholds := (@signIn_sound env i db hdb hidle).holds hp hok
  refine progress_of_ready hholds.inv.2 (System.Reachable.pid_lt hp) (fun pid req o k hk => hholds.ready hk rfl) ?_ ?_
  · intro pid proc hproc hend
    obtain ⟨req, prog⟩ := proc
    cases prog with
    | ret a => exact (hholds.returned hproc rfl).holding
    | throw e => exact (hholds.thrown hproc rfl).holding
    | call o k => exact hend.elim
  · -- an operation that the database answers is a step of the pool
    rintro pid req o k hk ⟨ω, reply, t, hexec⟩
    have ha : (accountCalls env i).Answers o ((accountCalls env i).env ⟨0, 0⟩ p.world.state) reply t :=
      .inl ⟨ω, hexec⟩
    refine ⟨_, .intro ⟨0, 0⟩ hk ha fun profile signupRole err _ hreply => ?_⟩
    change reply = .error err at hreply
    rw [hreply] at hexec
    exact exec_not_failure hexec

theorem signIn_ends (hp : (accountCalls env i).Reachable (.start db) p)
    (hok : Justified (fun e _ => Undisturbed e) p.world.trace) {proc : Proc backend AccountCall AccountResult}
    (hproc : proc ∈ p.procs) {profile : OAuthProfilePayload} {signupRole : OAuthSignupRole}
    (hreq : proc.req = .resolve profile signupRole) : (∀ e, proc.prog ≠ .throw e) ∧
      ∀ result, proc.prog = .ret result → ∃ user, result = .resolved user ∧ Linked i p.world.state user.id := by
  have hholds := (@signIn_sound env i db hdb hidle).holds hp hok
  obtain ⟨pid, hpid⟩ := List.mem_iff_getElem?.mp hproc
  constructor
  · intro e he
    have hout := hholds.thrown hpid he
    rw [hreq] at hout
    obtain ⟨-, user, hr, -⟩ := hout
    cases hr
  · intro result hret
    have hout := hholds.returned hpid hret
    rw [hreq] at hout
    obtain ⟨-, user, hr, hl⟩ := hout
    exact ⟨user, Except.ok.inj hr, hl⟩

theorem signIn_agree (hp : (accountCalls env i).Reachable (.start db) p)
    (hok : Justified (fun e _ => Undisturbed e) p.world.trace) : ∃ id, ∀ proc ∈ p.procs, ∀ profile signupRole,
      proc.req = .resolve profile signupRole → (∀ e, proc.prog ≠ .throw e) ∧ ∀ result, proc.prog = .ret result →
        ∃ user, result = .resolved user ∧ user.id = id ∧ LinkedOnce i p.world.state id := by
  by_cases hlinked : ∃ id, Linked i p.world.state id
  · obtain ⟨id, hl⟩ := hlinked
    refine ⟨id, fun proc hproc profile signupRole hreq => ?_⟩
    obtain ⟨hthrow, hret⟩ := signIn_ends hdb hidle hp hok hproc hreq
    refine ⟨hthrow, fun result hresult => ?_⟩
    obtain ⟨user, hr, hl'⟩ := hret result hresult
    exact ⟨user, hr, hl'.1.unique hl.1, hl.once⟩
  · refine ⟨0, fun proc hproc profile signupRole hreq => ?_⟩
    obtain ⟨hthrow, hret⟩ := signIn_ends hdb hidle hp hok hproc hreq
    refine ⟨hthrow, fun result hresult => ?_⟩
    obtain ⟨user, -, hl⟩ := hret result hresult
    exact absurd ⟨_, hl⟩ hlinked

theorem signIn_inevitable (hp : (accountCalls env i).Reachable (.start db) p)
    (hok : Justified (fun e _ => Undisturbed e) p.world.trace) :
    (accountCalls env i).Inevitable Undisturbed
      (fun q => q.procs.map Proc.req = p.procs.map Proc.req ∧ Converged i q) p := by
  have hinev : (accountCalls env i).Inevitable Undisturbed
    (fun q => ((accountCalls env i).Reachable (.start db) q ∧
      Justified (fun e _ => Undisturbed e) q.world.trace ∧ q.procs.map Proc.req = p.procs.map Proc.req) ∧
        q.Ended) p := by
    apply System.inevitable_of_progress ⟨hp, hok, rfl⟩
    · rintro q r ⟨hq, hokq, hreq⟩ hrun
      refine ⟨hq.trans hrun.reachable, ?_, hrun.advances.map_req.trans hreq⟩
      cases hrun with
      | intro m hk ha hoke => exact ⟨hoke, hokq⟩
    · exact fun q hq => signIn_progress hdb hidle hq.1 hq.2.1
  apply hinev.mono
  rintro q ⟨⟨hq, hokq, hreqs⟩, hend⟩
  refine ⟨hreqs, ?_⟩
  obtain ⟨id, hid⟩ := signIn_agree hdb hidle hq hokq
  refine ⟨id, fun proc hproc profile signupRole hreq => ?_⟩
  obtain ⟨hthrow, hret⟩ := hid proc hproc profile signupRole hreq
  have hended := hend proc hproc
  cases hprog : proc.prog with
  | ret result =>
    obtain ⟨user, rfl, huser, hres⟩ := hret result hprog
    exact ⟨user, rfl, huser, hres⟩
  | throw e => exact absurd hprog (hthrow e)
  | call o k =>
    rw [hprog] at hended
    exact hended.elim

end Progress

structure Unlinked (i : OAuthIdentity) (db : Database) : Prop where
  identity : i.accounts db = []
  user : ∀ user ∈ i.users db, ∀ account ∈ db.tables.oauthAccounts, account.provider = i.provider →
    account.user_id ≠ user.id

theorem coherent_of_constraints (h : db.Constraints) (hidle : db.transactions = [])
    (hunlinked : Unlinked i db) : Coherent i db := by
  have hidentity : ∀ account ∈ db.tables.oauthAccounts, account.provider = i.provider →
      account.provider_id ≠ i.providerId := by
    intro account haccount hprovider hpid
    have := List.filter_eq_nil_iff.mp hunlinked.identity account haccount
    simp [hprovider, hpid] at this
  refine ⟨?_, fun user huser => ?_, fun account haccount => ?_, by simp [hidle], by simp [hidle]⟩
  · cases husers : i.users db with
    | nil => exact .absent husers hidentity
    | cons user rest =>
      have hmem : user ∈ i.users db := by simp [husers]
      obtain ⟨huser, hemail⟩ := List.mem_filter.mp hmem
      have hsingle := h.filter_apart (f := User.email) (fun _ _ h => h.2) huser
      rw [show user.email = i.email by simpa using hemail] at hsingle
      obtain rfl : rest = [] := List.tail_eq_of_cons_eq (husers.symm.trans hsingle)
      refine .registered ⟨user, husers, rfl, h.find_user (List.mem_filter.mp hmem).1, by simp⟩ ?_
      rw [OAuthIdentity.links, List.filter_eq_nil_iff]
      intro account haccount
      simp only [Bool.and_eq_true, Bool.or_eq_true, decide_eq_true_eq, not_and, not_or]
      exact fun hprovider => ⟨hunlinked.user user hmem account haccount hprovider,
        hidentity account haccount hprovider⟩
  · exact h.rowIds user.row (List.mem_append_left _ (List.mem_map_of_mem huser))
  · exact h.linkIds account (List.mem_append_left _ haccount)

/-- From every state of the application, all sign-ins with one identity succeed with one user. -/
theorem oauth_sign_ins_converge {db₀ : Database} {s : ApiPool} (h₀ : db₀.Constraints)
    (hs : (api env).Reachable (.start db₀) s) (hidle : s.world.state.transactions = [])
    (hunlinked : Unlinked i s.world.state) (hp : (accountCalls env i).Reachable (.start s.world.state) p)
    (hok : ∀ e ∈ p.world.trace, Undisturbed e) :
    (∃ id, ∀ proc ∈ p.procs, ∀ profile signupRole, proc.req = .resolve profile signupRole →
      (∀ e, proc.prog ≠ .throw e) ∧ ∀ result, proc.prog = .ret result →
        ∃ user, result = .resolved user ∧ user.id = id ∧ LinkedOnce i p.world.state id) ∧
    (accountCalls env i).Inevitable Undisturbed
      (fun q => q.procs.map Proc.req = p.procs.map Proc.req ∧ Converged i q) p := by
  have hdb := coherent_of_constraints (constraints_of_reachable h₀ hs) hidle hunlinked
  have hjust : Justified (fun e _ => Undisturbed e) p.world.trace := by
    apply justified_of_split
    intro l₁ e l₂ htrace
    exact hok e (by simp [htrace])
  exact ⟨signIn_agree hdb hidle hp hjust, signIn_inevitable hdb hidle hp hjust⟩

/-! Two sign-ins and a registration meet: the first sign-in creates the account, the second one links by e-mail. -/

namespace SignInRun

def identity : OAuthIdentity := ⟨"google", "sub-1", "new@example.com", by decide⟩

def profile : OAuthProfilePayload := ⟨"sub-1", "new@example.com", "Ada", "Lovelace", none, by decide⟩

def dto : RegisterDto := ⟨"new@example.com", "correct horse", "Ada", "Lovelace", .talent, none⟩

def run : Option AccountPool :=
  (accountCalls sampleEnv identity).play (.start (sampleDatabase [])) ([
    .spawn (.resolve profile .talent), .spawn (.resolve profile .employer), .spawn (.register dto),
    .run 0 {}, .run 1 {}, .run 2 {}, .run 0 {}, .run 1 {}, .run 2 {},
    .run 0 {}, .run 1 {}, .run 0 {}, .run 0 {}, .run 0 {}, .run 0 {}] ++ List.replicate 6 (.run 1 {}))

theorem run_isSome : run.isSome = true := rfl

def pool : AccountPool := run.get run_isSome

theorem constraints_sampleDatabase : (sampleDatabase []).Constraints :=
  ⟨.nil, by simp [rows, pendingOf, sampleDatabase], by simp [links, pendingOf, sampleDatabase], .nil,
    by simp [sampleDatabase]⟩

theorem undisturbed : ∀ e ∈ pool.world.trace, Undisturbed e := by
  have hall : (pool.world.trace.all fun e => match e.reply with
      | .ok _ => true
      | .error err => !infrastructureFailure err) = true := by decide +kernel
  intro e he profile signupRole err _ hreply
  have herr := List.all_eq_true.mp hall e he
  rw [hreply] at herr
  simpa using herr

end SignInRun

open SignInRun in
theorem converged_in_signInRun : ∃ id, LinkedOnce identity pool.world.state id ∧
    (accountCalls sampleEnv identity).Inevitable Undisturbed
      (fun q => q.procs.map Proc.req = pool.procs.map Proc.req ∧ Converged identity q) pool := by
  have hp := System.reachable_of_play (Option.some_get run_isSome).symm
  obtain ⟨⟨id, hid⟩, hinevitable⟩ := @oauth_sign_ins_converge sampleEnv identity pool (sampleDatabase [])
    (.start (sampleDatabase [])) constraints_sampleDatabase .refl rfl
    ⟨rfl, by simp [OAuthIdentity.users, sampleDatabase, Pool.start]⟩ hp undisturbed
  obtain ⟨-, hret⟩ := hid _ (List.getElem_mem (by decide +kernel : 0 < pool.procs.length)) profile .talent rfl
  obtain ⟨user, -, -, honce⟩ := hret _ rfl
  exact ⟨id, honce, hinevitable⟩

end SkillBridge
