import SkillBridge.Interleaving.Pool

set_option autoImplicit false

/-!
Rely-guarantee reasoning for pools of programs. A program is safe in a world when each of its operations,
performed in any world that the other processes may have made of it meanwhile, keeps the contract.
-/

namespace SkillBridge.Interleaving

variable {S : Signature} {σ Ω μ Req α β : Type}

/-- `Inv` holds in every world, `Rel` relates every world to the later ones, `Ready` holds whenever a
process waits for an operation. Only runs whose operations all satisfy `Ok` are considered. -/
structure Contract (S : Signature) (σ Req : Type) where
  Inv : World S σ Req → Prop
  Rel : World S σ Req → World S σ Req → Prop
  Ready : ℕ → S.Op → World S σ Req → Prop
  Ok : Event S σ Req → List (Event S σ Req) → Prop
  refl : ∀ w, Rel w w
  trans : ∀ {u v w}, Rel u v → Rel v w → Rel u w

def World.Later (pid : ℕ) (w w' : World S σ Req) : Prop :=
  ∃ l, w'.trace = l ++ w.trace ∧ ∀ e ∈ l, e.pid ≠ pid

namespace World

theorem Later.refl (pid : ℕ) (w : World S σ Req) : w.Later pid w := ⟨[], rfl, by simp⟩

theorem Later.trans {pid : ℕ} {u v w : World S σ Req} (h : u.Later pid v) (h' : v.Later pid w) :
    u.Later pid w := by
  obtain ⟨l, hl, hp⟩ := h
  obtain ⟨l', hl', hp'⟩ := h'
  refine ⟨l' ++ l, by rw [hl', hl, List.append_assoc], fun e he => ?_⟩
  rcases List.mem_append.mp he with he | he
  · exact hp' e he
  · exact hp e he

@[simp] theorem perform_state (w : World S σ Req) (pid : ℕ) (req : Req) (o : S.Op) (reply : S.Reply o)
    (t : σ) : (w.perform pid req o reply t).state = t := rfl

end World

namespace Contract

variable (C : Contract S σ Req) (M : Machine S σ Ω μ)

structure Future (pid : ℕ) (w w' : World S σ Req) : Prop where
  later : w.Later pid w'
  rel : C.Rel w w'
  inv : C.Inv w'

def Safe (pid : ℕ) (req : Req) (Q : Except S.Err α → World S σ Req → Prop) :
    Prog S α → World S σ Req → Prop
  | .ret a, w => ∀ w', C.Future pid w w' → Q (.ok a) w'
  | .throw e, w => ∀ w', C.Future pid w w' → Q (.error e) w'
  | .call o k, w => ∀ w', C.Future pid w w' → C.Ready pid o w' ∧
      ∀ reply t, M.Answers o w'.state reply t → C.Ok ⟨pid, req, w'.state, o, reply⟩ w'.trace →
        C.Inv (w'.perform pid req o reply t) ∧ C.Rel w' (w'.perform pid req o reply t) ∧
          Safe pid req Q (k reply) (w'.perform pid req o reply t)

variable {C M} {pid : ℕ} {req : Req}

theorem Future.trans {u v w : World S σ Req} (h : C.Future pid u v) (h' : C.Future pid v w) :
    C.Future pid u w := ⟨h.later.trans h'.later, C.trans h.rel h'.rel, h'.inv⟩

theorem Future.self {w : World S σ Req} (h : C.Inv w) : C.Future pid w w :=
  ⟨.refl pid w, C.refl w, h⟩

variable {Q : Except S.Err α → World S σ Req → Prop} {w w' : World S σ Req}

theorem Safe.future {p : Prog S α} (h : C.Safe M pid req Q p w) (hw : C.Future pid w w') :
    C.Safe M pid req Q p w' := by
  cases p with
  | ret a => exact fun v hv => h v (hw.trans hv)
  | throw e => exact fun v hv => h v (hw.trans hv)
  | call o k => exact fun v hv => h v (hw.trans hv)

theorem safe_of_future {p : Prog S α}
    (h : ∀ w', C.Future pid w w' → C.Safe M pid req Q p w') : C.Safe M pid req Q p w := by
  cases p with
  | ret a => exact fun v hv => h v hv v (.self hv.inv)
  | throw e => exact fun v hv => h v hv v (.self hv.inv)
  | call o k => exact fun v hv => h v hv v (.self hv.inv)

def Then (C : Contract S σ Req) (M : Machine S σ Ω μ) (pid : ℕ) (req : Req)
    (Q : Except S.Err β → World S σ Req → Prop) (f : α → Prog S β) :
    Except S.Err α → World S σ Req → Prop
  | .ok a, w => C.Safe M pid req Q (f a) w
  | .error e, w => Q (.error e) w

theorem Safe.bind {Q : Except S.Err β → World S σ Req → Prop} {p : Prog S α} {f : α → Prog S β}
    (h : C.Safe M pid req (C.Then M pid req Q f) p w) : C.Safe M pid req Q (p >>= f) w := by
  induction p generalizing w with
  | ret a => exact safe_of_future h
  | throw e => exact h
  | call o k ih =>
    intro v hv
    obtain ⟨hr, hs⟩ := h v hv
    refine ⟨hr, fun reply t ha hok => ?_⟩
    obtain ⟨hi, hrel, hk⟩ := hs reply t ha hok
    exact ⟨hi, hrel, ih reply hk⟩

def Catch (C : Contract S σ Req) (M : Machine S σ Ω μ) (pid : ℕ) (req : Req)
    (Q : Except S.Err α → World S σ Req → Prop) (h : S.Err → Prog S α) :
    Except S.Err α → World S σ Req → Prop
  | .ok a, w => Q (.ok a) w
  | .error e, w => C.Safe M pid req Q (h e) w

theorem Safe.tryCatch {p : Prog S α} {f : S.Err → Prog S α}
    (h : C.Safe M pid req (C.Catch M pid req Q f) p w) :
    C.Safe M pid req Q (MonadExcept.tryCatch p f) w := by
  induction p generalizing w with
  | ret a => exact h
  | throw e => exact safe_of_future h
  | call o k ih =>
    intro v hv
    obtain ⟨hr, hs⟩ := h v hv
    refine ⟨hr, fun reply t ha hok => ?_⟩
    obtain ⟨hi, hrel, hk⟩ := hs reply t ha hok
    exact ⟨hi, hrel, ih reply hk⟩

theorem safe_perform {o : S.Op} {Q : Except S.Err (S.Res o) → World S σ Req → Prop}
    (h : ∀ w', C.Future pid w w' → C.Ready pid o w' ∧
      ∀ reply t, M.Answers o w'.state reply t → C.Ok ⟨pid, req, w'.state, o, reply⟩ w'.trace →
        C.Inv (w'.perform pid req o reply t) ∧ C.Rel w' (w'.perform pid req o reply t) ∧
          ∀ v, C.Future pid (w'.perform pid req o reply t) v → Q reply v) :
    C.Safe M pid req Q (Prog.perform o) w := by
  intro w' hw'
  obtain ⟨hr, hs⟩ := h w' hw'
  refine ⟨hr, fun reply t ha hok => ?_⟩
  obtain ⟨hi, hrel, hq⟩ := hs reply t ha hok
  refine ⟨hi, hrel, ?_⟩
  cases reply with
  | ok r => exact hq
  | error e => exact hq

theorem safe_of_calls {K : S.Op → Prop} {L : World S σ Req → Prop}
    (stable : ∀ {v v'}, L v → C.Future pid v v' → L v')
    (step : ∀ o v, K o → L v → C.Inv v → C.Ready pid o v ∧
      ∀ reply t, M.Answers o v.state reply t → C.Ok ⟨pid, req, v.state, o, reply⟩ v.trace →
        C.Inv (v.perform pid req o reply t) ∧ C.Rel v (v.perform pid req o reply t) ∧
          L (v.perform pid req o reply t))
    {p : Prog S α} (hp : p.Calls K) (hw : L w) (hQ : ∀ r v, L v → Q r v) : C.Safe M pid req Q p w := by
  induction p generalizing w with
  | ret a => exact fun v hv => hQ _ v (stable hw hv)
  | throw e => exact fun v hv => hQ _ v (stable hw hv)
  | call o k ih =>
    intro v hv
    obtain ⟨hr, hs⟩ := step o v hp.1 (stable hw hv) hv.inv
    refine ⟨hr, fun reply t ha hok => ?_⟩
    obtain ⟨hi, hrel, hl⟩ := hs reply t ha hok
    exact ⟨hi, hrel, ih reply (hp.2 reply) hl⟩

structure Holds (C : Contract S σ Req) (M : Machine S σ Ω μ)
    (Q : ℕ → Req → Except S.Err α → World S σ Req → Prop) (p : Pool S σ Req α) : Prop where
  inv : C.Inv p.world
  safe : ∀ pid proc, p.procs[pid]? = some proc → C.Safe M pid proc.req (Q pid proc.req) proc.prog p.world

/-- The contract is met from the start `s` on, whichever requests arrive. -/
structure Sound (C : Contract S σ Req) (Y : System S σ Ω μ Req α)
    (Q : ℕ → Req → Except S.Err α → World S σ Req → Prop) (s : σ) : Prop where
  start : C.Inv ⟨s, []⟩
  env : ∀ m w, C.Inv w → C.Inv ⟨Y.env m w.state, w.trace⟩ ∧ C.Rel w ⟨Y.env m w.state, w.trace⟩
  spawn : ∀ p req, C.Holds Y.toMachine Q p → Y.admits p req = true →
    own p.procs.length p.world.trace = [] →
      C.Safe Y.toMachine p.procs.length req (Q p.procs.length req) (Y.body req) p.world

variable {Y : System S σ Ω μ Req α} {Q : ℕ → Req → Except S.Err α → World S σ Req → Prop} {s : σ}

theorem Sound.step (h : C.Sound Y Q s) {p q : Pool S σ Req α} (hs : Y.Step p q)
    (hp : C.Holds Y.toMachine Q p) (hn : own p.procs.length p.world.trace = [])
    (hok : Justified C.Ok q.world.trace) : C.Holds Y.toMachine Q q := by
  cases hs with
  | @spawn req ha =>
    refine ⟨hp.inv, fun pid proc hproc => ?_⟩
    rcases procs_spawn hproc with hproc | ⟨rfl, rfl⟩
    · exact hp.safe pid proc hproc
    · exact h.spawn p req hp ha hn
  | @run pid req o k reply t hk ha =>
    obtain ⟨hi, hrel, hsafe⟩ :=
      ((hp.safe pid _ hk) p.world (.self hp.inv)).2 reply t ha hok.1
    refine ⟨hi, fun pid' proc hproc => ?_⟩
    rcases procs_answer hproc with ⟨rfl, rfl⟩ | ⟨he, hproc⟩
    · exact hsafe
    · refine (hp.safe pid' proc hproc).future ⟨⟨[⟨pid, req, p.world.state, o, reply⟩], rfl, ?_⟩, hrel, hi⟩
      simpa using Ne.symm he
  | env m =>
    obtain ⟨hi, hrel⟩ := h.env m p.world hp.inv
    exact ⟨hi, fun pid proc hproc => (hp.safe pid proc hproc).future ⟨⟨[], rfl, by simp⟩, hrel, hi⟩⟩

theorem Sound.holds (h : C.Sound Y Q s) {p : Pool S σ Req α} (hp : Y.Reachable (.start s) p)
    (hok : Justified C.Ok p.world.trace) : C.Holds Y.toMachine Q p := by
  induction hp with
  | refl => exact ⟨h.start, by simp [Pool.start]⟩
  | @tail p q hr hs ih =>
    obtain ⟨l, hl⟩ := hs.trace_suffix
    exact h.step hs (ih (hl ▸ hok).of_append) (System.Reachable.own_new hr) hok

theorem Sound.rel (h : C.Sound Y Q s) {p q : Pool S σ Req α} (hp : Y.Reachable (.start s) p) (hs : Y.Step p q)
    (hok : Justified C.Ok q.world.trace) : C.Rel p.world q.world := by
  obtain ⟨l, hl⟩ := hs.trace_suffix
  have hholds := h.holds hp (hl ▸ hok).of_append
  cases hs with
  | spawn ha => exact C.refl _
  | @run pid req o k reply t hk ha =>
    exact (((hholds.safe pid _ hk) p.world (.self hholds.inv)).2 reply t ha hok.1).2.1
  | env m => exact (h.env m p.world hholds.inv).2

theorem Holds.returned {p : Pool S σ Req α} (h : C.Holds M Q p) {pid : ℕ} {proc : Proc S Req α}
    (hproc : p.procs[pid]? = some proc) {a : α} (ha : proc.prog = .ret a) :
    Q pid proc.req (.ok a) p.world := by
  have hs := h.safe pid proc hproc
  rw [ha] at hs
  exact hs p.world (.self h.inv)

theorem Holds.thrown {p : Pool S σ Req α} (h : C.Holds M Q p) {pid : ℕ} {proc : Proc S Req α}
    (hproc : p.procs[pid]? = some proc) {e : S.Err} (he : proc.prog = .throw e) :
    Q pid proc.req (.error e) p.world := by
  have hs := h.safe pid proc hproc
  rw [he] at hs
  exact hs p.world (.self h.inv)

theorem Holds.ready {p : Pool S σ Req α} (h : C.Holds M Q p) {pid : ℕ} {proc : Proc S Req α}
    (hproc : p.procs[pid]? = some proc) {o : S.Op} {k : S.Reply o → Prog S α} (hk : proc.prog = .call o k) :
    C.Ready pid o p.world := by
  have hs := h.safe pid proc hproc
  rw [hk] at hs
  exact (hs p.world (.self h.inv)).1

end Contract

end SkillBridge.Interleaving
