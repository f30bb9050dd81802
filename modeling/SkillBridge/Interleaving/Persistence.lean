import SkillBridge.Interleaving.History

set_option autoImplicit false

/-! What a program calls and returns on states that the others change, as long as they keep an invariant. -/

namespace SkillBridge.Interleaving

variable {S : Signature} {σ Ω μ Req α β : Type}

namespace Prog

/-- Whatever the state is at each operation, as long as it satisfies `I`, only operations of `K` are called, and the
result satisfies `Q`. -/
def Amid (M : Machine S σ Ω μ) (I : σ → Prop) (K : S.Op → Prop) : Prog S α → (Except S.Err α → Prop) → Prop
  | ret a, Q => Q (.ok a)
  | throw e, Q => Q (.error e)
  | call o k, Q => K o ∧ ∀ s reply t, I s → M.Answers o s reply t → (k reply).Amid M I K Q

variable {M : Machine S σ Ω μ} {I : σ → Prop} {K : S.Op → Prop}

theorem amid_bind {Q : Except S.Err β → Prop} {p : Prog S α} {f : α → Prog S β}
    (h : p.Amid M I K fun result => match result with
      | .ok a => (f a).Amid M I K Q
      | .error e => Q (.error e)) : (p >>= f).Amid M I K Q := by
  induction p with
  | ret a => exact h
  | throw e => exact h
  | call o k ih => exact ⟨h.1, fun s reply t hI ha => ih reply (h.2 s reply t hI ha)⟩

theorem amid_tryCatch {Q : Except S.Err α → Prop} {p : Prog S α} {f : S.Err → Prog S α}
    (h : p.Amid M I K fun result => match result with
      | .ok a => Q (.ok a)
      | .error e => (f e).Amid M I K Q) : (MonadExcept.tryCatch p f).Amid M I K Q := by
  induction p with
  | ret a => exact h
  | throw e => exact h
  | call o k ih => exact ⟨h.1, fun s reply t hI ha => ih reply (h.2 s reply t hI ha)⟩

theorem Amid.mono {Q Q' : Except S.Err α → Prop} {p : Prog S α} (h : p.Amid M I K Q) (hQ : ∀ r, Q r → Q' r) :
    p.Amid M I K Q' := by
  induction p with
  | ret a => exact hQ _ h
  | throw e => exact hQ _ h
  | call o k ih => exact ⟨h.1, fun s reply t hI ha => ih reply (h.2 s reply t hI ha)⟩

theorem amid_perform {o : S.Op} {Q : Except S.Err (S.Res o) → Prop}
    (replied : ∀ s ω reply t, I s → M.exec o ω s = some (reply, t) → Q reply)
    (failed : ∀ e, M.failure e = true → Q (.error e)) (called : K o) : (perform o).Amid M I K Q := by
  refine ⟨called, fun s reply t hI ha => ?_⟩
  have hQ : Q reply := by
    rcases ha with ⟨ω, hω⟩ | ⟨e, he, rfl, -⟩
    · exact replied s ω reply t hI hω
    · exact failed e he
  cases reply with
  | ok r => exact hQ
  | error e => exact hQ

end Prog

namespace System

variable {Y : System S σ Ω μ Req α} {I : σ → Prop} {K : S.Op → Prop} {B : Req → Prop}
  {Q : Req → Except S.Err α → Prop} {p q : Pool S σ Req α}

theorem Reachable.amid (env : ∀ m s, I s → I (Y.env m s))
    (run : ∀ o s (reply : S.Reply o) t, I s → Y.Answers o s reply t → I t)
    (hY : ∀ req, B req → (Y.body req).Amid Y.toMachine I K (Q req)) (h : Y.Reachable p q) (hp : I p.world.state)
    {pid : ℕ} {proc : Proc S Req α} (hpid : p.procs.length ≤ pid) (hproc : q.procs[pid]? = some proc)
    (hB : B proc.req) : proc.prog.Amid Y.toMachine I K (Q proc.req) := by
  induction h generalizing proc with
  | refl =>
    have hlt := (List.getElem?_eq_some_iff.mp hproc).1
    omega
  | @tail q r hr hs ih =>
    have hI : I q.world.state := Reachable.stable env run hr hp
    cases hs with
    | @spawn req h =>
      rcases procs_spawn hproc with hproc | ⟨rfl, rfl⟩
      · exact ih hproc hB
      · exact hY req hB
    | @run i req o k reply t hk ha =>
      rcases procs_answer hproc with ⟨rfl, rfl⟩ | ⟨-, hproc⟩
      · exact (ih hk hB).2 q.world.state reply t hI ha
      · exact ih hproc hB
    | env m => exact ih hproc hB

theorem Reachable.amid_calls (env : ∀ m s, I s → I (Y.env m s))
    (run : ∀ o s (reply : S.Reply o) t, I s → Y.Answers o s reply t → I t)
    (hY : ∀ req, B req → (Y.body req).Amid Y.toMachine I K (Q req)) (h : Y.Reachable p q) (hp : I p.world.state)
    (past : ∀ e ∈ p.world.trace, e.pid < p.procs.length) {e : Event S σ Req} (he : e ∈ q.world.trace)
    (hpid : p.procs.length ≤ e.pid) (hB : B e.req) : K e.op := by
  induction h with
  | refl => exact absurd (past e he) (Nat.not_lt.mpr hpid)
  | @tail q r hr hs ih =>
    cases hs with
    | spawn h => exact ih he
    | @run i req o k reply t hk ha =>
      rcases List.mem_cons.mp he with rfl | he
      · exact (Reachable.amid env run hY hr hp hpid hk hB).1
      · exact ih he
    | env m => exact ih he

end System

end SkillBridge.Interleaving
