import SkillBridge.Interleaving.Pool

set_option autoImplicit false

/-! One program that runs alone, to its end. -/

namespace SkillBridge.Interleaving

variable {S : Signature} {σ Ω μ α β : Type}

def Machine.failing (M : Machine S σ Ω μ) (failure : S.Err → Bool) : Machine S σ Ω μ :=
  { M with failure }

def Machine.reliable (M : Machine S σ Ω μ) : Machine S σ Ω μ := M.failing fun _ => false

namespace Prog

inductive Exec (M : Machine S σ Ω μ) : Prog S α → σ → Except S.Err α → σ → Prop
  | ret {a : α} {s : σ} : Exec M (ret a) s (.ok a) s
  | throw {e : S.Err} {s : σ} : Exec M (throw e) s (.error e) s
  | call {o : S.Op} {k : S.Reply o → Prog S α} {s t u : σ} {reply : S.Reply o} {result : Except S.Err α}
      (h : M.Answers o s reply t) (hk : Exec M (k reply) t result u) : Exec M (call o k) s result u

/-- The program never waits for ever when it runs alone, and each of its executions ends in `Q`. -/
def Wp (M : Machine S σ Ω μ) (Q : Except S.Err α → σ → Prop) : Prog S α → σ → Prop
  | ret a, s => Q (.ok a) s
  | throw e, s => Q (.error e) s
  | call o k, s => (∃ reply t, M.Answers o s reply t) ∧
      ∀ reply t, M.Answers o s reply t → (k reply).Wp M Q t

variable {M : Machine S σ Ω μ} {s t : σ}

section Semantics

variable {Q : Except S.Err α → σ → Prop} {p : Prog S α} {result : Except S.Err α}

theorem Exec.of_wp (h : Exec M p s result t) (hp : p.Wp M Q s) : Q result t := by
  induction h with
  | ret => exact hp
  | throw => exact hp
  | call h hk ih => exact ih (hp.2 _ _ h)

theorem Wp.mono {Q' : Except S.Err α → σ → Prop} (hp : p.Wp M Q s) (h : ∀ result t, Q result t → Q' result t) :
    p.Wp M Q' s := by
  induction p generalizing s with
  | ret a => exact h _ _ hp
  | throw e => exact h _ _ hp
  | call o k ih => exact ⟨hp.1, fun reply t ha => ih reply (hp.2 reply t ha)⟩

theorem Wp.exists_exec (hp : p.Wp M Q s) : ∃ result t, Exec M p s result t ∧ Q result t := by
  induction p generalizing s with
  | ret a => exact ⟨_, _, .ret, hp⟩
  | throw e => exact ⟨_, _, .throw, hp⟩
  | call o k ih =>
    obtain ⟨⟨reply, t, h⟩, hk⟩ := hp
    obtain ⟨result, u, he, hq⟩ := ih reply (hk reply t h)
    exact ⟨result, u, .call h he, hq⟩

theorem Wp.compatible {Q' : Except S.Err α → σ → Prop} (hp : p.Wp M Q s) (hp' : p.Wp M Q' s) :
    ∃ result t, Q result t ∧ Q' result t := by
  obtain ⟨result, t, he, hq⟩ := hp.exists_exec
  exact ⟨result, t, hq, he.of_wp hp'⟩

end Semantics

section Rules

@[simp] theorem wp_ret {Q : Except S.Err α → σ → Prop} (a : α) : (ret a).Wp M Q s ↔ Q (.ok a) s := Iff.rfl

@[simp] theorem wp_throw {Q : Except S.Err α → σ → Prop} (e : S.Err) :
    (throw e : Prog S α).Wp M Q s ↔ Q (.error e) s := Iff.rfl

theorem wp_bind {Q : Except S.Err β → σ → Prop} {p : Prog S α} {f : α → Prog S β}
    (h : p.Wp M (fun result t => match result with
      | .ok a => (f a).Wp M Q t
      | .error e => Q (.error e) t) s) : (p >>= f).Wp M Q s := by
  induction p generalizing s with
  | ret a => exact h
  | throw e => exact h
  | call o k ih => exact ⟨h.1, fun reply t ha => ih reply (h.2 reply t ha)⟩

theorem wp_tryCatch {Q : Except S.Err α → σ → Prop} {p : Prog S α} {f : S.Err → Prog S α}
    (h : p.Wp M (fun result t => match result with
      | .ok a => Q (.ok a) t
      | .error e => (f e).Wp M Q t) s) : (MonadExcept.tryCatch p f).Wp M Q s := by
  induction p generalizing s with
  | ret a => exact h
  | throw e => exact h
  | call o k ih => exact ⟨h.1, fun reply t ha => ih reply (h.2 reply t ha)⟩

theorem wp_perform {o : S.Op} {Q : Except S.Err (S.Res o) → σ → Prop}
    (answered : ∃ ω reply t, M.exec o ω s = some (reply, t))
    (replied : ∀ ω reply t, M.exec o ω s = some (reply, t) → Q reply t)
    (failed : ∀ e, M.failure e = true → Q (.error e) s) : (perform o).Wp M Q s := by
  obtain ⟨ω, reply, t, h⟩ := answered
  refine ⟨⟨reply, t, .inl ⟨ω, h⟩⟩, fun reply t ha => ?_⟩
  have hQ : Q reply t := by
    rcases ha with ⟨ω, hω⟩ | ⟨e, he, rfl, rfl⟩
    · exact replied ω reply t hω
    · exact failed e he
  cases reply with
  | ok r => exact hQ
  | error e => exact hQ

theorem wp_perform_of_eq [Nonempty Ω] {o : S.Op} {Q : Except S.Err (S.Res o) → σ → Prop} {reply : S.Reply o}
    (h : ∀ ω, M.exec o ω s = some (reply, t)) (replied : Q reply t)
    (failed : ∀ e, M.failure e = true → Q (.error e) s) : (perform o).Wp M Q s := by
  obtain ⟨ω⟩ := ‹Nonempty Ω›
  refine wp_perform ⟨ω, reply, t, h ω⟩ (fun ω' reply' t' h' => ?_) failed
  rw [h ω', Option.some.injEq, Prod.mk.injEq] at h'
  obtain ⟨rfl, rfl⟩ := h'
  exact replied

end Rules

/-- Each execution that ends at all ends in `Q`. -/
def Wlp (M : Machine S σ Ω μ) (Q : Except S.Err α → σ → Prop) : Prog S α → σ → Prop
  | ret a, s => Q (.ok a) s
  | throw e, s => Q (.error e) s
  | call o k, s => ∀ reply t, M.Answers o s reply t → (k reply).Wlp M Q t

section Liberal

theorem Exec.of_wlp {Q : Except S.Err α → σ → Prop} {p : Prog S α} {result : Except S.Err α}
    (h : Exec M p s result t) (hp : p.Wlp M Q s) : Q result t := by
  induction h with
  | ret => exact hp
  | throw => exact hp
  | call h hk ih => exact ih (hp _ _ h)

theorem Wp.wlp {Q : Except S.Err α → σ → Prop} {p : Prog S α} (h : p.Wp M Q s) : p.Wlp M Q s := by
  induction p generalizing s with
  | ret a => exact h
  | throw e => exact h
  | call o k ih => exact fun reply t ha => ih reply (h.2 reply t ha)

theorem wlp_bind {Q : Except S.Err β → σ → Prop} {p : Prog S α} {f : α → Prog S β}
    (h : p.Wlp M (fun result t => match result with
      | .ok a => (f a).Wlp M Q t
      | .error e => Q (.error e) t) s) : (p >>= f).Wlp M Q s := by
  induction p generalizing s with
  | ret a => exact h
  | throw e => exact h
  | call o k ih => exact fun reply t ha => ih reply (h reply t ha)

theorem wlp_perform {o : S.Op} {Q : Except S.Err (S.Res o) → σ → Prop}
    (replied : ∀ ω reply t, M.exec o ω s = some (reply, t) → Q reply t)
    (failed : ∀ e, M.failure e = true → Q (.error e) s) : (perform o).Wlp M Q s := by
  intro reply t ha
  have hQ : Q reply t := by
    rcases ha with ⟨ω, hω⟩ | ⟨e, he, rfl, rfl⟩
    · exact replied ω reply t hω
    · exact failed e he
  cases reply with
  | ok r => exact hQ
  | error e => exact hQ

end Liberal

def eval (M : Machine S σ Ω μ) : Prog S α → σ → List Ω → Option (Except S.Err α × σ)
  | ret a, s, _ => some (.ok a, s)
  | throw e, s, _ => some (.error e, s)
  | call _ _, _, [] => none
  | call o k, s, ω :: ωs =>
    match M.exec o ω s with
    | some (reply, t) => (k reply).eval M t ωs
    | none => none

theorem exec_of_eval {p : Prog S α} {ωs : List Ω} {result : Except S.Err α}
    (h : p.eval M s ωs = some (result, t)) : Exec M p s result t := by
  induction p generalizing s ωs with
  | ret a => cases h; exact .ret
  | throw e => cases h; exact .throw
  | call o k ih =>
    cases ωs with
    | nil => cases h
    | cons ω ωs =>
      simp only [eval] at h
      split at h
      · rename_i reply t' he
        exact .call (.inl ⟨ω, he⟩) (ih reply h)
      · cases h

end Prog

end SkillBridge.Interleaving
