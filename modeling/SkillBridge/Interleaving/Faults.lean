import SkillBridge.Interleaving.History
import SkillBridge.Interleaving.Sequential

set_option autoImplicit false

/-! One program that runs alone, with the calls it makes: any of them may be the one that fails. -/

namespace SkillBridge.Interleaving.Prog

variable {S : Signature} {σ Ω μ α β : Type}

inductive Trail (M : Machine S σ Ω μ) : Prog S α → σ → List (Call S) → Except S.Err α → σ → Prop
  | ret {a : α} {s : σ} : Trail M (ret a) s [] (.ok a) s
  | throw {e : S.Err} {s : σ} : Trail M (throw e) s [] (.error e) s
  | call {o : S.Op} {k : S.Reply o → Prog S α} {s t u : σ} {reply : S.Reply o} {l : List (Call S)}
      {result : Except S.Err α} (h : M.Answers o s reply t) (hk : Trail M (k reply) t l result u) :
      Trail M (call o k) s (⟨o, reply⟩ :: l) result u

/-- Each execution that ends at all ends in `Q`, which may speak of the calls on the way. -/
def Traced (M : Machine S σ Ω μ) : Prog S α → σ → (List (Call S) → Except S.Err α → σ → Prop) → Prop
  | ret a, s, Q => Q [] (.ok a) s
  | throw e, s, Q => Q [] (.error e) s
  | call o k, s, Q => ∀ reply t, M.Answers o s reply t → (k reply).Traced M t fun l => Q (⟨o, reply⟩ :: l)

variable {M : Machine S σ Ω μ} {s t : σ}

theorem Trail.of_traced {Q : List (Call S) → Except S.Err α → σ → Prop} {p : Prog S α} {l : List (Call S)}
    {result : Except S.Err α} (h : Trail M p s l result t) (hp : p.Traced M s Q) : Q l result t := by
  induction h generalizing Q with
  | ret => exact hp
  | throw => exact hp
  | call h hk ih => exact ih (hp _ _ h)

theorem Traced.mono {Q Q' : List (Call S) → Except S.Err α → σ → Prop} {p : Prog S α} (hp : p.Traced M s Q)
    (h : ∀ l result t, Q l result t → Q' l result t) : p.Traced M s Q' := by
  induction p generalizing s Q Q' with
  | ret a => exact h _ _ _ hp
  | throw e => exact h _ _ _ hp
  | call o k ih => exact fun reply t ha => ih reply (hp reply t ha) fun l result t => h (⟨o, reply⟩ :: l) result t

theorem Traced.and {Q Q' : List (Call S) → Except S.Err α → σ → Prop} {p : Prog S α} (hp : p.Traced M s Q)
    (hp' : p.Traced M s Q') : p.Traced M s fun l result t => Q l result t ∧ Q' l result t := by
  induction p generalizing s Q Q' with
  | ret a => exact ⟨hp, hp'⟩
  | throw e => exact ⟨hp, hp'⟩
  | call o k ih => exact fun reply t ha => ih reply (hp reply t ha) (hp' reply t ha)

theorem traced_of_calls {K : S.Op → Prop} {p : Prog S α} (hp : p.Calls K) :
    p.Traced M s fun l _ _ => ∀ c ∈ l, K c.1 := by
  induction p generalizing s with
  | ret a => simp [Traced]
  | throw e => simp [Traced]
  | call o k ih =>
    intro reply t ha
    apply (ih reply (hp.2 reply)).mono
    exact fun l result u hl => List.forall_mem_cons.mpr ⟨hp.1, hl⟩

theorem traced_bind {Q : List (Call S) → Except S.Err β → σ → Prop} {p : Prog S α} {f : α → Prog S β}
    (h : p.Traced M s fun l result t => match result with
      | .ok a => (f a).Traced M t fun l' => Q (l ++ l')
      | .error e => Q l (.error e) t) : (p >>= f).Traced M s Q := by
  induction p generalizing s Q with
  | ret a => exact h
  | throw e => exact h
  | call o k ih => exact fun reply t ha => ih reply (h reply t ha)

theorem traced_of_wlp {Q : Except S.Err α → σ → Prop} {p : Prog S α} (h : p.Wlp M Q s) :
    p.Traced M s fun _ => Q := by
  induction p generalizing s with
  | ret a => exact h
  | throw e => exact h
  | call o k ih => exact fun reply t ha => ih reply (h reply t ha)

/-- Each execution that returns a result returns one with `Q`; those that throw may do as they like. -/
def Yields (M : Machine S σ Ω μ) (Q : α → σ → Prop) (p : Prog S α) (s : σ) : Prop :=
  p.Wlp M (fun result t => ∀ a, result = .ok a → Q a t) s

theorem yields_ret {Q : α → σ → Prop} {a : α} (h : Q a s) : (ret a : Prog S α).Yields M Q s := by
  rintro b hb
  cases hb
  exact h

theorem yields_throw {Q : α → σ → Prop} {e : S.Err} : (throw e : Prog S α).Yields M Q s := by
  rintro b hb
  cases hb

theorem yields_of_forall {Q : α → σ → Prop} {p : Prog S α} (h : ∀ a t, Q a t) : p.Yields M Q s := by
  induction p generalizing s with
  | ret a => exact yields_ret (h a s)
  | throw e => exact yields_throw
  | call o k ih => exact fun reply t _ => ih reply

theorem yields_bind {Q : α → σ → Prop} {Q' : β → σ → Prop} {p : Prog S α} {f : α → Prog S β} (h : p.Yields M Q s)
    (hf : ∀ a t, Q a t → (f a).Yields M Q' t) : (p >>= f).Yields M Q' s := by
  induction p generalizing s with
  | ret a => exact hf a s (h a rfl)
  | throw e => exact yields_throw
  | call o k ih => exact fun reply t ha => ih reply (h reply t ha)

theorem yields_perform {o : S.Op} {Q : S.Res o → σ → Prop}
    (h : ∀ ω r t, M.exec o ω s = some (.ok r, t) → Q r t) : (perform o).Yields M Q s := by
  apply wlp_perform
  · rintro ω reply t hω r rfl
    exact h ω r t hω
  · rintro e he r hr
    cases hr

theorem yields_perform_bind {o : S.Op} {Q : α → σ → Prop} {f : S.Res o → Prog S α}
    (h : ∀ ω reply u, M.exec o ω s = some (reply, u) → u = t) (hf : ∀ r, (f r).Yields M Q t) :
    (perform o >>= f).Yields M Q s := by
  refine yields_bind (Q := fun _ u => u = t) (yields_perform fun ω r u => h ω (.ok r) u) ?_
  rintro r u rfl
  exact hf r

theorem traced_map {Q : List (Call S) → Except S.Err β → σ → Prop} {p : Prog S α} {f : α → β}
    (h : p.Traced M s fun l result t => Q l (result.map f) t) : (f <$> p).Traced M s Q := by
  apply traced_bind
  apply h.mono
  intro l result t hQ
  cases result with
  | ok a =>
    change Q (l ++ []) (.ok (f a)) t
    rw [List.append_nil]
    exact hQ
  | error e => exact hQ

theorem traced_perform {o : S.Op} {Q : List (Call S) → Except S.Err (S.Res o) → σ → Prop}
    (replied : ∀ ω reply t, M.exec o ω s = some (reply, t) → Q [⟨o, reply⟩] reply t)
    (failed : ∀ e, M.failure e = true → Q [⟨o, .error e⟩] (.error e) s) : (perform o).Traced M s Q := by
  intro reply t ha
  have hQ : Q [⟨o, reply⟩] reply t := by
    rcases ha with ⟨ω, hω⟩ | ⟨e, he, rfl, rfl⟩
    · exact replied ω reply t hω
    · exact failed e he
  cases reply with
  | ok r => exact hQ
  | error e => exact hQ

/-- The execution in which each call draws from outside or fails as the script says. -/
def replay (M : Machine S σ Ω μ) : Prog S α → σ → List (Ω ⊕ S.Err) → Option (List (Call S) × Except S.Err α × σ)
  | ret a, s, _ => some ([], .ok a, s)
  | throw e, s, _ => some ([], .error e, s)
  | call _ _, _, [] => none
  | call o k, s, .inl ω :: script =>
    match M.exec o ω s with
    | some (reply, t) => ((k reply).replay M t script).map fun (l, result) => (⟨o, reply⟩ :: l, result)
    | none => none
  | call o k, s, .inr e :: script =>
    if M.failure e then ((k (.error e)).replay M s script).map fun (l, result) => (⟨o, .error e⟩ :: l, result)
    else none

theorem trail_of_replay {p : Prog S α} {script : List (Ω ⊕ S.Err)} {l : List (Call S)} {result : Except S.Err α}
    (h : p.replay M s script = some (l, result, t)) : Trail M p s l result t := by
  induction p generalizing s script l with
  | ret a => cases h; exact .ret
  | throw e => cases h; exact .throw
  | call o k ih =>
    cases script with
    | nil => cases h
    | cons step script =>
      cases step with
      | inl ω =>
        simp only [replay] at h
        split at h
        · rename_i reply t' he
          obtain ⟨⟨l', result', u⟩, hk, heq⟩ := Option.map_eq_some_iff.mp h
          cases heq
          exact .call (.inl ⟨ω, he⟩) (ih reply hk)
        · cases h
      | inr e =>
        simp only [replay] at h
        split at h
        · rename_i hfail
          obtain ⟨⟨l', result', u⟩, hk, heq⟩ := Option.map_eq_some_iff.mp h
          cases heq
          exact .call (.inr ⟨e, hfail, rfl, rfl⟩) (ih _ hk)
        · cases h

end SkillBridge.Interleaving.Prog
