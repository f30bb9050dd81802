import SkillBridge.Interleaving.Faults

set_option autoImplicit false

/-!
Two programs that make the same calls as long as their replies are alike, on two states that differ in what the
replies do not tell apart.
-/

namespace SkillBridge.Interleaving

variable {S : Signature} {σ Ω μ α β α' β' ε : Type}

def Both (Q : α → β → Prop) : Except ε α → Except ε β → Prop
  | .ok a, .ok b => Q a b
  | .error e, .error e' => e = e'
  | _, _ => False

namespace Prog

variable {K : S.Op → Prop} {R : ∀ o, S.Res o → S.Res o → Prop}

/-- The programs make the same calls, all of `K`, and relate their results by `Q`, whenever `R` relates their
replies. -/
def Alike (K : S.Op → Prop) (R : ∀ o, S.Res o → S.Res o → Prop) (Q : α → β → Prop) : Prog S α → Prog S β → Prop
  | ret a, q => ∃ b, q = ret b ∧ Q a b
  | throw e, q => q = throw e
  | call o k, q => K o ∧ ∃ k', q = call o k' ∧ ∀ r r', Both (R o) r r' → (k r).Alike K R Q (k' r')

theorem alike_ret {Q : α → β → Prop} {a : α} {b : β} (h : Q a b) : (ret a : Prog S α).Alike K R Q (ret b) :=
  ⟨b, rfl, h⟩

theorem alike_throw {Q : α → β → Prop} (e : S.Err) : (throw e : Prog S α).Alike K R Q (throw e) := rfl

theorem alike_perform {o : S.Op} (h : K o) : (perform o).Alike K R (R o) (perform o) := by
  refine ⟨h, _, rfl, fun r r' hr => ?_⟩
  cases r <;> cases r'
  · rw [show _ = _ from hr]
    exact alike_throw _
  · exact hr.elim
  · exact hr.elim
  · exact alike_ret hr

theorem Alike.mono {Q Q' : α → β → Prop} {p : Prog S α} {q : Prog S β} (h : p.Alike K R Q q)
    (hQ : ∀ a b, Q a b → Q' a b) : p.Alike K R Q' q := by
  induction p generalizing q with
  | ret a =>
    obtain ⟨b, rfl, hab⟩ := h
    exact alike_ret (hQ a b hab)
  | throw e => exact h
  | call o k ih =>
    obtain ⟨ho, k', rfl, hk⟩ := h
    exact ⟨ho, k', rfl, fun r r' hr => ih r (hk r r' hr)⟩

theorem alike_bind {Q : α → β → Prop} {Q' : α' → β' → Prop} {p : Prog S α} {q : Prog S β} {f : α → Prog S α'}
    {g : β → Prog S β'} (h : p.Alike K R Q q) (hf : ∀ a b, Q a b → (f a).Alike K R Q' (g b)) :
    (p >>= f).Alike K R Q' (q >>= g) := by
  induction p generalizing q with
  | ret a =>
    obtain ⟨b, rfl, hab⟩ := h
    exact hf a b hab
  | throw e =>
    cases h
    exact alike_throw e
  | call o k ih =>
    obtain ⟨ho, k', rfl, hk⟩ := h
    exact ⟨ho, _, rfl, fun r r' hr => ih r (hk r r' hr)⟩

theorem alike_tryCatch {Q : α → β → Prop} {p : Prog S α} {q : Prog S β} {f : S.Err → Prog S α} {g : S.Err → Prog S β}
    (h : p.Alike K R Q q) (hf : ∀ e, (f e).Alike K R Q (g e)) :
    (MonadExcept.tryCatch p f).Alike K R Q (MonadExcept.tryCatch q g) := by
  induction p generalizing q with
  | ret a =>
    obtain ⟨b, rfl, hab⟩ := h
    exact alike_ret hab
  | throw e =>
    cases h
    exact hf e
  | call o k ih =>
    obtain ⟨ho, k', rfl, hk⟩ := h
    exact ⟨ho, _, rfl, fun r r' hr => ih r (hk r r' hr)⟩

/-- An operation of `K` has alike effects on alike states. -/
def Lockstep (M : Machine S σ Ω μ) (K : S.Op → Prop) (R : ∀ o, S.Res o → S.Res o → Prop) (T : σ → σ → Prop) : Prop :=
  ∀ o ω s s', K o → T s s' → ∀ r t, M.exec o ω s = some (r, t) →
    ∃ r' t', M.exec o ω s' = some (r', t') ∧ Both (R o) r r' ∧ T t t'

theorem Alike.replay {M : Machine S σ Ω μ} {T : σ → σ → Prop} (L : Lockstep M K R T) {Q : α → β → Prop}
    {p : Prog S α} {q : Prog S β} (h : p.Alike K R Q q) {s s' t : σ} (hT : T s s') {script : List (Ω ⊕ S.Err)}
    {l : List (Call S)} {result : Except S.Err α} (hp : p.replay M s script = some (l, result, t)) :
    ∃ l' result' t', q.replay M s' script = some (l', result', t') ∧ Both Q result result' ∧ T t t' := by
  induction p generalizing q s s' script l with
  | ret a =>
    obtain ⟨b, rfl, hab⟩ := h
    cases hp
    exact ⟨_, _, _, rfl, hab, hT⟩
  | throw e =>
    cases h
    cases hp
    exact ⟨_, _, _, rfl, rfl, hT⟩
  | call o k ih =>
    obtain ⟨ho, k', rfl, hk⟩ := h
    cases script with
    | nil => cases hp
    | cons step script =>
      cases step with
      | inl ω =>
        simp only [Prog.replay] at hp ⊢
        split at hp
        · rename_i r u he
          obtain ⟨r', u', he', hr, hu⟩ := L o ω s s' ho hT r u he
          obtain ⟨⟨l₁, result₁, t₁⟩, hrest, heq⟩ := Option.map_eq_some_iff.mp hp
          cases heq
          obtain ⟨l', result', t', hq, hQ, ht⟩ := ih r (hk r r' hr) hu hrest
          refine ⟨⟨o, r'⟩ :: l', result', t', ?_, hQ, ht⟩
          simp only [he', hq, Option.map_some]
        · cases hp
      | inr e =>
        simp only [Prog.replay] at hp ⊢
        split at hp
        · rename_i hfail
          obtain ⟨⟨l₁, result₁, t₁⟩, hrest, heq⟩ := Option.map_eq_some_iff.mp hp
          cases heq
          obtain ⟨l', result', t', hq, hQ, ht⟩ := ih (.error e) (hk _ (.error e) rfl) hT hrest
          refine ⟨⟨o, .error e⟩ :: l', result', t', ?_, hQ, ht⟩
          simp only [hfail, hq, if_true, Option.map_some]
        · cases hp

end Prog

end SkillBridge.Interleaving
