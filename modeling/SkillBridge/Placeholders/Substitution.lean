import Mathlib.Data.List.Basic
import Mathlib.Data.List.Find
import Mathlib.Data.List.Nodup
import Mathlib.Data.Nat.Notation

set_option autoImplicit false

/-! Texts over any alphabet with placeholders in them, and what is put in the place of all of them at once. -/

namespace SkillBridge.Placeholders

/-- The placeholder of each key. Two occurrences of placeholders in one text are the same one or do not overlap. -/
structure Tokens (κ α : Type) where
  token : κ → List α
  token_ne_nil : ∀ k, token k ≠ []
  apart : ∀ {j k x y u w}, x ++ (token j ++ y) = u ++ (token k ++ w) →
    x.length + (token j).length ≤ u.length ∨ u.length + (token k).length ≤ x.length ∨ x = u ∧ j = k

def Functional {κ β : Type} (vars : List (κ × β)) : Prop :=
  ∀ entry ∈ vars, ∀ other ∈ vars, entry.1 = other.1 → entry = other

theorem Functional.subset {κ β : Type} {vars others : List (κ × β)} (h : Functional vars) (hsub : others ⊆ vars) :
    Functional others :=
  fun entry hentry other hother => h entry (hsub hentry) other (hsub hother)

theorem functional_of_nodup {κ β : Type} {vars : List (κ × β)} (h : (vars.map Prod.fst).Nodup) : Functional vars :=
  fun _ hentry _ hother => List.inj_on_of_nodup_map h hentry hother

section Occurrences

variable {κ α : Type} (T : Tokens κ α)

def Free (vars : List (κ × List α)) (s : List α) : Prop := ∀ entry ∈ vars, ¬ T.token entry.1 <:+: s

variable {T} {vars : List (κ × List α)} {j k : κ} {s x y : List α}

theorem length_token_pos (k : κ) : 0 < (T.token k).length := List.length_pos_iff.mpr (T.token_ne_nil k)

theorem Free.part (h : Free T vars s) (hx : x <:+: s) : Free T vars x :=
  fun entry hentry htoken => h entry hentry (htoken.trans hx)

theorem Free.nil : Free T vars [] :=
  fun entry _ h => T.token_ne_nil entry.1 (List.infix_nil.mp h)

theorem prefix_append_token (hx : x ≠ []) : T.token j <+: x ++ (T.token k ++ y) ↔ T.token j <+: x := by
  constructor
  · rintro ⟨r, hr⟩
    have hpos := List.length_pos_iff.mpr hx
    have happart := @T.apart j k [] r x y (by simpa using hr)
    have hlen : (T.token j).length ≤ x.length := by
      rcases happart with h | h | ⟨h, -⟩
      · simpa using h
      · have := length_token_pos (T := T) k
        simp only [List.length_nil] at h
        omega
      · exact absurd h.symm hx
    exact List.prefix_of_prefix_length_le ⟨r, hr⟩ (List.prefix_append _ _) hlen
  · exact fun h => h.trans (List.prefix_append _ _)

theorem not_prefix_within {w z : List α} (hw : w ++ z = T.token k) (hz : z ≠ []) (hne : j ≠ k) :
    ¬ T.token j <+: z ++ y := by
  rintro ⟨r, hr⟩
  have hlen : w.length + z.length = (T.token k).length := by rw [← hw, List.length_append]
  have hzpos := List.length_pos_iff.mpr hz
  have hj := length_token_pos (T := T) j
  rcases @T.apart j k w r [] y (by rw [hr, ← hw]; simp) with h | h | ⟨-, h⟩
  · simp only [List.length_nil] at h
    omega
  · simp only [List.length_nil] at h
    omega
  · exact hne h

theorem infix_append_token (hne : j ≠ k) (h : T.token j <:+: x ++ (T.token k ++ y)) :
    T.token j <:+: x ∨ T.token j <:+: y := by
  obtain ⟨u, w, hu⟩ := h
  rw [List.append_assoc] at hu
  rcases T.apart hu with h | h | ⟨-, h⟩
  · have hwhole : u ++ T.token j <+: x ++ (T.token k ++ y) := ⟨w, by rw [List.append_assoc, hu]⟩
    have hpre : u ++ T.token j <+: x :=
      List.prefix_of_prefix_length_le hwhole (List.prefix_append _ _) (by rwa [List.length_append])
    exact .inl ((List.suffix_append u _).isInfix.trans hpre.isInfix)
  · have hwhole : T.token j ++ w <:+ x ++ (T.token k ++ y) := ⟨u, hu⟩
    have hsuf : T.token j ++ w <:+ y := by
      refine List.suffix_of_suffix_length_le hwhole ((List.suffix_append (T.token k) y).trans (List.suffix_append x _)) ?_
      have := congrArg List.length hu
      simp only [List.length_append] at this ⊢
      omega
    exact .inr ((List.prefix_append _ w).isInfix.trans hsuf.isInfix)
  · exact absurd h hne

theorem exists_token (vars : List (κ × List α)) (s : List α) :
    Free T vars s ∨ ∃ x k v y, s = x ++ (T.token k ++ y) ∧ (k, v) ∈ vars ∧ Free T vars x := by
  induction s with
  | nil => exact .inl Free.nil
  | cons c s ih =>
    by_cases hstart : ∃ entry ∈ vars, T.token entry.1 <+: c :: s
    · obtain ⟨entry, hentry, y, hy⟩ := hstart
      exact .inr ⟨[], entry.1, entry.2, y, hy.symm, hentry, Free.nil⟩
    · rcases ih with hfree | ⟨x, k, v, y, rfl, hmem, hfree⟩
      · refine .inl fun entry hentry h => ?_
        rcases List.infix_cons_iff.mp h with h | h
        · exact hstart ⟨entry, hentry, h⟩
        · exact hfree entry hentry h
      · refine .inr ⟨c :: x, k, v, y, rfl, hmem, fun entry hentry h => ?_⟩
        rcases List.infix_cons_iff.mp h with h | h
        · exact hstart ⟨entry, hentry, h.trans (List.prefix_append (c :: x) _)⟩
        · exact hfree entry hentry h

/-- Induction along the tokens of a text, from its end. -/
theorem token_induction (vars : List (κ × List α)) {motive : List α → Prop} (free : ∀ s, Free T vars s → motive s)
    (token : ∀ x k v y, (k, v) ∈ vars → Free T vars x → motive y → motive (x ++ (T.token k ++ y))) (s : List α) :
    motive s := by
  induction hn : s.length using Nat.strong_induction_on generalizing s with
  | _ n ih =>
    rcases exists_token (T := T) vars s with hfree | ⟨x, k, v, y, rfl, hmem, hfree⟩
    · exact free s hfree
    · refine token x k v y hmem hfree (ih y.length ?_ y rfl)
      have := length_token_pos (T := T) k
      rw [← hn]
      simp only [List.length_append]
      omega

end Occurrences

section Substitution

variable {κ α : Type} [DecidableEq α] (T : Tokens κ α)

/-- The first number of characters are still to be skipped. -/
def substituteFrom (vars : List (κ × List α)) : ℕ → List α → List α
  | _, [] => []
  | n + 1, _ :: s => substituteFrom vars n s
  | 0, c :: s =>
    match vars.find? fun entry => (T.token entry.1).isPrefixOf (c :: s) with
    | some entry => entry.2 ++ substituteFrom vars ((T.token entry.1).length - 1) s
    | none => c :: substituteFrom vars 0 s

/-- One pass from left to right, which puts the values in the place of the tokens and reads no value again. -/
def substitute (vars : List (κ × List α)) (s : List α) : List α := substituteFrom T vars 0 s

variable {T} {vars others : List (κ × List α)} {j k : κ} {v : List α}

@[simp] theorem substitute_nil : substitute T vars [] = [] := rfl

theorem substituteFrom_eq (n : ℕ) (s : List α) : substituteFrom T vars n s = substitute T vars (s.drop n) := by
  induction s generalizing n with
  | nil => cases n <;> rfl
  | cons c s ih =>
    cases n with
    | zero => rfl
    | succ n => exact ih n

theorem substitute_cons (c : α) (s : List α) : substitute T vars (c :: s) =
    match vars.find? fun entry => (T.token entry.1).isPrefixOf (c :: s) with
    | some entry => entry.2 ++ substitute T vars ((c :: s).drop (T.token entry.1).length)
    | none => c :: substitute T vars s := by
  rw [substitute, substituteFrom]
  split
  · rename_i entry hentry
    obtain ⟨n, hn⟩ := Nat.exists_eq_succ_of_ne_zero (length_token_pos (T := T) entry.1).ne'
    rw [substituteFrom_eq, hn]
    rfl
  · rfl

theorem substitute_skip {c : α} {s : List α} (h : ∀ entry ∈ vars, ¬ T.token entry.1 <+: c :: s) :
    substitute T vars (c :: s) = c :: substitute T vars s := by
  have hfind : vars.find? (fun entry => (T.token entry.1).isPrefixOf (c :: s)) = none := by
    rw [List.find?_eq_none]
    intro entry hentry
    rw [List.isPrefixOf_iff_prefix]
    exact h entry hentry
  rw [substitute_cons, hfind]

theorem substitute_of_free {s : List α} (h : Free T vars s) : substitute T vars s = s := by
  induction s with
  | nil => rfl
  | cons c s ih =>
    rw [substitute_skip fun entry hentry hpre => h entry hentry hpre.isInfix, ih (h.part (List.suffix_cons c s).isInfix)]

theorem substitute_append_token (x y : List α) (k : κ) : substitute T vars (x ++ (T.token k ++ y)) =
    substitute T vars x ++ substitute T vars (T.token k ++ y) := by
  induction hn : x.length using Nat.strong_induction_on generalizing x with
  | _ n ih =>
    cases x with
    | nil => rfl
    | cons c x =>
      have hfind : vars.find? (fun entry => (T.token entry.1).isPrefixOf (c :: (x ++ (T.token k ++ y)))) =
          vars.find? fun entry => (T.token entry.1).isPrefixOf (c :: x) := by
        apply List.find?_congr
        intro entry _
        rw [Bool.eq_iff_iff, List.isPrefixOf_iff_prefix, List.isPrefixOf_iff_prefix]
        exact prefix_append_token (x := c :: x) (List.cons_ne_nil c x)
      rw [List.cons_append, substitute_cons, substitute_cons, hfind]
      cases hentry : vars.find? fun entry => (T.token entry.1).isPrefixOf (c :: x) with
      | none =>
        rw [ih x.length (by rw [← hn]; exact Nat.lt_succ_self _) x rfl, List.cons_append]
      | some entry =>
        have hpre : T.token entry.1 <+: c :: x := by simpa using List.find?_some hentry
        have hdrop : (c :: (x ++ (T.token k ++ y))).drop (T.token entry.1).length =
            (c :: x).drop (T.token entry.1).length ++ (T.token k ++ y) :=
          @List.drop_append_of_le_length _ (c :: x) _ _ hpre.length_le
        have hpos := length_token_pos (T := T) entry.1
        dsimp only
        rw [hdrop, ih _ _ ((c :: x).drop (T.token entry.1).length) rfl, List.append_assoc]
        rw [List.length_drop, hn]
        simp only [List.length_cons] at hn
        omega

theorem substitute_token_of_mem (hf : Functional vars) (h : (k, v) ∈ vars) (y : List α) :
    substitute T vars (T.token k ++ y) = v ++ substitute T vars y := by
  cases htoken : T.token k with
  | nil => exact absurd htoken (T.token_ne_nil k)
  | cons c s =>
    have hfind : vars.find? (fun entry => (T.token entry.1).isPrefixOf (c :: (s ++ y))) = some (k, v) := by
      cases hentry : vars.find? fun entry => (T.token entry.1).isPrefixOf (c :: (s ++ y)) with
      | none =>
        have hnone := List.find?_eq_none.mp hentry (k, v) h
        rw [List.isPrefixOf_iff_prefix] at hnone
        exact absurd (htoken ▸ List.prefix_append (c :: s) y) hnone
      | some entry =>
        have hpre : T.token entry.1 <+: c :: (s ++ y) := by simpa using List.find?_some hentry
        have hkey : entry.1 = k := by
          by_contra hne
          rw [← List.cons_append, ← htoken] at hpre
          exact not_prefix_within (w := []) (z := T.token k) rfl (T.token_ne_nil k) hne hpre
        rw [hf entry (List.mem_of_find?_eq_some hentry) (k, v) h hkey]
    rw [List.cons_append, substitute_cons, hfind]
    have hdrop : (c :: (s ++ y)).drop (T.token k).length = y := by
      rw [htoken]
      exact @List.drop_left _ (c :: s) y
    dsimp only
    rw [hdrop]

theorem substitute_token_of_notMem (h : ∀ entry ∈ vars, entry.1 ≠ k) (y : List α) :
    substitute T vars (T.token k ++ y) = T.token k ++ substitute T vars y := by
  have hrest : ∀ z w, w ++ z = T.token k → substitute T vars (z ++ y) = z ++ substitute T vars y := by
    intro z
    induction z with
    | nil => exact fun w _ => rfl
    | cons c z ih =>
      intro w hw
      have hskip : ∀ entry ∈ vars, ¬ T.token entry.1 <+: c :: (z ++ y) := fun entry hentry =>
        not_prefix_within (z := c :: z) hw (List.cons_ne_nil c z) (h entry hentry)
      rw [List.cons_append, substitute_skip hskip, ih (w ++ [c]) (by simpa using hw), List.cons_append]
  exact hrest (T.token k) [] rfl

theorem substitute_congr (hf : Functional vars) (hsub : others ⊆ vars) {s : List α}
    (h : ∀ entry ∈ vars, entry ∈ others ∨ ¬ T.token entry.1 <:+: s) : substitute T vars s = substitute T others s := by
  induction s using token_induction (T := T) others with
  | free s hfree =>
    have hall : Free T vars s := fun entry hentry htoken =>
      (h entry hentry).elim (fun hmem => hfree entry hmem htoken) fun hnot => hnot htoken
    rw [substitute_of_free hall, substitute_of_free hfree]
  | token x k v y hmem hfree ih =>
    have hx : Free T vars x := fun entry hentry htoken => (h entry hentry).elim
      (fun hmem => hfree entry hmem htoken) fun hnot => hnot (htoken.trans (List.prefix_append x _).isInfix)
    have hy : y <:+: x ++ (T.token k ++ y) :=
      ((List.suffix_append (T.token k) y).trans (List.suffix_append x _)).isInfix
    rw [substitute_append_token, substitute_append_token, substitute_token_of_mem hf (hsub hmem),
      substitute_token_of_mem (hf.subset hsub) hmem, substitute_of_free hx, substitute_of_free hfree,
      ih fun entry hentry => (h entry hentry).imp_right fun hnot htoken => hnot (htoken.trans hy)]

theorem substitute_perm (hf : Functional vars) (h : others.Perm vars) : substitute T others = substitute T vars := by
  funext s
  exact (substitute_congr hf h.subset fun entry hentry => .inl (h.symm.subset hentry)).symm

theorem infix_substitute (hf : Functional vars) (hsub : others ⊆ vars) (hk : ∀ entry ∈ vars, entry.1 ≠ k) {s : List α}
    (h : T.token k <:+: substitute T others s) : T.token k <:+: substitute T vars s := by
  classical
  have hcongr : ∀ {x}, Free T (vars.filter fun entry => decide (entry ∉ others)) x →
      substitute T vars x = substitute T others x := by
    intro x hfree
    refine substitute_congr hf hsub fun entry hentry => ?_
    by_cases hmem : entry ∈ others
    · exact .inl hmem
    · exact .inr (hfree entry (by simp [hentry, hmem]))
  -- the induction is along the placeholders whose values are not in the text yet
  induction s using token_induction (T := T) (vars.filter fun entry => decide (entry ∉ others)) with
  | free s hfree => rwa [hcongr hfree]
  | token x j v y hmem hfree ih =>
    obtain ⟨hvars, hothers⟩ : (j, v) ∈ vars ∧ (j, v) ∉ others := by simpa using hmem
    have hj : ∀ entry ∈ others, entry.1 ≠ j := by
      intro entry hentry heq
      exact hothers (hf entry (hsub hentry) (j, v) hvars heq ▸ hentry)
    rw [substitute_append_token, substitute_token_of_notMem hj, ← hcongr hfree] at h
    rw [substitute_append_token, substitute_token_of_mem hf hvars]
    rcases infix_append_token (fun heq => hk _ hvars heq.symm) h with h | h
    · exact h.trans (List.prefix_append _ _).isInfix
    · exact (ih h).trans ((List.suffix_append v _).trans (List.suffix_append _ _)).isInfix

end Substitution

end SkillBridge.Placeholders
