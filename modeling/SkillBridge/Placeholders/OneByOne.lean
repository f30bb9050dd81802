import Mathlib.Data.List.Induction
import SkillBridge.Placeholders.Substitution

set_option autoImplicit false

/-!
Putting the values into the text one key after the other: split the text at the placeholders of the key and
join the parts with its value. A value that is in the text already is split like the rest of it.
-/

namespace SkillBridge.Placeholders

section Join

variable {α : Type}

theorem intercalate_length_le {f g : List α → List α} (h : ∀ p, (f p).length ≤ (g p).length) (v : List α)
    (parts : List (List α)) : (v.intercalate (parts.map f)).length ≤ (v.intercalate (parts.map g)).length := by
  induction parts with
  | nil => simp
  | cons p parts ih =>
    cases parts with
    | nil => simpa using h p
    | cons q parts =>
      have := h p
      simp only [List.map_cons, List.intercalate_cons_cons, List.length_append] at ih ⊢
      omega

theorem intercalate_inj {f g : List α → List α} (h : ∀ p, (f p).length ≤ (g p).length) {v : List α}
    {parts : List (List α)} (heq : v.intercalate (parts.map f) = v.intercalate (parts.map g)) :
    ∀ p ∈ parts, f p = g p := by
  induction parts with
  | nil => simp
  | cons p parts ih =>
    cases parts with
    | nil => simpa using heq
    | cons q parts =>
      have hp := h p
      have hrest := intercalate_length_le h v (q :: parts)
      rw [List.map_cons, List.map_cons, List.map_cons, List.map_cons, List.intercalate_cons_cons,
        List.intercalate_cons_cons, List.append_assoc, List.append_assoc, ← List.map_cons, ← List.map_cons] at heq
      have hlen := congrArg List.length heq
      simp only [List.length_append] at hlen
      obtain ⟨hhead, htail⟩ := List.append_inj heq (by omega)
      intro part hpart
      rcases List.mem_cons.mp hpart with rfl | hpart
      · exact hhead
      · exact ih (List.append_cancel_left htail) part hpart

end Join

section Split

variable {α : Type} [DecidableEq α]

def splitFrom (sep : List α) : ℕ → List α → List (List α)
  | _, [] => [[]]
  | n + 1, _ :: s => splitFrom sep n s
  | 0, c :: s =>
    if sep.isPrefixOf (c :: s) then [] :: splitFrom sep (sep.length - 1) s
    else (splitFrom sep 0 s).modifyHead (c :: ·)

def split (sep s : List α) : List (List α) := splitFrom sep 0 s

theorem splitFrom_eq (sep : List α) (n : ℕ) (s : List α) : splitFrom sep n s = split sep (s.drop n) := by
  induction s generalizing n with
  | nil => cases n <;> rfl
  | cons c s ih =>
    cases n with
    | zero => rfl
    | succ n => exact ih n

theorem split_skip {sep s : List α} {c : α} (h : ¬ sep <+: c :: s) :
    split sep (c :: s) = (split sep s).modifyHead (c :: ·) := by
  rw [split, splitFrom, if_neg (by rwa [List.isPrefixOf_iff_prefix])]
  rfl

theorem split_sep {sep : List α} (h : sep ≠ []) (y : List α) : split sep (sep ++ y) = [] :: split sep y := by
  cases sep with
  | nil => exact absurd rfl h
  | cons c sep =>
    have hpre : (c :: sep).isPrefixOf (c :: (sep ++ y)) = true :=
      List.isPrefixOf_iff_prefix.mpr (List.prefix_append (c :: sep) y)
    rw [List.cons_append, split, splitFrom, if_pos hpre, splitFrom_eq]
    simp

theorem split_ne_nil (sep s : List α) : split sep s ≠ [] := by
  induction s with
  | nil => exact List.cons_ne_nil _ _
  | cons c s ih =>
    by_cases h : sep <+: c :: s
    · rw [split, splitFrom, if_pos (List.isPrefixOf_iff_prefix.mpr h)]
      exact List.cons_ne_nil _ _
    · rw [split_skip h]
      simpa using ih

end Split

section OneKey

variable {κ α : Type} {T : Tokens κ α} {vars : List (κ × List α)} {k : κ} {v : List α}

theorem free_singleton {s : List α} : Free T [(k, v)] s ↔ ¬ T.token k <:+: s := by
  simp [Free]

theorem functional_singleton : Functional [(k, v)] := by
  simp [Functional]

variable [DecidableEq α]

theorem split_of_free {s : List α} (h : ¬ T.token k <:+: s) : split (T.token k) s = [s] := by
  induction s with
  | nil => rfl
  | cons c s ih =>
    rw [split_skip fun hpre => h hpre.isInfix, ih fun hs => h (hs.trans (List.suffix_cons c s).isInfix)]
    rfl

theorem split_append_token {x : List α} (h : ¬ T.token k <:+: x) (y : List α) :
    split (T.token k) (x ++ (T.token k ++ y)) = x :: split (T.token k) y := by
  induction x with
  | nil => exact split_sep (T.token_ne_nil k) y
  | cons c x ih =>
    have hskip : ¬ T.token k <+: c :: (x ++ (T.token k ++ y)) := fun hpre =>
      h ((prefix_append_token (x := c :: x) (List.cons_ne_nil c x)).mp hpre).isInfix
    rw [List.cons_append, split_skip hskip, ih fun hx => h (hx.trans (List.suffix_cons c x).isInfix)]
    rfl

theorem free_of_mem_split {s part : List α} (h : part ∈ split (T.token k) s) : ¬ T.token k <:+: part := by
  induction s using token_induction (T := T) [(k, [])] with
  | free s hfree =>
    rw [split_of_free (free_singleton.mp hfree)] at h
    rw [List.mem_singleton.mp h]
    exact free_singleton.mp hfree
  | token x j w y hmem hfree ih =>
    obtain ⟨rfl, rfl⟩ : j = k ∧ w = [] := by simpa using hmem
    rw [split_append_token (free_singleton.mp hfree)] at h
    rcases List.mem_cons.mp h with rfl | h
    · exact free_singleton.mp hfree
    · exact ih h

theorem intercalate_split (s : List α) : (T.token k).intercalate (split (T.token k) s) = s := by
  induction s using token_induction (T := T) [(k, [])] with
  | free s hfree => rw [split_of_free (free_singleton.mp hfree), List.intercalate_singleton]
  | token x j w y hmem hfree ih =>
    obtain ⟨rfl, rfl⟩ : j = k ∧ w = [] := by simpa using hmem
    rw [split_append_token (free_singleton.mp hfree), List.intercalate_cons_of_ne_nil (split_ne_nil _ _), ih,
      List.append_assoc]

theorem substitute_intercalate {w : List α}
    (hw : ∀ y, substitute T vars (T.token k ++ y) = w ++ substitute T vars y) (parts : List (List α)) :
    substitute T vars ((T.token k).intercalate parts) = w.intercalate (parts.map (substitute T vars)) := by
  induction parts with
  | nil => rfl
  | cons p parts ih =>
    cases parts with
    | nil => simp
    | cons q parts =>
      have hrest : (q :: parts).map (substitute T vars) ≠ [] := List.cons_ne_nil _ _
      rw [List.intercalate_cons_cons, List.append_assoc, substitute_append_token, hw, ih, List.map_cons (l := q :: parts),
        List.intercalate_cons_of_ne_nil hrest, List.append_assoc]

theorem substitute_parts {w : List α} (hw : ∀ y, substitute T vars (T.token k ++ y) = w ++ substitute T vars y)
    (s : List α) :
    substitute T vars s = w.intercalate ((split (T.token k) s).map (substitute T vars)) := by
  conv_lhs => rw [← intercalate_split (T := T) (k := k) s]
  exact substitute_intercalate hw _

theorem substitute_singleton_token (y : List α) : substitute T [(k, v)] (T.token k ++ y) = v ++ substitute T [(k, v)] y :=
  substitute_token_of_mem functional_singleton (List.mem_singleton.mpr rfl) y

theorem join_split (v s : List α) : v.intercalate (split (T.token k) s) = substitute T [(k, v)] s := by
  rw [substitute_parts substitute_singleton_token s]
  congr 1
  conv_lhs => rw [← List.map_id (split (T.token k) s)]
  apply List.map_congr_left
  intro part hpart
  exact (substitute_of_free (free_singleton.mpr (free_of_mem_split hpart))).symm

theorem length_substitute (v s : List α) : ∃ n, (T.token k <:+: s → 0 < n) ∧
    (substitute T [(k, v)] s).length + n * (T.token k).length = s.length + n * v.length := by
  induction s using token_induction (T := T) [(k, v)] with
  | free s hfree =>
    exact ⟨0, fun h => absurd h (free_singleton.mp hfree), by rw [substitute_of_free hfree]; omega⟩
  | token x j w y hmem hfree ih =>
    obtain ⟨rfl, rfl⟩ : j = k ∧ w = v := by simpa using hmem
    obtain ⟨n, -, hn⟩ := ih
    refine ⟨n + 1, fun _ => n.succ_pos, ?_⟩
    rw [substitute_append_token, substitute_singleton_token, substitute_of_free hfree]
    simp only [List.length_append, Nat.succ_mul]
    omega

theorem value_eq_token {s : List α} (hs : T.token k <:+: s) (h : substitute T [(k, v)] s = s) : v = T.token k := by
  obtain ⟨n, hpos, hn⟩ := length_substitute (T := T) (k := k) v s
  have hlen : v.length = (T.token k).length := by
    rw [h] at hn
    exact (Nat.eq_of_mul_eq_mul_left (hpos hs) (Nat.add_left_cancel hn)).symm
  rcases exists_token (T := T) [(k, v)] s with hfree | ⟨x, j, w, y, rfl, hmem, hfree⟩
  · exact absurd hs (free_singleton.mp hfree)
  · obtain ⟨rfl, rfl⟩ : j = k ∧ w = v := by simpa using hmem
    rw [substitute_append_token, substitute_singleton_token, substitute_of_free hfree] at h
    exact (List.append_inj (List.append_cancel_left h) hlen).1

/-- With these values in the text, no placeholder of `k` is there but those that have been there before. -/
def Clean (T : Tokens κ α) (vars : List (κ × List α)) (s : List α) (k : κ) : Prop :=
  ∀ part ∈ split (T.token k) s, ¬ T.token k <:+: substitute T vars part

theorem substitute_after_iff (hf : Functional ((k, v) :: vars)) (hk : ∀ entry ∈ vars, entry.1 ≠ k) (s : List α) :
    substitute T [(k, v)] (substitute T vars s) = substitute T ((k, v) :: vars) s ↔
      v = T.token k ∨ Clean T vars s k := by
  have hparts : (split (T.token k) s).map (substitute T ((k, v) :: vars)) =
      (split (T.token k) s).map (substitute T vars) := by
    apply List.map_congr_left
    intro part hpart
    refine substitute_congr hf (List.subset_cons_self _ _) fun entry hentry => ?_
    rcases List.mem_cons.mp hentry with rfl | hentry
    · exact .inr (free_of_mem_split hpart)
    · exact .inl hentry
  have hall : substitute T ((k, v) :: vars) s = v.intercalate ((split (T.token k) s).map (substitute T vars)) := by
    rw [substitute_parts (substitute_token_of_mem hf List.mem_cons_self), hparts]
  have hafter : substitute T [(k, v)] (substitute T vars s) =
      v.intercalate ((split (T.token k) s).map fun part => substitute T [(k, v)] (substitute T vars part)) := by
    rw [substitute_parts (substitute_token_of_notMem hk) s, substitute_intercalate substitute_singleton_token,
      List.map_map]
    rfl
  rw [hall, hafter]
  constructor
  · intro heq
    by_cases hv : v = T.token k
    · exact .inl hv
    · refine .inr fun part hpart hin => hv (value_eq_token hin ?_)
      -- the value is shorter than the placeholder or it is not, and so is every text that it is put into
      rcases Nat.le_total v.length (T.token k).length with hle | hle
      · refine intercalate_inj (fun p => ?_) heq part hpart
        obtain ⟨n, -, hn⟩ := length_substitute (T := T) (k := k) v (substitute T vars p)
        have := Nat.mul_le_mul_left n hle
        omega
      · refine (intercalate_inj (fun p => ?_) heq.symm part hpart).symm
        obtain ⟨n, -, hn⟩ := length_substitute (T := T) (k := k) v (substitute T vars p)
        have := Nat.mul_le_mul_left n hle
        omega
  · intro h
    congr 1
    apply List.map_congr_left
    intro part hpart
    rcases h with rfl | hclean
    · rw [← join_split, intercalate_split]
    · exact substitute_of_free (free_singleton.mpr (hclean part hpart))

end OneKey

section Order

variable {κ β : Type} {vars before after : List (κ × β)} {k : κ} {v : β}

theorem concat_facts (hn : (vars.map Prod.fst).Nodup) (h : (before ++ (k, v) :: after).Perm vars) :
    Functional ((k, v) :: before) ∧ (∀ entry ∈ before, entry.1 ≠ k) ∧ (k, v) ∈ vars ∧ before ⊆ vars := by
  have hkeys : ((before ++ (k, v) :: after).map Prod.fst).Nodup := (h.map _).nodup_iff.mpr hn
  have hbefore : before ⊆ vars := fun entry hentry => h.subset (List.mem_append_left _ hentry)
  have hmem : (k, v) ∈ vars := h.subset (List.mem_append_right _ List.mem_cons_self)
  refine ⟨(functional_of_nodup hn).subset (List.cons_subset.mpr ⟨hmem, hbefore⟩), ?_, hmem, hbefore⟩
  rw [List.map_append, List.nodup_append] at hkeys
  exact fun entry hentry heq => hkeys.2.2 _ (List.mem_map_of_mem hentry) _ (List.mem_map_of_mem List.mem_cons_self) heq

variable [DecidableEq κ]

theorem perm_others (hn : (vars.map Prod.fst).Nodup) (h : (k, v) ∈ vars) :
    ((vars.filter fun other => other.1 ≠ k) ++ [(k, v)]).Perm vars := by
  have hf := functional_of_nodup hn
  have hvars : vars.Nodup := hn.of_map
  have hnodup : ((vars.filter fun other => other.1 ≠ k) ++ [(k, v)]).Nodup := by
    rw [List.nodup_append]
    refine ⟨hvars.filter _, List.nodup_singleton _, ?_⟩
    rintro entry hentry other hother rfl
    rw [List.mem_singleton.mp hother] at hentry
    simpa using (List.mem_filter.mp hentry).2
  rw [List.perm_ext_iff_of_nodup hnodup hvars]
  intro entry
  simp only [List.mem_append, List.mem_filter, List.mem_singleton, decide_eq_true_eq, ne_eq]
  constructor
  · rintro (⟨hmem, -⟩ | rfl)
    · exact hmem
    · exact h
  · intro hmem
    by_cases hkey : entry.1 = k
    · exact .inr (hf entry hmem (k, v) h hkey)
    · exact .inl ⟨hmem, hkey⟩

end Order

section Sequence

variable {κ α : Type} [DecidableEq α] (T : Tokens κ α)

def substituteOneByOne (vars : List (κ × List α)) (s : List α) : List α :=
  vars.foldl (fun out entry => entry.2.intercalate (split (T.token entry.1) out)) s

variable {T}

theorem substituteOneByOne_concat (before : List (κ × List α)) (entry : κ × List α) (s : List α) :
    substituteOneByOne T (before ++ [entry]) s = substitute T [entry] (substituteOneByOne T before s) := by
  rw [substituteOneByOne, List.foldl_append, ← join_split]
  rfl

/-- In whatever order the values are put in, at every moment the text is the one with the values so far put in at
once, if and only if no values make a placeholder of another key. -/
theorem one_by_one_iff [DecidableEq κ] {vars : List (κ × List α)} (hn : (vars.map Prod.fst).Nodup) (s : List α) :
    (∀ before after, (before ++ after).Perm vars → substituteOneByOne T before s = substitute T before s) ↔
      ∀ entry ∈ vars, entry.2 = T.token entry.1 ∨
        Clean T (vars.filter fun other => other.1 ≠ entry.1) s entry.1 := by
  constructor
  · rintro h ⟨k, v⟩ hmem
    have hperm := perm_others hn hmem
    obtain ⟨hf, hk, -, -⟩ := concat_facts hn hperm
    have hlast := h ((vars.filter fun other => other.1 ≠ k) ++ [(k, v)]) [] (by rwa [List.append_nil])
    rw [substituteOneByOne_concat, h _ _ hperm, substitute_perm hf (List.perm_append_singleton _ _)] at hlast
    exact (substitute_after_iff hf hk s).mp hlast
  · intro h before
    induction before using List.reverseRecOn with
    | nil => exact fun after _ => (substitute_of_free fun _ hentry => absurd hentry List.not_mem_nil).symm
    | append_singleton before entry ih =>
      obtain ⟨k, v⟩ := entry
      intro after hperm
      rw [List.append_assoc, List.singleton_append] at hperm
      obtain ⟨hf, hk, hmem, hbefore⟩ := concat_facts hn hperm
      rw [substituteOneByOne_concat, ih _ hperm, substitute_perm hf (List.perm_append_singleton _ _),
        substitute_after_iff hf hk]
      refine (h (k, v) hmem).imp_right fun hclean part hpart hin => hclean part hpart ?_
      refine infix_substitute ((functional_of_nodup hn).subset ((List.filter_subset_self _))) (fun entry hentry => ?_)
        (fun entry hentry => by simpa using (List.mem_filter.mp hentry).2) hin
      exact List.mem_filter.mpr ⟨hbefore hentry, by simpa using hk entry hentry⟩

end Sequence

end SkillBridge.Placeholders
