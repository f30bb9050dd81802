import SkillBridge.Placeholders.OneByOne
import SkillBridge.Shared.JsStrings

set_option autoImplicit false

/-! `src/modules/mail/mail-templates.ts`. -/

namespace SkillBridge

open Placeholders

/-- `{{${key}}}`. -/
def placeholder (key : JsString) : JsString := 123 :: 123 :: (key ++ [125, 125])

/-- `vars` are the entries of the record, in the order of `Object.entries`. -/
def substituteMailTemplate (template : JsString) (vars : List (JsString × JsString)) : JsString :=
  vars.foldl (fun out entry => entry.2.intercalate (split (placeholder entry.1) out)) template

section Braces

def BraceFree (key : JsString) : Prop := 123 ∉ key ∧ 125 ∉ key

instance (key : JsString) : Decidable (BraceFree key) := inferInstanceAs (Decidable (_ ∧ _))

abbrev TemplateKey : Type := { key : JsString // BraceFree key }

theorem le_of_brace {key y z t : JsString} (hkey : BraceFree key) (h : key ++ 125 :: 125 :: y = z ++ 123 :: t) :
    key.length + 2 ≤ z.length := by
  induction key generalizing z with
  | nil =>
    match z, h with
    | [], h => simp at h
    | [_], h => simp at h
    | _ :: _ :: _, _ => simp
  | cons c key ih =>
    obtain ⟨hopen, hclose⟩ := hkey
    cases z with
    | nil =>
      rw [List.cons_append, List.nil_append, List.cons.injEq] at h
      exact absurd (h.1 ▸ List.mem_cons_self) hopen
    | cons d z =>
      rw [List.cons_append, List.cons_append, List.cons.injEq] at h
      have := ih ⟨fun hmem => hopen (List.mem_cons_of_mem _ hmem), fun hmem => hclose (List.mem_cons_of_mem _ hmem)⟩ h.2
      simp only [List.length_cons]
      omega

theorem key_eq {j k y w : JsString} (hj : BraceFree j) (hk : BraceFree k)
    (h : j ++ 125 :: y = k ++ 125 :: w) : j = k := by
  induction j generalizing k with
  | nil =>
    cases k with
    | nil => rfl
    | cons d k =>
      rw [List.nil_append, List.cons_append, List.cons.injEq] at h
      exact absurd (h.1 ▸ List.mem_cons_self) hk.2
  | cons c j ih =>
    cases k with
    | nil =>
      rw [List.nil_append, List.cons_append, List.cons.injEq] at h
      exact absurd (h.1 ▸ List.mem_cons_self) hj.2
    | cons d k =>
      rw [List.cons_append, List.cons_append, List.cons.injEq] at h
      rw [h.1, ih ⟨fun hmem => hj.1 (List.mem_cons_of_mem _ hmem), fun hmem => hj.2 (List.mem_cons_of_mem _ hmem)⟩
        ⟨fun hmem => hk.1 (List.mem_cons_of_mem _ hmem), fun hmem => hk.2 (List.mem_cons_of_mem _ hmem)⟩ h.2]

theorem length_placeholder (key : JsString) : (placeholder key).length = key.length + 4 := by
  simp [placeholder]

theorem placeholder_append (key y : JsString) : placeholder key ++ y = 123 :: 123 :: (key ++ 125 :: 125 :: y) := by
  simp [placeholder]

theorem placeholder_le {j y z w k : JsString} (hj : BraceFree j) (hz : z ≠ [])
    (h : placeholder j ++ y = z ++ (placeholder k ++ w)) : (placeholder j).length ≤ z.length := by
  rw [length_placeholder]
  rw [placeholder_append, placeholder_append] at h
  match z, h with
  | [], _ => exact absurd rfl hz
  | [a], h =>
    rw [List.singleton_append, List.cons.injEq, List.cons.injEq] at h
    have := le_of_brace (z := []) hj h.2.2
    simp at this
  | a :: b :: z, h =>
    rw [List.cons_append, List.cons_append, List.cons.injEq, List.cons.injEq] at h
    have := le_of_brace hj h.2.2
    simp only [List.length_cons]
    omega

theorem placeholders_apart {j k x y u w : JsString} (hj : BraceFree j) (hk : BraceFree k)
    (h : x ++ (placeholder j ++ y) = u ++ (placeholder k ++ w)) :
    x.length + (placeholder j).length ≤ u.length ∨ u.length + (placeholder k).length ≤ x.length ∨ x = u ∧ j = k := by
  rcases List.append_eq_append_iff.mp h with ⟨z, rfl, hz⟩ | ⟨z, rfl, hz⟩
  · by_cases hnil : z = []
    · subst hnil
      rw [List.nil_append, placeholder_append, placeholder_append, List.cons.injEq, List.cons.injEq] at hz
      exact .inr (.inr ⟨(List.append_nil x).symm, key_eq hj hk hz.2.2⟩)
    · have := placeholder_le hj hnil hz
      rw [List.length_append]
      omega
  · by_cases hnil : z = []
    · subst hnil
      rw [List.nil_append, placeholder_append, placeholder_append, List.cons.injEq, List.cons.injEq] at hz
      exact .inr (.inr ⟨List.append_nil u, (key_eq hk hj hz.2.2).symm⟩)
    · have := placeholder_le hk hnil hz
      rw [List.length_append]
      omega

def mailTokens : Tokens TemplateKey UInt16 where
  token key := placeholder key.1
  token_ne_nil _ := List.cons_ne_nil _ _
  apart := by
    intro j k x y u w h
    exact (placeholders_apart j.2 k.2 h).imp_right fun h => h.imp_right fun h => ⟨h.1, Subtype.ext h.2⟩

end Braces

structure TemplateVars where
  entries : List (TemplateKey × JsString)
  nodup : (entries.map Prod.fst).Nodup

def objectEntries (entries : List (TemplateKey × JsString)) : List (JsString × JsString) :=
  entries.map fun entry => (entry.1.1, entry.2)

theorem substituteMailTemplate_eq (template : JsString) (entries : List (TemplateKey × JsString)) :
    substituteMailTemplate template (objectEntries entries) = substituteOneByOne mailTokens entries template := by
  rw [substituteMailTemplate, objectEntries, List.foldl_map]
  rfl

/-- Each placeholder of the template gives way to its value at once, and the values are not read again. -/
def substituteAtOnce (template : JsString) (entries : List (TemplateKey × JsString)) : JsString :=
  substitute mailTokens entries template

/-- `literal`: at no moment of the loop, in whatever order it takes the variables, a value in the text has been expanded. -/
structure Verbatim (template : JsString) (vars : TemplateVars) : Prop where
  atOnce : substituteMailTemplate template (objectEntries vars.entries) = substituteAtOnce template vars.entries
  anyOrder : ∀ entries, entries.Perm vars.entries → substituteMailTemplate template (objectEntries entries) =
    substituteMailTemplate template (objectEntries vars.entries)
  literal : ∀ before after, (before ++ after).Perm vars.entries →
    substituteMailTemplate template (objectEntries before) = substituteAtOnce template before

/-- The parts of the template between the placeholders of `key`, with the values of all other variables in them, do
not contain this placeholder. -/
def NothingToExpand (template : JsString) (vars : TemplateVars) (key : TemplateKey) : Prop :=
  ∀ part ∈ split (placeholder key.1) template,
    ¬ placeholder key.1 <:+: substituteAtOnce part (vars.entries.filter fun other => other.1 ≠ key)

theorem substitution_verbatim_iff (template : JsString) (vars : TemplateVars) : Verbatim template vars ↔
    ∀ entry ∈ vars.entries, entry.2 = placeholder entry.1.1 ∨ NothingToExpand template vars entry.1 := by
  have hiff := one_by_one_iff (T := mailTokens) vars.nodup template
  have hstages : (∀ before after, (before ++ after).Perm vars.entries →
      substituteMailTemplate template (objectEntries before) = substituteAtOnce template before) ↔
      ∀ entry ∈ vars.entries, entry.2 = placeholder entry.1.1 ∨ NothingToExpand template vars entry.1 := by
    simp only [substituteMailTemplate_eq]
    exact hiff
  constructor
  · exact fun h => hstages.mp h.literal
  · intro h
    have hliteral := hstages.mpr h
    have hwhole : ∀ entries, entries.Perm vars.entries →
        substituteMailTemplate template (objectEntries entries) = substituteAtOnce template vars.entries := by
      intro entries hperm
      rw [hliteral entries [] (by rwa [List.append_nil])]
      exact congrFun (substitute_perm (functional_of_nodup vars.nodup) hperm) template
    refine ⟨hwhole _ (.refl _), fun entries hperm => ?_, hliteral⟩
    rw [hwhole entries hperm, hwhole _ (.refl _)]

theorem first_name_expanded : ¬ ∀ (template : JsString) (vars : TemplateVars), Verbatim template vars := by
  intro h
  have hname := (h (utf16 "Hi {{name}}, it is {{year}}.")
    ⟨[(⟨utf16 "name", by decide⟩, utf16 "{{year}}"), (⟨utf16 "year", by decide⟩, utf16 "2026")], by decide⟩).atOnce
  exact absurd hname (by decide +kernel)

end SkillBridge
