import SkillBridge.Utils.Encryption

set_option autoImplicit false

/-! `encodeURIComponent` and `decodeURIComponent` of ECMAScript, on well-formed strings. -/

namespace SkillBridge.Uri

open Encryption

def hexDigit (n : ℕ) : Char := Char.ofNat (if n < 10 then 48 + n else 55 + n)

def isUnreserved (b : ℕ) : Bool :=
  (48 ≤ b && b ≤ 57) || (65 ≤ b && b ≤ 90) || (97 ≤ b && b ≤ 122) ||
    b ∈ [33, 39, 40, 41, 42, 45, 46, 95, 126]

def encodeByte (b : UInt8) : List Char :=
  if isUnreserved b.toNat then [Char.ofNat b.toNat]
  else ['%', hexDigit (b.toNat / 16), hexDigit (b.toNat % 16)]

def utf8 (s : List Char) : List UInt8 := s.flatMap String.utf8EncodeChar

def encodeURIComponent (s : String) : String := String.ofList ((utf8 s.toList).flatMap encodeByte)

def unescape : List Char → Option (List UInt8)
  | [] => some []
  | c :: s =>
    if c = '%' then
      match s with
      | d :: e :: s =>
        match hexValue d, hexValue e with
        | some m, some n => (unescape s).map fun bs => UInt8.ofNat (16 * m + n) :: bs
        | _, _ => none
      | _ => none
    else (unescape s).map fun bs => String.utf8EncodeChar c ++ bs

def decodeURIComponent (s : String) : Except Failure String :=
  match (unescape s.toList).bind fun bs => String.fromUTF8? bs.toByteArray with
  | some text => .ok text
  | none => .error (.error "URI malformed")

theorem fromUTF8_utf8 (s : String) : String.fromUTF8? (utf8 s.toList).toByteArray = some s := by
  have h : (utf8 s.toList).toByteArray = s.toByteArray := by
    conv => rhs; rw [← String.ofList_toList (s := s)]
    rfl
  rw [h, String.fromUTF8?, dif_pos s.isValidUTF8]
  rfl

theorem hexValue_hexDigit {n : ℕ} (h : n < 16) : hexValue (hexDigit n) = some n := by
  interval_cases n <;> rfl

theorem unreserved_lt {b : ℕ} (h : isUnreserved b = true) : b < 128 := by
  simp only [isUnreserved, Bool.or_eq_true, Bool.and_eq_true, decide_eq_true_eq, List.mem_cons,
    List.not_mem_nil, or_false] at h
  omega

theorem ofNat_toNat {b : ℕ} (h : b < 128) : (Char.ofNat b).toNat = b := by
  have hvalid : b.isValidChar := .inl (by omega)
  rw [Char.ofNat, dif_pos hvalid]
  rfl

theorem utf8EncodeChar_ofNat {b : ℕ} (h : b < 128) : String.utf8EncodeChar (Char.ofNat b) = [UInt8.ofNat b] := by
  have hval : (Char.ofNat b).val.toNat = b := ofNat_toNat h
  simp only [String.utf8EncodeChar, hval]
  rw [if_pos (by omega)]

theorem unescape_cons {c : Char} (h : c ≠ '%') (s : List Char) :
    unescape (c :: s) = (unescape s).map fun bs => String.utf8EncodeChar c ++ bs := by
  rw [unescape.eq_def]
  simp [h]

theorem unescape_encodeByte (b : UInt8) (s : List Char) :
    unescape (encodeByte b ++ s) = (unescape s).map fun bs => b :: bs := by
  have hlt : b.toNat < 256 := b.toNat_lt
  by_cases h : isUnreserved b.toNat = true
  · have hb := unreserved_lt h
    have hpercent : Char.ofNat b.toNat ≠ '%' := by
      intro heq
      have := ofNat_toNat hb
      rw [heq] at this
      rw [← this] at h
      exact absurd h (by decide)
    simp [encodeByte, h, unescape_cons hpercent, utf8EncodeChar_ofNat hb]
  · have hb : 16 * (b.toNat / 16) + b.toNat % 16 = b.toNat := by omega
    simp [encodeByte, h, unescape, hexValue_hexDigit (show b.toNat / 16 < 16 by omega),
      hexValue_hexDigit (show b.toNat % 16 < 16 by omega), hb]

theorem unescape_flatMap (bs : List UInt8) : unescape (bs.flatMap encodeByte) = some bs := by
  induction bs with
  | nil => rfl
  | cons b bs ih => rw [List.flatMap_cons, unescape_encodeByte, ih, Option.map_some]

theorem decode_encode (s : String) : decodeURIComponent (encodeURIComponent s) = .ok s := by
  have h : (unescape (encodeURIComponent s).toList).bind (fun bs => String.fromUTF8? bs.toByteArray) = some s := by
    rw [encodeURIComponent, String.toList_ofList, unescape_flatMap, Option.bind_some, fromUTF8_utf8]
  rw [decodeURIComponent, h]

def Plain (c : Char) : Prop := 33 ≤ c.toNat ∧ c.toNat < 127 ∧ c ≠ ';' ∧ c ≠ '='

instance (c : Char) : Decidable (Plain c) := inferInstanceAs (Decidable (_ ∧ _))

theorem plain_hexDigit {n : ℕ} (h : n < 16) : Plain (hexDigit n) := by
  interval_cases n <;> decide

theorem plain_encodeByte (b : UInt8) : ∀ c ∈ encodeByte b, Plain c := by
  have hlt : b.toNat < 256 := b.toNat_lt
  intro c hc
  unfold encodeByte at hc
  split_ifs at hc with h
  · obtain rfl := List.mem_singleton.mp hc
    have hb := ofNat_toNat (unreserved_lt h)
    simp only [isUnreserved, Bool.or_eq_true, Bool.and_eq_true, decide_eq_true_eq, List.mem_cons,
      List.not_mem_nil, or_false] at h
    refine ⟨by omega, by omega, fun heq => ?_, fun heq => ?_⟩
    · rw [heq] at hb
      have : (59 : ℕ) = b.toNat := hb
      omega
    · rw [heq] at hb
      have : (61 : ℕ) = b.toNat := hb
      omega
  · simp only [List.mem_cons, List.not_mem_nil, or_false] at hc
    rcases hc with rfl | rfl | rfl
    · decide
    · exact plain_hexDigit (by omega)
    · exact plain_hexDigit (by omega)

theorem plain_encodeURIComponent (s : String) : ∀ c ∈ (encodeURIComponent s).toList, Plain c := by
  intro c hc
  rw [encodeURIComponent, String.toList_ofList] at hc
  obtain ⟨b, -, hb⟩ := List.mem_flatMap.mp hc
  exact plain_encodeByte b c hb

theorem encodeURIComponent_ne_empty {s : String} (h : s ≠ "") : encodeURIComponent s ≠ "" := by
  intro hempty
  have hs := decode_encode s
  rw [hempty] at hs
  exact h (Except.ok.inj hs).symm

theorem unescape_ne_nil (c : Char) (s : List Char) : unescape (c :: s) ≠ some [] := by
  rw [unescape.eq_def]
  dsimp only
  split_ifs
  · split
    · split
      · simp
      · simp
    · simp
  · simp

theorem decode_ne_empty {s : String} (h : s ≠ "") : decodeURIComponent s ≠ .ok "" := by
  intro hok
  unfold decodeURIComponent at hok
  split at hok
  · rename_i text htext
    obtain rfl := Except.ok.inj hok
    obtain ⟨bs, hbs, hutf8⟩ := Option.bind_eq_some_iff.mp htext
    rw [String.fromUTF8?] at hutf8
    split_ifs at hutf8 with hvalid
    have hbytes : bs.toByteArray = ("" : String).toByteArray := by
      rw [← Option.some.inj hutf8]
      rfl
    have hnil : bs = [] := by
      have := congrArg (fun b => b.data.toList) hbytes
      simpa using this
    subst hnil
    cases hs : s.toList with
    | nil => exact h (String.toList_eq_nil_iff.mp hs)
    | cons c l => exact unescape_ne_nil c l (hs ▸ hbs)
  · cases hok

end SkillBridge.Uri
