import SkillBridge.Config.Env
import SkillBridge.Shared.JsStrings

set_option autoImplicit false

/-! Which keys `env.ts` admits for the encryption of the TOTP secrets, and with which of them it works. -/

namespace SkillBridge

open Encryption

/-- `z.string().min(64)`. -/
def admitsEncryptionKey (key : String) : Bool := 64 ≤ (utf16 key).length

structure StartedEnv extends Env where
  admitted : admitsEncryptionKey TOTP_ENCRYPTION_KEY = true

def isHexDigit (c : Char) : Bool := (hexValue c).isSome

def startsWithHexPair : List Char → Bool
  | c :: d :: _ => isHexDigit c && isHexDigit d
  | _ => false

theorem fromHex_pair {c d : Char} {s : List Char} (h : startsWithHexPair (c :: d :: s) = true) :
    ∃ b, fromHex (c :: d :: s) = b :: fromHex s := by
  obtain ⟨hc, hd⟩ : isHexDigit c = true ∧ isHexDigit d = true := by simpa [startsWithHexPair] using h
  obtain ⟨m, hm⟩ := Option.isSome_iff_exists.mp hc
  obtain ⟨n, hn⟩ := Option.isSome_iff_exists.mp hd
  exact ⟨UInt8.ofNat (16 * m + n), by simp only [fromHex, hm, hn]⟩

theorem fromHex_stop {s : List Char} (h : startsWithHexPair s = false) : fromHex s = [] := by
  match s with
  | [] => rfl
  | [_] => rfl
  | c :: d :: s =>
    simp only [startsWithHexPair, isHexDigit, Bool.and_eq_false_iff, Option.isSome_eq_false_iff,
      Option.isNone_iff_eq_none] at h
    rcases h with h | h
    · simp only [fromHex, h]
    · simp only [fromHex, h]
      split <;> simp_all

/-- The text starts with `n` pairs of hexadecimal digits, and no pair follows. -/
def HexPairs (n : ℕ) (s : List Char) : Prop :=
  2 * n ≤ s.length ∧ (∀ c ∈ s.take (2 * n), isHexDigit c = true) ∧ startsWithHexPair (s.drop (2 * n)) = false

instance (n : ℕ) (s : List Char) : Decidable (HexPairs n s) := inferInstanceAs (Decidable (_ ∧ _ ∧ _))

theorem length_fromHex_iff (n : ℕ) (s : List Char) : (fromHex s).length = n ↔ HexPairs n s := by
  induction n generalizing s with
  | zero =>
    cases h : startsWithHexPair s with
    | false => simp [HexPairs, fromHex_stop h, h]
    | true =>
      match s, h with
      | c :: d :: s, h =>
        obtain ⟨b, hb⟩ := fromHex_pair h
        simp [HexPairs, hb, h]
  | succ n ih =>
    cases h : startsWithHexPair s with
    | false =>
      rw [fromHex_stop h]
      refine iff_of_false (by simp) ?_
      rintro ⟨hlen, hdigits, -⟩
      match s, h with
      | [], _ => simp at hlen
      | [_], _ => simp only [List.length_singleton] at hlen; omega
      | c :: d :: s, h =>
        have hc := hdigits c (by simp [Nat.mul_succ])
        have hd := hdigits d (by simp [Nat.mul_succ])
        simp [startsWithHexPair, hc, hd] at h
    | true =>
      match s, h with
      | c :: d :: s, h =>
        obtain ⟨b, hb⟩ := fromHex_pair h
        obtain ⟨hc, hd⟩ : isHexDigit c = true ∧ isHexDigit d = true := by simpa [startsWithHexPair] using h
        rw [hb, List.length_cons, Nat.add_right_cancel_iff, ih]
        simp [HexPairs, Nat.mul_succ, hc, hd]

/-- A secret survives its way through the column for every IV, whatever the secret is. -/
def RoundTrips (env : Env) : Prop := ∀ iv : List UInt8, iv.length = 12 → ∀ plaintext : String,
  ∃ stored, Encryption.encrypt env.aes env.encryptionKey iv plaintext = .ok stored ∧
    Encryption.decrypt env.aes env.encryptionKey stored = .ok plaintext

theorem roundTrips_iff_length (env : Env) : RoundTrips env ↔ env.encryptionKey.length = 32 := by
  constructor
  · intro h
    by_contra hlen
    obtain ⟨stored, hok, -⟩ := h (List.replicate 12 0) (List.length_replicate ..) ""
    rw [encrypt_error env.aes hlen] at hok
    cases hok
  · exact fun hlen iv _ plaintext => encrypt_ok env.aes hlen iv plaintext

theorem totp_round_trip_iff (env : StartedEnv) : RoundTrips env.toEnv ↔ HexPairs 32 env.TOTP_ENCRYPTION_KEY.toList := by
  rw [roundTrips_iff_length, Env.encryptionKey, length_fromHex_iff]

theorem length_le_utf16 (s : List Char) : s.length ≤ (s.flatMap utf16Char).length := by
  induction s with
  | nil => exact Nat.le_refl 0
  | cons c s ih =>
    have hc : 1 ≤ (utf16Char c).length := by
      unfold utf16Char
      split <;> simp
    rw [List.flatMap_cons, List.length_append, List.length_cons]
    omega

theorem admits_usable_key {env : Env} (h : RoundTrips env) : admitsEncryptionKey env.TOTP_ENCRYPTION_KEY = true := by
  rw [roundTrips_iff_length, Env.encryptionKey, length_fromHex_iff] at h
  have := length_le_utf16 env.TOTP_ENCRYPTION_KEY.toList
  exact decide_eq_true (h.1.trans this)

theorem passphrase_admitted : ¬ ∀ env : StartedEnv, RoundTrips env.toEnv := by
  intro h
  have htrips := h { sampleEnv with
    TOTP_ENCRYPTION_KEY := "correct horse battery staple correct horse battery staple correct"
    admitted := by decide +kernel }
  exact absurd ((roundTrips_iff_length _).mp htrips) (by decide +kernel)

end SkillBridge
