import Mathlib.Tactic.IntervalCases
import SkillBridge.Shared.Errors

set_option autoImplicit false

/-! `src/utils/encryption.utils.ts` over Node's `Buffer` hex codec and its AES-256-GCM cipher. -/

namespace SkillBridge.Encryption

/-- AES-256-GCM with the UTF-8 transcoding that `cipher.update` and `decipher.final` do. -/
structure Aes256Gcm where
  encipher : (key iv : List UInt8) → (plaintext : String) → List UInt8 × List UInt8
  decipher : (key iv ciphertext authTag : List UInt8) → Option String
  decipher_encipher : ∀ key iv plaintext, key.length = 32 →
    decipher key iv (encipher key iv plaintext).1 (encipher key iv plaintext).2 = some plaintext

def hexChar (n : ℕ) : Char := Char.ofNat (if n < 10 then 48 + n else 87 + n)

def hexValue (c : Char) : Option ℕ :=
  if 48 ≤ c.toNat && c.toNat ≤ 57 then some (c.toNat - 48)
  else if 97 ≤ c.toNat && c.toNat ≤ 102 then some (c.toNat - 87)
  else if 65 ≤ c.toNat && c.toNat ≤ 70 then some (c.toNat - 55)
  else none

def toHex : List UInt8 → List Char
  | [] => []
  | b :: bs => hexChar (b.toNat / 16) :: hexChar (b.toNat % 16) :: toHex bs

/-- `Buffer.from(s, 'hex')` stops at the first pair that is not hexadecimal. -/
def fromHex : List Char → List UInt8
  | c :: d :: s =>
    match hexValue c, hexValue d with
    | some m, some n => UInt8.ofNat (16 * m + n) :: fromHex s
    | _, _ => []
  | _ => []

def encrypt (aes : Aes256Gcm) (key iv : List UInt8) (plaintext : String) : Except Failure String :=
  if key.length = 32 then
    let (encrypted, authTag) := aes.encipher key iv plaintext
    .ok (String.ofList ([':'].intercalate [toHex iv, toHex authTag, toHex encrypted]))
  else .error (.error "Invalid key length")

def decrypt (aes : Aes256Gcm) (key : List UInt8) (stored : String) : Except Failure String :=
  match stored.toList.splitOn ':' with
  | iv :: authTag :: encrypted :: _ =>
    if key.length = 32 then
      match aes.decipher key (fromHex iv) (fromHex encrypted) (fromHex authTag) with
      | some plaintext => .ok plaintext
      | none => .error (.error "Unsupported state or unable to authenticate data")
    else .error (.error "Invalid key length")
  | _ => .error (.error "The first argument must be of type string")

theorem hexValue_hexChar {n : ℕ} (h : n < 16) : hexValue (hexChar n) = some n := by
  interval_cases n <;> rfl

theorem hexChar_ne_colon {n : ℕ} (h : n < 16) : hexChar n ≠ ':' := by
  interval_cases n <;> decide

theorem fromHex_toHex (bs : List UInt8) : fromHex (toHex bs) = bs := by
  induction bs with
  | nil => rfl
  | cons b bs ih =>
    have hlt : b.toNat < 256 := b.toNat_lt
    have hb : 16 * (b.toNat / 16) + b.toNat % 16 = b.toNat := by omega
    simp only [toHex, fromHex, hexValue_hexChar (show b.toNat / 16 < 16 by omega),
      hexValue_hexChar (show b.toNat % 16 < 16 by omega), hb, ih, UInt8.ofNat_toNat]

theorem colon_notMem_toHex (bs : List UInt8) : ':' ∉ toHex bs := by
  induction bs with
  | nil => simp [toHex]
  | cons b bs ih =>
    have hlt : b.toNat < 256 := b.toNat_lt
    simp only [toHex, List.mem_cons, not_or]
    exact ⟨(hexChar_ne_colon (by omega)).symm, (hexChar_ne_colon (by omega)).symm, ih⟩

theorem encrypt_ok (aes : Aes256Gcm) {key : List UInt8} (hk : key.length = 32) (iv : List UInt8)
    (plaintext : String) : ∃ stored, encrypt aes key iv plaintext = .ok stored ∧
      decrypt aes key stored = .ok plaintext := by
  refine ⟨_, by simp only [encrypt, hk, ↓reduceIte]; rfl, ?_⟩
  have hsplit : ([':'].intercalate [toHex iv, toHex (aes.encipher key iv plaintext).2,
      toHex (aes.encipher key iv plaintext).1]).splitOn ':' = _ :=
    List.splitOn_intercalate ':' (by simp [colon_notMem_toHex]) (by simp)
  simp only [decrypt, String.toList_ofList, hsplit, hk, ↓reduceIte, fromHex_toHex,
    aes.decipher_encipher key iv plaintext hk]

theorem encrypt_error (aes : Aes256Gcm) {key : List UInt8} (hk : key.length ≠ 32) (iv : List UInt8)
    (plaintext : String) : encrypt aes key iv plaintext = .error (.error "Invalid key length") := by
  simp only [encrypt, hk, ↓reduceIte]

end SkillBridge.Encryption
