import SkillBridge.Utils.Encryption
import SkillBridge.Database.Statements

set_option autoImplicit false

namespace SkillBridge

open Interleaving Encryption

/-- `otplib`: `verifySync` tells whether a code is valid at a time, or throws. -/
structure Otplib where
  generateURI : (issuer label secret : String) → String
  verifySync : (secret token : String) → (now : ℕ) → Except Failure Bool

/-- `src/config/env.ts`, with the durations in milliseconds, and the libraries that are linked in. -/
structure Env where
  JWT_ACCESS_SECRET : String
  JWT_ACCESS_EXPIRES_IN : ℕ
  JWT_REFRESH_SECRET : String
  JWT_REFRESH_EXPIRES_IN : ℕ
  VERIFICATION_OTP_EXPIRES_IN : ℕ
  VERIFICATION_RESEND_LIMIT_PER_HOUR : ℕ
  PASSWORD_RESET_OTP_EXPIRES_IN : ℕ
  TOTP_ENCRYPTION_KEY : String
  FRONTEND_URL : String
  aes : Aes256Gcm
  otplib : Otplib

def Env.encryptionKey (env : Env) : List UInt8 := fromHex env.TOTP_ENCRYPTION_KEY.toList

def liftExcept {α : Type} : Except Failure α → Action α
  | .ok a => pure a
  | .error e => throw e

def perform (o : Op) : Action o.Res := @Prog.perform backend o

def encrypt (env : Env) (plaintext : String) : Action String := do
  let iv ← perform (.randomBytes 12)
  liftExcept (Encryption.encrypt env.aes env.encryptionKey iv plaintext)

def decrypt (env : Env) (stored : String) : Action String :=
  liftExcept (Encryption.decrypt env.aes env.encryptionKey stored)

def verifySync (env : Env) (secret token : String) : Action Bool := do
  let now : ℕ ← perform .dateNow
  liftExcept (env.otplib.verifySync secret token now)

def rollback {α : Type} (tx : TxId) (err : Failure) : Action α := do
  tryCatch (perform (.rollbackTransaction tx)) fun _ => pure ()
  throw err

/-- `manager.transaction`: a failing body rolls back, and its error is thrown again. -/
def transaction {α : Type} (body : TxId → Action α) : Action α := do
  let tx ← perform .startTransaction
  tryCatch (do
      let result ← body tx
      perform (.commitTransaction tx)
      pure result)
    (rollback tx)

theorem calls_transaction {α : Type} {K : Op → Prop} {body : TxId → Action α} (started : K .startTransaction)
    (committed : ∀ tx, K (.commitTransaction tx)) (rolledBack : ∀ tx, K (.rollbackTransaction tx))
    (h : ∀ tx, (body tx).Calls K) : (transaction body).Calls K := by
  refine Prog.calls_bind (Prog.calls_perform started) fun tx => ?_
  apply Prog.calls_tryCatch
  · refine Prog.calls_bind (h tx) fun _ => ?_
    exact Prog.calls_bind (Prog.calls_perform (committed tx)) fun _ => trivial
  · intro e
    refine Prog.calls_bind ?_ fun _ => trivial
    exact Prog.calls_tryCatch (Prog.calls_perform (rolledBack tx)) fun _ => trivial

/-! A configuration to evaluate the model with; its cipher stands in for the real one. -/

def sampleBytes : List Char → List UInt8
  | [] => []
  | c :: s =>
    .ofNat (c.toNat / 65536) :: .ofNat (c.toNat / 256 % 256) :: .ofNat (c.toNat % 256) :: sampleBytes s

def sampleChars : List UInt8 → List Char
  | a :: b :: c :: s => .ofNat (a.toNat * 65536 + b.toNat * 256 + c.toNat) :: sampleChars s
  | _ => []

theorem sampleChars_sampleBytes (s : List Char) : sampleChars (sampleBytes s) = s := by
  induction s with
  | nil => rfl
  | cons c s ih =>
    have hc : c.toNat < 1114112 := by
      rcases c.valid with h | h
      · exact Nat.lt_trans h (by omega)
      · exact h.2
    have ha : (UInt8.ofNat (c.toNat / 65536)).toNat = c.toNat / 65536 := by
      rw [UInt8.toNat_ofNat']
      omega
    have hb : (UInt8.ofNat (c.toNat / 256 % 256)).toNat = c.toNat / 256 % 256 := by
      rw [UInt8.toNat_ofNat']
      omega
    have hd : (UInt8.ofNat (c.toNat % 256)).toNat = c.toNat % 256 := by
      rw [UInt8.toNat_ofNat']
      omega
    have hn : c.toNat / 65536 * 65536 + c.toNat / 256 % 256 * 256 + c.toNat % 256 = c.toNat := by omega
    simp only [sampleBytes, sampleChars, ha, hb, hd, hn, ih, Char.ofNat_toNat]

def sampleCipher : Aes256Gcm where
  encipher _ _ plaintext := (sampleBytes plaintext.toList, [])
  decipher _ _ ciphertext _ := some (String.ofList (sampleChars ciphertext))
  decipher_encipher _ _ plaintext _ := by rw [sampleChars_sampleBytes, String.ofList_toList]

def sampleEnv : Env where
  JWT_ACCESS_SECRET := "access-secret-of-thirty-two-chars"
  JWT_ACCESS_EXPIRES_IN := 15 * 60 * 1000
  JWT_REFRESH_SECRET := "refresh-secret-of-thirty-two-char"
  JWT_REFRESH_EXPIRES_IN := 7 * 24 * 60 * 60 * 1000
  VERIFICATION_OTP_EXPIRES_IN := 15 * 60 * 1000
  VERIFICATION_RESEND_LIMIT_PER_HOUR := 3
  PASSWORD_RESET_OTP_EXPIRES_IN := 15 * 60 * 1000
  TOTP_ENCRYPTION_KEY := "000102030405060708090a0b0c0d0e0f101112131415161718191a1b1c1d1e1f"
  FRONTEND_URL := "http://localhost:5173"
  aes := sampleCipher
  otplib := { generateURI := fun issuer label secret => s!"otpauth://totp/{issuer}:{label}?secret={secret}"
              verifySync := fun _ token _ => .ok (token == "123456") }

end SkillBridge
