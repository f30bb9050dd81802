import SkillBridge.Security.FirstFactor

set_option autoImplicit false

/-! The second factor on the ways to sign in. -/

namespace SkillBridge

open Interleaving

variable {env : Env} {db : Database} {p : ApiPool}

def Request.signsIn : Request → Bool
  | login _ _ => true
  | verifyEmail _ _ => true
  | googleCallback _ _ => true
  | verify2fa _ _ => true
  | _ => false

def Request.totpCode : Request → Option String
  | verify2fa _ code => some code
  | enable2faTotp _ code => some code
  | disable2fa _ code => some code
  | _ => none

/-- These ways to sign in never look at `two_fa_enabled`. -/
def Request.ignoresTwoFa : Request → Bool
  | verifyEmail _ _ => true
  | googleCallback _ _ => true
  | _ => false

def TotpChecked (env : Env) (req : Request) (row : User) (past : List ApiCall) : Prop :=
  ∃ code stored secret now, req.totpCode = some code ∧ done .dateNow now ∈ past ∧
    row.two_fa_totp_secret = some stored ∧
    Encryption.decrypt env.aes env.encryptionKey stored = .ok secret ∧
    env.otplib.verifySync secret code now = .ok true

/-- The event signs one token of a pair for `row`; before the pair the request had done `past`. -/
def SignsPair (env : Env) (e : ApiEvent) (l : List ApiEvent) (row : User) (past : List ApiCall) : Prop :=
  (∃ token, e.call = done (accessSign env row) token ∧ calls e.pid l = past) ∨
    ∃ token access, e.call = done (refreshSign env row) token ∧
      calls e.pid l = done (accessSign env row) access :: past

theorem totpCode_of_ignoresTwoFa {req : Request} (h : req.ignoresTwoFa = true) : req.totpCode = none := by
  cases req with
  | verifyEmail email otp => rfl
  | googleCallback profile signupRole => rfl
  | _ => cases h

theorem onboarding_of_signsIn {req : Request} (h : req.signsIn = true) : req.onboarding = none := by
  cases req with
  | talentOnboarding c dto => cases h
  | employerOnboarding c dto => cases h
  | _ => rfl

theorem Issues.lastRow {req : Request} {user : User} {past : List ApiCall} (h : Issues env req user past) :
    SkillBridge.lastRow past = some user := by
  cases h with
  | googleCallback row first => exact row
  | login verified noTwoFa stored matching => rfl
  | verifyEmail verified matching => rfl
  | verifyEmailFirst unverified matching => rfl
  | verify2fa admitted pending enabled totp decrypted valid => rfl
  | refresh admitted stored matching => rfl
  | onboarding request presented admitted => rfl

theorem Issues.totpChecked_iff {req : Request} {user : User} {past : List ApiCall}
    (h : Issues env req user past) (hreq : req.signsIn = true) :
    (user.two_fa_enabled = true → TotpChecked env req user past) ↔
      ¬ (user.two_fa_enabled = true ∧ req.ignoresTwoFa = true) := by
  have hunchecked : req.ignoresTwoFa = true → ¬ TotpChecked env req user past := by
    rintro hi ⟨code, stored, secret, now, hcode, -⟩
    rw [totpCode_of_ignoresTwoFa hi] at hcode
    cases hcode
  by_cases hi : req.ignoresTwoFa = true
  · constructor
    · exact fun hc ⟨he, _⟩ => hunchecked hi (hc he)
    · exact fun hn he => absurd ⟨he, hi⟩ hn
  · refine ⟨fun _ hn => hi hn.2, fun _ he => ?_⟩
    cases h with
    | login verified noTwoFa stored matching =>
      rw [he] at noTwoFa
      cases noTwoFa
    | verify2fa admitted pending enabled totp decrypted valid =>
      exact ⟨_, _, _, _, rfl, List.mem_cons_self, totp, decrypted, valid⟩
    | verifyEmail verified matching => exact absurd rfl hi
    | verifyEmailFirst unverified matching => exact absurd rfl hi
    | googleCallback row first => exact absurd rfl hi
    | refresh admitted stored matching => cases hreq
    | onboarding request presented admitted =>
      rw [onboarding_of_signsIn hreq] at request
      cases request

/-- A sign-in that signs tokens for a row with two-factor authentication has checked a code, unless it is
one of those that ignore it. -/
theorem totp_checked_before_sign_in (hp : (api env).Reachable (.start db) p) {l₁ l₂ : List ApiEvent}
    {e : ApiEvent} (htrace : p.world.trace = l₁ ++ e :: l₂) (hreq : e.req.signsIn = true) {token : Jwt}
    (hm : minted e.call = some token) (hkind : token.payload.type ≠ some "2fa_pending") :
    ∃ row past, SignsPair env e l₂ row past ∧ lastRow past = some row ∧ row.id = token.payload.sub ∧
      ((row.two_fa_enabled = true → TotpChecked env e.req row past) ↔
        ¬ (row.two_fa_enabled = true ∧ e.req.ignoresTwoFa = true)) := by
  have he : e ∈ p.world.trace := mem_of_split htrace e List.mem_cons_self
  have hsigned : SignedBy env e token (calls e.pid l₂) := .of_explained (htrace ▸ explained hp).at hm
  cases hsigned with
  | @access user hcall issues =>
    refine ⟨user, _, .inl ⟨token, hcall, rfl⟩, issues.lastRow, ?_, issues.totpChecked_iff hreq⟩
    rw [token_eq hp he hcall]
    rfl
  | @refresh user access past hcall issues history =>
    refine ⟨user, past, .inr ⟨token, access, hcall, history⟩, issues.lastRow, ?_, issues.totpChecked_iff hreq⟩
    rw [token_eq hp he hcall]
    rfl
  | @state user email password hcall =>
    rw [token_eq hp he hcall] at hkind
    exact absurd rfl hkind

section Runs

def googleRun : Option ApiPool :=
  (api sampleEnv).play (.start (sampleDatabase [sampleUser]))
    [.spawn (.googleCallback userProfile none),
      .run 0 {}, .run 0 {}, .run 0 {}, .run 0 {}, .run 0 {}, .run 0 {}, .run 0 {}, .run 0 {}]

theorem googleRun_isSome : googleRun.isSome = true := rfl

def secondAccessToken : Jwt where
  secret := sampleEnv.JWT_ACCESS_SECRET
  payload := { AuthService.sessionPayload sampleUser with jti := some 11 }
  iat := 1700000000
  exp := 1700000900

theorem totp_checked_in_twoFactorRun : ∃ l₁ e l₂ row past,
    ((twoFactorRun "correct horse").get twoFactorRun_isSome).world.trace = l₁ ++ e :: l₂ ∧
    SignsPair sampleEnv e l₂ row past ∧ lastRow past = some row ∧
    ((row.two_fa_enabled = true → TotpChecked sampleEnv e.req row past) ↔
      ¬ (row.two_fa_enabled = true ∧ e.req.ignoresTwoFa = true)) := by
  have hp := System.reachable_of_play (Option.some_get twoFactorRun_isSome).symm
  obtain ⟨l₁, l₂, htrace⟩ := List.append_of_mem (List.getElem_mem (by decide +kernel :
    3 < ((twoFactorRun "correct horse").get twoFactorRun_isSome).world.trace.length))
  obtain ⟨row, past, h₁, h₂, -, h₃⟩ := totp_checked_before_sign_in hp htrace (by decide +kernel)
    (rfl : minted _ = some secondAccessToken) (by decide)
  exact ⟨l₁, _, l₂, row, past, htrace, h₁, h₂, h₃⟩

theorem google_sign_in_without_totp : ∃ p, (api sampleEnv).Reachable (.start (sampleDatabase [sampleUser])) p ∧
    ∃ l₁ e l₂ past, p.world.trace = l₁ ++ e :: l₂ ∧ e.req.signsIn = true ∧
      SignsPair sampleEnv e l₂ sampleUser past ∧ lastRow past = some sampleUser ∧
      sampleUser.two_fa_enabled = true ∧ ¬ TotpChecked sampleEnv e.req sampleUser past := by
  have hp := System.reachable_of_play (Option.some_get googleRun_isSome).symm
  refine ⟨_, hp, (googleRun.get googleRun_isSome).world.trace.take 3,
    (googleRun.get googleRun_isSome).world.trace.get ⟨3, by decide +kernel⟩,
    (googleRun.get googleRun_isSome).world.trace.drop 4, _, rfl, rfl, .inl ⟨_, rfl, rfl⟩, rfl, rfl, ?_⟩
  rintro ⟨code, stored, secret, now, hcode, -⟩
  cases hcode

end Runs

end SkillBridge
