import SkillBridge.Security.FirstFactor
import SkillBridge.Security.TwoFactorEnrolment

set_option autoImplicit false

/-! The state tokens that `login` hands out and `verify2fa` exchanges for a session. -/

namespace SkillBridge

open Interleaving

/-- The request is a `verify2fa` with this state token whose code is right while it is handled: for a row
that the token's user has then, and at a time that it is then. -/
def SendsRightCode (env : Env) (p : ApiPool) (token : Jwt) (pid : ℕ) : Prop :=
  ∃ proc code, p.procs[pid]? = some proc ∧ proc.req = .verify2fa (some token) code ∧
    ∃ e ∈ p.world.trace, e.pid = pid ∧ ∃ user, Database.findById e.before.tables.users token.payload.sub = some user ∧
      ∃ e' ∈ p.world.trace, e'.pid = pid ∧ user.acceptsTotp env e'.before.appNow code = true

/-- No two requests carry the same state token, each with a code that is right for it. -/
def RightCodesOnce (env : Env) (p : ApiPool) : Prop :=
  ∀ token pid pid', SendsRightCode env p token pid → SendsRightCode env p token pid' → pid = pid'

def exchanges (token : Jwt) (proc : Proc backend Request Response) : Bool :=
  match proc.req, proc.prog with
  | .verify2fa authorization _, .ret response => authorization = some token && response.authTokens.isSome
  | _, _ => false

variable {env : Env} {db : Database} {p : ApiPool} {token : Jwt}

theorem exchanges_iff {proc : Proc backend Request Response} : exchanges token proc = true ↔
    ∃ code response, proc.req = .verify2fa (some token) code ∧ proc.prog = .ret response ∧
      response.authTokens.isSome = true := by
  constructor
  · intro h
    unfold exchanges at h
    split at h
    · rename_i authorization code response hreq hprog
      obtain ⟨hauthorization, hsome⟩ := Bool.and_eq_true_iff.mp h
      obtain rfl := of_decide_eq_true hauthorization
      exact ⟨code, response, hreq, hprog, hsome⟩
    · cases h
  · rintro ⟨code, response, hreq, hprog, hsome⟩
    simp [exchanges, hreq, hprog, hsome]

theorem sendsRightCode_of_exchange (hp : (api env).Reachable (.start db) p) {pid : ℕ}
    {proc : Proc backend Request Response} (hproc : p.procs[pid]? = some proc) (h : exchanges token proc = true) :
    SendsRightCode env p token pid := by
  obtain ⟨code, response, hreq, hprog, hsome⟩ := exchanges_iff.mp h
  obtain ⟨tokens, htokens⟩ := Option.isSome_iff_exists.mp hsome
  obtain ⟨user, past, issues, later, hpast⟩ := ((outcome hp hproc hprog).1 tokens htokens).signed
  rw [hreq] at issues
  obtain ⟨token', payload, now, now', stored, secret, ⟨⟩, hverify, -, totp, decrypted, valid, rfl⟩ :=
    issues.verify2fa_inv
  obtain ⟨-, -, rfl⟩ := Jwt.verify_eq_ok.mp hverify
  have hmem : ∀ {c : ApiCall}, c ∈ [done .dateNow now', done (.findUser none token.payload.sub) (some user)] →
      ∃ e ∈ p.world.trace, e.pid = pid ∧ e.call = c := fun hc =>
    mem_calls.mp (hpast ▸ List.mem_append_right _ (List.mem_append_right _
      (List.mem_append_left [done .dateNow now] hc)))
  obtain ⟨e', he', hpid', hclock⟩ := hmem List.mem_cons_self
  obtain ⟨e, he, hpid, hread⟩ := hmem (List.mem_cons_of_mem _ List.mem_cons_self)
  obtain ⟨ω, t, hexec⟩ := exec_of_call hp he' hclock
  cases hexec
  refine ⟨proc, code, hproc, hreq, e, he, hpid, user, findUser_eq hp he hread, e', he', hpid', ?_⟩
  simp only [User.acceptsTotp, totp, decrypted, valid]

/-- A state token is exchanged once at most in every run in which it is sent with a right code once at most. -/
theorem state_token_exchanged_once (hp : (api env).Reachable (.start db) p) (hsent : RightCodesOnce env p)
    (token : Jwt) : p.procs.countP (exchanges token) ≤ 1 := by
  refine countP_le_one fun ps proc qs hprocs hexchanges other hother => ?_
  by_contra hagain
  obtain ⟨i, hi⟩ := List.mem_iff_getElem?.mp hother
  have hlt : i < ps.length := (List.getElem?_eq_some_iff.mp hi).1
  have hproc : p.procs[ps.length]? = some proc := by simp [hprocs]
  have hproc' : p.procs[i]? = some other := by rw [hprocs, List.getElem?_append_left hlt, hi]
  have hright := sendsRightCode_of_exchange hp hproc hexchanges
  have hright' := sendsRightCode_of_exchange hp hproc' (by simpa using hagain)
  have := hsent token _ _ hright hright'
  omega

section Runs

theorem exchanged_once_in_twoFactorRun :
    ((twoFactorRun "correct horse").get twoFactorRun_isSome).procs.countP (exchanges stateToken) = 1 ∧
    ∀ token, ((twoFactorRun "correct horse").get twoFactorRun_isSome).procs.countP (exchanges token) ≤ 1 := by
  have hp := System.reachable_of_play (Option.some_get twoFactorRun_isSome).symm
  have hsent : RightCodesOnce sampleEnv ((twoFactorRun "correct horse").get twoFactorRun_isSome) := by
    have hreqs : ((twoFactorRun "correct horse").get twoFactorRun_isSome).procs.map (·.req) =
        [.login "user@example.com" "correct horse", .verify2fa (some stateToken) "123456"] := rfl
    have hlast : ∀ token pid,
        SendsRightCode sampleEnv ((twoFactorRun "correct horse").get twoFactorRun_isSome) token pid → pid = 1 := by
      rintro token pid ⟨proc, code, hproc, hreq, -⟩
      have hget := congrArg (·[pid]?) hreqs
      simp only [List.getElem?_map, hproc, Option.map_some, hreq] at hget
      rcases pid with _ | _ | pid <;> simp at hget ⊢
    intro token pid pid' h h'
    rw [hlast token pid h, hlast token pid' h']
  exact ⟨by decide +kernel, state_token_exchanged_once hp hsent⟩

def replayRun : Option ApiPool :=
  (api sampleEnv).play ((twoFactorRun "correct horse").get twoFactorRun_isSome)
    [.spawn (.verify2fa (some stateToken) "123456"), .run 2 {}, .run 2 {}, .run 2 {}, .run 2 {}, .run 2 {},
      .run 2 {}, .run 2 {}]

theorem replayRun_isSome : replayRun.isSome = true := rfl

theorem state_token_exchanged_twice : ∃ p, (api sampleEnv).Reachable (.start (sampleDatabase [sampleUser])) p ∧
    Minted stateToken p.world.trace ∧ stateToken.payload.type = some "2fa_pending" ∧
    p.procs.countP (exchanges stateToken) = 2 := by
  have hp := (System.reachable_of_play (Option.some_get twoFactorRun_isSome).symm).trans
    (System.reachable_of_play (Option.some_get replayRun_isSome).symm)
  exact ⟨_, hp, minted_iff.mpr (by decide +kernel), rfl, by decide +kernel⟩

end Runs

end SkillBridge
