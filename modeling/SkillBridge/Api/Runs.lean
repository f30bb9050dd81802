import SkillBridge.Api.Explanations
import SkillBridge.Database.Constraints

set_option autoImplicit false

/-! What holds of the trace of every run of the system, from any database. -/

namespace SkillBridge

open Interleaving

def minted : ApiCall → Option Jwt
  | ⟨.signAsync _ _ _ _, .ok token⟩ => some token
  | _ => none

def Minted (token : Jwt) (l : List ApiEvent) : Prop := ∃ e ∈ l, minted e.call = some token

theorem minted_iff {token : Jwt} {l : List ApiEvent} :
    Minted token l ↔ token ∈ l.filterMap fun e => minted e.call := List.mem_filterMap.symm

def serverSecret (env : Env) (token : Jwt) : Prop :=
  token.secret = env.JWT_ACCESS_SECRET ∨ token.secret = env.JWT_REFRESH_SECRET

theorem exists_of_minted {e : ApiEvent} {token : Jwt} (h : minted e.call = some token) :
    ∃ payload jti secret expiresIn, e.call = done (.signAsync payload jti secret expiresIn) token := by
  obtain ⟨pid, req, before, op, reply⟩ := e
  cases op
  case signAsync payload jti secret expiresIn =>
    cases reply with
    | ok t =>
      cases h
      exact ⟨payload, jti, secret, expiresIn, rfl⟩
    | error e => cases h
  all_goals cases h

variable {env : Env} {db : Database} {p : ApiPool}

theorem explained (hp : (api env).Reachable (.start db) p) :
    Justified (fun e l => Explained env e.req e.call (calls e.pid l)) p.world.trace :=
  (System.Reachable.along (handle_along env) hp).2

theorem exec_of_call (hp : (api env).Reachable (.start db) p) {e : ApiEvent} (he : e ∈ p.world.trace) {o : Op}
    {r : o.Res} (h : e.call = done o r) : ∃ ω t, Database.exec o ω e.before = some (.ok r, t) := by
  obtain ⟨-, -, -, t, ht⟩ := (System.Reachable.answered hp).of_mem he
  obtain ⟨ω, hexec⟩ := exec_of_answers ht h
  exact ⟨ω, t, hexec⟩

theorem token_eq (hp : (api env).Reachable (.start db) p) {e : ApiEvent} (he : e ∈ p.world.trace)
    {payload : JwtPayload} {jti : Bool} {secret : String} {expiresIn : ℕ} {token : Jwt}
    (h : e.call = done (.signAsync payload jti secret expiresIn) token) :
    token = e.before.signAsync payload jti secret expiresIn := by
  obtain ⟨ω, t, hexec⟩ := exec_of_call hp he h
  cases hexec
  rfl

theorem findUser_eq (hp : (api env).Reachable (.start db) p) {e : ApiEvent} (he : e ∈ p.world.trace)
    {tx : Option TxId} {id : UserId} {row : Option User} (h : e.call = done (.findUser tx id) row) :
    Database.findById (e.before.view tx).users id = row := by
  obtain ⟨ω, t, hexec⟩ := exec_of_call hp he h
  injection hexec with hexec
  injection hexec with hreply
  injection hreply

theorem findById_id {users : List User} {id : UserId} {user : User}
    (h : Database.findById users id = some user) : user.id = id := by
  have := List.find?_some h
  simpa using this

theorem constraints_of_reachable {db₀ : Database} {s : ApiPool} (h₀ : db₀.Constraints)
    (hs : (api env).Reachable (.start db₀) s) : s.world.state.Constraints := by
  refine System.Reachable.stable (I := Database.Constraints) ?_ ?_ hs h₀
  · exact fun m db h => h.tick
  · exact fun o db reply t h ha => h.step (answers_effect ha)

inductive SignedBy (env : Env) (e : ApiEvent) (token : Jwt) (past : List ApiCall) : Prop
  | access {user : User} (call : e.call = done (accessSign env user) token)
      (issues : Issues env e.req user past)
  | refresh {user : User} {access : Jwt} {past' : List ApiCall}
      (call : e.call = done (refreshSign env user) token) (issues : Issues env e.req user past')
      (history : past = done (accessSign env user) access :: past')
  | state {user : User} {email password : String} (call : e.call = done (stateSign env user) token)
      (request : e.req = .login email password) (verified : user.is_verified = true)
      (enabled : user.two_fa_enabled = true) (history : past = [done (.findUserByEmail email) (some user)])

theorem SignedBy.of_explained {e : ApiEvent} {token : Jwt} {past : List ApiCall}
    (h : Explained env e.req e.call past) (hm : minted e.call = some token) : SignedBy env e token past := by
  obtain ⟨payload, jti, secret, expiresIn, hcall⟩ := exists_of_minted hm
  rw [hcall] at h
  generalize hreq : e.req = req at h
  change Signs env req (.signAsync payload jti secret expiresIn) past at h
  cases h with
  | access issues => exact .access hcall (hreq ▸ issues)
  | refresh issues => exact .refresh hcall (hreq ▸ issues) rfl
  | state verified enabled => exact .state hcall hreq verified enabled rfl

theorem signedBy {l : List ApiEvent}
    (h : Justified (fun e l => Explained env e.req e.call (calls e.pid l)) l) {e : ApiEvent} (he : e ∈ l)
    {token : Jwt} (hm : minted e.call = some token) :
    ∃ l₁ l₂, l = l₁ ++ e :: l₂ ∧ SignedBy env e token (calls e.pid l₂) := by
  obtain ⟨l₁, l₂, hl, hex⟩ := h.of_mem he
  exact ⟨l₁, l₂, hl, .of_explained hex hm⟩

theorem Issues.verify2fa_inv {authorization : Option Jwt} {code : String} {user : User} {past : List ApiCall}
    (h : Issues env (.verify2fa authorization code) user past) :
    ∃ token payload now now' stored secret, authorization = some token ∧
      token.verify env.JWT_ACCESS_SECRET now = .ok payload ∧ payload.type = some "2fa_pending" ∧
      user.two_fa_totp_secret = some stored ∧
      Encryption.decrypt env.aes env.encryptionKey stored = .ok secret ∧
      env.otplib.verifySync secret code now' = .ok true ∧
      past = [done .dateNow now', done (.findUser none payload.sub) (some user), done .dateNow now] := by
  cases h with
  | verify2fa admitted pending enabled totp decrypted valid =>
    exact ⟨_, _, _, _, _, _, rfl, admitted, pending, totp, decrypted, valid, rfl⟩
  | onboarding request presented admitted => cases request

theorem outcome (hp : (api env).Reachable (.start db) p) {pid : ℕ} {proc : Proc backend Request Response}
    (hproc : p.procs[pid]? = some proc) {response : Response} (hret : proc.prog = .ret response) :
    Outcome env proc.req (.ok response) (calls pid p.world.trace) := by
  have h := (System.Reachable.along (handle_along env) hp).1 pid proc hproc
  rw [hret] at h
  exact h

theorem Granted.signed {req : Request} {tokens : AuthTokens} {past : List ApiCall}
    (h : Granted env req tokens past) : ∃ user past', Issues env req user past' ∧
      (SkillBridge.signed env user tokens ++ past') <:+ past := by
  cases h with
  | session issues other => exact ⟨_, _, issues, (List.suffix_cons _ _).trans (List.suffix_cons _ _)⟩
  | refresh request issues stored => exact ⟨_, _, issues, (List.suffix_cons _ _).trans (List.suffix_cons _ _)⟩

theorem Outcome.minted {req : Request} {response : Response} {past : List ApiCall}
    (h : Outcome env req (.ok response) past) {token : Jwt} (ht : token ∈ response.jwts) :
    ∃ c ∈ past, SkillBridge.minted c = some token := by
  obtain ⟨hgranted, hstate, -⟩ := h
  rcases List.mem_append.mp ht with ht | ht
  · cases hr : response.authTokens with
    | none => simp [hr] at ht
    | some tokens =>
      obtain ⟨user, past', -, hs⟩ := (hgranted tokens hr).signed
      simp only [hr, Option.elim_some, AuthTokens.toList, List.mem_cons, List.not_mem_nil, or_false] at ht
      rcases ht with rfl | rfl
      · exact ⟨done (accessSign env user) tokens.accessToken, hs.subset (by simp), rfl⟩
      · exact ⟨done (refreshSign env user) tokens.refreshToken, hs.subset (by simp), rfl⟩
  · cases hr : response.stateToken with
    | none => simp [hr] at ht
    | some state =>
      simp only [hr, Option.toList_some, List.mem_singleton] at ht
      subst ht
      obtain ⟨email, password, user, -, -, -, rfl⟩ := hstate token hr
      exact ⟨done (stateSign env user) token, List.mem_cons_self, rfl⟩

theorem minted_of_issued (hp : (api env).Reachable (.start db) p) {token : Jwt} (h : token ∈ issued p) :
    Minted token p.world.trace := by
  obtain ⟨proc, hproc, ht⟩ := List.mem_flatMap.mp h
  obtain ⟨pid, hpid⟩ := List.mem_iff_getElem?.mp hproc
  cases hprog : proc.prog with
  | ret response =>
    rw [hprog] at ht
    obtain ⟨c, hc, hm⟩ := (outcome hp hpid hprog).minted ht
    obtain ⟨e, he, -, rfl⟩ := mem_calls.mp hc
    exact ⟨e, he, hm⟩
  | throw e => simp [hprog] at ht
  | call o k => simp [hprog] at ht

/-- Every token a request presents either was signed here before, or verifies under none of the secrets. -/
def Presents (env : Env) (req : Request) (l : List ApiEvent) : Prop :=
  ∀ token ∈ req.jwts, serverSecret env token → Minted token l

theorem presented (hp : (api env).Reachable (.start db) p) :
    (∀ (pid : ℕ) (proc : Proc backend Request Response), p.procs[pid]? = some proc →
      Presents env proc.req p.world.trace) ∧
    Justified (fun e l => Presents env e.req l) p.world.trace := by
  apply System.Reachable.admitted _ _ hp
  · intro req e l h token ht hs
    obtain ⟨e', he', hm⟩ := h token ht hs
    exact ⟨e', List.mem_cons_of_mem e he', hm⟩
  · intro q req hq ha token ht hs
    have hall : admits env q req = true := ha
    simp only [admits, Bool.and_eq_true, List.all_eq_true, Bool.or_eq_true, decide_eq_true_eq] at hall
    rcases hall.1 token ht with h | h
    · rcases hs with hs | hs
      · exact absurd hs h.1
      · exact absurd hs h.2
    · exact minted_of_issued hq h

end SkillBridge
