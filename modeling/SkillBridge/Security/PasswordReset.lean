import SkillBridge.Security.RefreshRotation
import SkillBridge.Security.SecondFactor

set_option autoImplicit false

/-! What a password reset revokes. -/

namespace SkillBridge

open Interleaving Database

variable {env : Env} {db t : Database} {p : ApiPool} {id : UserId} {token : Jwt}

/-- The token for which the request issues a new session. -/
def Request.reissues : Request → Option Jwt
  | refresh token => token
  | req => req.onboarding.bind Credentials.token

/-- The call at which the request checks its credential: it reads the row of the password or of the TOTP
secret, or uses up the code. An OAuth profile has been checked before the first call. -/
def Request.checks : Request → ApiCall → Bool
  | login _ _, ⟨.findUserByEmail _, .ok _⟩ => true
  | verifyEmail _ _, ⟨.markOtpUsed _ _, .ok used⟩ => used
  | verify2fa _ _, ⟨.findUser _ _, .ok _⟩ => true
  | googleCallback _ _, _ => true
  | _, _ => false

def ResetWrite (id : UserId) (e : ApiEvent) : Prop :=
  (∃ email otp password, e.req = .resetPassword email otp password) ∧
    ∃ hash row, e.call =
      done (.updateUser id { password := some (some hash), refreshTokenHash := some none }) row

def ChecksAfter (l₀ : List ApiEvent) (e : ApiEvent) : Prop :=
  e.req.signsIn = true ∧ ∀ e' ∈ l₀, e'.pid = e.pid → e.req.checks e'.call = false

/-- The reissues that led to the token begin with a sign-in that checked its credential after `l₀`. -/
inductive Vouched (env : Env) (l l₀ : List ApiEvent) : Jwt → Prop
  | signIn {l₁ l₂ : List ApiEvent} {e : ApiEvent} {user : User} {past : List ApiCall} {check : ApiCall}
      {token : Jwt}
      (trace : l = l₁ ++ e :: l₂) (mints : minted e.call = some token) (signs : SignsPair env e l₂ user past)
      (issues : Issues env e.req user past) (mem : check ∈ past) (checks : e.req.checks check = true)
      (after : ChecksAfter l₀ e) : Vouched env l l₀ token
  | reissue {e : ApiEvent} {presented token : Jwt} (he : e ∈ l) (mints : minted e.call = some token)
      (request : e.req.reissues = some presented) (chain : Vouched env l l₀ presented) : Vouched env l l₀ token

/-- A session that is stored without a comparison goes back to nothing before the last reset: a sign-in
checked its credential later, and an onboarding presented a session's token that was signed later. -/
def AfterResets (e : ApiEvent) (l : List ApiEvent) : Prop :=
  ∀ id hash row, e.call = done (.updateUser id { refreshTokenHash := some (some hash) }) row →
    ∀ l₁ w l₀, l = l₁ ++ w :: l₀ → ResetWrite id w → ChecksAfter (w :: l₀) e ∨
      ∃ token, e.req.reissues = some token ∧ token.payload.type ≠ some "2fa_pending" ∧ Minted token l₁

def Stores (id : UserId) (token : Jwt) (e : ApiEvent) : Prop :=
  (∃ hash row, hash.plain = token ∧
      e.call = done (.updateUser id { refreshTokenHash := some (some hash) }) row) ∨
    ∃ currentHash nextHash, nextHash.plain = token ∧
      e.call = done (.rotateRefreshTokenHash id currentHash nextHash) true

theorem Stores.storesToken {e : ApiEvent} (h : Stores id token e) : e.op.storesToken = some (id, token) := by
  rcases h with ⟨hash, row, rfl, hcall⟩ | ⟨currentHash, nextHash, rfl, hcall⟩
  · obtain ⟨pid, req, before, rfl⟩ := Event.exists_of_call hcall
    rfl
  · obtain ⟨pid, req, before, rfl⟩ := Event.exists_of_call hcall
    rfl

theorem Stores.persisted {e : ApiEvent} {hash : Digest Jwt} (h : Stores id token e)
    (op : e.op = .updateUser id { refreshTokenHash := some (some hash) }) :
    ∃ row, e.call = done (.updateUser id { refreshTokenHash := some (some hash) }) row := by
  rcases h with ⟨hash', row, -, hcall⟩ | ⟨currentHash, nextHash, -, hcall⟩
  · obtain ⟨pid, req, before, rfl⟩ := Event.exists_of_call hcall
    cases op
    exact ⟨row, hcall⟩
  · obtain ⟨pid, req, before, rfl⟩ := Event.exists_of_call hcall
    cases op

theorem Stores.rotated {e : ApiEvent} {currentHash nextHash : Digest Jwt} {current : Jwt}
    (h : Stores id token e) (op : e.op = .rotateRefreshTokenHash id currentHash nextHash)
    (request : e.req = .refresh (some current)) : accepts current e = true := by
  rcases h with ⟨hash, row, -, hcall⟩ | ⟨currentHash', nextHash', -, hcall⟩
  · obtain ⟨pid, req, before, rfl⟩ := Event.exists_of_call hcall
    cases op
  · exact accepts_iff.mpr ⟨request, _, _, _, hcall⟩

theorem stores_of_changes (hp : (api env).Reachable (.start db) p) {l₁ l₂ : List ApiEvent} {e : ApiEvent}
    (htrace : p.world.trace = l₁ ++ e :: l₂) (hstores : e.op.storesToken = some (id, token))
    (hchanges : e.op.changes e.reply = true) : Stores id token e := by
  have hsession := storesSession hp htrace hstores
  obtain ⟨pid, req, before, op, reply⟩ := e
  cases hsession with
  | @persisted user access hash past sub hop plain =>
    change op = _ at hop
    subst hop
    cases reply with
    | ok row => exact .inl ⟨hash, row, plain, rfl⟩
    | error e => cases hchanges
  | @rotated user access current currentHash nextHash past sub hop plain =>
    change op = _ at hop
    subst hop
    cases reply with
    | ok rotated =>
      rw [show rotated = true from hchanges]
      exact .inr ⟨currentHash, nextHash, plain, rfl⟩
    | error e => cases hchanges

theorem Issues.checks {req : Request} {user : User} {past : List ApiCall} (h : Issues env req user past)
    (hreq : req.signsIn = true) : ∃ c ∈ past, req.checks c = true := by
  cases h with
  | login verified noTwoFa stored matching => exact ⟨_, List.mem_cons_self, rfl⟩
  | verifyEmail verified matching => exact ⟨_, List.mem_cons_self, rfl⟩
  | @verifyEmailFirst email code row user otp updated unverified matching =>
    exact ⟨done (.markOtpUsed .verification_otps otp.id) true, by simp, rfl⟩
  | googleCallback row first => exact ⟨_, first.subset List.mem_cons_self, rfl⟩
  | verify2fa admitted pending enabled totp decrypted valid =>
    exact ⟨_, List.mem_cons_of_mem _ List.mem_cons_self, rfl⟩
  | refresh admitted stored matching => cases hreq
  | onboarding request presented admitted =>
    rw [onboarding_of_signsIn hreq] at request
    cases request

theorem signsPair_of_minted (hp : (api env).Reachable (.start db) p) {l₁ l₂ : List ApiEvent} {e : ApiEvent}
    (htrace : p.world.trace = l₁ ++ e :: l₂) (hm : minted e.call = some token)
    (hkind : token.payload.type ≠ some "2fa_pending") : token.payload.jti ≠ none ∧
      ∃ user past, token.payload.sub = user.id ∧ SignsPair env e l₂ user past ∧ Issues env e.req user past := by
  have he : e ∈ p.world.trace := mem_of_split htrace e List.mem_cons_self
  have hsigned : SignedBy env e token (calls e.pid l₂) := .of_explained (htrace ▸ explained hp).at hm
  cases hsigned with
  | @access user hcall issues =>
    rw [token_eq hp he hcall]
    exact ⟨by simp [signAsync], user, _, rfl, .inl ⟨token, hcall, rfl⟩, issues⟩
  | @refresh user access past hcall issues history =>
    rw [token_eq hp he hcall]
    exact ⟨by simp [signAsync], user, past, rfl, .inr ⟨token, access, hcall, history⟩, issues⟩
  | state hcall request verified enabled history =>
    rw [token_eq hp he hcall] at hkind
    exact absurd rfl hkind

theorem Issues.onboarding_inv {req : Request} {c : Credentials} {user : User} {past : List ApiCall}
    (h : Issues env req user past) (hreq : req.onboarding = some c) : ∃ token now row, c.token = some token ∧
      token.verify env.JWT_ACCESS_SECRET now = .ok token.payload ∧
      done (.findUser none token.payload.sub) (some row) ∈ past ∧
      done (.findUser none row.id) (some user) ∈ past := by
  cases h with
  | onboarding request presented admitted =>
    rw [hreq] at request
    cases request
    obtain ⟨-, -, rfl⟩ := Jwt.verify_eq_ok.mp admitted
    exact ⟨_, _, _, presented, admitted, by simp, List.mem_cons_self⟩
  | _ => cases hreq

theorem presented_by_onboarding (hp : (api env).Reachable (.start db) p) {l₁ l₂ : List ApiEvent} {e : ApiEvent}
    (htrace : p.world.trace = l₁ ++ e :: l₂) {user : User} {past later : List ApiCall}
    (issues : Issues env e.req user past) (history : calls e.pid l₂ = later ++ past) {c : Credentials}
    (hreq : e.req.onboarding = some c) (hc : c.token = some token) :
    token.secret = env.JWT_ACCESS_SECRET ∧ token.payload.sub = user.id := by
  obtain ⟨token', now, row, hc', hverify, hrow, hrow'⟩ := issues.onboarding_inv hreq
  rw [hc] at hc'
  cases hc'
  have hread : ∀ i row, done (.findUser none i) (some row) ∈ past → row.id = i := by
    intro i row hmem
    obtain ⟨e', he', -, hcall'⟩ := exists_of_mem_calls htrace (history ▸ List.mem_append_right _ hmem)
    exact findById_id (findUser_eq hp he' hcall')
  refine ⟨(Jwt.verify_eq_ok.mp hverify).1, ?_⟩
  rw [← hread _ _ hrow, ← hread _ _ hrow']

theorem credentials_of_onboarding {req : Request} {c : Credentials} (h : req.onboarding = some c) :
    req.credentials = some c := by
  cases req with
  | talentOnboarding c dto => exact h
  | employerOnboarding c dto => exact h
  | _ => cases h

theorem stored_since_reset (hp : (api env).Reachable (.start db) p) {l₁ l₂ l₀ : List ApiEvent} {e w : ApiEvent}
    (htrace : p.world.trace = l₁ ++ e :: (l₂ ++ w :: l₀)) (hw : ResetWrite id w)
    (hstored : storedToken e.before id = some token) :
    ∃ l₃ e' l₄, l₂ = l₃ ++ e' :: l₄ ∧ Stores id token e' := by
  obtain ⟨q, k, t, -, hqw, -, ha, hqp⟩ := System.Reachable.split hp
    (show p.world.trace = (l₁ ++ e :: l₂) ++ w :: l₀ by simp [htrace]) List.nil_suffix
  obtain ⟨-, hash, row, hcall⟩ := hw
  have hnone : storedToken t id = none := by
    obtain ⟨pid, req, before, rfl⟩ := Event.exists_of_call hcall
    rcases ha with ⟨ω, hexec⟩ | ⟨_, -, herr, -⟩
    · exact storedToken_of_revoked rfl hexec
    · cases herr
  have hafter : (q.answer w.pid w.req w.op k w.reply t).world.trace = w :: l₀ := by
    simp only [Pool.answer, World.perform, hqw]
  obtain ⟨r, k', t', hr, hrw, -, -, hrp⟩ := System.Reachable.split hqp htrace
    (by rw [hafter]; exact List.suffix_append _ _)
  have hgone : storedToken (q.answer w.pid w.req w.op k w.reply t).world.state id ≠ some token := by
    simp [Pool.answer, World.perform, hnone]
  obtain ⟨l₃, e', l₄, htrace', hstores, hchanges⟩ := stored_since hr hgone (by rw [hrw]; exact hstored)
  rw [hrw, hafter] at htrace'
  have hl₂ : l₂ = l₃ ++ e' :: l₄ := by
    refine List.append_cancel_right (?_ : l₂ ++ w :: l₀ = (l₃ ++ e' :: l₄) ++ w :: l₀)
    simpa using htrace'
  have hsplit : p.world.trace = (l₁ ++ e :: l₃) ++ e' :: (l₄ ++ w :: l₀) := by
    rw [htrace, hl₂]
    simp
  exact ⟨l₃, e', l₄, hl₂, stores_of_changes hp hsplit hstores hchanges⟩

theorem Granted.stores {req : Request} {tokens : AuthTokens} {past : List ApiCall}
    (h : Granted env req tokens past) : ∃ c user hash past',
      past = c :: (hashed env user tokens hash ++ past') ∧
      ∀ e : ApiEvent, e.call = c → Stores user.id hash.plain e := by
  cases h with
  | session issues other => exact ⟨_, _, _, _, rfl, fun e he => .inl ⟨_, _, rfl, he⟩⟩
  | refresh request issues stored => exact ⟨_, _, _, _, rfl, fun e he => .inr ⟨_, _, rfl, he⟩⟩

theorem stores_of_issued (hp : (api env).Reachable (.start db) p) (hissued : token ∈ issued p)
    (hkind : token.payload.type ≠ some "2fa_pending") : ∃ l₁ e l₂ next, p.world.trace = l₁ ++ e :: l₂ ∧
      Stores token.payload.sub next e ∧ ∃ m ∈ l₂, m.pid = e.pid ∧ minted m.call = some token := by
  obtain ⟨proc, hproc, ht⟩ := List.mem_flatMap.mp hissued
  obtain ⟨pid, hpid⟩ := List.mem_iff_getElem?.mp hproc
  cases hprog : proc.prog with
  | throw e => simp [hprog] at ht
  | call o k => simp [hprog] at ht
  | ret response =>
    rw [hprog] at ht
    obtain ⟨hgranted, hstate, -⟩ := outcome hp hpid hprog
    rcases List.mem_append.mp ht with ht | ht
    · cases hr : response.authTokens with
      | none => simp [hr] at ht
      | some tokens =>
        obtain ⟨c, user, hash, past, hcalls, hstores⟩ := (hgranted tokens hr).stores
        obtain ⟨l₁, e, l₂, htrace, hepid, hecall, -, hpast⟩ := exists_of_calls (A := []) hcalls
        have hsign : ∃ secret expiresIn, done (.signAsync (AuthService.sessionPayload user) true secret expiresIn)
            token ∈ calls pid l₂ := by
          rw [hpast]
          simp only [hr, Option.elim_some, AuthTokens.toList, List.mem_cons, List.not_mem_nil, or_false] at ht
          rcases ht with rfl | rfl
          · exact ⟨env.JWT_ACCESS_SECRET, env.JWT_ACCESS_EXPIRES_IN, by simp⟩
          · exact ⟨env.JWT_REFRESH_SECRET, env.JWT_REFRESH_EXPIRES_IN, by simp⟩
        obtain ⟨secret, expiresIn, hsign⟩ := hsign
        obtain ⟨m, hm, hmpid, hmcall⟩ := mem_calls.mp hsign
        have hsub : token.payload.sub = user.id := by
          rw [token_eq hp (mem_of_split htrace m (List.mem_cons_of_mem _ hm)) hmcall]
          rfl
        refine ⟨l₁, e, l₂, hash.plain, htrace, ?_, m, hm, hmpid.trans hepid.symm, by rw [hmcall]; rfl⟩
        rw [hsub]
        exact hstores e hecall
    · cases hr : response.stateToken with
      | none => simp [hr] at ht
      | some state =>
        simp only [hr, Option.toList_some, List.mem_singleton] at ht
        subst ht
        obtain ⟨email, password, user, -, -, -, hcalls⟩ := hstate token hr
        obtain ⟨m, hm, -, hmcall⟩ := mem_calls.mp (hcalls ▸ List.mem_cons_self)
        rw [token_eq hp hm hmcall] at hkind
        exact absurd rfl hkind

theorem stores_of_presented (hp : (api env).Reachable (.start db) p) {l₁ l₂ l₀ : List ApiEvent} {e : ApiEvent}
    (htrace : p.world.trace = l₁ ++ e :: (l₂ ++ l₀)) (hpresented : token ∈ e.req.jwts)
    (hs : serverSecret env token) (hkind : token.payload.type ≠ some "2fa_pending") (hm : Minted token l₂) :
    ∃ l₃ e' l₄ next, l₂ = l₃ ++ e' :: l₄ ∧ Stores token.payload.sub next e' ∧
      ∃ m ∈ p.world.trace, m.pid = e'.pid ∧ minted m.call = some token := by
  obtain ⟨q, k, t, hq, hqw, hk, -, hqp⟩ := System.Reachable.split hp htrace List.nil_suffix
  obtain ⟨p₀, hp₀, hp₀q, -, hissued⟩ := issued_of_presented hq hk hpresented hs
  obtain ⟨x, e', y, next, hx, hstores, m', hm'y, hpid, hm'⟩ := stores_of_issued hp₀ hissued hkind
  obtain ⟨l, hl⟩ := System.Reachable.trace_suffix hp₀q
  obtain ⟨m, hml₂, hm⟩ := hm
  obtain ⟨z, z', rfl⟩ := List.append_of_mem hml₂
  have hqtrace : q.world.trace = z ++ m :: (z' ++ l₀) := by rw [hqw]; simp
  have heq : (l ++ x) ++ e' :: y = (z ++ m :: z') ++ l₀ := by
    rw [List.append_assoc, ← hx, hl, hqw]
  have honce : ∀ e ∈ z' ++ l₀, minted e.call ≠ some token := by
    have hj : token.payload.jti ≠ none := (signsPair_of_minted hq hqtrace hm hkind).1
    have := (freshTokens hq).once
    rw [hqtrace] at this
    exact fun e he hme => this.at token hm hj ⟨e, he, hme⟩
  have hmem' : m' ∈ p.world.trace := by
    have : m' ∈ q.world.trace := by
      rw [← hl, hx]
      simp [hm'y]
    rw [hqw] at this
    exact mem_of_split htrace m' (List.mem_cons_of_mem _ this)
  rcases List.append_eq_append_iff.mp heq with ⟨a, ha, hb⟩ | ⟨a, ha, hb⟩
  · cases a with
    | nil =>
      have : m' ∈ l₀ := by
        rw [List.nil_append] at hb
        rw [← hb]
        exact List.mem_cons_of_mem _ hm'y
      exact absurd hm' (honce m' (List.mem_append_right _ this))
    | cons a₀ a =>
      obtain ⟨rfl, rfl⟩ := List.cons.inj hb
      exact ⟨l ++ x, e', a, next, ha, hstores, m', hmem', hpid, hm'⟩
  · have : m' ∈ l₀ := by
      rw [hb]
      exact List.mem_append_right _ (List.mem_cons_of_mem _ hm'y)
    exact absurd hm' (honce m' (List.mem_append_right _ this))

theorem minted_of_stores (hp : (api env).Reachable (.start db) p) {l₁ l₂ : List ApiEvent} {e : ApiEvent}
    (htrace : p.world.trace = l₁ ++ e :: l₂) (hstores : Stores id token e) : ∃ m ∈ p.world.trace,
      m.pid = e.pid ∧ minted m.call = some token ∧ token.payload.type ≠ some "2fa_pending" := by
  obtain ⟨user, -, hsign⟩ := (storesSession hp htrace hstores.storesToken).signs
  obtain ⟨m, hmem, hpid, hcall⟩ := exists_of_mem_calls htrace hsign
  refine ⟨m, hmem, hpid, by rw [hcall]; rfl, ?_⟩
  rw [token_eq hp hmem hcall]
  simp [signAsync, AuthService.sessionPayload]

theorem vouched_of_stores (hp : (api env).Reachable (.start db) p)
    (hafter : Justified AfterResets p.world.trace) {w : ApiEvent} {l₀ : List ApiEvent} (hw : ResetWrite id w)
    {l₁ l₂ : List ApiEvent} {e : ApiEvent} {next : Jwt} (htrace : p.world.trace = l₁ ++ e :: (l₂ ++ w :: l₀))
    (hstores : Stores id next e) : ∀ m ∈ p.world.trace, m.pid = e.pid → ∀ token, minted m.call = some token →
      token.payload.type ≠ some "2fa_pending" → Vouched env p.world.trace (w :: l₀) token := by
  induction hn : l₂.length using Nat.strong_induction_on generalizing l₁ l₂ e next with
  | _ n ih =>
    intro m hm hpid token hminted hkind
    have he : e ∈ p.world.trace := by simp [htrace]
    have hreq : m.req = e.req := System.Reachable.same_req hp he hm hpid
    have hsession := storesSession hp htrace hstores.storesToken
    cases hsession with
    | @persisted user access hash past sub op plain issues other history =>
      obtain ⟨row, hcall⟩ := hstores.persisted op
      rcases (htrace ▸ hafter).at id hash row hcall l₂ w l₀ rfl hw with
        ⟨hsignsIn, hchecks⟩ | ⟨presented, hreissues, hpkind, hpminted⟩
      · obtain ⟨a, b, hab⟩ := List.append_of_mem hm
        obtain ⟨-, user, past, -, hsigns, hissues⟩ := signsPair_of_minted hp hab hminted hkind
        obtain ⟨check, hmem, hcheck⟩ := hissues.checks (hreq ▸ hsignsIn)
        refine .signIn hab hminted hsigns hissues hmem hcheck ⟨hreq ▸ hsignsIn, ?_⟩
        intro e' he' hpid'
        rw [hreq]
        exact hchecks e' he' (hpid'.trans hpid)
      · obtain ⟨c, honboarding, hc⟩ : ∃ c, e.req.onboarding = some c ∧ c.token = some presented := by
          have hbind : e.req.onboarding.bind Credentials.token = some presented := by
            cases hr : e.req <;> rw [hr] at hreissues <;> first | exact hreissues | exact absurd hr (other _)
          exact Option.bind_eq_some_iff.mp hbind
        obtain ⟨hsecret, hsub⟩ := presented_by_onboarding hp htrace issues history honboarding hc
        rw [sub] at hsub
        obtain ⟨l₃, e', l₄, next', rfl, hstores', m', hm', hpid', hminted'⟩ := stores_of_presented hp htrace
          (mem_jwts_of_credentials (credentials_of_onboarding honboarding) hc) (.inl hsecret) hpkind hpminted
        rw [hsub] at hstores'
        have htrace' : p.world.trace = (l₁ ++ e :: l₃) ++ e' :: (l₄ ++ w :: l₀) := by simp [htrace]
        have hchain := ih l₄.length (by simp [← hn]; omega) htrace' hstores' rfl m' hm' hpid'
          presented hminted' hpkind
        exact .reissue hm hminted (hreq ▸ hreissues) hchain
    | @rotated user access current currentHash nextHash past sub op plain issues request stored
        currentPlain history =>
      obtain ⟨-, -, t, -, -, -, ha, -⟩ := System.Reachable.split hp htrace List.nil_suffix
      obtain ⟨-, hbefore, next', -, hnext⟩ := accepted hp htrace (hstores.rotated op request) ha
      have hsub : current.payload.sub = id := by
        rw [hstores.storesToken] at hnext
        cases hnext
        rfl
      rw [hsub] at hbefore
      obtain ⟨l₃, e', l₄, rfl, hstores'⟩ := stored_since_reset hp htrace hw hbefore
      have htrace' : p.world.trace = (l₁ ++ e :: l₃) ++ e' :: (l₄ ++ w :: l₀) := by simp [htrace]
      obtain ⟨m', hm', hpid', hminted', hkind'⟩ := minted_of_stores hp htrace' hstores'
      have hchain := ih l₄.length (by simp [← hn]; omega) htrace' hstores' rfl m' hm' hpid'
        current hminted' hkind'
      exact .reissue hm hminted (by rw [hreq, request]; rfl) hchain

/-- After a password reset of the user, in a run whose unconditional session writes go back to nothing
before it, a refresh only accepts tokens that are vouched for. -/
theorem reset_revokes_sessions (hp : (api env).Reachable (.start db) p)
    (hafter : Justified AfterResets p.world.trace) {l₁ l₂ l₀ : List ApiEvent} {e w : ApiEvent}
    (htrace : p.world.trace = l₁ ++ e :: (l₂ ++ w :: l₀)) (hw : ResetWrite id w)
    (haccepts : accepts token e = true)
    (hsub : token.payload.sub = id) : Vouched env p.world.trace (w :: l₀) token := by
  obtain ⟨-, -, t, -, -, -, ha, -⟩ := System.Reachable.split hp htrace List.nil_suffix
  have hbefore := (accepted hp htrace haccepts ha).before
  rw [hsub] at hbefore
  obtain ⟨l₃, e', l₄, rfl, hstores⟩ := stored_since_reset hp htrace hw hbefore
  have htrace' : p.world.trace = (l₁ ++ e :: l₃) ++ e' :: (l₄ ++ w :: l₀) := by simp [htrace]
  obtain ⟨m, hm, hpid, hminted, hkind⟩ := minted_of_stores hp htrace' hstores
  exact vouched_of_stores hp hafter hw htrace' hstores m hm hpid token hminted hkind

theorem Issues.signsIn {req : Request} {user : User} {past : List ApiCall} (h : Issues env req user past)
    (hreq : req.onboarding = none) (other : ∀ token, req ≠ .refresh token) : req.signsIn = true := by
  cases h with
  | refresh admitted stored matching => exact absurd rfl (other _)
  | onboarding request presented admitted =>
    rw [hreq] at request
    cases request
  | _ => rfl

theorem afterResets_of_sequential (hp : (api env).Reachable (.start db) p)
    (hseq : p.world.trace.Pairwise fun e e' => e'.pid ≤ e.pid)
    (honboarding : ∀ e ∈ p.world.trace, e.req.onboarding = none) : Justified AfterResets p.world.trace := by
  apply justified_of_split
  intro l₁ e l₂ htrace id hash row hcall l₃ w l₀ hl₂ hw
  have he : e ∈ p.world.trace := by simp [htrace]
  have hwmem : w ∈ p.world.trace := by simp [htrace, hl₂]
  have hstores : e.op.storesToken = some (id, hash.plain) := Stores.storesToken (.inl ⟨hash, row, rfl, hcall⟩)
  have hsignsIn : e.req.signsIn = true := by
    cases storesSession hp htrace hstores with
    | persisted sub op plain issues other => exact issues.signsIn (honboarding e he) other
    | rotated sub op =>
      obtain ⟨pid, req, before, rfl⟩ := Event.exists_of_call hcall
      cases op
  rw [htrace, hl₂] at hseq
  have hlt : w.pid < e.pid := by
    have hle : w.pid ≤ e.pid := (List.pairwise_cons.mp (List.pairwise_append.mp hseq).2.1).1 w (by simp)
    refine Nat.lt_of_le_of_ne hle fun heq => ?_
    obtain ⟨⟨email, otp, password, hreq⟩, -⟩ := hw
    rw [System.Reachable.same_req hp hwmem he heq.symm, hreq] at hsignsIn
    cases hsignsIn
  refine .inl ⟨hsignsIn, fun e' he' hpid => ?_⟩
  have hle : e'.pid ≤ w.pid := by
    rcases List.mem_cons.mp he' with rfl | he'
    · exact Nat.le_refl _
    · have hsuffix := (List.pairwise_cons.mp (List.pairwise_append.mp hseq).2.1).2
      exact (List.pairwise_cons.mp (List.pairwise_append.mp hsuffix).2.1).1 e' he'
  omega

section Runs

def resetDatabase : Database :=
  (sampleDatabase [{ sampleUser with two_fa_enabled := false }]).setOtps .password_reset_otps
    [{ id := 5, userId := 1, otpHash := ⟨"654321", 1⟩, expiresAt := 1700000900000, usedAt := none
       requestSource := .initial, createdAt := 1700000000000 }]

def secondRefreshToken : Jwt where
  secret := sampleEnv.JWT_REFRESH_SECRET
  payload := { AuthService.sessionPayload sampleUser with jti := some 12 }
  iat := 1700000000
  exp := 1700604800

def resetRun : Option ApiPool :=
  (api sampleEnv).play (.start resetDatabase)
    [.spawn (.resetPassword "user@example.com" "654321" "new password"),
      .run 0 {}, .run 0 {}, .run 0 {}, .run 0 {}, .run 0 {},
      .spawn (.login "user@example.com" "new password"), .run 1 {}, .run 1 {}, .run 1 {}, .run 1 {}, .run 1 {},
      .spawn (.refresh (some secondRefreshToken)), .run 2 {}, .run 2 {}, .run 2 {}, .run 2 {}, .run 2 {},
        .run 2 {}]

def staleLoginRun : Option ApiPool :=
  (api sampleEnv).play (.start resetDatabase)
    [.spawn (.login "user@example.com" "correct horse"), .run 0 {},
      .spawn (.resetPassword "user@example.com" "654321" "new password"),
      .run 1 {}, .run 1 {}, .run 1 {}, .run 1 {}, .run 1 {}]

theorem resetRun_isSome : resetRun.isSome = true := rfl

theorem staleLoginRun_isSome : staleLoginRun.isSome = true := rfl

def staleRefreshRun : Option ApiPool :=
  (api sampleEnv).play (staleLoginRun.get staleLoginRun_isSome)
    [.run 0 {}, .run 0 {}, .run 0 {}, .run 0 {}, .spawn (.refresh (some secondRefreshToken)),
      .run 2 {}, .run 2 {}, .run 2 {}, .run 2 {}, .run 2 {}, .run 2 {}]

theorem staleRefreshRun_isSome : staleRefreshRun.isSome = true := rfl

theorem vouched_in_resetRun : Vouched sampleEnv (resetRun.get resetRun_isSome).world.trace
    ((resetRun.get resetRun_isSome).world.trace.drop 11) secondRefreshToken := by
  have hp := System.reachable_of_play (Option.some_get resetRun_isSome).symm
  have hafter : Justified AfterResets (resetRun.get resetRun_isSome).world.trace := by
    refine afterResets_of_sequential hp ?_ ?_
    · rw [← List.pairwise_map (f := Event.pid) (R := fun i j => j ≤ i)]
      decide +kernel
    · have hall : ((resetRun.get resetRun_isSome).world.trace.all fun e => e.req.onboarding.isNone) = true := by
        decide +kernel
      exact fun e he => Option.isNone_iff_eq_none.mp (List.all_eq_true.mp hall e he)
  exact @reset_revokes_sessions sampleEnv resetDatabase _ 1 secondRefreshToken hp hafter []
    (((resetRun.get resetRun_isSome).world.trace.take 11).drop 1) _ _ _ rfl
    ⟨⟨_, _, _, rfl⟩, _, _, rfl⟩ (by decide +kernel) rfl

theorem refreshed_after_reset : ∃ p q l₁ l₂ l₀ e w,
    (api sampleEnv).Reachable (.start resetDatabase) p ∧
    (p.procs[1]?.map Proc.prog = some (.ret (.message SuccessMessages.PASSWORD_UPDATED))) ∧
    p.world.trace = w :: l₀ ∧ ResetWrite 1 w ∧ (api sampleEnv).Reachable p q ∧
    q.world.trace = l₁ ++ e :: (l₂ ++ w :: l₀) ∧ accepts secondRefreshToken e = true ∧
    secondRefreshToken.payload.sub = 1 ∧ ¬ Vouched sampleEnv q.world.trace (w :: l₀) secondRefreshToken := by
  have hp := System.reachable_of_play (Option.some_get staleLoginRun_isSome).symm
  have hpq := System.reachable_of_play (Option.some_get staleRefreshRun_isSome).symm
  refine ⟨_, _, [], ((staleRefreshRun.get staleRefreshRun_isSome).world.trace.take 10).drop 1, _, _, _, hp, rfl,
    rfl, ⟨⟨_, _, _, rfl⟩, _, _, rfl⟩, hpq, rfl, by decide +kernel, rfl, ?_⟩
  have hq := hp.trans hpq
  -- The only event that signs the token belongs to the login, which read its row before the reset.
  have hread : (⟨0, .login "user@example.com" "correct horse", resetDatabase,
      .findUserByEmail "user@example.com", .ok (some { sampleUser with two_fa_enabled := false })⟩ : ApiEvent) ∈
      (staleRefreshRun.get staleRefreshRun_isSome).world.trace.drop 10 := by
    exact List.mem_of_mem_drop (i := 5) List.mem_cons_self
  have hpids : (staleRefreshRun.get staleRefreshRun_isSome).world.trace.filterMap (fun e =>
      if minted e.call = some secondRefreshToken then some e.pid else none) = [0] := by decide +kernel
  have hlogin : ∀ e ∈ (staleRefreshRun.get staleRefreshRun_isSome).world.trace,
      minted e.call = some secondRefreshToken → e.pid = 0 ∧
        e.req = .login "user@example.com" "correct horse" := by
    intro e he hm
    have hpid : e.pid = 0 := by
      have hmem : e.pid ∈ [0] := by
        rw [← hpids]
        exact List.mem_filterMap.mpr ⟨e, he, if_pos hm⟩
      exact List.mem_singleton.mp hmem
    exact ⟨hpid, System.Reachable.same_req hq (List.mem_of_mem_drop hread) he hpid⟩
  intro h
  cases h with
  | @signIn l₁ l₂ e user past check token trace mints signs issues mem checks after =>
    have he := mem_of_split trace e List.mem_cons_self
    obtain ⟨hpid, hreq⟩ := hlogin e he mints
    have hnot := after.2 _ hread hpid.symm
    rw [hreq] at hnot
    cases hnot
  | reissue he mints request chain =>
    rw [(hlogin _ he mints).2] at request
    cases request

end Runs

end SkillBridge
