import SkillBridge.Security.ConfirmedSecret

set_option autoImplicit false

/-! Every user has one session column, whichever devices the user has signed in on. -/

namespace SkillBridge

open Interleaving Database Prog

variable {env : Env} {db : Database} {p : ApiPool} {token : Jwt} {id : UserId}

def LastSession (id : UserId) (token : Jwt) (l : List ApiEvent) : Prop :=
  ∃ l₁ e l₂, l = l₁ ++ e :: l₂ ∧ sessionWrite id e.call = some (some token) ∧ ∀ e' ∈ l₁, sessionWrite id e'.call = none

/-- `refresh` never refuses the token, and accepts it at once unless an onboarding holds the row. -/
structure AcceptedByRefresh (env : Env) (token : Jwt) (db : Database) : Prop where
  never_refused : (AuthService.refresh env (some token)).Wlp server.reliable (fun result _ => ∃ r, result = .ok r) db
  accepted : (db.others none).any (Write.locks token.payload.sub) = false →
    (AuthService.refresh env (some token)).Wp server.reliable (fun result _ => ∃ r, result = .ok r) db

def lastSession (id : UserId) (l : List ApiEvent) : Option (Option Jwt) := l.findSome? fun e => sessionWrite id e.call

theorem lastSession_iff {l : List ApiEvent} : lastSession id l = some (some token) ↔ LastSession id token l :=
  List.findSome?_eq_some_iff

theorem lastSession_cons (id : UserId) (e : ApiEvent) (l : List ApiEvent) :
    lastSession id (e :: l) = (sessionWrite id e.call).or (lastSession id l) := by
  unfold lastSession
  rw [List.findSome?_cons]
  cases sessionWrite id e.call <;> rfl

theorem storedToken_eq (hp : (api env).Reachable (.start db) p) (id : UserId) :
    storedToken p.world.state id = (lastSession id p.world.trace).getD (storedToken db id) := by
  refine System.Reachable.invariant (I := fun w => storedToken w.state id = (lastSession id w.trace).getD
    (storedToken db id)) (C := fun _ _ => True) rfl (fun m w h => h) ?_ hp (justified_of_split fun _ _ _ _ => trivial)
  intro w pid req o reply t h ha _
  change storedToken t id = (lastSession id (⟨pid, req, w.state, o, reply⟩ :: w.trace)).getD _
  rw [(answers_effect ha).session id, h, lastSession_cons]
  change _ = ((sessionWrite id ⟨o, reply⟩).or (lastSession id w.trace)).getD _
  cases sessionWrite id ⟨o, reply⟩ <;> rfl

section Issued

variable {pid : ℕ} {proc : Proc backend Request Response} {response : Response} {tokens : AuthTokens}

/-- The last call of a request that hands out tokens: it has stored the refresh token, or found no row. -/
theorem stored_of_granted (hp : (api env).Reachable (.start db) p) (hproc : p.procs[pid]? = some proc)
    (hret : proc.prog = .ret response) (htokens : response.authTokens = some tokens) :
    tokens.refreshToken.secret = env.JWT_REFRESH_SECRET ∧ ∃ l₁ e l₂, p.world.trace = l₁ ++ e :: l₂ ∧
      (sessionWrite tokens.refreshToken.payload.sub e.call = some (some tokens.refreshToken) ∨
        ∃ payload, e.call = done (.updateUser tokens.refreshToken.payload.sub payload) none) := by
  have hsigned : ∀ user, done (refreshSign env user) tokens.refreshToken ∈ calls pid p.world.trace →
      tokens.refreshToken.secret = env.JWT_REFRESH_SECRET ∧ tokens.refreshToken.payload.sub = user.id := by
    intro user hmem
    obtain ⟨e, he, -, hcall⟩ := mem_calls.mp hmem
    rw [token_eq hp he hcall]
    exact ⟨rfl, rfl⟩
  have hplain : ∀ hash, done (.hashToken tokens.refreshToken) hash ∈ calls pid p.world.trace →
      hash.plain = tokens.refreshToken := by
    intro hash hmem
    obtain ⟨e, he, -, hcall⟩ := mem_calls.mp hmem
    exact plain_of_hashed hp he hcall
  have hgranted := (outcome hp hproc hret).1 tokens htokens
  generalize hcalls : calls pid p.world.trace = past at hgranted hsigned hplain
  cases hgranted with
  | @session user hash updated past issues other =>
    obtain ⟨hsecret, hsub⟩ := hsigned user (by simp)
    obtain ⟨l₁, e, l₂, htrace, -, hcall, -, -⟩ := exists_of_calls (A := []) hcalls
    refine ⟨hsecret, l₁, e, l₂, htrace, ?_⟩
    rw [hcall, hsub]
    cases updated with
    | none => exact .inr ⟨_, rfl⟩
    | some row =>
      left
      rw [← hplain hash (by simp)]
      exact if_pos rfl
  | @refresh user currentHash nextHash presented past request issues stored =>
    obtain ⟨hsecret, hsub⟩ := hsigned user (by simp)
    obtain ⟨l₁, e, l₂, htrace, -, hcall, -, -⟩ := exists_of_calls (A := []) hcalls
    refine ⟨hsecret, l₁, e, l₂, htrace, .inl ?_⟩
    rw [hcall, hsub, ← hplain nextHash (by simp)]
    exact if_pos rfl

theorem lastSession_of_stored (hp : (api env).Reachable (.start db) p) (hproc : p.procs[pid]? = some proc)
    (hret : proc.prog = .ret response) (htokens : response.authTokens = some tokens)
    (hstored : storedToken p.world.state tokens.refreshToken.payload.sub = some tokens.refreshToken) :
    LastSession tokens.refreshToken.payload.sub tokens.refreshToken p.world.trace := by
  obtain ⟨-, l₁, e, l₂, htrace, hwrite⟩ := stored_of_granted hp hproc hret htokens
  generalize tokens.refreshToken = token at hstored hwrite
  rw [storedToken_eq hp] at hstored
  cases hlast : lastSession token.payload.sub p.world.trace with
  | some written =>
    rw [hlast] at hstored
    exact lastSession_iff.mp (hlast.trans (congrArg some hstored))
  | none =>
    have hnone := List.findSome?_eq_none_iff.mp hlast
    rcases hwrite with hwrite | ⟨payload, hcall⟩
    · rw [hnone e (by rw [htrace]; simp)] at hwrite
      cases hwrite
    · -- without a write to the session so far, the row that was missing would hold the token
      obtain ⟨q, k, t, hq, hw, -, ha, -⟩ := System.Reachable.split hp htrace List.nil_suffix
      have hbefore : storedToken e.before token.payload.sub = some token := by
        have heq := storedToken_eq hq token.payload.sub
        rw [hw] at heq
        have hl₂ : lastSession token.payload.sub l₂ = none :=
          List.findSome?_eq_none_iff.mpr fun x hx => hnone x (by rw [htrace]; simp [hx])
        rw [heq, hl₂]
        rw [hlast] at hstored
        exact hstored
      obtain ⟨ω, hexec⟩ := exec_of_answers ha hcall
      change e.before.updateUser token.payload.sub payload = some (.ok none, t) at hexec
      unfold updateUser at hexec
      split at hexec
      · rename_i missing
        rw [storedToken, tokenOf, missing] at hbefore
        cases hbefore
      · split_ifs at hexec <;> cases hexec

end Issued

section Refresh

theorem stored_iff : storedToken db id = some token ↔ ∃ user hash, findById db.tables.users id = some user ∧
    user.refreshTokenHash = some hash ∧ hash.plain = token := by
  unfold storedToken tokenOf
  constructor
  · intro h
    obtain ⟨user, hfound, h⟩ := Option.bind_eq_some_iff.mp h
    obtain ⟨hash, hstored, hplain⟩ := Option.map_eq_some_iff.mp h
    exact ⟨user, hash, hfound, hstored, hplain⟩
  · rintro ⟨user, hash, hfound, hstored, rfl⟩
    rw [hfound, Option.bind_some, hstored, Option.map_some]

theorem rotate_eq {user : User} {hash next : Digest Jwt} (hfound : findById db.tables.users id = some user)
    (hstored : user.refreshTokenHash = some hash) : db.rotateRefreshTokenHash id hash next =
      if (db.others none).any (Write.locks id) then none else some (.ok true, db.setUsers
        (updateWhere id (fun user => { user with refreshTokenHash := some next }) db.tables.users)) := by
  simp only [rotateRefreshTokenHash, hfound, hstored, ne_eq, not_true_eq_false, if_false]

variable (hsecret : token.secret = env.JWT_REFRESH_SECRET) (hexp : db.appNow / 1000 < token.exp)

include hsecret hexp

theorem wp_refresh (hstored : storedToken db token.payload.sub = some token)
    (unlocked : (db.others none).any (Write.locks token.payload.sub) = false) :
    (AuthService.refresh env (some token)).Wp server.reliable (fun result _ => ∃ r, result = .ok r) db := by
  have hnever : ∀ e : Failure, ¬ server.reliable.failure e = true := fun _ h => Bool.false_ne_true h
  obtain ⟨user, hash, hfound, huser, rfl⟩ := stored_iff.mp hstored
  have hid : user.id = hash.plain.payload.sub := findById_id hfound
  apply wp_bind
  refine wp_perform_of_eq (fun _ => rfl) ?_ fun e he => absurd he (hnever e)
  simp only [Jwt.verify_eq_ok.mpr ⟨hsecret, hexp, rfl⟩]
  apply wp_bind
  refine wp_findUser ⟨hfound, unlocked⟩ ?_ fun e he => absurd he (hnever e)
  simp only [huser, Digest.verify, decide_true, if_true]
  apply wp_bind
  apply wp_bind
  refine wp_signAsync ?_ fun e he => absurd he (hnever e)
  apply wp_bind
  refine wp_signAsync ?_ fun e he => absurd he (hnever e)
  apply wp_bind
  refine wp_perform_of_eq (fun _ => rfl) ?_ fun e he => absurd he (hnever e)
  apply wp_bind
  rw [hid]
  refine wp_perform_of_eq (fun _ => (@rotate_eq db.tick.tick.tick _ _ _ _ hfound huser).trans (if_neg ?_)) ⟨_, rfl⟩
    fun e he => absurd he (hnever e)
  exact Bool.eq_false_iff.mp unlocked

theorem wlp_refresh (hstored : storedToken db token.payload.sub = some token) :
    (AuthService.refresh env (some token)).Wlp server.reliable (fun result _ => ∃ r, result = .ok r) db := by
  by_cases unlocked : (db.others none).any (Write.locks token.payload.sub) = false
  · exact (wp_refresh hsecret hexp hstored unlocked).wlp
  have hnever : ∀ e : Failure, ¬ server.reliable.failure e = true := fun _ h => Bool.false_ne_true h
  obtain ⟨user, hash, hfound, huser, rfl⟩ := stored_iff.mp hstored
  have hid : user.id = hash.plain.payload.sub := findById_id hfound
  apply wlp_bind
  refine wlp_perform (fun _ reply t h => ?_) fun e he => absurd he (hnever e)
  cases h
  simp only [Jwt.verify_eq_ok.mpr ⟨hsecret, hexp, rfl⟩]
  apply wlp_bind
  refine wlp_perform (fun _ reply t h => ?_) fun e he => absurd he (hnever e)
  cases h
  simp only [show findById (db.view none).users hash.plain.payload.sub = some user from hfound, huser, Digest.verify,
    decide_true, if_true]
  apply wlp_bind
  apply wlp_bind
  refine wlp_perform (fun _ reply t h => ?_) fun e he => absurd he (hnever e)
  cases h
  apply wlp_bind
  refine wlp_perform (fun _ reply t h => ?_) fun e he => absurd he (hnever e)
  cases h
  apply wlp_bind
  refine wlp_perform (fun _ reply t h => ?_) fun e he => absurd he (hnever e)
  cases h
  apply wlp_bind
  rw [hid]
  refine wlp_perform (fun _ reply t h => ?_) fun e he => absurd he (hnever e)
  have hlocked : (db.tick.tick.tick.others none).any (Write.locks hash.plain.payload.sub) = true :=
    Bool.of_not_eq_false unlocked
  have hwaits := (@rotate_eq db.tick.tick.tick _ _ _ _ hfound huser).symm.trans h
  rw [if_pos hlocked] at hwaits
  cases hwaits

theorem wp_refresh_refused (hstored : storedToken db token.payload.sub ≠ some token) :
    (AuthService.refresh env (some token)).Wp server.reliable (fun result _ => ∃ e, result = .error e) db := by
  have hnever : ∀ e : Failure, ¬ server.reliable.failure e = true := fun _ h => Bool.false_ne_true h
  apply wp_bind
  refine wp_perform_of_eq (fun _ => rfl) ?_ fun e he => absurd he (hnever e)
  simp only [Jwt.verify_eq_ok.mpr ⟨hsecret, hexp, rfl⟩]
  apply wp_bind
  refine wp_perform_of_eq (fun _ => rfl) ?_ fun e he => absurd he (hnever e)
  cases hfound : findById db.tables.users token.payload.sub with
  | none =>
    have hview : findById (db.view none).users token.payload.sub = none := hfound
    simp only [hview]
    exact ⟨_, rfl⟩
  | some user =>
    have hview : findById (db.view none).users token.payload.sub = some user := hfound
    cases huser : user.refreshTokenHash with
    | none =>
      simp only [hview, huser]
      exact ⟨_, rfl⟩
    | some hash =>
      have hne : hash.plain ≠ token := fun heq => hstored (stored_iff.mpr ⟨user, hash, hfound, huser, heq⟩)
      simp only [hview, huser, Digest.verify, hne, decide_false, Bool.false_eq_true, if_false]
      exact ⟨_, rfl⟩

theorem acceptedByRefresh_iff : AcceptedByRefresh env token db ↔ storedToken db token.payload.sub = some token := by
  constructor
  · intro h
    by_contra hstored
    obtain ⟨result, t, hexec, e, rfl⟩ := (wp_refresh_refused hsecret hexp hstored).exists_exec
    obtain ⟨r, hr⟩ := hexec.of_wlp h.never_refused
    cases hr
  · exact fun hstored => ⟨wlp_refresh hsecret hexp hstored, wp_refresh hsecret hexp hstored⟩

end Refresh

/-- A refresh token that a request has handed out is accepted until it expires exactly as long as nothing
else has written to the session of its user. -/
theorem refresh_token_accepted_iff (hp : (api env).Reachable (.start db) p) {pid : ℕ}
    {proc : Proc backend Request Response} (hproc : p.procs[pid]? = some proc) {response : Response}
    (hret : proc.prog = .ret response) {tokens : AuthTokens} (htokens : response.authTokens = some tokens)
    (hexp : p.world.state.appNow / 1000 < tokens.refreshToken.exp) :
    AcceptedByRefresh env tokens.refreshToken p.world.state ↔
      LastSession tokens.refreshToken.payload.sub tokens.refreshToken p.world.trace := by
  have hsecret := (stored_of_granted hp hproc hret htokens).1
  rw [acceptedByRefresh_iff hsecret hexp]
  constructor
  · exact lastSession_of_stored hp hproc hret htokens
  · intro hlast
    rw [storedToken_eq hp, lastSession_iff.mpr hlast, Option.getD_some]

section Runs

theorem accepted_after_accessTokenRun :
    AcceptedByRefresh sampleEnv refreshToken (accessTokenRun.get accessTokenRun_isSome).world.state := by
  have hp := System.reachable_of_play (Option.some_get accessTokenRun_isSome).symm
  have hret := List.getElem?_eq_getElem (show 0 < (accessTokenRun.get accessTokenRun_isSome).procs.length by
    decide +kernel)
  refine (@refresh_token_accepted_iff _ _ _ hp 0 _ hret _ rfl ⟨accessToken, refreshToken⟩ rfl
    (by decide +kernel)).mpr (lastSession_iff.mp ?_)
  decide +kernel

def twoDevicesRun : Option ApiPool :=
  (api sampleEnv).play (.start (sampleDatabase [{ sampleUser with two_fa_enabled := false }]))
    [.spawn (.login "user@example.com" "correct horse"), .run 0 {}, .run 0 {}, .run 0 {}, .run 0 {}, .run 0 {},
      .spawn (.login "user@example.com" "correct horse"), .run 1 {}, .run 1 {}, .run 1 {}, .run 1 {}, .run 1 {}]

theorem twoDevicesRun_isSome : twoDevicesRun.isSome = true := rfl

theorem twoDevicesRun_logins : ((twoDevicesRun.get twoDevicesRun_isSome).procs.all fun proc => match proc.req with
    | .login _ _ => true
    | _ => false) = true := by decide +kernel

theorem first_device_refused : ∃ p, (api sampleEnv).Reachable
      (.start (sampleDatabase [{ sampleUser with two_fa_enabled := false }])) p ∧
    (p.procs[0]?.bind fun proc => match proc.prog with
      | .ret response => response.authTokens
      | _ => none) = some ⟨accessToken, refreshToken⟩ ∧
    (∀ proc ∈ p.procs, ∃ email password, proc.req = .login email password) ∧
    p.world.state.appNow / 1000 < refreshToken.exp ∧ ¬ AcceptedByRefresh sampleEnv refreshToken p.world.state := by
  have hp := System.reachable_of_play (Option.some_get twoDevicesRun_isSome).symm
  refine ⟨_, hp, by decide +kernel, ?_, by decide +kernel, fun h => ?_⟩
  · intro proc hmem
    have hlogin := List.all_eq_true.mp twoDevicesRun_logins proc hmem
    split at hlogin
    · exact ⟨_, _, by assumption⟩
    · cases hlogin
  · have hstored := (acceptedByRefresh_iff rfl (by decide +kernel)).mp h
    revert hstored
    decide +kernel

end Runs

end SkillBridge
