import SkillBridge.Security.Sessions
import SkillBridge.Security.TokenKinds

set_option autoImplicit false

/-! A refresh token is accepted once at most, and no more after a logout. -/

namespace SkillBridge

open Interleaving Database

variable {env : Env} {db t : Database} {p p₀ q : ApiPool} {token : Jwt}

def accepts (token : Jwt) (e : ApiEvent) : Bool :=
  match e.req, e.call with
  | .refresh (some presented), ⟨.rotateRefreshTokenHash _ _ _, .ok rotated⟩ => presented = token && rotated
  | _, _ => false

theorem accepts_iff {e : ApiEvent} : accepts token e = true ↔ e.req = .refresh (some token) ∧
    ∃ id currentHash nextHash, e.call = done (.rotateRefreshTokenHash id currentHash nextHash) true := by
  constructor
  · intro h
    unfold accepts at h
    split at h
    · rename_i presented id currentHash nextHash rotated hreq hcall
      obtain ⟨hpresented, hrotated⟩ := Bool.and_eq_true_iff.mp h
      obtain rfl := of_decide_eq_true hpresented
      rw [show rotated = true from hrotated] at hcall
      exact ⟨hreq, id, currentHash, nextHash, hcall⟩
    · cases h
  · rintro ⟨hreq, id, currentHash, nextHash, hcall⟩
    unfold accepts
    rw [hreq, hcall]
    exact Bool.and_eq_true_iff.mpr ⟨decide_eq_true rfl, rfl⟩

theorem storedToken_updateWhere {f : User → User} (hf : ∀ user, (f user).id = user.id) (id : UserId) :
    storedToken (db.setUsers (updateWhere id f db.tables.users)) id =
      (findById db.tables.users id).bind fun user => (f user).refreshTokenHash.map Digest.plain :=
  (tokenOf_updateWhere hf id).trans (if_pos rfl)

theorem storedToken_of_rotated {id : UserId} {currentHash nextHash : Digest Jwt}
    (h : Effect db (.rotateRefreshTokenHash id currentHash nextHash) (.ok true) t) :
    storedToken db id = some currentHash.plain ∧ storedToken t id = some nextHash.plain := by
  cases h with
  | unchanged h => cases h
  | drawn h => cases h
  | saved h fresh noUser => cases h
  | @rotated id currentHash nextHash user found stored =>
    constructor
    · rw [storedToken, tokenOf, found, Option.bind_some, stored]
      rfl
    · rw [storedToken_updateWhere (f := fun user => { user with refreshTokenHash := some nextHash })
        (fun _ => rfl), found]
      rfl

theorem storedToken_of_revoked {id : UserId} {payload : UserPayload} {updated : Option User}
    (hnull : payload.refreshTokenHash = some none)
    (h : db.updateUser id payload = some (.ok updated, t)) : storedToken t id = none := by
  unfold updateUser at h
  split at h
  · rename_i missing
    cases h
    rw [storedToken, tokenOf, missing]
    rfl
  · rename_i user found
    split_ifs at h
    all_goals cases h
    rw [storedToken_updateWhere payload.apply_id, found]
    simp [hnull]

structure Accepted (env : Env) (token : Jwt) (e : ApiEvent) (t : Database) : Prop where
  secret : token.secret = env.JWT_REFRESH_SECRET
  before : storedToken e.before token.payload.sub = some token
  after : ∃ next, storedToken t token.payload.sub = some next ∧
    e.op.storesToken = some (token.payload.sub, next)

theorem accepted (hp : (api env).Reachable (.start db) p) {l₁ l₂ : List ApiEvent} {e : ApiEvent}
    (htrace : p.world.trace = l₁ ++ e :: l₂) (h : accepts token e = true)
    (ha : server.Answers e.op e.before e.reply t) : Accepted env token e t := by
  obtain ⟨hreq, id, currentHash, nextHash, hcall⟩ := accepts_iff.mp h
  obtain ⟨pid, req, before, rfl⟩ := Event.exists_of_call hcall
  change req = .refresh (some token) at hreq
  subst hreq
  have hex : StoresSession env _ id nextHash.plain (calls pid l₂) := storesSession hp htrace rfl
  cases hex with
  | persisted sub op => cases op
  | @rotated user access current _ _ past sub op plain issues request stored currentPlain history =>
    cases op
    cases request
    obtain ⟨token, now, hash, htoken, hverify, hhash, hplain, rfl⟩ := issues.refresh_inv
    cases htoken
    obtain ⟨hsecret, -, -⟩ := Jwt.verify_eq_ok.mp hverify
    have hrow : done (.findUser none token.payload.sub) (some user) ∈ calls pid l₂ := by
      rw [history]
      simp
    obtain ⟨e', he', -, hcall'⟩ := exists_of_mem_calls htrace hrow
    have hid : user.id = token.payload.sub := findById_id (findUser_eq hp he' hcall')
    obtain rfl : id = token.payload.sub := sub.symm.trans hid
    obtain ⟨hbefore, hafter⟩ := storedToken_of_rotated (answers_effect ha)
    rw [currentPlain] at hbefore
    exact ⟨hsecret, hbefore, _, hafter, rfl⟩

theorem issued_of_accepts (hp : (api env).Reachable (.start db) p) {l₁ l₂ : List ApiEvent} {e : ApiEvent}
    (htrace : p.world.trace = l₁ ++ e :: l₂) (h : accepts token e = true) :
    ∃ p₀ q, (api env).Reachable (.start db) p₀ ∧ token ∈ issued p₀ ∧ (api env).Reachable p₀ q ∧
      q.world.trace = e :: l₂ ∧ storedToken q.world.state token.payload.sub ≠ some token ∧
      (api env).Reachable q p := by
  obtain ⟨q, k, t, hq, hw, hproc, ha, hqp⟩ := System.Reachable.split hp htrace List.nil_suffix
  obtain ⟨hsecret, -, next, hnext, hstores⟩ := accepted hp htrace h ha
  have hreq : e.req = .refresh (some token) := (accepts_iff.mp h).1
  obtain ⟨p₀, hp₀, hp₀q, -, hissued⟩ := issued_of_presented hq hproc
    (show token ∈ e.req.jwts by rw [hreq]; simp [Request.jwts]) (.inr hsecret)
  have hrun : (api env).Reachable p₀ (q.answer e.pid e.req e.op k e.reply t) := hp₀q.tail (.run hproc (hw ▸ ha))
  refine ⟨p₀, _, hp₀, hissued, hrun, ?_, ?_, hqp⟩
  · simp only [Pool.answer, World.perform, hw]
  · obtain ⟨l, hl⟩ := System.Reachable.trace_suffix hp₀q
    have hne : e.op.storesToken ≠ some (token.payload.sub, token) := by
      refine not_stored_after_issue hp₀ hissued hrun (l := e :: l) ?_ e List.mem_cons_self
      simp only [Pool.answer, World.perform, List.cons_append, hl, hw]
    intro heq
    have hsame : next = token := Option.some.inj (hnext.symm.trans heq)
    exact hne (hsame ▸ hstores)

theorem not_accepted_again (hp : (api env).Reachable (.start db) p) (hp₀ : (api env).Reachable (.start db) p₀)
    (hissued : token ∈ issued p₀) (hq : (api env).Reachable p₀ q)
    (hgone : storedToken q.world.state token.payload.sub ≠ some token) (hqp : (api env).Reachable q p)
    {l : List ApiEvent} (hl : p.world.trace = l ++ q.world.trace) : ∀ e ∈ l, accepts token e = false := by
  intro e he
  by_contra hacc
  obtain ⟨l₁, l₂, rfl⟩ := List.append_of_mem he
  have htrace : p.world.trace = l₁ ++ e :: (l₂ ++ q.world.trace) := by simpa using hl
  obtain ⟨r, k, t, hr, hw, -, ha, -⟩ := System.Reachable.split hqp htrace (List.suffix_append _ _)
  have hbefore := (accepted hp htrace (by simpa using hacc) ha).before
  have hnot := stays_gone hp₀ hissued hq hgone hr
  rw [hw] at hnot
  exact hnot hbefore

theorem accepted_once (hp : (api env).Reachable (.start db) p) {l₁ l₂ : List ApiEvent} {e : ApiEvent}
    (htrace : p.world.trace = l₁ ++ e :: l₂) (h : accepts token e = true) :
    ∀ e' ∈ l₁, accepts token e' = false := by
  obtain ⟨p₀, q, hp₀, hissued, hq, hqtrace, hgone, hqp⟩ := issued_of_accepts hp htrace h
  exact not_accepted_again hp hp₀ hissued hq hgone hqp (by rw [htrace, hqtrace])

theorem logout_event (hp : (api env).Reachable (.start db) p) {pid : ℕ}
    {proc : Proc backend Request Response} (hproc : p.procs[pid]? = some proc)
    (hreq : proc.req = .logout (some token)) (hsecret : token.secret = env.JWT_REFRESH_SECRET)
    {A B : List ApiCall} {c : ApiCall} (hc : calls pid p.world.trace = A ++ c :: B) :
    ∃ p₀ q t, ∃ e ∈ p.world.trace,
      (api env).Reachable (.start db) p₀ ∧ token ∈ issued p₀ ∧ (api env).Reachable p₀ q ∧
      e.call = c ∧ q.world.state = e.before ∧ server.Answers e.op e.before e.reply t ∧
      ∃ q' : ApiPool, (api env).Reachable q q' ∧ q'.world.state = t ∧ (api env).Reachable q' p := by
  obtain ⟨l₁, e, l₂, htrace, hpid, hcall, -, -⟩ := exists_of_calls hc
  have he : e ∈ p.world.trace := mem_of_split htrace e List.mem_cons_self
  obtain ⟨q, k, t, hq, hw, hk, ha, hqp⟩ := System.Reachable.split hp htrace List.nil_suffix
  have hlogout : e.req = .logout (some token) := (System.Reachable.req_eq hp hproc e he hpid).trans hreq
  obtain ⟨p₀, hp₀, hp₀q, -, hissued⟩ := issued_of_presented hq hk
    (show token ∈ e.req.jwts by rw [hlogout]; simp [Request.jwts]) (.inr hsecret)
  exact ⟨p₀, q, t, e, he, hp₀, hissued, hp₀q, hcall, by rw [hw], ha, _, .single (.run hk (hw ▸ ha)), rfl, hqp⟩

theorem gone_after_logout (hp : (api env).Reachable (.start db) p) {pid : ℕ}
    {proc : Proc backend Request Response} (hproc : p.procs[pid]? = some proc)
    (hreq : proc.req = .logout (some token)) {response : Response} (hret : proc.prog = .ret response) {now : ℕ}
    (hnow : done .dateNow now ∈ calls pid p.world.trace) (hexp : now / 1000 < token.exp)
    (hsecret : token.secret = env.JWT_REFRESH_SECRET) : ∃ p₀ q, (api env).Reachable (.start db) p₀ ∧
      token ∈ issued p₀ ∧ (api env).Reachable p₀ q ∧
      storedToken q.world.state token.payload.sub ≠ some token ∧ (api env).Reachable q p := by
  have hverify := Jwt.verify_eq_ok.mpr ⟨hsecret, hexp, rfl⟩
  have hevent := fun A c B => logout_event hp hproc hreq hsecret (A := A) (c := c) (B := B)
  have hout := (outcome hp hproc hret).2.2 token hreq
  generalize hcalls : calls pid p.world.trace = past at hout hnow hevent
  cases hout with
  | @rejected now' e h =>
    obtain rfl : now = now' := by
      cases List.mem_singleton.mp hnow
      rfl
    rw [hverify] at h
    cases h
  | @notCurrent now' payload row h other =>
    obtain ⟨-, -, rfl⟩ := Jwt.verify_eq_ok.mp h
    obtain ⟨p₀, q, t, e, he, hp₀, hissued, hp₀q, hcall, hstate, ha, q', hqq', -, hq'p⟩ := hevent [] _ _ rfl
    refine ⟨p₀, q, hp₀, hissued, hp₀q, ?_, hqq'.trans hq'p⟩
    have hrow : findById q.world.state.tables.users token.payload.sub = row := by
      rw [hstate]
      exact findUser_eq hp he hcall
    intro hstored
    rw [storedToken, tokenOf, hrow] at hstored
    obtain ⟨user, huser, hhash⟩ := Option.bind_eq_some_iff.mp hstored
    obtain ⟨hash, hh, hplain⟩ := Option.map_eq_some_iff.mp hhash
    exact other user hash huser hh hplain
  | @revoked now' payload user updated h =>
    obtain ⟨-, -, rfl⟩ := Jwt.verify_eq_ok.mp h
    obtain ⟨-, -, -, e, he, -, -, -, hcall, -⟩ := hevent [_] _ _ rfl
    have hid : user.id = token.payload.sub := findById_id (findUser_eq hp he hcall)
    obtain ⟨p₀, q, t, e, he, hp₀, hissued, hp₀q, hcall, hstate, ha, q', hqq', rfl, hq'p⟩ := hevent [] _ _ rfl
    refine ⟨p₀, q', hp₀, hissued, hp₀q.trans hqq', ?_, hq'p⟩
    obtain ⟨pid, req, before, rfl⟩ := Event.exists_of_call hcall
    rcases ha with ⟨ω, hexec⟩ | ⟨_, -, herr, -⟩
    · have hnone := storedToken_of_revoked rfl hexec
      rw [hid] at hnone
      rw [hnone]
      simp
    · cases herr

/-- A refresh token is accepted once at most, and no more after a logout with it that had looked at it
before it expired. -/
theorem refresh_token_accepted_once (hp : (api env).Reachable (.start db) p) (token : Jwt) :
    p.world.trace.countP (accepts token) ≤ 1 ∧
    (∀ pid proc response tokens, p.procs[pid]? = some proc → proc.req = .refresh (some token) →
      proc.prog = .ret response → response.authTokens = some tokens →
      ∃ e ∈ p.world.trace, e.pid = pid ∧ accepts token e = true) ∧
    (∀ pid proc response, ∀ now : ℕ, p.procs[pid]? = some proc → proc.req = .logout (some token) →
      proc.prog = .ret response → done .dateNow now ∈ calls pid p.world.trace → now / 1000 < token.exp →
      ∀ q l, (api env).Reachable p q → q.world.trace = l ++ p.world.trace →
        ∀ e ∈ l, accepts token e = false) := by
  refine ⟨countP_le_one fun l₁ e l₂ htrace h => accepted_once hp htrace h, ?_, ?_⟩
  · intro pid proc response tokens hproc hreq hret htokens
    have hgranted := (outcome hp hproc hret).1 tokens htokens
    generalize hcalls : calls pid p.world.trace = past at hgranted
    rw [hreq] at hgranted
    cases hgranted with
    | session issues other => exact absurd rfl (other _)
    | refresh request issues stored =>
      obtain ⟨e, he, hpid, hcall⟩ := mem_calls.mp (hcalls ▸ List.mem_cons_self)
      have : e.req = .refresh (some token) := (System.Reachable.req_eq hp hproc e he hpid).trans hreq
      exact ⟨e, he, hpid, accepts_iff.mpr ⟨this, _, _, _, hcall⟩⟩
  · intro pid proc response now hproc hreq hret hnow hexp q l hq hl e he
    by_contra hacc
    have hacc : accepts token e = true := by simpa using hacc
    have hreach : (api env).Reachable (.start db) q := hp.trans hq
    obtain ⟨l₁, l₂, rfl⟩ := List.append_of_mem he
    have htrace : q.world.trace = l₁ ++ e :: (l₂ ++ p.world.trace) := by simpa using hl
    obtain ⟨-, -, t, -, -, -, ha, -⟩ := System.Reachable.split hreach htrace List.nil_suffix
    have hsecret := (accepted hreach htrace hacc ha).secret
    obtain ⟨p₀, q', hp₀, hissued, hp₀q', hgone, hq'p⟩ :=
      gone_after_logout hp hproc hreq hret hnow hexp hsecret
    obtain ⟨l', hl'⟩ := System.Reachable.trace_suffix hq'p
    have hnot := not_accepted_again hreach hp₀ hissued hp₀q' hgone (hq'p.trans hq)
      (l := l₁ ++ e :: l₂ ++ l') (by rw [List.append_assoc, hl']; exact hl) e (by simp)
    rw [hacc] at hnot
    cases hnot

section Runs

def logoutRun : Option ApiPool :=
  (api sampleEnv).play (.start (sampleDatabase [{ sampleUser with two_fa_enabled := false }]))
    [.spawn (.login "user@example.com" "correct horse"), .run 0 {}, .run 0 {}, .run 0 {}, .run 0 {}, .run 0 {},
      .spawn (.refresh (some refreshToken)), .run 1 {}, .run 1 {}, .run 1 {}, .run 1 {}, .run 1 {}, .run 1 {},
      .spawn (.logout (some refreshToken)), .run 2 {}, .run 2 {}]

def lateLogoutRun : Option ApiPool :=
  (api sampleEnv).play (.start (sampleDatabase [{ sampleUser with two_fa_enabled := false }]))
    [.spawn (.login "user@example.com" "correct horse"), .run 0 {}, .run 0 {}, .run 0 {}, .run 0 {}, .run 0 {},
      .spawn (.refresh (some refreshToken)), .run 1 {}, .env ⟨7 * 24 * 60 * 60 * 1000, 0⟩,
      .spawn (.logout (some refreshToken)), .run 2 {}]

theorem logoutRun_isSome : logoutRun.isSome = true := rfl

theorem lateLogoutRun_isSome : lateLogoutRun.isSome = true := rfl

def lateRefreshRun : Option ApiPool :=
  (api sampleEnv).play (lateLogoutRun.get lateLogoutRun_isSome)
    [.run 1 {}, .run 1 {}, .run 1 {}, .run 1 {}, .run 1 {}]

theorem lateRefreshRun_isSome : lateRefreshRun.isSome = true := rfl

theorem accepted_once_in_logoutRun :
    (logoutRun.get logoutRun_isSome).world.trace.countP (accepts refreshToken) = 1 ∧
    ∀ q l, (api sampleEnv).Reachable (logoutRun.get logoutRun_isSome) q →
      q.world.trace = l ++ (logoutRun.get logoutRun_isSome).world.trace →
      ∀ e ∈ l, accepts refreshToken e = false := by
  have hp := System.reachable_of_play (Option.some_get logoutRun_isSome).symm
  obtain ⟨honce, haccepted, hlogout⟩ := refresh_token_accepted_once hp refreshToken
  refine ⟨Nat.le_antisymm honce ?_, ?_⟩
  · obtain ⟨e, he, -, hacc⟩ := haccepted 1 _ _ _ (List.getElem?_eq_getElem (by decide +kernel)) rfl rfl rfl
    exact List.countP_pos_iff.mpr ⟨e, he, hacc⟩
  · exact hlogout 2 _ _ 1700000000000 (List.getElem?_eq_getElem (by decide +kernel)) rfl rfl
      (List.mem_cons_of_mem _ List.mem_cons_self) (by decide)

theorem accepted_after_late_logout : ∃ p q l,
    (api sampleEnv).Reachable (.start (sampleDatabase [{ sampleUser with two_fa_enabled := false }])) p ∧
    (p.procs[2]?.map Proc.req = some (.logout (some refreshToken))) ∧
    (p.procs[2]?.map Proc.prog = some (.ret (.message SuccessMessages.LOGGED_OUT))) ∧
    (api sampleEnv).Reachable p q ∧ q.world.trace = l ++ p.world.trace ∧
    ∃ e ∈ l, accepts refreshToken e = true := by
  have hp := System.reachable_of_play (Option.some_get lateLogoutRun_isSome).symm
  have hq := System.reachable_of_play (Option.some_get lateRefreshRun_isSome).symm
  refine ⟨_, _, (lateRefreshRun.get lateRefreshRun_isSome).world.trace.take 5, hp, rfl, rfl, hq, rfl, ?_⟩
  exact ⟨_, List.getElem_mem (by decide +kernel : 0 < _), by decide +kernel⟩

end Runs

end SkillBridge
