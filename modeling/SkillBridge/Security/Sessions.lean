import SkillBridge.Api.Runs
import SkillBridge.Database.Pending

set_option autoImplicit false

/-! The refresh token whose hash a user row keeps, and the operations that change it. -/

namespace SkillBridge

open Interleaving Database

def tokenOf (users : List User) (id : UserId) : Option Jwt :=
  (findById users id).bind fun user => user.refreshTokenHash.map Digest.plain

def storedToken (db : Database) (id : UserId) : Option Jwt := tokenOf db.tables.users id

def Op.storesToken : Op → Option (UserId × Jwt)
  | updateUser id payload => payload.refreshTokenHash.join.map fun hash => (id, hash.plain)
  | rotateRefreshTokenHash id _ nextHash => some (id, nextHash.plain)
  | _ => none

theorem findById_filter (users : List User) (i id : UserId) :
    findById (users.filter fun user => user.id ≠ i) id = if id = i then none else findById users id := by
  induction users with
  | nil => simp [findById]
  | cons user users ih =>
    unfold findById at *
    by_cases hu : user.id = i
    · rw [List.filter_cons_of_neg (by simpa using hu), ih]
      split_ifs with h
      · rfl
      · rw [List.find?_cons_of_neg (by simpa using fun heq => h (heq.symm.trans hu))]
    · rw [List.filter_cons_of_pos (by simpa using hu)]
      by_cases h : user.id = id
      · rw [List.find?_cons_of_pos (by simpa using h), List.find?_cons_of_pos (by simpa using h),
          if_neg (h ▸ hu)]
      · rw [List.find?_cons_of_neg (by simpa using h), List.find?_cons_of_neg (by simpa using h), ih]

def sessionWrite (id : UserId) : ApiCall → Option (Option Jwt)
  | ⟨.updateUser i payload, .ok (some _)⟩ =>
    if i = id then payload.refreshTokenHash.map (Option.map Digest.plain) else none
  | ⟨.rotateRefreshTokenHash i _ nextHash, .ok true⟩ => if i = id then some (some nextHash.plain) else none
  | ⟨.deleteUser i, .ok _⟩ => if i = id then some none else none
  | _ => none

section Tokens

variable {users : List User} {id : UserId}

theorem tokenOf_updateWhere {f : User → User} (hf : ∀ user, (f user).id = user.id) (i : UserId) :
    tokenOf (updateWhere i f users) id = if i = id then
      (findById users id).bind fun user => (f user).refreshTokenHash.map Digest.plain else tokenOf users id := by
  unfold tokenOf
  rw [findById_updateWhere hf]
  cases hu : findById users id with
  | none => simp
  | some user =>
    have hid := findById_id hu
    by_cases h : i = id
    · simp [h, hid]
    · have hne : user.id ≠ i := fun heq => h (heq.symm.trans hid)
      simp [h, hne]

theorem tokenOf_append {user : User} (hnew : user.refreshTokenHash = none) :
    tokenOf (users ++ [user]) id = tokenOf users id := by
  unfold tokenOf findById
  rw [List.find?_append]
  cases hu : users.find? fun user => user.id = id with
  | some old => simp
  | none =>
    by_cases hid : user.id = id
    · simp [hid, hnew]
    · simp [hid]

theorem tokenOf_filter (i : UserId) :
    tokenOf (users.filter fun user => user.id ≠ i) id = if id = i then none else tokenOf users id := by
  unfold tokenOf
  rw [findById_filter]
  split_ifs <;> rfl

theorem tokenOf_apply (t : Tables) (w : Write) : tokenOf (w.apply t).users id = tokenOf t.users id := by
  cases w with
  | insertUser payload i createdAt => exact tokenOf_append rfl
  | markOnboardingComplete i =>
    refine (tokenOf_updateWhere (f := fun user => { user with onboarding_complete := true }) (fun _ => rfl) i).trans ?_
    split_ifs <;> rfl
  | _ => rfl

theorem tokenOf_foldl (ws : List Write) (t : Tables) :
    tokenOf (ws.foldl Write.apply t).users id = tokenOf t.users id := by
  induction ws generalizing t with
  | nil => rfl
  | cons w ws ih => exact (ih _).trans (tokenOf_apply t w)

end Tokens

variable {db t : Database} {o : Op} {reply : Reply o} {id : UserId} {token : Jwt}

theorem sessionWrite_unchanged (h : o.changes reply = false) : sessionWrite id ⟨o, reply⟩ = none := by
  unfold sessionWrite
  split <;> first | rfl | (rename_i heq; cases heq; cases h)

theorem storesToken_of_sessionWrite (h : sessionWrite id ⟨o, reply⟩ = some (some token)) :
    o.storesToken = some (id, token) ∧ o.changes reply = true := by
  unfold sessionWrite at h
  split at h
  · rename_i i payload row heq
    cases heq
    split_ifs at h with hi
    obtain ⟨hash, hpayload, hplain⟩ := Option.map_eq_some_iff.mp h
    obtain ⟨digest, rfl, rfl⟩ := Option.map_eq_some_iff.mp hplain
    subst hi
    exact ⟨by rw [Op.storesToken, hpayload]; rfl, rfl⟩
  · rename_i heq
    cases heq
    split_ifs at h with hi
    cases h
    exact ⟨by rw [hi]; rfl, rfl⟩
  · split_ifs at h
    cases h
  · cases h

theorem Database.Effect.session (h : Effect db o reply t) (id : UserId) :
    SkillBridge.storedToken t id = (sessionWrite id ⟨o, reply⟩).getD (SkillBridge.storedToken db id) := by
  cases h with
  | unchanged h => rw [sessionWrite_unchanged h, Option.getD_none]
  | drawn h => cases o <;> first | rfl | cases h
  | saved h => cases o <;> first | rfl | cases h
  | insertUser unique alone => exact tokenOf_append rfl
  | @updateUser i payload user found unique alone =>
    refine (tokenOf_updateWhere payload.apply_id i).trans ?_
    simp only [sessionWrite]
    split_ifs with hi
    · subst hi
      rw [found, Option.bind_some, UserPayload.apply_refreshTokenHash, storedToken, tokenOf, found, Option.bind_some]
      cases payload.refreshTokenHash <;> rfl
    · rfl
  | @rotated i currentHash nextHash user found stored =>
    refine (tokenOf_updateWhere (f := fun user => { user with refreshTokenHash := some nextHash })
      (fun _ => rfl) i).trans ?_
    simp only [sessionWrite]
    split_ifs with hi
    · subst hi
      rw [found]
      rfl
    · rfl
  | @deleteUser i =>
    refine (tokenOf_filter i).trans ?_
    simp only [sessionWrite]
    split_ifs with hi hi' hi'
    · rfl
    · exact absurd hi.symm hi'
    · exact absurd hi'.symm hi
    · rfl
  | committed => exact tokenOf_foldl _ _
  | _ => rfl

theorem Database.Effect.storedToken (h : Effect db o reply t) (ht : storedToken t id = some token) :
    SkillBridge.storedToken db id = some token ∨ o.storesToken = some (id, token) ∧ o.changes reply = true := by
  rw [h.session id] at ht
  cases hw : sessionWrite id ⟨o, reply⟩ with
  | none =>
    rw [hw] at ht
    exact .inl ht
  | some written =>
    rw [hw] at ht
    exact .inr (storesToken_of_sessionWrite (hw.trans (congrArg some ht)))

variable {env : Env} {p p₀ q r : ApiPool}

theorem stored_since (h : (api env).Reachable p₀ p) (h₀ : storedToken p₀.world.state id ≠ some token)
    (hp : storedToken p.world.state id = some token) :
    ∃ l₁ e l₂, p.world.trace = l₁ ++ e :: (l₂ ++ p₀.world.trace) ∧ e.op.storesToken = some (id, token) ∧
      e.op.changes e.reply = true := by
  induction h with
  | refl => exact absurd hp h₀
  | @tail p q hr hs ih =>
    cases hs with
    | spawn h => exact ih hp
    | @run pid req o k reply t hk h =>
      rcases (answers_effect h).storedToken hp with h | ⟨hstores, hchanges⟩
      · obtain ⟨l₁, e, l₂, htrace, he⟩ := ih h
        exact ⟨⟨pid, req, p.world.state, o, reply⟩ :: l₁, e, l₂, by
          simp only [Pool.answer, World.perform, htrace, List.cons_append], he⟩
      · obtain ⟨l, hl⟩ := System.Reachable.trace_suffix hr
        exact ⟨[], ⟨pid, req, p.world.state, o, reply⟩, l, by
          simp only [Pool.answer, World.perform, hl, List.nil_append], hstores, hchanges⟩
    | env m => exact ih hp

structure FreshTokens (w : World backend Database Request) : Prop where
  lt : ∀ e ∈ w.trace, ∀ token n, minted e.call = some token → token.payload.jti = some n → n < w.state.fresh
  once : Justified (fun e l => ∀ token, minted e.call = some token → token.payload.jti ≠ none →
    ¬ Minted token l) w.trace

theorem jti_of_minted {e : ApiEvent} {n : ℕ} (h : server.Answers e.op e.before e.reply t)
    (hm : minted e.call = some token) (hj : token.payload.jti = some n) :
    n = e.before.fresh ∧ t.fresh = e.before.fresh + 1 := by
  obtain ⟨payload, jti, secret, expiresIn, hcall⟩ := exists_of_minted hm
  obtain ⟨pid, req, before, rfl⟩ := Event.exists_of_call hcall
  rcases h with ⟨ω, hexec⟩ | ⟨_, -, herr, -⟩
  · dsimp only at hexec
    cases hexec
    cases jti with
    | true =>
      cases hj
      exact ⟨rfl, rfl⟩
    | false => cases hj
  · cases herr

theorem freshTokens (hp : (api env).Reachable (.start db) p) : FreshTokens p.world := by
  refine System.Reachable.invariant ⟨by simp, trivial⟩ ?_ ?_ hp (System.Reachable.answered hp)
  · rintro m w ⟨lt, once⟩
    exact ⟨lt, once⟩
  · rintro w pid req o reply t ⟨lt, once⟩ ha -
    have hnew : ∀ token n, minted ⟨o, reply⟩ = some token → token.payload.jti = some n →
        n = w.state.fresh ∧ t.fresh = w.state.fresh + 1 :=
      fun token n hm hj => jti_of_minted (e := ⟨pid, req, w.state, o, reply⟩) ha hm hj
    refine ⟨?_, ?_, once⟩
    · intro e he token n hm hj
      rcases List.mem_cons.mp he with rfl | he
      · obtain ⟨rfl, ht⟩ := hnew token n hm hj
        exact ht ▸ Nat.lt_succ_self _
      · exact Nat.lt_of_lt_of_le (lt e he token n hm hj) (answers_effect ha).fresh_le
    · rintro token hm hj ⟨e, he, hm'⟩
      obtain ⟨n, hn⟩ := Option.ne_none_iff_exists'.mp hj
      have hlt := lt e he token n hm' hn
      have heq := (hnew token n hm hn).1
      omega

theorem minted_once (hp : (api env).Reachable (.start db) p) {e e' : ApiEvent} (he : e ∈ p.world.trace)
    (he' : e' ∈ p.world.trace) (hm : minted e.call = some token) (hm' : minted e'.call = some token)
    (hj : token.payload.jti ≠ none) : e = e' := by
  have honce := (freshTokens hp).once
  obtain ⟨l₁, l₂, htrace⟩ := List.append_of_mem he
  rw [htrace] at he' honce
  rcases List.mem_append.mp he' with he' | he'
  · obtain ⟨l₃, l₄, rfl⟩ := List.append_of_mem he'
    rw [List.append_assoc, List.cons_append] at honce
    exact absurd ⟨e, by simp, hm⟩ (honce.at token hm' hj)
  · rcases List.mem_cons.mp he' with rfl | he'
    · rfl
    · exact absurd ⟨e', he', hm'⟩ (honce.at token hm hj)

inductive StoresSession (env : Env) (e : ApiEvent) (id : UserId) (token : Jwt) (past : List ApiCall) : Prop
  | persisted {user : User} {access : Jwt} {hash : Digest Jwt} {past' : List ApiCall} (sub : user.id = id)
      (op : e.op = .updateUser id { refreshTokenHash := some (some hash) }) (plain : hash.plain = token)
      (issues : Issues env e.req user past') (other : ∀ token, e.req ≠ .refresh token)
      (history : past = hashed env user ⟨access, token⟩ hash ++ past')
  | rotated {user : User} {access current : Jwt} {currentHash nextHash : Digest Jwt} {past' : List ApiCall}
      (sub : user.id = id) (op : e.op = .rotateRefreshTokenHash id currentHash nextHash)
      (plain : nextHash.plain = token)
      (issues : Issues env e.req user past') (request : e.req = .refresh (some current))
      (stored : user.refreshTokenHash = some currentHash) (currentPlain : currentHash.plain = current)
      (history : past = hashed env user ⟨access, token⟩ nextHash ++ past')

theorem StoresSession.signs {e : ApiEvent} {past : List ApiCall} (h : StoresSession env e id token past) :
    ∃ user, user.id = id ∧ done (refreshSign env user) token ∈ past := by
  cases h with
  | persisted sub op plain issues other history => exact ⟨_, sub, history ▸ by simp⟩
  | rotated sub op plain issues request stored currentPlain history => exact ⟨_, sub, history ▸ by simp⟩

theorem Issues.refresh_inv {current : Option Jwt} {user : User} {past : List ApiCall}
    (h : Issues env (.refresh current) user past) : ∃ token now hash, current = some token ∧
      token.verify env.JWT_REFRESH_SECRET now = .ok token.payload ∧ user.refreshTokenHash = some hash ∧
      hash.plain = token ∧ past = [done (.findUser none token.payload.sub) (some user), done .dateNow now] := by
  cases h with
  | refresh admitted stored matching =>
    obtain ⟨-, -, rfl⟩ := Jwt.verify_eq_ok.mp admitted
    exact ⟨_, _, _, rfl, admitted, stored, matching, rfl⟩
  | onboarding request presented admitted => cases request

theorem plain_of_hashed (hp : (api env).Reachable (.start db) p) {e : ApiEvent} (he : e ∈ p.world.trace)
    {hash : Digest Jwt} (h : e.call = done (.hashToken token) hash) : hash.plain = token := by
  obtain ⟨ω, t, hexec⟩ := exec_of_call hp he h
  cases hexec
  rfl

theorem storesSession (hp : (api env).Reachable (.start db) p) {l₁ l₂ : List ApiEvent} {e : ApiEvent}
    (htrace : p.world.trace = l₁ ++ e :: l₂) (h : e.op.storesToken = some (id, token)) :
    StoresSession env e id token (calls e.pid l₂) := by
  have hex : Explained env e.req e.call (calls e.pid l₂) := (htrace ▸ explained hp).at
  have hplain : ∀ next hash, done (.hashToken next) hash ∈ calls e.pid l₂ → hash.plain = next := by
    intro next hash hc
    obtain ⟨e', he', -, hcall⟩ := exists_of_mem_calls htrace hc
    exact plain_of_hashed hp he' hcall
  generalize calls e.pid l₂ = past at hex hplain
  obtain ⟨pid, req, before, op, reply⟩ := e
  cases op with
  | updateUser i payload =>
    change UserWrite env req i payload past at hex
    cases hex with
    | @session req user tokens hash past' issues other =>
      have hh : hash.plain = tokens.refreshToken := hplain _ _ (by simp)
      cases h
      exact .persisted rfl rfl rfl issues other (by rw [hh])
    | _ => simp [Op.storesToken, UsersService.UpdateUserDto.toPayload] at h
  | rotateRefreshTokenHash i currentHash nextHash =>
    obtain ⟨user, tokens, past', issues, ⟨current, hreq⟩, rfl, stored, rfl⟩ := hex
    have hh : nextHash.plain = tokens.refreshToken := hplain _ _ (by simp)
    cases h
    change req = .refresh current at hreq
    subst hreq
    obtain ⟨current, now, hash, rfl, -, hstored, hcurrent, -⟩ := issues.refresh_inv
    rw [stored] at hstored
    cases hstored
    exact .rotated rfl rfl rfl issues rfl stored hcurrent (by rw [hh])
  | _ => simp [Op.storesToken] at h

theorem not_stored_after_issue (hp₀ : (api env).Reachable (.start db) p₀) (hissued : token ∈ issued p₀)
    (hq : (api env).Reachable p₀ q) {l : List ApiEvent} (hl : q.world.trace = l ++ p₀.world.trace) :
    ∀ e ∈ l, e.op.storesToken ≠ some (id, token) := by
  intro e he hstores
  obtain ⟨proc, hproc, ht⟩ := List.mem_flatMap.mp hissued
  obtain ⟨pid, hpid⟩ := List.mem_iff_getElem?.mp hproc
  have hreach : (api env).Reachable (.start db) q := hp₀.trans hq
  cases hprog : proc.prog with
  | throw e => simp [hprog] at ht
  | call o k => simp [hprog] at ht
  | ret response =>
    rw [hprog] at ht
    obtain ⟨c, hc, hm⟩ := (outcome hp₀ hpid hprog).minted ht
    obtain ⟨e₀, he₀, hpid₀, rfl⟩ := mem_calls.mp hc
    obtain ⟨-, l', hl', hne⟩ := System.Reachable.returned hq hpid hprog
    obtain rfl : l' = l := List.append_cancel_right (hl'.symm.trans hl)
    obtain ⟨l₁, l₂, rfl⟩ := List.append_of_mem he
    have htrace : q.world.trace = l₁ ++ e :: (l₂ ++ p₀.world.trace) := by rw [hl]; simp
    obtain ⟨user, -, hsign⟩ := (storesSession hreach htrace hstores).signs
    obtain ⟨e', hmem', hpid', hcall'⟩ := exists_of_mem_calls htrace hsign
    have hmem₀ : e₀ ∈ q.world.trace := by
      rw [hl]
      exact List.mem_append_right _ he₀
    have hm' : minted e'.call = some token := by rw [hcall']; rfl
    have hj : token.payload.jti ≠ none := by
      rw [token_eq hreach hmem' hcall']
      simp [signAsync]
    obtain rfl := minted_once hreach hmem' hmem₀ hm' hm hj
    exact hne e he (hpid'.symm.trans hpid₀)

theorem stays_gone (hp₀ : (api env).Reachable (.start db) p₀) (hissued : token ∈ issued p₀)
    (hq : (api env).Reachable p₀ q) (hgone : storedToken q.world.state id ≠ some token)
    (hr : (api env).Reachable q r) : storedToken r.world.state id ≠ some token := by
  intro hstored
  obtain ⟨l₁, e, l₂, htrace, hstores, -⟩ := stored_since hr hgone hstored
  obtain ⟨l, hl⟩ := System.Reachable.trace_suffix hq
  have hnew : r.world.trace = (l₁ ++ e :: (l₂ ++ l)) ++ p₀.world.trace := by simp [htrace, ← hl]
  exact not_stored_after_issue hp₀ hissued (hq.trans hr) hnew e (by simp) hstores

theorem issued_of_presented (hp : (api env).Reachable (.start db) p) {pid : ℕ}
    {proc : Proc backend Request Response} (hproc : p.procs[pid]? = some proc) (ht : token ∈ proc.req.jwts)
    (hs : serverSecret env token) : ∃ p₀, (api env).Reachable (.start db) p₀ ∧ (api env).Reachable p₀ p ∧
      p₀.procs.length = pid ∧ token ∈ issued p₀ := by
  obtain ⟨p₀, hp₀, hp, hlen, hadmits⟩ := System.Reachable.spawned hp hproc
  have hall : admits env p₀ proc.req = true := hadmits
  simp only [admits, Bool.and_eq_true, List.all_eq_true, Bool.or_eq_true, decide_eq_true_eq] at hall
  refine ⟨p₀, hp₀, hp, hlen, (hall.1 token ht).resolve_left ?_⟩
  rintro ⟨haccess, hrefresh⟩
  rcases hs with hs | hs
  · exact haccess hs
  · exact hrefresh hs

end SkillBridge
