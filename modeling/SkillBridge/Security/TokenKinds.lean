import SkillBridge.Api.Runs

set_option autoImplicit false

/-! Which tokens the guards of the routes let through. -/

namespace SkillBridge

open Interleaving

variable {env : Env} {db : Database} {p : ApiPool}

def Admitted (env : Env) (p : ApiPool) (pid : ℕ) (c : Credentials) (user : AuthenticatedUser) : Prop :=
  ∃ proc, p.procs[pid]? = some proc ∧ proc.req.credentials = some c ∧
    ∃ l, l <+: (calls pid p.world.trace).reverse ∧ (jwtAuthGuard env c).Path l (.ok user)

def PendingAdmitted (env : Env) (p : ApiPool) (pid : ℕ) (token : Jwt) (sub : UserId) : Prop :=
  ∃ proc code, p.procs[pid]? = some proc ∧ proc.req = .verify2fa (some token) code ∧
    ∃ l, l <+: (calls pid p.world.trace).reverse ∧ (twoFaPendingGuard env (some token)).Path l (.ok sub)

def AccessMinted (env : Env) (token : Jwt) (userId : UserId) (l : List ApiEvent) : Prop :=
  ∃ e ∈ l, ∃ user : User, user.id = userId ∧ e.call = done (accessSign env user) token

def StateMinted (env : Env) (token : Jwt) (userId : UserId) (l : List ApiEvent) : Prop :=
  ∃ e ∈ l, (∃ email password, e.req = .login email password) ∧
    ∃ user : User, user.id = userId ∧ e.call = done (stateSign env user) token

theorem path_jwtAuthGuard {c : Credentials} {l : List ApiCall} {user : AuthenticatedUser}
    (h : (jwtAuthGuard env c).Path l (.ok user)) : ∃ token now payload row, c.token = some token ∧
      token.verify env.JWT_ACCESS_SECRET now = .ok payload ∧ user.sub = row.id ∧
      l = [done .dateNow now, done (.findUser none payload.sub) (some row)] := by
  obtain ⟨token, now, payload, row, ht, hv, hu, hl⟩ :=
    h.result (jwtAuthGuard_along (G := fun _ _ => True) (fun _ _ _ => trivial) c) user rfl
  refine ⟨token, now, payload, row, ht, hv, by rw [hu], ?_⟩
  rw [List.append_nil, List.reverse_eq_iff] at hl
  exact hl

theorem path_twoFaPendingGuard {token : Jwt} {l : List ApiCall} {sub : UserId}
    (h : (twoFaPendingGuard env (some token)).Path l (.ok sub)) : ∃ now payload,
      token.verify env.JWT_ACCESS_SECRET now = .ok payload ∧ payload.type = some "2fa_pending" ∧
      sub = payload.sub := by
  obtain ⟨token', now, payload, ht, hv, hp, hs, -⟩ :=
    h.result (@twoFaPendingGuard_along env (.verify2fa (some token) "") (some token)) sub rfl
  cases ht
  exact ⟨now, payload, hv, hp, hs⟩

theorem mem_jwts_of_credentials {req : Request} {c : Credentials} {token : Jwt}
    (h : req.credentials = some c) (ht : c.token = some token) : token ∈ req.jwts := by
  have hmem : token ∈ c.accessCookie.toList ++ c.authorization.toList := by
    cases hc : c.accessCookie with
    | none => simpa [Credentials.token, hc] using ht
    | some cookie =>
      rw [Credentials.token, hc] at ht
      cases ht
      simp
  cases req <;> first | (cases h; exact hmem) | cases h

theorem AccessMinted.type_eq (hp : (api env).Reachable (.start db) p) {token : Jwt} {userId : UserId}
    (h : AccessMinted env token userId p.world.trace) : token.payload.type = none := by
  obtain ⟨e, he, user, -, hcall⟩ := h
  rw [token_eq hp he hcall]
  rfl

theorem minted_cases (hsecrets : env.JWT_ACCESS_SECRET ≠ env.JWT_REFRESH_SECRET)
    (hp : (api env).Reachable (.start db) p) {token : Jwt} (hm : Minted token p.world.trace)
    (hs : token.secret = env.JWT_ACCESS_SECRET) :
    AccessMinted env token token.payload.sub p.world.trace ∨
      StateMinted env token token.payload.sub p.world.trace ∧ token.payload.type = some "2fa_pending" := by
  obtain ⟨e, he, hminted⟩ := hm
  obtain ⟨l₁, l₂, -, hsigned⟩ := signedBy (explained hp) he hminted
  cases hsigned with
  | @access user hcall issues => exact .inl ⟨e, he, user, by rw [token_eq hp he hcall]; rfl, hcall⟩
  | refresh hcall issues =>
    rw [token_eq hp he hcall] at hs
    exact absurd hs.symm hsecrets
  | @state user email password hcall request verified enabled =>
    refine .inr ⟨⟨e, he, ⟨email, password, request⟩, user, ?_, hcall⟩, ?_⟩
    · rw [token_eq hp he hcall]
      rfl
    · rw [token_eq hp he hcall]
      rfl

/-- A request is admitted to a route that is not public by an access token of the user, unless the token
that it presents is a state token; the route for state tokens takes no others, and takes them all. -/
theorem admitted_by_kind (hsecrets : env.JWT_ACCESS_SECRET ≠ env.JWT_REFRESH_SECRET)
    (hp : (api env).Reachable (.start db) p) :
    (∀ pid c user token, Admitted env p pid c user → c.token = some token →
      (AccessMinted env token user.sub p.world.trace ↔ token.payload.type ≠ some "2fa_pending")) ∧
    (∀ pid token sub, PendingAdmitted env p pid token sub → StateMinted env token sub p.world.trace) ∧
    (∀ token sub now, StateMinted env token sub p.world.trace → now / 1000 < token.exp →
      (twoFaPendingGuard env (some token)).Path [done .dateNow now] (.ok sub)) := by
  refine ⟨?_, ?_, ?_⟩
  · rintro pid c user token ⟨proc, hproc, hc, l, hl, hpath⟩ ht
    obtain ⟨token', now, payload, row, ht', hverify, hsub, rfl⟩ := path_jwtAuthGuard hpath
    rw [ht] at ht'
    cases ht'
    obtain ⟨hsecret, -, rfl⟩ := Jwt.verify_eq_ok.mp hverify
    constructor
    · intro h
      rw [h.type_eq hp]
      simp
    · intro hkind
      have hminted : Minted token p.world.trace :=
        (presented hp).1 pid proc hproc token (mem_jwts_of_credentials hc ht) (.inl hsecret)
      have hrow : done (.findUser none token.payload.sub) (some row) ∈ calls pid p.world.trace := by
        rw [← List.mem_reverse]
        exact hl.subset (by simp)
      obtain ⟨e, he, -, hcall⟩ := mem_calls.mp hrow
      have hid : row.id = token.payload.sub := findById_id (findUser_eq hp he hcall)
      rw [hsub, hid]
      rcases minted_cases hsecrets hp hminted hsecret with h | h
      · exact h
      · exact absurd h.2 hkind
  · rintro pid token sub ⟨proc, code, hproc, hreq, l, hl, hpath⟩
    obtain ⟨now, payload, hverify, hkind, rfl⟩ := path_twoFaPendingGuard hpath
    obtain ⟨hsecret, -, rfl⟩ := Jwt.verify_eq_ok.mp hverify
    have hminted : Minted token p.world.trace :=
      (presented hp).1 pid proc hproc token (by rw [hreq]; simp [Request.jwts]) (.inl hsecret)
    rcases minted_cases hsecrets hp hminted hsecret with h | h
    · rw [h.type_eq hp] at hkind
      cases hkind
    · exact h.1
  · rintro token sub now ⟨e, he, -, user, hid, hcall⟩ hexp
    have hpayload : token.payload.type = some "2fa_pending" ∧ token.payload.sub = sub ∧
        token.secret = env.JWT_ACCESS_SECRET := by
      rw [token_eq hp he hcall]
      exact ⟨rfl, hid, rfl⟩
    obtain ⟨htype, rfl, hsecret⟩ := hpayload
    have hverify := Jwt.verify_eq_ok.mpr ⟨hsecret, hexp, rfl⟩
    refine .call ?_
    simp only [Prog.bind, hverify, htype, if_true]
    exact .ret _

section Runs

def accessToken : Jwt where
  secret := sampleEnv.JWT_ACCESS_SECRET
  payload := { AuthService.sessionPayload sampleUser with jti := some 10 }
  iat := 1700000000
  exp := 1700000900

def refreshToken : Jwt where
  secret := sampleEnv.JWT_REFRESH_SECRET
  payload := { AuthService.sessionPayload sampleUser with jti := some 11 }
  iat := 1700000000
  exp := 1700604800

def stateToken : Jwt where
  secret := sampleEnv.JWT_ACCESS_SECRET
  payload := { sub := 1, email := none, role := none, onboardingComplete := none
               type := some "2fa_pending", jti := none }
  iat := 1700000000
  exp := 1700000300

def accessTokenRun : Option ApiPool :=
  (api sampleEnv).play (.start (sampleDatabase [{ sampleUser with two_fa_enabled := false }]))
    [.spawn (.login "user@example.com" "correct horse"), .run 0 {}, .run 0 {}, .run 0 {}, .run 0 {}, .run 0 {},
      .spawn (.me { accessCookie := some accessToken }), .run 1 {}, .run 1 {}, .run 1 {}]

def stateTokenRun : Option ApiPool :=
  (api sampleEnv).play (.start (sampleDatabase [sampleUser]))
    [.spawn (.login "user@example.com" "any password"), .run 0 {}, .run 0 {},
      .spawn (.me { authorization := some stateToken }), .run 1 {}, .run 1 {}, .run 1 {}]

theorem accessTokenRun_isSome : accessTokenRun.isSome = true := rfl

theorem stateTokenRun_isSome : stateTokenRun.isSome = true := rfl

theorem admitted_by_access_token :
    AccessMinted sampleEnv accessToken 1 (accessTokenRun.get accessTokenRun_isSome).world.trace := by
  have hp := System.reachable_of_play (Option.some_get accessTokenRun_isSome).symm
  refine ((admitted_by_kind (by decide) hp).1 1 { accessCookie := some accessToken }
    ⟨1, "user@example.com", .talent, false⟩ accessToken ?_ rfl).mpr (by decide)
  refine ⟨_, List.getElem?_eq_getElem (by decide +kernel), rfl, [done .dateNow (1700000000000 : ℕ),
    done (.findUser none 1) (some { sampleUser with
      two_fa_enabled := false, refreshTokenHash := some ⟨refreshToken, 12⟩ })], ⟨_, rfl⟩, ?_⟩
  exact .call (.call (.ret _))

theorem admitted_by_state_token : ∃ p, (api sampleEnv).Reachable (.start (sampleDatabase [sampleUser])) p ∧
    Admitted sampleEnv p 1 { authorization := some stateToken } ⟨1, "user@example.com", .talent, false⟩ ∧
    (p.procs[1]?.map Proc.prog = some (.ret (.profile (AuthService.toAuthUser sampleUser)))) ∧
    ¬ AccessMinted sampleEnv stateToken 1 p.world.trace := by
  have hp := System.reachable_of_play (Option.some_get stateTokenRun_isSome).symm
  refine ⟨_, hp, ?_, rfl, fun h => ?_⟩
  · refine ⟨_, List.getElem?_eq_getElem (by decide +kernel), rfl, [done .dateNow (1700000000000 : ℕ),
      done (.findUser none 1) (some sampleUser)], ⟨_, rfl⟩, ?_⟩
    exact .call (.call (.ret _))
  · have := h.type_eq hp
    revert this
    decide

end Runs

end SkillBridge
