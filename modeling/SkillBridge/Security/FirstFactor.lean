import SkillBridge.Security.TokenKinds

set_option autoImplicit false

/-! The password before the second factor. -/

namespace SkillBridge

open Interleaving

variable {env : Env} {db : Database} {p : ApiPool}

def Verifies (user : User) (password : String) : Prop :=
  ∃ hash, user.password = some hash ∧ hash.verify password = true

/-- `login` does not answer with a state token before it has looked at the password. -/
def PasswordFirst (user : User) (password : String) : Prop :=
  ¬ (user.is_verified = true ∧ user.two_fa_enabled = true) ∨ Verifies user password

def loginRow (e : ApiEvent) : Option (User × String) :=
  match e.req, e.call with
  | .login _ password, ⟨.findUserByEmail _, .ok (some user)⟩ => some (user, password)
  | _, _ => none

def LoginsPasswordFirst (l : List ApiEvent) : Prop :=
  ∀ e ∈ l, ∀ user password, loginRow e = some (user, password) → PasswordFirst user password

def LoggedInBy (id : UserId) (l : List ApiEvent) : Prop :=
  ∃ e ∈ l, ∃ user password, loginRow e = some (user, password) ∧ user.id = id ∧ Verifies user password

theorem loginRow_eq {e : ApiEvent} {email password : String} {user : User}
    (hreq : e.req = .login email password) (hcall : e.call = done (.findUserByEmail email) (some user)) :
    loginRow e = some (user, password) := by
  unfold loginRow
  rw [hreq, hcall]

theorem loginUser_ok {user : User} {password : String} {l : List ApiCall} {result : LoginResult}
    (h : (AuthService.loginUser env user password).Path l (.ok result)) (hfirst : PasswordFirst user password) :
    Verifies user password := by
  unfold AuthService.loginUser at h
  by_cases hv : user.is_verified = true
  · by_cases ht : user.two_fa_enabled = true
    · exact hfirst.resolve_left (not_not_intro ⟨hv, ht⟩)
    · simp only [hv, ht] at h
      cases hp : user.password with
      | none =>
        rw [hp] at h
        cases h
      | some hash =>
        by_cases hm : hash.verify password = true
        · exact ⟨hash, hp, hm⟩
        · simp only [hp, hm] at h
          cases h
  · simp only [hv] at h
    cases h

theorem loginUser_state {user : User} {password : String} (verified : user.is_verified = true)
    (enabled : user.two_fa_enabled = true) (token : Jwt) :
    (AuthService.loginUser env user password).Path [done (stateSign env user) token]
      (.ok (.twoFaNeeded ErrorMessages.TWO_FA_REQUIRED token)) := by
  simp only [AuthService.loginUser, verified, enabled]
  exact .call (.ret _)

theorem LoggedInBy.of_state (hp : (api env).Reachable (.start db) p) {l : List ApiEvent}
    (hl : l <:+ p.world.trace) (hfirst : LoginsPasswordFirst l) {token : Jwt} (hm : Minted token l)
    (htype : token.payload.type = some "2fa_pending") : LoggedInBy token.payload.sub l := by
  obtain ⟨l₀, hl₀⟩ := hl
  obtain ⟨e, he, hminted⟩ := hm
  have hex := explained hp
  rw [← hl₀] at hex
  obtain ⟨l₁, l₂, hsplit, hsigned⟩ := signedBy hex.of_append he hminted
  have hmem : ∀ e ∈ l, e ∈ p.world.trace := fun e he => hl₀ ▸ List.mem_append_right l₀ he
  cases hsigned with
  | @access user hcall issues =>
    rw [token_eq hp (hmem e he) hcall] at htype
    cases htype
  | @refresh user access past hcall issues =>
    rw [token_eq hp (hmem e he) hcall] at htype
    cases htype
  | @state user email password hcall request verified enabled history =>
    obtain ⟨e', hel, hpid, hcall'⟩ := exists_of_mem_calls hsplit (history ▸ List.mem_singleton_self _)
    have hreq : e'.req = .login email password :=
      (System.Reachable.same_req hp (hmem e he) (hmem e' hel) hpid).trans request
    have hrow : loginRow e' = some (user, password) := loginRow_eq hreq hcall'
    refine ⟨e', hel, user, password, hrow, ?_, ?_⟩
    · rw [token_eq hp (hmem e he) hcall]
      rfl
    · exact (hfirst e' hel user password hrow).resolve_left (not_not_intro ⟨verified, enabled⟩)

theorem LoggedInBy.of_verify2fa (hp : (api env).Reachable (.start db) p)
    (hfirst : LoginsPasswordFirst p.world.trace) {l₁ l₂ : List ApiEvent} {e : ApiEvent}
    {authorization : Option Jwt} {code : String} {token : Jwt} (htrace : p.world.trace = l₁ ++ e :: l₂)
    (hreq : e.req = .verify2fa authorization code) (hm : minted e.call = some token) :
    LoggedInBy token.payload.sub l₂ := by
  have hmem : ∀ e ∈ l₂, e ∈ p.world.trace := fun e he => mem_of_split htrace e (List.mem_cons_of_mem _ he)
  have he : e ∈ p.world.trace := mem_of_split htrace e List.mem_cons_self
  have key : ∀ user past, Issues env e.req user past → (∀ c ∈ past, c ∈ calls e.pid l₂) →
      LoggedInBy user.id l₂ := by
    intro user past issues hpast
    rw [hreq] at issues
    obtain ⟨state, payload, now, now', stored, secret, rfl, hverify, htype, -, -, -, rfl⟩ :=
      issues.verify2fa_inv
    obtain ⟨hsecret, -, rfl⟩ := Jwt.verify_eq_ok.mp hverify
    obtain ⟨e', he', -, hcall⟩ := mem_calls.mp (hpast (done (.findUser none state.payload.sub) (some user))
      (by simp))
    have hpresents : Presents env e.req l₂ := (htrace ▸ (presented hp).2).at
    have hminted : Minted state l₂ := hpresents state (by rw [hreq]; simp [Request.jwts]) (.inl hsecret)
    rw [findById_id (findUser_eq hp (hmem e' he') hcall)]
    exact .of_state hp ⟨l₁ ++ [e], by rw [htrace]; simp⟩ (fun e he => hfirst e (hmem e he)) hminted htype
  have hsigned : SignedBy env e token (calls e.pid l₂) := .of_explained (htrace ▸ explained hp).at hm
  cases hsigned with
  | @access user hcall issues =>
    have hsub : token.payload.sub = user.id := by
      rw [token_eq hp he hcall]
      rfl
    rw [hsub]
    exact key user _ issues fun c hc => hc
  | @refresh user access past hcall issues history =>
    have hsub : token.payload.sub = user.id := by
      rw [token_eq hp he hcall]
      rfl
    rw [hsub]
    exact key user past issues fun c hc => history ▸ List.mem_cons_of_mem _ hc
  | state hcall request =>
    rw [hreq] at request
    cases request

/-- The password comes first in every run whose logins read no row for which it does not, and a login can
succeed without the password exactly from the other rows. -/
theorem password_before_second_factor :
    (∀ user password, (∀ l result, (AuthService.loginUser env user password).Path l (.ok result) →
      Verifies user password) ↔ PasswordFirst user password) ∧
    ∀ db p, (api env).Reachable (.start db) p → LoginsPasswordFirst p.world.trace →
      (∀ token, Minted token p.world.trace → token.payload.type = some "2fa_pending" →
        LoggedInBy token.payload.sub p.world.trace) ∧
      (∀ l₁ l₂ e authorization code token, p.world.trace = l₁ ++ e :: l₂ →
        e.req = .verify2fa authorization code → minted e.call = some token →
        LoggedInBy token.payload.sub l₂) := by
  refine ⟨fun user password => ⟨fun h => ?_, fun h l result hpath => loginUser_ok hpath h⟩, ?_⟩
  · by_cases hf : user.is_verified = true ∧ user.two_fa_enabled = true
    · exact .inr (h _ _ (loginUser_state hf.1 hf.2 stateToken))
    · exact .inl hf
  · intro db p hp hfirst
    refine ⟨fun token hm ht => .of_state hp List.suffix_rfl hfirst hm ht, ?_⟩
    intro l₁ l₂ e authorization code token htrace hreq hm
    exact .of_verify2fa hp hfirst htrace hreq hm

section Runs

def twoFactorRun (password : String) : Option ApiPool :=
  (api sampleEnv).play (.start (sampleDatabase [sampleUser]))
    [.spawn (.login "user@example.com" password), .run 0 {}, .run 0 {},
      .spawn (.verify2fa (some stateToken) "123456"), .run 1 {}, .run 1 {}, .run 1 {}, .run 1 {}, .run 1 {},
      .run 1 {}, .run 1 {}]

theorem twoFactorRun_isSome : (twoFactorRun "correct horse").isSome = true := rfl

theorem twoFactorRun_isSome_of_wrong : (twoFactorRun "any password").isSome = true := by decide +kernel

theorem logged_in_by_correct_password :
    LoggedInBy 1 ((twoFactorRun "correct horse").get twoFactorRun_isSome).world.trace := by
  have hp := System.reachable_of_play (Option.some_get twoFactorRun_isSome).symm
  have hrows : ((twoFactorRun "correct horse").get twoFactorRun_isSome).world.trace.filterMap loginRow =
      [(sampleUser, "correct horse")] := by decide +kernel
  have hfirst : LoginsPasswordFirst ((twoFactorRun "correct horse").get twoFactorRun_isSome).world.trace := by
    intro e he user password hrow
    have hm := List.mem_filterMap.mpr ⟨e, he, hrow⟩
    rw [hrows, List.mem_singleton] at hm
    cases hm
    exact .inr ⟨⟨"correct horse", 0⟩, rfl, rfl⟩
  exact (password_before_second_factor.2 _ _ hp hfirst).1 stateToken (minted_iff.mpr (by decide +kernel)) rfl

theorem second_factor_without_password : ∃ p,
    (api sampleEnv).Reachable (.start (sampleDatabase [sampleUser])) p ∧
    (p.procs[1]?.bind fun proc => match proc.prog with
      | .ret response => response.authTokens
      | _ => none).isSome = true ∧
    Minted stateToken p.world.trace ∧ ¬ LoggedInBy 1 p.world.trace := by
  have hp := System.reachable_of_play (Option.some_get twoFactorRun_isSome_of_wrong).symm
  refine ⟨_, hp, by decide +kernel, minted_iff.mpr (by decide +kernel), ?_⟩
  rintro ⟨e, he, user, password, hrow, -, hash, hstored, hv⟩
  have hrows : ((twoFactorRun "any password").get twoFactorRun_isSome_of_wrong).world.trace.filterMap loginRow =
      [(sampleUser, "any password")] := by decide +kernel
  have hm := List.mem_filterMap.mpr ⟨e, he, hrow⟩
  rw [hrows, List.mem_singleton] at hm
  cases hm
  cases hstored
  revert hv
  decide

end Runs

end SkillBridge
