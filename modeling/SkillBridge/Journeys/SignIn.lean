import SkillBridge.Journeys.Rules

set_option autoImplicit false

/-! The user's own requests for sessions, among any others: each is answered as by the account. -/

namespace SkillBridge

open Interleaving Prog Database

def Database.clocks (db : Database) : Clocks := ⟨db.appNow, db.dbNow⟩

/-- The request has been answered as the account answers it, and the tables hold what has become of it. -/
def Answered (env : Env) (owner : Owner) (c : Clocks) (a : Account) (req : Request)
    (result : Except Failure Response) (l : List ApiCall) (t : Database) : Prop :=
  ∃ user codes, a.Step env c t.clocks req result (sent l) (user.account codes) ∧ Stored owner user codes t.clocks t

variable {env : Env} {owner : Owner} {user : User} {codes : Codes} {c d : Clocks} {s t : Database} {l : List ApiCall}
  {a : Account} {req : Request} {result : Except Failure Response}

theorem Stored.now (h : Stored owner user codes c s) : Stored owner user codes s.clocks s :=
  ⟨h.row, h.email, h.live, h.resends, Nat.le_refl _, Nat.le_refl _⟩

theorem Stored.answered (h : Stored owner user codes d t)
    (step : a.Step env c t.clocks req result (sent l) (user.account codes)) : Answered env owner c a req result l t :=
  ⟨user, codes, step, h.now⟩

theorem Account.Grants.mono {c' d' : Clocks} {tokens : AuthTokens} (h : a.Grants env c d tokens)
    (hc : c'.app ≤ c.app) (hd : d.app ≤ d'.app) : a.Grants env c' d' tokens := by
  obtain ⟨m, ⟨hm, hm'⟩, n, ⟨hn, hn'⟩, i, j, h⟩ := h
  exact ⟨m, ⟨by omega, by omega⟩, n, ⟨by omega, by omega⟩, i, j, h⟩

theorem User.account_signIn {hash : Digest Jwt} {tokens : AuthTokens} (h : hash.plain = tokens.refreshToken) :
    User.account { user with refreshTokenHash := some hash } codes = (user.account codes).signIn tokens := by
  rw [Account.signIn, ← h]
  rfl

section Services

theorem serves_findOne {Q : Except Failure User → List ApiCall → Database → Prop} (h : Stored owner user codes c s)
    (hQ : ∀ t, Standing owner t → Stored owner user codes c t →
      Q (.ok user) (done (.findUser none owner.id) (some user) :: l) t) :
    owner.Serves Q (UsersService.findOne owner.id) l s := by
  apply serves_findUser h
  intro u hu
  exact serves_ok hu hQ

theorem serves_signTokens {Q : Except Failure AuthTokens → List ApiCall → Database → Prop}
    (h : Stored owner user codes c s)
    (hQ : ∀ t n tokens l', c.app ≤ n → (user.account codes).Grants env c { c with app := n } tokens →
      sent l' = sent l → Stored owner user codes { c with app := n } t → Q (.ok tokens) l' t) :
    owner.Serves Q (AuthService.signTokens env user) l s := by
  apply serves_signAsync h
  intro u m i hm hu
  apply serves_signAsync hu
  intro v n j hn hv
  refine serves_ok hv fun t _ ht => hQ t n _ _ (Nat.le_trans hm hn) ?_ rfl ht
  exact ⟨m, ⟨hm, hn⟩, n, ⟨Nat.le_trans hm hn, Nat.le_refl _⟩, i, j, rfl⟩

theorem serves_issueTokens {Q : Except Failure AuthResult → List ApiCall → Database → Prop} {message : String}
    (h : Stored owner user codes c s)
    (hQ : ∀ t n tokens hash l', c.app ≤ n → (user.account codes).Grants env c { c with app := n } tokens →
      hash.plain = tokens.refreshToken → sent l' = sent l →
      Stored owner { user with refreshTokenHash := some hash } codes { c with app := n } t →
      Q (.ok ⟨message, AuthService.toAuthUser user, tokens⟩) l' t) :
    owner.Serves Q (AuthService.issueTokens env user message) l s := by
  apply withstands_bind
  apply serves_signTokens h
  intro u n tokens l' hn hgrants hsent hu
  apply withstands_bind
  apply serves_hashToken hu
  intro v salt hv
  rw [hv.id_eq]
  apply serves_updateUser hv rfl rfl rfl
  intro w hw
  refine serves_ok hw fun x _ hx => serves_ok hx fun t _ ht => ?_
  exact hQ t n tokens ⟨_, salt⟩ _ hn hgrants rfl hsent ht

end Services

section Login

theorem serves_login {password : String} (h : Stored owner user codes c s) :
    owner.Serves (Answered env owner c (user.account codes) (.login owner.email password))
      (handle env (.login owner.email password)) [] s := by
  apply withstands_bind
  apply serves_findByEmail h
  intro u hu
  rw [← h.email]
  change owner.Serves _ (AuthService.loginUser env user password) _ u
  unfold AuthService.loginUser
  split_ifs with hverified henabled
  · exact serves_error hu fun t _ ht => ht.answered (.unverified hverified)
  · apply serves_signAsync hu
    intro v now i hnow hv
    refine serves_ok hv fun w _ hw => serves_ok hw fun t _ ht => ht.answered ?_
    exact .secondFactorNeeded (Bool.of_not_eq_false hverified) henabled ⟨hnow, ht.app_le⟩
  · have hverified' := Bool.of_not_eq_false hverified
    have hdisabled := Bool.eq_false_of_not_eq_true henabled
    cases hpassword : user.password with
    | none =>
      refine serves_error hu fun t _ ht => ht.answered (.wrongPassword hverified' hdisabled ?_)
      simp [User.account, hpassword]
    | some hash =>
      dsimp only
      by_cases hhash : hash.verify password = true
      · rw [if_pos hhash]
        apply withstands_bind
        apply serves_issueTokens hu
        intro v n tokens hash' l' hn hgrants hplain hsent hv
        refine serves_ok hv fun w _ hw => serves_ok hw fun t _ ht => ht.answered ?_
        rw [hsent, User.account_signIn hplain]
        refine .loggedIn hverified' hdisabled ?_ (hgrants.mono (Nat.le_refl _) ht.app_le)
        simpa [User.account, hpassword] using hhash
      · rw [if_neg hhash]
        refine serves_error hu fun t _ ht => ht.answered (.wrongPassword hverified' hdisabled ?_)
        simpa [User.account, hpassword] using hhash

end Login

section Tokens

variable {token : Jwt} {secret : String} {now : ℕ}

theorem Jwt.verify_of_lapsed (hsecret : token.secret = secret) (h : token.exp ≤ now / 1000) :
    token.verify secret now = .error .tokenExpiredError := by
  simp [Jwt.verify, hsecret, h]

theorem Jwt.verify_of_live (hsecret : token.secret = secret) (h : now / 1000 < token.exp) :
    token.verify secret now = .ok token.payload :=
  Jwt.verify_eq_ok.mpr ⟨hsecret, h, rfl⟩

theorem User.passes (hid : user.id = owner.id) (hsecret : token.secret = secret) (hsub : token.payload.sub = owner.id)
    (hc : c.app ≤ now) (hd : now ≤ d.app) (live : now / 1000 < token.exp) :
    (user.account codes).Passes c d secret token :=
  ⟨hsecret, hsub.trans hid.symm, now, ⟨hc, hd⟩, live⟩

theorem User.lapsed (hid : user.id = owner.id) (hsecret : token.secret = secret) (hsub : token.payload.sub = owner.id)
    (hc : c.app ≤ now) (hd : now ≤ d.app) (lapsed : token.exp ≤ now / 1000) :
    (user.account codes).Lapsed c d secret token :=
  ⟨hsecret, hsub.trans hid.symm, now, ⟨hc, hd⟩, lapsed⟩

theorem serves_refresh (h : Stored owner user codes c s) (hsecret : token.secret = env.JWT_REFRESH_SECRET)
    (hsub : token.payload.sub = owner.id) :
    owner.Serves (Answered env owner c (user.account codes) (.refresh (some token)))
      (handle env (.refresh (some token))) [] s := by
  apply withstands_bind
  apply serves_dateNow h
  intro u now hnow hu
  by_cases hexp : now / 1000 < token.exp
  · rw [Jwt.verify_of_live hsecret hexp]
    dsimp only
    rw [hsub]
    apply serves_findUser hu
    intro v hv
    dsimp only
    cases hstored : user.refreshTokenHash with
    | none =>
      refine serves_error hv fun t _ ht => ?_
      refine ht.answered (.refreshRevoked (User.passes h.id_eq hsecret hsub hnow ht.app_le hexp) ?_)
      simp [User.account, hstored]
    | some hash =>
      dsimp only
      by_cases hhash : hash.plain = token
      · rw [if_pos ((hash.verify_iff token).mpr hhash)]
        apply withstands_bind
        apply serves_signTokens hv
        intro w n tokens l' hn hgrants hsent hw
        apply serves_hashToken hw
        intro x salt hx
        rw [hx.id_eq]
        apply serves_rotate hx hstored
        intro y hy
        refine serves_ok hy fun z _ hz => serves_ok hz fun t _ ht => ht.answered ?_
        have hsession : User.account { user with refreshTokenHash := some ⟨tokens.refreshToken, salt⟩ } codes =
          (user.account codes).signIn tokens := User.account_signIn rfl
        change Account.Step env c t.clocks _ _ _ (sent l') _
        rw [hsent, hsession]
        refine .refreshed (User.passes h.id_eq hsecret hsub hnow (Nat.le_trans hn ht.app_le) hexp) ?_
          (hgrants.mono hnow ht.app_le)
        simp [User.account, hstored, hhash]
      · rw [if_neg (mt (hash.verify_iff token).mp hhash)]
        refine serves_error hv fun t _ ht => ?_
        refine ht.answered (.refreshReplaced (User.passes h.id_eq hsecret hsub hnow ht.app_le hexp) ?_ hhash)
        simp [User.account, hstored]
  · rw [Jwt.verify_of_lapsed hsecret (Nat.le_of_not_lt hexp)]
    refine serves_error hu fun t _ ht => ?_
    exact ht.answered (.refreshLapsed (User.lapsed h.id_eq hsecret hsub hnow ht.app_le (Nat.le_of_not_lt hexp)))

theorem serves_logout (h : Stored owner user codes c s) (hsecret : token.secret = env.JWT_REFRESH_SECRET)
    (hsub : token.payload.sub = owner.id) :
    owner.Serves (Answered env owner c (user.account codes) (.logout (some token)))
      (handle env (.logout (some token))) [] s := by
  apply withstands_bind
  apply serves_dateNow h
  intro u now hnow hu
  by_cases hexp : now / 1000 < token.exp
  · rw [Jwt.verify_of_live hsecret hexp]
    dsimp only
    rw [hsub]
    apply serves_findUser hu
    intro v hv
    dsimp only
    cases hstored : user.refreshTokenHash with
    | none =>
      refine serves_ok hv fun w _ hw => serves_ok hw fun t _ ht => ?_
      refine ht.answered (.logoutIgnored (.inr ⟨User.passes h.id_eq hsecret hsub hnow ht.app_le hexp, ?_⟩))
      simp [User.account, hstored]
    | some hash =>
      dsimp only
      by_cases hhash : hash.plain = token
      · rw [if_pos ((hash.verify_iff token).mpr hhash), hv.id_eq]
        apply serves_updateUser hv rfl rfl rfl
        intro w hw
        refine serves_ok hw fun x _ hx => serves_ok hx fun t _ ht => ht.answered ?_
        refine .loggedOut (User.passes h.id_eq hsecret hsub hnow ht.app_le hexp) ?_
        simp [User.account, hstored, hhash]
      · rw [if_neg (mt (hash.verify_iff token).mp hhash)]
        refine serves_ok hv fun w _ hw => serves_ok hw fun t _ ht => ?_
        refine ht.answered (.logoutIgnored (.inr ⟨User.passes h.id_eq hsecret hsub hnow ht.app_le hexp, ?_⟩))
        simpa [User.account, hstored] using hhash
  · rw [Jwt.verify_of_lapsed hsecret (Nat.le_of_not_lt hexp)]
    refine serves_ok hu fun v _ hv => serves_ok hv fun t _ ht => ht.answered (.logoutIgnored (.inl ?_))
    exact User.lapsed h.id_eq hsecret hsub hnow ht.app_le (Nat.le_of_not_lt hexp)

theorem serves_guarded {credentials : Credentials} {handler : AuthenticatedUser → Action Response}
    (h : Stored owner user codes c s) (hreq : req.credentials = some credentials)
    (htoken : credentials.token = some token) (hsecret : token.secret = env.JWT_ACCESS_SECRET)
    (hsub : token.payload.sub = owner.id)
    (hf : ∀ u now l, sent l = [] → c.app ≤ now → now / 1000 < token.exp →
      Stored owner user codes { c with app := now } u → owner.Serves (Answered env owner c (user.account codes) req)
        (handler ⟨owner.id, user.email, user.role, user.onboarding_complete⟩) l u) :
    owner.Serves (Answered env owner c (user.account codes) req) (guarded env [] credentials handler) [] s := by
  apply withstands_bind
  unfold jwtAuthGuard
  rw [htoken]
  apply serves_dateNow h
  intro u now hnow hu
  by_cases hexp : now / 1000 < token.exp
  · rw [Jwt.verify_of_live hsecret hexp]
    dsimp only [JwtStrategy.validate]
    rw [hsub]
    apply serves_findUser hu
    intro v hv
    refine serves_ok hv fun w _ hw => ?_
    rw [← hw.id_eq] at hf ⊢
    exact hf w now _ rfl hnow hexp hw
  · rw [Jwt.verify_of_lapsed hsecret (Nat.le_of_not_lt hexp)]
    refine serves_error hu fun t _ ht => ht.answered (.lapsed hreq htoken ?_)
    exact User.lapsed h.id_eq hsecret hsub hnow ht.app_le (Nat.le_of_not_lt hexp)

theorem serves_me {credentials : Credentials} (h : Stored owner user codes c s)
    (htoken : credentials.token = some token) (hsecret : token.secret = env.JWT_ACCESS_SECRET)
    (hsub : token.payload.sub = owner.id) :
    owner.Serves (Answered env owner c (user.account codes) (.me credentials)) (handle env (.me credentials)) [] s := by
  refine serves_guarded h rfl htoken hsecret hsub fun u now l hsent hnow hexp hu => ?_
  apply withstands_map
  apply withstands_bind
  apply serves_findOne hu
  intro v _ hv
  refine serves_ok hv fun t _ ht => ht.answered ?_
  change Account.Step env c t.clocks _ _ _ (sent l) _
  rw [hsent]
  exact .me htoken (User.passes h.id_eq hsecret hsub hnow ht.app_le hexp)

end Tokens

end SkillBridge
