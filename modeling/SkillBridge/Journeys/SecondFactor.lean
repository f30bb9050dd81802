import SkillBridge.Journeys.PasswordRecovery

set_option autoImplicit false

/-! A user who has set up an authenticator is asked for its codes from then on, and gets in with them. -/

namespace SkillBridge

open Interleaving Prog Database

def Request.replacesSecret : Request → Bool
  | setup2faTotp _ | disable2fa _ _ => true
  | _ => false

def Request.endsSecondFactor : Request → Bool
  | disable2fa _ _ => true
  | _ => false

def HttpRequest.replacesSecret : HttpRequest → Bool := HttpRequest.is Request.replacesSecret

def HttpRequest.endsSecondFactor : HttpRequest → Bool := HttpRequest.is Request.endsSecondFactor

def Account.Holds (env : Env) (a : Account) (secret : String) : Prop :=
  ∃ stored, a.twoFactor.secret = some stored ∧ Encryption.decrypt env.aes env.encryptionKey stored = .ok secret

structure Account.Protected (env : Env) (a : Account) (secret : String) : Prop where
  holds : a.Holds env secret
  enabled : a.twoFactor.enabled = true
  method : a.twoFactor.method = some .totp

theorem Account.Holds.checkTotp {env : Env} {a : Account} {secret code : String} {now : ℕ} (h : a.Holds env secret) :
    a.checkTotp env code now = (do
      let valid ← env.otplib.verifySync secret code now
      if valid then pure () else .error (unauthorizedError ErrorMessages.TWO_FA_INVALID_CODE)) := by
  obtain ⟨stored, hstored, hdecrypt⟩ := h
  rw [Account.checkTotp, hstored]
  dsimp only
  rw [hdecrypt]
  rfl

namespace Account.Step

variable {env : Env} {c d : Clocks} {a b : Account} {req : Request} {result : Except Failure Response} {out : List Op}
  {credentials : Credentials} {setup : TotpSetup} {secret code email password message : String} {token : Jwt}

theorem set_up (h : a.Step env c d (.setup2faTotp credentials) (.ok (.totpSetup setup)) out b) :
    b.Holds env setup.secret := by
  cases h with
  | @setUp _ _ secret stored iv htoken passes unset h =>
    refine ⟨stored, rfl, ?_⟩
    by_cases hkey : env.encryptionKey.length = 32
    · obtain ⟨stored', hencrypt, hdecrypt⟩ := Encryption.encrypt_ok env.aes hkey iv secret
      cases h.symm.trans hencrypt
      exact hdecrypt
    · rw [Encryption.encrypt_error env.aes hkey] at h
      cases h

theorem holds (h : a.Step env c d req result out b) (hreq : req.replacesSecret = false) (ha : a.Holds env secret) :
    b.Holds env secret := by
  cases h with
  | setUp | disabled => cases hreq
  | _ => exact ha

theorem turned_on (h : a.Step env c d (.enable2faTotp credentials code) (.ok (.message message)) out b)
    (ha : a.Holds env secret) : b.Protected env secret := by
  cases h with
  | enabled => exact ⟨ha, rfl, rfl⟩

theorem protects (h : a.Step env c d req result out b) (hreq : req.endsSecondFactor = false)
    (ha : a.Protected env secret) : b.Protected env secret := by
  cases h with
  | disabled => cases hreq
  | alreadySetUp | setupFailed => exact ha
  | setUp htoken passes unset h =>
    rw [ha.method] at unset
    cases unset
  | enabled => exact ⟨ha.holds, rfl, rfl⟩
  | _ => exact ⟨ha.holds, ha.enabled, ha.method⟩

theorem asked (h : a.Step env c d (.login email password) result out b) (ha : a.Protected env secret)
    (hverified : a.profile.is_verified = true) :
    ∃ now ∈ Set.Icc c.app d.app, result = .ok (.twoFaNeeded ErrorMessages.TWO_FA_REQUIRED
      (mint env.JWT_ACCESS_SECRET { sub := a.profile.id, email := none, role := none, onboardingComplete := none
                                    type := some "2fa_pending", jti := none } (5 * 60 * 1000) now)) := by
  cases h with
  | unverified h =>
    rw [hverified] at h
    cases h
  | secondFactorNeeded verified enabled time => exact ⟨_, time, rfl⟩
  | loggedIn verified disabled | wrongPassword verified disabled =>
    rw [ha.enabled] at disabled
    cases disabled
  | lapsed hreq => cases hreq

theorem answered (h : a.Step env c d (.verify2fa (some token) code) result out b) (ha : a.Protected env secret)
    (pending : token.payload.type = some "2fa_pending") (fresh : d.app / 1000 < token.exp) :
    ∃ now ∈ Set.Icc c.app d.app, ∀ valid, env.otplib.verifySync secret code now = .ok valid →
      if valid then ∃ tokens, result = .ok (.session SuccessMessages.LOGIN a.profile tokens)
      else result = .error (unauthorizedError ErrorMessages.TWO_FA_INVALID_CODE) := by
  cases h with
  | stateTokenLapsed h =>
    obtain ⟨-, -, now, ⟨-, hle⟩, hlapsed⟩ := h
    have := Nat.div_le_div_right (c := 1000) hle
    omega
  | noStateToken passes h => exact absurd pending h
  | noSecondFactor passes pending h =>
    rcases h with h | h
    · rw [ha.enabled] at h
      cases h
    · rw [ha.method] at h
      cases h
  | secondFactorRefused passes pending enabled method time h =>
    refine ⟨_, time, fun valid hvalid => ?_⟩
    rw [ha.holds.checkTotp, hvalid] at h
    cases valid with
    | true => cases h
    | false =>
      cases h
      rfl
  | secondFactorPassed passes pending enabled method time h granted =>
    refine ⟨_, time, fun valid hvalid => ?_⟩
    rw [ha.holds.checkTotp, hvalid] at h
    cases valid with
    | true => exact ⟨_, rfl⟩
    | false => cases h
  | lapsed hreq => cases hreq

end Account.Step

variable {env : Env} {cookies : CookieEnv} {validator : Validator} {user : User} {db : Database} {p q : HttpPool}
  {early mid mid' : List Visit} {setup enable login verify : Visit} {credentials credentials' : Credentials}
  {info : TotpSetup} {code message password secret : String} {stateToken : Jwt}

/-- After the authenticator has been set up and confirmed, any password leads to the question for a code, and the
answer to the code is the authenticator's, whatever runs meanwhile that does not concern the user. -/
theorem second_factor_works (hc : db.Constraints) (hotps : ∀ table, OtpKeys table db)
    (hpending : Pending (fun w => w.references user.id = false) db)
    (found : findById db.tables.users user.id = some user)
    (single : ∀ table, (db.activeOtps table user.id).length ≤ 1) (verified : user.is_verified = true)
    (h : (reliableHttp env cookies validator).Visits (HttpRequest.OwnedBy env (db.tables.ownerOf user))
      (fun req => req.concerns env (db.tables.ownerOf user) = false) (.start db)
      (login :: (mid' ++ enable :: (mid ++ setup :: early))) p)
    (hsetup : setup.req = .validated (.setup2faTotp credentials) rfl) (hset : setup.result = .ok (.totpSetup info))
    (hmid : ∀ turn ∈ mid, turn.req.replacesSecret = false)
    (henable : enable.req = .validated (.enable2faTotp credentials' code) rfl)
    (henabled : enable.result = .ok (.message message))
    (hmid' : ∀ turn ∈ mid', turn.req.endsSecondFactor = false)
    (hlogin : login.req = .validated (.login user.email password) rfl) :
    ∃ stateToken, login.result = .ok (.twoFaNeeded ErrorMessages.TWO_FA_REQUIRED stateToken) ∧
      ∀ q verify code, (reliableHttp env cookies validator).Visits (HttpRequest.OwnedBy env (db.tables.ownerOf user))
          (fun req => req.concerns env (db.tables.ownerOf user) = false) p [verify] q →
        verify.req = .validated (.verify2fa (some stateToken) code) rfl →
        q.world.state.appNow / 1000 < stateToken.exp →
        ∃ now ∈ Set.Icc p.world.state.appNow q.world.state.appNow,
          ∀ valid, env.otplib.verifySync info.secret code now = .ok valid →
            if valid then ∃ profile tokens, verify.result = .ok (.session SuccessMessages.LOGIN profile tokens) ∧
              profile.id = user.id
            else verify.result = .error (unauthorizedError ErrorMessages.TWO_FA_INVALID_CODE) := by
  obtain ⟨hcrowd, hin⟩ := start_refined hc hotps hpending found single
  obtain ⟨hcrowd', b, hserial, hb⟩ := visits_refined hcrowd hin h
  have hidentity := (visited_identity hserial).1
  cases hserial with
  | @turn _ x _ _ hbefore hasked =>
    obtain ⟨y, y', hconfirmed, hturnedOn, hlater⟩ := hbefore.split
    obtain ⟨z, z', -, hmade, hbetween⟩ := hconfirmed.split
    have hset' := hmade.step_of_eq hsetup
    rw [hset] at hset'
    have hholds : y.account.Holds env info.secret :=
      visited_invariant (I := fun a => a.Holds env info.secret) hbetween hmid hset'.set_up Account.Step.holds
    have henabled' := hturnedOn.step_of_eq henable
    rw [henabled] at henabled'
    have hprotected : x.account.Protected env info.secret :=
      visited_invariant (I := fun a => a.Protected env info.secret) hlater hmid' (henabled'.turned_on hholds)
        Account.Step.protects
    have hlogin' := hasked.step_of_eq hlogin
    obtain ⟨_, -, hresult⟩ := hlogin'.asked hprotected (visited_verified hbefore verified)
    refine ⟨_, hresult, fun q verify code h' hverify fresh => ?_⟩
    obtain ⟨-, e, hserial', he⟩ := visits_refined hcrowd' hb.now h'
    cases hserial' with
    | turn hnone hv =>
      cases hnone
      obtain ⟨user', codes', -, hstored⟩ := he
      have hfresh := Nat.lt_of_le_of_lt (Nat.div_le_div_right hstored.app_le) fresh
      obtain ⟨now, hnow, hanswer⟩ :=
        (hv.step_of_eq hverify).answered (hlogin'.protects rfl hprotected) rfl hfresh
      refine ⟨now, ⟨hnow.1, Nat.le_trans hnow.2 hstored.app_le⟩, fun valid hvalid => ?_⟩
      have hresult' := hanswer valid hvalid
      cases valid with
      | true =>
        obtain ⟨tokens, hok⟩ := hresult'
        exact ⟨_, tokens, hok, hidentity⟩
      | false => exact hresult'

section Runs

def loginRequest (email password : String) : HttpRequest := .validated (.login email password) rfl

def firstSignInRun : Option HttpPool :=
  (reliableHttp sampleEnv {} sampleValidator).play (.start twoUsers)
    [.spawn (loginRequest "ada@example.com" "correct horse"), .spawn (loginRequest "user@example.com" "correct horse"),
      .run 0 {}, .run 1 {}, .run 0 {}, .run 0 {}, .run 0 {}, .run 0 {}]

def firstAccessToken : Jwt :=
  mint sampleEnv.JWT_ACCESS_SECRET { AuthService.sessionPayload otherUser with jti := some 10 }
    sampleEnv.JWT_ACCESS_EXPIRES_IN 1700000000000

def firstRefreshToken : Jwt :=
  mint sampleEnv.JWT_REFRESH_SECRET { AuthService.sessionPayload otherUser with jti := some 11 }
    sampleEnv.JWT_REFRESH_EXPIRES_IN 1700000000000

def authenticatorRun : Option HttpPool :=
  firstSignInRun.bind fun p => (reliableHttp sampleEnv {} sampleValidator).play p
    [.spawn (.validated (.setup2faTotp { accessCookie := firstAccessToken }) rfl), .run 2 {}, .run 1 {}, .run 2 {},
      .run 2 { text := "JBSWY3DP" }, .run 2 { bytes := List.replicate 12 7 }, .run 2 {}, .run 2 {}]

def turnedOnRun : Option HttpPool :=
  authenticatorRun.bind fun p => (reliableHttp sampleEnv {} sampleValidator).play p
    [.spawn (.validated (.enable2faTotp { accessCookie := firstAccessToken } "123456") rfl), .run 3 {}, .run 3 {},
      .run 3 {}, .run 3 {}, .run 3 {}]

def askedRun : Option HttpPool :=
  turnedOnRun.bind fun p => (reliableHttp sampleEnv {} sampleValidator).play p
    [.spawn (loginRequest "ada@example.com" "a wrong horse"), .run 4 {}, .run 4 {}]

def askedToken : Jwt :=
  mint sampleEnv.JWT_ACCESS_SECRET { sub := 2, email := none, role := none, onboardingComplete := none
                                     type := some "2fa_pending", jti := none } (5 * 60 * 1000) 1700000000000

def answeredRun : Option HttpPool :=
  askedRun.bind fun p => (reliableHttp sampleEnv {} sampleValidator).play p
    (.spawn (.validated (.verify2fa askedToken "123456") rfl) :: List.replicate 7 (.run 5 {}))

theorem firstSignInRun_isSome : firstSignInRun.isSome = true := rfl

theorem authenticatorRun_isSome : authenticatorRun.isSome = true := rfl

theorem turnedOnRun_isSome : turnedOnRun.isSome = true := rfl

theorem askedRun_isSome : askedRun.isSome = true := rfl

theorem answeredRun_isSome : answeredRun.isSome = true := rfl

def firstSignInVisit : Visit :=
  ⟨loginRequest "ada@example.com" "correct horse",
    .ok (.session SuccessMessages.LOGIN (AuthService.toAuthUser otherUser) ⟨firstAccessToken, firstRefreshToken⟩),
    calls 0 (firstSignInRun.get firstSignInRun_isSome).world.trace⟩

def authenticatorSetup : TotpSetup :=
  ⟨"otpauth://totp/SkillBridge:ada@example.com?secret=JBSWY3DP", "JBSWY3DP", SuccessMessages.TOTP_2FA_SETUP_SUCCESS⟩

def authenticatorVisit : Visit :=
  ⟨.validated (.setup2faTotp { accessCookie := firstAccessToken }) rfl, .ok (.totpSetup authenticatorSetup),
    calls 2 (authenticatorRun.get authenticatorRun_isSome).world.trace⟩

def turnedOnVisit : Visit :=
  ⟨.validated (.enable2faTotp { accessCookie := firstAccessToken } "123456") rfl,
    .ok (.message SuccessMessages.TOTP_2FA_ENABLE_SUCCESS),
    calls 3 (turnedOnRun.get turnedOnRun_isSome).world.trace⟩

def askedVisit : Visit :=
  ⟨loginRequest "ada@example.com" "a wrong horse",
    .ok (.twoFaNeeded ErrorMessages.TWO_FA_REQUIRED askedToken),
    calls 4 (askedRun.get askedRun_isSome).world.trace⟩

def answeredTokens : AuthTokens :=
  ⟨mint sampleEnv.JWT_ACCESS_SECRET { AuthService.sessionPayload otherUser with jti := some 15 }
      sampleEnv.JWT_ACCESS_EXPIRES_IN 1700000000000,
    mint sampleEnv.JWT_REFRESH_SECRET { AuthService.sessionPayload otherUser with jti := some 16 }
      sampleEnv.JWT_REFRESH_EXPIRES_IN 1700000000000⟩

def answeredVisit : Visit :=
  ⟨.validated (.verify2fa askedToken "123456") rfl,
    .ok (.session SuccessMessages.LOGIN (AuthService.toAuthUser otherUser) answeredTokens),
    calls 5 (answeredRun.get answeredRun_isSome).world.trace⟩

theorem askedVisit_visits : (reliableHttp sampleEnv {} sampleValidator).Visits
    (HttpRequest.OwnedBy sampleEnv (twoUsers.tables.ownerOf otherUser))
    (fun req => req.concerns sampleEnv (twoUsers.tables.ownerOf otherUser) = false) (.start twoUsers)
    (askedVisit :: ([] ++ turnedOnVisit :: ([] ++ authenticatorVisit :: [firstSignInVisit])))
    (askedRun.get askedRun_isSome) := by
  have hfirst := System.reachable_of_play (Option.some_get firstSignInRun_isSome).symm
  obtain ⟨p, hp, hset⟩ := Option.bind_eq_some_iff.mp (Option.some_get authenticatorRun_isSome).symm
  obtain rfl : firstSignInRun.get firstSignInRun_isSome = p := Option.get_of_eq_some _ hp
  obtain ⟨q, hq, hconfirmed⟩ := Option.bind_eq_some_iff.mp (Option.some_get turnedOnRun_isSome).symm
  obtain rfl : authenticatorRun.get authenticatorRun_isSome = q := Option.get_of_eq_some _ hq
  obtain ⟨r, hr, hasked⟩ := Option.bind_eq_some_iff.mp (Option.some_get askedRun_isSome).symm
  obtain rfl : turnedOnRun.get turnedOnRun_isSome = r := Option.get_of_eq_some _ hr
  refine .turn (.turn (.turn (.turn .start hfirst (Nat.zero_le 0) rfl rfl (foreign_of_all rfl))
    (System.reachable_of_play hset) (Nat.le_refl 2) rfl ?_ (foreign_of_all rfl))
    (System.reachable_of_play hconfirmed) (Nat.le_refl 3) rfl ?_ (foreign_of_all rfl))
    (System.reachable_of_play hasked) (Nat.le_refl 4) rfl rfl (foreign_of_all rfl)
  · exact signedFor_iff.mpr ⟨_, rfl, rfl, rfl⟩
  · exact signedFor_iff.mpr ⟨_, rfl, rfl, rfl⟩

theorem answeredVisit_visits : (reliableHttp sampleEnv {} sampleValidator).Visits
    (HttpRequest.OwnedBy sampleEnv (twoUsers.tables.ownerOf otherUser))
    (fun req => req.concerns sampleEnv (twoUsers.tables.ownerOf otherUser) = false)
    (askedRun.get askedRun_isSome) [answeredVisit] (answeredRun.get answeredRun_isSome) := by
  obtain ⟨p, hp, hplay⟩ := Option.bind_eq_some_iff.mp (Option.some_get answeredRun_isSome).symm
  obtain rfl : askedRun.get askedRun_isSome = p := Option.get_of_eq_some _ hp
  exact .turn .start (System.reachable_of_play hplay) (Nat.le_refl 5) rfl (signedFor_iff.mpr ⟨_, rfl, rfl, rfl⟩)
    (foreign_of_all rfl)

theorem second_factor_works_in_answeredRun :
    ∃ profile tokens, answeredVisit.result = .ok (.session SuccessMessages.LOGIN profile tokens) ∧
      profile.id = otherUser.id := by
  have hfound : findById twoUsers.tables.users otherUser.id = some otherUser := rfl
  obtain ⟨stateToken, hresult, hverify⟩ := second_factor_works twoUsers_constraints
    (fun table => ⟨List.nodup_nil, by simp [twoUsers, sampleDatabase]⟩) (Pending.of_idle rfl) hfound
    (fun table => Nat.zero_le 1) rfl askedVisit_visits rfl rfl (fun _ h => nomatch h) rfl rfl
    (fun _ h => nomatch h) rfl
  obtain rfl : askedToken = stateToken := by
    cases hresult
    rfl
  obtain ⟨now, -, hanswer⟩ := hverify _ _ "123456" answeredVisit_visits rfl (by decide +kernel)
  exact hanswer true rfl

end Runs

end SkillBridge
