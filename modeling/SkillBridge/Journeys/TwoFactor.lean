import SkillBridge.Journeys.SignIn

set_option autoImplicit false

/-! The requests about the second factor. -/

namespace SkillBridge

open Interleaving Prog Database

variable {env : Env} {owner : Owner} {user : User} {codes : Codes} {c d : Clocks} {s t : Database} {l : List ApiCall}
  {token : Jwt} {credentials : Credentials} {code : String}

theorem User.checkTotp_of_none (h : user.two_fa_totp_secret = none) (now : ℕ) :
    (user.account codes).checkTotp env code now = .error (badRequestError ErrorMessages.TWO_FA_NOT_SETUP) := by
  rw [Account.checkTotp, show (user.account codes).twoFactor.secret = none from h]

theorem User.checkTotp_of_some {stored : String} (h : user.two_fa_totp_secret = some stored) (now : ℕ) :
    (user.account codes).checkTotp env code now = (do
      let secret ← Encryption.decrypt env.aes env.encryptionKey stored
      let valid ← env.otplib.verifySync secret code now
      if valid then pure () else .error (unauthorizedError ErrorMessages.TWO_FA_INVALID_CODE)) := by
  rw [Account.checkTotp, show (user.account codes).twoFactor.secret = some stored from h]

theorem serves_checkTotp {Q : Except Failure Unit → List ApiCall → Database → Prop}
    (h : Stored owner user codes c s)
    (hQ : ∀ t now l', c.app ≤ now → sent l' = sent l → Stored owner user codes { c with app := now } t →
      Q ((user.account codes).checkTotp env code now) l' t) :
    owner.Serves Q (AuthService.checkTotp env user code) l s := by
  unfold AuthService.checkTotp
  cases hstored : user.two_fa_totp_secret with
  | none =>
    refine serves_error h fun t _ ht => ?_
    have hresult := hQ t c.app l (Nat.le_refl _) rfl ht
    rwa [User.checkTotp_of_none hstored] at hresult
  | some stored =>
    simp only [User.checkTotp_of_some hstored] at hQ
    dsimp only [decrypt, verifySync]
    generalize Encryption.decrypt env.aes env.encryptionKey stored = decrypted at hQ ⊢
    cases decrypted with
    | error e => exact serves_error h fun t _ ht => hQ t c.app l (Nat.le_refl _) rfl ht
    | ok secret =>
      apply withstands_bind
      refine serves_ok h fun u _ hu => ?_
      apply withstands_bind
      apply serves_dateNow hu
      intro v now hnow hv
      have hresult : ∀ t, Stored owner user codes { c with app := now } t →
          Q (env.otplib.verifySync secret code now >>= fun valid => if valid then pure () else
            .error (unauthorizedError ErrorMessages.TWO_FA_INVALID_CODE)) (done .dateNow now :: l) t :=
        fun t ht => hQ t now _ hnow rfl ht
      generalize env.otplib.verifySync secret code now = valid at hresult ⊢
      rcases valid with e | _ | _
      · exact serves_error hv fun t _ ht => hresult t ht
      · exact serves_ok hv fun w _ hw => serves_error hw fun t _ ht => hresult t ht
      · exact serves_ok hv fun w _ hw => serves_ok hw fun t _ ht => hresult t ht

section Handlers

variable (h : Stored owner user codes c s) (htoken : credentials.token = some token)
  (hsecret : token.secret = env.JWT_ACCESS_SECRET) (hsub : token.payload.sub = owner.id)

include h htoken hsecret hsub

theorem serves_enable2faTotp :
    owner.Serves (Answered env owner c (user.account codes) (.enable2faTotp credentials code))
      (handle env (.enable2faTotp credentials code)) [] s := by
  refine serves_guarded h rfl htoken hsecret hsub fun u now l hsent hnow hexp hu => ?_
  apply withstands_map
  apply withstands_bind
  apply serves_findOne hu
  intro v _ hv
  apply withstands_bind
  apply serves_checkTotp hv
  intro w now' l' hnow' hsent' hw
  have hsent'' : sent l' = [] := hsent'.trans hsent
  have hpasses : ∀ {t : Database}, now' ≤ t.appNow →
      (user.account codes).Passes c (clocks t) env.JWT_ACCESS_SECRET token :=
    fun hle => User.passes h.id_eq hsecret hsub hnow (Nat.le_trans hnow' hle) hexp
  have hle := Nat.le_trans hnow hnow'
  cases hcheck : (user.account codes).checkTotp env code now' with
  | error e =>
    refine hw.answered ?_
    rw [hsent'']
    exact .enableRefused htoken (hpasses hw.app_le) ⟨hle, hw.app_le⟩ hcheck
  | ok =>
    apply withstands_bind
    apply serves_updateUser hw rfl rfl rfl
    intro x hx
    refine serves_ok hx fun y _ hy => serves_ok hy fun t _ ht => ht.answered ?_
    change Account.Step env c t.clocks _ _ _ (sent l') _
    rw [hsent'']
    exact .enabled htoken (hpasses ht.app_le) ⟨hle, ht.app_le⟩ hcheck

theorem serves_disable2fa :
    owner.Serves (Answered env owner c (user.account codes) (.disable2fa credentials code))
      (handle env (.disable2fa credentials code)) [] s := by
  refine serves_guarded h rfl htoken hsecret hsub fun u now l hsent hnow hexp hu => ?_
  apply withstands_map
  apply withstands_bind
  apply serves_findOne hu
  intro v _ hv
  dsimp only
  by_cases hmethod : user.two_fa_method = some .totp
  · rw [if_pos hmethod]
    apply withstands_bind
    apply serves_checkTotp hv
    intro w now' l' hnow' hsent' hw
    have hsent'' : sent l' = [] := hsent'.trans hsent
    have hpasses : ∀ {t : Database}, now' ≤ t.appNow →
        (user.account codes).Passes c (clocks t) env.JWT_ACCESS_SECRET token :=
      fun hle => User.passes h.id_eq hsecret hsub hnow (Nat.le_trans hnow' hle) hexp
    have hle := Nat.le_trans hnow hnow'
    cases hcheck : (user.account codes).checkTotp env code now' with
    | error e =>
      refine hw.answered ?_
      rw [hsent'']
      exact .disableRefused htoken (hpasses hw.app_le) hmethod ⟨hle, hw.app_le⟩ hcheck
    | ok =>
      apply withstands_bind
      apply serves_updateUser hw rfl rfl rfl
      intro x hx
      refine serves_ok hx fun y _ hy => serves_ok hy fun t _ ht => ht.answered ?_
      change Account.Step env c t.clocks _ _ _ (sent l') _
      rw [hsent'']
      exact .disabled htoken (hpasses ht.app_le) hmethod ⟨hle, ht.app_le⟩ hcheck
  · rw [if_neg hmethod]
    refine serves_error hv fun t _ ht => ht.answered ?_
    change Account.Step env c t.clocks _ _ _ (sent l) _
    rw [hsent]
    exact .nothingToDisable htoken (User.passes h.id_eq hsecret hsub hnow ht.app_le hexp) hmethod

theorem serves_setup2faTotp :
    owner.Serves (Answered env owner c (user.account codes) (.setup2faTotp credentials))
      (handle env (.setup2faTotp credentials)) [] s := by
  refine serves_guarded h rfl htoken hsecret hsub fun u now l hsent hnow hexp hu => ?_
  have hpasses : ∀ {t : Database}, now ≤ t.appNow →
      (user.account codes).Passes c (clocks t) env.JWT_ACCESS_SECRET token :=
    fun hle => User.passes h.id_eq hsecret hsub hnow hle hexp
  apply withstands_map
  refine serves_draw hu (fun _ h => h) (fun ω t reply u hexec => ?_) fun v (secret : String) hv => ?_
  · cases hexec
    exact ⟨_, rfl⟩
  apply withstands_bind
  refine serves_draw hv (fun _ h => h) (fun ω t reply u hexec => ?_) fun w (iv : List UInt8) hw => ?_
  · simp only [exec] at hexec
    split_ifs at hexec
    cases hexec
    exact ⟨_, rfl⟩
  cases hencrypt : Encryption.encrypt env.aes env.encryptionKey iv secret with
  | error e =>
    refine serves_error hw fun t _ ht => ht.answered ?_
    change Account.Step env c t.clocks _ _ _ (sent l) _
    rw [hsent]
    exact .setupFailed htoken (hpasses ht.app_le) hencrypt
  | ok stored =>
    refine serves_ok hw fun x _ hx => ?_
    apply withstands_bind
    apply withstands_tryCatch
    apply serves_findUser hx
    intro y hy
    dsimp only
    split_ifs with hmethod
    · have hfailed : UsersService.setup2faTotpFailed (conflictError ErrorMessages.TWO_FA_ALREADY_ACTIVE) =
          Prog.throw (conflictError ErrorMessages.TWO_FA_ALREADY_ACTIVE) := if_pos (.inr rfl)
      refine serves_error hy fun z _ hz => ?_
      dsimp only
      rw [hfailed]
      refine serves_error hz fun t _ ht => ht.answered ?_
      change Account.Step env c t.clocks _ _ _ (sent l) _
      rw [hsent]
      exact .alreadySetUp htoken (hpasses ht.app_le) hmethod
    · apply serves_updateUser hy rfl rfl rfl
      intro z hz
      refine serves_ok hz fun a _ ha => serves_ok ha fun t _ ht => ht.answered ?_
      change Account.Step env c t.clocks _ _ _ (sent l) _
      rw [hsent]
      exact .setUp htoken (hpasses ht.app_le) (not_not.mp hmethod) hencrypt

end Handlers

theorem serves_verify2fa (h : Stored owner user codes c s) (hsecret : token.secret = env.JWT_ACCESS_SECRET)
    (hsub : token.payload.sub = owner.id) :
    owner.Serves (Answered env owner c (user.account codes) (.verify2fa (some token) code))
      (handle env (.verify2fa (some token) code)) [] s := by
  apply withstands_bind
  apply serves_dateNow h
  intro u now hnow hu
  have hpasses : ∀ {t : Database}, now ≤ t.appNow → now / 1000 < token.exp →
      (user.account codes).Passes c (clocks t) env.JWT_ACCESS_SECRET token :=
    fun hle hexp => User.passes h.id_eq hsecret hsub hnow hle hexp
  by_cases hexp : now / 1000 < token.exp
  · rw [Jwt.verify_of_live hsecret hexp]
    dsimp only
    split_ifs with hpending
    · refine serves_ok hu fun v _ hv => ?_
      rw [hsub]
      apply withstands_bind
      apply withstands_bind
      apply serves_findOne hv
      intro w _ hw
      dsimp only
      split_ifs with hsetup
      · refine serves_error hw fun t _ ht => ht.answered ?_
        exact .noSecondFactor (hpasses ht.app_le hexp) hpending hsetup
      · obtain ⟨henabled, hmethod⟩ := not_or.mp hsetup
        apply withstands_bind
        apply serves_checkTotp hw
        intro x now' l' hnow' hsent' hx
        have hle := Nat.le_trans hnow hnow'
        cases hcheck : (user.account codes).checkTotp env code now' with
        | error e =>
          refine hx.answered ?_
          rw [hsent']
          exact .secondFactorRefused (hpasses (Nat.le_trans hnow' hx.app_le) hexp) hpending
            (Bool.of_not_eq_false henabled) hmethod ⟨hle, hx.app_le⟩ hcheck
        | ok =>
          apply serves_issueTokens hx
          intro y n tokens hash l'' hn hgrants hplain hsent'' hy
          refine serves_ok hy fun t _ ht => ht.answered ?_
          rw [hsent'', hsent', User.account_signIn hplain]
          exact .secondFactorPassed (hpasses (Nat.le_trans (Nat.le_trans hnow' hn) ht.app_le) hexp) hpending
            (Bool.of_not_eq_false henabled) hmethod ⟨hle, Nat.le_trans hn ht.app_le⟩ hcheck
            (hgrants.mono hle ht.app_le)
    · refine serves_error hu fun t _ ht => ht.answered ?_
      exact .noStateToken (hpasses ht.app_le hexp) hpending
  · rw [Jwt.verify_of_lapsed hsecret (Nat.le_of_not_lt hexp)]
    refine serves_error hu fun t _ ht => ht.answered ?_
    exact .stateTokenLapsed (User.lapsed h.id_eq hsecret hsub hnow ht.app_le (Nat.le_of_not_lt hexp))

end SkillBridge
