import SkillBridge.Journeys.SignIn

set_option autoImplicit false

/-! The requests that send a code to the user or take one back. -/

namespace SkillBridge

open Interleaving Prog Database

variable {env : Env} {owner : Owner} {user : User} {codes : Codes} {c d : Clocks} {s t : Database} {l : List ApiCall}
  {table : OtpTable}

theorem Codes.issue_initial (codes : Codes) (table : OtpTable) (code : LiveCode) (createdAt : ℕ) :
    (codes.use table).issue table code .initial createdAt = codes.send table code := by
  simp [Codes.issue, Codes.use, Codes.send]

theorem Codes.issue_resend (codes : Codes) (code : LiveCode) (createdAt : ℕ) :
    (codes.use .verification_otps).issue .verification_otps code .resend createdAt =
      { codes.send .verification_otps code with resends := codes.resends ++ [createdAt] } := by
  simp [Codes.issue, Codes.use, Codes.send]

theorem serves_issue {Q : Except Failure IssuedOtp → List ApiCall → Database → Prop} {expiresIn : ℕ}
    {source : OtpSource} (h : Stored owner user codes c s)
    (hQ : ∀ t now created code l', c.app ≤ now → c.db ≤ created → sent l' = sent l →
      Stored owner user ((codes.use table).issue table ⟨code, now + expiresIn⟩ source created) ⟨now, created⟩ t →
      Q (.ok ⟨code, now + expiresIn⟩) l' t) :
    owner.Serves Q (Otp.issue table expiresIn owner.id source) l s := by
  apply serves_invalidateActiveOtps h
  intro u hu
  apply withstands_bind
  refine serves_draw hu (fun _ h => h) (fun ω t reply u hexec => ?_) fun v n hv => ?_
  · cases hexec
    exact ⟨_, rfl⟩
  refine serves_ok hv fun w _ hw => ?_
  apply serves_dateNow hw
  intro x now hnow hx
  apply serves_hashText hx
  intro y salt hy
  refine serves_insertOtp hy (Function.update_self _ _ _) rfl fun z otp created hcreated hz => ?_
  exact serves_ok hz fun t _ ht => hQ t now created _ _ hnow hcreated rfl ht

theorem serves_consume {Q : Except Failure Bool → List ApiCall → Database → Prop} {code : String}
    (h : Stored owner user codes c s)
    (accepted : ∀ t now l', c.db ≤ now → codes.Accept table now code → sent l' = sent l →
      Stored owner user (codes.use table) { c with db := now } t → Q (.ok true) l' t)
    (refused : ∀ t now l', c.db ≤ now → ¬ codes.Accept table now code → sent l' = sent l →
      Stored owner user codes { c with db := now } t → Q (.ok false) l' t) :
    owner.Serves Q (Otp.consume table owner.id code) l s := by
  apply serves_findLatestOtp h
  intro u now latest hnow hu hlive hrows
  cases latest with
  | none =>
    refine serves_ok hu fun t _ ht => refused t now _ hnow ?_ rfl ht
    rintro ⟨live, hcode, -, hlt⟩
    rw [hcode, Option.filter_some_pos (by simpa using hlt)] at hlive
    cases hlive
  | some otp =>
    obtain ⟨hmem, huser, hunused⟩ := hrows otp rfl
    obtain ⟨hcode, hlt⟩ := Option.filter_eq_some_iff.mp hlive.symm
    dsimp only
    by_cases hhash : otp.otpHash.verify code = true
    · simp only [hhash]
      apply serves_tail
      refine serves_markOtpUsed hu hmem huser hunused hcode fun v hv => ?_
      refine serves_ok hv fun t _ ht => accepted t now _ hnow ?_ rfl ht
      exact ⟨otp.live, hcode, (otp.otpHash.verify_iff code).mp hhash, of_decide_eq_true hlt⟩
    · simp only [hhash]
      refine serves_ok hu fun t _ ht => refused t now _ hnow ?_ rfl ht
      rintro ⟨live, hcode', rfl, -⟩
      rw [hcode] at hcode'
      cases hcode'
      exact hhash ((otp.otpHash.verify_iff _).mpr rfl)

theorem serves_deliverPasswordReset (h : Stored owner user codes c s) :
    owner.Serves (Answered env owner c (user.account codes) (.deliverPasswordReset owner.id))
      (handle env (.deliverPasswordReset owner.id)) [] s := by
  apply withstands_map
  apply serves_findUser h
  intro u hu
  dsimp only
  rw [hu.id_eq]
  apply withstands_bind
  apply serves_issue hu
  intro v now created code l' hnow hcreated hsent hv
  apply serves_tail
  refine serves_draw hv (fun _ h => h) (fun ω t reply u hexec => ?_) fun w _ hw => ?_
  · cases hexec
    exact ⟨_, rfl⟩
  refine serves_ok hw fun t _ ht => ht.answered ?_
  rw [← h.id_eq, Codes.issue_initial]
  change Account.Step env c t.clocks _ _ _ (.sendPasswordReset ((user.account codes).mail
    ⟨code, now + env.PASSWORD_RESET_OTP_EXPIRES_IN⟩) :: sent l') _
  rw [hsent]
  exact .resetCodeSent ⟨hnow, ht.app_le⟩

theorem serves_forgotPassword {email : String} (h : Stored owner user codes c s) (hemail : trim email = owner.email) :
    owner.Serves (Answered env owner c (user.account codes) (.forgotPassword email))
      (handle env (.forgotPassword email)) [] s := by
  apply withstands_map
  unfold AuthService.forgotPassword
  rw [hemail]
  apply serves_findByEmail h
  intro u hu
  refine serves_draw hu (fun _ h => h) (fun ω t reply u hexec => ?_) fun v _ hv => ?_
  · cases hexec
    exact ⟨_, rfl⟩
  exact serves_ok hv fun t _ ht => ht.answered (.forgotPassword (hemail.trans h.email.symm))

theorem serves_resetPassword {email code password : String} (h : Stored owner user codes c s)
    (hemail : trim email = owner.email) :
    owner.Serves (Answered env owner c (user.account codes) (.resetPassword email code password))
      (handle env (.resetPassword email code password)) [] s := by
  apply withstands_map
  unfold AuthService.resetPassword
  rw [hemail]
  apply serves_findByEmail h
  intro u hu
  have hemail' : trim email = (user.account codes).profile.email := hemail.trans h.email.symm
  dsimp only
  rw [hu.id_eq]
  apply withstands_bind
  refine serves_consume hu (fun v now l' hnow haccept hsent hv => ?_) fun v now l' hnow hrefuse hsent hv => ?_
  · simp only [↓reduceIte]
    apply serves_hashText hv
    intro x salt hx
    apply withstands_bind
    apply serves_updateUser hx rfl rfl rfl
    intro y hy
    refine serves_ok hy fun z _ hz => serves_ok hz fun t _ ht => ht.answered ?_
    change Account.Step env c t.clocks _ _ _ (sent l') _
    rw [hsent]
    exact .passwordReset hemail' ⟨hnow, ht.db_le⟩ haccept
  · refine serves_error hv fun t _ ht => ht.answered ?_
    rw [hsent]
    exact .resetRefused hemail' ⟨hnow, ht.db_le⟩ hrefuse

theorem serves_resendVerification (h : Stored owner user codes c s) :
    owner.Serves (Answered env owner c (user.account codes) (.resendVerification owner.email))
      (handle env (.resendVerification owner.email)) [] s := by
  apply withstands_map
  apply serves_findByEmail h
  intro u hu
  rw [← h.email]
  dsimp only
  by_cases hverified : user.is_verified = true
  · rw [if_pos hverified]
    exact serves_error hu fun t _ ht => ht.answered (.alreadyVerified hverified)
  have hunverified := Bool.eq_false_of_not_eq_true hverified
  rw [if_neg hverified, hu.id_eq]
  apply serves_dateNow hu
  intro v now hnow hv
  apply serves_countRecentResends hv
  intro w hw
  split_ifs with hlimit
  · refine serves_error hw fun t _ ht => ht.answered ?_
    exact .tooManyResends hunverified ⟨hnow, ht.app_le⟩ hlimit
  apply withstands_bind
  apply serves_issue hw
  intro x now' created code l' hnow' hcreated hsent hx
  refine serves_draw hx (fun _ h => h) (fun ω t reply u hexec => ?_) fun y _ hy => ?_
  · cases hexec
    exact ⟨_, rfl⟩
  refine serves_ok hy fun t _ ht => ht.answered ?_
  rw [Codes.issue_resend]
  change Account.Step env c t.clocks _ _ _ (.sendVerificationOtp ((user.account codes).mail
    ⟨code, now' + env.VERIFICATION_OTP_EXPIRES_IN⟩) :: sent l') _
  rw [hsent]
  exact .resent hunverified ⟨hnow, Nat.le_trans hnow' ht.app_le⟩ ⟨Nat.le_trans hnow hnow', ht.app_le⟩
    ⟨hcreated, ht.db_le⟩ (Nat.lt_of_not_le hlimit)

theorem serves_markVerified {Q : Except Failure User → List ApiCall → Database → Prop}
    (h : Stored owner user codes c s)
    (hQ : ∀ t l', sent l' = sent l → Stored owner { user with is_verified := true } codes c t →
      Q (.ok { user with is_verified := true }) l' t) : owner.Serves Q (UsersService.markVerified owner.id) l s := by
  apply serves_updateUser h rfl rfl rfl
  intro u hu
  apply serves_findOne hu
  exact fun t _ ht => hQ t _ rfl ht

theorem serves_verifiedSession {Q : Except Failure AuthResult → List ApiCall → Database → Prop} {code : String}
    (h : Stored owner user codes c s)
    (accepted : ∀ t now n tokens hash l', c.db ≤ now → codes.Accept .verification_otps now code → c.app ≤ n →
      (user.account codes).Grants env c { c with app := n } tokens → hash.plain = tokens.refreshToken →
      sent l' = sent l → Stored owner { user with is_verified := true, refreshTokenHash := some hash }
        (codes.use .verification_otps) ⟨n, now⟩ t →
      Q (.ok ⟨SuccessMessages.EMAIL_VERIFIED, (user.account codes).verified.profile, tokens⟩) l' t)
    (refused : ∀ t now l', c.db ≤ now → ¬ codes.Accept .verification_otps now code → sent l' = sent l →
      Stored owner user codes { c with db := now } t → Q (.error (badRequestError ErrorMessages.INVALID_OR_EXPIRED_OTP))
        l' t) : owner.Serves Q (AuthService.verifyEmail env owner.email code) l s := by
  apply serves_findByEmail h
  intro u hu
  dsimp only
  rw [hu.id_eq]
  apply withstands_bind
  refine serves_consume hu (fun v now l' hnow haccept hsent hv => ?_) fun v now l' hnow hrefuse hsent hv => ?_
  · have hissue : ∀ row w l', row = { user with is_verified := true } → sent l' = sent l →
        Stored owner row (codes.use .verification_otps) { c with db := now } w →
        owner.Serves Q (AuthService.issueTokens env row SuccessMessages.EMAIL_VERIFIED) l' w := by
      rintro row w l' rfl hsent' hw
      apply serves_issueTokens hw
      intro t n tokens hash l'' hn hgrants hplain hsent'' ht
      exact accepted t now n tokens hash l'' hnow haccept hn hgrants hplain (hsent''.trans hsent') ht
    simp only [↓reduceIte]
    split_ifs with hverified
    · refine hissue user v l' ?_ hsent hv
      rw [← hverified]
    · apply withstands_bind
      apply serves_markVerified hv
      intro w l'' hsent' hw
      exact hissue _ w l'' rfl (hsent'.trans hsent) hw
  · exact serves_error hv fun t _ ht => refused t now l' hnow hrefuse hsent ht

theorem serves_verifyEmail {code : String} (h : Stored owner user codes c s) :
    owner.Serves (Answered env owner c (user.account codes) (.verifyEmail owner.email code))
      (handle env (.verifyEmail owner.email code)) [] s := by
  apply withstands_bind
  refine serves_verifiedSession h (fun u now n tokens hash l' hnow haccept hn hgrants hplain hsent hu => ?_)
    fun t now l' hnow hrefuse hsent ht => ht.answered ?_
  · refine serves_ok hu fun t _ ht => ht.answered ?_
    have hsession := @User.account_signIn { user with is_verified := true } (codes.use .verification_otps) hash tokens
      hplain
    rw [hsent, hsession, ← h.email]
    exact .emailVerified ⟨hnow, ht.db_le⟩ haccept (hgrants.mono (Nat.le_refl _) ht.app_le)
  · rw [hsent, ← h.email]
    exact .emailRefused ⟨hnow, ht.db_le⟩ hrefuse

end SkillBridge
