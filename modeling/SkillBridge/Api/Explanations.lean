import SkillBridge.Api.Histories

set_option autoImplicit false

/-! Every request makes only calls that its own history explains. -/

namespace SkillBridge

open Interleaving Prog

variable {env : Env} {req : Request} {α β : Type} {past : List ApiCall}

section Tokens

theorem signTokens_bind_along {Q : Except Failure β → List ApiCall → Prop} (lax : ∀ e l, Q (.error e) l)
    {user : User} (issues : Issues env req user past) {f : AuthTokens → Action β}
    (hf : ∀ tokens, (f tokens).Along (Explained env req) Q (signed env user tokens ++ past)) :
    (AuthService.signTokens env user >>= f).Along (Explained env req) Q past := by
  apply along_bind
  apply perform_bind_along
  · exact fun r => .access issues
  · exact fun e => lax e _
  · intro access
    apply perform_bind_along
    · exact fun r => .refresh issues
    · exact fun e => lax e _
    · intro refresh
      exact hf ⟨access, refresh⟩

theorem issueTokens_along {Q : Except Failure AuthResult → List ApiCall → Prop}
    (lax : ∀ e l, Q (.error e) l) {user : User} {message : String} (issues : Issues env req user past)
    (other : ∀ token, req ≠ .refresh token)
    (hQ : ∀ tokens l, Granted env req tokens l →
      Q (.ok { message, user := AuthService.toAuthUser user, tokens }) l) :
    (AuthService.issueTokens env user message).Along (Explained env req) Q past := by
  apply signTokens_bind_along lax issues
  intro tokens
  apply along_bind
  apply perform_bind_along
  · exact fun r => ⟨user, tokens.accessToken, past, issues, rfl⟩
  · exact fun e => lax e _
  · intro hash
    apply perform_bind_along
    · exact fun r => .session issues other
    · exact fun e => lax e _
    · intro updated
      exact hQ tokens _ (.session issues other)

end Tokens

section Plain

theorem generateCode_plain : Otp.generateCode.Calls Op.Plain :=
  calls_bind (calls_perform trivial) fun _ => trivial

theorem issue_plain (table : OtpTable) (expiresIn : ℕ) (userId : UserId) (source : OtpSource) :
    (Otp.issue table expiresIn userId source).Calls Op.Plain := by
  refine calls_bind (calls_perform trivial) fun _ => ?_
  refine calls_bind generateCode_plain fun _ => ?_
  refine calls_bind (calls_perform trivial) fun _ => ?_
  refine calls_bind (calls_perform trivial) fun _ => ?_
  exact calls_bind (calls_perform trivial) fun _ => trivial

end Plain

section Endpoints

theorem Outcome.of_none {response : Response} (tokens : response.authTokens = none)
    (state : response.stateToken = none) (other : ∀ token, req ≠ .logout token) :
    Outcome env req (.ok response) past := by
  refine ⟨fun t h => ?_, fun t h => ?_, fun t h => absurd h (other _)⟩
  · rw [tokens] at h
    cases h
  · rw [state] at h
    cases h

theorem Outcome.of_granted {response : Response} {tokens : AuthTokens}
    (h : response.authTokens = some tokens) (state : response.stateToken = none)
    (other : ∀ token, req ≠ .logout token) (granted : Granted env req tokens past) :
    Outcome env req (.ok response) past := by
  refine ⟨fun t ht => ?_, fun t ht => ?_, fun t ht => absurd ht (other _)⟩
  · rw [h] at ht
    cases ht
    exact granted
  · rw [state] at ht
    cases ht

theorem register_along (dto : RegisterDto) :
    (handle env (.register dto)).Along (Explained env (.register dto)) (Outcome env (.register dto)) [] := by
  apply along_map
  apply along_bind
  refine query_bind_along trivial (fun _ _ => trivial) fun row => ?_
  cases row with
  | some user => trivial
  | none =>
    refine query_bind_along trivial (fun _ _ => trivial) fun hash => ?_
    apply along_perform
    intro r
    refine ⟨.register rfl rfl, ?_⟩
    cases r with
    | error e => trivial
    | ok user =>
      apply plain_bind_along
      · exact issue_plain _ _ _ _
      · exact fun e l => trivial
      intro issued l
      refine query_bind_along trivial (fun _ _ => trivial) fun _ => ?_
      exact .of_none rfl rfl (by simp)

theorem consume_bind_along {Q : Except Failure β → List ApiCall → Prop} (lax : ∀ e l, Q (.error e) l)
    {table : OtpTable} {userId : UserId} {code : String} {f : Bool → Action β}
    (accepted : ∀ otp : Otp, otp.otpHash.plain = code →
      (f true).Along (Explained env req) Q (consumed table userId otp ++ past))
    (refused : ∀ l, (f false).Along (Explained env req) Q l) :
    (Otp.consume table userId code >>= f).Along (Explained env req) Q past := by
  apply along_bind
  apply perform_bind_along
  · exact fun r => trivial
  · exact fun e => lax e _
  intro latest
  cases latest with
  | none => exact refused _
  | some otp =>
    by_cases h : otp.otpHash.verify code = true
    · simp only [h]
      apply along_perform
      intro r
      refine ⟨trivial, ?_⟩
      cases r with
      | error e => exact lax e _
      | ok updated =>
        cases updated with
        | true => exact accepted otp ((Digest.verify_iff _ _).mp h)
        | false => exact refused _
    · simp only [h]
      exact refused _

theorem verifyEmail_along (email otp : String) :
    (handle env (.verifyEmail email otp)).Along (Explained env (.verifyEmail email otp))
      (Outcome env (.verifyEmail email otp)) [] := by
  apply along_bind
  refine query_bind_along trivial (fun _ _ => trivial) fun row => ?_
  cases row with
  | none => trivial
  | some user =>
    apply consume_bind_along
    · exact fun e l => trivial
    · intro code hcode
      by_cases hv : user.is_verified = true
      · simp only [hv, if_true]
        apply issueTokens_along
        · exact fun e l => trivial
        · exact .verifyEmail hv hcode
        · simp
        · exact fun tokens l hl => .of_granted rfl rfl (by simp) hl
      · simp only [hv, if_true]
        apply along_bind
        apply perform_bind_along
        · exact fun r => .verifyEmail (by simpa using hv) hcode
        · exact fun e => trivial
        intro updated
        refine query_bind_along trivial (fun _ _ => trivial) fun row => ?_
        cases row with
        | none => trivial
        | some verifiedUser =>
          apply issueTokens_along
          · exact fun e l => trivial
          · exact .verifyEmailFirst (by simpa using hv) hcode
          · simp
          · exact fun tokens l hl => .of_granted rfl rfl (by simp) hl
    · exact fun l => trivial

theorem resendVerification_along (email : String) :
    (handle env (.resendVerification email)).Along (Explained env (.resendVerification email))
      (Outcome env (.resendVerification email)) [] := by
  apply along_map
  refine query_bind_along trivial (fun _ _ => trivial) fun row => ?_
  cases row with
  | none => trivial
  | some user =>
    by_cases hv : user.is_verified = true
    · simp only [hv]
      trivial
    · simp only [hv]
      refine query_bind_along trivial (fun _ _ => trivial) fun now => ?_
      refine query_bind_along trivial (fun _ _ => trivial) fun resendCount => ?_
      by_cases hc : env.VERIFICATION_RESEND_LIMIT_PER_HOUR ≤ resendCount
      · simp only [hc]
        trivial
      · simp only [hc]
        apply plain_bind_along
        · exact issue_plain _ _ _ _
        · exact fun e l => trivial
        intro issued l
        refine query_bind_along trivial (fun _ _ => trivial) fun _ => ?_
        exact .of_none rfl rfl (by simp)

theorem login_along (email password : String) :
    (handle env (.login email password)).Along (Explained env (.login email password))
      (Outcome env (.login email password)) [] := by
  apply along_bind
  refine query_bind_along trivial (fun _ _ => trivial) fun row => ?_
  cases row with
  | none => trivial
  | some user =>
    dsimp only [AuthService.loginUser]
    by_cases hv : user.is_verified = true
    · by_cases ht : user.two_fa_enabled = true
      · simp only [hv, ht]
        apply perform_bind_along
        · exact fun r => .state hv ht
        · exact fun e => trivial
        intro token
        change Outcome env (.login email password) (.ok (.twoFaNeeded ErrorMessages.TWO_FA_REQUIRED token)) _
        refine ⟨fun t h => (nomatch h), fun t h => ?_, fun t h => nomatch h⟩
        cases h
        exact ⟨email, password, user, rfl, hv, ht, rfl⟩
      · simp only [hv, ht]
        cases hp : user.password with
        | none => trivial
        | some hash =>
          by_cases hm : hash.verify password = true
          · simp only [hm]
            apply along_bind
            apply issueTokens_along
            · exact fun e l => trivial
            · exact .login hv (by simpa using ht) hp ((Digest.verify_iff _ _).mp hm)
            · simp
            · exact fun tokens l hl => .of_granted rfl rfl (by simp) hl
          · simp only [hm]
            trivial
    · simp only [hv]
      trivial

theorem forgotPassword_along (email : String) :
    (handle env (.forgotPassword email)).Along (Explained env (.forgotPassword email))
      (Outcome env (.forgotPassword email)) [] := by
  apply along_map
  refine query_bind_along trivial (fun _ _ => trivial) fun row => ?_
  cases row with
  | none => exact .of_none rfl rfl (by simp)
  | some user =>
    refine query_bind_along trivial (fun _ _ => trivial) fun _ => ?_
    exact .of_none rfl rfl (by simp)

theorem deliverPasswordReset_along (userId : UserId) :
    (handle env (.deliverPasswordReset userId)).Along (Explained env (.deliverPasswordReset userId))
      (Outcome env (.deliverPasswordReset userId)) [] := by
  apply along_map
  refine query_bind_along trivial (fun _ _ => trivial) fun row => ?_
  cases row with
  | none => exact .of_none rfl rfl (by simp)
  | some user =>
    apply plain_bind_along
    · exact issue_plain _ _ _ _
    · exact fun e l => trivial
    intro issued l
    apply along_perform
    intro r
    refine ⟨trivial, ?_⟩
    cases r with
    | ok _ => exact .of_none rfl rfl (by simp)
    | error e => trivial

theorem resetPassword_along (email otp password : String) :
    (handle env (.resetPassword email otp password)).Along (Explained env (.resetPassword email otp password))
      (Outcome env (.resetPassword email otp password)) [] := by
  apply along_map
  refine query_bind_along trivial (fun _ _ => trivial) fun row => ?_
  cases row with
  | none => trivial
  | some user =>
    apply consume_bind_along
    · exact fun e l => trivial
    · intro code hcode
      refine query_bind_along trivial (fun _ _ => trivial) fun hash => ?_
      apply along_bind
      apply perform_bind_along
      · exact fun r => .resetPassword hcode
      · exact fun e => trivial
      intro updated
      exact .of_none rfl rfl (by simp)
    · exact fun l => trivial

theorem refresh_along (refreshToken : Option Jwt) :
    (handle env (.refresh refreshToken)).Along (Explained env (.refresh refreshToken))
      (Outcome env (.refresh refreshToken)) [] := by
  cases refreshToken with
  | none => trivial
  | some token =>
    apply along_bind
    refine query_bind_along trivial (fun _ _ => trivial) fun now => ?_
    cases hverify : token.verify env.JWT_REFRESH_SECRET now with
    | error e => trivial
    | ok payload =>
      refine query_bind_along trivial (fun _ _ => trivial) fun row => ?_
      cases row with
      | none => trivial
      | some user =>
        dsimp only
        cases hstored : user.refreshTokenHash with
        | none => trivial
        | some hash =>
          by_cases hm : hash.verify token = true
          · simp only [hm]
            have hissues : Issues env (.refresh (some token)) user
                [done (.findUser none payload.sub) (some user), done .dateNow now] :=
              .refresh hverify hstored ((Digest.verify_iff _ _).mp hm)
            apply signTokens_bind_along
            · exact fun e l => trivial
            · exact hissues
            intro tokens
            apply perform_bind_along
            · exact fun r => ⟨user, tokens.accessToken, _, hissues, rfl⟩
            · exact fun e => trivial
            intro nextHash
            apply perform_bind_along
            · exact fun r => ⟨user, tokens, _, hissues, ⟨_, rfl⟩, rfl, hstored, rfl⟩
            · exact fun e => trivial
            intro rotated
            cases rotated with
            | false => trivial
            | true => exact .of_granted rfl rfl (by simp) (.refresh rfl hissues hstored)
          · simp only [hm]
            trivial

theorem logout_along (refreshToken : Option Jwt) :
    (handle env (.logout refreshToken)).Along (Explained env (.logout refreshToken))
      (Outcome env (.logout refreshToken)) [] := by
  have hend : ∀ {token : Jwt} {l : List ApiCall}, LoggedOut env token l →
      Outcome env (.logout (some token)) (.ok (.message SuccessMessages.LOGGED_OUT)) l := by
    intro token l h
    refine ⟨fun t ht => (nomatch ht), fun t ht => (nomatch ht), fun t ht => ?_⟩
    cases ht
    exact h
  cases refreshToken with
  | none =>
    refine ⟨fun t ht => (nomatch ht), fun t ht => (nomatch ht), fun t ht => ?_⟩
    cases ht
  | some token =>
    apply along_bind
    refine query_bind_along trivial (fun _ _ => trivial) fun now => ?_
    cases hverify : token.verify env.JWT_REFRESH_SECRET now with
    | error e => exact hend (.rejected hverify)
    | ok payload =>
      refine query_bind_along trivial (fun _ _ => trivial) fun row => ?_
      cases row with
      | none => exact hend (.notCurrent hverify (by simp))
      | some user =>
        dsimp only
        cases hstored : user.refreshTokenHash with
        | none =>
          apply hend
          apply LoggedOut.notCurrent hverify
          rintro user' hash' ⟨⟩ hh
          rw [hstored] at hh
          cases hh
        | some hash =>
          by_cases hm : hash.verify token = true
          · simp only [hm]
            apply perform_bind_along
            · exact fun r => .logout hverify hstored ((Digest.verify_iff _ _).mp hm)
            · exact fun e => trivial
            intro updated
            exact hend (.revoked hverify)
          · simp only [hm]
            apply hend
            apply LoggedOut.notCurrent hverify
            rintro user' hash' ⟨⟩ hh
            rw [hstored] at hh
            cases hh
            exact fun h => hm ((Digest.verify_iff _ _).mpr h)

section Google

def Resolved (past : List ApiCall) (r : Except Failure User) (l : List ApiCall) : Prop :=
  past <:+ l ∧ ∀ user, r = .ok user → lastRow l = some user

theorem Resolved.error {l : List ApiCall} (h : past <:+ l) (e : Failure) : Resolved past (.error e) l :=
  ⟨h, fun _ he => nomatch he⟩

variable {profile : GoogleProfile} {signupRole : Option OAuthSignupRole}

theorem findOne_along {root : List ApiCall} (h : root <:+ past) (id : UserId) :
    (UsersService.findOne id).Along (Explained env req) (Resolved root) past := by
  apply perform_bind_along
  · exact fun r => trivial
  · exact fun e => .error (h.trans (List.suffix_cons _ _)) e
  intro row
  have hs : root <:+ done (.findUser none id) row :: past := h.trans (List.suffix_cons _ _)
  cases row with
  | none => exact .error hs _
  | some user =>
    refine ⟨hs, ?_⟩
    rintro user' ⟨⟩
    rfl

theorem createVerifiedUserWithOauthLink_along {params : CreateVerifiedUserWithOauthLinkParams}
    (email : params.email = profile.email) :
    (UserModelAction.createVerifiedUserWithOauthLink params).Along
      (Explained env (.googleCallback profile signupRole)) (Resolved past) past := by
  apply perform_bind_along
  · exact fun r => trivial
  · exact fun e => .error (List.suffix_cons _ _) e
  intro tx
  have hrollback : ∀ (e : Failure) l, past <:+ l → (rollback tx e : Action User).Along
      (Explained env (.googleCallback profile signupRole)) (Resolved past) l := by
    intro e l hl
    apply plain_bind_along
    · exact calls_tryCatch (calls_perform trivial) fun _ => trivial
    · exact fun e' l' => .error (hl.trans (List.suffix_append _ _)) e'
    · exact fun _ l' => .error (hl.trans (List.suffix_append _ _)) e
  apply along_tryCatch
  apply along_bind
  have hs : past <:+ done .startTransaction tx :: past := List.suffix_cons _ _
  apply perform_bind_along
  · exact fun r => .googleCallback email rfl rfl
  · exact fun e => hrollback e _ (hs.trans (List.suffix_cons _ _))
  intro user
  have hs := hs.trans (List.suffix_cons (done (.insertUser (some tx) _) user) _)
  apply perform_bind_along
  · exact fun r => trivial
  · exact fun e => hrollback e _ (hs.trans (List.suffix_cons _ _))
  intro account
  have hs := hs.trans (List.suffix_cons (done (.insertOauthAccount (some tx) _ _ _) account) _)
  apply perform_bind_along
  · exact fun r => trivial
  · exact fun e => hrollback e _ (hs.trans (List.suffix_cons _ _))
  intro row
  have hs := hs.trans (List.suffix_cons (done (.findUser (some tx) user.id) row) _)
  cases row with
  | none => exact hrollback _ _ hs
  | some created =>
    apply perform_bind_along
    · exact fun r => trivial
    · exact fun e => hrollback e _ (hs.trans (List.suffix_cons _ _))
    intro _
    refine ⟨hs.trans (List.suffix_cons _ _), ?_⟩
    rintro user' ⟨⟩
    rfl

theorem linkByEmail_along {user : User} {providerId : String} {root : List ApiCall} (h : root <:+ past) :
    (UsersService.linkByEmail user "google" providerId).Along
      (Explained env (.googleCallback profile signupRole)) (Resolved root)
      (done (.findUserByEmail profile.email) (some user) :: past) := by
  have hlink : ∀ l, root <:+ l →
      (do UsersService.linkOauthAccountToUser user.id "google" providerId
          UsersService.findOne user.id : Action User).Along
        (Explained env (.googleCallback profile signupRole)) (Resolved root) l := by
    intro l hl
    apply plain_bind_along
    · exact UsersService.calls_linkOauthAccountToUser trivial trivial trivial
    · exact fun e l' => .error (hl.trans (List.suffix_append _ _)) e
    · exact fun _ l' => findOne_along (hl.trans (List.suffix_append _ _)) user.id
  have hs : root <:+ done (.findUserByEmail profile.email) (some user) :: past :=
    h.trans (List.suffix_cons _ _)
  by_cases hv : user.is_verified = true
  · simp only [UsersService.linkByEmail, hv]
    exact hlink _ hs
  · simp only [UsersService.linkByEmail, hv]
    apply along_bind
    apply perform_bind_along
    · exact fun r => .linkByEmail (by simpa using hv)
    · exact fun e => .error (hs.trans (List.suffix_cons _ _)) e
    intro updated
    apply (findOne_along (hs.trans (List.suffix_cons _ _)) user.id).mono
    intro r l hr
    cases r with
    | ok _ => exact hlink l hr.1
    | error e => exact .error hr.1 e

theorem resolve_along {payload : OAuthProfilePayload} (email : payload.email = profile.email) :
    (UsersService.resolveOAuthUserFromProviderProfile "google" payload signupRole).Along
      (Explained env (.googleCallback profile signupRole))
      (fun r l => ∀ user, r = .ok user → lastRow l = some user ∧
        ∃ linked, [⟨.findOauthAccount "google" payload.providerId, linked⟩] <:+ l) [] := by
  apply perform_bind_along
  · exact fun r => trivial
  · exact fun e _ he => nomatch he
  intro linked
  cases linked with
  | some linked =>
    rintro user ⟨⟩
    exact ⟨rfl, _, List.suffix_rfl⟩
  | none =>
    have hroot : ∀ r l, Resolved [done (.findOauthAccount "google" payload.providerId) none] r l →
        ∀ user, r = .ok user → lastRow l = some user ∧
          ∃ linked, [⟨.findOauthAccount "google" payload.providerId, linked⟩] <:+ l :=
      fun r l h user hu => ⟨h.2 user hu, _, h.1⟩
    have hlink : ∀ (user : User) l, [done (.findOauthAccount "google" payload.providerId) none] <:+ l →
        (UsersService.linkByEmail user "google" payload.providerId).Along
          (Explained env (.googleCallback profile signupRole))
          (Resolved [done (.findOauthAccount "google" payload.providerId) none])
          (done (.findUserByEmail payload.email) (some user) :: l) := by
      intro user l hl
      rw [email]
      exact linkByEmail_along hl
    apply perform_bind_along
    · exact fun r => trivial
    · exact fun e _ he => nomatch he
    intro row
    cases row with
    | some byEmail => exact (hlink byEmail _ List.suffix_rfl).mono hroot
    | none =>
      apply Along.mono _ hroot
      have hs : [done (.findOauthAccount "google" payload.providerId) none] <:+
          [done (.findUserByEmail payload.email) none,
            done (.findOauthAccount "google" payload.providerId) none] := List.suffix_cons _ _
      apply along_tryCatch
      cases signupRole with
      | none => exact .error hs _
      | some role =>
        apply (createVerifiedUserWithOauthLink_along email).mono
        intro r l hr
        have hl := hs.trans hr.1
        cases r with
        | ok user => exact ⟨hl, hr.2⟩
        | error e =>
          by_cases hu : isPostgresUniqueViolation e = true
          · simp only [hu]
            apply perform_bind_along
            · exact fun r => trivial
            · exact fun e' => .error (hl.trans (List.suffix_cons _ _)) e'
            intro row
            cases row with
            | none => exact .error (hl.trans (List.suffix_cons _ _)) e
            | some raced => exact hlink raced l hl
          · simp only [hu]
            exact .error hl e

theorem googleCallback_along (profile : GoogleProfile) (signupRole : Option OAuthSignupRole) :
    (handle env (.googleCallback profile signupRole)).Along
      (Explained env (.googleCallback profile signupRole))
      (Outcome env (.googleCallback profile signupRole)) [] := by
  apply along_tryCatch
  apply along_bind
  apply along_bind
  apply (resolve_along rfl).mono
  intro r l hr
  cases r with
  | error e => exact .of_none rfl rfl (by simp)
  | ok user =>
    obtain ⟨hrow, linked, hfirst⟩ := hr user rfl
    apply issueTokens_along
    · exact fun e l => .of_none rfl rfl (by simp)
    · exact .googleCallback hrow hfirst
    · simp
    · exact fun tokens l hl => .of_granted rfl rfl (by simp) hl

end Google

theorem findOne_bind_along {Q : Except Failure β → List ApiCall → Prop} (lax : ∀ e l, Q (.error e) l)
    {id : UserId} {f : User → Action β}
    (hf : ∀ user, (f user).Along (Explained env req) Q (done (.findUser none id) (some user) :: past)) :
    (UsersService.findOne id >>= f).Along (Explained env req) Q past := by
  apply along_bind
  apply perform_bind_along
  · exact fun r => trivial
  · exact fun e => lax e _
  intro row
  cases row with
  | none => exact lax _ _
  | some user => exact hf user

theorem checkTotp_bind_along {G : ApiCall → List ApiCall → Prop} (hG : ∀ c l, c.1.Plain → G c l)
    {Q : Except Failure β → List ApiCall → Prop} (lax : ∀ e l, Q (.error e) l)
    {user : User} {code : String} {f : Unit → Action β}
    (hf : ∀ stored secret now, user.two_fa_totp_secret = some stored →
      Encryption.decrypt env.aes env.encryptionKey stored = .ok secret →
      env.otplib.verifySync secret code now = .ok true → (f ()).Along G Q (done .dateNow now :: past)) :
    (AuthService.checkTotp env user code >>= f).Along G Q past := by
  apply along_bind
  unfold AuthService.checkTotp
  cases hs : user.two_fa_totp_secret with
  | none => exact lax _ _
  | some stored =>
    apply liftExcept_bind_along
    · exact fun e => lax e _
    intro secret hsecret
    apply along_bind
    apply along_perform_bind
    · exact fun r => hG _ _ trivial
    · exact fun e => lax e _
    intro now
    cases hv : env.otplib.verifySync secret code now with
    | error e => exact lax e _
    | ok valid =>
      cases valid with
      | false => exact lax _ _
      | true => exact hf stored secret now hs hsecret hv

theorem twoFaPendingGuard_along (authorization : Option Jwt) :
    (twoFaPendingGuard env authorization).Along (Explained env req) (fun r l => ∀ sub, r = .ok sub →
      ∃ token now payload, authorization = some token ∧
        token.verify env.JWT_ACCESS_SECRET now = .ok payload ∧ payload.type = some "2fa_pending" ∧
        sub = payload.sub ∧ l = [done .dateNow now]) [] := by
  have hlax : ∀ (e : Failure) (P : UserId → Prop), ∀ sub, Except.error e = .ok sub → P sub :=
    fun _ _ _ h => nomatch h
  cases authorization with
  | none => exact hlax _ _
  | some token =>
    apply perform_bind_along
    · exact fun r => trivial
    · exact fun e => hlax e _
    intro now
    cases hverify : token.verify env.JWT_ACCESS_SECRET now with
    | error e =>
      cases e with
      | jsonWebTokenError => exact hlax _ _
      | tokenExpiredError => exact hlax _ _
    | ok payload =>
      by_cases hp : payload.type = some "2fa_pending"
      · simp only [hp]
        rintro sub ⟨⟩
        exact ⟨token, now, payload, rfl, hverify, hp, rfl, rfl⟩
      · simp only [hp]
        exact hlax _ _

theorem verify2fa_along (authorization : Option Jwt) (code : String) :
    (handle env (.verify2fa authorization code)).Along (Explained env (.verify2fa authorization code))
      (Outcome env (.verify2fa authorization code)) [] := by
  apply along_bind
  apply (twoFaPendingGuard_along authorization).mono
  intro r l hr
  cases r with
  | error e => trivial
  | ok sub =>
    obtain ⟨token, now, payload, rfl, hverify, hp, rfl, rfl⟩ := hr sub rfl
    apply along_bind
    apply findOne_bind_along
    · exact fun e l => trivial
    intro user
    by_cases hd : user.two_fa_enabled = false ∨ user.two_fa_method = none
    · simp only [hd]
      trivial
    · simp only [hd]
      simp only [not_or, Bool.not_eq_false] at hd
      apply checkTotp_bind_along fun _ _ h => .of_plain h
      · exact fun e l => trivial
      intro stored secret now' hs hsecret hv
      apply issueTokens_along
      · exact fun e l => trivial
      · exact .verify2fa hverify hp hd.1 hs hsecret hv
      · simp
      · exact fun tokens l hl => .of_granted rfl rfl (by simp) hl

section Guarded

theorem jwtAuthGuard_along {G : ApiCall → List ApiCall → Prop} (hG : ∀ c l, c.1.Plain → G c l) (c : Credentials) :
    (jwtAuthGuard env c).Along G (fun r l => ∀ user, r = .ok user →
      ∃ token now payload row, c.token = some token ∧ token.verify env.JWT_ACCESS_SECRET now = .ok payload ∧
        user = { sub := row.id, email := row.email, role := row.role
                 onboardingComplete := row.onboarding_complete } ∧
        l = [done (.findUser none payload.sub) (some row), done .dateNow now]) [] := by
  have hlax : ∀ (e : Failure) (P : AuthenticatedUser → Prop), ∀ user, Except.error e = .ok user → P user :=
    fun _ _ _ h => nomatch h
  unfold jwtAuthGuard
  cases ht : c.token with
  | none => exact hlax _ _
  | some token =>
    apply along_perform_bind
    · exact fun r => hG _ _ trivial
    · exact fun e => hlax e _
    intro now
    cases hverify : token.verify env.JWT_ACCESS_SECRET now with
    | error e => exact hlax _ _
    | ok payload =>
      apply along_perform_bind
      · exact fun r => hG _ _ trivial
      · exact fun e => hlax e _
      intro row
      cases row with
      | none => exact hlax _ _
      | some row =>
        rintro user ⟨⟩
        exact ⟨token, now, payload, row, rfl, hverify, rfl, rfl⟩

theorem guarded_along {roles : List UserRole} {c : Credentials} {handler : AuthenticatedUser → Action Response}
    (h : ∀ token payload now (row : User), c.token = some token →
      token.verify env.JWT_ACCESS_SECRET now = .ok payload →
      (handler { sub := row.id, email := row.email, role := row.role
                 onboardingComplete := row.onboarding_complete }).Along (Explained env req) (Outcome env req)
        [done (.findUser none payload.sub) (some row), done .dateNow now]) :
    (guarded env roles c handler).Along (Explained env req) (Outcome env req) [] := by
  apply along_bind
  apply (jwtAuthGuard_along (fun _ _ h => .of_plain h) c).mono
  intro r l hr
  cases r with
  | error e => trivial
  | ok user =>
    obtain ⟨token, now, payload, row, ht, hverify, rfl, rfl⟩ := hr user rfl
    apply along_bind
    unfold rolesGuard
    split_ifs with hroles
    · exact h token payload now row ht hverify
    · trivial

theorem me_along (c : Credentials) :
    (handle env (.me c)).Along (Explained env (.me c)) (Outcome env (.me c)) [] := by
  apply guarded_along
  intro token payload now row ht hv
  apply along_map
  apply findOne_bind_along
  · exact fun e l => trivial
  intro user
  exact .of_none rfl rfl (by simp)

theorem setup2faTotpFailed_along {Q : Except Failure Unit → List ApiCall → Prop}
    (lax : ∀ e l, Q (.error e) l) (e : Failure) (l : List ApiCall) :
    (UsersService.setup2faTotpFailed e).Along (Explained env req) Q l := by
  unfold UsersService.setup2faTotpFailed
  split_ifs
  · exact lax _ _
  · exact lax _ _

theorem hashPassword_bind_along {Q : Except Failure β → List ApiCall → Prop} {password : Option (Option String)}
    {f : Option (Option (Digest String)) → Action β} (failed : ∀ e l, Q (.error e) (l ++ past))
    (hf : ∀ hash l, hash.join.isSome = password.join.isSome →
      (f hash).Along (Explained env req) Q (l ++ past)) :
    (UsersService.hashPassword password >>= f).Along (Explained env req) Q past := by
  rcases password with _ | _ | password
  · exact hf none [] rfl
  · exact hf (some none) [] rfl
  · apply along_bind
    apply perform_bind_along
    · exact fun r => trivial
    · exact fun e => failed e [_]
    intro hash
    exact hf (some (some hash)) [_] rfl

theorem setup2faTotp_along (c : Credentials) :
    (handle env (.setup2faTotp c)).Along (Explained env (.setup2faTotp c))
      (Outcome env (.setup2faTotp c)) [] := by
  apply guarded_along
  intro token payload now row ht hv
  apply along_map
  refine query_bind_along trivial (fun _ _ => trivial) fun secret => ?_
  apply along_bind
  refine query_bind_along trivial (fun _ _ => trivial) fun iv => ?_
  cases henc : Encryption.encrypt env.aes env.encryptionKey iv secret with
  | error e => trivial
  | ok encryptedSecret =>
    apply along_bind
    apply along_tryCatch
    apply perform_bind_along
    · exact fun r => trivial
    · exact fun e => setup2faTotpFailed_along (fun e l => trivial) e _
    intro row
    cases row with
    | none => exact setup2faTotpFailed_along (fun e l => trivial) _ _
    | some user =>
      dsimp only
      by_cases hm : user.two_fa_method ≠ none
      · rw [if_pos hm]
        exact setup2faTotpFailed_along (fun e l => trivial) _ _
      · rw [if_neg hm]
        apply perform_bind_along
        · exact fun r => .setup2faTotp (not_not.mp hm)
        · exact fun e => setup2faTotpFailed_along (fun e l => trivial) e _
        intro updated
        exact .of_none rfl rfl (by simp)

theorem enable2faTotp_along (c : Credentials) (code : String) :
    (handle env (.enable2faTotp c code)).Along (Explained env (.enable2faTotp c code))
      (Outcome env (.enable2faTotp c code)) [] := by
  apply guarded_along
  intro token payload now row ht hv
  apply along_map
  apply findOne_bind_along
  · exact fun e l => trivial
  intro user
  apply checkTotp_bind_along fun _ _ h => .of_plain h
  · exact fun e l => trivial
  intro stored secret now' hs hsecret hvalid
  apply along_bind
  apply perform_bind_along
  · exact fun r => .enableTotp2fa
  · exact fun e => trivial
  intro updated
  exact .of_none rfl rfl (by simp)

theorem disable2fa_along (c : Credentials) (code : String) :
    (handle env (.disable2fa c code)).Along (Explained env (.disable2fa c code))
      (Outcome env (.disable2fa c code)) [] := by
  apply guarded_along
  intro token payload now row ht hv
  apply along_map
  apply findOne_bind_along
  · exact fun e l => trivial
  intro user
  by_cases hm : user.two_fa_method = some .totp
  · simp only [hm]
    apply checkTotp_bind_along fun _ _ h => .of_plain h
    · exact fun e l => trivial
    intro stored secret now' hs hsecret hvalid
    apply along_bind
    apply perform_bind_along
    · exact fun r => .disable2fa
    · exact fun e => trivial
    intro updated
    exact .of_none rfl rfl (by simp)
  · simp only [hm]
    trivial

theorem onboarding_along {Profile : Type} {roles : List UserRole} {c : Credentials}
    {find : AuthenticatedUser → TxId → Action (Option Profile)} {profileExists message : String}
    {save : AuthenticatedUser → TxId → Action Profile} {toResponse : OnboardingResult Profile → Response}
    (request : req.onboarding = some c) (hfind : ∀ user tx, (find user tx).Calls Op.Plain)
    (hsave : ∀ user tx, (save user tx).Calls Op.Plain)
    (tokens : ∀ result, (toResponse result).authTokens = some result.tokens)
    (state : ∀ result, (toResponse result).stateToken = none) :
    (guarded env roles c fun user =>
      toResponse <$> Onboarding.completeOnboarding env user.sub (find user) profileExists (save user) message).Along
      (Explained env req) (Outcome env req) [] := by
  apply guarded_along
  intro token payload now row presented admitted
  apply along_map
  apply plain_bind_along
  · exact calls_transaction trivial (fun _ => trivial) (fun _ => trivial) fun tx =>
      Onboarding.calls_saveProfile trivial trivial (hfind _ tx) (hsave _ tx)
  · exact fun e l => trivial
  intro profile l
  apply along_bind
  apply findOne_bind_along
  · exact fun e l => trivial
  intro user
  apply issueTokens_along
  · exact fun e l => trivial
  · exact .onboarding request presented admitted
  · rintro t rfl
    cases request
  · intro tokens' l hl
    refine .of_granted (tokens _) (state _) ?_ hl
    rintro t rfl
    cases request

theorem talentOnboarding_along (c : Credentials) (dto : CompleteTalentOnboardingDto) :
    (handle env (.talentOnboarding c dto)).Along (Explained env (.talentOnboarding c dto))
      (Outcome env (.talentOnboarding c dto)) [] :=
  onboarding_along rfl (fun _ _ => calls_perform trivial) (fun _ _ => calls_perform trivial) (fun _ => rfl) fun _ => rfl

theorem employerOnboarding_along (c : Credentials) (dto : CompleteEmployerOnboardingDto) :
    (handle env (.employerOnboarding c dto)).Along (Explained env (.employerOnboarding c dto))
      (Outcome env (.employerOnboarding c dto)) [] :=
  onboarding_along rfl (fun _ _ => calls_perform trivial) (fun _ _ => calls_perform trivial) (fun _ => rfl) fun _ => rfl

theorem createUser_along (c : Credentials) (dto : CreateUserDto) :
    (handle env (.createUser c dto)).Along (Explained env (.createUser c dto))
      (Outcome env (.createUser c dto)) [] := by
  apply guarded_along
  intro token payload now row ht hv
  apply along_map
  refine query_bind_along trivial (fun _ _ => trivial) fun existing => ?_
  cases existing with
  | some _ => trivial
  | none =>
    refine query_bind_along trivial (fun _ _ => trivial) fun hash => ?_
    apply along_perform
    intro r
    refine ⟨.createUser, ?_⟩
    cases r with
    | ok user => exact .of_none rfl rfl (by simp)
    | error e => trivial

theorem listUsers_along (c : Credentials) (pagination : PaginationDto) :
    (handle env (.listUsers c pagination)).Along (Explained env (.listUsers c pagination))
      (Outcome env (.listUsers c pagination)) [] := by
  apply guarded_along
  intro token payload now row ht hv
  apply along_map
  apply along_perform
  intro r
  refine ⟨trivial, ?_⟩
  cases r with
  | ok users => exact .of_none rfl rfl (by simp)
  | error e => trivial

theorem getUser_along (c : Credentials) (id : UserId) :
    (handle env (.getUser c id)).Along (Explained env (.getUser c id)) (Outcome env (.getUser c id)) [] := by
  apply guarded_along
  intro token payload now row ht hv
  apply along_map
  refine query_bind_along trivial (fun _ _ => trivial) fun existing => ?_
  cases existing with
  | none => trivial
  | some user => exact .of_none rfl rfl (by simp)

theorem updateUser_along (c : Credentials) (id : UserId) (dto : UpdateUserDto) :
    (handle env (.updateUser c id dto)).Along (Explained env (.updateUser c id dto))
      (Outcome env (.updateUser c id dto)) [] := by
  apply guarded_along
  intro token payload now row ht hv
  apply along_map
  apply findOne_bind_along
  · exact fun e l => trivial
  intro user
  apply hashPassword_bind_along
  · exact fun e l => trivial
  intro password l set
  apply perform_bind_along
  · exact fun r => .updateUser set
  · exact fun e => trivial
  intro updated
  cases updated with
  | none => trivial
  | some user => exact .of_none rfl rfl (by simp)

theorem deleteUser_along (c : Credentials) (id : UserId) :
    (handle env (.deleteUser c id)).Along (Explained env (.deleteUser c id))
      (Outcome env (.deleteUser c id)) [] := by
  apply guarded_along
  intro token payload now row ht hv
  apply along_map
  apply findOne_bind_along
  · exact fun e l => trivial
  intro user
  apply along_perform
  intro r
  refine ⟨⟨c, rfl⟩, ?_⟩
  cases r with
  | ok _ => exact .of_none rfl rfl (by simp)
  | error e => trivial

end Guarded

end Endpoints

theorem handle_along (env : Env) (req : Request) :
    (handle env req).Along (Explained env req) (Outcome env req) [] := by
  cases req with
  | register dto => exact register_along dto
  | verifyEmail email otp => exact verifyEmail_along email otp
  | resendVerification email => exact resendVerification_along email
  | login email password => exact login_along email password
  | forgotPassword email => exact forgotPassword_along email
  | deliverPasswordReset userId => exact deliverPasswordReset_along userId
  | resetPassword email otp password => exact resetPassword_along email otp password
  | googleCallback profile signupRole => exact googleCallback_along profile signupRole
  | refresh refreshToken => exact refresh_along refreshToken
  | logout refreshToken => exact logout_along refreshToken
  | verify2fa authorization code => exact verify2fa_along authorization code
  | me c => exact me_along c
  | setup2faTotp c => exact setup2faTotp_along c
  | enable2faTotp c code => exact enable2faTotp_along c code
  | disable2fa c code => exact disable2fa_along c code
  | talentOnboarding c dto => exact talentOnboarding_along c dto
  | employerOnboarding c dto => exact employerOnboarding_along c dto
  | createUser c dto => exact createUser_along c dto
  | listUsers c pagination => exact listUsers_along c pagination
  | getUser c id => exact getUser_along c id
  | updateUser c id dto => exact updateUser_along c id dto
  | deleteUser c id => exact deleteUser_along c id

end SkillBridge
