import SkillBridge.Api.Explanations

set_option autoImplicit false

/-! The writes that a request may ask for, whatever the replies to its earlier calls are. -/

namespace SkillBridge

open Interleaving Prog

def Request.signsUp (role : UserRole) : Request → Prop
  | register dto => role = dto.role.toUserRole
  | googleCallback _ signupRole => ∃ signupRole', signupRole = some signupRole' ∧ role = signupRole'.toUserRole
  | createUser _ dto => role = dto.role.getD .talent
  | _ => False

def Request.transacts : Request → Bool
  | googleCallback _ _ | talentOnboarding _ _ | employerOnboarding _ _ => true
  | _ => false

def Footprint (req : Request) : Op → Prop
  | .insertUser tx payload => payload.onboarding_complete = false ∧ req.signsUp payload.role ∧
    (tx = none ∨ req.transacts = true)
  | .updateUser _ payload => payload.onboarding_complete = none ∧
    (payload.role = none ∨ ∃ c id dto, req = .updateUser c id dto)
  | .deleteUser _ => ∃ c id, req = .deleteUser c id
  | .insertOauthAccount _ _ _ _ => ∃ profile signupRole, req = .googleCallback profile signupRole
  | .insertOtp _ payload => payload.requestSource = .resend → ∃ email, req = .resendVerification email
  | .insertTalentProfile _ _ => ∃ c dto, req = .talentOnboarding c dto
  | .insertEmployerProfile _ _ => ∃ c dto, req = .employerOnboarding c dto
  | .markOnboardingComplete _ _ => req.onboarding.isSome = true
  | .commitTransaction _ => req.transacts = true
  | .rollbackTransaction _ => req.transacts = true
  | _ => True

/-- The guards have let the caller pass: `JwtStrategy` has read a row with one of the roles. -/
def PassedGuards (env : Env) (roles : List UserRole) (c : Credentials) (past : List ApiCall) : Prop :=
  ∃ token payload now row, c.token = some token ∧ token.verify env.JWT_ACCESS_SECRET now = .ok payload ∧
    (roles = [] ∨ row.role ∈ roles) ∧
    [done (.findUser none payload.sub) (some row), done .dateNow now] <:+ past

variable {env : Env} {req : Request} {α β : Type}

theorem calls_map {K : Op → Prop} {p : Action α} (f : α → β) (h : p.Calls K) :
    (f <$> p : Action β).Calls K :=
  calls_bind h fun _ => trivial

section Services

theorem create_footprint {dto : CreateUserDto} (h : req.signsUp (dto.role.getD .talent)) :
    (UsersService.create dto).Calls (Footprint req) := by
  apply UsersService.calls_create
  · trivial
  · trivial
  · exact fun payload hrole hflag => ⟨hflag, hrole ▸ h, .inl rfl⟩

theorem generateCode_footprint : Otp.generateCode.Calls (Footprint req) :=
  calls_bind (calls_perform trivial) fun _ => trivial

theorem issue_footprint {table : OtpTable} {expiresIn : ℕ} {userId : UserId} {source : OtpSource}
    (h : source = .resend → ∃ email, req = .resendVerification email) :
    (Otp.issue table expiresIn userId source).Calls (Footprint req) := by
  refine calls_bind (calls_perform trivial) fun _ => ?_
  refine calls_bind generateCode_footprint fun _ => ?_
  refine calls_bind (calls_perform trivial) fun _ => ?_
  refine calls_bind (calls_perform trivial) fun _ => ?_
  exact calls_bind (calls_perform h) fun _ => trivial

theorem consume_footprint (table : OtpTable) (userId : UserId) (code : String) :
    (Otp.consume table userId code).Calls (Footprint req) := by
  refine calls_bind (calls_perform trivial) fun latest => ?_
  cases latest with
  | none => trivial
  | some otp =>
    by_cases h : otp.otpHash.verify code = true
    · simp only [h]
      exact calls_perform trivial
    · simp only [h]
      trivial

theorem findOne_footprint (id : UserId) : (UsersService.findOne id).Calls (Footprint req) :=
  UsersService.calls_findOne trivial

theorem setRefreshTokenHash_footprint (id : UserId) (hash : Option (Digest Jwt)) :
    (UsersService.setRefreshTokenHash id hash).Calls (Footprint req) :=
  calls_bind (calls_perform ⟨rfl, .inl rfl⟩) fun _ => trivial

theorem markVerified_footprint (id : UserId) : (UsersService.markVerified id).Calls (Footprint req) :=
  calls_bind (calls_perform ⟨rfl, .inl rfl⟩) fun _ => findOne_footprint id

theorem signTokens_footprint (user : User) : (AuthService.signTokens env user).Calls (Footprint req) := by
  refine calls_bind (calls_perform trivial) fun _ => ?_
  exact calls_bind (calls_perform trivial) fun _ => trivial

theorem issueTokens_footprint (user : User) (message : String) :
    (AuthService.issueTokens env user message).Calls (Footprint req) := by
  refine calls_bind (signTokens_footprint user) fun _ => ?_
  refine calls_bind ?_ fun _ => trivial
  exact calls_bind (calls_perform trivial) fun _ => setRefreshTokenHash_footprint _ _

theorem liftExcept_footprint (x : Except Failure α) : (liftExcept x).Calls (Footprint req) := by
  cases x <;> trivial

theorem checkTotp_footprint (user : User) (code : String) :
    (AuthService.checkTotp env user code).Calls (Footprint req) := by
  unfold AuthService.checkTotp
  split
  · trivial
  · refine calls_bind (liftExcept_footprint _) fun _ => ?_
    refine calls_bind (calls_bind (calls_perform trivial) fun _ => liftExcept_footprint _) fun _ => ?_
    split_ifs <;> trivial

section Google

variable {profile : GoogleProfile} {signupRole : Option OAuthSignupRole}

theorem linkByEmail_footprint (user : User) (provider providerId : String) :
    (UsersService.linkByEmail user provider providerId).Calls
      (Footprint (.googleCallback profile signupRole)) :=
  UsersService.calls_linkByEmail ⟨rfl, .inl rfl⟩ trivial ⟨profile, signupRole, rfl⟩ trivial trivial

theorem createUserWithOauthLink_footprint {params : CreateVerifiedUserWithOauthLinkParams}
    (h : signupRole = some params.role) (tx : TxId) :
    (UserModelAction.createUserWithOauthLink tx params).Calls
      (Footprint (.googleCallback profile signupRole)) := by
  refine calls_bind (calls_perform ⟨rfl, ⟨params.role, h, rfl⟩, .inr rfl⟩) fun _ => ?_
  refine calls_bind (calls_perform ⟨profile, signupRole, rfl⟩) fun _ => ?_
  refine calls_bind (calls_perform trivial) fun row => ?_
  cases row <;> trivial

theorem resolve_footprint (provider : String) (payload : OAuthProfilePayload) :
    (UsersService.resolveOAuthUserFromProviderProfile provider payload signupRole).Calls
      (Footprint (.googleCallback profile signupRole)) := by
  refine calls_bind (calls_perform trivial) fun linked => ?_
  cases linked with
  | some linked => trivial
  | none =>
    refine calls_bind (calls_perform trivial) fun byEmail => ?_
    cases byEmail with
    | some user => exact linkByEmail_footprint _ _ _
    | none =>
      apply calls_tryCatch
      · cases signupRole with
        | none => trivial
        | some role =>
        exact calls_transaction trivial (fun _ => rfl) (fun _ => rfl) (createUserWithOauthLink_footprint rfl)
      · intro e
        split_ifs
        · refine calls_bind (calls_perform trivial) fun raced => ?_
          cases raced with
          | some user => exact linkByEmail_footprint _ _ _
          | none => trivial
        · trivial

end Google

theorem completeOnboarding_footprint {Profile : Type} (userId : UserId)
    {find : TxId → Action (Option Profile)} (profileExists : String) {save : TxId → Action Profile}
    (message : String) (hreq : req.onboarding.isSome = true) (htransacts : req.transacts = true)
    (hf : ∀ tx, (find tx).Calls (Footprint req)) (hs : ∀ tx, (save tx).Calls (Footprint req)) :
    (Onboarding.completeOnboarding env userId find profileExists save message).Calls (Footprint req) := by
  refine calls_bind ?_ fun _ => ?_
  · exact calls_transaction trivial (fun _ => htransacts) (fun _ => htransacts) fun tx =>
      Onboarding.calls_saveProfile trivial hreq (hf tx) (hs tx)
  · refine calls_bind ?_ fun _ => trivial
    exact calls_bind (findOne_footprint _) fun _ => issueTokens_footprint _ _

theorem set2faTotpActiveState_footprint (userId : UserId) (state : Bool) :
    (UsersService.set2faTotpActiveState userId state).Calls (Footprint req) :=
  calls_bind (calls_perform ⟨rfl, .inl rfl⟩) fun _ => trivial

theorem setup2faTotp_footprint (user : AuthenticatedUser) :
    (AuthService.setup2faTotp env user).Calls (Footprint req) := by
  refine calls_bind (calls_perform trivial) fun secret => ?_
  refine calls_bind (calls_bind (calls_perform trivial) fun _ => liftExcept_footprint _) fun _ => ?_
  refine calls_bind ?_ fun _ => trivial
  apply calls_tryCatch
  · refine calls_bind (calls_perform trivial) fun row => ?_
    cases row with
    | none => trivial
    | some user =>
      dsimp only
      split_ifs
      · trivial
      · exact calls_bind (calls_perform ⟨rfl, .inl rfl⟩) fun _ => trivial
  · intro e
    unfold UsersService.setup2faTotpFailed
    split_ifs <;> trivial

theorem enableTotp2fa_footprint (userId : UserId) (code : String) :
    (AuthService.enableTotp2fa env userId code).Calls (Footprint req) := by
  refine calls_bind (findOne_footprint _) fun user => ?_
  refine calls_bind (checkTotp_footprint _ _) fun _ => ?_
  exact calls_bind (set2faTotpActiveState_footprint _ _) fun _ => trivial

theorem disable2fa_footprint (userId : UserId) (code : String) :
    (AuthService.disable2fa env userId code).Calls (Footprint req) := by
  refine calls_bind (findOne_footprint _) fun user => ?_
  split_ifs
  · refine calls_bind (checkTotp_footprint _ _) fun _ => ?_
    exact calls_bind (set2faTotpActiveState_footprint _ _) fun _ => trivial
  · trivial

theorem hashPassword_footprint (password : Option (Option String)) :
    (UsersService.hashPassword password).Calls (Footprint req) := by
  unfold UsersService.hashPassword
  split
  · exact calls_bind (calls_perform trivial) fun _ => trivial
  · trivial
  · trivial

theorem update_footprint (id : UserId) (dto : UpdateUserDto) (h : ∃ c id dto, req = .updateUser c id dto) :
    (UsersService.update id dto).Calls (Footprint req) := by
  refine calls_bind (findOne_footprint _) fun _ => ?_
  refine calls_bind (hashPassword_footprint _) fun _ => ?_
  refine calls_bind (calls_perform ⟨rfl, .inr h⟩) fun updated => ?_
  cases updated <;> trivial

end Services

section Endpoints

theorem jwtAuthGuard_footprint (c : Credentials) : (jwtAuthGuard env c).Calls (Footprint req) := by
  unfold jwtAuthGuard
  split
  · trivial
  · refine calls_bind (calls_perform trivial) fun now => ?_
    split
    · trivial
    · refine calls_bind (calls_perform trivial) fun row => ?_
      cases row <;> trivial

theorem guarded_footprint {roles : List UserRole} {c : Credentials}
    {handler : AuthenticatedUser → Action Response} (h : ∀ user, (handler user).Calls (Footprint req)) :
    (guarded env roles c handler).Calls (Footprint req) := by
  refine calls_bind (jwtAuthGuard_footprint c) fun user => ?_
  refine calls_bind ?_ fun _ => h user
  unfold rolesGuard
  split_ifs <;> trivial

theorem guarded_calls_along {roles : List UserRole} {c : Credentials} {K : Op → Prop}
    {handler : AuthenticatedUser → Action Response} (h : ∀ user, (handler user).Calls K) :
    (guarded env roles c handler).Along
      (fun (call : ApiCall) past => call.1.Plain ∨ K call.1 ∧ PassedGuards env roles c past) (fun _ _ => True) [] := by
  apply along_bind
  apply (jwtAuthGuard_along (fun _ _ h => .inl h) c).mono
  intro r l hr
  cases r with
  | error e => trivial
  | ok user =>
    obtain ⟨token, now, payload, row, htoken, hverify, rfl, rfl⟩ := hr user rfl
    apply along_bind
    unfold rolesGuard
    split_ifs with hrole
    · refine ((along_after (h _) List.suffix_rfl).imp ?_).mono fun _ _ _ => trivial
      exact fun call past ⟨hK, hpast⟩ => .inr ⟨hK, token, payload, now, row, htoken, hverify, hrole, hpast⟩
    · trivial

theorem twoFaPendingGuard_footprint (authorization : Option Jwt) :
    (twoFaPendingGuard env authorization).Calls (Footprint req) := by
  unfold twoFaPendingGuard
  split
  · trivial
  · refine calls_bind (calls_perform trivial) fun now => ?_
    split
    · trivial
    · trivial
    · split_ifs <;> trivial

theorem loginUser_footprint (user : User) (password : String) :
    (AuthService.loginUser env user password).Calls (Footprint req) := by
  unfold AuthService.loginUser
  split_ifs
  · trivial
  · exact calls_bind (calls_perform trivial) fun _ => trivial
  · split
    · trivial
    · split_ifs
      · exact calls_bind (issueTokens_footprint _ _) fun _ => trivial
      · trivial

theorem refresh_footprint (refreshToken : Option Jwt) :
    (AuthService.refresh env refreshToken).Calls (Footprint req) := by
  unfold AuthService.refresh
  split
  · trivial
  · refine calls_bind (calls_perform trivial) fun now => ?_
    split
    · trivial
    · refine calls_bind (calls_perform trivial) fun row => ?_
      split
      · trivial
      · split
        · trivial
        · split_ifs
          · refine calls_bind (signTokens_footprint _) fun _ => ?_
            refine calls_bind (calls_perform trivial) fun _ => ?_
            refine calls_bind (calls_perform trivial) fun rotated => ?_
            split_ifs <;> trivial
          · trivial

theorem logout_footprint (refreshToken : Option Jwt) :
    (AuthService.logoutByRefreshToken env refreshToken).Calls (Footprint req) := by
  unfold AuthService.logoutByRefreshToken
  split
  · trivial
  · refine calls_bind (calls_perform trivial) fun now => ?_
    split
    · trivial
    · refine calls_bind (calls_perform trivial) fun row => ?_
      split
      · trivial
      · split
        · trivial
        · split_ifs
          · exact setRefreshTokenHash_footprint _ _
          · trivial

theorem register_footprint (dto : RegisterDto) : (handle env (.register dto)).Calls (Footprint (.register dto)) := by
  apply calls_map
  refine calls_bind (create_footprint rfl) fun user => ?_
  refine calls_bind (issue_footprint (by simp)) fun _ => ?_
  exact calls_bind (calls_perform trivial) fun _ => trivial

theorem verifyEmail_footprint (email otp : String) : (AuthService.verifyEmail env email otp).Calls (Footprint req) := by
  refine calls_bind (calls_perform trivial) fun row => ?_
  cases row with
  | none => trivial
  | some user =>
    refine calls_bind (consume_footprint _ _ _) fun valid => ?_
    split_ifs
    · exact issueTokens_footprint _ _
    · exact calls_bind (markVerified_footprint _) fun _ => issueTokens_footprint _ _
    · trivial

theorem resendVerification_footprint (email : String) :
    (handle env (.resendVerification email)).Calls (Footprint (.resendVerification email)) := by
  apply calls_map
  refine calls_bind (calls_perform trivial) fun row => ?_
  cases row with
  | none => trivial
  | some user =>
    dsimp only
    split_ifs
    · trivial
    · refine calls_bind (calls_perform trivial) fun now => ?_
      refine calls_bind (calls_perform trivial) fun count => ?_
      split_ifs
      · trivial
      · refine calls_bind (issue_footprint fun _ => ⟨email, rfl⟩) fun _ => ?_
        exact calls_bind (calls_perform trivial) fun _ => trivial

theorem login_footprint (email password : String) : (AuthService.login env email password).Calls (Footprint req) := by
  refine calls_bind (calls_perform trivial) fun row => ?_
  cases row with
  | none => trivial
  | some user => exact loginUser_footprint _ _

theorem forgotPassword_footprint (email : String) : (AuthService.forgotPassword email).Calls (Footprint req) := by
  refine calls_bind (calls_perform trivial) fun row => ?_
  cases row with
  | none => trivial
  | some user => exact calls_bind (calls_perform trivial) fun _ => trivial

theorem deliverForUser_footprint (userId : UserId) :
    (PasswordResetDeliveryService.deliverForUser env userId).Calls (Footprint req) := by
  refine calls_bind (calls_perform trivial) fun row => ?_
  cases row with
  | none => trivial
  | some user => exact calls_bind (issue_footprint (by simp)) fun _ => calls_perform trivial

theorem resetPassword_footprint (email otp password : String) :
    (AuthService.resetPassword email otp password).Calls (Footprint req) := by
  refine calls_bind (calls_perform trivial) fun row => ?_
  cases row with
  | none => trivial
  | some user =>
    refine calls_bind (consume_footprint _ _ _) fun valid => ?_
    split_ifs
    · refine calls_bind (calls_perform trivial) fun _ => ?_
      refine calls_bind ?_ fun _ => trivial
      exact calls_bind (calls_perform ⟨rfl, .inl rfl⟩) fun _ => trivial
    · trivial

theorem verify2fa_footprint (userId : UserId) (code : String) :
    (AuthService.verify2fa env userId code).Calls (Footprint req) := by
  refine calls_bind (findOne_footprint _) fun user => ?_
  split_ifs
  · trivial
  · exact calls_bind (checkTotp_footprint _ _) fun _ => issueTokens_footprint _ _

theorem googleCallback_footprint (profile : GoogleProfile) (signupRole : Option OAuthSignupRole) :
    (handle env (.googleCallback profile signupRole)).Calls (Footprint (.googleCallback profile signupRole)) := by
  apply calls_tryCatch
  · refine calls_bind ?_ fun _ => trivial
    exact calls_bind (resolve_footprint _ _) fun _ => issueTokens_footprint _ _
  · exact fun e => trivial

theorem handle_footprint (env : Env) (req : Request) : (handle env req).Calls (Footprint req) := by
  cases req with
  | register dto => exact register_footprint dto
  | verifyEmail email otp => exact calls_bind (verifyEmail_footprint email otp) fun _ => trivial
  | resendVerification email => exact resendVerification_footprint email
  | login email password =>
    refine calls_bind (login_footprint email password) fun result => ?_
    cases result <;> trivial
  | forgotPassword email => exact calls_map _ (forgotPassword_footprint email)
  | deliverPasswordReset userId => exact calls_map _ (deliverForUser_footprint userId)
  | resetPassword email otp password => exact calls_map _ (resetPassword_footprint email otp password)
  | googleCallback profile signupRole => exact googleCallback_footprint profile signupRole
  | refresh refreshToken => exact calls_bind (refresh_footprint _) fun _ => trivial
  | logout refreshToken => exact calls_bind (logout_footprint _) fun _ => trivial
  | verify2fa authorization code =>
    refine calls_bind (twoFaPendingGuard_footprint _) fun sub => ?_
    exact calls_bind (verify2fa_footprint sub code) fun _ => trivial
  | me c =>
    refine guarded_footprint fun user => calls_map _ ?_
    exact calls_bind (findOne_footprint _) fun _ => trivial
  | setup2faTotp c => exact guarded_footprint fun user => calls_map _ (setup2faTotp_footprint _)
  | enable2faTotp c code => exact guarded_footprint fun user => calls_map _ (enableTotp2fa_footprint _ _)
  | disable2fa c code => exact guarded_footprint fun user => calls_map _ (disable2fa_footprint _ _)
  | talentOnboarding c dto =>
    refine guarded_footprint fun user => calls_map _ ?_
    exact completeOnboarding_footprint _ _ _ rfl rfl (fun tx => calls_perform trivial)
      fun tx => calls_perform ⟨c, dto, rfl⟩
  | employerOnboarding c dto =>
    refine guarded_footprint fun user => calls_map _ ?_
    exact completeOnboarding_footprint _ _ _ rfl rfl (fun tx => calls_perform trivial)
      fun tx => calls_perform ⟨c, dto, rfl⟩
  | createUser c dto => exact guarded_footprint fun user => calls_map _ (create_footprint rfl)
  | listUsers c pagination => exact guarded_footprint fun user => calls_map _ (calls_perform trivial)
  | getUser c id => exact guarded_footprint fun user => calls_map _ (findOne_footprint id)
  | updateUser c id dto =>
    exact guarded_footprint fun user => calls_map _ (update_footprint id dto ⟨c, id, dto, rfl⟩)
  | deleteUser c id =>
    refine guarded_footprint fun user => calls_map _ ?_
    exact calls_bind (findOne_footprint id) fun _ => calls_perform ⟨c, id, rfl⟩

end Endpoints

end SkillBridge
