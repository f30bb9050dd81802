import SkillBridge.Users.Deletion
import SkillBridge.Users.Records

set_option autoImplicit false

/-! Requests that have nothing to do with a user leave everything that is stored of the user alone. -/

namespace SkillBridge

open Interleaving Prog Database

def signedFor (secret : String) (id : UserId) (presented : Option Jwt) : Bool :=
  presented.any fun token => token.secret = secret && token.payload.sub = id

/-- The request addresses the user's e-mail, presents a token of the user that was signed here, signs in with
the user's Google account, or names the user as its target. Requests that only read or insert are left out. -/
def Request.concerns (env : Env) (owner : Owner) : Request → Bool
  | .verifyEmail email _ | .resendVerification email | .login email _ => email = owner.email
  | .resetPassword email _ _ => trim email = owner.email
  | .deliverPasswordReset userId => userId = owner.id
  | .googleCallback profile _ => profile.email = owner.email || owner.links.any fun account =>
      account.provider = "google" && account.provider_id = profile.providerId
  | .refresh refreshToken | .logout refreshToken => signedFor env.JWT_REFRESH_SECRET owner.id refreshToken
  | .verify2fa authorization _ => signedFor env.JWT_ACCESS_SECRET owner.id authorization
  | .setup2faTotp c | .enable2faTotp c _ | .disable2fa c _ | .talentOnboarding c _ | .employerOnboarding c _ =>
      signedFor env.JWT_ACCESS_SECRET owner.id c.token
  | .updateUser _ id _ | .deleteUser _ id => id = owner.id
  | .register _ | .forgotPassword _ | .me _ | .createUser _ _ | .listUsers _ _ | .getUser _ _ => false

def HttpRequest.concerns (env : Env) (owner : Owner) : HttpRequest → Bool
  | .updateUser _ id _ => id = owner.id
  | .googleCallback profile _ => (Request.googleCallback profile none).concerns env owner
  | .validated req _ => req.concerns env owner
  | .register _ | .createUser _ _ | .googleSignup _ => false

abbrev LeavesAlone {α : Type} (owner : Owner) (R : α → Prop) (p : Action α) : Prop :=
  p.Guarded owner.anyone server owner.others.Rel R

variable {env : Env} {owner : Owner} {α β : Type}

section Reads

variable {db t : Database} {tx : Option TxId}

theorem exec_of_ok {o : Op} {r : o.Res} (h : server.Answers o db (.ok r) t) : ∃ ω, exec o ω db = some (.ok r, t) := by
  rcases h with h | ⟨e, -, he, -⟩
  · exact h
  · cases he

theorem Standing.email_ne (h : Standing owner db) {email : String} (other : email ≠ owner.email) {row : User}
    (ha : server.Answers (.findUserByEmail email) db (.ok (some row)) t) : row.id ≠ owner.id := by
  obtain ⟨ω, hexec⟩ := exec_of_ok ha
  injection hexec with hexec
  injection hexec with hreply
  injection hreply with hfind
  have hemail : row.email = email := by simpa using List.find?_some hfind
  obtain ⟨user, huser, huserEmail⟩ := h.found
  have huserId : user.id = owner.id := by simpa using List.find?_some huser
  intro hid
  have hmem := List.mem_of_find?_eq_some huser
  have hrow := h.constraints.eq_of_id (List.mem_of_find?_eq_some hfind) hmem (hid.trans huserId.symm)
  exact other (by rw [← hemail, hrow, huserEmail])

theorem findUser_id {i : UserId} {row : User} (ha : server.Answers (.findUser tx i) db (.ok (some row)) t) :
    row.id = i := by
  obtain ⟨ω, hexec⟩ := exec_of_ok ha
  injection hexec with hexec
  injection hexec with hreply
  injection hreply with hfind
  simpa using List.find?_some hfind

theorem Standing.insertUser_ne (h : Standing owner db) {payload : NewUser} {row : User}
    (ha : server.Answers (.insertUser tx payload) db (.ok row) t) : row.id ≠ owner.id := by
  have hid : row.id = db.fresh := by
    obtain ⟨ω, hexec⟩ := exec_of_ok ha
    rcases insertUnique_cases hexec with ⟨e, he, -⟩ | ⟨-, -, -, hrow, -⟩
    · cases he
    · cases hrow
      rfl
  have hlt : owner.id < db.fresh := h.constraints.row_lt h.registered
  rw [hid]
  exact Ne.symm (Nat.ne_of_lt hlt)

theorem Standing.findOauthAccount_ne (h : Standing owner db) {provider providerId : String}
    (unlinked : ∀ account ∈ owner.links, account.provider = provider → account.provider_id ≠ providerId)
    {account : OAuthUser} {row : User}
    (ha : server.Answers (.findOauthAccount provider providerId) db (.ok (some (account, row))) t) :
    row.id ≠ owner.id := by
  obtain ⟨ω, hexec⟩ := exec_of_ok ha
  injection hexec with hexec
  injection hexec with hreply
  injection hreply with hfind
  unfold Database.findOauthAccount at hfind
  split at hfind
  · cases hfind
  · rename_i account' hlink
    obtain ⟨row', hrow, heq⟩ := Option.map_eq_some_iff.mp hfind
    cases heq
    have hid : row.id = account.user_id := by simpa using List.find?_some hrow
    have hkeys : account.provider = provider ∧ account.provider_id = providerId := by
      simpa using List.find?_some hlink
    intro hrowid
    have hmem : account ∈ (db.tables.recordOf owner.id).oauthAccounts :=
      List.mem_filter.mpr ⟨List.mem_of_find?_eq_some hlink, by simp [← hid, hrowid]⟩
    rw [h.links] at hmem
    exact unlinked account hmem hkeys.1 hkeys.2

/-- The code that was read, whatever happens to it, is not one of the user's. -/
def ForeignOtp (id : UserId) (table : OtpTable) (otpId : OtpId) (db : Database) : Prop :=
  otpId < db.fresh ∧ ∀ otp ∈ db.tables.otps table, otp.id = otpId → otp.userId ≠ id

theorem ForeignOtp.later {id : UserId} {table : OtpTable} {otpId : OtpId} (h : ForeignOtp id table otpId db)
    (hle : KeepsCodes id db t) : ForeignOtp id table otpId t :=
  ⟨Nat.lt_of_lt_of_le h.1 hle.fresh_le, hle.foreign table otpId h.1 h.2⟩

theorem ForeignOtp.untouched {id : UserId} {table : OtpTable} {otpId : OtpId} (h : ForeignOtp id table otpId db) :
    ¬ (Op.markOtpUsed table otpId).Touches db.tables id := by
  rintro ⟨otp, hmem, hid, hotp⟩
  exact h.2 otp hmem hotp hid

theorem Standing.foreignOtp (h : Standing owner db) {table : OtpTable} {userId : UserId} (other : userId ≠ owner.id)
    {otp : Otp} (ha : server.Answers (.findLatestOtp table userId) db (.ok (some otp)) t) :
    ForeignOtp owner.id table otp.id t := by
  obtain ⟨ω, hexec⟩ := exec_of_ok ha
  injection hexec with hexec
  injection hexec with hreply ht
  injection hreply with hfind
  subst ht
  obtain ⟨hmem, huser, -⟩ := mem_of_findLatestOtp hfind
  refine ⟨(h.otpKeys table).fresh otp hmem, fun otp' hmem' hid huser' => ?_⟩
  have heq := (h.otpKeys table).eq_of_id hmem' hmem hid
  exact other (by rw [← huser, ← heq, huser'])

end Reads

section Rules

theorem untouched_step {o : Op} (ho : ∀ tables, ¬ o.Touches tables owner.id) :
    ∀ t reply u, owner.anyone.Inv t → server.Answers o t reply u → owner.anyone.Inv u ∧ owner.others.Rel t u :=
  fun _ _ _ ht ha => Standing.untouched ht ha (ho _)

theorem leavesAlone_of_calls {p : Action α} (h : p.Calls fun o : Op => ∀ tables, ¬ o.Touches tables owner.id) :
    LeavesAlone owner (fun _ => True) p :=
  guarded_of_calls (fun _ => untouched_step) h

theorem leavesAlone_perform {o : Op} {R : o.Res → Prop} (ho : ∀ tables, ¬ o.Touches tables owner.id)
    (reads : ∀ db r t, Standing owner db → server.Answers o db (.ok r) t → R r) :
    LeavesAlone owner R (perform o) :=
  guarded_perform (untouched_step ho) reads

theorem leavesAlone_call {o : Op} (ho : ∀ tables, ¬ o.Touches tables owner.id) :
    LeavesAlone owner (fun _ => True) (perform o) :=
  leavesAlone_perform ho fun _ _ _ _ _ => trivial

theorem leavesAlone_liftExcept (x : Except Failure α) : LeavesAlone owner (fun _ => True) (liftExcept x) := by
  cases x with
  | ok a => exact guarded_ret trivial
  | error e => exact guarded_throw

theorem leavesAlone_transaction {body : TxId → Action α} {R : α → Prop}
    (h : ∀ tx, LeavesAlone owner R (body tx)) : LeavesAlone owner R (transaction body) := by
  refine guarded_bind (leavesAlone_call fun _ h => h) fun tx _ => guarded_tryCatch ?_ fun e => ?_
  · refine guarded_bind (h tx) fun a ha => ?_
    exact guarded_bind (leavesAlone_call fun _ h => h) fun _ _ => guarded_ret ha
  · refine guarded_bind (R := fun _ => True) ?_ fun _ _ => guarded_throw
    exact guarded_tryCatch (leavesAlone_call fun _ h => h) fun _ => guarded_ret trivial

section Find

variable {R : β → Prop}

theorem findUser_alone {tx : Option TxId} {i : UserId} {f : Option User → Action β}
    (missing : LeavesAlone owner R (f none)) (found : ∀ row : User, row.id = i → LeavesAlone owner R (f (some row))) :
    LeavesAlone owner R (perform (.findUser tx i) >>= f) := by
  refine guarded_bind (R := fun r : Option User => LeavesAlone owner R (f r)) ?_ fun _ h => h
  refine leavesAlone_perform (fun _ h => h) fun db r t _ ha => ?_
  cases r with
  | none => exact missing
  | some row => exact found row (findUser_id ha)

theorem findByEmail_alone {email : String} {f : Option User → Action β} (other : email ≠ owner.email)
    (missing : LeavesAlone owner R (f none))
    (found : ∀ row : User, row.id ≠ owner.id → LeavesAlone owner R (f (some row))) :
    LeavesAlone owner R (UsersService.findByEmail email >>= f) := by
  refine guarded_bind (R := fun r : Option User => LeavesAlone owner R (f r)) ?_ fun _ h => h
  refine leavesAlone_perform (fun _ h => h) fun db r t hdb ha => ?_
  cases r with
  | none => exact missing
  | some row => exact found row (Standing.email_ne hdb other ha)

theorem consume_alone {table : OtpTable} {userId : UserId} (other : userId ≠ owner.id) (code : String) :
    LeavesAlone owner (fun _ => True) (Otp.consume table userId code) := by
  intro l s
  apply withstands_bind
  apply withstands_perform
  intro t _ hI reply u ha
  obtain ⟨hu, hrel⟩ := Standing.untouched hI ha fun h => h
  refine ⟨hu, hrel, fun v hv _ => ?_⟩
  rcases reply with e | _ | otp
  · exact fun _ h => nomatch h
  · exact guarded_ret trivial _ _
  have hforeign := (Standing.foreignOtp hI other ha).later hv
  by_cases hmatch : otp.otpHash.verify code = true
  · simp only [hmatch]
    apply withstands_perform
    intro t' ht' hI' reply' u' ha'
    obtain ⟨hu', hrel'⟩ := Standing.untouched hI' ha' (hforeign.later ht').untouched
    exact ⟨hu', hrel', fun _ _ _ _ _ => trivial⟩
  · simp only [hmatch]
    exact guarded_ret trivial _ _

end Find

end Rules

section Services

variable {userId : UserId}

theorem findOne_alone (i : UserId) : LeavesAlone owner (fun row : User => row.id = i) (UsersService.findOne i) := by
  exact findUser_alone guarded_throw fun row hrow => guarded_ret hrow

theorem updateUser_alone (other : userId ≠ owner.id) (payload : UserPayload) :
    LeavesAlone owner (fun _ => True) (perform (.updateUser userId payload)) :=
  leavesAlone_call fun _ => other

theorem setRefreshTokenHash_alone (other : userId ≠ owner.id) (hash : Option (Digest Jwt)) :
    LeavesAlone owner (fun _ => True) (UsersService.setRefreshTokenHash userId hash) :=
  guarded_bind (updateUser_alone other _) fun _ _ => guarded_ret trivial

theorem markVerified_alone (other : userId ≠ owner.id) :
    LeavesAlone owner (fun row : User => row.id = userId) (UsersService.markVerified userId) :=
  guarded_bind (updateUser_alone other _) fun _ _ => findOne_alone userId

theorem signTokens_alone (row : User) : LeavesAlone owner (fun _ => True) (AuthService.signTokens env row) :=
  leavesAlone_of_calls (calls_bind (calls_perform fun _ h => h) fun _ =>
    calls_bind (calls_perform fun _ h => h) fun _ => trivial)

theorem issueTokens_alone {row : User} (other : row.id ≠ owner.id) (message : String) :
    LeavesAlone owner (fun _ => True) (AuthService.issueTokens env row message) := by
  refine guarded_bind (signTokens_alone row) fun tokens _ => ?_
  have hpersist : LeavesAlone owner (fun _ => True) (AuthService.persistRefreshToken row.id tokens.refreshToken) :=
    guarded_bind (leavesAlone_call fun _ h => h) fun hash _ => setRefreshTokenHash_alone other _
  exact guarded_bind hpersist fun _ _ => guarded_ret trivial

theorem issue_alone {table : OtpTable} {expiresIn : ℕ} (other : userId ≠ owner.id) (source : OtpSource) :
    LeavesAlone owner (fun _ => True) (Otp.issue table expiresIn userId source) := by
  have hcode : LeavesAlone owner (fun _ => True) Otp.generateCode :=
    guarded_bind (leavesAlone_call fun _ h => h) fun _ _ => guarded_ret trivial
  refine guarded_bind (leavesAlone_call fun _ => other) fun _ _ => ?_
  refine guarded_bind hcode fun code _ => ?_
  refine guarded_bind (leavesAlone_call fun _ h => h) fun now _ => ?_
  refine guarded_bind (leavesAlone_call fun _ h => h) fun hash _ => ?_
  exact guarded_bind (leavesAlone_call fun _ => other) fun _ _ => guarded_ret trivial

theorem checkTotp_alone (row : User) (code : String) :
    LeavesAlone owner (fun _ => True) (AuthService.checkTotp env row code) := by
  unfold AuthService.checkTotp
  split
  · exact guarded_throw
  · refine guarded_bind (leavesAlone_liftExcept _) fun secret _ => ?_
    refine guarded_bind (guarded_bind (leavesAlone_call fun _ h => h) fun now _ => leavesAlone_liftExcept _)
      fun valid _ => ?_
    split_ifs
    · exact guarded_ret trivial
    · exact guarded_throw

theorem set2faTotpActiveState_alone (other : userId ≠ owner.id) (state : Bool) :
    LeavesAlone owner (fun _ => True) (UsersService.set2faTotpActiveState userId state) :=
  guarded_bind (updateUser_alone other _) fun _ _ => guarded_ret trivial

theorem create_alone (dto : CreateUserDto) :
    LeavesAlone owner (fun row : User => row.id ≠ owner.id) (UsersService.create dto) := by
  refine guarded_bind (leavesAlone_call fun _ h => h) fun existing _ => ?_
  cases existing with
  | some _ => exact guarded_throw
  | none =>
    refine guarded_bind (leavesAlone_call fun _ h => h) fun hash _ => ?_
    exact leavesAlone_perform (fun _ h => h) fun db row t hdb ha => hdb.insertUser_ne ha

theorem linkOauthAccountToUser_alone (other : userId ≠ owner.id) (provider providerId : String) :
    LeavesAlone owner (fun _ => True) (UsersService.linkOauthAccountToUser userId provider providerId) :=
  leavesAlone_of_calls
    (UsersService.calls_linkOauthAccountToUser (fun _ => other) (fun _ h => h) fun _ h => h)

theorem linkByEmail_alone {row : User} (other : row.id ≠ owner.id) (provider providerId : String) :
    LeavesAlone owner (fun linked : User => linked.id ≠ owner.id)
      (UsersService.linkByEmail row provider providerId) := by
  have hlink : LeavesAlone owner (fun linked : User => linked.id ≠ owner.id)
      (UsersService.linkOauthAccountToUser row.id provider providerId >>= fun _ => UsersService.findOne row.id) := by
    refine guarded_bind (linkOauthAccountToUser_alone other provider providerId) fun _ _ => ?_
    exact (findOne_alone row.id).mono fun linked hid => hid ▸ other
  unfold UsersService.linkByEmail
  dsimp only
  split_ifs
  · exact hlink
  · have hverified : LeavesAlone owner (fun _ => True) (UsersService.markVerified row.id) :=
      (markVerified_alone other).mono fun _ _ => trivial
    exact guarded_bind hverified fun _ _ => hlink

theorem createUserWithOauthLink_alone (tx : TxId) (params : CreateVerifiedUserWithOauthLinkParams) :
    LeavesAlone owner (fun row : User => row.id ≠ owner.id)
      (UserModelAction.createUserWithOauthLink tx params) := by
  refine guarded_bind (R := fun row : User => row.id ≠ owner.id)
    (leavesAlone_perform (fun _ h => h) fun db row t hdb ha => hdb.insertUser_ne ha) fun row hrow => ?_
  refine guarded_bind (leavesAlone_call fun _ => hrow) fun _ _ => ?_
  exact findUser_alone guarded_throw fun row' hrow' => guarded_ret (hrow' ▸ hrow)

theorem resolve_alone {provider : String} {payload : OAuthProfilePayload} (other : payload.email ≠ owner.email)
    (unlinked : ∀ account ∈ owner.links, account.provider = provider → account.provider_id ≠ payload.providerId)
    (signupRole : Option OAuthSignupRole) : LeavesAlone owner (fun row : User => row.id ≠ owner.id)
      (UsersService.resolveOAuthUserFromProviderProfile provider payload signupRole) := by
  refine guarded_bind (R := fun linked : Option (OAuthUser × User) => ∀ l, linked = some l → l.2.id ≠ owner.id)
    (leavesAlone_perform (fun _ h => h) fun db linked t hdb ha l hl => ?_) fun linked hlinked => ?_
  · subst hl
    exact hdb.findOauthAccount_ne unlinked ha
  · cases linked with
    | some linked => exact guarded_ret (hlinked linked rfl)
    | none =>
      refine findByEmail_alone other ?_ fun row hrow => linkByEmail_alone hrow _ _
      refine guarded_tryCatch ?_ fun e => ?_
      · cases signupRole with
        | none => exact guarded_throw
        | some role => exact leavesAlone_transaction fun tx => createUserWithOauthLink_alone tx _
      · split
        · exact findByEmail_alone other guarded_throw fun row hrow => linkByEmail_alone hrow _ _
        · exact guarded_throw

theorem saveProfile_alone {Profile : Type} (other : userId ≠ owner.id) {find : TxId → Action (Option Profile)}
    {save : TxId → Action Profile} (profileExists : String)
    (hfind : ∀ tx, (find tx).Calls fun o : Op => ∀ tables, ¬ o.Touches tables owner.id)
    (hsave : ∀ tx, (save tx).Calls fun o : Op => ∀ tables, ¬ o.Touches tables owner.id) (tx : TxId) :
    LeavesAlone owner (fun _ => True) (Onboarding.saveProfile userId find profileExists save tx) :=
  leavesAlone_of_calls (Onboarding.calls_saveProfile (fun _ h => h) (fun _ => other) (hfind tx) (hsave tx))

theorem completeOnboarding_alone {Profile : Type} (other : userId ≠ owner.id) {find : TxId → Action (Option Profile)}
    {save : TxId → Action Profile} (profileExists message : String)
    (hfind : ∀ tx, (find tx).Calls fun o : Op => ∀ tables, ¬ o.Touches tables owner.id)
    (hsave : ∀ tx, (save tx).Calls fun o : Op => ∀ tables, ¬ o.Touches tables owner.id) :
    LeavesAlone owner (fun _ => True)
      (Onboarding.completeOnboarding env userId find profileExists save message) := by
  refine guarded_bind (leavesAlone_transaction (saveProfile_alone other profileExists hfind hsave)) fun profile _ => ?_
  have hsession : LeavesAlone owner (fun _ => True) (AuthService.issueSessionForUser env userId message) :=
    guarded_bind (findOne_alone userId) fun row hrow => issueTokens_alone (hrow ▸ other) message
  exact guarded_bind hsession fun _ _ => guarded_ret trivial

theorem setup2faTotp_alone {caller : AuthenticatedUser} (other : caller.sub ≠ owner.id) :
    LeavesAlone owner (fun _ => True) (AuthService.setup2faTotp env caller) := by
  have hencrypt : ∀ secret, LeavesAlone owner (fun _ => True) (encrypt env secret) := fun secret =>
    guarded_bind (leavesAlone_call fun _ h => h) fun iv _ => leavesAlone_liftExcept _
  have hstore : ∀ stored, LeavesAlone owner (fun _ => True) (UsersService.setup2faTotp caller.sub stored) := by
    intro stored
    refine guarded_tryCatch (findUser_alone guarded_throw fun row hrow => ?_) fun e => ?_
    · dsimp only
      split
      · exact guarded_throw
      · exact guarded_bind (updateUser_alone other _) fun _ _ => guarded_ret trivial
    · unfold UsersService.setup2faTotpFailed
      split <;> exact guarded_throw
  refine guarded_bind (leavesAlone_call fun _ h => h) fun secret _ => ?_
  refine guarded_bind (hencrypt secret) fun stored _ => ?_
  exact guarded_bind (hstore stored) fun _ _ => guarded_ret trivial

theorem enableTotp2fa_alone (other : userId ≠ owner.id) (code : String) :
    LeavesAlone owner (fun _ => True) (AuthService.enableTotp2fa env userId code) := by
  refine guarded_bind (findOne_alone userId) fun row _ => ?_
  refine guarded_bind (checkTotp_alone row code) fun _ _ => ?_
  exact guarded_bind (set2faTotpActiveState_alone other true) fun _ _ => guarded_ret trivial

theorem disable2fa_alone (other : userId ≠ owner.id) (code : String) :
    LeavesAlone owner (fun _ => True) (AuthService.disable2fa env userId code) := by
  refine guarded_bind (findOne_alone userId) fun row _ => ?_
  split
  · refine guarded_bind (checkTotp_alone row code) fun _ _ => ?_
    exact guarded_bind (set2faTotpActiveState_alone other false) fun _ _ => guarded_ret trivial
  · exact guarded_throw

theorem update_alone (other : userId ≠ owner.id) (dto : UpdateUserDto) :
    LeavesAlone owner (fun _ => True) (UsersService.update userId dto) := by
  have hhash : LeavesAlone owner (fun _ => True) (UsersService.hashPassword dto.password) := by
    unfold UsersService.hashPassword
    split
    · exact guarded_bind (leavesAlone_call fun _ h => h) fun _ _ => guarded_ret trivial
    · exact guarded_ret trivial
    · exact guarded_ret trivial
  refine guarded_bind (findOne_alone userId) fun _ _ => ?_
  refine guarded_bind hhash fun password _ => ?_
  refine guarded_bind (updateUser_alone other _) fun updated _ => ?_
  cases updated with
  | none => exact guarded_throw
  | some row => exact guarded_ret trivial

end Services

section Endpoints

theorem signedFor_ne {secret : String} {presented : Option Jwt} {token : Jwt}
    (other : signedFor secret owner.id presented = false) (hpresented : presented = some token)
    (hsecret : token.secret = secret) : token.payload.sub ≠ owner.id := by
  simpa [signedFor, hpresented, hsecret] using other

theorem ne_of_signedFor {secret : String} {presented : Option Jwt} {i : UserId}
    (h : signedFor secret i presented = true) (other : signedFor secret owner.id presented = false) :
    i ≠ owner.id := by
  rintro rfl
  rw [h] at other
  cases other

theorem jwtAuthGuard_alone (c : Credentials) :
    LeavesAlone owner (fun caller : AuthenticatedUser => signedFor env.JWT_ACCESS_SECRET caller.sub c.token = true)
      (jwtAuthGuard env c) := by
  unfold jwtAuthGuard
  split
  · exact guarded_throw
  · rename_i token htoken
    refine guarded_bind (leavesAlone_call fun _ h => h) fun now _ => ?_
    split
    · exact guarded_throw
    · rename_i payload hverify
      obtain ⟨hsecret, -, rfl⟩ := Jwt.verify_eq_ok.mp hverify
      refine findUser_alone guarded_throw fun row hrow => guarded_ret ?_
      simp [signedFor, htoken, hsecret, hrow]

theorem guarded_alone {roles : List UserRole} {c : Credentials} {handler : AuthenticatedUser → Action Response}
    (h : ∀ caller : AuthenticatedUser, signedFor env.JWT_ACCESS_SECRET caller.sub c.token = true →
      LeavesAlone owner (fun _ => True) (handler caller)) :
    LeavesAlone owner (fun _ => True) (guarded env roles c handler) := by
  refine guarded_bind (jwtAuthGuard_alone c) fun caller hcaller => ?_
  refine guarded_bind (R := fun _ => True) ?_ fun _ _ => h caller hcaller
  unfold rolesGuard
  split
  · exact guarded_ret trivial
  · exact guarded_throw

theorem leavesAlone_map {p : Action α} (f : α → β) (h : LeavesAlone owner (fun _ => True) p) :
    LeavesAlone owner (fun _ => True) (f <$> p) :=
  guarded_bind h fun _ _ => guarded_ret trivial

theorem refresh_alone {refreshToken : Option Jwt}
    (other : signedFor env.JWT_REFRESH_SECRET owner.id refreshToken = false) :
    LeavesAlone owner (fun _ => True) (AuthService.refresh env refreshToken) := by
  unfold AuthService.refresh
  split
  · exact guarded_throw
  · rename_i token
    refine guarded_bind (leavesAlone_call fun _ h => h) fun now _ => ?_
    split
    · exact guarded_throw
    · rename_i payload hverify
      obtain ⟨hsecret, -, rfl⟩ := Jwt.verify_eq_ok.mp hverify
      refine findUser_alone guarded_throw fun row hrow => ?_
      have hne : row.id ≠ owner.id := hrow ▸ signedFor_ne other rfl hsecret
      dsimp only
      split
      · exact guarded_throw
      · split
        · refine guarded_bind (signTokens_alone row) fun tokens _ => ?_
          refine guarded_bind (leavesAlone_call fun _ h => h) fun next _ => ?_
          refine guarded_bind (leavesAlone_call fun _ => hne) fun rotated _ => ?_
          split
          · exact guarded_ret trivial
          · exact guarded_throw
        · exact guarded_throw

theorem logout_alone {refreshToken : Option Jwt}
    (other : signedFor env.JWT_REFRESH_SECRET owner.id refreshToken = false) :
    LeavesAlone owner (fun _ => True) (AuthService.logoutByRefreshToken env refreshToken) := by
  unfold AuthService.logoutByRefreshToken
  split
  · exact guarded_ret trivial
  · rename_i token
    refine guarded_bind (leavesAlone_call fun _ h => h) fun now _ => ?_
    split
    · exact guarded_ret trivial
    · rename_i payload hverify
      obtain ⟨hsecret, -, rfl⟩ := Jwt.verify_eq_ok.mp hverify
      refine findUser_alone (guarded_ret trivial) fun row hrow => ?_
      have hne : row.id ≠ owner.id := hrow ▸ signedFor_ne other rfl hsecret
      dsimp only
      split
      · exact guarded_ret trivial
      · split
        · exact setRefreshTokenHash_alone hne none
        · exact guarded_ret trivial

theorem twoFaPendingGuard_alone {authorization : Option Jwt}
    (other : signedFor env.JWT_ACCESS_SECRET owner.id authorization = false) :
    LeavesAlone owner (fun sub : UserId => sub ≠ owner.id) (twoFaPendingGuard env authorization) := by
  unfold twoFaPendingGuard
  split
  · exact guarded_throw
  · rename_i token
    refine guarded_bind (leavesAlone_call fun _ h => h) fun now _ => ?_
    split
    · exact guarded_throw
    · exact guarded_throw
    · rename_i payload hverify
      obtain ⟨hsecret, -, rfl⟩ := Jwt.verify_eq_ok.mp hverify
      split
      · exact guarded_ret (signedFor_ne other rfl hsecret)
      · exact guarded_throw

theorem register_alone (dto : RegisterDto) : LeavesAlone owner (fun _ => True) (AuthService.register env dto) := by
  refine guarded_bind (create_alone _) fun row hrow => ?_
  refine guarded_bind (issue_alone hrow _) fun issued _ => ?_
  exact guarded_bind (leavesAlone_call fun _ h => h) fun _ _ => guarded_ret trivial

theorem verifyEmail_alone {email : String} (other : email ≠ owner.email) (otp : String) :
    LeavesAlone owner (fun _ => True) (AuthService.verifyEmail env email otp) := by
  refine findByEmail_alone other guarded_throw fun row hrow => ?_
  refine guarded_bind (consume_alone hrow otp) fun valid _ => ?_
  split_ifs
  · exact issueTokens_alone hrow _
  · exact guarded_bind (markVerified_alone hrow) fun row' hid => issueTokens_alone (hid ▸ hrow) _
  · exact guarded_throw

theorem resendVerification_alone {email : String} (other : email ≠ owner.email) :
    LeavesAlone owner (fun _ => True) (AuthService.resendVerification env email) := by
  refine findByEmail_alone other guarded_throw fun row hrow => ?_
  dsimp only
  split_ifs
  · exact guarded_throw
  · refine guarded_bind (leavesAlone_call fun _ h => h) fun now _ => ?_
    refine guarded_bind (leavesAlone_call fun _ h => h) fun count _ => ?_
    split_ifs
    · exact guarded_throw
    · refine guarded_bind (issue_alone hrow _) fun issued _ => ?_
      exact guarded_bind (leavesAlone_call fun _ h => h) fun _ _ => guarded_ret trivial

theorem login_alone {email : String} (other : email ≠ owner.email) (password : String) :
    LeavesAlone owner (fun _ => True) (AuthService.login env email password) := by
  refine findByEmail_alone other guarded_throw fun row hrow => ?_
  dsimp only [AuthService.loginUser]
  split_ifs
  · exact guarded_throw
  · exact guarded_bind (leavesAlone_call fun _ h => h) fun _ _ => guarded_ret trivial
  · split
    · exact guarded_throw
    · split_ifs
      · exact guarded_bind (issueTokens_alone hrow _) fun _ _ => guarded_ret trivial
      · exact guarded_throw

theorem forgotPassword_alone (email : String) :
    LeavesAlone owner (fun _ => True) (AuthService.forgotPassword email) := by
  refine leavesAlone_of_calls (calls_bind (calls_perform fun _ h => h) fun row => ?_)
  cases row with
  | none => trivial
  | some row => exact calls_bind (calls_perform fun _ h => h) fun _ => trivial

theorem deliverForUser_alone {userId : UserId} (other : userId ≠ owner.id) :
    LeavesAlone owner (fun _ => True) (PasswordResetDeliveryService.deliverForUser env userId) := by
  refine findUser_alone (guarded_ret trivial) fun row hrow => ?_
  refine guarded_bind (issue_alone (hrow ▸ other) _) fun issued _ => ?_
  exact leavesAlone_call fun _ h => h

theorem resetPassword_alone {email : String} (other : trim email ≠ owner.email) (otp password : String) :
    LeavesAlone owner (fun _ => True) (AuthService.resetPassword email otp password) := by
  refine findByEmail_alone other guarded_throw fun row hrow => ?_
  refine guarded_bind (consume_alone hrow otp) fun valid _ => ?_
  split_ifs
  · refine guarded_bind (leavesAlone_call fun _ h => h) fun hash _ => ?_
    have hupdate : LeavesAlone owner (fun _ => True) (UsersService.updatePassword row.id hash) :=
      guarded_bind (updateUser_alone hrow _) fun _ _ => guarded_ret trivial
    exact guarded_bind hupdate fun _ _ => guarded_ret trivial
  · exact guarded_throw

theorem googleCallback_alone {profile : GoogleProfile} {signupRole : Option OAuthSignupRole}
    (other : (Request.googleCallback profile signupRole).concerns env owner = false) :
    LeavesAlone owner (fun _ => True) (AuthService.googleCallback env profile signupRole) := by
  obtain ⟨hemail, hlinked⟩ := Bool.or_eq_false_iff.mp other
  have hunlinked : ∀ account ∈ owner.links, account.provider = "google" →
      account.provider_id ≠ profile.providerId := by
    intro account hmem hprovider hproviderId
    have := List.any_eq_false.mp hlinked account hmem
    simp [hprovider, hproviderId] at this
  refine guarded_bind (resolve_alone (of_decide_eq_false hemail) hunlinked signupRole) fun row hrow => ?_
  exact issueTokens_alone hrow _

theorem verify2fa_alone {sub : UserId} (other : sub ≠ owner.id) (code : String) :
    LeavesAlone owner (fun _ => True) (AuthService.verify2fa env sub code) := by
  refine guarded_bind (findOne_alone sub) fun row hrow => ?_
  split_ifs
  · exact guarded_throw
  · exact guarded_bind (checkTotp_alone row code) fun _ _ => issueTokens_alone (hrow ▸ other) _

theorem handle_alone (req : Request) (other : req.concerns env owner = false) :
    LeavesAlone owner (fun _ => True) (handle env req) := by
  cases req with
  | register dto => exact leavesAlone_map _ (register_alone dto)
  | verifyEmail email otp =>
    exact guarded_bind (verifyEmail_alone (of_decide_eq_false other) otp) fun _ _ => guarded_ret trivial
  | resendVerification email => exact leavesAlone_map _ (resendVerification_alone (of_decide_eq_false other))
  | login email password =>
    refine guarded_bind (login_alone (of_decide_eq_false other) password) fun result _ => ?_
    cases result with
    | session result => exact guarded_ret trivial
    | twoFaNeeded message state_token => exact guarded_ret trivial
  | forgotPassword email => exact leavesAlone_map _ (forgotPassword_alone email)
  | deliverPasswordReset userId => exact leavesAlone_map _ (deliverForUser_alone (of_decide_eq_false other))
  | resetPassword email otp password =>
    exact leavesAlone_map _ (resetPassword_alone (of_decide_eq_false other) otp password)
  | googleCallback profile signupRole =>
    refine guarded_tryCatch ?_ fun e => guarded_ret trivial
    exact guarded_bind (googleCallback_alone other) fun _ _ => guarded_ret trivial
  | refresh refreshToken => exact guarded_bind (refresh_alone other) fun _ _ => guarded_ret trivial
  | logout refreshToken => exact guarded_bind (logout_alone other) fun _ _ => guarded_ret trivial
  | verify2fa authorization code =>
    refine guarded_bind (twoFaPendingGuard_alone other) fun sub hsub => ?_
    exact guarded_bind (verify2fa_alone hsub code) fun _ _ => guarded_ret trivial
  | me c =>
    refine guarded_alone fun caller _ => leavesAlone_map _ ?_
    exact guarded_bind (findOne_alone caller.sub) fun _ _ => guarded_ret trivial
  | setup2faTotp c =>
    exact guarded_alone fun caller h => leavesAlone_map _ (setup2faTotp_alone (ne_of_signedFor h other))
  | enable2faTotp c code =>
    exact guarded_alone fun caller h => leavesAlone_map _ (enableTotp2fa_alone (ne_of_signedFor h other) code)
  | disable2fa c code =>
    exact guarded_alone fun caller h => leavesAlone_map _ (disable2fa_alone (ne_of_signedFor h other) code)
  | talentOnboarding c dto =>
    refine guarded_alone fun caller h => leavesAlone_map _ ?_
    exact completeOnboarding_alone (ne_of_signedFor h other) _ _ (fun tx => calls_perform fun _ h => h)
      fun tx => calls_perform fun _ ⟨_, hid⟩ => ne_of_signedFor h other hid
  | employerOnboarding c dto =>
    refine guarded_alone fun caller h => leavesAlone_map _ ?_
    exact completeOnboarding_alone (ne_of_signedFor h other) _ _ (fun tx => calls_perform fun _ h => h)
      fun tx => calls_perform fun _ ⟨_, hid⟩ => ne_of_signedFor h other hid
  | createUser c dto =>
    exact guarded_alone fun caller _ => leavesAlone_map _ ((create_alone dto).mono fun _ _ => trivial)
  | listUsers c pagination => exact guarded_alone fun caller _ => leavesAlone_map _ (leavesAlone_call fun _ h => h)
  | getUser c i =>
    exact guarded_alone fun caller _ => leavesAlone_map _ ((findOne_alone i).mono fun _ _ => trivial)
  | updateUser c i dto =>
    exact guarded_alone fun caller _ => leavesAlone_map _ (update_alone (of_decide_eq_false other) dto)
  | deleteUser c i =>
    have hne : i ≠ owner.id := of_decide_eq_false other
    refine guarded_alone fun caller _ => leavesAlone_map _ ?_
    exact guarded_bind (findOne_alone i) fun _ _ => leavesAlone_call fun _ => hne

theorem serve_alone {cookies : CookieEnv} {validator : Validator} (req : HttpRequest)
    (other : req.concerns env owner = false) : LeavesAlone owner (fun _ => True) (serve env cookies validator req) := by
  unfold serve
  split
  · split
    · exact handle_alone _ rfl
    · exact guarded_throw
  · split
    · exact handle_alone _ rfl
    · exact guarded_alone fun _ _ => guarded_throw
  · split
    · exact handle_alone _ other
    · exact guarded_alone fun _ _ => guarded_throw
  · split
    · exact guarded_ret trivial
    · exact guarded_throw
  · exact handle_alone _ other
  · exact handle_alone _ other

end Endpoints

section Runs

variable {cookies : CookieEnv} {validator : Validator} {db : Database} {p : HttpPool} {user : User}

theorem http_company : Company owner.anyone owner.others (http env cookies validator) where
  same _ := Iff.rfl
  wider _ _ h := h.toKeepsCodes
  env m _ hs := hs.tick m

theorem standing_of_found (hc : db.Constraints) (hotps : ∀ table, OtpKeys table db)
    (found : findById db.tables.users user.id = some user)
    (hpending : Pending (fun w => w.references user.id = false) db) : Standing (db.tables.ownerOf user) db :=
  ⟨hc, hotps, ⟨user, found, rfl⟩, rfl, hpending⟩

theorem among_start {Y : System backend Database Draw Tick HttpRequest Response} {pid : ℕ}
    (h : Standing owner db) : Among owner.anyone owner.others Y.toMachine pid (Pool.start db : HttpPool) := by
  refine ⟨h, ?_, ?_⟩
  · simp [Pool.start]
  · simp [Pool.start]

/-- Nothing that is stored of a user changes in a run in which no request concerns the user, whatever the others
do and in whatever order their statements are executed. -/
theorem users_isolated (hc : db.Constraints) (hotps : ∀ table, OtpKeys table db)
    (hpending : Pending (fun w => w.references user.id = false) db)
    (found : findById db.tables.users user.id = some user)
    (hp : (http env cookies validator).Reachable (.start db) p)
    (other : ∀ proc ∈ p.procs, proc.req.concerns env (db.tables.ownerOf user) = false) :
    p.world.state.tables.recordOf user.id = db.tables.recordOf user.id := by
  have hstanding := standing_of_found hc hotps found hpending
  -- the place of a request that never arrives
  have hrun := http_company.run (Q := fun _ _ _ => True)
    (B := fun i req => i ≠ p.procs.length ∧ req.concerns env (db.tables.ownerOf user) = false)
    (fun _ req _ hreq => serve_alone req hreq.2) (fun _ hreq => absurd rfl hreq.1) (among_start hstanding)
    (Nat.zero_le p.procs.length) hp fun i proc hproc _ =>
      ⟨Nat.ne_of_lt (List.getElem?_eq_some_iff.mp hproc).1, other proc (List.mem_of_getElem? hproc)⟩
  exact (hrun.2.pending (Nat.le_refl _)).record

def otherUser : User :=
  { sampleUser with
    id := 2
    email := "ada@example.com"
    two_fa_enabled := false
    two_fa_method := none
    two_fa_totp_secret := none }

def twoUsers : Database := sampleDatabase [sampleUser, otherUser]

theorem twoUsers_constraints : twoUsers.Constraints :=
  ⟨by simp [rows, pendingOf, twoUsers, sampleDatabase, Apart, User.row, sampleUser, otherUser],
    by simp [rows, pendingOf, twoUsers, sampleDatabase, User.row, sampleUser, otherUser],
    by simp [links, pendingOf, twoUsers, sampleDatabase], .nil, by simp [twoUsers, sampleDatabase]⟩

def otherDelivery : HttpRequest := .validated (.deliverPasswordReset 2) rfl

def otherUsersRun : Option HttpPool :=
  (http sampleEnv {} sampleValidator).play (.start twoUsers)
    [.spawn (.validated (.login "ada@example.com" "correct horse") rfl), .run 0 {}, .spawn otherDelivery, .run 1 {},
      .run 0 {}, .run 1 {}, .run 0 {}, .run 1 {}, .run 0 {}, .run 1 {}, .run 0 {}, .run 1 {}, .run 1 {}, .run 1 {}]

theorem otherUsersRun_isSome : otherUsersRun.isSome = true := rfl

theorem user_isolated_in_run : (otherUsersRun.get otherUsersRun_isSome).world.state.tables.recordOf 1 =
    twoUsers.tables.recordOf 1 := by
  have hp := System.reachable_of_play (Option.some_get otherUsersRun_isSome).symm
  have hother : ((otherUsersRun.get otherUsersRun_isSome).procs.all fun proc =>
      proc.req.concerns sampleEnv (twoUsers.tables.ownerOf sampleUser) = false) = true := by decide +kernel
  have hfound : findById twoUsers.tables.users sampleUser.id = some sampleUser := rfl
  refine users_isolated twoUsers_constraints (fun table => ⟨List.nodup_nil, by simp [twoUsers, sampleDatabase]⟩)
    (Pending.of_idle rfl) hfound hp ?_
  exact fun proc hproc => of_decide_eq_true (List.all_eq_true.mp hother proc hproc)

end Runs

end SkillBridge
