import SkillBridge.Api.Http
import SkillBridge.Database.Growth
import SkillBridge.Interleaving.Persistence

set_option autoImplicit false

/-! A Google account that has once been linked to a user signs that user in from then on. -/

namespace SkillBridge

open Interleaving Prog Database

/-- `account` is the row that a lookup of its identity finds, and its user exists. -/
structure LinkedIdentity (account : OAuthUser) (db : Database) : Prop where
  found : db.tables.oauthAccounts.find? (fun other =>
    other.provider = account.provider && other.provider_id = account.provider_id) = some account
  user : ∃ user ∈ db.tables.users, user.id = account.user_id

section Step

variable {db t : Database} {account : OAuthUser} {o : Op} {reply : Reply o} {id : UserId}

/-- The foreign key of the links has no `ON DELETE`. -/
theorem unlinked_of_deleteUser (h : server.Answers (.deleteUser id) db (.ok ()) t) :
    ∀ account ∈ db.tables.oauthAccounts, account.user_id ≠ id := by
  rcases h with ⟨ω, h⟩ | ⟨e, -, he, -⟩
  · have hdelete : db.deleteUser id = some (.ok (), t) := h
    unfold Database.deleteUser at hdelete
    split_ifs at hdelete with hreferenced hlinked
    · cases hdelete
    · simpa using hlinked
  · cases he

theorem users_updateWhere {f : User → User} (hf : ∀ user, (f user).id = user.id) {i : UserId} {users : List User}
    (h : ∃ user ∈ users, user.id = id) : ∃ user ∈ updateWhere i f users, user.id = id := by
  obtain ⟨user, hmem, rfl⟩ := h
  refine ⟨_, List.mem_map_of_mem hmem, ?_⟩
  split_ifs
  · exact hf user
  · rfl

theorem Database.Effect.user_kept (he : Effect db o reply t) (h : ∃ user ∈ db.tables.users, user.id = id)
    (kept : (⟨o, reply⟩ : ApiCall) ≠ done (.deleteUser id) ()) : ∃ user ∈ t.tables.users, user.id = id := by
  cases he with
  | insertUser unique alone =>
    obtain ⟨user, hmem, hid⟩ := h
    exact ⟨user, List.mem_append_left _ hmem, hid⟩
  | updateUser found unique alone =>
    refine users_updateWhere ?_ h
    exact fun user => rfl
  | rotated found stored =>
    refine users_updateWhere ?_ h
    exact fun user => rfl
  | @deleteUser i =>
    obtain ⟨user, hmem, rfl⟩ := h
    refine ⟨user, List.mem_filter.mpr ⟨hmem, decide_eq_true ?_⟩, rfl⟩
    rintro rfl
    exact kept rfl
  | @committed tx =>
    obtain ⟨user, hmem, hid⟩ := h
    obtain ⟨user', hmem', hforward⟩ := (grows_foldl (db.pending tx)).users user hmem
    exact ⟨user', hmem', hforward.id.trans hid⟩
  | _ => exact h

theorem Database.Effect.oauthAccounts_prefix (he : Effect db o reply t) :
    db.tables.oauthAccounts <+: t.tables.oauthAccounts := by
  cases he with
  | linked found => exact List.prefix_append _ _
  | committed => exact (grows_foldl _).oauthAccounts
  | _ => exact List.prefix_rfl

theorem find?_of_append {α : Type} {f : α → Bool} {l l' : List α} {a : α} (h : l <+: l')
    (hfind : l.find? f = some a) : l'.find? f = some a := by
  obtain ⟨l₂, rfl⟩ := h
  rw [List.find?_append, hfind]
  rfl

theorem LinkedIdentity.step (h : LinkedIdentity account db) (ha : server.Answers o db reply t) :
    LinkedIdentity account t := by
  have he := answers_effect ha
  refine ⟨find?_of_append he.oauthAccounts_prefix h.found, he.user_kept h.user fun hcall => ?_⟩
  cases hcall
  exact unlinked_of_deleteUser ha account (List.mem_of_find?_eq_some h.found) rfl

theorem LinkedIdentity.tick (h : LinkedIdentity account db) (m : Tick) : LinkedIdentity account (server.env m db) :=
  ⟨h.found, h.user⟩

theorem LinkedIdentity.read (h : LinkedIdentity account db) :
    ∃ user, db.findOauthAccount account.provider account.provider_id = some (account, user) ∧
      user.id = account.user_id := by
  obtain ⟨row, hrow⟩ : ∃ row, findById db.tables.users account.user_id = some row := by
    obtain ⟨user, hmem, hid⟩ := h.user
    exact Option.isSome_iff_exists.mp (List.find?_isSome.mpr ⟨user, hmem, by simpa using hid⟩)
  refine ⟨row, ?_, by simpa using List.find?_some hrow⟩
  rw [Database.findOauthAccount, h.found]
  simp only [hrow, Option.map_some]

end Step

section Callback

variable {env : Env} {account : OAuthUser} {α : Type}

/-- What the browser is sent after the callback: a session of the user, or back to the login page because the
infrastructure failed. It is neither asked for a role nor signed in as another user. -/
inductive SignsIn (env : Env) (id : UserId) : Response → Prop
  | session {user : User} {tokens : AuthTokens} (owner : user.id = id) (access : tokens.accessToken.payload.sub = id)
      (refresh : tokens.refreshToken.payload.sub = id) : SignsIn env id
        (.redirect (AuthService.buildFrontendRedirectUrl env (AuthService.toAuthUser user)) (some tokens))
  | failed {key : String} (h : key = "oauth_failed") :
      SignsIn env id (.redirect s!"{env.FRONTEND_URL}/login?error={key}" none)

abbrev OfInfrastructure (R : α → Prop) : Except Failure α → Prop
  | .ok a => R a
  | .error e => infrastructureFailure e = true

def Op.createsAccount : Op → Prop
  | .insertUser _ _ | .insertOauthAccount _ _ _ _ => True
  | _ => False

theorem amid_sign {I : Database → Prop} (payload : JwtPayload) (jti : Bool) (secret : String) (expiresIn : ℕ) :
    (perform (.signAsync payload jti secret expiresIn)).Amid server I (fun o => ¬ o.createsAccount)
      (OfInfrastructure fun token : Jwt => token.payload.sub = payload.sub) := by
  refine amid_perform (fun s ω reply t _ hexec => ?_) (fun e he => he) id
  obtain ⟨rfl, rfl⟩ := Prod.mk.inj (Option.some.inj hexec)
  exact rfl

theorem amid_issueTokens {I : Database → Prop} (user : User) (message : String) :
    (AuthService.issueTokens env user message).Amid server I (fun o => ¬ o.createsAccount)
      (OfInfrastructure fun result : AuthResult => result.user = AuthService.toAuthUser user ∧
        result.tokens.accessToken.payload.sub = user.id ∧ result.tokens.refreshToken.payload.sub = user.id) := by
  have hsign : (AuthService.signTokens env user).Amid server I (fun o => ¬ o.createsAccount)
      (OfInfrastructure fun tokens : AuthTokens =>
        tokens.accessToken.payload.sub = user.id ∧ tokens.refreshToken.payload.sub = user.id) := by
    refine amid_bind ((amid_sign _ _ _ _).mono fun access haccess => ?_)
    cases access with
    | error e => exact haccess
    | ok access =>
      refine amid_bind ((amid_sign _ _ _ _).mono fun refresh hrefresh => ?_)
      cases refresh with
      | error e => exact hrefresh
      | ok refresh => exact ⟨haccess, hrefresh⟩
  have hpersist : ∀ token, (AuthService.persistRefreshToken user.id token).Amid server I
      (fun o => ¬ o.createsAccount) (OfInfrastructure fun _ => True) := by
    intro token
    refine amid_bind (amid_perform (fun s ω reply t _ hexec => ?_) (fun e he => he) id)
    obtain ⟨rfl, -⟩ := Prod.mk.inj (Option.some.inj hexec)
    refine amid_bind (amid_perform (fun s ω reply t _ hexec => ?_) (fun e he => he) id)
    have hupdate : s.updateUser user.id { refreshTokenHash := some _ } = some (reply, t) := hexec
    unfold Database.updateUser at hupdate
    split at hupdate
    · cases hupdate
      trivial
    · split_ifs at hupdate with hfits hlocked hnull hunique hwaits
      · cases hfits
      · cases hnull
      · cases hunique
      · cases hupdate
        trivial
  refine amid_bind (hsign.mono fun tokens htokens => ?_)
  cases tokens with
  | error e => exact htokens
  | ok tokens =>
    refine amid_bind ((hpersist tokens.refreshToken).mono fun stored hstored => ?_)
    cases stored with
    | error e => exact hstored
    | ok _ => exact ⟨rfl, htokens.1, htokens.2⟩

theorem googleAuthRedirect_amid {profile : GoogleProfile} (google : account.provider = "google")
    (identity : profile.providerId = account.provider_id) (signupRole : Option OAuthSignupRole) :
    (AuthController.googleAuthRedirect env profile signupRole).Amid server (LinkedIdentity account)
      (fun o => ¬ o.createsAccount) fun result =>
      ∃ response, result = .ok response ∧ SignsIn env account.user_id response := by
  have hcallback : (AuthService.googleCallback env profile signupRole).Amid server (LinkedIdentity account)
      (fun o => ¬ o.createsAccount) (OfInfrastructure fun result : AuthResult =>
        ∃ user : User, user.id = account.user_id ∧ result.user = AuthService.toAuthUser user ∧
          result.tokens.accessToken.payload.sub = user.id ∧ result.tokens.refreshToken.payload.sub = user.id) := by
    have hresolve : (UsersService.resolveOAuthUserFromProviderProfile "google"
        { providerId := profile.providerId
          email := profile.email
          firstName := profile.firstName
          lastName := profile.lastName
          avatarUrl := some profile.picture
          fits := profile.fits } signupRole).Amid server (LinkedIdentity account)
          (fun o => ¬ o.createsAccount) (OfInfrastructure fun user : User => user.id = account.user_id) := by
      refine amid_bind (amid_perform (fun s ω reply t hs hexec => ?_) (fun e he => he) id)
      obtain ⟨rfl, -⟩ := Prod.mk.inj (Option.some.inj hexec)
      obtain ⟨user, hread, hid⟩ := hs.read
      dsimp only
      rw [← google, identity, hread]
      exact hid
    refine amid_bind (hresolve.mono fun user huser => ?_)
    cases user with
    | error e => exact huser
    | ok user =>
      refine (amid_issueTokens user _).mono fun result hresult => ?_
      cases result with
      | error e => exact hresult
      | ok result => exact ⟨user, huser, hresult⟩
  refine amid_tryCatch (amid_bind (hcallback.mono fun result hresult => ?_))
  cases result with
  | ok result =>
    obtain ⟨user, hid, hauth, haccess, hrefresh⟩ := hresult
    refine ⟨_, rfl, ?_⟩
    rw [hauth]
    exact .session hid (haccess.trans hid) (hrefresh.trans hid)
  | error e =>
    have hne : e ≠ .oauthSignupRoleRequired := by
      rintro rfl
      cases hresult
    refine ⟨_, rfl, ?_⟩
    simp only [hne, ↓reduceIte]
    exact .failed rfl

end Callback

section Runs

variable {env : Env} {cookies : CookieEnv} {validator : Validator} {db : Database} {p q : HttpPool}
  {account : OAuthUser}

theorem linkedIdentity_persists (h : LinkedIdentity account p.world.state)
    (hq : (http env cookies validator).Reachable p q) : LinkedIdentity account q.world.state :=
  System.Reachable.stable (fun m _ hs => hs.tick m) (fun _ _ _ _ hs ha => hs.step ha) hq h

/-- From the moment its identity is linked on, it stays linked to its user, who can no longer be deleted, and every
Google callback of that identity that arrives ends in a session of that user and creates no account, whatever e-mail
and role the callback carries and whatever the other requests do, except where the infrastructure fails. -/
theorem linked_identity_signs_in (hp : (http env cookies validator).Reachable (.start db) p)
    (linked : LinkedIdentity account p.world.state) (google : account.provider = "google")
    (hq : (http env cookies validator).Reachable p q) : LinkedIdentity account q.world.state ∧
    ∀ pid proc, p.procs.length ≤ pid → q.procs[pid]? = some proc →
      ∀ profile cookie, proc.req = .googleCallback profile cookie → profile.providerId = account.provider_id →
        (∀ e ∈ q.world.trace, e.pid = pid → ¬ e.op.createsAccount) ∧
        (∀ e, proc.prog ≠ .throw e) ∧ ∀ response, proc.prog = .ret response → SignsIn env account.user_id response := by
  refine ⟨linkedIdentity_persists linked hq, fun pid proc hpid hproc profile cookie hreq hidentity => ?_⟩
  have hbody : ∀ req : HttpRequest, req = .googleCallback profile cookie →
      (serve env cookies validator req).Amid server (LinkedIdentity account) (fun o => ¬ o.createsAccount)
        fun result => ∃ response, result = .ok response ∧ SignsIn env account.user_id response := by
    rintro req rfl
    exact googleAuthRedirect_amid google hidentity _
  have hamid := System.Reachable.amid (fun m s hs => hs.tick m) (fun o s reply t hs ha => hs.step ha) hbody hq linked
    hpid hproc hreq
  refine ⟨fun e he hepid => ?_, fun e he => ?_, fun response hret => ?_⟩
  · refine System.Reachable.amid_calls (fun m s hs => hs.tick m) (fun o s reply t hs ha => hs.step ha) hbody hq linked
      (System.Reachable.pid_lt hp) he (hepid ▸ hpid) ?_
    exact (System.Reachable.req_eq (hp.trans hq) hproc e he hepid).trans hreq
  · rw [he] at hamid
    obtain ⟨response, hresponse, -⟩ := hamid
    cases hresponse
  · rw [hret] at hamid
    obtain ⟨response', hresponse, hsigns⟩ := hamid
    cases hresponse
    exact hsigns

def signUpRun : Option HttpPool :=
  (http sampleEnv {} sampleValidator).play (.start (sampleDatabase []))
    (.spawn (.googleCallback adaProfile (some "talent")) :: List.replicate 11 (.run 0 {}))

theorem signUpRun_isSome : signUpRun.isSome = true := rfl

def renamedProfile : GoogleProfile :=
  { adaProfile with email := "new@example.com", lastName := "King", fits := by decide }

def returnRun : Option HttpPool :=
  (http sampleEnv {} sampleValidator).play (signUpRun.get signUpRun_isSome)
    (.spawn (.googleCallback renamedProfile (some "employer")) :: List.replicate 5 (.run 1 {}))

theorem returnRun_isSome : returnRun.isSome = true := rfl

def answeredCallback (providerId : String) (proc : Proc backend HttpRequest Response) : Bool :=
  match proc.req, proc.prog with
  | .googleCallback profile _, .ret _ => profile.providerId = providerId
  | _, _ => false

theorem exists_of_answeredCallback {providerId : String} {proc : Proc backend HttpRequest Response}
    (h : answeredCallback providerId proc = true) : ∃ profile cookie response,
      proc.req = .googleCallback profile cookie ∧ proc.prog = .ret response ∧ profile.providerId = providerId := by
  unfold answeredCallback at h
  split at h
  · rename_i profile cookie response hreq hprog
    exact ⟨profile, cookie, response, hreq, hprog, of_decide_eq_true h⟩
  · cases h

theorem linked_identity_in_returnRun : ∃ proc response, (returnRun.get returnRun_isSome).procs[1]? = some proc ∧
    proc.prog = .ret response ∧ SignsIn sampleEnv 11 response := by
  have hlinked : LinkedIdentity ⟨12, 11, "google", "google-1", 1700000000000⟩
      (signUpRun.get signUpRun_isSome).world.state := ⟨by decide +kernel, by decide +kernel⟩
  have hq := System.reachable_of_play (Option.some_get returnRun_isSome).symm
  have hanswered : ((returnRun.get returnRun_isSome).procs[1]?.any (answeredCallback "google-1")) = true := by
    decide +kernel
  have hlength : (signUpRun.get signUpRun_isSome).procs.length ≤ 1 := by decide +kernel
  obtain ⟨proc, hproc, hany⟩ := (Option.any_eq_true _ _).mp hanswered
  obtain ⟨profile, cookie, response, hreq, hret, hidentity⟩ := exists_of_answeredCallback hany
  obtain ⟨-, hcallbacks⟩ := linked_identity_signs_in (System.reachable_of_play (Option.some_get signUpRun_isSome).symm)
    hlinked rfl hq
  exact ⟨proc, response, hproc, hret,
    (hcallbacks 1 proc hlength hproc profile cookie hreq hidentity).2.2 response hret⟩

end Runs

end SkillBridge
