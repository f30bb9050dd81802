import SkillBridge.Auth.Rules
import SkillBridge.Database.Pending
import SkillBridge.Database.Transactions
import SkillBridge.GoogleSignUp.Browser

set_option autoImplicit false

/-! A sign-up with Google from its first request to the callback. -/

namespace SkillBridge

open Interleaving Prog

namespace Database

variable {db t : Database} {tx : TxId} {P : Write → Prop}

def Outside (P : Write → Prop) (tx : TxId) (db : Database) : Prop :=
  ∀ entry ∈ db.transactions, entry.1 ≠ tx → ∀ w ∈ entry.2, P w

theorem Pending.start (h : Pending P db) : Outside P db.fresh db.start := by
  intro entry hentry hne
  rcases List.mem_cons.mp hentry with rfl | hentry
  · exact absurd rfl hne
  · exact h entry hentry

theorem Outside.save (h : Outside P tx db) (w : Write) : Outside P tx (db.save (some tx) w) := by
  intro entry hentry hne
  obtain ⟨old, hold, rfl⟩ := List.mem_map.mp hentry
  split_ifs at hne ⊢ with htx
  · exact absurd htx hne
  · exact h old hold htx

theorem Outside.others (h : Outside P tx db) : ∀ w ∈ db.others (some tx), P w := by
  intro w hw
  obtain ⟨entry, hentry, hmem⟩ := List.mem_flatMap.mp hw
  obtain ⟨hentry, hne⟩ := List.mem_filter.mp hentry
  exact h entry hentry (by simpa using hne) w hmem

theorem Outside.commit (h : Outside P tx db) : Pending P (db.commit tx) := by
  intro entry hentry
  obtain ⟨hentry, hne⟩ := List.mem_filter.mp hentry
  exact h entry hentry (by simpa using hne)

structure Opened (P : Write → Prop) (db : Database) (writes : List Write) (t : Database) : Prop where
  tables : t.tables = db.tables
  entries : t.entries db.fresh = [(db.fresh, writes)]
  outside : Outside P db.fresh t

theorem Opened.start (hpending : Pending P db) (hkeys : ∀ entry ∈ db.transactions, entry.1 < db.fresh) :
    Opened P db [] db.start := ⟨rfl, entries_start hkeys, hpending.start⟩

variable {writes : List Write}

theorem Opened.save (h : Opened P db writes t) (w : Write) :
    Opened P db (writes ++ [w]) (t.save (some db.fresh) w).tick := by
  refine ⟨h.tables, ?_, h.outside.save w⟩
  show (t.save (some db.fresh) w).entries db.fresh = _
  rw [entries_save, h.entries]
  rfl

theorem Opened.view (h : Opened P db writes t) : t.view (some db.fresh) = writes.foldl Write.apply db.tables := by
  rw [view_eq h.entries, h.tables]

theorem Opened.others (h : Opened P db writes t) {f : Write → Bool} (hf : ∀ w, P w → f w = false) :
    (t.others (some db.fresh)).any f = false := by
  rw [List.any_eq_false]
  intro w hw
  simpa using hf w (h.outside.others w hw)

theorem Opened.commit (h : Opened P db writes t) {f : Write → Bool} (hf : ∀ w, P w → f w = false) :
    ((t.commit db.fresh).others none).any f = false := by
  rw [List.any_eq_false]
  intro w hw
  obtain ⟨entry, hentry, hmem⟩ := List.mem_flatMap.mp hw
  simpa using hf w (h.outside.commit entry (List.mem_filter.mp hentry).1 w hmem)

end Database

section Transaction

variable {db : Database} {α : Type}

theorem wp_transaction {Q : Except Failure α → Database → Prop} {body : TxId → Action α}
    (h : (body db.fresh).Wp server.reliable (fun result t => match result with
      | .ok a => Q (.ok a) (t.commit db.fresh)
      | .error e => Q (.error e) (t.rollback db.fresh)) db.start) :
    (transaction body).Wp server.reliable Q db := by
  have reliable : ∀ e : Failure, ¬ (fun _ => false) e = true := fun _ he => Bool.false_ne_true he
  apply wp_bind
  refine wp_perform_of_eq (fun _ => rfl) ?_ fun e he => absurd he (reliable e)
  apply wp_tryCatch
  apply wp_bind
  refine h.mono fun result t hQ => ?_
  cases result with
  | ok a =>
    apply wp_bind
    exact wp_perform_of_eq (fun _ => rfl) hQ fun e he => absurd he (reliable e)
  | error e =>
    apply wp_bind
    apply wp_tryCatch
    exact wp_perform_of_eq (fun _ => rfl) hQ fun e he => absurd he (reliable e)

end Transaction

/-- Nobody has the e-mail address or the Google account of the profile, nor is about to have them. -/
structure Database.BrandNew (db : Database) (profile : GoogleProfile) : Prop where
  constraints : db.Constraints
  email : ∀ user ∈ db.tables.users, user.email ≠ profile.email
  unlinked : ∀ account ∈ db.tables.oauthAccounts, account.provider = "google" →
    account.provider_id ≠ profile.providerId
  pending : Database.Pending (fun w => w.insertsEmail profile.email = false ∧ ∀ id, db.fresh ≤ id →
    w.linksLike id "google" profile.providerId = false ∧ w.locks id = false) db

namespace GoogleProfile

variable (profile : GoogleProfile) (role : OAuthSignupRole)

def params : CreateVerifiedUserWithOauthLinkParams where
  email := profile.email
  first_name := profile.firstName
  last_name := profile.lastName
  country := OAUTH_DEFAULT_COUNTRY
  avatar_url := some profile.picture
  provider := "google"
  providerId := profile.providerId
  role

def newUser : NewUser where
  email := profile.email
  password := none
  first_name := profile.firstName
  last_name := profile.lastName
  avatar_url := some profile.picture
  country := OAUTH_DEFAULT_COUNTRY
  is_verified := true
  onboarding_complete := false
  role := role.toUserRole
  signup_reason := none

end GoogleProfile

section SignUp

variable {env : Env} {db : Database} {profile : GoogleProfile} {role : OAuthSignupRole}

theorem insertUnique_free {α : Type} {fits taken waits dangling : Bool} {row : α} {tx : Option TxId} {w : Write}
    (hfits : fits = true) (htaken : taken = false) (hwaits : waits = false) (hdangling : dangling = false) :
    db.insertUnique fits taken waits dangling row tx w = some (.ok row, (db.save tx w).tick) := by
  subst hfits htaken hwaits hdangling
  rfl

theorem findById_new (h : db.Constraints) {id : UserId} (hid : db.fresh ≤ id) :
    Database.findById db.tables.users id = none := by
  rw [Database.findById, List.find?_eq_none]
  intro user huser
  have hlt : user.id < db.fresh := h.rowIds user.row (List.mem_append_left _ (List.mem_map_of_mem huser))
  simpa using Nat.ne_of_lt (Nat.lt_of_lt_of_le hlt hid)

theorem findById_append_new {users : List User} {user : User} (h : Database.findById users user.id = none) :
    Database.findById (users ++ [user]) user.id = some user := by
  rw [Database.findById] at h ⊢
  simp [List.find?_append, h]

theorem Database.BrandNew.untaken (h : db.BrandNew profile) {id : UserId} (hid : db.fresh ≤ id) :
    (db.tables.oauthAccounts.any fun other => other.provider = "google" &&
      (other.user_id = id || other.provider_id = profile.providerId)) = false := by
  rw [List.any_eq_false]
  intro account haccount
  have hlt := h.constraints.linkIds account (List.mem_append_left _ haccount)
  have hne : account.user_id ≠ id := Nat.ne_of_lt (Nat.lt_of_lt_of_le hlt hid)
  by_cases hprovider : account.provider = "google"
  · simp [hne, h.unlinked account haccount hprovider]
  · simp [hprovider]

theorem wp_createUserWithOauthLink {Q : Except Failure User → Database → Prop} (h : db.BrandNew profile)
    (created : ∀ t : Database, (t.commit db.fresh).HasAccount (db.fresh + 1)
      ((profile.newUser role).toUser (db.fresh + 1) db.dbNow) →
      Q (.ok ((profile.newUser role).toUser (db.fresh + 1) db.dbNow)) t) :
    (UserModelAction.createUserWithOauthLink db.fresh (profile.params role)).Wp server.reliable Q db.start := by
  have reliable : ∀ e : Failure, ¬ (fun _ => false) e = true := fun _ he => Bool.false_ne_true he
  have hid : db.fresh ≤ db.fresh + 1 := Nat.le_succ _
  let user := (profile.newUser role).toUser (db.fresh + 1) db.dbNow
  let t₁ := (db.start.save (some db.fresh) (.insertUser (profile.newUser role) (db.fresh + 1) db.dbNow)).tick
  let account : OAuthUser := ⟨db.fresh + 2, db.fresh + 1, "google", profile.providerId, db.dbNow⟩
  let t₂ := (t₁.save (some db.fresh) (.insertOauthAccount account)).tick
  have hstart := Database.Opened.start h.pending h.constraints.keysLt
  have hinserted : Database.Opened _ db _ t₁ := hstart.save _
  have hlinked : Database.Opened _ db _ t₂ := hinserted.save _
  have hfound : Database.findById (db.tables.users ++ [user]) (db.fresh + 1) = some user :=
    findById_append_new (findById_new h.constraints hid)
  have hemail : ((db.start.view (some db.fresh)).users.any fun user => user.email = profile.email) = false := by
    rw [hstart.view, List.any_eq_false]
    intro user huser
    simpa using h.email user huser
  have hinsert : ∀ ω, server.reliable.exec (.insertUser (some db.fresh) (profile.newUser role)) ω db.start =
      some (.ok user, t₁) :=
    fun _ => insertUnique_free (NewUser.fits_of_profile profile.fits rfl rfl) hemail (hstart.others fun w hw => hw.1) rfl
  have hlink : ∀ ω, server.reliable.exec
      (.insertOauthAccount (some db.fresh) (db.fresh + 1) "google" profile.providerId) ω t₁ =
      some (.ok account, t₂) := by
    refine fun _ => insertUnique_free profile.fitsIdentity ?_ (hinserted.others fun w hw => (hw.2 _ hid).1) ?_
    · rw [hinserted.view]
      exact h.untaken hid
    · rw [hinserted.view]
      exact congrArg Option.isNone hfound
  have hfind : ∀ ω, server.reliable.exec (.findUser (some db.fresh) (db.fresh + 1)) ω t₂ =
      some (.ok (some user), t₂) := by
    intro ω
    show some (Except.ok (Database.findById (t₂.view (some db.fresh)).users (db.fresh + 1)), t₂) = _
    rw [hlinked.view]
    exact congrArg (fun row => some (Except.ok row, t₂)) hfound
  apply wp_bind
  refine wp_perform_of_eq hinsert ?_ fun e he => absurd he (reliable e)
  apply wp_bind
  refine wp_perform_of_eq hlink ?_ fun e he => absurd he (reliable e)
  apply wp_bind
  refine wp_perform_of_eq hfind ?_ fun e he => absurd he (reliable e)
  refine created t₂ ⟨?_, hlinked.commit fun w hw => (hw.2 _ hid).2⟩
  show Database.findById (t₂.view (some db.fresh)).users (db.fresh + 1) = _
  rw [hlinked.view]
  exact hfound

theorem Database.BrandNew.findOauthAccount (h : db.BrandNew profile) :
    db.findOauthAccount "google" profile.providerId = none := by
  have hnone : (db.tables.oauthAccounts.find? fun account =>
      account.provider = "google" && account.provider_id = profile.providerId) = none := by
    rw [List.find?_eq_none]
    intro account haccount
    simpa using h.unlinked account haccount
  simp only [Database.findOauthAccount, hnone]

theorem Database.BrandNew.findUserByEmail (h : db.BrandNew profile) :
    (db.tables.users.find? fun user => user.email = profile.email) = none := by
  rw [List.find?_eq_none]
  intro user huser
  simpa using h.email user huser

theorem wp_resolve_brandNew {Q : Except Failure User → Database → Prop} {signupRole : Option OAuthSignupRole}
    (h : db.BrandNew profile)
    (created : ∀ role t, signupRole = some role → Database.HasAccount t (db.fresh + 1)
      ((profile.newUser role).toUser (db.fresh + 1) db.dbNow) →
      Q (.ok ((profile.newUser role).toUser (db.fresh + 1) db.dbNow)) t)
    (refused : signupRole = none → Q (.error .oauthSignupRoleRequired) db) :
    (UsersService.resolveOAuthUserFromProviderProfile "google"
      { providerId := profile.providerId, email := profile.email, firstName := profile.firstName
        lastName := profile.lastName, avatarUrl := some profile.picture, fits := profile.fits }
      signupRole).Wp server.reliable Q db := by
  have reliable : ∀ e : Failure, ¬ (fun _ => false) e = true := fun _ he => Bool.false_ne_true he
  have hlinked : ∀ ω, server.reliable.exec (.findOauthAccount "google" profile.providerId) ω db =
      some (.ok none, db) :=
    fun _ => congrArg (fun row => some (Except.ok row, db)) h.findOauthAccount
  have hbyEmail : ∀ ω, server.reliable.exec (.findUserByEmail profile.email) ω db = some (.ok none, db) :=
    fun _ => congrArg (fun row => some (Except.ok row, db)) h.findUserByEmail
  apply wp_bind
  refine wp_perform_of_eq hlinked ?_ fun e he => absurd he (reliable e)
  apply wp_bind
  refine wp_perform_of_eq hbyEmail ?_ fun e he => absurd he (reliable e)
  apply wp_tryCatch
  cases signupRole with
  | none => exact refused rfl
  | some role =>
    apply wp_transaction
    exact wp_createUserWithOauthLink h fun t ht => created role _ rfl ht

def SignsUp (env : Env) (profile : GoogleProfile) (role : OAuthSignupRole) (db : Database)
    (result : Except Failure Response) (t : Database) : Prop :=
  ∃ user tokens, result = .ok (.redirect
      (AuthService.buildFrontendRedirectUrl env (AuthService.toAuthUser user)) (some tokens)) ∧
    user ∈ t.tables.users ∧ (∀ old ∈ db.tables.users, old.id ≠ user.id) ∧
    user.email = profile.email ∧ user.role = role.toUserRole

theorem wp_googleAuthRedirect_signsUp (h : db.BrandNew profile) :
    (AuthController.googleAuthRedirect env profile (some role)).Wp server.reliable (SignsUp env profile role db)
      db := by
  apply wp_tryCatch
  apply wp_bind
  apply wp_bind
  refine wp_resolve_brandNew h (fun role' t hrole haccount => ?_) fun hrole => by cases hrole
  obtain rfl := Option.some.inj hrole
  refine wp_issueTokens haccount (fun tokens hash t' haccount' => ?_) fun e t' he => absurd he Bool.false_ne_true
  refine ⟨{ (profile.newUser role).toUser (db.fresh + 1) db.dbNow with refreshTokenHash := some hash }, tokens,
    rfl, List.mem_of_find?_eq_some haccount'.found, fun old hold => ?_, rfl, rfl⟩
  have hlt : old.id < db.fresh :=
    h.constraints.rowIds old.row (List.mem_append_left _ (List.mem_map_of_mem hold))
  exact Nat.ne_of_lt (Nat.lt_succ_of_lt hlt)

def loginErrorUrl (env : Env) (key : String) : String := s!"{env.FRONTEND_URL}/login?error={key}"

theorem wp_googleAuthRedirect_refused (h : db.BrandNew profile) :
    (AuthController.googleAuthRedirect env profile none).Wp server.reliable (fun result _ =>
      result = .ok (.redirect (loginErrorUrl env "oauth_role_required") none)) db := by
  apply wp_tryCatch
  apply wp_bind
  apply wp_bind
  exact wp_resolve_brandNew h (fun role t hrole => by cases hrole) fun _ => rfl

section Flow

variable {validator : Validator} {cookies : CookieEnv} {https : Bool} {steps : List BrowserStep} {ms : ℕ}
  {session : GoogleSession}

theorem normalize_of_signup_flow
    (h : GoogleSession.after cookies https (.wait ms :: .startSignup role.value :: steps) = some session)
    (hms : ms < OAUTH_SIGNUP_ROLE_MAX_AGE_MS) : normalizeOAuthSignupRole session.signupRoleCookie =
      if cookies.ReturnsCookies https then some role else none := by
  have hcarried : carried (.wait ms :: .startSignup role.value :: steps) = some (role, ms) := by
    simp [carried, hms]
  rw [GoogleSession.normalize_signupRoleCookie h, hcarried]
  rfl

theorem not_signsUp
    (h : GoogleSession.after cookies https (.wait ms :: .startSignup role.value :: steps) = some session)
    (hms : ms < OAUTH_SIGNUP_ROLE_MAX_AGE_MS) (hnew : db.BrandNew profile)
    (hreturns : ¬ cookies.ReturnsCookies https) :
    ¬ (serve env cookies validator (.googleCallback profile session.signupRoleCookie)).Wp server.reliable
      (SignsUp env profile role db) db := by
  intro hwp
  simp only [serve, handle, normalize_of_signup_flow h hms, if_neg hreturns] at hwp
  obtain ⟨result, t, ⟨user, tokens, hsigned, -⟩, hrefused⟩ :=
    hwp.compatible (@wp_googleAuthRedirect_refused env _ _ hnew)
  rw [hsigned] at hrefused
  have htokens := (Response.redirect.inj (Except.ok.inj hrefused)).2
  cases htokens

/-- A sign-up with a role in its path makes a user of that role exactly if the cookie of the role comes back
from Google's site. -/
theorem google_signup_completes_iff (env : Env) (validator : Validator)
    (h : GoogleSession.after cookies https (.wait ms :: .startSignup role.value :: steps) = some session)
    (hms : ms < OAUTH_SIGNUP_ROLE_MAX_AGE_MS) (hnew : db.BrandNew profile) :
    (serve env cookies validator (.googleCallback profile session.signupRoleCookie)).Wp server.reliable
      (SignsUp env profile role db) db ↔ cookies.ReturnsCookies https := by
  constructor
  · intro hwp
    by_contra hreturns
    exact not_signsUp h hms hnew hreturns hwp
  · intro hreturns
    simp only [serve, handle, normalize_of_signup_flow h hms, if_pos hreturns]
    exact wp_googleAuthRedirect_signsUp hnew

end Flow

end SignUp

def newProfile : GoogleProfile where
  email := "new@example.com"
  firstName := "Grace"
  lastName := "Hopper"
  picture := "https://example.com/grace.png"
  providerId := "1000"
  fits := by decide
  fitsIdentity := by decide

theorem newProfile_brandNew : (sampleDatabase []).BrandNew newProfile := by
  refine ⟨⟨List.Pairwise.nil, ?_, ?_, List.nodup_nil, ?_⟩, ?_, ?_, .of_idle rfl⟩
  all_goals
    intro x hx
    cases hx

def talentFlow : List BrowserStep := [.wait 60000, .startSignup OAuthSignupRole.talent.value]

theorem talentFlow_isSome (cookies : CookieEnv) (https : Bool) :
    (GoogleSession.after cookies https talentFlow).isSome = true := rfl

theorem talentFlow_signs_up :
    (serve sampleEnv { AUTH_COOKIE_SAMESITE := some .lax } sampleValidator (.googleCallback newProfile
      ((GoogleSession.after { AUTH_COOKIE_SAMESITE := some .lax } true talentFlow).get
        (talentFlow_isSome _ _)).signupRoleCookie)).Wp server.reliable
      (SignsUp sampleEnv newProfile .talent (sampleDatabase [])) (sampleDatabase []) :=
  (google_signup_completes_iff sampleEnv _ (Option.some_get _).symm (by decide) newProfile_brandNew).mpr
    (by decide)

/-- With the default configuration the cookie is `SameSite=Strict`, and does not come back. -/
theorem google_signup_incomplete : ¬ ∀ (env : Env) (cookies : CookieEnv) (https : Bool) (validator : Validator)
    (role : OAuthSignupRole) (profile : GoogleProfile) (steps : List BrowserStep) (ms : ℕ)
    (session : GoogleSession) (db : Database),
    GoogleSession.after cookies https (.wait ms :: .startSignup role.value :: steps) = some session →
    ms < OAUTH_SIGNUP_ROLE_MAX_AGE_MS → db.BrandNew profile →
    (serve env cookies validator (.googleCallback profile session.signupRoleCookie)).Wp server.reliable
      (SignsUp env profile role db) db := by
  intro h
  have hsession := (Option.some_get (talentFlow_isSome {} true)).symm
  exact not_signsUp hsession (by decide) newProfile_brandNew (by decide)
    (h sampleEnv {} true sampleValidator .talent newProfile [] 60000 _ _ hsession (by decide)
      newProfile_brandNew)

end SkillBridge
