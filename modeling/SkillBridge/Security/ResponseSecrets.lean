import SkillBridge.Database.Effects
import SkillBridge.Security.SecretColumns

set_option autoImplicit false

/-! What the response bodies of `/users`, `GET /auth/me` and the onboarding show of the secret columns. -/

namespace SkillBridge

open Interleaving Prog

def Response.masked : Response → Response
  | .user row => .user row.masked
  | .users rows => .users (rows.map User.masked)
  | response => response

def SameCalls {α : Type} (Q : α → α → Prop) (p : Action α) : Prop := p.Alike Op.Shown MaskedEq Q p

abbrev SameRow (user user' : User) : Prop := user.masked = user'.masked

abbrev SameResponse (response response' : Response) : Prop := response.masked = response'.masked

section Rules

variable {α β : Type} {Q : α → α → Prop}

theorem sameCalls_perform {o : Op} (h : o.Shown) : SameCalls (MaskedEq o) (perform o) := alike_perform h

theorem sameCalls_of_mask {o : Op} (h : o.Shown) (hmask : ∀ r, o.mask r = r) : SameCalls Eq (perform o) := by
  apply (sameCalls_perform h).mono
  intro r r' hr
  rw [← hmask r, ← hmask r']
  exact hr

theorem sameCalls_bind {Q' : β → β → Prop} {p : Action α} {f : α → Action β} (h : SameCalls Q p)
    (hf : ∀ a a', Q a a' → (f a).Alike Op.Shown MaskedEq Q' (f a')) : SameCalls Q' (p >>= f) := alike_bind h hf

theorem sameCalls_bind_eq {Q' : β → β → Prop} {p : Action α} {f : α → Action β} (h : SameCalls Eq p)
    (hf : ∀ a, SameCalls Q' (f a)) : SameCalls Q' (p >>= f) := by
  apply sameCalls_bind h
  rintro a _ rfl
  exact hf a

theorem rows_cases {row row' : Option User} (h : row.map User.masked = row'.map User.masked) :
    (row = none ∧ row' = none) ∨ ∃ user user', row = some user ∧ row' = some user' ∧ SameRow user user' := by
  cases row with
  | none => exact .inl ⟨rfl, Option.map_eq_none_iff.mp h.symm⟩
  | some user =>
    obtain ⟨user', hrow', huser⟩ := Option.map_eq_some_iff.mp h.symm
    exact .inr ⟨user, user', rfl, hrow', huser.symm⟩

theorem sameCalls_transaction {body : TxId → Action α} (h : ∀ tx, SameCalls Q (body tx)) :
    SameCalls Q (transaction body) := by
  refine sameCalls_bind_eq (sameCalls_of_mask (o := .startTransaction) trivial fun _ => rfl) fun tx => ?_
  refine alike_tryCatch (sameCalls_bind (h tx) fun a a' ha => ?_) fun e => ?_
  · exact alike_bind (sameCalls_perform (o := .commitTransaction tx) trivial) fun _ _ _ => alike_ret ha
  · refine alike_bind (Q := Eq) (alike_tryCatch ?_ fun e => alike_ret rfl) fun _ _ _ => alike_throw e
    exact sameCalls_of_mask (o := .rollbackTransaction tx) trivial fun _ => rfl

end Rules

section Services

theorem sameCalls_findOneOrNull (id : UserId) :
    SameCalls (fun row row' => row.map User.masked = row'.map User.masked) (UsersService.findOneOrNull id) :=
  sameCalls_perform (o := .findUser none id) trivial

theorem sameCalls_findOne (id : UserId) : SameCalls SameRow (UsersService.findOne id) := by
  refine sameCalls_bind (sameCalls_findOneOrNull id) fun row row' hrow => ?_
  obtain ⟨rfl, rfl⟩ | ⟨user, user', rfl, rfl, huser⟩ := rows_cases hrow
  · exact alike_throw _
  · exact alike_ret huser

theorem sameCalls_hashText (text : String) : SameCalls Eq (perform (.hashText text)) :=
  sameCalls_of_mask (o := .hashText text) trivial fun _ => rfl

theorem sameCalls_create (dto : CreateUserDto) : SameCalls Eq (UsersService.create dto) := by
  refine sameCalls_bind (sameCalls_perform (o := .findUserByEmail dto.email) trivial) fun row row' hrow => ?_
  obtain ⟨rfl, rfl⟩ | ⟨user, user', rfl, rfl, -⟩ := rows_cases hrow
  · refine sameCalls_bind_eq (sameCalls_hashText dto.password) fun hash => ?_
    exact sameCalls_of_mask (o := .insertUser none _) trivial fun _ => rfl
  · exact alike_throw _

theorem sameCalls_hashPassword (password : Option (Option String)) :
    SameCalls Eq (UsersService.hashPassword password) := by
  rcases password with _ | _ | password
  · exact alike_ret rfl
  · exact alike_ret rfl
  · exact sameCalls_bind_eq (sameCalls_hashText password) fun hash => alike_ret rfl

theorem sameCalls_update (id : UserId) (dto : UpdateUserDto) : SameCalls SameRow (UsersService.update id dto) := by
  refine sameCalls_bind (sameCalls_findOne id) fun _ _ _ => ?_
  refine sameCalls_bind_eq (sameCalls_hashPassword dto.password) fun password => ?_
  refine sameCalls_bind (sameCalls_perform (o := .updateUser id _) trivial) fun row row' hrow => ?_
  obtain ⟨rfl, rfl⟩ | ⟨user, user', rfl, rfl, huser⟩ := rows_cases hrow
  · exact alike_throw _
  · exact alike_ret huser

theorem sameCalls_issueTokens (env : Env) (user : User) (message : String) :
    SameCalls Eq (AuthService.issueTokens env user message) := by
  have hsign : ∀ secret expiresIn, SameCalls Eq
      (perform (.signAsync (AuthService.sessionPayload user) true secret expiresIn)) :=
    fun secret expiresIn => sameCalls_of_mask (o := .signAsync _ _ _ _) trivial fun _ => rfl
  have htokens : SameCalls Eq (AuthService.signTokens env user) :=
    sameCalls_bind_eq (hsign _ _) fun access => sameCalls_bind_eq (hsign _ _) fun refresh => alike_ret rfl
  refine sameCalls_bind_eq htokens fun tokens => sameCalls_bind_eq ?_ fun _ => alike_ret rfl
  have hhash : SameCalls Eq (perform (.hashToken tokens.refreshToken)) :=
    sameCalls_of_mask (o := .hashToken tokens.refreshToken) trivial fun _ => rfl
  refine sameCalls_bind_eq hhash fun hash => ?_
  exact sameCalls_bind (sameCalls_perform (o := .updateUser user.id _) trivial) fun _ _ _ => alike_ret rfl

theorem sameCalls_issueSessionForUser (env : Env) (userId : UserId) (message : String) :
    SameCalls Eq (AuthService.issueSessionForUser env userId message) := by
  refine sameCalls_bind (sameCalls_findOne userId) fun user user' huser => ?_
  change (AuthService.issueTokens env user.masked message).Alike _ _ _
    (AuthService.issueTokens env user'.masked message)
  rw [huser]
  exact sameCalls_issueTokens env user'.masked message

theorem sameCalls_userOf (tx : TxId) (userId : UserId) : SameCalls SameRow (Onboarding.userOf tx userId) := by
  have hfind : SameCalls (fun row row' => row.map User.masked = row'.map User.masked)
      (perform (.findUser (some tx) userId)) := sameCalls_perform (o := .findUser (some tx) userId) trivial
  refine alike_tryCatch (sameCalls_bind hfind fun row row' hrow => ?_) fun e => ?_
  · obtain ⟨rfl, rfl⟩ | ⟨user, user', rfl, rfl, huser⟩ := rows_cases hrow
    · exact alike_throw _
    · exact alike_ret huser
  · split
    · exact alike_throw _
    · exact alike_throw e

theorem sameCalls_completeOnboarding {Profile : Type} {env : Env} {userId : UserId}
    {find : TxId → Action (Option Profile)} {profileExists : String} {save : TxId → Action Profile}
    {message : String}
    (hfind : ∀ tx, SameCalls Eq (find tx)) (hsave : ∀ tx, SameCalls Eq (save tx)) :
    SameCalls Eq (Onboarding.completeOnboarding env userId find profileExists save message) := by
  refine sameCalls_bind_eq (sameCalls_transaction fun tx => ?_) fun profile =>
    sameCalls_bind_eq (sameCalls_issueSessionForUser env userId message) fun session => alike_ret rfl
  refine sameCalls_bind (sameCalls_userOf tx userId) fun user user' huser => ?_
  have hcomplete : user.onboarding_complete = user'.onboarding_complete :=
    (congrArg User.onboarding_complete huser : user.masked.onboarding_complete = user'.masked.onboarding_complete)
  rw [hcomplete]
  split
  · exact alike_throw _
  · refine sameCalls_bind_eq (hfind tx) fun found => ?_
    cases found with
    | some profile => exact alike_throw _
    | none =>
      refine sameCalls_bind_eq (hsave tx) fun profile => sameCalls_bind_eq ?_ fun _ => alike_ret rfl
      exact sameCalls_of_mask (o := .markOnboardingComplete tx userId) trivial fun _ => rfl

theorem sameCalls_guarded {env : Env} {roles : List UserRole} {credentials : Credentials}
    {handler : AuthenticatedUser → Action Response} (h : ∀ caller, SameCalls SameResponse (handler caller)) :
    SameCalls SameResponse (guarded env roles credentials handler) := by
  have hguard : SameCalls Eq (jwtAuthGuard env credentials) := by
    unfold jwtAuthGuard
    cases credentials.token with
    | none => exact alike_throw _
    | some token =>
      refine sameCalls_bind_eq (sameCalls_of_mask (o := .dateNow) trivial fun _ => rfl) fun (now : ℕ) => ?_
      cases token.verify env.JWT_ACCESS_SECRET now with
      | error e => exact alike_throw _
      | ok payload =>
        refine sameCalls_bind (sameCalls_findOneOrNull payload.sub) fun row row' hrow => ?_
        obtain ⟨rfl, rfl⟩ | ⟨user, user', rfl, rfl, huser⟩ := rows_cases hrow
        · exact alike_throw _
        · have hcaller := congrArg
            (fun row : User => AuthenticatedUser.mk row.id row.email row.role row.onboarding_complete) huser
          exact alike_ret hcaller
  refine sameCalls_bind_eq hguard fun caller => sameCalls_bind_eq ?_ fun _ => h caller
  unfold rolesGuard
  split
  · exact alike_ret rfl
  · exact alike_throw _

end Services

def Request.showsUsers : Request → Bool
  | createUser _ _ | listUsers _ _ | getUser _ _ | updateUser _ _ _ | me _ | talentOnboarding _ _
  | employerOnboarding _ _ => true
  | _ => false

theorem sameCalls_map {α : Type} {Q : α → α → Prop} {p : Action α} {f : α → Response} (h : SameCalls Q p)
    (hf : ∀ a a', Q a a' → SameResponse (f a) (f a')) : SameCalls SameResponse (f <$> p) :=
  sameCalls_bind h fun a a' ha => alike_ret (hf a a' ha)

theorem sameCalls_handle (env : Env) {req : Request} (h : req.showsUsers = true) :
    SameCalls SameResponse (handle env req) := by
  cases req with
  | createUser credentials dto =>
    refine sameCalls_guarded fun _ => sameCalls_map (sameCalls_create dto) fun user user' huser => ?_
    exact congrArg Response.masked (congrArg Response.created huser)
  | listUsers credentials pagination =>
    refine sameCalls_guarded fun _ => sameCalls_map (sameCalls_perform (o := .listUsers _ _) trivial) ?_
    exact fun users users' husers => congrArg Response.users husers
  | getUser credentials id =>
    refine sameCalls_guarded fun _ => sameCalls_map (sameCalls_findOne id) fun user user' huser => ?_
    exact congrArg Response.user huser
  | updateUser credentials id dto =>
    refine sameCalls_guarded fun _ => sameCalls_map (sameCalls_update id dto) fun user user' huser => ?_
    exact congrArg Response.user huser
  | me credentials =>
    refine sameCalls_guarded fun caller => sameCalls_map (Q := Eq) ?_ fun _ _ => congrArg _
    refine sameCalls_bind (sameCalls_findOne caller.sub) fun user user' huser => alike_ret ?_
    have hprofile := congrArg AuthService.toAuthUser huser
    exact hprofile
  | talentOnboarding credentials dto =>
    refine sameCalls_guarded fun caller => sameCalls_map (Q := Eq) (sameCalls_completeOnboarding ?_ ?_) fun _ _ =>
      congrArg _
    · exact fun tx => sameCalls_of_mask (o := .findTalentProfile tx _) trivial fun _ => rfl
    · exact fun tx => sameCalls_of_mask (o := .insertTalentProfile tx _) trivial fun _ => rfl
  | employerOnboarding credentials dto =>
    refine sameCalls_guarded fun caller => sameCalls_map (Q := Eq) (sameCalls_completeOnboarding ?_ ?_) fun _ _ =>
      congrArg _
    · exact fun tx => sameCalls_of_mask (o := .findEmployerProfile tx _) trivial fun _ => rfl
    · exact fun tx => sameCalls_of_mask (o := .insertEmployerProfile tx _) trivial fun _ => rfl
  | _ => cases h

def Response.secrets : Response → List (Option String)
  | .user row => [row.two_fa_totp_secret]
  | .users rows => rows.map User.two_fa_totp_secret
  | _ => []

def ResponseBody.secrets {γ : Type} : ResponseBody γ → List (Option String)
  | .user _ _ data => [data.two_fa_totp_secret]
  | .page _ _ data _ => data.map PlainUser.two_fa_totp_secret
  | _ => []

section Bodies

variable {γ : Type} (rendering : Rendering γ)

theorem secrets_intercept (statusCode total : ℕ) (response : Response) :
    (TransformInterceptor.intercept rendering statusCode total response).elim [] ResponseBody.secrets =
      response.secrets := by
  cases response with
  | users rows =>
    show (rows.map (ClassSerializerInterceptor.serialize rendering)).map PlainUser.two_fa_totp_secret = _
    rw [List.map_map]
    rfl
  | _ => rfl

theorem serialize_eq {user user' : User} (h : SameRow user user')
    (hsecret : user.two_fa_totp_secret = user'.two_fa_totp_secret) :
    ClassSerializerInterceptor.serialize rendering user = ClassSerializerInterceptor.serialize rendering user' := by
  have hserialize : ∀ u : User, ClassSerializerInterceptor.serialize rendering u =
      { ClassSerializerInterceptor.serialize rendering u.masked with two_fa_totp_secret := u.two_fa_totp_secret } :=
    fun u => rfl
  rw [hserialize user, hserialize user', h, hsecret]

theorem map_serialize_eq {users users' : List User} (h : users.map User.masked = users'.map User.masked)
    (hsecrets : users.map User.two_fa_totp_secret = users'.map User.two_fa_totp_secret) :
    users.map (ClassSerializerInterceptor.serialize rendering) =
      users'.map (ClassSerializerInterceptor.serialize rendering) := by
  induction users generalizing users' with
  | nil =>
    obtain rfl := List.map_eq_nil_iff.mp h.symm
    rfl
  | cons user users ih =>
    cases users' with
    | nil => cases h
    | cons user' users' =>
      obtain ⟨huser, husers⟩ := List.cons.inj h
      obtain ⟨hsecret, hsecrets⟩ := List.cons.inj hsecrets
      rw [List.map_cons, List.map_cons, serialize_eq rendering huser hsecret, ih husers hsecrets]

theorem intercept_eq {response response' : Response} (h : SameResponse response response') (statusCode total : ℕ) :
    TransformInterceptor.intercept rendering statusCode total response =
        TransformInterceptor.intercept rendering statusCode total response' ↔ response.secrets = response'.secrets := by
  constructor
  · intro hbody
    rw [← secrets_intercept rendering statusCode total response, hbody, secrets_intercept]
  · intro hsecrets
    cases response with
    | user row =>
      cases response' with
      | user row' =>
        simp only [TransformInterceptor.intercept,
          serialize_eq rendering (Response.user.inj h) (List.cons.inj hsecrets).1]
      | _ => cases h
    | users rows =>
      cases response' with
      | users rows' =>
        simp only [TransformInterceptor.intercept, map_serialize_eq rendering (Response.users.inj h) hsecrets]
      | _ => cases h
    | _ =>
      cases response' <;> cases h
      rfl

end Bodies

/-- The secrets of the rows that the route returns, as they are stored when the request arrives. -/
def Request.shown (db : Database) : Request → List (Option String)
  | getUser _ id | updateUser _ id _ =>
    (Database.findById db.tables.users id).toList.map User.two_fa_totp_secret
  | listUsers _ pagination =>
    (((db.tables.users.mergeSort fun u v => v.createdAt ≤ u.createdAt).drop
      ((pagination.page - 1) * pagination.limit)).take pagination.limit).map User.two_fa_totp_secret
  | _ => []

section Shown

variable {db : Database}

theorem yields_guarded {env : Env} {roles : List UserRole} {credentials : Credentials}
    {handler : AuthenticatedUser → Action Response} {Q : Response → Database → Prop}
    (h : ∀ caller, (handler caller).Yields server Q db) :
    (guarded env roles credentials handler).Yields server Q db := by
  have hread : ∀ {o : Op} {r reply : Reply o} {u : Database}, some (r, db) = some (reply, u) → u = db :=
    fun h => (Prod.mk.inj (Option.some.inj h)).2.symm
  have hguard : (jwtAuthGuard env credentials).Yields server (fun _ t => t = db) db := by
    unfold jwtAuthGuard
    cases credentials.token with
    | none => exact yields_throw
    | some token =>
      refine yields_perform_bind (fun ω reply u hexec => hread hexec) fun (now : ℕ) => ?_
      cases token.verify env.JWT_ACCESS_SECRET now with
      | error e => exact yields_throw
      | ok payload =>
        refine yields_perform_bind (fun ω reply u hexec => hread hexec) fun (row : Option User) => ?_
        cases row with
        | none => exact yields_throw
        | some user => exact yields_ret rfl
  refine yields_bind hguard ?_
  rintro caller t rfl
  refine yields_bind (Q := fun _ u => u = t) ?_ ?_
  · unfold rolesGuard
    split
    · exact yields_ret rfl
    · exact yields_throw
  · rintro _ u rfl
    exact h caller

theorem findOne_yields (id : UserId) : (UsersService.findOne id).Yields server
    (fun user t => Database.findById db.tables.users id = some user ∧ t = db) db := by
  refine yields_bind (Q := fun row t => row = Database.findById db.tables.users id ∧ t = db)
    (yields_perform fun ω row t hexec => ?_) ?_
  · obtain ⟨hrow, rfl⟩ := Prod.mk.inj (Option.some.inj hexec)
    exact ⟨(Except.ok.inj hrow).symm, rfl⟩
  · rintro row t ⟨hrow, rfl⟩
    cases row with
    | none => exact yields_throw
    | some user => exact yields_ret ⟨hrow.symm, rfl⟩

theorem updated_secret {t : Database} {id : UserId} {payload : UserPayload} {user : User}
    (hsecret : payload.two_fa_totp_secret = none)
    (h : Database.Effect db (.updateUser id payload) (.ok (some user)) t) :
    (Database.findById db.tables.users id).map User.two_fa_totp_secret = some user.two_fa_totp_secret := by
  obtain ⟨old, found, rfl, -⟩ := h.updateUser_inv
  rw [found, Option.map_some, UserPayload.apply_two_fa_totp_secret, hsecret, Option.getD_none]

theorem update_yields (id : UserId) (dto : UpdateUserDto) : (UsersService.update id dto).Yields server
    (fun user _ => (Database.findById db.tables.users id).map User.two_fa_totp_secret =
      some user.two_fa_totp_secret) db := by
  refine yields_bind (findOne_yields id) ?_
  rintro user t ⟨hfound, rfl⟩
  refine yields_bind (Q := fun _ u => u.tables = t.tables) ?_ fun password u hu => ?_
  · rcases dto.password with _ | _ | password
    · exact yields_ret rfl
    · exact yields_ret rfl
    · refine yields_bind (Q := fun _ u => u.tables = t.tables) (yields_perform fun ω hash u hexec => ?_)
        fun hash u hu => yields_ret hu
      obtain ⟨-, rfl⟩ := Prod.mk.inj (Option.some.inj hexec)
      rfl
  · refine yields_bind (Q := fun row _ => ∀ user, row = some user →
      (Database.findById t.tables.users id).map User.two_fa_totp_secret = some user.two_fa_totp_secret)
      (yields_perform fun ω row v hexec => ?_) fun row v hrow => ?_
    · rintro user rfl
      rw [← hu]
      exact updated_secret rfl (Database.updateUser_effect hexec)
    · cases row with
      | none => exact yields_throw
      | some user => exact yields_ret (hrow user rfl)

theorem handle_shows (env : Env) {req : Request} (h : req.showsUsers = true) :
    (handle env req).Yields server (fun response _ => response.secrets = req.shown db) db := by
  cases req with
  | listUsers credentials pagination =>
    refine yields_guarded fun _ => yields_bind (Q := fun users _ => Response.secrets (.users users) = _)
      (yields_perform fun ω users t hexec => ?_) fun users t hsecrets => yields_ret hsecrets
    obtain ⟨husers, -⟩ := Prod.mk.inj (Option.some.inj hexec)
    exact congrArg (List.map User.two_fa_totp_secret) (Except.ok.inj husers).symm
  | getUser credentials id =>
    refine yields_guarded fun _ => yields_bind (findOne_yields id) fun user t hfound => yields_ret ?_
    simp only [Response.secrets, Request.shown, hfound.1, Option.toList_some, List.map_cons, List.map_nil]
  | updateUser credentials id dto =>
    refine yields_guarded fun _ => yields_bind (update_yields id dto) fun user t hsecret => yields_ret ?_
    obtain ⟨row, hrow, hrow'⟩ := Option.map_eq_some_iff.mp hsecret
    simp only [Response.secrets, Request.shown, hrow, hrow', Option.toList_some, List.map_cons, List.map_nil]
  | createUser credentials dto | me credentials | talentOnboarding credentials dto
  | employerOnboarding credentials dto =>
    refine yields_guarded fun _ => yields_bind (Q := fun _ _ => True) (yields_of_forall fun _ _ => trivial) ?_
    exact fun _ _ _ => yields_ret rfl
  | _ => cases h

end Shown

section Bodies

variable {γ : Type} (rendering : Rendering γ)

def Request.responseBody (req : Request) (t : Database) (response : Response) : Option (ResponseBody γ) :=
  TransformInterceptor.intercept rendering req.statusCode t.tables.users.length response

/-- On two states that differ in the secret columns, a route fails in the same way, or its two bodies tell exactly
the TOTP secrets of the rows it shows apart. -/
theorem same_body_iff {env : Env} {req : Request} (route : req.showsUsers = true) {db₁ db₂ t₁ : Database}
    (h : db₁.masked = db₂.masked) {script : List (Draw ⊕ Failure)} {l₁ : List ApiCall}
    {result₁ : Except Failure Response}
    (hrun : (handle env req).replay server db₁ script = some (l₁, result₁, t₁)) :
    ∃ l₂ result₂ t₂, (handle env req).replay server db₂ script = some (l₂, result₂, t₂) ∧
      Both (fun response₁ response₂ => req.responseBody rendering t₁ response₁ = req.responseBody rendering t₂ response₂ ↔
        req.shown db₁ = req.shown db₂) result₁ result₂ := by
  obtain ⟨l₂, result₂, t₂, hrun', hresults, ht⟩ := (sameCalls_handle env route).replay exec_masked h hrun
  refine ⟨l₂, result₂, t₂, hrun', ?_⟩
  have hshown₁ := (trail_of_replay hrun).of_traced (traced_of_wlp (handle_shows env route))
  have hshown₂ := (trail_of_replay hrun').of_traced (traced_of_wlp (handle_shows env route))
  have hlength : t₁.tables.users.length = t₂.tables.users.length := by
    have husers := congrArg List.length (congrArg Tables.users (eq_of_masked ht).1)
    simpa only [Tables.masked, List.length_map] using husers
  cases result₁ with
  | error e₁ =>
    cases result₂ with
    | error e₂ => exact hresults
    | ok response₂ => exact hresults
  | ok response₁ =>
    cases result₂ with
    | error e₂ => exact hresults
    | ok response₂ =>
      show req.responseBody rendering t₁ response₁ = req.responseBody rendering t₂ response₂ ↔ _
      unfold Request.responseBody
      rw [← hshown₁ response₁ rfl, ← hshown₂ response₂ rfl, hlength]
      exact intercept_eq rendering hresults req.statusCode t₂.tables.users.length

end Bodies

section Sample

/-! An admin looks at a user who has set up the two-factor authentication. -/

def enrolled (secret : String) : Database :=
  sampleDatabase [{ sampleUser with id := 2, email := "admin@example.com", role := .admin },
    { sampleUser with two_fa_totp_secret := some secret }]

theorem enrolled_masked (secret secret' : String) : (enrolled secret).masked = (enrolled secret').masked := rfl

/-- The object that the repository saves gets the columns of the row, and nothing is excluded from it. -/
def sampleRendering : Rendering User := ⟨fun _ => 1700000000000, id⟩

def adminCookie : Credentials where
  accessCookie := some
    { secret := sampleEnv.JWT_ACCESS_SECRET
      payload := { sub := 2, email := none, role := none, onboardingComplete := none, type := none, jti := none }
      iat := 1700000000
      exp := 1700000900 }

def lookedAt : Request := .getUser adminCookie 1

def lookRun (secret : String) : Option (List ApiCall × Except Failure Response × Database) :=
  (handle sampleEnv lookedAt).replay server (enrolled secret) [.inl {}, .inl {}, .inl {}]

def shownBy (secret : String) : Option (List (Option String)) :=
  (lookRun secret).bind fun run => run.2.1.toOption.map Response.secrets

theorem shownBy_first : shownBy "first" = some [some "first"] := by decide +kernel

theorem shownBy_second : shownBy "second" = some [some "second"] := by decide +kernel

theorem exists_of_shownBy {secret : String} {secrets : List (Option String)} (h : shownBy secret = some secrets) :
    ∃ l response t, lookRun secret = some (l, .ok response, t) ∧ response.secrets = secrets := by
  obtain ⟨⟨l, result, t⟩, hrun, hsecrets⟩ := Option.bind_eq_some_iff.mp h
  cases result with
  | error e => cases hsecrets
  | ok response => exact ⟨l, response, t, hrun, Option.some.inj hsecrets⟩

theorem looked_at_twice : ∃ l₁ response₁ t₁ l₂ result₂ t₂, lookRun "first" = some (l₁, .ok response₁, t₁) ∧
    lookRun "second" = some (l₂, result₂, t₂) ∧
    Both (fun response₁ response₂ => lookedAt.responseBody sampleRendering t₁ response₁ =
        lookedAt.responseBody sampleRendering t₂ response₂ ↔
      lookedAt.shown (enrolled "first") = lookedAt.shown (enrolled "second")) (.ok response₁) result₂ := by
  obtain ⟨l₁, response₁, t₁, hrun, -⟩ := exists_of_shownBy shownBy_first
  obtain ⟨l₂, result₂, t₂, hrun', hbodies⟩ := same_body_iff sampleRendering rfl (enrolled_masked "first" "second") hrun
  exact ⟨l₁, response₁, t₁, l₂, result₂, t₂, hrun, hrun', hbodies⟩

theorem totp_secret_shown : ¬ ∀ (rendering : Rendering User) (env : Env) (req : Request)
    (db₁ db₂ t₁ t₂ : Database) (script : List (Draw ⊕ Failure)) (l₁ l₂ : List ApiCall) (response₁ response₂ : Response),
    req.showsUsers = true → db₁.masked = db₂.masked →
    (handle env req).replay server db₁ script = some (l₁, .ok response₁, t₁) →
    (handle env req).replay server db₂ script = some (l₂, .ok response₂, t₂) →
    req.responseBody rendering t₁ response₁ = req.responseBody rendering t₂ response₂ := by
  intro h
  obtain ⟨l₁, response₁, t₁, hrun₁, hsecrets₁⟩ := exists_of_shownBy shownBy_first
  obtain ⟨l₂, response₂, t₂, hrun₂, hsecrets₂⟩ := exists_of_shownBy shownBy_second
  have hbody := h sampleRendering sampleEnv lookedAt _ _ _ _ _ _ _ _ _ rfl (enrolled_masked "first" "second") hrun₁ hrun₂
  have hsecrets := congrArg (fun body => Option.elim body [] ResponseBody.secrets) hbody
  simp only [Request.responseBody, secrets_intercept, hsecrets₁, hsecrets₂] at hsecrets
  exact absurd hsecrets (by decide)

end Sample

end SkillBridge
