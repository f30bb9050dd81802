import SkillBridge.Api.Footprint
import SkillBridge.Api.Http
import SkillBridge.Database.Pending

set_option autoImplicit false

/-! Who becomes an admin: only requests to `/users` of callers that are admins already decide it. -/

namespace SkillBridge

open Interleaving Database Prog

section Definitions

variable (env : Env)

def CalledByAdmin (req : HttpRequest) (past : List ApiCall) : Prop :=
  ∃ c, req.usersRoute = some c ∧ PassedGuards env [.admin] c past

def RoleSafe (req : HttpRequest) : ApiCall → List ApiCall → Prop
  | ⟨.insertUser tx payload, _⟩, past => payload.role ≠ .admin ∨ tx = none ∧ CalledByAdmin env req past
  | ⟨.updateUser _ payload, _⟩, past => payload.role = none ∨ CalledByAdmin env req past
  | ⟨.deleteUser _, _⟩, past => CalledByAdmin env req past
  | _, _ => True

end Definitions

def Op.InsertsDirectly : Op → Prop
  | .insertUser tx _ => tx = none
  | _ => True

variable {env : Env} {cookies : CookieEnv} {validator : Validator}

section Calls

theorem create_inserts_directly (dto : CreateUserDto) : (UsersService.create dto).Calls Op.InsertsDirectly :=
  UsersService.calls_create trivial trivial fun _ _ _ => rfl

theorem update_inserts_directly (id : UserId) (dto : UpdateUserDto) :
    (UsersService.update id dto).Calls Op.InsertsDirectly := by
  refine calls_bind ?_ fun _ => calls_bind ?_ fun _ => ?_
  · exact UsersService.calls_findOne trivial
  · unfold UsersService.hashPassword
    split
    · exact calls_bind (calls_perform trivial) fun _ => trivial
    · trivial
    · trivial
  · refine calls_bind (calls_perform trivial) fun updated => ?_
    cases updated <;> trivial

theorem remove_inserts_directly (id : UserId) : (UsersService.remove id).Calls Op.InsertsDirectly :=
  calls_bind (UsersService.calls_findOne trivial) fun _ => calls_perform trivial

theorem RoleSafe.of_plain {req : HttpRequest} {call : ApiCall} {past : List ApiCall} (h : call.1.Plain) :
    RoleSafe env req call past := by
  obtain ⟨o, r⟩ := call
  cases o <;> trivial

theorem users_roleSafe {req : HttpRequest} {c : Credentials} {handler : AuthenticatedUser → Action Response}
    (hreq : req.usersRoute = some c) (h : ∀ user, (handler user).Calls Op.InsertsDirectly) :
    (guarded env [.admin] c handler).Along (RoleSafe env req) (fun _ _ => True) [] := by
  refine (guarded_calls_along h).imp ?_
  rintro ⟨o, r⟩ past (hplain | ⟨hdirect, hadmin⟩)
  · exact .of_plain hplain
  · cases o
    case insertUser tx payload => exact .inr ⟨hdirect, c, hreq, hadmin⟩
    case updateUser id payload => exact .inr ⟨c, hreq, hadmin⟩
    case deleteUser id => exact ⟨c, hreq, hadmin⟩
    all_goals trivial

theorem OAuthSignupRole.toUserRole_ne_admin (role : OAuthSignupRole) : role.toUserRole ≠ .admin := by
  cases role <;> decide

theorem handle_roleSafe {req : Request} (hreq : req.usersRoute = none) (r : HttpRequest) :
    (handle env req).Along (RoleSafe env r) (fun _ _ => True) [] := by
  refine along_of_calls ?_ (handle_footprint env req) fun _ _ _ => trivial
  rintro ⟨o, reply⟩ past hcall
  cases o
  case insertUser tx payload =>
    obtain ⟨-, hrole, -⟩ := hcall
    left
    cases req
    case register dto =>
      rw [show payload.role = dto.role.toUserRole from hrole]
      exact dto.role.toUserRole_ne_admin
    case googleCallback profile signupRole =>
      obtain ⟨role, -, hrole⟩ := hrole
      rw [hrole]
      exact role.toUserRole_ne_admin
    case createUser c dto => cases hreq
    all_goals exact hrole.elim
  case updateUser id payload =>
    obtain ⟨-, hrole | ⟨c, id, dto, rfl⟩⟩ := hcall
    · exact .inl hrole
    · cases hreq
  case deleteUser id =>
    obtain ⟨c, id, rfl⟩ := hcall
    cases hreq
  all_goals trivial

theorem serve_roleSafe (req : HttpRequest) :
    (serve env cookies validator req).Along (RoleSafe env req) (fun _ _ => True) [] := by
  cases req with
  | register body =>
    simp only [serve]
    split
    · exact handle_roleSafe rfl _
    · trivial
  | createUser c body =>
    simp only [serve]
    split
    · exact users_roleSafe rfl fun user => calls_map _ (create_inserts_directly _)
    · exact users_roleSafe rfl fun user => trivial
  | updateUser c id body =>
    simp only [serve]
    split
    · exact users_roleSafe rfl fun user => calls_map _ (update_inserts_directly id _)
    · exact users_roleSafe rfl fun user => trivial
  | googleSignup role =>
    simp only [serve]
    split <;> trivial
  | googleCallback profile signupRoleCookie =>
    exact @handle_roleSafe env (.googleCallback profile (normalizeOAuthSignupRole signupRoleCookie)) rfl _
  | validated req h =>
    change (handle env req).Along _ _ _
    cases hroute : req.usersRoute with
    | none => exact handle_roleSafe hroute _
    | some c =>
      cases req
      case listUsers c pagination => exact users_roleSafe rfl fun user => calls_map _ (calls_perform trivial)
      case getUser c id =>
        refine users_roleSafe rfl fun user => calls_map _ (calls_bind (calls_perform trivial) fun row => ?_)
        cases row <;> trivial
      case deleteUser c id => exact users_roleSafe rfl fun user => calls_map _ (remove_inserts_directly id)
      case createUser c dto => cases h
      case updateUser c id dto => cases h
      all_goals cases hroute

end Calls

section Roles

def roles (db : Database) : List (UserId × UserRole) := db.tables.users.map fun user => (user.id, user.role)

def admins (db : Database) : Set UserId := {id | (id, UserRole.admin) ∈ roles db}

def RolesExtended (db t : Database) : Prop :=
  ∃ added, roles t = roles db ++ added ∧ ∀ user ∈ added, user.2 ≠ .admin

theorem RolesExtended.refl {db t : Database} (h : t.tables.users = db.tables.users) : RolesExtended db t :=
  ⟨[], by simp [roles, h], by simp⟩

theorem RolesExtended.admins_eq {db t : Database} (h : RolesExtended db t) : admins t = admins db := by
  obtain ⟨added, hroles, hadded⟩ := h
  ext id
  simp only [admins, Set.mem_ofPred_eq, hroles, List.mem_append]
  constructor
  · rintro (h | h)
    · exact h
    · exact absurd rfl (hadded _ h)
  · exact .inl

def Write.NoAdmin : Write → Prop
  | .insertUser payload _ _ => payload.role ≠ .admin
  | _ => True

variable {db t : Database} {o : Op} {reply : Reply o}

theorem roles_updateWhere {id : UserId} {f : User → User} (hid : ∀ user, (f user).id = user.id)
    (hrole : ∀ user, (f user).role = user.role) (users : List User) :
    (updateWhere id f users).map (fun user => (user.id, user.role)) =
      users.map fun user => (user.id, user.role) := by
  unfold updateWhere
  rw [List.map_map]
  apply List.map_congr_left
  intro user _
  simp only [Function.comp]
  split_ifs
  · rw [hid, hrole]
  · rfl

theorem Write.roles_apply {w : Write} (h : w.NoAdmin) (tables : Tables) : ∃ added,
    (w.apply tables).users.map (fun user => (user.id, user.role)) =
      tables.users.map (fun user => (user.id, user.role)) ++ added ∧ ∀ user ∈ added, user.2 ≠ .admin := by
  cases w with
  | insertUser payload id createdAt =>
    refine ⟨[(id, payload.role)], by simp [Write.apply, NewUser.toUser], ?_⟩
    intro user huser
    obtain rfl := List.mem_singleton.mp huser
    exact h
  | markOnboardingComplete id =>
    refine ⟨[], ?_, by simp⟩
    rw [List.append_nil]
    exact @roles_updateWhere id (fun user => { user with onboarding_complete := true }) (fun _ => rfl)
      (fun _ => rfl) tables.users
  | _ => exact ⟨[], by simp [Write.apply], by simp⟩

theorem roles_foldl {ws : List Write} (h : ∀ w ∈ ws, w.NoAdmin) (tables : Tables) : ∃ added,
    (ws.foldl Write.apply tables).users.map (fun user => (user.id, user.role)) =
      tables.users.map (fun user => (user.id, user.role)) ++ added ∧ ∀ user ∈ added, user.2 ≠ .admin := by
  induction ws generalizing tables with
  | nil => exact ⟨[], by simp, by simp⟩
  | cons w ws ih =>
    obtain ⟨added, hadded, hnot⟩ := Write.roles_apply (h w List.mem_cons_self) tables
    obtain ⟨more, hmore, hnot'⟩ := ih (fun w' hw' => h w' (List.mem_cons_of_mem _ hw')) (w.apply tables)
    refine ⟨added ++ more, by rw [List.foldl_cons, hmore, hadded, List.append_assoc], ?_⟩
    intro user huser
    rcases List.mem_append.mp huser with huser | huser
    · exact hnot user huser
    · exact hnot' user huser

variable {req : HttpRequest} {past : List ApiCall}

theorem rolesExtended_of_safe (hpending : Pending Write.NoAdmin db) (he : Effect db o reply t)
    (hsafe : RoleSafe env req ⟨o, reply⟩ past) : RolesExtended db t ∨ CalledByAdmin env req past := by
  cases he with
  | @insertUser payload =>
    rcases hsafe with hrole | ⟨-, hadmin⟩
    · refine .inl ⟨[(db.fresh, payload.role)], by simp [roles, setUsers, tick, NewUser.toUser], ?_⟩
      intro user huser
      obtain rfl := List.mem_singleton.mp huser
      exact hrole
    · exact .inr hadmin
  | @updateUser id payload =>
    rcases hsafe with hrole | hadmin
    · refine .inl ⟨[], ?_, by simp⟩
      rw [List.append_nil]
      refine @roles_updateWhere id payload.apply (fun _ => rfl) (fun user => ?_) db.tables.users
      simp [UserPayload.apply, hrole]
    · exact .inr hadmin
  | @rotated id currentHash nextHash =>
    refine .inl ⟨[], ?_, by simp⟩
    rw [List.append_nil]
    exact @roles_updateWhere id (fun user => { user with refreshTokenHash := some nextHash }) (fun _ => rfl)
      (fun _ => rfl) db.tables.users
  | deleteUser => exact .inr hsafe
  | @committed tx => exact .inl (roles_foldl (hpending.pending tx) db.tables)
  | _ => exact .inl (.refl rfl)

theorem noAdmin_saved (hsafe : RoleSafe env req ⟨o, reply⟩ past) {tx : TxId} {w : Write}
    (hsaves : Saves db tx o reply w) : w.NoAdmin := by
  cases hsaves with
  | insertUser => exact hsafe.resolve_right fun h => nomatch h.1
  | _ => trivial

end Roles

section Runs

variable {db : Database} {p q : HttpPool}

theorem roleSafe (hp : (http env cookies validator).Reachable (.start db) p) :
    Justified (fun e l => RoleSafe env e.req e.call (calls e.pid l)) p.world.trace :=
  (System.Reachable.along serve_roleSafe hp).2

theorem noPendingAdmin (hstart : db.transactions = [])
    (hp : (http env cookies validator).Reachable (.start db) p) : Pending Write.NoAdmin p.world.state := by
  refine System.Reachable.invariant (I := fun w => Pending Write.NoAdmin w.state) ?_ ?_ ?_ hp (roleSafe hp)
  · exact .of_idle hstart
  · exact fun m w h => h
  · exact fun w pid req o reply t h ha hC => h.step (answers_transactions ha) fun tx w hw => noAdmin_saved hC hw

def ReadsAdmin (env : Env) (c : Credentials) (e : HttpEvent) : Prop :=
  ∃ token payload now row, c.token = some token ∧ token.verify env.JWT_ACCESS_SECRET now = .ok payload ∧
    e.call = done (.findUser none payload.sub) (some row) ∧
    findById e.before.tables.users payload.sub = some row ∧ row.role = .admin

theorem readsAdmin_of_passed (hp : (http env cookies validator).Reachable (.start db) p) {c : Credentials} {pid : ℕ}
    (h : PassedGuards env [.admin] c (calls pid p.world.trace)) :
    ∃ e ∈ p.world.trace, e.pid = pid ∧ ReadsAdmin env c e := by
  obtain ⟨token, payload, now, row, htoken, hverify, hrole, hpast⟩ := h
  have hmem : done (.findUser none payload.sub) (some row) ∈ calls pid p.world.trace :=
    hpast.subset List.mem_cons_self
  obtain ⟨e, he, hpid, hcall⟩ := mem_calls.mp hmem
  obtain ⟨-, -, -, t, ht⟩ := (System.Reachable.answered hp).of_mem he
  obtain ⟨ω, hexec⟩ := exec_of_answers ht hcall
  injection hexec with hexec
  injection hexec with hreply
  injection hreply with hrow
  exact ⟨e, he, hpid, token, payload, now, row, htoken, hverify, hcall, hrow, by simpa using hrole⟩

theorem step_roles (hstart : db.transactions = []) (hp : (http env cookies validator).Reachable (.start db) p)
    (hs : (http env cookies validator).Step p q) : RolesExtended p.world.state q.world.state ∨
      ∃ e c, q.world.trace = e :: p.world.trace ∧ e.req.usersRoute = some c ∧
        ∃ e' ∈ p.world.trace, e'.pid = e.pid ∧ ReadsAdmin env c e' := by
  have hsafe := roleSafe (hp.tail hs)
  cases hs with
  | spawn h => exact .inl (.refl rfl)
  | env m => exact .inl (.refl rfl)
  | @run pid req o k reply t hk ha =>
    rcases rolesExtended_of_safe (noPendingAdmin hstart hp) (answers_effect ha) hsafe.1 with hroles | ⟨c, hc, hpassed⟩
    · exact .inl hroles
    · exact .inr ⟨_, c, rfl, hc, readsAdmin_of_passed hp hpassed⟩

end Runs

section Claims

structure SameIdentity (token token' : Jwt) : Prop where
  secret : token.secret = token'.secret
  iat : token.iat = token'.iat
  exp : token.exp = token'.exp
  sub : token.payload.sub = token'.payload.sub
  type : token.payload.type = token'.payload.type
  jti : token.payload.jti = token'.payload.jti

theorem SameIdentity.verify {token token' : Jwt} (h : SameIdentity token token') (secret : String) (now : ℕ) :
    (∃ e, token.verify secret now = .error e ∧ token'.verify secret now = .error e) ∨
      token.verify secret now = .ok token.payload ∧ token'.verify secret now = .ok token'.payload := by
  unfold Jwt.verify
  rw [h.secret, h.exp]
  split_ifs
  · exact .inl ⟨_, rfl, rfl⟩
  · exact .inl ⟨_, rfl, rfl⟩
  · exact .inr ⟨rfl, rfl⟩

theorem Credentials.token_map (f : Jwt → Jwt) (c : Credentials) : (c.map f).token = c.token.map f := by
  cases hc : c.accessCookie <;> simp [Credentials.token, Credentials.map, hc]

variable {f : Jwt → Jwt}

theorem jwtAuthGuard_map (hf : ∀ token, SameIdentity (f token) token) (c : Credentials) :
    jwtAuthGuard env (c.map f) = jwtAuthGuard env c := by
  unfold jwtAuthGuard
  rw [c.token_map]
  cases c.token with
  | none => rfl
  | some token =>
    simp only [Option.map_some]
    congr 1
    funext now
    rcases (hf token).verify env.JWT_ACCESS_SECRET now with ⟨e, he, he'⟩ | ⟨hok, hok'⟩
    · rw [he, he']
    · rw [hok, hok']
      simp only [JwtStrategy.validate, (hf token).sub]

theorem twoFaPendingGuard_map (hf : ∀ token, SameIdentity (f token) token) (authorization : Option Jwt) :
    twoFaPendingGuard env (authorization.map f) = twoFaPendingGuard env authorization := by
  unfold twoFaPendingGuard
  cases authorization with
  | none => rfl
  | some token =>
    simp only [Option.map_some]
    congr 1
    funext now
    rcases (hf token).verify env.JWT_ACCESS_SECRET now with ⟨e, he, he'⟩ | ⟨hok, hok'⟩
    · rw [he, he']
    · rw [hok, hok']
      simp only [(hf token).type, (hf token).sub]

theorem guarded_map (hf : ∀ token, SameIdentity (f token) token) (roles : List UserRole) (c : Credentials)
    (handler : AuthenticatedUser → Action Response) :
    guarded env roles (c.map f) handler = guarded env roles c handler := by
  rw [guarded, guarded, jwtAuthGuard_map hf]

theorem handle_mapAccess (hf : ∀ token, SameIdentity (f token) token) (req : Request) :
    handle env (req.mapAccess f) = handle env req := by
  cases req
  case verify2fa authorization code =>
    simp only [Request.mapAccess, handle, AuthController.verify2fa, twoFaPendingGuard_map hf]
  all_goals first | rfl | exact guarded_map hf _ _ _

theorem serve_mapAccess (hf : ∀ token, SameIdentity (f token) token) (req : HttpRequest) :
    serve env cookies validator (req.mapAccess f) = serve env cookies validator req := by
  cases req with
  | createUser c body =>
    simp only [HttpRequest.mapAccess, serve]
    split
    · exact guarded_map hf _ _ _
    · exact guarded_map hf _ _ _
  | updateUser c id body =>
    simp only [HttpRequest.mapAccess, serve]
    split
    · exact guarded_map hf _ _ _
    · exact guarded_map hf _ _ _
  | validated req h => exact handle_mapAccess hf req
  | _ => rfl

end Claims

theorem no_privilege_escalation {db : Database} {p q : HttpPool} (hstart : db.transactions = [])
    (hp : (http env cookies validator).Reachable (.start db) p) (hs : (http env cookies validator).Step p q) :
    ((RolesExtended p.world.state q.world.state ∧ admins q.world.state = admins p.world.state) ∨
      ∃ e c, q.world.trace = e :: p.world.trace ∧ e.req.usersRoute = some c ∧
        ∃ e' ∈ p.world.trace, e'.pid = e.pid ∧ ReadsAdmin env c e') ∧
    ∀ (f : Jwt → Jwt) (req : HttpRequest), (∀ token, SameIdentity (f token) token) →
      serve env cookies validator (req.mapAccess f) = serve env cookies validator req :=
  ⟨(step_roles hstart hp hs).imp_left fun h => ⟨h, h.admins_eq⟩, fun _ req hf => serve_mapAccess hf req⟩

section Runs

def adminDatabase : Database :=
  sampleDatabase [{ sampleUser with id := 0, email := "admin@example.com", role := .admin }, sampleUser]

def adminToken : Jwt where
  secret := sampleEnv.JWT_ACCESS_SECRET
  payload := { AuthService.sessionPayload sampleUser with sub := 0, jti := some 3 }
  iat := 1700000000
  exp := 1700000900

def promotion : HttpRequest := .updateUser { accessCookie := some adminToken } 1 [("role", .string "admin")]

def promotionRun : Option HttpPool :=
  (http sampleEnv {} sampleValidator).play (.start adminDatabase)
    [.spawn promotion, .run 0 {}, .run 0 {}, .run 0 {}]

theorem promotionRun_isSome : promotionRun.isSome = true := rfl

def promotedRun : Option HttpPool :=
  (http sampleEnv {} sampleValidator).advance (promotionRun.get promotionRun_isSome) (.run 0 {})

theorem promotedRun_isSome : promotedRun.isSome = true := rfl

theorem promoted_by_admin : ∃ e c, (promotedRun.get promotedRun_isSome).world.trace =
      e :: (promotionRun.get promotionRun_isSome).world.trace ∧ e.req.usersRoute = some c ∧
    ∃ e' ∈ (promotionRun.get promotionRun_isSome).world.trace, e'.pid = e.pid ∧ ReadsAdmin sampleEnv c e' := by
  have hp := System.reachable_of_play (Option.some_get promotionRun_isSome).symm
  have hs := System.step_of_advance (Option.some_get promotedRun_isSome).symm
  have hnew : (1, UserRole.admin) ∈ roles (promotedRun.get promotedRun_isSome).world.state := by decide +kernel
  have hold : (1, UserRole.admin) ∉ roles (promotionRun.get promotionRun_isSome).world.state := by decide +kernel
  rcases (no_privilege_escalation rfl hp hs).1 with ⟨-, hadmins⟩ | hadmin
  · have hmem : 1 ∈ admins (promotedRun.get promotedRun_isSome).world.state := hnew
    rw [hadmins] at hmem
    exact absurd hmem hold
  · exact hadmin

end Runs

end SkillBridge
