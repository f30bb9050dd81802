import SkillBridge.Api.Footprint
import SkillBridge.GoogleSignUp.SignUp

set_option autoImplicit false

/-! The flows of one browser share one cookie: which of them may sign a user up, and with which role. -/

namespace SkillBridge

open Interleaving

/-- The process has inserted this row, and has committed the transaction it was inserted in. -/
def Creates (pid : ℕ) (user : User) (l : List HttpEvent) : Prop :=
  ∃ tx payload, done (.insertUser tx payload) user ∈ calls pid l ∧
    ∀ id, tx = some id → done (.commitTransaction id) () ∈ calls pid l

/-- Whatever the server does meanwhile, a callback with this cookie creates a user only for a flow that was
started with a role, and of that role. -/
def BelongsToFlow (env : Env) (cookies : CookieEnv) (validator : Validator) (profile : GoogleProfile)
    (cookie : Option String) (origin : Option OAuthSignupRole) : Prop :=
  ∀ (db : Database) (p : HttpPool), (http env cookies validator).Reachable (.start db) p →
    ∀ (pid : ℕ) (proc : Proc backend HttpRequest Response), p.procs[pid]? = some proc →
      proc.req = .googleCallback profile cookie → ∀ user, Creates pid user p.world.trace →
        ∃ role, origin = some role ∧ user.role = role.toUserRole

variable {env : Env} {cookies : CookieEnv} {validator : Validator} {profile : GoogleProfile}

section Callback

def CallbackFootprint (req : HttpRequest) (o : Op) : Prop :=
  ∀ profile cookie, req = .googleCallback profile cookie →
    Footprint (.googleCallback profile (normalizeOAuthSignupRole cookie)) o

theorem serve_callbackFootprint (req : HttpRequest) :
    (serve env cookies validator req).Calls (CallbackFootprint req) := by
  cases req with
  | googleCallback profile cookie =>
    refine Prog.calls_imp (handle_footprint env (.googleCallback profile (normalizeOAuthSignupRole cookie))) ?_
    rintro o ho profile' cookie' h
    cases h
    exact ho
  | _ => exact Prog.calls_of_forall (by rintro o profile cookie ⟨⟩) _

variable {db : Database} {p : HttpPool} {pid : ℕ} {proc : Proc backend HttpRequest Response}
  {cookie : Option String}

theorem role_of_inserted (hp : (http env cookies validator).Reachable (.start db) p)
    (hproc : p.procs[pid]? = some proc) (hreq : proc.req = .googleCallback profile cookie) {tx : Option TxId}
    {payload : NewUser} {user : User} (h : done (.insertUser tx payload) user ∈ calls pid p.world.trace) :
    ∃ role, normalizeOAuthSignupRole cookie = some role ∧ user.role = role.toUserRole := by
  obtain ⟨e, he, hpid, hcall⟩ := mem_calls.mp h
  have hfootprint := System.Reachable.footprint serve_callbackFootprint hp he
  obtain ⟨-, -, -, t, ht⟩ := (System.Reachable.answered hp).of_mem he
  obtain ⟨ω, hexec⟩ := exec_of_answers ht hcall
  have huser : user = payload.toUser e.before.fresh e.before.dbNow := by
    rcases Database.insertUnique_cases hexec with ⟨err, herr, -⟩ | ⟨-, -, -, hrow, -⟩
    · cases herr
    · exact Except.ok.inj hrow
  have hrequest : e.req = .googleCallback profile cookie :=
    (System.Reachable.req_eq hp hproc e he hpid).trans hreq
  rw [(Sigma.mk.inj hcall).1] at hfootprint
  obtain ⟨-, ⟨role, hrole, hpayload⟩, -⟩ := hfootprint profile cookie hrequest
  rw [huser]
  exact ⟨role, hrole, hpayload⟩

end Callback

section Run

def insertedRole : ApiCall → Option (Option TxId × UserRole)
  | ⟨.insertUser tx _, .ok user⟩ => some (tx, user.role)
  | _ => none

def committed : ApiCall → Option TxId
  | ⟨.commitTransaction tx, .ok _⟩ => some tx
  | _ => none

theorem creates_of_filterMap {pid : ℕ} {l : List HttpEvent} {tx : TxId} {role : UserRole}
    (hinserted : (some tx, role) ∈ (calls pid l).filterMap insertedRole)
    (hcommitted : tx ∈ (calls pid l).filterMap committed) : ∃ user, Creates pid user l ∧ user.role = role := by
  obtain ⟨call, hcall, hrow⟩ := List.mem_filterMap.mp hinserted
  obtain ⟨call', hcall', hcommit⟩ := List.mem_filterMap.mp hcommitted
  unfold insertedRole at hrow
  unfold committed at hcommit
  split at hrow
  · rename_i payload user
    cases hrow
    split at hcommit
    · cases hcommit
      refine ⟨user, ⟨some tx, payload, hcall, fun id hid => ?_⟩, rfl⟩
      obtain rfl := Option.some.inj hid
      exact hcall'
    · cases hcommit
  · cases hrow

def begunRun (env : Env) (cookies : CookieEnv) (validator : Validator) (profile : GoogleProfile)
    (role : OAuthSignupRole) : Option HttpPool :=
  (http env cookies validator).play (.start (sampleDatabase []))
    (.spawn (.googleCallback profile (some role.value)) :: List.replicate 3 (.run 0 {}))

theorem begunRun_isSome (role : OAuthSignupRole) : (begunRun env cookies validator profile role).isSome = true := by
  cases role <;> rfl

def createdRun (env : Env) (cookies : CookieEnv) (validator : Validator) (profile : GoogleProfile)
    (role : OAuthSignupRole) : Option HttpPool :=
  (http env cookies validator).play ((begunRun env cookies validator profile role).get (begunRun_isSome role))
    (List.replicate 4 (.run 0 {}))

theorem play_insert {p : HttpPool} {req : HttpRequest} {o : Op} {k : Reply o → Action Response}
    {moves : List (Move backend Draw Tick HttpRequest)} {fits taken waits dangling : Bool} {row : o.Res}
    {tx : Option TxId} {w : Write} {db : Database} (hdb : p.world.state = db)
    (hp : p.procs[0]? = some ⟨req, .call o k⟩)
    (hexec : Database.exec o {} db = db.insertUnique fits taken waits dangling row tx w)
    (hfits : fits = true) (htaken : taken = false) (hwaits : waits = false) (hdangling : dangling = false) :
    (http env cookies validator).play p (.run 0 {} :: moves) =
      (http env cookies validator).play (p.answer 0 req o k (.ok row) (db.save tx w).tick) moves := by
  have hadvance : (http env cookies validator).advance p (.run 0 {}) =
      some (p.answer 0 req o k (.ok row) (db.save tx w).tick) := by
    have hanswer : (http env cookies validator).exec o {} db = some (.ok row, (db.save tx w).tick) :=
      hexec.trans (insertUnique_free hfits htaken hwaits hdangling)
    simp only [System.advance, hp, hdb, hanswer]
  rw [System.play, hadvance]
  rfl

theorem createdRun_eq (role : OAuthSignupRole) : (createdRun env cookies validator profile role).map (fun p =>
      (p.procs[0]?.map Proc.req, (calls 0 p.world.trace).filterMap insertedRole,
        (calls 0 p.world.trace).filterMap committed)) =
    some (some (.googleCallback profile (some role.value)), [(some 10, role.toUserRole)], [10]) := by
  have hfits : (profile.newUser role).fits = true := NewUser.fits_of_profile profile.fits rfl rfl
  let begun := (sampleDatabase []).start
  let inserted := (begun.save (some 10) (.insertUser (profile.newUser role) 11 begun.dbNow)).tick
  unfold createdRun
  cases role
  all_goals
    refine (congrArg _ (play_insert (o := .insertUser (some 10) (profile.newUser _)) (show _ = begun from rfl) rfl rfl
      hfits rfl rfl rfl)).trans ?_
    refine (congrArg _ (play_insert (o := .insertOauthAccount (some 10) 11 "google" profile.providerId)
      (show _ = inserted from rfl) rfl rfl profile.fitsIdentity rfl rfl rfl)).trans ?_
    rfl

theorem creates_in_createdRun (env : Env) (cookies : CookieEnv) (validator : Validator) (profile : GoogleProfile)
    (role : OAuthSignupRole) : ∃ p, (http env cookies validator).Reachable (.start (sampleDatabase [])) p ∧
      (∃ proc, p.procs[0]? = some proc ∧ proc.req = .googleCallback profile (some role.value)) ∧
      ∃ user, Creates 0 user p.world.trace ∧ user.role = role.toUserRole := by
  have hbegun := System.reachable_of_play
    (Option.some_get (@begunRun_isSome env cookies validator profile role)).symm
  obtain ⟨p, hp, heq⟩ := Option.map_eq_some_iff.mp
    (@createdRun_eq env cookies validator profile role)
  obtain ⟨hproc, hcalls⟩ := Prod.mk.inj heq
  obtain ⟨hinserted, hcommitted⟩ := Prod.mk.inj hcalls
  refine ⟨p, hbegun.trans (System.reachable_of_play hp), Option.map_eq_some_iff.mp hproc,
    @creates_of_filterMap _ _ 10 _ ?_ ?_⟩
  · rw [hinserted]
    exact List.mem_singleton_self _
  · rw [hcommitted]
    exact List.mem_singleton_self _

end Run

section Flows

variable {origin : Option OAuthSignupRole}

theorem belongsToFlow_none : BelongsToFlow env cookies validator profile none origin := by
  rintro db p hp pid proc hproc hreq user ⟨tx, payload, hinserted, hcommitted⟩
  obtain ⟨role, hrole, hrow⟩ := role_of_inserted hp hproc hreq hinserted
  cases hrole

theorem belongsToFlow_iff {role : OAuthSignupRole} :
    BelongsToFlow env cookies validator profile (some role.value) origin ↔ some role = origin := by
  constructor
  · intro hbelongs
    obtain ⟨p, hp, ⟨proc, hproc, hreq⟩, user, hcreates, huser⟩ :=
      creates_in_createdRun env cookies validator profile role
    obtain ⟨role', rfl, heq⟩ := hbelongs _ p hp 0 proc hproc hreq user hcreates
    rw [huser] at heq
    cases role <;> cases role' <;> first | rfl | cases heq
  · rintro rfl db p hp pid proc hproc hreq user ⟨tx, payload, hinserted, hcommitted⟩
    obtain ⟨role', hrole', huser⟩ := role_of_inserted hp hproc hreq hinserted
    rw [normalizeOAuthSignupRole_value] at hrole'
    exact ⟨role', hrole', huser⟩

/-- A callback signs up with the role of its flow exactly if the configuration holds the cookie back, or no other
flow has left another role in it. -/
theorem signup_role_of_flow_iff (env : Env) (validator : Validator) (profile : GoogleProfile) {https : Bool}
    {steps : List BrowserStep} {session : GoogleSession} (h : GoogleSession.after cookies https steps = some session)
    (_ : origin ∈ session.flows) :
    BelongsToFlow env cookies validator profile session.signupRoleCookie origin ↔
      ¬ cookies.ReturnsCookies https ∨ carried steps = none ∨ (carried steps).map Prod.fst = origin := by
  rw [GoogleSession.signupRoleCookie_eq h]
  split_ifs with hreturns
  · cases carried steps with
    | none => exact iff_of_true belongsToFlow_none (.inr (.inl rfl))
    | some entry =>
      simp only [Option.map_some, belongsToFlow_iff, hreturns, not_true_eq_false, reduceCtorEq, false_or]
  · exact iff_of_true belongsToFlow_none (.inl hreturns)

end Flows

def laxCookies : CookieEnv := { AUTH_COOKIE_SAMESITE := some .lax }

theorem talentFlow_flows : ((GoogleSession.after laxCookies true talentFlow).get
    (talentFlow_isSome _ _)).flows = [some .talent] := by decide +kernel

theorem talentFlow_belongs : BelongsToFlow sampleEnv laxCookies sampleValidator newProfile
    ((GoogleSession.after laxCookies true talentFlow).get (talentFlow_isSome _ _)).signupRoleCookie
    (some .talent) :=
  (signup_role_of_flow_iff sampleEnv _ newProfile (Option.some_get _).symm
    (talentFlow_flows ▸ List.mem_singleton_self _)).mpr (.inr (.inr (by decide +kernel)))

def abandonedSteps : List BrowserStep := [.start, .abandon 0, .startSignup OAuthSignupRole.talent.value]

theorem abandonedSteps_isSome : (GoogleSession.after laxCookies true abandonedSteps).isSome = true := rfl

theorem abandonedSteps_flows : ((GoogleSession.after laxCookies true abandonedSteps).get
    abandonedSteps_isSome).flows = [none] := by decide +kernel

theorem plain_flow_creates_user : ¬ ∀ (env : Env) (cookies : CookieEnv) (validator : Validator)
    (profile : GoogleProfile) (https : Bool) (steps : List BrowserStep) (session : GoogleSession),
    GoogleSession.after cookies https steps = some session → ∀ origin ∈ session.flows,
      BelongsToFlow env cookies validator profile session.signupRoleCookie origin := by
  intro h
  have hsession := (Option.some_get abandonedSteps_isSome).symm
  have hbelongs := h sampleEnv laxCookies sampleValidator newProfile true _ _ hsession none
    (abandonedSteps_flows ▸ List.mem_singleton_self _)
  have hcarried : carried abandonedSteps = some (.talent, 0) := by decide +kernel
  rw [GoogleSession.signupRoleCookie_eq hsession, if_pos (by decide), hcarried] at hbelongs
  cases belongsToFlow_iff.mp hbelongs

end SkillBridge
