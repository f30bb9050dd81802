import SkillBridge.Api.Http
import SkillBridge.Database.Pending
import SkillBridge.Interleaving.Persistence
import SkillBridge.Interleaving.Sequential

set_option autoImplicit false

/-! What `UsersService.remove` leaves of a user, and what becomes of the tokens of the user. -/

namespace SkillBridge

open Interleaving Prog

def Tables.without (t : Tables) (id : UserId) : Tables where
  users := t.users.filter fun user => user.id ≠ id
  oauthAccounts := t.oauthAccounts.filter fun account => account.user_id ≠ id
  otps := fun table => (t.otps table).filter fun otp => otp.userId ≠ id
  talentProfiles := t.talentProfiles.filter fun profile => profile.user_id ≠ id
  employerProfiles := t.employerProfiles.filter fun profile => profile.user_id ≠ id

def Tables.links (t : Tables) (id : UserId) : Bool := t.oauthAccounts.any fun account => account.user_id = id

section Remove

variable {db t : Database} {id : UserId} {result : Except Failure Unit}

theorem deleteUser_answered_iff : (∃ result t, db.deleteUser id = some (result, t)) ↔
    (db.others none).any (Write.references id) = false := by
  unfold Database.deleteUser
  split_ifs with hreferenced hlinked
  · simp [hreferenced]
  · simp [hreferenced]
  · simp [hreferenced]

theorem deleteUser_iff (h : db.deleteUser id = some (result, t)) :
    (result = .ok () ∧ t.tables = db.tables.without id) ↔ db.tables.links id = false := by
  unfold Database.deleteUser at h
  split_ifs at h with hreferenced hlinked
  · obtain ⟨rfl, -⟩ := Prod.mk.inj (Option.some.inj h)
    refine iff_of_false (fun h => by cases h.1) ?_
    rw [Tables.links, hlinked]
    exact Bool.noConfusion
  · obtain ⟨rfl, rfl⟩ := Prod.mk.inj (Option.some.inj h)
    have hlinks : db.tables.links id = false := by simpa [Tables.links] using hlinked
    refine iff_of_true ⟨rfl, ?_⟩ hlinks
    have haccounts : db.tables.oauthAccounts.filter (fun account => account.user_id ≠ id) =
        db.tables.oauthAccounts := by
      apply List.filter_eq_self.mpr
      simpa [Tables.links] using hlinks
    rw [Tables.without, haccounts]

theorem remove_exec_iff {user : User} (found : Database.findById db.tables.users id = some user) :
    (UsersService.remove id).Exec server.reliable db result t ↔ db.deleteUser id = some (result, t) := by
  have hfound : Database.findById (db.view none).users id = some user := found
  constructor
  · intro h
    have hwlp : (UsersService.remove id).Wlp server.reliable
        (fun result t => db.deleteUser id = some (result, t)) db := by
      refine wlp_bind (wlp_bind (wlp_perform (fun ω row u hrow => ?_) fun e he => by cases he))
      obtain ⟨rfl, rfl⟩ := Prod.mk.inj (Option.some.inj hrow)
      simp only [hfound]
      exact wlp_perform (fun ω reply u hdelete => hdelete) fun e he => by cases he
    exact h.of_wlp hwlp
  · intro h
    refine .call (.inl ⟨{}, rfl⟩) ?_
    simp only [hfound]
    refine .call (.inl ⟨{}, h⟩) ?_
    cases result with
    | ok r => exact .ret
    | error e => exact .throw

end Remove

section Tokens

def Deleted (id : UserId) (db : Database) : Prop := db.Taken id ∧ ∀ user ∈ db.tables.users, user.id ≠ id

def Request.presented : Request → Option Jwt
  | refresh refreshToken => refreshToken
  | verify2fa authorization _ => authorization
  | req => req.credentials.bind Credentials.token

def HttpRequest.presented : HttpRequest → Option Jwt
  | createUser credentials _ => credentials.token
  | updateUser credentials _ _ => credentials.token
  | validated req _ => req.presented
  | _ => none

variable {db t : Database} {id : UserId} {o : Op} {reply : Reply o}

theorem Deleted.step (h : Deleted id db) (ha : server.Answers o db reply t) : Deleted id t := by
  refine ⟨h.1.step ha, ?_⟩
  rintro user hmem rfl
  obtain ⟨old, hold, hid, -⟩ := ((answers_effect ha).row_origin hmem).of_taken h.1
  exact h.2 old hold hid

def AllFail {α : Type} (id : UserId) (p : Action α) : Prop :=
  p.Amid server (Deleted id) (fun _ => True) fun result => ∃ e, result = .error e

theorem allFail_bind {α β : Type} {p : Action α} {f : α → Action β} (h : AllFail id p) : AllFail id (p >>= f) := by
  refine amid_bind (h.mono ?_)
  rintro _ ⟨e, rfl⟩
  exact ⟨e, rfl⟩

theorem allFail_perform_bind {α : Type} {f : o.Res → Action α} (h : ∀ r, AllFail id (f r)) :
    AllFail id (perform o >>= f) := by
  refine amid_bind (amid_perform (fun s ω reply t _ _ => ?_) (fun e _ => ⟨e, rfl⟩) trivial)
  cases reply with
  | ok r => exact h r
  | error e => exact ⟨e, rfl⟩

theorem allFail_throw {α : Type} (e : Failure) : AllFail id (Prog.throw e : Action α) := ⟨e, rfl⟩

theorem allFail_find {α : Type} {f : Option User → Action α} (h : AllFail id (f none)) :
    AllFail id (UsersService.findOneOrNull id >>= f) := by
  refine amid_bind (amid_perform (fun s ω reply t hs hexec => ?_) (fun e _ => ⟨e, rfl⟩) trivial)
  obtain ⟨rfl, rfl⟩ := Prod.mk.inj (Option.some.inj hexec)
  have hnone : Database.findById s.tables.users id = none :=
    List.find?_eq_none.mpr fun user hmem => by simpa using hs.2 user hmem
  show (f (Database.findById s.tables.users id)).Amid _ _ _ _
  rw [hnone]
  exact h

theorem verify_payload {secret : String} {now : ℕ} {token : Jwt} {payload : JwtPayload}
    (h : token.verify secret now = .ok payload) : payload = token.payload :=
  (Jwt.verify_eq_ok.mp h).2.2.symm

variable {env : Env} {token : Jwt}

theorem guarded_allFail {roles : List UserRole} {credentials : Credentials}
    {handler : AuthenticatedUser → Action Response}
    (htoken : credentials.token = some token) (hsub : token.payload.sub = id) :
    AllFail id (guarded env roles credentials handler) := by
  refine allFail_bind ?_
  unfold jwtAuthGuard
  rw [htoken]
  refine allFail_perform_bind fun (now : ℕ) => ?_
  cases hverify : token.verify env.JWT_ACCESS_SECRET now with
  | error e => exact allFail_throw _
  | ok payload =>
    rw [← hsub, ← verify_payload hverify]
    exact allFail_find (allFail_throw _)

theorem refresh_allFail (hsub : token.payload.sub = id) : AllFail id (AuthController.refresh env (some token)) := by
  refine allFail_bind (allFail_perform_bind fun (now : ℕ) => ?_)
  cases hverify : token.verify env.JWT_REFRESH_SECRET now with
  | error e => exact allFail_throw _
  | ok payload =>
    rw [← hsub, ← verify_payload hverify]
    exact allFail_find (allFail_throw _)

theorem verify2fa_allFail {code : String} (hsub : token.payload.sub = id) :
    AllFail id (AuthController.verify2fa env (some token) code) := by
  have hguard : (twoFaPendingGuard env (some token)).Amid server (Deleted id) (fun _ => True)
      fun result => (∃ e, result = .error e) ∨ result = .ok id := by
    refine amid_bind (amid_perform (fun s ω reply t _ hexec => ?_) (fun e _ => .inl ⟨e, rfl⟩) trivial)
    obtain ⟨rfl, rfl⟩ := Prod.mk.inj (Option.some.inj hexec)
    dsimp only
    split
    · exact .inl ⟨_, rfl⟩
    · exact .inl ⟨_, rfl⟩
    · rename_i payload hverify
      split
      · refine .inr ?_
        rw [verify_payload hverify, hsub]
      · exact .inl ⟨_, rfl⟩
  refine amid_bind (hguard.mono ?_)
  rintro _ (⟨e, rfl⟩ | rfl)
  · exact ⟨e, rfl⟩
  · exact allFail_bind (allFail_bind (allFail_find (allFail_throw _)))

theorem handle_allFail {req : Request} (htoken : req.presented = some token) (hsub : token.payload.sub = id) :
    AllFail id (handle env req) := by
  cases req with
  | refresh refreshToken =>
    obtain rfl : refreshToken = some token := htoken
    exact refresh_allFail hsub
  | verify2fa authorization code =>
    obtain rfl : authorization = some token := htoken
    exact verify2fa_allFail hsub
  | me | setup2faTotp | enable2faTotp | disable2fa | talentOnboarding | employerOnboarding | createUser | listUsers
  | getUser | updateUser | deleteUser => exact guarded_allFail htoken hsub
  | _ => cases htoken

theorem serve_allFail {cookies : CookieEnv} {validator : Validator} {req : HttpRequest}
    (htoken : req.presented = some token) (hsub : token.payload.sub = id) :
    AllFail id (serve env cookies validator req) := by
  cases req with
  | createUser credentials body =>
    simp only [serve]
    split
    · exact guarded_allFail htoken hsub
    · exact guarded_allFail htoken hsub
  | updateUser credentials id body =>
    simp only [serve]
    split
    · exact guarded_allFail htoken hsub
    · exact guarded_allFail htoken hsub
  | validated req h => exact handle_allFail htoken hsub
  | _ => cases htoken

def TokensRefused (env : Env) (cookies : CookieEnv) (validator : Validator) (id : UserId) (p : HttpPool) : Prop :=
  ∀ q, (http env cookies validator).Reachable p q → ∀ pid proc, p.procs.length ≤ pid → q.procs[pid]? = some proc →
    ∀ token, proc.req.presented = some token → token.payload.sub = id → ∀ response, proc.prog ≠ .ret response

theorem Deleted.tokensRefused {cookies : CookieEnv} {validator : Validator} {p : HttpPool}
    (h : Deleted id p.world.state) : TokensRefused env cookies validator id p := by
  intro q hq pid proc hpid hproc token htoken hsub response hret
  have hfail : proc.prog.Amid server (Deleted id) (fun _ => True) fun result => ∃ e, result = .error e := by
    refine System.Reachable.amid (Q := fun _ result => ∃ e, result = .error e)
      (B := fun req : HttpRequest => req.presented = some token) (fun m s hs => ⟨hs.1.tick, hs.2⟩)
      (fun o s reply t hs ha => hs.step ha) (fun req htoken => ?_) hq h hpid hproc htoken
    exact serve_allFail htoken hsub
  rw [hret] at hfail
  obtain ⟨e, he⟩ := hfail
  cases he

end Tokens

section Runs

variable {env : Env} {cookies : CookieEnv} {validator : Validator} {db t : Database} {p : HttpPool} {id : UserId}

theorem http_constraints (hc : db.Constraints) (hp : (http env cookies validator).Reachable (.start db) p) :
    p.world.state.Constraints := by
  refine System.Reachable.stable (I := Database.Constraints) ?_ ?_ hp hc
  · exact fun m db h => h.tick
  · exact fun o db reply t h ha => h.step (answers_effect ha)

/-- `remove` waits for the transactions that refer to the user. Then it succeeds and is complete if and only if no
Google account is linked. -/
theorem removal_complete_iff (hc : db.Constraints) (hp : (http env cookies validator).Reachable (.start db) p)
    (existing : ∃ user ∈ p.world.state.tables.users, user.id = id) :
    ((∃ result t, (UsersService.remove id).Exec server.reliable p.world.state result t) ↔
      (p.world.state.others none).any (Write.references id) = false) ∧
    ∀ result t, (UsersService.remove id).Exec server.reliable p.world.state result t →
      ((result = .ok () ∧ t.tables = p.world.state.tables.without id ∧
          TokensRefused env cookies validator id ⟨⟨t, p.world.trace⟩, p.procs⟩) ↔
        p.world.state.tables.links id = false) := by
  obtain ⟨user, hmem, rfl⟩ := existing
  have hconstraints := http_constraints hc hp
  constructor
  · rw [← deleteUser_answered_iff]
    exact exists_congr fun result => exists_congr fun t => remove_exec_iff (hconstraints.find_user hmem)
  · intro result t h
    have hdelete := (remove_exec_iff (hconstraints.find_user hmem)).mp h
    have hdone := deleteUser_iff hdelete
    constructor
    · exact fun h => hdone.mp ⟨h.1, h.2.1⟩
    · intro hlinks
      obtain ⟨hresult, htables⟩ := hdone.mpr hlinks
      refine ⟨hresult, htables, Deleted.tokensRefused ⟨?_, ?_⟩⟩
      · have ha : server.Answers (.deleteUser user.id) p.world.state result t := .inl ⟨{}, hdelete⟩
        exact (hconstraints.taken hmem).step ha
      · intro user' hmem'
        rw [htables] at hmem'
        simpa using (List.mem_filter.mp hmem').2

section Sample

def plainDatabase : Database := sampleDatabase [sampleUser]

theorem plainDatabase_constraints : plainDatabase.Constraints :=
  ⟨by simp [Database.rows, pendingOf, plainDatabase, sampleDatabase],
    by simp [Database.rows, pendingOf, plainDatabase, sampleDatabase, sampleUser, User.row],
    by simp [Database.links, pendingOf, plainDatabase, sampleDatabase], .nil,
    by simp [plainDatabase, sampleDatabase]⟩

theorem removed_completely : ∃ t, (UsersService.remove 1).Exec server.reliable plainDatabase (.ok ()) t ∧
    t.tables = plainDatabase.tables.without 1 ∧
      TokensRefused sampleEnv {} sampleValidator 1 ⟨⟨t, []⟩, []⟩ := by
  obtain ⟨hanswered, hcomplete⟩ := @removal_complete_iff sampleEnv {} sampleValidator plainDatabase
    (.start plainDatabase) 1 plainDatabase_constraints .refl ⟨sampleUser, List.mem_singleton_self _, rfl⟩
  obtain ⟨result, t, hexec⟩ := hanswered.mpr rfl
  obtain ⟨rfl, htables, hrefused⟩ := (hcomplete result t hexec).mpr rfl
  exact ⟨t, hexec, htables, hrefused⟩

def linkedRun : Option HttpPool :=
  (http sampleEnv {} sampleValidator).play (.start plainDatabase)
    [.spawn (.googleCallback userProfile none),
      .run 0 {}, .run 0 {}, .run 0 {}]

theorem linkedRun_isSome : linkedRun.isSome = true := rfl

theorem linked_user_not_removed : ¬ ∀ (env : Env) (cookies : CookieEnv) (validator : Validator) (db : Database)
    (p : HttpPool) (id : UserId), db.Constraints → (http env cookies validator).Reachable (.start db) p →
    (Database.findById p.world.state.tables.users id).isSome = true →
    ∃ t, (UsersService.remove id).Exec server.reliable p.world.state (.ok ()) t ∧
      t.tables = p.world.state.tables.without id := by
  intro h
  have hp := System.reachable_of_play (Option.some_get linkedRun_isSome).symm
  have hfound : (Database.findById (linkedRun.get linkedRun_isSome).world.state.tables.users 1).isSome = true := by
    decide +kernel
  have hlinked : (linkedRun.get linkedRun_isSome).world.state.tables.links 1 = true := by decide +kernel
  obtain ⟨t, hexec, htables⟩ := h _ _ _ _ _ _ plainDatabase_constraints hp hfound
  obtain ⟨user, hfound⟩ := Option.isSome_iff_exists.mp hfound
  have hunlinked := (deleteUser_iff ((remove_exec_iff hfound).mp hexec)).mp ⟨rfl, htables⟩
  rw [hlinked] at hunlinked
  cases hunlinked

end Sample

end Runs

end SkillBridge
