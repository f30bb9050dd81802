import SkillBridge.Database.Pending
import SkillBridge.OneTimeCodes.Rows
import SkillBridge.Security.PasswordReset

set_option autoImplicit false

/-! A password that logs in belongs to someone who controls the mailbox. -/

namespace SkillBridge

open Interleaving Database

variable {env : Env} {db t : Database} {p : ApiPool} {id : UserId}

def Request.setsPassword : Request → Bool
  | createUser _ _ => true
  | updateUser _ _ dto => dto.password.join.isSome
  | _ => false

/-- The event shows control of the mailbox of the user: a code sent there is used up, or Google vouches for
the e-mail address of an unverified account. -/
inductive ProvesMailbox (id : UserId) (e : ApiEvent) (l : List ApiEvent) : Prop
  | verifyEmail {email code : String} {otp : Otp} (request : e.req = .verifyEmail email code)
      (owner : otp.userId = id)
      (selected : done (.findLatestOtp .verification_otps id) (some otp) ∈ calls e.pid l)
      (call : e.call = done (.markOtpUsed .verification_otps otp.id) true)
  | resetPassword {email code password : String} {otp : Otp}
      (request : e.req = .resetPassword email code password)
      (owner : otp.userId = id)
      (selected : done (.findLatestOtp .password_reset_otps id) (some otp) ∈ calls e.pid l)
      (call : e.call = done (.markOtpUsed .password_reset_otps otp.id) true)
  | googleCallback {profile : GoogleProfile} {signupRole : Option OAuthSignupRole} {user : User}
      {row : Option User} (request : e.req = .googleCallback profile signupRole) (owner : user.id = id)
      (unverified : user.is_verified = false) (email : user.email = profile.email)
      (selected : done (.findUserByEmail profile.email) (some user) ∈ calls e.pid l)
      (call : e.call = done (.updateUser id { is_verified := some true }) row)

def MailboxProven (id : UserId) (l : List ApiEvent) : Prop :=
  ∃ l₁ e l₂, l = l₁ ++ e :: l₂ ∧ ProvesMailbox id e l₂

theorem MailboxProven.append {l : List ApiEvent} (h : MailboxProven id l) (l' : List ApiEvent) :
    MailboxProven id (l' ++ l) := by
  obtain ⟨l₁, e, l₂, rfl, he⟩ := h
  exact ⟨l' ++ l₁, e, l₂, by rw [List.append_assoc], he⟩

def Owned (l : List ApiEvent) (user : User) : Prop :=
  user.is_verified = true → user.password ≠ none → MailboxProven user.id l

theorem userId_of_selected (hp : (api env).Reachable (.start db) p) {e : ApiEvent} (he : e ∈ p.world.trace)
    {table : OtpTable} {otp : Otp} (h : e.call = done (.findLatestOtp table id) (some otp)) :
    otp.userId = id := by
  obtain ⟨ω, t, hexec⟩ := exec_of_call hp he h
  injection hexec with hexec
  injection hexec with hreply
  have hlatest : e.before.findLatestOtp table id ω.number = some otp := Except.ok.inj hreply
  exact (mem_of_findLatestOtp hlatest).2.1

theorem email_of_selected (hp : (api env).Reachable (.start db) p) {e : ApiEvent} (he : e ∈ p.world.trace)
    {email : String} {user : User} (h : e.call = done (.findUserByEmail email) (some user)) :
    user ∈ e.before.tables.users ∧ user.email = email := by
  obtain ⟨ω, t, hexec⟩ := exec_of_call hp he h
  injection hexec with hexec
  injection hexec with hreply
  have hfind : (e.before.tables.users.find? fun user => user.email = email) = some user := Except.ok.inj hreply
  exact ⟨List.mem_of_find?_eq_some hfind, by simpa using List.find?_some hfind⟩

theorem usedCode (hp : (api env).Reachable (.start db) p) {l₁ l₂ : List ApiEvent} {e : ApiEvent}
    (htrace : p.world.trace = l₁ ++ e :: l₂) {table : OtpTable} {otp : Otp} {A B : List ApiCall}
    (hcalls : calls e.pid l₂ = A ++ (consumed table id otp ++ B)) : otp.userId = id ∧
      ∃ l₃ e' l₄, l₂ = l₃ ++ e' :: l₄ ∧ e'.req = e.req ∧ e'.call = done (.markOtpUsed table otp.id) true ∧
        done (.findLatestOtp table id) (some otp) ∈ calls e'.pid l₄ := by
  obtain ⟨l₃, e', l₄, rfl, hpid, hcall, -, hrest⟩ := exists_of_calls hcalls
  have hmem : ∀ x ∈ e' :: l₄, x ∈ p.world.trace := by
    intro x hx
    exact mem_of_split htrace x (List.mem_cons_of_mem _ (List.mem_append_right _ hx))
  have hselected : done (.findLatestOtp table id) (some otp) ∈ calls e.pid l₄ := by
    rw [hrest]
    exact List.mem_cons_self
  obtain ⟨x, hx, -, hxcall⟩ := mem_calls.mp hselected
  refine ⟨userId_of_selected hp (hmem x (List.mem_cons_of_mem _ hx)) hxcall, l₃, e', l₄, rfl, ?_, hcall,
    by rw [hpid]; exact hselected⟩
  exact System.Reachable.same_req hp (by rw [htrace]; simp) (hmem e' List.mem_cons_self) hpid

structure OwnedStep (e : ApiEvent) (l : List ApiEvent) : Prop where
  updateUser : ∀ id payload row, e.call = done (.updateUser id payload) row →
    payload.is_verified = none ∧ payload.password.join = none ∨ MailboxProven id (e :: l)
  insertUser : ∀ payload, e.op = .insertUser none payload → payload.is_verified = false
  saveUser : ∀ tx payload, e.op = .insertUser (some tx) payload → payload.password = none

theorem ownedStep (hp : (api env).Reachable (.start db) p)
    (hadmin : ∀ e ∈ p.world.trace, e.req.setsPassword = false)
    {l₁ l₂ : List ApiEvent} {e : ApiEvent} (htrace : p.world.trace = l₁ ++ e :: l₂) : OwnedStep e l₂ := by
  have hex : Explained env e.req e.call (calls e.pid l₂) := (htrace ▸ explained hp).at
  have he : e ∈ p.world.trace := by simp [htrace]
  have hset := hadmin e he
  have hmem : ∀ x ∈ l₂, x ∈ p.world.trace := fun x hx => mem_of_split htrace x (List.mem_cons_of_mem _ hx)
  constructor
  · intro id payload row hcall
    rw [hcall] at hex
    change UserWrite env e.req id payload (calls e.pid l₂) at hex
    generalize hreq : e.req = req at hex hset
    generalize hcalls : calls e.pid l₂ = past at hex
    cases hex with
    | session issues other => exact .inl ⟨rfl, rfl⟩
    | logout admitted stored matching => exact .inl ⟨rfl, rfl⟩
    | setup2faTotp inactive => exact .inl ⟨rfl, rfl⟩
    | enableTotp2fa => exact .inl ⟨rfl, rfl⟩
    | disable2fa => exact .inl ⟨rfl, rfl⟩
    | @updateUser c id dto past password set =>
      refine .inl ⟨rfl, ?_⟩
      change dto.password.join.isSome = false at hset
      rw [hset] at set
      have hnone : password.join = none := by simpa using set
      exact hnone
    | @resetPassword email code password user otp hash matching =>
      obtain ⟨owner, l₃, e', l₄, rfl, hreq', hcall', hselected⟩ := usedCode (A := [_]) hp htrace hcalls
      exact .inr ⟨e :: l₃, e', l₄, rfl, .resetPassword (hreq'.trans hreq) owner hselected hcall'⟩
    | @verifyEmail email code user otp unverified matching =>
      obtain ⟨owner, l₃, e', l₄, rfl, hreq', hcall', hselected⟩ := usedCode (A := []) hp htrace hcalls
      exact .inr ⟨e :: l₃, e', l₄, rfl, .verifyEmail (hreq'.trans hreq) owner hselected hcall'⟩
    | @linkByEmail profile signupRole user past unverified =>
      have hselected : done (.findUserByEmail profile.email) (some user) ∈ calls e.pid l₂ := by
        rw [hcalls]
        exact List.mem_cons_self
      obtain ⟨x, hx, -, hxcall⟩ := mem_calls.mp hselected
      have hemail := (email_of_selected hp (hmem x hx) hxcall).2
      exact .inr ⟨[], e, l₂, rfl, .googleCallback hreq rfl unverified hemail hselected hcall⟩
  · intro payload hop
    obtain ⟨pid, req, before, op, reply⟩ := e
    change op = _ at hop
    subst hop
    change UserInsert req none payload (calls pid l₂) at hex
    generalize calls pid l₂ = past at hex
    cases hex with
    | register password unverified => exact unverified
    | createUser => cases hset
  · intro tx payload hop
    obtain ⟨pid, req, before, op, reply⟩ := e
    change op = _ at hop
    subst hop
    change UserInsert req (some tx) payload (calls pid l₂) at hex
    generalize calls pid l₂ = past at hex
    cases hex with
    | googleCallback email password verified => exact password

def Write.insertsPassword : Write → Bool
  | insertUser payload _ _ => payload.password.isSome
  | _ => false

structure OwnedRows (w : World backend Database Request) : Prop where
  users : ∀ user ∈ w.state.tables.users, Owned w.trace user
  pending : Pending (fun write => write.insertsPassword = false) w.state

theorem Owned.cons {l : List ApiEvent} {user : User} (h : Owned l user) (e : ApiEvent) : Owned (e :: l) user :=
  fun hv hpw => (h hv hpw).append [e]

theorem owned_apply {l : List ApiEvent} {tables : Tables} {write : Write} (hw : write.insertsPassword = false)
    (h : ∀ user ∈ tables.users, Owned l user) : ∀ user ∈ (write.apply tables).users, Owned l user := by
  cases write with
  | insertUser payload id createdAt =>
    intro user hu
    rcases List.mem_append.mp hu with hu | hu
    · exact h user hu
    · obtain rfl := List.mem_singleton.mp hu
      intro _ hpw
      simp only [Write.insertsPassword, Option.isSome_eq_false_iff, Option.isNone_iff_eq_none] at hw
      exact absurd hw hpw
  | markOnboardingComplete id =>
    intro user hu
    obtain ⟨old, hold, rfl⟩ := List.mem_map.mp hu
    split_ifs
    · exact h old hold
    · exact h old hold
  | _ => exact h

theorem owned_foldl {l : List ApiEvent} {ws : List Write} {tables : Tables}
    (hw : ∀ write ∈ ws, write.insertsPassword = false) (h : ∀ user ∈ tables.users, Owned l user) :
    ∀ user ∈ (ws.foldl Write.apply tables).users, Owned l user := by
  induction ws generalizing tables with
  | nil => exact h
  | cons write ws ih =>
    exact ih (fun w hm => hw w (List.mem_cons_of_mem _ hm)) (owned_apply (hw write List.mem_cons_self) h)

theorem owned_updateUser {l : List ApiEvent} {payload : UserPayload}
    (hstep : payload.is_verified = none ∧ payload.password.join = none ∨ MailboxProven id l)
    (h : ∀ user ∈ db.tables.users, Owned l user) :
    ∀ user ∈ updateWhere id payload.apply db.tables.users, Owned l user := by
  intro user hu
  obtain ⟨old, hold, rfl⟩ := List.mem_map.mp hu
  split_ifs with hid
  · rcases hstep with ⟨hverified, hpassword⟩ | hproven
    · intro hv hpw
      simp only [UserPayload.apply_is_verified, hverified, Option.getD_none] at hv
      rw [UserPayload.apply_password] at hpw
      rcases payload with ⟨_, _ | _ | _⟩
      · exact h old hold hv hpw
      · exact absurd rfl hpw
      · cases hpassword
    · intro _ _
      rw [UserPayload.apply_id, hid]
      exact hproven
  · exact h old hold

theorem OwnedRows.perform {w : World backend Database Request} (h : OwnedRows w) {pid : ℕ} {req : Request}
    {o : Op} {reply : Reply o} (ha : server.Answers o w.state reply t)
    (hstep : OwnedStep ⟨pid, req, w.state, o, reply⟩ w.trace) : OwnedRows (w.perform pid req o reply t) := by
  have husers : ∀ user ∈ w.state.tables.users, Owned (⟨pid, req, w.state, o, reply⟩ :: w.trace) user :=
    fun user hu => (h.users user hu).cons _
  have heffect := answers_effect ha
  cases heffect with
  | @insertUser payload unique alone =>
    refine ⟨fun user hu => ?_, h.pending⟩
    rcases List.mem_append.mp hu with hu | hu
    · exact husers user hu
    · obtain rfl := List.mem_singleton.mp hu
      intro hv _
      have hunverified : payload.is_verified = false := hstep.insertUser payload rfl
      exact absurd (hunverified.symm.trans hv) Bool.false_ne_true
  | @updateUser id payload user found unique alone =>
    exact ⟨owned_updateUser (hstep.updateUser id payload _ rfl) husers, h.pending⟩
  | rotated found stored =>
    refine ⟨fun user hu => ?_, h.pending⟩
    obtain ⟨old, hold, rfl⟩ := List.mem_map.mp hu
    split_ifs
    · exact husers old hold
    · exact husers old hold
  | deleteUser => exact ⟨fun user hu => husers user ((List.mem_filter.mp hu).1), h.pending⟩
  | @savedUser tx payload =>
    have hnone : payload.password = none := hstep.saveUser tx payload rfl
    refine ⟨husers, h.pending.save ?_⟩
    simp [Write.insertsPassword, hnone]
  | @saved _ _ tx write n hsaves fresh noUser =>
    refine ⟨husers, @Pending.save w.state _ tx h.pending _ ?_⟩
    cases write with
    | insertUser payload id createdAt => exact absurd rfl (noUser payload id createdAt)
    | _ => rfl
  | started =>
    refine ⟨husers, fun entry he => ?_⟩
    rcases List.mem_cons.mp he with rfl | he
    · simp
    · exact h.pending entry he
  | committed =>
    exact ⟨owned_foldl (h.pending.pending _) husers, fun entry he => h.pending entry ((List.mem_filter.mp he).1)⟩
  | rolledBack => exact ⟨husers, fun entry he => h.pending entry ((List.mem_filter.mp he).1)⟩
  | _ => exact ⟨husers, h.pending⟩

theorem ownedRows (hempty : db.tables.users = []) (hidle : db.transactions = [])
    (hp : (api env).Reachable (.start db) p) (hadmin : ∀ e ∈ p.world.trace, e.req.setsPassword = false) :
    OwnedRows p.world := by
  have hsteps : Justified OwnedStep p.world.trace :=
    justified_of_split fun l₁ e l₂ htrace => ownedStep hp hadmin htrace
  have hstart : OwnedRows ⟨db, []⟩ := ⟨by simp [hempty], .of_idle hidle⟩
  refine System.Reachable.invariant hstart ?_ ?_ hp hsteps
  · exact fun m w h => ⟨h.users, h.pending⟩
  · exact fun w pid req o reply t h ha hstep => h.perform ha hstep

/-- A login with a password only succeeds after the mailbox of the user has been proved to be theirs. -/
theorem mailbox_proven_before_login (hempty : db.tables.users = []) (hidle : db.transactions = [])
    (hp : (api env).Reachable (.start db) p) (hadmin : ∀ e ∈ p.world.trace, e.req.setsPassword = false)
    {pid : ℕ} {proc : Proc backend Request Response} (hproc : p.procs[pid]? = some proc)
    {email password : String}
    (hreq : proc.req = .login email password) {response : Response} (hret : proc.prog = .ret response)
    {tokens : AuthTokens} (htokens : response.authTokens = some tokens) :
    ∃ l₁ e l₂, p.world.trace = l₁ ++ e :: l₂ ∧ e.pid = pid ∧
      minted e.call = some tokens.accessToken ∧ MailboxProven tokens.accessToken.payload.sub l₂ := by
  obtain ⟨user, past, issues, hsuffix⟩ := ((outcome hp hproc hret).1 tokens htokens).signed
  rw [hreq] at issues
  obtain ⟨A, hA⟩ := hsuffix
  have hcalls : calls pid p.world.trace = (A ++ [done (refreshSign env user) tokens.refreshToken]) ++
      done (accessSign env user) tokens.accessToken :: past := by simp [← hA]
  obtain ⟨l₁, e, l₂, htrace, hpid, hcall, -, hpast⟩ := exists_of_calls hcalls
  have hsub : tokens.accessToken.payload.sub = user.id := by
    rw [token_eq hp (by rw [htrace]; simp) hcall]
    rfl
  refine ⟨l₁, e, l₂, htrace, hpid, by rw [hcall]; rfl, ?_⟩
  rw [hsub]
  generalize hrequest : Request.login email password = req at issues
  cases issues with
  | @login email password user hash verified noTwoFa stored matching =>
    obtain ⟨l₃, x, l₄, rfl, -, hxcall, -, -⟩ := exists_of_calls (A := []) hpast
    have htrace' : p.world.trace = (l₁ ++ e :: l₃) ++ x :: l₄ := by simp [htrace]
    obtain ⟨q, k, t, hq, hqw, -, -, hqp⟩ := System.Reachable.split hp htrace' List.nil_suffix
    have hadminq : ∀ e ∈ q.world.trace, e.req.setsPassword = false := by
      intro e he
      rw [hqw] at he
      exact hadmin e (mem_of_split htrace' e (List.mem_cons_of_mem _ he))
    have hrow := (email_of_selected hp (by rw [htrace']; simp) hxcall).1
    have howned := (ownedRows hempty hidle hq hadminq).users user (by rw [hqw]; exact hrow) verified
      (by simp [stored])
    rw [hqw] at howned
    have := howned.append (l₃ ++ [x])
    rwa [List.append_assoc] at this
  | onboarding request presented admitted =>
    subst hrequest
    cases request
  | _ => cases hrequest

section Runs

def sampleRegistration : RegisterDto where
  email := "user@example.com"
  password := "correct horse"
  firstName := "Ada"
  lastName := "Lovelace"
  role := .talent

def registrationRun : Option ApiPool :=
  (api sampleEnv).play (.start (sampleDatabase []))
    [.spawn (.register sampleRegistration), .run 0 {}, .run 0 {}, .run 0 {}, .run 0 {},
      .run 0 { number := 654321 },
      .run 0 {}, .run 0 {}, .run 0 {}, .run 0 {},
      .spawn (.verifyEmail "user@example.com" "654321"), .run 1 {}, .run 1 {}, .run 1 {}, .run 1 {}, .run 1 {},
      .run 1 {}, .run 1 {}, .run 1 {}, .run 1 {},
      .spawn (.login "user@example.com" "correct horse"), .run 2 {}, .run 2 {}, .run 2 {}, .run 2 {}, .run 2 {}]

def autoLinkRun : Option ApiPool :=
  (api sampleEnv).play (.start (sampleDatabase []))
    [.spawn (.register sampleRegistration), .run 0 {}, .run 0 {}, .run 0 {}, .run 0 {},
      .run 0 { number := 654321 },
      .run 0 {}, .run 0 {}, .run 0 {}, .run 0 {},
      .spawn (.googleCallback userProfile none), .run 1 {}, .run 1 {},
      .run 1 {}, .run 1 {}, .run 1 {}, .run 1 {}, .run 1 {}, .run 1 {}, .run 1 {}, .run 1 {},
      .spawn (.login "user@example.com" "correct horse"), .run 2 {}, .run 2 {}, .run 2 {}, .run 2 {}, .run 2 {}]

theorem registrationRun_isSome : registrationRun.isSome = true := rfl

theorem autoLinkRun_isSome : autoLinkRun.isSome = true := rfl

def Op.usesCode : Op → Bool
  | markOtpUsed _ _ => true
  | _ => false

theorem mailbox_proven_in_registrationRun : ∃ l₁ e l₂,
    (registrationRun.get registrationRun_isSome).world.trace = l₁ ++ e :: l₂ ∧ MailboxProven 11 l₂ := by
  have hp := System.reachable_of_play (Option.some_get registrationRun_isSome).symm
  have hadmin : ((registrationRun.get registrationRun_isSome).world.trace.all
      fun e => !e.req.setsPassword) = true := by
    decide +kernel
  obtain ⟨l₁, e, l₂, htrace, -, -, hproven⟩ := mailbox_proven_before_login rfl rfl hp
    (fun e he => by simpa using List.all_eq_true.mp hadmin e he)
    (List.getElem?_eq_getElem (by decide +kernel : 2 < _)) rfl rfl rfl
  exact ⟨l₁, e, l₂, htrace, hproven⟩

theorem logged_in_by_registered_password : ∃ p, (api sampleEnv).Reachable (.start (sampleDatabase [])) p ∧
    (∀ e ∈ p.world.trace, e.req.setsPassword = false) ∧
    (∃ proc response tokens, p.procs[2]? = some proc ∧ proc.req = .login "user@example.com" "correct horse" ∧
      proc.prog = .ret response ∧ response.authTokens = some tokens) ∧
    ∀ e ∈ p.world.trace, e.op.usesCode = false := by
  have hp := System.reachable_of_play (Option.some_get autoLinkRun_isSome).symm
  have hadmin : ((autoLinkRun.get autoLinkRun_isSome).world.trace.all fun e => !e.req.setsPassword) = true := by
    decide +kernel
  have hcode : ((autoLinkRun.get autoLinkRun_isSome).world.trace.all fun e => !e.op.usesCode) = true := by
    decide +kernel
  refine ⟨_, hp, fun e he => by simpa using List.all_eq_true.mp hadmin e he, ?_,
    fun e he => by simpa using List.all_eq_true.mp hcode e he⟩
  exact ⟨_, _, _, List.getElem?_eq_getElem (by decide +kernel : 2 < _), rfl, rfl, rfl⟩

end Runs

end SkillBridge
