import SkillBridge.Api.Http
import SkillBridge.Common.HttpExceptionFilter
import SkillBridge.Database.Effects
import SkillBridge.OneTimeCodes.AllOrNothing

set_option autoImplicit false

/-! What the answers of `forgotPassword`, `resetPassword` and `verifyEmail` tell about the accounts. -/

namespace SkillBridge

open Interleaving Prog

def OtpRequest.toHttp (req : OtpRequest) : HttpRequest := .validated req.toRequest (by cases req <;> rfl)

def forgot (email : String) : HttpRequest := .validated (.forgotPassword email) rfl

def Op.deletes : Op → Bool
  | deleteUser _ => true
  | _ => false

def calm (e : HttpEvent) : Bool :=
  !e.op.deletes && match e.reply with
    | .ok _ => true
    | .error f => !infrastructureFailure f

theorem calm_iff {e : HttpEvent} :
    calm e = true ↔ e.op.deletes = false ∧ ∀ f, e.reply = .error f → infrastructureFailure f = false := by
  unfold calm
  cases e.reply <;> simp

def process (req : HttpRequest) : Except Failure Response → Proc backend HttpRequest Response
  | .ok response => ⟨req, .ret response⟩
  | .error e => ⟨req, .throw e⟩

/-- Some run, from some state of the database and among any other requests, in which `req` ends in `result`. Since
it has arrived, the infrastructure has not failed, and no user has been deleted. -/
def Served (env : Env) (cookies : CookieEnv) (validator : Validator) (req : HttpRequest)
    (result : Except Failure Response) : Prop :=
  ∃ (db : Database) (p₀ p : HttpPool) (l : List HttpEvent),
    (http env cookies validator).Reachable (.start db) p₀ ∧
    (http env cookies validator).Reachable ⟨p₀.world, p₀.procs ++ [⟨req, serve env cookies validator req⟩]⟩ p ∧
    p.world.trace = l ++ p₀.world.trace ∧
    (∀ e ∈ l, calm e = true) ∧ p.procs[p₀.procs.length]? = some (process req result)

section Calls

/-- Only the infrastructure makes these calls fail. -/
def Op.Unfailing : Op → Prop
  | .findUser tx _ => tx = none
  | .findUserByEmail _ | .findLatestOtp _ _ | .markOtpUsed _ _ | .hashText _ | .hashToken _ | .signAsync _ _ _ _
  | .enqueuePasswordReset _ => True
  | .updateUser _ payload => payload.violatesNotNull = false ∧ payload.fits = true ∧ payload.email = none
  | _ => False

def Op.unfailingCall (c : ApiCall) (_ : List ApiCall) : Prop := c.1.Unfailing

theorem Op.Unfailing.updateUser {id : UserId} {payload : UserPayload} (notNull : payload.violatesNotNull = false)
    (fits : payload.fits = true) (email : payload.email = none) : (Op.updateUser id payload).Unfailing :=
  ⟨notNull, fits, email⟩

theorem Op.Unfailing.exec {o : Op} (h : o.Unfailing) {ω : Draw} {db t : Database} {reply : Reply o}
    (hexec : Database.exec o ω db = some (reply, t)) : ∃ r, reply = .ok r := by
  cases o with
  | updateUser id payload =>
    change db.updateUser id payload = some (reply, t) at hexec
    obtain ⟨notNull, fits, email⟩ := h
    unfold Database.updateUser at hexec
    simp only [notNull, fits, email, Option.join_none, Option.any_none, Bool.not_true, Bool.false_eq_true,
      ↓reduceIte] at hexec
    split at hexec
    · cases hexec
      exact ⟨_, rfl⟩
    · split_ifs at hexec
      cases hexec
      exact ⟨_, rfl⟩
  | findUser tx id => cases hexec; exact ⟨_, rfl⟩
  | findUserByEmail email => cases hexec; exact ⟨_, rfl⟩
  | findLatestOtp table userId => cases hexec; exact ⟨_, rfl⟩
  | markOtpUsed table id => cases hexec; exact ⟨_, rfl⟩
  | hashText text => cases hexec; exact ⟨_, rfl⟩
  | hashToken token => cases hexec; exact ⟨_, rfl⟩
  | signAsync payload jti secret expiresIn => cases hexec; exact ⟨_, rfl⟩
  | enqueuePasswordReset userId => cases hexec; exact ⟨_, rfl⟩
  | _ => exact h.elim

/-- The row that the e-mail led to is gone when it is read again. -/
def Vanished (l : List ApiCall) : Prop :=
  ∃ email user l', l = done (.findUser none user.id) none :: l' ∧ done (.findUserByEmail email) (some user) ∈ l'

def invalidOtp : Failure := badRequestError ErrorMessages.INVALID_OR_EXPIRED_OTP

def Failed (l : List ApiCall) : Prop := ∃ c ∈ l, ∃ e, c.2 = .error e

def Refuses {α : Type} (result : Except Failure α) (l : List ApiCall) : Prop :=
  ∀ e, result = .error e → e = invalidOtp ∨ Failed l ∨ Vanished l

variable {env : Env} {α : Type} {past : List ApiCall}

theorem refuses_failed {o : Op} {e f : Failure} : Refuses (.error f : Except Failure α) (⟨o, .error e⟩ :: past) :=
  fun _ _ => .inr (.inl ⟨_, List.mem_cons_self, e, rfl⟩)

theorem refuses_ok {a : α} : Refuses (.ok a : Except Failure α) past := by
  rintro e he
  cases he

theorem refuses_perform_bind {o : Op} {f : o.Res → Action α} (h : o.Unfailing)
    (hf : ∀ r, (f r).Along Op.unfailingCall Refuses (done o r :: past)) :
    (perform o >>= f).Along Op.unfailingCall Refuses past :=
  along_perform_bind (fun _ => h) (fun _ => refuses_failed) hf

theorem refuses_map {β : Type} {p : Action α} {f : α → β}
    (h : p.Along Op.unfailingCall Refuses past) : (f <$> p).Along Op.unfailingCall Refuses past := by
  apply along_map
  apply h.mono
  intro r l hr e he
  cases r with
  | ok a => cases he
  | error e' =>
    cases he
    exact hr e rfl

theorem signTokens_bind_refuses {user : User} {f : AuthTokens → Action α}
    (hf : ∀ tokens l, (f tokens).Along Op.unfailingCall Refuses l) :
    (AuthService.signTokens env user >>= f).Along Op.unfailingCall Refuses past := by
  apply along_bind
  refine along_perform_bind (fun _ => trivial) (fun _ => refuses_failed) fun access => ?_
  refine along_perform_bind (fun _ => trivial) (fun _ => refuses_failed) fun refresh => ?_
  exact hf ⟨access, refresh⟩ _

theorem issueTokens_refuses (user : User) (message : String) :
    (AuthService.issueTokens env user message).Along Op.unfailingCall Refuses past := by
  refine signTokens_bind_refuses fun tokens l => ?_
  apply along_bind
  refine along_perform_bind (fun _ => trivial) (fun _ => refuses_failed) fun hash => ?_
  exact along_perform_bind (fun _ => .updateUser rfl rfl rfl) (fun _ => refuses_failed) fun _ => refuses_ok

theorem spend_refuses {email code : String} {table : OtpTable} {rest : User → Action α}
    (hrest : ∀ user past, done (.findUserByEmail email) (some user) ∈ past →
      (rest user).Along Op.unfailingCall Refuses past) :
    (do match ← UsersService.findByEmail email with
        | none => MonadExcept.throw invalidOtp
        | some user =>
          let valid ← Otp.consume table user.id code
          if valid then rest user else MonadExcept.throw invalidOtp : Action α).Along
      Op.unfailingCall Refuses past := by
  have hrefused : ∀ l, (Prog.throw invalidOtp : Action α).Along Op.unfailingCall Refuses l := by
    rintro l e he
    cases he
    exact .inl rfl
  refine refuses_perform_bind trivial fun found => ?_
  cases found with
  | none => exact hrefused _
  | some user =>
    apply along_bind
    refine along_perform_bind (fun _ => trivial) (fun _ => refuses_failed) fun latest => ?_
    cases latest with
    | none => exact hrefused _
    | some otp =>
      by_cases hverify : otp.otpHash.verify code = true
      · simp only [hverify, ↓reduceIte]
        apply along_perform
        intro reply
        refine ⟨trivial, ?_⟩
        cases reply with
        | error e => exact refuses_failed
        | ok used =>
          cases used with
          | false => exact hrefused _
          | true => exact hrest user _ (by simp)
      · simp only [hverify]
        exact hrefused _

theorem handle_refuses (req : OtpRequest) :
    (handle env req.toRequest).Along Op.unfailingCall Refuses [] := by
  cases req with
  | resetPassword email otp password =>
    refine refuses_map (spend_refuses fun user past _ => ?_)
    refine refuses_perform_bind trivial fun hash => ?_
    apply along_bind
    exact along_perform_bind (fun _ => .updateUser rfl rfl rfl) (fun _ => refuses_failed) fun _ => refuses_ok
  | verifyEmail email otp =>
    refine refuses_map (spend_refuses fun user past hpast => ?_)
    cases user.is_verified with
    | true => exact issueTokens_refuses user _
    | false =>
      apply along_bind
      refine along_perform_bind (fun _ => .updateUser rfl rfl rfl) (fun _ => refuses_failed) fun updated => ?_
      refine along_perform_bind (fun _ => rfl) (fun _ => refuses_failed) fun row => ?_
      cases row with
      | none =>
        rintro e -
        exact .inr (.inr ⟨email, user, _, rfl, List.mem_cons_of_mem _ hpast⟩)
      | some row => exact issueTokens_refuses row _

end Calls

section Runs

variable {env : Env} {cookies : CookieEnv} {validator : Validator} {db : Database} {p : HttpPool}

def Recovers (req : HttpRequest) : Prop := (∃ r : OtpRequest, req = r.toHttp) ∨ ∃ email, req = forgot email

def Tells (req : HttpRequest) (result : Except Failure Response) (l : List ApiCall) : Prop :=
  (∀ r : OtpRequest, req = r.toHttp → Refuses result l) ∧
    ∀ email, req = forgot email → result = .ok (.message SuccessMessages.FORGOT_PASSWORD) ∨ Failed l

theorem forgotPassword_tells (env : Env) (email : String) : (handle env (.forgotPassword email)).Along Op.unfailingCall
    (fun result l => result = .ok (.message SuccessMessages.FORGOT_PASSWORD) ∨ Failed l) [] := by
  have hfailed : ∀ {o : Op} {e : Failure} {l : List ApiCall}, Failed (⟨o, .error e⟩ :: l) :=
    fun {o e l} => ⟨_, List.mem_cons_self, e, rfl⟩
  apply along_map
  refine along_perform_bind (fun _ => trivial) (fun _ => .inr hfailed) fun found => ?_
  cases found with
  | none => exact .inl rfl
  | some user => exact along_perform_bind (fun _ => trivial) (fun _ => .inr hfailed) fun _ => .inl rfl

theorem serve_tells (req : HttpRequest) : (serve env cookies validator req).Along
    (fun (c : ApiCall) _ => Recovers req → c.1.Unfailing) (Tells req) [] := by
  by_cases hotp : ∃ r : OtpRequest, req = r.toHttp
  · obtain ⟨r, rfl⟩ := hotp
    refine ((handle_refuses r).imp fun c l h _ => h).mono fun result l h => ⟨fun _ _ => h, ?_⟩
    intro email heq
    cases r <;> cases heq
  · by_cases hforgot : ∃ email, req = forgot email
    · obtain ⟨email, rfl⟩ := hforgot
      refine ((forgotPassword_tells env email).imp fun c l h _ => h).mono fun result l h => ⟨?_, fun _ _ => h⟩
      exact fun r heq => absurd ⟨r, heq⟩ hotp
    · refine along_of_calls (K := fun _ => True) ?_ (calls_of_forall (fun _ => trivial) _) fun result l _ => ?_
      · exact fun c l _ hrecovers => absurd hrecovers (not_or.mpr ⟨hotp, hforgot⟩)
      · exact ⟨fun r heq => absurd ⟨r, heq⟩ hotp, fun email heq => absurd ⟨email, heq⟩ hforgot⟩

def HasUser (id : UserId) (t : Tables) : Prop := ∃ user ∈ t.users, user.id = id

theorem HasUser.updateWhere {id i : UserId} {f : User → User} {t : Tables} (hf : ∀ user, (f user).id = user.id)
    (h : HasUser id t) : ∃ user ∈ SkillBridge.updateWhere i f t.users, user.id = id := by
  obtain ⟨user, hmem, hid⟩ := h
  refine ⟨_, List.mem_map_of_mem hmem, ?_⟩
  split_ifs
  · exact (hf user).trans hid
  · exact hid

theorem HasUser.apply {id : UserId} {t : Tables} (h : HasUser id t) (w : Write) : HasUser id (w.apply t) := by
  cases w with
  | insertUser payload i createdAt =>
    obtain ⟨user, hmem, hid⟩ := h
    exact ⟨user, List.mem_append_left _ hmem, hid⟩
  | markOnboardingComplete i => exact h.updateWhere fun user => rfl
  | _ => exact h

theorem HasUser.foldl {id : UserId} {t : Tables} (h : HasUser id t) (ws : List Write) :
    HasUser id (ws.foldl Write.apply t) := by
  induction ws generalizing t with
  | nil => exact h
  | cons w ws ih => exact ih (h.apply w)

theorem HasUser.step {id : UserId} {s t : Database} {o : Op} {reply : Reply o} (h : HasUser id s.tables)
    (he : Database.Effect s o reply t) (kept : o.deletes = false) : HasUser id t.tables := by
  cases he with
  | insertUser unique alone =>
    obtain ⟨user, hmem, hid⟩ := h
    exact ⟨user, List.mem_append_left _ hmem, hid⟩
  | updateUser found unique alone => exact h.updateWhere fun user => rfl
  | rotated found stored => exact h.updateWhere fun user => rfl
  | deleteUser => cases kept
  | committed => exact h.foldl _
  | _ => exact h

theorem user_persists {q : HttpPool} (h : (http env cookies validator).Reachable p q) {l : List HttpEvent}
    (hl : q.world.trace = l ++ p.world.trace) (hkept : ∀ e ∈ l, e.op.deletes = false) {id : UserId}
    (hp : HasUser id p.world.state.tables) : HasUser id q.world.state.tables :=
  System.Reachable.persists (I := fun db => HasUser id db.tables) (fun _ _ h => h)
    (fun _ _ hI ha hdeletes => hI.step (answers_effect ha) hdeletes) h hl hkept hp

theorem mem_of_found {users : List User} {id : UserId} (h : Database.findById users id = none) :
    ¬ ∃ user ∈ users, user.id = id := by
  rintro ⟨user, hmem, hid⟩
  obtain ⟨row, hrow, -⟩ := exists_findById hmem hid
  rw [h] at hrow
  cases hrow

theorem not_vanished {pid : ℕ} {l l₀ : List HttpEvent} (hp : (http env cookies validator).Reachable (.start db) p)
    (hl : p.world.trace = l ++ l₀) (hown : own pid l₀ = []) (hkept : ∀ e ∈ l, e.op.deletes = false) :
    ¬ Vanished (calls pid p.world.trace) := by
  rintro ⟨email, user, past, hpast, hmem⟩
  obtain ⟨l₁, e₁, l₂, htrace, hpid₁, hcall₁, -, rfl⟩ := exists_of_calls (A := []) hpast
  obtain ⟨e₂, he₂, hpid₂, hcall₂⟩ := mem_calls.mp hmem
  obtain ⟨l₃, l₄, rfl⟩ := List.append_of_mem he₂
  have hsplit : p.world.trace = (l₁ ++ e₁ :: l₃) ++ e₂ :: l₄ := by
    rw [htrace]
    simp
  have hsub : ∀ e ∈ l₃, e ∈ l := by
    rcases List.append_eq_append_iff.mp (hl.symm.trans hsplit) with ⟨m, -, hm⟩ | ⟨m, hm, -⟩
    · have hmem : e₂ ∈ own pid l₀ := mem_own.mpr ⟨by rw [hm]; simp, hpid₂⟩
      rw [hown] at hmem
      cases hmem
    · intro e he
      rw [hm]
      simp [he]
  obtain ⟨q, k, t, -, hworld, -, ha, hqp⟩ := System.Reachable.split hp hsplit List.nil_suffix
  obtain ⟨ω, hexec⟩ := exec_of_answers ha hcall₂
  obtain ⟨hfound, rfl⟩ := Prod.mk.inj (Option.some.inj hexec)
  have huser : HasUser user.id e₂.before.tables :=
    ⟨user, List.mem_of_find?_eq_some (Except.ok.inj hfound), rfl⟩
  have hanswered : (q.answer e₂.pid e₂.req e₂.op k e₂.reply e₂.before).world.trace = e₂ :: l₄ := by
    simp only [Pool.answer, World.perform, hworld]
  obtain ⟨q', k', t', hqq', hworld', -, ha', -⟩ := System.Reachable.split hqp htrace
    (by rw [hanswered]; exact List.suffix_append _ _)
  have hkept₃ := user_persists hqq' (l := l₃) (by rw [hworld', hanswered]) (fun e he => hkept e (hsub e he)) huser
  rw [hworld'] at hkept₃
  obtain ⟨ω', hexec'⟩ := exec_of_answers ha' hcall₁
  exact mem_of_found (Except.ok.inj (Prod.mk.inj (Option.some.inj hexec')).1) hkept₃

theorem served_tells {req : HttpRequest} {result : Except Failure Response}
    (h : Served env cookies validator req result) (recovers : Recovers req) :
    ∃ past, Tells req result past ∧ ¬ Failed past ∧ ¬ Vanished past := by
  obtain ⟨db, p₀, p, l, hp₀, hp₁, hl, hcalm, hproc⟩ := h
  have hp : (http env cookies validator).Reachable (.start db) p := hp₀.trans (.head (.spawn rfl) hp₁)
  have hown : own p₀.procs.length p₀.world.trace = [] := System.Reachable.own_new hp₀
  obtain ⟨halong, hunfailing⟩ := System.Reachable.along serve_tells hp
  refine ⟨calls p₀.procs.length p.world.trace, ?_, ?_, not_vanished hp hl hown fun e he => (calm_iff.mp (hcalm e he)).1⟩
  · have htells := halong _ _ hproc
    cases result <;> exact htells
  · rintro ⟨c, hc, f, hf⟩
    obtain ⟨e, he, hpid, rfl⟩ := mem_calls.mp hc
    have hmem : e ∈ l := by
      rw [hl] at he
      rcases List.mem_append.mp he with he | he
      · exact he
      · have hmem := mem_own.mpr ⟨he, hpid⟩
        rw [hown] at hmem
        cases hmem
    have hreq : Recovers e.req := by
      rw [System.Reachable.req_eq hp hproc e he hpid]
      cases result <;> exact recovers
    obtain ⟨-, -, -, hop⟩ := hunfailing.of_mem he
    obtain ⟨-, -, -, t, ⟨ω, hω⟩ | ⟨f', hf', hreply, -⟩⟩ := (System.Reachable.answered hp).of_mem he
    · obtain ⟨r, hr⟩ := (hop hreq).exec hω
      cases hf.symm.trans hr
    · have hinfra := (calm_iff.mp (hcalm e hmem)).2 f' hreply
      have hinfra' : infrastructureFailure f' = true := hf'
      rw [hinfra'] at hinfra
      cases hinfra

def ErrorBody.untimed (body : ErrorBody) : ErrorBody := { body with timestamp := 0 }

/-- Whatever is stored and whatever happens meanwhile, `forgotPassword` gives one answer, and `resetPassword` and
`verifyEmail` have one answer for all that they reject. -/
theorem recovery_reveals_nothing :
    (∀ email result, Served env cookies validator (forgot email) result →
      result = .ok (.message SuccessMessages.FORGOT_PASSWORD)) ∧
    (∀ email, (handle env (.forgotPassword email)).Calls fun o =>
      ∀ db, ∃ ω reply t, Database.exec o ω db = some (reply, t)) ∧
    ∀ (req : OtpRequest) e₁ e₂, Served env cookies validator req.toHttp (.error e₁) →
      Served env cookies validator req.toHttp (.error e₂) → ∀ url now₁ now₂,
      (HttpExceptionFilter.catch e₁ url now₁).untimed = (HttpExceptionFilter.catch e₂ url now₂).untimed := by
  have hrefused : ∀ (req : OtpRequest) e, Served env cookies validator req.toHttp (.error e) → e = invalidOtp := by
    intro req e h
    obtain ⟨past, htells, hfailed, hvanished⟩ := served_tells h (.inl ⟨req, rfl⟩)
    rcases htells.1 req rfl e rfl with he | hlate | hlate
    · exact he
    · exact absurd hlate hfailed
    · exact absurd hlate hvanished
  refine ⟨fun email result h => ?_, fun email => ?_, fun req e₁ e₂ h₁ h₂ url now₁ now₂ => ?_⟩
  · obtain ⟨past, htells, hfailed, -⟩ := served_tells h (.inr ⟨email, rfl⟩)
    exact (htells.2 email rfl).resolve_right hfailed
  · refine calls_bind (calls_bind (calls_perform fun db => ⟨{}, _, _, rfl⟩) fun found => ?_) fun _ => trivial
    cases found with
    | none => trivial
    | some user => exact calls_bind (calls_perform fun db => ⟨{}, _, _, rfl⟩) fun _ => trivial
  · rw [hrefused req e₁ h₁, hrefused req e₂ h₂]
    rfl

def wrongCode : OtpRequest := .resetPassword "user@example.com" "000000" "new password"

def wrongCodeRun (db : Database) (moves : List (Move backend Draw Tick HttpRequest)) : Option HttpPool :=
  (http sampleEnv {} sampleValidator).play
    ⟨⟨db, []⟩, [⟨wrongCode.toHttp, serve sampleEnv {} sampleValidator wrongCode.toHttp⟩]⟩ moves

theorem served_of_play {moves : List (Move backend Draw Tick HttpRequest)} (h : wrongCodeRun db moves = some p)
    (hcalm : p.world.trace.all calm = true) {result : Except Failure Response}
    (hproc : p.procs[0]? = some (process wrongCode.toHttp result)) :
    Served sampleEnv {} sampleValidator wrongCode.toHttp result :=
  ⟨db, .start db, p, p.world.trace, .refl, System.reachable_of_play h, (List.append_nil _).symm,
    List.all_eq_true.mp hcalm, hproc⟩

theorem wrong_code_run_isSome : (wrongCodeRun resetDatabase [.run 0 {}, .run 0 {}]).isSome = true := by
  decide +kernel

theorem unknown_email_run_isSome : (wrongCodeRun (sampleDatabase []) [.run 0 {}]).isSome = true := by
  decide +kernel

theorem wrong_code_like_unknown_email : ∃ e₁ e₂,
    Served sampleEnv {} sampleValidator wrongCode.toHttp (.error e₁) ∧
    Served sampleEnv {} sampleValidator wrongCode.toHttp (.error e₂) ∧ ∀ url now₁ now₂,
      (HttpExceptionFilter.catch e₁ url now₁).untimed = (HttpExceptionFilter.catch e₂ url now₂).untimed := by
  have h₁ : Served sampleEnv {} sampleValidator wrongCode.toHttp (.error invalidOtp) := by
    exact served_of_play (Option.some_get wrong_code_run_isSome).symm (by decide +kernel) rfl
  have h₂ : Served sampleEnv {} sampleValidator wrongCode.toHttp (.error invalidOtp) := by
    exact served_of_play (Option.some_get unknown_email_run_isSome).symm (by decide +kernel) rfl
  exact ⟨_, _, h₁, h₂, recovery_reveals_nothing.2.2 wrongCode _ _ h₁ h₂⟩

end Runs

end SkillBridge
