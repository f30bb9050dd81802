import SkillBridge.Auth.Otp
import SkillBridge.OneTimeCodes.Rows

set_option autoImplicit false

/-! The two services of one-time codes, as a system of concurrent calls of `issue` and `consume`. -/

namespace SkillBridge

open Interleaving Database Prog

inductive OtpCall
  | issue (table : OtpTable) (userId : UserId) (requestSource : OtpSource)
  | consume (table : OtpTable) (userId : UserId) (code : String)

inductive OtpResult
  | issued (otp : IssuedOtp)
  | consumed (accepted : Bool)

abbrev OtpEvent : Type := Event backend Database OtpCall

abbrev OtpPool : Type := Pool backend Database OtpCall OtpResult

def Env.otpExpiresIn (env : Env) : OtpTable → ℕ
  | .verification_otps => env.VERIFICATION_OTP_EXPIRES_IN
  | .password_reset_otps => env.PASSWORD_RESET_OTP_EXPIRES_IN

def issueOtp (env : Env) : OtpTable → UserId → OtpSource → Action IssuedOtp
  | .verification_otps => VerificationOtpService.issue env
  | .password_reset_otps => PasswordResetOtpService.issue env

def consumeOtp : OtpTable → UserId → String → Action Bool
  | .verification_otps => VerificationOtpService.consume
  | .password_reset_otps => PasswordResetOtpService.consume

def otpBody (env : Env) : OtpCall → Action OtpResult
  | .issue table userId requestSource => .issued <$> issueOtp env table userId requestSource
  | .consume table userId code => .consumed <$> consumeOtp table userId code

def otpCalls (env : Env) : System backend Database Draw Tick OtpCall OtpResult :=
  { server with body := otpBody env, admits := fun _ _ => true }

def OtpStep (env : Env) : OtpCall → ApiCall → List ApiCall → Prop
  | req, ⟨.insertOtp table payload, _⟩, past => ∃ userId requestSource code now n,
    req = .issue table userId requestSource ∧ payload.userId = userId ∧
    payload.expiresAt = now + env.otpExpiresIn table ∧
    past = [done (.hashText code) payload.otpHash, done .dateNow now, done (.randomInt 1000000) n,
      done (.invalidateActiveOtps table userId) ()]
  | req, ⟨.markOtpUsed table id, _⟩, past => ∃ userId code otp, req = .consume table userId code ∧ otp.id = id ∧
    otp.otpHash.plain = code ∧ past = [done (.findLatestOtp table userId) (some otp)]
  | _, ⟨.deleteUser _, _⟩, _ => False
  | _, _, _ => True

def OtpReturns : OtpCall → Except Failure OtpResult → List ApiCall → Prop
  | .consume table userId code, .ok (.consumed true), past => ∃ otp, otp.otpHash.plain = code ∧
    past = consumed table userId otp
  | .issue table _ _, .ok (.issued issuedOtp), past => ∃ payload otp past',
    past = done (.insertOtp table payload) otp :: done (.hashText issuedOtp.code) payload.otpHash :: past'
  | _, _, _ => True

variable {env : Env}

theorem issueOtp_eq (table : OtpTable) (userId : UserId) (requestSource : OtpSource) :
    issueOtp env table userId requestSource = Otp.issue table (env.otpExpiresIn table) userId requestSource := by
  cases table <;> rfl

theorem issue_along (table : OtpTable) (userId : UserId) (requestSource : OtpSource) :
    (OtpResult.issued <$> Otp.issue table (env.otpExpiresIn table) userId requestSource).Along
      (OtpStep env (.issue table userId requestSource)) (OtpReturns (.issue table userId requestSource)) [] := by
  apply along_map
  apply along_perform_bind
  · exact fun r => trivial
  · exact fun e => trivial
  intro _
  apply along_bind
  apply along_perform_bind
  · exact fun r => trivial
  · exact fun e => trivial
  intro n
  apply along_perform_bind
  · exact fun r => trivial
  · exact fun e => trivial
  intro now
  apply along_perform_bind
  · exact fun r => trivial
  · exact fun e => trivial
  intro hash
  apply along_perform_bind
  · exact fun r => ⟨userId, requestSource, _, now, n, rfl, rfl, rfl, rfl⟩
  · exact fun e => trivial
  intro otp
  exact ⟨_, otp, _, rfl⟩

theorem consume_along (table : OtpTable) (userId : UserId) (code : String) :
    (OtpResult.consumed <$> Otp.consume table userId code).Along
      (OtpStep env (.consume table userId code)) (OtpReturns (.consume table userId code)) [] := by
  apply along_map
  apply along_perform_bind
  · exact fun r => trivial
  · exact fun e => trivial
  intro latest
  cases latest with
  | none => trivial
  | some otp =>
    by_cases hm : otp.otpHash.verify code = true
    · simp only [hm]
      have hplain := (Digest.verify_iff _ _).mp hm
      apply along_perform
      intro r
      refine ⟨⟨userId, code, otp, rfl, rfl, hplain, rfl⟩, ?_⟩
      cases r with
      | error e => trivial
      | ok used =>
        cases used with
        | true => exact ⟨otp, hplain, rfl⟩
        | false => trivial
    · simp only [hm]
      trivial

theorem otpBody_along (req : OtpCall) : (otpBody env req).Along (OtpStep env req) (OtpReturns req) [] := by
  cases req with
  | issue table userId requestSource =>
    rw [otpBody, issueOtp_eq]
    exact issue_along table userId requestSource
  | consume table userId code =>
    cases table with
    | verification_otps => exact consume_along _ _ _
    | password_reset_otps => exact consume_along _ _ _

variable {db : Database} {p q : OtpPool} {table : OtpTable} {id : OtpId}

theorem otpSteps (hp : (otpCalls env).Reachable (.start db) p) :
    Justified (fun e l => OtpStep env e.req e.call (calls e.pid l)) p.world.trace :=
  (System.Reachable.along otpBody_along hp).2

theorem otpReturns (hp : (otpCalls env).Reachable (.start db) p) {pid : ℕ}
    {proc : Proc backend OtpCall OtpResult}
    (hproc : p.procs[pid]? = some proc) {result : OtpResult} (hret : proc.prog = .ret result) :
    OtpReturns proc.req (.ok result) (calls pid p.world.trace) := by
  have h := (System.Reachable.along otpBody_along hp).1 pid proc hproc
  rw [hret] at h
  exact h

theorem otpExec (hp : (otpCalls env).Reachable (.start db) p) {e : OtpEvent} (he : e ∈ p.world.trace) {o : Op}
    {r : o.Res} (h : e.call = done o r) : ∃ ω t, Database.exec o ω e.before = some (.ok r, t) := by
  obtain ⟨-, -, -, t, ht⟩ := (System.Reachable.answered hp).of_mem he
  obtain ⟨ω, hexec⟩ := exec_of_answers ht h
  exact ⟨ω, t, hexec⟩

theorem otpKeys (hk : OtpKeys table db) (hp : (otpCalls env).Reachable (.start db) p) :
    OtpKeys table p.world.state := by
  refine System.Reachable.stable (I := OtpKeys table) ?_ ?_ hp hk
  · exact fun m s h => ⟨h.unique, h.fresh⟩
  · exact fun o s reply t h ha => h.step (answers_effect ha)

theorem spent_later (h : Spent table id p.world.state) (hq : (otpCalls env).Reachable p q) :
    Spent table id q.world.state := by
  refine System.Reachable.stable (I := Spent table id) ?_ ?_ hq h
  · exact fun m s h => ⟨h.lt, h.used⟩
  · exact fun o s reply t h ha => h.step (answers_effect ha)

theorem unused_since (h : (otpCalls env).Reachable p q) {otp : Otp} (hm : otp ∈ q.world.state.tables.otps table)
    (hunused : otp.usedAt = none) : otp ∈ p.world.state.tables.otps table ∨
      ∃ l₁ e l₂ payload, q.world.trace = l₁ ++ e :: (l₂ ++ p.world.trace) ∧
        e.call = done (.insertOtp table payload) otp := by
  induction h with
  | refl => exact .inl hm
  | @tail q r hq hs ih =>
    cases hs with
    | spawn h => exact ih hm
    | @run pid req o k reply t hk ha =>
      rcases (answers_effect ha).unused hm hunused with hm | ⟨-, payload, hcall⟩
      · rcases ih hm with hold | ⟨l₁, e, l₂, payload, htrace, hcall⟩
        · exact .inl hold
        · exact .inr ⟨⟨pid, req, q.world.state, o, reply⟩ :: l₁, e, l₂, payload, by
            simp only [Pool.answer, World.perform, htrace, List.cons_append], hcall⟩
      · obtain ⟨l, hl⟩ := System.Reachable.trace_suffix hq
        exact .inr ⟨[], ⟨pid, req, q.world.state, o, reply⟩, l, payload, by
          simp only [Pool.answer, World.perform, hl, List.nil_append], hcall⟩
    | env m => exact ih hm

end SkillBridge
