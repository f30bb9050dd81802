import Mathlib.Data.Rat.Init
import SkillBridge.Mail.Templates
import SkillBridge.Shared.Dates

set_option autoImplicit false

/-! `src/modules/mail/outbound-email-queue.service.ts`: password-reset e-mails, sent at once or through the queue. -/

namespace SkillBridge

structure MailEnv where
  RESEND_MAIL_FROM : JsString
  FRONTEND_URL : JsString
  EMAIL_LOGO_URL : Option JsString := none
  SUPPORT_EMAIL : JsString

structure SendingTime where
  now : TimeValue
  fullYear : ℤ

/-- Numbers of JavaScript; all rational numbers take part, not only those that a double can hold. -/
inductive JsNumber
  | finite (x : ℚ)
  | infinity
  | negativeInfinity
  | nan

/-- A `Date` without a time is an invalid one. -/
inductive ExpiresAt
  | date (time : Option TimeValue)
  | string (text : JsString)
  | number (x : JsNumber)

structure PasswordResetEmailPayload where
  toAddress : JsString
  otp : JsString
  recipientFirstName : JsString
  expiresAt : ExpiresAt

structure Email where
  sender : JsString
  toAddress : JsString
  subject : JsString
  html : Option JsString
  text : Option JsString
  deriving DecidableEq

structure Delivery where
  sent : Option Email
  result : Except Failure Unit
  deriving DecidableEq

def Delivery.rejected (message : String) : Delivery := ⟨none, .error (.error message)⟩

/-- `new Date(x)` cuts off the fraction of a number of milliseconds. -/
def dateOfNumber : JsNumber → Option TimeValue
  | .finite x => if -MAX_TIME ≤ x ∧ x ≤ MAX_TIME then timeClip (x.num.tdiv x.den) else none
  | _ => none

def newDate (dates : DateParser) : ExpiresAt → Option TimeValue
  | .date time => time
  | .string text => dates.parse text
  | .number x => dateOfNumber x

def coerceExpiresAt (dates : DateParser) (value : ExpiresAt) : Except Failure TimeValue :=
  match value with
  | .date (some time) => .ok time
  | _ =>
    match newDate dates value with
    | none => .error (.error "Invalid expiresAt for password reset email")
    | some time => .ok time

def decimalString (n : ℤ) : JsString := utf16 (toString n)

/-- `Math.max(1, Math.ceil((expiresAt.getTime() - Date.now()) / (60 * 1000)))`. -/
def minutesUntil (expiresAt now : TimeValue) : ℤ := max 1 (-((now.1 - expiresAt.1) / (60 * 1000)))

def digitVars (padded : JsString) : List (JsString × JsString) :=
  padded.chars.zipIdx.map fun entry => (utf16 s!"digit{entry.2 + 1}", entry.1)

/-- `url.replace(/\/$/, '')`. -/
def withoutTrailingSlash (url : JsString) : JsString := if url.getLast? = some 47 then url.dropLast else url

def logoUrl (env : MailEnv) : JsString :=
  env.EMAIL_LOGO_URL.getD (utf16 "https://placehold.co/140x40/1f5f6b/ffffff/png?text=SkillBridge")

def orElse (text : JsString) (fallback : String) : JsString := if text = [] then utf16 fallback else text

/-- What `emails.send` answers is `resend`: the message of its error, if there is one. -/
def sendMail (env : MailEnv) (resend : Email → Option String) (toAddress subject html text : JsString) : Delivery :=
  if html = [] ∧ text = [] then .rejected "Sending a mail requires either \x60html\x60 or \x60text\x60."
  else
    let email : Email :=
      { sender := env.RESEND_MAIL_FROM, toAddress, subject
        html := if html = [] then none else some html
        text := if text = [] then none else some text }
    match resend email with
    | none => ⟨some email, .ok ()⟩
    | some message => ⟨some email, .error (.error message)⟩

/-- `rawHtml` is the file `password-reset.html`. -/
def sendPasswordResetImmediate (env : MailEnv) (rawHtml : JsString) (dates : DateParser)
    (resend : Email → Option String) (time : SendingTime) (params : PasswordResetEmailPayload) : Delivery :=
  let otp := params.otp.trim
  if otp = [] then .rejected "sendPasswordReset requires a non-empty otp"
  else
    match coerceExpiresAt dates params.expiresAt with
    | .error e => ⟨none, .error e⟩
    | .ok expiresAt =>
      let expiresInMinutes := minutesUntil expiresAt time.now
      let name := orElse params.recipientFirstName.trim "there"
      let padded := otp.padStart 6 48
      let html := substituteMailTemplate rawHtml
        ([(utf16 "name", name),
          (utf16 "expiresMinutes", decimalString expiresInMinutes),
          (utf16 "logoUrl", logoUrl env),
          (utf16 "supportEmail", env.SUPPORT_EMAIL),
          (utf16 "unsubscribeUrl", withoutTrailingSlash env.FRONTEND_URL ++ utf16 "/email-preferences"),
          (utf16 "year", decimalString time.fullYear)] ++ digitVars padded)
      let text := utf16 "Hi " ++ name ++ utf16 ",\n\nYour SkillBridge password reset code is " ++ padded ++
        utf16 ". It expires in " ++ decimalString expiresInMinutes ++
        utf16 " minute(s).\n\nIf you did not request a reset, ignore this email."
      sendMail env resend params.toAddress (utf16 "Reset your SkillBridge password") html text

/-! The queue holds the payload as JSON. -/

inductive JobValue
  | null
  | string (text : JsString)
  | number (x : ℚ)

structure JobData where
  toAddress : JobValue
  otp : JobValue
  recipientFirstName : JobValue
  expiresAt : JobValue

structure Job where
  name : String
  data : JobData

/-- What `JSON.parse` makes of `JSON.stringify(value)`. -/
def ExpiresAt.toJobValue : ExpiresAt → JobValue
  | .date (some time) => .string (toISOString time)
  | .date none => .null
  | .string text => .string text
  | .number (.finite x) => .number x
  | .number _ => .null

def enqueuePasswordReset (payload : PasswordResetEmailPayload) : Job where
  name := "password-reset"
  data :=
    { toAddress := .string payload.toAddress
      otp := .string payload.otp
      recipientFirstName := .string payload.recipientFirstName
      expiresAt := payload.expiresAt.toJobValue }

def nonEmptyString : JobValue → Option JsString
  | .string text => if text = [] then none else some text
  | _ => none

/-- `z.union([z.date(), z.string(), z.number()])`; there are no dates in JSON. -/
def dateStringOrNumber : JobValue → Option ExpiresAt
  | .null => none
  | .string text => some (.string text)
  | .number x => some (.number (.finite x))

def passwordResetEmailJobSchema (data : JobData) : Option PasswordResetEmailPayload := do
  let toAddress ← nonEmptyString data.toAddress
  let otp ← nonEmptyString data.otp
  let recipientFirstName ← nonEmptyString data.recipientFirstName
  let expiresAt ← dateStringOrNumber data.expiresAt
  pure { toAddress, otp, recipientFirstName, expiresAt }

def processJob (env : MailEnv) (rawHtml : JsString) (dates : DateParser) (resend : Email → Option String)
    (time : SendingTime) (job : Job) : Delivery :=
  if job.name ≠ "password-reset" then .rejected s!"Unknown outbound email job: {job.name}"
  else
    match passwordResetEmailJobSchema job.data with
    | none => .rejected "Invalid password-reset email job payload"
    | some params => sendPasswordResetImmediate env rawHtml dates resend time params

structure Delivery.Agrees (d other : Delivery) : Prop where
  sent : d.sent = other.sent
  rejects : d.result = .ok () ↔ other.result = .ok ()

section Transport

variable {dates : DateParser}

theorem coerceExpiresAt_eq (value : ExpiresAt) : coerceExpiresAt dates value =
    match newDate dates value with
    | none => .error (.error "Invalid expiresAt for password reset email")
    | some time => .ok time := by
  match value with
  | .date none => rfl
  | .date (some _) => rfl
  | .string _ => rfl
  | .number _ => rfl

theorem newDate_transported {value : ExpiresAt} :
    (dateStringOrNumber value.toJobValue).bind (newDate dates) = newDate dates value := by
  match value with
  | .date none => rfl
  | .date (some time) => exact dates.parse_toISOString time
  | .string _ => rfl
  | .number (.finite _) => rfl
  | .number .infinity => rfl
  | .number .negativeInfinity => rfl
  | .number .nan => rfl

theorem schema_enqueued {payload : PasswordResetEmailPayload} (hto : payload.toAddress ≠ []) (hotp : payload.otp ≠ [])
    (hname : payload.recipientFirstName ≠ []) : passwordResetEmailJobSchema (enqueuePasswordReset payload).data =
      (dateStringOrNumber payload.expiresAt.toJobValue).map fun expiresAt => { payload with expiresAt } := by
  simp only [passwordResetEmailJobSchema, enqueuePasswordReset, nonEmptyString, hto, hotp, hname, if_false]
  cases dateStringOrNumber payload.expiresAt.toJobValue <;> rfl

theorem schema_refuses {payload : PasswordResetEmailPayload}
    (h : payload.otp = [] ∨ payload.recipientFirstName = []) :
    passwordResetEmailJobSchema (enqueuePasswordReset payload).data = none := by
  simp only [passwordResetEmailJobSchema, enqueuePasswordReset, nonEmptyString]
  rcases h with h | h <;> simp [h]

end Transport

section Sending

variable {env : MailEnv} {rawHtml : JsString} {dates : DateParser} {resend : Email → Option String}
  {time : SendingTime} {params : PasswordResetEmailPayload}

theorem sendPasswordResetImmediate_congr {expiresAt : ExpiresAt}
    (h : newDate dates expiresAt = newDate dates params.expiresAt) :
    sendPasswordResetImmediate env rawHtml dates resend time { params with expiresAt } =
      sendPasswordResetImmediate env rawHtml dates resend time params := by
  simp only [sendPasswordResetImmediate, coerceExpiresAt_eq, h]

theorem send_refused (h : params.otp.trim = [] ∨ newDate dates params.expiresAt = none) :
    ∃ e, sendPasswordResetImmediate env rawHtml dates resend time params = ⟨none, .error e⟩ := by
  unfold sendPasswordResetImmediate
  by_cases hotp : params.otp.trim = []
  · exact ⟨_, by simp only [hotp, ↓reduceIte]; rfl⟩
  · exact ⟨_, by simp only [hotp, ↓reduceIte, coerceExpiresAt_eq, h.resolve_left hotp]; rfl⟩

theorem sendMail_sent {toAddress subject html text : JsString} (h : text ≠ []) :
    ∃ email, (sendMail env resend toAddress subject html text).sent = some email := by
  simp only [sendMail, h, and_false, if_false]
  split <;> exact ⟨_, rfl⟩

theorem send_sent (hotp : params.otp.trim ≠ []) (hdate : newDate dates params.expiresAt ≠ none) :
    ∃ email, (sendPasswordResetImmediate env rawHtml dates resend time params).sent = some email := by
  obtain ⟨expiresAt, hexpires⟩ := Option.ne_none_iff_exists'.mp hdate
  simp only [sendPasswordResetImmediate, hotp, if_false, coerceExpiresAt_eq, hexpires]
  refine sendMail_sent fun hnil => ?_
  have hlen := congrArg List.length hnil
  simp only [List.length_append, List.length_nil] at hlen
  have : (utf16 "Hi ").length = 3 := by decide +kernel
  omega

end Sending

section Queue

variable {env : MailEnv} {rawHtml : JsString} {dates : DateParser} {resend : Email → Option String}
  {time : SendingTime} {payload : PasswordResetEmailPayload}

theorem agrees_refl (d : Delivery) : d.Agrees d := ⟨rfl, Iff.rfl⟩

theorem rejected_agrees_iff (message : String) : (Delivery.rejected message).Agrees
      (sendPasswordResetImmediate env rawHtml dates resend time payload) ↔
    payload.otp.trim = [] ∨ newDate dates payload.expiresAt = none := by
  constructor
  · intro hagrees
    by_contra hvalid
    push Not at hvalid
    have hsent : ∃ email, (sendPasswordResetImmediate env rawHtml dates resend time payload).sent = some email :=
      send_sent hvalid.1 hvalid.2
    rw [← hagrees.sent] at hsent
    simp [Delivery.rejected] at hsent
  · intro hrefused
    have hsend : ∃ e, sendPasswordResetImmediate env rawHtml dates resend time payload = ⟨none, .error e⟩ :=
      send_refused hrefused
    obtain ⟨e, hsend⟩ := hsend
    rw [hsend]
    constructor
    · rfl
    · simp [Delivery.rejected]

theorem processJob_refused (h : passwordResetEmailJobSchema (enqueuePasswordReset payload).data = none) :
    processJob env rawHtml dates resend time (enqueuePasswordReset payload) =
      .rejected "Invalid password-reset email job payload" := by
  simp only [processJob, h]
  rfl

theorem processJob_enqueued (hto : payload.toAddress ≠ []) (hotp : payload.otp ≠ [])
    (hname : payload.recipientFirstName ≠ []) :
    (processJob env rawHtml dates resend time (enqueuePasswordReset payload)).Agrees
      (sendPasswordResetImmediate env rawHtml dates resend time payload) := by
  have hschema := schema_enqueued hto hotp hname
  have hdate : (dateStringOrNumber payload.expiresAt.toJobValue).bind (newDate dates) =
      newDate dates payload.expiresAt := newDate_transported
  cases hread : dateStringOrNumber payload.expiresAt.toJobValue with
  | none =>
    rw [hread] at hschema hdate
    rw [processJob_refused hschema, rejected_agrees_iff]
    exact .inr hdate.symm
  | some expiresAt =>
    rw [hread] at hschema hdate
    have hjob : processJob env rawHtml dates resend time (enqueuePasswordReset payload) =
        sendPasswordResetImmediate env rawHtml dates resend time { payload with expiresAt } := by
      simp only [processJob, hschema]
      rfl
    rw [hjob, sendPasswordResetImmediate_congr hdate]
    exact agrees_refl _

end Queue

/-- The queue sends what the inline path sends and rejects what it rejects, but for an empty first name. -/
theorem queue_agrees_iff (env : MailEnv) (rawHtml : JsString) (dates : DateParser) (resend : Email → Option String)
    (time : SendingTime) (payload : PasswordResetEmailPayload) (addressed : payload.toAddress ≠ []) :
    (processJob env rawHtml dates resend time (enqueuePasswordReset payload)).Agrees
      (sendPasswordResetImmediate env rawHtml dates resend time payload) ↔
    payload.recipientFirstName ≠ [] ∨ payload.otp.trim = [] ∨ newDate dates payload.expiresAt = none := by
  by_cases hname : payload.recipientFirstName = []
  · rw [processJob_refused (schema_refuses (.inr hname)), rejected_agrees_iff]
    simp [hname]
  · by_cases hotp : payload.otp = []
    · have htrim : payload.otp.trim = [] := by rw [hotp]; rfl
      rw [processJob_refused (schema_refuses (.inl hotp)), rejected_agrees_iff]
      simp [hname, htrim]
    · simp only [processJob_enqueued addressed hotp hname, ne_eq, hname, not_false_eq_true, true_or]

def resetPayload (recipientFirstName : JsString) : PasswordResetEmailPayload where
  toAddress := utf16 "ada@example.com"
  otp := utf16 "123456"
  recipientFirstName := recipientFirstName
  expiresAt := .date (some ⟨60000, by decide⟩)

def sampleMailEnv : MailEnv where
  RESEND_MAIL_FROM := utf16 "SkillBridge <noreply@example.com>"
  FRONTEND_URL := utf16 "https://example.com"
  SUPPORT_EMAIL := utf16 "support@example.com"

def beginningOf1970 : SendingTime := ⟨⟨0, by decide⟩, 1970⟩

theorem queue_agrees_for_ada :
    (processJob sampleMailEnv (utf16 "Hi \x7b\x7bname\x7d\x7d") isoParser (fun _ => none) beginningOf1970
        (enqueuePasswordReset (resetPayload (utf16 "Ada")))).Agrees
      (sendPasswordResetImmediate sampleMailEnv (utf16 "Hi \x7b\x7bname\x7d\x7d") isoParser (fun _ => none)
        beginningOf1970 (resetPayload (utf16 "Ada"))) := by
  have haddressed : (resetPayload (utf16 "Ada")).toAddress ≠ [] := by decide +kernel
  have hname : (resetPayload (utf16 "Ada")).recipientFirstName ≠ [] := by decide +kernel
  exact (queue_agrees_iff _ _ _ _ _ _ haddressed).mpr (.inl hname)

theorem empty_first_name_rejected : ¬ ∀ (env : MailEnv) (rawHtml : JsString) (dates : DateParser)
    (resend : Email → Option String) (time : SendingTime) (payload : PasswordResetEmailPayload),
    payload.toAddress ≠ [] → (processJob env rawHtml dates resend time (enqueuePasswordReset payload)).Agrees
      (sendPasswordResetImmediate env rawHtml dates resend time payload) := by
  intro h
  have haddressed : (resetPayload []).toAddress ≠ [] := by decide +kernel
  have hotp : (resetPayload []).otp.trim ≠ [] := by decide +kernel
  have hdate : newDate isoParser (resetPayload []).expiresAt ≠ none := by
    simp [resetPayload, newDate]
  have hagrees := h sampleMailEnv [] isoParser (fun _ => none) beginningOf1970 (resetPayload []) haddressed
  rw [processJob_refused (schema_refuses (.inr rfl)), rejected_agrees_iff] at hagrees
  exact hagrees.elim hotp hdate

end SkillBridge
