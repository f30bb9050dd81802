import SkillBridge.Auth.Cookies
import SkillBridge.Config.Duration
import SkillBridge.OneTimeCodes.Calls
import SkillBridge.Shared.Dates

set_option autoImplicit false

/-! What the settings that are durations are used for: the cookies of a session and the one-time codes. -/

namespace SkillBridge

open Interleaving Database Prog

structure AuthCookieOptions where
  httpOnly : Bool
  secure : Bool
  sameSite : SameSite
  path : String
  maxAge : Option ℕ
  deriving DecidableEq

structure AuthCookie where
  name : String
  value : String
  options : AuthCookieOptions
  deriving DecidableEq

def buildAuthCookieOptions (env : CookieEnv) (maxAge : ℕ) : AuthCookieOptions where
  httpOnly := true
  secure := authCookieSecure env
  sameSite := authCookieSameSite env
  path := "/"
  maxAge := if 0 < maxAge then some maxAge else none

def setAuthCookies (env : CookieEnv) (settings : DurationSettings) (accessToken refreshToken : String) :
    Except Failure (List AuthCookie) := do
  let accessMaxAge ← parseDurationToMs settings.JWT_ACCESS_EXPIRES_IN
  let refreshMaxAge ← parseDurationToMs settings.JWT_REFRESH_EXPIRES_IN
  pure [⟨Cookies.ACCESS_TOKEN_COOKIE, accessToken, buildAuthCookieOptions env accessMaxAge⟩,
    ⟨Cookies.REFRESH_TOKEN_COOKIE, refreshToken, buildAuthCookieOptions env refreshMaxAge⟩]

/-- The services parse the settings whenever they use them. -/
structure Env.HasDurations (env : Env) (settings : DurationSettings) : Prop where
  access : parseDurationToMs settings.JWT_ACCESS_EXPIRES_IN = .ok env.JWT_ACCESS_EXPIRES_IN
  refresh : parseDurationToMs settings.JWT_REFRESH_EXPIRES_IN = .ok env.JWT_REFRESH_EXPIRES_IN
  verification : parseDurationToMs settings.VERIFICATION_OTP_EXPIRES_IN = .ok env.VERIFICATION_OTP_EXPIRES_IN
  passwordReset : parseDurationToMs settings.PASSWORD_RESET_OTP_EXPIRES_IN = .ok env.PASSWORD_RESET_OTP_EXPIRES_IN

/-- `Date.UTC(3000, 0)`. -/
def YEAR_3000 : ℤ := 32503680000000

structure IsLifetime (d : ℕ) : Prop where
  pos : 0 < d
  valid : ∀ now : ℤ, IsTimeValue now → now < YEAR_3000 → IsTimeValue (now + d)

theorem isLifetime_iff {d : ℕ} : IsLifetime d ↔ 0 < d ∧ d ≤ 8607496320000001 := by
  constructor
  · rintro ⟨hpos, hvalid⟩
    have := (hvalid (YEAR_3000 - 1) (by decide) (by decide)).2
    rw [YEAR_3000, MAX_TIME] at this
    omega
  · rintro ⟨hpos, hle⟩
    refine ⟨hpos, fun now hnow hlt => ?_⟩
    rw [IsTimeValue, MAX_TIME] at hnow ⊢
    rw [YEAR_3000] at hlt
    omega

section Range

def DurationUnit.limit : DurationUnit → ℕ
  | ms => 8607496320000001
  | s => 8607496320000
  | m => 143458272000
  | h => 2390971200
  | d => 99623800

def InRange (value : String) : Prop := ∃ digits unit, Reads value digits unit ∧ (∃ c ∈ digits, c ≠ '0') ∧
  decimal digits ≤ unit.limit

theorem isLifetime_mul {n : ℕ} {unit : DurationUnit} :
    IsLifetime (n * unit.multiplier) ↔ 0 < n ∧ n ≤ unit.limit := by
  rw [isLifetime_iff]
  cases unit <;> simp only [DurationUnit.multiplier, DurationUnit.limit] <;> omega

theorem inRange_iff {value : String} : InRange value ↔ ∃ d, parseDurationToMs value = .ok d ∧ IsLifetime d := by
  constructor
  · rintro ⟨digits, unit, hreads, hdigit, hle⟩
    exact ⟨_, parseDurationToMs_eq_ok.mpr ⟨digits, unit, hreads, rfl⟩,
      isLifetime_mul.mpr ⟨(decimal_pos_iff hreads.digits).mpr hdigit, hle⟩⟩
  · rintro ⟨d, hparse, hlife⟩
    obtain ⟨digits, unit, hreads, rfl⟩ := parseDurationToMs_eq_ok.mp hparse
    obtain ⟨hpos, hle⟩ := isLifetime_mul.mp hlife
    exact ⟨digits, unit, hreads, (decimal_pos_iff hreads.digits).mp hpos, hle⟩

end Range

section Rows

def insertedOtp : ApiCall → Option (OtpTable × Otp)
  | ⟨.insertOtp table _, .ok otp⟩ => some (table, otp)
  | _ => none

def timesRead (pid : ℕ) (l : List OtpEvent) : List ℕ := (calls pid l).filterMap fun
  | ⟨.dateNow, .ok now⟩ => some now
  | _ => none

/-- The row is inserted within the lifetime of the code, counted from the time that `issue` has read. -/
def InsertedInTime (env : Env) (e : OtpEvent) (l : List OtpEvent) : Prop :=
  ∀ inserted ∈ insertedOtp e.call, ∀ now ∈ timesRead e.pid l, e.before.dbNow < now + env.otpExpiresIn inserted.1

def UsableRow (e : OtpEvent) (l : List OtpEvent) : Prop :=
  ∀ inserted ∈ insertedOtp e.call, inserted.2.createdAt < inserted.2.expiresAt ∧
    ∀ now ∈ timesRead e.pid l, (now : ℤ) < YEAR_3000 → IsTimeValue inserted.2.expiresAt

instance (env : Env) (e : OtpEvent) (l : List OtpEvent) : Decidable (InsertedInTime env e l) :=
  inferInstanceAs (Decidable (∀ inserted ∈ insertedOtp e.call, ∀ now ∈ timesRead e.pid l,
    e.before.dbNow < now + env.otpExpiresIn inserted.1))

variable {env : Env} {db : Database} {p : OtpPool} {l₁ l₂ : List OtpEvent} {e : OtpEvent}

theorem inserted_row (hp : (otpCalls env).Reachable (.start db) p) (htrace : p.world.trace = l₁ ++ e :: l₂)
    {table : OtpTable} {payload : NewOtp} {otp : Otp} (hcall : e.call = done (.insertOtp table payload) otp) :
    otp.createdAt = e.before.dbNow ∧ ∃ now, otp.expiresAt = now + env.otpExpiresIn table ∧
      timesRead e.pid l₂ = [now] := by
  have hstep : OtpStep env e.req e.call (calls e.pid l₂) := (htrace ▸ otpSteps hp).at
  obtain ⟨ω, t, hexec⟩ := otpExec hp (mem_of_split htrace e List.mem_cons_self) hcall
  obtain ⟨rfl, -⟩ := inserted_eq (exec_effect hexec)
  rw [hcall] at hstep
  obtain ⟨userId, requestSource, code, now, n, -, -, hexpires, hpast⟩ := hstep
  exact ⟨rfl, now, hexpires, by rw [timesRead, hpast]; rfl⟩

theorem insertedOtp_eq_some {c : ApiCall} {table : OtpTable} {otp : Otp} (h : insertedOtp c = some (table, otp)) :
    ∃ payload, c = done (.insertOtp table payload) otp := by
  unfold insertedOtp at h
  split at h
  · cases h
    exact ⟨_, rfl⟩
  · cases h

theorem usableRow_iff (hp : (otpCalls env).Reachable (.start db) p) (htrace : p.world.trace = l₁ ++ e :: l₂)
    (hlife : ∀ table, IsLifetime (env.otpExpiresIn table)) : UsableRow e l₂ ↔ InsertedInTime env e l₂ := by
  unfold UsableRow InsertedInTime
  refine forall₂_congr fun inserted hinserted => ?_
  obtain ⟨payload, hcall⟩ := insertedOtp_eq_some hinserted
  obtain ⟨hcreated, now, hexpires, htimes⟩ := inserted_row hp htrace hcall
  rw [htimes, hcreated, hexpires]
  simp only [List.forall_mem_singleton]
  refine ⟨And.left, fun hlt => ⟨hlt, fun hnow => ?_⟩⟩
  have hvalid := (hlife inserted.1).valid now
    ⟨by rw [MAX_TIME]; omega, by rw [YEAR_3000] at hnow; rw [MAX_TIME]; omega⟩ hnow
  exact_mod_cast hvalid

end Rows

structure UsableDurations (settings : DurationSettings) (l : List OtpEvent) : Prop where
  lifetimes : ∀ value ∈ settings.values, ∃ d, parseDurationToMs value = .ok d ∧ IsLifetime d
  otps : Justified UsableRow l
  cookies : ∀ cookieEnv accessToken refreshToken, ∃ access refresh cookies,
    parseDurationToMs settings.JWT_ACCESS_EXPIRES_IN = .ok access ∧
    parseDurationToMs settings.JWT_REFRESH_EXPIRES_IN = .ok refresh ∧
    setAuthCookies cookieEnv settings accessToken refreshToken = .ok cookies ∧
    cookies.map (fun cookie => (cookie.name, cookie.value, cookie.options.maxAge)) =
      [(Cookies.ACCESS_TOKEN_COOKIE, accessToken, some access), (Cookies.REFRESH_TOKEN_COOKIE, refreshToken, some refresh)]

variable {settings : DurationSettings}

theorem cookies_of_lifetimes (h : ∀ value ∈ settings.values, ∃ d, parseDurationToMs value = .ok d ∧ IsLifetime d)
    (cookieEnv : CookieEnv) (accessToken refreshToken : String) : ∃ access refresh cookies,
      parseDurationToMs settings.JWT_ACCESS_EXPIRES_IN = .ok access ∧
      parseDurationToMs settings.JWT_REFRESH_EXPIRES_IN = .ok refresh ∧
      setAuthCookies cookieEnv settings accessToken refreshToken = .ok cookies ∧
      cookies.map (fun cookie => (cookie.name, cookie.value, cookie.options.maxAge)) =
        [(Cookies.ACCESS_TOKEN_COOKIE, accessToken, some access),
          (Cookies.REFRESH_TOKEN_COOKIE, refreshToken, some refresh)] := by
  obtain ⟨access, haccess, hpos⟩ := h settings.JWT_ACCESS_EXPIRES_IN (by simp [DurationSettings.values])
  obtain ⟨refresh, hrefresh, hpos'⟩ := h settings.JWT_REFRESH_EXPIRES_IN (by simp [DurationSettings.values])
  refine ⟨access, refresh, _, haccess, hrefresh, by rw [setAuthCookies, haccess, hrefresh]; rfl, ?_⟩
  simp [buildAuthCookieOptions, hpos.pos, hpos'.pos]

theorem otpExpiresIn_isLifetime {env : Env} (henv : env.HasDurations settings)
    (h : ∀ value ∈ settings.values, ∃ d, parseDurationToMs value = .ok d ∧ IsLifetime d) (table : OtpTable) :
    IsLifetime (env.otpExpiresIn table) := by
  cases table with
  | verification_otps =>
    obtain ⟨d, hparse, hlife⟩ := h settings.VERIFICATION_OTP_EXPIRES_IN (by simp [DurationSettings.values])
    obtain rfl := Except.ok.inj (henv.verification.symm.trans hparse)
    exact hlife
  | password_reset_otps =>
    obtain ⟨d, hparse, hlife⟩ := h settings.PASSWORD_RESET_OTP_EXPIRES_IN (by simp [DurationSettings.values])
    obtain rfl := Except.ok.inj (henv.passwordReset.symm.trans hparse)
    exact hlife

theorem admitted_durations_usable_iff (durations : AdmittedDurations) {env : Env}
    (henv : env.HasDurations durations.toDurationSettings) {db : Database} {p : OtpPool}
    (hp : (otpCalls env).Reachable (.start db) p) :
    UsableDurations durations.toDurationSettings p.world.trace ↔
      (∀ value ∈ durations.values, InRange value) ∧ Justified (InsertedInTime env) p.world.trace := by
  have hrows (h : ∀ value ∈ durations.values, ∃ d, parseDurationToMs value = .ok d ∧ IsLifetime d) :
      Justified UsableRow p.world.trace ↔ Justified (InsertedInTime env) p.world.trace := by
    have hiff : ∀ l₁ e l₂, p.world.trace = l₁ ++ e :: l₂ → (UsableRow e l₂ ↔ InsertedInTime env e l₂) :=
      fun l₁ e l₂ htrace => usableRow_iff hp htrace (otpExpiresIn_isLifetime henv h)
    constructor
    · exact fun hrow => justified_of_split fun l₁ e l₂ htrace => (hiff l₁ e l₂ htrace).mp (htrace ▸ hrow).at
    · exact fun htime => justified_of_split fun l₁ e l₂ htrace => (hiff l₁ e l₂ htrace).mpr (htrace ▸ htime).at
  constructor
  · exact fun h => ⟨fun value hvalue => inRange_iff.mpr (h.lifetimes value hvalue), (hrows h.lifetimes).mp h.otps⟩
  · rintro ⟨hrange, htime⟩
    have hlifetimes := fun value hvalue => inRange_iff.mp (hrange value hvalue)
    exact ⟨hlifetimes, (hrows hlifetimes).mpr htime, cookies_of_lifetimes hlifetimes⟩

section Runs

def defaultDurations : AdmittedDurations where
  JWT_ACCESS_EXPIRES_IN := "15m"
  JWT_REFRESH_EXPIRES_IN := "7d"
  VERIFICATION_OTP_EXPIRES_IN := "15m"
  PASSWORD_RESET_OTP_EXPIRES_IN := "15m"
  raw := {}
  admitted := by decide +kernel

/-- 80 milliseconds go by while the code is hashed. -/
def hashedSlowlyRun : Option OtpPool :=
  (otpCalls sampleEnv).play (.start (sampleDatabase [sampleUser]))
    [.spawn (.issue .password_reset_otps 1 .initial), .run 0 {}, .run 0 { number := 111111 }, .run 0 {},
      .env ⟨80, 80⟩, .run 0 {}, .run 0 {}]

theorem hashedSlowlyRun_isSome : hashedSlowlyRun.isSome = true := rfl

theorem usable_in_hashedSlowlyRun :
    UsableDurations defaultDurations.toDurationSettings (hashedSlowlyRun.get hashedSlowlyRun_isSome).world.trace := by
  have hp := System.reachable_of_play (Option.some_get hashedSlowlyRun_isSome).symm
  have henv : sampleEnv.HasDurations defaultDurations.toDurationSettings :=
    ⟨by decide +kernel, by decide +kernel, by decide +kernel, by decide +kernel⟩
  refine (admitted_durations_usable_iff defaultDurations henv hp).mpr ⟨?_, by decide +kernel⟩
  have hlife {value : String} {d : ℕ} (h : parseDurationToMs value = .ok d) (hpos : 0 < d)
      (hle : d ≤ 8607496320000001) : InRange value := inRange_iff.mpr ⟨d, h, isLifetime_iff.mpr ⟨hpos, hle⟩⟩
  intro value hvalue
  simp only [DurationSettings.values, List.mem_cons, List.not_mem_nil, or_false] at hvalue
  rcases hvalue with rfl | rfl | rfl | rfl
  · exact hlife henv.access (by decide) (by decide)
  · exact hlife henv.refresh (by decide) (by decide)
  · exact hlife henv.verification (by decide) (by decide)
  · exact hlife henv.passwordReset (by decide) (by decide)

theorem zero_minutes_admitted : ¬ ∀ (durations : AdmittedDurations) (env : Env) (db : Database) (p : OtpPool),
    env.HasDurations durations.toDurationSettings → (otpCalls env).Reachable (.start db) p →
    UsableDurations durations.toDurationSettings p.world.trace := by
  intro h
  have husable := h
    { JWT_ACCESS_EXPIRES_IN := "0m", JWT_REFRESH_EXPIRES_IN := "7d", VERIFICATION_OTP_EXPIRES_IN := "15m"
      PASSWORD_RESET_OTP_EXPIRES_IN := "15m", raw := { JWT_ACCESS_EXPIRES_IN := some "0m" }
      admitted := by decide +kernel }
    { sampleEnv with JWT_ACCESS_EXPIRES_IN := 0 } (sampleDatabase []) _
    ⟨by decide +kernel, by decide +kernel, by decide +kernel, by decide +kernel⟩ .refl
  obtain ⟨d, hparse, hlife⟩ := husable.lifetimes "0m" List.mem_cons_self
  have hzero : parseDurationToMs "0m" = .ok 0 := by decide +kernel
  obtain rfl := Except.ok.inj (hzero.symm.trans hparse)
  exact Nat.lt_irrefl 0 hlife.pos

end Runs

end SkillBridge
