import Mathlib.Data.List.Induction
import Mathlib.Data.List.TakeWhile
import Mathlib.Tactic.Common
import SkillBridge.Shared.Errors

set_option autoImplicit false

/-! `src/config/duration.ts`, in exact integer arithmetic, and the settings of `env.ts` that are durations. -/

namespace SkillBridge

inductive DurationUnit
  | ms
  | s
  | m
  | h
  | d
  deriving DecidableEq

namespace DurationUnit

def all : List DurationUnit := [ms, s, m, h, d]

def text : DurationUnit → String
  | ms => "ms"
  | s => "s"
  | m => "m"
  | h => "h"
  | d => "d"

def multiplier : DurationUnit → ℕ
  | ms => 1
  | s => 1000
  | m => 60 * 1000
  | h => 60 * 60 * 1000
  | d => 24 * 60 * 60 * 1000

end DurationUnit

def isDecimalDigit (c : Char) : Bool := 48 ≤ c.toNat && c.toNat ≤ 57

def decimal (digits : List Char) : ℕ := digits.foldl (fun n c => 10 * n + (c.toNat - 48)) 0

/-- `DURATION_PATTERN.exec`, with the two groups. -/
def execDurationPattern (text : List Char) : Option (List Char × DurationUnit) :=
  let digits := text.takeWhile isDecimalDigit
  if digits = [] then none
  else (DurationUnit.all.find? fun unit => unit.text.toList = text.dropWhile isDecimalDigit).map fun unit => (digits, unit)

def parseDurationToMs (duration : String) : Except Failure ℕ :=
  match execDurationPattern (trim duration).toList with
  | none => .error (.error s!"Invalid duration \"{duration}\". Use a value like 15m, 7d, 30s, or 1000ms.")
  | some (amount, unit) => .ok (decimal amount * unit.multiplier)

/-- `durationString(defaultValue)`; an empty variable counts as missing. -/
def durationString (defaultValue : String) (value : Option String) : Except Failure String :=
  let value := (value.filter fun value => value ≠ "").getD defaultValue
  match parseDurationToMs value with
  | .ok _ => .ok value
  | .error e => .error e

structure RawDurations where
  JWT_ACCESS_EXPIRES_IN : Option String := none
  JWT_REFRESH_EXPIRES_IN : Option String := none
  VERIFICATION_OTP_EXPIRES_IN : Option String := none
  PASSWORD_RESET_OTP_EXPIRES_IN : Option String := none

structure DurationSettings where
  JWT_ACCESS_EXPIRES_IN : String
  JWT_REFRESH_EXPIRES_IN : String
  VERIFICATION_OTP_EXPIRES_IN : String
  PASSWORD_RESET_OTP_EXPIRES_IN : String
  deriving DecidableEq

def DurationSettings.values (settings : DurationSettings) : List String :=
  [settings.JWT_ACCESS_EXPIRES_IN, settings.JWT_REFRESH_EXPIRES_IN, settings.VERIFICATION_OTP_EXPIRES_IN,
    settings.PASSWORD_RESET_OTP_EXPIRES_IN]

def RawDurations.admit (raw : RawDurations) : Except Failure DurationSettings := do
  let JWT_ACCESS_EXPIRES_IN ← durationString "15m" raw.JWT_ACCESS_EXPIRES_IN
  let JWT_REFRESH_EXPIRES_IN ← durationString "7d" raw.JWT_REFRESH_EXPIRES_IN
  let VERIFICATION_OTP_EXPIRES_IN ← durationString "15m" raw.VERIFICATION_OTP_EXPIRES_IN
  let PASSWORD_RESET_OTP_EXPIRES_IN ← durationString "15m" raw.PASSWORD_RESET_OTP_EXPIRES_IN
  pure { JWT_ACCESS_EXPIRES_IN, JWT_REFRESH_EXPIRES_IN, VERIFICATION_OTP_EXPIRES_IN, PASSWORD_RESET_OTP_EXPIRES_IN }

structure AdmittedDurations extends DurationSettings where
  raw : RawDurations
  admitted : raw.admit = .ok toDurationSettings

structure Reads (value : String) (digits : List Char) (unit : DurationUnit) : Prop where
  text : (trim value).toList = digits ++ unit.text.toList
  digits_ne_nil : digits ≠ []
  digits : ∀ c ∈ digits, isDecimalDigit c = true

theorem takeWhile_unit (unit : DurationUnit) : unit.text.toList.takeWhile isDecimalDigit = [] := by
  cases unit <;> decide

theorem dropWhile_unit (unit : DurationUnit) : unit.text.toList.dropWhile isDecimalDigit = unit.text.toList := by
  cases unit <;> decide

theorem find_unit (unit : DurationUnit) :
    (DurationUnit.all.find? fun other => other.text.toList = unit.text.toList) = some unit := by
  cases unit <;> decide

theorem execDurationPattern_eq_some {value : String} {digits : List Char} {unit : DurationUnit} :
    execDurationPattern (trim value).toList = some (digits, unit) ↔ Reads value digits unit := by
  unfold execDurationPattern
  constructor
  · intro h
    dsimp only at h
    split_ifs at h with hnil
    obtain ⟨other, hfind, heq⟩ := Option.map_eq_some_iff.mp h
    obtain ⟨rfl, rfl⟩ := Prod.mk.inj heq
    have hunit : other.text.toList = (trim value).toList.dropWhile isDecimalDigit := by
      simpa using List.find?_some hfind
    exact ⟨by rw [hunit, List.takeWhile_append_dropWhile], hnil, fun c hc => List.mem_takeWhile_imp hc⟩
  · rintro ⟨htext, hnil, hdigits⟩
    have htake : (trim value).toList.takeWhile isDecimalDigit = digits := by
      rw [htext, List.takeWhile_append_of_pos hdigits, takeWhile_unit, List.append_nil]
    have hdrop : (trim value).toList.dropWhile isDecimalDigit = unit.text.toList := by
      rw [htext, List.dropWhile_append_of_pos hdigits, dropWhile_unit]
    simp only [htake, hdrop, hnil, ↓reduceIte, find_unit, Option.map_some]

theorem parseDurationToMs_eq_ok {value : String} {d : ℕ} : parseDurationToMs value = .ok d ↔
    ∃ digits unit, Reads value digits unit ∧ d = decimal digits * unit.multiplier := by
  simp only [← execDurationPattern_eq_some, parseDurationToMs]
  cases execDurationPattern (trim value).toList with
  | none => simp
  | some entry =>
    constructor
    · exact fun h => ⟨entry.1, entry.2, rfl, (Except.ok.inj h).symm⟩
    · rintro ⟨digits, unit, h, rfl⟩
      cases h
      rfl

theorem decimal_concat (digits : List Char) (c : Char) : decimal (digits ++ [c]) = 10 * decimal digits + (c.toNat - 48) := by
  rw [decimal, List.foldl_append]
  rfl

theorem decimal_pos_iff {digits : List Char} (h : ∀ c ∈ digits, isDecimalDigit c = true) :
    0 < decimal digits ↔ ∃ c ∈ digits, c ≠ '0' := by
  induction digits using List.reverseRecOn with
  | nil => simp [decimal]
  | append_singleton digits c ih =>
    have hc := h c (by simp)
    simp only [isDecimalDigit, Bool.and_eq_true, decide_eq_true_eq] at hc
    have hzero : c ≠ '0' ↔ 48 < c.toNat := by
      constructor
      · intro hne
        refine Nat.lt_of_le_of_ne hc.1 fun heq => hne ?_
        exact (Char.ofNat_toNat c).symm.trans (congrArg Char.ofNat heq.symm)
      · rintro hlt rfl
        exact absurd hlt (by decide)
    have hih := ih fun c hmem => h c (List.mem_append_left _ hmem)
    rw [decimal_concat]
    simp only [List.mem_append, List.mem_singleton, or_and_right, exists_or, exists_eq_left, hzero, ← hih]
    omega

end SkillBridge
