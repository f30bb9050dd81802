import Mathlib.Data.Int.Notation
import Mathlib.Tactic.Common
import Mathlib.Tactic.Ring
import SkillBridge.Shared.JsStrings

set_option autoImplicit false

/-! `Date` of JavaScript: milliseconds since the beginning of 1970, and how `toISOString` writes them. -/

namespace SkillBridge

/-- Dates are 100 000 000 days at most before or after the beginning of 1970. -/
def MAX_TIME : ℤ := 8640000000000000

def IsTimeValue (t : ℤ) : Prop := -MAX_TIME ≤ t ∧ t ≤ MAX_TIME

instance (t : ℤ) : Decidable (IsTimeValue t) := inferInstanceAs (Decidable (_ ∧ _))

abbrev TimeValue : Type := { t : ℤ // IsTimeValue t }

def timeClip (t : ℤ) : Option TimeValue := if h : IsTimeValue t then some ⟨t, h⟩ else none

@[simp] theorem timeClip_timeValue (t : TimeValue) : timeClip t.1 = some t := dif_pos t.2

structure CivilDate where
  year : ℤ
  month : ℤ
  day : ℤ

structure MarchDate where
  year : ℤ
  dayOfYear : ℤ

def marchOfDays (days : ℤ) : MarchDate :=
  let era := (days + 719468) / 146097
  let dayOfEra := (days + 719468) % 146097
  let century := min 3 (dayOfEra / 36524)
  let dayOfCentury := dayOfEra - 36524 * century
  let leapCycle := dayOfCentury / 1461
  let dayOfCycle := dayOfCentury % 1461
  let yearOfCycle := min 3 (dayOfCycle / 365)
  { year := 400 * era + 100 * century + 4 * leapCycle + yearOfCycle
    dayOfYear := dayOfCycle - 365 * yearOfCycle }

def civilOfMarch (date : MarchDate) : CivilDate :=
  let month := (5 * date.dayOfYear + 2) / 153
  { year := if month < 10 then date.year else date.year + 1
    month := if month < 10 then month + 3 else month - 9
    day := date.dayOfYear - (153 * month + 2) / 5 + 1 }

def civilOfDays (days : ℤ) : CivilDate := civilOfMarch (marchOfDays days)

def daysOfCivil (date : CivilDate) : ℤ :=
  let year := if date.month ≤ 2 then date.year - 1 else date.year
  let month := if date.month ≤ 2 then date.month + 9 else date.month - 3
  365 * year + year / 4 - year / 100 + year / 400 + (153 * month + 2) / 5 + date.day - 1 - 719468

theorem dayOfYear_bounds (days : ℤ) : 0 ≤ (marchOfDays days).dayOfYear ∧ (marchOfDays days).dayOfYear ≤ 365 := by
  simp only [marchOfDays]
  omega

theorem marchOfDays_days (days : ℤ) : 365 * (marchOfDays days).year + (marchOfDays days).year / 4 -
    (marchOfDays days).year / 100 + (marchOfDays days).year / 400 + (marchOfDays days).dayOfYear = days + 719468 := by
  simp only [marchOfDays]
  generalize hera : (days + 719468) / 146097 = era
  generalize hcentury : min 3 ((days + 719468) % 146097 / 36524) = century
  generalize hcycle : ((days + 719468) % 146097 - 36524 * century) / 1461 = leapCycle
  generalize hyear : min 3 (((days + 719468) % 146097 - 36524 * century) % 1461 / 365) = yearOfCycle
  have hc : 0 ≤ century ∧ century ≤ 3 := by omega
  have hl : 0 ≤ leapCycle ∧ leapCycle ≤ 24 := by omega
  have hy : 0 ≤ yearOfCycle ∧ yearOfCycle ≤ 3 := by omega
  have h4 : (400 * era + 100 * century + 4 * leapCycle + yearOfCycle) / 4 = 100 * era + 25 * century + leapCycle := by
    omega
  have h100 : (400 * era + 100 * century + 4 * leapCycle + yearOfCycle) / 100 = 4 * era + century := by omega
  have h400 : (400 * era + 100 * century + 4 * leapCycle + yearOfCycle) / 400 = era := by omega
  rw [h4, h100, h400]
  omega

theorem civil_bounds (days : ℤ) : 1 ≤ (civilOfDays days).month ∧ (civilOfDays days).month ≤ 12 ∧
    1 ≤ (civilOfDays days).day ∧ (civilOfDays days).day ≤ 31 := by
  have := dayOfYear_bounds days
  simp only [civilOfDays, civilOfMarch]
  omega

theorem daysOfCivil_civilOfDays (days : ℤ) : daysOfCivil (civilOfDays days) = days := by
  have hbounds := dayOfYear_bounds days
  have hdays := marchOfDays_days days
  simp only [civilOfDays, civilOfMarch, daysOfCivil]
  by_cases hmonth : (5 * (marchOfDays days).dayOfYear + 2) / 153 < 10
  · have hspring : ¬ (5 * (marchOfDays days).dayOfYear + 2) / 153 + 3 ≤ 2 := by omega
    simp only [hmonth, hspring, ↓reduceIte]
    omega
  · have hwinter : (5 * (marchOfDays days).dayOfYear + 2) / 153 - 9 ≤ 2 := by omega
    simp only [hmonth, hwinter, ↓reduceIte, Int.add_sub_cancel]
    omega

section Digits

def digitsOf : (width n : ℕ) → JsString
  | 0, _ => []
  | width + 1, n => digitsOf width (n / 10) ++ [.ofNat (48 + n % 10)]

def numberOf (digits : JsString) : ℕ := digits.foldl (fun n u => 10 * n + (u.toNat - 48)) 0

theorem numberOf_concat (digits : JsString) (u : UInt16) :
    numberOf (digits ++ [u]) = 10 * numberOf digits + (u.toNat - 48) := by
  rw [numberOf, List.foldl_append]
  rfl

theorem length_digitsOf (width n : ℕ) : (digitsOf width n).length = width := by
  induction width generalizing n with
  | zero => rfl
  | succ width ih => rw [digitsOf, List.length_append, ih, List.length_singleton]

theorem numberOf_digitsOf (width n : ℕ) : numberOf (digitsOf width n) = n % 10 ^ width := by
  induction width generalizing n with
  | zero => simp [numberOf, digitsOf, Nat.mod_one]
  | succ width ih =>
    have hdigit : (UInt16.ofNat (48 + n % 10)).toNat = 48 + n % 10 := by
      rw [UInt16.toNat_ofNat']
      omega
    have hsplit : n % 10 ^ (width + 1) = 10 * (n / 10 % 10 ^ width) + n % 10 := by
      rw [Nat.pow_succ, Nat.mul_comm, Nat.mod_mul]
      omega
    rw [digitsOf, numberOf_concat, ih, hdigit, hsplit]
    omega

theorem numberOf_eq {width n : ℕ} (h : n < 10 ^ width) : numberOf (digitsOf width n) = n := by
  rw [numberOf_digitsOf, Nat.mod_eq_of_lt h]

end Digits

/-- Years that four digits cannot write have six and a sign. -/
def isoYear (year : ℤ) : JsString :=
  if 0 ≤ year ∧ year ≤ 9999 then digitsOf 4 year.toNat
  else (if year < 0 then 45 else 43) :: digitsOf 6 year.natAbs

def isoRest (month day ms : ℕ) : JsString :=
  45 :: digitsOf 2 month ++ 45 :: digitsOf 2 day ++ 84 :: digitsOf 2 (ms / 3600000) ++ 58 ::
    digitsOf 2 (ms / 60000 % 60) ++ 58 :: digitsOf 2 (ms / 1000 % 60) ++ 46 :: digitsOf 3 (ms % 1000) ++ [90]

def toISOString (t : TimeValue) : JsString :=
  let date := civilOfDays (t.1 / 86400000)
  isoYear date.year ++ isoRest date.month.toNat date.day.toNat (t.1 % 86400000).toNat

section Reading

def readIsoYear (text : JsString) : ℤ :=
  if text.length = 4 then numberOf text
  else if text.head? = some 45 then -numberOf text.tail
  else numberOf text.tail

def numberAt (text : JsString) (start width : ℕ) : ℕ := numberOf ((text.drop start).take width)

def readIsoTime (text : JsString) : ℤ :=
  let rest := text.drop (text.length - 20)
  let days := daysOfCivil
    { year := readIsoYear (text.take (text.length - 20)), month := numberAt rest 1 2, day := numberAt rest 4 2 }
  days * 86400000 + numberAt rest 7 2 * 3600000 + numberAt rest 10 2 * 60000 + numberAt rest 13 2 * 1000 +
    numberAt rest 16 3

theorem readIsoYear_isoYear {year : ℤ} (h : year.natAbs < 1000000) : readIsoYear (isoYear year) = year := by
  unfold isoYear
  split_ifs with hshort hneg
  · rw [readIsoYear, if_pos (length_digitsOf ..), numberOf_eq (by omega)]
    omega
  · rw [readIsoYear, if_neg (by simp [length_digitsOf]), List.head?_cons, if_pos rfl, List.tail_cons,
      numberOf_eq (by omega)]
    omega
  · rw [readIsoYear, if_neg (by simp [length_digitsOf]), List.head?_cons, if_neg (by decide), List.tail_cons,
      numberOf_eq (by omega)]
    omega

theorem year_bound {days : ℤ} (h : -100000001 ≤ days ∧ days ≤ 100000001) : (civilOfDays days).year.natAbs < 1000000 := by
  have hbounds := dayOfYear_bounds days
  have hdays := marchOfDays_days days
  simp only [civilOfDays, civilOfMarch]
  split_ifs <;> omega

theorem length_isoRest (month day ms : ℕ) : (isoRest month day ms).length = 20 := rfl

theorem readIsoTime_toISOString (t : TimeValue) : readIsoTime (toISOString t) = t.1 := by
  obtain ⟨t, hlow, hhigh⟩ := t
  rw [MAX_TIME] at hlow hhigh
  have hyear := @year_bound (t / 86400000) (by omega)
  obtain ⟨hmonth, hmonth', hday, hday'⟩ := civil_bounds (t / 86400000)
  have hcivil := daysOfCivil_civilOfDays (t / 86400000)
  generalize hdate : civilOfDays (t / 86400000) = date at hyear hmonth hmonth' hday hday' hcivil
  obtain ⟨year, month, day⟩ := date
  dsimp only at hyear hmonth hmonth' hday hday'
  generalize hms : (t % 86400000).toNat = ms
  have hlen : (isoYear year ++ isoRest month.toNat day.toNat ms).length - 20 = (isoYear year).length := by
    rw [List.length_append, length_isoRest, Nat.add_sub_cancel]
  have hm : numberAt (isoRest month.toNat day.toNat ms) 1 2 = month.toNat := @numberOf_eq 2 _ (by omega)
  have hd : numberAt (isoRest month.toNat day.toNat ms) 4 2 = day.toNat := @numberOf_eq 2 _ (by omega)
  have hhour : numberAt (isoRest month.toNat day.toNat ms) 7 2 = ms / 3600000 := @numberOf_eq 2 _ (by omega)
  have hmin : numberAt (isoRest month.toNat day.toNat ms) 10 2 = ms / 60000 % 60 :=
    @numberOf_eq 2 _ (by omega)
  have hsec : numberAt (isoRest month.toNat day.toNat ms) 13 2 = ms / 1000 % 60 :=
    @numberOf_eq 2 _ (by omega)
  have hmilli : numberAt (isoRest month.toNat day.toNat ms) 16 3 = ms % 1000 := @numberOf_eq 3 _ (by omega)
  have hfields : (⟨year, (month.toNat : ℤ), (day.toNat : ℤ)⟩ : CivilDate) = ⟨year, month, day⟩ := by
    rw [Int.toNat_of_nonneg (by omega), Int.toNat_of_nonneg (by omega)]
  simp only [toISOString, readIsoTime, hdate, hms, hlen, List.drop_left, List.take_left, hm, hd, hhour, hmin, hsec,
    hmilli, readIsoYear_isoYear hyear, hfields, hcivil]
  omega

end Reading

/-- `new Date(text)`: what it reads in other texts is up to the implementation, but it reads what `toISOString` writes. -/
structure DateParser where
  parse : JsString → Option TimeValue
  parse_toISOString : ∀ t, parse (toISOString t) = some t

def isoParser : DateParser where
  parse text := (timeClip (readIsoTime text)).filter fun t => toISOString t = text
  parse_toISOString t := by
    rw [readIsoTime_toISOString, timeClip_timeValue]
    simp [Option.filter]

example : toISOString ⟨32503680000000, by decide⟩ = utf16 "3000-01-01T00:00:00.000Z" := by decide +kernel

end SkillBridge
