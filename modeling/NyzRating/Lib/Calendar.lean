import Mathlib.Tactic.Common

/-!
# Dates and times

A time is an integer, the microseconds since 1970-01-01T00:00:00Z, and a date is an integer, the days since
1970-01-01, both in the proleptic Gregorian calendar.
-/

namespace Calendar

/-- Microseconds in a day. -/
def dayMicros : Int := 86400000000

/-- The calendar date of a time. -/
def dateOf (t : Int) : Int := t / dayMicros

/-- The first instant of a date. -/
def midnight (d : Int) : Int := d * dayMicros

/-- `n` days, as a length of time. -/
def days (n : Int) : Int := n * dayMicros

@[simp] theorem dateOf_midnight (d : Int) : dateOf (midnight d) = d := by
  unfold dateOf midnight dayMicros
  omega

theorem midnight_le_iff {d : Int} {t : Int} : midnight d ≤ t ↔ d ≤ dateOf t := by
  unfold midnight dateOf dayMicros
  omega

/-! ### Year, month and day -/

/-- Year, month and day of a date. -/
structure Civil where
  year : Int
  month : Int
  day : Int
  deriving DecidableEq, Repr

/-- The date of a year, month and day. Years are counted from March, so that the leap day comes last. -/
def ofCivil (year month day : Int) : Int :=
  let y := if month ≤ 2 then year - 1 else year
  let era := y / 400
  let yearOfEra := y % 400
  let dayOfYear := (153 * ((month + 9) % 12) + 2) / 5 + day - 1
  let dayOfEra := yearOfEra * 365 + yearOfEra / 4 - yearOfEra / 100 + dayOfYear
  era * 146097 + dayOfEra - 719468

/-- The year, month and day of a date. -/
def civil (d : Int) : Civil :=
  let z := d + 719468
  let era := z / 146097
  let dayOfEra := z % 146097
  let yearOfEra := (dayOfEra - dayOfEra / 1460 + dayOfEra / 36524 - dayOfEra / 146096) / 365
  let dayOfYear := dayOfEra - (365 * yearOfEra + yearOfEra / 4 - yearOfEra / 100)
  let monthFromMarch := (5 * dayOfYear + 2) / 153
  let month := if monthFromMarch < 10 then monthFromMarch + 3 else monthFromMarch - 9
  let year := yearOfEra + era * 400
  { year := if month ≤ 2 then year + 1 else year
    month := month
    day := dayOfYear - (153 * monthFromMarch + 2) / 5 + 1 }

example : civil (ofCivil 2024 2 29) = ⟨2024, 2, 29⟩ := by decide

/-- Number of days of a month. -/
def daysInMonth (year month : Int) : Int :=
  if month = 12 then 31 else ofCivil year (month + 1) 1 - ofCivil year month 1

/-- Monday is 0 and Sunday is 6. -/
def weekday (d : Int) : Int := (d + 3) % 7

end Calendar
