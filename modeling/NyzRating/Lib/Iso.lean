import Mathlib.Order.Lattice
import NyzRating.Lib.Decimal
import NyzRating.Lib.Months

/-!
# Times as ISO 8601 text

A `datetime` to the microsecond, in the years from 1 to 9999, as `isoformat` writes and `fromisoformat` reads it.
-/

namespace Iso

open Calendar Decimal

/-- A time that a `datetime` holds. -/
structure Timestamp where
  micros : Int
  first : 1 ≤ (civil (dateOf micros)).year
  last : (civil (dateOf micros)).year ≤ 9999

@[ext] theorem Timestamp.ext {s t : Timestamp} (h : s.micros = t.micros) : s = t := by
  cases s
  cases t
  cases h
  rfl

instance : LinearOrder Timestamp := LinearOrder.lift' Timestamp.micros fun _ _ => Timestamp.ext

/-- The microseconds since midnight. -/
def timeOfDay (t : Int) : Nat := (t % dayMicros).toNat

/-- The date and time, without a time zone. -/
def isoformat (t : Timestamp) : List Char :=
  let c := civil (dateOf t.micros)
  let time := timeOfDay t.micros
  pad 4 c.year.toNat ++ '-' :: (pad 2 c.month.toNat ++ '-' :: (pad 2 c.day.toNat ++ 'T' ::
    (pad 2 (time / 3600000000) ++ ':' :: (pad 2 (time / 60000000 % 60) ++ ':' :: (pad 2 (time / 1000000 % 60) ++
      if time % 1000000 = 0 then [] else '.' :: pad 6 (time % 1000000))))))

/-- The same of a time in UTC. -/
def isoformatUtc (t : Timestamp) : List Char := isoformat t ++ "+00:00".toList

def readDate (s : List Char) : Option (Int × List Char) := do
  let (year, s) ← readField 4 s
  let s ← expect '-' s
  let (month, s) ← readField 2 s
  let s ← expect '-' s
  let (day, s) ← readField 2 s
  if 1 ≤ year ∧ 1 ≤ month ∧ month ≤ 12 ∧ 1 ≤ day ∧ (day : Int) ≤ daysInMonth year month then
    return (ofCivil year month day, s)
  else none

/-- The microseconds after a dot, if there is one. -/
def readFraction (s : List Char) : Option (Nat × List Char) :=
  match s with
  | '.' :: s => readField 6 s
  | s => some (0, s)

def readTime (s : List Char) : Option (Int × List Char) := do
  let (hour, s) ← readField 2 s
  let s ← expect ':' s
  let (minute, s) ← readField 2 s
  let s ← expect ':' s
  let (second, s) ← readField 2 s
  let (micro, s) ← readFraction s
  if hour < 24 ∧ minute < 60 ∧ second < 60 then
    return (hour * 3600000000 + minute * 60000000 + second * 1000000 + micro, s)
  else none

/-- Hours and minutes from UTC. -/
def readOffset (s : List Char) : Option Int := do
  let (hours, s) ← readField 2 s
  let s ← expect ':' s
  let (minutes, s) ← readField 2 s
  if hours < 24 ∧ minutes < 60 ∧ s = [] then return hours * 3600000000 + minutes * 60000000 else none

/-- The time as it is written and, where one is given, its distance from UTC. -/
def fromisoformat (s : List Char) : Option (Int × Option Int) := do
  let (date, s) ← readDate s
  match s with
  | [] => return (midnight date, none)
  | _ :: s =>
    let (time, s) ← readTime s
    match s with
    | [] => return (midnight date + time, none)
    | '+' :: s => return (midnight date + time, some (← readOffset s))
    | '-' :: s => return (midnight date + time, some (-(← readOffset s)))
    | _ => none

example : fromisoformat "2024-02-29T12:00:00.000001+01:00".toList =
    some (midnight (ofCivil 2024 2 29) + 43200000001, some 3600000000) := by decide

theorem readDate_append (t : Timestamp) (rest : List Char) :
    readDate (pad 4 (civil (dateOf t.micros)).year.toNat ++ '-' :: (pad 2 (civil (dateOf t.micros)).month.toNat ++
      '-' :: (pad 2 (civil (dateOf t.micros)).day.toNat ++ rest))) = some (dateOf t.micros, rest) := by
  obtain ⟨micros, firstYear, lastYear⟩ := t
  obtain ⟨firstMonth, lastMonth, firstDay, date, -⟩ := civil_inMonth (dateOf micros)
  have lastDay := (dayOf_range (dateOf micros)).2
  have short := daysIn_le (monthOf (dateOf micros))
  unfold dayOf monthOf at lastDay
  unfold monthOf at short
  dsimp only
  generalize civil (dateOf micros) = c at *
  rw [← daysInMonth_eq c.year firstMonth lastMonth] at lastDay short
  rw [← ofCivil_eq c.day firstMonth lastMonth] at date
  have year : (c.year.toNat : Int) = c.year := Int.toNat_of_nonneg (by omega)
  have month : (c.month.toNat : Int) = c.month := Int.toNat_of_nonneg (by omega)
  have day : (c.day.toNat : Int) = c.day := Int.toNat_of_nonneg (by omega)
  unfold readDate
  simp only [readField_pad 4 (n := c.year.toNat) (by omega), readField_pad 2 (n := c.month.toNat) (by omega),
    readField_pad 2 (n := c.day.toNat) (by omega), expect_cons, Option.bind_eq_bind, Option.bind_some, year, month, day]
  rw [if_pos ⟨by omega, by omega, by omega, by omega, by omega⟩, ← date]
  rfl

theorem readTime_append (time : Nat) (inDay : time < 86400000000) {rest : List Char} (zone : ∀ s, rest ≠ '.' :: s) :
    readTime (pad 2 (time / 3600000000) ++ ':' :: (pad 2 (time / 60000000 % 60) ++ ':' :: (pad 2 (time / 1000000 % 60) ++
      ((if time % 1000000 = 0 then [] else '.' :: pad 6 (time % 1000000)) ++ rest)))) = some ((time : Int), rest) := by
  have fraction : readFraction ((if time % 1000000 = 0 then [] else '.' :: pad 6 (time % 1000000)) ++ rest) =
      some (time % 1000000, rest) := by
    split
    · next whole =>
      rw [whole, List.nil_append]
      unfold readFraction
      split
      · exact absurd rfl (zone _)
      · rfl
    · rw [List.cons_append, readFraction, readField_pad 6 (by omega)]
  unfold readTime
  simp only [readField_pad 2 (n := time / 3600000000) (by omega), readField_pad 2 (n := time / 60000000 % 60) (by omega),
    readField_pad 2 (n := time / 1000000 % 60) (by omega), expect_cons, fraction, Option.bind_eq_bind, Option.bind_some]
  rw [if_pos ⟨by omega, by omega, by omega⟩]
  refine congrArg some (Prod.ext ?_ rfl)
  dsimp only
  omega

/-- What is written of a time in UTC is read again. -/
theorem fromisoformat_isoformatUtc (t : Timestamp) : fromisoformat (isoformatUtc t) = some (t.micros, some 0) := by
  have inDay : timeOfDay t.micros < 86400000000 := by
    unfold timeOfDay dayMicros
    omega
  have zone : ∀ s, "+00:00".toList ≠ '.' :: s := by
    intro s same
    cases same
  have whole : midnight (dateOf t.micros) + (timeOfDay t.micros : Int) = t.micros := by
    unfold midnight dateOf timeOfDay dayMicros
    omega
  unfold fromisoformat isoformatUtc isoformat
  simp only [List.append_assoc, List.cons_append, readDate_append, readTime_append _ inDay zone, Option.bind_eq_bind,
    Option.bind_some]
  rw [whole]
  rfl

end Iso
