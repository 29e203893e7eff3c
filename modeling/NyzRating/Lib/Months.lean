import NyzRating.Lib.Calendar

/-!
# Months in order

The months are numbered through, from March of year 0 on, so that a date lies in the month of its `civil` and a later
month starts later.
-/

namespace Calendar

/-- The first day of a month. -/
def monthStart (k : Int) : Int :=
  let y := k / 12
  y * 365 + y / 4 - y / 100 + y / 400 + (153 * (k % 12) + 2) / 5 - 719468

/-- The number of a month of a year. -/
def monthNumber (year month : Int) : Int := 12 * year + month - 3

theorem ofCivil_eq {year month : Int} (day : Int) (first : 1 ≤ month) (last : month ≤ 12) :
    ofCivil year month day = monthStart (monthNumber year month) + day - 1 := by
  have number : monthNumber year month / 12 = (if month ≤ 2 then year - 1 else year) ∧
      monthNumber year month % 12 = (month + 9) % 12 := by
    unfold monthNumber
    split
    · omega
    · omega
  unfold ofCivil monthStart
  simp only [number.1, number.2]
  generalize (if month ≤ 2 then year - 1 else year) = y
  omega

theorem monthStart_lt_succ (k : Int) : monthStart k < monthStart (k + 1) := by
  unfold monthStart
  by_cases last : k % 12 = 11
  · have next : (k + 1) / 12 = k / 12 + 1 ∧ (k + 1) % 12 = 0 := by omega
    simp only [next.1, next.2, last]
    generalize k / 12 = y
    omega
  · have next : (k + 1) / 12 = k / 12 ∧ (k + 1) % 12 = k % 12 + 1 := by omega
    simp only [next.1, next.2]
    have : (153 * (k % 12) + 2) / 5 < (153 * (k % 12 + 1) + 2) / 5 := by omega
    omega

theorem monthStart_mono {j k : Int} (le : j ≤ k) : monthStart j ≤ monthStart k := by
  obtain ⟨n, rfl⟩ := Int.le.dest le
  induction n with
  | zero => simp
  | succ n ih =>
    have next := monthStart_lt_succ (j + n)
    have grown := ih (by omega)
    rw [Int.natCast_succ, ← Int.add_assoc]
    omega

/-! ### The month of a date -/

/-- The year of a day of an era, as `civil` computes it. -/
def yearOfEra (dayOfEra : Int) : Int := (dayOfEra - dayOfEra / 1460 + dayOfEra / 36524 - dayOfEra / 146096) / 365

/-- The first day of a year of an era. -/
def yearStart (y : Int) : Int := 365 * y + y / 4 - y / 100

section
variable {n : Int} (first : 0 ≤ n) (last : n < 146097)

include first last

theorem yearOfEra_range : 0 ≤ yearOfEra n ∧ yearOfEra n < 400 := by
  unfold yearOfEra
  omega

-- The century of the day and of its year can only differ by the leap day of the era.
theorem yearStart_le : yearStart (yearOfEra n) ≤ n := by
  have range := yearOfEra_range first last
  have century : n / 36524 = 0 ∨ n / 36524 = 1 ∨ n / 36524 = 2 ∨ n / 36524 = 3 ∨ n / 36524 = 4 := by omega
  have leap : n / 146096 = 0 ∨ n / 146096 = 1 := by omega
  have year : yearOfEra n = (n - n / 1460 + n / 36524 - n / 146096) / 365 := rfl
  have quads : 0 ≤ n / 1460 := by omega
  unfold yearStart
  generalize yearOfEra n = y at *
  have centuries : n / 36524 ≤ y / 100 + n / 146096 := by
    rcases century with c | c | c | c | c <;> rcases leap with l | l <;> rw [c, l] at year ⊢ <;> omega
  generalize n / 36524 = c at *
  generalize n / 146096 = l at *
  omega

theorem lt_yearStart_succ (inside : yearOfEra n < 399) : n < yearStart (yearOfEra n + 1) := by
  have range := yearOfEra_range first last
  have century : n / 36524 = 0 ∨ n / 36524 = 1 ∨ n / 36524 = 2 ∨ n / 36524 = 3 ∨ n / 36524 = 4 := by omega
  have year : yearOfEra n = (n - n / 1460 + n / 36524 - n / 146096) / 365 := rfl
  have leap : n / 146096 = 0 := by
    unfold yearOfEra at inside
    omega
  have quads : 0 ≤ n / 1460 ∧ n / 1460 ≤ 100 := by omega
  have quad : 0 ≤ n - 1460 * (n / 1460) ∧ n - 1460 * (n / 1460) ≤ 1459 := by omega
  have inCentury : 0 ≤ n - 36524 * (n / 36524) ∧ n - 36524 * (n / 36524) ≤ 36523 := by omega
  rw [leap] at year
  unfold yearStart
  generalize yearOfEra n = y at *
  have centuries : (y + 1) / 100 = n / 36524 ∨ (y + 1) / 100 = n / 36524 + 1 ∧ (y + 1) % 100 = 0 := by
    rcases century with c | c | c | c | c <;> rw [c] at year ⊢ <;> omega
  generalize n / 36524 = c at *
  generalize n / 1460 = q at *
  rcases centuries with same | ⟨next, start⟩
  · rcases century with c | c | c | c | c <;> omega
  · omega

end

/-- A date lies in the month of its `civil`. -/
structure InMonth (d : Int) (c : Civil) : Prop where
  first : 1 ≤ c.month
  last : c.month ≤ 12
  day : 1 ≤ c.day
  date : d = monthStart (monthNumber c.year c.month) + c.day - 1
  before : d < monthStart (monthNumber c.year c.month + 1)

theorem monthNumber_of (y : Int) {m : Int} (first : 0 ≤ m) (last : m ≤ 11) :
    monthNumber (if (if m < 10 then m + 3 else m - 9) ≤ 2 then y + 1 else y) (if m < 10 then m + 3 else m - 9) = 12 * y + m := by
  unfold monthNumber
  split
  · next early =>
    rw [if_neg (by omega)]
    omega
  · split
    · omega
    · omega

theorem monthStart_era {y m : Int} (era : Int) (first : 0 ≤ m) (last : m ≤ 11) (start : 0 ≤ y) (range : y < 400) :
    monthStart (12 * (y + era * 400) + m) = era * 146097 + yearStart y + (153 * m + 2) / 5 - 719468 := by
  unfold monthStart yearStart
  have number : (12 * (y + era * 400) + m) / 12 = y + era * 400 ∧ (12 * (y + era * 400) + m) % 12 = m := by omega
  simp only [number.1, number.2]
  omega

theorem inMonth_of_era {d era n y : Int} (date : d + 719468 = era * 146097 + n) (start : 0 ≤ y) (range : y < 400)
    (since : yearStart y ≤ n) (before : y < 399 → n < yearStart (y + 1)) (last : n < 146097) :
    let dayOfYear := n - yearStart y
    let monthFromMarch := (5 * dayOfYear + 2) / 153
    let month := if monthFromMarch < 10 then monthFromMarch + 3 else monthFromMarch - 9
    InMonth d
      { year := if month ≤ 2 then y + era * 400 + 1 else y + era * 400
        month
        day := dayOfYear - (153 * monthFromMarch + 2) / 5 + 1 } := by
  have within : n - yearStart y ≤ 365 := by
    unfold yearStart at *
    omega
  have notBefore : 0 ≤ n - yearStart y := by omega
  intro dayOfYear m month
  have range' : 0 ≤ m ∧ m ≤ 11 := by omega
  have number := monthNumber_of (y + era * 400) range'.1 range'.2
  have months := monthStart_era era range'.1 range'.2 start range
  refine ⟨?_, ?_, ?_, ?_, ?_⟩
  · simp only [month]
    split <;> omega
  · simp only [month]
    split <;> omega
  · simp only
    omega
  · simp only [month, number, months]
    omega
  · simp only [month, number]
    by_cases december : m = 11
    · by_cases century : y = 399
      · have next : 12 * (y + era * 400) + m + 1 = 12 * (0 + (era + 1) * 400) + 0 := by omega
        rw [next, monthStart_era _ (by omega) (by omega) (by omega) (by omega)]
        unfold yearStart
        omega
      · have next : 12 * (y + era * 400) + m + 1 = 12 * (y + 1 + era * 400) + 0 := by omega
        rw [next, monthStart_era _ (by omega) (by omega) (by omega) (by omega)]
        have := before (by omega)
        omega
    · have next : 12 * (y + era * 400) + m + 1 = 12 * (y + era * 400) + (m + 1) := by omega
      rw [next, monthStart_era _ (by omega) (by omega) start range]
      omega

theorem civil_inMonth (d : Int) : InMonth d (civil d) := by
  have first : 0 ≤ (d + 719468) % 146097 := by omega
  have last : (d + 719468) % 146097 < 146097 := by omega
  obtain ⟨start, range⟩ := yearOfEra_range first last
  have date : d + 719468 = (d + 719468) / 146097 * 146097 + (d + 719468) % 146097 := by omega
  have inMonth := inMonth_of_era date start range (yearStart_le first last) (lt_yearStart_succ first last) last
  unfold civil
  exact inMonth

/-! ### Dates by their months -/

/-- The number of the month in which a date lies. -/
def monthOf (d : Int) : Int := monthNumber (civil d).year (civil d).month

def dayOf (d : Int) : Int := (civil d).day

/-- The number of days of a month. -/
def daysIn (k : Int) : Int := monthStart (k + 1) - monthStart k

theorem one_le_daysIn (k : Int) : 1 ≤ daysIn k := by
  have := monthStart_lt_succ k
  unfold daysIn
  omega

theorem daysIn_le (k : Int) : daysIn k ≤ 31 := by
  unfold daysIn monthStart
  by_cases last : k % 12 = 11
  · have next : (k + 1) / 12 = k / 12 + 1 ∧ (k + 1) % 12 = 0 := by omega
    simp only [next.1, next.2, last]
    generalize k / 12 = y
    omega
  · have next : (k + 1) / 12 = k / 12 ∧ (k + 1) % 12 = k % 12 + 1 := by omega
    simp only [next.1, next.2]
    omega

theorem le_daysIn (k : Int) : 28 ≤ daysIn k := by
  unfold daysIn monthStart
  by_cases last : k % 12 = 11
  · have next : (k + 1) / 12 = k / 12 + 1 ∧ (k + 1) % 12 = 0 := by omega
    simp only [next.1, next.2, last]
    generalize k / 12 = y
    omega
  · have next : (k + 1) / 12 = k / 12 ∧ (k + 1) % 12 = k % 12 + 1 := by omega
    simp only [next.1, next.2]
    omega

theorem daysInMonth_eq (year : Int) {month : Int} (first : 1 ≤ month) (last : month ≤ 12) :
    daysInMonth year month = daysIn (monthNumber year month) := by
  unfold daysInMonth daysIn
  split
  · next december =>
    subst december
    unfold monthStart monthNumber
    have number : (12 * year + 12 - 3) / 12 = year ∧ (12 * year + 12 - 3) % 12 = 9 ∧ (12 * year + 12 - 3 + 1) / 12 = year ∧
        (12 * year + 12 - 3 + 1) % 12 = 10 := by omega
    simp only [number]
    omega
  · have next : monthNumber year (month + 1) = monthNumber year month + 1 := by
      unfold monthNumber
      omega
    rw [ofCivil_eq 1 (by omega) (by omega), ofCivil_eq 1 first last, next]
    omega

theorem date_eq (d : Int) : d = monthStart (monthOf d) + dayOf d - 1 := (civil_inMonth d).date

theorem dayOf_range (d : Int) : 1 ≤ dayOf d ∧ dayOf d ≤ daysIn (monthOf d) := by
  have inMonth := civil_inMonth d
  have date := date_eq d
  refine ⟨inMonth.day, ?_⟩
  have before : d < monthStart (monthOf d + 1) := inMonth.before
  unfold daysIn
  omega

/-- Days are ordered by their months, and within a month by their numbers. -/
theorem day_le_iff {j k a b : Int} (first : 1 ≤ a) (last : a ≤ daysIn j) (first' : 1 ≤ b) (last' : b ≤ daysIn k) :
    monthStart j + a - 1 ≤ monthStart k + b - 1 ↔ j < k ∨ j = k ∧ a ≤ b := by
  rcases Int.lt_trichotomy j k with lt | rfl | gt
  · have later : monthStart (j + 1) ≤ monthStart k := monthStart_mono lt
    unfold daysIn at last
    constructor
    · exact fun _ => .inl lt
    · omega
  · omega
  · have later : monthStart (k + 1) ≤ monthStart j := monthStart_mono gt
    unfold daysIn at last'
    omega

theorem date_le_iff (d t : Int) : d ≤ t ↔ monthOf d < monthOf t ∨ monthOf d = monthOf t ∧ dayOf d ≤ dayOf t := by
  have order := day_le_iff (dayOf_range d).1 (dayOf_range d).2 (dayOf_range t).1 (dayOf_range t).2
  rwa [← date_eq d, ← date_eq t] at order

theorem monthOf_eq {d k a : Int} (first : 1 ≤ a) (last : a ≤ daysIn k) (date : d = monthStart k + a - 1) :
    monthOf d = k ∧ dayOf d = a := by
  have range := dayOf_range d
  have le := (day_le_iff range.1 range.2 first last).mp (Int.le_of_eq ((date_eq d).symm.trans date))
  have ge := (day_le_iff first last range.1 range.2).mp (Int.le_of_eq (date.symm.trans (date_eq d)))
  omega

end Calendar
