import NyzRating.Billing.Calculations
import NyzRating.Lib.Iso

/-!
# Prices and dates of the packages page

Source: `features/packages/components/packageUtils.ts`. Amounts are exact, and a `Date` is a day of the browser's calendar.
-/

namespace NyzRating.Frontend

open Calendar Billing

/-! ### Prices -/

/-- `Math.round (n / d)`: halves go up. -/
def mathRound (n d : Int) : Int := (2 * n + d) / (2 * d)

def billingDiscountPercent (period : String) : Int :=
  let p := String.ofList (Text.lower (if period = "" then "monthly" else period).toList)
  if p = "quarterly" then 7 else if p = "yearly" then 15 else 0

def discountedMonthlyCents (priceCents : Int) (period : String) : Int :=
  let d := billingDiscountPercent period
  if d ≤ 0 then priceCents else mathRound (priceCents * (100 - d)) 100

def flooredMonthlyEuroAfterDiscount (priceCents : Int) (selectedPeriod : String) : Int :=
  discountedMonthlyCents priceCents selectedPeriod / 100

/-- How the page names a period. -/
def periodName : BillingPeriod → String
  | .monthly => "monthly"
  | .quarterly => "quarterly"
  | .yearly => "yearly"

theorem billingDiscountPercent_eq (period : BillingPeriod) : billingDiscountPercent (periodName period) = discountPercent period := by
  cases period <;> decide

/-- Halves go to different sides only next to an even number, and the hundreds begin with one. -/
theorem mathRound_hundreds (n : Int) : mathRound n 100 / 100 = roundDiv n 100 / 100 := by
  unfold mathRound roundDiv
  dsimp only
  split
  · omega
  · split
    · omega
    · split <;> omega

theorem flooredMonthlyEuro_eq (priceCents : Int) (period : BillingPeriod) :
    100 * flooredMonthlyEuroAfterDiscount priceCents (periodName period) =
      planMonthlyChargeCentsAfterDiscount priceCents period := by
  unfold flooredMonthlyEuroAfterDiscount discountedMonthlyCents planMonthlyChargeCentsAfterDiscount applyDiscount
  rw [billingDiscountPercent_eq]
  dsimp only
  split
  · exact Int.mul_comm _ _
  · rw [mathRound_hundreds, Int.mul_comm]

/-! ### Dates -/

/-- The day of a year, of a month from 0 on that may lie outside the year, and of a day that may lie outside the month. -/
def makeDay (year month day : Int) : Int := ofCivil (year + month / 12) (month % 12 + 1) 1 + day - 1

/-- `new Date(year, month, day)`: the years up to 99 are those of the last century. -/
def newDate (year month day : Int) : Int := makeDay (if 0 ≤ year ∧ year ≤ 99 then 1900 + year else year) month day

def getFullYear (d : Int) : Int := (civil d).year

def getMonth (d : Int) : Int := (civil d).month - 1

def getDate (d : Int) : Int := (civil d).day

def setDate (d day : Int) : Int := makeDay (getFullYear d) (getMonth d) day

/-- `text.padStart(n, "0")` -/
def padStart (n : Nat) (text : List Char) : List Char := List.replicate (n - text.length) '0' ++ text

/-- `base` shifted by months. -/
def shiftedDate (base months : Int) : Int :=
  let shifted := newDate (getFullYear base) (getMonth base + months) 1
  let lastDay := getDate (newDate (getFullYear shifted) (getMonth shifted + 1) 0)
  setDate shifted (min (getDate base) lastDay)

/-- A day as `${y}-${m}-${d}`. -/
def dateText (d : Int) : List Char :=
  Decimal.writeInt (getFullYear d) ++ '-' :: (padStart 2 (Decimal.writeInt (getMonth d + 1)) ++
    '-' :: padStart 2 (Decimal.writeInt (getDate d)))

def addMonthsToDateIso (isoDate : List Char) (months : Int) : List Char :=
  match Iso.readDate (isoDate.take 10) with
  | some (base, []) => dateText (shiftedDate base months)
  | _ => isoDate.take 10

/-- `date.isoformat()` of a day that a `date` holds. -/
def isoformat? (d : Int) : Option (List Char) :=
  let c := civil d
  if 1 ≤ c.year ∧ c.year ≤ 9999 then
    some (Decimal.pad 4 c.year.toNat ++ '-' :: (Decimal.pad 2 c.month.toNat ++ '-' :: Decimal.pad 2 c.day.toNat))
  else none

example : addMonthsToDateIso "2024-01-31".toList 1 = "2024-02-29".toList := by decide

theorem makeDay_eq (year month day : Int) : makeDay year month day = monthStart (12 * year + month - 2) + day - 1 := by
  have number : monthNumber (year + month / 12) (month % 12 + 1) = 12 * year + month - 2 := by
    unfold monthNumber
    omega
  unfold makeDay
  rw [ofCivil_eq 1 (by omega) (by omega), number]
  omega

theorem year_eq (d : Int) : getFullYear d = (monthOf d + 2) / 12 := by
  have inMonth := civil_inMonth d
  have first := inMonth.first
  have last := inMonth.last
  unfold getFullYear monthOf monthNumber
  omega

theorem makeDay_of (d months day : Int) :
    makeDay (getFullYear d) (getMonth d + months) day = monthStart (monthOf d + months) + day - 1 := by
  have number : 12 * getFullYear d + (getMonth d + months) - 2 = monthOf d + months := by
    unfold getFullYear getMonth monthOf monthNumber
    omega
  rw [makeDay_eq, number]

theorem newDate_of {d : Int} (year : 100 ≤ getFullYear d) (months day : Int) :
    newDate (getFullYear d) (getMonth d + months) day = monthStart (monthOf d + months) + day - 1 := by
  unfold newDate
  rw [if_neg (by omega), makeDay_of]

theorem year_mono {d e : Int} (le : monthOf d ≤ monthOf e) : getFullYear d ≤ getFullYear e := by
  rw [year_eq, year_eq]
  omega

/-- The shift by the page's steps is the one of the server. -/
theorem shiftedDate_eq {base months : Int} (year : 100 ≤ getFullYear base) (forward : 0 ≤ months) :
    shiftedDate base months = addMonthsToDate base months := by
  have first := newDate_of year months 1
  have shifted := monthOf_eq (Int.le_refl 1) (one_le_daysIn (monthOf base + months)) first
  have later : 100 ≤ getFullYear (newDate (getFullYear base) (getMonth base + months) 1) :=
    Int.le_trans year (year_mono (by omega))
  have before := newDate_of later 1 0
  rw [shifted.1] at before
  -- The day before the first of the next month is the last of this one.
  have last := monthOf_eq (one_le_daysIn (monthOf base + months)) (Int.le_refl _)
    (show newDate (getFullYear (newDate (getFullYear base) (getMonth base + months) 1))
        (getMonth (newDate (getFullYear base) (getMonth base + months) 1) + 1) 0 = _ by
      rw [before]
      unfold daysIn
      omega)
  have day := makeDay_of (newDate (getFullYear base) (getMonth base + months) 1) 0
    (min (dayOf base) (daysIn (monthOf base + months)))
  rw [Int.add_zero, Int.add_zero, shifted.1] at day
  unfold shiftedDate setDate getDate
  dsimp only
  rw [show (civil (newDate (getFullYear (newDate (getFullYear base) (getMonth base + months) 1))
      (getMonth (newDate (getFullYear base) (getMonth base + months) 1) + 1) 0)).day = _ from last.2]
  exact day.trans (addMonthsToDate_eq base months).symm

/-! ### Texts -/

theorem padStart_two : ∀ n < 100, padStart 2 (Nat.toDigits 10 n) = Decimal.pad 2 n := by decide

theorem toDigits_four {n : Nat} (first : 1000 ≤ n) (last : n < 10000) : Nat.toDigits 10 n = Decimal.pad 4 n := by
  rw [Nat.toDigits_of_base_le (by decide) (by omega), Nat.toDigits_of_base_le (by decide) (by omega),
    Nat.toDigits_of_base_le (by decide) (by omega), Nat.toDigits_of_lt_base (by omega)]
  have front : n / 10 / 10 / 10 % 10 = n / 10 / 10 / 10 := Nat.mod_eq_of_lt (by omega)
  simp only [Decimal.pad, List.nil_append, front]

theorem pad_head {k n : Nat} (small : n < 10 ^ k) : (Decimal.pad (k + 1) n).head? = some '0' := by
  induction k generalizing n with
  | zero =>
    rw [Nat.lt_one_iff.mp small]
    rfl
  | succ k ih =>
    rw [Decimal.pad, List.head?_append, ih (by omega)]
    rfl

/-- The text is that of the server just in the years with four digits. -/
theorem dateText_iff {d : Int} (positive : 1 ≤ getFullYear d) :
    some (dateText d) = isoformat? d ↔ 1000 ≤ getFullYear d ∧ getFullYear d ≤ 9999 := by
  have inMonth := civil_inMonth d
  have first := inMonth.first
  have last := inMonth.last
  have day := dayOf_range d
  have short := daysIn_le (monthOf d)
  unfold dayOf at day
  unfold dateText isoformat? getFullYear getMonth getDate Decimal.writeInt at *
  rw [Int.sub_add_cancel, if_neg (by omega), if_neg (by omega), if_neg (by omega), padStart_two _ (by omega),
    padStart_two _ (by omega)]
  have digits : (civil d).year.natAbs = (civil d).year.toNat ∧ (civil d).month.natAbs = (civil d).month.toNat ∧
      (civil d).day.natAbs = (civil d).day.toNat := by omega
  rw [digits.1, digits.2.1, digits.2.2]
  constructor
  · intro same
    by_contra other
    by_cases fits : 1 ≤ (civil d).year ∧ (civil d).year ≤ 9999
    · rw [if_pos fits] at same
      have heads := congrArg List.head? (Option.some.inj same)
      rw [List.head?_append, List.head?_append, Option.or_of_isSome (List.isSome_head?.mpr Nat.toDigits_ne_nil),
        pad_head (by omega)] at heads
      exact Decimal.toDigits_head _ (by omega) heads
    · rw [if_neg fits] at same
      cases same
  · rintro ⟨ge, le⟩
    rw [if_pos ⟨positive, le⟩, toDigits_four (by omega) (by omega)]

/-- The page reads the day that the server has sent. -/
theorem readDate_isoformat {d : Int} {text : List Char} (sent : isoformat? d = some text) :
    Iso.readDate (text.take 10) = some (d, []) := by
  unfold isoformat? at sent
  obtain ⟨range, sent⟩ := Option.ite_none_right_eq_some.mp sent
  have same := dateOf_midnight d
  have read := Iso.readDate_append ⟨midnight d, same.symm ▸ range.1, same.symm ▸ range.2⟩ []
  dsimp only at read
  rw [same, List.append_nil, Option.some.inj sent] at read
  have length : text.length ≤ 10 := by
    rw [← Option.some.inj sent]
    simp only [List.length_append, List.length_cons, Decimal.length_pad]
    decide
  rw [List.take_of_length_le length]
  exact read

/-- The page quotes the price of the server, and its date just where the result has a year of four digits. -/
theorem frontend_agrees (priceCents : Int) (period : BillingPeriod) (d months : Int) (text : List Char)
    (year : 100 ≤ (civil d).year) (forward : 0 ≤ months) (sent : isoformat? d = some text) :
    100 * flooredMonthlyEuroAfterDiscount priceCents (periodName period) = planMonthlyChargeCentsAfterDiscount priceCents period ∧
    (some (addMonthsToDateIso text months) = isoformat? (addMonthsToDate d months) ↔
      1000 ≤ (civil (addMonthsToDate d months)).year ∧ (civil (addMonthsToDate d months)).year ≤ 9999) := by
  refine ⟨flooredMonthlyEuro_eq priceCents period, ?_⟩
  have month := (monthOf_addMonthsToDate d months).1
  have later : getFullYear d ≤ getFullYear (addMonthsToDate d months) := year_mono (by omega)
  unfold addMonthsToDateIso
  rw [readDate_isoformat sent]
  dsimp only
  rw [shiftedDate_eq year forward]
  exact dateText_iff (by unfold getFullYear at *; omega)

/-- A year on the server has four digits at least, and none after 9999. -/
theorem texts_differ :
    some (addMonthsToDateIso "0987-06-15".toList 0) ≠ isoformat? (addMonthsToDate (ofCivil 987 6 15) 0) ∧
      some (addMonthsToDateIso "9999-12-31".toList 1) ≠ isoformat? (addMonthsToDate (ofCivil 9999 12 31) 1) := by
  decide

theorem quarter_agrees :
    some (addMonthsToDateIso "2025-11-30".toList 3) = isoformat? (addMonthsToDate (ofCivil 2025 11 30) 3) :=
  (frontend_agrees 499900 .quarterly (ofCivil 2025 11 30) 3 "2025-11-30".toList (by decide) (by decide) (by decide)).2.mpr (by decide)

end NyzRating.Frontend
