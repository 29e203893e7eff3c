import NyzRating.Lib.Months
import NyzRating.Lib.Text

/-!
# Dates, periods and amounts of billing

Times are microseconds and dates days (`Calendar`); amounts are cents.
-/

namespace NyzRating.Billing

open Calendar

/-- Billing periods as they are stored; inputs go through `normalizeBillingPeriod`. -/
inductive BillingPeriod where
  | monthly
  | quarterly
  | yearly
  deriving DecidableEq, Repr

def normalizeBillingPeriod (value : String) : BillingPeriod :=
  let normalized := Text.stripLower value
  if normalized = "quarterly" then .quarterly
  else if normalized = "yearly" then .yearly
  else .monthly

def billingPeriodMultiplier : BillingPeriod → Int
  | .monthly => 1
  | .quarterly => 3
  | .yearly => 12

def discountPercent : BillingPeriod → Int
  | .monthly => 0
  | .quarterly => 7
  | .yearly => 15

def billingPeriodLabelHu : BillingPeriod → String
  | .monthly => "havi"
  | .quarterly => "negyedéves"
  | .yearly => "éves"

/-- Quotient rounded to the nearest integer, halves to the even one. -/
def roundDiv (n d : Int) : Int :=
  let q := n / d
  let r := n % d
  if 2 * r < d then q else if d < 2 * r then q + 1 else if q % 2 = 0 then q else q + 1

def applyDiscount (priceCents : Int) (period : BillingPeriod) : Int :=
  if discountPercent period ≤ 0 then priceCents
  else roundDiv (priceCents * (100 - discountPercent period)) 100

/-- Monthly charge after the discount, in whole units of currency. -/
def planMonthlyChargeCentsAfterDiscount (priceCents : Int) (period : BillingPeriod) : Int :=
  applyDiscount priceCents period / 100 * 100

def roundStorageGb (storageBytes : Int) : Int :=
  if storageBytes ≤ 0 then 0 else max 1 ((storageBytes + 1073741823) / 1073741824)

/-! ### Months and billing days -/

def isBusinessDay (day : Int) : Bool := weekday day < 5

/-- The first business day from the fifth of the month on: a weekend ends within two days. -/
def fifthBusinessDay (year month : Int) : Int :=
  let fifth := ofCivil year month 5
  if isBusinessDay fifth then fifth
  else if isBusinessDay (fifth + 1) then fifth + 1
  else fifth + 2

def previousMonth (year month : Int) : Int × Int :=
  if month = 1 then (year - 1, 12) else (year, month - 1)

def nextMonth (year month : Int) : Int × Int :=
  if month = 12 then (year + 1, 1) else (year, month + 1)

def addMonths (year month count : Int) : Int × Int :=
  let index := year * 12 + (month - 1) + count
  (index / 12, index % 12 + 1)

def addMonthsToDate (value count : Int) : Int :=
  let c := civil value
  let (year, month) := addMonths c.year c.month count
  ofCivil year month (min c.day (daysInMonth year month))

theorem addMonthsToDate_eq (d count : Int) :
    addMonthsToDate d count = monthStart (monthOf d + count) + min (dayOf d) (daysIn (monthOf d + count)) - 1 := by
  have inMonth := civil_inMonth d
  unfold addMonthsToDate addMonths monthOf dayOf
  simp only
  generalize civil d = c at inMonth ⊢
  have first : 1 ≤ (c.year * 12 + (c.month - 1) + count) % 12 + 1 := by omega
  have last : (c.year * 12 + (c.month - 1) + count) % 12 + 1 ≤ 12 := by omega
  have number : monthNumber ((c.year * 12 + (c.month - 1) + count) / 12) ((c.year * 12 + (c.month - 1) + count) % 12 + 1) =
      monthNumber c.year c.month + count := by
    unfold monthNumber
    omega
  rw [ofCivil_eq _ first last, daysInMonth_eq _ first last, number]

theorem addMonthsToDate_day (d count : Int) : 1 ≤ min (dayOf d) (daysIn (monthOf d + count)) ∧
    min (dayOf d) (daysIn (monthOf d + count)) ≤ daysIn (monthOf d + count) :=
  ⟨Int.le_min.mpr ⟨(dayOf_range d).1, one_le_daysIn _⟩, Int.min_le_right _ _⟩

theorem monthOf_addMonthsToDate (d count : Int) : monthOf (addMonthsToDate d count) = monthOf d + count ∧
    dayOf (addMonthsToDate d count) = min (dayOf d) (daysIn (monthOf d + count)) :=
  monthOf_eq (addMonthsToDate_day d count).1 (addMonthsToDate_day d count).2 (addMonthsToDate_eq d count)

/-- A date some months later has begun in a later month, or later in the same one. -/
theorem addMonthsToDate_le_iff (d count t : Int) : addMonthsToDate d count ≤ t ↔
    monthOf d + count < monthOf t ∨ monthOf d + count = monthOf t ∧ min (dayOf d) (daysIn (monthOf t)) ≤ dayOf t := by
  have day := addMonthsToDate_day d count
  have range := dayOf_range t
  have order := day_le_iff day.1 day.2 range.1 range.2
  rw [← date_eq t] at order
  rw [addMonthsToDate_eq, order]
  constructor
  · rintro (lt | ⟨same, le⟩)
    · exact .inl lt
    · exact .inr ⟨same, same ▸ le⟩
  · rintro (lt | ⟨same, le⟩)
    · exact .inl lt
    · exact .inr ⟨same, same ▸ le⟩

theorem lt_addMonthsToDate (d : Int) {count : Int} (positive : 0 < count) : d < addMonthsToDate d count := by
  rw [addMonthsToDate_eq]
  calc d = monthStart (monthOf d) + dayOf d - 1 := date_eq d
    _ < monthStart (monthOf d + 1) := by
      have range := dayOf_range d
      unfold daysIn at range
      omega
    _ ≤ monthStart (monthOf d + count) := monthStart_mono (by omega)
    _ ≤ _ := by
      have day := addMonthsToDate_day d count
      omega

/-- A usage month, stored as `YYYY-MM`. -/
structure MonthKey where
  year : Int
  month : Int
  deriving DecidableEq, Repr

/-- The usage period a time lies in. -/
structure MonthPeriod where
  key : MonthKey
  start : Int
  stop : Int
  dueThisMonth : Int
  deriving DecidableEq, Repr

def currentMonthPeriod (now : Int) : MonthPeriod :=
  let today := civil (dateOf now)
  let dueThisMonth := fifthBusinessDay today.year today.month
  let (startYear, startMonth) :=
    if dateOf now ≥ dueThisMonth then (today.year, today.month) else previousMonth today.year today.month
  let (endYear, endMonth) := nextMonth startYear startMonth
  { key := ⟨startYear, startMonth⟩
    start := midnight (fifthBusinessDay startYear startMonth)
    stop := midnight (fifthBusinessDay endYear endMonth)
    dueThisMonth := dueThisMonth }

def chargeDateBeforeExpiry (expiryDate : Int) : Int := expiryDate - 5

/-- Days of an unpaid invoice after its due date until the tenant is deactivated. -/
def paymentFailureDeactivationDays : Int := 30

end NyzRating.Billing
