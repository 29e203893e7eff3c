import NyzRating.Billing.Subscription

/-!
# Renewals one after another

Each renewal starts from the day that the last one has left, cut to the length of its month, and the day of the purchase is
not kept anywhere.
-/

namespace NyzRating.Billing.Renewals

open Calendar

/-- The paid-until date after `k` renewals. -/
def renewed (period : BillingPeriod) (d : Int) : Nat → Int
  | 0 => d
  | k + 1 => nextBillingDateAfter (renewed period d k) period

/-- The shortest of the months renewed into, and the day where it is earlier. -/
def shortest (period : BillingPeriod) (d : Int) : Nat → Int
  | 0 => dayOf d
  | k + 1 => min (shortest period d k) (daysIn (monthOf d + ↑(k + 1) * billingPeriodMultiplier period))

variable {period : BillingPeriod} {d : Int}

variable (period d) in
theorem renewed_month_day (k : Nat) : monthOf (renewed period d k) = monthOf d + k * billingPeriodMultiplier period ∧
    dayOf (renewed period d k) = shortest period d k := by
  induction k with
  | zero => simp [renewed, shortest]
  | succ k ih =>
    have next := monthOf_addMonthsToDate (renewed period d k) (billingPeriodMultiplier period)
    have month : monthOf d + k * billingPeriodMultiplier period + billingPeriodMultiplier period =
        monthOf d + ↑(k + 1) * billingPeriodMultiplier period := by
      rw [Int.natCast_succ, Int.add_mul, Int.one_mul, Int.add_assoc]
    rw [ih.1, ih.2, month] at next
    exact next

theorem le_shortest_iff {a : Int} (k : Nat) : a ≤ shortest period d k ↔
    a ≤ dayOf d ∧ ∀ j, 0 < j → j ≤ k → a ≤ daysIn (monthOf d + ↑j * billingPeriodMultiplier period) := by
  induction k with
  | zero => exact ⟨fun le => ⟨le, fun j pos le => absurd pos (by omega)⟩, And.left⟩
  | succ k ih =>
    rw [shortest, Int.le_min, ih]
    constructor
    · rintro ⟨⟨day, before⟩, last⟩
      refine ⟨day, fun j pos le => ?_⟩
      rcases Nat.lt_or_eq_of_le le with lt | rfl
      · exact before j pos (Nat.lt_succ_iff.mp lt)
      · exact last
    · rintro ⟨day, all⟩
      exact ⟨⟨day, fun j pos le => all j pos (Nat.le_succ_of_le le)⟩, all (k + 1) (Nat.succ_pos k) (Nat.le_refl _)⟩

/-- Two dates are the same when their months and days are. -/
theorem date_ext {d e : Int} (month : monthOf d = monthOf e) (day : dayOf d = dayOf e) : d = e := by
  rw [date_eq d, date_eq e, month, day]

/-- `k` renewals lead into the month that is that many periods later, to the earliest of the purchase day and the ends of the
months renewed into. They lead to the day of `add_months_to_date` just where none of those months ends before it. -/
theorem renewals (period : BillingPeriod) (d : Int) (k : Nat) :
    (monthOf (renewed period d k) = monthOf (addMonthsToDate d (k * billingPeriodMultiplier period)) ∧
      dayOf (renewed period d k) = shortest period d k) ∧
    (renewed period d k = addMonthsToDate d (k * billingPeriodMultiplier period) ↔ ∀ j, 0 < j → j < k →
      dayOf (addMonthsToDate d (k * billingPeriodMultiplier period)) ≤ daysIn (monthOf d + ↑j * billingPeriodMultiplier period)) := by
  have direct := monthOf_addMonthsToDate d (k * billingPeriodMultiplier period)
  have steps := renewed_month_day period d k
  refine ⟨⟨steps.1.trans direct.1.symm, steps.2⟩, ?_⟩
  have le := (le_shortest_iff k).mp (Int.le_refl (shortest period d k))
  have least : shortest period d k ≤ dayOf (addMonthsToDate d (k * billingPeriodMultiplier period)) := by
    rw [direct.2]
    refine Int.le_min.mpr ⟨le.1, ?_⟩
    rcases Nat.eq_zero_or_pos k with rfl | pos
    · rw [Int.natCast_zero, Int.zero_mul, Int.add_zero]
      exact (dayOf_range d).2
    · exact le.2 k pos (Nat.le_refl k)
  have day : dayOf (addMonthsToDate d (k * billingPeriodMultiplier period)) ≤ dayOf d := by
    rw [direct.2]
    exact Int.min_le_left _ _
  constructor
  · intro same j pos lt
    rw [← same, steps.2]
    exact le.2 j pos (Nat.le_of_lt lt)
  · intro fits
    refine date_ext (steps.1.trans direct.1.symm) (steps.2.trans (Int.le_antisymm least ?_))
    refine (le_shortest_iff k).mpr ⟨day, fun j pos le => ?_⟩
    rcases Nat.lt_or_eq_of_le le with lt | rfl
    · exact fits j pos lt
    · rw [direct.2]
      exact Int.min_le_right _ _

/-- From the end of January over the end of February to the 28th of March. -/
theorem january_drifts :
    renewed .monthly (ofCivil 2025 1 31) 2 ≠ addMonthsToDate (ofCivil 2025 1 31) (2 * billingPeriodMultiplier .monthly) := by
  decide

end NyzRating.Billing.Renewals
