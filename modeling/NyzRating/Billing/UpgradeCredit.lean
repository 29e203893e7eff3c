import NyzRating.Billing.Catalog
import NyzRating.Billing.Proration
import NyzRating.Lib.Lists

/-!
# The credit of an upgrade

The prepaid months that have not begun are credited. The code counts them from a day that it computes back from the end of
the coverage: not always the day of the purchase.
-/

namespace NyzRating.Billing

open Calendar

/-- How many of the first `n` months from `start` on have begun. -/
def begunMonths (start : Int) (n : Nat) (today : Int) : Nat := (List.range n).countP fun k : Nat => addMonthsToDate start k ≤ today

/-- The months that are left of a plan bought for `n` months. -/
def creditMonths (bought : Int) (n : Nat) (today : Int) : Int :=
  if today < addMonthsToDate bought n then n - begunMonths bought n today else 0

/-- The months computed back from the end of the coverage have begun as those of the purchase have. Where the period ends no
    later than the coverage, they begin on other days only if the month in which it ends has less days. -/
def SameMonths (bought : Int) (n : Nat) (periodEnd today : Int) : Prop :=
  let paidUntil := addMonthsToDate bought n
  let start := addMonthsToDate periodEnd (-n)
  if periodEnd ≤ paidUntil then
    today < paidUntil → ¬(daysIn (monthOf paidUntil) ≤ dayOf today ∧ dayOf today < min (dayOf bought) (daysIn (monthOf today)))
  else if today < paidUntil then ∀ k < n, addMonthsToDate bought k ≤ today ↔ addMonthsToDate start k ≤ today
  else periodEnd < today ∨ addMonthsToDate start (n - 1) ≤ today

instance (bought : Int) (n : Nat) (periodEnd today : Int) : Decidable (SameMonths bought n periodEnd today) :=
  inferInstanceAs (Decidable (if periodEnd ≤ addMonthsToDate bought n then
      today < addMonthsToDate bought n → ¬(daysIn (monthOf (addMonthsToDate bought n)) ≤ dayOf today ∧
        dayOf today < min (dayOf bought) (daysIn (monthOf today)))
    else if today < addMonthsToDate bought n then
      ∀ k < n, addMonthsToDate bought k ≤ today ↔ addMonthsToDate (addMonthsToDate periodEnd (-n)) k ≤ today
    else periodEnd < today ∨ addMonthsToDate (addMonthsToDate periodEnd (-n)) (n - 1) ≤ today))

/-! ### Months in order -/

section
variable {bought periodEnd today : Int} {n : Nat}

theorem addMonthsToDate_mono (d : Int) {j k : Int} (le : j ≤ k) : addMonthsToDate d j ≤ addMonthsToDate d k := by
  have month := monthOf_addMonthsToDate d k
  rw [addMonthsToDate_le_iff, month.1, month.2]
  rcases Int.lt_or_eq_of_le le with lt | rfl
  · exact .inl (by omega)
  · exact .inr ⟨rfl, Int.le_refl _⟩

theorem begun_down (start : Int) {j k : Nat} (le : j ≤ k) (begun : decide (addMonthsToDate start k ≤ today) = true) :
    decide (addMonthsToDate start j ≤ today) = true := by
  rw [decide_eq_true_eq] at begun ⊢
  exact Int.le_trans (addMonthsToDate_mono start (Int.ofNat_le.mpr le)) begun

theorem begunMonths_le (start : Int) : begunMonths start n today ≤ n := by
  have le := List.countP_le_length (p := fun k : Nat => decide (addMonthsToDate start k ≤ today)) (l := List.range n)
  rwa [List.length_range] at le

theorem begunMonths_eq_iff {start : Int} : begunMonths bought n today = begunMonths start n today ↔
    ∀ k < n, addMonthsToDate bought k ≤ today ↔ addMonthsToDate start k ≤ today := by
  unfold begunMonths
  rw [Lists.countP_range_eq_iff (begun_down bought) (begun_down start)]
  simp only [decide_eq_true_eq]

/-- All months have begun when the last one has. -/
theorem begunMonths_eq_all_iff {start : Int} (some : 0 < n) :
    begunMonths start n today = n ↔ addMonthsToDate start (n - 1) ≤ today := by
  cases n with
  | zero => exact absurd some (Nat.lt_irrefl 0)
  | succ k =>
    have last : k < begunMonths start (k + 1) today ↔ decide (addMonthsToDate start k ≤ today) = true :=
      Lists.lt_countP_range_iff (begun_down start) (Nat.lt_succ_self k)
    have le : begunMonths start (k + 1) today ≤ k + 1 := begunMonths_le start
    have index : ((k + 1 : Nat) : Int) - 1 = k := by omega
    rw [decide_eq_true_eq] at last
    rw [index, ← last]
    omega

/-- Counting up to the first month that has not begun counts all that have. -/
theorem startedUnits_eq (start : Int) : ∀ n index,
    startedUnits today start n index = ((List.range' index n).countP fun k : Nat => addMonthsToDate start k ≤ today : Nat)
  | 0, _ => rfl
  | n + 1, index => by
    rw [List.range'_succ, List.countP_cons]
    unfold startedUnits
    split
    · next begun =>
      rw [startedUnits_eq start n (index + 1)]
      simp [begun, Int.add_comm]
    · next notBegun =>
      have none : ((List.range' (index + 1) n).countP fun k : Nat => addMonthsToDate start k ≤ today) = 0 := by
        rw [List.countP_eq_zero]
        intro k mem begun
        have after := (List.mem_range'_1.mp mem).1
        exact notBegun (of_decide_eq_true (begun_down start (Nat.le_of_lt after) begun))
      simp [none, notBegun]

theorem startedUnits_zero (start : Int) (n : Nat) : startedUnits today start n 0 = begunMonths start n today := by
  rw [startedUnits_eq, begunMonths, List.range_eq_range']

/-! ### What is credited -/

/-- The start computed back from the day to which the coverage is paid. -/
theorem back_le_iff {k : Int} : addMonthsToDate (addMonthsToDate (addMonthsToDate bought n) (-n)) k ≤ today ↔
    monthOf bought + k < monthOf today ∨ monthOf bought + k = monthOf today ∧
      min (min (dayOf bought) (daysIn (monthOf bought + n))) (daysIn (monthOf today)) ≤ dayOf today := by
  have paid := monthOf_addMonthsToDate bought n
  have back := monthOf_addMonthsToDate (addMonthsToDate bought n) (-n)
  have day := (dayOf_range bought).2
  rw [paid.1, paid.2] at back
  have same : monthOf bought + ↑n + -↑n = monthOf bought := by omega
  rw [same] at back
  have shorter : min (min (dayOf bought) (daysIn (monthOf bought + n))) (daysIn (monthOf bought)) =
      min (dayOf bought) (daysIn (monthOf bought + n)) := by omega
  rw [addMonthsToDate_le_iff, back.1, back.2, shorter]

theorem same_months_iff (since : bought ≤ today) (covered : today < addMonthsToDate bought n) :
    (∀ k < n, addMonthsToDate bought k ≤ today ↔ addMonthsToDate (addMonthsToDate (addMonthsToDate bought n) (-n)) k ≤ today) ↔
      ¬(daysIn (monthOf (addMonthsToDate bought n)) ≤ dayOf today ∧
        dayOf today < min (dayOf bought) (daysIn (monthOf today))) := by
  rw [date_le_iff] at since
  rw [← Int.not_le, addMonthsToDate_le_iff] at covered
  rw [(monthOf_addMonthsToDate bought n).1]
  constructor
  · rintro same ⟨short, before⟩
    have inside : monthOf today < monthOf bought + n := by
      rcases Int.lt_trichotomy (monthOf today) (monthOf bought + n) with lt | last | gt
      · exact lt
      · rw [← last] at short
        omega
      · exact absurd (.inl gt) covered
    obtain ⟨k, month⟩ := Int.le.dest (show monthOf bought ≤ monthOf today by omega)
    have both := same k (by omega)
    rw [back_le_iff, addMonthsToDate_le_iff] at both
    have begun := both.mpr (.inr ⟨month, by omega⟩)
    omega
  · intro days k lt
    rw [back_le_iff, addMonthsToDate_le_iff]
    constructor
    · rintro (earlier | ⟨month, day⟩)
      · exact .inl earlier
      · exact .inr ⟨month, by omega⟩
    · rintro (earlier | ⟨month, day⟩)
      · exact .inl earlier
      · exact .inr ⟨month, by omega⟩

theorem remaining_eq {start coverageEnd : Int} (some : 0 < n) : remainingPrepaidMonths today start coverageEnd n =
    if coverageEnd < today then 0 else n - (begunMonths start n today : Int) := by
  have le : begunMonths start n today ≤ n := begunMonths_le start
  unfold remainingPrepaidMonths
  have total : max 0 (n : Int) = n := by omega
  simp only [total, Int.toNat_natCast, startedUnits_zero, gt_iff_lt, Bool.or_eq_true, decide_eq_true_eq]
  split
  · next ended =>
    rw [if_pos (by omega)]
  · next running =>
    rw [if_neg (by omega)]
    omega

/-- The months that the code credits are those that are left, just when the months begin alike. -/
theorem remaining_eq_credit_iff {coverageEnd : Int} (last : coverageEnd = max (addMonthsToDate bought n) periodEnd) (some : 0 < n)
    (since : bought ≤ today) :
    remainingPrepaidMonths today (addMonthsToDate coverageEnd (-n)) coverageEnd n = creditMonths bought n today ↔
      SameMonths bought n periodEnd today := by
  have begun : (n : Int) - begunMonths (addMonthsToDate coverageEnd (-n)) n today = n - begunMonths bought n today ↔
      ∀ k < n, addMonthsToDate bought k ≤ today ↔ addMonthsToDate (addMonthsToDate coverageEnd (-n)) k ≤ today := by
    rw [← begunMonths_eq_iff]
    omega
  have all : begunMonths (addMonthsToDate coverageEnd (-n)) n today = n ↔
      addMonthsToDate (addMonthsToDate coverageEnd (-n)) (n - 1) ≤ today := begunMonths_eq_all_iff some
  rw [remaining_eq some]
  unfold creditMonths SameMonths
  by_cases shorter : periodEnd ≤ addMonthsToDate bought n
  · obtain rfl : coverageEnd = addMonthsToDate bought n := by omega
    by_cases covered : today < addMonthsToDate bought n
    · rw [if_neg (by omega), if_pos covered, begun, same_months_iff since covered]
      simp only [if_pos shorter, covered, forall_const]
    · have vacuous : today < addMonthsToDate bought n → ¬(daysIn (monthOf (addMonthsToDate bought n)) ≤ dayOf today ∧
          dayOf today < min (dayOf bought) (daysIn (monthOf today))) := fun late => absurd late covered
      rw [if_neg covered, if_pos shorter, iff_true_right vacuous]
      split
      · rfl
      · next notOver =>
        have today_eq : today = addMonthsToDate bought n := by omega
        have month : monthOf today = monthOf bought + n := today_eq ▸ (monthOf_addMonthsToDate bought n).1
        have done := all.mpr (back_le_iff.mpr (.inl (by omega)))
        omega
  · obtain rfl : coverageEnd = periodEnd := by omega
    by_cases covered : today < addMonthsToDate bought n
    · rw [if_neg (by omega), if_pos covered, begun]
      simp only [if_neg shorter, if_pos covered]
    · simp only [if_neg shorter, if_neg covered]
      rw [← all]
      split
      · next ended => exact iff_of_true rfl (.inl ended)
      · omega

end

/-! ### The credit -/

section
variable {plans : PlanCatalog} {sub : SubscriptionData} {plan : String} {period : BillingPeriod} {periodEnd today bought : Int}
  {n : Nat} {r : UpgradeProration}

/-- The condition under which the credit is exact, by the charge of the old plan. -/
def CreditsExactly (oldMonthlyCents bought : Int) (n : Nat) (periodEnd today : Int) : Prop :=
  oldMonthlyCents = 0 ∨ 0 < oldMonthlyCents ∧ SameMonths bought n periodEnd today ∨
    oldMonthlyCents < 0 ∧ addMonthsToDate bought (n - 1) ≤ today

instance (oldMonthlyCents bought : Int) (n : Nat) (periodEnd today : Int) :
    Decidable (CreditsExactly oldMonthlyCents bought n periodEnd today) :=
  inferInstanceAs (Decidable (oldMonthlyCents = 0 ∨ 0 < oldMonthlyCents ∧ SameMonths bought n periodEnd today ∨
    oldMonthlyCents < 0 ∧ addMonthsToDate bought (n - 1) ≤ today))

/-- The months that are left: the first one has begun, and those of an expired plan have all. -/
theorem credit_range (some : 0 < n) (since : bought ≤ today) : 0 ≤ creditMonths bought n today ∧
    creditMonths bought n today ≤ n - 1 ∧ (creditMonths bought n today = 0 ↔ addMonthsToDate bought (n - 1) ≤ today) := by
  have le : begunMonths bought n today ≤ n := begunMonths_le bought
  have all : begunMonths bought n today = n ↔ addMonthsToDate bought (n - 1) ≤ today := begunMonths_eq_all_iff some
  have first : 0 < begunMonths bought n today := by
    refine (Lists.lt_countP_range_iff (begun_down bought) some).mpr (decide_eq_true ?_)
    rw [addMonthsToDate_le_iff]
    have order := (date_le_iff bought today).mp since
    omega
  have order : addMonthsToDate bought (n - 1) ≤ addMonthsToDate bought n := addMonthsToDate_mono bought (by omega)
  unfold creditMonths
  split
  · omega
  · omega

theorem proration_credit (h : computeUpgradeProration sub plan period plans periodEnd today = some r) :
    r.oldMonthlyCents = planMonthlyChargeCentsAfterDiscount (plans.getOrFree sub.planCode).priceCents sub.billingPeriod ∧
      r.oldRemainingCreditCents = max 0 (r.oldMonthlyCents * remainingPrepaidMonths today
        (addMonthsToDate (coverageEndForSubscription sub periodEnd) (-billingPeriodMultiplier sub.billingPeriod))
        (coverageEndForSubscription sub periodEnd) (billingPeriodMultiplier sub.billingPeriod)) := by
  unfold computeUpgradeProration at h
  obtain ⟨next, -, h⟩ := Option.bind_eq_some_iff.mp h
  obtain ⟨⟨⟩, -, h⟩ := Option.bind_eq_some_iff.mp h
  obtain ⟨⟨⟩, -, h⟩ := Option.bind_eq_some_iff.mp h
  cases h
  exact ⟨rfl, rfl⟩

theorem coverageEnd_eq {paidUntil : Int} (paid : sub.trialEndsAt = some paidUntil) :
    coverageEndForSubscription sub periodEnd = max (dateOf paidUntil) periodEnd := by
  unfold coverageEndForSubscription
  rw [paid]
  dsimp only
  split
  · omega
  · omega

theorem remaining_nonneg (today start coverageEnd months : Int) : 0 ≤ remainingPrepaidMonths today start coverageEnd months := by
  unfold remainingPrepaidMonths
  dsimp only
  split
  · exact Int.le_refl 0
  · exact Int.le_max_left 0 _

theorem credited_iff {monthly remaining months : Int} (least : 0 ≤ remaining) (some : 0 ≤ months) :
    max 0 (monthly * remaining) = monthly * months ↔
      monthly = 0 ∨ 0 < monthly ∧ remaining = months ∨ monthly < 0 ∧ months = 0 := by
  rcases Int.lt_trichotomy monthly 0 with negative | rfl | positive
  · have none := Int.mul_nonpos_of_nonpos_of_nonneg (Int.le_of_lt negative) least
    rw [Int.max_eq_left none]
    constructor
    · intro zero
      rcases Int.mul_eq_zero.mp zero.symm with free | left
      · exact .inl free
      · exact .inr (.inr ⟨negative, left⟩)
    · rintro (free | ⟨positive, -⟩ | ⟨-, rfl⟩)
      · omega
      · omega
      · simp
  · simp
  · rw [Int.max_eq_right (Int.mul_nonneg (Int.le_of_lt positive) least), Int.mul_eq_mul_left_iff (by omega)]
    omega

/-- An upgrade credits the months that are left, just when they are counted alike. -/
theorem upgrade_credit_exact (sub : SubscriptionData) (bought : Int) (n : Nat) (paidUntil : Int)
    (prepaid : billingPeriodMultiplier sub.billingPeriod = n) (paid : sub.trialEndsAt = some paidUntil)
    (covers : dateOf paidUntil = addMonthsToDate bought n) (plans : PlanCatalog) (plan : String) (period : BillingPeriod)
    (periodEnd today : Int) (since : bought ≤ today) (r : UpgradeProration)
    (priced : computeUpgradeProration sub plan period plans periodEnd today = some r) :
    creditMonths bought n today ≤ n - 1 ∧
      (r.oldRemainingCreditCents = r.oldMonthlyCents * creditMonths bought n today ↔
        CreditsExactly (planMonthlyChargeCentsAfterDiscount (plans.getOrFree sub.planCode).priceCents sub.billingPeriod)
          bought n periodEnd today) := by
  obtain ⟨monthly, credit⟩ := proration_credit priced
  have some : 0 < n := by
    have positive : 0 < billingPeriodMultiplier sub.billingPeriod := by cases sub.billingPeriod <;> decide
    omega
  obtain ⟨least, most, all⟩ := credit_range some since
  have last : coverageEndForSubscription sub periodEnd = max (addMonthsToDate bought n) periodEnd := covers ▸ coverageEnd_eq paid
  refine ⟨most, ?_⟩
  rw [credit, ← monthly, prepaid, credited_iff (remaining_nonneg _ _ _ _) least, remaining_eq_credit_iff last some since, all]
  rfl

/-- A plan for a quarter. -/
def quarterly (bought : Int) : SubscriptionData :=
  { planCode := "starter", billingPeriod := .quarterly, status := .active, trialStartedAt := some (midnight bought)
    trialEndsAt := some (midnight (addMonthsToDate bought 3)) }

/-- On the day of the purchase, two months are left. -/
theorem upgrade_credit_july : ∃ r, computeUpgradeProration (quarterly (ofCivil 2026 7 18)) "pro" .quarterly defaultPlans
    (ofCivil 2026 8 5) (ofCivil 2026 7 18) = some r ∧
      r.oldRemainingCreditCents = r.oldMonthlyCents * creditMonths (ofCivil 2026 7 18) 3 (ofCivil 2026 7 18) :=
  ⟨_, rfl, (upgrade_credit_exact (quarterly (ofCivil 2026 7 18)) (ofCivil 2026 7 18) 3 _ rfl rfl (dateOf_midnight _) defaultPlans
    "pro" .quarterly (ofCivil 2026 8 5) (ofCivil 2026 7 18) (Int.le_refl _) _ rfl).2.mpr (by decide +kernel)⟩

/-- Bought on November 30 and paid until February 28: the months are counted from November 28, so that on December 29 the
    second one seems to have begun. -/
theorem upgrade_credit_short : ∃ r, computeUpgradeProration (quarterly (ofCivil 2025 11 30)) "pro" .quarterly defaultPlans
    (ofCivil 2026 1 5) (ofCivil 2025 12 29) = some r ∧
      r.oldRemainingCreditCents ≠ r.oldMonthlyCents * creditMonths (ofCivil 2025 11 30) 3 (ofCivil 2025 12 29) :=
  ⟨_, rfl, by decide +kernel⟩

end

end NyzRating.Billing
