import Mathlib.Algebra.Order.BigOperators.Group.List
import NyzRating.Billing.Catalog

/-!
# The revenue forecast of the platform admins

`_billing_revenue_metrics` computes the monthly charge of a subscription on its own, from the rows of the catalog and not
from the plans on sale, and without the cut to whole hundreds that billing makes.
-/

namespace NyzRating.Admin.Revenue

open Billing

/-- A row of `billing_catalog_entries` of the type `plan`. -/
structure PlanEntry extends BillingPlan where
  isActive : Bool := true
  deriving DecidableEq, Repr

/-- The plans that `_plan_map` has. -/
def onSale (catalog : List PlanEntry) : List BillingPlan := (catalog.filter (·.isActive)).map (·.toBillingPlan)

/-- `COALESCE(plan.price_cents, 0)` of the join. -/
def joinedPriceCents (catalog : List PlanEntry) (planCode : String) : Int :=
  ((catalog.find? (·.code = planCode)).map (·.priceCents)).getD 0

/-- `_billing_period_discount_percent` -/
def billingPeriodDiscountPercent : BillingPeriod → Int
  | .quarterly => 7
  | .yearly => 15
  | .monthly => 0

def discountedMonthly (catalog : List PlanEntry) (sub : Subscription) : Int :=
  roundDiv (joinedPriceCents catalog sub.planCode * (100 - billingPeriodDiscountPercent sub.billingPeriod)) 100

def recurringAddonsMonthly (sub : Subscription) : Int := sub.extraKbCount * 500 + sub.extraStorageGb * 500

/-- The rows that the forecast counts. -/
def counted (sub : Subscription) : Bool := sub.planCode ≠ "free" && (sub.status = .active || sub.status = .trial)

/-- `expected_average_monthly_revenue_cents` -/
def expectedMonthlyRevenueCents (catalog : List PlanEntry) (subs : List Subscription) : Int :=
  ((subs.filter counted).map fun sub => max 0 (discountedMonthly catalog sub + recurringAddonsMonthly sub)).sum

/-! ### What billing charges -/

/-- A subscription and its tenant's other rows. -/
structure Row where
  sub : Subscription
  account : Account

/-- The monthly part of the next invoice. -/
def monthlyCharge (env : Env) (row : Row) : Int :=
  (estimateNextInvoice env row.sub row.account).totalCents / billingPeriodMultiplier row.sub.billingPeriod

/-- A counted row without a scheduled change, with the extra storage that billing requires. -/
structure Steady (env : Env) (row : Row) : Prop where
  counts : counted row.sub = true
  planUnscheduled : row.sub.scheduledPlanCode = none
  periodUnscheduled : row.sub.scheduledBillingPeriod = none
  storage : row.sub.extraStorageGb = requiredExtraStorageGb env row.sub row.account.resources
  bases : 0 ≤ row.sub.extraKbCount

/-- The plan whose price billing takes. -/
def chargedPlan (env : Env) (row : Row) : BillingPlan := env.plans.getOrFree (orText (some row.sub.planCode) "free")

/-- What the forecast counts more of a row than billing charges: the cents below a whole hundred, and the difference of the
prices where the plan is not on sale. -/
def excess (catalog : List PlanEntry) (env : Env) (row : Row) : Int :=
  applyDiscount (joinedPriceCents catalog row.sub.planCode) row.sub.billingPeriod -
    planMonthlyChargeCentsAfterDiscount (chargedPlan env row).priceCents row.sub.billingPeriod

/-- The plan of the row is on sale. -/
def OnSale (catalog : List PlanEntry) (row : Row) : Prop :=
  row.sub.planCode ≠ "" ∧ ∃ plan ∈ catalog, plan.code = row.sub.planCode ∧ plan.isActive = true

def WholeHundreds (catalog : List PlanEntry) (row : Row) : Prop :=
  applyDiscount (joinedPriceCents catalog row.sub.planCode) row.sub.billingPeriod % 100 = 0

section
variable {catalog : List PlanEntry} {env : Env} {row : Row}

theorem roundDiv_nonneg {n : Int} (h : 0 ≤ n) : 0 ≤ roundDiv n 100 := by
  unfold roundDiv
  dsimp only
  split
  · omega
  · split
    · omega
    · split <;> omega

theorem discountedMonthly_eq (catalog : List PlanEntry) (sub : Subscription) :
    discountedMonthly catalog sub = applyDiscount (joinedPriceCents catalog sub.planCode) sub.billingPeriod := by
  unfold discountedMonthly applyDiscount
  cases sub.billingPeriod with
  | monthly =>
    show roundDiv (_ * (100 - 0)) 100 = _
    unfold roundDiv
    dsimp only
    rw [if_pos (by omega), if_pos (by decide)]
    omega
  | quarterly => rfl
  | yearly => rfl

theorem joinedPriceCents_nonneg (prices : ∀ plan ∈ catalog, 0 ≤ plan.priceCents) (code : String) :
    0 ≤ joinedPriceCents catalog code := by
  unfold joinedPriceCents
  cases found : catalog.find? (·.code = code) with
  | none => exact Int.le_refl 0
  | some plan => exact prices plan (List.mem_of_find?_eq_some found)

theorem discountedMonthly_nonneg (prices : ∀ plan ∈ catalog, 0 ≤ plan.priceCents) (sub : Subscription) :
    0 ≤ discountedMonthly catalog sub := by
  have price := joinedPriceCents_nonneg prices sub.planCode
  unfold discountedMonthly
  refine roundDiv_nonneg (Int.mul_nonneg price ?_)
  cases sub.billingPeriod <;> decide

theorem Steady.monthlyCharge_eq (h : Steady env row) : monthlyCharge env row =
    planMonthlyChargeCentsAfterDiscount (chargedPlan env row).priceCents row.sub.billingPeriod +
      recurringAddonsMonthly row.sub := by
  unfold monthlyCharge estimateNextInvoice recurringAddonsMonthly chargedPlan
  rw [h.planUnscheduled, h.periodUnscheduled, h.storage]
  dsimp only [orText, Option.filter_none, Option.getD_none]
  rw [← Int.add_mul]
  refine Int.mul_ediv_cancel _ ?_
  cases row.sub.billingPeriod <;> decide

theorem recurringAddonsMonthly_nonneg (h : Steady env row) : 0 ≤ recurringAddonsMonthly row.sub := by
  have storage : 0 ≤ row.sub.extraStorageGb := by
    rw [h.storage]
    exact Int.le_max_left 0 _
  have bases := h.bases
  unfold recurringAddonsMonthly
  omega

/-- What a row adds to the forecast. -/
theorem Steady.forecast_eq (h : Steady env row) (prices : ∀ plan ∈ catalog, 0 ≤ plan.priceCents) :
    max 0 (discountedMonthly catalog row.sub + recurringAddonsMonthly row.sub) = monthlyCharge env row + excess catalog env row := by
  have discounted := discountedMonthly_nonneg prices row.sub
  have addons := recurringAddonsMonthly_nonneg h
  rw [h.monthlyCharge_eq, max_eq_right (by omega), discountedMonthly_eq]
  unfold excess
  omega

theorem expectedMonthlyRevenueCents_eq (prices : ∀ plan ∈ catalog, 0 ≤ plan.priceCents) {rows : List Row}
    (steady : ∀ row ∈ rows, Steady env row) : expectedMonthlyRevenueCents catalog (rows.map (·.sub)) =
      (rows.map (monthlyCharge env)).sum + (rows.map (excess catalog env)).sum := by
  induction rows with
  | nil => rfl
  | cons row rows ih =>
    have own := steady row List.mem_cons_self
    have rest := ih fun r mem => steady r (List.mem_cons_of_mem _ mem)
    unfold expectedMonthlyRevenueCents at rest ⊢
    rw [List.map_cons, List.filter_cons, if_pos own.counts, List.map_cons, List.sum_cons, List.map_cons, List.sum_cons,
      List.map_cons, List.sum_cons, rest, own.forecast_eq prices]
    omega

/-- A plan on sale has one price, and billing cuts it to whole hundreds. -/
theorem OnSale.excess_eq (h : OnSale catalog row) (unique : (catalog.map (·.code)).Nodup)
    (sold : env.plans.plans = onSale catalog) :
    excess catalog env row = applyDiscount (joinedPriceCents catalog row.sub.planCode) row.sub.billingPeriod % 100 := by
  obtain ⟨named, plan, mem, code, active⟩ := h
  have joined : catalog.find? (·.code = row.sub.planCode) = some plan := by
    rw [← code]
    exact Lists.find?_of_mem unique mem
  have charged : chargedPlan env row = plan.toBillingPlan := by
    have kept : ((onSale catalog).map (·.code)).Nodup := by
      unfold onSale
      rw [List.map_map]
      exact unique.sublist (List.filter_sublist.map _)
    have there : plan.toBillingPlan ∈ onSale catalog :=
      List.mem_map.mpr ⟨plan, List.mem_filter.mpr ⟨mem, active⟩, rfl⟩
    have named : orText (some row.sub.planCode) "free" = plan.code := by
      rw [code, orText, Option.filter_some, if_pos (by simpa using named), Option.getD_some]
    have found : env.plans.find? plan.code = some plan.toBillingPlan := by
      unfold PlanCatalog.find?
      rw [sold]
      exact Lists.find?_of_mem kept there
    unfold chargedPlan PlanCatalog.getOrFree
    rw [named, found, Option.getD_some]
  unfold excess planMonthlyChargeCentsAfterDiscount joinedPriceCents
  rw [joined, charged, Option.map_some, Option.getD_some]
  omega

theorem sum_eq_zero_iff {l : List Row} {w : Row → Int} (nonneg : ∀ row ∈ l, 0 ≤ w row) :
    (l.map w).sum = 0 ↔ ∀ row ∈ l, w row = 0 := by
  induction l with
  | nil => simp
  | cons row l ih =>
    have first := nonneg row List.mem_cons_self
    have rest := ih fun r mem => nonneg r (List.mem_cons_of_mem _ mem)
    have positive : 0 ≤ (l.map w).sum :=
      List.sum_nonneg fun x mem => by
        obtain ⟨r, old, rfl⟩ := List.mem_map.mp mem
        exact nonneg r (List.mem_cons_of_mem _ old)
    rw [List.map_cons, List.sum_cons, List.forall_mem_cons, ← rest]
    omega

end

/-- The forecast is what billing charges just where what it counts too much cancels out; where all plans are on sale, just
where every discounted price is in whole hundreds. -/
theorem forecast_agrees_iff (catalog : List PlanEntry) (env : Env) (rows : List Row) (unique : (catalog.map (·.code)).Nodup)
    (prices : ∀ plan ∈ catalog, 0 ≤ plan.priceCents) (sold : env.plans.plans = onSale catalog)
    (steady : ∀ row ∈ rows, Steady env row) :
    (expectedMonthlyRevenueCents catalog (rows.map (·.sub)) = (rows.map (monthlyCharge env)).sum ↔
      (rows.map (excess catalog env)).sum = 0) ∧
    ((∀ row ∈ rows, OnSale catalog row) →
      (expectedMonthlyRevenueCents catalog (rows.map (·.sub)) = (rows.map (monthlyCharge env)).sum ↔
        ∀ row ∈ rows, WholeHundreds catalog row)) := by
  have sum := expectedMonthlyRevenueCents_eq prices steady
  have agrees : expectedMonthlyRevenueCents catalog (rows.map (·.sub)) = (rows.map (monthlyCharge env)).sum ↔
      (rows.map (excess catalog env)).sum = 0 := by omega
  refine ⟨agrees, fun all => agrees.trans ?_⟩
  have own : ∀ row ∈ rows, excess catalog env row = _ := fun row mem => (all row mem).excess_eq unique sold
  rw [sum_eq_zero_iff fun row mem => by rw [own row mem]; exact Int.emod_nonneg _ (by decide)]
  exact forall₂_congr fun row mem => by rw [own row mem]; rfl

namespace Sample

def plans (starterPriceCents : Int) : List PlanEntry :=
  [{ questionPlan "free" "Teszt" 0 3 7 with }, { questionPlan "starter" "Starter" starterPriceCents 40 0 with }]

def env (starterPriceCents : Int) : Env :=
  { Env.seeded 0 with plans := { plans := onSale (plans starterPriceCents), hasFree := rfl } }

/-- A quarterly subscription with one extra base. -/
def row : Row where
  sub := { planCode := "starter", billingPeriod := .quarterly, status := .active, trialStartedAt := none
           trialEndsAt := none, extraKbCount := 1, createdAt := 0, updatedAt := 0 }
  account := Account.created "acme" "Acme" 0

theorem row_steady (starterPriceCents : Int) : Steady (env starterPriceCents) row :=
  ⟨rfl, rfl, rfl, rfl, by decide⟩

end Sample

/-- The quarterly price of the seeded catalog is in whole hundreds. -/
theorem seeded_agrees : expectedMonthlyRevenueCents (Sample.plans 890000) ([Sample.row].map (·.sub)) =
    ([Sample.row].map (monthlyCharge (Sample.env 890000))).sum := by
  have agrees := forecast_agrees_iff (Sample.plans 890000) (Sample.env 890000) [Sample.row] (by decide) (by decide) rfl
    (List.forall_mem_singleton.mpr (Sample.row_steady 890000))
  have sold : OnSale (Sample.plans 890000) Sample.row := ⟨by decide, _, List.mem_cons_of_mem _ List.mem_cons_self, rfl, rfl⟩
  have whole : WholeHundreds (Sample.plans 890000) Sample.row := by
    unfold WholeHundreds
    decide
  exact (agrees.2 (List.forall_mem_singleton.mpr sold)).mpr (List.forall_mem_singleton.mpr whole)

theorem cents_forecast : expectedMonthlyRevenueCents (Sample.plans 890050) ([Sample.row].map (·.sub)) ≠
    ([Sample.row].map (monthlyCharge (Sample.env 890050))).sum := by
  decide

end NyzRating.Admin.Revenue
