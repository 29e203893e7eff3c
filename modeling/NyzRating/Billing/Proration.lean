import NyzRating.Billing.Models

/-!
# Plan changes: downgrades, credit for unstarted months, paid-until date
-/

namespace NyzRating.Billing

open Calendar

def isDowngrade (current : SubscriptionData) (nextPlanCode : String) (plans : PlanCatalog) : Bool :=
  let currentPlan := plans.getOrFree current.planCode
  let nextPlan := plans.getOrFree nextPlanCode
  nextPlan.priceCents < currentPlan.priceCents
    || nextPlan.includedKbs < currentPlan.includedKbs
    || nextPlan.includedStorageGb < currentPlan.includedStorageGb

/-- The rank of a period; longer periods rank higher. -/
def BillingPeriod.rank : BillingPeriod → Nat
  | .monthly => 1
  | .quarterly => 2
  | .yearly => 3

def isBillingPeriodDowngrade (currentPeriod nextPeriod : BillingPeriod) : Bool :=
  nextPeriod.rank < currentPeriod.rank

def isScheduledChange (current : SubscriptionData) (nextPlanCode : String) (nextPeriod : BillingPeriod)
    (plans : PlanCatalog) : Bool :=
  isDowngrade current nextPlanCode plans
    || (current.planCode = nextPlanCode && isBillingPeriodDowngrade current.billingPeriod nextPeriod)

def coverageEndForSubscription (subscription : SubscriptionData) (fallbackPeriodEnd : Int) : Int :=
  match subscription.trialEndsAt with
  | some t => if dateOf t > fallbackPeriodEnd then dateOf t else fallbackPeriodEnd
  | none => fallbackPeriodEnd

def paidUntilAfterUpgrade (upgradeDate : Int) (period : BillingPeriod) : Int :=
  addMonthsToDate upgradeDate (billingPeriodMultiplier period)

/-- There is no one-off training fee. -/
def trainingInitialFeeCentsForPlan (_planCode : String) : Int := 0

def upgradeTrainingInitialFeeCents (currentPlanCode nextPlanCode : String) : Int :=
  max 0 (trainingInitialFeeCentsForPlan nextPlanCode - trainingInitialFeeCentsForPlan currentPlanCode)

/-- How many month units from `index` on have started today: counting stops at the first that has not. -/
def startedUnits (today coverageStart : Int) : (total index : Nat) → Int
  | 0, _ => 0
  | n + 1, index =>
    if addMonthsToDate coverageStart index ≤ today then 1 + startedUnits today coverageStart n (index + 1) else 0

/-- The prepaid month units that have not started yet. -/
def remainingPrepaidMonths (today coverageStart coverageEnd prepaidMonths : Int) : Int :=
  let total := max 0 prepaidMonths
  if total ≤ 0 || today > coverageEnd then 0
  else max 0 (total - startedUnits today coverageStart total.toNat 0)

structure UpgradeProration where
  totalPrepaidMonths : Int
  remainingPrepaidMonths : Int
  oldPlanCode : String
  newPlanCode : String
  oldMonthlyCents : Int
  newMonthlyCents : Int
  deltaMonthlyCents : Int
  oldRemainingCreditCents : Int
  nextPeriodChargeCents : Int
  trainingInitialFeeCents : Int
  totalChargeCents : Int
  paidUntil : Int
  deriving DecidableEq, Repr

def computeUpgradeProration (subscription : SubscriptionData) (plan : String) (period : BillingPeriod)
    (plans : PlanCatalog) (periodEnd today : Int) : Option UpgradeProration := do
  let nextPlan ← plans.find? plan
  guard (!isDowngrade subscription plan plans)
  guard (!(subscription.planCode = plan && subscription.billingPeriod = period))
  let currentPlan := plans.getOrFree subscription.planCode
  let oldM := planMonthlyChargeCentsAfterDiscount currentPlan.priceCents subscription.billingPeriod
  let newM := planMonthlyChargeCentsAfterDiscount nextPlan.priceCents period
  let prepaidMonths := billingPeriodMultiplier subscription.billingPeriod
  let coverageEnd := coverageEndForSubscription subscription periodEnd
  let coverageStart := addMonthsToDate coverageEnd (-prepaidMonths)
  let remainingMonths := remainingPrepaidMonths today coverageStart coverageEnd prepaidMonths
  let oldRemainingCredit := max 0 (oldM * remainingMonths)
  let nextPeriodCharge := newM * billingPeriodMultiplier period
  let trainingInitialFee := upgradeTrainingInitialFeeCents subscription.planCode plan
  return {
    totalPrepaidMonths := prepaidMonths
    remainingPrepaidMonths := remainingMonths
    oldPlanCode := subscription.planCode
    newPlanCode := plan
    oldMonthlyCents := oldM
    newMonthlyCents := newM
    deltaMonthlyCents := max 0 (newM - oldM)
    oldRemainingCreditCents := oldRemainingCredit
    nextPeriodChargeCents := nextPeriodCharge
    trainingInitialFeeCents := trainingInitialFee
    totalChargeCents := max 0 (nextPeriodCharge - oldRemainingCredit) + max 0 trainingInitialFee
    paidUntil := paidUntilAfterUpgrade today period }

def questionsCarryoverFromStartedMonth (oldPlanQuestionsMonthly usedTotal : Int) : Int :=
  let monthly := max 0 oldPlanQuestionsMonthly
  max 0 (monthly - min (max 0 usedTotal) monthly)

end NyzRating.Billing
