import NyzRating.Billing.PlanChange
import NyzRating.Billing.Settlement
import NyzRating.Billing.Catalog
import NyzRating.Traffic.QuestionUsage

/-!
# The settlement of a month and a change of the plan

The settlement reads the plan when the new month is first touched. A change that comes in between settles the old
month with the allowance of the new plan.
-/

namespace NyzRating.Traffic

open Billing

/-- The two ways in which the plan of a subscription changes. -/
inductive PlanChange where
  | immediate (nextPlan : BillingPlan) (period : BillingPeriod) (paidUntil : Option Int)
  | scheduled

namespace PlanChange

def change (env : Env) (sub : Subscription) (a : Account) : PlanChange → Subscription × Account
  | immediate nextPlan period paidUntil => applyImmediatePlanChange env sub nextPlan period paidUntil a
  | scheduled => applyDueScheduledPlanChange env sub a

def apply (c : PlanChange) (env : Env) (t : Tables) : Tables :=
  t.account.subscription.elim t fun sub => { t with account := (c.change env sub t.account).2 }

/-- The plan held after the change. A scheduled one that is not due changes nothing. -/
def target (env : Env) (sub : Subscription) : PlanChange → String
  | immediate nextPlan _ _ => nextPlan.code
  | scheduled => if scheduledChangeDue env sub then orText sub.scheduledPlanCode sub.planCode else sub.planCode

/-- The extra questions after the change: an immediate one adds what is left of the allowance of its own month. -/
def extras (env : Env) (sub : Subscription) (a : Account) : PlanChange → Int
  | immediate _ _ _ =>
    let included := (env.plans.getOrFree sub.planCode).includedQuestionsMonthly
    let used := a.questionsUsedInPeriod env.currentPeriod.key
    max 0 (sub.carryoverAddonQuestions - max 0 (used - included)) + questionsCarryoverFromStartedMonth included used
  | scheduled => sub.carryoverAddonQuestions

end PlanChange

/-- The allowance of the plan with this code. -/
def allowance (env : Env) (planCode : String) : Int := monthlyIncludedForPlan env.plans (orText (some planCode) "free")

/-- What the first touch of the month `key` takes from the extra questions. -/
def charged (env : Env) (dbNow : Int) (key : MonthKey) (t : Tables) : Int :=
  t.carryover - (settleAddonCarryover env.plans dbNow key t).2.carryover

/-- What a month with `used` questions owes over the allowance. -/
def owed (used included : Int) : Int := max 0 (max 0 used - included)

/-- The month is charged what it owed under its own plan, whether the settlement or the change comes first. -/
def ChargedAlike (env : Env) (c : PlanChange) (dbNow : Int) (key : MonthKey) (used : Int) (sub : Subscription) (t : Tables) :
    Prop :=
  charged env dbNow key t = owed used (allowance env sub.planCode) ∧
    charged env dbNow key (c.apply env t) = owed used (allowance env sub.planCode)

/-- The extra questions cover the month before and after the change, and either both plans allow it the same or both
    allow all of it; or the change leaves exactly what the month owed, and allows no more. -/
def SettlesAlike (env : Env) (c : PlanChange) (used : Int) (sub : Subscription) (a : Account) : Prop :=
  let before := allowance env sub.planCode
  let after := allowance env (c.target env sub)
  owed used before ≤ sub.carryoverAddonQuestions ∧
    (owed used before ≤ c.extras env sub a ∧ (before = after ∨ used ≤ before ∧ used ≤ after) ∨
      owed used before = c.extras env sub a ∧ after ≤ before)

instance (env : Env) (c : PlanChange) (dbNow : Int) (key : MonthKey) (used : Int) (sub : Subscription) (t : Tables) :
    Decidable (ChargedAlike env c dbNow key used sub t) := inferInstanceAs (Decidable (_ ∧ _))

instance (env : Env) (c : PlanChange) (used : Int) (sub : Subscription) (a : Account) :
    Decidable (SettlesAlike env c used sub a) := inferInstanceAs (Decidable (_ ∧ (_ ∧ (_ ∨ _ ∧ _) ∨ _ ∧ _)))

section
variable {env : Env} {c : PlanChange} {dbNow : Int} {key month : MonthKey} {used : Int} {sub : Subscription} {t : Tables}

theorem allowance_nonneg (env : Env) (planCode : String) : 0 ≤ allowance env planCode := le_max_left 0 _

/-- What a change does to the plan and the extra questions, and that it writes no total. -/
theorem PlanChange.apply_cases (env : Env) (c : PlanChange) (hs : t.account.subscription = some sub) :
    ∃ row, (c.apply env t).account.subscription = some row ∧ row.planCode = c.target env sub ∧
      row.carryoverAddonQuestions = c.extras env sub t.account ∧
      (c.apply env t).account.questionTotals = t.account.questionTotals := by
  unfold PlanChange.apply
  rw [hs, Option.elim_some]
  cases c with
  | immediate nextPlan period paidUntil =>
    have data := Account.upsertSubscription_data env.utcnow
      (immediatePlanData env sub nextPlan period paidUntil t.account) t.account
    exact ⟨_, rfl, congrArg (·.planCode) data, congrArg (·.carryoverAddonQuestions) data, rfl⟩
  | scheduled =>
    simp only [PlanChange.change, PlanChange.target, PlanChange.extras, orText]
    cases hp : sub.scheduledPlanCode.filter (· ≠ "") with
    | none =>
      rw [applyDueScheduledPlanChange_of_none hp, Option.getD_none, ite_self]
      exact ⟨sub, hs, rfl, rfl, rfl⟩
    | some plan =>
      rw [applyDueScheduledPlanChange_of_some hp, Option.getD_some]
      split
      · have data := Account.upsertSubscription_data env.utcnow (scheduledPlanData sub plan) t.account
        exact ⟨_, rfl, congrArg (·.planCode) data, congrArg (·.carryoverAddonQuestions) data, rfl⟩
      · exact ⟨sub, hs, rfl, rfl, rfl⟩

/-- With a month before it, the first touch takes what that month owes, as far as there are extra questions. -/
theorem charged_eq (hs : t.account.subscription = some sub) (untouched : t.total? key = none)
    (previous : t.previousTotal key = some (month, used)) :
    charged env dbNow key t = sub.carryoverAddonQuestions -
      max 0 (sub.carryoverAddonQuestions - owed used (allowance env sub.planCode)) := by
  have present : t.account.subscription.isSome := by rw [hs]; rfl
  have settlement := settled env.plans dbNow key present
  obtain ⟨rest, -⟩ := settlement.fresh untouched
  have carryover : t.carryover = sub.carryoverAddonQuestions := by
    rw [Tables.carryover, hs]
    rfl
  have included : loadMonthlyIncluded env.plans t = allowance env sub.planCode := by
    rw [loadMonthlyIncluded, Tables.planCode, hs]
    rfl
  rw [charged, settlement.carryover, rest, settledCarryover, previous, carryover, included]
  rfl

/-- The settlement of a month commutes with a change of the plan exactly under `SettlesAlike`. -/
theorem settlement_commutes_iff (hs : t.account.subscription = some sub) (untouched : t.total? key = none)
    (previous : t.previousTotal key = some (month, used)) :
    ChargedAlike env c dbNow key used sub t ↔ SettlesAlike env c used sub t.account := by
  obtain ⟨row, hrow, planCode, extras, totals⟩ := PlanChange.apply_cases env c hs
  have untouched' : (c.apply env t).total? key = none := by
    rw [Tables.total?, totals]
    exact untouched
  have previous' : (c.apply env t).previousTotal key = some (month, used) := by
    rw [Tables.previousTotal, totals]
    exact previous
  have before := allowance_nonneg env sub.planCode
  have after := allowance_nonneg env (c.target env sub)
  rw [ChargedAlike, charged_eq hs untouched previous, charged_eq hrow untouched' previous', planCode, extras]
  unfold SettlesAlike owed
  simp only
  generalize allowance env sub.planCode = p at *
  generalize allowance env (c.target env sub) = q at *
  generalize c.extras env sub t.account = e at *
  generalize sub.carryoverAddonQuestions = c at *
  omega

end

/-- Paid until the end of the period of October, with a change from pro to starter scheduled for that day. -/
def leavingPro : Subscription :=
  { planCode := "pro", billingPeriod := .monthly, status := .active, trialStartedAt := none
    trialEndsAt := some (Calendar.midnight 20032), carryoverAddonQuestions := 200, scheduledPlanCode := some "starter"
    scheduledBillingPeriod := some .monthly, scheduledChangeEffectivePeriod := some (.day 20032), createdAt := 0
    updatedAt := 0 }

def leaving (used : Int) : Tables :=
  { account :=
      { Account.created "acme" "Acme" 0 with subscription := some leavingPro, questionTotals := [(⟨2024, 10⟩, used)] } }

theorem settlement_commutes_within_both :
    ChargedAlike (Env.seeded (Calendar.midnight 20032)) .scheduled 0 ⟨2024, 11⟩ 40 leavingPro (leaving 40) :=
  (settlement_commutes_iff rfl rfl (rfl : (leaving 40).previousTotal ⟨2024, 11⟩ = some (⟨2024, 10⟩, 40))).mpr (by decide)

/-- All 150 questions of October were in the allowance of pro, but 110 are taken when starter comes first. -/
theorem settlement_not_commutes :
    ¬∀ (env : Env) (c : PlanChange) (dbNow : Int) (key month : MonthKey) (used : Int) (sub : Subscription) (t : Tables),
      t.account.subscription = some sub → t.total? key = none → t.previousTotal key = some (month, used) →
      month.Before env.currentPeriod.key → used ≤ allowance env sub.planCode + sub.carryoverAddonQuestions →
      ChargedAlike env c dbNow key used sub t := by
  intro h
  have alike := h (Env.seeded (Calendar.midnight 20032)) .scheduled 0 ⟨2024, 11⟩ ⟨2024, 10⟩ 150 leavingPro (leaving 150)
    rfl rfl rfl (by decide) (by decide)
  have taken : charged (Env.seeded (Calendar.midnight 20032)) 0 ⟨2024, 11⟩
      (PlanChange.scheduled.apply (Env.seeded (Calendar.midnight 20032)) (leaving 150)) = 110 := by decide
  exact absurd (taken.symm.trans alike.2) (by decide)

end NyzRating.Traffic
