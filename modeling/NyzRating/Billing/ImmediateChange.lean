import NyzRating.Billing.Catalog
import NyzRating.Billing.PlanChange
import Mathlib.Algebra.Order.BigOperators.Group.List

/-!
# The SMS allowance across an immediate plan change

What is left of the started month and of the addons becomes the carryover of the new plan. The questions asked in
the month are not reset, so they count against the new allowance as well.
-/

namespace NyzRating.Billing.ImmediateChange

open Calendar Program

/-! ### What is carried over -/

def used (env : Env) (a : Account) : Int := a.questionsUsedInPeriod env.currentPeriod.key

def quota (env : Env) (planCode : String) : Int := (env.plans.getOrFree planCode).includedQuestionsMonthly

/-- Questions are counted up from zero. -/
def Counted (a : Account) : Prop := ∀ row ∈ a.questionUsage, 0 ≤ row.questionCount

instance : DecidablePred Counted := fun a => inferInstanceAs (Decidable (∀ row ∈ a.questionUsage, 0 ≤ row.questionCount))

section
variable {env : Env} {sub : Subscription} {a : Account}

variable (env) in
theorem Counted.used_nonneg (h : Counted a) : 0 ≤ used env a := by
  unfold used Account.questionsUsedInPeriod
  split
  · exact le_max_left 0 _
  · refine List.sum_nonneg fun n hn => ?_
    obtain ⟨row, hrow, rfl⟩ := List.mem_map.mp hn
    exact h row (List.mem_of_mem_filter hrow)

def carriedOver (env : Env) (sub : Subscription) (a : Account) : Int :=
  (questionUsageSummary env sub a).remainingAddons + smsCarryoverFromStartedMonth env sub a

/-- The rest of the month and of the addons together, where a debt of addons counts as none. -/
theorem carriedOver_eq (counted : Counted a) :
    carriedOver env sub a = max 0 (quota env sub.planCode + max 0 sub.carryoverAddonQuestions - used env a) := by
  have nonneg := counted.used_nonneg env
  have parts : carriedOver env sub a =
      max 0 (sub.carryoverAddonQuestions - max 0 (used env a - quota env sub.planCode)) +
        max 0 (max 0 (quota env sub.planCode) - min (max 0 (used env a)) (max 0 (quota env sub.planCode))) := rfl
  rw [parts]
  generalize used env a = u at nonneg
  generalize quota env sub.planCode = q
  omega

/-- With addons left or none, what is carried over is what the summary shows as remaining. -/
theorem carriedOver_eq_remaining (counted : Counted a) (carryover : 0 ≤ sub.carryoverAddonQuestions) :
    carriedOver env sub a = (questionUsageSummary env sub a).remainingTotal := by
  rw [carriedOver_eq counted, max_eq_right carryover]
  rfl

end

/-! ### An upgrade keeps the remaining questions -/

section
variable {env : Env} {sub : Subscription} {nextPlan : BillingPlan} {period : BillingPeriod} {paidUntil : Option Int}
  {a : Account}

theorem quota_of_find? (h : env.plans.find? nextPlan.code = some nextPlan) :
    quota env nextPlan.code = nextPlan.includedQuestionsMonthly := by
  unfold quota PlanCatalog.getOrFree
  rw [h, Option.getD_some]

/-- The summary after the change: the new allowance and what was carried over, less the questions of the whole
    month. -/
theorem remainingTotal_changed (plan : env.plans.find? nextPlan.code = some nextPlan) :
    let changed := applyImmediatePlanChange env sub nextPlan period paidUntil a
    (questionUsageSummary env changed.1 changed.2).remainingTotal =
      max 0 (nextPlan.includedQuestionsMonthly + carriedOver env sub a - used env a) := by
  intro changed
  have code : changed.1.planCode = nextPlan.code := by
    simp only [changed, applyImmediatePlanChange, Account.upsertSubscription]
    cases a.subscription <;> rfl
  have carryover : changed.1.carryoverAddonQuestions = carriedOver env sub a := by
    simp only [changed, applyImmediatePlanChange, Account.upsertSubscription]
    cases a.subscription <;> rfl
  have summary : (questionUsageSummary env changed.1 changed.2).remainingTotal =
      max 0 (quota env changed.1.planCode + changed.1.carryoverAddonQuestions - used env a) := rfl
  rw [summary, code, carryover, quota_of_find? plan]

/-- An immediate change keeps the remaining questions exactly when none was asked in the month yet, or nothing is
    left and nothing is added. -/
theorem upgrade_keeps_remaining_iff (plan : env.plans.find? nextPlan.code = some nextPlan) (counted : Counted a)
    (carryover : 0 ≤ sub.carryoverAddonQuestions) :
    let before := (questionUsageSummary env sub a).remainingTotal
    let changed := applyImmediatePlanChange env sub nextPlan period paidUntil a
    (questionUsageSummary env changed.1 changed.2).remainingTotal = before + nextPlan.includedQuestionsMonthly ↔
      used env a = 0 ∧ 0 ≤ before + nextPlan.includedQuestionsMonthly ∨ before + nextPlan.includedQuestionsMonthly = 0 := by
  intro before changed
  have nonneg := counted.used_nonneg env
  rw [remainingTotal_changed plan, carriedOver_eq_remaining counted carryover]
  change max 0 (nextPlan.includedQuestionsMonthly + before - used env a) = before + nextPlan.includedQuestionsMonthly ↔ _
  generalize used env a = u at nonneg ⊢
  omega

end

def on (day : Int) : Env := Env.seeded (midnight day)

def pro : BillingPlan := questionPlan "pro" "Pro" 1890000 150 0

/-- The starter plan since day 20000. -/
def starter (paidUntil : Option Int) (carryover : Int) : Subscription :=
  { planCode := "starter", billingPeriod := .monthly, status := .active, trialStartedAt := none
    trialEndsAt := paidUntil, carryoverAddonQuestions := carryover, createdAt := midnight 20000
    updatedAt := midnight 20000 }

/-- A tenant with a subscription that has asked `questions` in the month of day 20010. -/
def acme (sub : Subscription) (questions : Int) : Account :=
  { Account.created "acme" "Acme" (midnight 20000) with
    subscription := some sub
    questionTotals := [((on 20010).currentPeriod.key, questions)] }

/-- At the start of a month nothing is lost: 40 of the old plan and 10 extra remain, and 150 are added. -/
theorem upgrade_keeps_remaining_when_unused :
    let sub := starter none 10
    let changed := applyImmediatePlanChange (on 20010) sub pro .monthly none (acme sub 0)
    (questionUsageSummary (on 20010) changed.1 changed.2).remainingTotal =
      (questionUsageSummary (on 20010) sub (acme sub 0)).remainingTotal + 150 :=
  (upgrade_keeps_remaining_iff (by decide) (by decide) (by decide)).mpr (by decide)

/-- After 30 of 40 questions, 10 remain; with the 150 of the new plan 130 are shown, not 160. -/
theorem upgrade_loses_remaining :
    ¬∀ (env : Env) (sub : Subscription) (nextPlan : BillingPlan) (period : BillingPeriod) (paidUntil : Option Int)
        (a : Account), env.plans.find? nextPlan.code = some nextPlan → Counted a → 0 ≤ sub.carryoverAddonQuestions →
      let changed := applyImmediatePlanChange env sub nextPlan period paidUntil a
      (questionUsageSummary env changed.1 changed.2).remainingTotal =
        (questionUsageSummary env sub a).remainingTotal + nextPlan.includedQuestionsMonthly := by
  intro h
  have kept := h (on 20010) (starter none 0) pro .monthly none (acme (starter none 0) 30) (by decide) (by decide) (by decide)
  exact absurd kept (by decide)

/-! ### A change to the plan that is held -/

/-- What a change of the plan to itself should leave alone. -/
structure Terms where
  planCode : String
  billingPeriod : BillingPeriod
  trialEndsAt : Option Int
  carryoverAddonQuestions : Int
  deriving DecidableEq, Repr

def SubscriptionData.terms (s : SubscriptionData) : Terms :=
  ⟨s.planCode, s.billingPeriod, s.trialEndsAt, s.carryoverAddonQuestions⟩

def terms (a : Account) : Option Terms := a.subscription.map (SubscriptionData.terms ·.toSubscriptionData)

def update (env : Env) (ctx : TenantContext) (planCode billingPeriod : String) (a : Account) : Account :=
  after (updateSubscription env ctx planCode billingPeriod) a

/-- The call asks for the plan and the period of the subscription. -/
def AsksForHeld (planCode billingPeriod : String) (sub : Subscription) : Prop :=
  Text.stripLower planCode = sub.planCode ∧ normalizeBillingPeriod billingPeriod = sub.billingPeriod

instance (planCode billingPeriod : String) (sub : Subscription) : Decidable (AsksForHeld planCode billingPeriod sub) :=
  inferInstanceAs (Decidable (_ ∧ _))

/-- The same call at another time. -/
def again (env : Env) (now : Int) : Env := { env with now, utcnow := now }

/-- A call for what is held changes no terms, and a call repeated at time `later` changes no terms once more. -/
def NoOp (env : Env) (ctx : TenantContext) (planCode billingPeriod : String) (later : Int) (sub : Subscription)
    (a : Account) : Prop :=
  (AsksForHeld planCode billingPeriod sub → terms (update env ctx planCode billingPeriod a) = terms a) ∧
    terms (update (again env later) ctx planCode billingPeriod (update env ctx planCode billingPeriod a)) =
      terms (update env ctx planCode billingPeriod a)

/-- The allowance of a plan is used up exactly, or passed with nothing carried over. -/
def Exhausts (asked allowance carryover : Int) : Prop := asked = allowance ∨ carryover = 0 ∧ allowance ≤ asked

instance (asked allowance carryover : Int) : Decidable (Exhausts asked allowance carryover) :=
  inferInstanceAs (Decidable (_ ∨ _))

/-- When a call for what is held changes no terms. -/
def HeldSafe (env : Env) (sub : Subscription) (a : Account) : Prop :=
  env.plans.find? sub.planCode = none ∨
    sub.trialEndsAt = none ∧ 0 ≤ sub.carryoverAddonQuestions ∧
      Exhausts (used env a) (quota env sub.planCode) sub.carryoverAddonQuestions

/-- When a call repeated at time `later` changes no terms. -/
def RepeatSafe (env : Env) (planCode billingPeriod : String) (later : Int) (sub : Subscription) (a : Account) : Prop :=
  ∀ plan ∈ env.plans.find? (Text.stripLower planCode),
    isScheduledChange sub.toSubscriptionData plan.code (normalizeBillingPeriod billingPeriod) env.plans = true ∨
      Exhausts (used (again env later) a) plan.includedQuestionsMonthly (carriedOver env sub a)

instance (env : Env) (sub : Subscription) (a : Account) : Decidable (HeldSafe env sub a) :=
  inferInstanceAs (Decidable (_ ∨ _ ∧ _ ∧ _))

instance (env : Env) (planCode billingPeriod : String) (later : Int) (sub : Subscription) (a : Account) :
    Decidable (RepeatSafe env planCode billingPeriod later sub a) :=
  inferInstanceAs (Decidable (∀ plan ∈ env.plans.find? (Text.stripLower planCode), _ ∨ _))

section
variable {env : Env} {ctx : TenantContext} {planCode billingPeriod : String} {later : Int} {sub : Subscription}
  {plan : BillingPlan} {period : BillingPeriod} {a : Account}

theorem exhausts_iff {asked allowance carryover : Int} (h : 0 ≤ carryover) :
    max 0 (allowance + max 0 carryover - asked) = carryover ↔ Exhausts asked allowance carryover := by
  unfold Exhausts
  omega

theorem isScheduledChange_congr {s t : SubscriptionData} (code : s.planCode = t.planCode)
    (held : s.billingPeriod = t.billingPeriod) (nextCode : String) (nextPeriod : BillingPeriod) (plans : PlanCatalog) :
    isScheduledChange s nextCode nextPeriod plans = isScheduledChange t nextCode nextPeriod plans := by
  simp only [isScheduledChange, isDowngrade, code, held]

theorem isScheduledChange_self (s : SubscriptionData) (plans : PlanCatalog) :
    isScheduledChange s s.planCode s.billingPeriod plans = false := by
  simp [isScheduledChange, isDowngrade, isBillingPeriodDowngrade]

theorem code_of_find? (h : env.plans.find? planCode = some plan) : plan.code = planCode := by
  simpa using List.find?_some h

theorem schedulePlanChange_subscription (env : Env) (sub : Subscription) (plan : BillingPlan) (period : BillingPeriod)
    (a : Account) : ∃ row, (schedulePlanChange env sub plan period a).subscription = some row ∧
      SubscriptionData.terms row.toSubscriptionData = SubscriptionData.terms sub.toSubscriptionData := by
  unfold schedulePlanChange Account.upsertSubscription
  cases a.subscription with
  | none => exact ⟨_, rfl, rfl⟩
  | some old => exact ⟨_, rfl, rfl⟩

theorem applyImmediatePlanChange_subscription (env : Env) (sub : Subscription) (plan : BillingPlan)
    (period : BillingPeriod) (paidUntil : Option Int) (a : Account) :
    ∃ row, (applyImmediatePlanChange env sub plan period paidUntil a).2.subscription = some row ∧
      SubscriptionData.terms row.toSubscriptionData =
        ⟨plan.code, period, if plan.code = "free" then sub.trialEndsAt else paidUntil, carriedOver env sub a⟩ := by
  unfold applyImmediatePlanChange Account.upsertSubscription
  cases a.subscription with
  | none => exact ⟨_, rfl, by simp [immediatePlanData, SubscriptionData.terms, carriedOver]⟩
  | some old => exact ⟨_, rfl, by simp [immediatePlanData, SubscriptionData.terms, carriedOver]⟩

theorem held_iff (hs : a.subscription = some sub) (paid : sub.planCode ≠ "free") (counted : Counted a)
    (asks : AsksForHeld planCode billingPeriod sub) :
    terms (update env ctx planCode billingPeriod a) = terms a ↔ HeldSafe env sub a := by
  obtain ⟨code, held⟩ := asks
  cases hp : env.plans.find? sub.planCode with
  | none =>
    unfold update
    rw [after_updateSubscription_of_unknown (code ▸ hp)]
    exact iff_of_true rfl (.inl hp)
  | some plan =>
    have planIs := code_of_find? hp
    have changed : update env ctx planCode billingPeriod a =
        (applyImmediatePlanChange env sub plan sub.billingPeriod none a).2 := by
      unfold update
      rw [after_updateSubscription_of_some _ _ _ (code ▸ hp) hs (.inl paid), held, planIs, isScheduledChange_self,
        if_neg Bool.false_ne_true]
    obtain ⟨row, hrow, hterms⟩ := applyImmediatePlanChange_subscription env sub plan sub.billingPeriod none a
    have newTerms : terms (update env ctx planCode billingPeriod a) =
        some ⟨sub.planCode, sub.billingPeriod, none, carriedOver env sub a⟩ := by
      rw [changed, terms, hrow, Option.map_some, hterms, planIs, if_neg paid]
    have oldTerms : terms a =
        some ⟨sub.planCode, sub.billingPeriod, sub.trialEndsAt, sub.carryoverAddonQuestions⟩ := by
      rw [terms, hs]
      rfl
    have carried : carriedOver env sub a = sub.carryoverAddonQuestions ↔
        0 ≤ sub.carryoverAddonQuestions ∧ Exhausts (used env a) (quota env sub.planCode) sub.carryoverAddonQuestions := by
      rw [carriedOver_eq counted]
      constructor
      · intro h
        have nonneg : 0 ≤ sub.carryoverAddonQuestions := h ▸ le_max_left 0 _
        exact ⟨nonneg, (exhausts_iff nonneg).mp h⟩
      · rintro ⟨nonneg, h⟩
        exact (exhausts_iff nonneg).mpr h
    rw [newTerms, oldTerms, HeldSafe, hp]
    simp only [Option.some.injEq, Terms.mk.injEq, true_and, reduceCtorEq, false_or, carried]
    exact and_congr_left fun _ => eq_comm

variable (env ctx) in
/-- A second call with the same plan is an immediate change from that plan to itself. -/
theorem terms_repeated {changed : Account} {row : Subscription}
    (hp : env.plans.find? (Text.stripLower planCode) = some plan) (hrow : changed.subscription = some row)
    (code : row.planCode = plan.code) (held : row.billingPeriod = normalizeBillingPeriod billingPeriod)
    (counted : Counted changed) :
    terms (update env ctx planCode billingPeriod changed) =
      some ⟨plan.code, normalizeBillingPeriod billingPeriod, if plan.code = "free" then row.trialEndsAt else none,
        max 0 (plan.includedQuestionsMonthly + max 0 row.carryoverAddonQuestions - used env changed)⟩ := by
  have notFirst : row.planCode ≠ "free" ∨ plan.code = "free" := by
    rw [code]
    exact (em (plan.code = "free")).symm
  have unscheduled : isScheduledChange row.toSubscriptionData plan.code (normalizeBillingPeriod billingPeriod)
      env.plans = false := by
    rw [← code, ← held, isScheduledChange_self]
  have found : env.plans.find? plan.code = some plan := by rw [code_of_find? hp, hp]
  obtain ⟨row', hrow', hterms'⟩ :=
    applyImmediatePlanChange_subscription env row plan (normalizeBillingPeriod billingPeriod) none changed
  unfold update
  rw [after_updateSubscription_of_some env ctx billingPeriod hp hrow notFirst, unscheduled, if_neg Bool.false_ne_true, terms, hrow',
    Option.map_some, hterms', carriedOver_eq counted, code, quota_of_find? found]

theorem repeat_iff (hs : a.subscription = some sub) (paid : sub.planCode ≠ "free") (counted : Counted a) :
    terms (update (again env later) ctx planCode billingPeriod (update env ctx planCode billingPeriod a)) =
        terms (update env ctx planCode billingPeriod a) ↔
      RepeatSafe env planCode billingPeriod later sub a := by
  cases hp : env.plans.find? (Text.stripLower planCode) with
  | none =>
    have unknown : ∀ e b, e.plans = env.plans → update e ctx planCode billingPeriod b = b := fun e b he =>
      after_updateSubscription_of_unknown (by rw [he, hp])
    rw [unknown env a rfl, unknown (again env later) a rfl, RepeatSafe, hp]
    exact iff_of_true rfl fun plan h => nomatch h
  | some plan =>
    have safe : RepeatSafe env planCode billingPeriod later sub a ↔
        isScheduledChange sub.toSubscriptionData plan.code (normalizeBillingPeriod billingPeriod) env.plans = true ∨
          Exhausts (used (again env later) a) plan.includedQuestionsMonthly (carriedOver env sub a) := by
      simp [RepeatSafe, hp]
    have first := after_updateSubscription_of_some env ctx billingPeriod hp hs (.inl paid)
    change update env ctx planCode billingPeriod a = _ at first
    rw [safe, first]
    cases hc : isScheduledChange sub.toSubscriptionData plan.code (normalizeBillingPeriod billingPeriod) env.plans with
    | true =>
      -- scheduled once, and once more
      rw [if_pos rfl]
      obtain ⟨row, hrow, hterms⟩ :=
        schedulePlanChange_subscription env sub plan (normalizeBillingPeriod billingPeriod) a
      generalize schedulePlanChange env sub plan (normalizeBillingPeriod billingPeriod) a = changed at hrow
      have code : row.planCode = sub.planCode := congrArg Terms.planCode hterms
      have held : row.billingPeriod = sub.billingPeriod := congrArg Terms.billingPeriod hterms
      have second := after_updateSubscription_of_some (again env later) ctx billingPeriod hp hrow (.inl (code ▸ paid))
      change update (again env later) ctx planCode billingPeriod changed = _ at second
      rw [isScheduledChange_congr code held, show (again env later).plans = env.plans from rfl, hc, if_pos rfl] at second
      obtain ⟨row', hrow', hterms'⟩ := schedulePlanChange_subscription (again env later) row plan
        (normalizeBillingPeriod billingPeriod) changed
      have same : terms (update (again env later) ctx planCode billingPeriod changed) = terms changed := by
        rw [second, terms, terms, hrow', hrow, Option.map_some, Option.map_some, hterms']
      exact iff_of_true same (.inl rfl)
    | false =>
      rw [if_neg Bool.false_ne_true]
      obtain ⟨row, hrow, hterms⟩ :=
        applyImmediatePlanChange_subscription env sub plan (normalizeBillingPeriod billingPeriod) none a
      have countedAfter : Counted (applyImmediatePlanChange env sub plan (normalizeBillingPeriod billingPeriod) none a).2 :=
        counted
      have usedAfter : used (again env later)
          (applyImmediatePlanChange env sub plan (normalizeBillingPeriod billingPeriod) none a).2 =
            used (again env later) a := rfl
      generalize (applyImmediatePlanChange env sub plan (normalizeBillingPeriod billingPeriod) none a).2 = changed
        at hrow countedAfter usedAfter
      have rowTerms := hterms
      simp only [SubscriptionData.terms, Terms.mk.injEq] at rowTerms
      obtain ⟨code, held, paidUntil, carried⟩ := rowTerms
      have nonneg : 0 ≤ carriedOver env sub a := by
        rw [carriedOver_eq counted]
        exact le_max_left 0 _
      have second := terms_repeated (again env later) ctx hp hrow code held countedAfter
      have keptDate : (if plan.code = "free" then if plan.code = "free" then sub.trialEndsAt else none else none) =
          if plan.code = "free" then sub.trialEndsAt else none := by
        split <;> rfl
      rw [second, usedAfter, terms, hrow, Option.map_some, hterms, carried, paidUntil, keptDate]
      simp only [Option.some.injEq, Terms.mk.injEq, true_and, Bool.false_eq_true, false_or, exhausts_iff nonneg]

/-- On a paid subscription, a call for the plan held changes no terms exactly when its paid-until date is empty and
    its allowance used up; a repeated call exactly when it is scheduled, or the allowance it asks for is used up. -/
theorem update_noop_iff (hs : a.subscription = some sub) (paid : sub.planCode ≠ "free") (counted : Counted a) :
    NoOp env ctx planCode billingPeriod later sub a ↔
      (AsksForHeld planCode billingPeriod sub → HeldSafe env sub a) ∧
        RepeatSafe env planCode billingPeriod later sub a :=
  and_congr (imp_congr_right fun asks => held_iff hs paid counted asks) (repeat_iff hs paid counted)

end

/-- With 40 of 40 questions asked and no paid-until date, the starter plan is changed to itself without effect. -/
theorem update_noop_when_exhausted :
    let sub := starter none 10
    NoOp (on 20010) (acme sub 40).snapshot " Starter " "monthly" (midnight 20010 + 1) sub (acme sub 40) :=
  (update_noop_iff rfl (by decide) (by decide)).mpr (by decide)

/-- Paid until day 20031 and 30 of 40 questions asked: the paid-until date is lost, and 10 questions are added with
    every call. -/
theorem update_not_noop :
    ¬∀ (env : Env) (ctx : TenantContext) (planCode billingPeriod : String) (later : Int) (sub : Subscription) (a : Account),
      a.subscription = some sub → sub.planCode ≠ "free" → Counted a → NoOp env ctx planCode billingPeriod later sub a := by
  intro h
  have noop := h (on 20010) (acme (starter (some (midnight 20031)) 0) 30).snapshot "starter" "monthly" (midnight 20010 + 1)
    (starter (some (midnight 20031)) 0) (acme (starter (some (midnight 20031)) 0) 30) rfl (by decide) (by decide)
  exact absurd (noop.1 (by decide)) (by decide)

end NyzRating.Billing.ImmediateChange
