import NyzRating.Billing.Effects
import NyzRating.Billing.FreeUpgrade

/-!
# How the entry points classify a change of plan

`update_subscription` defers what `is_scheduled_change` says. The checkout and the payment events test for a downgrade of
the plan alone, so they apply a change to a shorter period of the same plan at once.
-/

namespace NyzRating.Billing.ChangeClass

open Calendar Program FreeUpgrade

/-- The account holds this plan and period. -/
def Applied (planCode : String) (period : BillingPeriod) (a : Account) : Prop := planOf a = some (planCode, period)

instance (planCode : String) (period : BillingPeriod) (a : Account) : Decidable (Applied planCode period a) :=
  inferInstanceAs (Decidable (_ = _))

/-- From this subscription, each entry point applies the change asked for at once only if it is not a scheduled one. -/
structure ClassifiedAlike (plans : PlanCatalog) (sub : Subscription) (planCode billingPeriod : String) : Prop where
  update : ∀ env ctx a, env.plans = plans → a.subscription = some sub →
    Applied (Text.stripLower planCode) (normalizeBillingPeriod billingPeriod)
      (after (updateSubscription env ctx planCode billingPeriod) a) →
    isScheduledChange sub.toSubscriptionData (Text.stripLower planCode) (normalizeBillingPeriod billingPeriod) plans = false
  checkout : ∀ env ctx a, env.plans = plans → a.subscription = some sub →
    Applied (Text.stripLower planCode) (normalizeBillingPeriod billingPeriod)
      (after (completeUpgradeAfterCheckout env ctx planCode billingPeriod) a) →
    isScheduledChange sub.toSubscriptionData (Text.stripLower planCode) (normalizeBillingPeriod billingPeriod) plans = false
  event : ∀ (d : Delivery) (s : PaymentState) k a b, d.env.plans = plans → s.accounts k = some a →
    a.subscription = some sub → d.targetPlan = Text.stripLower planCode →
    d.targetPeriod = normalizeBillingPeriod billingPeriod → (deliver s d).accounts k = some b →
    Applied (Text.stripLower planCode) (normalizeBillingPeriod billingPeriod) b →
    isScheduledChange sub.toSubscriptionData (Text.stripLower planCode) (normalizeBillingPeriod billingPeriod) plans = false

/-- The change is from a plan of the catalog to a shorter period of the same plan. -/
def Shortens (plans : PlanCatalog) (sub : Subscription) (planCode : String) (period : BillingPeriod) : Prop :=
  sub.planCode = planCode ∧ (plans.find? planCode).isSome ∧ isBillingPeriodDowngrade sub.billingPeriod period = true

section
variable {env : Env} {plans : PlanCatalog} {sub : Subscription} {planCode : String} {period : BillingPeriod} {a : Account}

/-- What the subscription holds already is not a scheduled change. -/
theorem unscheduled_of_held (held : planOf a = some (sub.planCode, sub.billingPeriod)) (applied : Applied planCode period a) :
    isScheduledChange sub.toSubscriptionData planCode period plans = false := by
  rw [Applied, held, Option.some.injEq, Prod.mk.injEq] at applied
  obtain ⟨rfl, rfl⟩ := applied
  exact ImmediateChange.isScheduledChange_self sub.toSubscriptionData plans

/-- A change that has a proration is no downgrade of the plan. -/
theorem not_downgrade_of_priced {p : UpgradeProration} (priced : upgradeProration env sub planCode period = some p) :
    (env.plans.find? planCode).isSome ∧ isDowngrade sub.toSubscriptionData planCode env.plans = false := by
  unfold upgradeProration computeUpgradeProration at priced
  obtain ⟨plan, found, priced⟩ := Option.bind_eq_some_iff.mp priced
  obtain ⟨⟨⟩, guarded, -⟩ := Option.bind_eq_some_iff.mp priced
  refine ⟨Option.isSome_iff_exists.mpr ⟨plan, found⟩, ?_⟩
  simpa using guarded

/-- So where the proration exists, the change is scheduled only if it shortens the period of the same plan. -/
theorem unscheduled_of_priced {p : UpgradeProration} (priced : upgradeProration env sub planCode period = some p)
    (other : ¬Shortens env.plans sub planCode period) :
    isScheduledChange sub.toSubscriptionData planCode period env.plans = false := by
  obtain ⟨found, upward⟩ := not_downgrade_of_priced priced
  rw [isScheduledChange, upward, Bool.false_or, Bool.and_eq_false_iff, decide_eq_false_iff_not]
  by_cases same : sub.planCode = planCode
  · have shorter : isBillingPeriodDowngrade sub.billingPeriod period ≠ true := fun h => other ⟨same, found, h⟩
    exact .inr (by simpa using shorter)
  · exact .inl same

end

/-! ### The three entry points -/

section
variable {plans : PlanCatalog} {sub : Subscription} {planCode billingPeriod : String}

theorem update_classifies (env : Env) (ctx : TenantContext) (a : Account) (catalog : env.plans = plans)
    (hs : a.subscription = some sub)
    (applied : Applied (Text.stripLower planCode) (normalizeBillingPeriod billingPeriod)
      (after (updateSubscription env ctx planCode billingPeriod) a)) :
    isScheduledChange sub.toSubscriptionData (Text.stripLower planCode) (normalizeBillingPeriod billingPeriod) plans = false := by
  have form := updateSubscription_updated env ctx planCode billingPeriod a
  rw [ensureSubscription_of_some hs] at form
  subst catalog
  generalize after (updateSubscription env ctx planCode billingPeriod) a = b at form applied
  generalize normalizeBillingPeriod billingPeriod = period at form applied
  cases form with
  | unknown none => exact unscheduled_of_held (planOf_of_some hs) applied
  | refused => exact unscheduled_of_held (planOf_of_some hs) applied
  | scheduled found deferred => exact unscheduled_of_held planOf_schedulePlanChange applied
  | applied found now => exact ImmediateChange.code_of_find? found ▸ now
  | charged found now => exact ImmediateChange.code_of_find? found ▸ now

theorem checkout_classifies (other : ¬Shortens plans sub (Text.stripLower planCode) (normalizeBillingPeriod billingPeriod))
    (env : Env) (ctx : TenantContext) (a : Account) (catalog : env.plans = plans) (hs : a.subscription = some sub)
    (applied : Applied (Text.stripLower planCode) (normalizeBillingPeriod billingPeriod)
      (after (completeUpgradeAfterCheckout env ctx planCode billingPeriod) a)) :
    isScheduledChange sub.toSubscriptionData (Text.stripLower planCode) (normalizeBillingPeriod billingPeriod) plans = false := by
  have form := completeUpgradeAfterCheckout_upgraded env ctx planCode billingPeriod a
  rw [ensureSubscription_of_some hs] at form
  subst catalog
  generalize after (completeUpgradeAfterCheckout env ctx planCode billingPeriod) a = b at form applied
  generalize normalizeBillingPeriod billingPeriod = period at form applied other
  cases form with
  | unchanged => exact unscheduled_of_held (planOf_of_some hs) applied
  | applied found paid priced => exact unscheduled_of_priced (ImmediateChange.code_of_find? found ▸ priced) other
  | charged found paid priced => exact unscheduled_of_priced (ImmediateChange.code_of_find? found ▸ priced) other

theorem event_classifies (d : Delivery) (s : PaymentState) {k : Nat} {a b : Account} (ha : s.accounts k = some a)
    (hs : a.subscription = some sub) (other : ¬Shortens d.env.plans sub d.targetPlan d.targetPeriod)
    (hb : (deliver s d).accounts k = some b) (applied : Applied d.targetPlan d.targetPeriod b) :
    isScheduledChange sub.toSubscriptionData d.targetPlan d.targetPeriod d.env.plans = false := by
  obtain ⟨a', ha', form⟩ := deliver_delivered s d hb
  cases ha.symm.trans ha'
  have held : planOf a = some (sub.planCode, sub.billingPeriod) := planOf_of_some hs
  have preview : ∀ p, d.preview a = some p → upgradeProration d.env sub d.targetPlan d.targetPeriod = some p := by
    intro p priced
    rwa [Delivery.preview, ensureSubscription_of_some hs] at priced
  cases form with
  | untouched => exact unscheduled_of_held held applied
  | ensured =>
    rw [ensureSubscription_of_some hs] at applied
    exact unscheduled_of_held held applied
  | changed priced => exact unscheduled_of_priced (preview _ priced) other
  | synced priced => exact unscheduled_of_priced (preview _ priced) other
  | booked priced => exact unscheduled_of_priced (preview _ priced) other

end

/-! ### A change that is applied at once -/

/-- A new upgrade event that nothing hinders moves its tenant to the target. -/
theorem applyVerifiedUpgrade_moves {d : Delivery} {e : PaymentEvent} {t : PaymentState} {a : Account} {p : UpgradeProration}
    (quiet : ∀ step, d.fault step = none) (stored : t.accounts e.tenantId = some a) (priced : d.preview a = some p) :
    HasAccount e.tenantId (Applied d.targetPlan d.targetPeriod) (after (applyVerifiedUpgrade d e) t) := by
  have look : (do return (← get).accounts e.tenantId : PaymentM (Option Account)).run t = .ok (some a) t := by
    rw [← stored]
    rfl
  unfold applyVerifiedUpgrade
  simp only [Delivery.attempt]
  rw [after_attempt_bind_of_none (quiet _) look]
  simp only
  rw [after_attempt_bind_of_none (quiet _) (EStateM.run_modify _ _)]
  rw [after_attempt_bind_of_none (quiet _) (EStateM.run_pure _ _)]
  have plan : (d.env.plans.getOrFree d.targetPlan).code = d.targetPlan := upgradeProration_plan priced
  unfold Delivery.preview at priced
  rw [priced]
  simp only
  rw [after_attempt_bind_of_none (quiet _) (EStateM.run_modify _ _)]
  rw [after_attempt_bind_of_none (quiet _) (EStateM.run_modify _ _)]
  refine (bookVerifiedUpgrade_planOf ?_ : Leads (HasAccount e.tenantId (planOf · = some (d.targetPlan, d.targetPeriod))) _ _)
    _ (.store ?_ _)
  · exact (planOf_upsertSubscription ..).trans (by rw [immediatePlanData, plan])
  · exact (planOf_upsertSubscription ..).trans (by rw [immediatePlanData, plan])

/-- A payment for a change to this plan and period. -/
def payment (plans : PlanCatalog) (planCode billingPeriod : String) : Delivery where
  env := { Env.seeded 0 with plans }
  provider := "stripe_test"
  eventId := "evt_1"
  eventType := "invoice.paid"
  payload :=
    { metadataTenantId := .value 1, metadataFlow := some "plan_upgrade", targetPlan := some planCode
      billingPeriod := some billingPeriod, metadataAmountCents := .falsy }

/-- One tenant with this subscription. -/
def subscribed (sub : Subscription) : PaymentState where
  accounts k := if k = 1 then some { Account.created "acme" "Acme" 0 with subscription := some sub } else none

theorem orText_some (text other : String) (same : Text.stripLower other = Text.stripLower "") :
    Text.stripLower (orText (some text) other) = Text.stripLower text := by
  by_cases empty : text = ""
  · rw [empty]
    exact same
  · rw [orText, Option.filter_some_pos (by simpa using empty), Option.getD_some]

theorem payment_targetPlan (plans : PlanCatalog) (planCode billingPeriod : String) :
    (payment plans planCode billingPeriod).targetPlan = Text.stripLower planCode := orText_some planCode _ rfl

theorem payment_targetPeriod (plans : PlanCatalog) (planCode billingPeriod : String) :
    (payment plans planCode billingPeriod).targetPeriod = normalizeBillingPeriod billingPeriod := by
  have default : normalizeBillingPeriod "monthly" = normalizeBillingPeriod "" := by decide
  change normalizeBillingPeriod (orText (some billingPeriod) "monthly") = normalizeBillingPeriod billingPeriod
  by_cases empty : billingPeriod = ""
  · rw [empty, ← default]
    exact congrArg normalizeBillingPeriod (rfl : orText (some "") "monthly" = "monthly")
  · rw [orText, Option.filter_some_pos (by simpa using empty), Option.getD_some]

/-- A shortened period has a proration: the plan does not go down, and the period differs. -/
theorem priced_of_shortens {env : Env} {sub : Subscription} {planCode : String} {period : BillingPeriod}
    (shortens : Shortens env.plans sub planCode period) : ∃ p, upgradeProration env sub planCode period = some p := by
  obtain ⟨rfl, found, shorter⟩ := shortens
  obtain ⟨plan, found⟩ := Option.isSome_iff_exists.mp found
  have upward : isDowngrade sub.toSubscriptionData sub.planCode env.plans = false := by simp [isDowngrade]
  have differs : sub.billingPeriod ≠ period := by
    rintro rfl
    simp [isBillingPeriodDowngrade] at shorter
  refine Option.isSome_iff_exists.mp ?_
  simp [upgradeProration, computeUpgradeProration, found, upward, differs]

/-- A shortened period is deferred by `update_subscription`. -/
theorem scheduled_of_shortens {plans : PlanCatalog} {sub : Subscription} {planCode : String} {period : BillingPeriod}
    (shortens : Shortens plans sub planCode period) :
    isScheduledChange sub.toSubscriptionData planCode period plans = true := by
  obtain ⟨same, -, shorter⟩ := shortens
  simp [isScheduledChange, same, shorter]

/-- A payment event applies it. -/
theorem payment_moves {plans : PlanCatalog} {sub : Subscription} {planCode billingPeriod : String}
    (shortens : Shortens plans sub (Text.stripLower planCode) (normalizeBillingPeriod billingPeriod)) :
    HasAccount 1 (Applied (Text.stripLower planCode) (normalizeBillingPeriod billingPeriod))
      (deliver (subscribed sub) (payment plans planCode billingPeriod)) := by
  have plan := payment_targetPlan plans planCode billingPeriod
  have period := payment_targetPeriod plans planCode billingPeriod
  have named : ¬((payment plans planCode billingPeriod).normalizedProvider = "" ∨
      (payment plans planCode billingPeriod).normalizedEventId = "") :=
    (by decide : ¬(Text.stripLower "stripe_test" = "" ∨ String.ofList (Text.strip "evt_1".toList) = ""))
  have upgrade : (payment plans planCode billingPeriod).isUpgrade = true :=
    (by decide : (payment defaultPlans "" "").isUpgrade = true)
  have tenant : (payment plans planCode billingPeriod).tenantId = some 1 := rfl
  have quiet : ∀ step, (payment plans planCode billingPeriod).fault step = none := fun _ => rfl
  have catalog : (payment plans planCode billingPeriod).env.plans = plans := rfl
  rw [← plan, ← period] at shortens ⊢
  generalize payment plans planCode billingPeriod = d at *
  subst catalog
  obtain ⟨p, priced⟩ := priced_of_shortens shortens
  obtain ⟨row, s, insert, own, same⟩ : ∃ row s, (recordPaymentEventOnce d.normalizedProvider d.normalizedEventId
      d.normalizedEventType 1).run (subscribed sub) = .ok (row, true) s ∧ row.tenantId = 1 ∧
        s.accounts = (subscribed sub).accounts := ⟨_, _, rfl, rfl, rfl⟩
  have stored : s.accounts row.tenantId = some { Account.created "acme" "Acme" 0 with subscription := some sub } := by
    rw [same, own]
    rfl
  have moves := applyVerifiedUpgrade_moves quiet stored priced
  rw [own] at moves
  unfold deliver processVerifiedPaymentEvent
  rw [if_neg named, tenant]
  simp only [Delivery.attempt]
  rw [if_neg (by decide), Int.toNat_one, after_attempt_bind_of_none (quiet _) insert]
  simp only [upgrade]
  exact moves

/-- The entry points classify a change alike exactly when it does not shorten the period of a plan that is kept. -/
theorem classifiedAlike_iff (plans : PlanCatalog) (sub : Subscription) (planCode billingPeriod : String) :
    ClassifiedAlike plans sub planCode billingPeriod ↔
      ¬Shortens plans sub (Text.stripLower planCode) (normalizeBillingPeriod billingPeriod) := by
  constructor
  · intro alike shortens
    obtain ⟨b, hb, moved⟩ := payment_moves shortens
    have unscheduled := alike.event (payment plans planCode billingPeriod) (subscribed sub) 1 _ b rfl rfl rfl
      (payment_targetPlan ..) (payment_targetPeriod ..) hb moved
    rw [scheduled_of_shortens shortens] at unscheduled
    cases unscheduled
  · intro other
    refine ⟨fun env ctx a => update_classifies env ctx a, fun env ctx a => checkout_classifies other env ctx a, ?_⟩
    rintro d s k a b rfl ha hs plan period hb applied
    rw [← plan, ← period] at applied other ⊢
    exact event_classifies d s ha hs other hb applied

/-- The plan `pro`, paid for a year. -/
def yearly : Subscription :=
  { planCode := "pro", billingPeriod := .yearly, status := .active, trialStartedAt := none
    trialEndsAt := some (midnight 20365), createdAt := midnight 20000, updatedAt := midnight 20000 }

/-- `update_subscription` defers the change to a month of the same plan, the checkout applies it. -/
theorem classified_differently :
    ¬∀ (plans : PlanCatalog) (sub : Subscription) (planCode billingPeriod : String),
      ClassifiedAlike plans sub planCode billingPeriod := by
  intro alike
  let a : Account := { Account.created "acme" "Acme" (midnight 20000) with subscription := some yearly }
  have applied : Applied "pro" .monthly (after (completeUpgradeAfterCheckout (Env.seeded (midnight 20010)) a.snapshot
      "pro" "monthly") a) := by decide +kernel
  have scheduled : isScheduledChange yearly.toSubscriptionData "pro" .monthly defaultPlans = true := by decide
  have target : Text.stripLower "pro" = "pro" ∧ normalizeBillingPeriod "monthly" = .monthly := by decide
  have unscheduled := (alike defaultPlans yearly "pro" "monthly").checkout (Env.seeded (midnight 20010)) a.snapshot a rfl rfl
  rw [target.1, target.2] at unscheduled
  exact Bool.false_ne_true ((unscheduled applied).symm.trans scheduled)

end NyzRating.Billing.ChangeClass
