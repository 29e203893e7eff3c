import NyzRating.Billing.Subscription

/-!
# Plan changes by the owner

Immediate and scheduled changes of the plan, and addons.
-/

namespace NyzRating.Billing

open Calendar Program

/-- The usage of the current month against the quota of the plan. -/
structure QuestionUsageSummary where
  periodKey : MonthKey
  usedTotal : Int
  monthlyIncluded : Int
  remainingIncluded : Int
  addonCarryover : Int
  remainingAddons : Int
  remainingTotal : Int
  availableTotal : Int
  deriving DecidableEq, Repr

def questionUsageSummary (env : Env) (sub : Subscription) (a : Account) : QuestionUsageSummary :=
  let used := a.questionsUsedInPeriod env.currentPeriod.key
  let included := (env.plans.getOrFree sub.planCode).includedQuestionsMonthly
  let available := included + sub.carryoverAddonQuestions
  { periodKey := env.currentPeriod.key
    usedTotal := used
    monthlyIncluded := included
    remainingIncluded := max 0 (included - used)
    addonCarryover := sub.carryoverAddonQuestions
    remainingAddons := max 0 (sub.carryoverAddonQuestions - max 0 (used - included))
    remainingTotal := max 0 (available - used)
    availableTotal := available }

def smsCarryoverFromStartedMonth (env : Env) (sub : Subscription) (a : Account) : Int :=
  questionsCarryoverFromStartedMonth (env.plans.getOrFree sub.planCode).includedQuestionsMonthly
    (a.questionsUsedInPeriod env.currentPeriod.key)

/-- The subscription after an immediate change: what is left of the started month and of the addons is carried
    over, and a scheduled change is dropped. -/
def immediatePlanData (env : Env) (sub : Subscription) (nextPlan : BillingPlan) (period : BillingPeriod)
    (paidUntil : Option Int) (a : Account) : SubscriptionData :=
  let isFree : Bool := nextPlan.code = "free"
  { sub.toSubscriptionData with
    planCode := nextPlan.code
    billingPeriod := period
    status := if isFree then .trial else .active
    trialStartedAt := if isFree then sub.trialStartedAt else none
    trialEndsAt := if isFree then sub.trialEndsAt else paidUntil
    carryoverTrainingChars := max sub.carryoverTrainingChars nextPlan.includedTrainingChars
    carryoverAddonQuestions := (questionUsageSummary env sub a).remainingAddons + smsCarryoverFromStartedMonth env sub a
    scheduledPlanCode := none
    scheduledBillingPeriod := none
    scheduledChangeEffectivePeriod := none }

/-- `_apply_immediate_plan_change`. -/
def applyImmediatePlanChange (env : Env) (sub : Subscription) (nextPlan : BillingPlan) (period : BillingPeriod)
    (paidUntil : Option Int) (a : Account) : Subscription × Account :=
  let (updated, a) := a.upsertSubscription env.utcnow (immediatePlanData env sub nextPlan period paidUntil a)
  (updated, syncTenantConfig env updated a)

def upgradeProration (env : Env) (sub : Subscription) (plan : String) (period : BillingPeriod) :
    Option UpgradeProration :=
  computeUpgradeProration sub.toSubscriptionData plan period env.plans (dateOf env.currentPeriod.stop) env.today

/-- `_require_billing_profile_for_paid_checkout`. -/
def requireBillingProfile (env : Env) : AccountM Unit := do
  let blank (text : String) : Bool := (Text.strip text.toList).isEmpty
  let p := env.billingProfile
  if blank p.companyName || blank p.taxId || blank p.addressLine || blank p.postalCode || blank p.city then
    throw (.valueError "Az első csomag megvásárlásához add meg és mentsd el a cégadatokat.")
  if !p.taxIdIsValid then
    throw (.valueError "Érvénytelen adószám. Add meg a teljes 11 jegyű magyar adószámot (pl. 12892312-1-42).")

inductive UpdateStatus where
  | scheduled
  | updated
  deriving DecidableEq, Repr

/-- `update_subscription`. A downgrade is scheduled for the end of the paid period; the first paid plan after
    the free one is charged; any other change is applied at once. -/
def updateSubscription (env : Env) (ctx : TenantContext) (planCode billingPeriod : String) : AccountM UpdateStatus := do
  match env.plans.find? (Text.stripLower planCode) with
  | none => throw (.valueError "Ismeretlen csomag.")
  | some plan =>
    let period := normalizeBillingPeriod billingPeriod
    let sub ← modifyGet (ensureSubscription env ctx)
    let a ← get
    if isScheduledChange sub.toSubscriptionData plan.code period env.plans then
      modify fun a =>
        let (updated, a) := a.upsertSubscription env.utcnow
          { sub.toSubscriptionData with
            scheduledPlanCode := some plan.code
            scheduledBillingPeriod := some period
            scheduledChangeEffectivePeriod := some (.day (subscriptionDueDate sub a)) }
        syncTenantConfig env updated a
      return .scheduled
    let wasFreeCheckout : Bool := sub.planCode = "free" && plan.code ≠ "free"
    if wasFreeCheckout then requireBillingProfile env
    let paidUntil := if wasFreeCheckout then some (paidUntilAfterUpgrade env.today period) else none
    let _ ← modifyGet (applyImmediatePlanChange env sub plan period (paidUntil.map midnight))
    if wasFreeCheckout && (a.getInvoice .monthlySubscription (.ofTime env.now)).isNone then
      let unitPrice := planMonthlyChargeCentsAfterDiscount plan.priceCents period
      let planTotal := unitPrice * billingPeriodMultiplier period
      let fee := trainingInitialFeeCentsForPlan plan.code
      let line : InvoiceLine :=
        { code := some plan.code, name := plan.name, billingPeriod := some period
          periodMultiplier := some (billingPeriodMultiplier period), unitPriceCents := some unitPrice
          quantity := some (billingPeriodMultiplier period), totalCents := some planTotal, paidUntilIso := paidUntil
          simulatedPayment := env.isSimulatedProvider, paymentProvider := some env.billingProvider }
      let feeLine : InvoiceLine :=
        { code := some "training_initial_fee", name := "Egyszeri betanítási költség", totalCents := some fee }
      let _ ← createInvoice .monthlySubscription (.ofTime env.now) (planTotal + fee)
        (plan.name ++ " " ++ billingPeriodLabelHu period ++ " díj") (if fee > 0 then [line, feeLine] else [line])
        env.now env.invoicePaidStatus env.invoicePaymentMethod env.now
    return .updated

theorem ensureSubscription_of_some {env : Env} {ctx : TenantContext} {a : Account} {sub : Subscription}
    (h : a.subscription = some sub) : ensureSubscription env ctx a = (sub, a) := by
  unfold ensureSubscription
  rw [h]

section
variable {env : Env} {ctx : TenantContext} {a : Account} {sub : Subscription} {plan : BillingPlan}
  {planCode billingPeriod : String}

theorem after_updateSubscription_of_unknown (h : env.plans.find? (Text.stripLower planCode) = none) :
    after (updateSubscription env ctx planCode billingPeriod) a = a := by
  unfold updateSubscription
  rw [h]
  rfl

/-- The account after a change was scheduled for the end of the paid period. -/
def schedulePlanChange (env : Env) (sub : Subscription) (plan : BillingPlan) (period : BillingPeriod) (a : Account) :
    Account :=
  let (updated, a) := a.upsertSubscription env.utcnow
    { sub.toSubscriptionData with
      scheduledPlanCode := some plan.code
      scheduledBillingPeriod := some period
      scheduledChangeEffectivePeriod := some (.day (subscriptionDueDate sub a)) }
  syncTenantConfig env updated a

variable (env ctx billingPeriod) in
/-- But for the first paid plan, a change is scheduled or applied at once; nothing else happens. -/
theorem after_updateSubscription_of_some (hp : env.plans.find? (Text.stripLower planCode) = some plan)
    (hs : a.subscription = some sub) (notFirst : sub.planCode ≠ "free" ∨ plan.code = "free") :
    after (updateSubscription env ctx planCode billingPeriod) a =
      if isScheduledChange sub.toSubscriptionData plan.code (normalizeBillingPeriod billingPeriod) env.plans then
        schedulePlanChange env sub plan (normalizeBillingPeriod billingPeriod) a
      else (applyImmediatePlanChange env sub plan (normalizeBillingPeriod billingPeriod) none a).2 := by
  unfold updateSubscription
  rw [hp]
  simp only
  rw [after_bind_of_ok (EStateM.run_modifyGet ..), after_bind_of_ok (EStateM.run_get _), ensureSubscription_of_some hs]
  split
  · rfl
  · have notFirstCheckout : (decide (sub.planCode = "free") && decide (plan.code ≠ "free")) = false := by
      rcases notFirst with h | h
      · simp [h]
      · simp [h]
    simp only [notFirstCheckout]
    rfl

end

/-- The lines of an upgrade invoice: the new period, the credit for the old one, and a training fee. -/
def upgradeLines (preview : UpgradeProration) (plan : String) (period : BillingPeriod) (periodTotal : Int)
    (simulated : Bool) (provider : String) (reference : Option String) : List InvoiceLine :=
  let newPeriod : InvoiceLine :=
    { code := some "upgrade_new_period", name := "Új csomag teljes díja (" ++ billingPeriodLabelHu period ++ ")"
      targetPlanCode := some plan, billingPeriod := some period
      periodMultiplier := some (billingPeriodMultiplier period), unitPriceCents := some preview.newMonthlyCents
      quantity := some (billingPeriodMultiplier period), totalCents := some periodTotal
      paidUntilIso := some preview.paidUntil, simulatedPayment := simulated
      paymentProvider := some provider, paymentReference := reference }
  let credit : InvoiceLine :=
    { code := some "upgrade_old_period_credit", name := "Régi díjrész jóváírása", quantity := some 1
      totalCents := some (-preview.oldRemainingCreditCents) }
  let fee : InvoiceLine :=
    { code := some "upgrade_training_initial_fee", name := "Egyszeri betanítási költség"
      totalCents := some preview.trainingInitialFeeCents }
  if preview.trainingInitialFeeCents > 0 then [newPeriod, credit, fee] else [newPeriod, credit]

inductive UpgradeStatus where
  | alreadyActive
  | updated
  | paidPendingActivation
  | pendingPayment
  deriving DecidableEq, Repr

structure UpgradeCompleteResponse where
  status : UpgradeStatus
  oldRemainingCreditCents : Int := 0
  nextPeriodChargeCents : Int := 0
  trainingInitialFeeCents : Int := 0
  totalChargeCents : Int := 0
  paidUntil : Int
  deriving DecidableEq, Repr

/-- A paid upgrade invoice to the same plan and period among the hundred newest. -/
def latestVerifiedUpgradeInvoice (plan : String) (period : BillingPeriod) (a : Account) : Option Invoice :=
  (a.listRecentInvoices 100).find? fun i =>
    i.invoiceType = .planUpgrade && i.status.isPaid &&
      i.lines.any fun line =>
        line.code = some "upgrade_new_period" && line.targetPlanCode = some plan && line.billingPeriod = some period

/-- `complete_upgrade_after_checkout`. Only the simulated provider applies the change here; with the others a
    payment event does. -/
def completeUpgradeAfterCheckout (env : Env) (ctx : TenantContext) (planCode billingPeriod : String) :
    AccountM UpgradeCompleteResponse := do
  let sub ← modifyGet (ensureSubscription env ctx)
  let a ← get
  let period := normalizeBillingPeriod billingPeriod
  match env.plans.find? (Text.stripLower planCode) with
  | none => throw (.valueError "Ismeretlen csomag.")
  | some plan =>
    if sub.planCode = "free" then
      throw (.valueError "Ingyenes csomagnál a szokásos előfizetési oldalon válasszon csomagot.")
    if isDowngrade sub.toSubscriptionData plan.code env.plans then
      throw (.valueError "Csomagcsökkentés nem ezen az úton intézhető.")
    if sub.planCode = plan.code && sub.billingPeriod = period then
      return { status := .alreadyActive, paidUntil := subscriptionDueDate sub a }
    match upgradeProration env sub plan.code period with
    | none => throw (.valueError "Érvénytelen csomagváltás.")
    | some preview =>
      let response (status : UpgradeStatus) : UpgradeCompleteResponse :=
        { status
          oldRemainingCreditCents := preview.oldRemainingCreditCents
          nextPeriodChargeCents := preview.nextPeriodChargeCents
          trainingInitialFeeCents := preview.trainingInitialFeeCents
          totalChargeCents := preview.totalChargeCents
          paidUntil := preview.paidUntil }
      if env.isSimulatedProvider then
        let _ ← modifyGet (applyImmediatePlanChange env sub plan period (some (midnight preview.paidUntil)))
        if (a.getInvoice .planUpgrade (.ofTime env.now)).isNone then
          let _ ← createInvoice .planUpgrade (.ofTime env.now) preview.totalChargeCents
            ("Szimulált csomagváltás: " ++ plan.name)
            (upgradeLines preview plan.code period preview.nextPeriodChargeCents true env.billingProvider none)
            env.now env.invoicePaidStatus env.invoicePaymentMethod env.now
        return response .updated
      match latestVerifiedUpgradeInvoice plan.code period a with
      | some _ => return response .paidPendingActivation
      | none => return response .pendingPayment

/-! ### Addons -/

/-- The subscription after an addon was bought. -/
def addonSubscription (env : Env) (sub : Subscription) (addon : BillingAddon) (quantity : Int) : SubscriptionData :=
  match addon.code with
  | "question_pack_50" => { sub.toSubscriptionData with carryoverAddonQuestions := sub.carryoverAddonQuestions + 50 * quantity }
  | "question_pack_100" => { sub.toSubscriptionData with carryoverAddonQuestions := sub.carryoverAddonQuestions + 100 * quantity }
  | "question_pack_500" => { sub.toSubscriptionData with carryoverAddonQuestions := sub.carryoverAddonQuestions + 500 * quantity }
  | "extra_kb" => { sub.toSubscriptionData with extraKbCount := sub.extraKbCount + quantity }
  | "extra_storage_gb" => { sub.toSubscriptionData with extraStorageGb := sub.extraStorageGb + quantity }
  | "training_initial_500k" | "training_extra_500k" =>
    let included := (env.plans.getOrFree sub.planCode).includedTrainingChars
    let chars := (addon.trainingChars.filter (· ≠ 0)).getD 1000000
    { sub.toSubscriptionData with
      carryoverTrainingChars := max sub.carryoverTrainingChars included + max 0 chars * quantity }
  | _ => sub.toSubscriptionData

/-- `purchase_addon`. -/
def purchaseAddon (env : Env) (ctx : TenantContext) (addonCode : String) (quantity : Int) : AccountM Invoice := do
  match env.addonMap (Text.stripLower addonCode) with
  | none => throw (.valueError "Ismeretlen addon.")
  | some addon =>
    let qty := max 1 quantity
    let total := addon.priceCents * qty
    let payment := env.executePayment total
    if !ownerCheckoutPaymentAccepted payment then
      throw (.valueError (orText payment.message "A fizetés nem sikerült."))
    let sub ← modifyGet (ensureSubscription env ctx)
    modify fun a =>
      let (updated, a) := a.upsertSubscription env.utcnow (addonSubscription env sub addon qty)
      syncTenantConfig env updated a
    let line : InvoiceLine :=
      { code := some addon.code, name := addon.name, quantity := some qty, unitPriceCents := some addon.priceCents
        totalCents := some total, simulatedPayment := env.isSimulatedProvider
        paymentProvider := some env.billingProvider, paymentReference := payment.externalId }
    createInvoice (.addon addon.code) (.ofTime env.now) total (addon.name ++ " x " ++ toString qty) [line] env.now
      env.invoicePaidStatus env.invoicePaymentMethod env.now

/-- The addon, when it exists and its charge is accepted. -/
def purchasedAddon (env : Env) (addonCode : String) (quantity : Int) : Option BillingAddon :=
  (env.addonMap (Text.stripLower addonCode)).filter fun addon =>
    ownerCheckoutPaymentAccepted (env.executePayment (addon.priceCents * max 1 quantity))

/-- A purchase writes the subscription and the configuration, and an invoice; a charge that is refused changes
    nothing. -/
theorem purchaseAddon_cases (env : Env) (ctx : TenantContext) (addonCode : String) (quantity : Int) (a : Account) :
    (purchasedAddon env addonCode quantity = none ∧ after (purchaseAddon env ctx addonCode quantity) a = a) ∨
    ∃ addon invoices nextInvoiceId, purchasedAddon env addonCode quantity = some addon ∧
      after (purchaseAddon env ctx addonCode quantity) a =
        let (sub, b) := ensureSubscription env ctx a
        let (updated, c) := b.upsertSubscription env.utcnow (addonSubscription env sub addon (max 1 quantity))
        { syncTenantConfig env updated c with invoices, nextInvoiceId } := by
  unfold purchaseAddon purchasedAddon
  cases hm : env.addonMap (Text.stripLower addonCode) with
  | none => exact .inl ⟨rfl, rfl⟩
  | some addon =>
    simp only
    cases accepted : ownerCheckoutPaymentAccepted (env.executePayment (addon.priceCents * max 1 quantity)) with
    | false =>
      refine .inl ⟨by simp [accepted], ?_⟩
      simp only [Bool.not_false, if_true]
      rfl
    | true =>
      simp only [Bool.not_true, Bool.false_eq_true, if_false]
      rw [after_bind_of_ok (EStateM.run_modifyGet ..), after_bind_of_ok (EStateM.run_modify ..)]
      obtain ⟨invoices, nextInvoiceId, h⟩ := after_createInvoice (.addon addon.code) (.ofTime env.now) _ _ _ _ _ _ _ _
      exact .inr ⟨addon, invoices, nextInvoiceId, by simp [accepted], h⟩

/-! ### What plan changes leave alone -/

namespace RowInvariant

variable {P : Account → Prop} (env : Env)

theorem immediatePlanChange (hP : RowInvariant P) (sub : Subscription) (plan : BillingPlan) (period : BillingPeriod)
    (paidUntil : Option Int) {a : Account} (h : P a) : P (applyImmediatePlanChange env sub plan period paidUntil a).2 :=
  hP.config _ _ _ (hP.upsert _ _ h)

theorem billingProfile : Leads P (requireBillingProfile env) P := by
  unfold requireBillingProfile
  refine Leads.ite (fun _ => ?_) fun _ => ?_
  · exact Leads.throw_bind (fun _ h => h) _ _
  · exact Leads.ite (fun _ => Leads.throw (fun _ h => h) _) fun _ => Leads.pure (fun _ h => h) _

theorem updateSubscription (hP : RowInvariant P) (ctx : TenantContext) (planCode billingPeriod : String) :
    Leads P (Billing.updateSubscription env ctx planCode billingPeriod) P := by
  unfold Billing.updateSubscription
  split
  · exact Leads.throw (fun _ h => h) _
  · refine Leads.bind (Leads.modifyGet fun a h => hP.ensure env ctx h) (fun sub => ?_) fun _ h => h
    refine Leads.bind (Leads.get fun _ h => h) (fun a => ?_) fun _ h => h
    refine Leads.ite (fun _ => ?_) fun _ => ?_
    · refine Leads.bind (Leads.modify fun a h => ?_) (fun _ => Leads.pure (fun _ h => h) _) fun _ h => h
      exact hP.config _ _ _ (hP.upsert _ _ h)
    · have changed : ∀ plan period paidUntil (invoiced : Bool) (invoice : AccountM Invoice), Leads P invoice P →
          Leads P (do
            let _ ← modifyGet (applyImmediatePlanChange env sub plan period paidUntil)
            if invoiced then
              let _ ← invoice
            return UpdateStatus.updated) P := by
        intro plan period paidUntil invoiced invoice hi
        refine Leads.bind (Leads.modifyGet fun a h => hP.immediatePlanChange env _ _ _ _ h) (fun _ => ?_) fun _ h => h
        refine Leads.ite (fun _ => ?_) fun _ => Leads.pure (fun _ h => h) _
        exact Leads.bind hi (fun _ => Leads.pure (fun _ h => h) _) fun _ h => h
      refine Leads.ite (fun _ => ?_) fun _ => changed _ _ _ _ _ (hP.createInvoice _ _ _ _ _ _ _ _ _)
      exact Leads.bind (billingProfile env) (fun _ => changed _ _ _ _ _ (hP.createInvoice _ _ _ _ _ _ _ _ _)) fun _ h => h

theorem completeUpgrade (hP : RowInvariant P) (ctx : TenantContext) (planCode billingPeriod : String) :
    Leads P (completeUpgradeAfterCheckout env ctx planCode billingPeriod) P := by
  unfold completeUpgradeAfterCheckout
  refine Leads.bind (Leads.modifyGet fun a h => hP.ensure env ctx h) (fun sub => ?_) fun _ h => h
  refine Leads.bind (Leads.get fun _ h => h) (fun a => ?_) fun _ h => h
  simp only
  split
  · exact Leads.throw (fun _ h => h) _
  · refine Leads.ite (fun _ => Leads.throw_bind (fun _ h => h) _ _) fun _ => ?_
    refine Leads.ite (fun _ => Leads.throw_bind (fun _ h => h) _ _) fun _ => ?_
    refine Leads.ite (fun _ => Leads.pure (fun _ h => h) _) fun _ => ?_
    split
    · exact Leads.throw (fun _ h => h) _
    · refine Leads.ite (fun _ => ?_) fun _ => ?_
      · refine Leads.bind (Leads.modifyGet fun a h => hP.immediatePlanChange env _ _ _ _ h) (fun _ => ?_) fun _ h => h
        refine Leads.ite (fun _ => ?_) fun _ => Leads.pure (fun _ h => h) _
        exact Leads.bind (hP.createInvoice _ _ _ _ _ _ _ _ _) (fun _ => Leads.pure (fun _ h => h) _) fun _ h => h
      · split
        · exact Leads.pure (fun _ h => h) _
        · exact Leads.pure (fun _ h => h) _

end RowInvariant

end NyzRating.Billing
