import NyzRating.Billing.Subscription

/-!
# Payment requests, debts and their settlement
-/

namespace NyzRating.Billing

open Calendar Program

inductive BillingRunStatus where
  | notDue
  | paid
  | paymentFailed
  deriving DecidableEq, Repr

structure BillingRunResponse where
  status : BillingRunStatus
  message : String
  billingDate : Int
  nextBillingDate : Option Int := none
  graceUntil : Option Int := none
  deriving DecidableEq, Repr

/-- The invoice line of a subscription period, as payment requests, charges and failed charges write it. -/
def subscriptionLine (env : Env) (sub : Subscription) (totalCents extraStorageGb : Int) : InvoiceLine :=
  let plan := env.plans.getOrFree sub.planCode
  { code := some plan.code
    name := plan.name
    billingPeriod := some sub.billingPeriod
    periodMultiplier := some (billingPeriodMultiplier sub.billingPeriod)
    unitPriceCents := some (planMonthlyChargeCentsAfterDiscount plan.priceCents sub.billingPeriod)
    quantity := some (billingPeriodMultiplier sub.billingPeriod)
    extraStorageGb := some extraStorageGb
    totalCents := some totalCents }

/-- Issues the open payment request of a due date. The free plan and a restricted subscription get none. -/
def issueSubscriptionPaymentRequest (env : Env) (sub : Subscription) (dueDate : Int) (key : PeriodKey) :
    AccountM (Option Invoice) := do
  if sub.planCode = "free" then return none
  if sub.status = .restricted then return none
  let a ← get
  match a.getInvoice .monthlySubscription key with
  | some existing => return some existing
  | none =>
    let estimated := estimateNextInvoice env sub a
    if estimated.totalCents ≤ 0 then return none
    let plan := env.plans.getOrFree sub.planCode
    let line : InvoiceLine :=
      { subscriptionLine env sub estimated.totalCents estimated.nextExtraStorageGb with
        extraKbCount := some sub.extraKbCount
        nextBillingDate := some (nextBillingDateAfter dueDate sub.billingPeriod)
        paymentRequest := true }
    let invoice ← createInvoice .monthlySubscription key estimated.totalCents
      (plan.name ++ " " ++ billingPeriodLabelHu sub.billingPeriod ++ " díjbekérő") [line] env.now .issued "pending" env.now
    return some invoice

/-- The subscription once a period is paid for: a scheduled change takes effect, and coverage runs to
    `nextBillingDate`. -/
def paidSubscription (sub : Subscription) (nextBillingDate extraStorageGb : Int) : SubscriptionData :=
  { sub.toSubscriptionData with
    planCode := orText sub.scheduledPlanCode sub.planCode
    billingPeriod := sub.scheduledBillingPeriod.getD sub.billingPeriod
    status := .active
    trialStartedAt := none
    trialEndsAt := some (midnight nextBillingDate)
    extraStorageGb
    scheduledPlanCode := none
    scheduledBillingPeriod := none
    scheduledChangeEffectivePeriod := none
    questionWarningPeriodKey := none
    questionWarningLevel := 0 }

/-- A tenant that the caller knows as inactive is switched on again. -/
def reactivate (ctx : TenantContext) (a : Account) : Account := if ctx.active then a else a.activate

/-- `_settle_debt_invoice_as_paid`. -/
def settleDebtInvoiceAsPaid (env : Env) (ctx : TenantContext) (sub : Subscription) (invoice : Invoice) :
    AccountM Unit := do
  let _ ← updateInvoicePaymentStatus invoice.id env.invoicePaidStatus (some env.invoicePaymentMethod)
    (some .monthlySubscription) none
  modify fun a =>
    let next := nextBillingDateAfter (billingDueDate sub) sub.billingPeriod
    let data := paidSubscription sub next (estimateNextInvoice env sub a).nextExtraStorageGb
    let a := reactivate ctx (a.upsertSubscription env.utcnow data).2
    let (current, a) := ensureSubscription env ctx a
    (syncStatus env current a).2

/-- A scheduled change is due: the paid period is over and its effective date has come. -/
def scheduledChangeDue (env : Env) (sub : Subscription) : Bool :=
  !(env.today < billingDueDate sub) &&
    match sub.scheduledChangeEffectivePeriod with
    | some (.day d) => !(env.today < d)
    | some (.month y m) => !(env.today < ofCivil y m 1)
    | some .unreadable | none => true

/-- `apply_due_scheduled_plan_change`. -/
def applyDueScheduledPlanChange (env : Env) (sub : Subscription) (a : Account) : Subscription × Account :=
  match sub.scheduledPlanCode.filter (· ≠ "") with
  | none => (sub, a)
  | some scheduledPlan =>
    if scheduledChangeDue env sub then
      let isFree : Bool := Text.stripLower scheduledPlan = "free"
      a.upsertSubscription env.utcnow
        { sub.toSubscriptionData with
          planCode := scheduledPlan
          billingPeriod := sub.scheduledBillingPeriod.getD sub.billingPeriod
          status := if isFree then .trial else .active
          trialStartedAt := if isFree then sub.trialStartedAt else none
          scheduledPlanCode := none
          scheduledBillingPeriod := none
          scheduledChangeEffectivePeriod := none
          questionWarningPeriodKey := none
          questionWarningLevel := 0 }
    else (sub, a)

/-- The subscription once the scheduled change to `plan` is in force. -/
def scheduledPlanData (sub : Subscription) (plan : String) : SubscriptionData :=
  let isFree : Bool := Text.stripLower plan = "free"
  { sub.toSubscriptionData with
    planCode := plan
    billingPeriod := sub.scheduledBillingPeriod.getD sub.billingPeriod
    status := if isFree then .trial else .active
    trialStartedAt := if isFree then sub.trialStartedAt else none
    scheduledPlanCode := none
    scheduledBillingPeriod := none
    scheduledChangeEffectivePeriod := none
    questionWarningPeriodKey := none
    questionWarningLevel := 0 }

theorem applyDueScheduledPlanChange_of_none {env : Env} {sub : Subscription} {a : Account}
    (h : sub.scheduledPlanCode.filter (· ≠ "") = none) : applyDueScheduledPlanChange env sub a = (sub, a) := by
  unfold applyDueScheduledPlanChange
  rw [h]

theorem applyDueScheduledPlanChange_of_some {env : Env} {sub : Subscription} {a : Account} {plan : String}
    (h : sub.scheduledPlanCode.filter (· ≠ "") = some plan) : applyDueScheduledPlanChange env sub a =
      if scheduledChangeDue env sub then a.upsertSubscription env.utcnow (scheduledPlanData sub plan) else (sub, a) := by
  unfold applyDueScheduledPlanChange
  rw [h]
  rfl

/-- The subscription once a scheduled change that is due is in force. -/
def renewed (env : Env) (sub : Subscription) : Subscription :=
  (sub.scheduledPlanCode.filter (· ≠ "")).elim sub fun plan =>
    if scheduledChangeDue env sub then
      { scheduledPlanData sub plan with createdAt := sub.createdAt, updatedAt := env.utcnow }
    else sub

theorem applyDueScheduledPlanChange_eq {env : Env} {sub : Subscription} {a : Account} (hs : a.subscription = some sub) :
    applyDueScheduledPlanChange env sub a = (renewed env sub, { a with subscription := some (renewed env sub) }) := by
  have same : { a with subscription := some sub } = a := by rw [← hs]
  unfold renewed
  cases hp : sub.scheduledPlanCode.filter (· ≠ "") with
  | none => rw [applyDueScheduledPlanChange_of_none hp, Option.elim_none, same]
  | some plan =>
    rw [applyDueScheduledPlanChange_of_some hp, Option.elim_some]
    split
    · unfold Account.upsertSubscription
      rw [hs]
    · rw [same]

/-- A failed payment that no later paid invoice has followed. -/
def unsettledFailure (a : Account) : Option Invoice :=
  ((a.getLatestInvoiceForType .monthlySubscriptionFailed).filter (·.status = .paymentFailed)).filter fun failed =>
    !(a.getLatestInvoiceForType .monthlySubscription).any (·.issuedAt > failed.issuedAt)

/-- The branch of `complete_subscription_billing` for a payment that succeeded. -/
def completeBillingPaid (env : Env) (ctx : TenantContext) (sub : Subscription) (billingDate : Int) (key : PeriodKey)
    (forceNewInvoice : Bool) : AccountM BillingRunResponse := do
  let a ← get
  let estimated := estimateNextInvoice env sub a
  match if forceNewInvoice then none else a.getLatestOpenSubscriptionInvoice with
  | some openRequest =>
    settleDebtInvoiceAsPaid env ctx sub openRequest
    return {
      status := .paid, message := "Sikeres számlázás (díjbekérő kiegyenlítve).", billingDate
      nextBillingDate := some (nextBillingDateAfter billingDate sub.billingPeriod) }
  | none =>
    let key := (if forceNewInvoice then none else (unsettledFailure a).map (·.periodKey)).getD key
    let next := nextBillingDateAfter billingDate sub.billingPeriod
    if forceNewInvoice || (a.getInvoice .monthlySubscription key).isNone then
      let plan := env.plans.getOrFree sub.planCode
      let line : InvoiceLine :=
        { subscriptionLine env sub estimated.totalCents estimated.nextExtraStorageGb with
          extraKbCount := some sub.extraKbCount, nextBillingDate := some next }
      let _ ← createInvoice .monthlySubscription key estimated.totalCents
        (plan.name ++ " " ++ billingPeriodLabelHu sub.billingPeriod ++ " díj") [line] env.now env.invoicePaidStatus
        env.invoicePaymentMethod env.now
    modify fun a =>
      reactivate ctx (a.upsertSubscription env.utcnow (paidSubscription sub next estimated.nextExtraStorageGb)).2
    return { status := .paid, message := "Sikeres számlázás.", billingDate, nextBillingDate := some next }

/-- The branch of `complete_subscription_billing` for a payment that failed. The grace period counts from the
    due date of the first failure that is still unsettled. -/
def completeBillingFailed (env : Env) (sub : Subscription) (billingDate : Int) (key : PeriodKey)
    (forceNewInvoice : Bool) : AccountM BillingRunResponse := do
  let a ← get
  let estimated := estimateNextInvoice env sub a
  let restrictionDueDate := ((unsettledFailure a).map (fun failed => dateOf failed.dueAt)).getD billingDate
  if forceNewInvoice || (a.getInvoice .monthlySubscriptionFailed key).isNone then
    let line : InvoiceLine :=
      { subscriptionLine env sub estimated.totalCents estimated.nextExtraStorageGb with paymentFailed := true }
    let _ ← createInvoice .monthlySubscriptionFailed key estimated.totalCents
      ("Sikertelen fizetés: " ++ (env.plans.getOrFree sub.planCode).name) [line] (midnight restrictionDueDate)
      .paymentFailed "simulated_card" env.now
  return {
    status := .paymentFailed, message := "Sikertelen fizetés rögzítve.", billingDate
    graceUntil := some (restrictionDueDate + paymentFailureDeactivationDays) }

/-- `complete_subscription_billing`. -/
def completeSubscriptionBilling (env : Env) (ctx : TenantContext) (subscription : Option Subscription)
    (outcome : String) (force forceNewInvoice : Bool) : AccountM BillingRunResponse := do
  let sub ← match subscription with
    | some sub => pure sub
    | none => modifyGet (ensureSubscription env ctx)
  let billingDate := billingDueDate sub
  if env.today < billingDate && !force then
    return { status := .notDue, message := "Ma még nincs számlázási nap.", billingDate }
  let sub ← modifyGet (applyDueScheduledPlanChange env sub)
  let key := if forceNewInvoice then PeriodKey.ofTime env.now else .date billingDate
  if outcome = "success" then completeBillingPaid env ctx sub billingDate key forceNewInvoice
  else if outcome = "failed" then completeBillingFailed env sub billingDate key forceNewInvoice
  else throw (.valueError "Ismeretlen számlázási kimenet.")

/-- Without a row given, the one of the tenant is loaded. -/
theorem after_completeBilling_none (env : Env) (ctx : TenantContext) (outcome : String) (force forceNewInvoice : Bool)
    (a : Account) : after (completeSubscriptionBilling env ctx none outcome force forceNewInvoice) a =
      after (completeSubscriptionBilling env ctx (some (ensureSubscription env ctx a).1) outcome force forceNewInvoice)
        (ensureSubscription env ctx a).2 := by
  unfold completeSubscriptionBilling
  simp only [pure_bind]
  rw [after_modifyGet_bind]

/-- The type that a debt takes when its payment fails; a change that would collide with another invoice is
    not made. -/
def failedDebtType (debt : Invoice) (a : Account) : Option InvoiceType :=
  if (a.getInvoice .monthlySubscriptionFailed debt.periodKey).isNone then some .monthlySubscriptionFailed else none

/-- `settle_subscription`: the owner pays the debt, or the next period when there is none. -/
def settleSubscription (env : Env) (ctx : TenantContext) : AccountM BillingRunResponse := do
  let sub ← modifyGet (ensureSubscription env ctx)
  let a ← get
  match a.getLatestUnpaidDebtInvoice with
  | some debt =>
    let payment := env.executePayment debt.totalCents
    let billingDate := billingDueDate sub
    if ownerCheckoutPaymentAccepted payment then
      settleDebtInvoiceAsPaid env ctx sub debt
      let message :=
        if payment.success then
          match payment.externalId.filter (· ≠ "") with
          | some id => "Sikeres tartozás-rendezés." ++ " Tranzakció: " ++ id
          | none => "Sikeres tartozás-rendezés."
        else "A tartozást manuális számlázási módban fizetettként rögzítettük."
      return {
        status := .paid, message, billingDate
        nextBillingDate := some (nextBillingDateAfter billingDate sub.billingPeriod) }
    let _ ← updateInvoicePaymentStatus debt.id .paymentFailed (some "settle_failed") (failedDebtType debt a) none
    modify fun a => (syncStatus env sub a).2
    return {
      status := .paymentFailed, message := orText payment.message "A fizetés nem sikerült.", billingDate
      graceUntil := some (billingDate + paymentFailureDeactivationDays) }
  | none =>
    let payment := env.executePayment (estimateNextInvoice env sub a).totalCents
    if ownerCheckoutPaymentAccepted payment then
      let settled ← completeSubscriptionBilling env ctx (some sub) "success" true false
      match payment.externalId.filter (· ≠ "") with
      | some id => return { settled with message := settled.message ++ " Tranzakció: " ++ id }
      | none =>
        if payment.success then return settled
        return { settled with message := "A számlát manuális számlázási módban fizetettként rögzítettük." }
    completeSubscriptionBilling env ctx (some sub) "failed" true false

/-- What `settle_subscription` charges: the debt, or the next period when there is none. -/
def settleAmount (env : Env) (ctx : TenantContext) (a : Account) : Int :=
  let (sub, a) := ensureSubscription env ctx a
  match a.getLatestUnpaidDebtInvoice with
  | some debt => debt.totalCents
  | none => (estimateNextInvoice env sub a).totalCents

/-- The charge of `settle_subscription` is accepted as paid. -/
def settlePaid (env : Env) (ctx : TenantContext) (a : Account) : Bool :=
  ownerCheckoutPaymentAccepted (env.executePayment (settleAmount env ctx a))

/-! ### Daily retry -/

def invoiceRetryDate (invoice : Invoice) : Option Int := invoice.lines.findSome? (·.autoRetryDate)

/-- `_mark_invoice_retry_meta`: the note goes to the first line. -/
def markInvoiceRetryMeta (invoice : Invoice) (today : Int) (emailSent : Bool) : AccountM Unit := do
  let lines : List InvoiceLine :=
    match invoice.lines with
    | line :: lines => { line with autoRetryDate := some today, autoRetryEmailSent := some emailSent } :: lines
    | [] => [{ autoRetryDate := some today, autoRetryEmailSent := some emailSent }]
  let _ ← updateInvoicePaymentStatus invoice.id invoice.status none none (some lines)

def sendPaymentFailedOwnerEmail (env : Env) (a : Account) : Bool :=
  match a.resources.ownerEmail with
  | none => false
  | some owner => env.sendEmail owner "Sikertelen előfizetés-fizetés – NYZ Rating"

/-- What the daily retry counts for a tenant. -/
inductive RetryOutcome where
  | skipped
  | paid
  | failed (emailSent : Bool)
  deriving DecidableEq, Repr

/-- One active tenant of `retry_failed_payments_daily`: its debt is charged once a day, until the day on which
    the tenant is deactivated. -/
def retryFailedPayment (env : Env) (ctx : TenantContext) : AccountM RetryOutcome := do
  let a ← get
  match a.getLatestUnpaidDebtInvoice with
  | none => return .skipped
  | some debt =>
    if env.today ≥ dateOf debt.dueAt + paymentFailureDeactivationDays then return .skipped
    if invoiceRetryDate debt = some env.today then return .skipped
    let sub ← modifyGet (ensureSubscription env ctx)
    let payment := env.executePayment debt.totalCents
    if payment.success then
      settleDebtInvoiceAsPaid env ctx sub debt
      return .paid
    let debt ←
      if debt.status = .issued then do
        let _ ← updateInvoicePaymentStatus debt.id .paymentFailed (some "auto_retry_failed")
          (some .monthlySubscriptionFailed) none
        let refreshed := ((← get).getInvoiceById debt.id).getD debt
        modify fun a => (syncStatus env sub a).2
        pure refreshed
      else pure debt
    let emailSent := sendPaymentFailedOwnerEmail env (← get)
    markInvoiceRetryMeta debt env.today emailSent
    return .failed emailSent

section
variable {P : Account → Prop} (hP : ∀ a invoices nextId, P a → P { a with invoices := invoices, nextInvoiceId := nextId })

include hP

theorem completeBillingFailed_leads (env : Env) (sub : Subscription) (billingDate : Int) (key : PeriodKey) (forced : Bool) :
    Leads P (completeBillingFailed env sub billingDate key forced) P := by
  unfold completeBillingFailed
  refine Leads.bind (Leads.get fun _ h => h) (fun a => ?_) fun _ h => h
  simp only
  split
  · exact Leads.bind (createInvoice_leads hP _ _ _ _ _ _ _ _ _) (fun _ => Leads.pure (fun _ h => h) _) fun _ h => h
  · exact Leads.pure (fun _ h => h) _

theorem markInvoiceRetryMeta_leads (invoice : Invoice) (today : Int) (emailSent : Bool) :
    Leads P (markInvoiceRetryMeta invoice today emailSent) P := by
  unfold markInvoiceRetryMeta
  exact Leads.bind (updateInvoice_leads hP _ _ _ _ _) (fun _ => Leads.pure (fun _ h => h) _) fun _ h => h

end

/-! ### Settling, as a whole -/

namespace RowInvariant

variable {P Q : Account → Prop} (env : Env) (ctx : TenantContext)

theorem applyDue (hP : RowInvariant P) (sub : Subscription) {a : Account} (h : P a) :
    P (applyDueScheduledPlanChange env sub a).2 := by
  unfold applyDueScheduledPlanChange
  split
  · exact h
  · split
    · exact hP.upsert _ _ h
    · exact h

theorem reactivate (act : ctx.active = false → ∀ a, P a → P a.activate) {a : Account} (h : P a) :
    P (reactivate ctx a) := by
  unfold Billing.reactivate
  split
  · exact h
  · next hc => exact act (by simpa using hc) a h

/-- Settling a debt keeps `P` up to its last step, the synchronisation of the status. -/
theorem settleDebt (hP : RowInvariant P) (act : ctx.active = false → ∀ a, P a → P a.activate)
    (sync : ∀ sub a, P a → Q (syncStatus env sub a).2) (le : ∀ a, P a → Q a) (sub : Subscription) (invoice : Invoice) :
    Leads P (settleDebtInvoiceAsPaid env ctx sub invoice) Q := by
  refine Leads.bind (hP.updateInvoice _ _ _ _ _) (fun _ => Leads.modify fun a h => ?_) le
  exact sync _ _ (hP.ensure env ctx (RowInvariant.reactivate ctx act (hP.upsert _ _ h)))

theorem completePaid (hP : RowInvariant P) (act : ctx.active = false → ∀ a, P a → P a.activate)
    (sync : ∀ sub a, P a → Q (syncStatus env sub a).2) (le : ∀ a, P a → Q a) (sub : Subscription) (billingDate : Int)
    (key : PeriodKey) (forced : Bool) : Leads P (completeBillingPaid env ctx sub billingDate key forced) Q := by
  unfold completeBillingPaid
  refine Leads.bind (Leads.get fun _ h => h) (fun a => ?_) le
  simp only
  split
  · exact Leads.bind (hP.settleDebt env ctx act sync le sub _) (fun _ => Leads.pure (fun _ h => h) _) fun _ h => h
  · have rest : ∀ data r, Leads P (do
        modify fun a => Billing.reactivate ctx (a.upsertSubscription env.utcnow data).2
        return r : AccountM BillingRunResponse) Q := fun data r =>
      Leads.bind (Leads.modify fun a h => le _ (RowInvariant.reactivate ctx act (hP.upsert _ data h)))
        (fun _ => Leads.pure (fun _ h => h) r) fun _ h => h
    exact Leads.ite (fun _ => Leads.bind (hP.createInvoice _ _ _ _ _ _ _ _ _) (fun _ => rest _ _) le) fun _ => rest _ _

theorem completeBilling (hP : RowInvariant P) (outcome : String)
    (act : outcome = "success" → ctx.active = false → ∀ a, P a → P a.activate)
    (sync : ∀ sub a, P a → Q (syncStatus env sub a).2) (le : ∀ a, P a → Q a) (sub : Subscription) (force forced : Bool) :
    Leads P (completeSubscriptionBilling env ctx (some sub) outcome force forced) Q := by
  unfold completeSubscriptionBilling
  simp only [pure_bind]
  refine Leads.ite (fun _ => Leads.pure le _) fun _ => ?_
  refine Leads.bind (Leads.modifyGet fun a h => hP.applyDue env sub h) (fun sub => ?_) le
  refine Leads.ite (fun ho => hP.completePaid env ctx (act ho) sync le _ _ _ _) fun _ => ?_
  refine Leads.ite (fun _ a h => le _ (completeBillingFailed_leads hP.invoices env _ _ _ _ a h)) fun _ => Leads.throw le _

/-- The owner's settlement. It switches the tenant on only when the charge is accepted. -/
theorem settle (hP : RowInvariant P) {a : Account}
    (act : settlePaid env ctx a = true → ctx.active = false → ∀ a, P a → P a.activate)
    (sync : ∀ sub a, P a → Q (syncStatus env sub a).2) (le : ∀ a, P a → Q a) (h : P a) :
    Q (after (settleSubscription env ctx) a) := by
  have ensured := hP.ensure env ctx h
  unfold settleSubscription
  rw [after_bind_of_ok (EStateM.run_modifyGet ..), after_bind_of_ok (EStateM.run_get _)]
  simp only [settlePaid, settleAmount] at act
  generalize ensureSubscription env ctx a = r at act ensured ⊢
  cases hd : r.2.getLatestUnpaidDebtInvoice with
  | some debt =>
    simp only [hd] at act
    revert ensured
    refine Leads.ite (fun paid => ?_) (fun _ => ?_) r.2
    · exact Leads.bind (hP.settleDebt env ctx (act paid) sync le _ _) (fun _ => Leads.pure (fun _ h => h) _) fun _ h => h
    · refine Leads.bind (hP.updateInvoice _ _ _ _ _) (fun _ => ?_) le
      exact Leads.bind (Leads.modify fun a h => sync _ _ h) (fun _ => Leads.pure (fun _ h => h) _) fun _ h => h
  | none =>
    simp only [hd] at act
    revert ensured
    refine Leads.ite (fun paid => ?_) (fun _ => ?_) r.2
    · refine Leads.bind (hP.completeBilling env ctx _ (fun _ => act paid) sync le _ _ _) (fun settled => ?_) fun _ h => h
      split
      · exact Leads.pure (fun _ h => h) _
      · exact Leads.ite (fun _ => Leads.pure (fun _ h => h) _) fun _ => Leads.pure (fun _ h => h) _
    · exact hP.completeBilling env ctx _ (fun ho => absurd ho (by decide)) sync le _ _ _

end RowInvariant

end NyzRating.Billing
