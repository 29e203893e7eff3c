import NyzRating.Billing.Proration
import NyzRating.Billing.Repositories

/-!
# Subscription: creation, due dates, status

The part of the billing service and its workflows that reads and writes the subscription row without
charging anything.
-/

namespace NyzRating.Billing

open Calendar Program

/-! ### Surroundings of a call -/

inductive Provider where
  | simulated
  | stripeTest
  | manual
  | unsupported (name : String)
  deriving DecidableEq, Repr

structure PaymentExecutionResult where
  success : Bool
  status : String
  paymentMethod : String
  message : Option String := none
  externalId : Option String := none
  deriving DecidableEq, Repr

structure BillingProfile where
  companyName : String
  taxId : String
  addressLine : String
  postalCode : String
  city : String
  taxIdIsValid : Bool
  deriving DecidableEq, Repr

/-- What one call reads outside the database. `now` is the service clock, which a simulated date can move;
    `utcnow` stamps the rows. `charge` is the answer of the card provider to an amount, `sendEmail` whether a mail
    with a subject is accepted for an address, `dropSchema` whether dropping a schema succeeds. -/
structure Env where
  now : Int
  utcnow : Int
  plans : PlanCatalog
  addons : List BillingAddon := []
  provider : Provider := .simulated
  charge : Int → PaymentExecutionResult
  sendEmail : String → String → Bool
  engine : Bool := true
  dropSchema : String → Bool
  billingProfile : BillingProfile

/-- The tenant as the caller passes it. The context of a request has no `is_active`. -/
structure TenantContext where
  slug : String
  createdAt : Option Int
  isActive : Option Bool
  deriving DecidableEq, Repr

/-- `bool(getattr(tenant, "is_active", True))`. -/
def TenantContext.active (t : TenantContext) : Bool := t.isActive.getD true

/-- The snapshot that the loops over the tenant rows load. -/
def Account.snapshot (a : Account) : TenantContext :=
  { slug := a.tenant.slug, createdAt := some a.tenant.createdAt, isActive := some a.tenant.isActive }

namespace Env

def today (env : Env) : Int := dateOf env.now

def currentPeriod (env : Env) : MonthPeriod := currentMonthPeriod env.now

def addonMap (env : Env) (code : String) : Option BillingAddon := env.addons.find? (·.code = code)

def isSimulatedProvider (env : Env) : Bool := env.provider = .simulated

def billingProvider (env : Env) : String :=
  match env.provider with
  | .simulated => "simulated"
  | .stripeTest => "stripe_test"
  | .manual => "manual"
  | .unsupported name => name

def invoicePaidStatus (env : Env) : InvoiceStatus :=
  match env.provider with
  | .simulated => .simulatedPaid
  | .stripeTest => .paid
  | _ => .manualPaid

def invoicePaymentMethod (env : Env) : String :=
  match env.provider with
  | .simulated => "simulated_card"
  | .stripeTest => "stripe_test_card"
  | _ => "manual"

def executePayment (env : Env) (amountCents : Int) : PaymentExecutionResult :=
  match env.provider with
  | .simulated => { success := true, status := "simulated_paid", paymentMethod := "simulated_card" }
  | .stripeTest => env.charge amountCents
  | .manual =>
    { success := false, status := "manual_required", paymentMethod := "manual"
      message := some "Manuális számlázási mód: a fizetést a rendszer manuálisan rögzíti." }
  | .unsupported name =>
    { success := false, status := "provider_not_supported", paymentMethod := "unknown"
      message := some ("Nem támogatott billing provider: " ++ name) }

end Env

theorem Env.invoicePaidStatus_isPaid (env : Env) : env.invoicePaidStatus.isPaid = true := by
  unfold invoicePaidStatus
  split <;> rfl

/-- A manual provider charges nothing, so the owner's own checkout counts as paid there. -/
def ownerCheckoutPaymentAccepted (payment : PaymentExecutionResult) : Bool :=
  payment.success || Text.stripLower payment.status = "manual_required"

/-- `a or b` on optional texts: the empty text counts as absent. -/
def orText (a : Option String) (b : String) : String := (a.filter (· ≠ "")).getD b

/-! ### Limits and configuration -/

def trainingAddonInvoiceChars (env : Env) (a : Account) : Int :=
  let ofLine (line : InvoiceLine) : Int :=
    match line.code with
    | none => 0
    | some code =>
      if code = "training_initial_500k" || code = "training_extra_500k" then
        let chars := ((env.addonMap code).bind (·.trainingChars)).filter (· ≠ 0) |>.getD 1000000
        let quantity := max 1 ((line.quantity.filter (· ≠ 0)).getD 1)
        max 0 chars * quantity
      else 0
  ((a.listTrainingAddonInvoices.flatMap (·.lines)).map ofLine).sum

def availableTrainingChars (env : Env) (sub : Subscription) (a : Account) : Int :=
  let plan := env.plans.getOrFree sub.planCode
  max (max (max 0 plan.includedTrainingChars) (max 0 sub.carryoverTrainingChars))
    (max 0 plan.includedTrainingChars + trainingAddonInvoiceChars env a)

def buildLimits (env : Env) (sub : Subscription) (a : Account) : Limits :=
  let plan := env.plans.getOrFree sub.planCode
  { maxUsers := plan.maxUsers
    knowledgeBases := plan.includedKbs + sub.extraKbCount
    storageGb := plan.includedStorageGb + sub.extraStorageGb
    questionsMonthly := plan.includedQuestionsMonthly
    addonQuestionsCarryover := sub.carryoverAddonQuestions
    trainingCharsAvailable := availableTrainingChars env sub a
    trialDays := plan.trialDays }

/-- The configuration follows the subscription; the flags set before are kept. -/
def syncTenantConfig (env : Env) (sub : Subscription) (a : Account) : Account :=
  let prevFlags := (a.config.map (·.featureFlags)).getD {}
  a.createConfig sub.planCode { prevFlags with billingEnabled := true } (buildLimits env sub a)

/-- The subscription of the tenant; one without any starts a free trial. -/
def ensureSubscription (env : Env) (ctx : TenantContext) (a : Account) : Subscription × Account :=
  match a.subscription with
  | some sub => (sub, a)
  | none =>
    let plan := env.plans.free
    let trialStartedAt := ctx.createdAt.getD env.now
    let (sub, a) := a.upsertSubscription env.utcnow
      { planCode := "free", billingPeriod := .monthly, status := .trial
        trialStartedAt := some trialStartedAt, trialEndsAt := some (trialStartedAt + days plan.trialDays)
        carryoverTrainingChars := plan.includedTrainingChars }
    (sub, syncTenantConfig env sub a)

section
variable (env : Env) (ctx : TenantContext) (a : Account)

/-! `ensureSubscription` writes the subscription and the configuration only. -/

@[simp] theorem ensureSubscription_tenant : (ensureSubscription env ctx a).2.tenant = a.tenant := by
  unfold ensureSubscription; split <;> rfl

@[simp] theorem ensureSubscription_invoices : (ensureSubscription env ctx a).2.invoices = a.invoices := by
  unfold ensureSubscription; split <;> rfl

@[simp] theorem ensureSubscription_cancellations :
    (ensureSubscription env ctx a).2.cancellations = a.cancellations := by
  unfold ensureSubscription; split <;> rfl

@[simp] theorem ensureSubscription_nextCancellationId :
    (ensureSubscription env ctx a).2.nextCancellationId = a.nextCancellationId := by
  unfold ensureSubscription; split <;> rfl

/-- What it returns is the row that is stored. -/
theorem ensureSubscription_subscription :
    (ensureSubscription env ctx a).2.subscription = some (ensureSubscription env ctx a).1 := by
  unfold ensureSubscription
  split
  · assumption
  · rfl

end

/-! ### What the writes of billing leave alone -/

section
variable {P : Account → Prop} (hP : ∀ a invoices nextId, P a → P { a with invoices := invoices, nextInvoiceId := nextId })

include hP

theorem createInvoice_leads (type : InvoiceType) (key : PeriodKey) (total : Int) (description : String)
    (lines : List InvoiceLine) (dueAt : Int) (status : InvoiceStatus) (method : String) (issuedAt : Int) :
    Leads P (createInvoice type key total description lines dueAt status method issuedAt) P := by
  intro a h
  simp only [after, createInvoice, EStateM.run_bind, EStateM.run_get, run_ite, EStateM.run_set]
  split
  · exact h
  · exact hP a _ _ h

theorem updateInvoice_leads (id : Nat) (status : InvoiceStatus) (method : Option String) (type : Option InvoiceType)
    (lines : Option (List InvoiceLine)) : Leads P (updateInvoicePaymentStatus id status method type lines) P := by
  intro a h
  simp only [after, updateInvoicePaymentStatus, EStateM.run_bind, EStateM.run_get]
  split
  · exact h
  · simp only [run_ite, EStateM.run_bind, EStateM.run_set]
    split
    · exact h
    · exact hP a _ _ h

end

/-- `P` does not look at what billing writes most: invoices, the subscription, the configuration. -/
structure RowInvariant (P : Account → Prop) : Prop where
  invoices : ∀ a invoices nextId, P a → P { a with invoices := invoices, nextInvoiceId := nextId }
  subscription : ∀ a sub, P a → P { a with subscription := some sub }
  config : ∀ env sub a, P a → P (syncTenantConfig env sub a)

namespace RowInvariant

variable {P : Account → Prop}

theorem upsert (hP : RowInvariant P) (utcnow : Int) (data : SubscriptionData) {a : Account} (h : P a) :
    P (a.upsertSubscription utcnow data).2 := hP.subscription a _ h

theorem ensure (hP : RowInvariant P) (env : Env) (ctx : TenantContext) {a : Account} (h : P a) :
    P (ensureSubscription env ctx a).2 := by
  unfold ensureSubscription
  split
  · exact h
  · exact hP.config _ _ _ (hP.upsert _ _ h)

theorem createInvoice (hP : RowInvariant P) (type : InvoiceType) (key : PeriodKey) (total : Int) (description : String)
    (lines : List InvoiceLine) (dueAt : Int) (status : InvoiceStatus) (method : String) (issuedAt : Int) :
    Leads P (createInvoice type key total description lines dueAt status method issuedAt) P :=
  createInvoice_leads hP.invoices type key total description lines dueAt status method issuedAt

theorem updateInvoice (hP : RowInvariant P) (id : Nat) (status : InvoiceStatus) (method : Option String)
    (type : Option InvoiceType) (lines : Option (List InvoiceLine)) :
    Leads P (updateInvoicePaymentStatus id status method type lines) P :=
  updateInvoice_leads hP.invoices id status method type lines

end RowInvariant

def setSignupSubscription (env : Env) (planCode billingPeriod : String) (a : Account) : Account :=
  let plan := env.plans.getOrFree planCode
  let (sub, a) := a.upsertSubscription env.utcnow
    { planCode := plan.code, billingPeriod := normalizeBillingPeriod billingPeriod
      status := if plan.code = "free" then .trial else .active
      trialStartedAt := if plan.trialDays ≠ 0 then some env.now else none
      trialEndsAt := if plan.trialDays ≠ 0 then some (env.now + days plan.trialDays) else none
      carryoverTrainingChars := plan.includedTrainingChars }
  syncTenantConfig env sub a

/-! ### Due dates and the next invoice -/

def coverageDateFromInvoice (invoice : Option Invoice) : Option Int := do
  let invoice ← invoice
  invoice.lines.findSome? (fun line => line.nextBillingDate <|> line.paidUntilIso)

def subscriptionAnchorDueDate (sub : Subscription) : Int :=
  addMonthsToDate (dateOf (sub.trialStartedAt.getD sub.createdAt)) (billingPeriodMultiplier sub.billingPeriod)

/-- The day up to which the subscription is paid. -/
def subscriptionDueDate (sub : Subscription) (a : Account) : Int :=
  let paid := a.getLatestInvoiceForType .monthlySubscription
  match sub.trialEndsAt, coverageDateFromInvoice paid, paid with
  | some t, _, _ => dateOf t
  | none, some d, _ => d
  | none, none, some invoice => addMonthsToDate (dateOf invoice.issuedAt) (billingPeriodMultiplier sub.billingPeriod)
  | none, none, none => subscriptionAnchorDueDate sub

def billingDueDate (sub : Subscription) : Int :=
  match sub.trialEndsAt with
  | some t => dateOf t
  | none => subscriptionAnchorDueDate sub

def nextBillingDateAfter (billingDate : Int) (period : BillingPeriod) : Int :=
  addMonthsToDate billingDate (billingPeriodMultiplier period)

def requiredExtraStorageGb (env : Env) (sub : Subscription) (resources : Resources) : Int :=
  max 0 (roundStorageGb resources.storageBytes - (env.plans.getOrFree sub.planCode).includedStorageGb)

structure EstimatedInvoice where
  discountPercent : Int
  periodMultiplier : Int
  basePlanCents : Int
  recurringAddonsCents : Int
  nextExtraStorageGb : Int
  currentExtraStorageGb : Int
  dueAt : Int
  totalCents : Int
  planCode : String
  billingPeriod : BillingPeriod
  deriving DecidableEq, Repr

/-- A scheduled change is already in force in the estimate. -/
def estimateNextInvoice (env : Env) (sub : Subscription) (a : Account) : EstimatedInvoice :=
  let planCode := orText sub.scheduledPlanCode (orText (some sub.planCode) "free")
  let billingPeriod := sub.scheduledBillingPeriod.getD sub.billingPeriod
  let plan := env.plans.getOrFree planCode
  let multiplier := billingPeriodMultiplier billingPeriod
  let nextExtraStorageGb := requiredExtraStorageGb env sub a.resources
  let base := planMonthlyChargeCentsAfterDiscount plan.priceCents billingPeriod * multiplier
  let addons := (sub.extraKbCount * 500 + nextExtraStorageGb * 500) * multiplier
  { discountPercent := discountPercent billingPeriod
    periodMultiplier := multiplier
    basePlanCents := base
    recurringAddonsCents := addons
    nextExtraStorageGb
    currentExtraStorageGb := sub.extraStorageGb
    dueAt := subscriptionDueDate sub a
    totalCents := base + addons
    planCode
    billingPeriod }

/-! ### Status -/

/-- `SubscriptionStateMachine.resolve`. -/
def resolve (now : Int) (sub : SubscriptionData) (overdueInvoice : Option Invoice) : SubscriptionStatus :=
  if overdueInvoice.any (fun i => (i.status = .issued || i.status = .paymentFailed) && dateOf i.dueAt < dateOf now) then
    .restricted
  else if sub.planCode = "free" then
    if sub.trialEndsAt.any (· ≤ now) then .restricted else .trial
  else .active

/-- The pending cancellation has taken effect and access is not yet withdrawn. -/
def CancellationRequest.restricts (now : Int) (r : CancellationRequest) : Bool :=
  r.status = .deactivationRequested && r.deactivatedAt.isNone && r.effectiveAt.any (· ≤ now)

/-- The day from which a cancelled tenant is deactivated has come. -/
def CancellationRequest.deactivationDue (today : Int) (r : CancellationRequest) : Bool :=
  r.effectiveAt.any (fun t => today ≥ dateOf t + 7)

namespace Account

/-- The failed subscription invoice that decides: the latest monthly one if it failed, unless the latest
    of the failed type was issued after it. -/
def openFailedInvoice (a : Account) : Option Invoice :=
  let openFailed := (a.getLatestInvoiceForType .monthlySubscription).filter (·.status = .paymentFailed)
  match (a.getLatestInvoiceForType .monthlySubscriptionFailed).filter (·.status = .paymentFailed), openFailed with
  | some failed, none => some failed
  | some failed, some latest => if failed.issuedAt > latest.issuedAt then some failed else some latest
  | none, openFailed => openFailed

/-- A monthly invoice that is settled was issued after the failed one. -/
def paidAfterFailed (failed : Invoice) (a : Account) : Bool :=
  (a.getLatestInvoiceForType .monthlySubscription).any (fun paid => paid.status.isPaid && paid.issuedAt > failed.issuedAt)

/-- The debt that is past its due day, as far as the invoices tell. -/
def overdueCandidate (today : Int) (a : Account) : Option Invoice :=
  a.openFailedInvoice.filter (fun failed => !a.paidAfterFailed failed && dateOf failed.dueAt < today)

/-- The overdue debt. One issued before the subscription row was last written is not counted. -/
def overdueInvoice (today : Int) (sub : Subscription) (a : Account) : Option Invoice :=
  (a.overdueCandidate today).filter (fun invoice => !(invoice.issuedAt < sub.updatedAt))

end Account

/-- The cancellation branch of `sync_status`: past its deactivation day the tenant is deactivated and the
    request marked. -/
def syncCancellation (env : Env) (r : CancellationRequest) (a : Account) : Account :=
  if r.deactivationDue env.today then (a.deactivate.markCancellationDeactivated r.id env.now).2 else a

/-- The pending request that restricts the tenant now, if any. -/
def restrictingRequest (env : Env) (a : Account) : Option CancellationRequest :=
  a.getLatestCancellationRequest.filter (·.restricts env.now)

/-- The status that `sync_status` decides on. -/
def nextStatus (env : Env) (sub : Subscription) (a : Account) : SubscriptionStatus :=
  if (restrictingRequest env a).isSome then .restricted
  else resolve env.now sub.toSubscriptionData (a.overdueInvoice env.today sub)

/-- `RestrictionUseCase.sync_status`. -/
def syncStatus (env : Env) (sub : Subscription) (a : Account) : Subscription × Account :=
  let afterCancellation := ((restrictingRequest env a).elim a (syncCancellation env · a))
  let overdue := a.overdueInvoice env.today sub
  let next := nextStatus env sub a
  let afterGrace :=
    if overdue.any (fun i => env.today ≥ dateOf i.dueAt + paymentFailureDeactivationDays) then
      afterCancellation.deactivate
    else afterCancellation
  if next = sub.status then (sub, afterGrace)
  else afterGrace.upsertSubscription env.utcnow { sub.toSubscriptionData with status := next }

/-- The synchronisation writes the subscription, and switches the tenant off alone or with a mark on a request. -/
theorem RowInvariant.synced {P : Account → Prop} (hP : RowInvariant P) (off : ∀ a, P a → P a.deactivate)
    (withdrawn : ∀ a id t, P a → P (a.deactivate.markCancellationDeactivated id t).2) (env : Env) (sub : Subscription)
    {a : Account} (h : P a) : P (syncStatus env sub a).2 := by
  have cancelled : P ((restrictingRequest env a).elim a (syncCancellation env · a)) := by
    cases restrictingRequest env a with
    | none => exact h
    | some r =>
      simp only [Option.elim_some, syncCancellation]
      split
      · exact withdrawn a r.id env.now h
      · exact h
  generalize hc : (restrictingRequest env a).elim a (syncCancellation env · a) = c at cancelled
  have grace : ∀ due : Bool, P (if due then c.deactivate else c) := by
    intro due
    cases due with
    | true => exact off c cancelled
    | false => exact cancelled
  simp only [syncStatus, hc]
  split
  · exact grace _
  · exact hP.upsert _ _ (grace _)

end NyzRating.Billing
