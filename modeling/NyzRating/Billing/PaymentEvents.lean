import NyzRating.Billing.PlanChange
import Mathlib.Logic.Function.Basic

/-!
# Verified payment events

`process_verified_payment_event` records an event in one commit, changes the plan in two more and writes the
invoice in a fourth. A step can fail before or after its commit.
-/

namespace NyzRating.Billing

open Calendar Program

/-! ### Payloads -/

/-- A value of a payload that `int(a or b)` reads: absent, zero or empty; a number or its text; anything else. -/
inductive JsonInt where
  | falsy
  | value (n : Int)
  | unreadable
  deriving DecidableEq, Repr

namespace JsonInt

def orElse : JsonInt → JsonInt → JsonInt
  | falsy, b => b
  | value n, _ => value n
  | unreadable, _ => unreadable

/-- `int(a or default)`. -/
def toInt (a : JsonInt) (default : Int) : Option Int :=
  match a with
  | falsy => some default
  | value n => some n
  | unreadable => none

end JsonInt

/-- The keys of a payload and of its `metadata` that are read. -/
structure PaymentPayload where
  metadataTenantId : JsonInt
  tenantId : JsonInt := .falsy
  metadataFlow : Option String
  flow : Option String := none
  targetPlan : Option String
  toPlan : Option String := none
  billingPeriod : Option String
  metadataAmountCents : JsonInt
  amountCents : JsonInt := .falsy
  deriving DecidableEq, Repr

/-! ### Rows -/

structure PaymentEvent where
  id : Nat
  provider : String
  eventId : String
  eventType : String
  tenantId : Nat
  deriving DecidableEq, Repr

/-- The accounts by tenant id and the recorded events. `planChanges` lists the events whose plan change was
    committed; no step reads it. -/
structure PaymentState where
  accounts : Nat → Option Account
  events : List PaymentEvent := []
  nextEventId : Nat := 1
  planChanges : List Nat := []

/-- The steps of a delivery that can fail. -/
inductive PaymentStep where
  | record
  | tenantLookup
  | ensureSubscription
  | proration
  | planChange
  | configSync
  | planLookup
  | invoiceLookup
  | createInvoice
  deriving DecidableEq, Repr

inductive PaymentError where
  | valueError (message : String)
  | unreadableNumber
  | integrityError
  | billing (e : BillingError)
  | interrupted (step : PaymentStep)
  deriving DecidableEq, Repr

abbrev PaymentM := EStateM PaymentError PaymentState

inductive PaymentResponse where
  | duplicate
  | recorded
  | processed
  deriving DecidableEq, Repr

/-- One delivery of an event, with the steps of it that fail. -/
structure Delivery where
  env : Env
  provider : String
  eventId : String
  eventType : String
  payload : PaymentPayload
  fault : PaymentStep → Option Fault := fun _ => none

namespace Delivery

variable (d : Delivery)

def normalizedProvider : String := Text.stripLower d.provider

def normalizedEventId : String := String.ofList (Text.strip d.eventId.toList)

def normalizedEventType : String := Text.stripLower d.eventType

/-- The tenant id, when it can be read. -/
def tenantId : Option Int := (d.payload.metadataTenantId.orElse d.payload.tenantId).toInt 0

def flow : String := Text.stripLower (orText d.payload.metadataFlow (orText d.payload.flow ""))

/-- The event pays for an upgrade. -/
def isUpgrade : Bool :=
  d.flow = "plan_upgrade" &&
    (d.normalizedEventType = "checkout.session.completed" || d.normalizedEventType = "invoice.paid" ||
      d.normalizedEventType = "payment.succeeded")

def targetPlan : String := Text.stripLower (orText d.payload.targetPlan (orText d.payload.toPlan ""))

def targetPeriod : BillingPeriod := normalizeBillingPeriod (orText d.payload.billingPeriod "monthly")

/-- The amount that was charged, when it can be read. -/
def totalCharge (preview : UpgradeProration) : Option Int :=
  (d.payload.metadataAmountCents.orElse d.payload.amountCents).toInt preview.totalChargeCents

def attempt {α : Type} (step : PaymentStep) (m : PaymentM α) : PaymentM α :=
  Program.attempt (d.fault step) (.interrupted step) m

end Delivery

namespace PaymentState

/-- The row of `(provider, event_id)`, which is unique. -/
def event? (s : PaymentState) (provider eventId : String) : Option PaymentEvent :=
  s.events.find? (fun e => e.provider = provider ∧ e.eventId = eventId)

def storeAccount (id : Nat) (a : Account) (s : PaymentState) : PaymentState :=
  { s with accounts := Function.update s.accounts id (some a) }

@[simp] theorem storeAccount_accounts_self (id : Nat) (a : Account) (s : PaymentState) :
    (s.storeAccount id a).accounts id = some a := Function.update_self ..

theorem storeAccount_accounts_of_ne {id k : Nat} (h : k ≠ id) (a : Account) (s : PaymentState) :
    (s.storeAccount id a).accounts k = s.accounts k := Function.update_of_ne h ..

end PaymentState

/-- A new row refers to its tenant: without the tenant it is refused. -/
def recordPaymentEventOnce (provider eventId eventType : String) (tenantId : Nat) : PaymentM (PaymentEvent × Bool) := do
  let s ← get
  match s.event? provider eventId with
  | some row => return (row, false)
  | none =>
    if (s.accounts tenantId).isNone then throw .integrityError
    let row : PaymentEvent := { id := s.nextEventId, provider, eventId, eventType, tenantId }
    set { s with events := s.events ++ [row], nextEventId := s.nextEventId + 1 }
    return (row, true)

/-- Runs an operation on the account `a` of a tenant and stores what it leaves. -/
def storeRun {α : Type} (id : Nat) (m : AccountM α) (a : Account) : PaymentM Unit :=
  match m.run a with
  | .ok _ a => modify (·.storeAccount id a)
  | .error e _ => throw (.billing e)

/-- The invoice of an applied upgrade. `a` is the account of its tenant as the steps so far have left it. -/
def bookVerifiedUpgrade (d : Delivery) (event : PaymentEvent) (preview : UpgradeProration) (a : Account) :
    PaymentM PaymentResponse := do
  d.attempt .planLookup (pure ())
  match d.totalCharge preview with
  | none => throw .unreadableNumber
  | some totalCharge =>
    let key := PeriodKey.paymentEvent event.id
    let existing ← d.attempt .invoiceLookup (pure (a.getInvoice .planUpgrade key))
    if existing.isSome then return .processed
    let periodTotal := if preview.nextPeriodChargeCents = 0 then totalCharge else preview.nextPeriodChargeCents
    d.attempt .createInvoice <| storeRun event.tenantId (createInvoice .planUpgrade key totalCharge
      ("Webhook verified csomagváltás: " ++ (d.env.plans.getOrFree d.targetPlan).name)
      (upgradeLines preview d.targetPlan d.targetPeriod periodTotal false d.normalizedProvider (some d.normalizedEventId))
      d.env.now .paid d.normalizedProvider d.env.now) a
    return .processed

/-- The upgrade that a new event pays for. -/
def applyVerifiedUpgrade (d : Delivery) (event : PaymentEvent) : PaymentM PaymentResponse := do
  let env := d.env
  match ← d.attempt .tenantLookup (do return (← get).accounts event.tenantId) with
  | none => throw (.valueError "Ismeretlen tenant.")
  | some a =>
    let (sub, a) := ensureSubscription env a.snapshot a
    d.attempt .ensureSubscription (modify (·.storeAccount event.tenantId a))
    match ← d.attempt .proration (pure (upgradeProration env sub d.targetPlan d.targetPeriod)) with
    | none => throw (.valueError "Érvénytelen webhook upgrade payload.")
    | some preview =>
      -- the two commits of `_apply_immediate_plan_change`; the proration has found the plan
      let (updated, a) := a.upsertSubscription env.utcnow
        (immediatePlanData env sub (env.plans.getOrFree d.targetPlan) d.targetPeriod (some (midnight preview.paidUntil)) a)
      d.attempt .planChange (modify fun s =>
        { s.storeAccount event.tenantId a with planChanges := s.planChanges ++ [event.id] })
      let a := syncTenantConfig env updated a
      d.attempt .configSync (modify (·.storeAccount event.tenantId a))
      bookVerifiedUpgrade d event preview a

/-- `process_verified_payment_event`. -/
def processVerifiedPaymentEvent (d : Delivery) : PaymentM PaymentResponse := do
  if d.normalizedProvider = "" ∨ d.normalizedEventId = "" then
    throw (.valueError "Hiányzó payment event azonosító.")
  match d.tenantId with
  | none => throw .unreadableNumber
  | some tenantId =>
    if tenantId ≤ 0 then throw (.valueError "Hiányzó tenant azonosító a payment eventben.")
    let (event, isNew) ← d.attempt .record
      (recordPaymentEventOnce d.normalizedProvider d.normalizedEventId d.normalizedEventType tenantId.toNat)
    if !isNew then return .duplicate
    if !d.isUpgrade then return .recorded
    applyVerifiedUpgrade d event

/-- The answer to a delivery; one that raises has none. -/
def answer (s : PaymentState) (d : Delivery) : Option PaymentResponse :=
  match (processVerifiedPaymentEvent d).run s with
  | .ok response _ => some response
  | .error _ _ => none

/-- The database after a delivery, answered or not. -/
def deliver (s : PaymentState) (d : Delivery) : PaymentState := after (processVerifiedPaymentEvent d) s

/-! ### What deliveries leave alone -/

/-- `P k` holds of the account of every tenant `k`. -/
def PaymentState.Each (P : Nat → Account → Prop) (s : PaymentState) : Prop := ∀ k a, s.accounts k = some a → P k a

section
variable {P : Nat → Account → Prop} {s : PaymentState}

theorem PaymentState.Each.store (h : s.Each P) {id : Nat} {a : Account} (ha : P id a) : (s.storeAccount id a).Each P := by
  intro k b hb
  by_cases hk : k = id
  · subst hk
    rw [PaymentState.storeAccount_accounts_self] at hb
    cases hb
    exact ha
  · rw [PaymentState.storeAccount_accounts_of_ne hk] at hb
    exact h k b hb

theorem Delivery.attempt_leads {α : Type} (d : Delivery) (step : PaymentStep) {m : PaymentM α} {Q : PaymentState → Prop}
    (h : Leads Q m Q) : Leads Q (d.attempt step m) Q :=
  (Returns.attempt (.of_leads h) (fun _ h => h) fun _ _ h => h).leads

end

end NyzRating.Billing
