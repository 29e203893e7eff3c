import NyzRating.Billing.Models
import NyzRating.Lib.Lists
import NyzRating.Lib.Program
import Mathlib.Algebra.Ring.Int.Defs
import Mathlib.Data.List.Sort

/-!
# Queries and writes of the billing and tenant repositories

What cannot fail is a function on the account; what a unique constraint can refuse raises.
-/

namespace NyzRating.Billing

open Calendar

inductive BillingError where
  | valueError (message : String)
  | integrityError
  deriving DecidableEq, Repr

/-- An operation on the rows of one tenant. Each write is committed on its own. -/
abbrev AccountM := EStateM BillingError Account

namespace Account

/-! ### Cancellation requests -/

/-- The order of `requested_at, id`. -/
def requestedBefore (r s : CancellationRequest) : Bool :=
  r.requestedAt < s.requestedAt || (r.requestedAt == s.requestedAt && r.id < s.id)

def getLatestCancellationRequest (a : Account) : Option CancellationRequest :=
  Lists.latestBy requestedBefore a.cancellations

/-- The requests that the lifecycle walks. -/
def isOpen (r : CancellationRequest) : Prop :=
  r.status = .deactivationRequested ∧ r.cleanupCompletedAt = none

instance : DecidablePred isOpen := fun _ => inferInstanceAs (Decidable (_ ∧ _))

def listCancellationRequestsForLifecycle (a : Account) : List CancellationRequest :=
  (a.cancellations.filter (isOpen ·)).insertionSort (fun r s => !requestedBefore s r)

theorem mem_listCancellationRequestsForLifecycle {a : Account} {r : CancellationRequest} :
    r ∈ a.listCancellationRequestsForLifecycle ↔ r ∈ a.cancellations ∧ isOpen r := by
  simp [listCancellationRequestsForLifecycle]

def createCancellationRequest (utcnow : Int) (tenantSlug : String) (requestedByUserId : Option Nat)
    (reasonCode reasonText : String) (activeKbCount : Int) (status : CancellationStatus)
    (effectiveAt deactivatedAt : Option Int) (a : Account) : CancellationRequest × Account :=
  let row : CancellationRequest :=
    { id := a.nextCancellationId, tenantSlug, requestedByUserId, reasonCode, reasonText
      activeKbCount := max 0 activeKbCount, status, requestedAt := utcnow, effectiveAt, deactivatedAt }
  (row, { a with cancellations := a.cancellations ++ [row], nextCancellationId := a.nextCancellationId + 1 })

/-- `UPDATE … SET … WHERE id = :id AND …`, with the answer whether a row was changed. -/
def updateRequest (id : Nat) (guard : CancellationRequest → Bool) (set : CancellationRequest → CancellationRequest)
    (a : Account) : Bool × Account :=
  (a.cancellations.any (fun r => r.id == id && guard r),
   { a with cancellations := a.cancellations.map (fun r => if r.id == id && guard r then set r else r) })

theorem mem_updateRequest {id : Nat} {guard : CancellationRequest → Bool} {set : CancellationRequest → CancellationRequest}
    {a : Account} {r : CancellationRequest} :
    r ∈ (updateRequest id guard set a).2.cancellations ↔
      ∃ old ∈ a.cancellations, (if old.id == id && guard old then set old else old) = r := by
  simp [updateRequest]

@[simp] theorem updateRequest_tenant {id guard set} {a : Account} : (updateRequest id guard set a).2.tenant = a.tenant := rfl

@[simp] theorem updateRequest_nextCancellationId {id guard set} {a : Account} :
    (updateRequest id guard set a).2.nextCancellationId = a.nextCancellationId := rfl

/-- The latest request after an update that leaves the order alone. -/
theorem getLatestCancellationRequest_updateRequest {id : Nat} {guard : CancellationRequest → Bool}
    {set : CancellationRequest → CancellationRequest}
    (h : ∀ r, (set r).requestedAt = r.requestedAt ∧ (set r).id = r.id) (a : Account) :
    (updateRequest id guard set a).2.getLatestCancellationRequest =
      a.getLatestCancellationRequest.map (fun r => if r.id == id && guard r then set r else r) := by
  refine Lists.latestBy_map _ (fun r s => ?_) _
  have same : ∀ r, (if r.id == id && guard r then set r else r).requestedAt = r.requestedAt ∧
      (if r.id == id && guard r then set r else r).id = r.id := fun r => by
    split
    · exact h r
    · exact ⟨rfl, rfl⟩
  simp only [requestedBefore, same]

def markCancellationNoticeTwoDaysSent (id : Nat) (sentAt : Int) : Account → Bool × Account :=
  updateRequest id (·.noticeTwoDaysSentAt.isNone) ({ · with noticeTwoDaysSentAt := some sentAt })

def markCancellationNoticeOneDaySent (id : Nat) (sentAt : Int) : Account → Bool × Account :=
  updateRequest id (·.noticeOneDaySentAt.isNone) ({ · with noticeOneDaySentAt := some sentAt })

def markCancellationNoticeExpiredSent (id : Nat) (sentAt : Int) : Account → Bool × Account :=
  updateRequest id (·.noticeExpiredSentAt.isNone) ({ · with noticeExpiredSentAt := some sentAt })

def markCancellationDeactivated (id : Nat) (deactivatedAt : Int) : Account → Bool × Account :=
  updateRequest id (·.deactivatedAt.isNone) ({ · with deactivatedAt := some deactivatedAt })

theorem getLatestCancellationRequest_markDeactivated (a : Account) {r : CancellationRequest}
    (h : a.getLatestCancellationRequest = some r) (hd : r.deactivatedAt = none) (t : Int) :
    (a.markCancellationDeactivated r.id t).2.getLatestCancellationRequest = some { r with deactivatedAt := some t } := by
  unfold markCancellationDeactivated
  rw [getLatestCancellationRequest_updateRequest, h]
  · simp [hd]
  · exact fun _ => ⟨rfl, rfl⟩

/-- The newest pending request is marked as restored, unless it is already deactivated. -/
def restoreLatestCancellationRequest (restoredAt : Int) (a : Account) : Bool × Account :=
  match Lists.latestBy requestedBefore (a.cancellations.filter (·.status = .deactivationRequested)) with
  | none => (false, a)
  | some latest =>
    updateRequest latest.id (·.deactivatedAt.isNone)
      ({ · with status := .renewalRestored, cleanupCompletedAt := some restoredAt }) a

/-! ### Tenant row and configuration -/

def activate (a : Account) : Account := { a with tenant := { a.tenant with isActive := true } }

def deactivate (a : Account) : Account := { a with tenant := { a.tenant with isActive := false } }

def createConfig (package : String) (featureFlags : FeatureFlags) (limits : Limits) (a : Account) : Account :=
  { a with config := some { package, featureFlags, limits := some limits } }

def deleteConfig (a : Account) : Account := { a with config := none }

/-! ### Subscription -/

/-- Every write to an existing row also writes `updated_at`. -/
def upsertSubscription (utcnow : Int) (data : SubscriptionData) (a : Account) : Subscription × Account :=
  let row : Subscription :=
    match a.subscription with
    | none => { data with createdAt := utcnow, updatedAt := utcnow }
    | some old => { data with createdAt := old.createdAt, updatedAt := utcnow }
  (row, { a with subscription := some row })

/-- The row that is written has the values given. -/
@[simp] theorem upsertSubscription_data (utcnow : Int) (data : SubscriptionData) (a : Account) :
    (a.upsertSubscription utcnow data).1.toSubscriptionData = data := by
  unfold upsertSubscription
  cases a.subscription <;> rfl

/-! ### Usage -/

/-- The questions asked in a month: the total when there is one, else the sum over the users. -/
def questionsUsedInPeriod (key : MonthKey) (a : Account) : Int :=
  match a.questionTotals.find? (·.1 = key) with
  | some total => max 0 total.2
  | none => ((a.questionUsage.filter (·.periodKey = key)).map (·.questionCount)).sum

/-! ### Invoices -/

def getInvoice (type : InvoiceType) (key : PeriodKey) (a : Account) : Option Invoice :=
  a.invoices.find? (fun i => i.invoiceType = type ∧ i.periodKey = key)

def getInvoiceById (id : Nat) (a : Account) : Option Invoice := a.invoices.find? (·.id = id)

/-- The order of `issued_at`. -/
def issuedBefore (i j : Invoice) : Bool := i.issuedAt < j.issuedAt

def getLatestInvoiceForType (type : InvoiceType) (a : Account) : Option Invoice :=
  Lists.latestBy issuedBefore (a.invoices.filter (·.invoiceType = type))

def getLatestOpenSubscriptionInvoice (a : Account) : Option Invoice :=
  Lists.latestBy issuedBefore (a.invoices.filter (fun i => i.invoiceType = .monthlySubscription ∧ i.status = .issued))

/-- The latest debt: an open payment request or a failed payment, whichever was issued later. -/
def getLatestUnpaidDebtInvoice (a : Account) : Option Invoice :=
  let failed := Lists.latestBy issuedBefore (a.invoices.filter (fun i => i.status = .paymentFailed ∧
    (i.invoiceType = .monthlySubscription ∨ i.invoiceType = .monthlySubscriptionFailed)))
  match a.getLatestOpenSubscriptionInvoice, failed with
  | none, failed => failed
  | some openIssued, none => some openIssued
  | some openIssued, some failed => if openIssued.issuedAt ≥ failed.issuedAt then some openIssued else some failed

def listTrainingAddonInvoices (a : Account) : List Invoice :=
  a.invoices.filter (fun i =>
    (i.invoiceType = .addon "training_initial_500k" ∨ i.invoiceType = .addon "training_extra_500k") ∧
    (i.status = .simulatedPaid ∨ i.status = .paid))

/-- The newest `limit` invoices. -/
def listRecentInvoices (limit : Nat) (a : Account) : List Invoice :=
  (a.invoices.insertionSort (fun i j => !issuedBefore i j)).take limit

end Account

/-- A second invoice of one type and period is refused. -/
def createInvoice (invoiceType : InvoiceType) (periodKey : PeriodKey) (totalCents : Int) (description : String)
    (lines : List InvoiceLine) (dueAt : Int) (status : InvoiceStatus) (paymentMethod : String) (issuedAt : Int) :
    AccountM Invoice := do
  let a ← get
  if (a.getInvoice invoiceType periodKey).isSome then throw .integrityError
  let row : Invoice :=
    { id := a.nextInvoiceId, invoiceType, periodKey, status, totalCents, paymentMethod, description, lines
      issuedAt, dueAt }
  set { a with invoices := a.invoices ++ [row], nextInvoiceId := a.nextInvoiceId + 1 }
  return row

/-- A new type and period gets its row. -/
theorem createInvoice_run {a : Account} {type : InvoiceType} {key : PeriodKey} (h : a.getInvoice type key = none)
    (total : Int) (description : String) (lines : List InvoiceLine) (dueAt : Int) (status : InvoiceStatus)
    (method : String) (issuedAt : Int) :
    ∃ row : Invoice, row.invoiceType = type ∧ row.periodKey = key ∧ row.status = status ∧ row.totalCents = total ∧
      (createInvoice type key total description lines dueAt status method issuedAt).run a =
        .ok row { a with invoices := a.invoices ++ [row], nextInvoiceId := a.nextInvoiceId + 1 } := by
  refine ⟨{ id := a.nextInvoiceId, invoiceType := type, periodKey := key, status, totalCents := total
            paymentMethod := method, description, lines, issuedAt, dueAt }, rfl, rfl, rfl, rfl, ?_⟩
  simp only [createInvoice, EStateM.run_bind, EStateM.run_get, h]
  rfl

/-- Whether refused or not, it writes invoices only. -/
theorem after_createInvoice (type : InvoiceType) (key : PeriodKey) (total : Int) (description : String)
    (lines : List InvoiceLine) (dueAt : Int) (status : InvoiceStatus) (method : String) (issuedAt : Int) (a : Account) :
    ∃ invoices nextInvoiceId,
      Program.after (createInvoice type key total description lines dueAt status method issuedAt) a =
        { a with invoices, nextInvoiceId } := by
  cases h : a.getInvoice type key with
  | some existing =>
    refine ⟨a.invoices, a.nextInvoiceId, ?_⟩
    simp [Program.after, createInvoice, h]
  | none =>
    obtain ⟨row, -, -, -, -, run⟩ := createInvoice_run h total description lines dueAt status method issuedAt
    exact ⟨_, _, Program.after_of_ok run⟩

/-- The unique constraint also refuses a change of type onto the type and period of another invoice. -/
def updateInvoicePaymentStatus (id : Nat) (status : InvoiceStatus) (paymentMethod : Option String)
    (invoiceType : Option InvoiceType) (lines : Option (List InvoiceLine)) : AccountM (Option Invoice) := do
  let a ← get
  match a.getInvoiceById id with
  | none => return none
  | some old =>
    let row : Invoice :=
      { old with
        status
        paymentMethod := paymentMethod.getD old.paymentMethod
        invoiceType := invoiceType.getD old.invoiceType
        lines := lines.getD old.lines }
    if a.invoices.any (fun i => i.id ≠ id ∧ i.invoiceType = row.invoiceType ∧ i.periodKey = row.periodKey) then
      throw .integrityError
    set { a with invoices := a.invoices.map (fun (i : Invoice) => if i.id = id then row else i) }
    return some row

end NyzRating.Billing
