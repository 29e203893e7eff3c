import NyzRating.Billing.Cancellation
import NyzRating.Billing.Settlement

/-!
# The due cycle

`process_due_cycles` for one tenant: the lifecycle of its cancellations, the billing cycle, and the daily retry
of a failed payment. Every query and write of these loops selects by tenant, and what one tenant raises is
caught before the next one is processed, so the loops treat each tenant on its own.
-/

namespace NyzRating.Billing

open Calendar Program

/-- The latest cancellation request is pending. -/
def cancellationPending (a : Account) : Bool :=
  a.getLatestCancellationRequest.any (·.status = .deactivationRequested)

/-- `InvoicingUseCase.execute`. -/
def invoicing (env : Env) (sub : Subscription) : AccountM Unit := do
  let a ← get
  let billingDate := billingDueDate sub
  if sub.planCode ≠ "free" && sub.status ≠ .restricted && !cancellationPending a && !(env.today < billingDate) then
    if (a.getInvoice .monthlySubscription (.date billingDate)).isNone
        && (a.getInvoice .monthlySubscriptionFailed (.date billingDate)).isNone then
      let _ ← issueSubscriptionPaymentRequest env sub billingDate (.date billingDate)

/-- The body of the loop of `BillingCycleProcessor.process`. -/
def billingCycle (env : Env) (ctx : TenantContext) : AccountM Unit := do
  let sub ← modifyGet (ensureSubscription env ctx)
  let sub ← modifyGet (applyDueScheduledPlanChange env sub)
  let sub ← modifyGet (syncStatus env sub)
  invoicing env sub
  modify (syncTenantConfig env sub)

/-- `BillingCycleProcessor.process` on one row of the tenants. -/
def processTenant (env : Env) (a : Account) : Account :=
  if a.tenant.isActive then after (billingCycle env a.snapshot) a else a

/-- `retry_failed_payments_daily` on one row of the tenants. -/
def retryTenant (env : Env) (a : Account) : Account :=
  if a.tenant.isActive then after (retryFailedPayment env a.snapshot) a else a

/-- `process_due_cycles`. A deleted tenant has no account any more. -/
def processDueCycles (env : Env) (a : Account) : Option Account :=
  (processCancellationLifecycle env a).account.map fun a => retryTenant env (processTenant env a)

/-! ### What invoicing leaves alone -/

namespace RowInvariant

variable {P : Account → Prop} (env : Env) (sub : Subscription)

theorem issuePaymentRequest (hP : RowInvariant P) (dueDate : Int) (key : PeriodKey) :
    Leads P (issueSubscriptionPaymentRequest env sub dueDate key) P := by
  unfold issueSubscriptionPaymentRequest
  refine Leads.ite (fun _ => Leads.pure (fun _ h => h) _) fun _ => ?_
  refine Leads.ite (fun _ => Leads.pure (fun _ h => h) _) fun _ => ?_
  refine Leads.bind (Leads.get fun _ h => h) (fun a => ?_) fun _ h => h
  split
  · exact Leads.pure (fun _ h => h) _
  · refine Leads.ite (fun _ => Leads.pure (fun _ h => h) _) fun _ => ?_
    exact Leads.bind (hP.createInvoice _ _ _ _ _ _ _ _ _) (fun _ => Leads.pure (fun _ h => h) _) fun _ h => h

theorem invoicing (hP : RowInvariant P) : Leads P (invoicing env sub) P := by
  unfold Billing.invoicing
  refine Leads.bind (Leads.get fun _ h => h) (fun a => ?_) fun _ h => h
  refine Leads.ite (fun _ => ?_) fun _ => Leads.pure (fun _ h => h) _
  refine Leads.ite (fun _ => ?_) fun _ => Leads.pure (fun _ h => h) _
  exact Leads.bind (hP.issuePaymentRequest env sub _ _) (fun _ => Leads.pure (fun _ h => h) _) fun _ h => h

end RowInvariant

end NyzRating.Billing
