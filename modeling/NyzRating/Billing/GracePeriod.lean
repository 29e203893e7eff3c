import NyzRating.Billing.Catalog
import NyzRating.Billing.DueCycle
import NyzRating.Billing.PlanChange
import NyzRating.Lib.Run

/-!
# The end of the grace period

Thirty days after the due day of a failed subscription invoice the due cycle switches the tenant off, if it still counts
the invoice as overdue. It does so only while the subscription row is older than the invoice; and the first due cycle
after the due day writes that row, to restrict the subscription.
-/

namespace NyzRating.Billing.GracePeriod

open Program Runs Calendar

/-- The calls of a run on one tenant. -/
inductive Op where
  | dueCycles (env : Env)
  | update (env : Env) (ctx : TenantContext) (planCode billingPeriod : String)
  | completeUpgrade (env : Env) (ctx : TenantContext) (planCode billingPeriod : String)
  | purchaseAddon (env : Env) (ctx : TenantContext) (addonCode : String) (quantity : Int)
  | settle (env : Env) (ctx : TenantContext)
  | completeBilling (env : Env) (ctx : TenantContext) (outcome : String) (force forceNewInvoice : Bool)
  | cancel (env : Env) (ctx : TenantContext) (reasonCode reasonText : String) (requestedByUserId : Option Nat)
  | restore (env : Env) (ctx : TenantContext)
  | deleteAccess (env : Env) (ctx : TenantContext)
  | syncStatus (env : Env) (sub : Subscription)
  | syncConfig (env : Env) (sub : Subscription)

def Op.run (a : Account) : Op → Option Account
  | .dueCycles env => processDueCycles env a
  | .update env ctx plan period => some (after (updateSubscription env ctx plan period) a)
  | .completeUpgrade env ctx plan period => some (after (completeUpgradeAfterCheckout env ctx plan period) a)
  | .purchaseAddon env ctx addon quantity => some (after (Billing.purchaseAddon env ctx addon quantity) a)
  | .settle env ctx => some (after (settleSubscription env ctx) a)
  | .completeBilling env ctx outcome force forceNew =>
    some (after (completeSubscriptionBilling env ctx none outcome force forceNew) a)
  | .cancel env ctx code text user => some (after (cancelSubscription env ctx code text user) a)
  | .restore env ctx => some (after (restoreSubscriptionRenewal env ctx) a)
  | .deleteAccess env ctx => some (after (deleteServiceAccess env ctx) a)
  | .syncStatus env sub => some (Billing.syncStatus env sub a).2
  | .syncConfig env sub => some (syncTenantConfig env sub a)

/-- The failed subscription invoices of a tenant. -/
def failedInvoices (a : Account) : List Nat :=
  (a.invoices.filter fun i =>
    (i.invoiceType = .monthlySubscription || i.invoiceType = .monthlySubscriptionFailed) && i.status = .paymentFailed).map (·.id)

def paidInvoices (a : Account) : List Nat := (a.invoices.filter (·.status.isPaid)).map (·.id)

/-- The tenant, and the subscription invoices whose payment has failed in the run with no invoice paid since. -/
structure World where
  account : Option Account
  unsettled : List Nat := []

/-- A payment clears the list. -/
def unsettledAfter (unsettled : List Nat) (a b : Account) : List Nat :=
  if (paidInvoices b).any (· ∉ paidInvoices a) then []
  else (failedInvoices b).filter fun id => id ∈ unsettled || id ∉ failedInvoices a

def step (w : World) (op : Op) : World :=
  match w.account with
  | none => { account := none }
  | some a =>
    match op.run a with
    | none => { account := none }
    | some b => { account := some b, unsettled := unsettledAfter w.unsettled a b }

/-- The tenant is active, on a paid plan, and the grace period of its failed invoice `f` is over. -/
structure Overdue (w : World) (today : Int) (a : Account) (sub : Subscription) (f : Invoice) : Prop where
  account : w.account = some a
  active : a.tenant.isActive = true
  subscription : a.subscription = some sub
  paid : sub.planCode ≠ "free"
  found : a.getInvoiceById f.id = some f
  unsettled : f.id ∈ w.unsettled
  grace : dateOf f.dueAt + paymentFailureDeactivationDays ≤ today

/-- A due cycle after the grace period of an invoice that it does not settle switches the tenant off. -/
def Enforced (w : World) : Op → Prop
  | .dueCycles env => ∀ a sub f, Overdue w env.today a sub f → f.id ∈ (step w (.dueCycles env)).unsettled →
      ∀ b, (step w (.dueCycles env)).account = some b → b.tenant.isActive = false
  | _ => True

/-- The newest failed invoice is counted, and its grace period is over: the subscription row was last written before
    it, and no scheduled plan change is about to be written. -/
def Counted (env : Env) (a : Account) (sub : Subscription) : Prop :=
  (sub.scheduledPlanCode.filter (· ≠ "") = none ∨ scheduledChangeDue env sub = false) ∧
    ∃ g ∈ a.overdueCandidate env.today, sub.updatedAt ≤ g.issuedAt ∧
      dateOf g.dueAt + paymentFailureDeactivationDays ≤ env.today

instance (env : Env) (a : Account) (sub : Subscription) : Decidable (Counted env a sub) :=
  inferInstanceAs (Decidable (_ ∧ ∃ g ∈ a.overdueCandidate env.today, sub.updatedAt ≤ g.issuedAt ∧
    dateOf g.dueAt + paymentFailureDeactivationDays ≤ env.today))

/-- A cancellation whose deactivation day has come. -/
def CancellationDue (env : Env) (a : Account) : Prop :=
  ∃ r ∈ a.cancellations, Account.isOpen r ∧ r.deactivatedAt = none ∧ r.deactivationDue env.today = true

def InTime (w : World) : Op → Prop
  | .dueCycles env => ∀ a sub f, Overdue w env.today a sub f → Counted env a sub ∨ CancellationDue env a
  | _ => True

/-! ### One due cycle -/

theorem rowInvariant_off : RowInvariant fun a => a.tenant.isActive = false :=
  ⟨fun _ _ _ h => h, fun _ _ h => h, fun _ _ _ h => h⟩

theorem syncStatus_off {env : Env} {sub : Subscription} {a : Account} {g : Invoice}
    (hg : a.overdueCandidate env.today = some g) (hu : sub.updatedAt ≤ g.issuedAt)
    (grace : dateOf g.dueAt + paymentFailureDeactivationDays ≤ env.today) :
    (syncStatus env sub a).2.tenant.isActive = false := by
  have overdue : a.overdueInvoice env.today sub = some g := by
    rw [Account.overdueInvoice, hg, Option.filter_some, if_pos]
    simpa using hu
  have due : (a.overdueInvoice env.today sub).any
      (fun i => env.today ≥ dateOf i.dueAt + paymentFailureDeactivationDays) = true := by
    rw [overdue]
    simpa using grace
  simp only [syncStatus, due]
  split
  · rfl
  · rfl

/-- The billing cycle switches the tenant off when it counts the invoice. -/
theorem processTenant_off {env : Env} {a : Account} {sub : Subscription} (hs : a.subscription = some sub)
    (counted : Counted env a sub) : (processTenant env a).tenant.isActive = false := by
  cases active : a.tenant.isActive with
  | false => rw [processTenant, active, if_neg Bool.false_ne_true, active]
  | true =>
    obtain ⟨unscheduled, g, hg, hu, grace⟩ := counted
    have ensured : ensureSubscription env a.snapshot a = (sub, a) := by rw [ensureSubscription, hs]
    have applied : applyDueScheduledPlanChange env sub a = (sub, a) := by
      rw [applyDueScheduledPlanChange]
      cases hp : sub.scheduledPlanCode.filter (· ≠ "") with
      | none => rfl
      | some plan =>
        have notDue := unscheduled.resolve_left (by rw [hp]; nofun)
        simp only [notDue]
        rfl
    have off := syncStatus_off hg hu grace
    rw [processTenant, active, if_pos rfl, billingCycle]
    rw [after_modifyGet_bind, ensured, after_modifyGet_bind, applied, after_modifyGet_bind]
    generalize syncStatus env sub a = synced at off
    refine Leads.bind (rowInvariant_off.invoicing env synced.1) (fun _ => ?_) (fun _ h => h) synced.2 off
    exact Leads.modify fun b hb => rowInvariant_off.config env synced.1 b hb

/-- The lifecycle of cancellations leaves invoices and subscription as they are. -/
theorem lifecycleInvariant_billing (a : Account) :
    LifecycleInvariant fun b => b.invoices = a.invoices ∧ b.subscription = a.subscription :=
  ⟨fun _ _ _ h => h, fun _ _ _ h => h, fun _ _ _ h => h, fun _ _ _ h => h⟩

theorem retryTenant_off {env : Env} {a : Account} (h : a.tenant.isActive = false) :
    (retryTenant env a).tenant.isActive = false := by
  rw [retryTenant, h, if_neg Bool.false_ne_true, h]

/-- After the due cycle, a tenant whose invoice is counted or whose cancellation is due is off. -/
theorem processDueCycles_off {env : Env} {a : Account} {sub : Subscription} (hs : a.subscription = some sub)
    (h : Counted env a sub ∨ CancellationDue env a) : ∀ b, processDueCycles env a = some b → b.tenant.isActive = false := by
  intro b hb
  obtain ⟨c, hc, rfl⟩ := Option.map_eq_some_iff.mp hb
  refine retryTenant_off ?_
  rcases h with ⟨unscheduled, g, hg, rest⟩ | ⟨r, hr, hopen, untouched, due⟩
  · obtain ⟨hinv, hsub⟩ := (lifecycleInvariant_billing a).lifecycle env ⟨rfl, rfl⟩ c hc
    have candidate : c.overdueCandidate env.today = a.overdueCandidate env.today := by
      simp only [Account.overdueCandidate, Account.openFailedInvoice, Account.paidAfterFailed,
        Account.getLatestInvoiceForType, hinv]
    exact processTenant_off (hsub.trans hs) ⟨unscheduled, g, candidate ▸ hg, rest⟩
  · have off := lifecycle_deactivates env hr hopen untouched due c hc
    rw [processTenant, off, if_neg Bool.false_ne_true]
    exact off

/-- In every run, a due cycle after the grace period switches the tenant off, when it comes to the failed invoice in
    time. -/
theorem grace_period_enforced (w : World) (ops : List Op) (h : Always step InTime w ops) : Always step Enforced w ops := by
  refine h.mono fun w op inTime => ?_
  cases op with
  | dueCycles env =>
    intro a sub f overdue _ b hb
    have run : (step w (.dueCycles env)).account = processDueCycles env a := by
      simp only [step, overdue.account, Op.run]
      cases processDueCycles env a <;> rfl
    exact processDueCycles_off overdue.subscription (inTime a sub f overdue) b (run ▸ hb)
  | _ => trivial

/-! ### A tenant whose card is declined -/

/-- A tenant buys a plan on day 20000; from day 20031 on, its card is declined. -/
def customer : World := { account := some (Account.created "acme" "Acme" (midnight 20000)) }

def purchase : Op :=
  .update (Env.seeded (midnight 20000)) { slug := "acme", createdAt := none, isActive := none } "starter" "monthly"

def declinedCycle (day : Int) : Op :=
  .dueCycles
    { Env.seeded (midnight day) with
      provider := .stripeTest
      charge := fun _ => { success := false, status := "declined", paymentMethod := "stripe_test_card" } }

/-- Two due cycles thirty days apart. -/
theorem grace_period_enforced_after_pause :
    Always step Enforced customer [purchase, declinedCycle 20031, declinedCycle 20061] ∧
      (final step customer [purchase, declinedCycle 20031]).unsettled = [2] := by
  have first : (final step customer [purchase]).unsettled = [] := rfl
  have counted : ∀ a ∈ (final step customer [purchase, declinedCycle 20031]).account, ∀ sub ∈ a.subscription,
      Counted { Env.seeded (midnight 20061) with provider := .stripeTest } a sub := by decide
  refine ⟨grace_period_enforced _ _ ⟨trivial, fun a sub f h => ?_, fun a sub f h => ?_, trivial⟩, by decide⟩
  · exact absurd (first ▸ h.unsettled) List.not_mem_nil
  · exact .inl (counted a h.account sub h.subscription)

/-- One due cycle a day, up to the day before the last day of the grace period. -/
def dailyRun : List Op := purchase :: (List.range 30).map fun k => declinedCycle (20031 + k)

set_option maxRecDepth 4000 in
/-- With a due cycle on each day, the tenant is still active after the one that ends its grace period. -/
theorem grace_period_not_enforced : ¬Always step Enforced customer (dailyRun ++ [declinedCycle 20061]) := by
  intro h
  have enforced : Enforced (final step customer dailyRun) (declinedCycle 20061) := (always_append.mp h).2.1
  have overdue : (final step customer dailyRun).account.any (fun a =>
      a.tenant.isActive && a.subscription.any (·.planCode ≠ "free") &&
        (a.getInvoiceById 2).any fun f => f.id = 2 && dateOf f.dueAt + paymentFailureDeactivationDays ≤ 20061) = true := by
    decide
  have unsettled : 2 ∈ (final step customer dailyRun).unsettled := by decide
  have still : 2 ∈ (step (final step customer dailyRun) (declinedCycle 20061)).unsettled := by decide
  have active : (step (final step customer dailyRun) (declinedCycle 20061)).account.any (·.tenant.isActive) = true := by
    decide
  generalize final step customer dailyRun = w at enforced overdue unsettled still active
  obtain ⟨a, ha, hq⟩ := (Option.any_eq_true _ _).mp overdue
  obtain ⟨b, hb, hactive⟩ := (Option.any_eq_true _ _).mp active
  simp only [Bool.and_eq_true, Option.any_eq_true, decide_eq_true_eq] at hq
  obtain ⟨⟨on, sub, hsub, paid⟩, f, hf, hid, grace⟩ := hq
  have off := enforced a sub f ⟨ha, on, hsub, paid, hid ▸ hf, hid ▸ unsettled, grace⟩ (hid ▸ still) b hb
  exact absurd (hactive.symm.trans off) (by decide)

end NyzRating.Billing.GracePeriod
