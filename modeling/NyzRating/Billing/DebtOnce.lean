import NyzRating.Billing.GracePeriod
import NyzRating.Billing.RestrictionStable
import NyzRating.Lib.Run

/-!
# A debt is charged once

`settle_subscription` and the daily retry read the subscription and the debt, charge it, and then write the invoice and
the whole subscription. Here each of these is a step of its own, and any number of calls on one tenant take their steps
interleaved.
-/

namespace NyzRating.Billing.DebtOnce

open Program Runs Calendar

/-! ### The calls, step by step -/

inductive Call where
  | settle (env : Env) (ctx : TenantContext)
  | retry (env : Env) (ctx : TenantContext)

namespace Call

def env : Call → Env
  | settle env _ | retry env _ => env

def ctx : Call → TenantContext
  | settle _ ctx | retry _ ctx => ctx

/-- The call takes the answer of the payment provider to this amount for a payment. -/
def accepts : Call → Int → Bool
  | settle env _, amountCents => ownerCheckoutPaymentAccepted (env.executePayment amountCents)
  | retry env _, amountCents => (env.executePayment amountCents).success

end Call

/-- How far a call has come, with the rows that it holds. -/
inductive Phase where
  | waiting
  | subscribed (sub : Subscription)
  | indebted (debt : Invoice)
  | owing (sub : Subscription) (debt : Invoice)
  -- `_settle_debt_invoice_as_paid`
  | accepted (sub : Subscription) (debt : Invoice)
  | marked (sub : Subscription)
  | covered
  | syncing (sub : Subscription)
  -- a charge that was refused
  | refused (sub : Subscription) (debt : Invoice)
  | demoting (sub : Subscription) (debt : Invoice) (type : Option InvoiceType)
  | refreshing (sub : Subscription) (debt : Invoice)
  | resyncing (sub : Subscription) (debt : Invoice)
  | noting (debt : Invoice)
  -- without a debt
  | prepaying (sub : Subscription)
  | prepaid (sub : Subscription)
  | billing (sub : Subscription) (billingDate : Int)
  | invoicing (sub : Subscription) (billingDate : Int) (key : PeriodKey) (estimated : EstimatedInvoice)
  | covering (sub : Subscription) (billingDate : Int) (extraStorageGb : Int)
  | reactivating
  | prefailing (sub : Subscription)
  | failing (sub : Subscription) (billingDate : Int)
  | ended
  deriving DecidableEq, Repr

/-- A step that raises ends the call. -/
def proceed {α : Type} (next : Phase) : EStateM.Result BillingError Account α → Phase × Account
  | .ok _ a => (next, a)
  | .error _ a => (.ended, a)

/-- The step after a phase. Each is one call of the repository, or reads in a row. -/
def advance (c : Call) (phase : Phase) (a : Account) : Phase × Account :=
  let env := c.env
  match phase with
  | .waiting =>
    match c with
    | .settle .. =>
      let (sub, a) := ensureSubscription env c.ctx a
      (.subscribed sub, a)
    | .retry .. =>
      match a.getLatestUnpaidDebtInvoice with
      | none => (.ended, a)
      | some debt =>
        if env.today ≥ dateOf debt.dueAt + paymentFailureDeactivationDays then (.ended, a)
        else if invoiceRetryDate debt = some env.today then (.ended, a)
        else (.indebted debt, a)
  | .subscribed sub =>
    match a.getLatestUnpaidDebtInvoice with
    | some debt => (.owing sub debt, a)
    | none => (.prepaying sub, a)
  | .indebted debt =>
    let (sub, a) := ensureSubscription env c.ctx a
    (.owing sub debt, a)
  | .owing sub debt => (if c.accepts debt.totalCents then .accepted sub debt else .refused sub debt, a)
  | .accepted sub debt =>
    proceed (.marked sub) ((updateInvoicePaymentStatus debt.id env.invoicePaidStatus (some env.invoicePaymentMethod)
      (some .monthlySubscription) none).run a)
  | .marked sub =>
    let next := nextBillingDateAfter (billingDueDate sub) sub.billingPeriod
    (.covered, (a.upsertSubscription env.utcnow
      (paidSubscription sub next (estimateNextInvoice env sub a).nextExtraStorageGb)).2)
  | .covered =>
    let (current, a) := ensureSubscription env c.ctx (reactivate c.ctx a)
    (.syncing current, a)
  | .syncing sub => (.ended, (syncStatus env sub a).2)
  | .refused sub debt =>
    match c with
    | .settle .. => (.demoting sub debt (failedDebtType debt a), a)
    | .retry .. =>
      if debt.status = .issued then
        proceed (.refreshing sub debt) ((updateInvoicePaymentStatus debt.id .paymentFailed (some "auto_retry_failed")
          (some .monthlySubscriptionFailed) none).run a)
      else (.noting debt, a)
  | .demoting sub debt type =>
    proceed (.syncing sub) ((updateInvoicePaymentStatus debt.id .paymentFailed (some "settle_failed") type none).run a)
  | .refreshing sub debt => (.resyncing sub ((a.getInvoiceById debt.id).getD debt), a)
  | .resyncing sub debt => (.noting debt, (syncStatus env sub a).2)
  | .noting debt => proceed .ended ((markInvoiceRetryMeta debt env.today (sendPaymentFailedOwnerEmail env a)).run a)
  | .prepaying sub => (if c.accepts (estimateNextInvoice env sub a).totalCents then .prepaid sub else .prefailing sub, a)
  | .prepaid sub =>
    let (current, a) := applyDueScheduledPlanChange env sub a
    (.billing current (billingDueDate sub), a)
  | .billing sub billingDate =>
    let estimated := estimateNextInvoice env sub a
    match a.getLatestOpenSubscriptionInvoice with
    | some openRequest => (.accepted sub openRequest, a)
    | none =>
      let key := ((unsettledFailure a).map (·.periodKey)).getD (.date billingDate)
      if (a.getInvoice .monthlySubscription key).isNone then (.invoicing sub billingDate key estimated, a)
      else (.covering sub billingDate estimated.nextExtraStorageGb, a)
  | .invoicing sub billingDate key estimated =>
    let plan := env.plans.getOrFree sub.planCode
    let line : InvoiceLine :=
      { subscriptionLine env sub estimated.totalCents estimated.nextExtraStorageGb with
        extraKbCount := some sub.extraKbCount
        nextBillingDate := some (nextBillingDateAfter billingDate sub.billingPeriod) }
    proceed (.covering sub billingDate estimated.nextExtraStorageGb) ((createInvoice .monthlySubscription key
      estimated.totalCents (plan.name ++ " " ++ billingPeriodLabelHu sub.billingPeriod ++ " díj") [line] env.now
      env.invoicePaidStatus env.invoicePaymentMethod env.now).run a)
  | .covering sub billingDate extraStorageGb =>
    let next := nextBillingDateAfter billingDate sub.billingPeriod
    (.reactivating, (a.upsertSubscription env.utcnow (paidSubscription sub next extraStorageGb)).2)
  | .reactivating => (.ended, reactivate c.ctx a)
  | .prefailing sub =>
    let (current, a) := applyDueScheduledPlanChange env sub a
    (.failing current (billingDueDate sub), a)
  | .failing sub billingDate =>
    proceed .ended ((completeBillingFailed env sub billingDate (.date billingDate) false).run a)
  | .ended => (.ended, a)

/-! ### A call alone -/

/-- Uninterrupted, the call ends with this account. -/
def Finishes (c : Call) (phase : Phase) (a b : Account) : Prop :=
  ∃ n, (fun x : Phase × Account => advance c x.1 x.2)^[n] (phase, a) = (.ended, b)

section
variable {c : Call} {phase : Phase} {a b : Account} {sub : Subscription}

theorem Finishes.ended : Finishes c .ended a a := ⟨0, rfl⟩

theorem Finishes.step (h : Finishes c (advance c phase a).1 (advance c phase a).2 b) : Finishes c phase a b := by
  obtain ⟨n, hn⟩ := h
  exact ⟨n + 1, hn⟩

theorem Finishes.last {α : Type} {m : AccountM α} (h : advance c phase a = DebtOnce.proceed .ended (m.run a)) :
    Finishes c phase a (after m a) := by
  refine .step ?_
  rw [h]
  unfold after
  cases m.run a with
  | ok x t => exact .ended
  | error e t => exact .ended

/-- What comes after `m` writes nothing. -/
theorem Finishes.idle {α β : Type} {m : AccountM α} {f : α → AccountM β} (h : Finishes c phase a (after m a))
    (idle : ∀ x t, after (f x) t = t) : Finishes c phase a (after (m >>= f) a) := by
  cases hm : m.run a with
  | ok x t =>
    rw [after_bind_of_ok hm, idle, ← after_of_ok hm]
    exact h
  | error e t =>
    rw [after_bind_of_error hm, ← after_of_error hm]
    exact h

theorem Finishes.step_to {next : Phase} {t : Account} (h : advance c phase a = (next, t)) (rest : Finishes c next t b) :
    Finishes c phase a b := .step (by rwa [h])

/-- A step that ends the call, or goes on where it returns. -/
theorem Finishes.proceed {α β : Type} {m : AccountM α} {f : α → AccountM β} {next : Phase}
    (h : advance c phase a = DebtOnce.proceed next (m.run a))
    (returned : ∀ x t, m.run a = .ok x t → Finishes c next t (after (f x) t)) : Finishes c phase a (after (m >>= f) a) := by
  refine .step ?_
  rw [h]
  cases hm : m.run a with
  | ok x t =>
    rw [after_bind_of_ok hm]
    exact returned x t hm
  | error e t =>
    rw [after_bind_of_error hm]
    exact .ended

/-- The steps that settle a debt are `_settle_debt_invoice_as_paid`. -/
theorem accepted_alone (c : Call) (sub : Subscription) (debt : Invoice) (a : Account) :
    Finishes c (.accepted sub debt) a (after (settleDebtInvoiceAsPaid c.env c.ctx sub debt) a) :=
  .proceed rfl fun _ _ _ => .step (.step (.step .ended))

theorem billing_alone (c : Call) (sub : Subscription) (billingDate : Int) (a : Account) :
    Finishes c (.billing sub billingDate) a
      (after (completeBillingPaid c.env c.ctx sub billingDate (.date billingDate) false) a) := by
  unfold completeBillingPaid
  rw [after_bind_of_ok (EStateM.run_get _)]
  refine .step ?_
  simp only [advance, Bool.false_eq_true, if_false, Bool.false_or]
  cases a.getLatestOpenSubscriptionInvoice with
  | some openRequest =>
    simp only
    exact .idle (accepted_alone c sub openRequest a) fun _ _ => rfl
  | none =>
    simp only
    split
    · exact .proceed rfl fun _ _ _ => .step (.step .ended)
    · exact .step (.step .ended)

theorem after_completeSubscriptionBilling (env : Env) (ctx : TenantContext) (sub : Subscription) (outcome : String) (a : Account) :
    after (completeSubscriptionBilling env ctx (some sub) outcome true false) a =
      let (current, b) := applyDueScheduledPlanChange env sub a
      after (if outcome = "success" then
          completeBillingPaid env ctx current (billingDueDate sub) (.date (billingDueDate sub)) false
        else if outcome = "failed" then
          completeBillingFailed env current (billingDueDate sub) (.date (billingDueDate sub)) false
        else throw (.valueError "Ismeretlen számlázási kimenet.")) b := by
  unfold completeSubscriptionBilling
  simp only [pure_bind, Bool.not_true, Bool.and_false, Bool.false_eq_true, if_false]
  rw [after_modifyGet_bind]

/-- Uninterrupted, the steps of a settlement are `settle_subscription`. -/
theorem settle_alone (env : Env) (ctx : TenantContext) (a : Account) :
    Finishes (.settle env ctx) .waiting a (after (settleSubscription env ctx) a) := by
  unfold settleSubscription
  rw [after_bind_of_ok (EStateM.run_modifyGet ..), after_bind_of_ok (EStateM.run_get _)]
  refine .step ?_
  change Finishes _ (.subscribed (ensureSubscription env ctx a).1) (ensureSubscription env ctx a).2 _
  generalize ensureSubscription env ctx a = r
  obtain ⟨sub, b⟩ := r
  simp only
  cases hd : b.getLatestUnpaidDebtInvoice with
  | some debt =>
    refine .step_to (show advance _ (.subscribed sub) b = (.owing sub debt, b) by simp only [advance, hd]) ?_
    simp only
    by_cases paid : ownerCheckoutPaymentAccepted (env.executePayment debt.totalCents) = true
    · refine .step_to (show advance _ (.owing sub debt) b = (.accepted sub debt, b) by
        simp only [advance, Call.accepts, paid, if_true]) ?_
      simp only [paid, if_true]
      exact .idle (accepted_alone (.settle env ctx) sub debt b) fun _ _ => rfl
    · refine .step_to (show advance _ (.owing sub debt) b = (.refused sub debt, b) by
        simp only [advance, Call.accepts, paid]
        rfl) ?_
      simp only [paid]
      exact .step (.proceed rfl fun _ _ _ => .step .ended)
  | none =>
    refine .step_to (show advance _ (.subscribed sub) b = (.prepaying sub, b) by simp only [advance, hd]) ?_
    simp only
    by_cases paid : ownerCheckoutPaymentAccepted (env.executePayment (estimateNextInvoice env sub b).totalCents) = true
    · refine .step_to (show advance _ (.prepaying sub) b = (.prepaid sub, b) by
        simp only [advance, Call.accepts, Call.env, paid, if_true]) ?_
      simp only [paid, if_true]
      refine .idle ?_ fun settled t => ?_
      · rw [after_completeSubscriptionBilling]
        exact .step (billing_alone (.settle env ctx) _ _ _)
      · split
        · rfl
        · split
          · rfl
          · rfl
    · refine .step_to (show advance _ (.prepaying sub) b = (.prefailing sub, b) by
        simp only [advance, Call.accepts, Call.env, paid]
        rfl) ?_
      simp only [paid]
      change Finishes _ _ _ (after (completeSubscriptionBilling env ctx (some sub) "failed" true false) b)
      rw [after_completeSubscriptionBilling]
      exact .step (.last rfl)

/-- Uninterrupted, the steps of a retry are one round of `retry_failed_payments_daily`. -/
theorem retry_alone (env : Env) (ctx : TenantContext) (a : Account) :
    Finishes (.retry env ctx) .waiting a (after (retryFailedPayment env ctx) a) := by
  unfold retryFailedPayment
  rw [after_bind_of_ok (EStateM.run_get _)]
  cases hd : a.getLatestUnpaidDebtInvoice with
  | none => exact .step_to (show advance _ .waiting a = (.ended, a) by simp only [advance, hd]) .ended
  | some debt =>
    simp only
    by_cases late : env.today ≥ dateOf debt.dueAt + paymentFailureDeactivationDays
    · rw [if_pos late]
      exact .step_to (show advance _ .waiting a = (.ended, a) by
        simp only [advance, hd]
        exact if_pos late) .ended
    · rw [if_neg late]
      by_cases done : invoiceRetryDate debt = some env.today
      · rw [if_pos done]
        exact .step_to (show advance _ .waiting a = (.ended, a) by
          simp only [advance, hd]
          exact (if_neg late).trans (if_pos done)) .ended
      · rw [if_neg done, after_modifyGet_bind]
        refine .step_to (show advance _ .waiting a = (.indebted debt, a) by
          simp only [advance, hd]
          exact (if_neg late).trans (if_neg done)) (.step ?_)
        change Finishes _ (.owing (ensureSubscription env ctx a).1 debt) (ensureSubscription env ctx a).2 _
        generalize ensureSubscription env ctx a = r
        obtain ⟨sub, b⟩ := r
        simp only
        by_cases paid : (env.executePayment debt.totalCents).success = true
        · refine .step_to (show advance _ (.owing sub debt) b = (.accepted sub debt, b) by
            simp only [advance, Call.accepts, paid, if_true]) ?_
          simp only [paid, if_true]
          exact .idle (accepted_alone (.retry env ctx) sub debt b) fun _ _ => rfl
        · refine .step_to (show advance _ (.owing sub debt) b = (.refused sub debt, b) by
            simp only [advance, Call.accepts, paid]
            rfl) ?_
          simp only [paid]
          have noting : ∀ (debt : Invoice) (b : Account), Finishes (.retry env ctx) (.noting debt) b (after (do
              markInvoiceRetryMeta debt env.today (sendPaymentFailedOwnerEmail env b)
              return RetryOutcome.failed (sendPaymentFailedOwnerEmail env b)) b) :=
            fun _ _ => .idle (.last rfl) fun _ _ => rfl
          by_cases issued : debt.status = .issued
          · simp only [issued, if_true]
            refine .proceed (by simp only [advance, issued, if_true]; rfl) fun _ t _ => ?_
            exact .step (.step (noting _ _))
          · simp only [issued, if_false]
            exact .step_to (show advance _ (.refused sub debt) b = (.noting debt, b) by simp only [advance, issued, if_false])
              (noting debt b)

end

/-! ### Interleaved calls -/

/-- An accepted charge: of an invoice, or of the next period. -/
structure Charge where
  call : Nat
  invoice : Option Nat
  deriving DecidableEq, Repr

/-- The tenant, how far each call has come, and, in their order, the accepted charges and the extensions of the
    coverage, each by one period. -/
structure State where
  account : Account
  phase : Nat → Phase := fun _ => .waiting
  charges : List Charge := []
  extensions : List (Nat × BillingPeriod) := []

/-- The charge that a step from one phase to the next has made. -/
def chargeOf (i : Nat) : Phase → Phase → List Charge
  | .owing _ debt, .accepted .. => [{ call := i, invoice := some debt.id }]
  | .prepaying _, .prepaid _ => [{ call := i, invoice := none }]
  | _, _ => []

def extensionOf (i : Nat) : Phase → List (Nat × BillingPeriod)
  | .marked sub => [(i, sub.billingPeriod)]
  | .covering sub .. => [(i, sub.billingPeriod)]
  | _ => []

def step (input : Nat → Call) (s : State) (i : Nat) : State :=
  let next := advance (input i) (s.phase i) s.account
  { account := next.2
    phase := Function.update s.phase i next.1
    charges := s.charges ++ chargeOf i (s.phase i) next.1
    extensions := s.extensions ++ extensionOf i (s.phase i) }

/-- The charges that the call has made and not yet extended the coverage for. -/
def Phase.pending : Phase → Nat
  | .accepted .. | .marked .. | .prepaid .. | .billing .. | .invoicing .. | .covering .. => 1
  | _ => 0

/-- The invoice that the call is about to mark as paid. -/
def Phase.marking : Phase → Option Nat
  | .accepted _ debt => some debt.id
  | _ => none

def trialEndsAt (a : Account) : Option Int := a.subscription.bind (·.trialEndsAt)

/-- The coverage after one more period. -/
def extend (trialEndsAt : Option Int) (period : BillingPeriod) : Option Int :=
  trialEndsAt.map fun t => midnight (nextBillingDateAfter (dateOf t) period)

/-- No invoice is charged twice; each call that has charged extends the coverage once; and the coverage has come from
    `start` by these extensions alone. -/
structure Lawful (start : Option Int) (s : State) : Prop where
  once : ∀ id, s.charges.countP (·.invoice = some id) ≤ 1
  extended : ∀ i, s.charges.countP (·.call = i) =
    s.extensions.countP (·.1 = i) + (s.phase i).pending
  coverage : trialEndsAt s.account = (s.extensions.map (·.2)).foldl extend start

/-! ### The condition -/

/-- The subscription is still paid until the date, and by the period, that the call has read. -/
def Current (a : Account) (sub : Subscription) : Prop :=
  ∃ row ∈ a.subscription, row.trialEndsAt = sub.trialEndsAt ∧ row.billingPeriod = sub.billingPeriod

def Unpaid (a : Account) (id : Nat) : Prop := ∀ row ∈ a.getInvoiceById id, row.status.isPaid = false

/-- The invoice can become a paid monthly invoice: no other one has its key. -/
def Markable (a : Account) (id : Nat) : Prop :=
  ∃ row ∈ a.getInvoiceById id, ∀ other ∈ a.invoices, other.id ≠ id → other.invoiceType = .monthlySubscription →
    other.periodKey ≠ row.periodKey

/-- The next step of the call finds what it relies on: a debt that it charges or is about to make unpaid has not been
    paid; the subscription that it writes over is paid until the date that it has read; no other invoice is in the way of
    the one it writes; and none has been issued since it has found no debt. -/
def Ready (c : Call) (a : Account) : Phase → Prop
  | .owing _ debt => c.accepts debt.totalCents = true → Unpaid a debt.id
  | .accepted _ debt => Markable a debt.id
  | .refused _ debt | .demoting _ debt _ | .noting debt => Unpaid a debt.id
  | .marked sub | .covering sub .. => Current a sub
  | .syncing sub | .resyncing sub _ => nextStatus c.env sub a ≠ sub.status → Current a sub
  | .prepaid sub | .prefailing sub =>
    sub.scheduledPlanCode.filter (· ≠ "") ≠ none → scheduledChangeDue c.env sub = true → Current a sub
  | .billing .. => a.getLatestOpenSubscriptionInvoice = none
  | .invoicing _ _ key _ => a.getInvoice .monthlySubscription key = none
  | _ => True

/-- The debt that the next step may charge. -/
def Phase.charging : Phase → Option Invoice
  | .owing _ debt => some debt
  | _ => none

/-- Moreover, nobody who has charged the debt that it charges is still to mark it as paid. -/
def Undisturbed (input : Nat → Call) (s : State) (i : Nat) : Prop :=
  Ready (input i) s.account (s.phase i) ∧
    ∀ debt ∈ (s.phase i).charging, (input i).accepts debt.totalCents = true →
      ∀ c ∈ s.charges, (s.phase c.call).marking ≠ some debt.id

instance (a : Account) (sub : Subscription) : Decidable (Current a sub) :=
  inferInstanceAs (Decidable (∃ row ∈ a.subscription, _))

instance (a : Account) (id : Nat) : Decidable (Unpaid a id) :=
  inferInstanceAs (Decidable (∀ row ∈ a.getInvoiceById id, _))

instance (a : Account) (id : Nat) : Decidable (Markable a id) :=
  inferInstanceAs (Decidable (∃ row ∈ a.getInvoiceById id, ∀ other ∈ a.invoices, _))

instance (c : Call) (a : Account) : (phase : Phase) → Decidable (Ready c a phase)
  | .owing _ debt => inferInstanceAs (Decidable (c.accepts debt.totalCents = true → Unpaid a debt.id))
  | .accepted _ debt => inferInstanceAs (Decidable (Markable a debt.id))
  | .refused _ debt | .demoting _ debt _ | .noting debt => inferInstanceAs (Decidable (Unpaid a debt.id))
  | .marked sub | .covering sub .. => inferInstanceAs (Decidable (Current a sub))
  | .syncing sub | .resyncing sub _ => inferInstanceAs (Decidable (nextStatus c.env sub a ≠ sub.status → Current a sub))
  | .prepaid sub | .prefailing sub =>
    inferInstanceAs (Decidable (sub.scheduledPlanCode.filter (· ≠ "") ≠ none → scheduledChangeDue c.env sub = true →
      Current a sub))
  | .billing .. => inferInstanceAs (Decidable (a.getLatestOpenSubscriptionInvoice = none))
  | .invoicing _ _ key _ => inferInstanceAs (Decidable (a.getInvoice .monthlySubscription key = none))
  | .waiting | .subscribed _ | .indebted _ | .covered | .refreshing .. | .prepaying _ | .reactivating | .failing .. | .ended =>
    .isTrue trivial

instance (input : Nat → Call) (s : State) (i : Nat) : Decidable (Undisturbed input s i) :=
  inferInstanceAs (Decidable (Ready _ _ _ ∧ ∀ debt ∈ (s.phase i).charging, _))

/-! ### One step -/

/-- The phases that follow each other where the step is ready. -/
inductive Next : Phase → Phase → Prop
  | skip : Next .waiting .ended
  | subscribed (sub) : Next .waiting (.subscribed sub)
  | indebted (debt) : Next .waiting (.indebted debt)
  | owing (sub debt) : Next (.subscribed sub) (.owing sub debt)
  | retrying (sub debt) : Next (.indebted debt) (.owing sub debt)
  | accepted (sub debt) : Next (.owing sub debt) (.accepted sub debt)
  | refused (sub debt) : Next (.owing sub debt) (.refused sub debt)
  | marked (sub debt) : Next (.accepted sub debt) (.marked sub)
  | covered (sub) : Next (.marked sub) .covered
  | syncing (sub) : Next .covered (.syncing sub)
  | synced (sub) : Next (.syncing sub) .ended
  | demoting (sub debt type) : Next (.refused sub debt) (.demoting sub debt type)
  | demoted (sub debt type) : Next (.demoting sub debt type) (.syncing sub)
  | undemoted (sub debt type) : Next (.demoting sub debt type) .ended
  | refreshing (sub debt) : Next (.refused sub debt) (.refreshing sub debt)
  | raised (sub debt) : Next (.refused sub debt) .ended
  | unissued (sub debt) : Next (.refused sub debt) (.noting debt)
  | resyncing (sub debt row) : Next (.refreshing sub debt) (.resyncing sub row)
  | noting (sub debt) : Next (.resyncing sub debt) (.noting debt)
  | noted (debt) : Next (.noting debt) .ended
  | prepaying (sub) : Next (.subscribed sub) (.prepaying sub)
  | prepaid (sub) : Next (.prepaying sub) (.prepaid sub)
  | prefailing (sub) : Next (.prepaying sub) (.prefailing sub)
  | billing (sub current) (same : current.trialEndsAt = sub.trialEndsAt) :
      Next (.prepaid sub) (.billing current (billingDueDate sub))
  | invoicing (sub date key estimated) : Next (.billing sub date) (.invoicing sub date key estimated)
  | settled (sub date gb) : Next (.billing sub date) (.covering sub date gb)
  | covering (sub date key estimated gb) : Next (.invoicing sub date key estimated) (.covering sub date gb)
  | reactivating (sub date gb) : Next (.covering sub date gb) .reactivating
  | reactivated : Next .reactivating .ended
  | failing (sub current date) : Next (.prefailing sub) (.failing current date)
  | failed (sub date) : Next (.failing sub date) .ended
  | ended : Next .ended .ended

def Paid (a : Account) (id : Nat) : Prop := ∃ row, a.getInvoiceById id = some row ∧ row.status.isPaid = true

section
variable {c : Call} {phase : Phase} {a : Account} {sub : Subscription}

theorem proceed_snd {α : Type} (next : Phase) (m : AccountM α) (a : Account) : (proceed next (m.run a)).2 = after m a := by
  unfold after
  cases m.run a <;> rfl

theorem proceed_fst {α : Type} (next : Phase) (r : EStateM.Result BillingError Account α) :
    (proceed next r).1 = next ∨ (proceed next r).1 = .ended := by
  cases r with
  | ok x a => exact .inl rfl
  | error e a => exact .inr rfl

theorem Paid.of_invoices {b : Account} {id : Nat} (same : b.invoices = a.invoices) (h : Paid a id) : Paid b id := by
  obtain ⟨row, found, paid⟩ := h
  refine ⟨row, ?_, paid⟩
  rw [Account.getInvoiceById, same]
  exact found

/-- An invoice with its new status, or nothing, when another one is in the way. -/
theorem updateInvoice_forms (id : Nat) (status : InvoiceStatus) (method : Option String) (type : Option InvoiceType)
    (lines : Option (List InvoiceLine)) (a : Account) :
    after (updateInvoicePaymentStatus id status method type lines) a = a ∨
      ∃ row : Invoice, row.id = id ∧ row.status = status ∧
        after (updateInvoicePaymentStatus id status method type lines) a =
          { a with invoices := a.invoices.map fun i => if i.id = id then row else i } := by
  unfold updateInvoicePaymentStatus
  rw [after_bind_of_ok (EStateM.run_get _)]
  cases found : a.getInvoiceById id with
  | none => exact .inl rfl
  | some old =>
    have held : old.id = id := by simpa using List.find?_some found
    simp only [after, run_ite, EStateM.run_bind, EStateM.run_set]
    split
    · exact .inl rfl
    · refine .inr ⟨{ old with
        status, paymentMethod := method.getD old.paymentMethod, invoiceType := type.getD old.invoiceType
        lines := lines.getD old.lines }, held, rfl, rfl⟩

theorem getInvoiceById_update {row : Invoice} {id : Nat} (held : row.id = id) (a : Account) (j : Nat) :
    ({ a with invoices := a.invoices.map fun i => if i.id = id then row else i } : Account).getInvoiceById j =
      (a.getInvoiceById j).map fun i => if i.id = id then row else i :=
  Lists.find?_update (fun _ _ => held) a.invoices

/-- A paid invoice stays paid, unless it is the one that is made unpaid. -/
theorem paid_update {id : Nat} {status : InvoiceStatus} (kept : status.isPaid = true ∨ Unpaid a id) (method : Option String)
    (type : Option InvoiceType) (lines : Option (List InvoiceLine)) {j : Nat} (h : Paid a j) :
    Paid (after (updateInvoicePaymentStatus id status method type lines) a) j := by
  obtain same | ⟨row, held, hstatus, updated⟩ := updateInvoice_forms id status method type lines a
  · rw [same]
    exact h
  · obtain ⟨old, found, paid⟩ := h
    have old_id : old.id = j := by simpa using List.find?_some found
    rw [updated]
    refine ⟨if old.id = id then row else old, ?_, ?_⟩
    · rw [getInvoiceById_update held, found, Option.map_some]
    · split
      · next same =>
        rcases kept with settled | unpaid
        · rw [hstatus]
          exact settled
        · have found' : a.getInvoiceById id = some old := by rw [← same, old_id, found]
          rw [unpaid old found'] at paid
          cases paid
      · exact paid

theorem paid_create (type : InvoiceType) (key : PeriodKey) (total : Int) (description : String) (lines : List InvoiceLine)
    (dueAt : Int) (status : InvoiceStatus) (method : String) (issuedAt : Int) (id : Nat) :
    Leads (Paid · id) (createInvoice type key total description lines dueAt status method issuedAt) (Paid · id) := by
  intro a h
  cases existing : a.getInvoice type key with
  | some row =>
    have same : after (createInvoice type key total description lines dueAt status method issuedAt) a = a := by
      simp only [after, createInvoice, EStateM.run_bind, EStateM.run_get, existing]
      rfl
    rw [same]
    exact h
  | none =>
    obtain ⟨row, -, -, -, -, run⟩ := createInvoice_run existing total description lines dueAt status method issuedAt
    rw [after_of_ok run]
    obtain ⟨old, found, paid⟩ := h
    refine ⟨old, ?_, paid⟩
    rw [Account.getInvoiceById, List.find?_append]
    exact Option.or_eq_some_iff.mpr (.inl found)

/-- The subscription and the date up to which it was paid before this billing. -/
def Phase.due : Phase → Option (Subscription × Int)
  | .billing sub date => some (sub, date)
  | .invoicing sub date .. => some (sub, date)
  | .covering sub date _ => some (sub, date)
  | _ => none

/-- That date is the one in the row, when there is one. -/
def Dated (phase : Phase) : Prop := ∀ sub date, phase.due = some (sub, date) → ∀ t ∈ sub.trialEndsAt, date = dateOf t

theorem Current.trialEndsAt_eq (h : Current a sub) : trialEndsAt a = sub.trialEndsAt := by
  obtain ⟨row, stored, same, -⟩ := h
  have held : a.subscription = some row := stored
  rw [trialEndsAt, held]
  exact same

theorem billingDueDate_of_some {t : Int} (h : sub.trialEndsAt = some t) : billingDueDate sub = dateOf t := by
  rw [billingDueDate, h]

theorem trialEndsAt_upsert (utcnow : Int) (data : SubscriptionData) (a : Account) :
    trialEndsAt (a.upsertSubscription utcnow data).2 = data.trialEndsAt :=
  congrArg SubscriptionData.trialEndsAt (Account.upsertSubscription_data utcnow data a)

/-- A scheduled change that comes into force is written with the date that was read. -/
theorem applyDue_forms (env : Env) (sub : Subscription) (a : Account) :
    applyDueScheduledPlanChange env sub a = (sub, a) ∨
      ∃ data : SubscriptionData, data.trialEndsAt = sub.trialEndsAt ∧ sub.scheduledPlanCode.filter (· ≠ "") ≠ none ∧
        scheduledChangeDue env sub = true ∧ applyDueScheduledPlanChange env sub a = a.upsertSubscription env.utcnow data := by
  cases hp : sub.scheduledPlanCode.filter (· ≠ "") with
  | none => exact .inl (applyDueScheduledPlanChange_of_none hp)
  | some plan =>
    rw [applyDueScheduledPlanChange_of_some hp]
    split
    · next due => exact .inr ⟨scheduledPlanData sub plan, rfl, nofun, due, rfl⟩
    · exact .inl rfl

/-- Writing the status over the row as it was read, or not at all. -/
theorem trialEndsAt_sync {env : Env} (ready : nextStatus env sub a ≠ sub.status → Current a sub) :
    trialEndsAt (syncStatus env sub a).2 = trialEndsAt a := by
  rw [Restriction.syncStatus_eq]
  split
  · rw [trialEndsAt, Restriction.settled_subscription]
    rfl
  · next changes =>
    rw [(ready changes).trialEndsAt_eq, trialEndsAt_upsert]

theorem trialEndsAt_update (id : Nat) (status : InvoiceStatus) (method : Option String) (type : Option InvoiceType)
    (lines : Option (List InvoiceLine)) (a : Account) :
    trialEndsAt (after (updateInvoicePaymentStatus id status method type lines) a) = trialEndsAt a :=
  updateInvoice_leads (P := fun b => trialEndsAt b = trialEndsAt a) (fun _ _ _ h => h) id status method type lines a rfl

/-- A step extends the coverage by the period that it is counted for, and changes it in no other way. -/
theorem advance_coverage (ready : Ready c a phase) (dated : Dated phase) {t : Int} (ht : trialEndsAt a = some t) (i : Nat) :
    trialEndsAt (advance c phase a).2 = ((extensionOf i phase).map (·.2)).foldl extend (trialEndsAt a) := by
  obtain ⟨row, hrow, -⟩ := Option.bind_eq_some_iff.mp ht
  have ensured : ∀ ctx, trialEndsAt (ensureSubscription c.env ctx a).2 = trialEndsAt a := by
    intro ctx
    rw [ensureSubscription_of_some hrow]
  cases phase with
  | waiting =>
    cases c with
    | settle env ctx => exact ensured ctx
    | retry env ctx =>
      simp only [advance]
      split
      · rfl
      · split
        · rfl
        · split
          · rfl
          · rfl
  | subscribed sub =>
    simp only [advance]
    split
    · rfl
    · rfl
  | indebted debt => exact ensured c.ctx
  | accepted sub debt =>
    simp only [advance, proceed_snd]
    exact trialEndsAt_update ..
  | marked sub =>
    have hsub : sub.trialEndsAt = some t := ready.trialEndsAt_eq.symm.trans ht
    change trialEndsAt (a.upsertSubscription _ _).2 = extend (trialEndsAt a) sub.billingPeriod
    rw [trialEndsAt_upsert, ht, paidSubscription, billingDueDate_of_some hsub, extend, Option.map_some]
  | covered =>
    have reactivated : (reactivate c.ctx a).subscription = some row := by
      unfold reactivate
      split
      · exact hrow
      · exact hrow
    change trialEndsAt (ensureSubscription c.env c.ctx (reactivate c.ctx a)).2 = trialEndsAt a
    rw [ensureSubscription_of_some reactivated, trialEndsAt, reactivated, trialEndsAt, hrow]
  | syncing sub => exact trialEndsAt_sync ready
  | refused sub debt =>
    cases c with
    | settle env ctx => rfl
    | retry env ctx =>
      simp only [advance]
      split
      · rw [proceed_snd]
        exact trialEndsAt_update ..
      · rfl
  | demoting sub debt type =>
    simp only [advance, proceed_snd]
    exact trialEndsAt_update ..
  | resyncing sub debt => exact trialEndsAt_sync ready
  | noting debt =>
    simp only [advance, proceed_snd]
    exact markInvoiceRetryMeta_leads (P := fun b => trialEndsAt b = trialEndsAt a) (fun _ _ _ h => h) _ _ _ a rfl
  | prepaid sub | prefailing sub =>
    change trialEndsAt (applyDueScheduledPlanChange c.env sub a).2 = trialEndsAt a
    obtain same | ⟨data, date, scheduled, due, written⟩ := applyDue_forms c.env sub a
    · rw [same]
    · rw [written, trialEndsAt_upsert, date, (ready scheduled due).trialEndsAt_eq]
  | billing sub date =>
    simp only [advance]
    split
    · rfl
    · split
      · rfl
      · rfl
  | invoicing sub date key estimated =>
    simp only [advance, proceed_snd]
    exact createInvoice_leads (P := fun b => trialEndsAt b = trialEndsAt a) (fun _ _ _ h => h) _ _ _ _ _ _ _ _ _ a rfl
  | covering sub date extraStorageGb =>
    have hsub : sub.trialEndsAt = some t := ready.trialEndsAt_eq.symm.trans ht
    change trialEndsAt (a.upsertSubscription _ _).2 = extend (trialEndsAt a) sub.billingPeriod
    rw [trialEndsAt_upsert, ht, paidSubscription, dated sub date rfl t hsub, extend, Option.map_some]
  | reactivating =>
    change trialEndsAt (reactivate c.ctx a) = trialEndsAt a
    unfold reactivate
    split
    · rfl
    · rfl
  | failing sub date =>
    simp only [advance, proceed_snd]
    exact completeBillingFailed_leads (P := fun b => trialEndsAt b = trialEndsAt a) (fun _ _ _ h => h) _ _ _ _ _ a rfl
  | owing | refreshing | prepaying | ended => rfl

/-- A step makes no paid invoice unpaid. -/
theorem advance_paid (ready : Ready c a phase) {id : Nat} (h : Paid a id) : Paid (advance c phase a).2 id := by
  cases phase with
  | waiting =>
    cases c with
    | settle env ctx => exact h.of_invoices (ensureSubscription_invoices env ctx a)
    | retry env ctx =>
      simp only [advance]
      split
      · exact h
      · split
        · exact h
        · split
          · exact h
          · exact h
  | subscribed sub =>
    simp only [advance]
    split
    · exact h
    · exact h
  | indebted debt => exact h.of_invoices (ensureSubscription_invoices c.env c.ctx a)
  | accepted sub debt =>
    simp only [advance, proceed_snd]
    exact paid_update (.inl (Env.invoicePaidStatus_isPaid c.env)) _ _ _ h
  | covered =>
    refine h.of_invoices ((ensureSubscription_invoices c.env c.ctx (reactivate c.ctx a)).trans ?_)
    unfold reactivate
    split
    · rfl
    · rfl
  | syncing sub => exact h.of_invoices (Restriction.syncStatus_invoices c.env sub a)
  | refused sub debt =>
    cases c with
    | settle env ctx => exact h
    | retry env ctx =>
      simp only [advance]
      split
      · rw [proceed_snd]
        exact paid_update (.inr ready) _ _ _ h
      · exact h
  | demoting sub debt type =>
    simp only [advance, proceed_snd]
    exact paid_update (.inr ready) _ _ _ h
  | resyncing sub debt => exact h.of_invoices (Restriction.syncStatus_invoices c.env sub a)
  | noting debt =>
    simp only [advance, proceed_snd]
    have noted : Leads (· = a) (markInvoiceRetryMeta debt c.env.today (sendPaymentFailedOwnerEmail c.env a)) (Paid · id) := by
      unfold markInvoiceRetryMeta
      refine Leads.bind ?_ (fun _ => Leads.pure (fun _ h => h) _) fun _ h => h
      rintro _ rfl
      exact paid_update (.inr ready) _ _ _ h
    exact noted a rfl
  | prepaid sub | prefailing sub =>
    refine h.of_invoices (show (applyDueScheduledPlanChange c.env sub a).2.invoices = a.invoices from ?_)
    obtain same | ⟨data, -, -, -, written⟩ := applyDue_forms c.env sub a
    · rw [same]
    · rw [written]
      rfl
  | billing sub date =>
    simp only [advance]
    split
    · exact h
    · split
      · exact h
      · exact h
  | invoicing sub date key estimated =>
    simp only [advance, proceed_snd]
    exact paid_create _ _ _ _ _ _ _ _ _ id a h
  | reactivating =>
    refine h.of_invoices ?_
    change (reactivate c.ctx a).invoices = a.invoices
    unfold reactivate
    split
    · rfl
    · rfl
  | failing sub date =>
    simp only [advance, proceed_snd]
    have failed : Leads (Paid · id) (completeBillingFailed c.env sub date (.date date) false) (Paid · id) := by
      unfold completeBillingFailed
      refine Leads.bind (Leads.get fun _ h => h) (fun a => ?_) fun _ h => h
      simp only
      split
      · exact Leads.bind (paid_create _ _ _ _ _ _ _ _ _ id) (fun _ => Leads.pure (fun _ h => h) _) fun _ h => h
      · exact Leads.pure (fun _ h => h) _
    exact failed a h
  | marked | owing | refreshing | prepaying | covering | ended => exact h

/-- Where no invoice is in the way, the update goes through. -/
theorem updateInvoice_run {id : Nat} {old : Invoice} (found : a.getInvoiceById id = some old) {type : InvoiceType}
    (alone : ∀ other ∈ a.invoices, other.id ≠ id → other.invoiceType = type → other.periodKey ≠ old.periodKey)
    (status : InvoiceStatus) (method : Option String) (lines : Option (List InvoiceLine)) :
    ∃ row : Invoice, row.id = id ∧ row.status = status ∧
      (updateInvoicePaymentStatus id status method (some type) lines).run a =
        .ok (some row) { a with invoices := a.invoices.map fun i => if i.id = id then row else i } := by
  have held : old.id = id := by simpa using List.find?_some found
  have clear : a.invoices.any (fun i => i.id ≠ id ∧ i.invoiceType = type ∧ i.periodKey = old.periodKey) = false := by
    rw [List.any_eq_false]
    intro other mem
    simp only [decide_eq_true_eq, not_and]
    exact alone other mem
  refine ⟨{ old with
    status, paymentMethod := method.getD old.paymentMethod, invoiceType := type
    lines := lines.getD old.lines }, held, rfl, ?_⟩
  simp only [updateInvoicePaymentStatus, EStateM.run_bind, EStateM.run_get, found, run_ite, Option.getD_some, clear]
  rfl

/-- An accepted charge of a debt is followed by its mark. -/
theorem advance_accepted {debt : Invoice} (markable : Markable a debt.id) :
    (advance c (.accepted sub debt) a).1 = .marked sub ∧ Paid (advance c (.accepted sub debt) a).2 debt.id := by
  obtain ⟨old, found, alone⟩ := markable
  obtain ⟨row, held, status, run⟩ := updateInvoice_run found alone c.env.invoicePaidStatus (some c.env.invoicePaymentMethod) none
  have next : advance c (.accepted sub debt) a =
      (.marked sub, { a with invoices := a.invoices.map fun i => if i.id = debt.id then row else i }) :=
    congrArg (proceed (.marked sub)) run
  rw [next]
  refine ⟨rfl, row, ?_, status ▸ c.env.invoicePaidStatus_isPaid⟩
  have old_id : old.id = debt.id := by simpa using List.find?_some found
  have found' : a.getInvoiceById debt.id = some old := found
  rw [getInvoiceById_update held, found', Option.map_some, if_pos old_id]

theorem advance_next (ready : Ready c a phase) : Next phase (advance c phase a).1 := by
  cases phase with
  | waiting =>
    cases c with
    | settle env ctx => exact .subscribed _
    | retry env ctx =>
      simp only [advance]
      split
      · exact .skip
      · split
        · exact .skip
        · split
          · exact .skip
          · exact .indebted _
  | subscribed sub =>
    simp only [advance]
    split
    · exact .owing sub _
    · exact .prepaying sub
  | indebted debt => exact .retrying _ debt
  | owing sub debt =>
    simp only [advance]
    split
    · exact .accepted sub debt
    · exact .refused sub debt
  | accepted sub debt =>
    rw [(advance_accepted ready).1]
    exact .marked sub debt
  | marked sub => exact .covered sub
  | covered => exact .syncing _
  | syncing sub => exact .synced sub
  | refused sub debt =>
    cases c with
    | settle env ctx => exact .demoting sub debt _
    | retry env ctx =>
      simp only [advance]
      split
      · obtain next | next := proceed_fst (.refreshing sub debt) ((updateInvoicePaymentStatus debt.id .paymentFailed
          (some "auto_retry_failed") (some .monthlySubscriptionFailed) none).run a)
        · rw [next]
          exact .refreshing sub debt
        · rw [next]
          exact .raised sub debt
      · exact .unissued sub debt
  | demoting sub debt type =>
    obtain next | next := proceed_fst (.syncing sub)
      ((updateInvoicePaymentStatus debt.id .paymentFailed (some "settle_failed") type none).run a)
    · exact next ▸ .demoted sub debt type
    · exact next ▸ .undemoted sub debt type
  | refreshing sub debt => exact .resyncing sub debt _
  | resyncing sub debt => exact .noting sub debt
  | noting debt =>
    obtain next | next := proceed_fst .ended
      ((markInvoiceRetryMeta debt c.env.today (sendPaymentFailedOwnerEmail c.env a)).run a)
    · exact next ▸ .noted debt
    · exact next ▸ .noted debt
  | prepaying sub =>
    simp only [advance]
    split
    · exact .prepaid sub
    · exact .prefailing sub
  | prepaid sub =>
    refine .billing sub (applyDueScheduledPlanChange c.env sub a).1 ?_
    obtain same | ⟨data, date, -, -, written⟩ := applyDue_forms c.env sub a
    · rw [same]
    · rw [written, Account.upsertSubscription_data]
      exact date
  | billing sub date =>
    have none : a.getLatestOpenSubscriptionInvoice = none := ready
    simp only [advance, none]
    split
    · exact .invoicing sub date _ _
    · exact .settled sub date _
  | invoicing sub date key estimated =>
    obtain ⟨row, -, -, -, -, run⟩ := createInvoice_run (ready : a.getInvoice .monthlySubscription key = none)
      estimated.totalCents
      ((c.env.plans.getOrFree sub.planCode).name ++ " " ++ billingPeriodLabelHu sub.billingPeriod ++ " díj")
      [{ subscriptionLine c.env sub estimated.totalCents estimated.nextExtraStorageGb with
        extraKbCount := some sub.extraKbCount
        nextBillingDate := some (nextBillingDateAfter date sub.billingPeriod) }] c.env.now
      c.env.invoicePaidStatus c.env.invoicePaymentMethod c.env.now
    have next := congrArg (fun r => (proceed (.covering sub date estimated.nextExtraStorageGb) r).1) run
    exact next ▸ .covering sub date key estimated _
  | covering sub date extraStorageGb => exact .reactivating sub date extraStorageGb
  | reactivating => exact .reactivated
  | prefailing sub => exact .failing sub _ _
  | failing sub date =>
    obtain next | next := proceed_fst .ended ((completeBillingFailed c.env sub date (.date date) false).run a)
    · exact next ▸ .failed sub date
    · exact next ▸ .failed sub date
  | ended => exact .ended

/-- Each accepted charge is followed by one extension. -/
theorem Next.pending {next : Phase} (h : Next phase next) (i : Nat) :
    (chargeOf i phase next).length + phase.pending = (extensionOf i phase).length + next.pending := by
  cases h <;> rfl

theorem Next.dated {next : Phase} (h : Next phase next) (dated : Dated phase) : Dated next := by
  intro sub date due t ht
  cases h with
  | billing sub current same =>
    cases due
    rw [billingDueDate_of_some (same ▸ ht)]
  | invoicing | settled | covering =>
    cases due
    exact dated _ _ rfl t ht
  | _ => cases due

end

/-! ### Runs -/

theorem chargeOf_call {i : Nat} {phase next : Phase} : ∀ c ∈ chargeOf i phase next, c.call = i := by
  intro c hc
  unfold chargeOf at hc
  split at hc
  · exact List.mem_singleton.mp hc ▸ rfl
  · exact List.mem_singleton.mp hc ▸ rfl
  · cases hc

theorem extensionOf_call {i : Nat} {phase : Phase} : ∀ e ∈ extensionOf i phase, e.1 = i := by
  intro e he
  unfold extensionOf at he
  split at he
  · exact List.mem_singleton.mp he ▸ rfl
  · exact List.mem_singleton.mp he ▸ rfl
  · cases he

/-- Only an accepted charge of a debt names an invoice. -/
theorem chargeOf_forms (i : Nat) (phase next : Phase) : (∀ c ∈ chargeOf i phase next, c.invoice = none) ∨
    ∃ sub debt sub' debt', phase = .owing sub debt ∧ next = .accepted sub' debt' ∧
      chargeOf i phase next = [{ call := i, invoice := some debt.id }] := by
  unfold chargeOf
  split
  · exact .inr ⟨_, _, _, _, rfl, rfl, rfl⟩
  · refine .inl fun c hc => ?_
    rw [List.mem_singleton.mp hc]
  · exact .inl nofun

theorem foldl_extend (t : Int) (periods : List BillingPeriod) : ∃ u, periods.foldl extend (some t) = some u := by
  induction periods generalizing t with
  | nil => exact ⟨t, rfl⟩
  | cons p periods ih => exact ih _

/-- Whoever has charged an invoice is about to mark it, or it is paid; and the dates of the coverage are those of the
    rows they come with. -/
structure Sound (start : Option Int) (s : State) : Prop extends Lawful start s where
  settled : ∀ c ∈ s.charges, ∀ id, c.invoice = some id → (s.phase c.call).marking = some id ∨ Paid s.account id
  dated : ∀ i, Dated (s.phase i)

section
variable {input : Nat → Call} {s : State} {t : Int} {i : Nat}

/-- A debt that is about to be charged has not been charged. -/
theorem Sound.uncharged (h : Sound (some t) s) (undisturbed : Undisturbed input s i) {sub : Subscription} {debt : Invoice}
    (owing : s.phase i = .owing sub debt) (accepts : (input i).accepts debt.totalCents = true) :
    ∀ c ∈ s.charges, c.invoice ≠ some debt.id := by
  obtain ⟨ready, quiet⟩ := undisturbed
  rw [owing] at ready
  intro c hc charged
  rcases h.settled c hc debt.id charged with marking | ⟨row, found, paid⟩
  · exact quiet debt (by rw [owing]; rfl) accepts c hc marking
  · rw [ready accepts row found] at paid
    cases paid

theorem Sound.charged (h : Sound (some t) s) (undisturbed : Undisturbed input s i) {sub sub' : Subscription}
    {debt debt' : Invoice} (owing : s.phase i = .owing sub debt)
    (accepted : (advance (input i) (s.phase i) s.account).1 = .accepted sub' debt') :
    (∀ c ∈ s.charges, c.invoice ≠ some debt.id) ∧ debt' = debt := by
  rw [owing] at accepted
  simp only [advance] at accepted
  split at accepted
  · next accepts =>
    cases accepted
    exact ⟨h.uncharged undisturbed owing accepts, rfl⟩
  · cases accepted

theorem Sound.once_step (h : Sound (some t) s) (undisturbed : Undisturbed input s i) (id : Nat) :
    (step input s i).charges.countP (·.invoice = some id) ≤ 1 := by
  have before := h.once id
  change (s.charges ++ _).countP _ ≤ 1
  rw [List.countP_append]
  obtain anonymous | ⟨sub, debt, sub', debt', owing, accepted, one⟩ :=
    chargeOf_forms i (s.phase i) (advance (input i) (s.phase i) s.account).1
  · have none : (chargeOf i (s.phase i) (advance (input i) (s.phase i) s.account).1).countP (·.invoice = some id) = 0 :=
      List.countP_eq_zero.mpr fun c hc => by simp [anonymous c hc]
    rw [none]
    exact before
  · rw [one, List.countP_singleton]
    by_cases same : debt.id = id
    · have none : s.charges.countP (·.invoice = some id) = 0 :=
        List.countP_eq_zero.mpr fun c hc => by simpa [← same] using (h.charged undisturbed owing accepted).1 c hc
      rw [none]
      split <;> omega
    · simpa [same] using before

theorem Sound.extended_step (h : Sound (some t) s) (undisturbed : Undisturbed input s i) (j : Nat) :
    (step input s i).charges.countP (·.call = j) =
      (step input s i).extensions.countP (·.1 = j) + ((step input s i).phase j).pending := by
  have before := h.extended j
  have pending := (advance_next undisturbed.1).pending i
  change (s.charges ++ _).countP _ = (s.extensions ++ _).countP _ + (Function.update s.phase i _ j).pending
  generalize (advance (input i) (s.phase i) s.account).1 = next at pending
  rw [List.countP_append, List.countP_append]
  by_cases own : j = i
  · subst own
    have charges : (chargeOf j (s.phase j) next).countP (·.call = j) = (chargeOf j (s.phase j) next).length :=
      List.countP_eq_length.mpr fun c hc => by simpa using chargeOf_call c hc
    have extensions : (extensionOf j (s.phase j)).countP (·.1 = j) = (extensionOf j (s.phase j)).length :=
      List.countP_eq_length.mpr fun e he => by simpa using extensionOf_call e he
    rw [Function.update_self]
    omega
  · have charges : (chargeOf i (s.phase i) next).countP (·.call = j) = 0 :=
      List.countP_eq_zero.mpr fun c hc => by simpa [chargeOf_call c hc] using Ne.symm own
    have extensions : (extensionOf i (s.phase i)).countP (·.1 = j) = 0 :=
      List.countP_eq_zero.mpr fun e he => by simpa [extensionOf_call e he] using Ne.symm own
    rw [Function.update_of_ne own]
    omega

theorem Sound.coverage_step (h : Sound (some t) s) (undisturbed : Undisturbed input s i) :
    trialEndsAt (step input s i).account = ((step input s i).extensions.map (·.2)).foldl extend (some t) := by
  obtain ⟨u, hu⟩ := foldl_extend t (s.extensions.map (·.2))
  change _ = ((s.extensions ++ _).map _).foldl extend (some t)
  rw [List.map_append, List.foldl_append, ← h.coverage]
  exact advance_coverage undisturbed.1 (h.dated i) (h.coverage.trans hu) i

theorem Sound.settled_step (h : Sound (some t) s) (undisturbed : Undisturbed input s i) :
    ∀ c ∈ (step input s i).charges, ∀ id, c.invoice = some id →
      ((step input s i).phase c.call).marking = some id ∨ Paid (step input s i).account id := by
  intro c hc id hid
  have kept : Paid s.account id → Paid (step input s i).account id := advance_paid undisturbed.1
  by_cases own : c.call = i
  · have phase : (step input s i).phase c.call = (advance (input i) (s.phase i) s.account).1 := by
      rw [own]
      exact Function.update_self ..
    rcases List.mem_append.mp hc with old | new
    · refine .inr ?_
      rcases h.settled c old id hid with marking | paid
      · rw [own] at marking
        have ready := undisturbed.1
        change Paid (advance (input i) (s.phase i) s.account).2 id
        cases hp : s.phase i with
        | accepted sub debt =>
          rw [hp] at marking ready
          cases marking
          exact (advance_accepted ready).2
        | _ =>
          rw [hp] at marking
          cases marking
      · exact kept paid
    · obtain anonymous | ⟨sub, debt, sub', debt', owing, accepted, one⟩ :=
        chargeOf_forms i (s.phase i) (advance (input i) (s.phase i) s.account).1
      · rw [anonymous c new] at hid
        cases hid
      · rw [one, List.mem_singleton] at new
        obtain ⟨-, rfl⟩ := h.charged undisturbed owing accepted
        rw [phase, accepted, ← hid, new]
        exact .inl rfl
  · have phase : (step input s i).phase c.call = s.phase c.call := Function.update_of_ne own ..
    rw [phase]
    rcases List.mem_append.mp hc with old | new
    · exact (h.settled c old id hid).imp_right kept
    · exact absurd (chargeOf_call c new) own

theorem Sound.dated_step (h : Sound (some t) s) (undisturbed : Undisturbed input s i) (j : Nat) :
    Dated ((step input s i).phase j) := by
  change Dated (Function.update s.phase i _ j)
  by_cases own : j = i
  · subst own
    rw [Function.update_self]
    exact (advance_next undisturbed.1).dated (h.dated j)
  · rw [Function.update_of_ne own]
    exact h.dated j

theorem Sound.step (h : Sound (some t) s) (undisturbed : Undisturbed input s i) : Sound (some t) (step input s i) :=
  ⟨⟨h.once_step undisturbed, h.extended_step undisturbed, h.coverage_step undisturbed⟩, h.settled_step undisturbed,
    h.dated_step undisturbed⟩

theorem sound_start {a : Account} (ht : trialEndsAt a = some t) : Sound (some t) { account := a } where
  once _ := Nat.zero_le 1
  extended _ := rfl
  coverage := ht
  settled _ hc := absurd hc List.not_mem_nil
  dated _ sub date due := by cases due

end

/-! ### A customer with a debt -/

/-- The customer of the grace period, after the first declined charge. -/
def debtor : Account :=
  ((final GracePeriod.step GracePeriod.customer [GracePeriod.purchase, GracePeriod.declinedCycle 20031]).account).getD
    (Account.created "acme" "Acme" (midnight 20000))

def acmeContext : TenantContext := { slug := "acme", createdAt := none, isActive := none }

/-- On the next day its card works; call 0 settles the debt, and call 1 is the daily retry. -/
def input : Nat → Call
  | 0 => .settle { Env.seeded (midnight 20032) with provider := .stripeTest } acmeContext
  | _ => .retry { Env.seeded (midnight 20032) with provider := .stripeTest } acmeContext

end NyzRating.Billing.DebtOnce
