import NyzRating.Billing.GracePeriod
import NyzRating.Billing.RestrictionStable

/-!
# Every due period is invoiced

The billing cycle issues a payment request for the due date of a subscription, unless an invoice already carries the
key of that date. When the due date moves back to a period that was paid before, nothing is issued.
-/

namespace NyzRating.Billing.Completeness

open Program Calendar

/-- A subscription invoice of the period that ends on `day`. -/
def ForPeriod (day : Int) (i : Invoice) : Prop :=
  (i.invoiceType = .monthlySubscription ∨ i.invoiceType = .monthlySubscriptionFailed) ∧ i.periodKey = .date day

def Open (i : Invoice) : Prop := i.status = .issued ∨ i.status = .paymentFailed

instance (day : Int) : DecidablePred (ForPeriod day) := fun _ => inferInstanceAs (Decidable ((_ ∨ _) ∧ _))

instance : DecidablePred Open := fun _ => inferInstanceAs (Decidable (_ ∨ _))

/-- The subscription is to be invoiced: it is due, on a paid plan that costs something, neither restricted nor
    cancelled. -/
structure Due (env : Env) (sub : Subscription) (a : Account) : Prop where
  active : a.tenant.isActive = true
  subscription : a.subscription = some sub
  paid : sub.planCode ≠ "free"
  priced : 0 < (estimateNextInvoice env sub a).totalCents
  unrestricted : sub.status ≠ .restricted
  renewing : cancellationPending a = false
  due : billingDueDate sub ≤ env.today

instance (env : Env) (sub : Subscription) (a : Account) : Decidable (Due env sub a) :=
  decidable_of_iff (a.tenant.isActive = true ∧ a.subscription = some sub ∧ sub.planCode ≠ "free" ∧
    0 < (estimateNextInvoice env sub a).totalCents ∧ sub.status ≠ .restricted ∧ cancellationPending a = false ∧
    billingDueDate sub ≤ env.today)
    ⟨fun ⟨active, held, paid, priced, free, renewing, due⟩ => ⟨active, held, paid, priced, free, renewing, due⟩,
      fun h => ⟨h.active, h.subscription, h.paid, h.priced, h.unrestricted, h.renewing, h.due⟩⟩

/-- There is an open invoice for the due date. -/
def Invoiced (sub : Subscription) (a : Account) : Prop := ∃ i ∈ a.invoices, ForPeriod (billingDueDate sub) i ∧ Open i

instance (sub : Subscription) (a : Account) : Decidable (Invoiced sub a) :=
  inferInstanceAs (Decidable (∃ i ∈ a.invoices, ForPeriod (billingDueDate sub) i ∧ Open i))

/-- If there are invoices for the period that is due, one of them is open. -/
def Uncovered (env : Env) (a : Account) : Prop :=
  ∀ sub ∈ a.subscription, let day := billingDueDate (renewed env sub)
    (∃ i ∈ a.invoices, ForPeriod day i) → ∃ i ∈ a.invoices, ForPeriod day i ∧ Open i

/-! ### Invoicing -/

section
variable {env : Env} {sub : Subscription} {a : Account}

theorem getInvoice_eq_none {type : InvoiceType} {day : Int} (fresh : ¬∃ i ∈ a.invoices, ForPeriod day i)
    (subscription : type = .monthlySubscription ∨ type = .monthlySubscriptionFailed) : a.getInvoice type (.date day) = none := by
  refine List.find?_eq_none.mpr fun i hi => ?_
  simp only [decide_eq_true_eq]
  rintro ⟨rfl, key⟩
  exact fresh ⟨i, hi, subscription, key⟩

/-- The request for a period that has no invoice. -/
theorem issueSubscriptionPaymentRequest_fresh {day : Int} (paid : sub.planCode ≠ "free")
    (priced : 0 < (estimateNextInvoice env sub a).totalCents) (unrestricted : sub.status ≠ .restricted)
    (fresh : ¬∃ i ∈ a.invoices, ForPeriod day i) :
    ∃ row, ForPeriod day row ∧ Open row ∧ row.totalCents = (estimateNextInvoice env sub a).totalCents ∧
      (issueSubscriptionPaymentRequest env sub day (.date day)).run a =
        .ok (some row) { a with invoices := a.invoices ++ [row], nextInvoiceId := a.nextInvoiceId + 1 } := by
  have monthly := getInvoice_eq_none fresh (.inl rfl)
  have notFree : ¬(estimateNextInvoice env sub a).totalCents ≤ 0 := by omega
  obtain ⟨row, type, key, status, total, run⟩ := createInvoice_run monthly (estimateNextInvoice env sub a).totalCents
    ((env.plans.getOrFree sub.planCode).name ++ " " ++ billingPeriodLabelHu sub.billingPeriod ++ " díjbekérő")
    [{ subscriptionLine env sub (estimateNextInvoice env sub a).totalCents (estimateNextInvoice env sub a).nextExtraStorageGb with
        extraKbCount := some sub.extraKbCount
        nextBillingDate := some (nextBillingDateAfter day sub.billingPeriod)
        paymentRequest := true }] env.now .issued "pending" env.now
  refine ⟨row, ⟨.inl type, key⟩, .inl status, total, ?_⟩
  unfold issueSubscriptionPaymentRequest
  rw [if_neg paid, if_neg unrestricted]
  simp only [EStateM.run_bind, EStateM.run_get, monthly, if_neg notFree, run]
  rfl

theorem issueSubscriptionPaymentRequest_forms (env : Env) (sub : Subscription) (day : Int) (key : PeriodKey) (a : Account) :
    ∃ r invoices nextInvoiceId,
      (issueSubscriptionPaymentRequest env sub day key).run a = .ok r { a with invoices, nextInvoiceId } := by
  unfold issueSubscriptionPaymentRequest
  split
  · exact ⟨none, a.invoices, a.nextInvoiceId, rfl⟩
  · split
    · exact ⟨none, a.invoices, a.nextInvoiceId, rfl⟩
    · simp only [EStateM.run_bind, EStateM.run_get]
      cases monthly : a.getInvoice .monthlySubscription key with
      | some existing => exact ⟨some existing, a.invoices, a.nextInvoiceId, rfl⟩
      | none =>
        simp only [run_ite]
        split
        · exact ⟨none, a.invoices, a.nextInvoiceId, rfl⟩
        · obtain ⟨row, -, -, -, -, run⟩ := createInvoice_run monthly (estimateNextInvoice env sub a).totalCents
            ((env.plans.getOrFree sub.planCode).name ++ " " ++ billingPeriodLabelHu sub.billingPeriod ++ " díjbekérő") _
            env.now .issued "pending" env.now
          rw [EStateM.run_bind, run]
          exact ⟨some row, _, _, rfl⟩

/-- Invoicing writes invoices only, and does not fail. -/
theorem invoicing_forms (env : Env) (sub : Subscription) (a : Account) :
    ∃ invoices nextInvoiceId, (invoicing env sub).run a = .ok () { a with invoices, nextInvoiceId } := by
  unfold invoicing
  simp only [EStateM.run_bind, EStateM.run_get]
  split
  · split
    · obtain ⟨r, invoices, nextInvoiceId, run⟩ := issueSubscriptionPaymentRequest_forms env sub (billingDueDate sub)
        (.date (billingDueDate sub)) a
      rw [EStateM.run_bind, run]
      exact ⟨invoices, nextInvoiceId, rfl⟩
    · exact ⟨a.invoices, a.nextInvoiceId, rfl⟩
  · exact ⟨a.invoices, a.nextInvoiceId, rfl⟩

/-- A due period without an invoice gets an open one. -/
theorem invoicing_due (paid : sub.planCode ≠ "free") (priced : 0 < (estimateNextInvoice env sub a).totalCents)
    (unrestricted : sub.status ≠ .restricted) (renewing : cancellationPending a = false) (due : billingDueDate sub ≤ env.today)
    (fresh : ¬∃ i ∈ a.invoices, ForPeriod (billingDueDate sub) i) :
    ∃ row, ForPeriod (billingDueDate sub) row ∧ Open row ∧ row.totalCents = (estimateNextInvoice env sub a).totalCents ∧
      (invoicing env sub).run a = .ok () { a with invoices := a.invoices ++ [row], nextInvoiceId := a.nextInvoiceId + 1 } := by
  have monthly := getInvoice_eq_none fresh (.inl rfl)
  have failed := getInvoice_eq_none fresh (.inr rfl)
  obtain ⟨row, period, isOpen, total, run⟩ := issueSubscriptionPaymentRequest_fresh paid priced unrestricted fresh
  have toIssue : (decide (sub.planCode ≠ "free") && decide (sub.status ≠ .restricted) && !cancellationPending a &&
      !decide (env.today < billingDueDate sub)) = true := by
    simp [paid, unrestricted, renewing, due]
  refine ⟨row, period, isOpen, total, ?_⟩
  unfold invoicing
  simp only [EStateM.run_bind, EStateM.run_get, toIssue, monthly, failed, if_true, Option.isNone_none, Bool.and_self, run]
  rfl

/-- A period with an invoice gets no other. -/
theorem invoicing_present (present : ∃ i ∈ a.invoices, ForPeriod (billingDueDate sub) i) :
    (invoicing env sub).run a = .ok () a := by
  have found : ((a.getInvoice .monthlySubscription (.date (billingDueDate sub))).isNone &&
      (a.getInvoice .monthlySubscriptionFailed (.date (billingDueDate sub))).isNone) = false := by
    obtain ⟨i, hi, type | type, key⟩ := present
    · have some : (a.getInvoice .monthlySubscription (.date (billingDueDate sub))).isSome :=
        List.find?_isSome.mpr ⟨i, hi, by simp [type, key]⟩
      simp [Option.isNone_eq_false_iff.mpr some]
    · have some : (a.getInvoice .monthlySubscriptionFailed (.date (billingDueDate sub))).isSome :=
        List.find?_isSome.mpr ⟨i, hi, by simp [type, key]⟩
      simp [Option.isNone_eq_false_iff.mpr some]
  unfold invoicing
  simp only [EStateM.run_bind, EStateM.run_get, found, Bool.false_eq_true, if_false]
  split <;> rfl

end

/-! ### One billing cycle -/

section
variable {env : Env} {sub : Subscription} {a : Account}

/-- The subscription that the cycle invoices, and the account it finds then. -/
def synchronised (env : Env) (sub : Subscription) (a : Account) : Subscription × Account :=
  syncStatus env (renewed env sub) { a with subscription := some (renewed env sub) }

theorem synchronised_subscription (env : Env) (sub : Subscription) (a : Account) :
    (∃ status updatedAt, (synchronised env sub a).1 = { renewed env sub with status, updatedAt }) ∧
      (synchronised env sub a).2.subscription = some (synchronised env sub a).1 := by
  obtain ⟨updatedAt, row, stored⟩ := Restriction.syncStatus_subscription env (renewed env sub)
    { a with subscription := some (renewed env sub) } rfl
  exact ⟨⟨_, updatedAt, row⟩, stored⟩

/-- The cycle of an active tenant: synchronise, invoice, and write the configuration. -/
theorem processTenant_forms (env : Env) (active : a.tenant.isActive = true) :
    let cycle := synchronised env (ensureSubscription env a.snapshot a).1 (ensureSubscription env a.snapshot a).2
    ∃ invoices nextInvoiceId, (invoicing env cycle.1).run cycle.2 = .ok () { cycle.2 with invoices, nextInvoiceId } ∧
      processTenant env a = syncTenantConfig env cycle.1 { cycle.2 with invoices, nextInvoiceId } := by
  intro cycle
  obtain ⟨invoices, nextInvoiceId, run⟩ := invoicing_forms env cycle.1 cycle.2
  refine ⟨invoices, nextInvoiceId, run, ?_⟩
  unfold processTenant billingCycle
  rw [if_pos active, after_modifyGet_bind, after_modifyGet_bind,
    applyDueScheduledPlanChange_eq (ensureSubscription_subscription env a.snapshot a), after_modifyGet_bind]
  exact after_bind_of_ok run

/-- A tenant without a subscription gets the free plan. -/
theorem renewed_of_none (ctx : TenantContext) (hs : a.subscription = none) :
    (renewed env (ensureSubscription env ctx a).1).planCode = "free" := by
  unfold ensureSubscription Account.upsertSubscription
  rw [hs]
  rfl

/-- After a cycle a due period is invoiced exactly when no settled invoice alone stands for it. -/
theorem due_invoiced_iff (env : Env) (a : Account) (sub : Subscription) (due : Due env sub (processTenant env a)) :
    Invoiced sub (processTenant env a) ↔ Uncovered env a := by
  cases active : a.tenant.isActive with
  | false =>
    have on := due.active
    rw [processTenant, active, if_neg Bool.false_ne_true, active] at on
    cases on
  | true =>
    obtain ⟨invoices, nextInvoiceId, run, final⟩ := processTenant_forms env active
    obtain ⟨⟨status, updatedAt, row⟩, stored⟩ :=
      synchronised_subscription env (ensureSubscription env a.snapshot a).1 (ensureSubscription env a.snapshot a).2
    have kept : (synchronised env (ensureSubscription env a.snapshot a).1
        (ensureSubscription env a.snapshot a).2).2.invoices = a.invoices :=
      (Restriction.syncStatus_invoices ..).trans (ensureSubscription_invoices env a.snapshot a)
    rw [final] at due ⊢
    generalize synchronised env (ensureSubscription env a.snapshot a).1 (ensureSubscription env a.snapshot a).2 = cycle at *
    have same : cycle.1 = sub := Option.some.inj (stored.symm.trans due.subscription)
    rw [same] at row run
    cases hs : a.subscription with
    | none =>
      refine absurd ?_ due.paid
      rw [row]
      exact renewed_of_none a.snapshot hs
    | some held =>
      have day : billingDueDate sub = billingDueDate (renewed env held) := by
        rw [row, ensureSubscription_of_some hs]
        rfl
      have uncovered : Uncovered env a ↔ ((∃ i ∈ a.invoices, ForPeriod (billingDueDate sub) i) →
          ∃ i ∈ a.invoices, ForPeriod (billingDueDate sub) i ∧ Open i) := by
        simp [Uncovered, hs, day]
      rw [uncovered, ← kept]
      by_cases present : ∃ i ∈ cycle.2.invoices, ForPeriod (billingDueDate sub) i
      · -- the invoices stay as they are
        rw [invoicing_present present] at run
        have unchanged : invoices = cycle.2.invoices := by
          injection run with _ h
          exact (congrArg Account.invoices h).symm
        rw [unchanged]
        exact ⟨fun h _ => h, fun h => h present⟩
      · have priced : 0 < (estimateNextInvoice env sub cycle.2).totalCents := due.priced
        have renewing : cancellationPending cycle.2 = false := due.renewing
        obtain ⟨new, period, isOpen, -, issued⟩ :=
          invoicing_due due.paid priced due.unrestricted renewing due.due present
        rw [issued] at run
        have added : invoices = cycle.2.invoices ++ [new] := by
          injection run with _ h
          exact (congrArg Account.invoices h).symm
        rw [added]
        exact iff_of_true ⟨new, List.mem_append_right _ List.mem_cons_self, period, isOpen⟩ fun h => absurd h present

end

/-- A subscription to starter that is paid until day 20031. -/
def starter : Subscription :=
  { planCode := "starter", billingPeriod := .monthly, status := .active, trialStartedAt := none
    trialEndsAt := some (midnight 20031), createdAt := 0, updatedAt := 0 }

def subscriber : Account := { Account.created "acme" "Acme" 0 with subscription := some starter }

theorem due_invoiced_at_first : Invoiced starter (processTenant (Env.seeded (midnight 20031)) subscriber) :=
  (due_invoiced_iff (Env.seeded (midnight 20031)) subscriber starter (by decide)).mpr fun _ _ ⟨_, h, _⟩ =>
    absurd h List.not_mem_nil

/-- A tenant that buys starter on day 20000, pays the next period at once, and goes to pro on the same day. -/
def prepaid : List GracePeriod.Op :=
  let env := Env.seeded (midnight 20000)
  let ctx : TenantContext := { slug := "acme", createdAt := none, isActive := none }
  [.update env ctx "starter" "monthly", .settle env ctx, .completeUpgrade env ctx "pro" "monthly"]

/-- The upgrade sets the due date back to day 20031, the period paid in advance. -/
theorem due_not_invoiced :
    ¬∀ (ops : List GracePeriod.Op) (env : Env) (a : Account) (sub : Subscription),
      (Runs.final GracePeriod.step GracePeriod.customer ops).account = some a → Due env sub (processTenant env a) →
      Invoiced sub (processTenant env a) := by
  intro h
  let env := Env.seeded (midnight 20031)
  have skipped : (Runs.final GracePeriod.step GracePeriod.customer prepaid).account.any (fun a =>
      (processTenant env a).subscription.any fun sub =>
        decide (Due env sub (processTenant env a)) && !decide (Invoiced sub (processTenant env a))) = true := by decide
  obtain ⟨a, ha, hsub⟩ := (Option.any_eq_true _ _).mp skipped
  obtain ⟨sub, -, hq⟩ := (Option.any_eq_true _ _).mp hsub
  simp only [Bool.and_eq_true, Bool.not_eq_true', decide_eq_true_eq, decide_eq_false_iff_not] at hq
  exact hq.2 (h prepaid env a sub ha hq.1)

end NyzRating.Billing.Completeness
