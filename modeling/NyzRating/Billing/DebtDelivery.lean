import NyzRating.Billing.Catalog
import NyzRating.Billing.Effects
import NyzRating.Billing.RowRules

/-!
# What a settled debt delivers

The line of a payment request says for which plan and period it is, and until when. The settlement asks the subscription
again, as it is when the debt is paid.
-/

namespace NyzRating.Billing

open Calendar Program

/-- The subscription is the one that the line is for. -/
def DeliveredBy (line : InvoiceLine) (row : Subscription) : Prop :=
  line.code = some row.planCode ∧ line.billingPeriod = some row.billingPeriod ∧
    line.nextBillingDate = row.trialEndsAt.map dateOf

/-- The account has what the invoice was issued for. -/
def Delivers (issued : Invoice) (a : Account) : Prop :=
  ∃ line ∈ issued.lines, ∃ row ∈ a.subscription, DeliveredBy line row

/-- With the change that is scheduled, the subscription comes to the plan and the period, and from its due date its own
    period leads to the day. -/
def LeadsTo (planCode : String) (period : BillingPeriod) (day : Int) (sub : Subscription) : Prop :=
  orText sub.scheduledPlanCode sub.planCode = planCode ∧ sub.scheduledBillingPeriod.getD sub.billingPeriod = period ∧
    nextBillingDateAfter (billingDueDate sub) sub.billingPeriod = day

instance (line : InvoiceLine) (row : Subscription) : Decidable (DeliveredBy line row) :=
  inferInstanceAs (Decidable (line.code = some row.planCode ∧ line.billingPeriod = some row.billingPeriod ∧
    line.nextBillingDate = row.trialEndsAt.map dateOf))

instance (issued : Invoice) (a : Account) : Decidable (Delivers issued a) :=
  inferInstanceAs (Decidable (∃ line ∈ issued.lines, ∃ row ∈ a.subscription, DeliveredBy line row))

instance (planCode : String) (period : BillingPeriod) (day : Int) (sub : Subscription) :
    Decidable (LeadsTo planCode period day sub) :=
  inferInstanceAs (Decidable (orText sub.scheduledPlanCode sub.planCode = planCode ∧
    sub.scheduledBillingPeriod.getD sub.billingPeriod = period ∧
      nextBillingDateAfter (billingDueDate sub) sub.billingPeriod = day))

section
variable {env : Env} {ctx : TenantContext} {a b : Account} {sub : Subscription} {debt issued : Invoice} {due : Int}
  {key : PeriodKey}

/-- The line of a payment request that was issued just now. -/
theorem issued_line (new : a.getInvoice .monthlySubscription key = none)
    (h : (issueSubscriptionPaymentRequest env sub due key).run a = .ok (some issued) b) : ∃ line, issued.lines = [line] ∧
      line.code = some (env.plans.getOrFree sub.planCode).code ∧ line.billingPeriod = some sub.billingPeriod ∧
        line.nextBillingDate = some (nextBillingDateAfter due sub.billingPeriod) := by
  unfold issueSubscriptionPaymentRequest at h
  split at h
  · cases h
  · split at h
    · cases h
    · obtain ⟨_, _, got, h⟩ := bind_eq_ok.mp h
      cases got
      rw [new] at h
      dsimp only at h
      split at h
      · cases h
      · obtain ⟨row, c, created, returned⟩ := bind_eq_ok.mp h
        cases returned
        rcases createInvoice_addsRow .monthlySubscription key _ _ _ _ _ _ _ a with ⟨e, failed⟩ | ⟨added, -, lines, run⟩
        · rw [failed] at created
          cases created
        · rw [run] at created
          cases created
          exact ⟨_, lines, rfl, rfl, rfl⟩

/-- The row that a settlement writes. -/
theorem settled_row (h : (settleDebtInvoiceAsPaid env ctx sub debt).run a = .ok () b) : ∃ row, b.subscription = some row ∧
    row.planCode = orText sub.scheduledPlanCode sub.planCode ∧
      row.billingPeriod = sub.scheduledBillingPeriod.getD sub.billingPeriod ∧
        row.trialEndsAt = some (midnight (nextBillingDateAfter (billingDueDate sub) sub.billingPeriod)) := by
  unfold settleDebtInvoiceAsPaid at h
  obtain ⟨-, c, -, written⟩ := bind_eq_ok.mp h
  cases written
  simp only
  generalize nextBillingDateAfter (billingDueDate sub) sub.billingPeriod = day
  generalize (estimateNextInvoice env sub c).nextExtraStorageGb = extraStorageGb
  have data := Account.upsertSubscription_data env.utcnow (paidSubscription sub day extraStorageGb) c
  have stored : (c.upsertSubscription env.utcnow (paidSubscription sub day extraStorageGb)).2.subscription =
    some (c.upsertSubscription env.utcnow (paidSubscription sub day extraStorageGb)).1 := rfl
  generalize c.upsertSubscription env.utcnow (paidSubscription sub day extraStorageGb) = updated at data stored ⊢
  rw [← reactivate_subscription ctx] at stored
  rw [ensureSubscription_of_some stored]
  obtain ⟨updatedAt, same, left⟩ := Restriction.syncStatus_subscription env updated.1 (reactivate ctx updated.2) stored
  refine ⟨_, left, ?_⟩
  rw [same]
  simp only [data, paidSubscription, and_self]

/-- Whatever has happened to the subscription since the debt was issued: its payment delivers what the invoice is for just
    when the subscription, as it is paid for, still leads to it. -/
theorem debt_delivered_iff (env : Env) (sub : Subscription) (due : Int) (key : PeriodKey) (a b : Account) (issued : Invoice)
    (new : a.getInvoice .monthlySubscription key = none)
    (request : (issueSubscriptionPaymentRequest env sub due key).run a = .ok (some issued) b) (env' : Env) (ctx : TenantContext)
    (sub' : Subscription) (debt : Invoice) (a' b' : Account) (settled : (settleDebtInvoiceAsPaid env' ctx sub' debt).run a' = .ok () b') :
    Delivers issued b' ↔ LeadsTo (env.plans.getOrFree sub.planCode).code sub.billingPeriod
      (nextBillingDateAfter due sub.billingPeriod) sub' := by
  obtain ⟨line, lines, code, period, next⟩ := issued_line new request
  obtain ⟨row, stored, plan, rowPeriod, ends⟩ := settled_row settled
  constructor
  · rintro ⟨line', mem, row', stored', delivered⟩
    rw [lines, List.mem_singleton] at mem
    subst mem
    cases stored.symm.trans stored'
    obtain ⟨samePlan, samePeriod, sameDay⟩ := delivered
    rw [code, plan] at samePlan
    rw [period, rowPeriod] at samePeriod
    rw [next, ends, Option.map_some, dateOf_midnight] at sameDay
    exact ⟨(Option.some.inj samePlan).symm, (Option.some.inj samePeriod).symm, (Option.some.inj sameDay).symm⟩
  · rintro ⟨samePlan, samePeriod, sameDay⟩
    refine ⟨line, lines ▸ List.mem_singleton_self line, row, stored, ?_, ?_, ?_⟩
    · rw [code, plan, samePlan]
    · rw [period, rowPeriod, samePeriod]
    · rw [next, ends, Option.map_some, dateOf_midnight, sameDay]

/-- Nothing is scheduled, and plan, period and due date are still those of the issue. -/
theorem LeadsTo.of_unchanged {sub sub' : Subscription} {plans : PlanCatalog} (known : (plans.find? sub.planCode).isSome = true)
    (unscheduled : sub'.scheduledPlanCode = none ∧ sub'.scheduledBillingPeriod = none) (plan : sub'.planCode = sub.planCode)
    (period : sub'.billingPeriod = sub.billingPeriod) (day : billingDueDate sub' = billingDueDate sub) :
    LeadsTo (plans.getOrFree sub.planCode).code sub.billingPeriod
      (nextBillingDateAfter (billingDueDate sub) sub.billingPeriod) sub' := by
  obtain ⟨found, at_code⟩ := Option.isSome_iff_exists.mp known
  have code : found.code = sub.planCode := by simpa using List.find?_some at_code
  refine ⟨?_, ?_, ?_⟩
  · rw [unscheduled.1, PlanCatalog.getOrFree, at_code, Option.getD_some, code]
    exact plan
  · rw [unscheduled.2]
    exact period
  · rw [period, day]

end

/-! ### A downgrade before the payment -/

/-- A customer of the middle plan, paid until day 20030. -/
def renewing : Subscription :=
  { planCode := "pro", billingPeriod := .monthly, status := .active, trialStartedAt := none, trialEndsAt := some (midnight 20030)
    createdAt := midnight 20000, updatedAt := midnight 20000 }

def subscriber : Account := { Account.created "acme" "Acme" (midnight 20000) with subscription := some renewing }

/-- The payment request of day 20030. -/
def request : EStateM.Result BillingError Account (Option Invoice) :=
  (issueSubscriptionPaymentRequest (Env.seeded (midnight 20030)) renewing 20030 (.date 20030)).run subscriber

def settleOn (day : Int) (sub : Subscription) (debt : Invoice) : AccountM Unit :=
  settleDebtInvoiceAsPaid (Env.seeded (midnight day)) subscriber.snapshot sub debt

/-- It is paid on the next day. -/
theorem debt_delivered_next_day : ∃ issued b, request = .ok (some issued) b ∧
    ∃ b', (settleOn 20031 renewing issued).run b = .ok () b' ∧ Delivers issued b' := by
  have paid : ∀ issued b b', request = .ok (some issued) b → (settleOn 20031 renewing issued).run b = .ok () b' →
      Delivers issued b' := fun issued b b' issue settled =>
    (debt_delivered_iff (Env.seeded (midnight 20030)) renewing 20030 (.date 20030) subscriber b issued (by decide) issue
      (Env.seeded (midnight 20031)) subscriber.snapshot renewing issued b b' settled).mpr (by decide +kernel)
  exact ⟨_, _, rfl, _, rfl, paid _ _ _ rfl rfl⟩

/-- Before it is paid, the customer asks for the smaller plan from the end of the paid period on. -/
theorem debt_downgraded : ∃ issued b, request = .ok (some issued) b ∧
    ∃ a' sub', a' = after (updateSubscription (Env.seeded (midnight 20031)) subscriber.snapshot "starter" "monthly") b ∧
      a'.subscription = some sub' ∧ ∃ b', (settleOn 20032 sub' issued).run a' = .ok () b' ∧ ¬Delivers issued b' :=
  ⟨_, _, rfl, _, _, rfl, rfl, _, rfl, by decide +kernel⟩

end NyzRating.Billing
