import NyzRating.Billing.Completeness
import NyzRating.Billing.PlanChange
import NyzRating.Billing.RestrictionStable
import NyzRating.Billing.Settlement

/-!
# What settlements make of a subscription row

A settlement loads the row of its tenant, may put a scheduled change into force and writes the row of a paid period. A
property of rows that goes along with these writes holds of the row that it leaves.
-/

namespace NyzRating.Billing

open Calendar Program

/-- The subscription row of the account has the property. -/
def Holds (S : Subscription → Prop) (a : Account) : Prop := ∃ row, a.subscription = some row ∧ S row

/-- The row is paid until this day, if it says until when. -/
def PaidUntilDay (row : Subscription) (day : Int) : Prop := ∀ t ∈ row.trialEndsAt, dateOf t = day

/-- A property of rows that the writes of a settlement keep; that of a paid period only where `may` allows one. -/
structure RowRule (may : Prop) (S : Subscription → Prop) : Prop where
  status : ∀ row status updatedAt, S row → S { row with status, updatedAt }
  paid : ∀ {row next : Subscription} {day : Int} {period : BillingPeriod} {extraStorageGb : Int}, may → S row →
    PaidUntilDay row day → next.toSubscriptionData = paidSubscription row (nextBillingDateAfter day period) extraStorageGb →
      S next

theorem reactivate_subscription (ctx : TenantContext) (a : Account) : (reactivate ctx a).subscription = a.subscription := by
  unfold reactivate
  split
  · rfl
  · rfl

theorem paidUntilDay_billingDueDate (row : Subscription) : PaidUntilDay row (billingDueDate row) := by
  intro t ends
  rw [Option.mem_def] at ends
  rw [billingDueDate, ends]

theorem renewed_trialEndsAt (env : Env) (sub : Subscription) : (renewed env sub).trialEndsAt = sub.trialEndsAt := by
  unfold renewed
  cases sub.scheduledPlanCode.filter (· ≠ "") with
  | none => rfl
  | some plan =>
    rw [Option.elim_some]
    split
    · rfl
    · rfl

namespace RowRule

variable {may : Prop} {S : Subscription → Prop} {env : Env} {ctx : TenantContext} {a : Account} {row sub : Subscription}

theorem row_invoices (row : Subscription) : ∀ (a : Account) invoices nextId, a.subscription = some row →
    { a with invoices := invoices, nextInvoiceId := nextId }.subscription = some row := fun _ _ _ h => h

theorem holds_invoices (S : Subscription → Prop) : ∀ (a : Account) invoices nextId, Holds S a →
    Holds S { a with invoices := invoices, nextInvoiceId := nextId } := fun _ _ _ h => h

theorem sync (rule : RowRule may S) (stored : a.subscription = some row) (holds : S row) : Holds S (syncStatus env row a).2 := by
  obtain ⟨updatedAt, same, left⟩ := Restriction.syncStatus_subscription env row a stored
  refine ⟨(syncStatus env row a).1, left, ?_⟩
  rw [same]
  exact rule.status row _ _ holds

theorem settleDebt (rule : RowRule may S) (holds : S row) (allowed : may) (debt : Invoice) :
    Leads (·.subscription = some row) (settleDebtInvoiceAsPaid env ctx row debt) (Holds S) := by
  unfold settleDebtInvoiceAsPaid
  refine Leads.bind (updateInvoice_leads (row_invoices row) _ _ _ _ _) (fun _ => Leads.modify fun a _ => ?_)
    fun _ h => ⟨row, h, holds⟩
  simp only
  generalize (estimateNextInvoice env row a).nextExtraStorageGb = extraStorageGb
  have next := rule.paid allowed holds (paidUntilDay_billingDueDate row) (Account.upsertSubscription_data env.utcnow
    (paidSubscription row (nextBillingDateAfter (billingDueDate row) row.billingPeriod) extraStorageGb) a)
  have stored : (a.upsertSubscription env.utcnow (paidSubscription row
      (nextBillingDateAfter (billingDueDate row) row.billingPeriod) extraStorageGb)).2.subscription =
    some (a.upsertSubscription env.utcnow (paidSubscription row
      (nextBillingDateAfter (billingDueDate row) row.billingPeriod) extraStorageGb)).1 := rfl
  generalize a.upsertSubscription env.utcnow (paidSubscription row
    (nextBillingDateAfter (billingDueDate row) row.billingPeriod) extraStorageGb) = updated at next stored ⊢
  rw [← reactivate_subscription ctx] at stored
  rw [ensureSubscription_of_some stored]
  exact rule.sync stored next

theorem completePaid (rule : RowRule may S) (holds : S row) (allowed : may) {billingDate : Int}
    (until' : PaidUntilDay row billingDate) (key : PeriodKey) (forced : Bool) :
    Leads (·.subscription = some row) (completeBillingPaid env ctx row billingDate key forced) (Holds S) := by
  unfold completeBillingPaid
  refine Leads.bind (Leads.get fun _ h => h) (fun a => ?_) fun _ h => ⟨row, h, holds⟩
  simp only
  split
  · exact Leads.bind (rule.settleDebt holds allowed _) (fun _ => Leads.pure (fun _ h => h) _) fun _ h => h
  · have rest : ∀ period gb r, Leads (·.subscription = some row) (do
        modify fun a => reactivate ctx (a.upsertSubscription env.utcnow
          (paidSubscription row (nextBillingDateAfter billingDate period) gb)).2
        return r : AccountM BillingRunResponse) (Holds S) := by
      intro period gb r
      refine Leads.bind (Leads.modify fun b _ => ?_) (fun _ => Leads.pure (fun _ h => h) r) fun _ h => h
      exact ⟨_, reactivate_subscription .., rule.paid allowed holds until' (Account.upsertSubscription_data ..)⟩
    refine Leads.ite (fun _ => ?_) fun _ => rest _ _ _
    exact Leads.bind (createInvoice_leads (row_invoices row) _ _ _ _ _ _ _ _ _) (fun _ => rest _ _ _)
      fun _ h => ⟨row, h, holds⟩

/-- `complete_subscription_billing` on the stored row, once the scheduled change is in force if it is due. -/
theorem completeBilling (rule : RowRule may S) (holds : S sub) (due : S (renewed env sub)) (outcome : String)
    (force forced : Bool) (success : outcome = "success" → may) :
    Leads (·.subscription = some sub) (completeSubscriptionBilling env ctx (some sub) outcome force forced) (Holds S) := by
  unfold completeSubscriptionBilling
  simp only [pure_bind]
  refine Leads.ite (fun _ => Leads.pure (fun _ h => ⟨sub, h, holds⟩) _) fun _ a h => ?_
  rw [after_modifyGet_bind, applyDueScheduledPlanChange_eq h]
  have rest : Leads (·.subscription = some (renewed env sub)) (if outcome = "success" then
      completeBillingPaid env ctx (renewed env sub) (billingDueDate sub)
        (if forced then PeriodKey.ofTime env.now else .date (billingDueDate sub)) forced
    else if outcome = "failed" then
      completeBillingFailed env (renewed env sub) (billingDueDate sub)
        (if forced then PeriodKey.ofTime env.now else .date (billingDueDate sub)) forced
    else throw (.valueError "Ismeretlen számlázási kimenet.")) (Holds S) := by
    have until' : PaidUntilDay (renewed env sub) (billingDueDate sub) := by
      rw [PaidUntilDay, renewed_trialEndsAt]
      exact paidUntilDay_billingDueDate sub
    refine Leads.ite (fun paid => rule.completePaid due (success paid) until' _ _) fun _ => ?_
    refine Leads.ite (fun _ a h => ?_) fun _ => Leads.throw (fun _ h => ⟨_, h, due⟩) _
    exact ⟨_, completeBillingFailed_leads (row_invoices _) env _ _ _ _ a h, due⟩
  exact rest _ rfl

theorem completeBilling_ensured (rule : RowRule may S) (holds : S (ensureSubscription env ctx a).1)
    (due : S (renewed env (ensureSubscription env ctx a).1)) (outcome : String) (force forced : Bool)
    (success : outcome = "success" → may) :
    Holds S (after (completeSubscriptionBilling env ctx none outcome force forced) a) := by
  rw [after_completeBilling_none]
  exact rule.completeBilling holds due outcome force forced success _ (ensureSubscription_subscription env ctx a)

/-- `settle_subscription` writes a paid period when the charge is accepted. -/
theorem settle (rule : RowRule may S) (holds : S (ensureSubscription env ctx a).1)
    (due : S (renewed env (ensureSubscription env ctx a).1)) (accepted : settlePaid env ctx a = true → may) :
    Holds S (after (settleSubscription env ctx) a) := by
  unfold settleSubscription
  rw [after_bind_of_ok (EStateM.run_modifyGet ..), after_bind_of_ok (EStateM.run_get _)]
  have stored := ensureSubscription_subscription env ctx a
  unfold settlePaid settleAmount at accepted
  generalize ensureSubscription env ctx a = ensured at holds due accepted stored ⊢
  obtain ⟨sub, b⟩ := ensured
  cases hd : b.getLatestUnpaidDebtInvoice with
  | some debt =>
    simp only [hd] at accepted ⊢
    refine Leads.ite (P := (·.subscription = some sub)) (fun paid => ?_) (fun _ => ?_) b stored
    · exact Leads.bind (rule.settleDebt holds (accepted paid) _) (fun _ => Leads.pure (fun _ h => h) _) fun _ h => h
    · refine Leads.bind (updateInvoice_leads (row_invoices sub) _ _ _ _ _) (fun _ => ?_) fun _ h => ⟨sub, h, holds⟩
      refine Leads.bind (Leads.modify fun a h => rule.sync h holds) (fun _ => Leads.pure (fun _ h => h) _) fun _ h => h
  | none =>
    simp only [hd] at accepted ⊢
    refine Leads.ite (P := (·.subscription = some sub)) (fun paid => ?_) (fun _ => ?_) b stored
    · refine Leads.bind (rule.completeBilling holds due _ _ _ fun _ => accepted paid) (fun settled => ?_) fun _ h => h
      split
      · exact Leads.pure (fun _ h => h) _
      · exact Leads.ite (fun _ => Leads.pure (fun _ h => h) _) fun _ => Leads.pure (fun _ h => h) _
    · exact rule.completeBilling holds due _ _ _ fun failed => absurd failed (by decide)

/-- The daily retry leaves the account alone, or loads the row, and writes a paid period when it charges the debt. -/
theorem retry (rule : RowRule may S) (holds : S (ensureSubscription env ctx a).1)
    (owes : a.getLatestUnpaidDebtInvoice.isSome = true → may) :
    after (retryFailedPayment env ctx) a = a ∨ Holds S (after (retryFailedPayment env ctx) a) := by
  unfold retryFailedPayment
  rw [after_bind_of_ok (EStateM.run_get _)]
  cases hd : a.getLatestUnpaidDebtInvoice with
  | none => exact .inl rfl
  | some debt =>
    have allowed : may := owes (by rw [hd]; rfl)
    refine Leads.ite (P := (· = a)) (Q := fun b => b = a ∨ Holds S b) (fun _ => Leads.pure (fun _ h => .inl h) _) (fun _ => ?_)
      a rfl
    refine Leads.ite (fun _ => Leads.pure (fun _ h => .inl h) _) fun _ c same => .inr ?_
    rw [same, after_modifyGet_bind]
    have stored := ensureSubscription_subscription env ctx a
    generalize ensureSubscription env ctx a = ensured at holds stored ⊢
    obtain ⟨row, b⟩ := ensured
    refine Leads.ite (P := (·.subscription = some row)) (fun _ => ?_) (fun _ => ?_) b stored
    · exact Leads.bind (rule.settleDebt holds allowed _) (fun _ => Leads.pure (fun _ h => h) _) fun _ h => h
    · have noted : ∀ debt : Invoice, Leads (Holds S) (do
          let emailSent := sendPaymentFailedOwnerEmail env (← get)
          markInvoiceRetryMeta debt env.today emailSent
          return .failed emailSent : AccountM RetryOutcome) (Holds S) := by
        intro debt
        refine Leads.bind (Leads.get fun _ h => h) (fun _ => ?_) fun _ h => h
        exact Leads.bind (markInvoiceRetryMeta_leads (holds_invoices S) _ _ _) (fun _ => Leads.pure (fun _ h => h) _)
          fun _ h => h
      refine Leads.ite (fun _ => ?_) fun _ a h => noted debt a ⟨row, h, holds⟩
      refine Leads.bind (updateInvoice_leads (row_invoices row) _ _ _ _ _) (fun _ => ?_) fun _ h => ⟨row, h, holds⟩
      refine Leads.bind (Leads.get fun _ h => h) (fun _ => ?_) fun _ h => ⟨row, h, holds⟩
      exact Leads.bind (Leads.modify fun a h => rule.sync h holds) (fun _ => noted _) fun _ h => h

theorem retry_stored (rule : RowRule may S) (stored : a.subscription = some row) (holds : S row)
    (owes : a.getLatestUnpaidDebtInvoice.isSome = true → may) : Holds S (after (retryFailedPayment env ctx) a) := by
  have loaded : S (ensureSubscription env ctx a).1 := by
    rw [ensureSubscription_of_some stored]
    exact holds
  rcases rule.retry loaded owes with same | settled
  · rw [same]
    exact ⟨row, stored, holds⟩
  · exact settled

/-- The billing cycle leaves an inactive tenant alone. -/
theorem processTenant (rule : RowRule may S) (due : S (renewed env (ensureSubscription env a.snapshot a).1)) :
    a.tenant.isActive = false ∧ processTenant env a = a ∨ Holds S (processTenant env a) := by
  cases active : a.tenant.isActive with
  | false => exact .inl ⟨rfl, by rw [Billing.processTenant, active, if_neg Bool.false_ne_true]⟩
  | true =>
    obtain ⟨invoices, nextInvoiceId, -, final⟩ := Completeness.processTenant_forms env active
    rw [final]
    generalize (ensureSubscription env a.snapshot a).1 = sub at due ⊢
    exact .inr (rule.sync rfl due)

/-- The due cycle, with the daily retry after it. The lifecycle of cancellations comes first and leaves the row alone. -/
theorem dueCycles (rule : RowRule may S) (allowed : may)
    (due : ∀ ctx c, c.subscription = a.subscription → S (renewed env (ensureSubscription env ctx c).1)) {b : Account}
    (run : processDueCycles env a = some b) : b.subscription = a.subscription ∨ Holds S b := by
  obtain ⟨c, lifecycle, rfl⟩ := Option.map_eq_some_iff.mp run
  obtain ⟨-, same⟩ := (GracePeriod.lifecycleInvariant_billing a).lifecycle env ⟨rfl, rfl⟩ c lifecycle
  unfold retryTenant
  rcases rule.processTenant (due c.snapshot c same) with ⟨inactive, unchanged⟩ | ⟨row, stored, holds⟩
  · rw [unchanged, inactive, if_neg Bool.false_ne_true]
    exact .inl same
  · split
    · exact .inr (rule.retry_stored stored holds fun _ => allowed)
    · exact .inr ⟨row, stored, holds⟩

end RowRule

end NyzRating.Billing
