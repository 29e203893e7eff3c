import NyzRating.Billing.PaymentEvents
import NyzRating.Billing.Settlement

/-!
# What the operations leave of an account

One description for each operation that changes the plan: the forms that the account can have after it. What is proved
of such an operation goes by cases on these.
-/

namespace NyzRating.Billing

open Calendar Program

/-- The account with one more invoice. -/
def Account.addInvoice (row : Invoice) (a : Account) : Account :=
  { a with invoices := a.invoices ++ [row], nextInvoiceId := a.nextInvoiceId + 1 }

/-- One line carries the whole total. -/
def Invoice.SingleLine (row : Invoice) : Prop := ∃ line, row.lines = [line] ∧ line.totalCents = some row.totalCents

theorem createInvoice_addsRow (type : InvoiceType) (key : PeriodKey) (total : Int) (description : String)
    (lines : List InvoiceLine) (dueAt : Int) (status : InvoiceStatus) (method : String) (issuedAt : Int) (a : Account) :
    (∃ e, (createInvoice type key total description lines dueAt status method issuedAt).run a = .error e a) ∨
    ∃ row : Invoice, row.totalCents = total ∧ row.lines = lines ∧
      (createInvoice type key total description lines dueAt status method issuedAt).run a = .ok row (a.addInvoice row) := by
  simp only [createInvoice, EStateM.run_bind, EStateM.run_get]
  cases existing : a.getInvoice type key with
  | some row => exact .inl ⟨.integrityError, rfl⟩
  | none => exact .inr ⟨_, rfl, rfl, rfl⟩

/-- What holds of the account as it is and, with the new row, of all that follows holds at the end. -/
theorem after_createInvoice_bind {α : Type} {Q : Account → Prop} {type : InvoiceType} {key : PeriodKey} {total : Int}
    {description : String} {lines : List InvoiceLine} {dueAt : Int} {status : InvoiceStatus} {method : String} {issuedAt : Int}
    {f : Invoice → AccountM α} {a : Account} (kept : Q a)
    (added : ∀ row : Invoice, row.totalCents = total → row.lines = lines → Q (after (f row) (a.addInvoice row))) :
    Q (after (createInvoice type key total description lines dueAt status method issuedAt >>= f) a) := by
  rcases createInvoice_addsRow type key total description lines dueAt status method issuedAt a with
    ⟨e, run⟩ | ⟨row, ht, hl, run⟩
  · rw [after_bind_of_error run]
    exact kept
  · rw [after_bind_of_ok run]
    exact added row ht hl

/-! ### `update_subscription` -/

/-- The paid-until time that an immediate change writes: only the first paid plan has one. -/
def firstPaidUntil (env : Env) (sub : Subscription) (plan : BillingPlan) (period : BillingPeriod) : Option Int :=
  if sub.planCode = "free" ∧ plan.code ≠ "free" then some (midnight (paidUntilAfterUpgrade env.today period)) else none

/-- The account after `update_subscription`, where `plan?` is what the catalog has under the code asked for. The tenant
has the subscription `sub`, and `b` is its account once that is sure. -/
inductive Updated (env : Env) (plan? : Option BillingPlan) (period : BillingPeriod) (a : Account) (sub : Subscription)
    (b : Account) : Account → Prop
  | unknown (none : plan? = none) : Updated env plan? period a sub b a
  | scheduled {plan : BillingPlan} (found : plan? = some plan)
      (deferred : isScheduledChange sub.toSubscriptionData plan.code period env.plans = true) :
      Updated env plan? period a sub b (schedulePlanChange env sub plan period b)
  | refused : Updated env plan? period a sub b b
  | applied {plan : BillingPlan} (found : plan? = some plan)
      (now : isScheduledChange sub.toSubscriptionData plan.code period env.plans = false) :
      Updated env plan? period a sub b
        (applyImmediatePlanChange env sub plan period (firstPaidUntil env sub plan period) b).2
  | charged {plan : BillingPlan} {row : Invoice} (found : plan? = some plan)
      (now : isScheduledChange sub.toSubscriptionData plan.code period env.plans = false) (single : row.SingleLine) :
      Updated env plan? period a sub b
        ((applyImmediatePlanChange env sub plan period (firstPaidUntil env sub plan period) b).2.addInvoice row)

theorem requireBillingProfile_run (env : Env) (a : Account) :
    (requireBillingProfile env).run a = .ok () a ∨ ∃ e, (requireBillingProfile env).run a = .error e a := by
  simp only [requireBillingProfile, run_ite]
  split
  · exact .inr ⟨_, rfl⟩
  · split
    · exact .inr ⟨_, rfl⟩
    · exact .inl rfl

theorem updateSubscription_updated (env : Env) (ctx : TenantContext) (planCode billingPeriod : String) (a : Account) :
    Updated env (env.plans.find? (Text.stripLower planCode)) (normalizeBillingPeriod billingPeriod) a
      (ensureSubscription env ctx a).1 (ensureSubscription env ctx a).2
      (after (updateSubscription env ctx planCode billingPeriod) a) := by
  unfold updateSubscription
  cases found : env.plans.find? (Text.stripLower planCode) with
  | none => exact .unknown rfl
  | some plan =>
    simp only
    rw [after_bind_of_ok (EStateM.run_modifyGet ..), after_bind_of_ok (EStateM.run_get _)]
    generalize ensureSubscription env ctx a = ensured
    obtain ⟨sub, b⟩ := ensured
    generalize normalizeBillingPeriod billingPeriod = period
    split
    · next deferred => exact .scheduled rfl deferred
    · next now =>
      have immediate : isScheduledChange sub.toSubscriptionData plan.code period env.plans = false := by simpa using now
      have changed : Updated env (some plan) period a sub b
          (applyImmediatePlanChange env sub plan period (firstPaidUntil env sub plan period) b).2 := .applied rfl immediate
      by_cases first : sub.planCode = "free" ∧ plan.code ≠ "free"
      · have checkout : (decide (sub.planCode = "free") && decide (plan.code ≠ "free")) = true := by simp [first]
        have until' : firstPaidUntil env sub plan period = some (midnight (paidUntilAfterUpgrade env.today period)) :=
          if_pos first
        simp only [checkout, if_true]
        rcases requireBillingProfile_run env b with ok | ⟨e, error⟩
        · rw [after_bind_of_ok ok, after_modifyGet_bind]
          simp only [Option.map_some, Bool.true_and, ← until']
          split
          · refine after_createInvoice_bind (Q := Updated env (some plan) period a sub b) changed fun row total lines => ?_
            refine .charged rfl immediate ⟨_, lines, ?_⟩
            rw [total, trainingInitialFeeCentsForPlan, add_zero]
          · exact changed
        · rw [after_bind_of_error error]
          exact .refused
      · have other : (decide (sub.planCode = "free") && decide (plan.code ≠ "free")) = false := by
          rw [Bool.and_eq_false_iff]
          grind
        have none' : firstPaidUntil env sub plan period = none := if_neg first
        simp only [other]
        rw [none'] at changed
        exact changed

/-! ### `complete_upgrade_after_checkout` -/

/-- The account after `complete_upgrade_after_checkout`. -/
inductive Upgraded (env : Env) (plan? : Option BillingPlan) (period : BillingPeriod) (sub : Subscription) (b : Account) :
    Account → Prop
  | unchanged : Upgraded env plan? period sub b b
  | applied {plan : BillingPlan} {preview : UpgradeProration} (found : plan? = some plan) (paid : sub.planCode ≠ "free")
      (priced : upgradeProration env sub plan.code period = some preview) :
      Upgraded env plan? period sub b (applyImmediatePlanChange env sub plan period (some (midnight preview.paidUntil)) b).2
  | charged {plan : BillingPlan} {preview : UpgradeProration} {row : Invoice} (found : plan? = some plan)
      (paid : sub.planCode ≠ "free") (priced : upgradeProration env sub plan.code period = some preview)
      (total : row.totalCents = preview.totalChargeCents)
      (lines : row.lines =
        upgradeLines preview plan.code period preview.nextPeriodChargeCents true env.billingProvider none) :
      Upgraded env plan? period sub b
        ((applyImmediatePlanChange env sub plan period (some (midnight preview.paidUntil)) b).2.addInvoice row)

theorem completeUpgradeAfterCheckout_upgraded (env : Env) (ctx : TenantContext) (planCode billingPeriod : String)
    (a : Account) :
    Upgraded env (env.plans.find? (Text.stripLower planCode)) (normalizeBillingPeriod billingPeriod)
      (ensureSubscription env ctx a).1 (ensureSubscription env ctx a).2
      (after (completeUpgradeAfterCheckout env ctx planCode billingPeriod) a) := by
  unfold completeUpgradeAfterCheckout
  rw [after_bind_of_ok (EStateM.run_modifyGet ..), after_bind_of_ok (EStateM.run_get _)]
  generalize ensureSubscription env ctx a = ensured
  obtain ⟨sub, b⟩ := ensured
  generalize normalizeBillingPeriod billingPeriod = period
  simp only
  cases found : env.plans.find? (Text.stripLower planCode) with
  | none => exact .unchanged
  | some plan =>
    simp only
    split
    · exact .unchanged
    · next paid =>
      split
      · exact .unchanged
      · split
        · exact .unchanged
        · cases priced : upgradeProration env sub plan.code period with
          | none => exact .unchanged
          | some preview =>
            simp only
            split
            · rw [after_modifyGet_bind]
              have changed : Upgraded env (some plan) period sub b
                  (applyImmediatePlanChange env sub plan period (some (midnight preview.paidUntil)) b).2 :=
                .applied rfl paid priced
              split
              · refine after_createInvoice_bind (Q := Upgraded env (some plan) period sub b) changed fun row total lines => ?_
                exact .charged rfl paid priced total lines
              · exact changed
            · split
              · exact .unchanged
              · exact .unchanged

/-! ### `process_verified_payment_event` -/

namespace Delivery

variable (d : Delivery) (a : Account)

/-- The proration of the change that the event pays for, on the account of its tenant. -/
def preview : Option UpgradeProration :=
  upgradeProration d.env (ensureSubscription d.env a.snapshot a).1 d.targetPlan d.targetPeriod

/-- The row and the account once the plan is changed. -/
def changed (p : UpgradeProration) : Subscription × Account :=
  let (sub, b) := ensureSubscription d.env a.snapshot a
  b.upsertSubscription d.env.utcnow
    (immediatePlanData d.env sub (d.env.plans.getOrFree d.targetPlan) d.targetPeriod (some (midnight p.paidUntil)) b)

/-- The account once the configuration follows. -/
def synced (p : UpgradeProration) : Account := syncTenantConfig d.env (d.changed a p).1 (d.changed a p).2

end Delivery

/-- The account of a tenant after a delivery. -/
inductive Delivered (d : Delivery) (a : Account) : Account → Prop
  | untouched : Delivered d a a
  | ensured : Delivered d a (ensureSubscription d.env a.snapshot a).2
  | changed {p : UpgradeProration} (priced : d.preview a = some p) : Delivered d a (d.changed a p).2
  | synced {p : UpgradeProration} (priced : d.preview a = some p) : Delivered d a (d.synced a p)
  | booked {p : UpgradeProration} {row : Invoice} (priced : d.preview a = some p)
      (total : d.totalCharge p = some row.totalCents)
      (lines : row.lines = upgradeLines p d.targetPlan d.targetPeriod
        (if p.nextPeriodChargeCents = 0 then row.totalCents else p.nextPeriodChargeCents) false d.normalizedProvider
        (some d.normalizedEventId)) :
      Delivered d a ((d.synced a p).addInvoice row)

section
variable {P : Nat → Account → Prop} {s : PaymentState}

theorem storeRun_createInvoice {id : Nat} {type : InvoiceType} {key : PeriodKey} {total : Int} {description : String}
    {lines : List InvoiceLine} {dueAt : Int} {status : InvoiceStatus} {method : String} {issuedAt : Int} {a : Account}
    (added : ∀ row : Invoice, row.totalCents = total → row.lines = lines → P id (a.addInvoice row)) :
    Leads (·.Each P) (storeRun id (createInvoice type key total description lines dueAt status method issuedAt) a) (·.Each P) := by
  unfold storeRun
  rcases createInvoice_addsRow type key total description lines dueAt status method issuedAt a with
    ⟨e, run⟩ | ⟨row, ht, hl, run⟩
  · rw [run]
    exact Leads.throw (fun _ h => h) _
  · rw [run]
    exact Leads.modify fun t h => h.store (added row ht hl)

theorem bookVerifiedUpgrade_delivered (d : Delivery) {e : PaymentEvent} {a : Account} {p : UpgradeProration}
    (priced : d.preview a = some p) (all : ∀ b, Delivered d a b → P e.tenantId b) :
    Leads (·.Each P) (bookVerifiedUpgrade d e p (d.synced a p)) (·.Each P) := by
  unfold bookVerifiedUpgrade
  refine Leads.bind (d.attempt_leads _ (Leads.pure (fun _ h => h) _)) (fun _ => ?_) fun _ h => h
  cases charge : d.totalCharge p with
  | none => exact Leads.throw (fun _ h => h) _
  | some total =>
    refine Leads.bind (d.attempt_leads _ (Leads.pure (fun _ h => h) _)) (fun existing => ?_) fun _ h => h
    refine Leads.ite (fun _ => Leads.pure (fun _ h => h) _) fun _ => ?_
    refine Leads.bind (d.attempt_leads _ ?_) (fun _ => Leads.pure (fun _ h => h) _) fun _ h => h
    refine storeRun_createInvoice fun row ht hl => all _ (.booked priced ?_ ?_)
    · rw [ht]
      exact charge
    · rw [ht]
      exact hl

theorem applyVerifiedUpgrade_delivered (d : Delivery) (e : PaymentEvent) (start : s.Each P)
    (all : ∀ a b, s.accounts e.tenantId = some a → Delivered d a b → P e.tenantId b) :
    Leads (·.accounts = s.accounts) (applyVerifiedUpgrade d e) (·.Each P) := by
  have each : ∀ t : PaymentState, t.accounts = s.accounts → t.Each P := fun t same k a h => start k a (same ▸ h)
  unfold applyVerifiedUpgrade
  have look : Returns (·.accounts = s.accounts) (d.attempt .tenantLookup (do return (← get).accounts e.tenantId))
      (fun found t => s.accounts e.tenantId = found ∧ t.Each P) (·.Each P) :=
    Returns.attempt (fun t same => .returned ⟨by rw [same], each t same⟩) each fun _ _ h => h.2
  refine (Returns.bind look fun found => Returns.given fun stored => .of_leads ?_).leads
  split
  · exact Leads.throw (fun _ h => h) _
  · next a =>
    have forms := all a
    refine Leads.bind (d.attempt_leads _ (Leads.modify fun _ h => h.store (forms _ stored .ensured))) (fun _ => ?_) fun _ h => h
    refine (Returns.bind (R := fun r (t : PaymentState) => d.preview a = r ∧ t.Each P)
      (Returns.attempt (.pure fun _ h => ⟨rfl, h⟩) (fun _ h => h) fun _ _ h => h.2)
      fun r => Returns.given fun priced => .of_leads ?_).leads
    split
    · exact Leads.throw (fun _ h => h) _
    · refine Leads.bind (d.attempt_leads _ (Leads.modify fun _ h => h.store (forms _ stored (.changed priced))))
        (fun _ => ?_) fun _ h => h
      refine Leads.bind (d.attempt_leads _ (Leads.modify fun _ h => h.store (forms _ stored (.synced priced))))
        (fun _ => ?_) fun _ h => h
      exact bookVerifiedUpgrade_delivered d priced fun b => forms b stored

/-- A delivery leaves each account in one of the forms. -/
theorem deliver_delivered (s : PaymentState) (d : Delivery) {k : Nat} {b : Account} (h : (deliver s d).accounts k = some b) :
    ∃ a, s.accounts k = some a ∧ Delivered d a b := by
  let From (k : Nat) (b : Account) : Prop := ∃ a, s.accounts k = some a ∧ Delivered d a b
  have start : s.Each From := fun k a ha => ⟨a, ha, .untouched⟩
  have each : ∀ t : PaymentState, t.accounts = s.accounts → t.Each From := fun t same k a h => start k a (same ▸ h)
  have leads : Leads (·.accounts = s.accounts) (processVerifiedPaymentEvent d) (·.Each From) := by
    unfold processVerifiedPaymentEvent
    refine Leads.ite (fun _ => Leads.throw_bind each _ _) fun _ => ?_
    split
    · exact Leads.throw each _
    · refine Leads.ite (fun _ => Leads.throw_bind each _ _) fun _ => ?_
      have recorded : ∀ k, Leads (·.accounts = s.accounts)
          (recordPaymentEventOnce d.normalizedProvider d.normalizedEventId d.normalizedEventType k) (·.accounts = s.accounts) := by
        intro k t same
        simp only [after, recordPaymentEventOnce, EStateM.run_bind, EStateM.run_get]
        split
        · exact same
        · simp only [run_ite, EStateM.run_bind, EStateM.run_set]
          split
          · exact same
          · exact same
      refine Leads.bind (d.attempt_leads _ (recorded _)) (fun r => ?_) each
      refine Leads.ite (fun _ => Leads.pure each _) fun _ => ?_
      refine Leads.ite (fun _ => Leads.pure each _) fun _ => ?_
      exact applyVerifiedUpgrade_delivered d _ start fun a b stored form => ⟨a, stored, form⟩
  rw [deliver] at h
  exact leads s rfl k b h

theorem Delivered.keeps {Q : Account → Prop} (hQ : RowInvariant Q) {d : Delivery} {a b : Account} (form : Delivered d a b)
    (h : Q a) : Q b := by
  have ensured := hQ.ensure d.env a.snapshot h
  have changed : ∀ p, Q (d.changed a p).2 := fun p => hQ.upsert _ _ ensured
  cases form with
  | untouched => exact h
  | ensured => exact ensured
  | changed => exact changed _
  | synced => exact hQ.config _ _ _ (changed _)
  | booked => exact hQ.invoices _ _ _ (hQ.config _ _ _ (changed _))

/-- A delivery keeps what does not look at invoices, subscription and configuration. -/
theorem deliver_each (hP : ∀ k, RowInvariant (P k)) (d : Delivery) (h : s.Each P) : (deliver s d).Each P := by
  intro k b stored
  obtain ⟨a, was, form⟩ := deliver_delivered s d stored
  exact form.keeps (hP k) (h k a was)

end

end NyzRating.Billing
