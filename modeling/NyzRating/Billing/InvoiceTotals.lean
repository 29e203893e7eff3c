import NyzRating.Billing.Effects
import NyzRating.Billing.RestrictionStable

/-!
# The total of an invoice and its lines

Four of the operations that write invoices carry the total in their lines. An upgrade invoice has a line for the new
period and one for the credit: the checkout charges what is left of them but nothing below zero, and a payment event
charges the amount that it names.
-/

namespace NyzRating.Billing.Totals

open Calendar Program

/-- What the lines of an invoice come to. -/
def lineTotal (i : Invoice) : Int := (i.lines.map fun line => line.totalCents.getD 0).sum

def AddsUp (i : Invoice) : Prop := i.totalCents = lineTotal i

/-- The account has had this invoice, with its total and its lines. -/
def Stands (a : Account) (i : Invoice) : Prop :=
  ∃ j ∈ a.invoices, j.id = i.id ∧ j.totalCents = i.totalCents ∧ j.lines = i.lines

/-- `Q` holds of the invoices that are new from `a` to `b`. -/
def Created (Q : Invoice → Prop) (a b : Account) : Prop := ∀ i ∈ b.invoices, Stands a i ∨ Q i

/-- The total is what the lines come to, but not below zero. -/
def Clipped (i : Invoice) : Prop := i.totalCents = max 0 (lineTotal i)

/-- What a payment event names as the amount. -/
def namedAmount (d : Delivery) : JsonInt := d.payload.metadataAmountCents.orElse d.payload.amountCents

/-- The invoice of a payment event: its lines are the new period, or the amount where that costs nothing, less the
credit. Its total is the amount named, or else what the lines come to but not below zero. -/
structure BookedTotal (d : Delivery) (p : UpgradeProration) (i : Invoice) : Prop where
  lines : lineTotal i =
    (if p.nextPeriodChargeCents = 0 then i.totalCents else p.nextPeriodChargeCents) - p.oldRemainingCreditCents
  named : ∀ n, namedAmount d = .value n → i.totalCents = n
  unnamed : namedAmount d = .falsy → Clipped i

/-- The delivery priced its upgrade on the account `a` and booked `i` for it. -/
def Booked (d : Delivery) (a : Account) (i : Invoice) : Prop := ∃ p, d.preview a = some p ∧ BookedTotal d p i

variable {Q : Invoice → Prop} {a b c : Account}

theorem Created.refl (Q : Invoice → Prop) (a : Account) : Created Q a a := fun i mem => .inl ⟨i, mem, rfl, rfl, rfl⟩

theorem Created.of_invoices (h : Created Q a b) (same : c.invoices = b.invoices) : Created Q a c :=
  fun i mem => h i (same ▸ mem)

theorem Created.addInvoice (h : Created Q a b) {row : Invoice} (new : Q row) : Created Q a (b.addInvoice row) := by
  intro i mem
  rcases List.mem_append.mp mem with old | added
  · exact h i old
  · rw [List.mem_singleton.mp added]
    exact .inr new

theorem addsUp_of_singleLine {row : Invoice} (single : row.SingleLine) : AddsUp row := by
  obtain ⟨line, lines, total⟩ := single
  simp [AddsUp, lineTotal, lines, total]

/-- The lines of an upgrade: there is no training fee. -/
theorem lineTotal_upgradeLines {p : UpgradeProration} {plan : String} {period : BillingPeriod} {periodTotal : Int}
    {simulated : Bool} {provider : String} {reference : Option String} {row : Invoice} (free : p.trainingInitialFeeCents = 0)
    (lines : row.lines = upgradeLines p plan period periodTotal simulated provider reference) :
    lineTotal row = periodTotal - p.oldRemainingCreditCents := by
  simp [lineTotal, lines, upgradeLines, free]
  omega

theorem proration_amounts {env : Env} {sub : Subscription} {plan : String} {period : BillingPeriod} {p : UpgradeProration}
    (priced : upgradeProration env sub plan period = some p) : p.trainingInitialFeeCents = 0 ∧ 0 ≤ p.oldRemainingCreditCents ∧
      p.totalChargeCents = max 0 (p.nextPeriodChargeCents - p.oldRemainingCreditCents) := by
  unfold upgradeProration computeUpgradeProration at priced
  obtain ⟨next, -, priced⟩ := Option.bind_eq_some_iff.mp priced
  obtain ⟨⟨⟩, -, priced⟩ := Option.bind_eq_some_iff.mp priced
  obtain ⟨⟨⟩, -, priced⟩ := Option.bind_eq_some_iff.mp priced
  cases priced
  refine ⟨rfl, le_max_left _ _, ?_⟩
  simp [upgradeTrainingInitialFeeCents, trainingInitialFeeCentsForPlan]

/-! ### What the operations write

The amounts of the new invoices of each operation. What depends on the total and the lines alone follows for all of
them. -/

/-- An invoice for the period that the row bills: requests, charges and failed charges write it. -/
structure PeriodInvoice (env : Env) (sub : Subscription) (a : Account) (row : Invoice) : Prop where
  total : row.totalCents = (estimateNextInvoice env sub a).totalCents
  line : ∃ line, row.lines = [line] ∧ line.totalCents = some row.totalCents ∧
    line.unitPriceCents =
      some (planMonthlyChargeCentsAfterDiscount (env.plans.getOrFree sub.planCode).priceCents sub.billingPeriod) ∧
    line.quantity = some (billingPeriodMultiplier sub.billingPeriod) ∧
    line.periodMultiplier = some (billingPeriodMultiplier sub.billingPeriod)

/-- An invoice for `quantity` pieces of an addon. -/
structure AddonInvoice (priceCents quantity : Int) (row : Invoice) : Prop where
  total : row.totalCents = priceCents * quantity
  line : ∃ line, row.lines = [line] ∧ line.totalCents = some row.totalCents ∧ line.unitPriceCents = some priceCents ∧
    line.quantity = some quantity ∧ line.periodMultiplier = none

/-- The row and the account that `complete_subscription_billing` bills: a change that is due is in force. -/
def billed (env : Env) (ctx : TenantContext) (subscription : Option Subscription) (a : Account) : Subscription × Account :=
  let (sub, a) := subscription.elim (ensureSubscription env ctx a) fun sub => (sub, a)
  applyDueScheduledPlanChange env sub a

/-- `Q` looks at the total and the lines alone. -/
def OfAmounts (Q : Invoice → Prop) : Prop := ∀ i j : Invoice, j.totalCents = i.totalCents → j.lines = i.lines → Q i → Q j

theorem addsUp_ofAmounts : OfAmounts AddsUp := fun i j total lines adds => by
  rw [AddsUp, lineTotal, total, lines]
  exact adds

theorem createInvoice_created {type : InvoiceType} {key : PeriodKey} {total : Int} {description : String}
    {lines : List InvoiceLine} {dueAt : Int} {status : InvoiceStatus} {method : String} {issuedAt : Int}
    (new : ∀ row : Invoice, row.totalCents = total → row.lines = lines → Q row) :
    Leads (Created Q a) (createInvoice type key total description lines dueAt status method issuedAt) (Created Q a) := by
  intro b h
  rcases createInvoice_addsRow type key total description lines dueAt status method issuedAt b with
    ⟨e, run⟩ | ⟨row, ht, hl, run⟩
  · rw [after_of_error run]
    exact h
  · rw [after_of_ok run]
    exact h.addInvoice (new row ht hl)

/-- A change of status keeps the total and the lines. -/
theorem updateInvoice_created (amounts : OfAmounts Q) (id : Nat) (status : InvoiceStatus) (method : Option String)
    (type : Option InvoiceType) :
    Leads (Created Q a) (updateInvoicePaymentStatus id status method type none) (Created Q a) := by
  intro b h
  simp only [after, updateInvoicePaymentStatus, EStateM.run_bind, EStateM.run_get]
  cases found : b.getInvoiceById id with
  | none => exact h
  | some old =>
    simp only [run_ite, EStateM.run_bind, EStateM.run_set]
    split
    · exact h
    · intro i mem
      obtain ⟨j, old', rfl⟩ := List.mem_map.mp mem
      split
      · rcases h old (List.mem_of_find?_eq_some found) with ⟨k, stands, ids, total, lines⟩ | holds
        · exact .inl ⟨k, stands, ids, total, lines⟩
        · exact .inr (amounts old _ rfl rfl holds)
      · exact h j old'

theorem settleDebt_created (amounts : OfAmounts Q) (env : Env) (ctx : TenantContext) (sub : Subscription) (debt : Invoice) :
    Leads (Created Q a) (settleDebtInvoiceAsPaid env ctx sub debt) (Created Q a) := by
  unfold settleDebtInvoiceAsPaid
  refine Leads.bind (updateInvoice_created amounts _ _ _ _) (fun _ => Leads.modify fun b h => ?_) fun _ h => h
  refine h.of_invoices ?_
  rw [Restriction.syncStatus_invoices, ensureSubscription_invoices]
  unfold reactivate
  split <;> rfl

theorem completePaid_created (amounts : OfAmounts Q) (start : Created Q a b) (env : Env) (ctx : TenantContext)
    (sub : Subscription) (billingDate : Int) (key : PeriodKey) (forced : Bool)
    (new : ∀ row, PeriodInvoice env sub b row → Q row) :
    Created Q a (after (completeBillingPaid env ctx sub billingDate key forced) b) := by
  unfold completeBillingPaid
  rw [after_bind_of_ok (EStateM.run_get b)]
  simp only
  split
  · exact Leads.bind (settleDebt_created amounts env ctx sub _) (fun _ => Leads.pure (fun _ h => h) _) (fun _ h => h) b start
  · have rest : ∀ data r, Leads (Created Q a) (do
        modify fun b => reactivate ctx (b.upsertSubscription env.utcnow data).2
        return r : AccountM BillingRunResponse) (Created Q a) := by
      intro data r
      refine Leads.bind (Leads.modify fun b h => h.of_invoices ?_) (fun _ => Leads.pure (fun _ h => h) r) fun _ h => h
      unfold reactivate
      split <;> rfl
    refine Leads.ite (fun _ => ?_) (fun _ => rest _ _) b start
    refine Leads.bind (createInvoice_created fun row total lines => new row ⟨total, _, lines, ?_, rfl, rfl, rfl⟩)
      (fun _ => rest _ _) fun _ h => h
    exact congrArg some total.symm

theorem completeFailed_created (start : Created Q a b) (env : Env) (sub : Subscription) (billingDate : Int) (key : PeriodKey)
    (forced : Bool) (new : ∀ row, PeriodInvoice env sub b row → Q row) :
    Created Q a (after (completeBillingFailed env sub billingDate key forced) b) := by
  unfold completeBillingFailed
  rw [after_bind_of_ok (EStateM.run_get b)]
  simp only
  split
  · refine Leads.bind (createInvoice_created fun row total lines => new row ⟨total, _, lines, ?_, rfl, rfl, rfl⟩)
      (fun _ => Leads.pure (fun _ h => h) _) (fun _ h => h) b start
    exact congrArg some total.symm
  · exact start

theorem completeBilling_created (amounts : OfAmounts Q) (env : Env) (ctx : TenantContext)
    (subscription : Option Subscription) (outcome : String) (force forced : Bool) (start : Created Q a b)
    (new : ∀ row, PeriodInvoice env (billed env ctx subscription b).1 (billed env ctx subscription b).2 row → Q row) :
    Created Q a (after (completeSubscriptionBilling env ctx subscription outcome force forced) b) := by
  have due : ∀ sub c, Created Q a c → Created Q a (applyDueScheduledPlanChange env sub c).2 := by
    intro sub c h
    refine h.of_invoices ?_
    unfold applyDueScheduledPlanChange
    split
    · rfl
    · split <;> rfl
  have loaded : ∀ sub c, Created Q a c → (∀ row, PeriodInvoice env (applyDueScheduledPlanChange env sub c).1
      (applyDueScheduledPlanChange env sub c).2 row → Q row) →
      Created Q a (after (completeSubscriptionBilling env ctx (some sub) outcome force forced) c) := by
    intro sub c h new
    have changed := due sub c h
    unfold completeSubscriptionBilling
    simp only [pure_bind]
    split
    · exact h
    · rw [after_bind_of_ok (EStateM.run_modifyGet ..)]
      split
      · exact completePaid_created amounts changed env ctx _ _ _ _ new
      · split
        · exact completeFailed_created changed env _ _ _ _ new
        · exact changed
  cases subscription with
  | some sub => exact loaded sub b start new
  | none =>
    rw [after_completeBilling_none]
    exact loaded _ _ (start.of_invoices (ensureSubscription_invoices env ctx b)) new

theorem issueRequest_created (env : Env) (sub : Subscription) (dueDate : Int) (key : PeriodKey) (start : Created Q a b)
    (new : ∀ row, PeriodInvoice env sub b row → Q row) :
    Created Q a (after (issueSubscriptionPaymentRequest env sub dueDate key) b) := by
  unfold issueSubscriptionPaymentRequest
  split
  · exact start
  · split
    · exact start
    · rw [after_bind_of_ok (EStateM.run_get b)]
      split
      · exact start
      · dsimp only
        split
        · exact start
        · refine Leads.bind (createInvoice_created fun row total lines => new row ⟨total, _, lines, ?_, rfl, rfl, rfl⟩)
            (fun _ => Leads.pure (fun _ h => h) _) (fun _ h => h) b start
          exact congrArg some total.symm

theorem purchaseAddon_created (env : Env) (ctx : TenantContext) (addonCode : String) (quantity : Int) (start : Created Q a b)
    (new : ∀ price row, AddonInvoice price (max 1 quantity) row → Q row) :
    Created Q a (after (purchaseAddon env ctx addonCode quantity) b) := by
  suffices leads : Leads (Created Q a) (purchaseAddon env ctx addonCode quantity) (Created Q a) from leads b start
  unfold purchaseAddon
  split
  · exact Leads.throw (fun _ h => h) _
  · refine Leads.ite (fun _ => Leads.throw_bind (fun _ h => h) _ _) fun _ => ?_
    refine Leads.bind (Leads.modifyGet fun b h => h.of_invoices (ensureSubscription_invoices env ctx b)) (fun sub => ?_)
      fun _ h => h
    refine Leads.bind (Leads.modify fun b h => h.of_invoices rfl)
      (fun _ => createInvoice_created fun row total lines => new _ row ⟨total, _, lines, ?_, rfl, rfl, rfl⟩) fun _ h => h
    exact congrArg some total.symm

theorem update_created (env : Env) (ctx : TenantContext) (planCode billingPeriod : String) (a : Account) :
    Created AddsUp a (after (updateSubscription env ctx planCode billingPeriod) a) := by
  have start : Created AddsUp a (ensureSubscription env ctx a).2 :=
    (Created.refl AddsUp a).of_invoices (ensureSubscription_invoices env ctx a)
  have form := updateSubscription_updated env ctx planCode billingPeriod a
  generalize after (updateSubscription env ctx planCode billingPeriod) a = b at form ⊢
  cases form with
  | unknown => exact .refl _ _
  | refused => exact start
  | scheduled => exact start.of_invoices rfl
  | applied => exact start.of_invoices rfl
  | charged _ _ single => exact Created.addInvoice (start.of_invoices rfl) (addsUp_of_singleLine single)

/-! ### Upgrade invoices -/

theorem checkout_created (env : Env) (ctx : TenantContext) (planCode billingPeriod : String) (a : Account)
    (new : ∀ plan p row, env.plans.find? (Text.stripLower planCode) = some plan →
      upgradeProration env (ensureSubscription env ctx a).1 plan.code (normalizeBillingPeriod billingPeriod) = some p →
      row.totalCents = p.totalChargeCents →
      row.lines = upgradeLines p plan.code (normalizeBillingPeriod billingPeriod) p.nextPeriodChargeCents true
        env.billingProvider none → Q row) :
    Created Q a (after (completeUpgradeAfterCheckout env ctx planCode billingPeriod) a) := by
  have start : Created Q a (ensureSubscription env ctx a).2 :=
    (Created.refl Q a).of_invoices (ensureSubscription_invoices env ctx a)
  have form := completeUpgradeAfterCheckout_upgraded env ctx planCode billingPeriod a
  generalize after (completeUpgradeAfterCheckout env ctx planCode billingPeriod) a = b at form ⊢
  cases form with
  | unchanged => exact start
  | applied => exact start.of_invoices rfl
  | charged found _ priced total lines =>
    exact Created.addInvoice (start.of_invoices rfl) (new _ _ _ found priced total lines)

theorem clipped_of_upgradeLines {env : Env} {sub : Subscription} {plan : String} {period : BillingPeriod} {p : UpgradeProration}
    {provider : String} {row : Invoice} (priced : upgradeProration env sub plan period = some p)
    (total : row.totalCents = p.totalChargeCents)
    (lines : row.lines = upgradeLines p plan period p.nextPeriodChargeCents true provider none) : Clipped row := by
  obtain ⟨free, -, charge⟩ := proration_amounts priced
  rw [Clipped, total, charge, lineTotal_upgradeLines free lines]

theorem bookedTotal_of_upgradeLines {d : Delivery} {p : UpgradeProration} {row : Invoice} (priced : d.preview a = some p)
    (total : d.totalCharge p = some row.totalCents)
    (lines : row.lines = upgradeLines p d.targetPlan d.targetPeriod
      (if p.nextPeriodChargeCents = 0 then row.totalCents else p.nextPeriodChargeCents) false d.normalizedProvider
      (some d.normalizedEventId)) : BookedTotal d p row := by
  obtain ⟨free, credit, charge⟩ := proration_amounts priced
  have sum := lineTotal_upgradeLines free lines
  refine ⟨sum, fun n names => ?_, fun names => ?_⟩
  · rw [Delivery.totalCharge, ← namedAmount, names] at total
    exact (Option.some.inj total).symm
  · rw [Delivery.totalCharge, ← namedAmount, names] at total
    have clipped : row.totalCents = p.totalChargeCents := (Option.some.inj total).symm
    rw [Clipped, sum, clipped, charge]
    split
    · next costless => omega
    · rfl

theorem delivered_created {d : Delivery} (form : Delivered d a b)
    (new : ∀ p row, d.preview a = some p → d.totalCharge p = some row.totalCents →
      row.lines = upgradeLines p d.targetPlan d.targetPeriod
        (if p.nextPeriodChargeCents = 0 then row.totalCents else p.nextPeriodChargeCents) false d.normalizedProvider
        (some d.normalizedEventId) → Q row) : Created Q a b := by
  have start : Created Q a (ensureSubscription d.env a.snapshot a).2 :=
    (Created.refl Q a).of_invoices (ensureSubscription_invoices d.env a.snapshot a)
  cases form with
  | untouched => exact .refl _ a
  | ensured => exact start
  | changed => exact start.of_invoices rfl
  | synced => exact start.of_invoices rfl
  | booked priced total lines => exact Created.addInvoice (start.of_invoices rfl) (new _ _ priced total lines)

/-- What the invoices of the six operations come to, whatever the catalog, the rows, the day and the event. -/
theorem invoice_totals (env : Env) (ctx : TenantContext) (a : Account) (s : PaymentState) (d : Delivery) :
    (∀ planCode billingPeriod, Created AddsUp a (after (updateSubscription env ctx planCode billingPeriod) a)) ∧
    (∀ planCode billingPeriod, Created Clipped a (after (completeUpgradeAfterCheckout env ctx planCode billingPeriod) a)) ∧
    (deliver s d).Each (fun k b => ∃ a, s.accounts k = some a ∧ Created (Booked d a) a b) ∧
    (∀ subscription outcome force forced,
      Created AddsUp a (after (completeSubscriptionBilling env ctx subscription outcome force forced) a)) ∧
    (∀ sub dueDate key, Created AddsUp a (after (issueSubscriptionPaymentRequest env sub dueDate key) a)) ∧
    ∀ addonCode quantity, Created AddsUp a (after (purchaseAddon env ctx addonCode quantity) a) := by
  have start : Created AddsUp a a := .refl AddsUp a
  have period : ∀ env sub b row, PeriodInvoice env sub b row → AddsUp row := by
    rintro env sub b row ⟨-, line, lines, total, -⟩
    exact addsUp_of_singleLine ⟨line, lines, total⟩
  have addon : ∀ price n row, AddonInvoice price n row → AddsUp row := by
    rintro price n row ⟨-, line, lines, total, -⟩
    exact addsUp_of_singleLine ⟨line, lines, total⟩
  refine ⟨fun planCode period => update_created env ctx planCode period a,
    fun planCode period => checkout_created env ctx planCode period a fun plan p row _ priced total lines =>
      clipped_of_upgradeLines priced total lines,
    fun k b stored => ?_,
    fun subscription outcome force forced => completeBilling_created addsUp_ofAmounts env ctx subscription outcome force forced
      start (period _ _ _),
    fun sub dueDate key => issueRequest_created env sub dueDate key start (period _ _ _),
    fun addonCode quantity => purchaseAddon_created env ctx addonCode quantity start fun price => addon price _⟩
  obtain ⟨c, was, form⟩ := deliver_delivered s d stored
  exact ⟨c, was, delivered_created form fun p row priced total lines =>
    ⟨p, priced, bookedTotal_of_upgradeLines priced total lines⟩⟩

/-- A tenant ten days into a year that it has paid for. -/
def prepaid : Account :=
  { Account.created "acme" "Acme" (midnight 20000) with
    subscription := some
      { planCode := "pro", billingPeriod := .yearly, status := .active, trialStartedAt := none
        trialEndsAt := some (midnight 20365), createdAt := midnight 20000, updatedAt := midnight 20000 } }

/-- An event that names less than the upgrade costs. -/
def discounted : Delivery where
  env := Env.seeded (midnight 20010)
  provider := "stripe"
  eventId := "evt_1"
  eventType := "invoice.paid"
  payload :=
    { metadataTenantId := .value 1, metadataFlow := some "plan_upgrade", targetPlan := some "business"
      billingPeriod := some "yearly", metadataAmountCents := .value 100 }

/-- A month of the plan costs less than the credit for the rest of the year, and an event can name any amount. -/
theorem invoices_not_added_up :
    (¬∀ env ctx a planCode billingPeriod,
      Created AddsUp a (after (completeUpgradeAfterCheckout env ctx planCode billingPeriod) a)) ∧
    ¬∀ (s : PaymentState) (d : Delivery),
      (deliver s d).Each fun k b => ∃ a, s.accounts k = some a ∧ Created AddsUp a b := by
  refine ⟨fun adds => ?_, fun adds => ?_⟩
  · have made : ∃ i ∈ (after (completeUpgradeAfterCheckout (Env.seeded (midnight 20010)) prepaid.snapshot "pro" "monthly")
        prepaid).invoices, i.totalCents ≠ lineTotal i := by decide +kernel
    obtain ⟨i, mem, wrong⟩ := made
    rcases adds (Env.seeded (midnight 20010)) prepaid.snapshot prepaid "pro" "monthly" i mem with ⟨j, none, -⟩ | right
    · exact List.not_mem_nil none
    · exact wrong right
  · let s : PaymentState := { accounts := fun k => if k = 1 then some prepaid else none }
    have made : ∃ b, (deliver s discounted).accounts 1 = some b ∧ ∃ i ∈ b.invoices, i.totalCents ≠ lineTotal i := by
      have booked : ((deliver s discounted).accounts 1).any
          (fun b => b.invoices.any fun i => i.totalCents ≠ lineTotal i) = true := by decide +kernel
      simpa [Option.any_eq_true, List.any_eq_true] using booked
    obtain ⟨b, stored, i, mem, wrong⟩ := made
    obtain ⟨c, was, created⟩ := adds s discounted 1 b stored
    cases was
    rcases created i mem with ⟨j, none, -⟩ | right
    · exact List.not_mem_nil none
    · exact wrong right

end NyzRating.Billing.Totals
