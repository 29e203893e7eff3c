import NyzRating.Billing.Completeness
import NyzRating.Billing.Effects
import NyzRating.Billing.ImmediateChange
import NyzRating.Billing.PaymentEvents
import NyzRating.Billing.RestrictionStable
import NyzRating.Billing.RowRules

/-!
# Upgrades of a paid subscription are charged

An owner who goes from a paid plan to one with a higher price, or to a longer period, is charged the proration of the
change. `complete_upgrade_after_checkout` and the payment events see to that, `update_subscription` does not.
-/

namespace NyzRating.Billing.FreeUpgrade

open Program Runs Calendar

/-- The plan and the billing period that an account holds. -/
def planOf (a : Account) : Option (String × BillingPeriod) := a.subscription.map fun sub => (sub.planCode, sub.billingPeriod)

/-- From the paid subscription to this plan and period the price or the length of the period goes up. -/
def Upgrades (plans : PlanCatalog) (sub : Subscription) (next : String × BillingPeriod) : Prop :=
  sub.planCode ≠ "free" ∧
    ((plans.getOrFree sub.planCode).priceCents < (plans.getOrFree next.1).priceCents ∨
      billingPeriodMultiplier sub.billingPeriod < billingPeriodMultiplier next.2)

/-- A paid invoice over this total is new. -/
def Charged (a b : Account) (totalCents : Int) : Prop :=
  ∃ i ∈ b.invoices, i ∉ a.invoices ∧ i.status.isPaid = true ∧ i.totalCents = totalCents

/-- If the account goes up from `a` to `b`, it is charged the proration. -/
def NotFree (env : Env) (a b : Account) : Prop :=
  ∀ sub ∈ a.subscription, ∀ next ∈ planOf b, Upgrades env.plans sub next →
    ∃ p ∈ upgradeProration env sub next.1 next.2, Charged a b p.totalChargeCents

/-- What a scheduled change leads to. -/
def scheduled (sub : Subscription) : String × BillingPeriod :=
  (orText sub.scheduledPlanCode sub.planCode, sub.scheduledBillingPeriod.getD sub.billingPeriod)

instance (plans : PlanCatalog) (sub : Subscription) (next : String × BillingPeriod) : Decidable (Upgrades plans sub next) :=
  inferInstanceAs (Decidable (_ ∧ (_ ∨ _)))

instance (a b : Account) (totalCents : Int) : Decidable (Charged a b totalCents) :=
  inferInstanceAs (Decidable (∃ i ∈ b.invoices, _ ∧ _ ∧ _))

section
variable {env : Env} {a b : Account} {sub : Subscription} {next : String × BillingPeriod}

theorem planOf_of_some (hs : a.subscription = some sub) : planOf a = some (sub.planCode, sub.billingPeriod) := by
  rw [planOf, hs, Option.map_some]

theorem not_upgrades_self (plans : PlanCatalog) (sub : Subscription) :
    ¬Upgrades plans sub (sub.planCode, sub.billingPeriod) := by
  rintro ⟨-, price | period⟩
  · exact lt_irrefl _ price
  · exact lt_irrefl _ period

theorem NotFree.of_not_upgrades (hs : a.subscription = some sub) (hb : planOf b = some next)
    (not : ¬Upgrades env.plans sub next) : NotFree env a b := by
  intro sub' hs' next' hb' up
  rw [hs] at hs'
  rw [hb] at hb'
  cases hs'
  cases hb'
  exact absurd up not

theorem NotFree.of_same (same : planOf b = planOf a) : NotFree env a b := by
  intro sub hs next hb up
  rw [same, planOf_of_some hs] at hb
  cases hb
  exact absurd up (not_upgrades_self _ _)

end

/-! ### The owner's changes -/

section
variable {env : Env} {ctx : TenantContext} {planCode billingPeriod : String} {a : Account} {sub : Subscription}
  {plan : BillingPlan} {period : BillingPeriod}

theorem planOf_upsertSubscription (utcnow : Int) (data : SubscriptionData) (a : Account) :
    planOf (a.upsertSubscription utcnow data).2 = some (data.planCode, data.billingPeriod) :=
  congrArg (fun row : SubscriptionData => some (row.planCode, row.billingPeriod)) (Account.upsertSubscription_data utcnow data a)

theorem planOf_schedulePlanChange : planOf (schedulePlanChange env sub plan period a) = some (sub.planCode, sub.billingPeriod) :=
  planOf_upsertSubscription ..

theorem planOf_applyImmediatePlanChange {paidUntil : Option Int} :
    planOf (applyImmediatePlanChange env sub plan period paidUntil a).2 = some (plan.code, period) :=
  planOf_upsertSubscription ..

/-- `update_subscription` charges no change from a paid plan: it may only schedule it, or not go up. -/
theorem update_notFree (hs : a.subscription = some sub)
    (safe : sub.planCode ≠ "free" → ∀ plan ∈ env.plans.find? (Text.stripLower planCode),
      isScheduledChange sub.toSubscriptionData plan.code (normalizeBillingPeriod billingPeriod) env.plans = true ∨
        ¬Upgrades env.plans sub (plan.code, normalizeBillingPeriod billingPeriod)) :
    NotFree env a (after (updateSubscription env ctx planCode billingPeriod) a) := by
  by_cases paid : sub.planCode = "free"
  · intro sub' hs' next hb up
    rw [hs] at hs'
    cases hs'
    exact absurd paid up.1
  · cases hp : env.plans.find? (Text.stripLower planCode) with
    | none =>
      rw [after_updateSubscription_of_unknown hp]
      exact .of_same rfl
    | some plan =>
      rw [after_updateSubscription_of_some env ctx billingPeriod hp hs (.inl paid)]
      split
      · exact .of_not_upgrades hs planOf_schedulePlanChange (not_upgrades_self _ _)
      · next unscheduled =>
        exact .of_not_upgrades hs planOf_applyImmediatePlanChange ((safe paid plan hp).resolve_left unscheduled)

/-- `complete_upgrade_after_checkout` changes nothing, or moves the subscription and writes the invoice of the
    proration, unless there is one with its key. -/
theorem completeUpgradeAfterCheckout_cases (env : Env) (ctx : TenantContext) (planCode billingPeriod : String)
    (hs : a.subscription = some sub) :
    after (completeUpgradeAfterCheckout env ctx planCode billingPeriod) a = a ∨
      ∃ plan preview, env.plans.find? (Text.stripLower planCode) = some plan ∧ env.isSimulatedProvider = true ∧
        upgradeProration env sub plan.code (normalizeBillingPeriod billingPeriod) = some preview ∧
        planOf (after (completeUpgradeAfterCheckout env ctx planCode billingPeriod) a) =
          some (plan.code, normalizeBillingPeriod billingPeriod) ∧
        (a.getInvoice .planUpgrade (.ofTime env.now) = none →
          Charged a (after (completeUpgradeAfterCheckout env ctx planCode billingPeriod) a) preview.totalChargeCents) := by
  unfold completeUpgradeAfterCheckout
  rw [after_bind_of_ok (EStateM.run_modifyGet ..), after_bind_of_ok (EStateM.run_get _), ensureSubscription_of_some hs]
  simp only
  cases hp : env.plans.find? (Text.stripLower planCode) with
  | none => exact .inl rfl
  | some plan =>
    simp only
    split
    · exact .inl rfl
    · split
      · exact .inl rfl
      · split
        · exact .inl rfl
        · cases hpreview : upgradeProration env sub plan.code (normalizeBillingPeriod billingPeriod) with
          | none => exact .inl rfl
          | some preview =>
            simp only
            split
            · next simulated =>
              refine .inr ⟨plan, preview, rfl, simulated, hpreview, ?_⟩
              rw [after_modifyGet_bind]
              have moved : planOf (applyImmediatePlanChange env sub plan (normalizeBillingPeriod billingPeriod)
                (some (midnight preview.paidUntil)) a).2 = some (plan.code, normalizeBillingPeriod billingPeriod) :=
                planOf_applyImmediatePlanChange
              have kept : (applyImmediatePlanChange env sub plan (normalizeBillingPeriod billingPeriod)
                (some (midnight preview.paidUntil)) a).2.invoices = a.invoices := rfl
              generalize (applyImmediatePlanChange env sub plan (normalizeBillingPeriod billingPeriod)
                (some (midnight preview.paidUntil)) a).2 = b at moved kept
              cases existing : a.getInvoice .planUpgrade (.ofTime env.now) with
              | some row => exact ⟨moved, nofun⟩
              | none =>
                have fresh : b.getInvoice .planUpgrade (.ofTime env.now) = none := by
                  unfold Account.getInvoice
                  rw [kept]
                  exact existing
                obtain ⟨row, type, key, status, total, run⟩ := createInvoice_run fresh preview.totalChargeCents
                  ("Szimulált csomagváltás: " ++ plan.name)
                  (upgradeLines preview plan.code (normalizeBillingPeriod billingPeriod) preview.nextPeriodChargeCents true
                    env.billingProvider none) env.now env.invoicePaidStatus env.invoicePaymentMethod env.now
                simp only [Option.isNone_none, if_true]
                rw [after_bind_of_ok run]
                refine ⟨moved, fun _ => ⟨row, List.mem_append_right _ List.mem_cons_self, fun mem => ?_, ?_, total⟩⟩
                · have other := List.find?_eq_none.mp existing row mem
                  simp [type, key] at other
                · rw [status]
                  unfold Env.invoicePaidStatus
                  split <;> rfl
            · split
              · exact .inl rfl
              · exact .inl rfl

theorem completeUpgrade_notFree (hs : a.subscription = some sub)
    (safe : env.isSimulatedProvider = true → ∀ plan ∈ env.plans.find? (Text.stripLower planCode),
      (upgradeProration env sub plan.code (normalizeBillingPeriod billingPeriod)).isSome = true →
        Upgrades env.plans sub (plan.code, normalizeBillingPeriod billingPeriod) →
          a.getInvoice .planUpgrade (.ofTime env.now) = none) :
    NotFree env a (after (completeUpgradeAfterCheckout env ctx planCode billingPeriod) a) := by
  obtain same | ⟨plan, preview, hp, simulated, hpreview, moved, charged⟩ :=
    completeUpgradeAfterCheckout_cases env ctx planCode billingPeriod hs
  · rw [same]
    exact .of_same rfl
  · intro sub' hs' next hb up
    have priced := safe simulated plan hp (by rw [hpreview]; rfl)
    rw [hs] at hs'
    rw [moved] at hb
    generalize normalizeBillingPeriod billingPeriod = period at hpreview priced hb
    cases hs'
    cases hb
    exact ⟨preview, hpreview, charged (priced up)⟩

end

/-! ### Scheduled changes

A settlement and the due cycle put a scheduled change into force, and change the plan in no other way. -/

/-- The row holds the plan of `sub`, or what `sub` has scheduled where that may come into force. -/
def Along (may : Prop) (sub row : Subscription) : Prop :=
  ((row.planCode, row.billingPeriod) = (sub.planCode, sub.billingPeriod) ∧ scheduled row = scheduled sub) ∨
    may ∧ (row.planCode, row.billingPeriod) = scheduled sub ∧ scheduled row = scheduled sub

def Stored (row : Subscription) (a : Account) : Prop := a.subscription = some row

/-- The account holds such a row. -/
def Held (may : Prop) (sub : Subscription) (a : Account) : Prop := ∃ row, Stored row a ∧ Along may sub row

section
variable {may : Prop} {env : Env} {ctx : TenantContext} {a b : Account} {sub row : Subscription}

theorem Along.refl (may : Prop) (sub : Subscription) : Along may sub sub := .inl ⟨rfl, rfl⟩

theorem Along.status (h : Along may sub row) (status : SubscriptionStatus) (updatedAt : Int) :
    Along may sub { row with status, updatedAt } := h

theorem Along.scheduled_eq (h : Along may sub row) : scheduled row = scheduled sub := by
  rcases h with ⟨-, same⟩ | ⟨-, -, same⟩
  · exact same
  · exact same

/-- What a paid period puts into force. -/
theorem Along.paid (h : Along may sub row) (allowed : may) {next : Subscription} {nextBillingDate extraStorageGb : Int}
    (data : next.toSubscriptionData = paidSubscription row nextBillingDate extraStorageGb) : Along may sub next := by
  have held : (next.planCode, next.billingPeriod) = scheduled row := by rw [data]; rfl
  have settled : scheduled next = (next.planCode, next.billingPeriod) := by
    simp only [scheduled, data]
    rfl
  exact .inr ⟨allowed, held.trans h.scheduled_eq, (settled.trans held).trans h.scheduled_eq⟩

/-- What a scheduled change that is due puts into force. -/
theorem Along.renewed (due : scheduledChangeDue env sub = true → may) : Along may sub (renewed env sub) := by
  unfold Billing.renewed
  cases hp : sub.scheduledPlanCode.filter (· ≠ "") with
  | none => exact .refl may sub
  | some plan =>
    rw [Option.elim_some]
    split
    · next isDue =>
      have target : scheduled sub = (plan, sub.scheduledBillingPeriod.getD sub.billingPeriod) := by
        rw [scheduled, orText, hp, Option.getD_some]
      exact .inr ⟨due isDue, target.symm, target.symm⟩
    · exact .refl may sub

theorem Held.planOf (h : Held may sub a) : planOf a = some (sub.planCode, sub.billingPeriod) ∨ may ∧ planOf a = some (scheduled sub) := by
  obtain ⟨row, stored, ⟨same, -⟩ | ⟨allowed, same, -⟩⟩ := h
  · exact .inl ((planOf_of_some stored).trans (congrArg some same))
  · exact .inr ⟨allowed, (planOf_of_some stored).trans (congrArg some same)⟩

theorem Held.notFree (h : Held may sub b) (hs : a.subscription = some sub)
    (safe : may → ¬Upgrades env.plans sub (scheduled sub)) : NotFree env a b := by
  obtain same | ⟨allowed, moved⟩ := h.planOf
  · exact .of_not_upgrades hs same (not_upgrades_self _ _)
  · exact .of_not_upgrades hs moved (safe allowed)

theorem along_rule (may : Prop) (sub : Subscription) : RowRule may (Along may sub) where
  status _ status updatedAt along := along.status status updatedAt
  paid allowed along _ data := along.paid allowed data

/-- A settlement puts a scheduled change into force when its charge is accepted, or when the change is due. -/
theorem settle_held (env : Env) (ctx : TenantContext) (hs : a.subscription = some sub) :
    Held (settlePaid env ctx a = true ∨ scheduledChangeDue env sub = true) sub (after (settleSubscription env ctx) a) := by
  refine (along_rule _ sub).settle ?_ ?_ .inl
  · rw [ensureSubscription_of_some hs]
    exact .refl _ sub
  · rw [ensureSubscription_of_some hs]
    exact .renewed .inr

theorem due_of_scheduledChangeDue (h : scheduledChangeDue env sub = true) : billingDueDate sub ≤ env.today := by
  unfold scheduledChangeDue at h
  simp only [Bool.and_eq_true, Bool.not_eq_true', decide_eq_false_iff_not] at h
  omega

theorem invoicing_early (early : env.today < billingDueDate sub) : (invoicing env sub).run a = .ok () a := by
  unfold invoicing
  simp only [EStateM.run_bind, EStateM.run_get, early, decide_true, Bool.not_true, Bool.and_false]
  rfl

/-- The billing cycle puts a scheduled change into force when it is due, and issues nothing before. -/
theorem processTenant_held (env : Env) (hs : a.subscription = some sub) (due : billingDueDate sub ≤ env.today → may) :
    (∃ row, Stored row (processTenant env a) ∧ Along may sub row) ∧ (¬may → (processTenant env a).invoices = a.invoices) := by
  cases active : a.tenant.isActive with
  | false =>
    rw [processTenant, active, if_neg Bool.false_ne_true]
    exact ⟨⟨sub, hs, .refl may sub⟩, fun _ => rfl⟩
  | true =>
    obtain ⟨invoices, nextInvoiceId, run, final⟩ := Completeness.processTenant_forms env active
    rw [ensureSubscription_of_some hs] at run final
    obtain ⟨⟨status, updatedAt, row⟩, stored⟩ := Completeness.synchronised_subscription env sub a
    have kept : (Completeness.synchronised env sub a).2.invoices = a.invoices := Restriction.syncStatus_invoices ..
    rw [final]
    simp only at run
    generalize Completeness.synchronised env sub a = cycle at *
    refine ⟨⟨cycle.1, stored, ?_⟩, fun no => ?_⟩
    · rw [row]
      exact (Along.renewed fun h => due (due_of_scheduledChangeDue h)).status status updatedAt
    · have early : env.today < billingDueDate sub := by
        by_contra h
        exact no (due (by omega))
      have unchanged : renewed env sub = sub := by
        unfold renewed
        cases sub.scheduledPlanCode.filter (· ≠ "") with
        | none => rfl
        | some plan => exact if_neg fun h => no (due (due_of_scheduledChangeDue h))
      have day : billingDueDate cycle.1 = billingDueDate sub := by
        rw [row, unchanged]
        rfl
      rw [invoicing_early (day ▸ early)] at run
      injection run with _ same
      exact (congrArg Account.invoices same).symm.trans kept

/-- The due cycle puts a scheduled change into force when the subscription is due or has a debt. -/
theorem dueCycles_held (hs : a.subscription = some sub) (hb : processDueCycles env a = some b) :
    Held (billingDueDate sub ≤ env.today ∨ a.getLatestUnpaidDebtInvoice.isSome = true) sub b := by
  obtain ⟨c, hc, rfl⟩ := Option.map_eq_some_iff.mp hb
  obtain ⟨invoices, subscription⟩ := (GracePeriod.lifecycleInvariant_billing a).lifecycle env ⟨rfl, rfl⟩ c hc
  have debt : ∀ d : Account, d.invoices = a.invoices → d.getLatestUnpaidDebtInvoice = a.getLatestUnpaidDebtInvoice := by
    intro d h
    simp only [Account.getLatestUnpaidDebtInvoice, Account.getLatestOpenSubscriptionInvoice, h]
  have due : billingDueDate sub ≤ env.today → billingDueDate sub ≤ env.today ∨ a.getLatestUnpaidDebtInvoice.isSome = true := .inl
  obtain ⟨⟨row, stored, along⟩, quiet⟩ := processTenant_held env (subscription.trans hs) due
  unfold retryTenant
  split
  · refine (along_rule _ sub).retry_stored stored along fun owes => ?_
    by_contra no
    rw [debt _ ((quiet no).trans invoices)] at owes
    exact no (.inr owes)
  · exact ⟨row, stored, along⟩

end

/-! ### Payment events

A delivery that gets to the plan change of a new upgrade event moves the subscription. -/

/-- `P` holds of the account of this tenant. -/
def HasAccount (id : Nat) (P : Account → Prop) (s : PaymentState) : Prop := ∃ a, s.accounts id = some a ∧ P a

/-- Once the plan has changed, the delivery gets to the invoice, and the invoice is over the total of the proration. -/
structure Booked (s : PaymentState) (d : Delivery) (a : Account) (p : UpgradeProration) : Prop where
  steps : ∀ step ∈ [PaymentStep.planChange, .configSync, .planLookup, .invoiceLookup], d.fault step = none
  invoice : d.fault .createInvoice ≠ some .before
  total : d.totalCharge p = some p.totalChargeCents
  unused : a.getInvoice .planUpgrade (.paymentEvent s.nextEventId) = none

/-- The delivery pays for an upgrade of this account that it records as a new event. -/
structure Pays (s : PaymentState) (d : Delivery) (id : Nat) (sub : Subscription) : Prop where
  tenant : d.tenantId = some (id : Int)
  upgrade : d.isUpgrade = true
  new : s.event? d.normalizedProvider d.normalizedEventId = none
  upgrades : Upgrades d.env.plans sub (d.targetPlan, d.targetPeriod)

section
variable {s t : PaymentState} {d : Delivery} {id : Nat} {a b : Account} {P : Account → Prop}

theorem HasAccount.store (hb : P b) (s : PaymentState) : HasAccount id P (s.storeAccount id b) :=
  ⟨b, PaymentState.storeAccount_accounts_self .., hb⟩

theorem HasAccount.mono (hs : HasAccount id P s) {Q : Account → Prop} (le : ∀ b, P b → Q b) : HasAccount id Q s := by
  obtain ⟨b, stored, hb⟩ := hs
  exact ⟨b, stored, le b hb⟩

/-- Writing the invoice of the event charges the total. -/
theorem bookVerifiedUpgrade_charged {e : PaymentEvent} {p : UpgradeProration} (he : e.id = s.nextEventId)
    (kept : b.invoices = a.invoices) (booked : Booked s d a p) (t : PaymentState) :
    HasAccount e.tenantId (fun c => planOf c = planOf b ∧ Charged a c p.totalChargeCents) (after (bookVerifiedUpgrade d e p b) t) := by
  have lookup : ∀ step ∈ [PaymentStep.planLookup, .invoiceLookup], d.fault step = none := by
    intro step h
    exact booked.steps step (List.mem_cons_of_mem _ (List.mem_cons_of_mem _ h))
  have unused : b.getInvoice .planUpgrade (.paymentEvent e.id) = none := by
    rw [he, Account.getInvoice, kept]
    exact booked.unused
  unfold bookVerifiedUpgrade
  simp only [Delivery.attempt]
  rw [after_attempt_bind_of_none (lookup _ List.mem_cons_self) (EStateM.run_pure _ _), booked.total]
  simp only
  rw [after_attempt_bind_of_none (lookup _ (List.mem_cons_of_mem _ List.mem_cons_self)) (EStateM.run_pure _ _), unused]
  generalize (if p.nextPeriodChargeCents = 0 then p.totalChargeCents else p.nextPeriodChargeCents) = periodTotal
  obtain ⟨row, type, key, status, total, run⟩ := createInvoice_run unused p.totalChargeCents
    ("Webhook verified csomagváltás: " ++ (d.env.plans.getOrFree d.targetPlan).name)
    (upgradeLines p d.targetPlan d.targetPeriod periodTotal false d.normalizedProvider (some d.normalizedEventId))
    d.env.now .paid d.normalizedProvider d.env.now
  simp only [Option.isSome_none, Bool.false_eq_true, if_false, storeRun, run]
  have done : HasAccount e.tenantId (fun c => planOf c = planOf b ∧ Charged a c p.totalChargeCents)
      (t.storeAccount e.tenantId { b with invoices := b.invoices ++ [row], nextInvoiceId := b.nextInvoiceId + 1 }) := by
    refine .store ⟨rfl, row, List.mem_append_right _ List.mem_cons_self, fun mem => ?_, ?_, total⟩ t
    · have other := List.find?_eq_none.mp unused row (kept ▸ mem)
      simp [type, key] at other
    · rw [status]
      rfl
  exact after_attempt_bind (EStateM.run_modify _ _) (fun before => absurd before booked.invoice) (fun _ => done) fun _ => done

theorem storeRun_only {α : Type} {m : AccountM α} (hm : Leads P m P) (hb : P b) :
    Leads (HasAccount id P) (storeRun id m b) (HasAccount id P) := by
  have hc := hm b hb
  unfold storeRun
  split
  · next run =>
    rw [after_of_ok run] at hc
    exact Leads.modify fun t _ => .store hc t
  · exact Leads.throw (fun _ h => h) _

theorem bookVerifiedUpgrade_planOf {e : PaymentEvent} {p : UpgradeProration} {plan : Option (String × BillingPeriod)}
    (hb : planOf b = plan) : Leads (HasAccount e.tenantId (planOf · = plan)) (bookVerifiedUpgrade d e p b)
      (HasAccount e.tenantId (planOf · = plan)) := by
  unfold bookVerifiedUpgrade
  refine Leads.bind (d.attempt_leads _ (Leads.pure (fun _ h => h) _)) (fun _ => ?_) fun _ h => h
  split
  · exact Leads.throw (fun _ h => h) _
  · refine Leads.bind (d.attempt_leads _ (Leads.pure (fun _ h => h) _)) (fun existing => ?_) fun _ h => h
    refine Leads.ite (fun _ => Leads.pure (fun _ h => h) _) fun _ => ?_
    refine Leads.bind (d.attempt_leads _ ?_) (fun _ => Leads.pure (fun _ h => h) _) fun _ h => h
    exact storeRun_only (P := (planOf · = plan)) (createInvoice_leads (fun _ _ _ h => h) _ _ _ _ _ _ _ _ _) hb

theorem upgradeProration_plan {env : Env} {sub : Subscription} {plan : String} {period : BillingPeriod} {p : UpgradeProration}
    (hp : upgradeProration env sub plan period = some p) : (env.plans.getOrFree plan).code = plan := by
  unfold upgradeProration computeUpgradeProration at hp
  obtain ⟨next, found, -⟩ := Option.bind_eq_some_iff.mp hp
  rw [PlanCatalog.getOrFree, found]
  exact ImmediateChange.code_of_find? found

/-- The commits of a plan change, and what follows. -/
theorem planChange_notFree {e : PaymentEvent} {sub updated : Subscription} {p : UpgradeProration} (he : e.id = s.nextEventId)
    (hs : a.subscription = some sub) (hp : upgradeProration d.env sub d.targetPlan d.targetPeriod = some p)
    (moved : planOf b = some (d.targetPlan, d.targetPeriod)) (kept : b.invoices = a.invoices)
    (ht : HasAccount e.tenantId (· = a) t)
    (safe : Upgrades d.env.plans sub (d.targetPlan, d.targetPeriod) → d.fault .planChange = some .before ∨
      ∀ p ∈ upgradeProration d.env sub d.targetPlan d.targetPeriod, Booked s d a p) :
    HasAccount e.tenantId (NotFree d.env a) (after (do
      d.attempt .planChange (modify fun s =>
        { s.storeAccount e.tenantId b with planChanges := s.planChanges ++ [e.id] })
      d.attempt .configSync (modify (·.storeAccount e.tenantId (syncTenantConfig d.env updated b)))
      bookVerifiedUpgrade d e p (syncTenantConfig d.env updated b)) t) := by
  have unmoved : HasAccount e.tenantId (NotFree d.env a) t := by
    refine ht.mono fun b hb => ?_
    rw [hb]
    exact .of_same rfl
  have stored : HasAccount e.tenantId (planOf · = some (d.targetPlan, d.targetPeriod))
      { t.storeAccount e.tenantId b with planChanges := t.planChanges ++ [e.id] } := .store moved t
  have configured : planOf (syncTenantConfig d.env updated b) = some (d.targetPlan, d.targetPeriod) := moved
  have invoices : (syncTenantConfig d.env updated b).invoices = a.invoices := kept
  generalize syncTenantConfig d.env updated b = c at *
  simp only [Delivery.attempt]
  by_cases up : Upgrades d.env.plans sub (d.targetPlan, d.targetPeriod)
  · rcases safe up with before | booked
    · refine after_attempt_bind (EStateM.run_modify _ _) (fun _ => unmoved) ?_ ?_
      · exact fun late => absurd (before.symm.trans late) nofun
      · exact fun none => absurd (before.symm.trans none) nofun
    · have steps := (booked p hp).steps
      rw [after_attempt_bind_of_none (steps _ List.mem_cons_self) (EStateM.run_modify _ _)]
      rw [after_attempt_bind_of_none (steps _ (List.mem_cons_of_mem _ List.mem_cons_self)) (EStateM.run_modify _ _)]
      refine (bookVerifiedUpgrade_charged he invoices (booked p hp) _).mono ?_
      rintro r ⟨same, charged⟩ sub' hs' next hr -
      rw [hs] at hs'
      rw [same, configured] at hr
      cases hs'
      cases hr
      dsimp only
      exact ⟨p, hp, charged⟩
  · have done {u : PaymentState} (h : HasAccount e.tenantId (planOf · = some (d.targetPlan, d.targetPeriod)) u) :
        HasAccount e.tenantId (NotFree d.env a) u := h.mono fun b hb => .of_not_upgrades hs hb up
    have later : ∀ u : PaymentState, HasAccount e.tenantId (planOf · = some (d.targetPlan, d.targetPeriod))
        (u.storeAccount e.tenantId c) := HasAccount.store configured
    refine after_attempt_bind (EStateM.run_modify _ _) (fun _ => unmoved) (fun _ => done stored) fun _ => ?_
    refine after_attempt_bind (EStateM.run_modify _ _) (fun _ => done stored) (fun _ => done (later _)) fun _ => ?_
    exact done (bookVerifiedUpgrade_planOf configured _ (later _))

/-- A new upgrade event moves its tenant to the target, if at all, and charges it where the delivery is booked. -/
theorem applyVerifiedUpgrade_notFree {e : PaymentEvent} {sub : Subscription} (he : e.id = s.nextEventId)
    (ha : s.accounts e.tenantId = some a) (hs : a.subscription = some sub) (same : t.accounts = s.accounts)
    (safe : Upgrades d.env.plans sub (d.targetPlan, d.targetPeriod) → d.fault .planChange = some .before ∨
      ∀ p ∈ upgradeProration d.env sub d.targetPlan d.targetPeriod, Booked s d a p) :
    HasAccount e.tenantId (NotFree d.env a) (after (applyVerifiedUpgrade d e) t) := by
  have start : HasAccount e.tenantId (· = a) t := ⟨a, same ▸ ha, rfl⟩
  have unmoved {u : PaymentState} (h : HasAccount e.tenantId (· = a) u) : HasAccount e.tenantId (NotFree d.env a) u := by
    refine h.mono fun b hb => ?_
    rw [hb]
    exact .of_same rfl
  have look : (do return (← get).accounts e.tenantId : PaymentM (Option Account)).run t = .ok (some a) t := by
    rw [← ha, ← same]
    rfl
  have ensured : HasAccount e.tenantId (· = a) (t.storeAccount e.tenantId a) :=
    ⟨a, PaymentState.storeAccount_accounts_self .., rfl⟩
  unfold applyVerifiedUpgrade
  simp only [Delivery.attempt]
  refine after_attempt_bind look (fun _ => unmoved start) (fun _ => unmoved start) fun _ => ?_
  simp only
  rw [ensureSubscription_of_some hs]
  refine after_attempt_bind (EStateM.run_modify _ _) (fun _ => unmoved start) (fun _ => unmoved ensured) fun _ => ?_
  refine after_attempt_bind (EStateM.run_pure _ _) (fun _ => unmoved ensured) (fun _ => unmoved ensured) fun _ => ?_
  generalize t.storeAccount e.tenantId a = u at ensured
  cases hp : upgradeProration d.env sub d.targetPlan d.targetPeriod with
  | none => exact unmoved ensured
  | some p =>
    simp only
    have plan : (d.env.plans.getOrFree d.targetPlan).code = d.targetPlan := upgradeProration_plan hp
    refine planChange_notFree he hs hp ?_ rfl ensured safe
    rw [planOf_upsertSubscription, immediatePlanData, plan]

theorem recordPaymentEventOnce_returns (s : PaymentState) (provider eventId eventType : String) (id : Nat) :
    Returns (· = s) (recordPaymentEventOnce provider eventId eventType id)
      (fun r t => (r.2 = true → s.event? provider eventId = none ∧ r.1.id = s.nextEventId ∧ r.1.tenantId = id) ∧
        t.accounts = s.accounts) (·.accounts = s.accounts) := by
  rintro t rfl
  simp only [recordPaymentEventOnce, EStateM.run_bind, EStateM.run_get]
  cases found : t.event? provider eventId with
  | some row => exact .returned ⟨fun new => absurd new Bool.false_ne_true, rfl⟩
  | none =>
    cases t.accounts id with
    | none => exact .raised rfl
    | some a => exact .returned ⟨fun _ => ⟨rfl, rfl, rfl⟩, rfl⟩

/-- A delivery leaves the accounts alone, or goes on to apply the new event that it has recorded. -/
theorem deliver_leads {Q : PaymentState → Prop} (same : ∀ t, t.accounts = s.accounts → Q t)
    (applied : ∀ (e : PaymentEvent) t, e.id = s.nextEventId → d.tenantId = some (e.tenantId : Int) → d.isUpgrade = true →
      s.event? d.normalizedProvider d.normalizedEventId = none → t.accounts = s.accounts →
        Q (after (applyVerifiedUpgrade d e) t)) : Q (deliver s d) := by
  have unchanged : ∀ t, t = s → Q t := fun t h => same t (congrArg PaymentState.accounts h)
  have leads : Leads (· = s) (processVerifiedPaymentEvent d) Q := by
    unfold processVerifiedPaymentEvent
    refine Leads.ite (fun _ => Leads.throw_bind unchanged _ _) fun _ => ?_
    split
    · exact Leads.throw unchanged _
    · next n hn =>
      refine Leads.ite (fun _ => Leads.throw_bind unchanged _ _) fun positive => ?_
      have cast : d.tenantId = some ((n.toNat : Nat) : Int) := by rw [hn, Int.toNat_of_nonneg (by omega)]
      have recorded := recordPaymentEventOnce_returns s d.normalizedProvider d.normalizedEventId d.normalizedEventType n.toNat
      refine Returns.leads (Returns.bind
        (Returns.attempt (recorded.mono (fun _ _ h => h) same) unchanged fun _ t h => same t h.2)
        fun r => Returns.given fun hr => .of_leads ?_)
      refine Leads.ite (fun _ => Leads.pure same _) fun isNew => ?_
      obtain ⟨new, id, tenant⟩ := hr (by simpa using isNew)
      refine Leads.ite (fun _ => Leads.pure same _) fun upgrade t ht => ?_
      exact applied r.1 t id (tenant ▸ cast) (by simpa using upgrade) new ht
  exact leads s rfl

/-- The accounts of the other tenants stay as they are. -/
theorem applyVerifiedUpgrade_frame {e : PaymentEvent} {k : Nat} (hk : k ≠ e.tenantId)
    (stored : (after (applyVerifiedUpgrade d e) t).accounts k = some b) : t.accounts k = some b := by
  have start : t.Each fun k b => k ≠ e.tenantId → t.accounts k = some b := fun _ _ h _ => h
  exact applyVerifiedUpgrade_delivered d e start (fun _ _ _ _ own => absurd rfl own) t rfl k b stored hk

/-- A delivery moves no account up without a charge, if each that it pays for is booked. -/
theorem deliver_notFree (safe : ∀ a sub, s.accounts id = some a → a.subscription = some sub → Pays s d id sub →
      d.fault .planChange = some .before ∨ ∀ p ∈ upgradeProration d.env sub d.targetPlan d.targetPeriod, Booked s d a p)
    (ha : s.accounts id = some a) (hb : (deliver s d).accounts id = some b) : NotFree d.env a b := by
  revert hb
  refine deliver_leads (Q := fun t => t.accounts id = some b → NotFree d.env a b) (fun t same hb => ?_)
    fun e t he tenant upgrade new same hb => ?_
  · rw [same, ha] at hb
    cases hb
    exact .of_same rfl
  · by_cases own : id = e.tenantId
    · subst own
      intro sub hs
      have final := applyVerifiedUpgrade_notFree he ha hs same fun up => safe a sub ha hs ⟨tenant, upgrade, new, up⟩
      obtain ⟨c, hc, notFree⟩ := final
      rw [hb] at hc
      cases hc
      exact notFree sub hs
    · have kept := applyVerifiedUpgrade_frame own hb
      rw [same, ha] at kept
      cases kept
      exact .of_same rfl

end

/-! ### Runs -/

/-- The calls of a run: on one tenant, or a payment event. -/
inductive Op where
  | call (id : Nat) (op : GracePeriod.Op)
  | pay (d : Delivery)

def step (s : PaymentState) : Op → PaymentState
  | .call id op =>
    match s.accounts id with
    | none => s
    | some a => { s with accounts := Function.update s.accounts id (op.run a) }
  | .pay d => deliver s d

/-- The operations that can change the plan of a paid subscription. -/
def Op.env : Op → Option Env
  | .call _ (.update env ..) => some env
  | .call _ (.completeUpgrade env ..) => some env
  | .call _ (.settle env _) => some env
  | .call _ (.dueCycles env) => some env
  | .call .. => none
  | .pay d => some d.env

/-- Whatever account the operation moves up it charges for that. -/
def Charging (s : PaymentState) (op : Op) : Prop :=
  ∀ env ∈ op.env, ∀ id a b, s.accounts id = some a → (step s op).accounts id = some b → NotFree env a b

/-- The call on an account with the subscription `sub` does not move it up without a charge: the owner's change is
    scheduled or does not go up; no invoice takes the place of the one for the upgrade; what comes into force as
    scheduled does not go up. -/
def Safe (a : Account) (sub : Subscription) : GracePeriod.Op → Prop
  | .update env _ planCode billingPeriod =>
    sub.planCode ≠ "free" → ∀ plan ∈ env.plans.find? (Text.stripLower planCode),
      isScheduledChange sub.toSubscriptionData plan.code (normalizeBillingPeriod billingPeriod) env.plans = true ∨
        ¬Upgrades env.plans sub (plan.code, normalizeBillingPeriod billingPeriod)
  | .completeUpgrade env _ planCode billingPeriod =>
    env.isSimulatedProvider = true → ∀ plan ∈ env.plans.find? (Text.stripLower planCode),
      (upgradeProration env sub plan.code (normalizeBillingPeriod billingPeriod)).isSome = true →
        Upgrades env.plans sub (plan.code, normalizeBillingPeriod billingPeriod) →
          a.getInvoice .planUpgrade (.ofTime env.now) = none
  | .settle env ctx =>
    settlePaid env ctx a = true ∨ scheduledChangeDue env sub = true → ¬Upgrades env.plans sub (scheduled sub)
  | .dueCycles env =>
    billingDueDate sub ≤ env.today ∨ a.getLatestUnpaidDebtInvoice.isSome = true → ¬Upgrades env.plans sub (scheduled sub)
  | _ => True

/-- A payment event that moves an account up fails before it does so, or is booked. -/
def Condition (s : PaymentState) : Op → Prop
  | .call id op => ∀ a sub, s.accounts id = some a → a.subscription = some sub → Safe a sub op
  | .pay d => ∀ id a sub, s.accounts id = some a → a.subscription = some sub → Pays s d id sub →
      d.fault .planChange = some .before ∨ ∀ p ∈ upgradeProration d.env sub d.targetPlan d.targetPeriod, Booked s d a p

theorem NotFree.of_none {env : Env} {a b : Account} (hs : a.subscription = none) : NotFree env a b := by
  intro sub hs'
  rw [hs] at hs'
  cases hs'

/-- A call on one tenant. -/
theorem call_notFree {env : Env} {a b : Account} {op : GracePeriod.Op} {id : Nat} (henv : env ∈ (Op.call id op).env)
    (safe : ∀ sub, a.subscription = some sub → Safe a sub op) (hb : op.run a = some b) : NotFree env a b := by
  cases hs : a.subscription with
  | none => exact .of_none hs
  | some sub =>
    have allowed := safe sub hs
    cases op with
    | dueCycles env' =>
      cases henv
      exact (dueCycles_held hs hb).notFree hs allowed
    | update env' ctx planCode billingPeriod =>
      cases henv
      cases hb
      exact update_notFree hs allowed
    | completeUpgrade env' ctx planCode billingPeriod =>
      cases henv
      cases hb
      exact completeUpgrade_notFree hs allowed
    | settle env' ctx =>
      cases henv
      cases hb
      exact (settle_held env ctx hs).notFree hs allowed
    | _ => cases henv

/-- One operation charges what it moves up. -/
theorem charging_of_condition {s : PaymentState} {op : Op} (h : Condition s op) : Charging s op := by
  intro env henv id a b ha hb
  cases op with
  | call k op =>
    cases hk : s.accounts k with
    | none =>
      simp only [step, hk] at hb
      rw [ha] at hb
      cases hb
      exact .of_same rfl
    | some c =>
      simp only [step, hk] at hb
      by_cases own : id = k
      · subst own
        rw [hk] at ha
        cases ha
        rw [Function.update_self] at hb
        exact call_notFree henv (fun sub hs => h a sub hk hs) hb
      · rw [Function.update_of_ne own, ha] at hb
        cases hb
        exact .of_same rfl
  | pay d =>
    cases henv
    simp only [step] at hb
    exact deliver_notFree (fun a sub => h id a sub) ha hb

/-- In every run, upgrades of a paid subscription are charged, when the calls leave no way around the charge. -/
theorem upgrades_charged (s : PaymentState) (ops : List Op) (h : Always step Condition s ops) : Always step Charging s ops :=
  h.mono fun _ _ => charging_of_condition

instance (env : Env) (a b : Account) : Decidable (NotFree env a b) :=
  inferInstanceAs (Decidable (∀ sub ∈ a.subscription, ∀ next ∈ planOf b, Upgrades env.plans sub next →
    ∃ p ∈ upgradeProration env sub next.1 next.2, Charged a b p.totalChargeCents))

instance (a : Account) (sub : Subscription) : (op : GracePeriod.Op) → Decidable (Safe a sub op)
  | .update .. => inferInstanceAs (Decidable (_ → ∀ plan ∈ _, _ ∨ ¬_))
  | .completeUpgrade .. => inferInstanceAs (Decidable (_ → ∀ plan ∈ _, _ → _ → _))
  | .settle .. => inferInstanceAs (Decidable (_ ∨ _ → ¬_))
  | .dueCycles .. => inferInstanceAs (Decidable (_ ∨ _ → ¬_))
  | .purchaseAddon .. => .isTrue trivial
  | .completeBilling .. => .isTrue trivial
  | .cancel .. => .isTrue trivial
  | .restore .. => .isTrue trivial
  | .deleteAccess .. => .isTrue trivial
  | .syncStatus .. => .isTrue trivial
  | .syncConfig .. => .isTrue trivial

/-- One tenant, just created. -/
def opened : PaymentState := { accounts := fun id => if id = 1 then GracePeriod.customer.account else none }

def tenthDay : Env := Env.seeded (midnight 20010)

def acme : TenantContext := { slug := "acme", createdAt := none, isActive := none }

/-- Through `complete_upgrade_after_checkout` the way up to a dearer plan is charged. -/
theorem upgrades_charged_after_checkout :
    Always step Charging opened [.call 1 GracePeriod.purchase, .call 1 (.completeUpgrade tenthDay acme "pro" "monthly")] ∧
      (∃ a ∈ (final step opened [.call 1 GracePeriod.purchase,
        .call 1 (.completeUpgrade tenthDay acme "pro" "monthly")]).accounts 1, planOf a = some ("pro", .monthly)) := by
  have created : ∀ a ∈ opened.accounts 1, a.subscription = none := by decide
  have safe : ∀ a ∈ (step opened (.call 1 GracePeriod.purchase)).accounts 1, ∀ sub ∈ a.subscription,
      Safe a sub (.completeUpgrade tenthDay acme "pro" "monthly") := by decide
  refine ⟨upgrades_charged _ _ ⟨fun a sub ha hs => ?_, fun a sub ha hs => safe a ha sub hs, trivial⟩, by decide⟩
  have none := created a ha
  rw [hs] at none
  cases none

/-- Through `update_subscription` it is not. -/
theorem upgrades_not_charged :
    ¬Always step Charging opened [.call 1 GracePeriod.purchase, .call 1 (.update tenthDay acme "pro" "monthly")] := by
  intro h
  have charging : Charging (step opened (.call 1 GracePeriod.purchase)) (.call 1 (.update tenthDay acme "pro" "monthly")) := h.2.1
  have free : ∃ a ∈ (step opened (.call 1 GracePeriod.purchase)).accounts 1,
      ∃ b ∈ (step (step opened (.call 1 GracePeriod.purchase)) (.call 1 (.update tenthDay acme "pro" "monthly"))).accounts 1,
        ¬NotFree tenthDay a b := by decide
  obtain ⟨a, ha, b, hb, free⟩ := free
  exact free (charging tenthDay rfl 1 a b ha hb)

end NyzRating.Billing.FreeUpgrade
