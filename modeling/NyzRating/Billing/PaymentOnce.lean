import NyzRating.Billing.Catalog
import NyzRating.Billing.PaymentEvents
import NyzRating.Lib.Run

/-!
# Payment events are applied once

A recorded event is never applied again, so what the delivery that recorded it has committed is all that its
retries can leave.
-/

namespace NyzRating.Billing.Payments

open Program Runs Calendar

/-- The upgrade invoices of an event row that the account of a tenant holds. -/
def upgradeInvoices (s : PaymentState) (tenantId row : Nat) : Nat :=
  match s.accounts tenantId with
  | none => 0
  | some a => a.invoices.countP fun i => i.invoiceType = .planUpgrade ∧ i.periodKey = .paymentEvent row

/-- The event is recorded, its plan change was committed once, and its tenant has one invoice for it. -/
def AppliedOnce (s : PaymentState) (provider eventId : String) : Prop :=
  ∃ e, s.event? provider eventId = some e ∧ s.planChanges.count e.id = 1 ∧ upgradeInvoices s e.tenantId e.id = 1

/-- The proration of the upgrade, computed from the state before the delivery. -/
def preview (s : PaymentState) (d : Delivery) (tenantId : Nat) : Option UpgradeProration :=
  (s.accounts tenantId).bind fun a =>
    upgradeProration d.env (ensureSubscription d.env a.snapshot a).1 d.targetPlan d.targetPeriod

/-- The delivery adds the row of its event: the event is new, names its tenant, and the insert is committed. -/
structure Records (s : PaymentState) (d : Delivery) (tenantId : Nat) : Prop where
  named : d.normalizedProvider ≠ "" ∧ d.normalizedEventId ≠ ""
  tenant : d.tenantId = some (tenantId : Int) ∧ tenantId ≠ 0 ∧ (s.accounts tenantId).isSome
  new : s.event? d.normalizedProvider d.normalizedEventId = none
  committed : d.fault .record ≠ some .before

theorem Records.tenant_unique {s s' : PaymentState} {d : Delivery} {k k' : Nat} (h : Records s d k)
    (h' : Records s' d k') : k = k' := by
  have hk := Option.some.inj (h.tenant.1.symm.trans h'.tenant.1)
  omega

/-- No step of the delivery fails before the commit of its invoice, and the upgrade it asks for can be computed. -/
structure Unhindered (s : PaymentState) (d : Delivery) (tenantId : Nat) : Prop where
  upgrade : d.isUpgrade = true
  steps : ∀ step, step ≠ .createInvoice → d.fault step = none
  invoice : d.fault .createInvoice ≠ some .before
  priced : ((preview s d tenantId).bind d.totalCharge).isSome = true

/-- From `s` to `t`, the plan change of an event row was committed `planned` times and its invoice `invoiced`
    times; nothing else of the events changed. -/
structure Outcome (s t : PaymentState) (e : PaymentEvent) (planned invoiced : Nat) : Prop where
  events : t.events = s.events
  next : t.nextEventId = s.nextEventId
  planChanges : t.planChanges = s.planChanges ++ List.replicate planned e.id
  ownInvoices : upgradeInvoices t e.tenantId e.id = upgradeInvoices s e.tenantId e.id + invoiced
  otherInvoices : ∀ k j, j ≠ e.id → upgradeInvoices t k j = upgradeInvoices s k j

theorem Outcome.refl (s : PaymentState) (e : PaymentEvent) : Outcome s s e 0 0 := ⟨rfl, rfl, by simp, rfl, fun _ _ _ => rfl⟩

theorem Outcome.trans {s t u : PaymentState} {e : PaymentEvent} {p i p' i' : Nat} (h : Outcome s t e p i)
    (h' : Outcome t u e p' i') : Outcome s u e (p + p') (i + i') where
  events := h'.events.trans h.events
  next := h'.next.trans h.next
  planChanges := by rw [h'.planChanges, h.planChanges, List.append_assoc, List.replicate_append_replicate]
  ownInvoices := by rw [h'.ownInvoices, h.ownInvoices, Nat.add_assoc]
  otherInvoices k j hj := (h'.otherInvoices k j hj).trans (h.otherInvoices k j hj)

/-- The accounts but the invoices of the one. -/
theorem upgradeInvoices_storeAccount (s : PaymentState) (id : Nat) (a : Account) (k j : Nat) :
    upgradeInvoices (s.storeAccount id a) k j =
      if k = id then a.invoices.countP (fun i => i.invoiceType = .planUpgrade ∧ i.periodKey = .paymentEvent j)
      else upgradeInvoices s k j := by
  unfold upgradeInvoices PaymentState.storeAccount
  by_cases hk : k = id
  · simp [hk]
  · simp [hk]

/-- Storing an account with the invoices it had. -/
theorem Outcome.store {s : PaymentState} {e : PaymentEvent} {a b : Account} (ha : s.accounts e.tenantId = some a)
    (hb : b.invoices = a.invoices) : Outcome s (s.storeAccount e.tenantId b) e 0 0 := by
  have same : ∀ k j, upgradeInvoices (s.storeAccount e.tenantId b) k j = upgradeInvoices s k j := by
    intro k j
    rw [upgradeInvoices_storeAccount, hb]
    split
    · next hk => simp only [upgradeInvoices, hk, ha]
    · rfl
  exact ⟨rfl, rfl, by simp [PaymentState.storeAccount], same _ _, fun k j _ => same k j⟩

/-- Storing an account with one more invoice for the event. -/
theorem Outcome.invoiced {s : PaymentState} {e : PaymentEvent} {a b : Account} {i : Invoice}
    (ha : s.accounts e.tenantId = some a) (hb : b.invoices = a.invoices ++ [i]) (ht : i.invoiceType = .planUpgrade)
    (hk : i.periodKey = .paymentEvent e.id) : Outcome s (s.storeAccount e.tenantId b) e 0 1 := by
  refine ⟨rfl, rfl, by simp [PaymentState.storeAccount], ?_, fun k j hj => ?_⟩
  · rw [upgradeInvoices_storeAccount, if_pos rfl, hb]
    simp [upgradeInvoices, ha, ht, hk]
  · rw [upgradeInvoices_storeAccount]
    split
    · next heq =>
      have other : e.id ≠ j := fun h => hj h.symm
      simp [hb, heq, upgradeInvoices, ha, hk, other]
    · rfl

theorem Outcome.planned (s : PaymentState) (e : PaymentEvent) :
    Outcome s { s with planChanges := s.planChanges ++ [e.id] } e 1 0 :=
  ⟨rfl, rfl, rfl, rfl, fun _ _ _ => rfl⟩

/-! ### One delivery -/

section
variable {s : PaymentState} {d : Delivery} {e : PaymentEvent}

/-- Where a step before the invoice fails, no invoice is written. -/
theorem hindered {α β : Type} {step : PaymentStep} {m : PaymentM α} {f : α → PaymentM β} {u v : PaymentState} {x : α}
    {p q : Nat} (hs : step ≠ .createInvoice) (hf : d.fault step ≠ none) (hm : m.run u = .ok x v)
    (hu : Outcome s u e p 0) (hv : Outcome s v e q 0) :
    ¬Unhindered s d e.tenantId ∧
      ∃ planned, Outcome s (after (attempt (d.fault step) (.interrupted step) m >>= f) u) e planned 0 := by
  refine ⟨fun h => hf (h.steps step hs), ?_⟩
  rcases after_attempt_bind_of_fault (e := .interrupted step) (f := f) hf hm with ⟨h, -⟩ | ⟨h, -⟩
  · rw [h]
    exact ⟨p, hu⟩
  · rw [h]
    exact ⟨q, hv⟩

/-- What the last part of a delivery commits is an invoice or nothing. -/
theorem bookVerifiedUpgrade_outcome {u : PaymentState} {a : Account} {p : UpgradeProration} {n : Nat}
    (before : ∀ step, step ≠ .planLookup → step ≠ .invoiceLookup → step ≠ .createInvoice → d.fault step = none)
    (upgrade : d.isUpgrade = true) (previewed : preview s d e.tenantId = some p) (hu : Outcome s u e n 0)
    (ha : u.accounts e.tenantId = some a) (unused : a.getInvoice .planUpgrade (.paymentEvent e.id) = none) :
    (Unhindered s d e.tenantId ∧ Outcome s (after (bookVerifiedUpgrade d e p a) u) e n 1) ∨
    (¬Unhindered s d e.tenantId ∧ ∃ planned, Outcome s (after (bookVerifiedUpgrade d e p a) u) e planned 0) := by
  unfold bookVerifiedUpgrade
  simp only [Delivery.attempt]
  by_cases plan : d.fault .planLookup = none
  swap
  · exact .inr (hindered (by decide) plan (EStateM.run_pure _ _) hu hu)
  rw [after_attempt_bind_of_none plan (EStateM.run_pure _ _)]
  cases charge : d.totalCharge p with
  | none =>
    refine .inr ⟨fun h => ?_, n, hu⟩
    have priced := h.priced
    rw [previewed, Option.bind_some, charge] at priced
    cases priced
  | some totalCharge =>
    simp only
    by_cases lookup : d.fault .invoiceLookup = none
    swap
    · exact .inr (hindered (by decide) lookup (EStateM.run_pure _ _) hu hu)
    rw [after_attempt_bind_of_none lookup (EStateM.run_pure _ _), unused]
    generalize (if p.nextPeriodChargeCents = 0 then totalCharge else p.nextPeriodChargeCents) = periodTotal
    obtain ⟨row, htype, hkey, -, -, hrun⟩ := createInvoice_run unused totalCharge
      ("Webhook verified csomagváltás: " ++ (d.env.plans.getOrFree d.targetPlan).name)
      (upgradeLines p d.targetPlan d.targetPeriod periodTotal false d.normalizedProvider (some d.normalizedEventId))
      d.env.now .paid d.normalizedProvider d.env.now
    simp only [Option.isSome_none, Bool.false_eq_true, if_false, storeRun, hrun]
    have done : Outcome s (u.storeAccount e.tenantId
        { a with invoices := a.invoices ++ [row], nextInvoiceId := a.nextInvoiceId + 1 }) e n 1 :=
      hu.trans (.invoiced ha rfl htype hkey)
    have steps : ∀ step, step ≠ .createInvoice → d.fault step = none := by
      intro step hs
      by_cases h₁ : step = .planLookup
      · exact h₁ ▸ plan
      · by_cases h₂ : step = .invoiceLookup
        · exact h₂ ▸ lookup
        · exact before step h₁ h₂ hs
    have good (h : d.fault .createInvoice ≠ some .before) : Unhindered s d e.tenantId :=
      ⟨upgrade, steps, h, by rw [previewed, Option.bind_some, charge]; rfl⟩
    by_cases create : d.fault .createInvoice = none
    · rw [after_attempt_bind_of_none create (EStateM.run_modify _ _)]
      exact .inl ⟨good (by simp [create]), done⟩
    · rcases after_attempt_bind_of_fault create (EStateM.run_modify _ _) with ⟨h, hf⟩ | ⟨h, hf⟩
      · rw [h]
        exact .inr ⟨fun good => good.invoice hf, n, hu⟩
      · rw [h]
        exact .inl ⟨good (by simp [hf]), done⟩

/-- A new upgrade event: unless something hinders it, its plan change and its invoice are committed once; else
    the invoice is not. -/
theorem applyVerifiedUpgrade_outcome {a : Account} (recorded : d.fault .record = none) (upgrade : d.isUpgrade = true)
    (ha : s.accounts e.tenantId = some a) (unused : a.getInvoice .planUpgrade (.paymentEvent e.id) = none) :
    (Unhindered s d e.tenantId ∧ Outcome s (after (applyVerifiedUpgrade d e) s) e 1 1) ∨
    (¬Unhindered s d e.tenantId ∧ ∃ planned, Outcome s (after (applyVerifiedUpgrade d e) s) e planned 0) := by
  unfold applyVerifiedUpgrade
  simp only [Delivery.attempt]
  have look : (do return (← get).accounts e.tenantId : PaymentM (Option Account)).run s = .ok (some a) s := by
    rw [← ha]
    rfl
  by_cases lookup : d.fault .tenantLookup = none
  swap
  · exact .inr (hindered (by decide) lookup look (.refl s e) (.refl s e))
  rw [after_attempt_bind_of_none lookup look]
  simp only
  -- the subscription of the tenant
  generalize hens : ensureSubscription d.env a.snapshot a = ensured
  obtain ⟨sub, a₁⟩ := ensured
  have h₁ : a₁.invoices = a.invoices := by
    have h := ensureSubscription_invoices d.env a.snapshot a
    rwa [hens] at h
  have o₁ : Outcome s (s.storeAccount e.tenantId a₁) e 0 0 := .store ha h₁
  have f₁ : (s.storeAccount e.tenantId a₁).accounts e.tenantId = some a₁ := Function.update_self ..
  simp only
  by_cases ensure : d.fault .ensureSubscription = none
  swap
  · exact .inr (hindered (by decide) ensure (EStateM.run_modify _ _) (.refl s e) o₁)
  rw [after_attempt_bind_of_none ensure (EStateM.run_modify _ _)]
  generalize s.storeAccount e.tenantId a₁ = s₁ at o₁ f₁
  by_cases proration : d.fault .proration = none
  swap
  · exact .inr (hindered (by decide) proration (EStateM.run_pure _ _) o₁ o₁)
  rw [after_attempt_bind_of_none proration (EStateM.run_pure _ _)]
  have previewed : preview s d e.tenantId = upgradeProration d.env sub d.targetPlan d.targetPeriod := by
    simp [preview, ha, hens]
  cases hp : upgradeProration d.env sub d.targetPlan d.targetPeriod with
  | none =>
    refine .inr ⟨fun h => ?_, 0, o₁⟩
    have priced := h.priced
    rw [previewed, hp] at priced
    cases priced
  | some p =>
    -- the plan change
    simp only
    generalize hup : a₁.upsertSubscription d.env.utcnow (immediatePlanData d.env sub (d.env.plans.getOrFree d.targetPlan)
      d.targetPeriod (some (midnight p.paidUntil)) a₁) = upserted
    obtain ⟨updated, a₂⟩ := upserted
    have h₂ : a₂.invoices = a₁.invoices := (congrArg (·.2.invoices) hup).symm
    have o₂ := (o₁.trans (.store f₁ h₂)).trans (.planned _ e)
    have f₂ : (s₁.storeAccount e.tenantId a₂).accounts e.tenantId = some a₂ := Function.update_self ..
    simp only
    by_cases change : d.fault .planChange = none
    swap
    · exact .inr (hindered (by decide) change (EStateM.run_modify _ _) o₁ o₂)
    rw [after_attempt_bind_of_none change (EStateM.run_modify _ _)]
    generalize hs₂ : ({ s₁.storeAccount e.tenantId a₂ with
      planChanges := s₁.planChanges ++ [e.id] } : PaymentState) = s₂
    have o₂ : Outcome s s₂ e 1 0 := by
      rw [← hs₂]
      exact (o₁.trans (.store f₁ h₂)).trans (.planned _ e)
    have f₂ : s₂.accounts e.tenantId = some a₂ := by
      rw [← hs₂]
      exact Function.update_self ..
    have h₃ : (syncTenantConfig d.env updated a₂).invoices = a₂.invoices := rfl
    have o₃ := o₂.trans (.store f₂ h₃)
    by_cases config : d.fault .configSync = none
    swap
    · exact .inr (hindered (by decide) config (EStateM.run_modify _ _) o₂ o₃)
    rw [after_attempt_bind_of_none config (EStateM.run_modify _ _)]
    refine bookVerifiedUpgrade_outcome ?_ upgrade (previewed.trans hp) o₃ (Function.update_self ..) ?_
    · intro step h₁ h₂ h₃
      cases step
      · exact recorded
      · exact lookup
      · exact ensure
      · exact proration
      · exact change
      · exact config
      · exact absurd rfl h₁
      · exact absurd rfl h₂
      · exact absurd rfl h₃
    · unfold Account.getInvoice
      rw [h₃, h₂, h₁]
      exact unused

end

/-- The numbers of the event rows: each is below the next one, and so is each that a plan change or an invoice
    carries. -/
structure Numbered (s : PaymentState) : Prop where
  events : ∀ e ∈ s.events, e.id < s.nextEventId
  planChanges : ∀ j ∈ s.planChanges, j < s.nextEventId
  invoices : ∀ k j, s.nextEventId ≤ j → upgradeInvoices s k j = 0

/-- The row that a delivery adds. -/
def newRow (s : PaymentState) (d : Delivery) (tenantId : Nat) : PaymentEvent :=
  { id := s.nextEventId, provider := d.normalizedProvider, eventId := d.normalizedEventId
    eventType := d.normalizedEventType, tenantId }

/-- The state with the row of the event recorded and nothing done for it. -/
def recordedState (s : PaymentState) (d : Delivery) (tenantId : Nat) : PaymentState :=
  { s with events := s.events ++ [newRow s d tenantId], nextEventId := s.nextEventId + 1 }

theorem Numbered.unused {s : PaymentState} (h : Numbered s) {k : Nat} {a : Account} (ha : s.accounts k = some a) :
    a.getInvoice .planUpgrade (.paymentEvent s.nextEventId) = none := by
  have none := h.invoices k s.nextEventId (Nat.le_refl _)
  simp only [upgradeInvoices, ha, List.countP_eq_zero] at none
  exact List.find?_eq_none.mpr none

theorem recordPaymentEventOnce_run_of_new {s : PaymentState} {d : Delivery} {k : Nat}
    (new : s.event? d.normalizedProvider d.normalizedEventId = none) (tenant : (s.accounts k).isSome) :
    (recordPaymentEventOnce d.normalizedProvider d.normalizedEventId d.normalizedEventType k).run s =
      .ok (newRow s d k, true) (recordedState s d k) := by
  have present : (s.accounts k).isNone = false := by
    rw [← Option.not_isSome, tenant]
    rfl
  simp only [recordPaymentEventOnce, EStateM.run_bind, EStateM.run_get, new, run_ite, present]
  rfl

/-- A delivery changes nothing, or records its event with what it has committed for it. -/
theorem deliver_cases {s : PaymentState} (ok : Numbered s) (d : Delivery) :
    (deliver s d = s ∧ ∀ k, ¬Records s d k) ∨
    ∃ k, Records s d k ∧
      ((Unhindered s d k ∧ Outcome (recordedState s d k) (deliver s d) (newRow s d k) 1 1) ∨
       (¬Unhindered s d k ∧ ∃ planned, Outcome (recordedState s d k) (deliver s d) (newRow s d k) planned 0)) := by
  unfold deliver processVerifiedPaymentEvent
  by_cases unnamed : d.normalizedProvider = "" ∨ d.normalizedEventId = ""
  · rw [if_pos unnamed]
    exact .inl ⟨rfl, fun k h => unnamed.elim h.named.1 h.named.2⟩
  rw [if_neg unnamed]
  cases ht : d.tenantId with
  | none =>
    refine .inl ⟨rfl, fun k h => ?_⟩
    have hk := h.tenant.1
    rw [ht] at hk
    cases hk
  | some n =>
    have same : ∀ k, Records s d k → n = k := by
      intro k h
      have hk := h.tenant.1
      rw [ht] at hk
      cases hk
      rfl
    by_cases hn : n ≤ 0
    · simp only [if_pos hn]
      refine .inl ⟨rfl, fun k h => ?_⟩
      have hk := same k h
      have hk0 := h.tenant.2.1
      omega
    simp only [if_neg hn, Delivery.attempt]
    cases hrow : s.event? d.normalizedProvider d.normalizedEventId with
    | some row =>
      -- a retry of a recorded event
      have again : (recordPaymentEventOnce d.normalizedProvider d.normalizedEventId d.normalizedEventType n.toNat).run s =
          .ok (row, false) s := by
        simp [recordPaymentEventOnce, hrow]
      refine .inl ⟨?_, fun k h => ?_⟩
      · by_cases hf : d.fault .record = none
        · rw [after_attempt_bind_of_none hf again]
          rfl
        · rcases after_attempt_bind_of_fault hf again with ⟨h, -⟩ | ⟨h, -⟩ <;> exact h
      · have new := h.new
        rw [hrow] at new
        cases new
    | none =>
      cases ha : s.accounts n.toNat with
      | none =>
        have refused : (recordPaymentEventOnce d.normalizedProvider d.normalizedEventId d.normalizedEventType n.toNat).run s =
            .error .integrityError s := by
          simp only [recordPaymentEventOnce, EStateM.run_bind, EStateM.run_get, hrow, run_ite, ha]
          rfl
        refine .inl ⟨?_, fun k h => ?_⟩
        · rcases after_attempt_bind_of_error refused with h | h <;> exact h
        · have present := h.tenant.2.2
          rw [← Int.toNat_natCast k, ← same k h, ha] at present
          cases present
      | some a =>
        have present : (s.accounts n.toNat).isSome := by
          rw [ha]
          rfl
        have insert := recordPaymentEventOnce_run_of_new hrow present
        have records (h : d.fault .record ≠ some .before) : Records s d n.toNat := by
          refine ⟨not_or.mp unnamed, ⟨?_, ?_, present⟩, hrow, h⟩
          · rw [ht, Int.toNat_of_nonneg (by omega)]
          · omega
        by_cases hf : d.fault .record = none
        · rw [after_attempt_bind_of_none hf insert]
          refine .inr ⟨n.toNat, records (by simp [hf]), ?_⟩
          by_cases upgrade : d.isUpgrade = true
          · simp only [upgrade]
            have stored : (recordedState s d n.toNat).accounts (newRow s d n.toNat).tenantId = some a := ha
            rcases applyVerifiedUpgrade_outcome hf upgrade stored (ok.unused ha) with
              ⟨h, ho⟩ | ⟨h, ho⟩
            · exact .inl ⟨⟨h.upgrade, h.steps, h.invoice, h.priced⟩, ho⟩
            · exact .inr ⟨fun h' => h ⟨h'.upgrade, h'.steps, h'.invoice, h'.priced⟩, ho⟩
          · refine .inr ⟨fun h => upgrade h.upgrade, 0, ?_⟩
            simp only [upgrade]
            exact .refl _ _
        · have hindered : ¬Unhindered s d n.toNat := fun h => hf (h.steps .record (by decide))
          rcases after_attempt_bind_of_fault hf insert with ⟨h, hb⟩ | ⟨h, hb⟩
          · exact .inl ⟨h, fun k hr => hr.committed hb⟩
          · refine .inr ⟨n.toNat, records (by simp [hb]), .inr ⟨hindered, 0, ?_⟩⟩
            rw [h]
            exact .refl _ _

/-! ### Runs of deliveries -/

theorem event?_append {s : PaymentState} {row : PaymentEvent} {provider eventId : String} (events : List PaymentEvent)
    (h : events = s.events ++ [row]) :
    events.find? (fun e => e.provider = provider ∧ e.eventId = eventId) =
      (s.event? provider eventId).or (if row.provider = provider ∧ row.eventId = eventId then some row else none) := by
  rw [h, List.find?_append, PaymentState.event?]
  by_cases hr : row.provider = provider ∧ row.eventId = eventId
  · simp [hr]
  · simp [hr]

theorem Outcome.numbered {s t : PaymentState} {d : Delivery} {k planned invoiced : Nat} (ok : Numbered s)
    (h : Outcome (recordedState s d k) t (newRow s d k) planned invoiced) : Numbered t := by
  refine ⟨fun e he => ?_, fun j hj => ?_, fun i j hj => ?_⟩
  · rw [h.events] at he
    rw [h.next]
    rcases List.mem_append.mp he with he | he
    · exact Nat.lt_succ_of_lt (ok.events e he)
    · rw [List.mem_singleton.mp he]
      exact Nat.lt_succ_self _
  · rw [h.planChanges] at hj
    rw [h.next]
    rcases List.mem_append.mp hj with hj | hj
    · exact Nat.lt_succ_of_lt (ok.planChanges j hj)
    · rw [List.eq_of_mem_replicate hj]
      exact Nat.lt_succ_self _
  · rw [h.next] at hj
    have above : s.nextEventId < j := hj
    rw [h.otherInvoices i j (Nat.ne_of_gt above)]
    exact ok.invoices i j (Nat.le_of_lt above)

theorem deliver_numbered {s : PaymentState} (ok : Numbered s) (d : Delivery) : Numbered (deliver s d) := by
  rcases deliver_cases ok d with ⟨h, -⟩ | ⟨k, -, ⟨-, h⟩ | ⟨-, _, h⟩⟩
  · rw [h]
    exact ok
  · exact h.numbered ok
  · exact h.numbered ok

section
variable {s : PaymentState} {provider eventId : String} {e : PaymentEvent}

theorem appliedOnce_iff (he : s.event? provider eventId = some e) :
    AppliedOnce s provider eventId ↔ s.planChanges.count e.id = 1 ∧ upgradeInvoices s e.tenantId e.id = 1 := by
  simp [AppliedOnce, he]

/-- A recorded event stays as it is, whatever is delivered. -/
theorem deliver_of_recorded (ok : Numbered s) (d : Delivery) (he : s.event? provider eventId = some e) :
    (deliver s d).event? provider eventId = some e ∧
      (AppliedOnce (deliver s d) provider eventId ↔ AppliedOnce s provider eventId) := by
  have old : e.id < s.nextEventId := ok.events e (List.mem_of_find?_eq_some he)
  have kept : ∀ {k planned invoiced}, Outcome (recordedState s d k) (deliver s d) (newRow s d k) planned invoiced →
      (deliver s d).event? provider eventId = some e ∧
        (AppliedOnce (deliver s d) provider eventId ↔ AppliedOnce s provider eventId) := by
    intro k planned invoiced h
    have he' : (deliver s d).event? provider eventId = some e := by
      rw [PaymentState.event?, event?_append _ h.events, he]
      rfl
    refine ⟨he', ?_⟩
    have other : (newRow s d k).id ≠ e.id := Nat.ne_of_gt old
    rw [appliedOnce_iff he, appliedOnce_iff he', h.planChanges, List.count_append, List.count_replicate,
      h.otherInvoices _ _ other.symm]
    simp only [beq_iff_eq, if_neg other, Nat.add_zero]
    exact Iff.rfl
  rcases deliver_cases ok d with ⟨h, -⟩ | ⟨k, -, ⟨-, h⟩ | ⟨-, _, h⟩⟩
  · rw [h]
    exact ⟨he, Iff.rfl⟩
  · exact kept h
  · exact kept h

theorem run_of_recorded (ok : Numbered s) (run : List Delivery) (he : s.event? provider eventId = some e) :
    (final deliver s run).event? provider eventId = some e ∧
      (AppliedOnce (final deliver s run) provider eventId ↔ AppliedOnce s provider eventId) := by
  induction run generalizing s with
  | nil => exact ⟨he, Iff.rfl⟩
  | cons d run ih =>
    obtain ⟨he', hiff⟩ := deliver_of_recorded ok d he
    obtain ⟨hend, hrun⟩ := ih (deliver_numbered ok d) he'
    rw [final_cons]
    exact ⟨hend, hrun.trans hiff⟩

/-- The delivery that records an event applies it once, unless it is hindered. -/
theorem deliver_of_records (ok : Numbered s) {d : Delivery} {k : Nat} (h : Records s d k) :
    (deliver s d).event? d.normalizedProvider d.normalizedEventId = some (newRow s d k) ∧
      (AppliedOnce (deliver s d) d.normalizedProvider d.normalizedEventId ↔ Unhindered s d k) := by
  have absent : s.planChanges.count s.nextEventId = 0 :=
    List.count_eq_zero.mpr fun hm => Nat.lt_irrefl _ (ok.planChanges _ hm)
  have unbooked : upgradeInvoices (recordedState s d k) k s.nextEventId = 0 := ok.invoices k _ (Nat.le_refl _)
  have found : ∀ {planned invoiced}, Outcome (recordedState s d k) (deliver s d) (newRow s d k) planned invoiced →
      (deliver s d).event? d.normalizedProvider d.normalizedEventId = some (newRow s d k) ∧
        (AppliedOnce (deliver s d) d.normalizedProvider d.normalizedEventId ↔ planned = 1 ∧ invoiced = 1) := by
    intro planned invoiced ho
    have he : (deliver s d).event? d.normalizedProvider d.normalizedEventId = some (newRow s d k) := by
      rw [PaymentState.event?, event?_append _ ho.events, h.new]
      simp [newRow]
    refine ⟨he, ?_⟩
    have changes : (deliver s d).planChanges.count (newRow s d k).id = planned := by
      rw [ho.planChanges, List.count_append, List.count_replicate_self]
      exact (congrArg (· + planned) absent).trans (Nat.zero_add _)
    have invoices : upgradeInvoices (deliver s d) (newRow s d k).tenantId (newRow s d k).id = invoiced := by
      rw [ho.ownInvoices]
      exact (congrArg (· + invoiced) unbooked).trans (Nat.zero_add _)
    rw [appliedOnce_iff he, changes, invoices]
  rcases deliver_cases ok d with ⟨-, hnone⟩ | ⟨k', hr, hcase⟩
  · exact absurd h (hnone k)
  · rw [hr.tenant_unique h] at hcase
    rcases hcase with ⟨good, ho⟩ | ⟨bad, _, ho⟩
    · obtain ⟨he, hiff⟩ := found ho
      exact ⟨he, hiff.trans (by simp [good])⟩
    · obtain ⟨he, hiff⟩ := found ho
      exact ⟨he, hiff.trans (by simp [bad])⟩

/-- An event stays unrecorded under a delivery that does not record it. -/
theorem deliver_of_unrecorded (ok : Numbered s) {d : Delivery} (none : s.event? provider eventId = none)
    (other : ∀ k, Records s d k → ¬(d.normalizedProvider = provider ∧ d.normalizedEventId = eventId)) :
    (deliver s d).event? provider eventId = .none := by
  have kept : ∀ {k planned invoiced}, Records s d k →
      Outcome (recordedState s d k) (deliver s d) (newRow s d k) planned invoiced →
        (deliver s d).event? provider eventId = .none := by
    intro k planned invoiced hr ho
    have differs : ¬((newRow s d k).provider = provider ∧ (newRow s d k).eventId = eventId) := other k hr
    rw [PaymentState.event?, event?_append _ ho.events, none]
    simp only [Option.none_or, if_neg differs]
  rcases deliver_cases ok d with ⟨h, -⟩ | ⟨k, hr, ⟨-, h⟩ | ⟨-, _, h⟩⟩
  · rw [h]
    exact none
  · exact kept hr h
  · exact kept hr h

end

/-- Some delivery of the run records the event, and nothing hinders it. -/
def RecordedUnhindered (start : PaymentState) (run : List Delivery) (provider eventId : String) : Prop :=
  ∃ before d behind k, run = before ++ d :: behind ∧ d.normalizedProvider = provider ∧ d.normalizedEventId = eventId ∧
    Records (final deliver start before) d k ∧ Unhindered (final deliver start before) d k

theorem appliedOnce_final_iff {start : PaymentState} (ok : Numbered start) (run : List Delivery) {provider eventId : String}
    (none : start.event? provider eventId = none) :
    AppliedOnce (final deliver start run) provider eventId ↔ RecordedUnhindered start run provider eventId := by
  induction run generalizing start with
  | nil => simp [AppliedOnce, RecordedUnhindered, none]
  | cons d run ih =>
    have ok' := deliver_numbered ok d
    by_cases own : ∃ k, Records start d k ∧ d.normalizedProvider = provider ∧ d.normalizedEventId = eventId
    · obtain ⟨k, hr, rfl, rfl⟩ := own
      obtain ⟨he, hiff⟩ := deliver_of_records ok hr
      rw [final_cons, (run_of_recorded ok' run he).2, hiff]
      constructor
      · intro h
        exact ⟨[], d, run, k, rfl, rfl, rfl, hr, h⟩
      · rintro ⟨before, d', behind, k', hrun, hp, hi, hr', h'⟩
        cases before with
        | nil =>
          cases hrun
          exact hr'.tenant_unique hr ▸ h'
        | cons d'' before =>
          cases hrun
          have new := hr'.new
          rw [hp, hi, final_cons, (run_of_recorded ok' before he).1] at new
          cases new
    · have other : ∀ k, Records start d k → ¬(d.normalizedProvider = provider ∧ d.normalizedEventId = eventId) :=
        fun k hr h => own ⟨k, hr, h⟩
      rw [final_cons, ih ok' (deliver_of_unrecorded ok none other)]
      constructor
      · rintro ⟨before, d', behind, k, rfl, applied⟩
        refine ⟨d :: before, d', behind, k, rfl, ?_⟩
        rw [final_cons]
        exact applied
      · rintro ⟨before, d', behind, k, hrun, hp, hi, applied⟩
        cases before with
        | nil =>
          cases hrun
          exact absurd ⟨hp, hi⟩ (other k applied.1)
        | cons d'' before =>
          cases hrun
          rw [final_cons] at applied
          exact ⟨before, d', behind, k, rfl, hp, hi, applied⟩

/-- No event was recorded yet, and no account has an invoice of one. -/
structure Fresh (s : PaymentState) : Prop where
  events : s.events = []
  planChanges : s.planChanges = []
  invoices : ∀ k j, upgradeInvoices s k j = 0

/-- In every run of deliveries, an event is applied exactly once if and only if the delivery that recorded it was
    not hindered; no retry makes up for it. -/
theorem payment_event_applied_once_iff {start : PaymentState} (fresh : Fresh start) (run : List Delivery)
    (provider eventId : String) :
    AppliedOnce (final deliver start run) provider eventId ↔ RecordedUnhindered start run provider eventId := by
  refine appliedOnce_final_iff ⟨?_, ?_, fun k j _ => fresh.invoices k j⟩ run ?_
  · simp [fresh.events]
  · simp [fresh.planChanges]
  · simp [PaymentState.event?, fresh.events]

/-- A delivery of the event that does not fail and is answered. -/
def Retried (start : PaymentState) (run : List Delivery) (provider eventId : String) : Prop :=
  ∃ before d behind, run = before ++ d :: behind ∧ d.normalizedProvider = provider ∧ d.normalizedEventId = eventId ∧
    d.isUpgrade = true ∧ (∀ step, d.fault step = none) ∧
    (answer (final deliver start before) d).isSome

/-- Tenant 1 signed up for the starter plan on day 20000. -/
def subscribed : PaymentState where
  accounts k :=
    if k = 1 then
      some (setSignupSubscription (Env.seeded (midnight 20000)) "starter" "monthly"
        (Account.created "acme" "Acme" (midnight 20000)))
    else none

theorem subscribed_fresh : Fresh subscribed := by
  refine ⟨rfl, rfl, fun k j => ?_⟩
  by_cases hk : k = 1
  · rw [hk]
    rfl
  · simp [upgradeInvoices, subscribed, hk]

/-- The payment for its upgrade to the plan `pro`. -/
def paidUpgrade (fault : PaymentStep → Option Fault) : Delivery where
  env := Env.seeded (midnight 20010)
  provider := "stripe_test"
  eventId := "evt_1"
  eventType := "invoice.paid"
  payload :=
    { metadataTenantId := .value 1, metadataFlow := some "plan_upgrade", targetPlan := some "pro"
      billingPeriod := some "monthly", metadataAmountCents := .falsy }
  fault

theorem payment_event_applied_once_when_redelivered :
    AppliedOnce (final deliver subscribed [paidUpgrade fun _ => none, paidUpgrade fun _ => none]) "stripe_test" "evt_1" := by
  let d := paidUpgrade fun _ => none
  have records : Records subscribed d 1 := ⟨by decide, by decide, by decide, by decide⟩
  have unhindered : Unhindered subscribed d 1 := ⟨by decide, fun _ _ => rfl, by decide, by decide⟩
  exact (payment_event_applied_once_iff subscribed_fresh [d, d] _ _).mpr
    ⟨[], d, [d], 1, rfl, by decide, by decide, records, unhindered⟩

/-- The delivery whose plan change fails leaves the record, and the retry is answered as a duplicate. -/
theorem payment_event_lost :
    ¬∀ (start : PaymentState) (run : List Delivery) (provider eventId : String), Fresh start →
      Retried start run provider eventId → AppliedOnce (final deliver start run) provider eventId := by
  intro h
  let failing := paidUpgrade fun step => if step = .planChange then some .before else none
  let retry := paidUpgrade fun _ => none
  obtain ⟨e, -, planned, -⟩ := h subscribed [failing, retry] "stripe_test" "evt_1" subscribed_fresh
    ⟨[failing], retry, [], rfl, by decide, by decide, by decide, fun _ => rfl, by decide⟩
  have lost : (final deliver subscribed [failing, retry]).planChanges = [] := by decide
  rw [lost] at planned
  cases planned

end NyzRating.Billing.Payments
