import NyzRating.Billing.Completeness

/-!
# The announced invoice and the one charged

The estimate takes the price of a scheduled plan, and the storage that the current plan leaves to pay. On the due date the
scheduled plan is in force.
-/

namespace NyzRating.Billing.NextInvoice

open Calendar Program

/-- What a month costs with the change that is scheduled. -/
def monthlyCents (env : Env) (sub : Subscription) (resources : Resources) : Int :=
  let plan := env.plans.getOrFree (orText sub.scheduledPlanCode (orText (some sub.planCode) "free"))
  planMonthlyChargeCentsAfterDiscount plan.priceCents (sub.scheduledBillingPeriod.getD sub.billingPeriod) +
    (sub.extraKbCount * 500 + requiredExtraStorageGb env sub resources * 500)

/-- The total of the payment requests that the due cycle issues. -/
def issuedTotal (env : Env) (a : Account) : Int :=
  (processCancellationLifecycle env a).account.elim 0 fun b =>
    (((processTenant env b).invoices.drop b.invoices.length).map (·.totalCents)).sum

/-- The due cycle issues a payment request: the tenant is still active after the lifecycle of its cancellations, the plan
    that is then in force costs something, and nothing restricts it. -/
structure Requested (env : Env) (a : Account) (sub : Subscription) : Prop where
  active : (processCancellationLifecycle env a).live = true
  paid : (renewed env sub).planCode ≠ "free"
  unrestricted : a.overdueInvoice env.today (renewed env sub) = none
  renewing : cancellationPending a = false
  due : billingDueDate (renewed env sub) ≤ env.today
  fresh : ¬∃ i ∈ a.invoices, Completeness.ForPeriod (billingDueDate (renewed env sub)) i
  priced : 0 < monthlyCents env (renewed env sub) a.resources

instance (env : Env) (a : Account) (sub : Subscription) : Decidable (Requested env a sub) :=
  decidable_of_iff ((processCancellationLifecycle env a).live = true ∧ (renewed env sub).planCode ≠ "free" ∧
    a.overdueInvoice env.today (renewed env sub) = none ∧ cancellationPending a = false ∧
    billingDueDate (renewed env sub) ≤ env.today ∧
    (¬∃ i ∈ a.invoices, Completeness.ForPeriod (billingDueDate (renewed env sub)) i) ∧
    0 < monthlyCents env (renewed env sub) a.resources)
    ⟨fun ⟨active, paid, free, renewing, due, fresh, priced⟩ => ⟨active, paid, free, renewing, due, fresh, priced⟩,
      fun h => ⟨h.active, h.paid, h.unrestricted, h.renewing, h.due, h.fresh, h.priced⟩⟩

/-- The plan in force on the due date leaves as much storage to pay as the current one; and where nothing is charged, nothing
    is to be paid. -/
def Announces (env : Env) (a : Account) (sub : Subscription) : Prop :=
  if Requested env a sub then
    requiredExtraStorageGb env (renewed env sub) a.resources = requiredExtraStorageGb env sub a.resources
  else monthlyCents env sub a.resources = 0

instance (env : Env) (a : Account) (sub : Subscription) : Decidable (Announces env a sub) :=
  inferInstanceAs (Decidable (if Requested env a sub then
    requiredExtraStorageGb env (renewed env sub) a.resources = requiredExtraStorageGb env sub a.resources
  else monthlyCents env sub a.resources = 0))

/-! ### The estimate -/

section
variable {env : Env} {sub : Subscription} {a b : Account}

theorem estimate_total (env : Env) (sub : Subscription) (a : Account) : (estimateNextInvoice env sub a).totalCents =
    monthlyCents env sub a.resources * billingPeriodMultiplier (sub.scheduledBillingPeriod.getD sub.billingPeriod) :=
  (Int.add_mul ..).symm

theorem multiplier_pos (period : BillingPeriod) : 0 < billingPeriodMultiplier period := by cases period <;> decide

theorem estimate_eq_zero_iff : (estimateNextInvoice env sub a).totalCents = 0 ↔ monthlyCents env sub a.resources = 0 := by
  have positive := multiplier_pos (sub.scheduledBillingPeriod.getD sub.billingPeriod)
  rw [estimate_total, Int.mul_eq_zero]
  omega

theorem estimate_pos_iff : 0 < (estimateNextInvoice env sub a).totalCents ↔ 0 < monthlyCents env sub a.resources := by
  have positive := multiplier_pos (sub.scheduledBillingPeriod.getD sub.billingPeriod)
  rw [estimate_total]
  constructor
  · intro charged
    by_contra free
    have none := Int.mul_nonpos_of_nonpos_of_nonneg (Int.not_lt.mp free) (Int.le_of_lt positive)
    omega
  · exact fun charged => Int.mul_pos charged positive

/-- With the change in force, the estimate differs in the storage only. -/
theorem estimate_renewed_iff (env' : Env) : (estimateNextInvoice env (renewed env' sub) a).totalCents =
    (estimateNextInvoice env sub a).totalCents ↔
      requiredExtraStorageGb env (renewed env' sub) a.resources = requiredExtraStorageGb env sub a.resources := by
  rw [estimate_total, estimate_total]
  unfold renewed
  cases scheduled : sub.scheduledPlanCode.filter (· ≠ "") with
  | none => exact iff_of_true rfl rfl
  | some plan =>
    rw [Option.elim_some]
    split
    · have named : (plan ≠ "" : Bool) = true := (Option.filter_eq_some_iff.mp scheduled).2
      have target : orText none (orText (some plan) "free") = orText sub.scheduledPlanCode (orText (some sub.planCode) "free") := by
        rw [orText, orText, Option.filter_some, if_pos named, orText, scheduled]
        rfl
      have positive := multiplier_pos (sub.scheduledBillingPeriod.getD sub.billingPeriod)
      simp only [monthlyCents, scheduledPlanData, target, Option.getD_none]
      rw [Int.mul_eq_mul_right_iff (by omega)]
      omega
    · exact iff_of_true rfl rfl

/-! ### The request -/

/-- What invoicing asks for. -/
structure Issues (env : Env) (sub : Subscription) (a : Account) : Prop where
  paid : sub.planCode ≠ "free"
  unrestricted : sub.status ≠ .restricted
  renewing : cancellationPending a = false
  due : billingDueDate sub ≤ env.today
  fresh : ¬∃ i ∈ a.invoices, Completeness.ForPeriod (billingDueDate sub) i
  priced : 0 < (estimateNextInvoice env sub a).totalCents

/-- An invoice over the estimate is added. -/
theorem invoicing_issues (h : Issues env sub a) : ∃ row : Invoice, row.totalCents = (estimateNextInvoice env sub a).totalCents ∧
    (invoicing env sub).run a = .ok () { a with invoices := a.invoices ++ [row], nextInvoiceId := a.nextInvoiceId + 1 } := by
  obtain ⟨row, -, -, total, run⟩ := Completeness.invoicing_due h.paid h.priced h.unrestricted h.renewing h.due h.fresh
  exact ⟨row, total, run⟩

theorem invoicing_quiet (h : ¬Issues env sub a) : (invoicing env sub).run a = .ok () a := by
  by_cases present : ∃ i ∈ a.invoices, Completeness.ForPeriod (billingDueDate sub) i
  · exact Completeness.invoicing_present present
  · unfold invoicing
    simp only [EStateM.run_bind, EStateM.run_get]
    split
    · next asked =>
      simp only [Bool.and_eq_true, decide_eq_true_eq, Bool.not_eq_true', decide_eq_false_iff_not] at asked
      obtain ⟨⟨⟨paid, unrestricted⟩, renewing⟩, due⟩ := asked
      have free : ¬0 < (estimateNextInvoice env sub a).totalCents := fun priced =>
        h ⟨paid, unrestricted, renewing, Int.not_lt.mp due, present, priced⟩
      have none' : (issueSubscriptionPaymentRequest env sub (billingDueDate sub) (.date (billingDueDate sub))).run a = .ok none a := by
        unfold issueSubscriptionPaymentRequest
        rw [if_neg paid, if_neg unrestricted]
        simp only [EStateM.run_bind, EStateM.run_get, Completeness.getInvoice_eq_none present (.inl rfl),
          if_pos (Int.not_lt.mp free)]
        rfl
      split
      · rw [EStateM.run_bind, none']
        rfl
      · rfl
    · rfl

/-! ### The cycle -/

theorem pending_update {id : Nat} {guard : CancellationRequest → Bool} (set : CancellationRequest → CancellationRequest)
    (same : ∀ r, (set r).requestedAt = r.requestedAt ∧ (set r).id = r.id) (status : ∀ r, (set r).status = r.status) (a : Account) :
    cancellationPending (Account.updateRequest id guard set a).2 = cancellationPending a := by
  unfold cancellationPending
  rw [Account.getLatestCancellationRequest_updateRequest same]
  cases a.getLatestCancellationRequest with
  | none => rfl
  | some r =>
    rw [Option.map_some, Option.any_some, Option.any_some]
    split
    · rw [status]
    · rfl

/-- The lifecycle of cancellations leaves what the cycle asks for. -/
theorem lifecycle_keeps (env : Env) (a : Account) : ∀ b ∈ (processCancellationLifecycle env a).account,
    b.invoices = a.invoices ∧ b.subscription = a.subscription ∧ b.resources = a.resources ∧
      cancellationPending b = cancellationPending a := by
  let P (b : Account) : Prop := b.invoices = a.invoices ∧ b.subscription = a.subscription ∧ b.resources = a.resources ∧
    cancellationPending b = cancellationPending a
  have marked {id : Nat} {guard : CancellationRequest → Bool} (set : CancellationRequest → CancellationRequest)
      (same : ∀ r, (set r).requestedAt = r.requestedAt ∧ (set r).id = r.id) (status : ∀ r, (set r).status = r.status) (b : Account)
      (h : P b) : P (Account.updateRequest id guard set b).2 :=
    ⟨h.1, h.2.1, h.2.2.1, (pending_update set same status b).trans h.2.2.2⟩
  have kept : LifecycleInvariant P :=
    { twoDays := fun b _ t => marked ({ · with noticeTwoDaysSentAt := some t }) (fun _ => ⟨rfl, rfl⟩) (fun _ => rfl) b
      oneDay := fun b _ t => marked ({ · with noticeOneDaySentAt := some t }) (fun _ => ⟨rfl, rfl⟩) (fun _ => rfl) b
      expired := fun b _ t => marked ({ · with noticeExpiredSentAt := some t }) (fun _ => ⟨rfl, rfl⟩) (fun _ => rfl) b
      withdrawn := fun b _ t => marked ({ · with deactivatedAt := some t }) (fun _ => ⟨rfl, rfl⟩) (fun _ => rfl) b.deactivate }
  exact kept.lifecycle env ⟨rfl, rfl, rfl, rfl⟩

/-- So does the synchronisation of the status. -/
theorem sync_keeps (env : Env) (sub : Subscription) (a : Account) : (syncStatus env sub a).2.invoices = a.invoices ∧
    (syncStatus env sub a).2.resources = a.resources ∧
      cancellationPending (syncStatus env sub a).2 = cancellationPending a := by
  refine ⟨Restriction.syncStatus_invoices .., ?_, ?_⟩
  · have cancelled : ((restrictingRequest env a).elim a (syncCancellation env · a)).resources = a.resources := by
      cases restrictingRequest env a with
      | none => rfl
      | some r =>
        simp only [Option.elim_some, syncCancellation]
        split <;> rfl
    rw [Restriction.syncStatus_eq]
    simp only [Restriction.settled]
    split <;> split <;> exact cancelled
  · have same : cancellationPending ((restrictingRequest env a).elim a (syncCancellation env · a)) = cancellationPending a := by
      cases restrictingRequest env a with
      | none => rfl
      | some r =>
        simp only [Option.elim_some, syncCancellation]
        split
        · exact pending_update ({ · with deactivatedAt := some env.now }) (fun _ => ⟨rfl, rfl⟩) (fun _ => rfl) a.deactivate
        · rfl
    rw [← same]
    unfold cancellationPending
    rw [Restriction.syncStatus_latest]

theorem sync_unrestricted (env : Env) (sub : Subscription) (a : Account) (paid : sub.planCode ≠ "free")
    (renewing : cancellationPending a = false) :
    (syncStatus env sub a).1.status ≠ .restricted ↔ a.overdueInvoice env.today sub = none := by
  have none' : restrictingRequest env a = none := by
    cases found : restrictingRequest env a with
    | none => rfl
    | some r =>
      obtain ⟨latest, restricts⟩ := Restriction.restrictingRequest_eq_some.mp found
      simp only [CancellationRequest.restricts, Bool.and_eq_true, decide_eq_true_eq] at restricts
      simp [cancellationPending, latest, restricts.1.1] at renewing
  rw [Restriction.syncStatus_status, Restriction.nextStatus_eq, none']
  cases a.overdueInvoice env.today sub with
  | none => simp [resolve, paid]
  | some f => simp

/-- The subscription that the cycle invoices is the one with the change in force, but for its status. -/
theorem synchronised_keeps (env : Env) (sub : Subscription) (a : Account) :
    let cycle := Completeness.synchronised env sub a
    cycle.1.planCode = (renewed env sub).planCode ∧ billingDueDate cycle.1 = billingDueDate (renewed env sub) ∧
      cycle.2.invoices = a.invoices ∧ cancellationPending cycle.2 = cancellationPending a ∧
        (estimateNextInvoice env cycle.1 cycle.2).totalCents = (estimateNextInvoice env (renewed env sub) a).totalCents := by
  intro cycle
  obtain ⟨⟨status, updatedAt, row⟩, -⟩ := Completeness.synchronised_subscription env sub a
  obtain ⟨invoices, resources, pending⟩ := sync_keeps env (renewed env sub) { a with subscription := some (renewed env sub) }
  have same : (estimateNextInvoice env cycle.1 cycle.2).totalCents = (estimateNextInvoice env (renewed env sub) a).totalCents := by
    have kept : cycle.2.resources = a.resources := resources
    rw [estimate_total, estimate_total, kept, show cycle.1 = _ from row]
    rfl
  refine ⟨?_, ?_, invoices, pending, same⟩
  · rw [show cycle.1 = _ from row]
  · rw [show cycle.1 = _ from row]
    rfl

/-- What the cycle finds is what invoicing asks for. -/
theorem issues_synchronised_iff (env : Env) :
    Issues env (Completeness.synchronised env sub a).1 (Completeness.synchronised env sub a).2 ↔
      (renewed env sub).planCode ≠ "free" ∧ a.overdueInvoice env.today (renewed env sub) = none ∧ cancellationPending a = false ∧
        billingDueDate (renewed env sub) ≤ env.today ∧
          (¬∃ i ∈ a.invoices, Completeness.ForPeriod (billingDueDate (renewed env sub)) i) ∧
            0 < monthlyCents env (renewed env sub) a.resources := by
  obtain ⟨plan, day, invoices, pending, total⟩ := synchronised_keeps env sub a
  have status := sync_unrestricted env (renewed env sub) { a with subscription := some (renewed env sub) }
  constructor
  · intro h
    have paid := plan ▸ h.paid
    have renewing := pending ▸ h.renewing
    refine ⟨paid, (status paid renewing).mp h.unrestricted, renewing, day ▸ h.due, ?_, estimate_pos_iff.mp (total ▸ h.priced)⟩
    have fresh := h.fresh
    rwa [day, invoices] at fresh
  · rintro ⟨paid, unrestricted, renewing, due, fresh, priced⟩
    refine ⟨plan ▸ paid, (status paid renewing).mpr unrestricted, pending.trans renewing, day ▸ due, ?_, ?_⟩
    · rwa [day, invoices]
    · rw [total]
      exact estimate_pos_iff.mpr priced

/-- The cycle issues what is asked for, over the estimate for the plan in force. -/
theorem cycle_total (env : Env) (stored : a.subscription = some sub) (active : a.tenant.isActive = true) :
    let total := (((processTenant env a).invoices.drop a.invoices.length).map (·.totalCents)).sum
    (Issues env (Completeness.synchronised env sub a).1 (Completeness.synchronised env sub a).2 →
      total = (estimateNextInvoice env (renewed env sub) a).totalCents) ∧
    (¬Issues env (Completeness.synchronised env sub a).1 (Completeness.synchronised env sub a).2 → total = 0) := by
  obtain ⟨invoices, nextInvoiceId, run, final⟩ := Completeness.processTenant_forms env active
  rw [ensureSubscription_of_some stored] at run final
  obtain ⟨-, -, kept, -, estimate⟩ := synchronised_keeps env sub a
  intro total
  have total_eq : total = ((invoices.drop a.invoices.length).map (·.totalCents)).sum := by
    unfold total
    rw [final]
    rfl
  rw [total_eq]
  constructor
  · intro issues
    obtain ⟨row, amount, issued⟩ := invoicing_issues issues
    have added : invoices = a.invoices ++ [row] := by
      rw [issued] at run
      injection run with _ same
      exact (congrArg Account.invoices same).symm.trans (congrArg (· ++ [row]) kept)
    rw [added, List.drop_left]
    simp [amount, estimate]
  · intro quiet
    have same : invoices = a.invoices := by
      rw [invoicing_quiet quiet] at run
      injection run with _ same
      exact (congrArg Account.invoices same).symm.trans kept
    simp [same]

/-- The due cycle issues what is requested, over the estimate for the plan in force. -/
theorem issuedTotal_eq (env : Env) (stored : a.subscription = some sub) : issuedTotal env a =
    if Requested env a sub then (estimateNextInvoice env (renewed env sub) a).totalCents else 0 := by
  have keeps := lifecycle_keeps env a
  unfold issuedTotal
  cases walked : (processCancellationLifecycle env a).account with
  | none =>
    have gone : ¬Requested env a sub := fun h => by
      have live := h.active
      rw [LifecycleState.live, walked] at live
      cases live
    rw [Option.elim_none, if_neg gone]
  | some b =>
    obtain ⟨invoices, subscription, resources, pending⟩ := keeps b walked
    have live : (processCancellationLifecycle env a).live = b.tenant.isActive := by
      rw [LifecycleState.live, walked, Option.any_some]
    rw [Option.elim_some]
    cases active : b.tenant.isActive with
    | false =>
      have off : ¬Requested env a sub := fun h => by
        have on := live.symm.trans h.active
        rw [active] at on
        cases on
      rw [processTenant, active, if_neg Bool.false_ne_true, List.drop_length, if_neg off]
      rfl
    | true =>
      have issued := cycle_total env (subscription.trans stored) active
      have overdue : b.overdueInvoice env.today (renewed env sub) = a.overdueInvoice env.today (renewed env sub) := by
        unfold Account.overdueInvoice
        rw [Restriction.overdueCandidate_congr env.today invoices]
      have requested : Issues env (Completeness.synchronised env sub b).1 (Completeness.synchronised env sub b).2 ↔
          Requested env a sub := by
        rw [issues_synchronised_iff, overdue, pending, invoices, resources]
        constructor
        · rintro ⟨paid, unrestricted, renewing, due, fresh, priced⟩
          exact ⟨live.trans active, paid, unrestricted, renewing, due, fresh, priced⟩
        · exact fun h => ⟨h.paid, h.unrestricted, h.renewing, h.due, h.fresh, h.priced⟩
      have estimate : (estimateNextInvoice env (renewed env sub) b).totalCents =
          (estimateNextInvoice env (renewed env sub) a).totalCents := by
        rw [estimate_total, estimate_total, resources]
      rw [requested, estimate] at issued
      split
      · next asked => exact issued.1 asked
      · next quiet => exact issued.2 quiet

/-- The total that is announced is the total of the request on the due date. -/
theorem announced_iff (env env' : Env) (catalog : env.plans = env'.plans) (sub : Subscription) (a : Account)
    (stored : a.subscription = some sub) :
    (estimateNextInvoice env sub a).totalCents = issuedTotal env' a ↔ Announces env' a sub := by
  have same : (estimateNextInvoice env sub a).totalCents = (estimateNextInvoice env' sub a).totalCents := by
    rw [estimate_total, estimate_total]
    unfold monthlyCents requiredExtraStorageGb
    rw [catalog]
  rw [same, issuedTotal_eq env' stored]
  unfold Announces
  split
  · rw [← estimate_renewed_iff env']
    exact eq_comm
  · exact estimate_eq_zero_iff

end

/-! ### A scheduled downgrade -/

/-- A customer of the middle plan, paid until day 20031, who goes to the small one then, and uses five gigabytes. -/
def downgrading : Subscription :=
  { planCode := "pro", billingPeriod := .monthly, status := .active, trialStartedAt := none, trialEndsAt := some (midnight 20031)
    scheduledPlanCode := some "starter", scheduledBillingPeriod := some .monthly
    scheduledChangeEffectivePeriod := some (.day 20031), createdAt := 0, updatedAt := 0 }

def customer : Account :=
  { Account.created "acme" "Acme" 0 with subscription := some downgrading, resources := { storageBytes := 5 * 1073741824 } }

theorem announced_downgrade :
    (estimateNextInvoice (Env.seeded (midnight 20020)) downgrading customer).totalCents = issuedTotal (Env.seeded (midnight 20031)) customer :=
  (announced_iff (Env.seeded (midnight 20020)) (Env.seeded (midnight 20031)) rfl downgrading customer rfl).mpr (by decide +kernel)

/-- Plans with storage, as a catalog can have them. -/
def storagePlans : PlanCatalog where
  plans := [
    questionPlan "free" "Teszt" 0 3 7,
    { questionPlan "starter" "Starter" 890000 40 0 with includedStorageGb := 1 },
    { questionPlan "pro" "Pro" 1890000 150 0 with includedStorageGb := 10 }]
  hasFree := by decide

/-- Four gigabytes are charged that were not announced. -/
theorem announced_too_little :
    (estimateNextInvoice { Env.seeded (midnight 20020) with plans := storagePlans } downgrading customer).totalCents = 890000 ∧
      issuedTotal { Env.seeded (midnight 20031) with plans := storagePlans } customer = 892000 := by
  decide +kernel

end NyzRating.Billing.NextInvoice
