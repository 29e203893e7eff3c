import NyzRating.Billing.Catalog

/-!
# Running `sync_status` twice

`sync_status` stamps the row when it changes the status, and a debt issued before that stamp no longer counts as
overdue. So the second of two runs may take back what the first one decided.
-/

namespace NyzRating.Billing.Restriction

open Calendar Account

theorem status_of_openFailed {a : Account} {f : Invoice} (h : f ∈ a.openFailedInvoice) : f.status = .paymentFailed := by
  simp only [openFailedInvoice] at h
  split at h
  · next failed hf _ =>
    cases h
    simpa using (Option.filter_eq_some_iff.mp hf).2
  · next failed latest hf hl =>
    split at h
    · cases h
      simpa using (Option.filter_eq_some_iff.mp hf).2
    · cases h
      simpa using (Option.filter_eq_some_iff.mp hl).2
  · simpa using (Option.filter_eq_some_iff.mp h).2

/-- A candidate for the overdue debt is a failed invoice past its due day. -/
theorem overdueCandidate_spec {today : Int} {a : Account} {f : Invoice} (h : f ∈ a.overdueCandidate today) :
    f.status = .paymentFailed ∧ dateOf f.dueAt < today := by
  obtain ⟨hf, hp⟩ := Option.filter_eq_some_iff.mp h
  simp only [Bool.and_eq_true, decide_eq_true_eq] at hp
  exact ⟨status_of_openFailed hf, hp.2⟩

theorem overdueInvoice_mem {today : Int} {sub : Subscription} {a : Account} {f : Invoice} :
    f ∈ a.overdueInvoice today sub ↔ f ∈ a.overdueCandidate today ∧ sub.updatedAt ≤ f.issuedAt := by
  simp [overdueInvoice, Option.filter_eq_some_iff]

/-- The status decided: restricted by a cancellation or by an overdue debt, else by the plan alone. -/
theorem nextStatus_eq (env : Env) (sub : Subscription) (a : Account) :
    nextStatus env sub a =
      if (restrictingRequest env a).isSome ∨ (a.overdueInvoice env.today sub).isSome then .restricted
      else resolve env.now sub.toSubscriptionData none := by
  unfold nextStatus
  by_cases hq : (restrictingRequest env a).isSome
  · simp [hq]
  · cases ho : a.overdueInvoice env.today sub with
    | none => simp [hq]
    | some f =>
      obtain ⟨hs, hd⟩ := overdueCandidate_spec (overdueInvoice_mem.mp ho).1
      have past : dateOf f.dueAt < dateOf env.now := hd
      simp [hq, resolve, hs, past]

/-! ### What one run leaves -/

section
variable (env : Env) (sub : Subscription) (a : Account)

/-- The account before the upsert of `sync_status`. -/
def settled : Account :=
  let afterCancellation := ((restrictingRequest env a).elim a (syncCancellation env · a))
  if (a.overdueInvoice env.today sub).any (fun i => env.today ≥ dateOf i.dueAt + paymentFailureDeactivationDays) then
    afterCancellation.deactivate
  else afterCancellation

theorem syncStatus_eq :
    syncStatus env sub a =
      if nextStatus env sub a = sub.status then (sub, settled env sub a)
      else (settled env sub a).upsertSubscription env.utcnow
        { sub.toSubscriptionData with status := nextStatus env sub a } := rfl

theorem syncStatus_status : (syncStatus env sub a).1.status = nextStatus env sub a := by
  rw [syncStatus_eq]
  split
  · next h => exact h.symm
  · unfold upsertSubscription
    split <;> rfl

theorem syncStatus_updatedAt :
    (syncStatus env sub a).1.updatedAt = if nextStatus env sub a = sub.status then sub.updatedAt else env.utcnow := by
  rw [syncStatus_eq]
  split
  · rfl
  · unfold upsertSubscription
    split <;> rfl

/-- The plan decides the second time as it did the first time. -/
theorem syncStatus_resolve (now : Int) :
    resolve now (syncStatus env sub a).1.toSubscriptionData none = resolve now sub.toSubscriptionData none := by
  rw [syncStatus_eq]
  split
  · rfl
  · unfold upsertSubscription
    split <;> rfl

theorem settled_invoices : (settled env sub a).invoices = a.invoices := by
  have cancelled : ((restrictingRequest env a).elim a (syncCancellation env · a)).invoices = a.invoices := by
    cases restrictingRequest env a with
    | none => rfl
    | some r =>
      simp only [Option.elim_some, syncCancellation]
      split <;> rfl
  simp only [settled]
  split
  · exact cancelled
  · exact cancelled

theorem syncStatus_invoices : (syncStatus env sub a).2.invoices = a.invoices := by
  rw [syncStatus_eq]
  split
  · exact settled_invoices env sub a
  · exact settled_invoices env sub a

end

section
variable (env : Env) (sub : Subscription) (a : Account)

theorem settled_subscription : (settled env sub a).subscription = a.subscription := by
  have cancelled : ((restrictingRequest env a).elim a (syncCancellation env · a)).subscription = a.subscription := by
    cases restrictingRequest env a with
    | none => rfl
    | some r =>
      simp only [Option.elim_some, syncCancellation]
      split <;> rfl
  simp only [settled]
  split
  · exact cancelled
  · exact cancelled

/-- The synchronisation writes the status, and the time of the write. -/
theorem syncStatus_subscription (hs : a.subscription = some sub) :
    ∃ updatedAt, (syncStatus env sub a).1 = { sub with status := nextStatus env sub a, updatedAt } ∧
      (syncStatus env sub a).2.subscription = some (syncStatus env sub a).1 := by
  rw [syncStatus_eq]
  split
  · next same =>
    rw [same, settled_subscription]
    exact ⟨sub.updatedAt, rfl, hs⟩
  · unfold upsertSubscription
    rw [settled_subscription, hs]
    exact ⟨env.utcnow, rfl, rfl⟩

end

/-- The overdue candidate is read off the invoices alone. -/
theorem overdueCandidate_congr {a b : Account} (today : Int) (h : b.invoices = a.invoices) :
    b.overdueCandidate today = a.overdueCandidate today := by
  simp only [overdueCandidate, openFailedInvoice, paidAfterFailed, getLatestInvoiceForType, h]

theorem restrictingRequest_eq_some {env : Env} {a : Account} {r : CancellationRequest} :
    restrictingRequest env a = some r ↔ a.getLatestCancellationRequest = some r ∧ r.restricts env.now := by
  simp [restrictingRequest, Option.filter_eq_some_iff]

theorem syncStatus_latest (env : Env) (sub : Subscription) (a : Account) :
    (syncStatus env sub a).2.getLatestCancellationRequest =
      ((restrictingRequest env a).elim a (syncCancellation env · a)).getLatestCancellationRequest := by
  rw [syncStatus_eq]
  simp only [settled]
  split <;> split <;> rfl

/-- A request restricts after the run exactly if it did before and its deactivation day had not come. -/
theorem restrictingRequest_syncStatus (env : Env) (sub : Subscription) (a : Account) :
    (restrictingRequest env (syncStatus env sub a).2).isSome ↔
      ∃ r ∈ restrictingRequest env a, r.deactivationDue env.today = false := by
  cases hr : restrictingRequest env a with
  | none =>
    have latest : (syncStatus env sub a).2.getLatestCancellationRequest = a.getLatestCancellationRequest := by
      rw [syncStatus_latest, hr, Option.elim_none]
    simp only [restrictingRequest] at hr
    simp [restrictingRequest, latest, hr]
  | some r =>
    obtain ⟨hl, hres⟩ := restrictingRequest_eq_some.mp hr
    have latest := syncStatus_latest env sub a
    rw [hr, Option.elim_some, syncCancellation] at latest
    by_cases hd : r.deactivationDue env.today
    · have hnone : r.deactivatedAt = none := by
        simp only [CancellationRequest.restricts, Bool.and_eq_true, Option.isNone_iff_eq_none] at hres
        exact hres.1.2
      rw [if_pos hd, getLatestCancellationRequest_markDeactivated a.deactivate hl hnone] at latest
      simp [restrictingRequest, latest, CancellationRequest.restricts, hd]
    · rw [if_neg hd, hl] at latest
      simp [restrictingRequest, latest, hres, hd]

/-! ### The second run -/

/-- The second run, from `b`, decides as the first one did. -/
def StableAfter (env : Env) (sub : Subscription) (a b : Account) : Prop :=
  (syncStatus env (syncStatus env sub a).1 b).1.status = (syncStatus env sub a).1.status

/-- The overdue debt, if any, was issued no earlier than the stamp `t` of the row. -/
def Counts (env : Env) (a : Account) (t : Int) : Prop := ∃ f ∈ a.overdueCandidate env.today, t ≤ f.issuedAt

/-- The stamp of the first run turns the judgement on the debt `f` around: a debt that counted is now older than
    the row, or one that was older than the row is not any more. -/
def StampFlips (env : Env) (sub : Subscription) (f : Invoice) : Prop :=
  (sub.updatedAt ≤ f.issuedAt ∧ f.issuedAt < env.utcnow ∧ sub.status ≠ .restricted) ∨
  (f.issuedAt < sub.updatedAt ∧ env.utcnow ≤ f.issuedAt ∧ sub.status ≠ resolve env.now sub.toSubscriptionData none)

/-- When the second run agrees, if nothing but the subscription row has changed. -/
def RowStable (env : Env) (sub : Subscription) (a : Account) : Prop :=
  resolve env.now sub.toSubscriptionData none = .restricted ∨ (restrictingRequest env a).isSome ∨
    ∀ f ∈ a.overdueCandidate env.today, ¬StampFlips env sub f

/-- When the second run agrees, on everything the first run left: past its deactivation day the request was
    marked, and no longer restricts. -/
def AccountStable (env : Env) (sub : Subscription) (a : Account) : Prop :=
  resolve env.now sub.toSubscriptionData none = .restricted ∨
    match restrictingRequest env a with
    | none => ∀ f ∈ a.overdueCandidate env.today, ¬StampFlips env sub f
    | some r =>
      r.deactivationDue env.today = false ∨
        Counts env a (if sub.status = .restricted then sub.updatedAt else env.utcnow)

theorem ite_eq_ite_iff {α : Type} {x y : α} (h : x ≠ y) (P Q : Prop) [Decidable P] [Decidable Q] :
    ((if P then x else y) = if Q then x else y) ↔ (P ↔ Q) := by
  by_cases hP : P <;> by_cases hQ : Q <;> simp [hP, hQ, h, h.symm]

theorem nextStatus_eq_counts (env : Env) (sub : Subscription) (a : Account) [Decidable (Counts env a sub.updatedAt)] :
    nextStatus env sub a =
      if (restrictingRequest env a).isSome ∨ Counts env a sub.updatedAt then .restricted
      else resolve env.now sub.toSubscriptionData none := by
  rw [nextStatus_eq]
  have same : (a.overdueInvoice env.today sub).isSome ↔ Counts env a sub.updatedAt := by
    rw [Option.isSome_iff_exists]
    exact exists_congr fun f => overdueInvoice_mem
  simp only [same]

theorem stableAfter_iff {env : Env} {sub : Subscription} {a b : Account} (hi : b.invoices = a.invoices) :
    StableAfter env sub a b ↔ resolve env.now sub.toSubscriptionData none = .restricted ∨
      ((restrictingRequest env b).isSome ∨ Counts env a (syncStatus env sub a).1.updatedAt ↔
        (restrictingRequest env a).isSome ∨ Counts env a sub.updatedAt) := by
  classical
  have second : ∀ t, Counts env b t ↔ Counts env a t := fun t => by
    unfold Counts
    rw [overdueCandidate_congr env.today hi]
  unfold StableAfter
  rw [syncStatus_status, syncStatus_status, nextStatus_eq_counts env sub a, nextStatus_eq_counts, syncStatus_resolve]
  simp only [second]
  by_cases hb : resolve env.now sub.toSubscriptionData none = .restricted
  · simp [hb]
  · rw [ite_eq_ite_iff (Ne.symm hb)]
    simp [hb]

/-- Without a restricting request, the stamp matters only if it turns the judgement around. -/
theorem counts_stamp_iff {env : Env} {sub : Subscription} {a : Account} (hq : restrictingRequest env a = none) :
    (Counts env a (syncStatus env sub a).1.updatedAt ↔ Counts env a sub.updatedAt) ↔
      ∀ f ∈ a.overdueCandidate env.today, ¬StampFlips env sub f := by
  classical
  rw [syncStatus_updatedAt, nextStatus_eq_counts]
  simp only [hq, Option.isSome_none, Bool.false_eq_true, false_or]
  cases ho : a.overdueCandidate env.today with
  | none => simp [Counts, ho]
  | some f =>
    simp only [Counts, ho, Option.mem_def, Option.some.injEq, exists_eq_left', forall_eq', StampFlips]
    by_cases hlt : sub.updatedAt ≤ f.issuedAt
    · by_cases hs : sub.status = .restricted
      · simp [hlt, hs]
      · simp [hlt, hs, Ne.symm hs]
    · by_cases hs : resolve env.now sub.toSubscriptionData none = sub.status
      · simp [hlt, hs]
      · have older : f.issuedAt < sub.updatedAt := by omega
        simp [hlt, hs, Ne.symm hs, older]

/-- With the deactivation day of the request come, the first run restricts, so only the stamp of that decides. -/
theorem counts_stamp_of_restricting {env : Env} {sub : Subscription} {a : Account}
    (hq : (restrictingRequest env a).isSome) :
    Counts env a (syncStatus env sub a).1.updatedAt ↔
      Counts env a (if sub.status = .restricted then sub.updatedAt else env.utcnow) := by
  classical
  rw [syncStatus_updatedAt, nextStatus_eq_counts]
  simp only [hq, true_or, if_true, eq_comm]

/-- Running `sync_status` again gives the status of the first run exactly under these conditions, whether only the
    subscription row is as the first run left it, or the tenant and its cancellation request too. -/
theorem sync_status_stable_iff (env : Env) (sub : Subscription) (a : Account) :
    (StableAfter env sub a { a with subscription := some (syncStatus env sub a).1 } ↔ RowStable env sub a) ∧
    (StableAfter env sub a (syncStatus env sub a).2 ↔ AccountStable env sub a) := by
  constructor
  · rw [stableAfter_iff (by rfl)]
    unfold RowStable
    refine or_congr_right ?_
    have same : restrictingRequest env { a with subscription := some (syncStatus env sub a).1 } = restrictingRequest env a := rfl
    rw [same]
    cases hq : restrictingRequest env a with
    | none =>
      simp only [Option.isSome_none, Bool.false_eq_true, false_or]
      exact counts_stamp_iff hq
    | some r => simp
  · rw [stableAfter_iff (syncStatus_invoices env sub a)]
    unfold AccountStable
    refine or_congr_right ?_
    rw [restrictingRequest_syncStatus]
    cases hq : restrictingRequest env a with
    | none =>
      simp only [Option.not_mem_none, false_and, exists_false, Option.isSome_none, Bool.false_eq_true, false_or]
      exact counts_stamp_iff hq
    | some r =>
      rw [counts_stamp_of_restricting (by simp [hq])]
      simp

/-- A tenant on a paid plan whose payment failed on day 20031. -/
def unpaid : Account :=
  { Account.created "acme" "Acme" (midnight 20000) with
    subscription := some
      { planCode := "starter", billingPeriod := .monthly, status := .active, trialStartedAt := none
        trialEndsAt := some (midnight 20031), createdAt := midnight 20000, updatedAt := midnight 20000 }
    invoices := [
      { id := 1, invoiceType := .monthlySubscriptionFailed, periodKey := .date 20031, status := .paymentFailed
        totalCents := 890000, paymentMethod := "auto_retry_failed", description := "Starter havi díjbekérő", lines := []
        issuedAt := midnight 20031, dueAt := midnight 20031 }]
    nextInvoiceId := 2 }

/-- The day after, the first run restricts the tenant and the second one lifts the restriction. -/
theorem restriction_not_stable :
    ¬∀ (env : Env) (sub : Subscription) (a : Account),
      StableAfter env sub a { a with subscription := some (syncStatus env sub a).1 } := by
  intro h
  have stable := h (Env.seeded (midnight 20032)) (ensureSubscription (Env.seeded 0) unpaid.snapshot unpaid).1 unpaid
  revert stable
  unfold StableAfter
  decide

end NyzRating.Billing.Restriction
