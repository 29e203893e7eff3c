import NyzRating.Billing.Cancellation
import NyzRating.Billing.Catalog
import NyzRating.Billing.Settlement
import NyzRating.Lib.Run

/-!
# Live tenants and the deletion of tenants

A deactivation that a cancellation caused is recorded twice, in the flag of the tenant and in the request. The
lifecycle deletes a tenant by the request alone. The two records agree until a settlement switches the tenant on
again, which leaves the request as it is.
-/

namespace NyzRating.Billing.LiveTenant

open Program Runs Calendar

/-- The calls of a history on one tenant. -/
inductive Op where
  | cancel (env : Env) (ctx : TenantContext) (reasonCode reasonText : String) (requestedByUserId : Option Nat)
  | deleteAccess (env : Env) (ctx : TenantContext)
  | settle (env : Env) (ctx : TenantContext)
  | restore (env : Env) (ctx : TenantContext)
  | lifecycle (env : Env)

def Op.run (a : Account) : Op → Option Account
  | .cancel env ctx code text user => some (after (cancelSubscription env ctx code text user) a)
  | .deleteAccess env ctx => some (after (deleteServiceAccess env ctx) a)
  | .settle env ctx => some (after (settleSubscription env ctx) a)
  | .restore env ctx => some (after (restoreSubscriptionRenewal env ctx) a)
  | .lifecycle env => (processCancellationLifecycle env a).account

/-- The account of the tenant after a call; a deleted tenant has none any more. -/
def step (s : Option Account) (op : Op) : Option Account := s.bind op.run

/-- What a call of the lifecycle does to the tenant. -/
def calls : Option Account → Op → List LifecycleCall
  | some a, .lifecycle env => (processCancellationLifecycle env a).log.calls
  | _, _ => []

/-- The call deletes neither schema nor row of a tenant that is active at that moment. -/
def Spared (s : Option Account) (op : Op) : Prop := ∀ c ∈ calls s op, c.hitsLive = false

instance (s : Option Account) (op : Op) : Decidable (Spared s op) :=
  inferInstanceAs (Decidable (∀ c ∈ calls s op, c.hitsLive = false))

/-! ### The two records of a deactivation -/

/-- No open request records a deactivation. -/
def NoWithdrawn (a : Account) : Prop := ∀ r ∈ a.cancellations, Account.isOpen r → r.deactivatedAt = none

instance : DecidablePred NoWithdrawn := fun a =>
  inferInstanceAs (Decidable (∀ r ∈ a.cancellations, Account.isOpen r → r.deactivatedAt = none))

/-- The tenant of an open request that records a deactivation is inactive. -/
def Paired (a : Account) : Prop :=
  ∀ r ∈ a.cancellations, Account.isOpen r → r.deactivatedAt.isSome → a.tenant.isActive = false

theorem Paired.of_inactive {a : Account} (h : a.tenant.isActive = false) : Paired a := fun _ _ _ _ => h

theorem NoWithdrawn.paired {a : Account} (h : NoWithdrawn a) : Paired a := by
  intro r hr ho hd
  rw [h r hr ho] at hd
  cases hd

theorem rowInvariant_noWithdrawn : RowInvariant NoWithdrawn := ⟨fun _ _ _ h => h, fun _ _ h => h, fun _ _ _ h => h⟩

theorem rowInvariant_paired : RowInvariant Paired := ⟨fun _ _ _ h => h, fun _ _ h => h, fun _ _ _ h => h⟩

/-- Rows changed in place, none of them opened and no deactivation recorded. -/
theorem Paired.map {a b : Account} {f : CancellationRequest → CancellationRequest} (h : Paired a)
    (hc : b.cancellations = a.cancellations.map f) (ht : b.tenant = a.tenant)
    (hf : ∀ r, Account.isOpen (f r) → Account.isOpen r ∧ (f r).deactivatedAt = r.deactivatedAt) : Paired b := by
  intro r' hr' ho hd
  rw [hc] at hr'
  obtain ⟨r, hr, rfl⟩ := List.mem_map.mp hr'
  obtain ⟨hro, hrd⟩ := hf r ho
  rw [ht]
  exact h r hr hro (hrd ▸ hd)

theorem Paired.created {a : Account} (h : Paired a) (utcnow : Int) (slug : String) (user : Option Nat)
    (code text : String) (kbs effectiveAt : Int) :
    Paired (a.createCancellationRequest utcnow slug user code text kbs .deactivationRequested (some effectiveAt) none).2 := by
  intro r hr ho hd
  simp only [Account.createCancellationRequest, List.mem_append, List.mem_singleton] at hr
  rcases hr with hr | rfl
  · exact h r hr ho hd
  · cases hd

theorem Paired.restored {a : Account} (h : Paired a) (restoredAt : Int) :
    Paired (a.restoreLatestCancellationRequest restoredAt).2 := by
  unfold Account.restoreLatestCancellationRequest
  split
  · exact h
  · refine h.map rfl rfl fun r ho => ?_
    split at ho
    · cases ho.1
    · next hc =>
      rw [if_neg hc]
      exact ⟨ho, rfl⟩

/-- A notice opens no request. -/
theorem Paired.noticed {a : Account} (h : Paired a) {id : Nat} {guard : CancellationRequest → Bool}
    {set : CancellationRequest → CancellationRequest}
    (hs : ∀ r, (set r).status = r.status ∧ (set r).cleanupCompletedAt = r.cleanupCompletedAt ∧
      (set r).deactivatedAt = r.deactivatedAt) : Paired (Account.updateRequest id guard set a).2 := by
  refine h.map rfl rfl fun r ho => ?_
  obtain ⟨hst, hcl, hde⟩ := hs r
  split at ho
  · next hc =>
    rw [if_pos hc]
    exact ⟨⟨hst ▸ ho.1, hcl ▸ ho.2⟩, hde⟩
  · next hc =>
    rw [if_neg hc]
    exact ⟨ho, rfl⟩

/-- The lifecycle records a deactivation only with the flag switched off. -/
theorem lifecycleInvariant_paired : LifecycleInvariant Paired where
  twoDays _ _ _ h := h.noticed fun _ => ⟨rfl, rfl, rfl⟩
  oneDay _ _ _ h := h.noticed fun _ => ⟨rfl, rfl, rfl⟩
  expired _ _ _ h := h.noticed fun _ => ⟨rfl, rfl, rfl⟩
  withdrawn _ _ _ _ := .of_inactive rfl

/-- So does the synchronisation of the status. -/
theorem syncStatus_paired (env : Env) (sub : Subscription) {a : Account} (h : Paired a) :
    Paired (syncStatus env sub a).2 :=
  rowInvariant_paired.synced (fun _ _ => .of_inactive rfl) (fun _ _ _ _ => .of_inactive rfl) env sub h

/-! ### Runs -/

/-- A settlement that would switch the tenant on finds no open request that records a deactivation. -/
def Allowed : Option Account → Op → Prop
  | some a, .settle env ctx => settlePaid env ctx a = true → ctx.active = false → NoWithdrawn a
  | _, _ => True

instance : ∀ (s : Option Account) (op : Op), Decidable (Allowed s op)
  | some a, .settle env ctx =>
    inferInstanceAs (Decidable (settlePaid env ctx a = true → ctx.active = false → NoWithdrawn a))
  | some _, .cancel .. | some _, .deleteAccess .. | some _, .restore .. | some _, .lifecycle _ | none, _ => .isTrue trivial

theorem settle_paired {env : Env} {ctx : TenantContext} {a : Account} (h : Paired a)
    (allowed : Allowed (some a) (.settle env ctx)) : Paired (after (settleSubscription env ctx) a) := by
  by_cases switched : settlePaid env ctx a = true ∧ ctx.active = false
  · have clean : NoWithdrawn a := allowed switched.1 switched.2
    exact rowInvariant_noWithdrawn.settle env ctx (fun _ _ _ h => h) (fun sub _ h => syncStatus_paired env sub h.paired)
      (fun _ h => h.paired) clean
  · refine rowInvariant_paired.settle env ctx (fun paid inactive => ?_) (fun sub _ h => syncStatus_paired env sub h)
      (fun _ h => h) h
    exact absurd ⟨paid, inactive⟩ switched

/-- Every allowed call keeps the two records in agreement. -/
theorem step_paired {s : Option Account} {op : Op} (h : ∀ a ∈ s, Paired a) (allowed : Allowed s op) :
    ∀ b ∈ step s op, Paired b := by
  intro b hb
  obtain ⟨a, ha, hrun⟩ := Option.bind_eq_some_iff.mp hb
  have paired := h a ha
  have ensured : ∀ env ctx, Paired (ensureSubscription env ctx a).2 := fun env ctx =>
    rowInvariant_paired.ensure env ctx paired
  cases op with
  | cancel env ctx code text user =>
    obtain rfl := Option.some.inj hrun
    rcases cancelSubscription_cases env ctx a code text user with h | ⟨_, _, _, _, h⟩
    · rw [h]
      exact ensured env ctx
    · rw [h]
      exact (ensured env ctx).created _ _ _ _ _ _ _
  | deleteAccess env ctx =>
    obtain rfl := Option.some.inj hrun
    rcases deleteServiceAccess_cases env ctx a with h | ⟨_, -, h⟩
    · rw [h]
      exact ensured env ctx
    · rw [h]
      exact .of_inactive rfl
  | settle env ctx =>
    obtain rfl := Option.some.inj hrun
    cases ha
    exact settle_paired paired allowed
  | restore env ctx =>
    obtain rfl := Option.some.inj hrun
    rcases restoreSubscriptionRenewal_cases env ctx a with ⟨r, h, -⟩ | ⟨e, h⟩ | ⟨r, h, -⟩
    · rw [after_of_ok h]
      exact ensured env ctx
    · rw [after_of_error h]
      exact ensured env ctx
    · rw [after_of_ok h]
      exact (ensured env ctx).restored env.now
  | lifecycle env => exact lifecycleInvariant_paired.lifecycle env paired b hrun

/-- While the records agree, the lifecycle deletes inactive tenants only. -/
theorem spared_of_paired {s : Option Account} {op : Op} (h : ∀ a ∈ s, Paired a) : Spared s op := by
  unfold Spared calls
  split
  · next a env =>
    refine lifecycle_calls (fun c => c.hitsLive = false) env _ rfl (fun _ hc => nomatch hc) fun row hrow d hd _ live hl => ?_
    obtain ⟨hmem, hopen⟩ := Account.mem_listCancellationRequestsForLifecycle.mp hrow
    have dead : live = false := hl (by rintro _ ⟨⟩; exact h a rfl row hmem hopen (Option.isSome_iff_exists.mpr ⟨d, hd⟩))
    exact ⟨dead, dead⟩
  · simp

/-- In every history of a tenant in which no settlement switches it on over a request that withdrew its access,
    the lifecycle never deletes anything of it while it is active. -/
theorem live_tenant_spared {start : Account} {history : List Op} (fresh : start.cancellations = [])
    (h : Always step Allowed (some start) history) : Always step Spared (some start) history := by
  refine Always.of_invariant (fun s => ∀ a ∈ s, Paired a) ?_ (fun _ _ hs ha => step_paired hs ha)
    (fun _ _ hs _ => spared_of_paired hs) h
  rintro _ ⟨⟩ r hr
  simp [fresh] at hr

/-- A tenant created on day 20000. -/
def acme : Account := Account.created "acme" "Acme" (midnight 20000)

def on (day : Int) : Env := Env.seeded (midnight day)

/-- Cancelled on day 20001. -/
def cancelled : Op := .cancel (on 20001) acme.snapshot "other" "" none

/-- Access is withdrawn on day 20002. -/
def withdrawn : Op := .deleteAccess (on 20002) acme.snapshot

/-- The owner of an inactive tenant settles. -/
def settledOn (day : Int) : Op := .settle (on day) { acme.snapshot with isActive := some false }

/-- A settlement before the access is withdrawn does no harm: the lifecycle of day 20009 deletes an inactive
    tenant. -/
theorem live_tenant_spared_when_withdrawn_last :
    Always step Spared (some acme) [cancelled, settledOn 20002, withdrawn, .lifecycle (on 20009)] :=
  live_tenant_spared rfl (by decide)

/-- Access is withdrawn, a settlement on day 20003 switches the tenant on again, and the lifecycle of day 20009
    drops its schema and deletes it. -/
theorem live_tenant_not_spared :
    ¬∀ (start : Account) (history : List Op), start.cancellations = [] → Always step Spared (some start) history := by
  intro h
  have spared := h acme [cancelled, withdrawn, settledOn 20003, .lifecycle (on 20009)] rfl
  exact absurd spared (by decide)

end NyzRating.Billing.LiveTenant
