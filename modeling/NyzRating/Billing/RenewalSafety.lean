import NyzRating.Billing.Cancellation
import NyzRating.Billing.Catalog
import NyzRating.Lib.Run

/-!
# Histories of cancelling, restoring and the lifecycle

`cancel_subscription` adds a request whether or not one is pending, `restore_subscription_renewal` closes the
newest one, and the lifecycle walks all that are open. So a restored renewal protects the tenant exactly when
the restored request was the only open one.
-/

namespace NyzRating.Billing.Renewal

open Program Runs Calendar

/-- The calls of a history on one tenant. -/
inductive Op where
  | cancel (env : Env) (ctx : TenantContext) (reasonCode reasonText : String) (requestedByUserId : Option Nat)
  | restore (env : Env) (ctx : TenantContext)
  | lifecycle (env : Env)

def Op.isCancel : Op → Bool
  | .cancel .. => true
  | .restore .. | .lifecycle .. => false

def Op.run (a : Account) : Op → Option Account
  | .cancel env ctx code text user => some (after (cancelSubscription env ctx code text user) a)
  | .restore env ctx => some (after (restoreSubscriptionRenewal env ctx) a)
  | .lifecycle env => (processCancellationLifecycle env a).account

/-- The account of the tenant after a call; a deleted tenant has none any more. -/
def step (s : Option Account) (op : Op) : Option Account := s.bind op.run

/-- What a call of the lifecycle does to the tenant. -/
def calls : Option Account → Op → List LifecycleCall
  | some a, .lifecycle env => (processCancellationLifecycle env a).log.calls
  | _, _ => []

/-- No later run of the lifecycle deactivates the tenant, drops its schema or deletes it, unless the
    subscription is cancelled again. -/
def SafeFrom (a : Account) : Prop :=
  ∀ later : List Op, (∀ op ∈ later, op.isCancel = false) →
    Always step (fun s op => calls s op = []) (some a) later

/-! ### The requests of a history -/

/-- The requests that cancelling writes: numbered, dated, and open as long as they are pending. -/
structure RequestsOk (a : Account) : Prop where
  ids : (a.cancellations.map (·.id)).Nodup
  fresh : ∀ r ∈ a.cancellations, r.id < a.nextCancellationId
  dated : ∀ r ∈ a.cancellations, r.effectiveAt.isSome
  pending : ∀ r ∈ a.cancellations, r.status = .deactivationRequested → r.cleanupCompletedAt = none

theorem RequestsOk.of_eq {a b : Account} (h : RequestsOk a) (hc : b.cancellations = a.cancellations)
    (hn : b.nextCancellationId = a.nextCancellationId) : RequestsOk b := by
  constructor
  · rw [hc]
    exact h.ids
  · rw [hc, hn]
    exact h.fresh
  · rw [hc]
    exact h.dated
  · rw [hc]
    exact h.pending

/-- Changing rows in place keeps the requests well formed. -/
theorem RequestsOk.map {a b : Account} {f : CancellationRequest → CancellationRequest} (h : RequestsOk a)
    (hc : b.cancellations = a.cancellations.map f) (hn : b.nextCancellationId = a.nextCancellationId)
    (hid : ∀ r, (f r).id = r.id) (hdate : ∀ r, (f r).effectiveAt = r.effectiveAt)
    (hpend : ∀ r, (f r).status = .deactivationRequested → r.status = .deactivationRequested ∧
      (f r).cleanupCompletedAt = r.cleanupCompletedAt) : RequestsOk b := by
  constructor
  · rw [hc, List.map_map]
    simpa only [Function.comp_def, hid] using h.ids
  · rw [hc, hn]
    intro r' hr'
    obtain ⟨r, hr, rfl⟩ := List.mem_map.mp hr'
    rw [hid]
    exact h.fresh r hr
  · rw [hc]
    intro r' hr'
    obtain ⟨r, hr, rfl⟩ := List.mem_map.mp hr'
    rw [hdate]
    exact h.dated r hr
  · rw [hc]
    intro r' hr' hs
    obtain ⟨r, hr, rfl⟩ := List.mem_map.mp hr'
    obtain ⟨hs', hcl⟩ := hpend r hs
    rw [hcl]
    exact h.pending r hr hs'

theorem RequestsOk.kept {a b : Account} (h : RequestsOk a) (k : RequestsKept a b) : RequestsOk b := by
  obtain ⟨⟨f, hf, hk⟩, hn⟩ := k
  refine h.map hf hn (fun r => (hk r).1) (fun r => (hk r).2.2.1) fun r hs => ?_
  exact ⟨(hk r).2.1 ▸ hs, (hk r).2.2.2⟩

theorem RequestsOk.created {a : Account} (h : RequestsOk a) (utcnow : Int) (slug : String) (user : Option Nat)
    (code text : String) (kbs effectiveAt : Int) :
    RequestsOk (a.createCancellationRequest utcnow slug user code text kbs .deactivationRequested (some effectiveAt) none).2 := by
  constructor
  · simp only [Account.createCancellationRequest, List.map_append, List.map_cons, List.map_nil]
    refine List.nodup_append.mpr ⟨h.ids, List.nodup_singleton _, ?_⟩
    rintro i hi j hj rfl
    obtain ⟨r, hr, rfl⟩ := List.mem_map.mp hi
    have hlt := h.fresh r hr
    simp only [List.mem_singleton] at hj
    omega
  · intro r hr
    simp only [Account.createCancellationRequest, List.mem_append, List.mem_singleton] at hr
    rcases hr with hr | rfl
    · exact Nat.lt_succ_of_lt (h.fresh r hr)
    · exact Nat.lt_succ_self _
  · intro r hr
    simp only [Account.createCancellationRequest, List.mem_append, List.mem_singleton] at hr
    rcases hr with hr | rfl
    · exact h.dated r hr
    · rfl
  · intro r hr hs
    simp only [Account.createCancellationRequest, List.mem_append, List.mem_singleton] at hr
    rcases hr with hr | rfl
    · exact h.pending r hr hs
    · rfl

theorem RequestsOk.restored {a : Account} (h : RequestsOk a) (restoredAt : Int) :
    RequestsOk (a.restoreLatestCancellationRequest restoredAt).2 := by
  unfold Account.restoreLatestCancellationRequest
  split
  · exact h
  · next latest _ =>
    refine h.map rfl rfl (fun r => ?_) (fun r => ?_) fun r hs => ?_
    · split <;> rfl
    · split <;> rfl
    · split at hs
      · cases hs
      · next hc => rw [if_neg hc]; exact ⟨hs, rfl⟩

/-- Every call keeps the requests well formed. -/
theorem step_requestsOk {s : Option Account} (op : Op) (h : ∀ a ∈ s, RequestsOk a) : ∀ b ∈ step s op, RequestsOk b := by
  intro b hb
  obtain ⟨a, ha, hrun⟩ := Option.bind_eq_some_iff.mp hb
  have ok := h a ha
  have ensured : ∀ env ctx, RequestsOk (ensureSubscription env ctx a).2 := fun env ctx => ok.of_eq (by simp) (by simp)
  cases op with
  | cancel env ctx code text user =>
    obtain rfl := Option.some.inj hrun
    rcases cancelSubscription_cases env ctx a code text user with h | ⟨_, _, _, _, h⟩
    · rw [h]
      exact ensured env ctx
    · rw [h]
      exact (ensured env ctx).created ..
  | restore env ctx =>
    obtain rfl := Option.some.inj hrun
    rcases restoreSubscriptionRenewal_cases env ctx a with ⟨r, h, -⟩ | ⟨e, h⟩ | ⟨r, h, -⟩
    · rw [after_of_ok h]
      exact ensured env ctx
    · rw [after_of_error h]
      exact ensured env ctx
    · rw [after_of_ok h]
      exact (ensured env ctx).restored env.now
  | lifecycle env =>
    obtain ⟨a', ha', kept⟩ := (lifecycle_kept env { account := some a } _).rows b hrun
    cases ha'
    exact ok.kept kept

theorem history_requestsOk {start : Option Account} {history : List Op} (h : ∀ a ∈ start, RequestsOk a) :
    ∀ a ∈ final step start history, RequestsOk a :=
  final_kept (fun s => ∀ a ∈ s, RequestsOk a) h fun _ op hs => step_requestsOk op hs

/-! ### After a restored renewal -/

/-- No request of the tenant is open. -/
def NoneOpen (a : Account) : Prop := a.listCancellationRequestsForLifecycle = []

theorem noneOpen_iff {a : Account} : NoneOpen a ↔ ∀ r ∈ a.cancellations, ¬Account.isOpen r := by
  simp [NoneOpen, List.eq_nil_iff_forall_not_mem, Account.mem_listCancellationRequestsForLifecycle]

theorem NoneOpen.ensured {a : Account} (h : NoneOpen a) (env : Env) (ctx : TenantContext) :
    NoneOpen (ensureSubscription env ctx a).2 := by
  rw [noneOpen_iff, ensureSubscription_cancellations]
  exact noneOpen_iff.mp h

/-- Restoring opens nothing. -/
theorem NoneOpen.restored {a : Account} (h : NoneOpen a) (restoredAt : Int) :
    NoneOpen (a.restoreLatestCancellationRequest restoredAt).2 := by
  unfold Account.restoreLatestCancellationRequest
  split
  · exact h
  · rw [noneOpen_iff]
    intro r' hr' hopen
    obtain ⟨r, hr, rfl⟩ := Account.mem_updateRequest.mp hr'
    split at hopen
    · cases hopen.1
    · exact noneOpen_iff.mp h r hr hopen

/-- Without an open request, the calls other than cancelling open none. -/
theorem step_noneOpen {s : Option Account} {op : Op} (h : ∀ a ∈ s, NoneOpen a) (hop : op.isCancel = false) :
    ∀ b ∈ step s op, NoneOpen b := by
  intro b hb
  obtain ⟨a, ha, hrun⟩ := Option.bind_eq_some_iff.mp hb
  have none := h a ha
  cases op with
  | cancel => cases hop
  | restore env ctx =>
    cases hrun
    rcases restoreSubscriptionRenewal_cases env ctx a with ⟨r, h, -⟩ | ⟨e, h⟩ | ⟨r, h, -⟩
    · rw [after_of_ok h]
      exact none.ensured env ctx
    · rw [after_of_error h]
      exact none.ensured env ctx
    · rw [after_of_ok h]
      exact (none.ensured env ctx).restored env.now
  | lifecycle env =>
    rw [Op.run, processCancellationLifecycle_of_nil none] at hrun
    cases hrun
    exact none

theorem calls_of_noneOpen {s : Option Account} (op : Op) (h : ∀ a ∈ s, NoneOpen a) : calls s op = [] := by
  cases s with
  | none => rfl
  | some a =>
    cases op with
    | cancel => rfl
    | restore => rfl
    | lifecycle env => simp only [calls, processCancellationLifecycle_of_nil (h a rfl)]

theorem safeFrom_of_noneOpen {a : Account} (h : NoneOpen a) : SafeFrom a := by
  intro later hl
  have allowed : Always step (fun _ op => op.isCancel = false) (some a) later := Always.of_forall fun op hop _ => hl op hop
  exact Always.of_invariant (fun s => ∀ a ∈ s, NoneOpen a) (by rintro _ ⟨⟩; exact h)
    (fun _ _ hs hop => step_noneOpen hs hop) (fun _ op hs _ => calls_of_noneOpen op hs) allowed

/-- A dated open request is acted on by a later run of the lifecycle. -/
theorem noneOpen_of_safeFrom {a : Account} (ok : RequestsOk a) (env : Env) (h : SafeFrom a) : NoneOpen a := by
  rw [noneOpen_iff]
  intro r hr hopen
  obtain ⟨now, acts⟩ := lifecycle_acts env hr hopen (ok.dated r hr)
  have quiet := h [.lifecycle { env with now }] (by simp [Op.isCancel])
  exact acts quiet.1

/-- Closing the newest pending request takes it, and only it, from the open ones. -/
theorem restoreLatest_open {a : Account} (ok : RequestsOk a) {restoredAt : Int}
    (h : (a.restoreLatestCancellationRequest restoredAt).1 = true) :
    ∃ latest ∈ a.cancellations, Account.isOpen latest ∧
      ∀ x, (x ∈ (a.restoreLatestCancellationRequest restoredAt).2.cancellations ∧ Account.isOpen x) ↔
        (x ∈ a.cancellations ∧ Account.isOpen x ∧ x ≠ latest) := by
  unfold Account.restoreLatestCancellationRequest at h ⊢
  split at h
  · cases h
  · next latest hl =>
    have hmem := List.mem_filter.mp (Lists.latestBy_mem hl)
    have hpend : latest.status = .deactivationRequested := by simpa using hmem.2
    have same : ∀ r ∈ a.cancellations, r.id = latest.id → r = latest := fun r hr hid =>
      List.inj_on_of_nodup_map ok.ids hr hmem.1 hid
    obtain ⟨r, hr, hcond⟩ := List.any_eq_true.mp h
    simp only [Bool.and_eq_true, beq_iff_eq] at hcond
    have hdeact : latest.deactivatedAt.isNone := same r hr hcond.1 ▸ hcond.2
    refine ⟨latest, hmem.1, ⟨hpend, ok.pending latest hmem.1 hpend⟩, fun x => ?_⟩
    rw [Account.mem_updateRequest]
    constructor
    · rintro ⟨⟨old, hold, rfl⟩, hopen⟩
      split at hopen
      · cases hopen.1
      · next hc =>
        rw [if_neg hc]
        refine ⟨hold, hopen, fun heq => hc ?_⟩
        simp [heq, hdeact]
    · rintro ⟨hx, hopen, hne⟩
      refine ⟨⟨x, hx, if_neg fun hc => hne (same x hx ?_)⟩, hopen⟩
      simp only [Bool.and_eq_true, beq_iff_eq] at hc
      exact hc.1

/-- Among requests with distinct numbers, exactly one is open when `latest` is open and no other is. -/
theorem one_open_iff {a : Account} (ok : RequestsOk a) {latest : CancellationRequest} (hl : latest ∈ a.cancellations)
    (ho : Account.isOpen latest) :
    a.listCancellationRequestsForLifecycle.length = 1 ↔ ∀ x ∈ a.cancellations, Account.isOpen x → x = latest := by
  constructor
  · intro h x hx hxo
    obtain ⟨r, hr⟩ := List.length_eq_one_iff.mp h
    have mem := @Account.mem_listCancellationRequestsForLifecycle a
    simp only [hr, List.mem_singleton] at mem
    rw [mem.mpr ⟨hx, hxo⟩, mem.mpr ⟨hl, ho⟩]
  · intro h
    have nodup : (a.listCancellationRequestsForLifecycle).Nodup :=
      (List.perm_insertionSort _ _).nodup_iff.mpr (ok.ids.of_map.filter _)
    have all : ∀ x ∈ a.listCancellationRequestsForLifecycle, x = latest := fun x hx => by
      obtain ⟨hxm, hxo⟩ := Account.mem_listCancellationRequestsForLifecycle.mp hx
      exact h x hxm hxo
    rw [List.eq_replicate_iff.mpr ⟨rfl, all⟩, List.nodup_replicate] at nodup
    have pos := List.length_pos_of_mem (Account.mem_listCancellationRequestsForLifecycle.mpr ⟨hl, ho⟩)
    omega

/-- After any history of a tenant, a restore that reports `renewal_restored` protects the tenant from every later
    run of the lifecycle if and only if exactly one request was open when it was called. -/
theorem renewal_restored_safe_iff {start a t : Account} {history : List Op} {env : Env} {ctx : TenantContext}
    {r : CancellationResponse} (fresh : start.cancellations = [])
    (reached : final step (some start) history = some a)
    (restored : (restoreSubscriptionRenewal env ctx).run a = .ok r t) (status : r.status = .renewalRestored) :
    SafeFrom t ↔ a.listCancellationRequestsForLifecycle.length = 1 := by
  have ok : RequestsOk a := by
    refine history_requestsOk (fun b hb => ?_) a reached
    cases hb
    exact ⟨by simp [fresh], by simp [fresh], by simp [fresh], by simp [fresh]⟩
  have okb : RequestsOk (ensureSubscription env ctx a).2 := ok.of_eq (by simp) (by simp)
  rcases restoreSubscriptionRenewal_cases env ctx a with ⟨r', h, hs⟩ | ⟨e, h⟩ | ⟨r', h, hs⟩
  · rw [h] at restored
    cases restored
    rw [hs] at status
    cases status
  · rw [h] at restored
    cases restored
  · rw [h] at restored
    cases restored
    obtain ⟨latest, hl, ho, hopen⟩ := restoreLatest_open okb (hs status)
    rw [ensureSubscription_cancellations] at hl
    simp only [ensureSubscription_cancellations] at hopen
    rw [one_open_iff ok hl ho]
    constructor
    · intro safe x hx hxo
      by_contra hne
      exact noneOpen_iff.mp (noneOpen_of_safeFrom (okb.restored env.now) env safe) x
        ((hopen x).mpr ⟨hx, hxo, hne⟩).1 hxo
    · intro only
      refine safeFrom_of_noneOpen (noneOpen_iff.mpr fun x hx hxo => ?_)
      obtain ⟨hxa, -, hne⟩ := (hopen x).mp ⟨hx, hxo⟩
      exact hne (only x hxa hxo)

/-- A tenant created on day 20000. -/
def acme : Account := Account.created "acme" "Acme" (midnight 20000)

def cancelOn (day : Int) : Op := .cancel (Env.seeded (midnight day)) acme.snapshot "other" "" none

/-- The account after one cancellation on each of the days. -/
def cancelledOn (days : List Int) : Account := (final step (some acme) (days.map cancelOn)).getD acme

/-- The account when the renewal is restored on day 20003. -/
def restoredAfter (days : List Int) : Account :=
  after (restoreSubscriptionRenewal (Env.seeded (midnight 20003)) acme.snapshot) (cancelledOn days)

theorem renewal_restored_safe_after_one : SafeFrom (restoredAfter [20001]) :=
  (@renewal_restored_safe_iff acme (cancelledOn [20001]) _ [cancelOn 20001] _ acme.snapshot _ rfl rfl rfl rfl).mpr
    (by decide)

/-- Cancelled on two days and restored once, the tenant is deactivated when the older request falls due. -/
theorem renewal_restored_not_safe :
    ¬∀ (start a t : Account) (history : List Op) (env : Env) (ctx : TenantContext) (r : CancellationResponse),
      start.cancellations = [] → final step (some start) history = some a →
        (restoreSubscriptionRenewal env ctx).run a = .ok r t → r.status = .renewalRestored → SafeFrom t := by
  intro h
  have safe : SafeFrom (restoredAfter [20001, 20002]) :=
    h acme (cancelledOn [20001, 20002]) _ [cancelOn 20001, cancelOn 20002] (Env.seeded (midnight 20003)) acme.snapshot _
      rfl rfl rfl rfl
  have quiet := safe [.lifecycle (Env.seeded (midnight 20020))] (by simp [Op.isCancel])
  exact absurd quiet.1 (by decide)

end NyzRating.Billing.Renewal
