import NyzRating.Billing.DeletionDelay
import NyzRating.Billing.RenewalSafety

/-!
# A cancelled tenant restored by the platform

`restore_cancelled_tenant` switches the tenant on and closes the newest request. The lifecycle goes through every request
that is open, so the older ones decide whether the tenant stays.

Source: `admin/repository/platform_admin_repository.py`.
-/

namespace NyzRating.Billing.AdminRestore

open Program Runs Calendar Renewal

structure RestoredTenant where
  id : Nat
  slug : String
  name : String
  isActive : Bool
  deriving DecidableEq, Repr

/-- The row of the newest request is `restored`, whatever its stamps are. -/
def closeRequest (id : Nat) (a : Account) : Account :=
  (a.updateRequest id (fun _ => true) ({ · with status := .restored })).2

def restoreCancelledTenant : AccountM RestoredTenant := do
  let a ← get
  if a.tenant.isActive then throw (.valueError "tenant_already_active")
  match a.getLatestCancellationRequest with
  | none => throw (.valueError "tenant_not_cancelled")
  | some latest =>
    if latest.status ≠ .deactivationRequested then throw (.valueError "tenant_not_cancelled")
    modify fun a => closeRequest latest.id a.activate
    return { id := a.tenant.id, slug := a.tenant.slug, name := a.tenant.name, isActive := true }

/-- The restore raises, or the tenant is switched off and its newest request pending. -/
theorem restoreCancelledTenant_run (a : Account) :
    (∃ e, restoreCancelledTenant.run a = .error e a) ∨
      ∃ r latest, a.getLatestCancellationRequest = some latest ∧ latest.status = .deactivationRequested ∧
        a.tenant.isActive = false ∧ restoreCancelledTenant.run a = .ok r (closeRequest latest.id a.activate) := by
  simp only [restoreCancelledTenant, EStateM.run_bind, EStateM.run_get, run_ite]
  split
  · exact .inl ⟨_, rfl⟩
  · next off =>
    cases newest : a.getLatestCancellationRequest with
    | none => exact .inl ⟨_, rfl⟩
    | some latest =>
      simp only [run_ite, EStateM.run_bind, EStateM.run_modify]
      split
      · exact .inl ⟨_, rfl⟩
      · next pending => exact .inr ⟨_, latest, rfl, by simpa using pending, by simpa using off, rfl⟩

/-! ### Histories -/

/-- The calls of a history on one tenant. Anything else that is done to it leaves its requests alone. -/
inductive Op where
  | billing (op : Deletion.Op)
  | restoreCancelled
  | other (change : Account → Account)
      (same : ∀ a, (change a).cancellations = a.cancellations ∧ (change a).nextCancellationId = a.nextCancellationId)

def Op.isCancel : Op → Bool
  | .billing (.cancel ..) => true
  | _ => false

def step (s : Option Account) : Op → Option Account
  | .billing op => Deletion.step s op
  | .restoreCancelled => s.map (after restoreCancelledTenant)
  | .other change _ => s.map change

/-- The call deactivates the tenant, drops its schema or deletes it because of a cancellation. -/
def Strikes : Option Account → Op → Prop
  | some a, .billing (.lifecycle env) => (processCancellationLifecycle env a).log.calls ≠ []
  | some a, .billing (.sync env _) => ∃ r, restrictingRequest env a = some r ∧ r.deactivationDue env.today = true
  | _, _ => False

/-- No later call strikes the tenant, unless the subscription is cancelled again. -/
def SafeFrom (a : Account) : Prop :=
  ∀ later : List Op, (∀ op ∈ later, op.isCancel = false) → Always step (fun s op => ¬Strikes s op) (some a) later

/-! ### The requests -/

section
variable {a b : Account}

/-- Nothing of a request but its status changes. -/
theorem RequestsOk.closed (h : RequestsOk a) (id : Nat) : RequestsOk (closeRequest id a.activate) := by
  refine h.map rfl rfl (fun r => ?_) (fun r => ?_) fun r pending => ?_
  · split <;> rfl
  · split <;> rfl
  · split at pending
    · cases pending
    · next other =>
      rw [if_neg other]
      exact ⟨pending, rfl⟩

theorem NoneOpen.of_eq (h : NoneOpen a) (same : b.cancellations = a.cancellations) : NoneOpen b := by
  rw [noneOpen_iff, same]
  exact noneOpen_iff.mp h

theorem NoneOpen.kept (h : NoneOpen a) (kept : RequestsKept a b) : NoneOpen b := by
  obtain ⟨⟨f, rows, same⟩, -⟩ := kept
  rw [noneOpen_iff, rows]
  intro r' changed opened
  obtain ⟨r, mem, rfl⟩ := List.mem_map.mp changed
  obtain ⟨-, status, -, cleanup⟩ := same r
  exact noneOpen_iff.mp h r mem ⟨status ▸ opened.1, cleanup ▸ opened.2⟩

theorem NoneOpen.closed (h : NoneOpen a) (id : Nat) : NoneOpen (closeRequest id a.activate) := by
  rw [noneOpen_iff]
  intro r' changed opened
  obtain ⟨r, mem, rfl⟩ := Account.mem_updateRequest.mp changed
  split at opened
  · cases opened.1
  · exact noneOpen_iff.mp h r mem opened

/-- Closing a request by its number takes it, and only it, from the open ones. -/
theorem closed_open (ok : RequestsOk a) {latest : CancellationRequest} (mem : latest ∈ a.cancellations) (x : CancellationRequest) :
    (x ∈ (closeRequest latest.id a.activate).cancellations ∧ Account.isOpen x) ↔
      x ∈ a.cancellations ∧ Account.isOpen x ∧ x ≠ latest := by
  unfold closeRequest
  rw [Account.mem_updateRequest]
  constructor
  · rintro ⟨⟨old, old_mem, rfl⟩, opened⟩
    split at opened
    · cases opened.1
    · next other =>
      rw [if_neg other]
      refine ⟨old_mem, opened, fun same => other ?_⟩
      simp [same]
  · rintro ⟨x_mem, opened, other⟩
    refine ⟨⟨x, x_mem, if_neg fun same => other ?_⟩, opened⟩
    exact List.inj_on_of_nodup_map ok.ids x_mem mem (by simpa using same)

/-- What holds of the requests of a tenant, whatever stamps they get and whatever else is written. -/
structure RequestInvariant (P : Account → Prop) : Prop where
  same : ∀ a b, b.cancellations = a.cancellations → b.nextCancellationId = a.nextCancellationId → P a → P b
  kept : ∀ a b, RequestsKept a b → P a → P b
  restored : ∀ a t, P a → P (a.restoreLatestCancellationRequest t).2
  closed : ∀ a id, P a → P (closeRequest id a.activate)

namespace RequestInvariant

variable {P : Account → Prop} (hP : RequestInvariant P)
include hP

theorem rows : RowInvariant P where
  invoices a _ _ h := hP.same a _ rfl rfl h
  subscription a _ h := hP.same a _ rfl rfl h
  config _ _ a h := hP.same a _ rfl rfl h

theorem withdrawn (id : Nat) (t : Int) (h : P a) : P (a.deactivate.markCancellationDeactivated id t).2 :=
  hP.kept a.deactivate _ (markCancellationDeactivated_kept id t a.deactivate) (hP.same a _ rfl rfl h)

/-- A call keeps it, if a request that the call creates does. -/
theorem step {s : Option Account} {op : Op} (h : ∀ a ∈ s, P a)
    (created : op.isCancel = true → ∀ a utcnow slug user code text kbs effectiveAt, P a →
      P (a.createCancellationRequest utcnow slug user code text kbs .deactivationRequested (some effectiveAt) none).2) :
    ∀ b ∈ step s op, P b := by
  intro b ran
  cases op with
  | restoreCancelled =>
    obtain ⟨a, now, rfl⟩ := Option.map_eq_some_iff.mp ran
    rcases restoreCancelledTenant_run a with ⟨e, failed⟩ | ⟨r, latest, -, -, -, done⟩
    · rw [after_of_error failed]
      exact h a now
    · rw [after_of_ok done]
      exact hP.closed a latest.id (h a now)
  | other change same =>
    obtain ⟨a, now, rfl⟩ := Option.map_eq_some_iff.mp ran
    exact hP.same a _ (same a).1 (same a).2 (h a now)
  | billing op =>
    obtain ⟨a, now, run⟩ := Option.bind_eq_some_iff.mp ran
    have holds := h a now
    have ensured : ∀ env ctx, P (ensureSubscription env ctx a).2 := fun env ctx => hP.rows.ensure env ctx holds
    cases op with
    | cancel env ctx code text user =>
      obtain rfl := Option.some.inj run
      rcases cancelSubscription_cases env ctx a code text user with h | ⟨_, _, _, _, h⟩
      · rw [h]
        exact ensured env ctx
      · rw [h]
        exact created rfl _ _ _ _ _ _ _ _ (ensured env ctx)
    | restore env ctx =>
      obtain rfl := Option.some.inj run
      rcases restoreSubscriptionRenewal_cases env ctx a with ⟨r, h, -⟩ | ⟨e, h⟩ | ⟨r, h, -⟩
      · rw [after_of_ok h]
        exact ensured env ctx
      · rw [after_of_error h]
        exact ensured env ctx
      · rw [after_of_ok h]
        exact hP.restored _ env.now (ensured env ctx)
    | deleteAccess env ctx =>
      obtain rfl := Option.some.inj run
      rcases deleteServiceAccess_cases env ctx a with h | ⟨cancellation, -, h⟩
      · rw [h]
        exact ensured env ctx
      · rw [h]
        exact hP.withdrawn cancellation.id env.now (ensured env ctx)
    | sync env sub =>
      obtain rfl := Option.some.inj run
      exact hP.rows.synced (fun a h => hP.same a _ rfl rfl h) (fun a id t h => hP.withdrawn id t h) env sub holds
    | lifecycle env =>
      obtain ⟨a', same, kept⟩ := (lifecycle_kept env { account := some a } _).rows b run
      cases same
      exact hP.kept a b kept holds

end RequestInvariant

theorem requestInvariant_ok : RequestInvariant RequestsOk where
  same _ _ rows next h := h.of_eq rows next
  kept _ _ kept h := h.kept kept
  restored _ t h := h.restored t
  closed _ id h := RequestsOk.closed h id

theorem requestInvariant_noneOpen : RequestInvariant NoneOpen where
  same _ _ rows _ h := NoneOpen.of_eq h rows
  kept _ _ kept h := NoneOpen.kept h kept
  restored _ t h := h.restored t
  closed _ id h := NoneOpen.closed h id

theorem history_requestsOk {start : Option Account} {history : List Op} (h : ∀ a ∈ start, RequestsOk a) :
    ∀ a ∈ final step start history, RequestsOk a :=
  final_kept (fun s => ∀ a ∈ s, RequestsOk a) h fun _ _ h =>
    requestInvariant_ok.step h fun _ _ utcnow slug user code text kbs effectiveAt ok =>
      ok.created utcnow slug user code text kbs effectiveAt

/-! ### After the restore -/

/-- Nothing strikes a tenant without an open request. -/
theorem not_strikes_of_noneOpen {s : Option Account} (op : Op) (ok : ∀ a ∈ s, RequestsOk a) (h : ∀ a ∈ s, NoneOpen a) :
    ¬Strikes s op := by
  unfold Strikes
  split
  · next a env =>
    rw [processCancellationLifecycle_of_nil (h a rfl)]
    simp
  · next a env sub =>
    rintro ⟨r, restricting, -⟩
    obtain ⟨newest, restricts⟩ := Option.filter_eq_some_iff.mp restricting
    have mem := Lists.latestBy_mem newest
    have pending : r.status = .deactivationRequested := by
      simp only [CancellationRequest.restricts, Bool.and_eq_true, decide_eq_true_eq] at restricts
      exact restricts.1.1
    exact noneOpen_iff.mp (h a rfl) r mem ⟨pending, (ok a rfl).pending r mem pending⟩
  · exact id

theorem safeFrom_iff {a : Account} (ok : RequestsOk a) (env : Env) : SafeFrom a ↔ NoneOpen a := by
  constructor
  · intro safe
    rw [noneOpen_iff]
    intro r mem opened
    obtain ⟨now, acts⟩ := lifecycle_acts env mem opened (ok.dated r mem)
    have spared := safe [.billing (.lifecycle { env with now })] (by simp [Op.isCancel])
    exact spared.1 acts
  · intro none_open later quiet
    have allowed : Always step (fun _ op => op.isCancel = false) (some a) later := Always.of_forall fun op mem _ => quiet op mem
    refine Always.of_invariant (fun s => (∀ a ∈ s, RequestsOk a) ∧ ∀ a ∈ s, NoneOpen a) ⟨?_, ?_⟩ ?_ ?_ allowed
    · rintro _ ⟨⟩
      exact ok
    · rintro _ ⟨⟩
      exact none_open
    · intro s op h other
      have created (cancel : op.isCancel = true) : False := by simp [other] at cancel
      exact ⟨requestInvariant_ok.step h.1 fun cancel => (created cancel).elim,
        requestInvariant_noneOpen.step h.2 fun cancel => (created cancel).elim⟩
    · exact fun s op h _ => not_strikes_of_noneOpen op h.1 h.2

/-- After any history of a tenant, a restore that succeeds protects it from every later run, until it cancels again, if and
    only if exactly one request was open when it was called. -/
theorem admin_restore_safe_iff {start a t : Account} {history : List Op} {r : RestoredTenant} (fresh : start.cancellations = [])
    (reached : final step (some start) history = some a) (restored : restoreCancelledTenant.run a = .ok r t) :
    SafeFrom t ↔ a.listCancellationRequestsForLifecycle.length = 1 := by
  have ok : RequestsOk a := by
    refine history_requestsOk (fun b mem => ?_) a reached
    cases mem
    exact ⟨by simp [fresh], by simp [fresh], by simp [fresh], by simp [fresh]⟩
  rcases restoreCancelledTenant_run a with ⟨e, failed⟩ | ⟨r', latest, newest, pending, -, done⟩
  · rw [failed] at restored
    cases restored
  · rw [done] at restored
    cases restored
    have mem := Lists.latestBy_mem newest
    have opened : Account.isOpen latest := ⟨pending, ok.pending latest mem pending⟩
    rw [safeFrom_iff (RequestsOk.closed ok latest.id) (Env.seeded 0), one_open_iff ok mem opened, noneOpen_iff]
    constructor
    · intro none_open x x_mem x_open
      by_contra other
      have left := (closed_open ok mem x).mpr ⟨x_mem, x_open, other⟩
      exact none_open x left.1 left.2
    · intro only x x_mem x_open
      obtain ⟨old, -, other⟩ := (closed_open ok mem x).mp ⟨x_mem, x_open⟩
      exact other (only x old x_open)

end

/-! ### Cancelled twice -/

def cancelOn (day : Int) : Op := .billing (.cancel (Env.seeded (midnight day)) acme.snapshot "other" "" none)

/-- Access is withdrawn on day 20003. -/
def withdrawAccess : Op := .billing (.deleteAccess (Env.seeded (midnight 20003)) acme.snapshot)

/-- The account after a cancellation on each of the days and the withdrawal. -/
def withdrawnAfter (days : List Int) : Account := (final step (some acme) (days.map cancelOn ++ [withdrawAccess])).getD acme

def restoredAfter (days : List Int) : Account := after restoreCancelledTenant (withdrawnAfter days)

theorem admin_restore_safe_after_one : SafeFrom (restoredAfter [20001]) :=
  (@admin_restore_safe_iff acme (withdrawnAfter [20001]) _ [cancelOn 20001, withdrawAccess]
    { id := 1, slug := "acme", name := "Acme", isActive := true } rfl rfl rfl).mpr (by decide)

/-- The older request deactivates the restored tenant when it falls due. -/
theorem admin_restore_not_safe :
    ¬∀ (start a t : Account) (history : List Op) (r : RestoredTenant), start.cancellations = [] →
      final step (some start) history = some a → restoreCancelledTenant.run a = .ok r t → SafeFrom t := by
  intro h
  have safe : SafeFrom (restoredAfter [20001, 20002]) :=
    h acme (withdrawnAfter [20001, 20002]) _ [cancelOn 20001, cancelOn 20002, withdrawAccess] _ rfl rfl rfl
  have spared := safe [.billing (.lifecycle (Env.seeded (midnight 20020)))] (by simp [Op.isCancel])
  have strikes : (processCancellationLifecycle (Env.seeded (midnight 20020)) (restoredAfter [20001, 20002])).log.calls =
      [.deactivate] := by decide
  refine spared.1 fun nothing => ?_
  rw [strikes] at nothing
  cases nothing

end NyzRating.Billing.AdminRestore
