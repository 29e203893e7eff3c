import Mathlib.Data.List.Nodup
import NyzRating.Events.Outbox
import NyzRating.Lib.Run

/-!
# Events that a live worker holds

A worker claims a batch of events and runs their handlers one after another. Its claim on an event ends for the others
when the lease has run out, or when the lock is stale; a heartbeat renews the lease of the event at hand only, and no lock.
-/

namespace NyzRating.Events.Lease

open Runs

/-! ### Workers -/

/-- A handler at work, and when it last gave a sign of life. -/
structure Running where
  item : OutboxWorkItem
  startedAt : Int
  beatAt : Int
  deriving DecidableEq, Repr

structure WorkerState where
  worker : OutboxWorker
  alive : Bool := true
  waiting : List OutboxWorkItem := []
  running : Option Running := none
  deriving DecidableEq, Repr

/-- The events that the worker has claimed and not yet marked. -/
def WorkerState.held (v : WorkerState) : List Nat := (v.running.toList.map (·.item) ++ v.waiting).map (·.id)

structure State where
  rows : List OutboxRow
  nextId : Nat
  workers : List WorkerState
  clock : Int
  deriving DecidableEq, Repr

inductive Action where
  /-- `claim_next_batch` of `process_batch`; other transactions have these rows locked. -/
  | claim (locked : List Nat)
  | start
  /-- A heartbeat for an item, perhaps one that the worker has finished with. -/
  | heartbeat (item : OutboxWorkItem)
  /-- The handler has ended, or has run into its timeout: `mark_processed`, or with an error `mark_failed`. -/
  | finish (error : Option String)
  | crash

inductive Op where
  | append (now : Int) (eventType : String) (idempotencyKey : Option String)
  | requeue (now : Int) (eventId : Nat)
  | act (now : Int) (i : Nat) (action : Action)

def Op.now : Op → Int
  | append now _ _ | requeue now _ | act now _ _ => now

def WorkerState.claim (v : WorkerState) (now : Int) (locked : List Nat) (rows : List OutboxRow) :
    List OutboxWorkItem × List OutboxRow :=
  claimNextBatch v.worker.batchSize v.worker.staleLockAfterSec v.worker.leaseSeconds v.worker.lockOwner now locked rows

def WorkerState.mark (v : WorkerState) (eventId : Nat) (error : Option String) (now : Int) (rows : List OutboxRow) :
    List OutboxRow :=
  match error with
  | none => markProcessed eventId now rows
  | some error => markFailed eventId error v.worker.maxRetries v.worker.retryDelaySeconds now rows

/-- What a live worker does to the rows and to itself, where it can act so. -/
def WorkerState.act (v : WorkerState) (now : Int) (rows : List OutboxRow) : Action → Option (List OutboxRow × WorkerState)
  | .claim locked =>
    if v.running.isNone ∧ v.waiting = [] then
      let claimed := v.claim now locked rows
      some (claimed.2, { v with waiting := claimed.1 })
    else none
  | .start =>
    match v.running, v.waiting with
    | none, item :: rest => some (rows, { v with waiting := rest, running := some { item, startedAt := now, beatAt := now } })
    | _, _ => none
  | .heartbeat item =>
    some (heartbeat item.id v.worker.lockOwner (v.worker.policy item).leaseSeconds now rows,
      { v with running := v.running.map fun r => if r.item = item then { r with beatAt := now } else r })
  | .finish error =>
    v.running.map fun r =>
      (v.mark r.item.id error now rows, { v with running := none })
  | .crash => some (rows, { v with alive := false })

def State.live (s : State) (i : Nat) : Option WorkerState := s.workers[i]?.filter (·.alive)

def step (s : State) : Op → State
  | .append now eventType idempotencyKey =>
    { s with
      rows := append s.nextId eventType idempotencyKey now s.rows
      nextId := s.nextId + 1
      clock := now }
  | .requeue now eventId => { s with rows := requeueJob eventId now s.rows, clock := now }
  | .act now i action =>
    match (s.live i).bind fun v => v.act now s.rows action with
    | some (rows, v) => { s with rows, workers := s.workers.set i v, clock := now }
    | none => { s with clock := now }

/-- No claim returns an event that a live worker holds, and no handler starts on an event that another one holds. -/
def Exclusive (s : State) : Op → Prop
  | .act now i (.claim locked) =>
    ∀ v ∈ s.live i, v.running.isNone ∧ v.waiting = [] → ∀ item ∈ (v.claim now locked s.rows).1, ∀ w ∈ s.workers,
      w.alive = true → item.id ∉ w.held
  | .act _ i .start =>
    ∀ v ∈ s.live i, v.running.isNone → ∀ item ∈ v.waiting.head?, ∀ j, j ≠ i → ∀ w ∈ s.live j, item.id ∉ w.held
  | _ => True

/-- What the workers are taken to do: the clock does not go back, no handler runs longer than its timeout, and none is
    without a heartbeat for longer than the interval. -/
def Regular (s : State) (op : Op) : Prop :=
  s.clock ≤ op.now ∧ ∀ v ∈ s.workers, v.alive = true → ∀ r ∈ v.running,
    op.now ≤ r.startedAt + seconds (v.worker.policy r.item).handlerTimeoutSeconds ∧
      op.now ≤ r.beatAt + seconds (v.worker.policy r.item).heartbeatIntervalSeconds

instance (s : State) (op : Op) : Decidable (Regular s op) :=
  inferInstanceAs (Decidable (_ ∧ ∀ v ∈ s.workers, v.alive = true → ∀ r ∈ v.running, _))

/-- Where a worker claims a batch, the leases of the events that live workers hold have not run out, and their locks are not
    stale; and no such event is requeued. -/
def InLease (s : State) : Op → Prop
  | .act now i (.claim _) =>
    ∀ v ∈ s.live i, ∀ w ∈ s.workers, w.alive = true → ∀ e ∈ w.held, ∀ row ∈ s.rows, row.id = e →
      row.inLease now (staleBefore now v.worker.staleLockAfterSec) = true
  | .requeue _ eventId => ∀ w ∈ s.workers, w.alive = true → eventId ∉ w.held
  | _ => True

instance (s : State) : DecidablePred (InLease s)
  | .append .. | .act _ _ .start | .act _ _ (.heartbeat _) | .act _ _ (.finish _) | .act _ _ .crash => .isTrue trivial
  | .act _ i (.claim _) => inferInstanceAs (Decidable (∀ v ∈ s.live i, ∀ w ∈ s.workers, _))
  | .requeue _ _ => inferInstanceAs (Decidable (∀ w ∈ s.workers, _))

/-- No event that a live worker holds is claimed or requeued. -/
def Unheld (s : State) : Op → Prop
  | .act now i (.claim locked) =>
    ∀ v ∈ s.live i, ∀ item ∈ (v.claim now locked s.rows).1, ∀ w ∈ s.workers, w.alive = true → item.id ∉ w.held
  | .requeue _ eventId => ∀ w ∈ s.workers, w.alive = true → eventId ∉ w.held
  | _ => True

instance (s : State) : DecidablePred (Unheld s)
  | .append .. | .act _ _ .start | .act _ _ (.heartbeat _) | .act _ _ (.finish _) | .act _ _ .crash => .isTrue trivial
  | .act now i (.claim locked) =>
    inferInstanceAs (Decidable (∀ v ∈ s.live i, ∀ item ∈ (v.claim now locked s.rows).1, ∀ w ∈ s.workers, _))
  | .requeue _ _ => inferInstanceAs (Decidable (∀ w ∈ s.workers, _))

/-! ### The invariant -/

def Processing (rows : List OutboxRow) (e : Nat) : Prop := ∃ r ∈ rows, r.id = e ∧ r.status = .processing

/-- What live workers hold is being processed, and each event is held once. -/
structure Sound (s : State) : Prop where
  keyed : (s.rows.map (·.id)).Nodup
  below : ∀ id ∈ s.rows.map (·.id), id < s.nextId
  processing : ∀ i v, s.live i = some v → ∀ e ∈ v.held, Processing s.rows e
  distinct : ∀ i v, s.live i = some v → v.held.Nodup
  apart : ∀ i j v w, i ≠ j → s.live i = some v → s.live j = some w → v.held.Disjoint w.held

section
variable {s : State} {rows rows' : List OutboxRow} {v v' w : WorkerState} {i j e : Nat} {now : Int}

theorem live_set (h : s.live i = some v) (rows : List OutboxRow) (v' : WorkerState) (now : Int) (j : Nat) :
    ({ s with rows, workers := s.workers.set i v', clock := now } : State).live j =
      if j = i then some v' |>.filter (·.alive) else s.live j := by
  obtain ⟨at_i, -⟩ := Option.filter_eq_some_iff.mp h
  have inside : i < s.workers.length := (List.getElem?_eq_some_iff.mp at_i).1
  unfold State.live
  dsimp only
  rw [List.getElem?_set]
  by_cases own : i = j
  · subst own
    simp only [if_true, inside]
  · rw [if_neg own, if_neg fun same => own same.symm]

theorem mem_workers (h : s.live i = some v) : v ∈ s.workers ∧ v.alive = true := by
  obtain ⟨at_i, alive⟩ := Option.filter_eq_some_iff.mp h
  exact ⟨List.mem_of_getElem? at_i, alive⟩

theorem live_of_mem (h : w ∈ s.workers) (alive : w.alive = true) : ∃ j, s.live j = some w := by
  obtain ⟨j, at_j⟩ := List.getElem?_of_mem h
  exact ⟨j, Option.filter_eq_some_iff.mpr ⟨at_j, alive⟩⟩

/-- A worker acts on its own events and on those that nobody holds. -/
theorem Sound.set (h : Sound s) (live : s.live i = some v) (ids : rows.map (·.id) = s.rows.map (·.id))
    (own : v'.alive = true → (∀ e ∈ v'.held, Processing rows e) ∧ v'.held.Nodup ∧
      ∀ j w, j ≠ i → s.live j = some w → v'.held.Disjoint w.held)
    (kept : ∀ j w, j ≠ i → s.live j = some w → ∀ e ∈ w.held, Processing rows e) :
    Sound { s with rows, workers := s.workers.set i v', clock := now } := by
  have cases_live : ∀ j w, ({ s with rows, workers := s.workers.set i v', clock := now } : State).live j = some w →
      (j = i ∧ w = v' ∧ v'.alive = true) ∨ (j ≠ i ∧ s.live j = some w) := by
    intro j w hw
    rw [live_set live] at hw
    by_cases same : j = i
    · rw [if_pos same] at hw
      obtain ⟨own, alive⟩ := Option.filter_eq_some_iff.mp hw
      cases own
      exact .inl ⟨same, rfl, alive⟩
    · rw [if_neg same] at hw
      exact .inr ⟨same, hw⟩
  refine ⟨ids ▸ h.keyed, ids ▸ h.below, fun j w hw => ?_, fun j w hw => ?_, fun j k w u hjk hw hu => ?_⟩
  · obtain ⟨-, rfl, alive⟩ | ⟨other, hw⟩ := cases_live j w hw
    · exact (own alive).1
    · exact kept j w other hw
  · obtain ⟨-, rfl, alive⟩ | ⟨-, hw⟩ := cases_live j w hw
    · exact (own alive).2.1
    · exact h.distinct j w hw
  · obtain ⟨rfl, rfl, alive⟩ | ⟨other, before_w⟩ := cases_live j w hw
    · obtain ⟨rfl, -, -⟩ | ⟨other, before_u⟩ := cases_live k u hu
      · exact absurd rfl hjk
      · exact (own alive).2.2 k u other before_u
    · obtain ⟨rfl, rfl, alive⟩ | ⟨-, before_u⟩ := cases_live k u hu
      · exact fun e held_w held_u => (own alive).2.2 j w other before_w held_u held_w
      · exact h.apart j k w u hjk before_w before_u

/-! ### The repository -/

theorem ids_map {f : OutboxRow → OutboxRow} (same : ∀ r, (f r).id = r.id) (rows : List OutboxRow) :
    (rows.map f).map (·.id) = rows.map (·.id) := by
  rw [List.map_map]
  exact List.map_congr_left fun r _ => same r

theorem Processing.map {f : OutboxRow → OutboxRow} (same : ∀ r, (f r).id = r.id)
    (kept : ∀ r, r.id = e → r.status = .processing → (f r).status = .processing) (h : Processing rows e) :
    Processing (rows.map f) e := by
  obtain ⟨r, mem, id, status⟩ := h
  exact ⟨f r, List.mem_map_of_mem mem, (same r).trans id, kept r id status⟩

/-- A row that is changed, or another one. -/
theorem updateRow_forms (change : OutboxRow → OutboxRow) (id : Nat) (r : OutboxRow) :
    (r.id = id ∧ (if r.id = id then change r else r) = change r) ∨ (r.id ≠ id ∧ (if r.id = id then change r else r) = r) := by
  by_cases same : r.id = id
  · exact .inl ⟨same, if_pos same⟩
  · exact .inr ⟨same, if_neg same⟩

theorem mem_updateRow {change : OutboxRow → OutboxRow} {id : Nat} {r' : OutboxRow} (h : r' ∈ updateRow id change rows) :
    ∃ r ∈ rows, (r.id = id ∧ r' = change r) ∨ (r.id ≠ id ∧ r' = r) := by
  obtain ⟨r, mem, rfl⟩ := List.mem_map.mp h
  exact ⟨r, mem, updateRow_forms change id r⟩

theorem ids_updateRow {change : OutboxRow → OutboxRow} (same : ∀ r, (change r).id = r.id) (id : Nat) (rows : List OutboxRow) :
    (updateRow id change rows).map (·.id) = rows.map (·.id) := by
  refine ids_map (fun r => ?_) rows
  obtain ⟨-, changed⟩ | ⟨-, left⟩ := updateRow_forms change id r
  · rw [changed, same]
  · rw [left]

/-- A change of a row leaves the other ones as they are. -/
theorem Processing.updateRow_other {change : OutboxRow → OutboxRow} {id : Nat} (other : e ≠ id) (h : Processing rows e) :
    Processing (updateRow id change rows) e := by
  obtain ⟨r, mem, key, status⟩ := h
  exact ⟨r, List.mem_map.mpr ⟨r, mem, if_neg (key ▸ other)⟩, key, status⟩

theorem Processing.heartbeat (h : Processing rows e) (id : Nat) (lockOwner : Option String) (leaseSeconds now : Int) :
    Processing (Events.heartbeat id lockOwner leaseSeconds now rows) e := by
  obtain ⟨r, mem, key, status⟩ := h
  refine ⟨_, List.mem_map_of_mem mem, ?_, ?_⟩
  · split
    · simp only [status, ne_eq, not_true_eq_false, if_false]
      split
      · exact key
      · exact key
    · exact key
  · split
    · simp only [status, ne_eq, not_true_eq_false, if_false]
      split
      · exact status
      · rfl
    · exact status

theorem ids_heartbeat (id : Nat) (lockOwner : Option String) (leaseSeconds now : Int) (rows : List OutboxRow) :
    (heartbeat id lockOwner leaseSeconds now rows).map (·.id) = rows.map (·.id) := by
  refine ids_updateRow (fun r => ?_) id rows
  split
  · rfl
  · split
    · rfl
    · rfl

theorem ids_markProcessed (id : Nat) (now : Int) (rows : List OutboxRow) :
    (markProcessed id now rows).map (·.id) = rows.map (·.id) := by
  refine ids_updateRow (fun r => ?_) id rows
  rfl

theorem ids_markFailed (id : Nat) (error : String) (maxAttempts : Nat) (retryDelaySeconds now : Int) (rows : List OutboxRow) :
    (markFailed id error maxAttempts retryDelaySeconds now rows).map (·.id) = rows.map (·.id) := by
  refine ids_updateRow (fun r => ?_) id rows
  dsimp only
  split
  · rfl
  · rfl

theorem ids_mark (v : WorkerState) (id : Nat) (error : Option String) (now : Int) (rows : List OutboxRow) :
    (v.mark id error now rows).map (·.id) = rows.map (·.id) := by
  cases error with
  | none => exact ids_markProcessed id now rows
  | some error => exact ids_markFailed id error _ _ now rows

theorem Processing.mark {id : Nat} (h : Processing rows e) (other : e ≠ id) (v : WorkerState) (error : Option String)
    (now : Int) : Processing (v.mark id error now rows) e := by
  cases error with
  | none => exact h.updateRow_other other
  | some error => exact h.updateRow_other other

theorem ids_requeueJob (id : Nat) (now : Int) (rows : List OutboxRow) :
    (requeueJob id now rows).map (·.id) = rows.map (·.id) := by
  refine ids_updateRow (fun r => ?_) id rows
  rfl

/-! ### Claims -/

theorem mem_nextBatch {limit : Nat} {stale : Int} {locked : List Nat} {r : OutboxRow}
    (h : r ∈ nextBatch limit stale now locked rows) :
    r ∈ rows ∧ outboxEligibleFilter now (staleBefore now stale) r = true := by
  have found := (List.perm_insertionSort _ _).mem_iff.mp (List.mem_of_mem_take h)
  obtain ⟨mem, eligible⟩ := List.mem_filter.mp found
  exact ⟨mem, (Bool.and_eq_true_iff.mp eligible).1⟩

theorem nextBatch_nodup (keyed : (rows.map (·.id)).Nodup) (limit : Nat) (stale : Int) (locked : List Nat) :
    ((nextBatch limit stale now locked rows).map (·.id)).Nodup := by
  have kept : ((rows.filter fun r => outboxEligibleFilter now (staleBefore now stale) r && r.id ∉ locked).map (·.id)).Nodup :=
    keyed.sublist (List.filter_sublist.map _)
  have sorted := ((List.perm_insertionSort (·.id ≤ ·.id) _).map OutboxRow.id).nodup_iff.mpr kept
  exact sorted.sublist ((List.take_sublist _ _).map _)

theorem ids_claim (v : WorkerState) (locked : List Nat) :
    (v.claim now locked rows).2.map (·.id) = rows.map (·.id) := by
  refine ids_map (fun r => ?_) rows
  split
  · rfl
  · rfl

theorem claim_nodup (keyed : (rows.map (·.id)).Nodup) (v : WorkerState) (locked : List Nat) :
    ((v.claim now locked rows).1.map (·.id)).Nodup := by
  have same : (v.claim now locked rows).1.map (·.id) =
      (nextBatch v.worker.batchSize v.worker.staleLockAfterSec now locked rows).map (·.id) := List.map_map ..
  rw [same]
  exact nextBatch_nodup keyed ..

/-- What a claim takes becomes its own, and what was being processed stays so. -/
theorem claim_processing (v : WorkerState) (now : Int) (locked : List Nat) (rows : List OutboxRow) :
    (∀ item ∈ (v.claim now locked rows).1, Processing (v.claim now locked rows).2 item.id) ∧
      ∀ e, Processing rows e → Processing (v.claim now locked rows).2 e := by
  refine ⟨fun item mem => ?_, fun e h => h.map (fun r => ?_) fun r _ status => ?_⟩
  · obtain ⟨r, taken, rfl⟩ := List.mem_map.mp mem
    refine ⟨_, List.mem_map_of_mem (mem_nextBatch taken).1, ?_⟩
    rw [if_pos (List.mem_map_of_mem taken)]
    exact ⟨rfl, rfl⟩
  · split
    · rfl
    · rfl
  · split
    · rfl
    · exact status

/-- A held event, whose lease has not run out, is not claimed. -/
theorem Sound.unheld (h : Sound s) {op : Op} (inLease : InLease s op) : Unheld s op := by
  cases op with
  | append => trivial
  | requeue now eventId => exact inLease
  | act now i action =>
    cases action with
    | claim locked =>
      intro v live item mem w member alive held
      obtain ⟨j, live_w⟩ := live_of_mem member alive
      obtain ⟨r, taken, rfl⟩ := List.mem_map.mp mem
      obtain ⟨row, eligible⟩ := mem_nextBatch taken
      obtain ⟨r', row', same, processing⟩ := h.processing j w live_w _ held
      have leased := inLease v live w member alive _ held r' row' same
      have equal : r' = r := List.inj_on_of_nodup_map h.keyed row' row same
      rw [equal] at processing leased
      simp [outboxEligibleFilter, processing, leased] at eligible
    | _ => trivial

/-! ### Steps and runs -/

theorem held_running {r : Running} (h : v.running = some r) : v.held = r.item.id :: v.waiting.map (·.id) := by
  simp [WorkerState.held, h]

theorem held_waiting (h : v.running = none) : v.held = v.waiting.map (·.id) := by simp [WorkerState.held, h]

theorem act_start (h : v.act now rows .start = some (rows', v')) :
    ∃ item rest, v.running = none ∧ v.waiting = item :: rest ∧ rows' = rows ∧
      v' = { v with waiting := rest, running := some { item, startedAt := now, beatAt := now } } := by
  simp only [WorkerState.act] at h
  split at h
  · next item rest running waiting =>
    cases h
    exact ⟨item, rest, running, waiting, rfl, rfl⟩
  · cases h

theorem ids_act {action : Action} (acted : v.act now rows action = some (rows', v')) :
    rows'.map (·.id) = rows.map (·.id) := by
  cases action with
  | claim locked =>
    obtain ⟨-, acted⟩ := Option.ite_none_right_eq_some.mp acted
    cases acted
    exact ids_claim v locked
  | start =>
    obtain ⟨-, -, -, -, rfl, -⟩ := act_start acted
    rfl
  | heartbeat item =>
    cases acted
    exact ids_heartbeat ..
  | finish error =>
    obtain ⟨r, -, acted⟩ := Option.map_eq_some_iff.mp acted
    cases acted
    exact ids_mark ..
  | crash =>
    cases acted
    rfl

/-- An action has no effect, or is the action of a live worker. -/
theorem step_act_forms (s : State) (now : Int) (i : Nat) (action : Action) :
    ((∀ v, s.live i = some v → v.act now s.rows action = none) ∧ step s (.act now i action) = { s with clock := now }) ∨
      ∃ v rows v', s.live i = some v ∧ v.act now s.rows action = some (rows, v') ∧
        step s (.act now i action) = { s with rows, workers := s.workers.set i v', clock := now } := by
  simp only [step]
  cases live : s.live i with
  | none =>
    refine .inl ⟨fun v found => ?_, rfl⟩
    cases found
  | some v =>
    rw [Option.bind_some]
    cases acted : v.act now s.rows action with
    | none =>
      refine .inl ⟨fun v' same => ?_, rfl⟩
      cases same
      exact acted
    | some next => exact .inr ⟨v, next.1, next.2, rfl, acted, rfl⟩

/-- What a worker does keeps the invariant, if its claims are of events that nobody holds. -/
theorem Sound.act (h : Sound s) {action : Action} (unheld : Unheld s (.act now i action)) (live : s.live i = some v)
    (acted : v.act now s.rows action = some (rows, v')) :
    Sound { s with rows, workers := s.workers.set i v', clock := now } := by
  have apart : ∀ j w, j ≠ i → s.live j = some w → v.held.Disjoint w.held := fun j w other live_w =>
    h.apart i j v w (Ne.symm other) live live_w
  have own := h.processing i v live
  have others : ∀ j w, j ≠ i → s.live j = some w → ∀ e ∈ w.held, Processing s.rows e := fun j w _ live_w =>
    h.processing j w live_w
  have distinct := h.distinct i v live
  cases action with
  | claim locked =>
    obtain ⟨⟨none_running, -⟩, acted⟩ := Option.ite_none_right_eq_some.mp acted
    cases acted
    obtain ⟨taken, kept⟩ := claim_processing v now locked s.rows
    have held : ({ v with waiting := (v.claim now locked s.rows).1 } : WorkerState).held =
        (v.claim now locked s.rows).1.map (·.id) := held_waiting (Option.isNone_iff_eq_none.mp none_running)
    refine h.set live (ids_claim v locked) (fun _ => ?_) fun j w other live_w e mem => kept e (others j w other live_w e mem)
    rw [held]
    refine ⟨fun e mem => ?_, claim_nodup h.keyed v locked, fun j w _ live_w e mem held_w => ?_⟩
    · obtain ⟨item, claimed, rfl⟩ := List.mem_map.mp mem
      exact taken item claimed
    · obtain ⟨item, claimed, rfl⟩ := List.mem_map.mp mem
      exact unheld v live item claimed w (mem_workers live_w).1 (mem_workers live_w).2 held_w
  | start =>
    obtain ⟨item, rest, none_running, waiting, rfl, rfl⟩ := act_start acted
    have held : ({ v with waiting := rest, running := some { item, startedAt := now, beatAt := now } } : WorkerState).held =
        v.held := by rw [held_running rfl, held_waiting none_running, waiting, List.map_cons]
    refine h.set live rfl (fun _ => ?_) others
    rw [held]
    exact ⟨own, distinct, apart⟩
  | heartbeat item =>
    cases acted
    have held : ({ v with running := v.running.map fun r => if r.item = item then { r with beatAt := now } else r } :
        WorkerState).held = v.held := by
      cases running : v.running with
      | none => rw [held_waiting running, held_waiting rfl]
      | some r =>
        have same : (if r.item = item then { r with beatAt := now } else r : Running).item = r.item := by
          split
          · rfl
          · rfl
        rw [held_running running, held_running rfl, same]
    refine h.set live (ids_heartbeat ..) (fun _ => ?_) fun j w other live_w e mem => (others j w other live_w e mem).heartbeat ..
    rw [held]
    exact ⟨fun e mem => (own e mem).heartbeat .., distinct, apart⟩
  | finish error =>
    obtain ⟨r, running, acted⟩ := Option.map_eq_some_iff.mp acted
    cases acted
    have held : ({ v with running := none } : WorkerState).held = v.waiting.map (·.id) := held_waiting rfl
    rw [held_running running] at own distinct apart
    obtain ⟨marked, distinct⟩ := List.nodup_cons.mp distinct
    refine h.set live (ids_mark ..) (fun _ => ?_) fun j w other live_w e mem => ?_
    · rw [held]
      refine ⟨fun e mem => ?_, distinct, fun j w other live_w => ?_⟩
      · have apart_e : e ≠ r.item.id := by
          rintro rfl
          exact marked mem
        exact (own e (List.mem_cons_of_mem _ mem)).mark apart_e ..
      · exact List.disjoint_of_subset_left (List.subset_cons_self ..) (apart j w other live_w)
    · have apart_e : e ≠ r.item.id := by
        rintro rfl
        exact apart j w other live_w List.mem_cons_self mem
      exact (others j w other live_w e mem).mark apart_e ..
  | crash =>
    cases acted
    exact h.set live rfl nofun others

/-- The same workers, and no fewer events that are being processed. -/
theorem Sound.of_rows {nextId : Nat} (h : Sound s) (keyed : (rows.map (·.id)).Nodup) (below : ∀ id ∈ rows.map (·.id), id < nextId)
    (kept : ∀ j w, s.live j = some w → ∀ e ∈ w.held, Processing rows e) :
    Sound { s with rows, nextId, clock := now } where
  keyed := keyed
  below := below
  processing := kept
  distinct := h.distinct
  apart := h.apart

theorem append_keyed {nextId : Nat} (keyed : (rows.map (·.id)).Nodup) (below : ∀ id ∈ rows.map (·.id), id < nextId)
    (eventType : String) (idempotencyKey : Option String) (now : Int) :
    ((append nextId eventType idempotencyKey now rows).map (·.id)).Nodup ∧
      ∀ id ∈ (append nextId eventType idempotencyKey now rows).map (·.id), id < nextId + 1 := by
  have bigger : ∀ id ∈ rows.map (·.id), id < nextId + 1 := fun id mem => Nat.lt_succ_of_lt (below id mem)
  unfold append
  dsimp only
  split
  · exact ⟨keyed, bigger⟩
  · rw [List.map_append, List.map_singleton]
    refine ⟨keyed.append (List.nodup_singleton _) fun id old new => absurd (below id old) (by
        rw [List.mem_singleton.mp new]
        exact Nat.lt_irrefl _), fun id mem => ?_⟩
    rcases List.mem_append.mp mem with old | new
    · exact bigger id old
    · rw [List.mem_singleton.mp new]
      exact Nat.lt_succ_self _

theorem Processing.append {nextId : Nat} (h : Processing rows e) (eventType : String) (idempotencyKey : Option String)
    (now : Int) : Processing (append nextId eventType idempotencyKey now rows) e := by
  obtain ⟨r, old, key, status⟩ := h
  unfold Events.append
  dsimp only
  split
  · exact ⟨r, old, key, status⟩
  · exact ⟨r, List.mem_append_left _ old, key, status⟩

theorem Sound.append (h : Sound s) (now : Int) (eventType : String) (idempotencyKey : Option String) :
    Sound (step s (.append now eventType idempotencyKey)) := by
  obtain ⟨keyed, below⟩ := append_keyed h.keyed h.below eventType idempotencyKey now
  exact h.of_rows keyed below fun j w live e mem => (h.processing j w live e mem).append ..

theorem Sound.step (h : Sound s) {op : Op} (unheld : Unheld s op) : Sound (step s op) := by
  cases op with
  | append now eventType idempotencyKey => exact h.append now eventType idempotencyKey
  | requeue now eventId =>
    refine h.of_rows (ids_requeueJob eventId now s.rows ▸ h.keyed) (ids_requeueJob eventId now s.rows ▸ h.below) ?_
    intro j w live e mem
    have other : e ≠ eventId := by
      rintro rfl
      exact unheld w (mem_workers live).1 (mem_workers live).2 mem
    exact (h.processing j w live e mem).updateRow_other other
  | act now i action =>
    have unacted : Sound { s with clock := now } := h.of_rows h.keyed h.below h.processing
    simp only [Lease.step]
    cases live : s.live i with
    | none => exact unacted
    | some v =>
      rw [Option.bind_some]
      cases acted : v.act now s.rows action with
      | none => exact unacted
      | some next => exact h.act unheld live acted

theorem Sound.exclusive (h : Sound s) {op : Op} (unheld : Unheld s op) : Exclusive s op := by
  cases op with
  | act now i action =>
    cases action with
    | claim locked =>
      intro v live _ item claimed w member alive
      exact unheld v live item claimed w member alive
    | start =>
      intro v live none_running item first j other w live_w held
      refine h.apart i j v w (Ne.symm other) live live_w ?_ held
      rw [held_waiting (Option.isNone_iff_eq_none.mp none_running)]
      exact List.mem_map_of_mem (List.mem_of_mem_head? first)
    | _ => trivial
  | _ => trivial

/-- Rows as they may be found, and workers that have claimed nothing yet. -/
structure Started (s : State) : Prop where
  keyed : (s.rows.map (·.id)).Nodup
  below : ∀ id ∈ s.rows.map (·.id), id < s.nextId
  fresh : ∀ v ∈ s.workers, v.held = []

theorem Started.sound (h : Started s) : Sound s where
  keyed := h.keyed
  below := h.below
  processing i v live e mem := by
    rw [h.fresh v (mem_workers live).1] at mem
    cases mem
  distinct i v live := by
    rw [h.fresh v (mem_workers live).1]
    exact List.nodup_nil
  apart i j v w _ live _ := by
    rw [h.fresh v (mem_workers live).1]
    exact List.disjoint_nil_left _

/-- In every run in which the leases of held events outlast the claims, no event is claimed or started while another live
    worker holds it. -/
theorem held_by_one (start : Started s) (ops : List Op) (h : Always Lease.step InLease s ops) :
    Always Lease.step Exclusive s ops :=
  h.of_invariant Sound start.sound (fun _ _ sound inLease => sound.step (sound.unheld inLease)) fun _ _ sound inLease =>
    sound.exclusive (sound.unheld inLease)

end

/-! ### A long job -/

/-- Two workers with the default settings, and an event that was published at 0. -/
def twoWorkers : State where
  rows := [{ id := 1, eventType := "knowledge.index_build", nextRetryAt := 0 }]
  nextId := 2
  workers := [{ worker := { lockOwner := some "a:1" } }, { worker := { lockOwner := some "b:2" } }]
  clock := 0

def indexBuild : OutboxWorkItem := { id := 1, eventType := "knowledge.index_build" }

/-- Worker 0 runs its handler, with a heartbeat each minute. -/
def fiveMinutes : List Op :=
  [.act 0 0 (.claim []), .act 0 0 .start] ++
    [60, 120, 180, 240, 300].map fun t => .act (seconds t) 0 (.heartbeat indexBuild)

/-- Within five minutes the other worker finds nothing; then the job is done. -/
theorem held_by_one_in_time :
    Always step Exclusive twoWorkers (fiveMinutes ++ [.act (seconds 300) 1 (.claim []), .act (seconds 310) 0 (.finish none)]) ∧
      (final step twoWorkers (fiveMinutes ++ [.act (seconds 300) 1 (.claim []), .act (seconds 310) 0 (.finish none)])).rows.map
        (·.status) = [.processed] :=
  ⟨held_by_one ⟨by decide, by decide, by decide⟩ _ (by decide), by decide⟩

/-- After five minutes the lock is stale, whatever the heartbeats have renewed. -/
theorem held_by_two :
    ¬(Always step Regular twoWorkers (fiveMinutes ++ [.act (seconds 301) 1 (.claim [])]) →
      Always step Exclusive twoWorkers (fiveMinutes ++ [.act (seconds 301) 1 (.claim [])])) := by
  intro h
  have exclusive := (always_append.mp (h (by decide))).2.1
  have live : (final step twoWorkers fiveMinutes).live 1 = some { worker := { lockOwner := some "b:2" } } := by decide
  have holder : (final step twoWorkers fiveMinutes).workers.any fun w => w.alive && decide (1 ∈ w.held) := by decide
  obtain ⟨w, member, held⟩ := List.any_eq_true.mp holder
  obtain ⟨alive, held⟩ := Bool.and_eq_true_iff.mp held
  refine exclusive _ live (by decide) indexBuild (by decide) w member alive (of_decide_eq_true held)

end NyzRating.Events.Lease
