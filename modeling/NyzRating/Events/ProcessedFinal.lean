import NyzRating.Events.Lease

/-!
# A processed event stays processed

Whoever reports the end of a handler writes the status of the event, and looks neither at the status that the row has nor at
who has its lease.
-/

namespace NyzRating.Events.ProcessedFinal

open Runs Lease

def Processed (rows : List OutboxRow) (e : Nat) : Prop := ∃ r ∈ rows, r.id = e ∧ r.status = .processed

instance (rows : List OutboxRow) (e : Nat) : Decidable (Processed rows e) :=
  inferInstanceAs (Decidable (∃ r ∈ rows, r.id = e ∧ r.status = .processed))

/-- A processed event stays so until it is requeued, and no claim can find it. -/
structure Final (s : State) (op : Op) : Prop where
  kept : ∀ e, Processed s.rows e → (∀ now, op ≠ .requeue now e) → Processed (step s op).rows e
  unclaimable : ∀ r ∈ s.rows, r.status = .processed → ∀ now stale, outboxEligibleFilter now stale r = false

/-- No worker reports a failure of an event that has been processed. -/
def NoLateFailure (s : State) : Op → Prop
  | .act _ i (.finish (some _)) => ∀ v ∈ s.live i, ∀ r ∈ v.running, ¬Processed s.rows r.item.id
  | _ => True

instance (s : State) : DecidablePred (NoLateFailure s)
  | .append .. | .requeue .. | .act _ _ (.claim _) | .act _ _ .start | .act _ _ (.heartbeat _) | .act _ _ (.finish none)
  | .act _ _ .crash => .isTrue trivial
  | .act _ i (.finish (some _)) => inferInstanceAs (Decidable (∀ v ∈ s.live i, ∀ r ∈ v.running, _))

/-- Ids are given once. -/
structure Keyed (s : State) : Prop where
  keyed : (s.rows.map (·.id)).Nodup
  below : ∀ id ∈ s.rows.map (·.id), id < s.nextId

section
variable {s : State} {rows rows' : List OutboxRow} {v v' : WorkerState} {action : Action} {e : Nat}

/-! ### Ids -/

theorem Keyed.of_rows {nextId : Nat} {workers : List WorkerState} {clock : Int} (keyed : (rows.map (·.id)).Nodup)
    (below : ∀ id ∈ rows.map (·.id), id < nextId) : Keyed { rows, nextId, workers, clock } := ⟨keyed, below⟩

theorem Keyed.of_ids (h : Keyed s) (ids : rows.map (·.id) = s.rows.map (·.id)) {workers : List WorkerState} {clock : Int} :
    Keyed { s with rows, workers, clock } := .of_rows (ids ▸ h.keyed) (ids ▸ h.below)

theorem Keyed.step (h : Keyed s) (op : Op) : Keyed (step s op) := by
  cases op with
  | append now eventType idempotencyKey =>
    obtain ⟨keyed, below⟩ := append_keyed h.keyed h.below eventType idempotencyKey now
    exact .of_rows keyed below
  | requeue now eventId => exact h.of_ids (ids_requeueJob ..)
  | act now i action =>
    simp only [Lease.step]
    cases acted : (s.live i).bind fun v => v.act now s.rows action with
    | none => exact h.of_ids rfl
    | some next =>
      obtain ⟨v, -, acted⟩ := Option.bind_eq_some_iff.mp acted
      exact h.of_ids (ids_act acted)

/-! ### Processed rows -/

theorem Processed.map {f : OutboxRow → OutboxRow} (h : Processed rows e)
    (kept : ∀ r ∈ rows, r.id = e → r.status = .processed → (f r).id = e ∧ (f r).status = .processed) :
    Processed (rows.map f) e := by
  obtain ⟨r, mem, key, status⟩ := h
  exact ⟨f r, List.mem_map_of_mem mem, kept r mem key status⟩

theorem Processed.updateRow {change : OutboxRow → OutboxRow} {id : Nat} (h : Processed rows e)
    (kept : ∀ r, e = id → r.id = e → r.status = .processed → (change r).id = e ∧ (change r).status = .processed) :
    Processed (updateRow id change rows) e := by
  refine h.map fun r _ key status => ?_
  obtain ⟨own, changed⟩ | ⟨-, left⟩ := updateRow_forms change id r
  · rw [changed]
    exact kept r (key.symm.trans own) key status
  · rw [left]
    exact ⟨key, status⟩

theorem eligible_processed {r : OutboxRow} (h : r.status = .processed) (now stale : Int) :
    outboxEligibleFilter now stale r = false := by simp [outboxEligibleFilter, h]

theorem Processed.claim (h : Processed rows e) (keyed : (rows.map (·.id)).Nodup) (now : Int) (locked : List Nat) :
    Processed (v.claim now locked rows).2 e := by
  refine h.map fun r mem key status => ?_
  split
  · next taken =>
    obtain ⟨r', taken, same⟩ := List.mem_map.mp taken
    obtain ⟨mem', eligible⟩ := mem_nextBatch taken
    have equal : r' = r := List.inj_on_of_nodup_map keyed mem' mem same
    rw [equal, eligible_processed status] at eligible
    cases eligible
  · exact ⟨key, status⟩

theorem Processed.heartbeat (h : Processed rows e) (id : Nat) (lockOwner : Option String) (leaseSeconds now : Int) :
    Processed (heartbeat id lockOwner leaseSeconds now rows) e := by
  refine h.updateRow fun r _ key status => ?_
  simp only [status, ne_eq, reduceCtorEq, not_false_eq_true, if_true]
  exact ⟨key, trivial⟩

theorem Processed.markProcessed (h : Processed rows e) (id : Nat) (now : Int) : Processed (markProcessed id now rows) e :=
  h.updateRow fun _ _ key _ => ⟨key, rfl⟩

/-- A failure is written over what the row says. -/
theorem not_processed_markFailed (id : Nat) (error : String) (maxAttempts : Nat) (retryDelaySeconds now : Int) :
    ¬Processed (markFailed id error maxAttempts retryDelaySeconds now rows) id := by
  rintro ⟨_, mem, key, status⟩
  obtain ⟨r, -, rfl⟩ := List.mem_map.mp mem
  have own : r.id = id := by
    by_contra other
    rw [if_neg other] at key
    exact other key
  rw [if_pos own] at status
  dsimp only at status
  split at status
  · cases status
  · cases status

theorem Processed.append (h : Processed rows e) (nextId : Nat) (eventType : String) (key : Option String) (now : Int) :
    Processed (append nextId eventType key now rows) e := by
  obtain ⟨r, mem, id, status⟩ := h
  unfold Events.append
  dsimp only
  split
  · exact ⟨r, mem, id, status⟩
  · exact ⟨r, List.mem_append_left _ mem, id, status⟩

/-! ### Steps and runs -/

/-- What a worker does leaves a processed event processed, unless it reports the failure of it. -/
theorem Processed.act {now : Int} (h : Processed rows e) (keyed : (rows.map (·.id)).Nodup)
    (onTime : ∀ error, action = .finish (some error) → ∀ r ∈ v.running, r.item.id ≠ e)
    (acted : v.act now rows action = some (rows', v')) : Processed rows' e := by
  cases action with
  | claim locked =>
    obtain ⟨-, acted⟩ := Option.ite_none_right_eq_some.mp acted
    cases acted
    exact h.claim keyed now locked
  | start =>
    obtain ⟨-, -, -, -, rfl, -⟩ := act_start acted
    exact h
  | heartbeat item =>
    cases acted
    exact h.heartbeat ..
  | finish error =>
    obtain ⟨r, running, acted⟩ := Option.map_eq_some_iff.mp acted
    cases acted
    cases error with
    | none => exact h.markProcessed ..
    | some error => exact h.updateRow fun _ own _ _ => absurd own.symm (onTime error rfl r running)
  | crash =>
    cases acted
    exact h

theorem final_of_noLateFailure (h : Keyed s) {op : Op} (onTime : NoLateFailure s op) : Final s op := by
  refine ⟨fun e processed requeued => ?_, fun r _ status now stale => eligible_processed status now stale⟩
  unfold step
  cases op with
  | append now eventType idempotencyKey =>
    dsimp only
    exact processed.append ..
  | requeue now eventId =>
    refine Processed.updateRow processed fun _ own _ _ => absurd rfl (own ▸ requeued now)
  | act now i action =>
    dsimp only
    cases acted : (s.live i).bind fun v => v.act now s.rows action with
    | none => exact processed
    | some next =>
      obtain ⟨v, live, acted⟩ := Option.bind_eq_some_iff.mp acted
      refine processed.act h.keyed ?_ acted
      rintro error rfl r running rfl
      exact onTime v live r running processed

theorem noLateFailure_of_final {op : Op} (h : Final s op) : NoLateFailure s op := by
  unfold NoLateFailure
  split
  · next now i error =>
    intro v live r running processed
    have kept := h.kept r.item.id processed nofun
    have acted : (s.live i).bind (fun v => v.act now s.rows (.finish (some error))) =
        some (v.mark r.item.id (some error) now s.rows, { v with running := none }) := by
      rw [Option.mem_def.mp live, Option.bind_some]
      simp only [WorkerState.act, Option.mem_def.mp running, Option.map_some]
    simp only [step, acted] at kept
    exact not_processed_markFailed _ _ _ _ _ kept
  · trivial

/-- The status of a processed event is final in just the runs in which no worker reports a failure of such an event. -/
theorem processed_final_iff (start : Keyed s) (ops : List Op) :
    Always step Final s ops ↔ Always step NoLateFailure s ops where
  mp h := h.mono fun _ _ => noLateFailure_of_final
  mpr h := h.of_invariant Keyed start (fun _ op keyed _ => keyed.step op) fun _ _ keyed => final_of_noLateFailure keyed

theorem noLateFailure_of_sound (h : Sound s) (op : Op) : NoLateFailure s op := by
  unfold NoLateFailure
  split
  · rintro v live r running ⟨row, mem, key, status⟩
    have held : r.item.id ∈ v.held := by
      rw [held_running running]
      exact List.mem_cons_self
    obtain ⟨row', mem', key', processing⟩ := h.processing _ v live _ held
    have equal : row' = row := List.inj_on_of_nodup_map h.keyed mem' mem (key'.trans key.symm)
    rw [equal, status] at processing
    cases processing
  · trivial

/-- Where the leases of held events outlast the claims, nobody reports late. -/
theorem processed_final_in_lease (start : Started s) (ops : List Op) (h : Always step InLease s ops) :
    Always step Final s ops :=
  (processed_final_iff ⟨start.keyed, start.below⟩ ops).mpr
    (h.of_invariant Sound start.sound (fun _ _ sound inLease => sound.step (sound.unheld inLease)) fun _ op sound _ =>
      noLateFailure_of_sound sound op)

end

/-! ### A handler that fails late -/

/-- The other worker takes the event after five minutes, and processes it. -/
def reclaimed : List Op :=
  fiveMinutes ++ [.act (seconds 301) 1 (.claim []), .act (seconds 301) 1 .start, .act (seconds 310) 1 (.finish none)]

theorem processed_final_when_done_late :
    Always step Final twoWorkers (reclaimed ++ [.act (seconds 320) 0 (.finish none), .act (seconds 330) 1 (.claim [])]) := by
  refine (processed_final_iff ⟨by decide, by decide⟩ _).mpr ?_
  decide +kernel

/-- The handler of the first worker fails after that, and the event is tried again. -/
theorem processed_not_final :
    ¬(Always step Regular twoWorkers (reclaimed ++ [.act (seconds 320) 0 (.finish (some "timeout"))]) →
      Always step Final twoWorkers (reclaimed ++ [.act (seconds 320) 0 (.finish (some "timeout"))])) := by
  intro h
  have regular : Always step Regular twoWorkers (reclaimed ++ [.act (seconds 320) 0 (.finish (some "timeout"))]) := by
    decide +kernel
  obtain ⟨-, stays, -⟩ := always_append.mp (h regular)
  have processed : Processed (final step twoWorkers reclaimed).rows 1 := by decide +kernel
  have lost := stays.kept 1 processed nofun
  revert lost
  decide +kernel

end NyzRating.Events.ProcessedFinal
