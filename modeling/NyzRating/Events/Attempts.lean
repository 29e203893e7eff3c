import NyzRating.Events.Lease

/-!
# How often a handler is dispatched

Only the report of a failure counts an attempt. Beside the rows, a run is watched for the dispatches of each event since it
was last requeued, and for the events whose handler was dispatched and whose end nobody has reported.
-/

namespace NyzRating.Events.Attempts

open Runs Lease

structure Watched extends State where
  starts : List Nat := []
  unreported : List Nat := []
  deriving DecidableEq, Repr

/-- The event whose handler is dispatched. -/
def dispatched (s : State) : Op → Option Nat
  | .act _ i .start => (s.live i).bind fun v => if v.running.isNone then v.waiting.head?.map (·.id) else none
  | _ => none

/-- The event whose end a worker reports. -/
def reported (s : State) : Op → Option Nat
  | .act _ i (.finish _) => (s.live i).bind fun v => v.running.map (·.item.id)
  | _ => none

def requeued : Op → Option Nat
  | .requeue _ e => some e
  | _ => none

def step (w : Watched) (op : Op) : Watched where
  toState := Lease.step w.toState op
  starts := w.starts.filter (requeued op ≠ some ·) ++ (dispatched w.toState op).toList
  unreported := w.unreported.filter (fun e => requeued op ≠ some e ∧ reported w.toState op ≠ some e) ++
    (dispatched w.toState op).toList

def HasStatus (rows : List OutboxRow) (e : Nat) (status : OutboxStatus) : Prop := ∃ r ∈ rows, r.id = e ∧ r.status = status

/-- After the step no event has been dispatched more than `maxAttempts` times since it was requeued. One that was dispatched
    so often and is not at work is done with, and a dead letter if the last handler failed. -/
structure Bounded (maxAttempts : Nat) (w : Watched) (op : Op) : Prop where
  dispatches : ∀ e, (step w op).starts.count e ≤ maxAttempts
  ended : ∀ e, (step w op).starts.count e = maxAttempts → e ∉ (step w op).unreported →
    HasStatus (step w op).rows e .processed ∨ HasStatus (step w op).rows e .deadLetter
  failed : ∀ now i error e, op = .act now i (.finish (some error)) → reported w.toState op = some e →
    (step w op).starts.count e = maxAttempts → HasStatus (step w op).rows e .deadLetter

/-- No event is claimed whose last dispatch has not been reported. -/
def LastReported (w : Watched) : Op → Prop
  | .act now i (.claim locked) => ∀ v ∈ w.live i, ∀ item ∈ (v.claim now locked w.rows).1, item.id ∉ w.unreported
  | _ => True

/-- No event that a live worker holds is claimed or requeued, and none that a worker left behind in a crash is claimed. -/
def Reported (w : Watched) (op : Op) : Prop := Unheld w.toState op ∧ LastReported w op

instance (w : Watched) : DecidablePred (LastReported w)
  | .append .. | .requeue .. | .act _ _ .start | .act _ _ (.heartbeat _) | .act _ _ (.finish _) | .act _ _ .crash =>
    .isTrue trivial
  | .act now i (.claim locked) =>
    inferInstanceAs (Decidable (∀ v ∈ w.live i, ∀ item ∈ (v.claim now locked w.rows).1, _))

instance (w : Watched) (op : Op) : Decidable (Reported w op) := inferInstanceAs (Decidable (_ ∧ _))

/-- A run is watched from here on. -/
def watch (s : State) : Watched := { toState := s }

/-! ### What a step does to a row -/

inductive Moved (s : State) (op : Op) (r r' : OutboxRow) : Prop
  | kept (unreported : reported s op ≠ some r.id) (status : r'.status = r.status) (attempts : r'.attempts = r.attempts)
  | claimed {now : Int} {i : Nat} {locked : List Nat} {v : WorkerState} (call : op = .act now i (.claim locked))
      (live : s.live i = some v) (taken : toWorkItem r ∈ (v.claim now locked s.rows).1)
      (eligible : outboxEligibleFilter now (staleBefore now v.worker.staleLockAfterSec) r = true)
      (status : r'.status = .processing) (attempts : r'.attempts = r.attempts)
  | requeued (call : requeued op = some r.id) (status : r'.status = .pending)
  | processed (call : reported s op = some r.id) (success : ∀ now i error, op ≠ .act now i (.finish (some error)))
      (status : r'.status = .processed)
  | failed {v : WorkerState} (call : reported s op = some r.id) (worker : v ∈ s.workers)
      (attempts : r'.attempts = r.attempts + 1)
      (status : v.worker.maxRetries ≤ r'.attempts ∧ r'.status = .deadLetter ∨
        r'.attempts < v.worker.maxRetries ∧ r'.status = .retry)

section
variable {s : State} {rows : List OutboxRow} {r r' : OutboxRow} {v v' : WorkerState} {op : Op} {i : Nat} {now : Int}

theorem dispatched_forms {e : Nat} (h : dispatched s op = some e) :
    ∃ now i v item rest, op = .act now i .start ∧ s.live i = some v ∧ v.running = none ∧ v.waiting = item :: rest ∧
      item.id = e := by
  unfold dispatched at h
  split at h
  · next now i =>
    obtain ⟨v, live, h⟩ := Option.bind_eq_some_iff.mp h
    obtain ⟨idle, h⟩ := Option.ite_none_right_eq_some.mp h
    obtain ⟨item, first, h⟩ := Option.map_eq_some_iff.mp h
    obtain ⟨rest, waiting⟩ := List.head?_eq_some_iff.mp first
    exact ⟨now, i, v, item, rest, rfl, live, Option.isNone_iff_eq_none.mp idle, waiting, h⟩
  · cases h

theorem reported_forms {e : Nat} (h : reported s op = some e) :
    ∃ now i error v running, op = .act now i (.finish error) ∧ s.live i = some v ∧ v.running = some running ∧
      running.item.id = e := by
  unfold reported at h
  split at h
  · next now i error =>
    obtain ⟨v, live, h⟩ := Option.bind_eq_some_iff.mp h
    obtain ⟨running, at_hand, h⟩ := Option.map_eq_some_iff.mp h
    exact ⟨now, i, error, v, running, rfl, live, at_hand, h⟩
  · cases h

theorem moved_claim (live : s.live i = some v) {locked : List Nat} (keyed : (s.rows.map (·.id)).Nodup)
    (mem : r' ∈ (v.claim now locked s.rows).2) :
    ∃ r ∈ s.rows, r'.id = r.id ∧ Moved s (.act now i (.claim locked)) r r' := by
  obtain ⟨r, old, rfl⟩ := List.mem_map.mp mem
  split
  · next taken =>
    obtain ⟨r₀, chosen, same⟩ := List.mem_map.mp taken
    obtain ⟨mem₀, eligible⟩ := mem_nextBatch chosen
    obtain rfl : r₀ = r := List.inj_on_of_nodup_map keyed mem₀ old same
    exact ⟨r₀, old, rfl, .claimed rfl live (List.mem_map_of_mem chosen) eligible rfl rfl⟩
  · exact ⟨r, old, rfl, .kept nofun rfl rfl⟩

theorem moved_heartbeat {id : Nat} {lockOwner : Option String} {leaseSeconds : Int} (unreported : ∀ e, reported s op ≠ some e)
    (mem : r' ∈ heartbeat id lockOwner leaseSeconds now rows) : ∃ r ∈ rows, r'.id = r.id ∧ Moved s op r r' := by
  obtain ⟨r, old, ⟨-, rfl⟩ | ⟨-, rfl⟩⟩ := mem_updateRow mem
  · refine ⟨r, old, ?_⟩
    split
    · exact ⟨rfl, .kept (unreported _) rfl rfl⟩
    · split
      · exact ⟨rfl, .kept (unreported _) rfl rfl⟩
      · exact ⟨rfl, .kept (unreported _) rfl rfl⟩
  · exact ⟨_, old, rfl, .kept (unreported _) rfl rfl⟩

theorem moved_finish (live : s.live i = some v) {running : Running} (at_hand : v.running = some running)
    {error : Option String} (mem : r' ∈ v.mark running.item.id error now s.rows) :
    ∃ r ∈ s.rows, r'.id = r.id ∧ Moved s (.act now i (.finish error)) r r' := by
  have reports : reported s (.act now i (.finish error)) = some running.item.id := by
    simp only [reported, live, at_hand, Option.bind_some, Option.map_some]
  have own_report : ∀ {r : OutboxRow}, r.id = running.item.id →
      reported s (.act now i (.finish error)) = some r.id := fun own => reports.trans (congrArg some own.symm)
  have other_report : ∀ {r : OutboxRow}, r.id ≠ running.item.id →
      reported s (.act now i (.finish error)) ≠ some r.id := fun other same =>
    other (Option.some.inj (same.symm.trans reports))
  cases error with
  | none =>
    obtain ⟨r, old, ⟨own, rfl⟩ | ⟨other, rfl⟩⟩ := mem_updateRow mem
    · exact ⟨r, old, rfl, .processed (own_report own) nofun rfl⟩
    · exact ⟨_, old, rfl, .kept (other_report other) rfl rfl⟩
  | some error =>
    obtain ⟨r, old, ⟨own, rfl⟩ | ⟨other, rfl⟩⟩ := mem_updateRow mem
    · refine ⟨r, old, ?_⟩
      dsimp only
      split
      · next spent => exact ⟨rfl, .failed (own_report own) (mem_workers live).1 rfl (.inl ⟨spent, rfl⟩)⟩
      · next left => exact ⟨rfl, .failed (own_report own) (mem_workers live).1 rfl (.inr ⟨Nat.lt_of_not_le left, rfl⟩)⟩
    · exact ⟨_, old, rfl, .kept (other_report other) rfl rfl⟩

/-- Every row after a step is a new one, or comes from one before it. -/
theorem step_rows (keyed : (s.rows.map (·.id)).Nodup) (mem : r' ∈ (Lease.step s op).rows) :
    (r'.id = s.nextId ∧ r'.status = .pending ∧ ∀ e, reported s op ≠ some e) ∨ ∃ r ∈ s.rows, r'.id = r.id ∧ Moved s op r r' := by
  cases op with
  | append now eventType idempotencyKey =>
    simp only [Lease.step, append] at mem
    split at mem
    · exact .inr ⟨r', mem, rfl, .kept (Option.some_ne_none _).symm rfl rfl⟩
    · rcases List.mem_append.mp mem with old | new
      · exact .inr ⟨r', old, rfl, .kept (Option.some_ne_none _).symm rfl rfl⟩
      · rw [List.mem_singleton.mp new]
        exact .inl ⟨rfl, rfl, fun _ => (Option.some_ne_none _).symm⟩
  | requeue now eventId =>
    obtain ⟨r, old, ⟨own, rfl⟩ | ⟨-, rfl⟩⟩ := mem_updateRow mem
    · exact .inr ⟨r, old, rfl, .requeued (congrArg some own.symm) rfl⟩
    · exact .inr ⟨_, old, rfl, .kept (Option.some_ne_none _).symm rfl rfl⟩
  | act now i action =>
    right
    rcases step_act_forms s now i action with ⟨idle, same⟩ | ⟨v, rows', v', live, acted, same⟩
    · rw [same] at mem
      refine ⟨r', mem, rfl, .kept ?_ rfl rfl⟩
      intro reports
      obtain ⟨now', i', error, v, running, call, live, at_hand, -⟩ := reported_forms reports
      cases call
      have acted := idle v live
      simp only [WorkerState.act, at_hand, Option.map_some, reduceCtorEq] at acted
    · rw [same] at mem
      cases action with
      | claim locked =>
        obtain ⟨-, acted⟩ := Option.ite_none_right_eq_some.mp acted
        cases acted
        exact moved_claim live keyed mem
      | start =>
        obtain ⟨-, -, -, -, rfl, -⟩ := act_start acted
        exact ⟨r', mem, rfl, .kept (Option.some_ne_none _).symm rfl rfl⟩
      | heartbeat item =>
        cases acted
        exact moved_heartbeat (fun _ => (Option.some_ne_none _).symm) mem
      | finish error =>
        obtain ⟨running, at_hand, acted⟩ := Option.map_eq_some_iff.mp acted
        cases acted
        exact moved_finish live at_hand mem
      | crash =>
        cases acted
        exact ⟨r', mem, rfl, .kept (Option.some_ne_none _).symm rfl rfl⟩

end

/-! ### Dispatches and attempts -/

/-- What a row leaves room for: it has been dispatched `d` times, and perhaps the last end is not reported. -/
def Room (maxAttempts d : Nat) (unreported : Prop) (r : OutboxRow) : Prop :=
  match r.status with
  | .pending => d = 0
  | .retry => d ≤ r.attempts ∧ d < maxAttempts
  | .processing => d ≤ r.attempts + 1 ∧ d ≤ maxAttempts ∧ (¬unreported → d ≤ r.attempts ∧ d < maxAttempts)
  | .processed | .deadLetter => d ≤ maxAttempts

section
variable {maxAttempts d : Nat} {p q : Prop} {r r' : OutboxRow}

theorem Room.le (h : Room maxAttempts d p r) : d ≤ maxAttempts := by
  unfold Room at h
  split at h
  · omega
  · exact h.2.le
  · exact h.2.1
  · exact h
  · exact h

theorem Room.zero (positive : 1 ≤ maxAttempts) : Room maxAttempts 0 p r := by
  unfold Room
  split
  · rfl
  · omega
  · omega
  · omega
  · omega

theorem Room.congr (h : Room maxAttempts d p r) (same : p ↔ q) (status : r'.status = r.status)
    (attempts : r'.attempts = r.attempts) : Room maxAttempts d q r' := by
  unfold Room at h ⊢
  rw [status, attempts, ← same]
  exact h

theorem Room.claimed (h : Room maxAttempts d p r) (positive : 1 ≤ maxAttempts) (reports : ¬p) {now stale : Int}
    (eligible : outboxEligibleFilter now stale r = true) (status : r'.status = .processing) (attempts : r'.attempts = r.attempts) :
    Room maxAttempts d q r' := by
  have room : d ≤ r.attempts ∧ d < maxAttempts := by
    unfold Room at h
    split at h
    · omega
    · exact h
    · exact h.2.2 reports
    · next processed => simp [outboxEligibleFilter, processed] at eligible
    · next dead => simp [outboxEligibleFilter, dead] at eligible
  simp only [Room, status, attempts]
  omega

theorem Room.started (h : Room maxAttempts d p r) (reports : ¬p) (processing : r.status = .processing)
    (status : r'.status = r.status) (attempts : r'.attempts = r.attempts) : Room maxAttempts (d + 1) True r' := by
  simp only [Room, processing] at h
  obtain ⟨room, left⟩ := h.2.2 reports
  simp only [Room, status, processing, attempts]
  exact ⟨Nat.succ_le_succ room, left, fun none => absurd trivial none⟩

theorem Room.failed (h : Room maxAttempts d p r) (processing : r.status = .processing) {maxRetries : Nat}
    (limit : maxRetries ≤ maxAttempts) (attempts : r'.attempts = r.attempts + 1)
    (status : maxRetries ≤ r'.attempts ∧ r'.status = .deadLetter ∨ r'.attempts < maxRetries ∧ r'.status = .retry) :
    Room maxAttempts d q r' ∧ (d = maxAttempts → r'.status = .deadLetter) := by
  simp only [Room, processing] at h
  rcases status with ⟨-, status⟩ | ⟨left, status⟩
  · simp only [Room, status]
    exact ⟨h.2.1, fun _ => trivial⟩
  · simp only [Room, status]
    refine ⟨by omega, fun spent => ?_⟩
    omega

end

/-- How the dispatches go with the rows, and who holds what. -/
structure Counted (maxAttempts : Nat) (w : Watched) : Prop where
  sound : Sound w.toState
  limits : ∀ v ∈ w.workers, v.worker.maxRetries ≤ maxAttempts
  room : ∀ r ∈ w.rows, Room maxAttempts (w.starts.count r.id) (r.id ∈ w.unreported) r
  waiting : ∀ i v, w.live i = some v → ∀ item ∈ v.waiting, item.id ∉ w.unreported
  known : ∀ e ∈ w.starts, e ∈ w.rows.map (·.id)

section
variable {maxAttempts : Nat} {w : Watched} {s : State} {op : Op} {e : Nat}

theorem count_step (w : Watched) (op : Op) (e : Nat) : (step w op).starts.count e =
    (if requeued op = some e then 0 else w.starts.count e) + if dispatched w.toState op = some e then 1 else 0 := by
  simp only [step, List.count_append]
  congr 1
  · split
    · next again => exact List.count_eq_zero.mpr fun mem => by simp [again] at mem
    · next other => exact List.count_filter (by simpa using other)
  · cases dispatched w.toState op with
    | none => simp
    | some e' =>
      by_cases same : e' = e
      · simp [same]
      · simp [same]

theorem unreported_step : e ∈ (step w op).unreported ↔
    (e ∈ w.unreported ∧ requeued op ≠ some e ∧ reported w.toState op ≠ some e) ∨ dispatched w.toState op = some e := by
  simp [step, List.mem_append, List.mem_filter]

theorem ids_step (mem : e ∈ s.rows.map (·.id)) : e ∈ (Lease.step s op).rows.map (·.id) := by
  cases op with
  | append now eventType idempotencyKey =>
    simp only [Lease.step, append]
    split
    · exact mem
    · rw [List.map_append]
      exact List.mem_append_left _ mem
  | requeue now eventId =>
    simp only [Lease.step]
    rwa [ids_requeueJob]
  | act now i action =>
    rcases step_act_forms s now i action with ⟨-, same⟩ | ⟨v, rows', v', -, acted, same⟩
    · rwa [same]
    · rw [same, ids_act acted]
      exact mem

/-- A worker keeps its settings, and waits with what it waited with or what it has claimed. -/
theorem act_forms {v v' : WorkerState} {rows rows' : List OutboxRow} {now : Int} {action : Action}
    (acted : v.act now rows action = some (rows', v')) : v'.worker = v.worker ∧
      ∀ item ∈ v'.waiting, item ∈ v.waiting ∨ ∃ locked, action = .claim locked ∧ item ∈ (v.claim now locked rows).1 := by
  cases action with
  | claim locked =>
    obtain ⟨-, acted⟩ := Option.ite_none_right_eq_some.mp acted
    cases acted
    exact ⟨rfl, fun item mem => .inr ⟨locked, rfl, mem⟩⟩
  | start =>
    obtain ⟨item, rest, -, waiting, -, rfl⟩ := act_start acted
    refine ⟨rfl, fun item mem => .inl ?_⟩
    rw [waiting]
    exact List.mem_cons_of_mem _ mem
  | heartbeat item =>
    cases acted
    exact ⟨rfl, fun item mem => .inl mem⟩
  | finish error =>
    obtain ⟨running, at_hand, acted⟩ := Option.map_eq_some_iff.mp acted
    cases acted
    exact ⟨rfl, fun item mem => .inl mem⟩
  | crash =>
    cases acted
    exact ⟨rfl, fun item mem => .inl mem⟩

theorem limits_step (h : ∀ v ∈ s.workers, v.worker.maxRetries ≤ maxAttempts) :
    ∀ v ∈ (Lease.step s op).workers, v.worker.maxRetries ≤ maxAttempts := by
  cases op with
  | append | requeue =>
    simp only [Lease.step]
    exact h
  | act now i action =>
    rcases step_act_forms s now i action with ⟨-, same⟩ | ⟨v, rows', v', live, acted, same⟩
    · rwa [same]
    · rw [same]
      intro u mem
      rcases List.mem_or_eq_of_mem_set mem with old | rfl
      · exact h u old
      · rw [(act_forms acted).1]
        exact h v (mem_workers live).1

theorem waiting_step {j : Nat} {u : WorkerState} {item : OutboxWorkItem} (live : (Lease.step s op).live j = some u)
    (mem : item ∈ u.waiting) : (∃ u₀, s.live j = some u₀ ∧ item ∈ u₀.waiting) ∨
      ∃ now i locked v, op = .act now i (.claim locked) ∧ s.live i = some v ∧ item ∈ (v.claim now locked s.rows).1 := by
  cases op with
  | append | requeue =>
    simp only [Lease.step, State.live] at live
    exact .inl ⟨u, live, mem⟩
  | act now i action =>
    rcases step_act_forms s now i action with ⟨-, same⟩ | ⟨v, rows', v', live_v, acted, same⟩
    · rw [same] at live
      exact .inl ⟨u, live, mem⟩
    · rw [same, live_set live_v] at live
      split at live
      · next own =>
        obtain ⟨own_u, -⟩ := Option.filter_eq_some_iff.mp live
        cases own_u
        rcases (act_forms acted).2 item mem with old | ⟨locked, call, claimed⟩
        · exact .inl ⟨v, own ▸ live_v, old⟩
        · exact .inr ⟨now, i, locked, v, by rw [call], live_v, claimed⟩
      · exact .inl ⟨u, live, mem⟩

/-- Nobody waits with an event that has just been dispatched. -/
theorem dispatched_not_waiting (sound : Sound (Lease.step s op)) (starts : dispatched s op = some e) {j : Nat} {u : WorkerState}
    (live : (Lease.step s op).live j = some u) {item : OutboxWorkItem} (mem : item ∈ u.waiting) : item.id ≠ e := by
  obtain ⟨now, i, v, first, rest, rfl, live_v, idle, waiting, rfl⟩ := dispatched_forms starts
  have stepped : (Lease.step s (.act now i .start)).live i =
      some { v with waiting := rest, running := some { item := first, startedAt := now, beatAt := now } } := by
    have acted : v.act now s.rows .start =
        some (s.rows, { v with waiting := rest, running := some { item := first, startedAt := now, beatAt := now } }) := by
      simp only [WorkerState.act, idle, waiting]
    simp only [Lease.step, live_v, Option.bind_some, acted]
    rw [live_set live_v, if_pos rfl]
    exact Option.filter_eq_some_iff.mpr ⟨rfl, (mem_workers live_v).2⟩
  intro same
  by_cases own : j = i
  · rw [own, stepped] at live
    cases live
    have distinct := sound.distinct i _ stepped
    rw [held_running rfl] at distinct
    exact (List.nodup_cons.mp distinct).1 (same ▸ List.mem_map_of_mem mem)
  · refine sound.apart j i u _ own live stepped (a := item.id) ?_ ?_
    · exact List.mem_map_of_mem (List.mem_append_right _ mem)
    · rw [held_running rfl, same]
      exact List.mem_cons_self

theorem Counted.row (h : Counted maxAttempts w) {r : OutboxRow} (mem : r ∈ w.rows) {i : Nat} {v : WorkerState}
    (live : w.live i = some v) (held : r.id ∈ v.held) : r.status = .processing := by
  obtain ⟨r₀, mem₀, same, processing⟩ := h.sound.processing i v live _ held
  obtain rfl : r₀ = r := List.inj_on_of_nodup_map h.sound.keyed mem₀ mem same
  exact processing

/-- The counts go with the rows after every step. -/
theorem Counted.room_step (h : Counted maxAttempts w) (positive : 1 ≤ maxAttempts) (reports : Reported w op) :
    ∀ r ∈ (step w op).rows, Room maxAttempts ((step w op).starts.count r.id) (r.id ∈ (step w op).unreported) r := by
  intro r' mem
  rw [count_step]
  rcases step_rows h.sound.keyed mem with ⟨new, status, unreported⟩ | ⟨r, old, same, moved⟩
  · have unknown : r'.id ∉ w.rows.map (·.id) := fun known => (h.sound.below _ known).ne new
    have unstarted : w.starts.count r'.id = 0 := List.count_eq_zero.mpr fun started => unknown (h.known _ started)
    have undispatched : dispatched w.toState op ≠ some r'.id := by
      intro starts
      obtain ⟨now, i, v, item, rest, rfl, live, idle, waiting, key⟩ := dispatched_forms starts
      have held : r'.id ∈ v.held := by
        rw [held_waiting idle, waiting, ← key]
        exact List.mem_cons_self
      obtain ⟨r₀, mem₀, same, -⟩ := h.sound.processing i v live _ held
      exact unknown (List.mem_map.mpr ⟨r₀, mem₀, same⟩)
    simp only [Room, status, unstarted, undispatched, if_false, ite_self]
  · rw [same]
    have room := h.room r old
    cases moved with
    | kept unreported status attempts =>
      by_cases starts : dispatched w.toState op = some r.id
      · obtain ⟨now, i, v, item, rest, rfl, live, idle, waiting, key⟩ := dispatched_forms starts
        have first : item ∈ v.waiting := waiting ▸ List.mem_cons_self
        have held : r.id ∈ v.held := by
          rw [held_waiting idle, ← key]
          exact List.mem_map_of_mem first
        rw [if_pos starts, if_neg nofun]
        refine (room.started (key ▸ h.waiting i v live item first) (h.row old live held) status attempts).congr ?_ rfl rfl
        exact ⟨fun _ => unreported_step.mpr (.inr starts), fun _ => trivial⟩
      · rw [if_neg starts]
        by_cases again : requeued op = some r.id
        · rw [if_pos again]
          exact .zero positive
        · rw [if_neg again]
          refine room.congr ?_ status attempts
          rw [unreported_step]
          simp [again, unreported, starts]
    | claimed call live taken eligible status attempts =>
      subst call
      simp only [requeued, dispatched, reduceCtorEq, if_false]
      exact room.claimed positive (reports.2 _ live _ taken) eligible status attempts
    | requeued call status =>
      cases op with
      | requeue now eventId => simp only [Room, status, call, dispatched, reduceCtorEq, if_true, if_false]
      | _ => cases call
    | processed call success status =>
      obtain ⟨now, i, error, v, running, rfl, live, at_hand, key⟩ := reported_forms call
      simp only [requeued, dispatched, reduceCtorEq, if_false]
      simp only [Room, status]
      exact room.le
    | failed call worker attempts status =>
      obtain ⟨now, i, error, v, running, rfl, live, at_hand, key⟩ := reported_forms call
      have held : r.id ∈ v.held := by
        rw [held_running at_hand, key]
        exact List.mem_cons_self
      simp only [requeued, dispatched, reduceCtorEq, if_false]
      exact (room.failed (h.row old live held) (h.limits _ worker) attempts status).1

theorem Counted.step (h : Counted maxAttempts w) (positive : 1 ≤ maxAttempts) (reports : Reported w op) :
    Counted maxAttempts (step w op) where
  sound := h.sound.step reports.1
  limits := limits_step h.limits
  room := h.room_step positive reports
  waiting j u live item mem unreported := by
    rcases unreported_step.mp unreported with ⟨before, -, -⟩ | starts
    · rcases waiting_step live mem with ⟨u₀, live₀, mem₀⟩ | ⟨now, i, locked, v, call, live_v, claimed⟩
      · exact h.waiting j u₀ live₀ item mem₀ before
      · subst call
        exact reports.2 v live_v item claimed before
    · exact dispatched_not_waiting (h.sound.step reports.1) starts live mem rfl
  known e mem := by
    refine ids_step ?_
    rcases List.mem_append.mp mem with old | new
    · exact h.known e (List.mem_filter.mp old).1
    · obtain ⟨now, i, v, item, rest, -, live, idle, waiting, key⟩ := dispatched_forms (Option.mem_toList.mp new)
      have held : e ∈ v.held := by
        rw [held_waiting idle, waiting, ← key]
        exact List.mem_cons_self
      obtain ⟨r, mem, same, -⟩ := h.sound.processing i v live _ held
      exact List.mem_map.mpr ⟨r, mem, same⟩

theorem Counted.row_of_full (h : Counted maxAttempts w) (positive : 1 ≤ maxAttempts) (full : w.starts.count e = maxAttempts) :
    ∃ r ∈ w.rows, r.id = e :=
  List.mem_map.mp (h.known e (List.count_pos_iff.mp (full ▸ positive)))

theorem Counted.le (h : Counted maxAttempts w) (e : Nat) : w.starts.count e ≤ maxAttempts := by
  by_cases started : e ∈ w.starts
  · obtain ⟨r, mem, rfl⟩ := List.mem_map.mp (h.known e started)
    exact (h.room r mem).le
  · rw [List.count_eq_zero.mpr started]
    exact Nat.zero_le _

theorem Counted.ended (h : Counted maxAttempts w) (positive : 1 ≤ maxAttempts) (full : w.starts.count e = maxAttempts)
    (reports : e ∉ w.unreported) : HasStatus w.rows e .processed ∨ HasStatus w.rows e .deadLetter := by
  obtain ⟨r, mem, rfl⟩ := h.row_of_full positive full
  have room := h.room r mem
  rw [full] at room
  unfold Room at room
  split at room
  · omega
  · omega
  · exact absurd (room.2.2 reports).2 (Nat.lt_irrefl _)
  · next processed => exact .inl ⟨r, mem, rfl, processed⟩
  · next dead => exact .inr ⟨r, mem, rfl, dead⟩

theorem Counted.failed (h : Counted maxAttempts w) (positive : 1 ≤ maxAttempts) (reports : Reported w op) {now : Int} {i : Nat}
    {error : String} (call : op = .act now i (.finish (some error))) (own : reported w.toState op = some e)
    (full : (Attempts.step w op).starts.count e = maxAttempts) : HasStatus (Attempts.step w op).rows e .deadLetter := by
  obtain ⟨r', mem, rfl⟩ := (h.step positive reports).row_of_full positive full
  subst call
  rw [count_step] at full
  simp only [requeued, dispatched, reduceCtorEq, if_false, Nat.add_zero] at full
  rcases step_rows h.sound.keyed mem with ⟨-, -, unreported⟩ | ⟨r, old, same, moved⟩
  · exact absurd own (unreported _)
  · rw [same] at own full
    cases moved with
    | kept unreported status attempts => exact absurd own unreported
    | claimed call => cases call
    | requeued call => cases call
    | processed call success status => exact absurd rfl (success now i error)
    | failed call worker attempts status =>
      obtain ⟨now', i', error', v, running, -, live, at_hand, key⟩ := reported_forms call
      have held : r.id ∈ v.held := by
        rw [held_running at_hand, key]
        exact List.mem_cons_self
      have dead := ((h.room r old).failed (q := True) (h.row old live held) (h.limits _ worker) attempts status).2 full
      exact ⟨r', mem, rfl, dead⟩

theorem Counted.bounded (h : Counted maxAttempts w) (positive : 1 ≤ maxAttempts) (reports : Reported w op) :
    Bounded maxAttempts w op where
  dispatches := (h.step positive reports).le
  ended _ := (h.step positive reports).ended positive
  failed _ _ _ _ := h.failed positive reports

theorem counted_start (start : Started s) (positive : 1 ≤ maxAttempts)
    (limits : ∀ v ∈ s.workers, v.worker.maxRetries ≤ maxAttempts) : Counted maxAttempts (watch s) where
  sound := start.sound
  limits := limits
  room _ _ := .zero positive
  waiting _ _ _ _ _ := List.not_mem_nil
  known _ h := absurd h List.not_mem_nil

/-- In every run in which no event is claimed while a live worker holds it or its last dispatch is not reported, none is
    dispatched more than `maxAttempts` times between two requeues, and after that it is a dead letter. -/
theorem attempts_bounded (start : Started s) (positive : 1 ≤ maxAttempts)
    (limits : ∀ v ∈ s.workers, v.worker.maxRetries ≤ maxAttempts) (ops : List Op)
    (h : Always step Reported (watch s) ops) : Always step (Bounded maxAttempts) (watch s) ops :=
  h.of_invariant (Counted maxAttempts) (counted_start start positive limits)
    (fun _ _ counted reports => counted.step positive reports) fun _ _ counted reports => counted.bounded positive reports

end

/-! ### A handler that takes its worker down -/

/-- Worker 0 fails, worker 1 takes over and is done. -/
theorem attempts_bounded_when_reported :
    Always step (Bounded 10) (watch twoWorkers) [.act 0 0 (.claim []), .act 0 0 .start, .act 5 0 (.finish (some "timeout")),
      .act (seconds 20) 1 (.claim []), .act (seconds 20) 1 .start, .act (seconds 25) 1 (.finish none)] := by
  refine attempts_bounded ⟨by decide, by decide, by decide⟩ (by decide) (by decide) _ ?_
  decide +kernel

/-- Eleven workers with the default settings, one after another. -/
def restarted : State := { twoWorkers with workers := List.replicate 11 { worker := { lockOwner := some "a:1" } } }

/-- Each of ten workers claims the event when the lock of the one before it is stale, and crashes over it. -/
def crashes : List Op := (List.range 10).flatMap fun (k : Nat) =>
  [.act (seconds (301 * k)) k (.claim []), .act (seconds (301 * k)) k .start, .act (seconds (301 * k)) k .crash]

theorem attempts_not_bounded : ¬Always step (Bounded 10) (watch restarted)
    (crashes ++ [.act (seconds 3010) 10 (.claim []), .act (seconds 3010) 10 .start]) := by
  intro h
  obtain ⟨-, -, last, -⟩ := always_append.mp h
  have spent := last.dispatches 1
  revert spent
  decide +kernel

end NyzRating.Events.Attempts
