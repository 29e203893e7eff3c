import NyzRating.Events.AuditLog
import NyzRating.Events.ProcessedFinal

/-!
# One audit row for each event

A worker starts a thread for the handler of an event, and waits for it for so long. What the handler has inserted stays, whatever
becomes of the thread, of the worker, or of the mark that the worker makes after it.
-/

namespace NyzRating.Events.AuditOnce

open Runs
open Lease (Processing Sound)
open ProcessedFinal (Processed)

/-! ### Threads -/

inductive Phase where
  | running
  | returned
  | raised
  deriving DecidableEq, Repr

/-- The thread of `dispatch_with_timeout`; `faulty` where the database has failed it. -/
structure Dispatch where
  worker : Nat
  eventId : Nat
  phase : Phase := .running
  faulty : Bool := false
  deriving DecidableEq, Repr

/-- The database fails a handler before it has committed, or after that and before the handler learns of it. -/
inductive Fault where
  | refused
  | unacknowledged
  deriving DecidableEq, Repr

/-- The payloads of the audit events by their ids, the threads that workers wait for and those that they have given up, and the
    audit logs of the schemas. Which event an entry is for, and which events have been `served`, no table says. -/
structure State where
  base : Lease.State
  payload : Nat → Option AuditCall := fun _ => none
  awaited : Nat → Option Dispatch := fun _ => none
  orphans : List Dispatch := []
  auditLog : List (Nat × AuditEntry) := []
  served : List Nat := []

inductive Op where
  /-- `AuditServiceProxy.log`, under this soft limit of the backlog; its transaction is committed. -/
  | log (now : Int) (softLimit : Nat) (call : AuditCall)
  /-- Another event. -/
  | publish (now : Int) (eventType : String) (idempotencyKey : Option String)
  | requeue (now : Int) (eventId : Nat)
  | claim (now : Int) (i : Nat) (locked : List Nat)
  | start (now : Int) (i : Nat)
  | heartbeat (now : Int) (i : Nat) (item : OutboxWorkItem)
  /-- The handler of the event that worker `i` waits for, on the schemas as they are. -/
  | handle (i : Nat) (fault : Option Fault) (tenants : List TenantTables)
  /-- The same for a thread that its worker has given up. -/
  | late (k : Nat) (fault : Option Fault) (tenants : List TenantTables)
  /-- The worker ends its wait and marks the event; the database refuses the first `failing` marks. -/
  | finish (now : Int) (i : Nat) (failing : Nat) (error : String)
  | crash (now : Int) (i : Nat)

/-- The marks that `process_one` tries, one after the failure of the other. -/
def Dispatch.marks (t : Dispatch) (error : String) : List (Option String) :=
  match t.phase with
  | .returned => [none, some error]
  | .raised | .running => [some error]

/-- No mark could be made, and the poll loop goes on without its batch. -/
def abandon (s : Lease.State) (now : Int) (i : Nat) : Lease.State :=
  match s.live i with
  | none => { s with clock := now }
  | some v => { s with workers := s.workers.set i { v with waiting := [], running := none }, clock := now }

/-- The event whose handler worker `i` would start next. -/
def next (s : Lease.State) (i : Nat) : Option Nat :=
  (s.live i).bind fun v => if v.running.isNone then v.waiting.head?.map (·.id) else none

def backlogSize (rows : List OutboxRow) : Nat :=
  rows.countP fun r => r.status = .pending || r.status = .retry || r.status = .processing

section
variable (isalnum : Char → Bool)

/-- What a handler inserts, and how it ends. A handler of another event leaves the audit log alone. -/
def State.dispatch (s : State) (t : Dispatch) (fault : Option Fault) (tenants : List TenantTables) : Option AuditEntry × Phase :=
  match s.payload t.eventId, fault with
  | none, none => (none, .returned)
  | none, some _ => (none, .raised)
  | some _, some .refused => (none, .raised)
  | some call, some .unacknowledged => (deliver isalnum tenants call.payload, .raised)
  | some call, none =>
    match deliver isalnum tenants call.payload with
    | none => (none, .raised)
    | some entry => (some entry, .returned)

def step (s : State) : Op → State
  | .log now softLimit call =>
    if backlogSize s.base.rows ≥ max 1 softLimit then s
    else
      { s with
        base := Lease.step s.base (.append now "audit" none)
        payload := Function.update s.payload s.base.nextId (some call) }
  | .publish now eventType idempotencyKey => { s with base := Lease.step s.base (.append now eventType idempotencyKey) }
  | .requeue now eventId => { s with base := Lease.step s.base (.requeue now eventId) }
  | .claim now i locked => { s with base := Lease.step s.base (.act now i (.claim locked)) }
  | .start now i =>
    match next s.base i with
    | none => s
    | some eventId =>
      { s with
        base := Lease.step s.base (.act now i .start)
        awaited := Function.update s.awaited i (some { worker := i, eventId }) }
  | .heartbeat now i item => { s with base := Lease.step s.base (.act now i (.heartbeat item)) }
  | .handle i fault tenants =>
    match s.awaited i with
    | none => s
    | some t =>
      if t.phase = .running then
        let (entry, phase) := s.dispatch isalnum t fault tenants
        { s with
          auditLog := s.auditLog ++ entry.toList.map (t.eventId, ·)
          awaited := Function.update s.awaited i (some { t with phase, faulty := fault.isSome }) }
      else s
  | .late k fault tenants =>
    match s.orphans[k]? with
    | none => s
    | some t =>
      { s with
        auditLog := s.auditLog ++ (s.dispatch isalnum t fault tenants).1.toList.map (t.eventId, ·)
        orphans := s.orphans.eraseIdx k }
  | .finish now i failing error =>
    match s.awaited i with
    | none => s
    | some t =>
      { s with
        base :=
          match (t.marks error)[failing]? with
          | some mark => Lease.step s.base (.act now i (.finish mark))
          | none => abandon s.base now i
        awaited := Function.update s.awaited i none
        orphans := if t.phase = .running then s.orphans ++ [t] else s.orphans
        served := if t.phase ≠ .running ∧ t.faulty = false ∧ failing = 0 then t.eventId :: s.served else s.served }
  | .crash now i =>
    { s with
      base := Lease.step s.base (.act now i .crash)
      awaited := Function.update s.awaited i none
      orphans := s.orphans.filter (·.worker ≠ i) }

/-! ### What is promised -/

/-- The entries of an event. -/
def State.entriesOf (s : State) (e : Nat) : List AuditEntry := (s.auditLog.filter (·.1 = e)).map (·.2)

/-- No event is pending, to be retried or being processed. -/
def Settled (s : State) : Prop := ∀ r ∈ s.base.rows, r.status = .processed ∨ r.status = .deadLetter

instance (s : State) : Decidable (Settled s) := inferInstanceAs (Decidable (∀ r ∈ s.base.rows, _))

/-- Every logged event has at some time been dispatched without crash, timeout or outage. -/
def AllServed (s : State) : Prop := ∀ e < s.base.nextId, (s.payload e).isSome → e ∈ s.served

instance (s : State) : Decidable (AllServed s) := inferInstanceAs (Decidable (∀ e < s.base.nextId, _))

def ExactlyOnce (s : State) : Prop :=
  AllServed s → Settled s → ∀ e call, s.payload e = some call → ∃ entry, s.entriesOf e = [entry] ∧ Recorded isalnum call entry

/-- The calls can be delivered, and their schema and user are there when they are. Once a handler has inserted its row, its
    thread returns, its worker waits for it and marks the event, and no one else handles the event again. -/
def Undisturbed (s : State) : Op → Prop
  | .log _ _ call => call.Deliverable
  | .requeue now eventId => Lease.InLease s.base (.requeue now eventId) ∧ eventId ∉ s.auditLog.map (·.1)
  | .claim now i locked => Lease.InLease s.base (.act now i (.claim locked))
  | .handle i fault tenants => ∀ t ∈ s.awaited i, t.phase = .running → ∀ call ∈ s.payload t.eventId,
      fault ≠ some .unacknowledged ∧ (fault = none → Found tenants (searchPath isalnum call.tenant) call.userId)
  | .late k fault _ => ∀ t ∈ s.orphans[k]?, (s.payload t.eventId).isSome → fault = some .refused
  | .finish _ i failing _ => ∀ t ∈ s.awaited i, (s.payload t.eventId).isSome → t.phase = .returned → failing = 0
  | .crash _ i => ∀ t ∈ s.awaited i, (s.payload t.eventId).isSome → t.phase ≠ .returned
  | .publish .. | .start .. | .heartbeat .. => True

instance (s : State) : DecidablePred (Undisturbed isalnum s)
  | .log _ _ call => inferInstanceAs (Decidable call.Deliverable)
  | .requeue now eventId => inferInstanceAs (Decidable (Lease.InLease s.base (.requeue now eventId) ∧ _))
  | .claim now i locked => inferInstanceAs (Decidable (Lease.InLease s.base (.act now i (.claim locked))))
  | .handle i _ _ => inferInstanceAs (Decidable (∀ t ∈ s.awaited i, _))
  | .late k _ _ => inferInstanceAs (Decidable (∀ t ∈ s.orphans[k]?, _))
  | .finish _ i _ _ => inferInstanceAs (Decidable (∀ t ∈ s.awaited i, _))
  | .crash _ i => inferInstanceAs (Decidable (∀ t ∈ s.awaited i, _))
  | .publish .. | .start .. | .heartbeat .. => .isTrue trivial

end

/-! ### Workers that hold an event -/

section
variable {s s' : Lease.State} {op : Lease.Op} {i j e : Nat}

/-- Worker `i` runs the handler of event `e`. -/
def Holds (s : Lease.State) (i e : Nat) : Prop := ∃ v r, s.live i = some v ∧ v.running = some r ∧ r.item.id = e

theorem Holds.held (h : Holds s i e) : ∃ v, s.live i = some v ∧ e ∈ v.held := by
  obtain ⟨v, r, live, running, rfl⟩ := h
  refine ⟨v, live, ?_⟩
  rw [Lease.held_running running]
  exact List.mem_cons_self

theorem Holds.processing (h : Holds s i e) (sound : Sound s) : Processing s.rows e := by
  obtain ⟨v, live, held⟩ := h.held
  exact sound.processing i v live e held

theorem Holds.below (h : Holds s i e) (sound : Sound s) : e < s.nextId := by
  obtain ⟨r, mem, rfl, -⟩ := h.processing sound
  exact sound.below _ (List.mem_map_of_mem mem)

theorem Holds.not_processed (h : Holds s i e) (sound : Sound s) : ¬Processed s.rows e := by
  rintro ⟨r, mem, key, processed⟩
  obtain ⟨r', mem', key', processing⟩ := h.processing sound
  have same : r' = r := List.inj_on_of_nodup_map sound.keyed mem' mem (key'.trans key.symm)
  rw [same, processed] at processing
  cases processing

theorem Holds.unique (h : Holds s i e) (h' : Holds s j e) (sound : Sound s) : i = j := by
  by_contra other
  obtain ⟨v, live, held⟩ := h.held
  obtain ⟨w, live', held'⟩ := h'.held
  exact sound.apart i j v w other live live' held held'

theorem Holds.congr (h : Holds s j e) (same : s'.workers = s.workers) : Holds s' j e := by
  unfold Holds Lease.State.live at h ⊢
  rw [same]
  exact h

/-- A worker runs the handler until it ends its wait, or crashes. -/
theorem Holds.step (h : Holds s j e) (waits : ∀ now error, op ≠ .act now j (.finish error))
    (lives : ∀ now, op ≠ .act now j .crash) : Holds (Lease.step s op) j e := by
  cases op with
  | append now eventType idempotencyKey => exact h.congr (by dsimp only [Lease.step])
  | requeue now eventId => exact h.congr (by dsimp only [Lease.step])
  | act now i action =>
    obtain ⟨-, idle⟩ | ⟨v, rows, v', live, acted, stepped⟩ := Lease.step_act_forms s now i action
    · rw [idle]
      exact h
    · obtain ⟨w, r, live_w, running, key⟩ := h
      rw [stepped]
      unfold Holds
      simp only [Lease.live_set live]
      by_cases other : j = i
      · subst other
        cases live.symm.trans live_w
        obtain ⟨-, alive⟩ := Lease.mem_workers live
        simp only [if_true]
        cases action with
        | claim locked =>
          obtain ⟨⟨idle, -⟩, -⟩ := Option.ite_none_right_eq_some.mp acted
          rw [running] at idle
          cases idle
        | start =>
          obtain ⟨-, -, idle, -⟩ := Lease.act_start acted
          rw [running] at idle
          cases idle
        | heartbeat item =>
          cases acted
          refine ⟨_, _, Option.filter_eq_some_iff.mpr ⟨rfl, alive⟩, congrArg (Option.map _) running, ?_⟩
          dsimp only
          split
          · exact key
          · exact key
        | finish error => exact absurd rfl (waits now error)
        | crash => exact absurd rfl (lives now)
      · simp only [if_neg other]
        exact ⟨w, r, live_w, running, key⟩

theorem Holds.abandon (h : Holds s j e) (other : j ≠ i) (now : Int) : Holds (abandon s now i) j e := by
  unfold AuditOnce.abandon
  split
  · exact h
  · next v live =>
    unfold Holds
    rw [Lease.live_set live, if_neg other]
    exact h

theorem sound_abandon (sound : Sound s) (now : Int) : Sound (abandon s now i) := by
  unfold abandon
  split
  · exact sound.of_rows sound.keyed sound.below sound.processing
  · next v live =>
    refine sound.set live rfl (fun _ => ⟨fun e held => ?_, List.nodup_nil, fun j w _ _ => List.disjoint_nil_left _⟩)
      fun j w _ live_w => sound.processing j w live_w
    cases held

/-- The event that a worker takes next is the one that it then runs. -/
theorem holds_next (h : next s i = some e) (now : Int) : Holds (Lease.step s (.act now i .start)) i e := by
  obtain ⟨v, live, first⟩ := Option.bind_eq_some_iff.mp h
  obtain ⟨idle, first⟩ := Option.ite_none_right_eq_some.mp first
  obtain ⟨item, first, key⟩ := Option.map_eq_some_iff.mp first
  obtain ⟨rest, waiting⟩ := List.head?_eq_some_iff.mp first
  have running := Option.isNone_iff_eq_none.mp idle
  have acted : v.act now s.rows .start =
      some (s.rows, { v with waiting := rest, running := some { item, startedAt := now, beatAt := now } }) := by
    simp only [Lease.WorkerState.act, running, waiting]
  have stepped : Lease.step s (.act now i .start) =
      { s with workers := s.workers.set i { v with waiting := rest, running := some { item, startedAt := now, beatAt := now } },
               clock := now } := by
    simp only [Lease.step, live, Option.bind_some, acted]
  rw [stepped]
  unfold Holds
  simp only [Lease.live_set live, if_true]
  exact ⟨_, _, Option.filter_eq_some_iff.mpr ⟨rfl, (Lease.mem_workers live).2⟩, rfl, key⟩

theorem next_idle (h : next s i = some e) (e' : Nat) : ¬Holds s i e' := by
  rintro ⟨v, r, live, running, -⟩
  obtain ⟨v', live', first⟩ := Option.bind_eq_some_iff.mp h
  obtain ⟨idle, -⟩ := Option.ite_none_right_eq_some.mp first
  cases live.symm.trans live'
  rw [running] at idle
  cases idle

theorem nextId_act (s : Lease.State) (now : Int) (i : Nat) (action : Lease.Action) :
    (Lease.step s (.act now i action)).nextId = s.nextId := by
  obtain ⟨-, idle⟩ | ⟨_, _, _, -, -, stepped⟩ := Lease.step_act_forms s now i action
  · rw [idle]
  · rw [stepped]

theorem Processed.kept (h : Processed s.rows e) (sound : Sound s) (left : ∀ now, op ≠ .requeue now e) :
    Processed (Lease.step s op).rows e :=
  (ProcessedFinal.final_of_noLateFailure ⟨sound.keyed, sound.below⟩ (ProcessedFinal.noLateFailure_of_sound sound op)).kept e h left

/-- The mark of a handler that has returned. -/
theorem processed_finish (h : Holds s i e) (sound : Sound s) (now : Int) :
    Processed (Lease.step s (.act now i (.finish none))).rows e := by
  obtain ⟨v, r, live, running, rfl⟩ := h
  have stepped : (Lease.step s (.act now i (.finish none))).rows = markProcessed r.item.id now s.rows := by
    simp only [Lease.step, live, Option.bind_some, Lease.WorkerState.act, running, Option.map_some, Lease.WorkerState.mark]
  rw [stepped]
  obtain ⟨row, mem, key, -⟩ := Holds.processing ⟨v, r, live, running, rfl⟩ sound
  exact ⟨_, List.mem_map_of_mem mem, by rw [if_pos key]; exact ⟨key, rfl⟩⟩

end

/-! ### The invariant -/

section
variable {isalnum : Char → Bool} {s s' : State} {base : Lease.State} {call : AuditCall} {e i : Nat} {now : Int}

/-- The event is marked, or a worker waits for the mark with the thread that has returned. -/
def Sealed (base : Lease.State) (awaited : Nat → Option Dispatch) (e : Nat) : Prop :=
  Processed base.rows e ∨ ∃ i t, awaited i = some t ∧ t.eventId = e ∧ t.phase = .returned

/-- An event has no entry, or the one of its call. -/
structure Once (isalnum : Char → Bool) (s : State) : Prop where
  sound : Sound s.base
  below : ∀ e, s.base.nextId ≤ e → s.payload e = none
  deliverable : ∀ e call, s.payload e = some call → call.Deliverable
  holds : ∀ i t, s.awaited i = some t → Holds s.base i t.eventId
  entries : ∀ e, s.entriesOf e = [] ∨ ∃ call entry, s.payload e = some call ∧ s.entriesOf e = [entry] ∧
    Recorded isalnum call entry ∧ Sealed s.base s.awaited e
  ended : ∀ i t, s.awaited i = some t → t.phase ≠ .running → t.faulty = false → (s.payload t.eventId).isSome →
    s.entriesOf t.eventId ≠ []
  served : ∀ e ∈ s.served, e < s.base.nextId ∧ ((s.payload e).isSome → s.entriesOf e ≠ [])

theorem mem_entries : s.entriesOf e ≠ [] ↔ e ∈ s.auditLog.map (·.1) := by
  unfold State.entriesOf
  rw [ne_eq, List.map_eq_nil_iff, List.filter_eq_nil_iff]
  constructor
  · intro h
    by_contra absent
    refine h fun p mem own => absent ?_
    rw [← of_decide_eq_true own]
    exact List.mem_map_of_mem mem
  · intro mem none
    obtain ⟨p, member, rfl⟩ := List.mem_map.mp mem
    exact none p member (decide_eq_true rfl)

/-- What a step does that leaves the audit log as it is. -/
theorem Once.moved (h : Once isalnum s) (log : s'.auditLog = s.auditLog) (sound : Sound s'.base)
    (grows : s.base.nextId ≤ s'.base.nextId)
    (payload : ∀ e call, s'.payload e = some call → s.payload e = some call ∨
      s.base.nextId ≤ e ∧ e < s'.base.nextId ∧ call.Deliverable)
    (kept : ∀ e call, s.payload e = some call → s'.payload e = some call)
    (holds : ∀ i t, s'.awaited i = some t → Holds s'.base i t.eventId)
    (awaited : ∀ i t, s'.awaited i = some t → s.awaited i = some t ∨ t.phase = .running ∨
      ((s'.payload t.eventId).isSome → t.faulty = true))
    (marked : ∀ e, s.entriesOf e ≠ [] → (s.payload e).isSome → Sealed s.base s.awaited e → Sealed s'.base s'.awaited e)
    (served : ∀ e ∈ s'.served, e ∈ s.served ∨ ∃ i t, s.awaited i = some t ∧ t.eventId = e ∧ t.phase ≠ .running ∧ t.faulty = false) :
    Once isalnum s' := by
  have same : ∀ e, s'.entriesOf e = s.entriesOf e := fun e => congrArg (fun l => (l.filter (·.1 = e)).map (·.2)) log
  -- An event that is known has kept its payload.
  have known : ∀ e, e < s.base.nextId → (s'.payload e).isSome → (s.payload e).isSome := by
    intro e less some
    obtain ⟨call, some⟩ := Option.isSome_iff_exists.mp some
    obtain before | ⟨new, -⟩ := payload e call some
    · rw [before]
      rfl
    · exact absurd less new.not_gt
  refine ⟨sound, fun e le => ?_, fun e call some => ?_, holds, fun e => ?_, fun i t waits ended sane some => ?_, fun e mem => ?_⟩
  · by_contra some
    obtain ⟨call, some⟩ := Option.ne_none_iff_exists'.mp some
    obtain before | ⟨-, less, -⟩ := payload e call some
    · rw [h.below e (grows.trans le)] at before
      cases before
    · exact absurd le less.not_ge
  · obtain before | ⟨-, -, deliverable⟩ := payload e call some
    · exact h.deliverable e call before
    · exact deliverable
  · rw [same]
    refine (h.entries e).imp_right ?_
    rintro ⟨call, entry, logged, one, recorded, sealed⟩
    have entered : s.entriesOf e ≠ [] := one ▸ List.cons_ne_nil _ _
    exact ⟨call, entry, kept e call logged, one, recorded, marked e entered (Option.isSome_of_eq_some logged) sealed⟩
  · rw [same]
    obtain before | running | faulty := awaited i t waits
    · exact h.ended i t before ended sane (known _ ((h.holds i t before).below h.sound) some)
    · exact absurd running ended
    · rw [faulty some] at sane
      cases sane
  · rw [same]
    obtain before | ⟨i, t, waits, rfl, ended, sane⟩ := served e mem
    · obtain ⟨less, entered⟩ := h.served e before
      exact ⟨less.trans_le grows, fun some => entered (known e less some)⟩
    · have less := (h.holds i t waits).below h.sound
      exact ⟨less.trans_le grows, fun some => h.ended i t waits ended sane (known _ less some)⟩

/-- A step of the outbox that ends no wait. -/
theorem Once.moved_base (h : Once isalnum s) {op : Lease.Op} (sound : Sound (Lease.step s.base op))
    (grows : s.base.nextId ≤ (Lease.step s.base op).nextId) (waits : ∀ now j error, op ≠ .act now j (.finish error))
    (lives : ∀ now j, op ≠ .act now j .crash) (left : ∀ now, ∀ e, op = .requeue now e → s.entriesOf e = []) :
    Once isalnum { s with base := Lease.step s.base op } := by
  refine h.moved rfl sound grows (fun e call some => .inl some) (fun e call some => some) ?_ (fun i t waits => .inl waits) ?_
    fun e mem => .inl mem
  · intro j t awaited
    exact (h.holds j t awaited).step (fun now error => waits now j error) fun now => lives now j
  · intro e entered _ marked
    refine marked.imp_left fun processed => Processed.kept processed h.sound fun now same => ?_
    exact entered (left now e same)

/-- Where the event of a thread at work has no entry yet. -/
theorem Once.fresh (h : Once isalnum s) {t : Dispatch} (waits : s.awaited i = some t) (running : t.phase = .running) :
    s.entriesOf t.eventId = [] := by
  have held := h.holds i t waits
  obtain none | ⟨call, entry, -, -, -, processed | ⟨j, t', waits', own, returned⟩⟩ := h.entries t.eventId
  · exact none
  · exact absurd processed (held.not_processed h.sound)
  · have same : j = i := by
      have held' := h.holds j t' waits'
      rw [own] at held'
      exact held'.unique held h.sound
    subst same
    cases waits.symm.trans waits'
    rw [running] at returned
    cases returned

theorem Sealed.update {awaited : Nat → Option Dispatch} (h : Sealed base awaited e)
    (other : ∀ t, awaited i = some t → t.eventId = e → t.phase ≠ .returned) (t' : Option Dispatch) :
    Sealed base (Function.update awaited i t') e := by
  refine h.imp_right ?_
  rintro ⟨j, t, waits, own, returned⟩
  have apart : j ≠ i := by
    rintro rfl
    exact other t waits own returned
  exact ⟨j, t, (Function.update_of_ne apart ..).trans waits, own, returned⟩

/-- A thread ends without an entry for an audit event. -/
theorem Once.failed (h : Once isalnum s) {t : Dispatch} (waits : s.awaited i = some t) (running : t.phase = .running)
    {phase : Phase} {faulty : Bool} (failed : (s.payload t.eventId).isSome → faulty = true) :
    Once isalnum { s with awaited := Function.update s.awaited i (some { t with phase, faulty }) } := by
  have forms : ∀ j t', Function.update s.awaited i (some { t with phase, faulty }) j = some t' →
      s.awaited j = some t' ∨ j = i ∧ t' = { t with phase, faulty } := by
    intro j t' waits'
    by_cases own : j = i
    · subst own
      rw [Function.update_self] at waits'
      exact .inr ⟨rfl, (Option.some.inj waits').symm⟩
    · rw [Function.update_of_ne own] at waits'
      exact .inl waits'
  refine h.moved rfl h.sound le_rfl (fun e call some => .inl some) (fun e call some => some) (fun j t' waits' => ?_)
    (fun j t' waits' => ?_) (fun e _ _ marked => marked.update ?_ _) fun e mem => .inl mem
  · obtain before | ⟨rfl, rfl⟩ := forms j t' waits'
    · exact h.holds j t' before
    · exact h.holds j t waits
  · obtain before | ⟨rfl, rfl⟩ := forms j t' waits'
    · exact .inl before
    · exact .inr (.inr failed)
  · rintro t' waits' - returned
    cases waits.symm.trans waits'
    rw [running] at returned
    cases returned

theorem entriesOf_append (auditLog : List (Nat × AuditEntry)) (entry : AuditEntry) (e e' : Nat) :
    ((auditLog ++ [(e', entry)]).filter (·.1 = e)).map (·.2) =
      (auditLog.filter (·.1 = e)).map (·.2) ++ if e' = e then [entry] else [] := by
  rw [List.filter_append, List.map_append]
  by_cases own : e' = e
  · simp [own]
  · simp [own]

/-- A thread returns with the entry of its event. -/
theorem Once.inserted (h : Once isalnum s) {t : Dispatch} (waits : s.awaited i = some t) (running : t.phase = .running)
    (logged : s.payload t.eventId = some call) {entry : AuditEntry} (recorded : Recorded isalnum call entry) :
    Once isalnum
      { s with
        auditLog := s.auditLog ++ [(t.eventId, entry)]
        awaited := Function.update s.awaited i (some { t with phase := .returned, faulty := false }) } := by
  have fresh := h.fresh waits running
  have own : ({ s with
      auditLog := s.auditLog ++ [(t.eventId, entry)]
      awaited := Function.update s.awaited i (some { t with phase := .returned, faulty := false }) } : State).entriesOf
        t.eventId = [entry] := by
    unfold State.entriesOf at fresh ⊢
    rw [entriesOf_append, fresh, if_pos rfl, List.nil_append]
  have other : ∀ e, e ≠ t.eventId → ({ s with
      auditLog := s.auditLog ++ [(t.eventId, entry)]
      awaited := Function.update s.awaited i (some { t with phase := .returned, faulty := false }) } : State).entriesOf e =
        s.entriesOf e := by
    intro e apart
    unfold State.entriesOf
    rw [entriesOf_append, if_neg apart.symm, List.append_nil]
  refine ⟨h.sound, h.below, h.deliverable, fun j t' waits' => ?_, fun e => ?_, fun j t' waits' ended sane some => ?_,
    fun e mem => ⟨(h.served e mem).1, fun some => ?_⟩⟩
  · dsimp only at waits'
    by_cases same : j = i
    · subst same
      rw [Function.update_self] at waits'
      cases waits'
      exact h.holds j t waits
    · rw [Function.update_of_ne same] at waits'
      exact h.holds j t' waits'
  · by_cases same : e = t.eventId
    · subst same
      refine .inr ⟨call, entry, logged, own, recorded, .inr ⟨i, _, Function.update_self .., rfl, rfl⟩⟩
    · rw [other e same]
      refine (h.entries e).imp_right ?_
      rintro ⟨call, entry, logged, one, recorded, marked⟩
      exact ⟨call, entry, logged, one, recorded, marked.update (fun t' waits' _ returned => by
        cases waits.symm.trans waits'
        rw [running] at returned
        cases returned) _⟩
  · dsimp only at waits'
    by_cases same : t'.eventId = t.eventId
    · rw [same, own]
      exact List.cons_ne_nil _ _
    · rw [other _ same]
      by_cases mine : j = i
      · subst mine
        rw [Function.update_self] at waits'
        cases waits'
        exact absurd rfl same
      · rw [Function.update_of_ne mine] at waits'
        exact h.ended j t' waits' ended sane some
  · by_cases same : e = t.eventId
    · rw [same, own]
      exact List.cons_ne_nil _ _
    · rw [other e same]
      exact (h.served e mem).2 some

theorem dispatch_faulty {t : Dispatch} {fault : Option Fault} {tenants : List TenantTables} (logged : s.payload t.eventId = some call)
    (acknowledged : fault ≠ some .unacknowledged) (failed : fault ≠ none) :
    s.dispatch isalnum t fault tenants = (none, .raised) := by
  unfold State.dispatch
  rw [logged]
  cases fault with
  | none => exact absurd rfl failed
  | some fault =>
    cases fault with
    | refused => rfl
    | unacknowledged => exact absurd rfl acknowledged

theorem dispatch_other {t : Dispatch} (unlogged : s.payload t.eventId = none) (fault : Option Fault) (tenants : List TenantTables) :
    (s.dispatch isalnum t fault tenants).1 = none := by
  unfold State.dispatch
  rw [unlogged]
  cases fault with
  | none => rfl
  | some fault => rfl

/-! ### Steps and runs -/

theorem Once.handle (h : Once isalnum s) {fault : Option Fault} {tenants : List TenantTables}
    (ok : Undisturbed isalnum s (.handle i fault tenants)) : Once isalnum (step isalnum s (.handle i fault tenants)) := by
  unfold step
  dsimp only
  cases waits : s.awaited i with
  | none => exact h
  | some t =>
    dsimp only
    by_cases running : t.phase = .running
    · rw [if_pos running]
      cases logged : s.payload t.eventId with
      | none =>
        rw [dispatch_other logged]
        simp only [Option.toList_none, List.map_nil, List.append_nil]
        exact h.failed waits running fun some => by
          rw [logged] at some
          cases some
      | some call =>
        obtain ⟨acknowledged, found⟩ := ok t waits running call logged
        by_cases sane : fault = none
        · subst sane
          have deliverable := h.deliverable _ _ logged
          obtain ⟨entry, delivered⟩ := Option.isSome_iff_exists.mp (deliver_of_found deliverable (found rfl))
          have dispatched : s.dispatch isalnum t none tenants = (some entry, .returned) := by
            unfold State.dispatch
            rw [logged]
            dsimp only
            rw [delivered]
          rw [dispatched]
          exact h.inserted waits running logged (recorded_of_deliver deliverable delivered)
        · rw [dispatch_faulty logged acknowledged sane]
          simp only [Option.toList_none, List.map_nil, List.append_nil]
          exact h.failed waits running fun _ => Option.isSome_iff_ne_none.mpr sane
    · rw [if_neg running]
      exact h

theorem Once.late (h : Once isalnum s) {k : Nat} {fault : Option Fault} {tenants : List TenantTables}
    (ok : Undisturbed isalnum s (.late k fault tenants)) : Once isalnum (step isalnum s (.late k fault tenants)) := by
  unfold step
  dsimp only
  cases given : s.orphans[k]? with
  | none => exact h
  | some t =>
    have silent : (s.dispatch isalnum t fault tenants).1 = none := by
      cases logged : s.payload t.eventId with
      | none => exact dispatch_other logged ..
      | some call =>
        have refused := ok t given (Option.isSome_of_eq_some logged)
        rw [refused, dispatch_faulty logged (by decide) (by decide)]
    dsimp only
    rw [silent]
    exact h.moved (List.append_nil _) h.sound le_rfl (fun e call some => .inl some) (fun e call some => some) h.holds
      (fun i t waits => .inl waits) (fun e _ _ marked => marked) fun e mem => .inl mem

theorem Once.log (h : Once isalnum s) {softLimit : Nat} (deliverable : call.Deliverable) :
    Once isalnum (step isalnum s (.log now softLimit call)) := by
  unfold step
  dsimp only
  split
  · exact h
  · have unknown := h.below s.base.nextId le_rfl
    refine h.moved rfl (h.sound.append ..) (Nat.le_succ _) (fun e call' some => ?_) (fun e call' some => ?_)
      (fun i t waits => (h.holds i t waits).step nofun nofun) (fun i t waits => .inl waits)
      (fun e _ _ marked => marked.imp_left fun processed => Processed.kept processed h.sound nofun) fun e mem => .inl mem
    · dsimp only at some
      by_cases new : e = s.base.nextId
      · subst new
        rw [Function.update_self] at some
        cases some
        exact .inr ⟨le_rfl, Nat.lt_succ_self _, deliverable⟩
      · rw [Function.update_of_ne new] at some
        exact .inl some
    · have old : e ≠ s.base.nextId := by
        rintro rfl
        rw [unknown] at some
        cases some
      exact (Function.update_of_ne old ..).trans some

theorem Once.start (h : Once isalnum s) : Once isalnum (step isalnum s (.start now i)) := by
  unfold step
  dsimp only
  cases taken : next s.base i with
  | none => exact h
  | some eventId =>
    have idle : s.awaited i = none := by
      by_contra busy
      obtain ⟨t, waits⟩ := Option.ne_none_iff_exists'.mp busy
      exact next_idle taken _ (h.holds i t waits)
    have forms : ∀ j t, Function.update s.awaited i (some { worker := i, eventId }) j = some t →
        s.awaited j = some t ∨ j = i ∧ t = { worker := i, eventId } := by
      intro j t waits
      by_cases own : j = i
      · subst own
        rw [Function.update_self] at waits
        exact .inr ⟨rfl, (Option.some.inj waits).symm⟩
      · rw [Function.update_of_ne own] at waits
        exact .inl waits
    have unheld : Lease.Unheld s.base (.act now i .start) := trivial
    refine h.moved rfl (h.sound.step unheld) (le_of_eq (nextId_act ..).symm) (fun e call some => .inl some)
      (fun e call some => some) (fun j t waits => ?_) (fun j t waits => ?_) (fun e _ _ marked => ?_) fun e mem => .inl mem
    · obtain before | ⟨rfl, rfl⟩ := forms j t waits
      · exact (h.holds j t before).step nofun nofun
      · exact holds_next taken now
    · obtain before | ⟨-, rfl⟩ := forms j t waits
      · exact .inl before
      · exact .inr (.inl rfl)
    · have kept : Sealed (Lease.step s.base (.act now i .start)) s.awaited e :=
        marked.imp_left fun processed => Processed.kept processed h.sound nofun
      refine kept.update (fun t waits => ?_) _
      rw [idle] at waits
      cases waits

/-- The worker waits no longer; what its thread has inserted is marked. -/
theorem Once.released (h : Once isalnum s) {orphans : List Dispatch} {served : List Nat} (sound : Sound base)
    (grows : base.nextId = s.base.nextId)
    (holds : ∀ j e, j ≠ i → Holds s.base j e → Holds base j e)
    (processed : ∀ e, Processed s.base.rows e → Processed base.rows e)
    (marked : ∀ t, s.awaited i = some t → (s.payload t.eventId).isSome → t.phase = .returned → Processed base.rows t.eventId)
    (ended : ∀ e ∈ served, e ∈ s.served ∨ ∃ t, s.awaited i = some t ∧ t.eventId = e ∧ t.phase ≠ .running ∧ t.faulty = false) :
    Once isalnum { s with base, awaited := Function.update s.awaited i none, orphans, served } := by
  have others : ∀ j t, Function.update s.awaited i none j = some t → j ≠ i ∧ s.awaited j = some t := by
    intro j t waits
    by_cases own : j = i
    · subst own
      rw [Function.update_self] at waits
      cases waits
    · rw [Function.update_of_ne own] at waits
      exact ⟨own, waits⟩
  refine h.moved rfl sound grows.ge (fun e call some => .inl some) (fun e call some => some) (fun j t waits => ?_)
    (fun j t waits => .inl (others j t waits).2) (fun e _ logged before => ?_) fun e mem => (ended e mem).imp_right ?_
  · obtain ⟨apart, waits⟩ := others j t waits
    exact holds j _ apart (h.holds j t waits)
  · obtain done | ⟨j, t, waits, rfl, returned⟩ := before
    · exact .inl (processed e done)
    · by_cases own : j = i
      · subst own
        exact .inl (marked t waits logged returned)
      · exact .inr ⟨j, t, (Function.update_of_ne own ..).trans waits, rfl, returned⟩
  · rintro ⟨t, waits⟩
    exact ⟨i, t, waits⟩

theorem Once.finish (h : Once isalnum s) {failing : Nat} {error : String}
    (ok : Undisturbed isalnum s (.finish now i failing error)) : Once isalnum (step isalnum s (.finish now i failing error)) := by
  unfold step
  dsimp only
  cases waits : s.awaited i with
  | none => exact h
  | some t =>
    have ended : ∀ e ∈ (if t.phase ≠ .running ∧ t.faulty = false ∧ failing = 0 then t.eventId :: s.served else s.served),
        e ∈ s.served ∨ ∃ t, s.awaited i = some t ∧ t.eventId = e ∧ t.phase ≠ .running ∧ t.faulty = false := by
      intro e mem
      split at mem
      · next clean =>
        rcases List.mem_cons.mp mem with rfl | before
        · exact .inr ⟨t, waits, rfl, clean.1, clean.2.1⟩
        · exact .inl before
      · exact .inl mem
    dsimp only
    split
    · next mark marks =>
      refine h.released (h.sound.step trivial) (nextId_act ..) (fun j e other held => held.step ?_ nofun)
        (fun e done => Processed.kept done h.sound nofun) (fun t' waits' logged returned => ?_) ended
      · rintro _ _ ⟨⟩
        exact other rfl
      · cases waits.symm.trans waits'
        have first := ok t waits logged returned
        subst first
        rw [Dispatch.marks, returned] at marks
        cases marks
        exact processed_finish (h.holds i t waits) h.sound now
    · next marks =>
      refine h.released (sound_abandon h.sound now) ?_ (fun j e other held => held.abandon other now) (fun e done => ?_)
        (fun t' waits' logged returned => ?_) ended
      · unfold abandon
        split
        · rfl
        · rfl
      · unfold abandon
        split
        · exact done
        · exact done
      · cases waits.symm.trans waits'
        have first := ok t waits logged returned
        subst first
        rw [Dispatch.marks, returned] at marks
        cases marks

theorem Once.crash (h : Once isalnum s) (ok : Undisturbed isalnum s (.crash now i)) :
    Once isalnum (step isalnum s (.crash now i)) := by
  refine h.released (h.sound.step trivial) (nextId_act ..) (fun j e other held => held.step nofun ?_)
    (fun e done => Processed.kept done h.sound nofun) (fun t waits logged returned => ?_) fun e mem => .inl mem
  · rintro _ ⟨⟩
    exact other rfl
  · exact absurd returned (ok t waits logged)

theorem Once.step (h : Once isalnum s) (op : Op) (ok : Undisturbed isalnum s op) : Once isalnum (step isalnum s op) := by
  cases op with
  | log now softLimit call => exact h.log ok
  | publish now eventType idempotencyKey => exact h.moved_base (h.sound.step trivial) (Nat.le_succ _) nofun nofun nofun
  | requeue now eventId =>
    obtain ⟨unheld, unrecorded⟩ := ok
    refine h.moved_base (h.sound.step (h.sound.unheld unheld)) le_rfl nofun nofun ?_
    rintro _ e ⟨⟩
    by_contra entered
    exact unrecorded (mem_entries.mp entered)
  | claim now i locked =>
    exact h.moved_base (h.sound.step (h.sound.unheld ok)) (le_of_eq (nextId_act ..).symm) nofun nofun nofun
  | start now i => exact h.start
  | heartbeat now i item => exact h.moved_base (h.sound.step trivial) (le_of_eq (nextId_act ..).symm) nofun nofun nofun
  | handle i fault tenants => exact h.handle ok
  | late k fault tenants => exact h.late ok
  | finish now i failing error => exact h.finish ok
  | crash now i => exact h.crash ok

theorem Once.start_of (fresh : Lease.Started base) : Once isalnum { base } where
  sound := fresh.sound
  below _ _ := rfl
  deliverable _ _ logged := nomatch logged
  holds _ _ waits := nomatch waits
  entries _ := .inl rfl
  ended _ _ waits := nomatch waits
  served _ mem := absurd mem List.not_mem_nil

theorem Once.exactlyOnce (h : Once isalnum s) : ExactlyOnce isalnum s := by
  intro served _ e call logged
  have some := Option.isSome_of_eq_some logged
  have below : e < s.base.nextId := by
    by_contra beyond
    rw [h.below e (not_lt.mp beyond)] at logged
    cases logged
  have entered := (h.served e (served e below some)).2 some
  obtain none | ⟨call', entry, logged', one, recorded, -⟩ := h.entries e
  · exact absurd none entered
  · cases logged.symm.trans logged'
    exact ⟨entry, one, recorded⟩

/-- In every run whose steps are undisturbed, each logged event has just one entry. -/
theorem audited_once (isalnum : Char → Bool) (base : Lease.State) (fresh : Lease.Started base) (ops : List Op)
    (h : Always (AuditOnce.step isalnum) (Undisturbed isalnum) { base } ops) :
    ExactlyOnce isalnum (final (AuditOnce.step isalnum) { base } ops) :=
  (final_invariant (Once isalnum) (.start_of fresh) (fun _ op once ok => once.step op ok) h).exactlyOnce

end

/-! ### A worker that crashes, and a text that is too long -/

/-- Two workers with the default settings. -/
def twoWorkers : Lease.State where
  rows := []
  nextId := 1
  workers := [{ worker := { lockOwner := some "a:1" } }, { worker := { lockOwner := some "b:2" } }]
  clock := 0

def acme : List TenantTables := [{ schema := "acme", users := [7] }]

def logout (ip : String) : AuditCall where
  action := .logout
  userId := some 7
  ip := some ip
  userAgent := some "curl"
  currentTenantSchema := some "acme"

/-- A worker takes the event and handles it. -/
def dispatched (i : Nat) (t : Int) : List Op :=
  [.claim (seconds t) i [], .start (seconds t) i, .handle i none acme]

def undisturbed : List Op := .log 0 5000 (logout "10.0.0.1") :: dispatched 0 1 ++ [.finish (seconds 2) 0 0 ""]

def crashing : List Op :=
  .log 0 5000 (logout "10.0.0.1") :: dispatched 0 1 ++ [.crash (seconds 2) 0] ++ dispatched 1 302 ++ [.finish (seconds 303) 1 0 ""]

/-- An address of 65 characters, with one attempt. -/
def tooLong : List Op :=
  .log 0 5000 (logout (String.ofList (List.replicate 65 '1'))) :: dispatched 0 1 ++ [.finish (seconds 2) 0 0 "value too long"]

def oneAttempt : Lease.State :=
  { twoWorkers with workers := [{ worker := { maxRetries := 1, lockOwner := some "a:1" } }] }

theorem audited_once_undisturbed :
    ExactlyOnce Char.isAlphanum (final (step Char.isAlphanum) { base := twoWorkers } undisturbed) :=
  audited_once Char.isAlphanum twoWorkers ⟨by decide, by decide, by decide⟩ undisturbed (by decide +kernel)

theorem ExactlyOnce.one {isalnum : Char → Bool} {s : State} (h : ExactlyOnce isalnum s) (served : AllServed s) (settled : Settled s)
    {e : Nat} (logged : (s.payload e).isSome) : (s.entriesOf e).length = 1 := by
  obtain ⟨call, logged⟩ := Option.isSome_iff_exists.mp logged
  obtain ⟨entry, one, -⟩ := h served settled e call logged
  rw [one]
  rfl

/-- The event of the worker that crashes is taken and handled again, after five minutes; the one with the long text is given up. -/
theorem not_audited_once : ¬ExactlyOnce Char.isAlphanum (final (step Char.isAlphanum) { base := twoWorkers } crashing) ∧
    ¬ExactlyOnce Char.isAlphanum (final (step Char.isAlphanum) { base := oneAttempt } tooLong) := by
  constructor
  · have twice : AllServed (final (step Char.isAlphanum) { base := twoWorkers } crashing) ∧
        Settled (final (step Char.isAlphanum) { base := twoWorkers } crashing) ∧
        ((final (step Char.isAlphanum) { base := twoWorkers } crashing).payload 1).isSome ∧
        ((final (step Char.isAlphanum) { base := twoWorkers } crashing).entriesOf 1).length = 2 := by decide +kernel
    intro h
    obtain ⟨served, settled, logged, two⟩ := twice
    exact absurd ((h.one served settled logged).symm.trans two) (by decide)
  · have never : AllServed (final (step Char.isAlphanum) { base := oneAttempt } tooLong) ∧
        Settled (final (step Char.isAlphanum) { base := oneAttempt } tooLong) ∧
        ((final (step Char.isAlphanum) { base := oneAttempt } tooLong).payload 1).isSome ∧
        ((final (step Char.isAlphanum) { base := oneAttempt } tooLong).entriesOf 1).length = 0 := by decide +kernel
    intro h
    obtain ⟨served, settled, logged, none⟩ := never
    exact absurd ((h.one served settled logged).symm.trans none) (by decide)

end NyzRating.Events.AuditOnce
