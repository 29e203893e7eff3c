import Mathlib.Data.List.Sort
import NyzRating.Lib.Text

/-!
# The outbox

The table of the events that wait for a worker, the calls of its repository, and the policy of each type of event.
-/

namespace NyzRating.Events

/-! ### Rows -/

inductive OutboxStatus where
  | pending
  | retry
  | processing
  | processed
  | deadLetter
  deriving DecidableEq, Repr

structure OutboxRow where
  id : Nat
  eventType : String
  status : OutboxStatus := .pending
  attempts : Nat := 0
  lastError : Option String := none
  nextRetryAt : Int
  idempotencyKey : Option String := none
  lockedAt : Option Int := none
  lockOwner : Option String := none
  leasedBy : Option String := none
  leaseUntil : Option Int := none
  lastHeartbeatAt : Option Int := none
  startedAt : Option Int := none
  processedAt : Option Int := none
  finishedAt : Option Int := none
  deriving DecidableEq, Repr

/-- What a worker keeps of a row. -/
structure OutboxWorkItem where
  id : Nat
  eventType : String
  deriving DecidableEq, Repr

def toWorkItem (r : OutboxRow) : OutboxWorkItem := { id := r.id, eventType := r.eventType }

def seconds (n : Int) : Int := n * 1000000

/-! ### The repository -/

/-- The worker that holds the row may still be at work: its lease runs, and it has locked the row no longer ago than
    `staleBefore`. -/
def OutboxRow.inLease (now staleBefore : Int) (r : OutboxRow) : Bool :=
  !r.leaseUntil.any (· < now) && !r.lockedAt.any (· < staleBefore)

def outboxEligibleFilter (now staleBefore : Int) (r : OutboxRow) : Bool :=
  ((r.status = .pending || r.status = .retry) && r.nextRetryAt ≤ now) ||
    (r.status = .processing && !r.inLease now staleBefore)

def markClaimed (now : Int) (lockOwner : Option String) (leaseUntil : Int) (r : OutboxRow) : OutboxRow :=
  { r with
    status := .processing
    lockedAt := some now
    lockOwner
    leasedBy := lockOwner
    leaseUntil := some leaseUntil
    lastHeartbeatAt := some now
    startedAt := r.startedAt <|> some now }

/-- A text without the blanks around it, or none. -/
def nonBlank (text : Option String) : Option String :=
  (some (String.ofList (Text.strip (text.getD "").toList))).filter (· ≠ "")

/-- A row with this key is left as it is; no second one is added. -/
def append (nextId : Nat) (eventType : String) (idempotencyKey : Option String) (now : Int) (rows : List OutboxRow) :
    List OutboxRow :=
  let key := nonBlank idempotencyKey
  if key.isSome && rows.any (·.idempotencyKey = key) then rows
  else rows ++ [{ id := nextId, eventType, nextRetryAt := now, idempotencyKey := key }]

def staleBefore (now staleLockAfterSec : Int) : Int := now - seconds (max 1 staleLockAfterSec)

/-- The rows that a claim takes; it skips those that other transactions have locked. -/
def nextBatch (limit : Nat) (staleLockAfterSec now : Int) (locked : List Nat) (rows : List OutboxRow) : List OutboxRow :=
  ((rows.filter fun r => outboxEligibleFilter now (staleBefore now staleLockAfterSec) r && r.id ∉ locked).insertionSort
    (·.id ≤ ·.id)).take limit

def claimNextBatch (limit : Nat) (staleLockAfterSec leaseSeconds : Int) (lockOwner : Option String) (now : Int)
    (locked : List Nat) (rows : List OutboxRow) : List OutboxWorkItem × List OutboxRow :=
  let leaseUntil := now + seconds (max 1 leaseSeconds)
  let claimed := nextBatch limit staleLockAfterSec now locked rows
  (claimed.map toWorkItem,
    rows.map fun r => if r.id ∈ claimed.map (·.id) then markClaimed now (nonBlank lockOwner) leaseUntil r else r)

/-- The row with this id, after a change of it. -/
def updateRow (eventId : Nat) (change : OutboxRow → OutboxRow) (rows : List OutboxRow) : List OutboxRow :=
  rows.map fun r => if r.id = eventId then change r else r

/-- A lease of another owner is left alone. -/
def heartbeat (eventId : Nat) (lockOwner : Option String) (leaseSeconds now : Int) : List OutboxRow → List OutboxRow :=
  updateRow eventId fun r =>
    if r.status ≠ .processing then r
    else if (nonBlank lockOwner).isSome && (r.leasedBy.filter (· ≠ "")).isSome && r.leasedBy ≠ nonBlank lockOwner then r
    else { r with lastHeartbeatAt := some now, leaseUntil := some (now + seconds (max 1 leaseSeconds)) }

def OutboxRow.unlocked (r : OutboxRow) : OutboxRow :=
  { r with lockedAt := none, lockOwner := none, leasedBy := none, leaseUntil := none }

def markProcessed (eventId : Nat) (now : Int) : List OutboxRow → List OutboxRow :=
  updateRow eventId fun r =>
    { r.unlocked with status := .processed, processedAt := some now, finishedAt := some now, lastError := none }

/-- `error[:4000]`. -/
def errorText (error : String) : String := String.ofList (error.toList.take 4000)

def markFailed (eventId : Nat) (error : String) (maxAttempts : Nat) (retryDelaySeconds now : Int) :
    List OutboxRow → List OutboxRow :=
  updateRow eventId fun r =>
    let r := { r.unlocked with attempts := r.attempts + 1, lastError := some (errorText error) }
    if r.attempts ≥ maxAttempts then { r with status := .deadLetter, finishedAt := some now }
    else { r with status := .retry, nextRetryAt := now + seconds (max 1 retryDelaySeconds * r.attempts) }

def deadLetter (eventId : Nat) (error : String) (now : Int) : List OutboxRow → List OutboxRow :=
  updateRow eventId fun r =>
    { r.unlocked with
      attempts := r.attempts + 1, lastError := some (errorText error), status := .deadLetter, finishedAt := some now }

def requeueJob (eventId : Nat) (now : Int) : List OutboxRow → List OutboxRow :=
  updateRow eventId fun r => { r.unlocked with status := .pending, nextRetryAt := now, lastError := none, finishedAt := none }

/-! ### Policies -/

structure EventWorkerPolicy where
  handlerTimeoutSeconds : Int
  leaseSeconds : Int
  heartbeatIntervalSeconds : Int
  deriving DecidableEq, Repr

def defaultPolicy : EventWorkerPolicy := { handlerTimeoutSeconds := 15, leaseSeconds := 300, heartbeatIntervalSeconds := 30 }

def eventPolicy : String → Option EventWorkerPolicy
  | "security.audit_event" => some ⟨15, 60, 10⟩
  | "email.notification" => some ⟨30, 120, 15⟩
  | "email_2fa" => some ⟨30, 120, 15⟩
  | "email_invite" => some ⟨30, 120, 15⟩
  | "knowledge.ingest_pipeline" => some ⟨30 * 60, 35 * 60, 30⟩
  | "knowledge.index_build" => some ⟨60 * 60, 65 * 60, 60⟩
  | "knowledge.ingest_item_reprocess" => some ⟨30 * 60, 35 * 60, 30⟩
  | "knowledge.recovery_sweep" => some ⟨10 * 60, 12 * 60, 30⟩
  | "kb.discovery_requested" => some ⟨30 * 60, 35 * 60, 30⟩
  | "kb.embedding_requested" => some ⟨30 * 60, 35 * 60, 30⟩
  | "kb.indexing_requested" => some ⟨60 * 60, 65 * 60, 60⟩
  | "url.fetch" => some ⟨120, 180, 15⟩
  | "file.parse" => some ⟨10 * 60, 12 * 60, 30⟩
  | _ => none

def workerPolicyForEvent (eventType : String) (defaultTimeoutSeconds : Int) : EventWorkerPolicy :=
  let defaultTimeout := max 1 defaultTimeoutSeconds
  match eventPolicy (String.ofList (Text.strip eventType.toList)) with
  | none =>
    { defaultPolicy with
      handlerTimeoutSeconds := defaultTimeout
      leaseSeconds := max defaultPolicy.leaseSeconds (defaultTimeout + 60) }
  | some policy =>
    { handlerTimeoutSeconds := max 1 policy.handlerTimeoutSeconds
      leaseSeconds := max policy.leaseSeconds (policy.handlerTimeoutSeconds + 30)
      heartbeatIntervalSeconds := max 5 policy.heartbeatIntervalSeconds }

theorem eventPolicy_interval {eventType : String} {policy : EventWorkerPolicy} (h : eventPolicy eventType = some policy) :
    policy.heartbeatIntervalSeconds ≤ 60 ∧ 60 ≤ policy.leaseSeconds := by
  unfold eventPolicy at h
  split at h
  all_goals cases h
  all_goals decide

/-- A heartbeat comes before the lease of the one before it has run out. -/
theorem heartbeat_before_lease (eventType : String) (defaultTimeoutSeconds : Int) :
    (workerPolicyForEvent eventType defaultTimeoutSeconds).heartbeatIntervalSeconds ≤
      (workerPolicyForEvent eventType defaultTimeoutSeconds).leaseSeconds := by
  unfold workerPolicyForEvent
  cases h : eventPolicy (String.ofList (Text.strip eventType.toList)) with
  | none =>
    change 30 ≤ max 300 _
    omega
  | some policy =>
    obtain ⟨interval, lease⟩ := eventPolicy_interval h
    change max 5 policy.heartbeatIntervalSeconds ≤ max policy.leaseSeconds _
    omega

/-- The worker processes of the deployment. -/
structure OutboxWorker where
  maxRetries : Nat := 10
  retryDelaySeconds : Int := 5
  batchSize : Nat := 100
  staleLockAfterSec : Int := 300
  handlerTimeoutSeconds : Int := 15
  leaseSeconds : Int := 300
  lockOwner : Option String
  deriving DecidableEq, Repr

def OutboxWorker.policy (w : OutboxWorker) (item : OutboxWorkItem) : EventWorkerPolicy :=
  workerPolicyForEvent item.eventType w.handlerTimeoutSeconds

end NyzRating.Events
