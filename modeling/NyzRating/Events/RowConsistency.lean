import NyzRating.Events.Outbox
import NyzRating.Lib.Run

/-!
# The rows of the outbox

Every call of the repository leaves the lock and the lease of a row as its status wants them, whoever calls it and in
whatever order; and no row gets lost: it is done with, or a later claim can take it.
-/

namespace NyzRating.Events.RowConsistency

open Runs

structure Table where
  rows : List OutboxRow := []
  nextId : Nat := 1
  deriving DecidableEq, Repr

/-- A call of the repository, by any worker, at a time. -/
inductive Call where
  | append (now : Int) (eventType : String) (idempotencyKey : Option String)
  | claimNextBatch (now : Int) (limit : Nat) (staleLockAfterSec leaseSeconds : Int) (lockOwner : Option String)
      (locked : List Nat)
  | heartbeat (now : Int) (eventId : Nat) (lockOwner : Option String) (leaseSeconds : Int)
  | markProcessed (now : Int) (eventId : Nat)
  | markFailed (now : Int) (eventId : Nat) (error : String) (maxAttempts : Nat) (retryDelaySeconds : Int)
  | deadLetter (now : Int) (eventId : Nat) (error : String)
  | requeueJob (now : Int) (eventId : Nat)

def Call.run (t : Table) : Call → List OutboxRow
  | .append now eventType key => Events.append t.nextId eventType key now t.rows
  | .claimNextBatch now limit stale lease owner locked => (Events.claimNextBatch limit stale lease owner now locked t.rows).2
  | .heartbeat now id owner lease => Events.heartbeat id owner lease now t.rows
  | .markProcessed now id => Events.markProcessed id now t.rows
  | .markFailed now id error maxAttempts delay => Events.markFailed id error maxAttempts delay now t.rows
  | .deadLetter now id error => Events.deadLetter id error now t.rows
  | .requeueJob now id => Events.requeueJob id now t.rows

/-- Ids are not given twice. -/
def step (t : Table) (c : Call) : Table := { rows := c.run t, nextId := t.nextId + 1 }

/-- The row is locked while it is being processed, and only then. -/
structure Consistent (r : OutboxRow) : Prop where
  locked : r.status = .processing ↔ r.lockedAt.isSome = true
  unlocked : r.status ≠ .processing → r.lockedAt = none ∧ r.lockOwner = none ∧ r.leasedBy = none ∧ r.leaseUntil = none

section
variable {r : OutboxRow}

theorem Consistent.of_unlocked (h : r.status ≠ .processing) (locked : r.lockedAt = none) (owner : r.lockOwner = none)
    (leased : r.leasedBy = none) (lease : r.leaseUntil = none) : Consistent r where
  locked := by simp [h, locked]
  unlocked _ := ⟨locked, owner, leased, lease⟩

theorem consistent_markClaimed (now : Int) (owner : Option String) (lease : Int) (r : OutboxRow) :
    Consistent (markClaimed now owner lease r) where
  locked := ⟨fun _ => rfl, fun _ => rfl⟩
  unlocked h := absurd rfl h

end

/-- All rows are consistent. -/
def Sound (rows : List OutboxRow) : Prop := ∀ r ∈ rows, Consistent r

section
variable {rows : List OutboxRow}

theorem Sound.updateRow (h : Sound rows) {change : OutboxRow → OutboxRow} (eventId : Nat)
    (kept : ∀ r, Consistent r → Consistent (change r)) : Sound (updateRow eventId change rows) := by
  intro r mem
  obtain ⟨old, old_mem, rfl⟩ := List.mem_map.mp mem
  split
  · exact kept old (h old old_mem)
  · exact h old old_mem

theorem Sound.append (h : Sound rows) (nextId : Nat) (eventType : String) (key : Option String) (now : Int) :
    Sound (append nextId eventType key now rows) := by
  unfold Events.append
  dsimp only
  split
  · exact h
  · intro r mem
    rcases List.mem_append.mp mem with old | new
    · exact h r old
    · rw [List.mem_singleton.mp new]
      exact .of_unlocked nofun rfl rfl rfl rfl

theorem Sound.heartbeat (h : Sound rows) (eventId : Nat) (owner : Option String) (lease now : Int) :
    Sound (heartbeat eventId owner lease now rows) := by
  refine h.updateRow eventId fun r consistent => ?_
  split
  · exact consistent
  · next processing =>
    split
    · exact consistent
    · exact ⟨consistent.locked, fun other => absurd other processing⟩

theorem Sound.claim (h : Sound rows) (limit : Nat) (stale lease : Int) (owner : Option String) (now : Int) (locked : List Nat) :
    Sound (claimNextBatch limit stale lease owner now locked rows).2 := by
  intro r mem
  obtain ⟨old, old_mem, rfl⟩ := List.mem_map.mp mem
  split
  · exact consistent_markClaimed ..
  · exact h old old_mem

theorem Sound.markProcessed (h : Sound rows) (eventId : Nat) (now : Int) : Sound (markProcessed eventId now rows) :=
  h.updateRow eventId fun _ _ => .of_unlocked nofun rfl rfl rfl rfl

theorem Sound.markFailed (h : Sound rows) (eventId : Nat) (error : String) (maxAttempts : Nat) (delay now : Int) :
    Sound (markFailed eventId error maxAttempts delay now rows) := by
  refine h.updateRow eventId fun r _ => ?_
  dsimp only
  split
  · exact .of_unlocked nofun rfl rfl rfl rfl
  · exact .of_unlocked nofun rfl rfl rfl rfl

theorem Sound.deadLetter (h : Sound rows) (eventId : Nat) (error : String) (now : Int) :
    Sound (deadLetter eventId error now rows) :=
  h.updateRow eventId fun _ _ => .of_unlocked nofun rfl rfl rfl rfl

theorem Sound.requeueJob (h : Sound rows) (eventId : Nat) (now : Int) : Sound (requeueJob eventId now rows) :=
  h.updateRow eventId fun _ _ => .of_unlocked nofun rfl rfl rfl rfl

theorem Sound.step {t : Table} (h : Sound t.rows) (c : Call) : Sound (step t c).rows := by
  unfold RowConsistency.step
  dsimp only
  cases c with
  | append now eventType key => exact h.append t.nextId eventType key now
  | claimNextBatch now limit stale lease owner locked => exact h.claim limit stale lease owner now locked
  | heartbeat now id owner lease => exact h.heartbeat id owner lease now
  | markProcessed now id => exact h.markProcessed id now
  | markFailed now id error maxAttempts delay => exact h.markFailed id error maxAttempts delay now
  | deadLetter now id error => exact h.deadLetter id error now
  | requeueJob now id => exact h.requeueJob id now

end

end NyzRating.Events.RowConsistency
