import Mathlib.Tactic.Common

/-!
# Settings of a database connection

A setting has a value for the session, which `SET` changes, and within a transaction a local one, which `SET LOCAL` changes.
A commit keeps what `SET` has changed and drops what is local, a rollback drops both.
-/

/-- A setting in an open transaction: the value from before it, and what `SET` and `SET LOCAL` have made of it since. -/
structure Setting (α : Type) where
  before : α
  changed : Option α := none
  temporary : Option α := none
  deriving DecidableEq, Repr

namespace Setting

variable {α : Type} (c : Setting α) (v : α)

/-- The value that a statement meets. -/
def current : α := c.temporary.getD (c.changed.getD c.before)

/-- `SET` -/
def set : Setting α := { c with changed := some v, temporary := none }

/-- `SET LOCAL` -/
def setLocal : Setting α := { c with temporary := some v }

/-- The session's value after a commit. -/
def committed : α := c.changed.getD c.before

/-- The session's value after a rollback. -/
def rolledBack : α := c.before

@[simp] theorem current_set : (c.set v).current = v := rfl

@[simp] theorem current_setLocal : (c.setLocal v).current = v := rfl

@[simp] theorem committed_set : (c.set v).committed = v := rfl

/-- A local value does not outlast the transaction. -/
@[simp] theorem committed_setLocal : (c.setLocal v).committed = c.committed := rfl

@[simp] theorem rolledBack_set : (c.set v).rolledBack = c.rolledBack := rfl

@[simp] theorem rolledBack_setLocal : (c.setLocal v).rolledBack = c.rolledBack := rfl

/-- All that is left of a setting once nothing in it is local. -/
def Within (P : α → Prop) : Prop := P c.before ∧ ∀ v ∈ c.changed, P v

section
variable {c : Setting α} {v : α} {P : α → Prop}

theorem within_fresh {before : α} (h : P before) : Within { before } P := ⟨h, nofun⟩

theorem Within.set (h : c.Within P) (holds : P v) : (c.set v).Within P := ⟨h.1, fun _ same => Option.some.inj same ▸ holds⟩

theorem Within.setLocal (h : c.Within P) (v : α) : (c.setLocal v).Within P := h

theorem Within.committed (h : c.Within P) : P c.committed := by
  unfold Setting.committed
  cases changed : c.changed with
  | none => exact h.1
  | some v => exact h.2 v changed

theorem Within.rolledBack (h : c.Within P) : P c.rolledBack := h.1

end

end Setting
