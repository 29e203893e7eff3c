import Mathlib.Tactic.Common

/-!
# Fallible calls

A call `m : Except ε α` returns a value or raises. What it means that a sequence of calls and guards has returned.
-/

namespace Fallible

variable {ε α β : Type} {e : ε} {a b : α} {m : Except ε α}

@[simp] theorem throw_eq_ok : (throw e : Except ε α) = .ok a ↔ False := ⟨nofun, False.elim⟩

@[simp] theorem pure_eq_ok : (pure a : Except ε α) = .ok b ↔ b = a := by
  constructor
  · intro h
    exact (Except.ok.inj h).symm
  · rintro rfl
    rfl

@[simp] theorem bind_eq_ok {f : α → Except ε β} {b : β} : (m >>= f) = .ok b ↔ ∃ a, m = .ok a ∧ f a = .ok b := by
  constructor
  · intro h
    cases m with
    | error e => cases h
    | ok a => exact ⟨a, rfl, h⟩
  · rintro ⟨a, rfl, h⟩
    exact h

/-- The call goes on behind a guard. -/
@[simp] theorem guard_eq_ok {c : Prop} [Decidable c] : (if c then throw e else m) = .ok b ↔ ¬c ∧ m = .ok b := by
  split
  · next h => simp [h]
  · next h => simp [h]

end Fallible
