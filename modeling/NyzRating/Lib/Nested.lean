import Mathlib.Tactic.Common

/-!
# Nested data

Leaves in lists and dicts, and what is said of every leaf by whether a key with a mark stands above it.
-/

inductive Nested (κ α : Type) where
  | leaf (a : α)
  | list (items : List (Nested κ α))
  | dict (entries : List (κ × Nested κ α))

namespace Nested

variable {κ α : Type}

section
variable (mark : κ → Bool) (P : Bool → α → α → Prop)

mutual

/-- The two are of one shape, with the same keys, and `P` holds of each leaf and its counterpart. The flag tells whether a key
    with the mark is above. -/
def Leafwise (below : Bool) : Nested κ α → Nested κ α → Prop
  | .leaf a, .leaf a' => P below a a'
  | .list items, .list items' => LeafwiseItems below items items'
  | .dict entries, .dict entries' => LeafwiseEntries below entries entries'
  | _, _ => False

def LeafwiseItems (below : Bool) : List (Nested κ α) → List (Nested κ α) → Prop
  | [], [] => True
  | item :: items, item' :: items' => Leafwise below item item' ∧ LeafwiseItems below items items'
  | _, _ => False

def LeafwiseEntries (below : Bool) : List (κ × Nested κ α) → List (κ × Nested κ α) → Prop
  | [], [] => True
  | (key, value) :: entries, (key', value') :: entries' =>
    key' = key ∧ Leafwise (below || mark key) value value' ∧ LeafwiseEntries below entries entries'
  | _, _ => False

end

end

section
variable (mark : κ → Bool) (Q : Bool → α → Prop)

mutual

/-- `Q` holds of each leaf. -/
def Every (below : Bool) : Nested κ α → Prop
  | .leaf a => Q below a
  | .list items => EveryItem below items
  | .dict entries => EveryEntry below entries

def EveryItem (below : Bool) : List (Nested κ α) → Prop
  | [] => True
  | item :: items => Every below item ∧ EveryItem below items

def EveryEntry (below : Bool) : List (κ × Nested κ α) → Prop
  | [] => True
  | (key, value) :: entries => Every (below || mark key) value ∧ EveryEntry below entries

end

end

section
variable {mark : κ → Bool} {P : Bool → α → α → Prop} {Q : Bool → α → Prop}

mutual

/-- Data that stays as it is compares leaf by leaf with itself. -/
theorem leafwise_self (same : ∀ below a, P below a a ↔ Q below a) : ∀ (below : Bool) (v : Nested κ α),
    Leafwise mark P below v v ↔ Every mark Q below v
  | below, .leaf a => same below a
  | below, .list items => leafwiseItems_self same below items
  | below, .dict entries => leafwiseEntries_self same below entries

theorem leafwiseItems_self (same : ∀ below a, P below a a ↔ Q below a) : ∀ (below : Bool) (items : List (Nested κ α)),
    LeafwiseItems mark P below items items ↔ EveryItem mark Q below items
  | _, [] => Iff.rfl
  | below, item :: items => and_congr (leafwise_self same below item) (leafwiseItems_self same below items)

theorem leafwiseEntries_self (same : ∀ below a, P below a a ↔ Q below a) : ∀ (below : Bool) (entries : List (κ × Nested κ α)),
    LeafwiseEntries mark P below entries entries ↔ EveryEntry mark Q below entries
  | _, [] => Iff.rfl
  | below, (key, value) :: entries =>
    (and_iff_right rfl).trans (and_congr (leafwise_self same (below || mark key) value) (leafwiseEntries_self same below entries))

end

end

end Nested
