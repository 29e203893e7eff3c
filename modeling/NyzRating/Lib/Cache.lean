import Mathlib.Tactic.Common

/-!
# A cache beside its source

A cache is a partial table. `Fresh` says that each of its entries is right by what the source now says.
-/

namespace Caches

variable {κ α : Type}

/-- Every entry is right. -/
def Fresh (right : κ → α → Prop) (cache : κ → Option α) : Prop := ∀ k a, cache k = some a → right k a

def drop (dropped : κ → Bool) (cache : κ → Option α) : κ → Option α := fun k => if dropped k then none else cache k

variable {right right' : κ → α → Prop} {cache : κ → Option α}

theorem fresh_empty : Fresh right fun _ => none := fun _ _ h => nomatch h

theorem Fresh.set [DecidableEq κ] (h : Fresh right cache) {k : κ} {a : α} (own : right k a) :
    Fresh right (Function.update cache k (some a)) := by
  intro k' a' there
  by_cases same : k' = k
  · subst same
    rw [Function.update_self] at there
    exact Option.some.inj there ▸ own
  · rw [Function.update_of_ne same] at there
    exact h k' a' there

/-- Where the source changes, the entries that stay have to be right by it. -/
theorem Fresh.drop (h : Fresh right cache) {dropped : κ → Bool}
    (kept : ∀ k a, cache k = some a → dropped k = false → right k a → right' k a) : Fresh right' (drop dropped cache) := by
  intro k a there
  unfold Caches.drop at there
  split at there
  · cases there
  · next stays => exact kept k a there (eq_false_of_ne_true stays) (h k a there)

end Caches
