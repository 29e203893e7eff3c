import Mathlib.Data.List.Induction
import Mathlib.Data.List.Sort
import Mathlib.Order.Basic

/-!
# Lists in the order of a key

Sorting by a key, and choosing greedily in an order: an entry is kept unless it is in conflict with one that is kept
already. What is left out is in conflict with an entry that comes before it.
-/

namespace Ordered

variable {α κ : Type}

section Sorting

variable [LinearOrder κ] (key : α → κ) (l : List α)

/-- `sorted(l, key=key)`: entries with the same key stay in the order of the list. -/
def sortedBy : List α := l.insertionSort (key · ≤ key ·)

theorem sortedBy_perm : (sortedBy key l).Perm l := List.perm_insertionSort _ l

theorem sortedBy_pairwise : (sortedBy key l).Pairwise (key · ≤ key ·) := by
  have total : Std.Total (fun x y : α => key x ≤ key y) := ⟨fun x y => le_total (key x) (key y)⟩
  have trans : IsTrans α (fun x y : α => key x ≤ key y) := ⟨fun _ _ _ => le_trans⟩
  exact List.pairwise_insertionSort _ l

end Sorting

/-! ### Greedy choice -/

section Choice

variable (conflict : α → α → Bool) (R : α → α → Prop)

def keep (kept : List α) (x : α) : List α := if kept.any (conflict · x) then kept else kept ++ [x]

def choose (l : List α) : List α := l.foldl (keep conflict) []

/-- No two entries of `kept` are in conflict, and each other entry of `l` is, with one of `kept` that `R` puts before it. -/
structure Chosen (l kept : List α) : Prop where
  apart : kept.Pairwise fun x y => conflict x y = false
  split : ∃ dropped, (kept ++ dropped).Perm l ∧ ∀ x ∈ dropped, ∃ y ∈ kept, R y x ∧ conflict y x = true

variable {conflict R} {l kept : List α} {x : α}

theorem Chosen.subset (h : Chosen conflict R l kept) : kept ⊆ l := by
  obtain ⟨dropped, perm, -⟩ := h.split
  exact fun x mem => perm.subset (List.mem_append_left dropped mem)

/-- One more entry, which comes after the others. -/
theorem Chosen.keep (h : Chosen conflict R l kept) (last : ∀ y ∈ l, R y x) :
    Chosen conflict R (l ++ [x]) (keep conflict kept x) := by
  obtain ⟨dropped, perm, lost⟩ := h.split
  unfold Ordered.keep
  cases found : kept.any (conflict · x) with
  | true =>
    rw [if_pos rfl]
    obtain ⟨y, mem, against⟩ := List.any_eq_true.mp found
    refine ⟨h.apart, dropped ++ [x], ?_, fun z dropped_z => ?_⟩
    · rw [← List.append_assoc]
      exact perm.append_right [x]
    · rcases List.mem_append.mp dropped_z with before | here
      · exact lost z before
      · rw [List.mem_singleton.mp here]
        exact ⟨y, mem, last y (h.subset mem), against⟩
  | false =>
    rw [if_neg Bool.false_ne_true]
    have free : ∀ y ∈ kept, conflict y x = false := by simpa using found
    refine ⟨?_, dropped, ?_, fun z dropped_z => ?_⟩
    · refine List.pairwise_append.mpr ⟨h.apart, List.pairwise_singleton _ _, fun y mem z only => ?_⟩
      rw [List.mem_singleton.mp only]
      exact free y mem
    · have moved : (kept ++ [x] ++ dropped).Perm (kept ++ dropped ++ [x]) := by
        rw [List.append_assoc, List.append_assoc]
        exact List.perm_append_comm.append_left kept
      exact moved.trans (perm.append_right [x])
    · obtain ⟨y, mem, rest⟩ := lost z dropped_z
      exact ⟨y, List.mem_append_left [x] mem, rest⟩

theorem choose_concat (l : List α) (x : α) : choose conflict (l ++ [x]) = Ordered.keep conflict (choose conflict l) x := by
  rw [choose, List.foldl_append]
  rfl

/-- The choice from a list in the order of `R`. -/
theorem chosen_choose (conflict : α → α → Bool) (ordered : l.Pairwise R) : Chosen conflict R l (choose conflict l) := by
  induction l using List.reverseRecOn with
  | nil => exact ⟨List.Pairwise.nil, [], List.Perm.nil, fun _ mem => absurd mem List.not_mem_nil⟩
  | append_singleton l x ih =>
    obtain ⟨before, -, last⟩ := List.pairwise_append.mp ordered
    rw [choose_concat]
    exact (ih before).keep fun y mem => last y mem x (List.mem_singleton_self x)

end Choice

end Ordered
