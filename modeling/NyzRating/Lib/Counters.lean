import Mathlib.Data.List.Basic
import Mathlib.Data.List.Perm.Subperm
import Mathlib.Data.List.ProdSigma
import Mathlib.Data.List.Range
import Mathlib.Logic.Function.Basic

/-!
# Counters

Callers count up counters and are told the new count. No two of them are told the same count of a counter, so that at most
`limit` of them are told a count of up to `limit`, whether or not some of the answers are lost.
-/

namespace Counters

/-- What a caller was told. -/
structure Answer (κ ι : Type) where
  caller : ι
  key : κ
  count : Nat

/-- The counters, and the answers so far. -/
structure Store (κ ι : Type) where
  counters : κ → Nat
  answers : List (Answer κ ι) := []

variable {κ ι : Type} [DecidableEq κ]

namespace Store

variable (s : Store κ ι) (key : κ) (caller : ι)

/-- A counter goes up, and the answer is lost. -/
def incr : Store κ ι := { s with counters := Function.update s.counters key (s.counters key + 1) }

/-- A counter goes up, and the caller is told. -/
def count : Store κ ι := { s.incr key with answers := s.answers ++ [{ caller, key, count := s.counters key + 1 }] }

/-- No two answers tell the same count of a counter, and none tells more than it has counted. -/
structure Numbered : Prop where
  apart : s.answers.Pairwise fun a b => (a.key, a.count) ≠ (b.key, b.count)
  counted : ∀ a ∈ s.answers, 0 < a.count ∧ a.count ≤ s.counters a.key

variable {s} {key caller}

theorem le_incr (k : κ) : s.counters k ≤ (s.incr key).counters k := by
  unfold incr
  dsimp only
  rcases eq_or_ne k key with rfl | other
  · rw [Function.update_self]
    exact Nat.le_succ _
  · rw [Function.update_of_ne other]

theorem Numbered.incr (h : s.Numbered) : (s.incr key).Numbered :=
  ⟨h.apart, fun a mem => ⟨(h.counted a mem).1, (h.counted a mem).2.trans (le_incr a.key)⟩⟩

theorem Numbered.count (h : s.Numbered) : (s.count key caller).Numbered := by
  have up : (s.incr key).counters key = s.counters key + 1 := Function.update_self ..
  refine ⟨List.pairwise_append.mpr ⟨h.apart, List.pairwise_singleton _ _, ?_⟩, fun a mem => ?_⟩
  · intro a mem b last same
    rw [List.mem_singleton.mp last, Prod.mk.injEq] at same
    have counted := (h.counted a mem).2
    rw [same.1, same.2] at counted
    exact absurd counted (Nat.not_succ_le_self _)
  · rcases List.mem_append.mp mem with old | new
    · exact h.incr.counted a old
    · rw [List.mem_singleton.mp new]
      exact ⟨Nat.succ_pos _, up.ge⟩

/-- At most `limit` callers are told a count of up to `limit` of a counter. -/
theorem Numbered.length_le (h : s.Numbered) {keys : List κ} {limit : Nat} {callers : List ι} (distinct : callers.Nodup)
    (told : ∀ i ∈ callers, ∃ a ∈ s.answers, a.caller = i ∧ a.key ∈ keys ∧ a.count ≤ limit) :
    callers.length ≤ keys.length * limit := by
  let low := s.answers.filter fun a => a.key ∈ keys ∧ a.count ≤ limit
  have among : callers ⊆ low.map (·.caller) := by
    intro i mem
    obtain ⟨a, answered, rfl, of_key, small⟩ := told i mem
    exact List.mem_map_of_mem (List.mem_filter.mpr ⟨answered, decide_eq_true ⟨of_key, small⟩⟩)
  have apart : (low.map fun a => (a.key, a.count)).Nodup := by
    rw [List.nodup_iff_pairwise_ne, List.pairwise_map]
    exact h.apart.sublist List.filter_sublist
  have bounded : (low.map fun a => (a.key, a.count)) ⊆ keys ×ˢ List.range' 1 limit := by
    intro pair mem
    obtain ⟨a, among, rfl⟩ := List.mem_map.mp mem
    obtain ⟨answered, small⟩ := List.mem_filter.mp among
    obtain ⟨of_key, small⟩ := of_decide_eq_true small
    have pos := (h.counted a answered).1
    exact List.mem_product.mpr ⟨of_key, List.mem_range'_1.mpr ⟨pos, by omega⟩⟩
  calc callers.length ≤ (low.map (·.caller)).length := (List.subperm_of_subset distinct among).length_le
    _ = (low.map fun a => (a.key, a.count)).length := by rw [List.length_map, List.length_map]
    _ ≤ (keys ×ˢ List.range' 1 limit).length := (List.subperm_of_subset apart bounded).length_le
    _ = keys.length * limit := by rw [List.length_product, List.length_range']

end Store

end Counters
