import Mathlib.Data.List.Induction
import Mathlib.Data.List.SplitBy

/-!
# Blocks

A list is read one element after the other; an element joins the open block unless something breaks off between the last
element of the block and it. This splits the list at the breaks.
-/

namespace Blocks

variable {α : Type} (breaks : α → α → Bool)

structure Scan (α : Type) where
  closed : List (List α) := []
  current : List α := []

def Scan.step (s : Scan α) (x : α) : Scan α :=
  match s.current.getLast? with
  | none => { s with current := [x] }
  | some last =>
    if breaks last x then { closed := s.closed ++ [s.current], current := [x] } else { s with current := s.current ++ [x] }

def Scan.all (s : Scan α) : List (List α) := if s.current = [] then s.closed else s.closed ++ [s.current]

/-- The last element of a block and the first one of the next block. -/
def Apart (u v : List α) : Prop := ∃ hu hv, (!breaks (u.getLast hu) (v.head hv)) = false

/-- The blocks of the list so far. -/
structure Scanned (l : List α) (s : Scan α) : Prop where
  flatten : s.all.flatten = l
  nonempty : [] ∉ s.all
  joined : ∀ block ∈ s.all, block.IsChain fun x y => !breaks x y
  apart : s.all.IsChain (Apart breaks)
  current : s.current = [] → s.closed = []

variable {breaks} {l : List α} {s : Scan α} {x : α}

theorem Scan.all_of_ne_nil (h : s.current ≠ []) : s.all = s.closed ++ [s.current] := if_neg h

theorem Scanned.step (h : Scanned breaks l s) (x : α) : Scanned breaks (l ++ [x]) (s.step breaks x) := by
  unfold Scan.step
  cases at_last : s.current.getLast? with
  | none =>
    have empty : s.current = [] := List.getLast?_eq_none_iff.mp at_last
    have closed := h.current empty
    have flatten := h.flatten
    rw [Scan.all, if_pos empty, closed] at flatten
    dsimp only
    have all : Scan.all { s with current := [x] } = [[x]] := by
      rw [Scan.all_of_ne_nil (List.cons_ne_nil _ _), closed]
      rfl
    refine ⟨by rw [all, ← flatten]; rfl, by simp [all], by simp [all], by simp [all], fun none => absurd none (by simp)⟩
  | some last =>
    have some_last : s.current ≠ [] := fun empty => by rw [empty] at at_last; cases at_last
    have last_eq : s.current.getLast some_last = last := by
      rw [List.getLast?_eq_some_getLast some_last] at at_last
      exact Option.some.inj at_last
    have all := s.all_of_ne_nil some_last
    have flatten := h.flatten
    have nonempty := h.nonempty
    have joined := h.joined
    have apart := h.apart
    rw [all] at flatten nonempty joined apart
    dsimp only
    split
    · next broken =>
      have all' : Scan.all { closed := s.closed ++ [s.current], current := [x] } = s.closed ++ [s.current] ++ [[x]] :=
        Scan.all_of_ne_nil (List.cons_ne_nil _ _)
      refine ⟨?_, ?_, ?_, ?_, fun none => absurd none (List.cons_ne_nil _ _)⟩
      · rw [all', List.flatten_append, flatten]
        rfl
      · rw [all', List.mem_append, not_or]
        exact ⟨nonempty, by simp⟩
      · rw [all']
        intro block mem
        rcases List.mem_append.mp mem with old | new
        · exact joined block old
        · rw [List.mem_singleton.mp new]
          exact List.isChain_singleton x
      · rw [all']
        refine List.isChain_append.mpr ⟨apart, List.isChain_singleton _, fun u last' v first => ?_⟩
        rw [List.getLast?_append, List.getLast?_singleton] at last'
        cases last'
        cases first
        exact ⟨some_last, List.cons_ne_nil _ _, by simp [last_eq, broken]⟩
    · next whole =>
      have joins : s.current ++ [x] ≠ [] := List.append_ne_nil_of_right_ne_nil _ (List.cons_ne_nil _ _)
      have all' : Scan.all { s with current := s.current ++ [x] } = s.closed ++ [s.current ++ [x]] := Scan.all_of_ne_nil joins
      refine ⟨?_, ?_, ?_, ?_, fun none => absurd none joins⟩
      · rw [all', ← flatten]
        simp
      · rw [all', List.mem_append, not_or]
        rw [List.mem_append, not_or] at nonempty
        exact ⟨nonempty.1, by simp⟩
      · rw [all']
        intro block mem
        rcases List.mem_append.mp mem with old | new
        · exact joined block (List.mem_append_left _ old)
        · rw [List.mem_singleton.mp new]
          refine List.isChain_append.mpr ⟨joined _ (List.mem_append_right _ (List.mem_singleton_self _)),
            List.isChain_singleton x, fun y last' z first => ?_⟩
          rw [at_last] at last'
          cases last'
          cases first
          simpa using whole
      · rw [all']
        obtain ⟨closed, -, between⟩ := List.isChain_append.mp apart
        refine List.isChain_append.mpr ⟨closed, List.isChain_singleton _, fun u last' v first => ?_⟩
        cases first
        obtain ⟨some_u, some_v, broken⟩ := between u last' s.current rfl
        exact ⟨some_u, joins, by rw [List.head_append_of_ne_nil some_v]; exact broken⟩

variable (breaks l) in
theorem scanned : Scanned breaks l (l.foldl (Scan.step breaks) {}) := by
  induction l using List.reverseRecOn with
  | nil => exact ⟨rfl, List.not_mem_nil, fun _ mem => absurd mem List.not_mem_nil, List.isChain_nil, fun _ => rfl⟩
  | append_singleton l x ih =>
    rw [List.foldl_append]
    exact ih.step x

variable (breaks l) in
/-- The scan splits the list at the breaks. -/
theorem all_foldl : (l.foldl (Scan.step breaks) {}).all = l.splitBy fun x y => !breaks x y := by
  have h := scanned breaks l
  rw [← List.splitBy_flatten h.nonempty h.joined h.apart, h.flatten]

end Blocks
