import Mathlib.Algebra.Order.Field.Basic
import Mathlib.Data.List.Induction
import Mathlib.Tactic.Linarith
import Mathlib.Tactic.Push

/-!
# Clusters of a list of points

The points of a list are read one after the other. A point joins the open cluster while it is within a tolerance of the
running mean of that cluster, which takes the middle between the mean before and each new point; else it opens a cluster of
its own. The mean may drift along with the points, by half the tolerance with each of them.
-/

namespace Clusters

variable {α K : Type} [Field K] [LinearOrder K] (pos : α → K) (tolerance : K)

structure Scan (α K : Type) where
  closed : List (List α) := []
  current : List α := []
  mean : Option K := none

def Scan.step (s : Scan α K) (x : α) : Scan α K :=
  match s.mean with
  | none => { s with current := s.current ++ [x], mean := some (pos x) }
  | some mean =>
    if |pos x - mean| ≤ tolerance then { s with current := s.current ++ [x], mean := some ((mean + pos x) / 2) }
    else { closed := s.closed ++ [s.current], current := [x], mean := some (pos x) }

def Scan.all (s : Scan α K) : List (List α) := if s.current = [] then s.closed else s.closed ++ [s.current]

def clusters (l : List α) : List (List α) := (l.foldl (Scan.step pos tolerance) {}).all

/-- The running mean after the points of a cluster. -/
def meanOf (l : List α) : Option K := l.foldl (fun mean x => some (mean.elim (pos x) fun m => (m + pos x) / 2)) none

/-- Each point is within the tolerance of the running mean before it. -/
def Near (l : List α) : Prop :=
  ∀ before x after, l = before ++ x :: after → ∀ mean ∈ meanOf pos before, |pos x - mean| ≤ tolerance

section Scanning

variable {pos tolerance} {l : List α} {s : Scan α K} {x : α}

omit [LinearOrder K] in
theorem meanOf_concat (l : List α) (x : α) :
    meanOf pos (l ++ [x]) = some ((meanOf pos l).elim (pos x) fun m => (m + pos x) / 2) := by
  rw [meanOf, List.foldl_append]
  rfl

omit [LinearOrder K] in
theorem meanOf_eq_none (h : meanOf pos l = none) : l = [] := by
  rcases List.eq_nil_or_concat l with rfl | ⟨l, x, rfl⟩
  · rfl
  · rw [List.concat_eq_append, meanOf_concat] at h
    cases h

theorem near_nil : Near pos tolerance [] := fun before _ _ parts => absurd parts.symm (List.append_ne_nil_of_right_ne_nil before (List.cons_ne_nil _ _))

theorem Near.concat (h : Near pos tolerance l) (last : ∀ mean ∈ meanOf pos l, |pos x - mean| ≤ tolerance) :
    Near pos tolerance (l ++ [x]) := by
  intro before y after parts
  rcases List.eq_nil_or_concat after with rfl | ⟨after, z, rfl⟩
  · obtain ⟨rfl, same⟩ := List.append_inj' parts rfl
    obtain rfl := List.singleton_inj.mp same
    exact last
  · rw [List.concat_eq_append, ← List.cons_append, ← List.append_assoc] at parts
    exact h before y after (List.append_inj' parts rfl).1

/-- What has been read of a list. -/
structure Scanned (pos : α → K) (tolerance : K) (l : List α) (s : Scan α K) : Prop where
  whole : s.closed.flatten ++ s.current = l
  mean : s.mean = meanOf pos s.current
  closed : ∀ c ∈ s.closed, Near pos tolerance c
  current : Near pos tolerance s.current

theorem Scanned.step (h : Scanned pos tolerance l s) (x : α) : Scanned pos tolerance (l ++ [x]) (s.step pos tolerance x) := by
  unfold Scan.step
  split
  · next none =>
    have empty := meanOf_eq_none (h.mean.symm.trans none)
    refine ⟨?_, ?_, h.closed, h.current.concat ?_⟩
    · rw [← h.whole, List.append_assoc]
    · rw [empty]
      rfl
    · rw [empty]
      exact fun _ mem => absurd mem (Option.not_mem_none _)
  · next mean found =>
    have mean_eq := h.mean.symm.trans found
    split
    · next near =>
      refine ⟨?_, ?_, h.closed, h.current.concat ?_⟩
      · rw [← h.whole, List.append_assoc]
      · rw [meanOf_concat, mean_eq]
        rfl
      · rw [mean_eq]
        rintro _ ⟨⟩
        exact near
    · refine ⟨?_, rfl, List.forall_mem_append.mpr ⟨h.closed, List.forall_mem_singleton.mpr h.current⟩,
        near_nil.concat fun _ mem => absurd mem (Option.not_mem_none _)⟩
      rw [← h.whole, List.flatten_append, List.flatten_singleton]

theorem scanned (pos : α → K) (tolerance : K) (l : List α) : Scanned pos tolerance l (l.foldl (Scan.step pos tolerance) {}) := by
  induction l using List.reverseRecOn with
  | nil => exact ⟨rfl, rfl, fun _ mem => absurd mem List.not_mem_nil, near_nil⟩
  | append_singleton l x ih =>
    rw [List.foldl_append]
    exact ih.step x

/-- The clusters are the list. -/
theorem flatten_clusters (l : List α) : (clusters pos tolerance l).flatten = l := by
  have whole := (scanned pos tolerance l).whole
  unfold clusters Scan.all
  split
  · next empty =>
    rw [empty, List.append_nil] at whole
    exact whole
  · rw [List.flatten_append, List.flatten_singleton]
    exact whole

theorem near_of_mem_clusters {c : List α} (mem : c ∈ clusters pos tolerance l) : Near pos tolerance c := by
  have all := scanned pos tolerance l
  unfold clusters Scan.all at mem
  split at mem
  · exact all.closed c mem
  · rcases List.mem_append.mp mem with closed | current
    · exact all.closed c closed
    · rw [List.mem_singleton.mp current]
      exact all.current

end Scanning

/-! ### Drift -/

section Drift

variable {pos tolerance} [IsStrictOrderedRing K] {before between after : List α} {x y : α}

/-- After a point, and with each of those that follow it, the mean goes no further than half the tolerance. -/
theorem Near.mean_le (h : Near pos tolerance (before ++ x :: between ++ after)) {mean : K} (positive : 0 ≤ tolerance)
    (found : mean ∈ meanOf pos (before ++ x :: between)) : |mean - pos x| ≤ tolerance * (between.length + 1) / 2 := by
  induction between using List.reverseRecOn generalizing mean after with
  | nil =>
    have within := h before x after (by simp)
    rw [meanOf_concat] at found
    obtain rfl := Option.mem_some_iff.mp found
    cases earlier : meanOf pos before with
    | none =>
      rw [Option.elim_none, sub_self, abs_zero, List.length_nil]
      push_cast
      linarith
    | some m =>
      have close := abs_le.mp (within m earlier)
      rw [Option.elim_some, List.length_nil, abs_le]
      push_cast
      constructor <;> linarith
  | append_singleton between z ih =>
    rw [← List.cons_append, ← List.append_assoc] at h found
    rw [List.append_assoc, List.singleton_append] at h
    have within := h _ z after rfl
    rw [meanOf_concat] at found
    obtain rfl := Option.mem_some_iff.mp found
    cases earlier : meanOf pos (before ++ x :: between) with
    | none =>
      have empty := meanOf_eq_none earlier
      exact absurd empty (by simp)
    | some m =>
      have close := abs_le.mp (within m earlier)
      have drift := abs_le.mp (ih h earlier)
      rw [Option.elim_some, abs_le, List.length_append, List.length_singleton]
      push_cast
      constructor <;> linarith

/-- Two points of a cluster are not further apart than the points between them let the mean drift. -/
theorem Near.distance_le (h : Near pos tolerance (before ++ x :: between ++ y :: after)) (positive : 0 ≤ tolerance) :
    |pos y - pos x| ≤ tolerance * (between.length + 3) / 2 := by
  cases earlier : meanOf pos (before ++ x :: between) with
  | none => exact absurd (meanOf_eq_none earlier) (by simp)
  | some m =>
    have close := abs_le.mp (h _ y after rfl m earlier)
    have drift := abs_le.mp (h.mean_le positive earlier)
    rw [abs_le]
    constructor <;> linarith

end Drift

end Clusters
