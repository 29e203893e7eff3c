import Mathlib.Algebra.Order.Field.Rat
import Mathlib.Data.List.MinMax
import Mathlib.Data.Rat.Floor
import Mathlib.Tactic.Linarith

/-!
# Fixed windows

Time is cut into windows of one width, which are counted from the beginning of time. What is bounded in each of them is
bounded by twice as much in any stretch that is shorter than they are.
-/

namespace FixedWindow

variable {α : Type} {width : ℚ}

/-- The number of the window that the time is in. -/
def window (width time : ℚ) : Int := ⌊time / width⌋

theorem window_lt (pos : 0 < width) (time : ℚ) : time < (window width time + 1) * width := by
  have below := Int.lt_floor_add_one (time / width)
  rwa [div_lt_iff₀ pos] at below

theorem window_le (pos : 0 < width) (time : ℚ) : window width time * width ≤ time := by
  have above := Int.floor_le (time / width)
  rwa [le_div_iff₀ pos] at above

theorem window_mono (pos : 0 < width) {s t : ℚ} (le : s ≤ t) : window width s ≤ window width t :=
  Int.floor_mono (div_le_div_of_nonneg_right le pos.le)

theorem window_near (pos : 0 < width) {s t : ℚ} (near : t - s < width) : window width t ≤ window width s + 1 := by
  have next : t / width < s / width + 1 := by
    rw [div_add_one pos.ne', div_lt_div_iff_of_pos_right pos]
    linarith
  calc window width t ≤ ⌊s / width + 1⌋ := Int.floor_mono next.le
    _ = window width s + 1 := Int.floor_add_one _

theorem countP_or_le (p q : α → Bool) (l : List α) : l.countP (fun a => p a || q a) ≤ l.countP p + l.countP q := by
  induction l with
  | nil => simp
  | cons a l ih =>
    simp only [List.countP_cons]
    cases p a <;> cases q a <;> simp <;> omega

variable {time : α → ℚ} {p within : α → Bool} {limit : Nat} {l : List α}

theorem countP_near_le (pos : 0 < width) (bound : ∀ n, l.countP (fun a => p a && window width (time a) = n) ≤ limit)
    (near : ∀ a ∈ l, ∀ b ∈ l, within a → within b → time b - time a < width) :
    l.countP (fun a => p a && within a) ≤ 2 * limit := by
  cases first : (l.filter fun a => p a && within a).argmin fun a => window width (time a) with
  | none =>
    rw [List.argmin_eq_none] at first
    rw [List.countP_eq_length_filter, first]
    exact Nat.zero_le _
  | some a =>
    -- All of them are in the window of the first, or in the next one.
    obtain ⟨mem, inside⟩ := List.mem_filter.mp (List.argmin_mem first)
    have two : l.countP (fun b => p b && within b) ≤
        l.countP fun b => (p b && window width (time b) = window width (time a)) ||
          (p b && window width (time b) = window width (time a) + 1) := by
      refine List.countP_mono_left fun b mem' inside' => ?_
      have later := List.le_of_mem_argmin (List.mem_filter.mpr ⟨mem', inside'⟩) first
      rw [Bool.and_eq_true] at inside inside'
      have sooner := window_near pos (near a mem b mem' inside.2 inside'.2)
      have either : window width (time b) = window width (time a) ∨ window width (time b) = window width (time a) + 1 := by
        omega
      rcases either with same | next
      · simp [inside'.1, same]
      · simp [inside'.1, next]
    have one := bound (window width (time a))
    have other := bound (window width (time a) + 1)
    have both := countP_or_le (fun b => p b && window width (time b) = window width (time a))
      (fun b => p b && window width (time b) = window width (time a) + 1) l
    omega

end FixedWindow
