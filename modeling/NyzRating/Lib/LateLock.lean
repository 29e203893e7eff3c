import Mathlib.Data.Nat.Notation

/-!
# Locks that are set late

What is let in may fail, and the failure that reaches the limit sets a lock; until it is set, others are let in. Where at most
`width` are inside at a time, fewer fail than the limit and `width` more, and `width` more each time the lock is opened.
-/

namespace LateLock

structure State where
  failed : ℕ
  /-- How many have been let in and neither failed nor left. -/
  inside : ℕ
  /-- How many have failed and are about to set the lock. -/
  setting : ℕ
  locked : Bool

/-- What can happen; the label says whether it may open the lock. -/
inductive Step (limit : ℕ) : State → Bool → State → Prop
  | idle {s : State} {opens : Bool} : Step limit s opens s
  | enter {s : State} (free : s.locked = false) : Step limit s false { s with inside := s.inside + 1 }
  | slip {s : State} : Step limit s true { s with inside := s.inside + 1 }
  | leave {s : State} : Step limit { s with inside := s.inside + 1 } false s
  | fail {s : State} (few : s.failed + 1 < limit) :
      Step limit { s with inside := s.inside + 1 } false { s with failed := s.failed + 1 }
  | reach {s : State} :
      Step limit { s with inside := s.inside + 1 } false { s with failed := s.failed + 1, setting := s.setting + 1 }
  | set {s : State} : Step limit { s with setting := s.setting + 1 } false { s with locked := true }
  | miss {s : State} : Step limit { s with setting := s.setting + 1 } true s
  | lock {s : State} : Step limit s false { s with locked := true }
  | unlock {s : State} : Step limit s true { s with locked := false }

/-- How many failures `opened` openings allow; those who are inside of a locked state may all still fail. -/
def Within (limit width opened : ℕ) (s : State) : Prop :=
  s.failed + (if s.locked then s.inside else 0) + 1 ≤ limit + width * opened + if s.locked then width else s.setting

variable {limit width opened : ℕ} {opens : Bool} {s t : State}

theorem within_of_failed_eq_zero (positive : 0 < limit) (narrow : s.inside + s.setting ≤ width) (fresh : s.failed = 0) :
    Within limit width opened s := by
  unfold Within
  rw [fresh]
  split <;> omega

theorem Within.step (h : Within limit width opened s) (before : s.inside + s.setting ≤ width)
    (after : t.inside + t.setting ≤ width) (step : Step limit s opens t) :
    Within limit width (opened + opens.toNat) t := by
  unfold Within at h ⊢
  have more : width * (opened + 1) = width * opened + width := Nat.mul_succ ..
  cases step with
  | idle =>
    have grown : width * opened ≤ width * (opened + opens.toNat) := Nat.mul_le_mul_left width (Nat.le_add_right ..)
    exact Nat.le_trans h (Nat.add_le_add_right (Nat.add_le_add_left grown limit) _)
  | enter free =>
    simp only [free, Bool.false_eq_true, if_false] at h ⊢
    exact h
  | lock =>
    simp only [Bool.toNat_false, Nat.add_zero, if_true]
    split at h <;> omega
  | unlock =>
    simp only [Bool.toNat_true, Bool.false_eq_true, if_false]
    split at h <;> omega
  | @set s =>
    simp only [Bool.toNat_false, Nat.add_zero, if_true] at h before ⊢
    split at h <;> omega
  | slip =>
    simp only [Bool.toNat_true] at after ⊢
    cases lock : s.locked <;> simp only [lock, if_true, Bool.false_eq_true, if_false] at h ⊢ <;> omega
  | leave =>
    simp only [Bool.toNat_false, Nat.add_zero] at h ⊢
    cases lock : t.locked <;> simp only [lock, if_true, Bool.false_eq_true, if_false] at h ⊢ <;> omega
  | @fail s few =>
    simp only [Bool.toNat_false, Nat.add_zero] at h ⊢
    cases lock : s.locked <;> simp only [lock, if_true, Bool.false_eq_true, if_false] at h ⊢ <;> omega
  | @reach s =>
    simp only [Bool.toNat_false, Nat.add_zero] at h ⊢
    cases lock : s.locked <;> simp only [lock, if_true, Bool.false_eq_true, if_false] at h ⊢ <;> omega
  | miss =>
    simp only [Bool.toNat_true] at h before ⊢
    cases lock : t.locked <;> simp only [lock, if_true, Bool.false_eq_true, if_false] at h ⊢ <;> omega

theorem Within.failed_lt (h : Within limit width opened s) (narrow : s.inside + s.setting ≤ width) :
    s.failed < limit + width * (opened + 1) := by
  unfold Within at h
  rw [Nat.mul_succ]
  split at h <;> omega

end LateLock
