import Mathlib.Tactic.Common

/-!
# Runs of a labelled system

A system takes steps `step : σ → ι → σ`; the label `i : ι` says which operation is called and with which
inputs. A run is the list of its labels.
-/

namespace Runs

variable {σ ι : Type} {step : σ → ι → σ} {P Q : σ → ι → Prop} {s : σ}

/-- The state after the steps `is`, taken one after another from `s`. -/
def final (step : σ → ι → σ) (s : σ) (is : List ι) : σ := is.foldl step s

/-- `P` holds of every step of the run, in the state the step starts from. -/
def Always (step : σ → ι → σ) (P : σ → ι → Prop) : σ → List ι → Prop
  | _, [] => True
  | s, i :: is => P s i ∧ Always step P (step s i) is

@[simp] theorem final_nil : final step s [] = s := rfl

@[simp] theorem final_cons {i : ι} {is : List ι} : final step s (i :: is) = final step (step s i) is := rfl

theorem final_append {is js : List ι} : final step s (is ++ js) = final step (final step s is) js := List.foldl_append

@[simp] theorem always_nil : Always step P s [] := trivial

@[simp] theorem always_cons {i : ι} {is : List ι} :
    Always step P s (i :: is) ↔ P s i ∧ Always step P (step s i) is := Iff.rfl

theorem always_append {is js : List ι} :
    Always step P s (is ++ js) ↔ Always step P s is ∧ Always step P (final step s is) js := by
  induction is generalizing s with
  | nil => simp
  | cons i is ih => simp [ih, and_assoc]

instance [∀ s i, Decidable (P s i)] : ∀ (s : σ) (is : List ι), Decidable (Always step P s is)
  | _, [] => .isTrue trivial
  | s, i :: is =>
    have : Decidable (Always step P (step s i) is) := instDecidableAlways _ is
    inferInstanceAs (Decidable (P s i ∧ Always step P (step s i) is))

theorem Always.mono {is : List ι} (h : Always step P s is) (le : ∀ s i, P s i → Q s i) : Always step Q s is := by
  induction is generalizing s with
  | nil => trivial
  | cons i is ih => exact ⟨le s i h.1, ih h.2⟩

theorem Always.of_forall {is : List ι} (h : ∀ i ∈ is, ∀ s, P s i) : Always step P s is := by
  induction is generalizing s with
  | nil => trivial
  | cons i is ih => exact ⟨h i List.mem_cons_self s, ih fun j hj => h j (List.mem_cons_of_mem _ hj)⟩

theorem Always.and {is : List ι} (h : Always step P s is) (h' : Always step Q s is) : Always step (fun s i => P s i ∧ Q s i) s is := by
  induction is generalizing s with
  | nil => trivial
  | cons i is ih => exact ⟨⟨h.1, h'.1⟩, ih h.2 h'.2⟩

/-- What every step preserves holds at the end of every run. -/
theorem final_kept (I : σ → Prop) {is : List ι} (init : I s) (kept : ∀ s i, I s → I (step s i)) : I (final step s is) := by
  induction is generalizing s with
  | nil => exact init
  | cons i is ih => exact ih (kept s i init)

/-- An invariant that every step allowed by `P` preserves holds at the end of a run of such steps. -/
theorem final_invariant (I : σ → Prop) {is : List ι} (init : I s) (kept : ∀ s i, I s → P s i → I (step s i))
    (h : Always step P s is) : I (final step s is) := by
  induction is generalizing s with
  | nil => exact init
  | cons i is ih => exact ih (kept s i init h.1) h.2

/-- Under such an invariant, what it says of the steps holds of every step of the run. -/
theorem Always.of_invariant (I : σ → Prop) {is : List ι} (init : I s) (kept : ∀ s i, I s → P s i → I (step s i))
    (implies : ∀ s i, I s → P s i → Q s i) (h : Always step P s is) : Always step Q s is := by
  induction is generalizing s with
  | nil => trivial
  | cons i is ih => exact ⟨implies s i init h.1, ih (kept s i init h.1) h.2⟩

/-- Where the steps that keep `I` are those of which `P` holds, `I` holds in every state of a run just when `P` holds of its
    steps. -/
theorem always_iff_kept (I : σ → Prop) {is : List ι} (init : I s) (kept : ∀ s, ∀ i ∈ is, I s → (I (step s i) ↔ P s i)) :
    (∀ n, I (final step s (is.take n))) ↔ Always step P s is := by
  induction is generalizing s with
  | nil => simp [init]
  | cons i is ih =>
    have first := kept s i List.mem_cons_self init
    have rest {t : σ} (next : I t) := ih next fun s j mem => kept s j (List.mem_cons_of_mem i mem)
    rw [always_cons]
    constructor
    · intro h
      have next : I (step s i) := h 1
      exact ⟨first.mp next, (rest next).mp fun n => h (n + 1)⟩
    · rintro ⟨allowed, always⟩ n
      have next := first.mpr allowed
      cases n with
      | zero => exact init
      | succ n => exact (rest next).mpr always n

/-- What the steps of a run weigh together. -/
def total (step : σ → ι → σ) (weight : σ → ι → Int) : σ → List ι → Int
  | _, [] => 0
  | s, i :: is => weight s i + total step weight (step s i) is

@[simp] theorem total_nil {weight : σ → ι → Int} : total step weight s [] = 0 := rfl

@[simp] theorem total_cons {weight : σ → ι → Int} {i : ι} {is : List ι} :
    total step weight s (i :: is) = weight s i + total step weight (step s i) is := rfl

/-! ### What happens once -/

section Once

variable {happens : σ → ι → Bool} (past : σ → Prop)

theorem total_eq_zero (kept : ∀ s i, past s → past (step s i)) (never : ∀ s i, past s → happens s i = false) {is : List ι}
    (init : past s) : total step (fun s i => if happens s i then 1 else 0) s is = 0 := by
  induction is generalizing s with
  | nil => rfl
  | cons i is ih =>
    rw [total_cons, never s i init, ih (kept s i init)]
    rfl

/-- After it has happened it is past, and stays so. -/
theorem total_le_one (I : σ → Prop) (inv : ∀ s i, I s → I (step s i)) (kept : ∀ s i, past s → past (step s i))
    (never : ∀ s i, past s → happens s i = false) (ends : ∀ s i, I s → happens s i = true → past (step s i)) {is : List ι}
    (init : I s) : total step (fun s i => if happens s i then 1 else 0) s is ≤ 1 := by
  induction is generalizing s with
  | nil => exact Int.le_of_lt Int.zero_lt_one
  | cons i is ih =>
    rw [total_cons]
    cases now : happens s i with
    | true =>
      rw [total_eq_zero past kept never (ends s i init now)]
      exact Int.le_refl 1
    | false => simpa using ih (inv s i init)

end Once

end Runs
