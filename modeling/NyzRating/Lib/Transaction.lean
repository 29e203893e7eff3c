import NyzRating.Lib.Program

/-!
# Transactions

A statement that fails aborts its transaction: every later statement of it fails as well, and its commit takes back
what the earlier ones wrote. A program that runs in one transaction leaves nothing behind when it raises.
-/

namespace Program

/-- An open transaction: the store as its statements leave it, and whether one of them has failed. -/
structure Transaction (σ : Type) where
  work : σ
  aborted : Bool := false

namespace Transaction

variable {σ ι : Type}

def execute (fails : Bool) (f : σ → σ) (t : Transaction σ) : Transaction σ :=
  if t.aborted || fails then { t with aborted := true } else { t with work := f t.work }

def opened (s : σ) : Transaction σ := { work := s }

/-- Statements one after another, where the caller swallows their errors. -/
def executeAll (fails : ι → Bool) (f : ι → σ → σ) (is : List ι) (t : Transaction σ) : Transaction σ :=
  is.foldl (fun t i => t.execute (fails i) (f i)) t

/-- The store after the commit of a transaction that was opened on `s`. -/
def commit (s : σ) (t : Transaction σ) : σ := if t.aborted then s else t.work

theorem executeAll_of_aborted {fails : ι → Bool} {f : ι → σ → σ} (is : List ι) {t : Transaction σ} (h : t.aborted = true) :
    (t.executeAll fails f is).aborted = true := by
  induction is generalizing t with
  | nil => exact h
  | cons i is ih =>
    have hi : (t.execute (fails i) (f i)).aborted = true := by rw [execute, h, Bool.true_or, if_pos rfl]
    exact ih hi

/-- The statements of a transaction are committed together, or none of them is. -/
theorem commit_executeAll (fails : ι → Bool) (f : ι → σ → σ) (is : List ι) (s w : σ) :
    ((opened w).executeAll fails f is).commit s = if is.any fails then s else is.foldl (fun s i => f i s) w := by
  induction is generalizing w with
  | nil => rfl
  | cons i is ih =>
    cases hi : fails i with
    | true =>
      have aborted : ((opened w).execute true (f i)).aborted = true := rfl
      have all : ((opened w).executeAll fails f (i :: is)).aborted = true := by
        rw [executeAll, List.foldl_cons, hi]
        exact executeAll_of_aborted is aborted
      rw [commit, if_pos all, List.any_cons, hi, Bool.true_or, if_pos rfl]
    | false =>
      have one : (opened w).executeAll fails f (i :: is) = (opened (f i w)).executeAll fails f is := by
        rw [executeAll, List.foldl_cons, hi]
        rfl
      rw [one, ih, List.any_cons, hi, Bool.false_or, List.foldl_cons]

end Transaction

variable {ε σ α : Type} {R : α → σ → Prop} {E : σ → Prop} {s : σ}

/-- The program in a transaction: where it raises, `restore` puts back, of the store as it was, what it may take back. -/
def atomically (restore : σ → σ → σ) (m : EStateM ε σ α) : EStateM ε σ α := do
  let s ← get
  tryCatch m fun e => do
    modify (restore s)
    throw e

theorem run_atomically (restore : σ → σ → σ) (m : EStateM ε σ α) (s : σ) : (atomically restore m).run s =
    match m.run s with
    | .ok a t => .ok a t
    | .error e t => .error e (restore s t) := by
  simp only [atomically, EStateM.run_bind, EStateM.run_get, run_tryCatch]
  cases m.run s <;> rfl

theorem Returns.atomically {restore : σ → σ → σ} {m : EStateM ε σ α} (h : Returns (· = s) m R E) :
    Returns (· = s) (Program.atomically restore m) R fun t => ∃ u, E u ∧ t = restore s u := by
  refine Returns.bind (R := fun x t => x = s ∧ t = s) (Returns.get fun _ h => ⟨h, h⟩) fun x => Returns.given ?_
  rintro rfl
  exact Returns.tryCatch h fun e => Returns.bind (Returns.modify fun u hu => ⟨u, hu, rfl⟩) fun _ => Returns.throw fun _ h => h

/-- The rest of a transaction, and its commit: the store that it leaves, and the value that it returns. -/
def committed (m : EStateM ε σ α) (s : σ) : σ × Option α :=
  match (atomically (fun s _ => s) m).run s with
  | .ok a t => (t, some a)
  | .error _ t => (t, none)

theorem committed_forms {m : EStateM ε σ α} (h : Returns (· = s) m R fun _ => True) :
    committed m s = (s, none) ∨ ∃ a t, R a t ∧ committed m s = (t, some a) := by
  have spec : Returns (· = s) (atomically (fun s _ => s) m) R _ := .atomically h
  have ends := spec s rfl
  unfold committed
  generalize (atomically (fun s _ => s) m).run s = result at ends ⊢
  cases ends with
  | raised ended =>
    obtain ⟨_, -, rfl⟩ := ended
    exact .inl rfl
  | @returned a t ended => exact .inr ⟨a, t, ended, rfl⟩

theorem committed_congr {m m' : EStateM ε σ α} (same : m.run s = m'.run s) : committed m s = committed m' s := by
  simp only [committed, run_atomically, same]

end Program
