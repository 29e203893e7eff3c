import NyzRating.Lib.Run
import Mathlib.Logic.Function.Basic
import Mathlib.Tactic.Common

/-!
# Transactions behind one row lock

Transactions run their statements interleaved. The first statement of each locks the same row, which the transaction
keeps until it commits or rolls back; meanwhile the others wait in front of their first statement. A statement reads
what is committed, with the transaction's own writes on top.
-/

namespace RowLock

/-- The transactions of a program: `ι` are their inputs, `φ` says how far one has come, and `ω` are the writes. -/
structure Protocol (σ ι φ ω : Type) where
  apply : ω → σ → σ
  /-- The row to be locked exists. -/
  lockable : σ → Bool
  start : φ
  /-- The statement after a phase: the next phase, and what it writes. -/
  advance : ι → φ → σ → φ × List ω
  /-- A phase that ends the transaction, with a commit or a rollback. -/
  verdict : φ → Option Bool
  failed : φ
  failed_verdict : verdict failed = some false

variable {σ ι φ ω : Type}

inductive Status (φ ω : Type) where
  | waiting
  | running (phase : φ) (writes : List ω)
  | ended (phase : φ)
  deriving DecidableEq

structure Server (σ φ ω : Type) where
  committed : σ
  status : Nat → Status φ ω := fun _ => .waiting
  holder : Option Nat := none

/-- Transaction `i` executes its next statement, or its connection fails. -/
inductive Event where
  | execute (i : Nat)
  | fail (i : Nat)
  deriving DecidableEq, Repr

def Event.transaction : Event → Nat
  | .execute i | .fail i => i

namespace Protocol

variable (P : Protocol σ ι φ ω)

def view (writes : List ω) (committed : σ) : σ := writes.foldl (fun s w => P.apply w s) committed

@[simp] theorem view_nil (s : σ) : P.view [] s = s := rfl

theorem view_append (ws vs : List ω) (s : σ) : P.view (ws ++ vs) s = P.view vs (P.view ws s) := List.foldl_append

/-- The lock of an ended transaction is released. -/
def release (holder : Option Nat) (i : Nat) : Option Nat := if holder = some i then none else holder

/-- The statement of transaction `i` after `phase`. -/
def statement (input : Nat → ι) (s : Server σ φ ω) (i : Nat) (phase : φ) (writes : List ω) : Server σ φ ω :=
  let result := P.advance (input i) phase (P.view writes s.committed)
  let writes := writes ++ result.2
  match P.verdict result.1 with
  | none => { s with status := Function.update s.status i (.running result.1 writes) }
  | some commit =>
    { committed := if commit then P.view writes s.committed else s.committed
      status := Function.update s.status i (.ended result.1)
      holder := release s.holder i }

def step (input : Nat → ι) (s : Server σ φ ω) : Event → Server σ φ ω
  | .execute i =>
    match s.status i with
    | .ended _ => s
    | .running phase writes => P.statement input s i phase writes
    | .waiting =>
      if P.lockable s.committed then
        if s.holder.isSome then s else P.statement input { s with holder := some i } i P.start []
      -- without a row nothing is locked
      else P.statement input s i P.start []
  | .fail i =>
    match s.status i with
    | .ended _ => s
    | .running .. | .waiting =>
      { s with status := Function.update s.status i (.ended P.failed), holder := release s.holder i }

def opened (s : σ) : Server σ φ ω := { committed := s }

/-! ### One transaction alone -/

/-- What a transaction with input `a` reaches when it runs alone on `s`. -/
inductive Alone (a : ι) (s : σ) : φ → σ → Prop
  | start : Alone a s P.start s
  | statement {phase : φ} {t : σ} (before : Alone a s phase t) :
      Alone a s (P.advance a phase t).1 (P.view (P.advance a phase t).2 t)

/-- The lock is there and held by the only running transaction, which sees what it would see alone. -/
structure Serial (input : Nat → ι) (s : Server σ φ ω) : Prop where
  lockable : P.lockable s.committed = true
  holds : ∀ i phase writes, s.status i = .running phase writes → s.holder = some i
  alone : ∀ i phase writes, s.status i = .running phase writes →
    P.Alone (input i) s.committed phase (P.view writes s.committed)

variable {P} {input : Nat → ι} {s : Server σ φ ω}

theorem serial_opened {s : σ} (h : P.lockable s = true) : P.Serial input (opened s) :=
  ⟨h, nofun, nofun⟩

/-- The commit of a transaction that ran alone. -/
def Commits (P : Protocol σ ι φ ω) (a : ι) (s t : σ) : Prop :=
  ∃ phase, P.Alone a s phase t ∧ P.verdict phase = some true

/-- The row stays when a transaction commits. -/
def Keeps (P : Protocol σ ι φ ω) : Prop := ∀ a s t, P.lockable s = true → P.Commits a s t → P.lockable t = true

theorem statement_status_of_ne {i j : Nat} (h : j ≠ i) (phase : φ) (writes : List ω) :
    (P.statement input s i phase writes).status j = s.status j := by
  unfold statement
  cases hv : P.verdict (P.advance (input i) phase (P.view writes s.committed)).1 <;>
    simp only [hv, Function.update_of_ne h]

/-- A statement ends its transaction with a commit, or changes nothing that is committed. -/
theorem statement_cases (i : Nat) {phase : φ} {writes : List ω}
    (alone : P.Alone (input i) s.committed phase (P.view writes s.committed)) :
    (P.statement input s i phase writes).committed = s.committed ∧
      (∀ last, P.verdict last = some true → (P.statement input s i phase writes).status i ≠ .ended last) ∨
    ∃ last, P.Alone (input i) s.committed last (P.statement input s i phase writes).committed ∧
      P.verdict last = some true ∧ (P.statement input s i phase writes).status i = .ended last := by
  have next := alone.statement
  rw [← P.view_append] at next
  unfold statement
  cases hv : P.verdict (P.advance (input i) phase (P.view writes s.committed)).1 with
  | none => exact .inl ⟨by simp only [hv], fun last _ => by simp [hv]⟩
  | some commit =>
    cases commit with
    | false =>
      refine .inl ⟨by simp [hv], fun last hl => ?_⟩
      simp only [hv, Function.update_self, ne_eq, Status.ended.injEq]
      rintro rfl
      simp [hv] at hl
    | true => exact .inr ⟨_, by simpa [hv] using next, hv, by simp [hv]⟩

/-- A statement of the holder keeps the order, when the commit keeps the row. -/
theorem Serial.of_statement (serial : P.Serial input s) (keeps : P.Keeps)
    {i : Nat} {phase : φ} {writes : List ω} (holder : s.holder = some i)
    (alone : P.Alone (input i) s.committed phase (P.view writes s.committed)) :
    P.Serial input (P.statement input s i phase writes) := by
  have next := alone.statement
  rw [← P.view_append] at next
  have only : ∀ j p ws, s.status j = .running p ws → j = i := fun j p ws hj =>
    Option.some.inj ((serial.holds j p ws hj).symm.trans holder)
  unfold statement
  cases hv : P.verdict (P.advance (input i) phase (P.view writes s.committed)).1 with
  | none =>
    simp only [hv]
    refine ⟨serial.lockable, fun j p ws hj => ?_, fun j p ws hj => ?_⟩
    · by_cases hji : j = i
      · rw [hji]
        exact holder
      · exact absurd (only j p ws (by simpa [Function.update_of_ne hji] using hj)) hji
    · by_cases hji : j = i
      · subst hji
        simp only [Function.update_self, Status.running.injEq] at hj
        obtain ⟨rfl, rfl⟩ := hj
        exact next
      · exact absurd (only j p ws (by simpa [Function.update_of_ne hji] using hj)) hji
  | some commit =>
    simp only [hv]
    have ended : ∀ last j p ws, Function.update s.status i (.ended last) j ≠ .running p ws := by
      intro last j p ws hj
      by_cases hji : j = i
      · subst hji
        simp at hj
      · exact hji (only j p ws (by simpa [Function.update_of_ne hji] using hj))
    refine ⟨?_, fun j p ws hj => absurd hj (ended _ j p ws), fun j p ws hj => absurd hj (ended _ j p ws)⟩
    cases commit with
    | false => exact serial.lockable
    | true => exact keeps _ _ _ serial.lockable ⟨_, next, hv⟩

/-- With the lock free, nothing is running. -/
theorem Serial.locked (serial : P.Serial input s) (free : s.holder = none) (i : Nat) :
    P.Serial input { s with holder := some i } :=
  ⟨serial.lockable, fun j p ws hj => absurd (serial.holds j p ws hj) (by simp [free]),
    fun j p ws hj => serial.alone j p ws hj⟩

/-- What a step can do: nothing, a statement of the holder of the lock, or a rollback. -/
theorem Serial.step_forms (serial : P.Serial input s) (e : Event) :
    P.step input s e = s ∨
    (∃ t phase writes, P.Serial input t ∧ t.committed = s.committed ∧ t.status = s.status ∧
      t.holder = some e.transaction ∧ (∀ last, s.status e.transaction ≠ .ended last) ∧
      P.Alone (input e.transaction) t.committed phase (P.view writes t.committed) ∧
      P.step input s e = P.statement input t e.transaction phase writes) ∨
    ((∀ last, s.status e.transaction ≠ .ended last) ∧
      P.step input s e = { s with
        status := Function.update s.status e.transaction (.ended P.failed)
        holder := release s.holder e.transaction }) := by
  cases e with
  | execute i =>
    cases hi : s.status i with
    | ended last => exact .inl (by simp only [Protocol.step, hi])
    | running phase writes =>
      refine .inr (.inl ⟨s, phase, writes, serial, rfl, rfl, serial.holds i phase writes hi, ?_,
        serial.alone i phase writes hi, by simp only [Protocol.step, hi, Event.transaction]⟩)
      simp [Event.transaction, hi]
    | waiting =>
      cases hh : s.holder with
      | some j => exact .inl (by simp [Protocol.step, hi, hh, serial.lockable])
      | none =>
        refine .inr (.inl ⟨{ s with holder := some i }, P.start, [], serial.locked hh i, rfl, rfl, rfl, ?_,
          Alone.start, by simp [Protocol.step, hi, hh, serial.lockable, Event.transaction]⟩)
        simp [Event.transaction, hi]
  | fail i =>
    cases hi : s.status i with
    | ended last => exact .inl (by simp only [Protocol.step, hi])
    | running phase writes =>
      exact .inr (.inr ⟨by simp [Event.transaction, hi], by simp only [Protocol.step, hi, Event.transaction]⟩)
    | waiting => exact .inr (.inr ⟨by simp [Event.transaction, hi], by simp only [Protocol.step, hi, Event.transaction]⟩)

theorem Serial.failed (serial : P.Serial input s) (i : Nat) :
    P.Serial input { s with status := Function.update s.status i (.ended P.failed), holder := release s.holder i } := by
  have other : ∀ j p ws, Function.update s.status i (.ended P.failed) j = .running p ws →
      j ≠ i ∧ s.status j = .running p ws := by
    intro j p ws hj
    by_cases hji : j = i
    · subst hji
      simp at hj
    · exact ⟨hji, by simpa [Function.update_of_ne hji] using hj⟩
  refine ⟨serial.lockable, fun j p ws hj => ?_, fun j p ws hj => serial.alone j p ws (other j p ws hj).2⟩
  obtain ⟨hji, hj'⟩ := other j p ws hj
  have held := serial.holds j p ws hj'
  simp [release, held, hji]

/-- Every step keeps the order. -/
theorem Serial.step (serial : P.Serial input s) (keeps : P.Keeps) (e : Event) : P.Serial input (P.step input s e) := by
  obtain h | ⟨t, phase, writes, ordered, -, -, holder, -, alone, h⟩ | ⟨-, h⟩ := serial.step_forms e
  · rw [h]
    exact serial
  · rw [h]
    exact ordered.of_statement keeps holder alone
  · rw [h]
    exact serial.failed e.transaction

/-- A step is the commit of a transaction that did what it does alone, or leaves the committed store and the
    committed transactions as they are. -/
theorem Serial.step_cases (serial : P.Serial input s) (e : Event) :
    (P.step input s e).committed = s.committed ∧
      (∀ i last, P.verdict last = some true → (P.step input s e).status i = .ended last → s.status i = .ended last) ∨
    ∃ last, P.Alone (input e.transaction) s.committed last (P.step input s e).committed ∧
      P.verdict last = some true ∧ (P.step input s e).status e.transaction = .ended last := by
  obtain h | ⟨t, phase, writes, -, same, status, -, -, alone, h⟩ | ⟨-, h⟩ := serial.step_forms e
  · exact .inl ⟨by rw [h], fun i last _ hl => h ▸ hl⟩
  · rw [h, ← same, ← status]
    obtain ⟨unchanged, running⟩ | committed := statement_cases e.transaction alone
    · refine .inl ⟨unchanged, fun i last hv hl => ?_⟩
      by_cases hi : i = e.transaction
      · subst hi
        exact absurd hl (running last hv)
      · rwa [statement_status_of_ne hi] at hl
    · exact .inr committed
  · refine .inl ⟨by rw [h], fun i last hv hl => ?_⟩
    rw [h] at hl
    by_cases hi : i = e.transaction
    · subst hi
      simp only [Function.update_self, Status.ended.injEq] at hl
      rw [← hl, P.failed_verdict] at hv
      cases hv
    · simpa only [Function.update_of_ne hi] using hl

/-- A transaction that has ended stays so. -/
theorem Serial.ended (serial : P.Serial input s) {i : Nat} {last : φ} (h : s.status i = .ended last) (e : Event) :
    (P.step input s e).status i = .ended last := by
  have other : (∀ last, s.status e.transaction ≠ .ended last) → i ≠ e.transaction := by
    rintro running rfl
    exact running last h
  obtain h' | ⟨t, phase, writes, -, -, same, -, running, -, h'⟩ | ⟨running, h'⟩ := serial.step_forms e
  · rw [h', h]
  · rw [h', statement_status_of_ne (other running), same, h]
  · rw [h']
    simp only [Function.update_of_ne (other running), h]

/-! ### Runs -/

open Runs

theorem Serial.final_ended (serial : P.Serial input s) (keeps : P.Keeps) {i : Nat} {last : φ}
    (h : s.status i = .ended last) (es : List Event) : (Runs.final (P.step input) s es).status i = .ended last := by
  have kept : P.Serial input (Runs.final (P.step input) s es) ∧ (Runs.final (P.step input) s es).status i = .ended last :=
    final_kept (fun t => P.Serial input t ∧ t.status i = .ended last) ⟨serial, h⟩ fun t e ht => ⟨ht.1.step keeps e, ht.1.ended ht.2 e⟩
  exact kept.2

/-- What every commit of a transaction alone preserves holds of what is committed. -/
theorem Serial.committed (serial : P.Serial input s) (keeps : P.Keeps) (I : σ → Prop) (init : I s.committed)
    (kept : ∀ a t u, P.lockable t = true → I t → P.Commits a t u → I u) (es : List Event) :
    I (Runs.final (P.step input) s es).committed := by
  have both : P.Serial input (Runs.final (P.step input) s es) ∧ I (Runs.final (P.step input) s es).committed :=
    final_kept (fun t => P.Serial input t ∧ I t.committed) ⟨serial, init⟩ fun t e ht => by
      refine ⟨ht.1.step keeps e, ?_⟩
      obtain ⟨same, -⟩ | ⟨last, alone, verdict, -⟩ := ht.1.step_cases e
      · rw [same]
        exact ht.2
      · exact kept _ _ _ ht.1.lockable ht.2 ⟨last, alone, verdict⟩
  exact both.2

/-- Only the steps of transactions that commit in the end change what is committed. -/
theorem Serial.always_committed (serial : P.Serial input s) (keeps : P.Keeps) (es : List Event) :
    Always (P.step input) (fun t e => (P.step input t e).committed = t.committed ∨
      ∃ last, P.verdict last = some true ∧ (Runs.final (P.step input) s es).status e.transaction = .ended last) s es := by
  induction es generalizing s with
  | nil => trivial
  | cons e es ih =>
    have next := serial.step keeps e
    refine ⟨?_, ih next⟩
    obtain ⟨same, -⟩ | ⟨last, -, verdict, ended⟩ := serial.step_cases e
    · exact .inl same
    · exact .inr ⟨last, verdict, next.final_ended keeps ended es⟩

end Protocol

end RowLock
