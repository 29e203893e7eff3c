import NyzRating.Lib.Run
import Mathlib.Logic.Function.Basic

/-!
# Calls that write a record back

Calls work on one shared record, interleaved. Some update it in one statement. The others read the record, compute a
whole record from what they have read, load the record again and write the columns in which the computed one differs
from the loaded one. What happens between the reads and the write is lost, unless nothing happens there.
-/

namespace WriteBack

open Runs

structure Calls (σ ι : Type) where
  /-- The update in one statement, for a call that makes one. -/
  update : ι → Option (σ → σ)
  /-- What a call writes back when it has read this record. -/
  compute : ι → σ → Option σ
  /-- The record after the columns in which `computed` differs from `loaded` are written over `current`. -/
  flush : (loaded computed current : σ) → σ
  flush_loaded : ∀ c r computed, compute c r = some computed → flush r computed r = computed

inductive Phase (σ : Type) where
  | waiting
  | holding (snapshot : σ)
  | loaded (snapshot computed row : σ)
  | ended

/-- The record, how far each call has come, and the calls that have written it, in the order of their writes. -/
structure State (σ : Type) where
  record : σ
  phase : Nat → Phase σ := fun _ => .waiting
  written : List Nat := []

namespace Calls

variable {σ ι : Type} (C : Calls σ ι)

/-- What a call does to the record when nothing comes in between. -/
def effect (c : ι) (r : σ) : σ :=
  match C.update c with
  | some f => f r
  | none => (C.compute c r).getD r

/-- The calls one after another. -/
def serial (input : Nat → ι) (r : σ) (calls : List Nat) : σ := calls.foldl (fun r i => C.effect (input i) r) r

/-- The next statement of call `i`. -/
def step (input : Nat → ι) (s : State σ) (i : Nat) : State σ :=
  match s.phase i with
  | .waiting =>
    match C.update (input i) with
    | some f => { record := f s.record, phase := Function.update s.phase i .ended, written := s.written ++ [i] }
    | none => { s with phase := Function.update s.phase i (.holding s.record) }
  | .holding snapshot =>
    match C.compute (input i) snapshot with
    | some computed => { s with phase := Function.update s.phase i (.loaded snapshot computed s.record) }
    | none => { s with phase := Function.update s.phase i .ended }
  | .loaded _ computed row =>
    { record := C.flush row computed s.record
      phase := Function.update s.phase i .ended
      written := s.written ++ [i] }
  | .ended => s

/-- If the next statement writes back, the record is still what the call has read both times. -/
def Undisturbed (s : State σ) (i : Nat) : Prop :=
  ∀ snapshot computed row, s.phase i = .loaded snapshot computed row → snapshot = s.record ∧ row = s.record

instance [DecidableEq σ] (s : State σ) (i : Nat) : Decidable (Undisturbed s i) :=
  match h : s.phase i with
  | .loaded snapshot computed row => decidable_of_iff (snapshot = s.record ∧ row = s.record) <| by
    constructor
    · intro same snapshot' computed' row' hs
      rw [h] at hs
      cases hs
      exact same
    · exact fun undisturbed => undisturbed snapshot computed row h
  | .waiting | .holding _ | .ended => .isTrue fun _ _ _ hs => nomatch h.symm.trans hs

variable {C} {input : Nat → ι} {start : σ} {s : State σ}

theorem serial_append (calls : List Nat) (i : Nat) :
    C.serial input start (calls ++ [i]) = C.effect (input i) (C.serial input start calls) := List.foldl_append

/-- What has been written is what the calls write one after another; what is about to be written was computed from
    what its call has read. -/
structure Ordered (C : Calls σ ι) (input : Nat → ι) (start : σ) (s : State σ) : Prop where
  record : C.serial input start s.written = s.record
  holding : ∀ i snapshot, s.phase i = .holding snapshot → C.update (input i) = none
  loaded : ∀ i snapshot computed row, s.phase i = .loaded snapshot computed row →
    C.update (input i) = none ∧ C.compute (input i) snapshot = some computed

/-- The call `i` comes to a phase that meets what the order asks of it. -/
theorem Ordered.moved (h : Ordered C input start s) {t : State σ} {i : Nat} {phase : Phase σ}
    (record : C.serial input start t.written = t.record) (phases : t.phase = Function.update s.phase i phase)
    (holding : ∀ snapshot, phase = .holding snapshot → C.update (input i) = none)
    (loaded : ∀ snapshot computed row, phase = .loaded snapshot computed row →
      C.update (input i) = none ∧ C.compute (input i) snapshot = some computed) : Ordered C input start t := by
  refine ⟨record, fun j snapshot hj => ?_, fun j snapshot computed row hj => ?_⟩
  · rw [phases] at hj
    by_cases hji : j = i
    · subst hji
      rw [Function.update_self] at hj
      exact holding snapshot hj
    · rw [Function.update_of_ne hji] at hj
      exact h.holding j snapshot hj
  · rw [phases] at hj
    by_cases hji : j = i
    · subst hji
      rw [Function.update_self] at hj
      exact loaded snapshot computed row hj
    · rw [Function.update_of_ne hji] at hj
      exact h.loaded j snapshot computed row hj

/-- A step that finds the record undisturbed keeps the order. -/
theorem Ordered.step (h : Ordered C input start s) {i : Nat} (undisturbed : Undisturbed s i) :
    Ordered C input start (C.step input s i) := by
  unfold Calls.step
  cases hp : s.phase i with
  | waiting =>
    simp only
    cases hu : C.update (input i) with
    | some f =>
      refine h.moved ?_ rfl nofun nofun
      simp only [serial_append, effect, hu, h.record]
    | none => exact h.moved h.record rfl (fun _ _ => hu) nofun
  | holding snapshot =>
    simp only
    cases hc : C.compute (input i) snapshot with
    | some computed =>
      refine h.moved h.record rfl nofun fun snapshot' computed' row hl => ?_
      cases hl
      exact ⟨h.holding i snapshot hp, hc⟩
    | none => exact h.moved h.record rfl nofun nofun
  | loaded snapshot computed row =>
    obtain ⟨hu, hc⟩ := h.loaded i snapshot computed row hp
    obtain ⟨rfl, rfl⟩ := undisturbed snapshot computed row hp
    refine h.moved ?_ rfl nofun nofun
    simp only [serial_append, effect, hu, hc, h.record, Option.getD_some, C.flush_loaded _ _ _ hc]
  | ended => exact h

end Calls

end WriteBack
