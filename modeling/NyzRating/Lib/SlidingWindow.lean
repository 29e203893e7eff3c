import Mathlib.Algebra.Order.Group.Defs
import Mathlib.Algebra.Order.Sub.Basic
import Mathlib.Data.List.Count
import Mathlib.Logic.Function.Basic

/-!
# Sliding windows

A limiter keeps, for every key, the times of the attempts that it let through; an attempt is let through while fewer than
`limit` of them are younger than `width`. A back end that answers as this log does obeys the limit in every window of that
width, and forgets what it refused.
-/

namespace SlidingWindow

variable {κ τ σ ι : Type} [AddCommGroup τ] [LinearOrder τ]

/-! ### Times that count -/

/-- The times that are younger than `width` at `now`. -/
def live (width now : τ) (times : List τ) : List τ := times.filter (now - · < width)

variable {width now later : τ} {times : List τ} {k : κ}

@[simp] theorem live_nil : live width now [] = [] := rfl

@[simp] theorem live_append {more : List τ} : live width now (times ++ more) = live width now times ++ live width now more :=
  List.filter_append ..

/-- What is dead stays so. -/
theorem live_live [IsOrderedAddMonoid τ] (le : now ≤ later) (times : List τ) :
    live width later (live width now times) = live width later times := by
  unfold live
  rw [List.filter_filter]
  refine List.filter_congr fun t _ => ?_
  have younger : later - t < width → now - t < width := (sub_le_sub_right le t).trans_lt
  simpa using younger

theorem live_eq_nil (dead : ∀ t ∈ times, width ≤ now - t) : live width now times = [] :=
  List.filter_eq_nil_iff.mpr fun t mem => by simpa using dead t mem

/-! ### The log -/

/-- How wide the window of a key is, and how many it lets through. -/
structure Policy (κ τ : Type) where
  width : κ → τ
  limit : κ → Nat

/-- An attempt; without a key it is not limited. -/
structure Attempt (κ τ : Type) where
  key : Option κ
  time : τ

namespace Policy

variable (p : Policy κ τ) (log : κ → List τ) (a : Attempt κ τ)

def admits : Bool :=
  match a.key with
  | none => true
  | some k => (live (p.width k) a.time (log k)).length < p.limit k

def record [DecidableEq κ] : κ → List τ :=
  match a.key with
  | none => log
  | some k => if p.admits log a then Function.update log k (log k ++ [a.time]) else log

/-- No window of the width has more than the limit; a window holds times that are less than the width apart. -/
def Bounded : Prop :=
  ∀ k (within : τ → Bool), (∀ s t, within s → within t → t - s < p.width k) → (log k).countP within ≤ p.limit k

variable {p log a}

theorem admits_some (keyed : a.key = some k) :
    p.admits log a = decide ((live (p.width k) a.time (log k)).length < p.limit k) := by
  simp only [admits, keyed]

variable [DecidableEq κ]

theorem record_refused (refused : p.admits log a = false) : p.record log a = log := by
  unfold record
  split
  · rfl
  · rw [refused]
    rfl

theorem record_of_ne {j : κ} (other : a.key ≠ some j) : p.record log a j = log j := by
  unfold record
  cases keyed : a.key with
  | none => rfl
  | some k =>
    dsimp only
    split
    · exact Function.update_of_ne (fun same => other (keyed.trans (congrArg some same.symm))) ..
    · rfl

theorem record_self (keyed : a.key = some k) : p.record log a k = if p.admits log a then log k ++ [a.time] else log k := by
  simp only [record, keyed]
  split
  · exact Function.update_self ..
  · rfl

theorem Bounded.record (h : p.Bounded log) : p.Bounded (p.record log a) := by
  intro k within near
  by_cases keyed : a.key = some k
  · rw [record_self keyed]
    split
    · rename_i admitted
      rw [List.countP_append, List.countP_singleton]
      split
      · rename_i inside
        -- Those before in the window are still alive, since the new one is in it too.
        have alive : (log k).countP within ≤ (live (p.width k) a.time (log k)).length := by
          unfold live
          rw [← List.countP_eq_length_filter]
          exact List.countP_mono_left fun t _ before => decide_eq_true (near t a.time before inside)
        rw [admits_some keyed, decide_eq_true_eq] at admitted
        exact alive.trans_lt admitted
      · exact h k within near
    · exact h k within near
  · rw [record_of_ne keyed]
    exact h k within near

end Policy

/-! ### Answers -/

/-- The answers of a back end to attempts, one after another. -/
def answers (attempt : σ → ι → Bool × σ) : σ → List ι → List Bool
  | _, [] => []
  | s, a :: as => (attempt s a).1 :: answers attempt (attempt s a).2 as

/-- The state after the attempts. -/
def stateAfter (attempt : σ → ι → Bool × σ) : σ → List ι → σ
  | s, [] => s
  | s, a :: as => stateAfter attempt (attempt s a).2 as

section
variable {attempt : σ → ι → Bool × σ} {bs : List ι}

theorem answers_cons {s : σ} {a : ι} :
    answers attempt s (a :: bs) = (attempt s a).1 :: answers attempt (attempt s a).2 bs := rfl

theorem answers_append : ∀ {s : σ} {as : List ι},
    answers attempt s (as ++ bs) = answers attempt s as ++ answers attempt (stateAfter attempt s as) bs
  | _, [] => rfl
  | _, _ :: _ => congrArg _ answers_append

theorem length_answers : ∀ {s : σ} {as : List ι}, (answers attempt s as).length = as.length
  | _, [] => rfl
  | _, _ :: _ => congrArg (· + 1) length_answers

end

variable [DecidableEq κ]

/-- The log as a back end. -/
def Policy.attempt (p : Policy κ τ) (log : κ → List τ) (a : Attempt κ τ) : Bool × (κ → List τ) :=
  (p.admits log a, p.record log a)

/-- How many attempts with the key were let through at the times of the window. -/
def allowedWithin (as : List (Attempt κ τ)) (answers : List Bool) (k : κ) (within : τ → Bool) : Nat :=
  (as.zip answers).countP fun (a, allowed) => allowed && a.key = some k && within a.time

namespace Policy

variable {p : Policy κ τ} {log : κ → List τ}

theorem countP_record {a : Attempt κ τ} {within : τ → Bool} : (p.record log a k).countP within =
    (log k).countP within + if p.admits log a && a.key = some k && within a.time then 1 else 0 := by
  by_cases keyed : a.key = some k
  · rw [record_self keyed]
    cases p.admits log a with
    | true => simp [List.countP_append, List.countP_singleton, keyed]
    | false => simp
  · rw [record_of_ne keyed]
    simp [keyed]

/-- The log holds what was let through. -/
theorem countP_stateAfter {within : τ → Bool} : ∀ {log : κ → List τ} {as : List (Attempt κ τ)},
    (stateAfter p.attempt log as k).countP within =
      (log k).countP within + allowedWithin as (answers p.attempt log as) k within
  | _, [] => rfl
  | log, a :: as => by
    have rest : allowedWithin (a :: as) (answers p.attempt log (a :: as)) k within =
        allowedWithin as (answers p.attempt (p.record log a) as) k within +
          if p.admits log a && a.key = some k && within a.time then 1 else 0 := List.countP_cons ..
    rw [rest, stateAfter]
    refine (@countP_stateAfter within (p.record log a) as).trans ?_
    rw [countP_record]
    omega

theorem Bounded.stateAfter : ∀ {log : κ → List τ} {as : List (Attempt κ τ)}, p.Bounded log →
    p.Bounded (stateAfter p.attempt log as)
  | _, [], h => h
  | _, _ :: _, h => h.record.stateAfter

/-- From an empty log, no window of the width of a key has more than its limit. -/
theorem allowedWithin_le {as : List (Attempt κ τ)} {within : τ → Bool}
    (near : ∀ s t, within s → within t → t - s < p.width k) :
    allowedWithin as (answers p.attempt (fun _ => []) as) k within ≤ p.limit k := by
  have empty : p.Bounded fun _ => [] := fun _ _ _ => Nat.zero_le _
  have bounded := (empty.stateAfter : p.Bounded (SlidingWindow.stateAfter p.attempt (fun _ => []) as)) k within near
  rw [countP_stateAfter] at bounded
  omega

end Policy

/-! ### Back ends -/

variable {p : Policy κ τ} {request : ι → Attempt κ τ} {attempt : σ → ι → Bool × σ} {start : σ}

/-- The attempts come one after another. -/
def InOrder (request : ι → Attempt κ τ) (as : List ι) : Prop := as.Pairwise fun a b => (request a).time ≤ (request b).time

/-- The back end answers as the log does. -/
def Faithful (p : Policy κ τ) (request : ι → Attempt κ τ) (attempt : σ → ι → Bool × σ) (start : σ) : Prop :=
  ∀ as, InOrder request as → answers attempt start as = answers p.attempt (fun _ => []) (as.map request)

/-- A relation to the log that holds at first, and that an attempt which is not too early keeps. -/
theorem faithful_of_step (R : τ → (κ → List τ) → σ → Prop) (init : ∀ last, R last (fun _ => []) start)
    (kept : ∀ last log s a, R last log s → last ≤ (request a).time →
      (attempt s a).1 = p.admits log (request a) ∧ R (request a).time (p.record log (request a)) (attempt s a).2) :
    Faithful p request attempt start := by
  have from_here : ∀ (as : List ι) last log s, R last log s → (∀ a ∈ as, last ≤ (request a).time) → InOrder request as →
      answers attempt s as = answers p.attempt log (as.map request) := by
    intro as
    induction as with
    | nil => intros; rfl
    | cons a as ih =>
      intro last log s related later ordered
      obtain ⟨first, rest⟩ := List.pairwise_cons.mp ordered
      obtain ⟨same, next⟩ := kept last log s a related (later a List.mem_cons_self)
      rw [answers, same, ih _ _ _ next first rest]
      rfl
  intro as ordered
  cases as with
  | nil => rfl
  | cons a as =>
    refine from_here (a :: as) (request a).time _ start (init _) ?_ ordered
    intro b mem
    rcases List.mem_cons.mp mem with rfl | mem
    · exact le_refl _
    · exact (List.pairwise_cons.mp ordered).1 b mem

/-- A refused attempt changes no other answer. -/
theorem Faithful.forgets (h : Faithful p request attempt start) {before after : List ι} {a : ι}
    (ordered : InOrder request (before ++ a :: after))
    (refused : (answers attempt start (before ++ a :: after))[before.length]? = some false) :
    answers attempt start (before ++ after) = (answers attempt start (before ++ a :: after)).eraseIdx before.length := by
  have without : InOrder request (before ++ after) :=
    List.Pairwise.sublist (List.Sublist.append_left (List.sublist_cons_self a after) before) ordered
  have len : before.length = (answers p.attempt (fun _ => []) (before.map request)).length := by
    rw [length_answers, List.length_map]
  rw [h _ ordered, List.map_append, answers_append, List.map_cons, answers_cons, len] at refused
  rw [h _ ordered, h _ without, List.map_append, List.map_append, answers_append, answers_append, List.map_cons, answers_cons,
    len, List.eraseIdx_append_of_length_le (Nat.le_refl _), Nat.sub_self, List.eraseIdx_cons_zero]
  rw [List.getElem?_append_right (Nat.le_refl _), Nat.sub_self, List.getElem?_cons_zero] at refused
  have unchanged := Policy.record_refused (Option.some.inj refused)
  exact congrArg (_ ++ answers p.attempt · _) unchanged.symm

/-- No window of the width of a key has more than its limit. -/
theorem Faithful.allowedWithin_le (h : Faithful p request attempt start) {as : List ι} (ordered : InOrder request as) {k : κ}
    {within : τ → Bool} (near : ∀ s t, within s → within t → t - s < p.width k) :
    allowedWithin (as.map request) (answers attempt start as) k within ≤ p.limit k := by
  rw [h as ordered]
  exact Policy.allowedWithin_le near

end SlidingWindow
