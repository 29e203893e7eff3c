import Mathlib.Algebra.BigOperators.Group.List.Basic
import Mathlib.Algebra.Ring.Int.Defs
import Mathlib.Data.List.Nodup
import Mathlib.Tactic.Common

/-!
# Lists of rows
-/

namespace Lists

variable {α : Type}

/-- The row that comes last in the order `before`; among equals the first one of the list. -/
def latestBy (before : α → α → Bool) : List α → Option α
  | [] => none
  | x :: l =>
    match latestBy before l with
    | none => some x
    | some m => if before x m then some m else some x

theorem latestBy_mem {before : α → α → Bool} {m : α} : ∀ {l : List α}, latestBy before l = some m → m ∈ l
  | [], h => nomatch h
  | x :: l, h => by
    unfold latestBy at h
    split at h
    · cases h
      exact List.mem_cons_self
    · next m' hm =>
      split at h
      · cases h
        exact List.mem_cons_of_mem _ (latestBy_mem hm)
      · cases h
        exact List.mem_cons_self

theorem latestBy_eq_none {before : α → α → Bool} : ∀ {l : List α}, latestBy before l = none → l = []
  | [], _ => rfl
  | x :: l, h => by
    unfold latestBy at h
    split at h
    · cases h
    · split at h <;> cases h

/-- The latest row after every row was changed without changing the order. -/
theorem latestBy_map {before : α → α → Bool} (change : α → α) (h : ∀ x y, before (change x) (change y) = before x y) :
    ∀ l : List α, latestBy before (l.map change) = (latestBy before l).map change
  | [] => rfl
  | x :: l => by
    rw [List.map_cons, latestBy, latestBy, latestBy_map change h l]
    cases latestBy before l with
    | none => rfl
    | some m =>
      simp only [Option.map_some, h]
      split <;> rfl

/-- A row after all others is the latest. -/
theorem latestBy_append_last {before : α → α → Bool} {x : α} : ∀ {l : List α}, (∀ y ∈ l, before y x = true) →
    latestBy before (l ++ [x]) = some x
  | [], _ => rfl
  | y :: l, h => by
    rw [List.cons_append, latestBy, latestBy_append_last fun z hz => h z (List.mem_cons_of_mem _ hz)]
    simp only [h y List.mem_cons_self, if_true]

/-! ### Rows with a key -/

variable {κ : Type} {key : α → κ} {f : α → α}

/-- What `f` leaves of every row, it leaves of the list. -/
theorem map_map_key (hf : ∀ x, key (f x) = key x) (l : List α) : (l.map f).map key = l.map key := by
  rw [List.map_map]
  exact List.map_congr_left fun x _ => hf x

variable [DecidableEq κ] {k : κ}

variable (key f) in
/-- One row changed in place, where `f` keeps the key. -/
theorem map_key_update (hf : ∀ x, key (f x) = key x) (l : List α) :
    (l.map fun x => if key x = k then f x else x).map key = l.map key := by
  refine map_map_key (fun x => ?_) l
  split
  · exact hf x
  · rfl

/-- Without a row of the key nothing is changed. -/
theorem update_eq_self {l : List α} (h : k ∉ l.map key) : (l.map fun x => if key x = k then f x else x) = l := by
  conv_rhs => rw [← List.map_id l]
  exact List.map_congr_left fun x hx => if_neg fun hk => h (List.mem_map.mpr ⟨x, hx, hk⟩)

variable (key f) in
/-- With distinct keys, one row changed changes a sum by its own change. -/
theorem sum_update (w : α → Int) (d : Int) : ∀ {l : List α}, (l.map key).Nodup → k ∈ l.map key →
    (∀ x ∈ l, key x = k → w (f x) = w x + d) →
      ((l.map fun x => if key x = k then f x else x).map w).sum = (l.map w).sum + d
  | [], _, hk, _ => nomatch hk
  | x :: l, nodup, hk, hw => by
    simp only [List.map_cons, List.nodup_cons] at nodup
    simp only [List.map_cons, List.sum_cons]
    by_cases hx : key x = k
    · have rest : (l.map fun x => if key x = k then f x else x) = l := update_eq_self (hx ▸ nodup.1)
      rw [if_pos hx, rest, hw x List.mem_cons_self hx]
      omega
    · have hk' : k ∈ l.map key := by
        rcases List.mem_cons.mp hk with rfl | hk
        · exact absurd rfl hx
        · exact hk
      rw [if_neg hx, sum_update w d nodup.2 hk' fun y hy => hw y (List.mem_cons_of_mem _ hy)]
      omega

theorem sum_filter {p : α → Bool} {w : α → Int} : ∀ l : List α,
    ((l.filter p).map w).sum = (l.map fun x => if p x then w x else 0).sum
  | [] => rfl
  | x :: l => by
    rw [List.map_cons, List.sum_cons, ← sum_filter l, List.filter_cons]
    split
    · rw [List.map_cons, List.sum_cons]
    · rw [zero_add]

/-- Looking up a key after the rows of one key were changed. -/
theorem find?_update {j : κ} (hf : ∀ x, key x = k → key (f x) = k) : ∀ l : List α,
    (l.map fun x => if key x = k then f x else x).find? (key · = j) =
      (l.find? (key · = j)).map fun x => if key x = k then f x else x
  | [] => rfl
  | x :: l => by
    have same : key (if key x = k then f x else x) = key x := by
      split
      · next hx => rw [hf x hx, hx]
      · rfl
    rw [List.map_cons, List.find?_cons, List.find?_cons, same]
    split
    · rfl
    · exact find?_update hf l

/-- With distinct keys, a row is found by its own. -/
theorem find?_of_mem {l : List α} (nodup : (l.map key).Nodup) {x : α} (mem : x ∈ l) : l.find? (key · = key x) = some x := by
  cases found : l.find? (key · = key x) with
  | none => exact absurd (decide_eq_true rfl) (List.find?_eq_none.mp found x mem)
  | some y =>
    have same : key y = key x := of_decide_eq_true (List.find?_some (p := fun y => decide (key y = key x)) found)
    rw [List.inj_on_of_nodup_map nodup (List.mem_of_find?_eq_some found) mem same]

theorem find?_isSome_iff {l : List α} : (l.find? (key · = k)).isSome ↔ k ∈ l.map key := by
  simp [List.find?_isSome]

theorem length_le_one : ∀ {l : List α}, l.Pairwise (fun _ _ => False) → l.length ≤ 1
  | [], _ => Nat.zero_le 1
  | [_], _ => Nat.le_refl 1
  | _ :: _ :: _, h => (List.rel_of_pairwise_cons h List.mem_cons_self).elim

/-! ### Places -/

/-- `R` holds between no two places of the list. -/
def Apart (R : α → α → Prop) (l : List α) : Prop :=
  ∀ (i j : Nat) (x y : α), l[i]? = some x → l[j]? = some y → R x y → i = j

variable {R : α → α → Prop} {l : List α} {i j : Nat} {x y : α}

theorem getElem?_set_cases (h : (l.set i x)[j]? = some y) : (j = i ∧ y = x) ∨ (j ≠ i ∧ l[j]? = some y) := by
  rw [List.getElem?_set] at h
  by_cases own : i = j
  · rw [if_pos own] at h
    obtain ⟨-, same⟩ := Option.ite_none_right_eq_some.mp h
    exact .inl ⟨own.symm, (Option.some.inj same).symm⟩
  · rw [if_neg own] at h
    exact .inr ⟨fun same => own same.symm, h⟩

/-- A new entry that is related to none of the others. -/
theorem Apart.set (h : Apart R l) (symm : ∀ {x y}, R x y → R y x) (alone : ∀ j y, j ≠ i → l[j]? = some y → ¬R x y) :
    Apart R (l.set i x) := by
  intro j k y z at_j at_k related
  obtain ⟨rfl, rfl⟩ | ⟨other_j, old_j⟩ := getElem?_set_cases at_j
  · obtain ⟨rfl, -⟩ | ⟨other_k, old_k⟩ := getElem?_set_cases at_k
    · rfl
    · exact absurd related (alone k z other_k old_k)
  · obtain ⟨rfl, rfl⟩ | ⟨other_k, old_k⟩ := getElem?_set_cases at_k
    · exact absurd (symm related) (alone j y other_j old_j)
    · exact h j k y z old_j old_k related

theorem getElem?_concat_cases (h : (l ++ [x])[j]? = some y) : l[j]? = some y ∨ (j = l.length ∧ y = x) := by
  rcases Nat.lt_trichotomy j l.length with before | last | after
  · rw [List.getElem?_append_left before] at h
    exact .inl h
  · rw [last, List.getElem?_concat_length] at h
    exact .inr ⟨last, (Option.some.inj h).symm⟩
  · rw [List.getElem?_eq_none (by simpa using Nat.succ_le_of_lt after)] at h
    cases h

/-- A last entry that is related to none of the others. -/
theorem Apart.concat (h : Apart R l) (symm : ∀ {x y}, R x y → R y x) (alone : ∀ y ∈ l, ¬R x y) : Apart R (l ++ [x]) := by
  intro j k y z at_j at_k related
  rcases getElem?_concat_cases at_j with old_j | ⟨rfl, rfl⟩
  · rcases getElem?_concat_cases at_k with old_k | ⟨rfl, rfl⟩
    · exact h j k y z old_j old_k related
    · exact absurd (symm related) (alone y (List.mem_of_getElem? old_j))
  · rcases getElem?_concat_cases at_k with old_k | ⟨rfl, rfl⟩
    · exact absurd related (alone z (List.mem_of_getElem? old_k))
    · rfl

/-- At most one entry is of a kind of which no two places are. -/
theorem Apart.length_filter_le_one {P : α → Prop} {q : α → Bool} :
    ∀ {l : List α}, Apart (fun x y => P x ∧ P y) l → (∀ x ∈ l, q x = true → P x) → (l.filter q).length ≤ 1
  | [], _, _ => Nat.zero_le 1
  | x :: l, h, kind => by
    have rest : Apart (fun x y => P x ∧ P y) l := fun i j y z at_i at_j both =>
      Nat.succ.inj (h (i + 1) (j + 1) y z at_i at_j both)
    cases holds : q x with
    | false =>
      rw [List.filter_cons_of_neg (by simp [holds])]
      exact rest.length_filter_le_one fun y mem => kind y (List.mem_cons_of_mem x mem)
    | true =>
      have none_else : l.filter q = [] := by
        rw [List.filter_eq_nil_iff]
        intro y mem also
        obtain ⟨j, at_j⟩ := List.mem_iff_getElem?.mp mem
        have first := kind x List.mem_cons_self holds
        exact absurd (h 0 (j + 1) x y rfl at_j ⟨first, kind y (List.mem_cons_of_mem x mem) also⟩) (Nat.succ_ne_zero j).symm
      rw [List.filter_cons_of_pos holds, none_else]
      exact Nat.le_refl 1

/-! ### How far a predicate holds -/

section
variable {p q : Nat → Bool} (down : ∀ {j k}, j ≤ k → p k = true → p j = true) (down' : ∀ {j k}, j ≤ k → q k = true → q j = true)

include down

/-- A predicate that holds below every number of which it holds does so up to its count. -/
theorem lt_countP_range_iff {n k : Nat} (lt : k < n) : k < (List.range n).countP p ↔ p k = true := by
  induction n with
  | zero => exact absurd lt (Nat.not_lt_zero k)
  | succ n ih =>
    rw [List.range_succ, List.countP_append, List.countP_singleton]
    rcases Nat.lt_succ_iff_lt_or_eq.mp lt with lt | rfl
    · cases last : p n with
      | false =>
        rw [if_neg Bool.false_ne_true]
        exact ih lt
      | true =>
        have holds := down (Nat.le_of_lt lt) last
        rw [if_pos rfl]
        exact iff_of_true (Nat.lt_succ_of_lt ((ih lt).mpr holds)) holds
    · cases last : p k with
      | false =>
        have le := List.countP_le_length (p := p) (l := List.range k)
        rw [List.length_range] at le
        rw [if_neg Bool.false_ne_true]
        exact iff_of_false (Nat.not_lt.mpr le) Bool.false_ne_true
      | true =>
        have all : (List.range k).countP p = (List.range k).length := by
          rw [List.countP_eq_length]
          exact fun j mem => down (Nat.le_of_lt (List.mem_range.mp mem)) last
        rw [all, List.length_range, if_pos rfl]
        exact iff_of_true (Nat.lt_succ_self k) rfl

include down'

theorem countP_range_eq_iff {n : Nat} : (List.range n).countP p = (List.range n).countP q ↔ ∀ k < n, (p k = true ↔ q k = true) := by
  constructor
  · intro same k lt
    rw [← lt_countP_range_iff down lt, same, lt_countP_range_iff down' lt]
  · exact fun same => List.countP_congr fun k mem => same k (List.mem_range.mp mem)

end

end Lists
