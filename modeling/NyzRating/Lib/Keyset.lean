import Mathlib.Data.List.Sort
import Mathlib.Order.Basic

/-!
# Pages after a key

A table is read in pages, in the descending order of a key: each page begins below the key of the last row of the page
before. Rows that come in meanwhile with higher keys are not seen, and the pages are the rows that were there at the start.
-/

namespace Keyset

variable {α κ : Type} [LinearOrder κ] (key : α → κ)

/-- `ORDER BY key DESC` -/
def descending (l : List α) : List α := l.mergeSort fun x y => key y ≤ key x

/-- Strictly descending. -/
def Descends (l : List α) : Prop := l.Pairwise fun x y => key y < key x

/-- The rows below the key `after`. -/
def below (after : κ) (l : List α) : List α := l.filter (key · < after)

variable {key} {p : α → Bool} {l m : List α}

theorem descending_perm (l : List α) : (descending key l).Perm l := List.mergeSort_perm l _

theorem descending_descends (distinct : (l.map key).Nodup) : Descends key (descending key l) := by
  have sorted : (descending key l).Pairwise fun x y => key y ≤ key x := by
    refine (List.pairwise_mergeSort (fun x y z xy yz => ?_) (fun x y => ?_) l).imp fun h => of_decide_eq_true h
    · exact decide_eq_true ((of_decide_eq_true yz).trans (of_decide_eq_true xy))
    · rw [Bool.or_eq_true, decide_eq_true_iff, decide_eq_true_iff]
      exact le_total _ _
  have apart : (descending key l).Pairwise fun x y => key x ≠ key y := by
    rw [← List.pairwise_map]
    exact ((descending_perm l).map key).nodup_iff.mpr distinct
  exact (sorted.and apart).imp fun ⟨le, ne⟩ => lt_of_le_of_ne le ne.symm

/-- Two strictly descending lists of the same rows are equal. -/
theorem Descends.eq_of_perm (hl : Descends key l) (hm : Descends key m) (perm : l.Perm m) : l = m :=
  perm.eq_of_pairwise (fun _ _ _ _ xy yx => absurd xy (lt_asymm yx)) hl hm

theorem Descends.filter (h : Descends key l) (p : α → Bool) : Descends key (l.filter p) := h.sublist List.filter_sublist

theorem descending_filter (distinct : (l.map key).Nodup) (p : α → Bool) :
    descending key (l.filter p) = (descending key l).filter p := by
  have sub : ((l.filter p).map key).Nodup := distinct.sublist (List.filter_sublist.map key)
  refine (descending_descends sub).eq_of_perm ((descending_descends distinct).filter p) ?_
  exact (descending_perm _).trans ((descending_perm l).filter p).symm

/-- Below the last row of the first `n`, the others are left. -/
theorem Descends.below_eq_drop (h : Descends key l) {n : Nat} {last : α} (found : (l.take n).getLast? = some last) :
    below key (key last) l = l.drop n := by
  obtain ⟨front, split⟩ := List.getLast?_eq_some_iff.mp found
  have parts : l = front ++ [last] ++ l.drop n := by rw [← split, List.take_append_drop]
  rw [parts] at h
  obtain ⟨inFront, inRest, across⟩ := List.pairwise_append.mp h
  have above : (front ++ [last]).filter (key · < key last) = [] := by
    rw [List.filter_eq_nil_iff]
    intro x mem
    rw [decide_eq_true_iff, not_lt]
    rcases List.mem_append.mp mem with mem | mem
    · exact ((List.pairwise_append.mp inFront).2.2 x mem last (List.mem_singleton_self last)).le
    · rw [List.mem_singleton.mp mem]
  have rest : (l.drop n).filter (key · < key last) = l.drop n := by
    rw [List.filter_eq_self]
    intro x mem
    exact decide_eq_true (across last (by simp) x mem)
  calc below key (key last) l = (front ++ [last] ++ l.drop n).filter (key · < key last) := by rw [← parts]; rfl
    _ = l.drop n := by rw [List.filter_append, above, rest, List.nil_append]

/-! ### Pages -/

/-- The rows of a page, and the key after which the next page begins. -/
structure Page (α κ : Type) where
  items : List α
  next : Option κ

/-- One row more than the page holds is read: it tells whether another page follows. -/
def Page.ofRows (key : α → κ) (limit : Nat) (rows : List α) : Page α κ :=
  { items := rows.take limit
    next := if limit < rows.length ∧ rows.take limit ≠ [] then (rows.take limit).getLast?.map key else none }

variable (key) in
/-- The rows that `p` selects, below the key `after` if there is one, and no more than `limit` of them. -/
def page (p : α → Bool) (limit : Nat) (after : Option κ) (l : List α) : Page α κ :=
  Page.ofRows key limit
    ((descending key (l.filter fun x => p x && after.all fun k => key x < k)).take (limit + 1))

omit [LinearOrder κ] in
theorem Page.ofRows_take (key : α → κ) (limit : Nat) (rows : List α) (positive : 0 < limit) :
    (Page.ofRows key limit (rows.take (limit + 1))).items = rows.take limit ∧
    ((rows.length ≤ limit ∧ (Page.ofRows key limit (rows.take (limit + 1))).next = none) ∨
      limit < rows.length ∧ ∃ last, (rows.take limit).getLast? = some last ∧
        (Page.ofRows key limit (rows.take (limit + 1))).next = some (key last)) := by
  have items : (rows.take (limit + 1)).take limit = rows.take limit := by
    rw [List.take_take, min_eq_left (Nat.le_succ limit)]
  have length : (rows.take (limit + 1)).length = min (limit + 1) rows.length := List.length_take
  unfold Page.ofRows
  rw [items, length]
  refine ⟨rfl, ?_⟩
  rcases Nat.lt_or_ge limit rows.length with more | all
  · have nonempty : rows.take limit ≠ [] := by
      intro empty
      have := congrArg List.length empty
      rw [List.length_take, List.length_nil] at this
      omega
    obtain ⟨last, isLast⟩ := Option.isSome_iff_exists.mp (List.getLast?_isSome.mpr nonempty)
    refine .inr ⟨more, last, isLast, ?_⟩
    rw [if_pos ⟨by omega, nonempty⟩, isLast]
    rfl
  · exact .inl ⟨all, if_neg fun h => by omega⟩

/-- A later table: what came in has higher keys. -/
def Grown (key : α → κ) (l m : List α) : Prop := ∃ new, m = l ++ new ∧ ∀ x ∈ new, ∀ y ∈ l, key y < key x

theorem Grown.refl (l : List α) : Grown key l l := ⟨[], (List.append_nil l).symm, fun _ mem => absurd mem List.not_mem_nil⟩

theorem Grown.trans {n : List α} (lm : Grown key l m) (mn : Grown key m n) : Grown key l n := by
  obtain ⟨new, rfl, higher⟩ := lm
  obtain ⟨newer, rfl, highest⟩ := mn
  refine ⟨new ++ newer, List.append_assoc .., fun x mem y inL => ?_⟩
  rcases List.mem_append.mp mem with mem | mem
  · exact higher x mem y inL
  · exact highest x mem y (List.mem_append_left _ inL)

/-- The rows below a key of the first table are those of the first table. -/
theorem Grown.filter_below (grown : Grown key l m) (p : α → Bool) {last : α} (mem : last ∈ l) :
    (m.filter fun x => p x && (some (key last)).all fun k => key x < k) = below key (key last) (l.filter p) := by
  obtain ⟨new, rfl, higher⟩ := grown
  have none : (new.filter fun x => p x && (some (key last)).all fun k => key x < k) = [] := by
    rw [List.filter_eq_nil_iff]
    intro x inNew
    rw [Option.all_some, Bool.and_eq_true, decide_eq_true_iff]
    exact fun h => lt_asymm h.2 (higher x inNew last mem)
  rw [List.filter_append, none, List.append_nil, below, List.filter_filter]
  refine List.filter_congr fun x _ => ?_
  rw [Option.all_some, Bool.and_comm]

/-- Reads page after page until there is no next cursor; `call k` is the request made as the `k`-th. -/
def follow {γ : Type} (call : Nat → Option γ → Page α γ) : Nat → Nat → Option γ → Option (List α)
  | 0, _, _ => none
  | fuel + 1, k, cursor =>
    let page := call k cursor
    match page.next with
    | none => some page.items
    | some next => (follow call fuel (k + 1) (some next)).map (page.items ++ ·)

section
variable {γ : Type} {call : Nat → Option γ → Page α γ} {encode : κ → γ} {limit : Nat} {tables : Nat → List α}

/-- Requests that begin after the row `i - 1` of the first table give the rows from `i` on. -/
theorem follow_rest (positive : 0 < limit) (distinct : ((tables 0).map key).Nodup)
    (grown : ∀ k, Grown key (tables 0) (tables k))
    (answers : ∀ k c, call k (some (encode c)) =
      { items := (page key p limit (some c) (tables k)).items
        next := (page key p limit (some c) (tables k)).next.map encode })
    (n : Nat) : ∀ (k i : Nat) (last : α), (descending key ((tables 0).filter p)).length ≤ i + n →
      ((descending key ((tables 0).filter p)).take i).getLast? = some last →
      ∃ fuel, follow call fuel k (some (encode (key last))) = some ((descending key ((tables 0).filter p)).drop i) := by
  have sub : (((tables 0).filter p).map key).Nodup := distinct.sublist (List.filter_sublist.map key)
  have ordered := descending_descends sub
  generalize rowsEq : descending key ((tables 0).filter p) = rows at ordered ⊢
  have rest : ∀ k i last, (rows.take i).getLast? = some last →
      page key p limit (some (key last)) (tables k) = Page.ofRows key limit ((rows.drop i).take (limit + 1)) := by
    intro k i last found
    have mem : last ∈ (tables 0).filter p := by
      have inRows : last ∈ rows := List.mem_of_mem_take (List.mem_of_getLast? found)
      rw [← rowsEq] at inRows
      exact (descending_perm _).mem_iff.mp inRows
    rw [page, (grown k).filter_below p (List.mem_of_mem_filter mem), below, descending_filter sub, rowsEq,
      ← below, ordered.below_eq_drop found]
  induction n with
  | zero =>
    intro k i last long found
    have empty : rows.drop i = [] := List.drop_eq_nil_of_le long
    obtain ⟨items, ⟨-, none⟩ | ⟨more, -⟩⟩ := Page.ofRows_take key limit (rows.drop i) positive
    · refine ⟨1, ?_⟩
      simp only [follow, answers, rest k i last found, items, none, Option.map_none]
      rw [empty, List.take_nil]
    · rw [empty] at more
      exact absurd more (Nat.not_lt_zero limit)
  | succ n ih =>
    intro k i last long found
    obtain ⟨items, ⟨short, none⟩ | ⟨more, last', found', next⟩⟩ := Page.ofRows_take key limit (rows.drop i) positive
    · refine ⟨1, ?_⟩
      simp only [follow, answers, rest k i last found, items, none, Option.map_none]
      rw [List.take_of_length_le short]
    · have furtherLast : (rows.take (i + limit)).getLast? = some last' := by
        rw [List.take_add, List.getLast?_append, found']
        rfl
      obtain ⟨fuel, read⟩ := ih (k + 1) (i + limit) last' (by omega) furtherLast
      refine ⟨fuel + 1, ?_⟩
      simp only [follow, answers, rest k i last found, items, next, Option.map_some, read]
      rw [← List.drop_drop, List.take_append_drop]

/-- The pages are the selected rows of the first table in descending order. -/
theorem follow_pages (tables : Nat → List α) (p : α → Bool) (encode : κ → γ) (positive : 0 < limit)
    (distinct : ((tables 0).map key).Nodup)
    (grown : ∀ k, Grown key (tables k) (tables (k + 1)))
    (first : call 0 none =
      { items := (page key p limit none (tables 0)).items, next := (page key p limit none (tables 0)).next.map encode })
    (answers : ∀ k c, call k (some (encode c)) =
      { items := (page key p limit (some c) (tables k)).items
        next := (page key p limit (some c) (tables k)).next.map encode }) :
    ∃ fuel, follow call fuel 0 none = some (descending key ((tables 0).filter p)) := by
  have all : ∀ k, Grown key (tables 0) (tables k) := by
    intro k
    induction k with
    | zero => exact .refl _
    | succ k ih => exact ih.trans (grown k)
  have start : page key p limit none (tables 0) =
      Page.ofRows key limit ((descending key ((tables 0).filter p)).take (limit + 1)) := by
    simp only [page, Option.all_none, Bool.and_true]
  obtain ⟨items, ⟨short, none⟩ | ⟨more, last, found, next⟩⟩ :=
    Page.ofRows_take key limit (descending key ((tables 0).filter p)) positive
  · refine ⟨1, ?_⟩
    simp only [follow, first, start, items, none, Option.map_none]
    rw [List.take_of_length_le short]
  · obtain ⟨fuel, read⟩ := follow_rest positive distinct all answers _ 1 limit last (Nat.le_add_left _ _) found
    refine ⟨fuel + 1, ?_⟩
    simp only [follow, first, start, items, next, Option.map_some, read]
    rw [List.take_append_drop]

end

end Keyset
