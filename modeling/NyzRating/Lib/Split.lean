import Mathlib.Data.List.Chain
import Mathlib.Data.List.Induction
import NyzRating.Lib.Text

/-!
# Words, and the pieces of a text

`split` at white space and `join` with blanks; `re.split` at the matches of a pattern of white space. A text is neat if its
only white space are single blanks inside of it: joined words are neat, and so are the parts that such a pattern leaves of
them. A cut of a text is a list of consecutive pieces of it, in order, with nothing but blanks between them.
-/

namespace Text

/-- `s.split()` -/
def words (s : List Char) : List (List Char) := (s.splitOnP isSpace).filter (· ≠ [])

/-- `" ".join(ws)` -/
def unwords (ws : List (List Char)) : List Char := [' '].intercalate ws

/-- White space. -/
def Blank (s : List Char) : Prop := s ≠ [] ∧ ∀ c ∈ s, isSpace c = true

section Words

variable {s t : List Char} {ws : List (List Char)} {w : List Char}

theorem words_append_space {c : Char} (space : isSpace c = true) (s t : List Char) :
    words (s ++ c :: t) = words s ++ words t := by
  rw [words, List.splitOnP_append_cons s t space, List.filter_append]
  rfl

theorem words_append_blank {b : List Char} (blank : Blank b) (s t : List Char) : words (s ++ b ++ t) = words s ++ words t := by
  obtain ⟨nonempty, spaces⟩ := blank
  cases b with
  | nil => exact absurd rfl nonempty
  | cons c b =>
    obtain ⟨first, rest⟩ := List.forall_mem_cons.mp spaces
    rw [List.append_assoc, List.cons_append, words_append_space first]
    induction b with
    | nil => rfl
    | cons d b ih =>
      obtain ⟨second, rest⟩ := List.forall_mem_cons.mp rest
      rw [List.cons_append, ← List.nil_append (d :: (b ++ t)), words_append_space second]
      exact ih (by simp) (List.forall_mem_cons.mpr ⟨first, rest⟩) rest

theorem not_isSpace_of_mem_splitOnP (mem : w ∈ s.splitOnP isSpace) : ∀ c ∈ w, isSpace c = false := by
  induction s generalizing w with
  | nil =>
    rw [List.splitOnP_nil, List.mem_singleton] at mem
    rw [mem]
    exact fun _ mem => absurd mem List.not_mem_nil
  | cons x s ih =>
    rw [List.splitOnP_cons_eq_if_modifyHead] at mem
    cases space : isSpace x with
    | true =>
      rw [space, if_pos rfl] at mem
      rcases List.mem_cons.mp mem with rfl | mem
      · exact fun _ mem => absurd mem List.not_mem_nil
      · exact ih mem
    | false =>
      rw [space, if_neg Bool.false_ne_true] at mem
      cases pieces : s.splitOnP isSpace with
      | nil => exact absurd pieces (List.splitOnP_ne_nil _ s)
      | cons p ps =>
        rw [pieces] at ih
        rw [pieces, List.modifyHead_cons] at mem
        rcases List.mem_cons.mp mem with rfl | mem
        · exact List.forall_mem_cons.mpr ⟨space, ih List.mem_cons_self⟩
        · exact ih (List.mem_cons_of_mem p mem)

/-- A word has characters, none of which is white space. -/
theorem of_mem_words (mem : w ∈ words s) : w ≠ [] ∧ ∀ c ∈ w, isSpace c = false := by
  obtain ⟨piece, nonempty⟩ := List.mem_filter.mp mem
  exact ⟨of_decide_eq_true nonempty, not_isSpace_of_mem_splitOnP piece⟩

theorem unwords_cons (w : List Char) (nonempty : ws ≠ []) : unwords (w :: ws) = w ++ ' ' :: unwords ws := by
  rw [unwords, List.intercalate_cons_of_ne_nil nonempty, List.append_assoc]
  rfl

theorem unwords_concat (nonempty : ws ≠ []) (w : List Char) : unwords (ws ++ [w]) = unwords ws ++ ' ' :: w := by
  induction ws with
  | nil => exact absurd rfl nonempty
  | cons v ws ih =>
    cases ws with
    | nil => simp [unwords]
    | cons u ws =>
      have rest := ih (List.cons_ne_nil u ws)
      rw [List.cons_append, unwords_cons v (by simp), rest, unwords_cons v (List.cons_ne_nil u ws), List.append_assoc]
      rfl

end Words

section Intercalate

variable {α β : Type} {b x : α} {ls : List (List α)}

theorem map_intercalate (f : α → β) (b : α) : ∀ ls : List (List α), ([b].intercalate ls).map f = [f b].intercalate (ls.map (List.map f))
  | [] => rfl
  | [l] => by rw [List.intercalate_singleton, List.map_singleton, List.intercalate_singleton]
  | l :: l' :: ls => by
    have rest := map_intercalate f b (l' :: ls)
    rw [List.intercalate_cons_cons, List.map_append, List.map_append, rest]
    exact List.intercalate_cons_cons.symm

theorem mem_intercalate : x ∈ [b].intercalate ls → x = b ∨ ∃ l ∈ ls, x ∈ l := by
  induction ls with
  | nil => exact fun mem => absurd mem List.not_mem_nil
  | cons l ls ih =>
    intro mem
    by_cases last : ls = []
    · rw [last, List.intercalate_singleton] at mem
      exact .inr ⟨l, List.mem_cons_self, mem⟩
    · rw [List.intercalate_cons_of_ne_nil last, List.append_assoc] at mem
      rcases List.mem_append.mp mem with here | mem
      · exact .inr ⟨l, List.mem_cons_self, here⟩
      · rcases List.mem_cons.mp mem with between | mem
        · exact .inl between
        · exact (ih mem).imp_right fun ⟨m, inRest, here⟩ => ⟨m, List.mem_cons_of_mem l inRest, here⟩

theorem mem_intercalate_of_mem {l : List α} (inList : l ∈ ls) (mem : x ∈ l) : x ∈ [b].intercalate ls := by
  induction ls with
  | nil => exact absurd inList List.not_mem_nil
  | cons m ls ih =>
    by_cases last : ls = []
    · rw [last] at inList ⊢
      rw [List.intercalate_singleton, ← List.mem_singleton.mp inList]
      exact mem
    · rw [List.intercalate_cons_of_ne_nil last, List.append_assoc]
      rcases List.mem_cons.mp inList with rfl | inRest
      · exact List.mem_append_left _ mem
      · exact List.mem_append_right _ (List.mem_cons_of_mem b (ih inRest))

end Intercalate

/-! ### Neat texts -/

/-- Between two blanks, no two spaces stand side by side; the spaces in the text are blanks. -/
def Neat (s : List Char) : Prop :=
  (' ' :: (s ++ [' '])).IsChain (fun c d => isSpace c = false ∨ isSpace d = false) ∧ ∀ c ∈ s, isSpace c = true → c = ' '

section Neat

variable {s t : List Char} {ws : List (List Char)} {w : List Char}

theorem neat_append_blank : Neat (s ++ ' ' :: t) ↔ Neat s ∧ Neat t := by
  unfold Neat
  rw [List.append_assoc, List.cons_append, List.isChain_cons_split, List.forall_mem_append, List.forall_mem_cons]
  constructor
  · rintro ⟨⟨left, right⟩, inLeft, -, inRight⟩
    exact ⟨⟨left, inLeft⟩, right, inRight⟩
  · rintro ⟨⟨left, inLeft⟩, right, inRight⟩
    exact ⟨⟨left, right⟩, inLeft, fun _ => rfl, inRight⟩

theorem Neat.ne_nil (h : Neat s) : s ≠ [] := by
  rintro rfl
  rcases List.isChain_cons_cons.mp h.1 with ⟨first | last, -⟩
  · exact absurd first (by decide)
  · exact absurd last (by decide)

/-- The blanks in a neat text are single ones. -/
theorem Neat.blank {b : List Char} (h : Neat (s ++ b ++ t)) (blank : Blank b) : b = [' '] := by
  obtain ⟨nonempty, spaces⟩ := blank
  cases b with
  | nil => exact absurd rfl nonempty
  | cons c b =>
    have first : c = ' ' := h.2 c (by simp) (spaces c List.mem_cons_self)
    cases b with
    | nil => rw [first]
    | cons d b =>
      have chain := h.1
      rw [List.append_assoc, List.append_assoc, List.cons_append, List.cons_append] at chain
      obtain ⟨-, beside, -⟩ := List.isChain_cons_append_cons_cons.mp chain
      rw [spaces c List.mem_cons_self, spaces d (List.mem_cons_of_mem c List.mem_cons_self)] at beside
      rcases beside with beside | beside <;> cases beside

theorem Neat.strip (h : Neat s) : strip s = s := by
  obtain ⟨c, at_first⟩ := Option.isSome_iff_exists.mp (List.isSome_head?.mpr h.ne_nil)
  obtain ⟨d, at_last⟩ := Option.isSome_iff_exists.mp (List.getLast?_isSome.mpr h.ne_nil)
  have first : isSpace c = false := by
    obtain ⟨rest, rfl⟩ := List.head?_eq_some_iff.mp at_first
    rcases List.isChain_cons_cons.mp h.1 with ⟨blank | first, -⟩
    · exact absurd blank (by decide)
    · exact first
  have last : isSpace d = false := by
    obtain ⟨rest, rfl⟩ := List.getLast?_eq_some_iff.mp at_last
    have chain := h.1
    rw [List.append_assoc, List.singleton_append] at chain
    obtain ⟨-, last | blank, -⟩ := List.isChain_cons_append_cons_cons.mp chain
    · exact last
    · exact absurd blank (by decide)
  exact strip_of_ends at_first first at_last last

theorem neat_of_word (word : w ≠ [] ∧ ∀ c ∈ w, isSpace c = false) : Neat w := by
  obtain ⟨nonempty, visible⟩ := word
  refine ⟨?_, fun c mem space => absurd space (by rw [visible c mem]; exact Bool.false_ne_true)⟩
  have chain : ∀ v : List Char, (∀ c ∈ v, isSpace c = false) → v ≠ [] →
      (v ++ [' ']).IsChain fun c d => isSpace c = false ∨ isSpace d = false := by
    intro v visible nonempty
    induction v with
    | nil => exact absurd rfl nonempty
    | cons c v ih =>
      obtain ⟨first, rest⟩ := List.forall_mem_cons.mp visible
      cases v with
      | nil => exact List.isChain_pair.mpr (.inl first)
      | cons d v => exact List.isChain_cons_cons.mpr ⟨.inl first, ih rest (List.cons_ne_nil d v)⟩
  cases w with
  | nil => exact absurd rfl nonempty
  | cons c w => exact List.isChain_cons_cons.mpr ⟨.inr (visible c List.mem_cons_self), chain _ visible nonempty⟩

theorem neat_unwords (neat : ∀ w ∈ ws, Neat w) (nonempty : ws ≠ []) : Neat (unwords ws) := by
  induction ws with
  | nil => exact absurd rfl nonempty
  | cons w ws ih =>
    obtain ⟨first, rest⟩ := List.forall_mem_cons.mp neat
    by_cases last : ws = []
    · rw [last, unwords, List.intercalate_singleton]
      exact first
    · rw [unwords_cons w last]
      exact neat_append_blank.mpr ⟨first, ih rest last⟩

end Neat

/-! ### Splitting at the matches of a pattern -/

/-- How long the match of a pattern is at a place, from the character before it and the text that follows; 0 where there is
    none. -/
abbrev Pattern := Option Char → List Char → Nat

/-- What is left of a text, the first `skip` characters of which are in a match. -/
def splitFrom (m : Pattern) : Option Char → (skip : Nat) → List Char → List (List Char)
  | _, _, [] => [[]]
  | _, skip + 1, c :: s => splitFrom m (some c) skip s
  | before, 0, c :: s =>
    match m before (c :: s) with
    | 0 => (splitFrom m (some c) 0 s).modifyHead (c :: ·)
    | skip + 1 => [] :: splitFrom m (some c) skip s

/-- `re.split(pattern, s)` -/
def reSplit (m : Pattern) (s : List Char) : List (List Char) := splitFrom m none 0 s

/-- The text is the pieces and the white space between them. -/
inductive Parted : List (List Char) → List Char → Prop
  | last (s : List Char) : Parted [s] s
  | cons (p : List Char) {b s : List Char} {ps : List (List Char)} : Blank b → Parted ps s → Parted (p :: ps) (p ++ b ++ s)

/-- The pattern matches white space only. -/
def Pattern.Blank (m : Pattern) : Prop :=
  ∀ before s, m before s ≤ s.length ∧ ∀ c ∈ s.take (m before s), isSpace c = true

section Pattern

variable {m : Pattern} {s : List Char} {ps : List (List Char)}

theorem Parted.cons_char (h : Parted ps s) (c : Char) : Parted (ps.modifyHead (c :: ·)) (c :: s) := by
  cases h with
  | last => exact .last (c :: s)
  | cons p blank rest => exact .cons (c :: p) blank rest

theorem parted_splitFrom (blank : m.Blank) (before : Option Char) {skip : Nat} (within : skip ≤ s.length) :
    Parted (splitFrom m before skip s) (s.drop skip) := by
  induction s generalizing before skip with
  | nil =>
    rw [List.drop_nil]
    exact .last []
  | cons c s ih =>
    cases skip with
    | succ skip =>
      rw [splitFrom, List.drop_succ_cons]
      exact ih _ (Nat.le_of_succ_le_succ within)
    | zero =>
      rw [splitFrom, List.drop_zero]
      obtain ⟨length, spaces⟩ := blank before (c :: s)
      split
      · exact (ih (some c) (Nat.zero_le _)).cons_char c
      · next skip found =>
        rw [found] at length spaces
        have parted := Parted.cons [] ⟨by simp, spaces⟩ (ih (some c) (Nat.le_of_succ_le_succ length))
        rw [List.nil_append, ← List.drop_succ_cons (a := c), List.take_append_drop] at parted
        exact parted

theorem parted_reSplit (blank : m.Blank) (s : List Char) : Parted (reSplit m s) s :=
  parted_splitFrom blank none (Nat.zero_le s.length)

/-- A text without a match stays whole. -/
theorem reSplit_of_none (none : ∀ before c t, c ∈ s → m before (c :: t) = 0) : reSplit m s = [s] := by
  have whole : ∀ before, splitFrom m before 0 s = [s] := by
    induction s with
    | nil => exact fun _ => rfl
    | cons c s ih =>
      intro before
      rw [splitFrom, none before c s List.mem_cons_self, ih fun b d t mem => none b d t (List.mem_cons_of_mem c mem)]
      rfl
  exact whole _

/-- The parts have the words of the text. -/
theorem Parted.words (h : Parted ps s) : ps.flatMap Text.words = Text.words s := by
  induction h with
  | last s => rw [List.flatMap_singleton]
  | cons p blank rest ih => rw [List.flatMap_cons, ih, words_append_blank blank]

theorem Parted.ne_nil (h : Parted ps s) : ps ≠ [] := by
  cases h with
  | last => exact List.cons_ne_nil _ _
  | cons => exact List.cons_ne_nil _ _

/-- The parts of a neat text are neat, and the text is these parts joined. -/
theorem Parted.neat (h : Parted ps s) (neat : Neat s) : (∀ p ∈ ps, Neat p) ∧ s = unwords ps := by
  induction h with
  | last s => exact ⟨fun p mem => List.mem_singleton.mp mem ▸ neat, by rw [unwords, List.intercalate_singleton]⟩
  | @cons p b s ps blank rest ih =>
    obtain rfl := neat.blank blank
    rw [List.append_assoc, List.singleton_append] at neat ⊢
    obtain ⟨first, others⟩ := neat_append_blank.mp neat
    obtain ⟨parts, whole⟩ := ih others
    refine ⟨List.forall_mem_cons.mpr ⟨first, parts⟩, ?_⟩
    rw [unwords_cons p rest.ne_nil, ← whole]

end Pattern

/-! ### Cuts -/

variable {α β : Type}

/-- Consecutive pieces of a list, in order, with nothing but blanks between them. -/
inductive Cut (blank : α → Prop) : List (List α) → List α → Prop
  | nil : Cut blank [] []
  | piece (p : List α) {ps : List (List α)} {s : List α} : Cut blank ps s → Cut blank (p :: ps) (p ++ s)
  | blank {b : α} {ps : List (List α)} {s : List α} : blank b → Cut blank ps s → Cut blank ps (b :: s)

section Cut

variable {blank : α → Prop} {p : List α} {ps qs : List (List α)} {s t : List α}

theorem Cut.append (h : Cut blank ps s) (k : Cut blank qs t) : Cut blank (ps ++ qs) (s ++ t) := by
  induction h with
  | nil => exact k
  | piece p h ih =>
    rw [List.cons_append, List.append_assoc]
    exact ih.piece p
  | blank hb h ih => exact ih.blank hb

theorem cut_flatten (blank : α → Prop) : ∀ ps : List (List α), Cut blank ps ps.flatten
  | [] => .nil
  | p :: ps => (cut_flatten blank ps).piece p

theorem Cut.sublist (h : Cut blank ps s) (mem : p ∈ ps) : p.Sublist s := by
  induction h with
  | nil => exact absurd mem List.not_mem_nil
  | @piece q ps s h ih =>
    rcases List.mem_cons.mp mem with rfl | mem
    · exact List.sublist_append_left p s
    · exact (ih mem).trans (List.sublist_append_right q s)
  | blank hb h ih => exact (ih mem).cons _

/-- The only piece, if it is as long as the list, is the list. -/
theorem Cut.eq_of_length (h : Cut blank [p] s) (long : s.length ≤ p.length) : p = s :=
  (h.sublist List.mem_cons_self).eq_of_length_le long

/-- A cut of what is read off a list is one of the list. -/
theorem Cut.lift (f : β → α) {s : List β} (h : Cut blank ps (s.map f)) :
    ∃ qs, Cut (fun b => blank (f b)) qs s ∧ qs.map (List.map f) = ps := by
  generalize read : s.map f = t at h
  induction h generalizing s with
  | nil =>
    obtain rfl := List.map_eq_nil_iff.mp read
    exact ⟨[], .nil, rfl⟩
  | piece p h ih =>
    obtain ⟨first, rest, rfl, same, others⟩ := List.map_eq_append_iff.mp read
    obtain ⟨qs, cut, pieces⟩ := ih others
    exact ⟨first :: qs, cut.piece first, by rw [List.map_cons, same, pieces]⟩
  | blank hb h ih =>
    obtain ⟨b, rest, rfl, same, others⟩ := List.map_eq_cons_iff.mp read
    obtain ⟨qs, cut, pieces⟩ := ih others
    exact ⟨qs, cut.blank (show blank (f b) from same.symm ▸ hb), pieces⟩

end Cut

end Text
