import NyzRating.Lib.Lists
import NyzRating.Lib.Split

/-!
# Chunks for training

A text is cut into chunks of bounded length. Its white space is made into single blanks first; then it is taken apart at
blank lines, sentences are packed into a buffer as long as they fit, a sentence that is too long for one chunk is cut by
length, and short chunks are left out.

Source: `shared/text/chunking.py`.
-/

namespace NyzRating.Shared

open Lists Text

/-! ### The function -/

/-- `\n\s*\n`: to the last line feed of the white space that begins here. -/
def blankLine : Pattern
  | _, '\n' :: s =>
    match ((s.takeWhile isSpace).reverse.dropWhile (· ≠ '\n')).length with
    | 0 => 0
    | n + 1 => n + 2
  | _, _ => 0

/-- `(?<=[.!?])\s+` -/
def sentenceEnd : Pattern := fun before s => if before.any (['.', '!', '?'].contains ·) then (s.takeWhile isSpace).length else 0

/-- `s[i : i + size]` for `i` in `range(0, len(s), size)` -/
def slices (size : Nat) (s : List Char) : List (List Char) :=
  (List.range ((s.length + size - 1) / size)).map fun k => (s.drop (k * size)).take size

structure Packing where
  parts : List (List Char)
  buf : List Char := []

def Packing.flush (s : Packing) : List (List Char) := if s.buf = [] then s.parts else s.parts ++ [s.buf]

/-- One more sentence. -/
def Packing.add (maxChunk : Nat) (s : Packing) (sentence : List Char) : Packing :=
  let sentence := strip sentence
  if sentence = [] then s
  else if s.buf.length + sentence.length + 1 ≤ maxChunk then { s with buf := strip (s.buf ++ ' ' :: sentence) }
  else if sentence.length ≤ maxChunk then { parts := s.flush, buf := sentence }
  else { parts := s.flush ++ slices maxChunk sentence }

def addParagraph (maxChunk : Nat) (parts : List (List Char)) (para : List Char) : List (List Char) :=
  let para := strip para
  if para = [] then parts
  else if para.length ≤ maxChunk then parts ++ [para]
  else ((reSplit sentenceEnd para).foldl (Packing.add maxChunk) { parts }).flush

/-- `" ".join(text.split())` -/
def normalized (text : List Char) : List Char := unwords (words text)

/-- The parts, before the short ones are left out. -/
def chunkParts (text : List Char) (maxChunk : Nat) : List (List Char) :=
  let raw := normalized text
  if raw = [] then [] else (reSplit blankLine raw).foldl (addParagraph maxChunk) []

def long (part : List Char) : Bool := (strip part).length > 20

def chunkTextForTraining (text : List Char) (maxChunk : Nat) : List (List Char) := (chunkParts text maxChunk).filter long

/-! ### What the chunks are to be -/

/-- The blocks of a text that blank lines separate. -/
def paragraphs (text : List Char) : List (List Char) := reSplit blankLine text

/-- A character, and the paragraph that it is from; a blank between two words is from none. -/
abbrev Mark := Char × Option Nat

/-- The words of a text, each with its paragraph. -/
def markedWords (text : List Char) : List (List Mark) :=
  (paragraphs text).zipIdx.flatMap fun p => (words p.1).map fun w => w.map fun c => (c, some p.2)

/-- The normalized text, each character with its paragraph. -/
def marked (text : List Char) : List Mark := [(' ', none)].intercalate (markedWords text)

def letters (piece : List Mark) : List Char := piece.map Prod.fst

def OneParagraph (piece : List Mark) : Prop := ∀ x ∈ piece, ∀ y ∈ piece, ∀ i ∈ x.2, ∀ j ∈ y.2, i = j

/-- The parts are consecutive pieces of the normalized text; the chunks are those of more than 20 characters, the blanks at
    their ends not counted, and no chunk is too long. -/
structure Pieces (text : List Char) (maxChunk : Nat) (pieces : List (List Mark)) : Prop where
  cut : Cut (fun x => x.1 = ' ') pieces (marked text)
  parts : pieces.map letters = chunkParts text maxChunk
  chunks : (pieces.map letters).filter (fun part => 20 < (strip part).length) = chunkTextForTraining text maxChunk
  short : ∀ chunk ∈ chunkTextForTraining text maxChunk, chunk.length ≤ maxChunk

/-- And no chunk has text of two paragraphs. -/
def Chunked (text : List Char) (maxChunk : Nat) : Prop :=
  ∃ pieces, Pieces text maxChunk pieces ∧ ∀ piece ∈ pieces, 20 < (strip (letters piece)).length → OneParagraph piece

/-- At most one paragraph of the text has words. -/
def OneBlock (text : List Char) : Prop := Apart (fun p q => words p ≠ [] ∧ words q ≠ []) (paragraphs text)

/-! ### The patterns -/

section
variable {text s : List Char}

theorem take_spaces {n : Nat} (within : n ≤ (s.takeWhile isSpace).length) : ∀ c ∈ s.take n, isSpace c = true := by
  intro c mem
  rw [← Nat.min_eq_left within, ← List.take_take, ← List.prefix_iff_eq_take.mp (List.takeWhile_prefix isSpace)] at mem
  exact List.mem_takeWhile_imp (List.mem_of_mem_take mem)

theorem sentenceEnd_blank : sentenceEnd.Blank := by
  intro before s
  unfold sentenceEnd
  split
  · exact ⟨(List.takeWhile_sublist isSpace).length_le, take_spaces (Nat.le_refl _)⟩
  · exact ⟨Nat.zero_le _, fun _ mem => absurd mem List.not_mem_nil⟩

theorem blankLine_blank : blankLine.Blank := by
  intro before s
  unfold blankLine
  split
  · next s =>
    split
    · exact ⟨Nat.zero_le _, fun _ mem => absurd mem List.not_mem_nil⟩
    · next n found =>
      have within : n + 1 ≤ (s.takeWhile isSpace).length := by
        have le := (List.dropWhile_sublist (· ≠ '\n') (l := (s.takeWhile isSpace).reverse)).length_le
        rw [found, List.length_reverse] at le
        exact le
      have length : (s.takeWhile isSpace).length ≤ s.length := (List.takeWhile_sublist isSpace).length_le
      refine ⟨by rw [List.length_cons]; omega, ?_⟩
      rw [List.take_succ_cons, List.forall_mem_cons]
      exact ⟨by decide, take_spaces within⟩
  · exact ⟨Nat.zero_le _, fun _ mem => absurd mem List.not_mem_nil⟩

/-- There is no blank line where there is no line feed. -/
theorem reSplit_blankLine (neat : Neat s) : reSplit blankLine s = [s] := by
  refine reSplit_of_none fun before c t mem => ?_
  have other : c ≠ '\n' := by
    rintro rfl
    exact absurd (neat.2 _ mem (by decide)) (by decide)
  unfold blankLine
  split
  · next same => exact absurd (List.cons.inj same).1 other
  · rfl

theorem neat_normalized (worded : words text ≠ []) : Neat (normalized text) :=
  neat_unwords (fun _ mem => neat_of_word (of_mem_words mem)) worded

/-! ### Slices -/

theorem flatten_slices {size : Nat} (positive : 1 ≤ size) (s : List Char) : (slices size s).flatten = s := by
  have upTo : ∀ n, ((List.range n).map fun k => (s.drop (k * size)).take size).flatten = s.take (n * size) := by
    intro n
    induction n with
    | zero => rw [Nat.zero_mul, List.take_zero]; rfl
    | succ n ih =>
      rw [List.range_succ, List.map_append, List.flatten_append, ih, List.map_singleton, List.flatten_singleton,
        Nat.succ_mul, List.take_add]
  have all : s.length ≤ (s.length + size - 1) / size * size := by
    have floor := Nat.div_add_mod (s.length + size - 1) size
    have rest := Nat.mod_lt (s.length + size - 1) positive
    rw [Nat.mul_comm]
    omega
  rw [slices, upTo, List.take_of_length_le all]

theorem length_of_mem_slices {size : Nat} {p : List Char} (mem : p ∈ slices size s) : p.length ≤ size := by
  obtain ⟨k, -, rfl⟩ := List.mem_map.mp mem
  exact List.length_take_le size _

end

/-! ### Packing

The sentences that have been packed, joined, are a cut into the parts and, at the end, the buffer. -/

/-- The sentences make up `text`. -/
structure Packed (maxChunk : Nat) (text : List Char) (s : Packing) : Prop where
  whole : ∃ before, text = before ++ s.buf ∧ Cut (· = ' ') s.parts before
  parts : ∀ part ∈ s.parts, part.length ≤ maxChunk
  length : s.buf.length ≤ maxChunk
  neat : s.buf ≠ [] → Neat s.buf

namespace Packed
variable {maxChunk : Nat} {text sentence gap : List Char} {s : Packing}

theorem flush_parts (h : Packed maxChunk text s) : ∀ part ∈ s.flush, part.length ≤ maxChunk := by
  unfold Packing.flush
  split
  · exact h.parts
  · exact List.forall_mem_append.mpr ⟨h.parts, List.forall_mem_singleton.mpr h.length⟩

theorem flush (h : Packed maxChunk text s) : Cut (· = ' ') s.flush text := by
  obtain ⟨before, rfl, cut⟩ := h.whole
  unfold Packing.flush
  split
  · next empty =>
    rw [empty, List.append_nil]
    exact cut
  · have last := cut.append (cut_flatten (· = ' ') [s.buf])
    rw [List.flatten_singleton] at last
    exact last

theorem cut_gap (gap_eq : gap = [] ∨ gap = [' ']) : Cut (· = ' ') [] gap := by
  rcases gap_eq with rfl | rfl
  · exact .nil
  · exact .blank rfl .nil

/-- A sentence is packed, after a blank if it is not the first one. -/
theorem add (h : Packed maxChunk text s) (positive : 1 ≤ maxChunk) (neat : Neat sentence)
    (between : gap = [' '] ∨ gap = [] ∧ s.buf = []) : Packed maxChunk (text ++ gap ++ sentence) (s.add maxChunk sentence) := by
  have space := cut_gap (between.symm.imp_left And.left)
  unfold Packing.add
  dsimp only
  rw [neat.strip, if_neg neat.ne_nil]
  split
  · next fits =>
    obtain ⟨before, rfl, cut⟩ := h.whole
    by_cases empty : s.buf = []
    · have alone : strip (s.buf ++ ' ' :: sentence) = sentence := by
        rw [empty]
        exact neat.strip
      rw [alone]
      refine ⟨⟨before ++ gap, by rw [empty, List.append_nil], ?_⟩, h.parts, ?_, fun _ => neat⟩
      · have padded := cut.append space
        rw [List.append_nil] at padded
        exact padded
      · dsimp only
        omega
    · obtain rfl := between.resolve_right fun first => empty first.2
      have both : Neat (s.buf ++ ' ' :: sentence) := neat_append_blank.mpr ⟨h.neat empty, neat⟩
      rw [both.strip]
      refine ⟨⟨before, by simp, cut⟩, h.parts, ?_, fun _ => both⟩
      dsimp only
      rw [List.length_append, List.length_cons]
      omega
  · have padded := h.flush.append space
    rw [List.append_nil] at padded
    split
    · next short => exact ⟨⟨text ++ gap, rfl, padded⟩, h.flush_parts, short, fun _ => neat⟩
    · refine ⟨⟨text ++ gap ++ sentence, (List.append_nil _).symm, ?_⟩, ?_, Nat.zero_le _, fun some => absurd rfl some⟩
      · have cut := padded.append (cut_flatten (· = ' ') (slices maxChunk sentence))
        rw [flatten_slices positive] at cut
        exact cut
      · exact List.forall_mem_append.mpr ⟨h.flush_parts, fun _ mem => length_of_mem_slices mem⟩

theorem start (maxChunk : Nat) : Packed maxChunk [] { parts := [] } :=
  ⟨⟨[], rfl, .nil⟩, fun _ mem => absurd mem List.not_mem_nil, Nat.zero_le _, fun some => absurd rfl some⟩

/-- All sentences of a paragraph. -/
theorem foldl (positive : 1 ≤ maxChunk) {sentences : List (List Char)} (neat : ∀ sentence ∈ sentences, Neat sentence) :
    Packed maxChunk (unwords sentences) (sentences.foldl (Packing.add maxChunk) { parts := [] }) := by
  induction sentences using List.reverseRecOn with
  | nil => exact start maxChunk
  | append_singleton sentences sentence ih =>
    obtain ⟨before, last⟩ := List.forall_mem_append.mp neat
    have last := last sentence (List.mem_singleton_self sentence)
    rw [List.foldl_append, List.foldl_cons, List.foldl_nil]
    by_cases first : sentences = []
    · rw [first, List.nil_append, unwords, List.intercalate_singleton]
      exact (start maxChunk).add positive last (.inr ⟨rfl, rfl⟩)
    · rw [unwords_concat first, ← List.singleton_append, ← List.append_assoc]
      exact (ih before).add positive last (.inl rfl)

end Packed

/-! ### The parts of a text -/

section
variable {text : List Char} {maxChunk : Nat}

/-- No line feed is left for the blank lines: the normalized text is one paragraph. -/
theorem chunkParts_eq (worded : words text ≠ []) : chunkParts text maxChunk =
    if (normalized text).length ≤ maxChunk then [normalized text]
    else ((reSplit sentenceEnd (normalized text)).foldl (Packing.add maxChunk) { parts := [] }).flush := by
  have neat := neat_normalized worded
  unfold chunkParts
  rw [if_neg neat.ne_nil, reSplit_blankLine neat, List.foldl_cons, List.foldl_nil, addParagraph]
  rw [neat.strip, if_neg neat.ne_nil]
  rfl

theorem cut_chunkParts (text : List Char) (positive : 1 ≤ maxChunk) :
    Cut (· = ' ') (chunkParts text maxChunk) (normalized text) ∧ ∀ part ∈ chunkParts text maxChunk, part.length ≤ maxChunk := by
  by_cases none : words text = []
  · have empty : normalized text = [] := by rw [normalized, none]; rfl
    rw [chunkParts, empty]
    exact ⟨.nil, fun _ mem => absurd mem List.not_mem_nil⟩
  · rw [chunkParts_eq none]
    split
    · next fits =>
      have cut := cut_flatten (· = ' ') [normalized text]
      rw [List.flatten_singleton] at cut
      exact ⟨cut, List.forall_mem_singleton.mpr fits⟩
    · obtain ⟨neat, joined⟩ := (parted_reSplit sentenceEnd_blank (normalized text)).neat (neat_normalized none)
      have packed := Packed.foldl positive neat
      rw [← joined] at packed
      exact ⟨packed.flush, packed.flush_parts⟩

/-! ### The paragraphs of the characters -/

theorem letters_marked (text : List Char) : letters (marked text) = normalized text := by
  have all : (markedWords text).map letters = words text := by
    rw [← (parted_reSplit blankLine_blank text).words, ← List.zipIdx_map_fst 0 (reSplit blankLine text), List.flatMap_map,
      markedWords, List.map_flatMap]
    refine List.flatMap_congr fun p _ => ?_
    rw [List.map_map]
    refine List.map_id'' (fun w => ?_) _
    rw [Function.comp_apply, letters, List.map_map]
    exact List.map_id w
  rw [letters, marked, map_intercalate, normalized, unwords, ← all]
  rfl

/-- A character of a paragraph is from a word of that paragraph. -/
theorem of_mem_marked {x : Mark} {k : Nat} (mem : x ∈ marked text) (own : k ∈ x.2) :
    ∃ para, (paragraphs text)[k]? = some para ∧ words para ≠ [] := by
  rcases mem_intercalate mem with rfl | ⟨w, inText, inWord⟩
  · cases own
  · obtain ⟨⟨para, i⟩, place, inPara⟩ := List.mem_flatMap.mp inText
    obtain ⟨v, inWords, rfl⟩ := List.mem_map.mp inPara
    obtain ⟨c, -, rfl⟩ := List.mem_map.mp inWord
    obtain rfl := Option.mem_some_iff.mp own
    exact ⟨para, List.mem_zipIdx_iff_getElem?.mp place, List.ne_nil_of_mem inWords⟩

theorem mem_marked {para : List Char} {k : Nat} (place : (paragraphs text)[k]? = some para) (worded : words para ≠ []) :
    ∃ x ∈ marked text, k ∈ x.2 := by
  obtain ⟨w, mem⟩ := List.exists_mem_of_ne_nil _ worded
  obtain ⟨c, inWord⟩ := List.exists_mem_of_ne_nil w (of_mem_words mem).1
  have inText : (w.map fun c => (c, some k)) ∈ markedWords text :=
    List.mem_flatMap.mpr ⟨(para, k), List.mem_zipIdx_iff_getElem?.mpr place, List.mem_map_of_mem mem⟩
  exact ⟨(c, some k), mem_intercalate_of_mem inText (List.mem_map_of_mem inWord), rfl⟩

/-! ### Chunks of one paragraph -/

theorem exists_pieces (text : List Char) (positive : 1 ≤ maxChunk) : ∃ pieces, Pieces text maxChunk pieces := by
  obtain ⟨cut, short⟩ := cut_chunkParts text positive
  rw [← letters_marked text, letters] at cut
  obtain ⟨pieces, whole, parts⟩ := cut.lift
  have chunks := congrArg (List.filter long) parts
  exact ⟨pieces, whole, parts, chunks, fun chunk mem => short chunk (List.mem_of_mem_filter mem)⟩

/-- Where one paragraph has all the words, or no part is long enough for a chunk. -/
theorem chunked_of (positive : 1 ≤ maxChunk) (h : OneBlock text ∨ (normalized text).length ≤ 20) : Chunked text maxChunk := by
  obtain ⟨pieces, cut⟩ := exists_pieces text positive
  refine ⟨pieces, cut, fun piece mem kept => ?_⟩
  have sub := cut.cut.sublist mem
  rcases h with block | short
  · intro x inX y inY i ownX j ownY
    obtain ⟨p, placeX, wordsX⟩ := of_mem_marked (sub.subset inX) ownX
    obtain ⟨q, placeY, wordsY⟩ := of_mem_marked (sub.subset inY) ownY
    exact block i j p q placeX placeY ⟨wordsX, wordsY⟩
  · have length := sub.length_le
    have normal : (marked text).length = (normalized text).length := by rw [← letters_marked, letters, List.length_map]
    have stripped : (strip (letters piece)).length ≤ piece.length := by
      have le := strip_sublist (letters piece) |>.length_le
      rwa [letters, List.length_map] at le
    omega

/-- A text that fits in one chunk is one. -/
theorem of_chunked (fits : (normalized text).length ≤ maxChunk) (h : Chunked text maxChunk) :
    OneBlock text ∨ (normalized text).length ≤ 20 := by
  obtain ⟨pieces, cut, one⟩ := h
  refine or_iff_not_imp_right.mpr fun long i j p q placeX placeY ⟨wordsX, wordsY⟩ => ?_
  have worded : words text ≠ [] := by
    intro none
    rw [normalized, none] at long
    exact long (Nat.zero_le 20)
  have parts := cut.parts
  rw [chunkParts_eq worded, if_pos fits] at parts
  obtain ⟨piece, rfl, whole⟩ := List.map_eq_singleton_iff.mp parts
  have all : piece = marked text := by
    refine cut.cut.eq_of_length (Nat.le_of_eq ?_)
    have length := congrArg List.length (whole.trans (letters_marked text).symm)
    rw [letters, letters, List.length_map, List.length_map] at length
    exact length.symm
  have kept : 20 < (strip (letters piece)).length := by
    rw [whole, (neat_normalized worded).strip]
    exact Nat.lt_of_not_le long
  have same := one piece (List.mem_singleton_self piece) kept
  obtain ⟨x, inX, ownX⟩ := mem_marked placeX wordsX
  obtain ⟨y, inY, ownY⟩ := mem_marked placeY wordsY
  rw [all] at same
  exact same x inX y inY i ownX j ownY

end

theorem chunked_iff (text : List Char) :
    (∀ maxChunk, 1 ≤ maxChunk → Chunked text maxChunk) ↔ OneBlock text ∨ (normalized text).length ≤ 20 :=
  ⟨fun h => of_chunked (le_max_right 1 (normalized text).length) (h _ (le_max_left 1 _)), fun h _ positive => chunked_of positive h⟩

/-- Two short paragraphs. -/
def twoParagraphs : List Char := "The first paragraph.\n\nThe second paragraph.".toList

theorem not_chunked : ¬∀ text maxChunk, 1 ≤ maxChunk → Chunked text maxChunk := by
  intro h
  rcases of_chunked (by decide +kernel) (h twoParagraphs 900 (by decide)) with block | short
  · have first : (paragraphs twoParagraphs)[0]? = some "The first paragraph.".toList := by decide +kernel
    have second : (paragraphs twoParagraphs)[1]? = some "The second paragraph.".toList := by decide +kernel
    exact absurd (block 0 1 _ _ first second ⟨by decide +kernel, by decide +kernel⟩) Nat.zero_ne_one
  · exact absurd short (by decide +kernel)

end NyzRating.Shared
