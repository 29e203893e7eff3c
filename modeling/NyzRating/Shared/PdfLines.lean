import Mathlib.Algebra.Order.Ring.Rat
import Mathlib.Data.List.Infix
import Mathlib.Data.Prod.Lex
import Mathlib.Data.Rat.Floor
import NyzRating.Lib.Clusters
import NyzRating.Lib.Ordered
import NyzRating.Lib.Text

/-!
# Lines of a PDF page

The words of a page are sorted by the rounded height of their tops and, at one height, from left to right. A word joins the
line before it while its top is near the running mean of the tops of that line. The text of a line and of its cells has the
characters of its words, in the order of the line.

Source: `shared/documents/pdf_layout_parser.py`.
-/

namespace NyzRating.Shared.Pdf

open Clusters Ordered Text

/-- What `extract_words` tells of a word; each entry may be missing. -/
structure Word where
  text : Option (List Char) := none
  x0 : Option ℚ := none
  x1 : Option ℚ := none
  top : Option ℚ := none
  bottom : Option ℚ := none
  size : Option ℚ := none
  fontname : Option (List Char) := none
  deriving DecidableEq

namespace Word
variable (w : Word)

/-- `str(word.get("text") or "").strip()` -/
def token : List Char := strip (w.text.getD [])

/-- `float(word.get("x0") or 0.0)` -/
def left : ℚ := w.x0.getD 0

/-- `float(word.get("x1") or x0)` -/
def right : ℚ := (w.x1.filter (· ≠ 0)).getD w.left

def height : ℚ := w.top.getD 0

end Word

/-! ### Text of a line -/

/-- `re.sub(r"\s+", " ", s)`; `run` says that the white space before has been written. -/
def collapseSpace : (run : Bool) → List Char → List Char
  | _, [] => []
  | run, c :: s =>
    if isSpace c then
      if run then collapseSpace true s else ' ' :: collapseSpace true s
    else c :: collapseSpace false s

/-- `re.sub(r"\s+([,.;:!?%\)\]\}])", r"\1", s)` -/
def closeUp (s : List Char) : List Char :=
  s.foldr (fun c rest => if isSpace c ∧ rest.head?.any (",.;:!?%)]\x7d".toList.contains ·) then rest else c :: rest) []

/-- `re.sub(r"([\(\[\{])\s+", r"\1", s)`; `after` says that the character before is a bracket that opens. -/
def openUp : (after : Bool) → List Char → List Char
  | _, [] => []
  | after, c :: s => if isSpace c ∧ after then openUp true s else c :: openUp ("([\x7b".toList.contains c) s

def normalizeInlineText (text : List Char) : List Char := openUp false (closeUp (strip (collapseSpace false text)))

structure Joining where
  parts : List (List Char) := []
  previousX1 : Option ℚ := none

def Joining.add (s : Joining) (word : Word) : Joining :=
  let token := word.token
  if token = [] then s
  else
    let addSpace := decide (s.parts ≠ []) || s.previousX1.any (word.left - · > 9)
    let addSpace := addSpace && !token.head?.any (",.;:!?%)]\x7d".toList.contains ·)
    { parts := s.parts ++ (if addSpace then [[' ']] else []) ++ [token], previousX1 := some word.right }

def joinWordTokens (words : List Word) : List Char := normalizeInlineText (words.foldl Joining.add {}).parts.flatten

/-! ### Cells -/

structure Gaps where
  wideGapCount : Nat := 0
  maxGap : ℚ := 0
  previousX1 : Option ℚ := none

def Gaps.add (s : Gaps) (word : Word) : Gaps :=
  match s.previousX1 with
  | none => { s with previousX1 := some word.right }
  | some previousX1 =>
    let gap := max 0 (word.left - previousX1)
    { wideGapCount := if gap ≥ 28 then s.wideGapCount + 1 else s.wideGapCount
      maxGap := max s.maxGap gap
      previousX1 := some word.right }

def measureWordGaps (words : List Word) : Nat × ℚ :=
  let gaps := words.foldl Gaps.add {}
  (gaps.wideGapCount, gaps.maxGap)

structure Cells where
  cells : List (List Word) := []
  currentCell : List Word := []
  previousX1 : Option ℚ := none

def Cells.add (s : Cells) (word : Word) : Cells :=
  if word.token = [] then s
  else if s.previousX1.any (word.left - · ≥ 28) ∧ s.currentCell ≠ [] then
    { cells := s.cells ++ [s.currentCell], currentCell := [word], previousX1 := some word.right }
  else { s with currentCell := s.currentCell ++ [word], previousX1 := some word.right }

def Cells.all (s : Cells) : List (List Word) := if s.currentCell = [] then s.cells else s.cells ++ [s.currentCell]

def splitWordsIntoCells (words : List Word) : List (List Char) :=
  ((words.foldl Cells.add {}).all.map joinWordTokens).filter (· ≠ [])

/-! ### Lines -/

structure PdfLine where
  text : List Char
  pageNumber : Nat
  x0 : ℚ
  top : ℚ
  x1 : ℚ
  bottom : ℚ
  fontSize : ℚ
  isBold : Bool
  pageHeight : ℚ
  wordCount : Nat
  wideGapCount : Nat
  maxGap : ℚ
  cellTexts : List (List Char)

/-- `statistics.median` -/
def median (sizes : List ℚ) : ℚ :=
  let sorted := sortedBy id sizes
  let n := sorted.length
  if n % 2 = 1 then sorted.getD (n / 2) 0 else (sorted.getD (n / 2 - 1) 0 + sorted.getD (n / 2) 0) / 2

def boldTokens : List (List Char) := ["bold", "black", "semibold", "demi"].map String.toList

def isBoldFont (fontName : List Char) : Bool := boldTokens.any fun token => decide (token <:+: lower fontName)

def lineTopTolerance : ℚ := 3

/-- `round(x, 1)`, in tenths: to the nearest one, and between two to the even one. -/
def roundTenths (x : ℚ) : Int :=
  let floor := ⌊10 * x⌋
  let rest := 10 * x - floor
  if rest < 1 / 2 then floor
  else if 1 / 2 < rest then floor + 1
  else if floor % 2 = 0 then floor else floor + 1

def sortKey (w : Word) : Int ×ₗ ℚ := toLex (roundTenths w.height, w.left)

/-- The lists of words that are read as lines. -/
def lineWords (words : List Word) : List (List Word) := clusters Word.height lineTopTolerance (sortedBy sortKey words)

def pdfLine (pageNumber : Nat) (pageHeight : ℚ) (words : List Word) : PdfLine :=
  let sizes := (words.map (·.size.getD 0)).filter (0 < ·)
  let fontNames := words.map (·.fontname.getD [])
  let boldHits := fontNames.countP isBoldFont
  let gaps := measureWordGaps words
  { text := joinWordTokens words
    pageNumber
    x0 := (words.map Word.left).min?.getD 0
    top := (words.map Word.height).min?.getD 0
    x1 := (words.map (·.x1.getD 0)).max?.getD 0
    bottom := (words.map (·.bottom.getD 0)).max?.getD 0
    fontSize := if sizes = [] then 0 else median sizes
    isBold := boldHits ≥ max 1 (fontNames.length / 2)
    pageHeight
    wordCount := words.countP (·.token ≠ [])
    wideGapCount := gaps.1
    maxGap := gaps.2
    cellTexts := splitWordsIntoCells words }

def groupWordsIntoLines (words : List Word) (pageNumber : Nat) (pageHeight : ℚ) : List PdfLine :=
  (lineWords words).filterMap fun words =>
    if joinWordTokens words = [] then none else some (pdfLine pageNumber pageHeight words)

/-! ### What the lines are to be -/

/-- The characters that are not white space. -/
def inked (s : List Char) : List Char := s.filter (!isSpace ·)

def Word.ink (w : Word) : List Char := inked (w.text.getD [])

def Word.shown (w : Word) : Bool := w.token ≠ []

/-- The lists of words that have a line. -/
def keptLines (words : List Word) : List (List Word) := (lineWords words).filter (joinWordTokens · ≠ [])

/-- The text and the cells of a line have the characters of its words, in the order of the words. -/
structure Spelled (line : List Word) (read : PdfLine) : Prop where
  text : inked read.text = line.flatMap Word.ink
  cells : read.cellTexts.flatMap inked = line.flatMap Word.ink

/-- The words in lines: each word that is shown is there once; each top is near the running mean of those before it, so that
    two tops are not further apart than the words between them let the mean drift; tops go down, and at one rounded top
    words go from left to right. -/
structure Reads (words : List Word) (lines : List (List Word)) : Prop where
  complete : (lines.flatten.filter Word.shown).Perm (words.filter Word.shown)
  near : ∀ line ∈ lines, Near Word.height lineTopTolerance line
  drift : ∀ line ∈ lines, ∀ before u between v after, line = before ++ u :: between ++ v :: after →
    |v.height - u.height| ≤ lineTopTolerance * (between.length + 3) / 2
  ordered : ∀ line ∈ lines, line.Pairwise fun u v =>
    roundTenths u.height < roundTenths v.height ∨ roundTenths u.height = roundTenths v.height ∧ u.left ≤ v.left

/-! ### No character is lost -/

section
variable {s t : List Char}

theorem inked_nil : inked [] = [] := rfl

theorem inked_append (s t : List Char) : inked (s ++ t) = inked s ++ inked t := List.filter_append s t

theorem inked_cons_space {c : Char} (space : isSpace c = true) (s : List Char) : inked (c :: s) = inked s :=
  List.filter_cons_of_neg (by simp [space])

theorem inked_cons (c : Char) (same : inked s = inked t) : inked (c :: s) = inked (c :: t) := by
  rw [← List.singleton_append, inked_append, same, ← inked_append, List.singleton_append]

theorem inked_dropWhile (s : List Char) : inked (s.dropWhile isSpace) = inked s := by
  induction s with
  | nil => rfl
  | cons c s ih =>
    rw [List.dropWhile_cons]
    split
    · next space => rw [ih, inked_cons_space space]
    · rfl

theorem inked_strip (s : List Char) : inked (strip s) = inked s := by
  have reversed (t : List Char) : inked t.reverse = (inked t).reverse := List.filter_reverse
  rw [strip, reversed, inked_dropWhile, reversed, List.reverse_reverse, inked_dropWhile]

theorem strip_eq_nil (none : inked s = []) : strip s = [] := by
  have spaces : s.dropWhile isSpace = [] := by
    rw [List.dropWhile_eq_nil_iff]
    intro c mem
    have stays := List.filter_eq_nil_iff.mp none c mem
    simpa using stays
  rw [strip, spaces]
  rfl

theorem inked_collapseSpace (run : Bool) (s : List Char) : inked (collapseSpace run s) = inked s := by
  induction s generalizing run with
  | nil => rfl
  | cons c s ih =>
    unfold collapseSpace
    split
    · next space =>
      rw [inked_cons_space space]
      split
      · exact ih true
      · rw [inked_cons_space rfl, ih]
    · exact inked_cons c (ih false)

theorem inked_closeUp (s : List Char) : inked (closeUp s) = inked s := by
  induction s with
  | nil => rfl
  | cons c s ih =>
    rw [closeUp, List.foldr_cons, ← closeUp]
    split
    · next dropped => rw [inked_cons_space dropped.1, ih]
    · exact inked_cons c ih

theorem inked_openUp (after : Bool) (s : List Char) : inked (openUp after s) = inked s := by
  induction s generalizing after with
  | nil => rfl
  | cons c s ih =>
    unfold openUp
    split
    · next dropped => rw [inked_cons_space dropped.1, ih]
    · exact inked_cons c (ih _)

theorem inked_normalizeInlineText (text : List Char) : inked (normalizeInlineText text) = inked text := by
  rw [normalizeInlineText, inked_openUp, inked_closeUp, inked_strip, inked_collapseSpace]

end

section
variable {w : Word} {words line : List Word}

theorem Word.ink_eq_nil (blank : w.token = []) : w.ink = [] := by
  rw [ink, ← inked_strip]
  exact congrArg inked blank

theorem Word.token_eq_nil (none : w.ink = []) : w.token = [] := strip_eq_nil none

theorem Joining.inked_add (s : Joining) (w : Word) : inked (s.add w).parts.flatten = inked s.parts.flatten ++ w.ink := by
  have token : inked w.token = w.ink := inked_strip _
  unfold Joining.add
  dsimp only
  split
  · next blank => rw [w.ink_eq_nil blank, List.append_nil]
  · -- the blank that may be added is white space
    rw [List.flatten_append, List.flatten_singleton, inked_append, token, List.flatten_append, inked_append]
    split
    · rw [List.flatten_singleton, inked_cons_space rfl, inked_nil, List.append_nil]
    · rw [List.flatten_nil, inked_nil, List.append_nil]

theorem inked_joinWordTokens (words : List Word) : inked (joinWordTokens words) = words.flatMap Word.ink := by
  rw [joinWordTokens, inked_normalizeInlineText]
  induction words using List.reverseRecOn with
  | nil => rfl
  | append_singleton words w ih =>
    rw [List.foldl_append, List.foldl_cons, List.foldl_nil, Joining.inked_add, ih, List.flatMap_append, List.flatMap_singleton]

theorem not_shown_of_join_eq_nil (empty : joinWordTokens line = []) : ∀ w ∈ line, w.shown = false := by
  have none : line.flatMap Word.ink = [] := by
    rw [← inked_joinWordTokens, empty]
    rfl
  intro w mem
  have blank := w.token_eq_nil (List.flatMap_eq_nil_iff.mp none w mem)
  simp [Word.shown, blank]

/-- The cells are the words that are shown. -/
theorem flatten_cells (words : List Word) : (words.foldl Cells.add {}).all.flatten = words.filter Word.shown := by
  have all (s : Cells) : s.all.flatten = s.cells.flatten ++ s.currentCell := by
    unfold Cells.all
    split
    · next empty => rw [empty, List.append_nil]
    · rw [List.flatten_append, List.flatten_singleton]
  rw [all]
  induction words using List.reverseRecOn with
  | nil => rfl
  | append_singleton words w ih =>
    rw [List.foldl_append, List.foldl_cons, List.foldl_nil, List.filter_append, ← ih]
    unfold Cells.add
    split
    · next blank => simp [Word.shown, blank]
    · next token =>
      have one : [w].filter Word.shown = [w] := by simp [Word.shown, token]
      rw [one]
      split
      · rw [List.flatten_append, List.flatten_singleton]
      · rw [List.append_assoc]

theorem flatMap_ink_filter (words : List Word) : (words.filter Word.shown).flatMap Word.ink = words.flatMap Word.ink := by
  induction words with
  | nil => rfl
  | cons w words ih =>
    rw [List.filter_cons, List.flatMap_cons, ← ih]
    split
    · rfl
    · next hidden =>
      have blank : w.token = [] := by simpa [Word.shown] using hidden
      rw [w.ink_eq_nil blank, List.nil_append]

theorem inked_splitWordsIntoCells (words : List Word) :
    (splitWordsIntoCells words).flatMap inked = words.flatMap Word.ink := by
  have texts (cells : List (List Word)) :
      ((cells.map joinWordTokens).filter (· ≠ [])).flatMap inked = cells.flatten.flatMap Word.ink := by
    induction cells with
    | nil => rfl
    | cons cell cells ih =>
      rw [List.map_cons, List.filter_cons, List.flatten_cons, List.flatMap_append, ← inked_joinWordTokens, ← ih]
      split
      · rfl
      · next empty =>
        have none : joinWordTokens cell = [] := by simpa using empty
        rw [none]
        rfl
  rw [splitWordsIntoCells, texts, flatten_cells, flatMap_ink_filter]

theorem spelled (pageNumber : Nat) (pageHeight : ℚ) (line : List Word) : Spelled line (pdfLine pageNumber pageHeight line) :=
  ⟨inked_joinWordTokens line, inked_splitWordsIntoCells line⟩

/-! ### The lines of a page -/

theorem groupWordsIntoLines_eq (words : List Word) (pageNumber : Nat) (pageHeight : ℚ) :
    groupWordsIntoLines words pageNumber pageHeight = (keptLines words).map (pdfLine pageNumber pageHeight) := by
  unfold groupWordsIntoLines keptLines
  induction lineWords words with
  | nil => rfl
  | cons line lines ih =>
    rw [List.filterMap_cons, List.filter_cons, ih]
    by_cases empty : joinWordTokens line = [] <;> simp [empty]

theorem flatten_lineWords (words : List Word) : (lineWords words).flatten = sortedBy sortKey words := flatten_clusters _

/-- A list of words without a line has no word that is shown. -/
theorem filter_flatten_keptLines (words : List Word) :
    (keptLines words).flatten.filter Word.shown = (sortedBy sortKey words).filter Word.shown := by
  rw [← flatten_lineWords, keptLines]
  induction lineWords words with
  | nil => rfl
  | cons line lines ih =>
    rw [List.filter_cons, List.flatten_cons, List.filter_append, ← ih]
    split
    · rw [List.flatten_cons, List.filter_append]
    · next empty =>
      have hidden : line.filter Word.shown = [] := by
        rw [List.filter_eq_nil_iff]
        intro w mem
        rw [not_shown_of_join_eq_nil (by simpa using empty) w mem]
        exact Bool.false_ne_true
      rw [hidden, List.nil_append]

theorem mem_lineWords (mem : line ∈ keptLines words) : line ∈ lineWords words := List.mem_of_mem_filter mem

theorem pairwise_line (mem : line ∈ keptLines words) : line.Pairwise (sortKey · ≤ sortKey ·) := by
  have inside : line.Sublist (lineWords words).flatten := List.sublist_flatten_of_mem (mem_lineWords mem)
  rw [flatten_lineWords] at inside
  exact (sortedBy_pairwise sortKey words).sublist inside

theorem reads (words : List Word) : Reads words (keptLines words) where
  complete := by
    rw [filter_flatten_keptLines]
    exact (sortedBy_perm sortKey words).filter _
  near line mem := near_of_mem_clusters (mem_lineWords mem)
  drift line mem before u between v after parts := by
    have near : Near Word.height lineTopTolerance line := near_of_mem_clusters (mem_lineWords mem)
    rw [parts] at near
    exact near.distance_le (by decide)
  ordered line mem := (pairwise_line mem).imp fun le => Prod.Lex.toLex_le_toLex.mp le

/-- The lines have every word that is shown, once, and spell it out; their tops drift by half the tolerance with each word,
    and they go by the rounded tops, and from left to right at one of them. -/
theorem lines_read (words : List Word) (pageNumber : Nat) (pageHeight : ℚ) :
    groupWordsIntoLines words pageNumber pageHeight = (keptLines words).map (pdfLine pageNumber pageHeight) ∧
      Reads words (keptLines words) ∧ ∀ line ∈ keptLines words, Spelled line (pdfLine pageNumber pageHeight line) :=
  ⟨groupWordsIntoLines_eq words pageNumber pageHeight, reads words, fun line _ => spelled pageNumber pageHeight line⟩

/-- Words on a slope: each is further down and further to the left. -/
def slanted : List Word :=
  [{ text := some "one".toList, x0 := some 50, top := some 100 }, { text := some "two".toList, x0 := some 40, top := some 103 },
    { text := some "three".toList, x0 := some 30, top := some (209 / 2) },
    { text := some "four".toList, x0 := some 20, top := some 106 },
    { text := some "five".toList, x0 := some 10, top := some (215 / 2) }]

/-- They are one line, from right to left, with tops further apart than twice the tolerance. -/
theorem slanted_is_one_line : groupWordsIntoLines slanted 1 842 = [pdfLine 1 842 slanted] ∧
    ¬slanted.Pairwise (fun u v => |v.height - u.height| ≤ 2 * lineTopTolerance) ∧
      ¬slanted.Pairwise (fun u v => u.left ≤ v.left) := by
  have kept : keptLines slanted = [slanted] := by decide +kernel
  rw [groupWordsIntoLines_eq, kept]
  exact ⟨rfl, by decide +kernel, by decide +kernel⟩

end

end NyzRating.Shared.Pdf
