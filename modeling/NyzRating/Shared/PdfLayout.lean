import NyzRating.Lib.Blocks
import NyzRating.Lib.CharClass
import NyzRating.Lib.Dict
import NyzRating.Shared.PdfLines

/-!
# Blocks of a PDF document

`extract_pdf_layout` leaves out the lines at the edges of the pages that repeat or that number the pages; the other lines make
up blocks, which end at an empty line and where a marker begins another one. A block is a paragraph of the document; rows of a
table are told their column headers afterwards. Which type a line has, where a marker begins, and how many words a text has is
up to regular expressions, so that these are parameters.
-/

namespace NyzRating.Shared.Pdf

open Blocks Ordered Text

inductive BlockType where
  | paragraph
  | heading
  | listItem
  | tableRow
  | metadata
  deriving DecidableEq, Repr

/-- `_line_block_type` for a size of the font, `_starts_forced_marker_break`, and the number of matches of `\b\w+\b`. -/
structure Heuristics where
  lineBlockType : (baselineFontSize : ℚ) → PdfLine → BlockType
  startsForcedMarkerBreak : List Char → Bool
  wordCount : List Char → Nat

/-! ### Edges -/

def edgeMargin : ℚ := 42

def PdfLine.nearEdge (line : PdfLine) : Bool := line.top ≤ edgeMargin || line.pageHeight - line.bottom ≤ edgeMargin

def normalizeRepeatKey (text : List Char) : List Char := collapseSpace false (lower (strip text))

/-- What follows `\d+`. -/
def afterDigits (s : List Char) : Option (List Char) :=
  if s.takeWhile isDecimal = [] then none else some (s.dropWhile isDecimal)

def afterSpace (s : List Char) : List Char := s.dropWhile isSpace

/-- `^\d+\s*[-./]?\s*oldal$` -/
def isNumberedPage (s : List Char) : Bool :=
  (afterDigits s).any fun rest =>
    let rest := afterSpace rest
    afterSpace (if rest.head?.any ("-./".toList.contains ·) then rest.tail else rest) = "oldal".toList

/-- `^word\s*\d+$` -/
def isPageNumber (word : String) (s : List Char) : Bool :=
  word.toList.isPrefixOf s && afterDigits (afterSpace (s.drop word.length)) = some []

/-- `^\d+\s*/\s*\d+$` -/
def isPageOf (s : List Char) : Bool :=
  (afterDigits s).any fun rest =>
    let rest := afterSpace rest
    rest.head? = some '/' && afterDigits (afterSpace rest.tail) = some []

def looksLikeEdgePagination (line : PdfLine) : Bool :=
  let normalized := normalizeRepeatKey line.text
  normalized ≠ [] && line.nearEdge &&
    (isNumberedPage normalized || isPageNumber "oldal" normalized || isPageNumber "page" normalized || isPageOf normalized ||
      afterDigits normalized = some [])

/-- The lines by their keys; short ones have none. -/
def positions (lines : List PdfLine) : Dict (List Char) (List PdfLine) :=
  lines.foldl (fun positions line =>
    let key := normalizeRepeatKey line.text
    if key.length < 3 then positions else positions.put key ((positions.get? key).getD [] ++ [line])) Dict.empty

variable (h : Heuristics)

def shortBannerLike (key : List Char) : Bool := key.length ≤ 52 && h.wordCount key ≤ 9

/-- The pages and the keys of what repeats at the edges. -/
def detectRepeatedEdgeLines (lines : List PdfLine) : List (Nat × List Char) :=
  (positions lines).items.flatMap fun (key, occurrences) =>
    if occurrences.length < 2 then []
    else if !occurrences.all PdfLine.nearEdge then []
    else if 3 ≤ occurrences.length || 2 ≤ occurrences.length && shortBannerLike h key then
      occurrences.map fun line => (line.pageNumber, key)
    else []

/-! ### Blocks -/

inductive TableRole where
  | header
  | row
  | unknown
  deriving DecidableEq, Repr

structure BlockMetadata where
  lineCount : Nat
  pageNumber : Nat
  blockType : BlockType
  tableCells : List (List Char) := []
  pageSpan : Option (List Nat) := none
  tableRole : Option TableRole := none
  tableColumnHeaders : Option (List (List Char)) := none
  metadataKind : Option String := none
  deriving DecidableEq

structure Bbox where
  x0 : ℚ
  top : ℚ
  x1 : ℚ
  bottom : ℚ
  deriving DecidableEq

/-- `ExtractedParagraph` -/
structure Paragraph where
  text : List Char
  blockType : BlockType
  pageNumber : Nat
  bbox : Bbox
  fontSize : ℚ
  isBold : Bool
  metadata : BlockMetadata
  deriving DecidableEq

/-- `round(x, 2)` -/
def roundHundredths (x : ℚ) : ℚ := roundTenths (10 * x) / 100

def paragraphBlockBreakMin : ℚ := 18

/-- The line is on the page of the one before it, and far below it. -/
def looksLikeEmptyLineGap (previousLine line : PdfLine) : Bool :=
  line.pageNumber = previousLine.pageNumber &&
    line.top - previousLine.bottom > max paragraphBlockBreakMin (previousLine.fontSize * (9 / 5))

def breaksOff (previousLine line : PdfLine) : Bool :=
  looksLikeEmptyLineGap previousLine line || h.startsForcedMarkerBreak line.text

/-- The cells of the lines of a row; other blocks have none. -/
def tableCells (type : BlockType) (lines : List PdfLine) : List (List Char) :=
  if type = .tableRow then lines.flatMap fun line => line.cellTexts.filter (· ≠ []) else []

def blockText (type : BlockType) (lines : List PdfLine) : List Char :=
  let cells := tableCells type lines
  if type = .tableRow ∧ cells ≠ [] then " | ".toList.intercalate cells
  else normalizeInlineText ([' '].intercalate (lines.map (·.text)))

/-- The block of the lines, unless it has no text. -/
def block? (baselineFontSize : ℚ) (type : BlockType) (lines : List PdfLine) : Option Paragraph :=
  let text := blockText type lines
  if text = [] then none
  else
    let pageNumber := (lines.head?.map (·.pageNumber)).getD 0
    let sizes := (lines.map (·.fontSize)).filter (0 < ·)
    let pagesSpanned := sortedBy id (Dict.firsts (lines.map (·.pageNumber)))
    some {
      text
      blockType := type
      pageNumber
      bbox := {
        x0 := (lines.map (·.x0)).min?.getD 0
        top := (lines.map (·.top)).min?.getD 0
        x1 := (lines.map (·.x1)).max?.getD 0
        bottom := (lines.map (·.bottom)).max?.getD 0 }
      fontSize := roundHundredths (median (if sizes = [] then [baselineFontSize] else sizes))
      isBold := lines.any (·.isBold)
      metadata := {
        lineCount := lines.length
        pageNumber
        blockType := type
        tableCells := tableCells type lines
        pageSpan := if 1 < pagesSpanned.length then some pagesSpanned else none } }

/-- The variables of the loop over the lines. -/
structure Layout where
  paragraphs : List Paragraph := []
  currentLines : List PdfLine := []
  currentType : BlockType := .paragraph
  previousLine : Option PdfLine := none

namespace Layout

def flushCurrent (baselineFontSize : ℚ) (s : Layout) : Layout :=
  if s.currentLines = [] then s
  else
    { s with
      paragraphs := s.paragraphs ++ (block? baselineFontSize s.currentType s.currentLines).toList
      currentLines := []
      currentType := .paragraph }

def add (baselineFontSize : ℚ) (s : Layout) (line : PdfLine) : Layout :=
  let lineType := h.lineBlockType baselineFontSize line
  if s.currentLines = [] then { s with currentLines := [line], currentType := lineType, previousLine := some line }
  else if s.previousLine.any (breaksOff h · line) then
    { s.flushCurrent baselineFontSize with currentLines := [line], currentType := lineType, previousLine := some line }
  else { s with currentLines := s.currentLines ++ [line], previousLine := some line }

end Layout

/-! ### Tables -/

def looksLikeTableHeaderCells (cells : List (List Char)) : Bool :=
  let normalizedCells := (cells.map strip).filter (· ≠ [])
  let digitHeavyCount := normalizedCells.countP fun cell => cell.any fun char => isdigit [char]
  2 ≤ normalizedCells.length && !normalizedCells.any (fun cell => 40 < cell.length) &&
    digitHeavyCount ≤ max 1 (normalizedCells.length / 3)

/-- The variables of the loop over the paragraphs. -/
structure Tables where
  annotated : List Paragraph := []
  currentHeaders : Option (List (List Char)) := none
  previousBlockType : Option BlockType := none

/-- The cells of a row as they are read back. -/
def Paragraph.cells (p : Paragraph) : List (List Char) := (p.metadata.tableCells.map strip).filter (· ≠ [])

def Tables.annotate (s : Tables) (p : Paragraph) : Tables :=
  if p.blockType ≠ .tableRow then
    { annotated := s.annotated ++ [p], currentHeaders := none, previousBlockType := some p.blockType }
  else
    let currentHeaders := if s.previousBlockType ≠ some .tableRow then none else s.currentHeaders
    if p.cells ≠ [] ∧ currentHeaders = none ∧ looksLikeTableHeaderCells p.cells then
      { annotated := s.annotated ++
          [{ p with metadata := { p.metadata with tableRole := some .header, tableColumnHeaders := some p.cells } }]
        currentHeaders := some p.cells
        previousBlockType := some p.blockType }
    else
      let role := if p.cells ≠ [] then TableRole.row else .unknown
      let headers := (currentHeaders.filter (· ≠ [])).or p.metadata.tableColumnHeaders
      { annotated := s.annotated ++
          [{ p with metadata := { p.metadata with tableRole := some role, tableColumnHeaders := headers } }]
        currentHeaders
        previousBlockType := some p.blockType }

def annotateTableBlocks (paragraphs : List Paragraph) : List Paragraph := (paragraphs.foldl Tables.annotate {}).annotated

def annotateSpecialBlocks (paragraphs : List Paragraph) : List Paragraph :=
  paragraphs.map fun p =>
    if p.blockType = .metadata then { p with metadata := { p.metadata with metadataKind := some "table_of_contents" } } else p

/-! ### Documents -/

/-- What `pdfplumber` tells of a document. -/
structure Page where
  words : List Word
  height : ℚ

structure PdfMetadata where
  title : Option String := none
  producer : Option String := none
  creator : Option String := none

/-- A document without text has no counts of its blocks. -/
structure DocumentMetadata where
  sourceFormat : String := "pdf"
  extractionEngine : String := "pdfplumber_layout_v1"
  pageCount : Nat
  noExtractableText : Option Bool := none
  blockCount : Option Nat := none
  filteredEdgeLineCount : Option Nat := none
  blockCounts : List (BlockType × Nat) := []
  baselineFontSize : Option ℚ := none
  pdf : PdfMetadata

structure Document where
  textContent : List Char
  paragraphs : List Paragraph
  metadata : DocumentMetadata

def pageLines (pages : List Page) : List PdfLine :=
  (pages.zipIdx 1).flatMap fun (page, pageNumber) => groupWordsIntoLines page.words pageNumber page.height

def baselineFontSize (lines : List PdfLine) : ℚ :=
  let candidates := (lines.filter fun line => 0 < line.fontSize && 25 < line.text.length).map (·.fontSize)
  let sizes := (lines.filter fun line => 0 < line.fontSize).map (·.fontSize)
  median (if candidates ≠ [] then candidates else if sizes ≠ [] then sizes else [11])

def filteredLines (lines : List PdfLine) : List PdfLine :=
  let repeated := detectRepeatedEdgeLines h lines
  lines.filter fun line => (line.pageNumber, normalizeRepeatKey line.text) ∉ repeated ∧ !looksLikeEdgePagination line

/-- The paragraphs before they are annotated. -/
def layoutParagraphs (baseline : ℚ) (lines : List PdfLine) : List Paragraph :=
  ((lines.foldl (Layout.add h baseline) {}).flushCurrent baseline).paragraphs

def extractPdfLayout (pages : List Page) (pdf : PdfMetadata) : Document :=
  let lines := pageLines pages
  if lines = [] then
    { textContent := []
      paragraphs := []
      metadata := { pageCount := pages.length, noExtractableText := some (0 < pages.length), pdf } }
  else
    let baseline := baselineFontSize lines
    let kept := filteredLines h lines
    let paragraphs := annotateSpecialBlocks (annotateTableBlocks (layoutParagraphs h baseline kept))
    { textContent := "\n\n".toList.intercalate (paragraphs.map (·.text))
      paragraphs
      metadata := {
        pageCount := pages.length
        blockCount := some paragraphs.length
        filteredEdgeLineCount := some (lines.length - kept.length)
        blockCounts := (Dict.grouped (·.blockType) (fun count _ => count.getD 0 + 1) paragraphs).items
        baselineFontSize := some (roundHundredths baseline)
        pdf } }

/-! ### What is left out -/

section
variable {h} {lines : List PdfLine} {line : PdfLine}

/-- The lines that go by the key. -/
def occurrences (lines : List PdfLine) (key : List Char) : List PdfLine :=
  lines.filter fun line => normalizeRepeatKey line.text = key

variable (h) in
/-- All lines with the key of the line are at an edge, and they are three, or two that are short. -/
structure Repeats (lines : List PdfLine) (line : PdfLine) : Prop where
  long : 3 ≤ (normalizeRepeatKey line.text).length
  atEdges : ∀ other ∈ lines, normalizeRepeatKey other.text = normalizeRepeatKey line.text → other.nearEdge = true
  often : 3 ≤ (occurrences lines (normalizeRepeatKey line.text)).length ∨
    2 ≤ (occurrences lines (normalizeRepeatKey line.text)).length ∧ shortBannerLike h (normalizeRepeatKey line.text) = true

theorem foldl_gather {α : Type} (l : List α) :
    l.foldl (fun gathered x => some (gathered.getD [] ++ [x])) none = if l = [] then none else some l := by
  induction l using List.reverseRecOn with
  | nil => rfl
  | append_singleton l x ih =>
    rw [List.foldl_append, ih, if_neg (List.append_ne_nil_of_right_ne_nil l (List.cons_ne_nil x []))]
    split
    · next empty =>
      rw [empty]
      rfl
    · rfl

theorem get?_positions (key : List Char) :
    (positions lines).get? key =
      if key.length < 3 ∨ occurrences lines key = [] then none else some (occurrences lines key) := by
  have grouped : positions lines = Dict.grouped (fun line : PdfLine => normalizeRepeatKey line.text)
      (fun gathered line => gathered.getD [] ++ [line])
      (lines.filter fun line => 3 ≤ (normalizeRepeatKey line.text).length) := by
    unfold positions Dict.grouped
    rw [List.foldl_filter]
    congr 1
    funext positions line
    by_cases short : (normalizeRepeatKey line.text).length < 3
    · simp [short, Nat.not_le.mpr short]
    · simp [short, Nat.not_lt.mp short]
  rw [grouped, Dict.get?_grouped, foldl_gather, List.filter_filter]
  by_cases short : key.length < 3
  · have none_left : (lines.filter fun line => decide (normalizeRepeatKey line.text = key) &&
        decide (3 ≤ (normalizeRepeatKey line.text).length)) = [] := by
      rw [List.filter_eq_nil_iff]
      intro line _ both
      simp only [Bool.and_eq_true, decide_eq_true_eq] at both
      exact absurd both.2 (Nat.not_le.mpr (both.1 ▸ short))
    rw [none_left, if_pos rfl, if_pos (Or.inl short)]
  · have same : (lines.filter fun line => decide (normalizeRepeatKey line.text = key) &&
        decide (3 ≤ (normalizeRepeatKey line.text).length)) = occurrences lines key := by
      refine List.filter_congr fun line _ => ?_
      by_cases own : normalizeRepeatKey line.text = key
      · simp [own, Nat.not_lt.mp short]
      · simp [own]
    rw [same]
    simp [short]

/-- The loop over the dictionary finds the lines that repeat. -/
theorem mem_detectRepeatedEdgeLines (mem : line ∈ lines) :
    (line.pageNumber, normalizeRepeatKey line.text) ∈ detectRepeatedEdgeLines h lines ↔ Repeats h lines line := by
  have there : line ∈ occurrences lines (normalizeRepeatKey line.text) := List.mem_filter.mpr ⟨mem, decide_eq_true rfl⟩
  have found : (positions lines).get? (normalizeRepeatKey line.text) =
      if (normalizeRepeatKey line.text).length < 3 then none else some (occurrences lines (normalizeRepeatKey line.text)) := by
    rw [get?_positions]
    simp [List.ne_nil_of_mem there]
  unfold detectRepeatedEdgeLines
  rw [List.mem_flatMap]
  constructor
  · rintro ⟨⟨key, occurs⟩, item, inside⟩
    dsimp only at inside
    split at inside
    · exact absurd inside List.not_mem_nil
    · split at inside
      · exact absurd inside List.not_mem_nil
      · next edges =>
        split at inside
        · next often =>
          obtain ⟨other, -, same⟩ := List.mem_map.mp inside
          obtain rfl : key = normalizeRepeatKey line.text := (Prod.mk.inj same).2
          have at_key := (positions lines).mem_items_iff.mp item
          dsimp only at at_key
          rw [found] at at_key
          split at at_key
          · cases at_key
          · next long =>
            cases at_key
            have all_edges : (occurrences lines (normalizeRepeatKey line.text)).all PdfLine.nearEdge = true := by
              simpa using edges
            refine ⟨Nat.not_lt.mp long, fun other mem' same' => ?_, by simpa using often⟩
            exact List.all_eq_true.mp all_edges other (List.mem_filter.mpr ⟨mem', decide_eq_true same'⟩)
        · exact absurd inside List.not_mem_nil
  · intro repeats
    refine ⟨(normalizeRepeatKey line.text, occurrences lines (normalizeRepeatKey line.text)),
      (positions lines).mem_items_iff.mpr ?_, ?_⟩
    · dsimp only
      rw [found, if_neg (Nat.not_lt.mpr repeats.long)]
    · have all_edges : (occurrences lines (normalizeRepeatKey line.text)).all PdfLine.nearEdge = true := by
        rw [List.all_eq_true]
        intro other mem'
        obtain ⟨mem', same⟩ := List.mem_filter.mp mem'
        exact repeats.atEdges other mem' (of_decide_eq_true same)
      have two : ¬(occurrences lines (normalizeRepeatKey line.text)).length < 2 := by
        rcases repeats.often with three | ⟨two, -⟩ <;> omega
      have often := repeats.often
      dsimp only
      rw [if_neg two, all_edges]
      simp only [Bool.not_true, Bool.false_eq_true, if_false]
      rw [if_pos (by simpa using often)]
      exact List.mem_map.mpr ⟨line, there, rfl⟩

variable (h) in
/-- The line is left out. -/
def LeftOut (lines : List PdfLine) (line : PdfLine) : Prop := Repeats h lines line ∨ looksLikeEdgePagination line = true

instance : Decidable (Repeats h lines line) :=
  decidable_of_iff (3 ≤ (normalizeRepeatKey line.text).length ∧
      (∀ other ∈ lines, normalizeRepeatKey other.text = normalizeRepeatKey line.text → other.nearEdge = true) ∧
      (3 ≤ (occurrences lines (normalizeRepeatKey line.text)).length ∨
        2 ≤ (occurrences lines (normalizeRepeatKey line.text)).length ∧
          shortBannerLike h (normalizeRepeatKey line.text) = true))
    ⟨fun ⟨long, atEdges, often⟩ => ⟨long, atEdges, often⟩, fun repeats => ⟨repeats.long, repeats.atEdges, repeats.often⟩⟩

instance : Decidable (LeftOut h lines line) := inferInstanceAs (Decidable (_ ∨ _))

theorem filteredLines_eq : filteredLines h lines = lines.filter fun line => ¬LeftOut h lines line := by
  unfold filteredLines LeftOut
  refine List.filter_congr fun line mem => decide_eq_decide.mpr ?_
  rw [mem_detectRepeatedEdgeLines mem]
  simp [not_or]

/-- Only lines at an edge are left out. -/
theorem LeftOut.nearEdge (out : LeftOut h lines line) (mem : line ∈ lines) : line.nearEdge = true := by
  rcases out with repeats | pagination
  · exact repeats.atEdges line mem rfl
  · unfold looksLikeEdgePagination at pagination
    simp only [Bool.and_eq_true] at pagination
    exact pagination.1.2

end

/-! ### Blocks are what lies between the breaks -/

section
variable {h} {baseline : ℚ} {lines : List PdfLine} {line : PdfLine}

variable (h) in
/-- A block has the type of its first line. -/
def typeOf (baseline : ℚ) (lines : List PdfLine) : BlockType :=
  (lines.head?.map (h.lineBlockType baseline)).getD .paragraph

variable (h) in
def blockOf (baseline : ℚ) (lines : List PdfLine) : Option Paragraph := block? baseline (typeOf h baseline lines) lines

theorem filterMap_blockOf :
    [lines].filterMap (blockOf h baseline) = (block? baseline (typeOf h baseline lines) lines).toList := by
  cases blocked : block? baseline (typeOf h baseline lines) lines <;> simp [blockOf, blocked]

variable (h) in
/-- The loop is where the scan is. -/
structure Follows (baseline : ℚ) (scan : Scan PdfLine) (s : Layout) : Prop where
  lines : s.currentLines = scan.current
  type : scan.current ≠ [] → s.currentType = typeOf h baseline scan.current
  previous : scan.current ≠ [] → s.previousLine = scan.current.getLast?
  paragraphs : s.paragraphs = scan.closed.filterMap (blockOf h baseline)

theorem Follows.add {scan : Scan PdfLine} {s : Layout} (follows : Follows h baseline scan s) (line : PdfLine) :
    Follows h baseline (scan.step (breaksOff h) line) (s.add h baseline line) := by
  unfold Layout.add Scan.step
  dsimp only
  cases at_last : scan.current.getLast? with
  | none =>
    have empty : scan.current = [] := List.getLast?_eq_none_iff.mp at_last
    rw [if_pos (follows.lines.trans empty)]
    exact ⟨rfl, fun _ => rfl, fun _ => rfl, follows.paragraphs⟩
  | some last =>
    have some_last : scan.current ≠ [] := fun empty => by rw [empty] at at_last; cases at_last
    rw [if_neg (follows.lines ▸ some_last), follows.previous some_last, at_last, Option.any_some]
    dsimp only
    split
    · refine ⟨rfl, fun _ => rfl, fun _ => rfl, ?_⟩
      unfold Layout.flushCurrent
      rw [if_neg (follows.lines ▸ some_last)]
      dsimp only
      rw [follows.paragraphs, follows.type some_last, follows.lines, List.filterMap_append, filterMap_blockOf]
    · refine ⟨by rw [follows.lines], fun _ => ?_, fun _ => ?_, follows.paragraphs⟩
      · have first : (scan.current ++ [line]).head? = scan.current.head? := List.head?_append_of_ne_nil _ some_last
        rw [typeOf, first]
        exact follows.type some_last
      · exact (List.getLast?_concat ..).symm

theorem follows (h : Heuristics) (baseline : ℚ) (lines : List PdfLine) :
    Follows h baseline (lines.foldl (Scan.step (breaksOff h)) {}) (lines.foldl (Layout.add h baseline) {}) := by
  induction lines using List.reverseRecOn with
  | nil => exact ⟨rfl, fun nonempty => absurd rfl nonempty, fun nonempty => absurd rfl nonempty, rfl⟩
  | append_singleton lines line ih =>
    rw [List.foldl_append, List.foldl_append]
    exact ih.add line

variable (h) in
def splitLines (lines : List PdfLine) : List (List PdfLine) := lines.splitBy fun x y => !breaksOff h x y

theorem layoutParagraphs_eq : layoutParagraphs h baseline lines = (splitLines h lines).filterMap (blockOf h baseline) := by
  have along := follows h baseline lines
  rw [splitLines, ← all_foldl, layoutParagraphs, Layout.flushCurrent, Scan.all, along.lines]
  split
  · exact along.paragraphs
  · next nonempty =>
    dsimp only
    rw [along.paragraphs, along.type nonempty, List.filterMap_append, filterMap_blockOf]

end

/-! ### Texts -/

section
variable {s t : List Char} {c : Char}

theorem mem_collapseSpace {run : Bool} (mem : c ∈ collapseSpace run s) : isSpace c = false ∨ c = ' ' := by
  induction s generalizing run with
  | nil => exact absurd mem List.not_mem_nil
  | cons d s ih =>
    unfold collapseSpace at mem
    split at mem
    · split at mem
      · exact ih mem
      · rcases List.mem_cons.mp mem with rfl | mem
        · exact .inr rfl
        · exact ih mem
    · next ink =>
      rcases List.mem_cons.mp mem with rfl | mem
      · exact .inl (Bool.eq_false_iff.mpr ink)
      · exact ih mem

theorem closeUp_subset (s : List Char) : closeUp s ⊆ s := by
  induction s with
  | nil => exact List.Subset.refl []
  | cons c s ih =>
    rw [closeUp, List.foldr_cons, ← closeUp]
    split
    · exact List.subset_cons_of_subset c ih
    · exact List.cons_subset_cons c ih

theorem openUp_subset (after : Bool) (s : List Char) : openUp after s ⊆ s := by
  induction s generalizing after with
  | nil => exact List.Subset.refl []
  | cons c s ih =>
    unfold openUp
    split
    · exact List.subset_cons_of_subset c (ih true)
    · exact List.cons_subset_cons c (ih _)

/-- All white space that is left is blanks. -/
theorem mem_normalizeInlineText (mem : c ∈ normalizeInlineText t) : isSpace c = false ∨ c = ' ' :=
  mem_collapseSpace (strip_subset (closeUp_subset _ (openUp_subset false _ mem)))

theorem newline_not_mem : '\n' ∉ normalizeInlineText t := by
  intro mem
  rcases mem_normalizeInlineText mem with ink | blank
  · exact absurd ink (by decide)
  · exact absurd blank (by decide)

theorem normalizeInlineText_eq_nil (none : inked t = []) : normalizeInlineText t = [] := by
  have collapsed : strip (collapseSpace false t) = [] := strip_eq_nil ((inked_collapseSpace false t).trans none)
  rw [normalizeInlineText, collapsed]
  rfl

theorem inked_ne_nil (shown : normalizeInlineText t ≠ []) : inked t ≠ [] := fun none => shown (normalizeInlineText_eq_nil none)

theorem inked_intercalate_blank (texts : List (List Char)) : inked ([' '].intercalate texts) = texts.flatMap inked := by
  induction texts with
  | nil => rfl
  | cons text texts ih =>
    by_cases last : texts = []
    · rw [last, List.intercalate_singleton, List.flatMap_singleton]
    · rw [List.intercalate_cons_of_ne_nil last, inked_append, inked_append, ih, List.flatMap_cons, inked_cons_space rfl,
        inked_nil, List.append_nil]

/-- Texts of one line with an empty line between them are the lines that are not empty. -/
theorem lines_of_intercalate {texts : List (List Char)} (proper : ∀ text ∈ texts, text ≠ [] ∧ '\n' ∉ text) :
    (("\n\n".toList.intercalate texts).splitOn '\n').filter (· ≠ []) = texts := by
  have newlines : "\n\n".toList = ['\n', '\n'] := by decide
  rw [newlines]
  induction texts with
  | nil => rfl
  | cons text texts ih =>
    obtain ⟨shown, oneLine⟩ := proper text List.mem_cons_self
    have alone : text.splitOn '\n' = [text] :=
      List.splitOnP_eq_singleton fun c mem => beq_false_of_ne fun same => oneLine (same ▸ mem)
    by_cases last : texts = []
    · rw [last, List.intercalate_singleton, alone]
      simp [shown]
    · have rest := ih fun other mem => proper other (List.mem_cons_of_mem text mem)
      have broken : ((['\n', '\n'].intercalate (text :: texts)).splitOn '\n') =
          text :: [] :: (['\n', '\n'].intercalate texts).splitOn '\n' := by
        rw [List.intercalate_cons_of_ne_nil last, List.append_assoc, List.splitOn, List.cons_append,
          List.splitOnP_append_cons _ _ (by simp), ← List.splitOn, ← List.splitOn, alone]
        rfl
      rw [broken, List.filter_cons_of_pos (by simpa using shown), List.filter_cons_of_neg (by simp), rest]

end

/-! ### What a block shows -/

section
variable {h} {baseline : ℚ} {lines : List PdfLine} {line : PdfLine} {p : Paragraph}

/-- A line as it comes from a page. -/
structure Readable (line : PdfLine) : Prop where
  shown : inked line.text ≠ []
  spelled : line.cellTexts.flatMap inked = inked line.text
  cells : ∀ cell ∈ line.cellTexts, '\n' ∉ cell

theorem readable_of_mem {pages : List Page} (mem : line ∈ pageLines pages) : Readable line := by
  obtain ⟨⟨page, pageNumber⟩, -, on_page⟩ := List.mem_flatMap.mp mem
  dsimp only at on_page
  rw [groupWordsIntoLines_eq] at on_page
  obtain ⟨words, kept, rfl⟩ := List.mem_map.mp on_page
  have shown : joinWordTokens words ≠ [] := by simpa using (List.mem_filter.mp kept).2
  refine ⟨?_, ?_, fun cell inside => ?_⟩
  · show inked (joinWordTokens words) ≠ []
    rw [joinWordTokens, inked_normalizeInlineText]
    exact inked_ne_nil shown
  · exact (inked_splitWordsIntoCells words).trans (inked_joinWordTokens words).symm
  · obtain ⟨words', -, rfl⟩ := List.mem_map.mp (List.mem_of_mem_filter inside)
    exact newline_not_mem

/-- The characters of a paragraph; those between the cells of a row are not its own. -/
def Paragraph.ink (p : Paragraph) : List Char :=
  if p.metadata.tableCells = [] then inked p.text else p.metadata.tableCells.flatMap inked

variable (h) in
/-- What a paragraph is to the lines of its block. -/
structure Renders (baseline : ℚ) (lines : List PdfLine) (p : Paragraph) : Prop where
  type : p.blockType = typeOf h baseline lines
  page : lines.head?.map (·.pageNumber) = some p.pageNumber
  lineCount : p.metadata.lineCount = lines.length
  box : ∀ line ∈ lines, p.bbox.x0 ≤ line.x0 ∧ p.bbox.top ≤ line.top ∧ line.x1 ≤ p.bbox.x1 ∧ line.bottom ≤ p.bbox.bottom
  ink : p.ink = lines.flatMap fun line => inked line.text
  cells : p.metadata.tableCells ≠ [] → p.text = " | ".toList.intercalate p.metadata.tableCells
  oneLine : p.text ≠ [] ∧ '\n' ∉ p.text

theorem inked_tableCells (readable : ∀ line ∈ lines, Readable line) :
    (tableCells .tableRow lines).flatMap inked = lines.flatMap fun line => inked line.text := by
  rw [tableCells, if_pos rfl]
  induction lines with
  | nil => rfl
  | cons line lines ih =>
    have dropped (cells : List (List Char)) : (cells.filter (· ≠ [])).flatMap inked = cells.flatMap inked := by
      induction cells with
      | nil => rfl
      | cons cell cells ih =>
        rw [List.filter_cons, List.flatMap_cons, ← ih]
        split
        · rfl
        · next empty =>
          have none : cell = [] := by simpa using empty
          rw [none]
          rfl
    rw [List.flatMap_cons, List.flatMap_append, List.flatMap_cons, dropped, (readable line List.mem_cons_self).spelled,
      ih fun other mem => readable other (List.mem_cons_of_mem line mem)]

theorem flatMap_ink_ne_nil (nonempty : lines ≠ []) (readable : ∀ line ∈ lines, Readable line) :
    (lines.flatMap fun line => inked line.text) ≠ [] := by
  obtain ⟨line, lines, rfl⟩ := List.exists_cons_of_ne_nil nonempty
  rw [List.flatMap_cons]
  exact List.append_ne_nil_of_left_ne_nil (readable line List.mem_cons_self).shown _

theorem min_le {f : PdfLine → ℚ} (mem : line ∈ lines) : (lines.map f).min?.getD 0 ≤ f line := by
  cases least : (lines.map f).min? with
  | none => exact absurd (List.min?_eq_none_iff.mp least) (List.ne_nil_of_mem (List.mem_map_of_mem mem))
  | some x => exact (List.min?_eq_some_iff.mp least).2 _ (List.mem_map_of_mem mem)

theorem le_max {f : PdfLine → ℚ} (mem : line ∈ lines) : f line ≤ (lines.map f).max?.getD 0 := by
  cases greatest : (lines.map f).max? with
  | none => exact absurd (List.max?_eq_none_iff.mp greatest) (List.ne_nil_of_mem (List.mem_map_of_mem mem))
  | some x => exact (List.max?_eq_some_iff.mp greatest).2 _ (List.mem_map_of_mem mem)

theorem not_mem_intercalate {c : Char} {separator : List Char} {texts : List (List Char)} (apart : c ∉ separator)
    (free : ∀ text ∈ texts, c ∉ text) : c ∉ separator.intercalate texts := by
  induction texts with
  | nil => exact List.not_mem_nil
  | cons text texts ih =>
    have rest := ih fun other mem => free other (List.mem_cons_of_mem text mem)
    have here := free text List.mem_cons_self
    by_cases last : texts = []
    · rw [last, List.intercalate_singleton]
      exact here
    · rw [List.intercalate_cons_of_ne_nil last]
      simp [here, apart, rest]

theorem oneLine_of_row (readable : ∀ line ∈ lines, Readable line) (some_cells : tableCells .tableRow lines ≠ []) :
    " | ".toList.intercalate (tableCells .tableRow lines) ≠ [] ∧
      '\n' ∉ " | ".toList.intercalate (tableCells .tableRow lines) := by
  have cell {cell : List Char} (mem : cell ∈ tableCells .tableRow lines) : cell ≠ [] ∧ '\n' ∉ cell := by
    rw [tableCells, if_pos rfl] at mem
    obtain ⟨line, inside, mem⟩ := List.mem_flatMap.mp mem
    obtain ⟨mem, shown⟩ := List.mem_filter.mp mem
    exact ⟨of_decide_eq_true shown, (readable line inside).cells cell mem⟩
  refine ⟨?_, not_mem_intercalate (by decide) fun text mem => (cell mem).2⟩
  obtain ⟨first, rest, cells⟩ := List.exists_cons_of_ne_nil some_cells
  have shown : first ≠ [] := (cell (cells ▸ List.mem_cons_self)).1
  rw [cells]
  by_cases last : rest = []
  · rw [last, List.intercalate_singleton]
    exact shown
  · rw [List.intercalate_cons_of_ne_nil last, List.append_assoc]
    exact List.append_ne_nil_of_left_ne_nil shown _

/-- No block of readable lines is lost. -/
theorem blockOf_renders (h : Heuristics) (baseline : ℚ) (nonempty : lines ≠ []) (readable : ∀ line ∈ lines, Readable line) :
    ∃ p, blockOf h baseline lines = some p ∧ Renders h baseline lines p := by
  have ink := flatMap_ink_ne_nil nonempty readable
  have text : blockText (typeOf h baseline lines) lines ≠ [] ∧ '\n' ∉ blockText (typeOf h baseline lines) lines ∧
      (if tableCells (typeOf h baseline lines) lines = [] then inked (blockText (typeOf h baseline lines) lines)
        else (tableCells (typeOf h baseline lines) lines).flatMap inked) = (lines.flatMap fun line => inked line.text) ∧
      (tableCells (typeOf h baseline lines) lines ≠ [] → blockText (typeOf h baseline lines) lines =
        " | ".toList.intercalate (tableCells (typeOf h baseline lines) lines)) := by
    unfold blockText
    dsimp only
    by_cases row : typeOf h baseline lines = .tableRow
    · rw [row]
      have spelled := inked_tableCells readable
      have some_cells : tableCells .tableRow lines ≠ [] := fun none => ink (by rw [← spelled, none]; rfl)
      rw [if_pos ⟨rfl, some_cells⟩, if_neg some_cells]
      exact ⟨(oneLine_of_row readable some_cells).1, (oneLine_of_row readable some_cells).2, spelled, fun _ => rfl⟩
    · have no_cells : tableCells (typeOf h baseline lines) lines = [] := if_neg row
      have spelled : inked (normalizeInlineText ([' '].intercalate (lines.map (·.text)))) =
          lines.flatMap fun line => inked line.text := by
        rw [inked_normalizeInlineText, inked_intercalate_blank, List.flatMap_map]
      rw [if_neg fun both => row both.1, if_pos no_cells]
      refine ⟨fun empty => ink ?_, newline_not_mem, spelled, fun some_cells => absurd no_cells some_cells⟩
      rw [← spelled, empty]
      rfl
  obtain ⟨shown, oneLine, spelled, cells⟩ := text
  unfold blockOf block?
  dsimp only
  rw [if_neg shown]
  refine ⟨_, rfl, rfl, ?_, rfl, fun line mem => ⟨min_le mem, min_le mem, le_max mem, le_max mem⟩, spelled, cells, shown,
    oneLine⟩
  obtain ⟨first, rest, rfl⟩ := List.exists_cons_of_ne_nil nonempty
  rfl

/-! ### Annotations -/

/-- The paragraphs differ in what is noted about tables and contents only. -/
structure Annotated (p q : Paragraph) : Prop where
  text : q.text = p.text
  blockType : q.blockType = p.blockType
  pageNumber : q.pageNumber = p.pageNumber
  bbox : q.bbox = p.bbox
  lineCount : q.metadata.lineCount = p.metadata.lineCount
  tableCells : q.metadata.tableCells = p.metadata.tableCells

theorem Renders.annotated {q : Paragraph} (renders : Renders h baseline lines p) (annotated : Annotated p q) :
    Renders h baseline lines q where
  type := annotated.blockType.trans renders.type
  page := annotated.pageNumber ▸ renders.page
  lineCount := annotated.lineCount.trans renders.lineCount
  box := annotated.bbox ▸ renders.box
  ink := by
    rw [← renders.ink, Paragraph.ink, Paragraph.ink, annotated.tableCells, annotated.text]
  cells := by
    rw [annotated.tableCells, annotated.text]
    exact renders.cells
  oneLine := annotated.text ▸ renders.oneLine

/-- The headers that hold for a row: the cells of the first row that looks like a header, among the rows right before it. -/
def headersBefore (before : List Paragraph) : Option (List (List Char)) :=
  ((before.reverse.takeWhile (·.blockType = .tableRow)).reverse.find? fun p =>
    p.cells ≠ [] ∧ looksLikeTableHeaderCells p.cells).map Paragraph.cells

/-- The paragraph with what the loop notes about it. -/
def Paragraph.noted (p : Paragraph) (headers : Option (List (List Char))) : Paragraph :=
  if p.blockType ≠ .tableRow then p
  else if p.cells ≠ [] ∧ headers = none ∧ looksLikeTableHeaderCells p.cells then
    { p with metadata := { p.metadata with tableRole := some .header, tableColumnHeaders := some p.cells } }
  else
    { p with metadata := { p.metadata with
      tableRole := some (if p.cells ≠ [] then .row else .unknown)
      tableColumnHeaders := headers.or p.metadata.tableColumnHeaders } }

/-- The paragraphs with their notes, `before` being those that come before them. -/
def notedAfter (before : List Paragraph) : List Paragraph → List Paragraph
  | [] => []
  | p :: ps => p.noted (headersBefore before) :: notedAfter (before ++ [p]) ps

theorem headersBefore_concat (before : List Paragraph) (p : Paragraph) : headersBefore (before ++ [p]) =
    if p.blockType ≠ .tableRow then none
    else (headersBefore before).or (if p.cells ≠ [] ∧ looksLikeTableHeaderCells p.cells then some p.cells else none) := by
  unfold headersBefore
  rw [List.reverse_append, List.reverse_singleton, List.singleton_append]
  by_cases row : p.blockType = .tableRow
  · rw [List.takeWhile_cons_of_pos (by simp [row]), List.reverse_cons, List.find?_append, Option.map_or, if_neg (by simp [row])]
    congr 1
    by_cases header : p.cells ≠ [] ∧ looksLikeTableHeaderCells p.cells = true
    · rw [if_pos header, List.find?_cons_of_pos (by simpa using header)]
      rfl
    · rw [if_neg header, List.find?_cons_of_neg (by simpa using header)]
      rfl
  · rw [List.takeWhile_cons_of_neg (by simp [row]), if_pos row]
    rfl

theorem ne_nil_of_headersBefore {before : List Paragraph} {cells : List (List Char)}
    (headers : headersBefore before = some cells) : cells ≠ [] := by
  obtain ⟨p, found, rfl⟩ := Option.map_eq_some_iff.mp headers
  have header := List.find?_some found
  rw [decide_eq_true_eq] at header
  exact header.1

theorem Tables.annotate_eq {before : List Paragraph} {s : Tables}
    (headers : (if s.previousBlockType ≠ some .tableRow then none else s.currentHeaders) = headersBefore before) :
    (s.annotate p).annotated = s.annotated ++ [p.noted (headersBefore before)] ∧
      (if (s.annotate p).previousBlockType ≠ some .tableRow then none else (s.annotate p).currentHeaders) =
        headersBefore (before ++ [p]) := by
  rw [headersBefore_concat]
  unfold Tables.annotate Paragraph.noted
  by_cases row : p.blockType = .tableRow
  · rw [if_neg (not_not.mpr row), if_neg (not_not.mpr row), if_neg (not_not.mpr row)]
    dsimp only
    rw [headers]
    have some_headers : (headersBefore before).filter (· ≠ []) = headersBefore before := by
      cases found : headersBefore before with
      | none => rfl
      | some cells => simp [ne_nil_of_headersBefore found]
    split
    · next header =>
      refine ⟨rfl, ?_⟩
      simp [row, header]
    · next other =>
      refine ⟨by rw [some_headers], ?_⟩
      dsimp only
      rw [row, if_neg (by simp)]
      cases found : headersBefore before with
      | some cells => rfl
      | none =>
        have plain : ¬(p.cells ≠ [] ∧ looksLikeTableHeaderCells p.cells = true) :=
          fun header => other ⟨header.1, found, header.2⟩
        rw [if_neg plain]
        rfl
  · rw [if_pos row, if_pos row, if_pos row]
    exact ⟨rfl, by simp [row]⟩

theorem annotateTableBlocks_eq (paragraphs : List Paragraph) : annotateTableBlocks paragraphs = notedAfter [] paragraphs := by
  have along : ∀ (after before : List Paragraph) (s : Tables),
      (if s.previousBlockType ≠ some .tableRow then none else s.currentHeaders) = headersBefore before →
      (after.foldl Tables.annotate s).annotated = s.annotated ++ notedAfter before after := by
    intro after
    induction after with
    | nil => exact fun before s _ => (List.append_nil _).symm
    | cons p after ih =>
      intro before s headers
      obtain ⟨annotated, next⟩ := Tables.annotate_eq (p := p) headers
      rw [List.foldl_cons, ih (before ++ [p]) _ next, annotated, notedAfter, List.append_assoc]
      rfl
  exact along paragraphs [] {} rfl

theorem annotated_noted (p : Paragraph) (headers : Option (List (List Char))) : Annotated p (p.noted headers) := by
  unfold Paragraph.noted
  split
  · exact ⟨rfl, rfl, rfl, rfl, rfl, rfl⟩
  · split <;> exact ⟨rfl, rfl, rfl, rfl, rfl, rfl⟩

/-- The paragraph of the document. -/
def Paragraph.special (p : Paragraph) : Paragraph :=
  if p.blockType = .metadata then { p with metadata := { p.metadata with metadataKind := some "table_of_contents" } } else p

theorem annotated_special {q : Paragraph} (annotated : Annotated p q) : Annotated p q.special := by
  unfold Paragraph.special
  split
  · exact ⟨annotated.text, annotated.blockType, annotated.pageNumber, annotated.bbox, annotated.lineCount, annotated.tableCells⟩
  · exact annotated

theorem annotated_notedAfter (paragraphs before : List Paragraph) :
    List.Forall₂ Annotated paragraphs (annotateSpecialBlocks (notedAfter before paragraphs)) := by
  induction paragraphs generalizing before with
  | nil => exact .nil
  | cons p ps ih => exact .cons (annotated_special (annotated_noted p _)) (ih _)

end

/-! ### The document -/

section
variable {h} {baseline : ℚ}

theorem forall₂_renders {blocks : List (List PdfLine)} (nonempty : ∀ block ∈ blocks, block ≠ [])
    (readable : ∀ block ∈ blocks, ∀ line ∈ block, Readable line) :
    List.Forall₂ (Renders h baseline) blocks (blocks.filterMap (blockOf h baseline)) := by
  induction blocks with
  | nil => exact .nil
  | cons block blocks ih =>
    obtain ⟨p, found, renders⟩ := blockOf_renders h baseline (nonempty block List.mem_cons_self)
      (readable block List.mem_cons_self)
    rw [List.filterMap_cons_some found]
    exact .cons renders (ih (fun b mem => nonempty b (List.mem_cons_of_mem block mem))
      fun b mem => readable b (List.mem_cons_of_mem block mem))

theorem forall₂_annotated {blocks : List (List PdfLine)} {ps qs : List Paragraph}
    (renders : List.Forall₂ (Renders h baseline) blocks ps) (annotated : List.Forall₂ Annotated ps qs) :
    List.Forall₂ (Renders h baseline) blocks qs := by
  induction renders generalizing qs with
  | nil =>
    cases annotated
    exact .nil
  | cons first rest ih =>
    cases annotated with
    | cons same others => exact .cons (first.annotated same) (ih others)

theorem oneLine_of_mem {blocks : List (List PdfLine)} {ps : List Paragraph} {p : Paragraph}
    (renders : List.Forall₂ (Renders h baseline) blocks ps) (mem : p ∈ ps) : p.text ≠ [] ∧ '\n' ∉ p.text := by
  induction renders with
  | nil => exact absurd mem List.not_mem_nil
  | cons first rest ih =>
    rcases List.mem_cons.mp mem with rfl | mem
    · exact first.oneLine
    · exact ih mem

theorem pageLines_ink (pages : List Page) : (pageLines pages).flatMap (fun line => inked line.text) =
    pages.flatMap fun page => (sortedBy sortKey page.words).flatMap Word.ink := by
  have page_ink (page : Page) (n : Nat) : (groupWordsIntoLines page.words n page.height).flatMap (fun line => inked line.text) =
      (sortedBy sortKey page.words).flatMap Word.ink := by
    rw [groupWordsIntoLines_eq, List.flatMap_map, ← flatMap_ink_filter, ← filter_flatten_keptLines, flatMap_ink_filter,
      ← List.flatMap_id, List.flatMap_assoc]
    exact List.flatMap_congr fun words _ => inked_joinWordTokens words
  have from_page : ∀ n, ((pages.zipIdx n).flatMap fun (page, pageNumber) =>
      groupWordsIntoLines page.words pageNumber page.height).flatMap (fun line => inked line.text) =
        pages.flatMap fun page => (sortedBy sortKey page.words).flatMap Word.ink := by
    induction pages with
    | nil => exact fun n => rfl
    | cons page pages ih =>
      intro n
      rw [List.zipIdx_cons, List.flatMap_cons, List.flatMap_append, ih (n + 1), List.flatMap_cons, page_ink]
  exact from_page 1

/-- What a document is to the pages it was read from. -/
structure Laid (h : Heuristics) (pages : List Page) (doc : Document) : Prop where
  /-- The lines have the characters of the words, in the order of reading. -/
  spelled : (pageLines pages).flatMap (fun line => inked line.text) =
    pages.flatMap fun page => (sortedBy sortKey page.words).flatMap Word.ink
  /-- Nothing in the middle of a page is left out. -/
  leftOut : ∀ line ∈ pageLines pages, LeftOut h (pageLines pages) line → line.nearEdge = true
  /-- The other lines are there, in their order, split at the breaks. -/
  blocks : List.Forall₂ (Renders h (baselineFontSize (pageLines pages)))
    (splitLines h ((pageLines pages).filter fun line => ¬LeftOut h (pageLines pages) line)) doc.paragraphs
  /-- The text of the document can be read back. -/
  content : (doc.textContent.splitOn '\n').filter (· ≠ []) = doc.paragraphs.map (·.text)

/-- What is read from a PDF is what its pages show, but for what repeats at their edges. -/
theorem extract_laid (h : Heuristics) (pages : List Page) (pdf : PdfMetadata) :
    Laid h pages (extractPdfLayout h pages pdf) := by
  have blocks : List.Forall₂ (Renders h (baselineFontSize (pageLines pages)))
      (splitLines h ((pageLines pages).filter fun line => ¬LeftOut h (pageLines pages) line))
      (extractPdfLayout h pages pdf).paragraphs := by
    unfold extractPdfLayout
    dsimp only
    split
    · next empty =>
      rw [empty]
      exact .nil
    · dsimp only
      rw [annotateTableBlocks_eq, layoutParagraphs_eq, filteredLines_eq]
      refine forall₂_annotated (forall₂_renders (fun block mem => List.ne_nil_of_mem_splitBy mem) ?_) (annotated_notedAfter _ _)
      intro block mem line inside
      have whole : line ∈ (splitLines h ((pageLines pages).filter fun line => ¬LeftOut h (pageLines pages) line)).flatten :=
        List.mem_flatten_of_mem mem inside
      rw [splitLines, List.flatten_splitBy] at whole
      exact readable_of_mem (List.mem_of_mem_filter whole)
  refine ⟨pageLines_ink pages, fun line mem out => out.nearEdge mem, blocks, ?_⟩
  have proper : ∀ text ∈ (extractPdfLayout h pages pdf).paragraphs.map (·.text), text ≠ [] ∧ '\n' ∉ text := by
    intro text mem
    obtain ⟨p, inside, rfl⟩ := List.mem_map.mp mem
    exact oneLine_of_mem blocks inside
  have written : (extractPdfLayout h pages pdf).textContent =
      "\n\n".toList.intercalate ((extractPdfLayout h pages pdf).paragraphs.map (·.text)) := by
    unfold extractPdfLayout
    dsimp only
    split <;> rfl
  rw [written]
  exact lines_of_intercalate proper

/-! ### Headers of tables -/

/-- What is noted about a paragraph, given the headers that hold for it. -/
def Paragraph.notes (p : Paragraph) (headers : Option (List (List Char))) : Option TableRole × Option (List (List Char)) :=
  if p.blockType ≠ .tableRow then (none, none)
  else if p.cells ≠ [] ∧ headers = none ∧ looksLikeTableHeaderCells p.cells then (some .header, some p.cells)
  else (some (if p.cells ≠ [] then .row else .unknown), headers)

/-- Nothing has been noted yet. -/
def Plain (p : Paragraph) : Prop := p.metadata.tableRole = none ∧ p.metadata.tableColumnHeaders = none

theorem plain_of_mem {lines : List PdfLine} {p : Paragraph} (mem : p ∈ layoutParagraphs h baseline lines) : Plain p := by
  rw [layoutParagraphs_eq] at mem
  obtain ⟨block, -, found⟩ := List.mem_filterMap.mp mem
  unfold blockOf block? at found
  dsimp only at found
  split at found
  · cases found
  · cases found
    exact ⟨rfl, rfl⟩

theorem notes_noted {p : Paragraph} {headers : Option (List (List Char))} (plain : Plain p) :
    ((p.noted headers).special.metadata.tableRole, (p.noted headers).special.metadata.tableColumnHeaders) =
      p.notes headers := by
  have same (q : Paragraph) : (q.special.metadata.tableRole, q.special.metadata.tableColumnHeaders) =
      (q.metadata.tableRole, q.metadata.tableColumnHeaders) := by
    unfold Paragraph.special
    split <;> rfl
  rw [same]
  unfold Paragraph.noted Paragraph.notes
  split
  · rw [plain.1, plain.2]
  · split
    · rfl
    · rw [plain.2, Option.or_none]

/-- A part of the annotated paragraphs comes from a part of the others. -/
theorem notedAfter_eq_append {ps us vs : List Paragraph} {q : Paragraph} : ∀ {before : List Paragraph},
    notedAfter before ps = us ++ q :: vs →
      ∃ xs p ys, ps = xs ++ p :: ys ∧ us = notedAfter before xs ∧ q = p.noted (headersBefore (before ++ xs)) := by
  induction us generalizing ps with
  | nil =>
    intro before parts
    cases ps with
    | nil => cases parts
    | cons p ps =>
      obtain ⟨first, -⟩ := List.cons.inj parts
      exact ⟨[], p, ps, rfl, rfl, by rw [List.append_nil]; exact first.symm⟩
  | cons u us ih =>
    intro before parts
    cases ps with
    | nil => cases parts
    | cons p ps =>
      obtain ⟨first, rest⟩ := List.cons.inj parts
      obtain ⟨xs, p', ys, rfl, rfl, rfl⟩ := ih rest
      refine ⟨p :: xs, p', ys, rfl, by rw [notedAfter, first], ?_⟩
      rw [List.append_assoc]
      rfl

theorem notedAfter_concat (before ps : List Paragraph) (p : Paragraph) :
    notedAfter before (ps ++ [p]) = notedAfter before ps ++ [p.noted (headersBefore (before ++ ps))] := by
  induction ps generalizing before with
  | nil => rw [List.nil_append, List.append_nil]; rfl
  | cons q ps ih =>
    rw [List.cons_append, notedAfter, ih, notedAfter, List.append_assoc]
    rfl

/-- The notes do not change which headers hold. -/
theorem headersBefore_annotated (ps : List Paragraph) :
    headersBefore (annotateSpecialBlocks (notedAfter [] ps)) = headersBefore ps := by
  induction ps using List.reverseRecOn with
  | nil => rfl
  | append_singleton ps p ih =>
    have same := annotated_special (annotated_noted p (headersBefore ps))
    have cells : (p.noted (headersBefore ps)).special.cells = p.cells := by
      rw [Paragraph.cells, Paragraph.cells, same.tableCells]
    rw [notedAfter_concat, annotateSpecialBlocks, List.map_append, List.map_singleton, ← annotateSpecialBlocks]
    show headersBefore (_ ++ [(p.noted (headersBefore ps)).special]) = _
    rw [headersBefore_concat, headersBefore_concat, ih, same.blockType, cells]

theorem notes_of_parts {pages : List Page} {pdf : PdfMetadata} {before after : List Paragraph} {q : Paragraph}
    (parts : (extractPdfLayout h pages pdf).paragraphs = before ++ q :: after) :
    (q.metadata.tableRole, q.metadata.tableColumnHeaders) = q.notes (headersBefore before) := by
  unfold extractPdfLayout at parts
  dsimp only at parts
  split at parts
  · exact absurd parts.symm (List.append_ne_nil_of_right_ne_nil _ (List.cons_ne_nil _ _))
  · dsimp only at parts
    rw [annotateTableBlocks_eq] at parts
    obtain ⟨us, rest, noted, rfl, whole⟩ := List.map_eq_append_iff.mp parts
    obtain ⟨q', vs, rfl, rfl, rfl⟩ := List.map_eq_cons_iff.mp whole
    obtain ⟨xs, p, ys, split_, rfl, rfl⟩ := notedAfter_eq_append noted
    have plain : Plain p := plain_of_mem (by rw [split_]; exact List.mem_append_right xs List.mem_cons_self)
    have same := annotated_special (annotated_noted p (headersBefore xs))
    have headers : headersBefore (annotateSpecialBlocks (notedAfter [] xs)) = headersBefore xs := headersBefore_annotated xs
    have notes : (p.noted (headersBefore xs)).special.notes (headersBefore xs) = p.notes (headersBefore xs) := by
      rw [Paragraph.notes, Paragraph.notes, same.blockType, Paragraph.cells, same.tableCells]
      rfl
    show ((p.noted (headersBefore xs)).special.metadata.tableRole,
        (p.noted (headersBefore xs)).special.metadata.tableColumnHeaders) = (p.noted (headersBefore xs)).special.notes (headersBefore (annotateSpecialBlocks (notedAfter [] xs)))
    rw [notes_noted plain, headers, notes]

/-- In the document, a row of a table carries the cells of the first row that looks like a header, among the rows right before
    it; where there is none, it is itself the header or carries nothing. -/
theorem extract_headed (h : Heuristics) (pages : List Page) (pdf : PdfMetadata) (i : Nat) :
    let paragraphs := (extractPdfLayout h pages pdf).paragraphs
    (paragraphs[i]?.map fun p => (p.metadata.tableRole, p.metadata.tableColumnHeaders)) =
      paragraphs[i]?.map (·.notes (headersBefore (paragraphs.take i))) := by
  intro paragraphs
  cases at_i : paragraphs[i]? with
  | none => rfl
  | some p =>
    obtain ⟨within, rfl⟩ := List.getElem?_eq_some_iff.mp at_i
    have parts : paragraphs = paragraphs.take i ++ paragraphs[i] :: paragraphs.drop (i + 1) := by
      rw [List.getElem_cons_drop, List.take_append_drop]
    exact congrArg some (notes_of_parts parts)

end

end NyzRating.Shared.Pdf
