import Mathlib.Data.List.Defs
import Mathlib.Tactic.Common

/-!
# Samples as lines of text

A page has one sample a line: its name, its labels in braces, a blank and its value. The value of a label is quoted; lines
that begin with `#` are comments. Whoever reads a page that was written so gets its samples back.
-/

namespace Exposition

abbrev Label := List Char × List Char

structure Sample where
  name : List Char
  labels : List Label
  value : List Char
  deriving DecidableEq

inductive Line where
  | comment (text : List Char)
  | sample (s : Sample)

def Line.sample? : Line → Option Sample
  | .comment _ => none
  | .sample s => some s

/-! ### Writing -/

def escapeChar (c : Char) : List Char :=
  if c = '\\' then ['\\', '\\'] else if c = '"' then ['\\', '"'] else if c = '\n' then ['\\', 'n'] else [c]

def escape (text : List Char) : List Char := text.flatMap escapeChar

def writeLabel (label : Label) : List Char := label.1 ++ '=' :: '"' :: (escape label.2 ++ ['"'])

def writeLabels (labels : List Label) : List Char := [','].intercalate (labels.map writeLabel)

def Sample.write (s : Sample) : List Char :=
  s.name ++ ((if s.labels = [] then [] else '{' :: (writeLabels s.labels ++ ['}'])) ++ ' ' :: s.value)

def Line.write : Line → List Char
  | .comment text => '#' :: text
  | .sample s => s.write

def write (lines : List Line) : List Char := lines.flatMap fun line => line.write ++ ['\n']

theorem intercalate_write {lines : List Line} (nonempty : lines ≠ []) :
    ['\n'].intercalate (lines.map Line.write) ++ ['\n'] = write lines := by
  induction lines with
  | nil => exact absurd rfl nonempty
  | cons line lines ih =>
    cases lines with
    | nil => simp [write, List.intercalate]
    | cons next lines =>
      have rest := ih (List.cons_ne_nil _ _)
      rw [List.map_cons] at rest
      rw [List.map_cons, List.map_cons, List.intercalate_cons_cons, List.append_assoc, rest, write, write]
      rfl

/-! ### Reading -/

/-- The text up to the closing quote, and what is left. -/
def readQuoted : List Char → Option (List Char × List Char)
  | [] => none
  | '"' :: rest => some ([], rest)
  | '\\' :: '\\' :: rest => (readQuoted rest).map fun (text, rest) => ('\\' :: text, rest)
  | '\\' :: '"' :: rest => (readQuoted rest).map fun (text, rest) => ('"' :: text, rest)
  | '\\' :: 'n' :: rest => (readQuoted rest).map fun (text, rest) => ('\n' :: text, rest)
  | '\\' :: _ => none
  | c :: rest => (readQuoted rest).map fun (text, rest) => (c :: text, rest)

def readLabel (text : List Char) : Option (Label × List Char) :=
  match text.dropWhile (· ≠ '=') with
  | '=' :: '"' :: rest => (readQuoted rest).map fun (value, rest) => ((text.takeWhile (· ≠ '='), value), rest)
  | _ => none

/-- The labels up to the closing brace, and what is left. -/
def readLabels : Nat → List Char → Option (List Label × List Char)
  | 0, _ => none
  | fuel + 1, text =>
    match readLabel text with
    | some (label, '}' :: rest) => some ([label], rest)
    | some (label, ',' :: rest) => (readLabels fuel rest).map fun (labels, rest) => (label :: labels, rest)
    | _ => none

def inName (c : Char) : Bool := c ≠ '{' && c ≠ ' '

def readSample (line : List Char) : Option Sample :=
  match line.dropWhile inName with
  | ' ' :: value => some ⟨line.takeWhile inName, [], value⟩
  | '{' :: rest =>
    match readLabels rest.length rest with
    | some (labels, ' ' :: value) => some ⟨line.takeWhile inName, labels, value⟩
    | _ => none
  | _ => none

def isSample (line : List Char) : Bool := line ≠ [] && line.head? ≠ some '#'

/-- The samples of a page; `none` if a line is not one. -/
def read (page : List Char) : Option (List Sample) := ((page.splitOn '\n').filter isSample).mapM readSample

/-! ### A page that was written is read back -/

/-- Names end where their delimiters are, and no line ends before its end. -/
structure Sample.Proper (s : Sample) : Prop where
  nonempty : s.name ≠ []
  comment : s.name.head? ≠ some '#'
  name : ∀ c ∈ s.name, inName c = true ∧ c ≠ '\n'
  labels : ∀ label ∈ s.labels, ∀ c ∈ label.1, c ≠ '=' ∧ c ≠ '\n'
  value : '\n' ∉ s.value

def Line.Proper : Line → Prop
  | .comment text => '\n' ∉ text
  | .sample s => s.Proper

section Labels

variable {text rest : List Char} {label : Label} {labels : List Label}

theorem readQuoted_escapeChar (c : Char) (rest : List Char) :
    readQuoted (escapeChar c ++ rest) = (readQuoted rest).map fun (text, rest) => (c :: text, rest) := by
  unfold escapeChar
  split
  · next same =>
    subst same
    rfl
  · next backslash =>
    split
    · next same =>
      subst same
      rfl
    · next quote =>
      split
      · next same =>
        subst same
        rfl
      · rw [List.singleton_append, readQuoted]
        all_goals simp_all

theorem readQuoted_escape (text rest : List Char) : readQuoted (escape text ++ '"' :: rest) = some (text, rest) := by
  induction text with
  | nil => rfl
  | cons c text ih =>
    rw [escape, List.flatMap_cons, List.append_assoc, readQuoted_escapeChar, ← escape, ih]
    rfl

theorem takeWhile_until {p : Char → Bool} {c : Char} (within : ∀ d ∈ text, p d = true) (stop : p c = false)
    (rest : List Char) :
    (text ++ c :: rest).takeWhile p = text ∧ (text ++ c :: rest).dropWhile p = c :: rest := by
  have stops : (c :: rest).takeWhile p = [] := by rw [List.takeWhile_cons, stop, if_neg Bool.false_ne_true]
  have stays : (c :: rest).dropWhile p = c :: rest := by rw [List.dropWhile_cons, stop, if_neg Bool.false_ne_true]
  constructor
  · rw [List.takeWhile_append_of_pos within, stops, List.append_nil]
  · rw [List.dropWhile_append_of_pos within, stays]

theorem readLabel_writeLabel (name : ∀ c ∈ label.1, c ≠ '=') (rest : List Char) :
    readLabel (writeLabel label ++ rest) = some (label, rest) := by
  obtain ⟨taken, dropped⟩ := takeWhile_until (p := (· ≠ '=')) (c := '=') (fun d mem => decide_eq_true (name d mem)) (by decide)
    ('"' :: (escape label.2 ++ '"' :: rest))
  have whole : writeLabel label ++ rest = label.1 ++ '=' :: '"' :: (escape label.2 ++ '"' :: rest) := by simp [writeLabel]
  rw [readLabel, whole, taken, dropped]
  exact congrArg (Option.map fun (value, rest) => ((label.1, value), rest)) (readQuoted_escape label.2 rest)

theorem writeLabels_cons_cons (label next : Label) (labels : List Label) :
    writeLabels (label :: next :: labels) = writeLabel label ++ ',' :: writeLabels (next :: labels) := by
  simp [writeLabels, List.intercalate]

theorem writeLabels_singleton (label : Label) : writeLabels [label] = writeLabel label := by simp [writeLabels, List.intercalate]

theorem writeLabels_concat (label : Label) (nonempty : labels ≠ []) :
    writeLabels (labels ++ [label]) = writeLabels labels ++ ',' :: writeLabel label := by
  induction labels with
  | nil => exact absurd rfl nonempty
  | cons first labels ih =>
    cases labels with
    | nil => rw [List.singleton_append, writeLabels_cons_cons, writeLabels_singleton, writeLabels_singleton]
    | cons next labels =>
      rw [List.cons_append, List.cons_append, writeLabels_cons_cons, ← List.cons_append, ih (List.cons_ne_nil _ _),
        writeLabels_cons_cons, List.append_assoc]
      rfl

theorem writeLabels_eq_nil : writeLabels labels = [] ↔ labels = [] := by
  cases labels with
  | nil => simp [writeLabels]
  | cons label labels =>
    cases labels with
    | nil => simp [writeLabels_singleton, writeLabel]
    | cons next labels => simp [writeLabels_cons_cons]

/-- A text without anything to escape. -/
theorem escape_of_plain (plain : ∀ c ∈ text, c ≠ '\\' ∧ c ≠ '"' ∧ c ≠ '\n') : escape text = text := by
  induction text with
  | nil => rfl
  | cons c text ih =>
    obtain ⟨⟨backslash, quote, newline⟩, rest⟩ := List.forall_mem_cons.mp plain
    rw [escape, List.flatMap_cons, escapeChar, if_neg backslash, if_neg quote, if_neg newline, ← escape, ih rest]
    rfl

theorem readLabels_writeLabels (names : ∀ label ∈ labels, ∀ c ∈ label.1, c ≠ '=') (nonempty : labels ≠ []) (rest : List Char)
    {fuel : Nat} (enough : labels.length ≤ fuel) :
    readLabels fuel (writeLabels labels ++ '}' :: rest) = some (labels, rest) := by
  induction labels generalizing fuel with
  | nil => exact absurd rfl nonempty
  | cons label labels ih =>
    obtain ⟨first, others⟩ := List.forall_mem_cons.mp names
    cases fuel with
    | zero => exact absurd enough (by simp)
    | succ fuel =>
      cases labels with
      | nil =>
        rw [writeLabels_singleton, readLabels, readLabel_writeLabel first]
        rfl
      | cons next labels =>
        have rest_read := ih others (List.cons_ne_nil _ _) (Nat.le_of_succ_le_succ enough)
        rw [writeLabels_cons_cons, List.append_assoc, readLabels, readLabel_writeLabel first]
        exact congrArg (Option.map fun (labels, rest) => (label :: labels, rest)) rest_read

theorem length_le_writeLabels (labels : List Label) : labels.length ≤ (writeLabels labels).length := by
  induction labels with
  | nil => exact Nat.zero_le _
  | cons label labels ih =>
    cases labels with
    | nil =>
      simp only [writeLabels_singleton, writeLabel, List.length_append, List.length_cons, List.length_nil]
      omega
    | cons next labels =>
      rw [writeLabels_cons_cons]
      simp only [List.length_append, List.length_cons, writeLabel] at ih ⊢
      omega

end Labels

theorem Sample.Proper.read {s : Sample} (h : s.Proper) : readSample s.write = some s := by
  obtain ⟨name, labels, value⟩ := s
  have named : ∀ c ∈ name, inName c = true := fun c mem => (h.name c mem).1
  unfold readSample Sample.write
  dsimp only
  by_cases bare : labels = []
  · subst bare
    rw [if_pos rfl, List.nil_append]
    obtain ⟨taken, dropped⟩ := takeWhile_until (c := ' ') named (by decide) value
    rw [taken, dropped]
    rfl
  · rw [if_neg bare]
    have whole : name ++ (('{' :: (writeLabels labels ++ ['}'])) ++ ' ' :: value) =
        name ++ '{' :: (writeLabels labels ++ '}' :: ' ' :: value) := by simp
    obtain ⟨taken, dropped⟩ := takeWhile_until (c := '{') named (by decide) (writeLabels labels ++ '}' :: ' ' :: value)
    have names : ∀ label ∈ labels, ∀ c ∈ label.1, c ≠ '=' := fun label mem c mem' => (h.labels label mem c mem').1
    have enough : labels.length ≤ (writeLabels labels ++ '}' :: ' ' :: value).length := by
      rw [List.length_append]
      exact Nat.le_add_right_of_le (length_le_writeLabels labels)
    have labelled := readLabels_writeLabels names bare (' ' :: value) enough
    rw [whole, taken, dropped]
    show (match readLabels _ _ with | some (labels, ' ' :: value) => some (Sample.mk name labels value) | _ => none) = _
    rw [labelled]
    rfl

theorem not_mem_escape (text : List Char) : '\n' ∉ escape text := by
  intro mem
  obtain ⟨c, -, mem⟩ := List.mem_flatMap.mp mem
  unfold escapeChar at mem
  split at mem
  · simp at mem
  · split at mem
    · simp at mem
    · split at mem
      · simp at mem
      · next other => exact other (List.mem_singleton.mp mem).symm

theorem not_mem_writeLabels {labels : List Label} (names : ∀ label ∈ labels, ∀ c ∈ label.1, c ≠ '\n') :
    '\n' ∉ writeLabels labels := by
  induction labels with
  | nil => simp [writeLabels]
  | cons label labels ih =>
    obtain ⟨first, others⟩ := List.forall_mem_cons.mp names
    have one : '\n' ∉ writeLabel label := by
      have quoted := not_mem_escape label.2
      have named : '\n' ∉ label.1 := fun mem => first _ mem rfl
      simp [writeLabel, quoted, named]
    cases labels with
    | nil => rwa [writeLabels_singleton]
    | cons next labels =>
      rw [writeLabels_cons_cons]
      simp [one, ih others]

theorem Line.Proper.not_mem {line : Line} (h : line.Proper) : '\n' ∉ line.write := by
  cases line with
  | comment text =>
    have free : '\n' ∉ text := h
    simpa [Line.write] using free
  | sample s =>
    have names : ∀ label ∈ s.labels, ∀ c ∈ label.1, c ≠ '\n' := fun label mem c mem' => (h.labels label mem c mem').2
    have named : '\n' ∉ s.name := fun mem => (h.name _ mem).2 rfl
    have labelled := not_mem_writeLabels names
    have valued := h.value
    rw [Line.write, Sample.write]
    split <;> simp [named, labelled, valued]

theorem splitOn_write {lines : List Line} (proper : ∀ line ∈ lines, line.Proper) :
    (write lines).splitOn '\n' = lines.map Line.write ++ [[]] := by
  induction lines with
  | nil => rfl
  | cons line lines ih =>
    obtain ⟨first, others⟩ := List.forall_mem_cons.mp proper
    have alone : (line.write).splitOn '\n' = [line.write] := by
      refine List.splitOnP_eq_singleton fun c mem => ?_
      have other : c ≠ '\n' := fun same => first.not_mem (same ▸ mem)
      simpa using other
    rw [write, List.flatMap_cons, List.append_assoc, List.singleton_append, List.splitOn,
      List.splitOnP_append_cons _ _ (by simp), ← List.splitOn, ← List.splitOn, alone, ← write, ih others]
    rfl

theorem isSample_write {line : Line} (h : line.Proper) : isSample line.write = line.sample?.isSome := by
  cases line with
  | comment text => rfl
  | sample s =>
    obtain ⟨c, name, eq⟩ := List.exists_cons_of_ne_nil h.nonempty
    have comment := h.comment
    rw [eq, List.head?_cons] at comment
    rw [Line.write, Sample.write, eq, List.cons_append]
    simpa [isSample, Line.sample?] using comment

/-- A page is read back as its samples, in order: what a label says is in its value, and makes neither another label
    nor another line. -/
theorem read_write {lines : List Line} (proper : ∀ line ∈ lines, line.Proper) :
    read (write lines) = some (lines.filterMap Line.sample?) := by
  rw [read, splitOn_write proper, List.filter_append]
  have last : List.filter isSample [[]] = [] := rfl
  rw [last, List.append_nil]
  induction lines with
  | nil => rfl
  | cons line lines ih =>
    obtain ⟨first, others⟩ := List.forall_mem_cons.mp proper
    have rest := ih others
    have sample := isSample_write first
    cases line with
    | comment text =>
      rw [List.map_cons, List.filter_cons_of_neg (by rw [sample]; exact Bool.false_ne_true), rest]
      rfl
    | sample s =>
      have back : readSample (Line.sample s).write = some s := Sample.Proper.read first
      rw [List.map_cons, List.filter_cons_of_pos sample, List.mapM_cons, back, rest]
      rfl

end Exposition
