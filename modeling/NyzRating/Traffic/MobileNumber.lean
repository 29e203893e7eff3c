import NyzRating.Lib.CharClass
import NyzRating.Traffic.SmsSends

/-!
# Hungarian mobile numbers

How a number is written, which texts are read as one, and what is stored of it.

Source: `apps/traffic/domain/hu_mobile_phone.py`.
-/

namespace NyzRating.Traffic.Phone

/-! ### Numbers as they are written -/

/-- How a text begins. -/
inductive Lead where
  | plus | zeros | bare
  deriving DecidableEq, Repr

def lead : List Char → Lead
  | '+' :: _ => .plus
  | '0' :: '0' :: _ => .zeros
  | _ => .bare

/-- The digits of a text that begins so are those of the number behind the country code 36: the code is written after a plus,
    after two zeros or without them; or the number stands behind 06, behind the 6 of it, or for itself. -/
inductive Written : Lead → (digits number : List Char) → Prop where
  | plus (n : List Char) : Written .plus ('3' :: '6' :: n) n
  | zeros (n : List Char) : Written .zeros ('0' :: '0' :: '3' :: '6' :: n) n
  | code (n : List Char) : Written .bare ('3' :: '6' :: n) n
  | trunk (n : List Char) : Written .bare ('0' :: '6' :: n) n
  | cut (n : List Char) : n.length = 9 → Written .bare ('6' :: n) n
  | itself (n : List Char) : n.length = 9 → n.take 2 ∈ mobilePrefixes → Written .bare n n

/-- The digits of a number are among the digits that are written. -/
theorem Written.sublist {begin : Lead} {d n : List Char} (h : Written begin d n) : n.Sublist d := by
  cases h with
  | plus => exact (List.sublist_cons_self _ _).cons _
  | zeros => exact (((List.sublist_cons_self _ _).cons _).cons _).cons _
  | code => exact (List.sublist_cons_self _ _).cons _
  | trunk => exact (List.sublist_cons_self _ _).cons _
  | cut => exact List.sublist_cons_self _ _
  | itself => exact List.Sublist.refl _

/-! ### The reading -/

def separators : List Char := ['.', '/', '(', ')', '-']

/-- The text without spaces and separators. -/
def compact (space : Char → Bool) (value : String) : List Char :=
  value.toList.filter fun c => !(space c || separators.contains c)

local instance lawfulAreas : LawfulBEq (List Char) := inferInstance

/-- The digits of a number without its international code, completed. -/
def complete (digits : List Char) : List Char :=
  if ['0', '6'].isPrefixOf digits then '3' :: '6' :: digits.drop 2
  else if ['6'].isPrefixOf digits ∧ digits.length = 10 then '3' :: digits
  else if digits.length = 9 ∧ digits.take 2 ∈ mobilePrefixes then '3' :: '6' :: digits
  else digits

def accept (digits : List Char) : List Char := if ['3', '6'].isPrefixOf digits then '+' :: digits else []

/-- What is stored of a compact text, for what a language takes for a digit. -/
def dial (digit : Char → Bool) (raw : List Char) : List Char :=
  let raw := if ['0', '0'].isPrefixOf raw then '+' :: raw.drop 2 else raw
  accept <| match raw with
    | '+' :: rest => rest.filter digit
    | _ => complete (raw.filter digit)

/-- `+36` and nine digits, the first two of them a mobile prefix. -/
def isMobile (digit : Char → Bool) : List Char → Bool
  | '+' :: '3' :: '6' :: subscriber =>
    subscriber.length = 9 && subscriber.all digit && mobilePrefixes.contains (subscriber.take 2)
  | _ => false

theorem normalizeHuMobile_eq_dial (isdigit : Char → Bool) (value : String) :
    normalizeHuMobile isdigit value = dial isdigit (compact Text.isSpace value) := rfl

theorem isValidHuMobile_eq_isMobile (isdigit : Char → Bool) (value : String) :
    isValidHuMobile isdigit value = isMobile isdigit (dial isdigit (compact Text.isSpace value)) := rfl

theorem accept_eq {d n : List Char} : accept d = '+' :: '3' :: '6' :: n ↔ d = '3' :: '6' :: n := by
  unfold accept
  constructor
  · intro stored
    split at stored
    · exact (List.cons.inj stored).2
    · cases stored
  · rintro rfl
    rfl

/-- What is stored is empty, or begins with the country code. -/
theorem accept_cases (d : List Char) : accept d = [] ∨ ∃ n, accept d = '+' :: '3' :: '6' :: n := by
  unfold accept
  split
  · next code =>
    obtain ⟨n, rfl⟩ := List.isPrefixOf_iff_prefix.mp code
    exact .inr ⟨n, rfl⟩
  · exact .inl rfl

/-- A number that begins with a mobile prefix does not begin with a trunk prefix or the country code. -/
theorem of_area {d : List Char} (area : d.take 2 ∈ mobilePrefixes) :
    ['0', '6'].isPrefixOf d = false ∧ ['6'].isPrefixOf d = false ∧ ['3', '6'].isPrefixOf d = false := by
  match d, area with
  | a :: b :: rest, area =>
    have all : ∀ area ∈ mobilePrefixes, ['0', '6'].isPrefixOf area = false ∧ ['6'].isPrefixOf area = false ∧
        ['3', '6'].isPrefixOf area = false := by decide
    exact all [a, b] area
  | [a], area => exact absurd (List.mem_map.mp area) (by simp)
  | [], area => exact absurd (List.mem_map.mp area) (by simp)

theorem complete_eq {d n : List Char} : complete d = '3' :: '6' :: n ↔ Written .bare d n := by
  constructor
  · intro completed
    unfold complete at completed
    split at completed
    · next trunk =>
      obtain ⟨t, rfl⟩ := List.isPrefixOf_iff_prefix.mp trunk
      obtain rfl : t = n := by simpa using completed
      exact .trunk t
    · split at completed
      · next cut =>
        obtain ⟨t, rfl⟩ := List.isPrefixOf_iff_prefix.mp cut.1
        obtain rfl : t = n := by simpa using completed
        exact .cut t (by simpa using cut.2)
      · split at completed
        · next itself =>
          obtain rfl : d = n := by simpa using completed
          exact .itself d itself.1 itself.2
        · rw [completed]
          exact .code n
  · intro written
    cases written with
    | code =>
      have other : ¬('3' :: '6' :: n).take 2 ∈ mobilePrefixes := fun area => absurd (of_area area).2.2 (by simp)
      rw [complete, if_neg (by simp), if_neg (by simp), if_neg fun both => other both.2]
    | trunk => rfl
    | cut _ nine => rw [complete, if_neg (by simp), if_pos ⟨rfl, by simpa using nine⟩]
    | itself _ nine area =>
      obtain ⟨trunk, cut, -⟩ := of_area area
      rw [complete, trunk, cut, if_neg (by simp), if_neg (by simp), if_pos ⟨nine, area⟩]

theorem lead_cases (raw : List Char) : (∃ rest, raw = '+' :: rest) ∨ (∃ rest, raw = '0' :: '0' :: rest) ∨
    lead raw = .bare ∧ (∀ rest, raw ≠ '+' :: rest) ∧ ∀ rest, raw ≠ '0' :: '0' :: rest := by
  unfold lead
  split
  · next rest => exact .inl ⟨rest, rfl⟩
  · next rest => exact .inr (.inl ⟨rest, rfl⟩)
  · next plus zeros => exact .inr (.inr ⟨rfl, plus, zeros⟩)

theorem dial_bare (digit : Char → Bool) {raw : List Char} (plus : ∀ rest, raw ≠ '+' :: rest) (zeros : ∀ rest, raw ≠ '0' :: '0' :: rest) :
    dial digit raw = accept (complete (raw.filter digit)) := by
  have other : ¬['0', '0'].isPrefixOf raw = true := by
    intro code
    obtain ⟨rest, same⟩ := List.isPrefixOf_iff_prefix.mp code
    exact zeros rest same.symm
  unfold dial
  rw [if_neg other]
  dsimp only
  split
  · exact absurd rfl (plus _)
  · rfl

theorem dial_cases (digit : Char → Bool) (raw : List Char) : dial digit raw = [] ∨ ∃ n, dial digit raw = '+' :: '3' :: '6' :: n :=
  accept_cases _

/-- Digits are neither spaces nor separators, and those of ASCII are among them. -/
structure Classes (space digit : Char → Bool) : Prop where
  ascii : ∀ c : Char, c.isDigit = true → digit c = true
  apart : ∀ c, digit c = true → space c = false ∧ c ∉ separators ∧ c ≠ '+'
  plus : space '+' = false

section
variable {space digit : Char → Bool} (classes : Classes space digit)
include classes

theorem Classes.filter_compact (value : String) : (compact space value).filter digit = value.toList.filter digit := by
  rw [compact, List.filter_filter]
  refine List.filter_congr fun c _ => ?_
  cases is : digit c with
  | false => rfl
  | true =>
    obtain ⟨space', separator, -⟩ := classes.apart c is
    simp [space', separator]

/-- The reading is that of the digits, by how the text begins. -/
theorem Classes.dial_eq {raw n : List Char} : dial digit raw = '+' :: '3' :: '6' :: n ↔ Written (lead raw) (raw.filter digit) n := by
  have zero : digit '0' = true := classes.ascii '0' rfl
  have plus : digit '+' = false := by
    rw [← Bool.not_eq_true]
    exact fun is => (classes.apart '+' is).2.2 rfl
  have read : ∀ {begin : Lead} {code digits : List Char}, (∀ d n, Written begin d n ↔ d = code ++ '3' :: '6' :: n) →
      (accept digits = '+' :: '3' :: '6' :: n ↔ Written begin (code ++ digits) n) := by
    intro begin code digits written
    rw [accept_eq, written, List.append_cancel_left_eq]
  rcases lead_cases raw with ⟨rest, rfl⟩ | ⟨rest, rfl⟩ | ⟨bare, plus', zeros⟩
  · have digits : ('+' :: rest).filter digit = [] ++ rest.filter digit := List.filter_cons_of_neg (by simp [plus])
    rw [digits]
    refine read fun d n => ⟨fun written => ?_, fun same => same ▸ .plus n⟩
    cases written
    rfl
  · have digits : ('0' :: '0' :: rest).filter digit = ['0', '0'] ++ rest.filter digit := by
      rw [List.filter_cons_of_pos zero, List.filter_cons_of_pos zero]
      rfl
    rw [digits]
    refine read fun d n => ⟨fun written => ?_, fun same => same ▸ .zeros n⟩
    cases written
    rfl
  · rw [dial_bare digit plus' zeros, bare, accept_eq, complete_eq]

/-- What is stored is read as it stands. -/
theorem Classes.dial_dial (value : String) :
    dial digit (compact space (String.ofList (dial digit (compact space value)))) = dial digit (compact space value) := by
  rcases dial_cases digit (compact space value) with empty | ⟨n, stored⟩
  · rw [empty]
    rfl
  · have digits : ∀ c ∈ '3' :: '6' :: n, digit c = true := by
      have written := (classes.dial_eq.mp stored).sublist
      intro c mem
      rcases List.mem_cons.mp mem with rfl | mem
      · exact classes.ascii _ rfl
      · rcases List.mem_cons.mp mem with rfl | mem
        · exact classes.ascii _ rfl
        · exact (List.mem_filter.mp (written.subset mem)).2
    have kept : compact space (String.ofList ('+' :: '3' :: '6' :: n)) = '+' :: '3' :: '6' :: n := by
      rw [compact, String.toList_ofList]
      refine List.filter_eq_self.mpr fun c mem => ?_
      rcases List.mem_cons.mp mem with rfl | mem
      · rw [classes.plus]
        rfl
      · obtain ⟨space', separator, -⟩ := classes.apart c (digits c mem)
        simp [space', separator]
    rw [stored, kept, classes.dial_eq]
    have filtered : ('+' :: '3' :: '6' :: n).filter digit = '3' :: '6' :: n := by
      rw [List.filter_cons_of_neg, List.filter_eq_self.mpr digits]
      intro is
      exact (classes.apart '+' is).2.2 rfl
    rw [filtered]
    exact .plus n

/-- The stored number is accepted where it is a mobile prefix and seven digits. -/
theorem Classes.isMobile_iff (value : String) : isMobile digit (dial digit (compact space value)) = true ↔
    ∃ area ∈ mobilePrefixes, ∃ subscriber : List Char, subscriber.length = 7 ∧
      dial digit (compact space value) = '+' :: '3' :: '6' :: (area ++ subscriber) := by
  constructor
  · intro valid
    unfold isMobile at valid
    split at valid
    · next subscriber stored =>
      simp only [Bool.and_eq_true, decide_eq_true_eq, List.contains_iff_mem] at valid
      obtain ⟨⟨nine, -⟩, mobile⟩ := valid
      refine ⟨subscriber.take 2, mobile, subscriber.drop 2, by rw [List.length_drop, nine], ?_⟩
      rw [stored, List.take_append_drop]
    · cases valid
  · rintro ⟨area, mobile, subscriber, seven, stored⟩
    have two : area.length = 2 := by
      have all : ∀ area ∈ mobilePrefixes, area.length = 2 := by decide
      exact all area mobile
    have digits : (area ++ subscriber).all digit = true := by
      refine List.all_eq_true.mpr fun c mem => ?_
      exact (List.mem_filter.mp ((classes.dial_eq.mp stored).sublist.subset mem)).2
    rw [stored]
    simp [isMobile, digits, two, seven, mobile, List.take_left' two]

end

/-! ### On the server -/

theorem classes_server : Classes Text.isSpace Text.isDecimal where
  ascii _ digit := Text.isDecimal_of_isDigit digit
  apart c decimal := by
    have space : Text.isSpace c = false := by
      rw [← Bool.not_eq_true]
      intro space
      rw [Text.isDecimal_of_space (.inl space)] at decimal
      cases decimal
    have others : ∀ d ∈ '+' :: separators, Text.isDecimal d = false := Text.forall_of_all (by decide)
    refine ⟨space, fun mem => ?_, ?_⟩
    · rw [others c (List.mem_cons_of_mem _ mem)] at decimal
      cases decimal
    · rintro rfl
      cases decimal
  plus := by decide

/-- What the two functions promise of a text. -/
structure Dependable (value : String) : Prop where
  form : isValidHuMobile Text.isDecimal value = true → ∃ area ∈ mobilePrefixes, ∃ subscriber : List Char,
    normalizeHuMobile Text.isDecimal value = '+' :: '3' :: '6' :: (area ++ subscriber) ∧ subscriber.length = 7 ∧
      ∀ c ∈ subscriber, c.isDigit = true
  idempotent : normalizeHuMobile Text.isDecimal (String.ofList (normalizeHuMobile Text.isDecimal value)) =
    normalizeHuMobile Text.isDecimal value
  valid : isValidHuMobile Text.isDecimal value =
    isValidHuMobile Text.isDecimal (String.ofList (normalizeHuMobile Text.isDecimal value))

theorem normalizeHuMobile_eq_iff {value : String} {n : List Char} :
    normalizeHuMobile Text.isDecimal value = '+' :: '3' :: '6' :: n ↔
      Written (lead (compact Text.isSpace value)) (value.toList.filter Text.isDecimal) n := by
  rw [normalizeHuMobile_eq_dial, classes_server.dial_eq, classes_server.filter_compact]

theorem Dependable.ascii {value : String} (h : Dependable value) {area subscriber : List Char} (mobile : area ∈ mobilePrefixes)
    (seven : subscriber.length = 7)
    (written : Written (lead (compact Text.isSpace value)) (value.toList.filter Text.isDecimal) (area ++ subscriber)) :
    ∀ c ∈ subscriber, c.isDigit = true := by
  have stored := normalizeHuMobile_eq_iff.mpr written
  have valid : isValidHuMobile Text.isDecimal value = true :=
    (classes_server.isMobile_iff value).mpr ⟨area, mobile, subscriber, seven, stored⟩
  obtain ⟨area', -, subscriber', stored', seven', ascii⟩ := h.form valid
  have same : area' ++ subscriber' = area ++ subscriber := by simpa [stored] using stored'.symm
  obtain ⟨-, rfl⟩ := List.append_inj' same (seven'.trans seven.symm)
  exact ascii

/-- The promise is kept unless the text is a mobile number whose last seven digits are not all of ASCII. -/
theorem mobile_dependable_iff (value : String) : Dependable value ↔ ∀ area ∈ mobilePrefixes, ∀ subscriber : List Char,
    subscriber.length = 7 →
    Written (lead (compact Text.isSpace value)) (value.toList.filter Text.isDecimal) (area ++ subscriber) →
    ∀ c ∈ subscriber, c.isDigit = true := by
  constructor
  · exact fun kept area mobile subscriber seven written => kept.ascii mobile seven written
  · intro ascii
    refine ⟨fun valid => ?_, ?_, ?_⟩
    · obtain ⟨area, mobile, subscriber, seven, stored⟩ := (classes_server.isMobile_iff value).mp valid
      exact ⟨area, mobile, subscriber, stored, seven, ascii area mobile subscriber seven (normalizeHuMobile_eq_iff.mp stored)⟩
    · rw [normalizeHuMobile_eq_dial, normalizeHuMobile_eq_dial]
      exact classes_server.dial_dial value
    · rw [isValidHuMobile_eq_isMobile, isValidHuMobile_eq_isMobile, normalizeHuMobile_eq_dial, classes_server.dial_dial]

/-- The last seven digits of the number are Arabic. -/
theorem not_dependable_mobile : ¬Dependable "+36 20 ١٢٣ ٤٥٦٧" := by
  intro kept
  have begins : lead (compact Text.isSpace "+36 20 ١٢٣ ٤٥٦٧") = .plus := by decide +kernel
  have digits : "+36 20 ١٢٣ ٤٥٦٧".toList.filter Text.isDecimal = '3' :: '6' :: (['2', '0'] ++ "١٢٣٤٥٦٧".toList) := by
    decide +kernel
  have written : Written (lead (compact Text.isSpace "+36 20 ١٢٣ ٤٥٦٧"))
      ("+36 20 ١٢٣ ٤٥٦٧".toList.filter Text.isDecimal) (['2', '0'] ++ "١٢٣٤٥٦٧".toList) := by
    rw [begins, digits]
    exact .plus _
  exact absurd (kept.ascii (by decide) (by decide) written '١' (by decide)) (by decide)

end NyzRating.Traffic.Phone
