import Mathlib.Algebra.GroupWithZero.Nat
import NyzRating.Lib.CharClass

/-!
# Hungarian tax ids

The digits that are taken out of a text, how they are stored, and which texts pass for the tax id of a company.

Source: `apps/settings/domain/hu_tax_id.py`.
-/

namespace NyzRating.Settings.TaxId

def weights : List Nat := [9, 7, 3, 1, 9, 7, 3, 1]

def cutCountry (compact : List Char) : List Char := if ['H', 'U'].isPrefixOf compact then compact.drop 2 else compact

/-- The first eleven digits of a text, for what a language takes for a space and for a digit. -/
def taxDigits (space digit : Char → Bool) (value : String) : List Char :=
  let compact := Text.upper (value.toList.filter fun c => !(space c || c = '.'))
  ((cutCountry compact).filter digit).take 11

/-- Eight digits, a hyphen, one digit, a hyphen, two digits, as far as there are digits. -/
def format (digits : List Char) : List Char :=
  if digits.length ≤ 8 then digits
  else if digits.length = 9 then digits.take 8 ++ '-' :: digits.drop 8
  else digits.take 8 ++ '-' :: (digits.drop 8).take 1 ++ '-' :: digits.drop 9

def weighted (digits : List Char) : Nat := (List.zipWith (· * ·) weights (digits.map Text.digitValue)).sum

def digitsOnly (value : String) : List Char := taxDigits Text.isSpace Text.isDecimal value

def normalizeHuTaxId (value : String) : List Char := format (digitsOnly value)

def checksumOk (digits : List Char) : Bool := digits.length = 8 && digits.all Text.isDecimal && weighted digits % 10 = 0

def isValidHuTaxId (value : String) : Bool :=
  let digits := digitsOnly value
  digits.length = 11 && checksumOk (digits.take 8)

/-! ### The digits of a text -/

theorem filter_isDigit_upper (s : List Char) : (Text.upper s).filter Char.isDigit = s.filter Char.isDigit := by
  rw [← Text.filter_isDigit, Text.filter_isDecimal_upper, Text.filter_isDigit]

/-- Neither upper case nor the country code has to do with the digits. -/
theorem filter_cutCountry {keep digit : Char → Bool} (upper : ∀ s, (Text.upper s).filter digit = s.filter digit)
    (kept : ∀ c, digit c = true → keep c = true) (code : digit 'H' = false ∧ digit 'U' = false) (s : List Char) :
    (cutCountry (Text.upper (s.filter keep))).filter digit = s.filter digit := by
  have behind : ∀ s : List Char, (cutCountry s).filter digit = s.filter digit := by
    intro s
    unfold cutCountry
    split
    · next country =>
      obtain ⟨rest, rfl⟩ := List.isPrefixOf_iff_prefix.mp country
      simp [code.1, code.2]
    · rfl
  rw [behind, upper, List.filter_filter]
  refine List.filter_congr fun c _ => ?_
  cases is : digit c with
  | false => rfl
  | true => rw [kept c is, Bool.and_self]

theorem space_of_isDecimal {c : Char} (decimal : Text.isDecimal c = true) : Text.isSpace c = false ∧ Text.isSpaceJs c = false := by
  constructor
  · rw [← Bool.not_eq_true]
    intro space
    rw [Text.isDecimal_of_space (.inl space)] at decimal
    cases decimal
  · rw [← Bool.not_eq_true]
    intro space
    rw [Text.isDecimal_of_space (.inr space)] at decimal
    cases decimal

theorem digitsOnly_eq (value : String) : digitsOnly value = (value.toList.filter Text.isDecimal).take 11 := by
  have kept : ∀ c, Text.isDecimal c = true → (!(Text.isSpace c || c = '.')) = true := by
    intro c decimal
    have point : c ≠ '.' := by
      rintro rfl
      cases decimal
    rw [(space_of_isDecimal decimal).1, decide_eq_false point]
    rfl
  exact congrArg (List.take 11) (filter_cutCountry Text.filter_isDecimal_upper kept (by decide) value.toList)

theorem filter_format {digit : Char → Bool} (hyphen : digit '-' = false) {digits : List Char}
    (all : ∀ c ∈ digits, digit c = true) : (format digits).filter digit = digits := by
  have kept : ∀ part : List Char, part.Sublist digits → part.filter digit = part :=
    fun part sub => List.filter_eq_self.mpr fun c mem => all c (sub.subset mem)
  unfold format
  split
  · exact kept digits (List.Sublist.refl _)
  · split
    · rw [List.filter_append, List.filter_cons_of_neg (by simp [hyphen]), kept _ (List.take_sublist _ _),
        kept _ (List.drop_sublist _ _), List.take_append_drop]
    · have check : ((digits.drop 8).take 1).filter digit = (digits.drop 8).take 1 :=
        kept _ ((List.take_sublist _ _).trans (List.drop_sublist _ _))
      rw [List.filter_append, List.filter_append, List.filter_cons_of_neg (by simp [hyphen]),
        List.filter_cons_of_neg (by simp [hyphen]), kept _ (List.take_sublist _ _), kept _ (List.drop_sublist _ _), check,
        List.append_assoc]
      have rest : (digits.drop 8).take 1 ++ digits.drop 9 = digits.drop 8 := by
        rw [← List.drop_drop (i := 1) (j := 8), List.take_append_drop]
      rw [rest, List.take_append_drop]

/-- The digits of the stored form are those of the text. -/
theorem digitsOnly_normalize (value : String) : digitsOnly (String.ofList (normalizeHuTaxId value)) = digitsOnly value := by
  have decimals : ∀ c ∈ digitsOnly value, Text.isDecimal c = true := by
    rw [digitsOnly_eq]
    exact fun c mem => (List.mem_filter.mp (List.mem_of_mem_take mem)).2
  rw [digitsOnly_eq, String.toList_ofList, normalizeHuTaxId, filter_format (by decide) decimals, digitsOnly_eq, List.take_take,
    Nat.min_self]

/-! ### Tax ids -/

/-- The country code, if it is written. -/
def countries : List (List Char) := [[], ['H', 'U'], ['H', 'u'], ['h', 'U'], ['h', 'u']]

/-- The text is eleven digits of ASCII, behind a country code or not, and has no other letter or digit. -/
structure Plain (isalnum : Char → Bool) (value : String) : Prop where
  length : (value.toList.filter Text.isDecimal).length = 11
  ascii : ∀ c ∈ value.toList.filter Text.isDecimal, c.isDigit = true
  alone : ∃ country ∈ countries, value.toList.filter (fun c => Text.isDecimal c || isalnum c) =
    country ++ value.toList.filter Text.isDecimal

/-- What the two functions promise of a text, where `isalnum` tells letters and digits. -/
structure Dependable (isalnum : Char → Bool) (value : String) : Prop where
  form : isValidHuTaxId value = true → ∃ (eight county : List Char) (check : Char),
    normalizeHuTaxId value = eight ++ '-' :: check :: '-' :: county ∧ eight.length = 8 ∧ county.length = 2 ∧
      (∀ c ∈ eight ++ check :: county, c.isDigit = true) ∧ weighted eight % 10 = 0 ∧
      ∃ country ∈ countries, value.toList.filter (fun c => Text.isDecimal c || isalnum c) = country ++ (eight ++ check :: county)
  idempotent : normalizeHuTaxId (String.ofList (normalizeHuTaxId value)) = normalizeHuTaxId value
  valid : isValidHuTaxId value = isValidHuTaxId (String.ofList (normalizeHuTaxId value))

theorem isValidHuTaxId_iff {value : String} : isValidHuTaxId value = true ↔
    11 ≤ (value.toList.filter Text.isDecimal).length ∧ weighted ((value.toList.filter Text.isDecimal).take 8) % 10 = 0 := by
  have decimals : ((value.toList.filter Text.isDecimal).take 8).all Text.isDecimal = true :=
    List.all_eq_true.mpr fun c mem => (List.mem_filter.mp (List.mem_of_mem_take mem)).2
  unfold isValidHuTaxId checksumOk
  dsimp only
  rw [digitsOnly_eq, List.take_take]
  simp only [Bool.and_eq_true, decide_eq_true_eq, List.length_take, Nat.min_def]
  grind

/-- Eleven digits, in the stored form. -/
theorem format_eleven {digits : List Char} (eleven : digits.length = 11) : ∃ check, digits.drop 8 = check :: digits.drop 9 ∧
    format digits = digits.take 8 ++ '-' :: check :: '-' :: digits.drop 9 := by
  have there : 8 < digits.length := by omega
  refine ⟨digits[8], List.drop_eq_getElem_cons there, ?_⟩
  rw [format, if_neg (by omega), if_neg (by omega), List.drop_eq_getElem_cons there, List.take_succ_cons, List.take_zero,
    List.append_assoc]
  rfl

variable {isalnum : Char → Bool} {value : String}

theorem Plain.form (h : Plain isalnum value) (checked : weighted ((value.toList.filter Text.isDecimal).take 8) % 10 = 0) :
    ∃ (eight county : List Char) (check : Char), normalizeHuTaxId value = eight ++ '-' :: check :: '-' :: county ∧
      eight.length = 8 ∧ county.length = 2 ∧ (∀ c ∈ eight ++ check :: county, c.isDigit = true) ∧ weighted eight % 10 = 0 ∧
      ∃ country ∈ countries, value.toList.filter (fun c => Text.isDecimal c || isalnum c) =
        country ++ (eight ++ check :: county) := by
  have whole : digitsOnly value = value.toList.filter Text.isDecimal := by
    rw [digitsOnly_eq, List.take_of_length_le (Nat.le_of_eq h.length)]
  obtain ⟨check, behind, stored⟩ := format_eleven h.length
  have split : (value.toList.filter Text.isDecimal).take 8 ++ check :: (value.toList.filter Text.isDecimal).drop 9 =
      value.toList.filter Text.isDecimal := by
    rw [← behind, List.take_append_drop]
  refine ⟨_, _, check, by rw [normalizeHuTaxId, whole, stored], ?_, ?_, ?_, checked, ?_⟩
  · rw [List.length_take, h.length]
    rfl
  · rw [List.length_drop, h.length]
  · rw [split]
    exact h.ascii
  · rw [split]
    exact h.alone

theorem Dependable.plain (h : Dependable isalnum value) (valid : isValidHuTaxId value = true) : Plain isalnum value := by
  obtain ⟨eight, county, check, stored, length, length', ascii, -, country, code, alone⟩ := h.form valid
  have decimals : ∀ c ∈ eight ++ check :: county, Text.isDecimal c = true := fun c mem => Text.isDecimal_of_isDigit (ascii c mem)
  -- the digits of the text are those that are stored, and no others
  have whole : value.toList.filter Text.isDecimal = eight ++ check :: county := by
    have within : (value.toList.filter fun c => Text.isDecimal c || isalnum c).filter Text.isDecimal =
        value.toList.filter Text.isDecimal := by
      rw [List.filter_filter]
      exact List.filter_congr fun c _ => by simpa using Or.inl
    have letters : ∀ country ∈ countries, country.filter Text.isDecimal = [] := by decide
    rw [← within, alone, List.filter_append, letters country code, List.filter_eq_self.mpr decimals, List.nil_append]
  refine ⟨?_, ?_, country, code, ?_⟩
  · rw [whole, List.length_append, List.length_cons, length, length']
  · rw [whole]
    exact ascii
  · rw [alone, whole]

/-- The promise is kept for the texts with fewer than eleven digits or a wrong check digit, and otherwise for those that are a
    tax id and nothing else. -/
theorem taxId_dependable_iff (isalnum : Char → Bool) (value : String) : Dependable isalnum value ↔
    (11 ≤ (value.toList.filter Text.isDecimal).length →
      weighted ((value.toList.filter Text.isDecimal).take 8) % 10 = 0 → Plain isalnum value) := by
  constructor
  · exact fun kept enough checked => kept.plain (isValidHuTaxId_iff.mpr ⟨enough, checked⟩)
  · intro plain
    refine ⟨fun valid => ?_, ?_, ?_⟩
    · obtain ⟨enough, checked⟩ := isValidHuTaxId_iff.mp valid
      exact (plain enough checked).form checked
    · rw [normalizeHuTaxId, digitsOnly_normalize]
      rfl
    · unfold isValidHuTaxId
      rw [digitsOnly_normalize]

/-- Letters around the digits, and a twelfth digit, are passed over. -/
theorem not_dependable_taxId : ¬Dependable Char.isAlphanum "ID 12892312-1-42/9" := by
  intro kept
  exact absurd (kept.plain (by decide +kernel)).length (by decide +kernel)

end NyzRating.Settings.TaxId
