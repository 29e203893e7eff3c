import NyzRating.Lib.Text

/-!
# Character classes

The decimal digits of all scripts, which `\d` stands for in a regular expression on text, the spaces of another language,
and upper case.
-/

namespace Text

/-! ### Decimal digits -/

/-- The zeros of the scripts. Each one is followed by its nine other digits. -/
def zeros : List Nat := [
  0x30, 0x660, 0x6F0, 0x7C0, 0x966, 0x9E6, 0xA66, 0xAE6, 0xB66, 0xBE6, 0xC66, 0xCE6, 0xD66, 0xDE6, 0xE50, 0xED0, 0xF20,
  0x1040, 0x1090, 0x17E0, 0x1810, 0x1946, 0x19D0, 0x1A80, 0x1A90, 0x1B50, 0x1BB0, 0x1C40, 0x1C50, 0xA620, 0xA8D0, 0xA900,
  0xA9D0, 0xA9F0, 0xAA50, 0xABF0, 0xFF10, 0x104A0, 0x10D30, 0x11066, 0x110F0, 0x11136, 0x111D0, 0x112F0, 0x11450, 0x114D0,
  0x11650, 0x116C0, 0x11730, 0x118E0, 0x11950, 0x11C50, 0x11D50, 0x11DA0, 0x11F50, 0x16A60, 0x16AC0, 0x16B50, 0x1D7CE,
  0x1D7D8, 0x1D7E2, 0x1D7EC, 0x1D7F6, 0x1E140, 0x1E2F0, 0x1E4F0, 0x1E950, 0x1FBF0]

/-- The zero of the script that the digit is of. -/
def zeroOf (c : Char) : Option Nat := zeros.find? fun start => start ≤ c.toNat && c.toNat < start + 10

def isDecimal (c : Char) : Bool := (zeroOf c).isSome

/-- `int` of one digit. -/
def digitValue (c : Char) : Nat := (zeroOf c).elim 0 (c.toNat - ·)

theorem isDecimal_iff {c : Char} : isDecimal c = true ↔ ∃ start ∈ zeros, start ≤ c.toNat ∧ c.toNat < start + 10 := by
  simp [isDecimal, zeroOf]

theorem isDigit_iff {c : Char} : c.isDigit = true ↔ 48 ≤ c.toNat ∧ c.toNat ≤ 57 := by
  simp only [Char.isDigit, Bool.and_eq_true, decide_eq_true_eq, UInt32.le_iff_toNat_le]
  rfl

theorem isDecimal_of_isDigit {c : Char} (digit : c.isDigit = true) : isDecimal c = true := by
  obtain ⟨low, high⟩ := isDigit_iff.mp digit
  exact isDecimal_iff.mpr ⟨0x30, List.mem_cons_self, low, by omega⟩

/-- In ASCII there are the ten digits only. -/
theorem isDigit_of_isDecimal {c : Char} (decimal : isDecimal c = true) (ascii : c.toNat < 128) : c.isDigit = true := by
  obtain ⟨start, mem, low, high⟩ := isDecimal_iff.mp decimal
  have first : start = 0x30 ∨ 128 ≤ start := by
    have all : ∀ start ∈ zeros, start = 0x30 ∨ 128 ≤ start := by decide
    exact all start mem
  exact isDigit_iff.mpr (by omega)

theorem isDecimal_false_of_ascii {c : Char} (ascii : c.toNat < 128) (digit : c.isDigit = false) : isDecimal c = false := by
  rw [← Bool.not_eq_true]
  intro decimal
  rw [isDigit_of_isDecimal decimal ascii] at digit
  cases digit

/-- The digits of ASCII are found among the decimal digits. -/
theorem filter_isDigit (s : List Char) : (s.filter isDecimal).filter Char.isDigit = s.filter Char.isDigit := by
  rw [List.filter_filter]
  refine List.filter_congr fun c _ => ?_
  cases digit : c.isDigit with
  | false => rfl
  | true => rw [isDecimal_of_isDigit digit, Bool.and_self]

/-- The digits that are no decimal digits: superscripts, digits in circles and the like, from the first to the last of each row. -/
def otherDigits : List (Nat × Nat) := [
  (0xB2, 0xB3), (0xB9, 0xB9), (0x1369, 0x1371), (0x19DA, 0x19DA), (0x2070, 0x2070), (0x2074, 0x2079), (0x2080, 0x2089),
  (0x2460, 0x2468), (0x2474, 0x247C), (0x2488, 0x2490), (0x24EA, 0x24EA), (0x24F5, 0x24FD), (0x24FF, 0x24FF),
  (0x2776, 0x277E), (0x2780, 0x2788), (0x278A, 0x2792), (0x10A40, 0x10A43), (0x10E60, 0x10E68), (0x11052, 0x1105A),
  (0x1F100, 0x1F10A)]

/-- `isdigit` of a text. -/
def isdigit (s : List Char) : Bool :=
  !s.isEmpty && s.all fun c => isDecimal c || otherDigits.any fun row => row.1 ≤ c.toNat && c.toNat ≤ row.2

/-! ### Spaces -/

/-- `\s` in the browser. -/
def isSpaceJs (c : Char) : Bool :=
  let n := c.toNat
  (9 ≤ n && n ≤ 13) || n == 32 || n == 0xA0 || n == 0x1680 || (0x2000 ≤ n && n ≤ 0x200A) || n == 0x2028 || n == 0x2029 ||
    n == 0x202F || n == 0x205F || n == 0x3000 || n == 0xFEFF

/-- Where there is a space, there is no digit. -/
theorem space_bounds : ∀ start ∈ zeros, (start = 0x30 ∨ 0xA0 < start) ∧ (start + 10 ≤ 0x1680 ∨ 0x1680 < start) ∧
    (start + 10 ≤ 0x2000 ∨ 0x205F < start) ∧ (start + 10 ≤ 0x3000 ∨ 0x3000 < start) ∧ (start + 10 ≤ 0xFEFF ∨ 0xFEFF < start) := by
  decide

theorem isDecimal_of_space {c : Char} (space : isSpace c = true ∨ isSpaceJs c = true) : isDecimal c = false := by
  rw [← Bool.not_eq_true, isDecimal_iff]
  rintro ⟨start, mem, low, high⟩
  obtain ⟨latin, ogham, general, ideographic, mark⟩ := space_bounds start mem
  simp only [isSpace, isSpaceJs, Bool.or_eq_true, Bool.and_eq_true, decide_eq_true_eq, beq_iff_eq] at space
  omega

/-! ### Upper case -/

/-- The characters outside ASCII whose upper case has a letter of ASCII, with their upper case. -/
def upperSpecial : List (Nat × List Char) := [
  (0xDF, ['S', 'S']), (0x131, ['I']), (0x149, ['\u02bc', 'N']), (0x17F, ['S']), (0x1F0, ['J', '\u030c']),
  (0x1E96, ['H', '\u0331']), (0x1E97, ['T', '\u0308']), (0x1E98, ['W', '\u030a']), (0x1E99, ['Y', '\u030a']),
  (0x1E9A, ['A', '\u02be']), (0xFB00, ['F', 'F']), (0xFB01, ['F', 'I']), (0xFB02, ['F', 'L']), (0xFB03, ['F', 'F', 'I']),
  (0xFB04, ['F', 'F', 'L']), (0xFB05, ['S', 'T']), (0xFB06, ['S', 'T'])]

/-- Upper case of a character. The other letters outside ASCII stay there and are left as they are. -/
def upperChar (c : Char) : List Char := (upperSpecial.lookup c.toNat).getD [c.toUpper]

def upper (s : List Char) : List Char := s.flatMap upperChar

theorem upperSpecial_not_decimal : ∀ p ∈ upperSpecial, p.2.filter isDecimal = [] ∧
    ∀ start ∈ zeros, p.1 < start ∨ start + 10 ≤ p.1 := by
  decide +kernel

theorem toUpper_cases (c : Char) : c.toUpper = c ∨ c.toNat < 128 ∧ c.isDigit = false ∧ c.toUpper.toNat < 128 ∧ c.toUpper.isDigit = false := by
  by_cases lower : c.val ≥ 'a'.val ∧ c.val ≤ 'z'.val
  · refine .inr ?_
    have shifted : c.toUpper = ⟨c.val + ('A'.val - 'a'.val), _⟩ := dif_pos lower
    simp only [Char.isDigit, shifted, Char.toNat]
    grind [UInt32.le_iff_toNat_le, UInt32.toNat_add]
  · exact .inl (dif_neg lower)

/-- Upper case neither makes nor takes away a digit. -/
theorem filter_isDecimal_upperChar (c : Char) : (upperChar c).filter isDecimal = [c].filter isDecimal := by
  unfold upperChar
  cases special : upperSpecial.lookup c.toNat with
  | some text =>
    have mem : (c.toNat, text) ∈ upperSpecial := by
      obtain ⟨before, behind, parts, -⟩ := List.lookup_eq_some_iff.mp special
      rw [parts]
      exact List.mem_append_right _ List.mem_cons_self
    obtain ⟨none', apart⟩ := upperSpecial_not_decimal _ mem
    have other : isDecimal c = false := by
      rw [← Bool.not_eq_true, isDecimal_iff]
      rintro ⟨start, mem, low, high⟩
      have bounds := apart start mem
      omega
    rw [Option.getD_some, none', List.filter_cons_of_neg (by simp [other]), List.filter_nil]
  | none =>
    rw [Option.getD_none]
    rcases toUpper_cases c with same | ⟨ascii, digit, ascii', digit'⟩
    · rw [same]
    · rw [List.filter_cons_of_neg (by simp [isDecimal_false_of_ascii ascii' digit']),
        List.filter_cons_of_neg (by simp [isDecimal_false_of_ascii ascii digit])]

theorem filter_isDecimal_upper (s : List Char) : (upper s).filter isDecimal = s.filter isDecimal := by
  induction s with
  | nil => rfl
  | cons c cs ih =>
    have split : upper (c :: cs) = upperChar c ++ upper cs := List.flatMap_cons
    rw [split, List.filter_append, filter_isDecimal_upperChar, ih, ← List.filter_append, List.singleton_append]

end Text
