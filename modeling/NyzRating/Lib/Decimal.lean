import Mathlib.Algebra.Group.Nat.Defs
import Mathlib.Tactic.Common

/-!
# Decimal numbers as text

Numbers are written in fields of a fixed width or in as many digits as they have, and read from the front of a text.
-/

namespace Decimal

/-- The last `k` digits of `n`. -/
def pad : Nat → Nat → List Char
  | 0, _ => []
  | k + 1, n => pad k (n / 10) ++ [Nat.digitChar (n % 10)]

/-- The number in the first `k` characters, and what is after them. -/
def readField (k : Nat) (s : List Char) : Option (Nat × List Char) :=
  if (s.take k).length = k ∧ (s.take k).all Char.isDigit then some (Nat.ofDigitChars 10 (s.take k) 0, s.drop k) else none

/-- The character, and what is after it. -/
def expect (c : Char) (s : List Char) : Option (List Char) :=
  match s with
  | [] => none
  | d :: rest => if d = c then some rest else none

/-- An integer, as `str` writes it. -/
def writeInt (n : Int) : List Char :=
  if n < 0 then '-' :: Nat.toDigits 10 n.natAbs else Nat.toDigits 10 n.natAbs

/-- The number in the digits at the front, which has no leading zero, and what is after them. -/
def readNat (s : List Char) : Option (Nat × List Char) :=
  let digits := s.takeWhile Char.isDigit
  if digits = [] ∨ digits.head? = some '0' ∧ 1 < digits.length then none
  else some (Nat.ofDigitChars 10 digits 0, s.dropWhile Char.isDigit)

def readInt (s : List Char) : Option (Int × List Char) :=
  match s with
  | '-' :: s => (readNat s).map fun (n, rest) => (-(n : Int), rest)
  | s => (readNat s).map fun (n, rest) => ((n : Int), rest)

example : readInt "-120,".toList = some (-120, [',']) := by decide

@[simp] theorem expect_cons (c : Char) (rest : List Char) : expect c (c :: rest) = some rest := if_pos rfl

theorem length_pad (k n : Nat) : (pad k n).length = k := by
  induction k generalizing n with
  | zero => rfl
  | succ k ih => rw [pad, List.length_append, ih, List.length_singleton]

theorem isDigit_digitChar {n : Nat} (h : n < 10) : (Nat.digitChar n).isDigit = true := by
  revert n
  decide

theorem isDigit_pad (k n : Nat) : (pad k n).all Char.isDigit = true := by
  induction k generalizing n with
  | zero => rfl
  | succ k ih =>
    rw [pad, List.all_append, ih, List.all_cons, isDigit_digitChar (Nat.mod_lt n (by decide))]
    rfl

theorem ofDigitChars_pad (k : Nat) {n : Nat} (h : n < 10 ^ k) : Nat.ofDigitChars 10 (pad k n) 0 = n := by
  induction k generalizing n with
  | zero =>
    rw [Nat.lt_one_iff.mp h]
    rfl
  | succ k ih =>
    rw [pad, Nat.ofDigitChars_append, ih (by omega), Nat.ofDigitChars_cons_digitChar_of_lt_ten (Nat.mod_lt n (by decide)),
      Nat.ofDigitChars_nil]
    omega

/-- Of texts of one length, the first difference decides. -/
theorem append_lt_append {a b : List Char} (length : a.length = b.length) (lt : a < b) (c d : List Char) : a ++ c < b ++ d := by
  induction a generalizing b with
  | nil =>
    rw [List.eq_nil_of_length_eq_zero length.symm] at lt
    exact absurd lt (List.lt_irrefl _)
  | cons x a ih =>
    cases b with
    | nil => cases length
    | cons y b =>
      rw [List.cons_append, List.cons_append, List.cons_lt_cons_iff]
      rcases List.cons_lt_cons_iff.mp lt with first | ⟨same, rest⟩
      · exact .inl first
      · exact .inr ⟨same, ih (Nat.succ.inj length) rest⟩

theorem digitChar_lt {m n : Nat} (lt : m < n) (small : n < 10) : Nat.digitChar m < Nat.digitChar n := by
  have all : ∀ n < 10, ∀ m < n, Nat.digitChar m < Nat.digitChar n := by decide
  exact all n small m lt

/-- Numbers that fit are in the order of their texts. -/
theorem pad_lt (k : Nat) {m n : Nat} (lt : m < n) (fits : n < 10 ^ k) : pad k m < pad k n := by
  induction k generalizing m n with
  | zero => omega
  | succ k ih =>
    rw [pad, pad]
    rcases Nat.lt_or_eq_of_le (Nat.div_le_div_right (c := 10) (Nat.le_of_lt lt)) with front | same
    · exact append_lt_append ((length_pad _ _).trans (length_pad _ _).symm) (ih front (by omega)) _ _
    · rw [same]
      exact List.append_left_lt (List.cons_lt_cons_iff.mpr (.inl (digitChar_lt (by omega) (Nat.mod_lt n (by decide)))))

theorem readField_pad (k : Nat) {n : Nat} (h : n < 10 ^ k) (rest : List Char) :
    readField k (pad k n ++ rest) = some (n, rest) := by
  have front : (pad k n ++ rest).take k = pad k n := List.take_left' (length_pad k n)
  have after : (pad k n ++ rest).drop k = rest := List.drop_left' (length_pad k n)
  rw [readField, front, after, if_pos ⟨length_pad k n, isDigit_pad k n⟩, ofDigitChars_pad k h]

theorem toDigits_head (n : Nat) : 0 < n → (Nat.toDigits 10 n).head? ≠ some '0' := by
  induction n using Nat.strongRecOn with
  | ind n ih =>
    intro positive
    rcases Nat.lt_or_ge n 10 with lt | ge
    · rw [Nat.toDigits_of_lt_base lt]
      have digits : ∀ d < 10, 0 < d → [Nat.digitChar d].head? ≠ some '0' := by decide
      exact digits n lt positive
    · rw [Nat.toDigits_of_base_le (by decide) ge, List.head?_append, Option.or_of_isSome (List.isSome_head?.mpr Nat.toDigits_ne_nil)]
      exact ih (n / 10) (by omega) (by omega)

theorem readNat_toDigits (n : Nat) {rest : List Char} (stop : ∀ c ∈ rest.head?, c.isDigit = false) :
    readNat (Nat.toDigits 10 n ++ rest) = some (n, rest) := by
  have digits : ∀ c ∈ Nat.toDigits 10 n, c.isDigit = true := fun c mem =>
    Nat.isDigit_of_mem_toDigits (by decide) (by decide) mem
  have stops : rest.takeWhile Char.isDigit = [] ∧ rest.dropWhile Char.isDigit = rest := by
    cases rest with
    | nil => exact ⟨rfl, rfl⟩
    | cons c rest => exact ⟨List.takeWhile_cons_of_neg (by simp [stop c rfl]), List.dropWhile_cons_of_neg (by simp [stop c rfl])⟩
  have front : (Nat.toDigits 10 n ++ rest).takeWhile Char.isDigit = Nat.toDigits 10 n := by
    rw [List.takeWhile_append_of_pos digits, stops.1, List.append_nil]
  have after : (Nat.toDigits 10 n ++ rest).dropWhile Char.isDigit = rest := by
    rw [List.dropWhile_append_of_pos digits, stops.2]
  have written : ¬(Nat.toDigits 10 n = [] ∨ (Nat.toDigits 10 n).head? = some '0' ∧ 1 < (Nat.toDigits 10 n).length) := by
    rintro (empty | ⟨zero, long⟩)
    · exact Nat.toDigits_ne_nil empty
    · rcases Nat.eq_zero_or_pos n with rfl | positive
      · exact absurd long (by decide)
      · exact toDigits_head n positive zero
  rw [readNat, front, after, if_neg written, Nat.ofDigitChars_ten_toDigits]

theorem readInt_writeInt (n : Int) {rest : List Char} (stop : ∀ c ∈ rest.head?, c.isDigit = false) :
    readInt (writeInt n ++ rest) = some (n, rest) := by
  unfold writeInt
  split
  · next negative =>
    rw [List.cons_append, readInt, readNat_toDigits _ stop, Option.map_some]
    simp only [Option.some.injEq, Prod.mk.injEq, and_true]
    omega
  · next positive =>
    have plain : ∀ s, (∀ c ∈ s.head?, c.isDigit = true) → readInt s = (readNat s).map fun (n, rest) => ((n : Int), rest) := by
      intro s digit
      unfold readInt
      split
      · exact absurd (digit '-' rfl) (by decide)
      · rfl
    have digit : ∀ c ∈ (Nat.toDigits 10 n.natAbs ++ rest).head?, c.isDigit = true := by
      intro c mem
      rw [List.head?_append, Option.or_of_isSome (List.isSome_head?.mpr Nat.toDigits_ne_nil)] at mem
      exact Nat.isDigit_of_mem_toDigits (by decide) (by decide) (List.mem_of_mem_head? mem)
    rw [plain _ digit, readNat_toDigits _ stop, Option.map_some]
    simp only [Option.some.injEq, Prod.mk.injEq, and_true]
    omega

end Decimal
