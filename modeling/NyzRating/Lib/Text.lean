import Mathlib.Data.List.DropRight
import Mathlib.Tactic.Common

/-!
# Text normalisation

`strip` and `lower` on strings, as lists of characters.
-/

namespace Text

/-- The characters that `strip` removes from both ends. -/
def isSpace (c : Char) : Bool :=
  let n := c.toNat
  (9 ≤ n && n ≤ 13) || (28 ≤ n && n ≤ 32) || n == 0x85 || n == 0xA0 || n == 0x1680 ||
    (0x2000 ≤ n && n ≤ 0x200A) || n == 0x2028 || n == 0x2029 || n == 0x202F || n == 0x205F || n == 0x3000

def strip (s : List Char) : List Char := ((s.dropWhile isSpace).reverse.dropWhile isSpace).reverse

/-- Lower case of a character. The Kelvin sign and the dotted capital I are the only characters outside ASCII
    whose lower case has an ASCII letter; the other ones outside ASCII stay there and are left as they are. -/
def lowerChar (c : Char) : List Char :=
  if c.toNat = 0x212A then ['k']
  else if c.toNat = 0x130 then ['i', Char.ofNat 0x307]
  else [c.toLower]

def lower (s : List Char) : List Char := s.flatMap lowerChar

/-- `value.strip().lower()`. -/
def stripLower (value : String) : String := String.ofList (lower (strip value.toList))

example : stripLower "  Monthly\n" = "monthly" := by decide

/-- A test of every character of a text, as the check that runs over it. -/
theorem forall_of_all {p : Char → Prop} [DecidablePred p] {s : List Char} (h : s.all (fun c => decide (p c)) = true) :
    ∀ c ∈ s, p c := fun c mem => of_decide_eq_true (List.all_eq_true.mp h c mem)

theorem strip_of_forall {s : List Char} (h : ∀ c ∈ s, isSpace c = false) : strip s = s := by
  have kept : ∀ t : List Char, (∀ c ∈ t, isSpace c = false) → t.dropWhile isSpace = t := by
    intro t ht
    cases t with
    | nil => rfl
    | cons c cs => rw [List.dropWhile_cons, ht c List.mem_cons_self, if_neg Bool.false_ne_true]
  rw [strip, kept s h, kept s.reverse fun c hc => h c (List.mem_reverse.mp hc), List.reverse_reverse]

/-! ### What `strip` leaves -/

section
variable {s : List Char}

theorem mem_dropWhile {p : Char → Bool} {c : Char} (stays : p c = false) : c ∈ s.dropWhile p ↔ c ∈ s := by
  constructor
  · exact fun mem => (List.dropWhile_sublist p).subset mem
  · intro mem
    rw [← List.takeWhile_append_dropWhile (p := p) (l := s)] at mem
    rcases List.mem_append.mp mem with before | after
    · have passed := List.all_eq_true.mp List.all_takeWhile c before
      rw [stays] at passed
      cases passed
    · exact after

theorem dropWhile_of_head {p : Char → Bool} {c : Char} (at_first : s.head? = some c) (stays : p c = false) :
    s.dropWhile p = s := by
  cases s with
  | nil => rfl
  | cons d s =>
    obtain rfl : d = c := Option.some.inj at_first
    rw [List.dropWhile_cons, stays, if_neg Bool.false_ne_true]

theorem dropWhile_reverse_of_last {p : Char → Bool} {c : Char} (at_last : s.getLast? = some c) (stays : p c = false) :
    (s.reverse.dropWhile p).reverse = s := by
  rw [dropWhile_of_head (List.head?_reverse.trans at_last) stays, List.reverse_reverse]

/-- A text that neither begins nor ends with a space. -/
theorem strip_of_ends {c d : Char} (at_first : s.head? = some c) (first : isSpace c = false) (at_last : s.getLast? = some d)
    (last : isSpace d = false) : strip s = s := by
  rw [strip, dropWhile_of_head at_first first, dropWhile_reverse_of_last at_last last]

theorem mem_strip {c : Char} (stays : isSpace c = false) : c ∈ strip s ↔ c ∈ s := by
  rw [strip, List.mem_reverse, mem_dropWhile stays, List.mem_reverse, mem_dropWhile stays]

theorem strip_sublist (s : List Char) : (strip s).Sublist s := by
  have last := (List.dropWhile_sublist isSpace (l := (s.dropWhile isSpace).reverse)).reverse
  rw [List.reverse_reverse] at last
  exact last.trans (List.dropWhile_sublist isSpace)

theorem strip_subset : strip s ⊆ s := (strip_sublist s).subset

/-- Before a character that is no space. -/
theorem dropWhile_concat {x : Char} (stays : isSpace x = false) (s : List Char) :
    (s ++ [x]).dropWhile isSpace = s.dropWhile isSpace ++ [x] := by
  induction s with
  | nil => rw [List.nil_append, List.dropWhile_cons, stays, if_neg Bool.false_ne_true, List.dropWhile_nil, List.nil_append]
  | cons c cs ih =>
    rw [List.cons_append, List.dropWhile_cons, List.dropWhile_cons, ih]
    split <;> rfl

/-- What is left begins with the first character that is no space. -/
theorem strip_of_dropWhile {x : Char} {xs : List Char} (at_first : s.dropWhile isSpace = x :: xs) (stays : isSpace x = false) :
    strip s = x :: (xs.reverse.dropWhile isSpace).reverse := by
  rw [strip, at_first, List.reverse_cons, dropWhile_concat stays, List.reverse_append, List.reverse_singleton,
    List.singleton_append]

theorem strip_strip (s : List Char) : strip (strip s) = strip s := by
  cases at_first : s.dropWhile isSpace with
  | nil =>
    have empty : strip s = [] := by rw [strip, at_first, List.reverse_nil, List.dropWhile_nil, List.reverse_nil]
    rw [empty]
    rfl
  | cons x xs =>
    have stays : isSpace x = false := by
      have head := List.head_dropWhile_not isSpace (l := s) (by simp [at_first])
      simpa only [at_first, List.head_cons, Bool.not_eq_true] using head
    rw [strip_of_dropWhile at_first stays, strip_of_dropWhile (List.dropWhile_cons_of_neg (by simp [stays])) stays,
      List.reverse_reverse, List.dropWhile_idempotent]

end

theorem lower_of_forall {s : List Char} (h : ∀ c ∈ s, lowerChar c = [c]) : lower s = s := by
  induction s with
  | nil => rfl
  | cons c cs ih =>
    rw [lower, List.flatMap_cons, h c List.mem_cons_self]
    exact congrArg (c :: ·) (ih fun d hd => h d (List.mem_cons_of_mem _ hd))

end Text
