import NyzRating.Lib.Like
import NyzRating.Lib.Text

/-!
# Text without regard to case

A case map takes the letters of a text to their lower case one by one. `ILIKE` compares a text and a pattern in lower
case.
-/

namespace Text

structure CaseMap where
  lowerChar : Char → List Char
  /-- Lower case stays as it is. -/
  fixed : ∀ c, ∀ d ∈ lowerChar c, lowerChar d = [d]
  ascii : ∀ c, c.toNat < 128 → c.isUpper = false → lowerChar c = [c]
  /-- In ASCII, a lower case is a letter. -/
  letter : ∀ c, ∀ d ∈ lowerChar c, d.toNat < 128 → d.isLower = false → c = d

theorem isUpper_eq (c : Char) : c.isUpper = decide (c.val ≥ 'A'.val ∧ c.val ≤ 'Z'.val) := rfl

theorem isLower_eq (c : Char) : c.isLower = (decide (c.val ≥ 'a'.val) && decide (c.val ≤ 'z'.val)) := rfl

theorem toLower_cases (c : Char) : c.isUpper = false ∧ c.toLower = c ∨
    c.isUpper = true ∧ c.toLower.isLower = true ∧ c.toLower.isUpper = false := by
  by_cases upper : c.val ≥ 'A'.val ∧ c.val ≤ 'Z'.val
  · refine .inr ?_
    have shifted : c.toLower = ⟨c.val + ('a'.val - 'A'.val), _⟩ := dif_pos upper
    simp only [isUpper_eq, isLower_eq, shifted]
    grind [UInt32.le_iff_toNat_le, UInt32.toNat_add]
  · refine .inl ⟨?_, dif_neg upper⟩
    simp only [isUpper_eq]
    grind

theorem lowerChar_cases (c : Char) : Text.lowerChar c = [c] ∧ c.isUpper = false ∨
    128 ≤ c.toNat ∧ (Text.lowerChar c = ['k'] ∨ Text.lowerChar c = ['i', Char.ofNat 0x307]) ∨
    c.isUpper = true ∧ ∃ d, Text.lowerChar c = [d] ∧ Text.lowerChar d = [d] ∧ d.isLower = true := by
  unfold Text.lowerChar
  by_cases kelvin : c.toNat = 0x212A
  · exact .inr (.inl ⟨by omega, .inl (if_pos kelvin)⟩)
  · by_cases dotted : c.toNat = 0x130
    · exact .inr (.inl ⟨by omega, .inr (by rw [if_neg kelvin, if_pos dotted])⟩)
    · rw [if_neg kelvin, if_neg dotted]
      rcases toLower_cases c with ⟨upper, same⟩ | ⟨upper, lower, done⟩
      · exact .inl ⟨by rw [same], upper⟩
      · refine .inr (.inr ⟨upper, c.toLower, rfl, ?_, lower⟩)
        have small : c.toLower.toNat ≤ 122 := by
          simp only [isLower_eq, Bool.and_eq_true, decide_eq_true_eq] at lower
          exact UInt32.le_iff_toNat_le.mp lower.2
        rcases toLower_cases c.toLower with ⟨-, same⟩ | ⟨upper', -⟩
        · rw [if_neg (by omega), if_neg (by omega), same]
        · rw [done] at upper'
          cases upper'

/-- `lowerChar` is one. -/
def CaseMap.standard : CaseMap where
  lowerChar := Text.lowerChar
  fixed c d mem := by
    rcases lowerChar_cases c with ⟨same, -⟩ | ⟨-, same | same⟩ | ⟨-, e, same, fixed, -⟩
    · rw [same] at mem
      rw [List.mem_singleton.mp mem]
      exact same
    · rw [same] at mem
      rw [List.mem_singleton.mp mem]
      rfl
    · rw [same] at mem
      rcases List.mem_pair.mp mem with rfl | rfl
      · rfl
      · rfl
    · rw [same] at mem
      rw [List.mem_singleton.mp mem]
      exact fixed
  ascii c ascii upper := by
    rcases lowerChar_cases c with ⟨same, -⟩ | ⟨high, -⟩ | ⟨isUpper, -⟩
    · exact same
    · omega
    · rw [upper] at isUpper
      cases isUpper
  letter c d mem ascii lower := by
    rcases lowerChar_cases c with ⟨same, -⟩ | ⟨-, same | same⟩ | ⟨-, e, same, -, isLower⟩
    · rw [same] at mem
      exact (List.mem_singleton.mp mem).symm
    · rw [same] at mem
      rw [List.mem_singleton.mp mem] at lower
      cases lower
    · rw [same] at mem
      rcases List.mem_pair.mp mem with rfl | rfl
      · cases lower
      · exact absurd ascii (by decide)
    · rw [same] at mem
      rw [List.mem_singleton.mp mem, isLower] at lower
      cases lower

namespace CaseMap

variable (F : CaseMap)

def lower (s : List Char) : List Char := s.flatMap F.lowerChar

/-- `part` occurs in `t`, whatever the case. -/
def Contains (t part : List Char) : Prop := F.lower part <:+: F.lower t

/-- `t ILIKE p` -/
def ilike (t p : List Char) : Bool := Like.like (F.lower p) (F.lower t)

variable {F} {s t : List Char}

theorem lower_append (s t : List Char) : F.lower (s ++ t) = F.lower s ++ F.lower t := List.flatMap_append

theorem lower_eq_self (h : ∀ c ∈ s, F.lowerChar c = [c]) : F.lower s = s := by
  induction s with
  | nil => rfl
  | cons c s ih =>
    rw [lower, List.flatMap_cons, h c List.mem_cons_self]
    exact congrArg (c :: ·) (ih fun d mem => h d (List.mem_cons_of_mem _ mem))

theorem fixed_of_mem_lower {d : Char} (mem : d ∈ F.lower s) : F.lowerChar d = [d] := by
  obtain ⟨c, -, inLower⟩ := List.mem_flatMap.mp mem
  exact F.fixed c d inLower

theorem lower_lower (s : List Char) : F.lower (F.lower s) = F.lower s := lower_eq_self fun _ => fixed_of_mem_lower

/-- A character of ASCII that is no letter is in the lower case of a text when it is in the text. -/
theorem mem_lower_iff {d : Char} (ascii : d.toNat < 128) (lower : d.isLower = false) (upper : d.isUpper = false) :
    d ∈ F.lower s ↔ d ∈ s := by
  rw [CaseMap.lower, List.mem_flatMap]
  constructor
  · rintro ⟨c, mem, inLower⟩
    rw [F.letter c d inLower ascii lower] at mem
    exact mem
  · intro mem
    refine ⟨d, mem, ?_⟩
    rw [F.ascii d ascii upper]
    exact List.mem_singleton_self d

theorem plain_lower (plain : ∀ c ∈ s, Like.Plain c) : ∀ c ∈ F.lower s, Like.Plain c := by
  intro c mem
  refine ⟨?_, ?_, ?_⟩
  · rintro rfl
    exact (plain _ ((mem_lower_iff (by decide) rfl rfl).mp mem)).1 rfl
  · rintro rfl
    exact (plain _ ((mem_lower_iff (by decide) rfl rfl).mp mem)).2.1 rfl
  · rintro rfl
    exact (plain _ ((mem_lower_iff (by decide) rfl rfl).mp mem)).2.2 rfl

theorem lower_containing (q : List Char) : F.lower (Like.containing q) = Like.containing (F.lower q) := by
  have percent : F.lower ['%'] = ['%'] := lower_eq_self fun c mem => by
    rw [List.mem_singleton.mp mem]
    exact F.ascii '%' (by decide) rfl
  have split : Like.containing q = ['%'] ++ q ++ ['%'] := rfl
  rw [split, lower_append, lower_append, percent]
  rfl

theorem ilike_containing (plain : ∀ c ∈ s, Like.Plain c) (t : List Char) :
    F.ilike t (Like.containing s) = true ↔ F.Contains t s := by
  rw [ilike, lower_containing, Like.like_containing (plain_lower plain), Contains]

end CaseMap

end Text
