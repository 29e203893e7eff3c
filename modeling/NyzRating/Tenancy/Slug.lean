import NyzRating.Lib.CharClass
import NyzRating.Lib.Text

/-!
# Slug policy

From a company name to the name of a tenant and of its schema.
-/

namespace NyzRating.Tenancy

/-- `[a-z0-9]`. -/
def isSlugLetter (c : Char) : Bool := ('a' ≤ c && c ≤ 'z') || ('0' ≤ c && c ≤ '9')

/-- Writes one hyphen for each maximal run of characters that are not kept. `inRun` tells whether a run is open. -/
def hyphenateRuns (keep : Char → Bool) : (inRun : Bool) → List Char → List Char
  | _, [] => []
  | inRun, c :: cs =>
    if keep c then c :: hyphenateRuns keep false cs
    else if inRun then hyphenateRuns keep true cs
    else '-' :: hyphenateRuns keep true cs

/-- `strip("-")`. -/
def stripHyphens (cs : List Char) : List Char :=
  ((cs.dropWhile (· = '-')).reverse.dropWhile (· = '-')).reverse

/-- `nfkd` is the compatibility decomposition of a text. -/
def demoSlugBase (nfkd : List Char → List Char) (rawName : String) : String :=
  let asciiName := ((nfkd rawName.toList).filter (·.toNat < 128)).map Char.toLower
  let hyphenated := stripHyphens (hyphenateRuns isSlugLetter false asciiName)
  let hyphenated := hyphenateRuns (· ≠ '-') false hyphenated
  String.ofList ((if hyphenated = [] then ['d', 'e', 'm', 'o'] else hyphenated).take 48)

/-- The slug is the base, or the base and a number. -/
def slugMatchesDemoBase (slug base : String) : Bool :=
  let slug := (Text.stripLower slug).toList
  let base := (Text.stripLower base).toList
  if slug = [] ∨ base = [] then false
  else if slug = base then true
  else base.isPrefixOf slug && Text.isdigit (slug.drop base.length)

def candidateDemoSlug (base : String) (suffix : Nat) : String :=
  if suffix ≤ 1 then String.ofList (base.toList.take 64)
  else
    let digits := Nat.toDigits 10 suffix
    String.ofList (base.toList.take (64 - digits.length) ++ digits)

/-- `slug_is_valid`; the `$` of its pattern lets a newline follow. -/
def slugIsValid (slug : String) : Bool :=
  let s := slug.toList
  match if s.getLast? = some '\n' then s.dropLast else s with
  | [] => false
  | c :: cs => isSlugLetter c && cs.all (fun c => isSlugLetter c || c = '_' || c = '-') && s.length ≤ 64

/-- `_safe_slug` accepts the name. -/
def isSafeSlug (slug : String) : Bool := slug.toList.all fun c => c.isAlphanum || c = '_' || c = '-'

/-- The schemas that the platform or the database server owns. -/
def isPlatformSchema (name : String) : Bool :=
  name = "public" || name = "information_schema" || ['p', 'g', '_'].isPrefixOf name.toList

/-! ### The characters of a slug -/

/-- A lower case letter, a digit or a hyphen. -/
def isSlugChar (c : Char) : Bool := isSlugLetter c || c = '-'

/-- The name is made of slug characters only. -/
def SlugText (name : String) : Prop := ∀ c ∈ name.toList, isSlugChar c = true

theorem hyphenateRuns_chars {keep : Char → Bool} {P : Char → Prop} (hyphen : P '-') (inRun : Bool) {cs : List Char}
    (h : ∀ c ∈ cs, keep c = true → P c) : ∀ c ∈ hyphenateRuns keep inRun cs, P c := by
  induction cs generalizing inRun with
  | nil => simp [hyphenateRuns]
  | cons d cs ih =>
    have rest : ∀ inRun, ∀ c ∈ hyphenateRuns keep inRun cs, P c := fun inRun =>
      ih inRun fun c hc => h c (List.mem_cons_of_mem _ hc)
    intro c hc
    unfold hyphenateRuns at hc
    split at hc
    · next hk =>
      rcases List.mem_cons.mp hc with rfl | hc
      · exact h _ List.mem_cons_self hk
      · exact rest false c hc
    · split at hc
      · exact rest true c hc
      · rcases List.mem_cons.mp hc with rfl | hc
        · exact hyphen
        · exact rest true c hc

theorem mem_of_mem_stripHyphens {c : Char} {cs : List Char} (h : c ∈ stripHyphens cs) : c ∈ cs := by
  unfold stripHyphens at h
  have h₁ := (List.dropWhile_suffix _).mem (List.mem_reverse.mp h)
  exact (List.dropWhile_suffix _).mem (List.mem_reverse.mp h₁)

theorem demoSlugBase_slugText (nfkd : List Char → List Char) (rawName : String) : SlugText (demoSlugBase nfkd rawName) := by
  intro c hc
  rw [demoSlugBase, String.toList_ofList] at hc
  have hc := List.mem_of_mem_take hc
  split at hc
  · have letters : ['d', 'e', 'm', 'o'].all isSlugChar = true := by decide
    exact List.all_eq_true.mp letters c hc
  · refine hyphenateRuns_chars (P := fun c => isSlugChar c = true) rfl false (fun d hd _ => ?_) c hc
    refine hyphenateRuns_chars (P := fun c => isSlugChar c = true) rfl false (fun e _ he => ?_) d (mem_of_mem_stripHyphens hd)
    simp [isSlugChar, he]

theorem demoSlugBase_length (nfkd : List Char → List Char) (rawName : String) :
    (demoSlugBase nfkd rawName).toList.length ≤ 48 := by
  rw [demoSlugBase, String.toList_ofList]
  exact List.length_take_le _ _

theorem isSlugLetter_of_isDigit {c : Char} (h : c.isDigit = true) : isSlugLetter c = true := by
  simp only [Char.isDigit, Bool.and_eq_true, decide_eq_true_eq] at h
  simp only [isSlugLetter, Bool.or_eq_true, Bool.and_eq_true, decide_eq_true_eq]
  exact .inr h

theorem candidateDemoSlug_slugText {base : String} (h : SlugText base) (suffix : Nat) :
    SlugText (candidateDemoSlug base suffix) := by
  intro c hc
  unfold candidateDemoSlug at hc
  split at hc
  · rw [String.toList_ofList] at hc
    exact h c (List.mem_of_mem_take hc)
  · rw [String.toList_ofList] at hc
    rcases List.mem_append.mp hc with hc | hc
    · exact h c (List.mem_of_mem_take hc)
    · have digit := Nat.isDigit_of_mem_toDigits (by decide) (by decide) hc
      simp [isSlugChar, isSlugLetter_of_isDigit digit]

/-- A valid slug has a letter or a digit. -/
theorem slugIsValid_letter {slug : String} (valid : slugIsValid slug = true) : ∃ c ∈ slug.toList, isSlugLetter c = true := by
  unfold slugIsValid at valid
  dsimp only at valid
  split at valid
  · cases valid
  · next c cs text =>
    simp only [Bool.and_eq_true] at valid
    refine ⟨c, ?_, valid.1.1⟩
    have mem : c ∈ c :: cs := List.mem_cons_self
    rw [← text] at mem
    split at mem
    · exact List.dropLast_subset _ mem
    · exact mem

theorem slugIsValid_of_slugText {slug : String} (text : SlugText slug) (first : ∃ c, slug.toList.head? = some c ∧ isSlugLetter c = true)
    (short : slug.toList.length ≤ 64) : slugIsValid slug = true := by
  obtain ⟨c, head, letter⟩ := first
  have no_newline : slug.toList.getLast? ≠ some '\n' := fun last =>
    absurd (text '\n' (List.mem_of_getLast? last)) (by decide)
  unfold slugIsValid
  dsimp only
  rw [if_neg no_newline]
  cases chars : slug.toList with
  | nil =>
    rw [chars] at head
    cases head
  | cons d cs =>
    rw [chars] at head short
    cases head
    have rest : cs.all (fun c => isSlugLetter c || c = '_' || c = '-') = true := by
      refine List.all_eq_true.mpr fun d mem => ?_
      have plain := text d (chars ▸ List.mem_cons_of_mem _ mem)
      simp only [isSlugChar, Bool.or_eq_true] at plain
      simp only [Bool.or_eq_true]
      exact plain.imp .inl id
    simp only [letter, rest, short, decide_true, Bool.and_self]

/-- A slug character is neither blank nor upper case. -/
theorem isSlugChar_plain {c : Char} (h : isSlugChar c = true) : Text.isSpace c = false ∧ Text.lowerChar c = [c] := by
  have bounds : 97 ≤ c.toNat ∧ c.toNat ≤ 122 ∨ 48 ≤ c.toNat ∧ c.toNat ≤ 57 ∨ c.toNat = 45 := by
    simp only [isSlugChar, isSlugLetter, Bool.or_eq_true, Bool.and_eq_true, decide_eq_true_eq, Char.le_def,
      UInt32.le_iff_toNat_le] at h
    rcases h with (⟨ha, hz⟩ | ⟨h0, h9⟩) | rfl
    · exact .inl ⟨ha, hz⟩
    · exact .inr (.inl ⟨h0, h9⟩)
    · exact .inr (.inr rfl)
  have lower : c.toLower = c := by
    refine dif_neg ?_
    simp only [UInt32.le_iff_toNat_le, ge_iff_le]
    change ¬(65 ≤ c.toNat ∧ c.toNat ≤ 90)
    omega
  constructor
  · simp [Text.isSpace]
    omega
  · unfold Text.lowerChar
    rw [if_neg (by omega), if_neg (by omega), lower]

theorem SlugText.strip_eq {name : String} (h : SlugText name) : String.ofList (Text.strip name.toList) = name := by
  rw [Text.strip_of_forall fun c hc => (isSlugChar_plain (h c hc)).1, String.ofList_toList]

theorem SlugText.stripLower_eq {name : String} (h : SlugText name) : Text.stripLower name = name := by
  have plain : ∀ c ∈ name.toList, Text.isSpace c = false ∧ Text.lowerChar c = [c] := fun c hc => isSlugChar_plain (h c hc)
  rw [Text.stripLower, Text.strip_of_forall fun c hc => (plain c hc).1, Text.lower_of_forall fun c hc => (plain c hc).2,
    String.ofList_toList]

/-- Of the platform's schemas, only `public` has a name that a slug can have. -/
theorem isPlatformSchema_iff {name : String} (h : SlugText name) : isPlatformSchema name = true ↔ name = "public" := by
  have noUnderscore : '_' ∉ name.toList := fun hm => absurd (h '_' hm) (by decide)
  constructor
  · intro hp
    simp only [isPlatformSchema, Bool.or_eq_true, decide_eq_true_eq] at hp
    rcases hp with (hp | hp) | hp
    · exact hp
    · rw [hp] at noUnderscore
      exact absurd (by decide) noUnderscore
    · have pre := List.isPrefixOf_iff_prefix.mp hp
      exact absurd (pre.mem (by decide)) noUnderscore
  · rintro rfl
    decide

/-- A candidate is `public` only if its base is: a number at its end would be its last character. -/
theorem base_of_candidateDemoSlug_eq_public {base : String} (short : base.toList.length ≤ 48) {suffix : Nat}
    (h : candidateDemoSlug base suffix = "public") : base = "public" := by
  unfold candidateDemoSlug at h
  split at h
  · rwa [List.take_of_length_le (by omega), String.ofList_toList] at h
  · have hl := congrArg String.toList h
    rw [String.toList_ofList] at hl
    have last := congrArg List.getLast? hl
    rw [List.getLast?_append, List.getLast?_eq_some_getLast (@Nat.toDigits_ne_nil suffix 10), Option.some_or] at last
    have digit := Nat.isDigit_of_mem_toDigits (by decide) (by decide) (List.getLast_mem (@Nat.toDigits_ne_nil suffix 10))
    rw [Option.some.inj (last.trans (by decide : "public".toList.getLast? = some 'c'))] at digit
    exact absurd digit (by decide)

end NyzRating.Tenancy
