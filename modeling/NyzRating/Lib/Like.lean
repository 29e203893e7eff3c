import Mathlib.Data.List.Infix

/-!
# Patterns of `LIKE`

A percent sign stands for any text, an underscore for any one character, and a backslash takes the meaning from the
character after it. A pattern of a text between two percent signs asks whether the text occurs, as long as the text has
none of the three characters; with one of them the pattern also matches a text in which it does not occur.
-/

namespace Like

inductive Token where
  | anyString
  | anyChar
  | char (c : Char)
  deriving DecidableEq, Repr

/-- A pattern must not end with the backslash of an escape. -/
def tokens : List Char → List Token
  | [] => []
  | ['\\'] => []
  | '\\' :: c :: p => .char c :: tokens p
  | '%' :: p => .anyString :: tokens p
  | '_' :: p => .anyChar :: tokens p
  | c :: p => .char c :: tokens p

def matchTokens : List Token → List Char → Bool
  | [], t => t.isEmpty
  | .anyString :: ts, t => t.tails.any (matchTokens ts)
  | .anyChar :: ts, t =>
    match t with
    | [] => false
    | _ :: t => matchTokens ts t
  | .char c :: ts, t =>
    match t with
    | [] => false
    | d :: t => c == d && matchTokens ts t

/-- `t LIKE p` -/
def like (p t : List Char) : Bool := matchTokens (tokens p) t

example : like "%a_c\\%%".toList "xabc%y".toList = true := by decide

/-- The pattern that is to find `q`. -/
def containing (q : List Char) : List Char := '%' :: q ++ ['%']

/-- The character stands for itself in a pattern. -/
def Plain (c : Char) : Prop := c ≠ '%' ∧ c ≠ '_' ∧ c ≠ '\\'

instance : DecidablePred Plain := fun _ => inferInstanceAs (Decidable (_ ∧ _))

variable {c : Char} {p q t : List Char} {ts : List Token}

theorem tokens_cons (plain : Plain c) (p : List Char) : tokens (c :: p) = .char c :: tokens p := by
  obtain ⟨percent, underscore, backslash⟩ := plain
  rw [tokens.eq_def]
  split
  · next h => cases h
  · next h => exact absurd (List.cons.inj h).1 backslash
  · next h => exact absurd (List.cons.inj h).1 backslash
  · next h => exact absurd (List.cons.inj h).1 percent
  · next h => exact absurd (List.cons.inj h).1 underscore
  · next h =>
    cases h
    rfl

theorem tokens_append (plain : ∀ c ∈ q, Plain c) (p : List Char) : tokens (q ++ p) = q.map .char ++ tokens p := by
  induction q with
  | nil => rfl
  | cons c q ih =>
    rw [List.cons_append, tokens_cons (plain c List.mem_cons_self), ih fun d mem => plain d (List.mem_cons_of_mem _ mem)]
    rfl

theorem matchTokens_append (q : List Char) (ts : List Token) (t : List Char) :
    matchTokens (q.map .char ++ ts) t = true ↔ ∃ r, t = q ++ r ∧ matchTokens ts r = true := by
  induction q generalizing t with
  | nil => simp
  | cons c q ih =>
    cases t with
    | nil => simp [matchTokens]
    | cons d t =>
      simp only [List.map_cons, List.cons_append, matchTokens, Bool.and_eq_true, beq_iff_eq, ih, List.cons.injEq]
      constructor
      · rintro ⟨rfl, r, rfl, rest⟩
        exact ⟨r, ⟨rfl, rfl⟩, rest⟩
      · rintro ⟨r, ⟨rfl, rfl⟩, rest⟩
        exact ⟨rfl, r, rfl, rest⟩

theorem matchTokens_anyString (ts : List Token) (t : List Char) :
    matchTokens (.anyString :: ts) t = true ↔ ∃ l r, l ++ r = t ∧ matchTokens ts r = true := by
  simp only [matchTokens, List.any_eq_true, List.mem_tails]
  constructor
  · rintro ⟨r, ⟨l, split⟩, rest⟩
    exact ⟨l, r, split, rest⟩
  · rintro ⟨l, r, split, rest⟩
    exact ⟨r, ⟨l, split⟩, rest⟩

/-- A text of plain characters is found where it occurs, and nowhere else. -/
theorem like_containing (plain : ∀ c ∈ q, Plain c) (t : List Char) : like (containing q) t = true ↔ q <:+: t := by
  have parsed : tokens (containing q) = .anyString :: (q.map .char ++ [.anyString]) := by
    change Token.anyString :: tokens (q ++ ['%']) = _
    rw [tokens_append plain]
    rfl
  have rest : ∀ r, matchTokens [.anyString] r = true := fun r => (matchTokens_anyString [] r).mpr ⟨r, [], by simp, rfl⟩
  rw [like, parsed, matchTokens_anyString]
  constructor
  · rintro ⟨l, r, rfl, found⟩
    obtain ⟨s, rfl, -⟩ := (matchTokens_append q _ r).mp found
    exact ⟨l, s, by simp⟩
  · rintro ⟨l, s, rfl⟩
    exact ⟨l, q ++ s, by simp, (matchTokens_append q _ _).mpr ⟨s, rfl, rest s⟩⟩

/-! ### Texts that a pattern matches -/

/-- The shortest text that the tokens match, with `x` for any one character. -/
def sample (x : Char) : List Token → List Char
  | [] => []
  | .anyString :: ts => sample x ts
  | .anyChar :: ts => x :: sample x ts
  | .char c :: ts => c :: sample x ts

theorem matchTokens_sample (x : Char) (ts : List Token) : matchTokens ts (sample x ts) = true := by
  induction ts with
  | nil => rfl
  | cons token ts ih =>
    cases token with
    | anyString => exact (matchTokens_anyString ts _).mpr ⟨[], sample x ts, rfl, ih⟩
    | anyChar => exact ih
    | char c => simpa [sample, matchTokens] using ih

/-- The shortest match of a text before a percent sign is no longer than the text, and is another text unless each
character stands for itself. -/
theorem sample_tokens {x : Char} (other : x ≠ '_') (q : List Char) : (sample x (tokens (q ++ ['%']))).length ≤ q.length ∧
    (sample x (tokens (q ++ ['%'])) = q → ∀ c ∈ q, Plain c) ∧
    ∀ c ∈ sample x (tokens (q ++ ['%'])), c ∈ q ∨ c = x ∨ c = '%' := by
  induction q using tokens.induct with
  | case1 => exact ⟨Nat.le_refl 0, by simp, by simp [tokens, sample]⟩
  | case2 => exact ⟨Nat.le_refl 1, by simp [tokens, sample], by simp [tokens, sample]⟩
  | case3 c p ih =>
    have parsed : sample x (tokens ('\\' :: c :: p ++ ['%'])) = c :: sample x (tokens (p ++ ['%'])) := rfl
    obtain ⟨short, -, chars⟩ := ih
    rw [parsed]
    refine ⟨by simp only [List.length_cons]; omega, fun same => ?_, ?_⟩
    · have lengths := congrArg List.length same
      simp only [List.length_cons] at lengths
      omega
    · intro d mem
      rcases List.mem_cons.mp mem with rfl | mem
      · simp
      · rcases chars d mem with inP | rest
        · simp [inP]
        · exact .inr rest
  | case4 p ih =>
    have parsed : sample x (tokens ('%' :: p ++ ['%'])) = sample x (tokens (p ++ ['%'])) := rfl
    obtain ⟨short, -, chars⟩ := ih
    rw [parsed]
    refine ⟨by simp only [List.length_cons]; omega, fun same => ?_, fun d mem => ?_⟩
    · have lengths := congrArg List.length same
      simp only [List.length_cons] at lengths
      omega
    · rcases chars d mem with inP | rest
      · exact .inl (List.mem_cons_of_mem _ inP)
      · exact .inr rest
  | case5 p ih =>
    have parsed : sample x (tokens ('_' :: p ++ ['%'])) = x :: sample x (tokens (p ++ ['%'])) := rfl
    obtain ⟨short, -, chars⟩ := ih
    rw [parsed]
    refine ⟨by simp only [List.length_cons]; omega, fun same => ?_, ?_⟩
    · exact absurd (List.cons.inj same).1 other
    · intro d mem
      rcases List.mem_cons.mp mem with rfl | mem
      · simp
      · rcases chars d mem with inP | rest
        · simp [inP]
        · exact .inr rest
  | case6 c p h1 h2 h3 h4 ih =>
    have plain : Plain c := ⟨h3, h4, fun same => by
      subst same
      cases p with
      | nil => exact h1 rfl rfl
      | cons d p => exact h2 d p rfl rfl⟩
    have parsed : sample x (tokens (c :: p ++ ['%'])) = c :: sample x (tokens (p ++ ['%'])) := by
      rw [List.cons_append, tokens_cons plain]
      rfl
    obtain ⟨short, same, chars⟩ := ih
    rw [parsed]
    refine ⟨by simp only [List.length_cons]; omega, fun eq => ?_, ?_⟩
    · intro d mem
      rcases List.mem_cons.mp mem with rfl | mem
      · exact plain
      · exact same (List.cons.inj eq).2 d mem
    · intro d mem
      rcases List.mem_cons.mp mem with rfl | mem
      · simp
      · rcases chars d mem with inP | rest
        · simp [inP]
        · exact .inr rest

/-- With a character that does not stand for itself, the pattern also matches a text in which `q` does not occur. -/
theorem like_containing_imprecise (special : ¬∀ c ∈ q, Plain c) {x : Char} (other : x ≠ '_') :
    ∃ t, like (containing q) t = true ∧ ¬q <:+: t ∧ ∀ c ∈ t, c ∈ q ∨ c = x ∨ c = '%' := by
  obtain ⟨short, same, chars⟩ := sample_tokens other q
  refine ⟨sample x (tokens (q ++ ['%'])), ?_, fun occurs => ?_, chars⟩
  · exact (matchTokens_anyString _ _).mpr ⟨[], _, rfl, matchTokens_sample x _⟩
  · exact special (same (occurs.eq_of_length_le short).symm)

end Like
