import Mathlib.Data.List.Infix
import NyzRating.Lib.CharClass
import NyzRating.Lib.Nested

/-!
# Redaction of log payloads

What the logs and the audit trail show of a payload: the values below the keys of passwords, tokens, codes and addresses are
masked, and everything else stays as it is.

Source: `shared/utils/sanitization.py`.
-/

namespace NyzRating.Kernel.Redaction

/-! ### Keys -/

def redactKeys : List String := [
  "password", "current_password", "new_password", "token", "refresh_token", "access_token", "pending_token",
  "two_factor_code", "code", "secret", "authorization", "cookie", "api_key", "jwt", "jwt_token", "api_secret", "prompt",
  "full_prompt", "system_prompt", "user_prompt", "context_text", "raw_content", "document_content", "text_content", "pii"]

/-- The small letter that `re.IGNORECASE` compares a small letter as. -/
def ignoreCase (c : Char) : Char := if c = '\u0131' then 'i' else if c = '\u017f' then 's' else c

def occurs (word text : List Char) : Bool := decide (word <:+: text)

def redactWords : List String := [
  "password", "token", "secret", "key", "auth", "prompt", "context_text", "raw_content", "document_content", "text_content",
  "pii"]

/-- `^(.*)(…)(.*)$`, on a text without a line break at its end. -/
def redactKeyPattern (key : List Char) : Bool :=
  !key.contains '\n' && redactWords.any fun word => occurs word.toList (key.map ignoreCase)

/-- The second word behind the first one. -/
def followedBy (first second line : List Char) : Bool :=
  line.tails.any fun t => first.isPrefixOf t && occurs second (t.drop first.length)

def factorWords : List String := ["2fa", "two_factor", "otp", "verification"]

/-- A factor and a code in one line, in either order. -/
def twoFactorKeyPattern (key : List Char) : Bool :=
  ((key.map ignoreCase).splitOn '\n').any fun line => factorWords.any fun factor =>
    followedBy factor.toList "code".toList line || followedBy "code".toList factor.toList line

def lowerKey (key : String) : List Char := Text.lower key.toList

def shouldRedactKey (key : String) : Bool :=
  let normalized := Text.stripLower key
  redactKeys.contains normalized || redactKeyPattern normalized.toList

def isTwoFactorKey (key : String) : Bool := twoFactorKeyPattern (lowerKey key)

def isEmailKey (key : String) : Bool := occurs "email".toList (lowerKey key)

/-- What stands below such a key is not to be shown. -/
def isSensitive (key : String) : Bool := shouldRedactKey key || isTwoFactorKey key || isEmailKey key

/-! ### Masks -/

/-- A value that is neither a dict nor a list. `other` is one that is no text and no integer, with its `str`. -/
inductive Scalar where
  | none
  | str (s : List Char)
  | int (n : Int)
  | other (text : List Char)
  deriving DecidableEq, Repr

/-- `str` of a value. -/
def Scalar.text : Scalar → List Char
  | .none => "None".toList
  | .str s => s
  | .int n => (toString n).toList
  | .other text => text

def redacted : List Char := "[REDACTED]".toList

def stars (n : Nat) : List Char := List.replicate n '*'

def maskEmail (value : List Char) : List Char :=
  let name := value.takeWhile (· ≠ '@')
  let domain := (value.dropWhile (· ≠ '@')).drop 1
  if '@' ∉ value then redacted
  else if name = [] ∨ domain = [] then redacted
  else if name.length < 4 then redacted
  else
    let hidden := if domain.length < 5 then 0 else domain.length - 5
    name.take 2 ++ stars (name.length - 2) ++ '@' :: stars hidden ++ domain.drop hidden

def maskTwoFactorNumeric (value : List Char) : List Char :=
  if value.length ≤ 2 then value else stars (value.length - 2) ++ value.drop (value.length - 2)

/-- `_redact_value` of a scalar. -/
def redactScalar (key : String) (s : Scalar) : Scalar :=
  match s with
  | .none => .none
  | s =>
    match isEmailKey key, s with
    | true, .str value => .str (maskEmail value)
    | _, s =>
      if isTwoFactorKey key then
        .str (if Text.isdigit s.text then maskTwoFactorNumeric s.text else redacted)
      else .str redacted

/-! ### Payloads -/

abbrev Payload := Nested String Scalar

/-- Texts are masked as addresses. -/
def maskAddress : Payload → Payload
  | .leaf (.str value) => .leaf (.str (maskEmail value))
  | item => item

mutual

def redactValue (key : String) : Payload → Payload
  | .leaf s => .leaf (redactScalar key s)
  | .list items => .list (redactItems key items)
  | .dict entries => .dict (sanitizeLogData entries)

def redactItems (key : String) : List Payload → List Payload
  | [] => []
  | item :: items => redactValue key item :: redactItems key items

def sanitizeLogData : List (String × Payload) → List (String × Payload)
  | [] => []
  | (key, value) :: entries => (key, sanitizeValue key value) :: sanitizeLogData entries

/-- What `sanitize_log_data` stores under a key. -/
def sanitizeValue (key : String) : Payload → Payload
  | .leaf s =>
    if shouldRedactKey key then .leaf (redactScalar key s)
    else if isEmailKey key then maskAddress (.leaf s)
    else .leaf s
  | .list items =>
    if shouldRedactKey key then .list (redactItems key items)
    else if isEmailKey key then .list (items.map maskAddress)
    else .list (sanitizeItems items)
  | .dict entries =>
    if shouldRedactKey key then .dict (sanitizeLogData entries)
    else if isEmailKey key then .dict entries
    else .dict (sanitizeLogData entries)

def sanitizeItems : List Payload → List Payload
  | [] => []
  | .dict entries :: items => .dict (sanitizeLogData entries) :: sanitizeItems items
  | item :: items => item :: sanitizeItems items

end

example : sanitizeLogData [("email", .leaf (.str "teszt@example.com".toList)), ("two_factor_code", .leaf (.str "123456".toList))] =
    [("email", .leaf (.str "te***@******e.com".toList)), ("two_factor_code", .leaf (.str "****56".toList))] := by
  rfl

/-! ### What is shown -/

/-- Below a sensitive key another value is shown, unless there is none; elsewhere the same. -/
def Treated (below : Bool) (s s' : Scalar) : Prop := if below then s = .none ∨ s' ≠ s else s' = s

/-- The payload is shown with everything below sensitive keys masked, and nothing else changed. -/
def Redacts (entries : List (String × Payload)) : Prop :=
  Nested.LeafwiseEntries isSensitive Treated false entries (sanitizeLogData entries)

/-- A text that is its own mask. -/
def OwnMaskEmail (value : List Char) : Prop := value = redacted ∨ ∃ name domain : List Char, value = name ++ '@' :: domain ∧
  '@' ∉ name ∧ 4 ≤ name.length ∧ domain ≠ [] ∧ (∀ c ∈ name.drop 2, c = '*') ∧ ∀ c ∈ domain.take (domain.length - 5), c = '*'

/-- A scalar that is its own mask under the key. -/
def OwnMask (key : String) : Scalar → Prop
  | .str value =>
    if isEmailKey key then OwnMaskEmail value
    else value = redacted ∨ isTwoFactorKey key = true ∧ Text.isdigit value = true ∧ value.length ≤ 2
  | _ => False

/-- Left as it is, the value shows nothing that stands below a sensitive key. -/
def Silent (below : Bool) (v : Payload) : Prop := Nested.Every isSensitive (fun below s => below = true → s = .none) below v

def CoveredScalar (key : String) (s : Scalar) : Prop := s = .none ∨ ¬OwnMask key s

/-- An item under the key of an address: only texts are masked. -/
def CoveredAddress : Payload → Prop
  | .leaf (.str value) => ¬OwnMaskEmail value
  | item => Silent true item

mutual

/-- Under a key that is redacted, scalars are masked, and dicts begin anew. -/
def CoveredBelow (key : String) : Payload → Prop
  | .leaf s => CoveredScalar key s
  | .list items => CoveredItemsBelow key items
  | .dict entries => Covered true entries

def CoveredItemsBelow (key : String) : List Payload → Prop
  | [] => True
  | item :: items => CoveredBelow key item ∧ CoveredItemsBelow key items

/-- Nothing below a sensitive key gets through. `below` tells whether all of it is below one. -/
def Covered (below : Bool) : List (String × Payload) → Prop
  | [] => True
  | (key, value) :: entries => CoveredValue below key value ∧ Covered below entries

def CoveredValue (below : Bool) (key : String) : Payload → Prop
  | .leaf s =>
    if shouldRedactKey key then CoveredScalar key s
    else if isEmailKey key then CoveredAddress (.leaf s)
    else (below || isTwoFactorKey key) = true → s = .none
  | .list items =>
    if shouldRedactKey key then CoveredItemsBelow key items
    else if isEmailKey key then ∀ item ∈ items, CoveredAddress item
    else CoveredItems (below || isTwoFactorKey key) items
  | .dict entries =>
    if shouldRedactKey key then Covered true entries
    else if isEmailKey key then Silent true (.dict entries)
    else Covered (below || isTwoFactorKey key) entries

/-- Of the items of a list only dicts are looked into. -/
def CoveredItems (below : Bool) : List Payload → Prop
  | [] => True
  | .dict entries :: items => Covered below entries ∧ CoveredItems below items
  | item :: items => Silent below item ∧ CoveredItems below items

end

/-! ### Masks and their values -/

theorem stars_eq_iff {hidden : List Char} {n : Nat} (length : hidden.length = n) : stars n = hidden ↔ ∀ c ∈ hidden, c = '*' := by
  rw [eq_comm, stars, List.eq_replicate_iff, and_iff_right length]

theorem takeWhile_name {name : List Char} (domain : List Char) (first : '@' ∉ name) :
    (name ++ '@' :: domain).takeWhile (· ≠ '@') = name := by
  have other : ∀ c ∈ name, decide (c ≠ '@') = true := fun c mem => decide_eq_true fun same => first (same ▸ mem)
  rw [List.takeWhile_append_of_pos other]
  simp

theorem dropWhile_name {name : List Char} (domain : List Char) (first : '@' ∉ name) :
    (name ++ '@' :: domain).dropWhile (· ≠ '@') = '@' :: domain := by
  have other : ∀ c ∈ name, decide (c ≠ '@') = true := fun c mem => decide_eq_true fun same => first (same ▸ mem)
  rw [List.dropWhile_append_of_pos other]
  simp

/-- The mask of an address, by its two parts. -/
theorem maskEmail_append {name domain : List Char} (first : '@' ∉ name) : maskEmail (name ++ '@' :: domain) =
    if name = [] ∨ domain = [] then redacted
    else if name.length < 4 then redacted
    else name.take 2 ++ stars (name.length - 2) ++ '@' :: stars (domain.length - 5) ++ domain.drop (domain.length - 5) := by
  have hidden : (if domain.length < 5 then 0 else domain.length - 5) = domain.length - 5 := by
    split <;> omega
  unfold maskEmail
  dsimp only
  rw [takeWhile_name domain first, dropWhile_name domain first, if_neg (not_not_intro (List.mem_append_right _ List.mem_cons_self)),
    List.drop_one, List.tail_cons, hidden]

/-- What is hidden of an address is nothing but stars. -/
theorem maskEmail_parts {name domain : List Char} (long : 4 ≤ name.length) :
    name.take 2 ++ stars (name.length - 2) ++ '@' :: stars (domain.length - 5) ++ domain.drop (domain.length - 5) =
      name ++ '@' :: domain ↔ (∀ c ∈ name.drop 2, c = '*') ∧ ∀ c ∈ domain.take (domain.length - 5), c = '*' := by
  rw [← stars_eq_iff (List.length_drop : (name.drop 2).length = name.length - 2),
    ← stars_eq_iff (show (domain.take (domain.length - 5)).length = domain.length - 5 by rw [List.length_take]; omega)]
  constructor
  · intro same
    have parts : (name.take 2 ++ stars (name.length - 2)) ++ '@' :: (stars (domain.length - 5) ++ domain.drop (domain.length - 5)) =
        name ++ '@' :: domain := by simpa using same
    have length : (name.take 2 ++ stars (name.length - 2)).length = name.length := by
      rw [List.length_append, List.length_take, stars, List.length_replicate]
      omega
    obtain ⟨front, behind⟩ := List.append_inj parts length
    constructor
    · have whole := front.trans (List.take_append_drop 2 name).symm
      exact List.append_cancel_left whole
    · have whole := (List.cons.inj behind).2.trans (List.take_append_drop (domain.length - 5) domain).symm
      exact List.append_cancel_right whole
  · rintro ⟨front, behind⟩
    rw [front, behind, List.take_append_drop, List.append_assoc, List.cons_append, List.take_append_drop]

theorem maskEmail_eq_self (value : List Char) : maskEmail value = value ↔ OwnMaskEmail value := by
  have plain : '@' ∉ redacted := by decide
  by_cases address : '@' ∈ value
  · obtain ⟨name, domain, rfl, first⟩ := List.eq_append_cons_of_mem address
    have other : redacted ≠ name ++ '@' :: domain := fun same => plain (same ▸ address)
    rw [maskEmail_append first]
    constructor
    · intro same
      split at same
      · exact absurd same other
      · next both =>
        split at same
        · exact absurd same other
        · next long =>
          obtain ⟨front, behind⟩ := (maskEmail_parts (Nat.le_of_not_lt long)).mp same
          exact .inr ⟨name, domain, rfl, first, Nat.le_of_not_lt long, fun none' => both (.inr none'), front, behind⟩
    · rintro (same | ⟨name', domain', same, first', long, some', front, behind⟩)
      · exact absurd same.symm other
      · obtain rfl : name = name' := by
          rw [← takeWhile_name domain first, same, takeWhile_name domain' first']
        obtain rfl : domain = domain' := by simpa using same
        have named : name ≠ [] := List.ne_nil_of_length_pos (by omega)
        rw [if_neg (by simp [named, some']), if_neg (by omega)]
        exact (maskEmail_parts long).mpr ⟨front, behind⟩
  · have whole : maskEmail value = redacted := if_pos address
    rw [whole]
    constructor
    · exact fun same => .inl same.symm
    · rintro (same | ⟨name, domain, rfl, -⟩)
      · exact same.symm
      · exact absurd (List.mem_append_right _ List.mem_cons_self) address

theorem maskTwoFactorNumeric_eq_self {value : List Char} (digits : Text.isdigit value = true) :
    maskTwoFactorNumeric value = value ↔ value.length ≤ 2 := by
  unfold maskTwoFactorNumeric
  split
  · next short => exact iff_of_true rfl short
  · next long =>
    refine iff_of_false (fun same => ?_) long
    have star : '*' ∈ value := by
      rw [← same]
      exact List.mem_append_left _ (List.mem_replicate.mpr ⟨by omega, rfl⟩)
    simp only [Text.isdigit, Bool.and_eq_true, List.all_eq_true] at digits
    exact absurd (digits.2 '*' star) (by decide)

/-- A mask is a text. -/
theorem redactScalar_text {key : String} {s : Scalar} (some' : s ≠ .none) : ∃ shown, redactScalar key s = .str shown := by
  cases s with
  | none => exact absurd rfl some'
  | int n => cases email : isEmailKey key <;> cases factor : isTwoFactorKey key <;> simp [redactScalar, email, factor]
  | other text => cases email : isEmailKey key <;> cases factor : isTwoFactorKey key <;> simp [redactScalar, email, factor]
  | str value => cases email : isEmailKey key <;> cases factor : isTwoFactorKey key <;> simp [redactScalar, email, factor]

theorem redactScalar_eq_self {key : String} {s : Scalar} (some' : s ≠ .none) : redactScalar key s = s ↔ OwnMask key s := by
  obtain ⟨shown, text⟩ := @redactScalar_text key s some'
  cases s with
  | none => exact absurd rfl some'
  | int n => exact iff_of_false (by rw [text]; nofun) id
  | other t => exact iff_of_false (by rw [text]; nofun) id
  | str value =>
    cases email : isEmailKey key with
    | true =>
      rw [OwnMask, if_pos email, ← maskEmail_eq_self]
      simp [redactScalar, email]
    | false =>
      have plain : Text.isdigit redacted = false := by decide
      have swap : redacted = value ↔ value = redacted := eq_comm
      rw [OwnMask, email, if_neg Bool.false_ne_true]
      cases factor : isTwoFactorKey key with
      | false => simp [redactScalar, email, factor, swap]
      | true =>
        cases digits : Text.isdigit value with
        | false => simp [redactScalar, email, factor, Scalar.text, digits, swap]
        | true =>
          have other : value ≠ redacted := fun same => absurd (same ▸ digits) (by rw [plain]; exact Bool.false_ne_true)
          simp [redactScalar, email, factor, Scalar.text, digits, other, maskTwoFactorNumeric_eq_self digits]

theorem redactScalar_treated (key : String) (s : Scalar) : Treated true s (redactScalar key s) ↔ CoveredScalar key s := by
  unfold Treated CoveredScalar
  rw [if_pos rfl]
  by_cases none' : s = .none
  · exact iff_of_true (.inl none') (.inl none')
  · rw [or_iff_right none', or_iff_right none', Ne, redactScalar_eq_self none']

theorem silent_iff (below : Bool) (v : Payload) : Nested.Leafwise isSensitive Treated below v v ↔ Silent below v := by
  refine Nested.leafwise_self (fun below s => ?_) below v
  cases below <;> simp [Treated]

theorem maskAddress_treated (item : Payload) :
    Nested.Leafwise isSensitive Treated true item (maskAddress item) ↔ CoveredAddress item := by
  match item with
  | .leaf (.str value) =>
    have masked : Treated true (.str value) (.str (maskEmail value)) ↔ ¬maskEmail value = value := by simp [Treated]
    exact masked.trans (not_congr (maskEmail_eq_self value))
  | .leaf .none => exact silent_iff true _
  | .leaf (.int n) => exact silent_iff true _
  | .leaf (.other text) => exact silent_iff true _
  | .list items => exact silent_iff true _
  | .dict entries => exact silent_iff true _

theorem leafwise_map_maskAddress (items : List Payload) :
    Nested.LeafwiseItems isSensitive Treated true items (items.map maskAddress) ↔ ∀ item ∈ items, CoveredAddress item := by
  induction items with
  | nil => simp [Nested.LeafwiseItems]
  | cons item items ih =>
    rw [List.forall_mem_cons, ← ih, ← maskAddress_treated]
    rfl

/-- The three ways in which the value of a key is treated. -/
theorem sensitive_cases (below : Bool) (key : String) :
    shouldRedactKey key = true ∧ (below || isSensitive key) = true ∨
    shouldRedactKey key = false ∧ isEmailKey key = true ∧ (below || isSensitive key) = true ∨
    shouldRedactKey key = false ∧ isEmailKey key = false ∧ (below || isSensitive key) = (below || isTwoFactorKey key) := by
  cases redact : shouldRedactKey key with
  | true => exact .inl ⟨rfl, by simp [isSensitive, redact]⟩
  | false =>
    cases email : isEmailKey key with
    | true => exact .inr (.inl ⟨rfl, rfl, by simp [isSensitive, email]⟩)
    | false => exact .inr (.inr ⟨rfl, rfl, by simp [isSensitive, redact, email]⟩)

mutual

theorem redactValue_treated (key : String) : ∀ v : Payload,
    Nested.Leafwise isSensitive Treated true v (redactValue key v) ↔ CoveredBelow key v
  | .leaf s => redactScalar_treated key s
  | .list items => redactItems_treated key items
  | .dict entries => sanitizeLogData_treated true entries

theorem redactItems_treated (key : String) : ∀ items : List Payload,
    Nested.LeafwiseItems isSensitive Treated true items (redactItems key items) ↔ CoveredItemsBelow key items
  | [] => Iff.rfl
  | item :: items => and_congr (redactValue_treated key item) (redactItems_treated key items)

theorem sanitizeLogData_treated (below : Bool) : ∀ entries : List (String × Payload),
    Nested.LeafwiseEntries isSensitive Treated below entries (sanitizeLogData entries) ↔ Covered below entries
  | [] => Iff.rfl
  | (key, value) :: entries =>
    (and_iff_right rfl).trans (and_congr (sanitizeValue_treated below key value) (sanitizeLogData_treated below entries))

theorem sanitizeValue_treated (below : Bool) (key : String) : ∀ v : Payload,
    Nested.Leafwise isSensitive Treated (below || isSensitive key) v (sanitizeValue key v) ↔ CoveredValue below key v
  | .leaf s => by
    rcases sensitive_cases below key with ⟨redact, flag⟩ | ⟨redact, email, flag⟩ | ⟨redact, email, flag⟩
    · rw [flag, sanitizeValue, CoveredValue, if_pos redact, if_pos redact]
      exact redactScalar_treated key s
    · rw [flag, sanitizeValue, CoveredValue, redact, if_neg Bool.false_ne_true, if_neg Bool.false_ne_true, if_pos email, if_pos email]
      exact maskAddress_treated (.leaf s)
    · rw [flag, sanitizeValue, CoveredValue, redact, email, if_neg Bool.false_ne_true, if_neg Bool.false_ne_true,
        if_neg Bool.false_ne_true, if_neg Bool.false_ne_true]
      exact silent_iff (below || isTwoFactorKey key) (.leaf s)
  | .list items => by
    rcases sensitive_cases below key with ⟨redact, flag⟩ | ⟨redact, email, flag⟩ | ⟨redact, email, flag⟩
    · rw [flag, sanitizeValue, CoveredValue, if_pos redact, if_pos redact]
      exact redactItems_treated key items
    · rw [flag, sanitizeValue, CoveredValue, redact, if_neg Bool.false_ne_true, if_neg Bool.false_ne_true, if_pos email, if_pos email]
      exact leafwise_map_maskAddress items
    · rw [flag, sanitizeValue, CoveredValue, redact, email, if_neg Bool.false_ne_true, if_neg Bool.false_ne_true,
        if_neg Bool.false_ne_true, if_neg Bool.false_ne_true]
      exact sanitizeItems_treated (below || isTwoFactorKey key) items
  | .dict entries => by
    rcases sensitive_cases below key with ⟨redact, flag⟩ | ⟨redact, email, flag⟩ | ⟨redact, email, flag⟩
    · rw [flag, sanitizeValue, CoveredValue, if_pos redact, if_pos redact]
      exact sanitizeLogData_treated true entries
    · rw [flag, sanitizeValue, CoveredValue, redact, if_neg Bool.false_ne_true, if_neg Bool.false_ne_true, if_pos email, if_pos email]
      exact silent_iff true (.dict entries)
    · rw [flag, sanitizeValue, CoveredValue, redact, email, if_neg Bool.false_ne_true, if_neg Bool.false_ne_true,
        if_neg Bool.false_ne_true, if_neg Bool.false_ne_true]
      exact sanitizeLogData_treated (below || isTwoFactorKey key) entries

theorem sanitizeItems_treated (below : Bool) : ∀ items : List Payload,
    Nested.LeafwiseItems isSensitive Treated below items (sanitizeItems items) ↔ CoveredItems below items
  | [] => Iff.rfl
  | .dict entries :: items => and_congr (sanitizeLogData_treated below entries) (sanitizeItems_treated below items)
  | .leaf s :: items => and_congr (silent_iff below (.leaf s)) (sanitizeItems_treated below items)
  | .list inner :: items => and_congr (silent_iff below (.list inner)) (sanitizeItems_treated below items)

end

/-- A payload is redacted exactly where nothing gets through: every scalar below a sensitive key is reached by a mask, and is
    not its own. -/
theorem redacts_iff_covered (entries : List (String × Payload)) : Redacts entries ↔ Covered false entries :=
  sanitizeLogData_treated false entries

/-- A dict below the key of a secret is shown as if it stood for itself. -/
theorem not_redacts_inner : ¬Redacts [("secret", .dict [("value", .leaf (.str "x".toList))])] := by
  intro redacts
  have covered := ((sanitizeLogData_treated false _).mp redacts).1
  have secret : shouldRedactKey "secret" = true := by decide +kernel
  have value : shouldRedactKey "value" = false ∧ isEmailKey "value" = false := by decide +kernel
  rw [CoveredValue, if_pos secret] at covered
  have leaf := covered.1
  rw [CoveredValue, value.1, value.2, if_neg Bool.false_ne_true, if_neg Bool.false_ne_true, Bool.true_or] at leaf
  cases leaf rfl

end NyzRating.Kernel.Redaction
