import NyzRating.Lib.Decimal

/-!
# Flat JSON objects

Objects whose members are texts and integers. A text is written and read as it stands: it has no quote, no backslash, no
control character and nothing outside ASCII.
-/

namespace Json

open Decimal

inductive Value where
  | text (s : List Char)
  | number (n : Int)
  deriving DecidableEq, Repr

/-- The character is written as it is. -/
def Plain (c : Char) : Prop := c ≠ '"' ∧ c ≠ '\\' ∧ 32 ≤ c.toNat ∧ c.toNat < 127

instance : DecidablePred Plain := fun _ => inferInstanceAs (Decidable (_ ∧ _))

abbrev Members := List (List Char × Value)

def writeText (s : List Char) : List Char := '"' :: s ++ ['"']

def writeValue : Value → List Char
  | .text s => writeText s
  | .number n => writeInt n

def writeMembers : Members → List Char
  | [] => []
  | [(name, value)] => writeText name ++ ':' :: writeValue value
  | (name, value) :: members => writeText name ++ ':' :: (writeValue value ++ ',' :: writeMembers members)

/-- `json.dumps(members, separators=(",", ":"))` -/
def dumps (members : Members) : List Char := '{' :: (writeMembers members ++ ['}'])

/-- The text up to the next quote, and what is after it. -/
def readText : List Char → Option (List Char × List Char)
  | [] => none
  | c :: rest =>
    if c = '"' then some ([], rest)
    else if Plain c then (readText rest).map fun (s, rest) => (c :: s, rest)
    else none

def readValue (s : List Char) : Option (Value × List Char) :=
  match s with
  | '"' :: s => (readText s).map fun (text, rest) => (.text text, rest)
  | s => (readInt s).map fun (n, rest) => (.number n, rest)

def readMember (s : List Char) : Option ((List Char × Value) × List Char) := do
  let s ← expect '"' s
  let (name, s) ← readText s
  let s ← expect ':' s
  let (value, s) ← readValue s
  return ((name, value), s)

/-- The members up to the closing brace, of which there are no more than `fuel`. -/
def readMembers : Nat → List Char → Option Members
  | 0, _ => none
  | fuel + 1, s => do
    let (member, s) ← readMember s
    match s with
    | ['}'] => some [member]
    | ',' :: s => (readMembers fuel s).map (member :: ·)
    | _ => none

/-- `json.loads` -/
def loads (s : List Char) : Option Members :=
  match s with
  | '{' :: s => if s = ['}'] then some [] else readMembers s.length s
  | _ => none

/-- `members[name]`: the last one counts. -/
def Members.get? (members : Members) (name : List Char) : Option Value :=
  (members.reverse.find? (·.1 = name)).map (·.2)

def Value.Plain : Value → Prop
  | .text s => ∀ c ∈ s, Json.Plain c
  | .number _ => True

example : loads (dumps [(['a'], .text ['x']), (['i', 'd'], .number (-7))]) =
    some [(['a'], .text ['x']), (['i', 'd'], .number (-7))] := by decide

theorem readText_append {s : List Char} (plain : ∀ c ∈ s, Plain c) (rest : List Char) :
    readText (s ++ '"' :: rest) = some (s, rest) := by
  induction s with
  | nil => rfl
  | cons c s ih =>
    have this := plain c List.mem_cons_self
    rw [List.cons_append, readText, if_neg this.1, if_pos this, ih fun d mem => plain d (List.mem_cons_of_mem _ mem)]
    rfl

theorem readValue_writeValue {v : Value} (plain : v.Plain) {rest : List Char} (stop : ∀ c ∈ rest.head?, c.isDigit = false) :
    readValue (writeValue v ++ rest) = some (v, rest) := by
  cases v with
  | text s =>
    have text : writeValue (.text s) ++ rest = '"' :: (s ++ '"' :: rest) := by simp [writeValue, writeText]
    rw [text, readValue, readText_append plain]
    rfl
  | number n =>
    have noQuote : ∀ s, readInt s = some (n, rest) → readValue s = some (.number n, rest) := by
      intro s read
      unfold readValue
      split
      · cases read
      · rw [read]
        rfl
    exact noQuote _ (readInt_writeInt n stop)

theorem readMember_write {name : List Char} {v : Value} (plainName : ∀ c ∈ name, Plain c) (plain : v.Plain)
    {rest : List Char} (stop : ∀ c ∈ rest.head?, c.isDigit = false) :
    readMember (writeText name ++ ':' :: (writeValue v ++ rest)) = some ((name, v), rest) := by
  have text : writeText name ++ ':' :: (writeValue v ++ rest) = '"' :: (name ++ '"' :: ':' :: (writeValue v ++ rest)) := by
    simp [writeText]
  unfold readMember
  simp only [text, expect_cons, Option.bind_eq_bind, Option.bind_some, readText_append plainName,
    readValue_writeValue plain stop]
  rfl

theorem readMembers_writeMembers {members : Members} (plain : ∀ m ∈ members, (∀ c ∈ m.1, Plain c) ∧ m.2.Plain) :
    ∀ {fuel : Nat}, members ≠ [] → members.length ≤ fuel → readMembers fuel (writeMembers members ++ ['}']) = some members := by
  induction members using writeMembers.induct with
  | case1 => exact fun empty => absurd rfl empty
  | case2 name value =>
    intro fuel _ enough
    obtain ⟨fuel, rfl⟩ := Nat.exists_eq_succ_of_ne_zero (Nat.ne_of_gt enough)
    obtain ⟨plainName, plainValue⟩ := plain (name, value) (List.mem_singleton_self _)
    have text : writeMembers [(name, value)] ++ ['}'] = writeText name ++ ':' :: (writeValue value ++ ['}']) := by
      simp [writeMembers]
    rw [readMembers, text, readMember_write plainName plainValue (by simp)]
    rfl
  | case3 name value members other ih =>
    intro fuel _ enough
    obtain ⟨fuel, rfl⟩ := Nat.exists_eq_succ_of_ne_zero (Nat.ne_of_gt (Nat.lt_of_lt_of_le (Nat.succ_pos _) enough))
    obtain ⟨plainName, plainValue⟩ := plain (name, value) List.mem_cons_self
    have text : writeMembers ((name, value) :: members) ++ ['}'] =
        writeText name ++ ':' :: (writeValue value ++ ',' :: (writeMembers members ++ ['}'])) := by
      rw [writeMembers]
      · simp
      · exact other
    rw [readMembers, text, readMember_write plainName plainValue (by simp)]
    have read := ih (fun m mem => plain m (List.mem_cons_of_mem _ mem)) (fun empty => other empty)
      (Nat.le_of_succ_le_succ enough)
    simp only [Option.bind_eq_bind, Option.bind_some, read, Option.map_some]

theorem length_le_writeMembers (members : Members) : members.length ≤ (writeMembers members).length := by
  induction members using writeMembers.induct with
  | case1 => exact Nat.le_refl 0
  | case2 name value => simp [writeMembers, writeText]
  | case3 name value members other ih =>
    rw [writeMembers]
    · simp only [List.length_append, List.length_cons]
      omega
    · exact other

/-- What is written is read again. -/
theorem loads_dumps (members : Members) (plain : ∀ m ∈ members, (∀ c ∈ m.1, Plain c) ∧ m.2.Plain) :
    loads (dumps members) = some members := by
  unfold dumps loads
  cases members with
  | nil => rfl
  | cons m members =>
    have longer := length_le_writeMembers (m :: members)
    have member : writeMembers (m :: members) ++ ['}'] ≠ ['}'] := by
      intro same
      have lengths := congrArg List.length same
      simp only [List.length_append, List.length_cons, List.length_nil] at lengths longer
      omega
    refine (if_neg member).trans (readMembers_writeMembers plain (List.cons_ne_nil m members) ?_)
    rw [List.length_append]
    exact Nat.le_add_right_of_le longer

end Json
