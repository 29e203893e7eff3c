import NyzRating.Settings.TaxId
import NyzRating.Traffic.MobileNumber

/-!
# What the forms accept

The forms of the browser check mobile numbers and tax ids before the server does.

Source: `features/traffic/validation/huMobile.ts`, `features/billing/billingCountries.ts`.
-/

namespace NyzRating.Frontend

open Traffic

/-! ### Mobile numbers -/

def normalizeHuMobile (value : String) : List Char := Phone.dial Char.isDigit (Phone.compact Text.isSpaceJs value)

def isValidHuMobile (value : String) : Bool := Phone.isMobile Char.isDigit (normalizeHuMobile value)

/-- The text begins and goes on like a number, on the server. -/
def DialledOnServer (value : String) : Prop :=
  ∃ n, Phone.Written (Phone.lead (Phone.compact Text.isSpace value)) (value.toList.filter Text.isDecimal) n

/-- The text begins and goes on like a number, in the browser. -/
def DialledInBrowser (value : String) : Prop :=
  ∃ n, Phone.Written (Phone.lead (Phone.compact Text.isSpaceJs value)) (value.toList.filter Char.isDigit) n

theorem classes_browser : Phone.Classes Text.isSpaceJs Char.isDigit where
  ascii _ digit := digit
  apart c digit := by
    have space : Text.isSpaceJs c = false := by
      rw [← Bool.not_eq_true]
      intro space
      have other := Text.isDecimal_of_space (.inr space)
      rw [Text.isDecimal_of_isDigit digit] at other
      cases other
    have others : ∀ d ∈ '+' :: Phone.separators, d.isDigit = false := Text.forall_of_all (by decide)
    refine ⟨space, fun mem => ?_, ?_⟩
    · rw [others c (List.mem_cons_of_mem _ mem)] at digit
      cases digit
    · rintro rfl
      cases digit
  plus := by decide

/-- Digits that go on like a number behind two zeros do not do so without them. -/
theorem not_written_zeros {n n' : List Char} : ¬Phone.Written .bare ('0' :: '0' :: n) n' := by
  intro written
  cases written with
  | itself _ _ area => exact absurd (show ['0', '0'] ∈ Phone.mobilePrefixes from area) (by decide)

/-- However a text begins, its digits are those of one number. -/
theorem written_unique {begin begin' : Phone.Lead} {d n n' : List Char} (h : Phone.Written begin d n)
    (h' : Phone.Written begin' d n') : n = n' := by
  have bare : ∀ {begin : Phone.Lead} {d n : List Char}, Phone.Written begin d n →
      Phone.Written .bare d n ∨ d = '0' :: '0' :: '3' :: '6' :: n := by
    intro begin d n written
    cases written with
    | plus => exact .inl (.code n)
    | zeros => exact .inr rfl
    | code => exact .inl (.code n)
    | trunk => exact .inl (.trunk n)
    | cut _ nine => exact .inl (.cut n nine)
    | itself _ nine area => exact .inl (.itself _ nine area)
  rcases bare h with h | rfl
  · rcases bare h' with h' | rfl
    · have completed := (Phone.complete_eq.mpr h).symm.trans (Phone.complete_eq.mpr h')
      simpa using completed
    · exact absurd h not_written_zeros
  · rcases bare h' with h' | same
    · exact absurd h' not_written_zeros
    · simpa using same

theorem normalizeHuMobile_eq_iff {value : String} {n : List Char} : normalizeHuMobile value = '+' :: '3' :: '6' :: n ↔
    Phone.Written (Phone.lead (Phone.compact Text.isSpaceJs value)) (value.toList.filter Char.isDigit) n := by
  rw [normalizeHuMobile, classes_browser.dial_eq, classes_browser.filter_compact]

/-- What is written before the number is of ASCII. -/
theorem written_digits {begin : Phone.Lead} {d n : List Char} (h : Phone.Written begin d n) {c : Char} (mem : c ∈ d) :
    c.isDigit = true ∨ c ∈ n := by
  have before : ∀ code : List Char, d = code ++ n → (∀ c ∈ code, c.isDigit = true) → c.isDigit = true ∨ c ∈ n := by
    rintro code rfl digits
    rcases List.mem_append.mp mem with mem | mem
    · exact .inl (digits c mem)
    · exact .inr mem
  cases h with
  | plus => exact before ['3', '6'] rfl (Text.forall_of_all (by decide))
  | zeros => exact before ['0', '0', '3', '6'] rfl (Text.forall_of_all (by decide))
  | code => exact before ['3', '6'] rfl (Text.forall_of_all (by decide))
  | trunk => exact before ['0', '6'] rfl (Text.forall_of_all (by decide))
  | cut => exact before ['6'] rfl (Text.forall_of_all (by decide))
  | itself => exact .inr mem

theorem filter_isDigit_eq {s : List Char} (ascii : ∀ c ∈ s.filter Text.isDecimal, c.isDigit = true) :
    s.filter Char.isDigit = s.filter Text.isDecimal := by
  refine List.filter_congr fun c mem => ?_
  cases decimal : Text.isDecimal c with
  | true => exact ascii c (List.mem_filter.mpr ⟨mem, decimal⟩)
  | false =>
    rw [← Bool.not_eq_true]
    intro digit
    rw [Text.isDecimal_of_isDigit digit] at decimal
    cases decimal

/-- The two store the same exactly where the text is dialled on both sides or on neither, and if on both, with digits of ASCII
    only. -/
theorem sameMobile_iff (value : String) : normalizeHuMobile value = Phone.normalizeHuMobile Text.isDecimal value ↔
    (DialledInBrowser value ↔ DialledOnServer value) ∧
      (DialledOnServer value → ∀ c ∈ value.toList.filter Text.isDecimal, c.isDigit = true) := by
  constructor
  · intro same
    refine ⟨exists_congr fun n => ?_, fun ⟨n, dialled⟩ c mem => ?_⟩
    · rw [← normalizeHuMobile_eq_iff, ← Phone.normalizeHuMobile_eq_iff, same]
    · have browser := normalizeHuMobile_eq_iff.mp (same.trans (Phone.normalizeHuMobile_eq_iff.mpr dialled))
      rcases written_digits dialled mem with digit | mem
      · exact digit
      · exact (List.mem_filter.mp (browser.sublist.subset mem)).2
  · rintro ⟨both, ascii⟩
    by_cases dialled : DialledOnServer value
    · obtain ⟨n, browser⟩ := both.mpr dialled
      obtain ⟨n', server⟩ := dialled
      rw [filter_isDigit_eq (ascii ⟨n', server⟩)] at browser
      obtain rfl := written_unique browser server
      rw [Phone.normalizeHuMobile_eq_iff.mpr server, normalizeHuMobile_eq_iff, filter_isDigit_eq (ascii ⟨n, server⟩)]
      exact browser
    · -- neither stores anything
      have browser : normalizeHuMobile value = [] := by
        rcases Phone.dial_cases Char.isDigit (Phone.compact Text.isSpaceJs value) with none' | ⟨n, stored⟩
        · exact none'
        · exact absurd (both.mp ⟨n, normalizeHuMobile_eq_iff.mp stored⟩) dialled
      have server : Phone.normalizeHuMobile Text.isDecimal value = [] := by
        rcases Phone.dial_cases Text.isDecimal (Phone.compact Text.isSpace value) with none' | ⟨n, stored⟩
        · exact none'
        · exact absurd ⟨n, Phone.normalizeHuMobile_eq_iff.mp stored⟩ dialled
      rw [browser, server]

/-- Where the same is stored, the same is accepted. -/
theorem sameValidMobile {value : String} (same : normalizeHuMobile value = Phone.normalizeHuMobile Text.isDecimal value) :
    isValidHuMobile value = Phone.isValidHuMobile Text.isDecimal value := by
  rw [isValidHuMobile, Phone.isValidHuMobile_eq_isMobile, ← Phone.normalizeHuMobile_eq_dial, ← same]
  rcases Phone.dial_cases Char.isDigit (Phone.compact Text.isSpaceJs value) with none' | ⟨n, stored⟩
  · rw [normalizeHuMobile, none']
    rfl
  · have ascii : ∀ c ∈ n, c.isDigit = true := fun c mem =>
      (List.mem_filter.mp ((normalizeHuMobile_eq_iff.mp stored).sublist.subset mem)).2
    have decimals : ∀ c ∈ n, Text.isDecimal c = true := fun c mem => Text.isDecimal_of_isDigit (ascii c mem)
    rw [normalizeHuMobile, stored, Phone.isMobile, Phone.isMobile, List.all_eq_true.mpr ascii, List.all_eq_true.mpr decimals]

/-! ### Tax ids -/

def normalizeHuTaxId (value : String) : List Char :=
  Settings.TaxId.format (Settings.TaxId.taxDigits Text.isSpaceJs Char.isDigit value)

/-- What `isValidHuTaxId` looks at. -/
def compactTaxId (value : String) : List Char :=
  Settings.TaxId.cutCountry (Text.upper (value.toList.filter fun c => !(Text.isSpaceJs c || c = '.' || c = '-')))

def huTaxChecksumOk (digits : List Char) : Bool :=
  digits.length = 8 && digits.all Char.isDigit && Settings.TaxId.weighted digits % 10 = 0

def isValidHuTaxId (value : String) : Bool :=
  let compact := compactTaxId value
  compact.length = 11 && compact.all Char.isDigit && huTaxChecksumOk (compact.take 8)

section
variable {value : String}

theorem browser_kept {c : Char} (decimal : Text.isDecimal c = true) : Text.isSpaceJs c = false ∧ c ≠ '.' ∧ c ≠ '-' := by
  refine ⟨(Settings.TaxId.space_of_isDecimal decimal).2, ?_, ?_⟩
  · rintro rfl
    cases decimal
  · rintro rfl
    cases decimal

theorem taxDigits_browser (value : String) :
    Settings.TaxId.taxDigits Text.isSpaceJs Char.isDigit value = (value.toList.filter Char.isDigit).take 11 := by
  have kept : ∀ c : Char, c.isDigit = true → (!(Text.isSpaceJs c || c = '.')) = true := by
    intro c digit
    obtain ⟨space, point, -⟩ := browser_kept (Text.isDecimal_of_isDigit digit)
    rw [space, decide_eq_false point]
    rfl
  exact congrArg (List.take 11) (Settings.TaxId.filter_cutCountry Settings.TaxId.filter_isDigit_upper kept (by decide) value.toList)

theorem filter_compactTaxId (value : String) : (compactTaxId value).filter Text.isDecimal = value.toList.filter Text.isDecimal := by
  refine Settings.TaxId.filter_cutCountry Text.filter_isDecimal_upper (fun c decimal => ?_) (by decide) value.toList
  obtain ⟨space, point, hyphen⟩ := browser_kept decimal
  rw [space, decide_eq_false point, decide_eq_false hyphen]
  rfl

/-- The two store the same exactly where the first eleven digits are of ASCII. -/
theorem sameTaxId_iff : normalizeHuTaxId value = Settings.TaxId.normalizeHuTaxId value ↔
    ∀ c ∈ (value.toList.filter Text.isDecimal).take 11, c.isDigit = true := by
  have hyphen : Text.isDecimal '-' = false := by decide
  have decimals : ∀ c ∈ (value.toList.filter Text.isDecimal).take 11, Text.isDecimal c = true := fun c mem =>
    (List.mem_filter.mp (List.mem_of_mem_take mem)).2
  rw [normalizeHuTaxId, Settings.TaxId.normalizeHuTaxId, Settings.TaxId.digitsOnly_eq, taxDigits_browser]
  constructor
  · intro same c mem
    have digits := congrArg (List.filter Text.isDecimal) same
    rw [Settings.TaxId.filter_format hyphen decimals, Settings.TaxId.filter_format hyphen] at digits
    · rw [← digits] at mem
      exact (List.mem_filter.mp (List.mem_of_mem_take mem)).2
    · exact fun c mem => Text.isDecimal_of_isDigit (List.mem_filter.mp (List.mem_of_mem_take mem)).2
  · intro ascii
    congr 1
    -- behind the first eleven digits, none is stored
    rw [← Text.filter_isDigit, ← List.take_append_drop 11 (value.toList.filter Text.isDecimal), List.filter_append,
      List.filter_eq_self.mpr ascii]
    rcases Nat.lt_or_ge (value.toList.filter Text.isDecimal).length 11 with few | enough
    · rw [List.drop_of_length_le (Nat.le_of_lt few)]
      rfl
    · rw [List.take_left' (by simpa using enough), List.take_left' (by simpa using enough)]

/-- A text of eleven digits, but for spaces, points, hyphens and the country code. -/
def Typed (value : String) : Prop := (compactTaxId value).length = 11 ∧ ∀ c ∈ compactTaxId value, c.isDigit = true

theorem Typed.compact_eq (h : Typed value) : compactTaxId value = value.toList.filter Text.isDecimal := by
  rw [← filter_compactTaxId]
  exact (List.filter_eq_self.mpr fun c mem => Text.isDecimal_of_isDigit (h.2 c mem)).symm

theorem isValidHuTaxId_iff : isValidHuTaxId value = true ↔
    Typed value ∧ Settings.TaxId.weighted ((value.toList.filter Text.isDecimal).take 8) % 10 = 0 := by
  unfold isValidHuTaxId huTaxChecksumOk
  dsimp only
  constructor
  · intro valid
    simp only [Bool.and_eq_true, decide_eq_true_eq, List.all_eq_true] at valid
    have typed : Typed value := valid.1
    exact ⟨typed, typed.compact_eq ▸ valid.2.2⟩
  · rintro ⟨typed, checked⟩
    rw [← typed.compact_eq] at checked
    have eight : ((compactTaxId value).take 8).length = 8 := by
      rw [List.length_take, typed.1]
      rfl
    simp only [Bool.and_eq_true, decide_eq_true_eq, List.all_eq_true]
    exact ⟨typed, ⟨eight, fun c mem => typed.2 c (List.mem_of_mem_take mem)⟩, checked⟩

/-- The two accept the same unless the server finds eleven digits with a right check digit in a text that is more than those. -/
theorem sameValidTaxId_iff : isValidHuTaxId value = Settings.TaxId.isValidHuTaxId value ↔
    (11 ≤ (value.toList.filter Text.isDecimal).length →
      Settings.TaxId.weighted ((value.toList.filter Text.isDecimal).take 8) % 10 = 0 → Typed value) := by
  rw [Bool.eq_iff_iff, isValidHuTaxId_iff, Settings.TaxId.isValidHuTaxId_iff]
  constructor
  · exact fun same enough checked => (same.mpr ⟨enough, checked⟩).1
  · intro typed
    refine ⟨fun ⟨typed, checked⟩ => ⟨?_, checked⟩, fun ⟨enough, checked⟩ => ⟨typed enough checked, checked⟩⟩
    rw [← typed.compact_eq, typed.1]

end

/-! ### The forms and the server -/

/-- The browser and the server do the same with a text. -/
structure Alike (value : String) : Prop where
  mobile : normalizeHuMobile value = Phone.normalizeHuMobile Text.isDecimal value
  validMobile : isValidHuMobile value = Phone.isValidHuMobile Text.isDecimal value
  taxId : normalizeHuTaxId value = Settings.TaxId.normalizeHuTaxId value
  validTaxId : isValidHuTaxId value = Settings.TaxId.isValidHuTaxId value

/-- They do the same exactly where a number is dialled on both sides or on neither, and if on both, in ASCII, where the first
    eleven digits are of ASCII, and where eleven digits with a right check digit are all that is typed. -/
theorem alike_iff (value : String) : Alike value ↔
    (DialledInBrowser value ↔ DialledOnServer value) ∧
      (DialledOnServer value → ∀ c ∈ value.toList.filter Text.isDecimal, c.isDigit = true) ∧
      (∀ c ∈ (value.toList.filter Text.isDecimal).take 11, c.isDigit = true) ∧
      (11 ≤ (value.toList.filter Text.isDecimal).length →
        Settings.TaxId.weighted ((value.toList.filter Text.isDecimal).take 8) % 10 = 0 → Typed value) := by
  constructor
  · intro alike
    obtain ⟨both, ascii⟩ := (sameMobile_iff value).mp alike.mobile
    exact ⟨both, ascii, sameTaxId_iff.mp alike.taxId, sameValidTaxId_iff.mp alike.validTaxId⟩
  · rintro ⟨both, ascii, first, typed⟩
    have mobile := (sameMobile_iff value).mpr ⟨both, ascii⟩
    exact ⟨mobile, sameValidMobile mobile, sameTaxId_iff.mpr first, sameValidTaxId_iff.mpr typed⟩

/-- The server passes over the letter, and the form does not. -/
theorem not_alike : ¬Alike "12892312-1-42x" := by
  intro alike
  exact absurd alike.validTaxId (by decide +kernel)

end NyzRating.Frontend
