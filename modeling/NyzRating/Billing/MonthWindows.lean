import NyzRating.Billing.Calculations
import NyzRating.Lib.Decimal
import NyzRating.Traffic.QuestionUsage

/-!
# Usage periods

The windows of `current_month_period` follow one another, each from the billing day of a month to that of the next, and the
text of its key puts them in their order.
-/

namespace NyzRating.Billing

open Calendar

/-- The text of a `period_key`, where the year has no more than four digits. -/
def MonthKey.text (k : MonthKey) : String :=
  String.ofList (Decimal.pad 4 k.year.toNat ++ '-' :: Decimal.pad 2 k.month.toNat)

example : MonthKey.text ⟨987, 6⟩ = "0987-06" := by decide

namespace Windows

/-! ### Billing days -/

/-- The billing day of a month. -/
def dueDay (k : Int) : Int :=
  let fifth := monthStart k + 4
  if isBusinessDay fifth then fifth else if isBusinessDay (fifth + 1) then fifth + 1 else fifth + 2

theorem fifthBusinessDay_eq (year : Int) {month : Int} (first : 1 ≤ month) (last : month ≤ 12) :
    fifthBusinessDay year month = dueDay (monthNumber year month) := by
  have fifth : ofCivil year month 5 = monthStart (monthNumber year month) + 4 := by
    rw [ofCivil_eq 5 first last]
    omega
  unfold fifthBusinessDay dueDay
  rw [fifth]

theorem dueDay_range (k : Int) : monthStart k + 4 ≤ dueDay k ∧ dueDay k ≤ monthStart k + 6 := by
  unfold dueDay
  dsimp only
  split
  · omega
  · split <;> omega

theorem dueDay_lt_monthStart (k : Int) : dueDay k < monthStart (k + 1) := by
  have range := dueDay_range k
  have long := le_daysIn k
  unfold daysIn at long
  omega

theorem dueDay_lt_succ (k : Int) : dueDay k < dueDay (k + 1) := by
  have range := dueDay_range (k + 1)
  have before := dueDay_lt_monthStart k
  omega

theorem dueDay_mono {j k : Int} (le : j ≤ k) : dueDay j ≤ dueDay k := by
  rcases Int.lt_or_eq_of_le le with lt | rfl
  · have range := dueDay_range k
    have before := dueDay_lt_monthStart j
    have start : monthStart (j + 1) ≤ monthStart k := monthStart_mono lt
    omega
  · exact Int.le_refl _

/-! ### The window of a date -/

/-- The month whose billing day came last. -/
def windowOf (d : Int) : Int := if dueDay (monthOf d) ≤ d then monthOf d else monthOf d - 1

theorem windowOf_eq_iff {d k : Int} : windowOf d = k ↔ dueDay k ≤ d ∧ d < dueDay (k + 1) := by
  have lies : dueDay (windowOf d) ≤ d ∧ d < dueDay (windowOf d + 1) := by
    have range := dayOf_range d
    have date := date_eq d
    unfold windowOf
    split
    · next since =>
      refine ⟨since, ?_⟩
      have next := dueDay_range (monthOf d + 1)
      unfold daysIn at range
      omega
    · next before =>
      have last := dueDay_lt_monthStart (monthOf d - 1)
      rw [Int.sub_add_cancel] at last ⊢
      omega
  constructor
  · rintro rfl
    exact lies
  · rintro ⟨since, before⟩
    rcases Int.lt_trichotomy (windowOf d) k with lt | same | gt
    · have later : dueDay (windowOf d + 1) ≤ dueDay k := dueDay_mono lt
      omega
    · exact same
    · have earlier : dueDay (k + 1) ≤ dueDay (windowOf d) := dueDay_mono gt
      omega

theorem windowOf_dueDay (k : Int) : windowOf (dueDay k) = k := windowOf_eq_iff.mpr ⟨Int.le_refl _, dueDay_lt_succ k⟩

theorem windowOf_mono {d e : Int} (le : d ≤ e) : windowOf d ≤ windowOf e := by
  have first := windowOf_eq_iff.mp (rfl : windowOf d = _)
  have second := windowOf_eq_iff.mp (rfl : windowOf e = _)
  by_contra gt
  have earlier : dueDay (windowOf e + 1) ≤ dueDay (windowOf d) := dueDay_mono (by omega)
  omega

/-! ### `current_month_period` -/

/-- A year and one of its months, which is month `k`. -/
structure IsMonth (m : Int × Int) (k : Int) : Prop where
  first : 1 ≤ m.2
  last : m.2 ≤ 12
  number : monthNumber m.1 m.2 = k

theorem IsMonth.previous {m : Int × Int} {k : Int} (h : IsMonth m k) : IsMonth (previousMonth m.1 m.2) (k - 1) := by
  obtain ⟨first, last, number⟩ := h
  unfold monthNumber at number
  unfold previousMonth
  split
  · refine ⟨by omega, by omega, ?_⟩
    unfold monthNumber
    omega
  · refine ⟨by omega, by omega, ?_⟩
    unfold monthNumber
    omega

theorem IsMonth.next {m : Int × Int} {k : Int} (h : IsMonth m k) : IsMonth (nextMonth m.1 m.2) (k + 1) := by
  obtain ⟨first, last, number⟩ := h
  unfold monthNumber at number
  unfold nextMonth
  split
  · refine ⟨by omega, by omega, ?_⟩
    unfold monthNumber
    omega
  · refine ⟨by omega, by omega, ?_⟩
    unfold monthNumber
    omega

theorem IsMonth.fifthBusinessDay_eq {m : Int × Int} {k : Int} (h : IsMonth m k) : fifthBusinessDay m.1 m.2 = dueDay k := by
  rw [Windows.fifthBusinessDay_eq m.1 h.first h.last, h.number]

/-- The period of a window. -/
structure IsPeriod (p : MonthPeriod) (k : Int) : Prop where
  key : IsMonth (p.key.year, p.key.month) k
  start : p.start = midnight (dueDay k)
  stop : p.stop = midnight (dueDay (k + 1))

theorem currentMonthPeriod_isPeriod (t : Int) : IsPeriod (currentMonthPeriod t) (windowOf (dateOf t)) := by
  have inMonth := civil_inMonth (dateOf t)
  have today : IsMonth ((civil (dateOf t)).year, (civil (dateOf t)).month) (monthOf (dateOf t)) :=
    ⟨inMonth.first, inMonth.last, rfl⟩
  have of_start : ∀ {m : Int × Int} {k due : Int}, IsMonth m k →
      IsPeriod { key := ⟨m.1, m.2⟩, start := midnight (fifthBusinessDay m.1 m.2),
                 stop := midnight (fifthBusinessDay (nextMonth m.1 m.2).1 (nextMonth m.1 m.2).2), dueThisMonth := due } k :=
    fun month => ⟨month, congrArg midnight month.fifthBusinessDay_eq, congrArg midnight month.next.fifthBusinessDay_eq⟩
  have due := today.fifthBusinessDay_eq
  unfold currentMonthPeriod windowOf
  dsimp only at due ⊢
  rw [due]
  by_cases since : dueDay (monthOf (dateOf t)) ≤ dateOf t
  · rw [if_pos since, if_pos since]
    exact of_start today
  · rw [if_neg since, if_neg since]
    exact of_start today.previous

/-! ### Keys -/

/-- A time in the years from 2 to 9998. -/
def InYears (t : Int) : Prop := 2 ≤ (civil (dateOf t)).year ∧ (civil (dateOf t)).year ≤ 9998

instance (t : Int) : Decidable (InYears t) := inferInstanceAs (Decidable (_ ∧ _))

theorem key_year {t : Int} (inYears : InYears t) :
    1 ≤ (currentMonthPeriod t).key.year ∧ (currentMonthPeriod t).key.year ≤ 9998 := by
  have period := (currentMonthPeriod_isPeriod t).key
  have inMonth := civil_inMonth (dateOf t)
  obtain ⟨first, last, number⟩ := period
  unfold windowOf monthOf at number
  unfold InYears at inYears
  unfold monthNumber at number
  dsimp only at first last number
  split at number
  · have := inMonth.first
    have := inMonth.last
    omega
  · have := inMonth.first
    have := inMonth.last
    omega

/-- The order of the texts is the order of the months. -/
theorem text_lt {k l : MonthKey} {a b : Int} (isA : IsMonth (k.year, k.month) a) (isB : IsMonth (l.year, l.month) b)
    (year : 1 ≤ k.year) (year' : l.year ≤ 9998) (lt : a < b) : k.text < l.text := by
  obtain ⟨first, last, number⟩ := isA
  obtain ⟨first', last', number'⟩ := isB
  dsimp only at first last number first' last' number'
  unfold monthNumber at number number'
  show (String.ofList _).toList < (String.ofList _).toList
  rw [String.toList_ofList, String.toList_ofList]
  rcases Int.lt_or_eq_of_le (show k.year ≤ l.year by omega) with earlier | same
  · have length : (Decimal.pad 4 k.year.toNat).length = (Decimal.pad 4 l.year.toNat).length :=
      (Decimal.length_pad _ _).trans (Decimal.length_pad _ _).symm
    exact Decimal.append_lt_append length (Decimal.pad_lt 4 (by omega) (by omega)) _ _
  · rw [same]
    refine List.append_left_lt (List.cons_lt_cons_iff.mpr (.inr ⟨rfl, ?_⟩))
    exact Decimal.pad_lt 2 (by omega) (by omega)

/-- The order of stored keys is that of their texts. -/
theorem text_lt_of_before {k l : MonthKey} (months : 1 ≤ k.month ∧ k.month ≤ 12) (months' : 1 ≤ l.month ∧ l.month ≤ 12)
    (year : 1 ≤ k.year) (year' : l.year ≤ 9998) (before : k.Before l) : k.text < l.text := by
  refine text_lt ⟨months.1, months.2, rfl⟩ ⟨months'.1, months'.2, rfl⟩ year year' ?_
  unfold monthNumber
  rcases before with earlier | ⟨same, earlier⟩ <;> omega

theorem text_ne_of_lt {k l : MonthKey} (lt : k.text < l.text) : k.text ≠ l.text := by
  intro same
  rw [same] at lt
  exact List.lt_irrefl l.text.toList lt

theorem IsMonth.key_inj {k l : MonthKey} {a : Int} (h : IsMonth (k.year, k.month) a) (h' : IsMonth (l.year, l.month) a) :
    k = l := by
  obtain ⟨first, last, number⟩ := h
  obtain ⟨first', last', number'⟩ := h'
  cases k
  cases l
  dsimp only at *
  unfold monthNumber at number number'
  congr 1
  · omega
  · omega

/-- The windows partition the time, and the keys are in their order. -/
theorem windows_partition (s t : Int) (inYears : InYears s) (inYears' : InYears t) :
    ((currentMonthPeriod t).start ≤ t ∧ t < (currentMonthPeriod t).stop) ∧
    (currentMonthPeriod (currentMonthPeriod t).stop).start = (currentMonthPeriod t).stop ∧
    ((currentMonthPeriod s).key.text = (currentMonthPeriod t).key.text ↔
      (currentMonthPeriod t).start ≤ s ∧ s < (currentMonthPeriod t).stop) ∧
    (s < t → ¬((currentMonthPeriod t).start ≤ s ∧ s < (currentMonthPeriod t).stop) →
      (currentMonthPeriod s).key.text < (currentMonthPeriod t).key.text) := by
  have first := currentMonthPeriod_isPeriod s
  have second := currentMonthPeriod_isPeriod t
  have years := key_year inYears
  have years' := key_year inYears'
  have lies : ∀ u, (currentMonthPeriod t).start ≤ u ∧ u < (currentMonthPeriod t).stop ↔
      windowOf (dateOf u) = windowOf (dateOf t) := by
    intro u
    rw [second.start, second.stop, midnight_le_iff, ← Int.not_le, midnight_le_iff, Int.not_le]
    exact windowOf_eq_iff.symm
  have text : ∀ {u v : Int}, 1 ≤ (currentMonthPeriod u).key.year → (currentMonthPeriod v).key.year ≤ 9998 →
      windowOf (dateOf u) < windowOf (dateOf v) → (currentMonthPeriod u).key.text < (currentMonthPeriod v).key.text :=
    fun year year' lt => text_lt (currentMonthPeriod_isPeriod _).key (currentMonthPeriod_isPeriod _).key year year' lt
  refine ⟨(lies t).mpr rfl, ?_, ?_, ?_⟩
  · rw [(currentMonthPeriod_isPeriod _).start, second.stop, dateOf_midnight, windowOf_dueDay]
  · rw [lies s]
    constructor
    · intro same
      rcases Int.lt_trichotomy (windowOf (dateOf s)) (windowOf (dateOf t)) with lt | eq | gt
      · exact absurd same (text_ne_of_lt (text years.1 years'.2 lt))
      · exact eq
      · exact absurd same.symm (text_ne_of_lt (text years'.1 years.2 gt))
    · intro same
      have key := second.key
      rw [← same] at key
      exact congrArg MonthKey.text (IsMonth.key_inj first.key key)
  · intro before other
    rw [lies s] at other
    have le : windowOf (dateOf s) ≤ windowOf (dateOf t) := windowOf_mono (Int.ediv_le_ediv (by decide) (Int.le_of_lt before))
    exact text years.1 years'.2 (by omega)

/-- Two times of one window on both sides of a new year. -/
theorem windows_partition_newYear :
    (currentMonthPeriod (midnight (ofCivil 2024 12 31))).key.text = (currentMonthPeriod (midnight (ofCivil 2025 1 3))).key.text :=
  (windows_partition (midnight (ofCivil 2024 12 31)) (midnight (ofCivil 2025 1 3)) (by decide) (by decide)).2.2.1.mpr (by decide)

end Windows

end NyzRating.Billing
