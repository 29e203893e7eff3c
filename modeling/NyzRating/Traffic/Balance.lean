import NyzRating.Traffic.QuestionUsage

/-!
# The three counters agree

The total of a month is the sum over its users and the number of its events: a settlement adds an empty month, and a
reservation counts once in each of the three tables.
-/

namespace NyzRating.Traffic

open Billing

namespace Tables

variable {t : Tables} {key : MonthKey}

/-- The questions of a month, summed over the users. -/
def userTotal (key : MonthKey) (t : Tables) : Int := ((t.usage.filter (·.periodKey = key)).map (·.questionCount)).sum

def eventCount (key : MonthKey) (t : Tables) : Nat := t.events.countP (·.periodKey = key)

/-- What one question adds to the counters of `month`. -/
def unit (key month : MonthKey) : Int := if key = month then 1 else 0

theorem usedTotal_append {s : Tables}
    (hs : s.account.questionTotals = t.account.questionTotals ++ [(key, 0)]) (month : MonthKey) :
    s.usedTotal month = t.usedTotal month := by
  have found : s.total? month = (t.total? month).or (([(key, 0)] : List (MonthKey × Int)).find? (·.1 = month)) := by
    unfold total?
    rw [hs, List.find?_append]
  unfold usedTotal
  rw [found]
  cases hm : t.total? month with
  | some row => rfl
  | none =>
    rw [Option.none_or, List.find?_cons]
    split <;> rfl

theorem usedTotal_countInTotal (h : (t.total? key).isSome) (month : MonthKey) :
    (t.countInTotal key).usedTotal month = t.usedTotal month + unit key month := by
  let count (row : MonthKey × Int) : MonthKey × Int := if row.1 = key then (row.1, row.2 + 1) else row
  have sameKey : ∀ row, (count row).1 = row.1 := fun row => by
    simp only [count]
    split <;> rfl
  have found : (t.countInTotal key).total? month = (t.total? month).map count := by
    have step : ((fun row : MonthKey × Int => decide (row.1 = month)) ∘ count) = fun row => decide (row.1 = month) := by
      funext row
      simp only [Function.comp_apply, sameKey]
    unfold total? countInTotal
    rw [List.find?_map]
    exact congrArg (fun p => (t.account.questionTotals.find? p).map count) step
  unfold usedTotal unit
  rw [found]
  cases hm : t.total? month with
  | none =>
    have other : key ≠ month := by
      rintro rfl
      rw [hm] at h
      cases h
    rw [if_neg other]
    rfl
  | some row =>
    have rowKey : row.1 = month := by simpa using List.find?_some hm
    simp only [Option.map_some, Option.getD_some, count, rowKey, eq_comm (a := month)]
    split
    · rfl
    · exact (add_zero _).symm

theorem userTotal_countForUser (nodup : (t.usage.map fun row => (row.userId, row.periodKey)).Nodup) (userId : Nat)
    (month : MonthKey) : (t.countForUser userId key).userTotal month = t.userTotal month + unit key month := by
  unfold userTotal unit
  rw [Lists.sum_filter, Lists.sum_filter]
  unfold countForUser
  split
  · next h =>
    have mem : (userId, key) ∈ t.usage.map fun row => (row.userId, row.periodKey) := by
      obtain ⟨row, hrow, same⟩ := List.any_eq_true.mp h
      simp only [decide_eq_true_eq] at same
      exact List.mem_map.mpr ⟨row, hrow, Prod.ext same.1 same.2⟩
    let count (row : QuestionUsage) : QuestionUsage := { row with questionCount := row.questionCount + 1 }
    let weight (row : QuestionUsage) : Int := if decide (row.periodKey = month) then row.questionCount else 0
    let rowKey (row : QuestionUsage) : Nat × MonthKey := (row.userId, row.periodKey)
    have update : ((t.usage.map fun row => if rowKey row = (userId, key) then count row else row).map weight).sum =
        (t.usage.map weight).sum + if key = month then 1 else 0 :=
      Lists.sum_update rowKey count weight _ nodup mem fun row _ hkey => by
        simp only [rowKey, Prod.mk.injEq] at hkey
        simp only [weight, count, hkey.2, decide_eq_true_eq]
        split <;> rfl
    simp only [rowKey, Prod.mk.injEq] at update
    exact update
  · simp only [List.map_append, List.map_cons, List.map_nil, List.sum_append, List.sum_cons, List.sum_nil, add_zero,
      decide_eq_true_eq]

theorem userKeys_countForUser (nodup : (t.usage.map fun row => (row.userId, row.periodKey)).Nodup) (userId : Nat) :
    ((t.countForUser userId key).usage.map fun row => (row.userId, row.periodKey)).Nodup := by
  unfold countForUser
  split
  · let count (row : QuestionUsage) : QuestionUsage := { row with questionCount := row.questionCount + 1 }
    let rowKey (row : QuestionUsage) : Nat × MonthKey := (row.userId, row.periodKey)
    have same : (t.usage.map fun row => if rowKey row = (userId, key) then count row else row).map rowKey = t.usage.map rowKey :=
      Lists.map_key_update rowKey count (fun _ => rfl) t.usage
    simp only [rowKey, Prod.mk.injEq] at same
    rw [← same] at nodup
    exact nodup
  · next h =>
    have new : (userId, key) ∉ t.usage.map fun row => (row.userId, row.periodKey) := by
      intro hmem
      obtain ⟨row, hrow, same⟩ := List.mem_map.mp hmem
      refine h (List.any_eq_true.mpr ⟨row, hrow, ?_⟩)
      simpa using same
    rw [List.map_append]
    refine List.nodup_append.mpr ⟨nodup, List.nodup_singleton _, fun k hk l hl same => new ?_⟩
    rw [List.map_singleton] at hl
    rw [← List.mem_singleton.mp hl, ← same]
    exact hk

theorem eventCount_insertEvent (event : QuestionEvent) (month : MonthKey) :
    ((t.insertEvent event).eventCount month : Int) = t.eventCount month + unit event.periodKey month := by
  unfold eventCount insertEvent unit
  rw [List.countP_append, List.countP_singleton]
  simp only [decide_eq_true_eq]
  split <;> simp

end Tables

/-- The constraints of the tables, and the agreement of their counters. -/
structure Balanced (t : Tables) : Prop where
  totalKeys : (t.account.questionTotals.map (·.1)).Nodup
  userKeys : (t.usage.map fun row => (row.userId, row.periodKey)).Nodup
  users : ∀ key, t.usedTotal key = t.userTotal key
  events : ∀ key, t.usedTotal key = t.eventCount key

/-- A tenant that has not asked anything. -/
theorem Balanced.empty {t : Tables} (totals : t.account.questionTotals = []) (usage : t.usage = [])
    (events : t.events = []) : Balanced t := by
  have none : ∀ key, t.usedTotal key = 0 := fun key => by
    unfold Tables.usedTotal Tables.total?
    rw [totals]
    rfl
  refine ⟨by simp [totals], by simp [usage], fun key => ?_, fun key => ?_⟩
  · rw [none, Tables.userTotal, usage]
    rfl
  · rw [none, Tables.eventCount, events]
    rfl

section
variable {plans : PlanCatalog} {dbNow : Int} {t : Tables}

theorem Balanced.used_nonneg (h : Balanced t) (key : MonthKey) : 0 ≤ t.usedTotal key := by
  rw [h.events key]
  exact Int.natCast_nonneg _

theorem Settled.usedTotal {key : MonthKey} {rest : Int} {s : Tables} (h : Settled plans key t rest s) (month : MonthKey) :
    s.usedTotal month = t.usedTotal month := by
  cases ht : t.total? key with
  | some row => rw [h.touched (by rw [ht]; rfl)]
  | none => exact Tables.usedTotal_append (h.fresh ht).2 month

theorem Balanced.settled {key : MonthKey} {rest : Int} {s : Tables} (h : Balanced t)
    (hs : Settled plans key t rest s) : Balanced s := by
  cases ht : t.total? key with
  | some row =>
    rw [hs.touched (by rw [ht]; rfl)]
    exact h
  | none =>
    have totals := (hs.fresh ht).2
    have used := Tables.usedTotal_append totals
    have new : key ∉ t.account.questionTotals.map (·.1) := by
      rw [← Tables.total?_isSome_iff, ht]
      exact Bool.false_ne_true
    refine ⟨?_, by rw [hs.usage]; exact h.userKeys, fun month => ?_, fun month => ?_⟩
    · rw [totals, List.map_append]
      refine List.nodup_append.mpr ⟨h.totalKeys, List.nodup_singleton _, fun k hk l hl same => new ?_⟩
      have lastKey : l = key := by simpa using hl
      exact lastKey ▸ same ▸ hk
    · rw [used, h.users, Tables.userTotal, Tables.userTotal, hs.usage]
    · rw [used, h.events, Tables.eventCount, Tables.eventCount, hs.events]

theorem usedTotal_record {r : ReservationRequest} (touched : (t.total? r.periodKey).isSome) (month : MonthKey) :
    (r.record t).usedTotal month = t.usedTotal month + Tables.unit r.periodKey month := by
  have touched' : ((t.countForUser r.userId r.periodKey).total? r.periodKey).isSome := by
    unfold Tables.total?
    rw [Tables.countForUser_account]
    exact touched
  have same : (t.countForUser r.userId r.periodKey).usedTotal month = t.usedTotal month := by
    unfold Tables.usedTotal Tables.total?
    rw [Tables.countForUser_account]
  have counted := Tables.usedTotal_countInTotal touched' month
  rw [same] at counted
  exact counted

theorem record_totalKeys (r : ReservationRequest) :
    (r.record t).account.questionTotals.map (·.1) = t.account.questionTotals.map (·.1) := by
  unfold ReservationRequest.record
  rw [Tables.insertEvent_account]
  unfold Tables.countInTotal
  simp only [Tables.countForUser_account]
  exact Lists.map_key_update Prod.fst (fun row : MonthKey × Int => (row.1, row.2 + 1)) (fun _ => rfl) _

theorem Balanced.record (h : Balanced t) {r : ReservationRequest} (touched : (t.total? r.periodKey).isSome) :
    Balanced (r.record t) := by
  have used := usedTotal_record touched
  refine ⟨?_, ?_, fun month => ?_, fun month => ?_⟩
  · rw [record_totalKeys]
    exact h.totalKeys
  · exact Tables.userKeys_countForUser h.userKeys r.userId
  · have counted : (t.countForUser r.userId r.periodKey).userTotal month = t.userTotal month + Tables.unit r.periodKey month :=
      Tables.userTotal_countForUser h.userKeys r.userId month
    rw [used, h.users]
    exact counted.symm
  · have events : (r.record t).events = (t.insertEvent ⟨r.userId, r.periodKey, r.requestContext⟩).events := by
      simp [ReservationRequest.record]
    have counted := Tables.eventCount_insertEvent (t := t) ⟨r.userId, r.periodKey, r.requestContext⟩ month
    rw [used, h.events, ← counted, Tables.eventCount, Tables.eventCount, events]

theorem Balanced.reserve (h : Balanced t) (present : t.account.subscription.isSome) (r : ReservationRequest) :
    Balanced (reserveQuestion plans r t).2 := by
  cases ha : (reserveQuestion plans r t).1.allowed with
  | false =>
    rw [reserveQuestion_of_denied ha]
    exact h
  | true =>
    have settlement := Traffic.settled plans r.dbNow r.periodKey present
    rw [reserveQuestion_of_allowed ha]
    exact (h.settled settlement).record settlement.total?_isSome

end

end NyzRating.Traffic
