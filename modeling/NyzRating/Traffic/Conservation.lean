import NyzRating.Billing.PlanChange
import NyzRating.Lib.Run
import NyzRating.Traffic.Balance

/-!
# Extra questions are conserved

What a month uses over the allowance of the plan is taken from the extra questions once, when a later month is
touched. While the plan stays and time does not go back, nothing of them is lost or taken twice.
-/

namespace NyzRating.Traffic

open Billing Program Runs

/-! ### The operations -/

inductive Op where
  | reserve (r : ReservationRequest)
  | ensure (dbNow : Int) (key : MonthKey)
  | purchase (env : Env) (ctx : TenantContext) (addonCode : String) (quantity : Int)

/-- The month that an operation touches. -/
def Op.month : Op → Option MonthKey
  | .reserve r => some r.periodKey
  | .ensure _ key => some key
  | .purchase .. => none

def step (plans : PlanCatalog) (t : Tables) : Op → Tables
  | .reserve r => (reserveQuestion plans r t).2
  | .ensure dbNow key => (ensureAddonCarryover plans dbNow key t).2
  | .purchase env ctx addonCode quantity => { t with account := after (purchaseAddon env ctx addonCode quantity) t.account }

/-- The questions of a pack. -/
def packQuestions (addonCode : String) : Int :=
  if addonCode = "question_pack_50" then 50
  else if addonCode = "question_pack_100" then 100
  else if addonCode = "question_pack_500" then 500
  else 0

/-- The extra questions that an operation buys. -/
def bought : Op → Int
  | .purchase env _ addonCode quantity =>
    (purchasedAddon env addonCode quantity).elim 0 fun addon => packQuestions addon.code * max 1 quantity
  | .reserve _ | .ensure .. => 0

/-- The reservations that an operation is allowed. -/
def reserved (plans : PlanCatalog) (t : Tables) : Op → Int
  | .reserve r => if (reserveQuestion plans r t).1.allowed then 1 else 0
  | .ensure .. | .purchase .. => 0

/-! ### What the months have taken -/

def overuse (included : Int) (row : MonthKey × Int) : Int := max 0 (row.2 - included)

/-- The overuse of the months before the last one touched. -/
def spent (included : Int) (totals : List (MonthKey × Int)) : Int :=
  ((totals.filter fun row => totals.any fun later => decide (row.1.Before later.1)).map (overuse included)).sum

/-- All questions that are counted. -/
def counted (totals : List (MonthKey × Int)) : Int := (totals.map (·.2)).sum

/-- The months in the order in which they were touched are in the order of time. -/
def Chronological (totals : List (MonthKey × Int)) : Prop := totals.Pairwise fun r s => r.1.Before s.1

section
variable {included : Int} {totals earlier : List (MonthKey × Int)} {last : MonthKey × Int} {key : MonthKey}

theorem Chronological.before_last (h : Chronological (earlier ++ [last])) : ∀ row ∈ earlier, row.1.Before last.1 :=
  fun row hrow => (List.pairwise_append.mp h).2.2 row hrow last List.mem_cons_self

theorem spent_append (h : Chronological (earlier ++ [last])) :
    spent included (earlier ++ [last]) = (earlier.map (overuse included)).sum := by
  have before := h.before_last
  have kept : (earlier.filter fun row => (earlier ++ [last]).any fun later => decide (row.1.Before later.1)) = earlier := by
    refine List.filter_eq_self.mpr fun row hrow => ?_
    exact List.any_eq_true.mpr ⟨last, List.mem_append_right _ List.mem_cons_self, decide_eq_true (before row hrow)⟩
  have dropped : ([last].filter fun row => (earlier ++ [last]).any fun later => decide (row.1.Before later.1)) = [] := by
    refine List.filter_eq_nil_iff.mpr fun row hrow => ?_
    rw [List.mem_singleton.mp hrow, List.any_eq_true]
    rintro ⟨later, hlater, hbefore⟩
    simp only [decide_eq_true_eq] at hbefore
    rcases List.mem_append.mp hlater with h | h
    · exact MonthKey.before_irrefl _ ((before later h).trans hbefore)
    · rw [List.mem_singleton.mp h] at hbefore
      exact MonthKey.before_irrefl _ hbefore
  rw [spent, List.filter_append, kept, dropped, List.append_nil]

theorem Chronological.append (h : Chronological totals) (later : ∀ row ∈ totals, row.1.Before key) (count : Int) :
    Chronological (totals ++ [(key, count)]) :=
  List.pairwise_append.mpr ⟨h, List.pairwise_singleton _ _, fun row hrow s hs => by
    rw [List.mem_singleton.mp hs]
    exact later row hrow⟩

end

/-- The tables while the plan allows `included` questions a month: the extra questions left and those taken make up
    `budget`, and the last month has not used more than what is there. -/
structure Conserved (plans : PlanCatalog) (included budget : Int) (t : Tables) : Prop where
  present : t.account.subscription.isSome
  allowance : loadMonthlyIncluded plans t = included
  carryover : 0 ≤ t.carryover
  chronological : Chronological t.account.questionTotals
  counts : ∀ row ∈ t.account.questionTotals, 0 ≤ row.2
  within : ∀ earlier last, t.account.questionTotals = earlier ++ [last] → last.2 ≤ included + t.carryover
  conserved : t.carryover + spent included t.account.questionTotals = budget

/-! ### One operation -/

section
variable {plans : PlanCatalog} {included budget : Int} {t : Tables} {key : MonthKey}

theorem Conserved.included_nonneg (h : Conserved plans included budget t) : 0 ≤ included := by
  rw [← h.allowance]
  exact le_max_left 0 _

theorem counted_append (totals : List (MonthKey × Int)) (row : MonthKey × Int) :
    counted (totals ++ [row]) = counted totals + row.2 := by
  simp [counted]

section
variable {rest : Int} {s : Tables}

theorem Settled.counted (h : Settled plans key t rest s) :
    counted s.account.questionTotals = counted t.account.questionTotals := by
  cases ht : t.total? key with
  | some row => rw [h.touched (by rw [ht]; rfl)]
  | none => rw [(h.fresh ht).2, counted_append, add_zero]

theorem Settled.months (h : Settled plans key t rest s) :
    ∀ row ∈ s.account.questionTotals, row.1 ∈ t.account.questionTotals.map (·.1) ∨ some key = some row.1 := by
  intro row hrow
  cases ht : t.total? key with
  | some found =>
    rw [h.touched (by rw [ht]; rfl)] at hrow
    exact .inl (List.mem_map_of_mem hrow)
  | none =>
    rw [(h.fresh ht).2] at hrow
    rcases List.mem_append.mp hrow with hrow | hrow
    · exact .inl (List.mem_map_of_mem hrow)
    · rw [List.mem_singleton.mp hrow]
      exact .inr rfl

end

/-- Without a row, or with a last one. -/
theorem eq_nil_or_last (totals : List (MonthKey × Int)) : totals = [] ∨ ∃ earlier last, totals = earlier ++ [last] := by
  rcases List.eq_nil_or_concat totals with h | ⟨earlier, last, h⟩
  · exact .inl h
  · exact .inr ⟨earlier, last, by simpa using h⟩

/-- A month that is not over yet and was touched is the last one. -/
theorem Conserved.last_of_touched (h : Conserved plans included budget t) (touched : (t.total? key).isSome)
    (current : ∀ row ∈ t.account.questionTotals, ¬key.Before row.1) :
    ∃ earlier last, t.account.questionTotals = earlier ++ [last] ∧ last.1 = key := by
  rw [Tables.total?_isSome_iff] at touched
  obtain ⟨row, hrow, rowKey⟩ := List.mem_map.mp touched
  obtain none | ⟨earlier, last, split⟩ := eq_nil_or_last t.account.questionTotals
  · rw [none] at hrow
    cases hrow
  · refine ⟨earlier, last, split, ?_⟩
    have order := h.chronological
    rw [split] at hrow order
    rcases List.mem_append.mp hrow with hrow | hrow
    · refine absurd (order.before_last row hrow) ?_
      rw [rowKey]
      exact current last (by simp [split])
    · rw [← List.mem_singleton.mp hrow]
      exact rowKey

/-- The settlement takes what the last month used over the allowance, which the extra questions cover. -/
theorem Conserved.settledCarryover_eq (h : Conserved plans included budget t) (later : ∀ row ∈ t.account.questionTotals, row.1.Before key) :
    0 ≤ settledCarryover plans key t ∧
      settledCarryover plans key t + (t.account.questionTotals.map (overuse included)).sum = budget := by
  have kept : (t.account.questionTotals.filter fun row => decide (row.1.Before key)) = t.account.questionTotals :=
    List.filter_eq_self.mpr fun row hrow => decide_eq_true (later row hrow)
  have conserved := h.conserved
  have carryover := h.carryover
  have order := h.chronological
  unfold settledCarryover Tables.previousTotal
  rw [kept, h.allowance]
  obtain none | ⟨earlier, last, split⟩ := eq_nil_or_last t.account.questionTotals
  · rw [none] at conserved ⊢
    exact ⟨carryover, conserved⟩
  · have last_le := h.within earlier last split
    have last_nonneg := h.counts last (by simp [split])
    rw [split] at conserved order ⊢
    rw [spent_append order] at conserved
    have latest : Lists.latestBy (fun r s => decide (r.1.Before s.1)) (earlier ++ [last]) = some last :=
      Lists.latestBy_append_last fun row hrow => decide_eq_true (order.before_last row hrow)
    rw [latest, List.map_append, List.sum_append]
    simp only [Option.elim_some, remainingExtras, List.map_cons, List.map_nil, List.sum_cons, List.sum_nil, overuse]
    omega

/-- After a settlement the month is the last one, and nothing is lost. -/
theorem Conserved.settled (h : Conserved plans included budget t) (dbNow : Int)
    (current : ∀ row ∈ t.account.questionTotals, ¬key.Before row.1) :
    let s := (settleAddonCarryover plans dbNow key t).2
    Conserved plans included budget s ∧ ∃ earlier last, s.account.questionTotals = earlier ++ [last] ∧ last.1 = key := by
  intro s
  have settlement := Traffic.settled plans dbNow key h.present
  cases ht : t.total? key with
  | some row =>
    have touched : (t.total? key).isSome := by rw [ht]; rfl
    have same : s = t := settlement.touched touched
    rw [same]
    exact ⟨h, h.last_of_touched touched current⟩
  | none =>
    obtain ⟨rest, totals⟩ := settlement.fresh ht
    have later : ∀ row ∈ t.account.questionTotals, row.1.Before key := by
      intro row hrow
      refine (MonthKey.before_or_eq_of_not_before (current row hrow)).resolve_right fun same => ?_
      have touched : (t.total? key).isSome := Tables.total?_isSome_iff.mpr (List.mem_map.mpr ⟨row, hrow, same⟩)
      rw [ht] at touched
      cases touched
    obtain ⟨nonneg, conserved⟩ := h.settledCarryover_eq later
    have order := h.chronological.append later 0
    have left : s.carryover = settledCarryover plans key t := settlement.carryover.trans rest
    refine ⟨⟨settlement.present.trans h.present, settlement.loadMonthlyIncluded.trans h.allowance, left ▸ nonneg, ?_, ?_,
      fun earlier last split => ?_, ?_⟩, _, _, totals, rfl⟩
    · rw [totals]
      exact order
    · rw [totals]
      intro row hrow
      rcases List.mem_append.mp hrow with hrow | hrow
      · exact h.counts row hrow
      · rw [List.mem_singleton.mp hrow]
    · obtain ⟨-, hlast⟩ := List.append_inj' (totals.symm.trans split) rfl
      have empty : last = (key, 0) := (List.singleton_inj.mp hlast).symm
      have included_nonneg := h.included_nonneg
      rw [empty, left]
      simp only
      omega
    · rw [totals, left, spent_append order]
      exact conserved

theorem Conserved.usedTotal_last (h : Conserved plans included budget t) {earlier : List (MonthKey × Int)}
    {last : MonthKey × Int} (split : t.account.questionTotals = earlier ++ [last]) (month : last.1 = key) :
    t.usedTotal key = last.2 := by
  have order := h.chronological
  rw [split] at order
  have others : earlier.find? (fun row => decide (row.1 = key)) = none := by
    refine List.find?_eq_none.mpr fun row hrow => ?_
    rw [decide_eq_true_eq, ← month]
    intro same
    exact MonthKey.before_irrefl last.1 (same ▸ order.before_last row hrow)
  unfold Tables.usedTotal Tables.total?
  rw [split, List.find?_append, others, Option.none_or, List.find?_singleton, decide_eq_true month, if_pos rfl]
  rfl

/-- An allowed reservation uses a question that is there. -/
theorem Conserved.record (h : Conserved plans included budget t) {r : ReservationRequest}
    {earlier : List (MonthKey × Int)} {last : MonthKey × Int} (split : t.account.questionTotals = earlier ++ [last])
    (month : last.1 = r.periodKey) (available : last.2 < included + t.carryover) :
    Conserved plans included budget (r.record t) ∧
      (r.record t).account.questionTotals = earlier ++ [(last.1, last.2 + 1)] := by
  have order := h.chronological
  rw [split] at order
  have totals : (r.record t).account.questionTotals = earlier ++ [(last.1, last.2 + 1)] := by
    have others : ∀ row ∈ earlier, row.1 ≠ r.periodKey := fun row hrow same =>
      MonthKey.before_irrefl row.1 (by
        have before := order.before_last row hrow
        rwa [month, ← same] at before)
    have kept : (earlier.map fun row => if row.1 = r.periodKey then (row.1, row.2 + 1) else row) = earlier := by
      conv_rhs => rw [← List.map_id earlier]
      exact List.map_congr_left fun row hrow => if_neg (others row hrow)
    unfold ReservationRequest.record
    rw [Tables.insertEvent_account]
    unfold Tables.countInTotal
    simp only [Tables.countForUser_account, split, List.map_append, List.map_cons, List.map_nil, if_pos month, kept]
  have order' : Chronological (earlier ++ [(last.1, last.2 + 1)]) := by
    have start := (List.pairwise_append.mp order).1
    exact Chronological.append start (fun row hrow => order.before_last row hrow) _
  have conserved := h.conserved
  have last_nonneg := h.counts last (by simp [split])
  refine ⟨⟨?_, ?_, ?_, ?_, ?_, fun earlier' last' split' => ?_, ?_⟩, totals⟩
  · rw [record_subscription]
    exact h.present
  · rw [loadMonthlyIncluded, record_planCode]
    exact h.allowance
  · rw [record_carryover]
    exact h.carryover
  · rw [totals]
    exact order'
  · rw [totals]
    intro row hrow
    rcases List.mem_append.mp hrow with hrow | hrow
    · exact h.counts row (by simp [split, hrow])
    · rw [List.mem_singleton.mp hrow]
      simp only
      omega
  · obtain ⟨-, hlast⟩ := List.append_inj' (totals.symm.trans split') rfl
    rw [← List.singleton_inj.mp hlast, record_carryover]
    simp only
    omega
  · rw [split, spent_append order] at conserved
    rw [totals, record_carryover, spent_append order']
    exact conserved

theorem addonSubscription_carryover (env : Env) (sub : Subscription) (addon : BillingAddon) (quantity : Int) :
    (addonSubscription env sub addon quantity).carryoverAddonQuestions =
      sub.carryoverAddonQuestions + packQuestions addon.code * quantity := by
  unfold addonSubscription packQuestions
  split
  · next code => simp [code]
  · next code => simp [code]
  · next code => simp [code]
  · next code => simp [code]
  · next code => simp [code]
  · next code => simp [code]
  · next code => simp [code]
  · next not50 not100 not500 _ _ _ _ => rw [if_neg not50, if_neg not100, if_neg not500, Int.zero_mul, add_zero]

/-- What a purchase does to the carryover. -/
theorem purchase_carryover (plans : PlanCatalog) (env : Env) (ctx : TenantContext) (addonCode : String) (quantity : Int)
    (present : t.account.subscription.isSome) :
    let s := step plans t (.purchase env ctx addonCode quantity)
    s.account.subscription.isSome ∧ s.planCode = t.planCode ∧ s.account.questionTotals = t.account.questionTotals ∧
      s.carryover = t.carryover + bought (.purchase env ctx addonCode quantity) := by
  intro s
  obtain ⟨sub, hs⟩ := Option.isSome_iff_exists.mp present
  obtain ⟨refused, same⟩ | ⟨addon, invoices, nextInvoiceId, paid, changed⟩ :=
    purchaseAddon_cases env ctx addonCode quantity t.account
  · have unchanged : s = t := by
      change { t with account := after (purchaseAddon env ctx addonCode quantity) t.account } = t
      rw [same]
    rw [unchanged, bought, refused]
    exact ⟨present, rfl, rfl, (add_zero _).symm⟩
  · rw [ensureSubscription_of_some hs] at changed
    have row : s.account.subscription = some
        { addonSubscription env sub addon (max 1 quantity) with createdAt := sub.createdAt, updatedAt := env.utcnow } := by
      change (after (purchaseAddon env ctx addonCode quantity) t.account).subscription = _
      rw [changed]
      simp only [Account.upsertSubscription, hs]
      rfl
    have totals : s.account.questionTotals = t.account.questionTotals := by
      change (after (purchaseAddon env ctx addonCode quantity) t.account).questionTotals = _
      rw [changed]
      rfl
    refine ⟨by rw [row]; rfl, ?_, totals, ?_⟩
    · simp only [Tables.planCode, row, hs, Option.map_some]
      unfold addonSubscription
      split <;> rfl
    · simp only [Tables.carryover, row, hs, bought, paid, Option.map_some, Option.getD_some, Option.elim_some,
        addonSubscription_carryover]

theorem bought_nonneg (op : Op) : 0 ≤ bought op := by
  cases op with
  | reserve r => exact Int.le_refl 0
  | ensure dbNow key => exact Int.le_refl 0
  | purchase env ctx addonCode quantity =>
    simp only [bought]
    cases purchasedAddon env addonCode quantity with
    | none => exact Int.le_refl 0
    | some addon =>
      have questions : 0 ≤ packQuestions addon.code := by
        unfold packQuestions
        split
        · decide
        · split
          · decide
          · split <;> decide
      exact Int.mul_nonneg questions (by omega)

/-- What one operation in the current month does: the budget grows by what it buys, the questions counted by what it
    is allowed, and it touches no other month. -/
theorem Conserved.step (h : Conserved plans included budget t) (op : Op)
    (current : ∀ key ∈ op.month, ∀ row ∈ t.account.questionTotals, ¬key.Before row.1) :
    let s := Traffic.step plans t op
    Conserved plans included (budget + bought op) s ∧
      counted s.account.questionTotals = counted t.account.questionTotals + reserved plans t op ∧
      ∀ row ∈ s.account.questionTotals, row.1 ∈ t.account.questionTotals.map (·.1) ∨ op.month = some row.1 := by
  intro s
  cases op with
  | ensure dbNow key =>
    obtain ⟨kept, -⟩ := h.settled dbNow (current key rfl)
    have settlement := Traffic.settled plans dbNow key h.present
    rw [bought, reserved, add_zero, add_zero]
    exact ⟨kept, settlement.counted, settlement.months⟩
  | reserve r =>
    rw [bought, add_zero]
    cases allowed : (reserveQuestion plans r t).1.allowed with
    | false =>
      have unchanged : s = t := reserveQuestion_of_denied allowed
      rw [unchanged, reserved, allowed]
      exact ⟨h, (add_zero _).symm, fun row hrow => .inl (List.mem_map_of_mem hrow)⟩
    | true =>
      have settlement := Traffic.settled plans r.dbNow r.periodKey h.present
      obtain ⟨kept, earlier, last, split, month⟩ := h.settled r.dbNow (current r.periodKey rfl)
      have below : (settleAddonCarryover plans r.dbNow r.periodKey t).2.usedTotal r.periodKey <
          max 0 (loadMonthlyIncluded plans (settleAddonCarryover plans r.dbNow r.periodKey t).2 +
            (settleAddonCarryover plans r.dbNow r.periodKey t).1) := (reserveQuestion_allowed_iff.mp allowed).2
      have used := kept.usedTotal_last split month
      have included_nonneg := kept.included_nonneg
      have left := kept.carryover
      rw [used, kept.allowance, ← settlement.carryover] at below
      obtain ⟨recorded, totals⟩ := kept.record split month (by omega)
      have row : s = r.record (settleAddonCarryover plans r.dbNow r.periodKey t).2 := reserveQuestion_of_allowed allowed
      have before := settlement.counted
      rw [split, counted_append] at before
      rw [row, totals]
      refine ⟨recorded, ?_, fun row hrow => ?_⟩
      · rw [counted_append, reserved, allowed, if_pos rfl]
        simp only
        omega
      · have months := settlement.months
        rw [split] at months
        rcases List.mem_append.mp hrow with hrow | hrow
        · exact months row (List.mem_append_left _ hrow)
        · rw [List.mem_singleton.mp hrow]
          exact months last (by simp)
  | purchase env ctx addonCode quantity =>
    obtain ⟨present, planCode, totals, carryover⟩ :=
      purchase_carryover plans env ctx addonCode quantity h.present
    have purchased := bought_nonneg (.purchase env ctx addonCode quantity)
    have conserved := h.conserved
    have left := h.carryover
    refine ⟨⟨present, ?_, by rw [carryover]; omega, ?_, ?_, ?_, ?_⟩, ?_, ?_⟩
    · rw [loadMonthlyIncluded, planCode]
      exact h.allowance
    · rw [totals]
      exact h.chronological
    · rw [totals]
      exact h.counts
    · rw [totals, carryover]
      intro earlier last split
      have within := h.within earlier last split
      omega
    · rw [totals, carryover]
      omega
    · rw [totals, reserved, add_zero]
    · rw [totals]
      exact fun row hrow => .inl (List.mem_map_of_mem hrow)

/-! ### Every run -/

/-- The months that are left do not go back. -/
theorem Conserved.run {ops : List Op} (h : Conserved plans included budget t)
    (order : (ops.filterMap Op.month).Pairwise fun k l => ¬l.Before k)
    (current : ∀ key ∈ ops.filterMap Op.month, ∀ row ∈ t.account.questionTotals, ¬key.Before row.1) :
    let s := final (Traffic.step plans) t ops
    Conserved plans included (budget + (ops.map bought).sum) s ∧
      counted s.account.questionTotals =
        counted t.account.questionTotals + total (Traffic.step plans) (reserved plans) t ops := by
  induction ops generalizing t budget with
  | nil => simpa using h
  | cons op ops ih =>
    have now : ∀ key ∈ op.month, ∀ row ∈ t.account.questionTotals, ¬key.Before row.1 := fun key hkey =>
      current key (List.mem_filterMap.mpr ⟨op, List.mem_cons_self, hkey⟩)
    obtain ⟨kept, counts, months⟩ := h.step op now
    have rest : (ops.filterMap Op.month).Pairwise fun k l => ¬l.Before k := by
      rw [List.filterMap_cons] at order
      split at order
      · exact order
      · exact (List.pairwise_cons.mp order).2
    have next : ∀ key ∈ ops.filterMap Op.month, ∀ row ∈ (Traffic.step plans t op).account.questionTotals,
        ¬key.Before row.1 := by
      intro key hkey row hrow
      rcases months row hrow with old | new
      · obtain ⟨row', hrow', same⟩ := List.mem_map.mp old
        rw [← same]
        refine current key ?_ row' hrow'
        obtain ⟨other, hother, month⟩ := List.mem_filterMap.mp hkey
        exact List.mem_filterMap.mpr ⟨other, List.mem_cons_of_mem _ hother, month⟩
      · rw [List.filterMap_cons, new] at order
        exact (List.pairwise_cons.mp order).1 key hkey
    obtain ⟨conserved, total⟩ := ih kept rest next
    rw [final_cons, total_cons, List.map_cons, List.sum_cons, ← add_assoc, ← add_assoc, ← counts]
    exact ⟨conserved, total⟩

/-- The months together count no more than their allowances and what the extra questions give. -/
theorem Conserved.counted_le (h : Conserved plans included budget t) :
    counted t.account.questionTotals ≤ included * t.account.questionTotals.length + budget := by
  have conserved := h.conserved
  have carryover := h.carryover
  have order := h.chronological
  obtain none | ⟨earlier, last, split⟩ := eq_nil_or_last t.account.questionTotals
  · rw [none] at conserved ⊢
    have empty : spent included [] = 0 := rfl
    simp only [counted, List.map_nil, List.sum_nil, List.length_nil]
    omega
  · have last_le := h.within earlier last split
    rw [split] at conserved order ⊢
    rw [spent_append order] at conserved
    have earlier_le : counted earlier ≤ included * earlier.length + (earlier.map (overuse included)).sum := by
      unfold counted
      clear * -
      induction earlier with
      | nil => simp
      | cons row rows ih =>
        have := le_max_right 0 (row.2 - included)
        simp only [List.map_cons, List.sum_cons, List.length_cons, overuse, Int.natCast_add, Int.mul_add] at *
        omega
    rw [counted_append, List.length_append, List.length_singleton, Int.natCast_add, Int.mul_add]
    omega

end

/-- While the plan stays and the months do not go back, the extra questions left and those that earlier months took
    make up what there was at first and what was bought, and so the allowed reservations stay within the allowances of
    the months touched and these. -/
theorem extras_conserved (plans : PlanCatalog) (start : Tables) (ops : List Op)
    (present : start.account.subscription.isSome) (initial : 0 ≤ start.carryover)
    (untouched : start.account.questionTotals = [])
    (order : (ops.filterMap Op.month).Pairwise fun k l => ¬l.Before k) :
    let included := loadMonthlyIncluded plans start
    let t := final (step plans) start ops
    t.carryover + spent included t.account.questionTotals = start.carryover + (ops.map bought).sum ∧
      total (step plans) (reserved plans) start ops ≤
        included * t.account.questionTotals.length + start.carryover + (ops.map bought).sum := by
  intro included t
  have clean : Conserved plans included start.carryover start := by
    refine ⟨present, rfl, initial, ?_, ?_, fun earlier last split => ?_, ?_⟩
    · rw [untouched]
      exact List.Pairwise.nil
    · rw [untouched]
      nofun
    · rw [untouched] at split
      simp at split
    · rw [untouched]
      exact add_zero _
  obtain ⟨conserved, counts⟩ := clean.run order fun key _ row hrow => by
    rw [untouched] at hrow
    cases hrow
  have bound : counted t.account.questionTotals ≤
      included * t.account.questionTotals.length + (start.carryover + (ops.map bought).sum) := conserved.counted_le
  rw [counts, untouched, counted, List.map_nil, List.sum_nil, zero_add, ← add_assoc] at bound
  exact ⟨conserved.conserved, bound⟩

/-- A pack is bought in October, and November is the next month asked for. -/
def overTwoMonths : List Op :=
  [.reserve { userId := 1, periodKey := ⟨2024, 10⟩ },
    .purchase (Env.seeded 0) (Account.created "acme" "Acme" 0).snapshot "question_pack_50" 1,
    .reserve { userId := 2, periodKey := ⟨2024, 10⟩ }, .ensure 0 ⟨2024, 11⟩]

theorem extras_conserved_overTwoMonths :
    let t := final (step defaultPlans) (onStarter 0 []) overTwoMonths
    t.carryover + spent 40 t.account.questionTotals = 0 + 50 ∧
      total (step defaultPlans) (reserved defaultPlans) (onStarter 0 []) overTwoMonths ≤
        40 * t.account.questionTotals.length + 0 + 50 :=
  extras_conserved defaultPlans (onStarter 0 []) overTwoMonths (by decide) (by decide) rfl (by decide)

end NyzRating.Traffic
