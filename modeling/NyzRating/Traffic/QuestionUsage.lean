import NyzRating.Billing.Catalog

/-!
# The question counters of a tenant

`TrafficQuestionUsageRepository` keeps a counter for each user and month, the total of each month, and an append-only
list of events. The first touch of a month settles the month before: what it used over the allowance of the plan is
taken from the extra questions of the subscription.
-/

namespace NyzRating.Billing.MonthKey

/-- The order of the texts `YYYY-MM`. -/
def Before (k l : MonthKey) : Prop := k.year < l.year ∨ k.year = l.year ∧ k.month < l.month

instance (k l : MonthKey) : Decidable (k.Before l) := inferInstanceAs (Decidable (_ ∨ _ ∧ _))

theorem before_irrefl (k : MonthKey) : ¬k.Before k := by
  unfold Before
  omega

theorem Before.trans {k l m : MonthKey} (h : k.Before l) (h' : l.Before m) : k.Before m := by
  unfold Before at *
  omega

theorem before_or_eq_of_not_before {k l : MonthKey} (h : ¬l.Before k) : k.Before l ∨ k = l := by
  obtain ⟨ky, km⟩ := k
  obtain ⟨ly, lm⟩ := l
  simp only [Before, mk.injEq] at h ⊢
  omega

end NyzRating.Billing.MonthKey

namespace NyzRating.Traffic

open Billing

def questionLimitExceededMessage : String := "Elfogyott a megkeresésszám kereted. Vásárolj extra megkereséscsomagot."

/-- A row of `traffic_question_events`; its type is always `reserved` and its delta 1. -/
structure QuestionEvent where
  userId : Nat
  periodKey : MonthKey
  requestContext : String
  deriving DecidableEq, Repr

/-- The rows of one tenant that reservations read and write. The totals of the months are rows of the account. -/
structure Tables where
  account : Account
  usage : List QuestionUsage := []
  events : List QuestionEvent := []
  deriving DecidableEq, Repr

namespace Tables

/-! ### Queries -/

/-- The code of the plan, `free` without a subscription. -/
def planCode (t : Tables) : String := orText (t.account.subscription.map (·.planCode)) "free"

def carryover (t : Tables) : Int := (t.account.subscription.map (·.carryoverAddonQuestions)).getD 0

def total? (key : MonthKey) (t : Tables) : Option (MonthKey × Int) := t.account.questionTotals.find? (·.1 = key)

/-- The total of the latest month before `key`. -/
def previousTotal (key : MonthKey) (t : Tables) : Option (MonthKey × Int) :=
  Lists.latestBy (fun r s => decide (r.1.Before s.1)) (t.account.questionTotals.filter (·.1.Before key))

/-- The question count of a total, 0 when the row is missing. -/
def usedTotal (key : MonthKey) (t : Tables) : Int := ((t.total? key).map (·.2)).getD 0

/-! ### Writes -/

/-- `UPDATE billing_subscriptions SET carryover_addon_questions = …, updated_at = NOW()`. -/
def updateCarryover (dbNow carryover : Int) (t : Tables) : Tables :=
  let set (row : Subscription) : Subscription := { row with carryoverAddonQuestions := carryover, updatedAt := dbNow }
  { t with account := { t.account with subscription := t.account.subscription.map set } }

/-- `INSERT … ON CONFLICT DO NOTHING`. -/
def insertTotal (key : MonthKey) (t : Tables) : Tables :=
  if (t.total? key).isSome then t
  else { t with account := { t.account with questionTotals := t.account.questionTotals ++ [(key, 0)] } }

/-- `INSERT … ON CONFLICT DO UPDATE SET question_count = question_count + 1`. -/
def countForUser (userId : Nat) (key : MonthKey) (t : Tables) : Tables :=
  let count (row : QuestionUsage) : QuestionUsage :=
    if row.userId = userId ∧ row.periodKey = key then { row with questionCount := row.questionCount + 1 } else row
  if t.usage.any (fun row => row.userId = userId ∧ row.periodKey = key) then { t with usage := t.usage.map count }
  else { t with usage := t.usage ++ [{ userId, periodKey := key, questionCount := 1 }] }

/-- `UPDATE traffic_question_usage_totals SET question_count = question_count + 1`. -/
def countInTotal (key : MonthKey) (t : Tables) : Tables :=
  let count (row : MonthKey × Int) : MonthKey × Int := if row.1 = key then (row.1, row.2 + 1) else row
  { t with account := { t.account with questionTotals := t.account.questionTotals.map count } }

def insertEvent (event : QuestionEvent) (t : Tables) : Tables := { t with events := t.events ++ [event] }

end Tables

/-! ### The repository -/

/-- `_monthly_included_for_plan`. -/
def monthlyIncludedForPlan (plans : PlanCatalog) (planCode : String) : Int :=
  max 0 (plans.getOrFree planCode).includedQuestionsMonthly

/-- `_load_monthly_included`. -/
def loadMonthlyIncluded (plans : PlanCatalog) (t : Tables) : Int := monthlyIncludedForPlan plans t.planCode

/-- What is left of the extra questions after the month `previous`. -/
def remainingExtras (carryover monthlyIncluded : Int) (previous : MonthKey × Int) : Int :=
  max 0 (carryover - max 0 (max 0 previous.2 - monthlyIncluded))

/-- `_settle_addon_carryover_for_new_period`: the carryover in force in the month `key`. -/
def settleAddonCarryover (plans : PlanCatalog) (dbNow : Int) (key : MonthKey) (t : Tables) : Int × Tables :=
  match t.total? key with
  | some _ => (t.carryover, t)
  | none =>
    let carryover := (t.previousTotal key).elim t.carryover (remainingExtras t.carryover (loadMonthlyIncluded plans t))
    let settled := if carryover = t.carryover then t else t.updateCarryover dbNow carryover
    (carryover, settled.insertTotal key)

/-- `ensure_addon_carryover_for_period`. -/
def ensureAddonCarryover (plans : PlanCatalog) (dbNow : Int) (key : MonthKey) (t : Tables) : Int × Tables :=
  settleAddonCarryover plans dbNow key t

/-- The arguments of `reserve_question`, and the time of its transaction. -/
structure ReservationRequest where
  userId : Nat
  periodKey : MonthKey
  requestContext : String := "{}"
  dbNow : Int := 0
  deriving DecidableEq, Repr

structure ReservationResult where
  allowed : Bool
  reason : Option String
  periodKey : MonthKey
  usedTotal : Int
  availableTotal : Int
  remainingTotal : Int
  deriving DecidableEq, Repr

/-- The answer to a request that finds `used` of `available` questions used. -/
def ReservationRequest.answer (r : ReservationRequest) (used available : Int) : ReservationResult :=
  if available ≤ 0 ∨ used ≥ available then
    { allowed := false, reason := some questionLimitExceededMessage, periodKey := r.periodKey, usedTotal := used
      availableTotal := max 0 available, remainingTotal := 0 }
  else
    { allowed := true, reason := none, periodKey := r.periodKey, usedTotal := used + 1, availableTotal := available
      remainingTotal := max 0 (available - (used + 1)) }

/-- The three writes of an allowed reservation. -/
def ReservationRequest.record (r : ReservationRequest) (t : Tables) : Tables :=
  ((t.countForUser r.userId r.periodKey).countInTotal r.periodKey).insertEvent ⟨r.userId, r.periodKey, r.requestContext⟩

/-- `reserve_question`. A denied reservation rolls its transaction back, the settlement included. -/
def reserveQuestion (plans : PlanCatalog) (r : ReservationRequest) (t : Tables) : ReservationResult × Tables :=
  let (carryover, settled) := settleAddonCarryover plans r.dbNow r.periodKey t
  let answer := r.answer (settled.usedTotal r.periodKey) (max 0 (loadMonthlyIncluded plans settled + carryover))
  (answer, if answer.allowed then r.record settled else t)

/-! ### What the writes change -/

namespace Tables

variable {t : Tables} {key : MonthKey} {dbNow carryover : Int} {userId : Nat} {event : QuestionEvent}

@[simp] theorem updateCarryover_totals :
    (t.updateCarryover dbNow carryover).account.questionTotals = t.account.questionTotals := rfl

@[simp] theorem updateCarryover_usage : (t.updateCarryover dbNow carryover).usage = t.usage := rfl

@[simp] theorem updateCarryover_events : (t.updateCarryover dbNow carryover).events = t.events := rfl

@[simp] theorem updateCarryover_planCode : (t.updateCarryover dbNow carryover).planCode = t.planCode := by
  unfold planCode updateCarryover
  cases t.account.subscription <;> rfl

@[simp] theorem updateCarryover_isSome :
    (t.updateCarryover dbNow carryover).account.subscription.isSome = t.account.subscription.isSome := by
  simp [updateCarryover]

theorem updateCarryover_carryover (h : t.account.subscription.isSome) :
    (t.updateCarryover dbNow carryover).carryover = carryover := by
  obtain ⟨sub, hs⟩ := Option.isSome_iff_exists.mp h
  simp [Tables.carryover, updateCarryover, hs]

@[simp] theorem insertTotal_subscription : (t.insertTotal key).account.subscription = t.account.subscription := by
  unfold insertTotal
  split <;> rfl

@[simp] theorem insertTotal_planCode : (t.insertTotal key).planCode = t.planCode := by
  unfold planCode
  rw [insertTotal_subscription]

@[simp] theorem insertTotal_carryover : (t.insertTotal key).carryover = t.carryover := by
  unfold Tables.carryover
  rw [insertTotal_subscription]

@[simp] theorem insertTotal_usage : (t.insertTotal key).usage = t.usage := by
  unfold insertTotal
  split <;> rfl

@[simp] theorem insertTotal_events : (t.insertTotal key).events = t.events := by
  unfold insertTotal
  split <;> rfl

theorem insertTotal_totals (h : t.total? key = none) :
    (t.insertTotal key).account.questionTotals = t.account.questionTotals ++ [(key, 0)] := by
  unfold insertTotal
  rw [h]
  rfl

@[simp] theorem countForUser_account : (t.countForUser userId key).account = t.account := by
  unfold countForUser
  split <;> rfl

@[simp] theorem countForUser_events : (t.countForUser userId key).events = t.events := by
  unfold countForUser
  split <;> rfl

@[simp] theorem countInTotal_subscription : (t.countInTotal key).account.subscription = t.account.subscription := rfl

@[simp] theorem countInTotal_usage : (t.countInTotal key).usage = t.usage := rfl

@[simp] theorem countInTotal_events : (t.countInTotal key).events = t.events := rfl

@[simp] theorem insertEvent_account : (t.insertEvent event).account = t.account := rfl

@[simp] theorem insertEvent_usage : (t.insertEvent event).usage = t.usage := rfl

@[simp] theorem insertEvent_events : (t.insertEvent event).events = t.events ++ [event] := rfl

theorem total?_isSome_iff : (t.total? key).isSome ↔ key ∈ t.account.questionTotals.map (·.1) := Lists.find?_isSome_iff

end Tables

/-! ### The settlement of a month -/

section
variable {plans : PlanCatalog} {dbNow : Int} {key : MonthKey} {t : Tables}

theorem settle_of_touched (h : (t.total? key).isSome) : settleAddonCarryover plans dbNow key t = (t.carryover, t) := by
  obtain ⟨row, hrow⟩ := Option.isSome_iff_exists.mp h
  unfold settleAddonCarryover
  rw [hrow]

/-- The carryover that the first touch of the month `key` leaves. -/
def settledCarryover (plans : PlanCatalog) (key : MonthKey) (t : Tables) : Int :=
  (t.previousTotal key).elim t.carryover (remainingExtras t.carryover (loadMonthlyIncluded plans t))

theorem settle_of_untouched (h : t.total? key = none) :
    settleAddonCarryover plans dbNow key t = (settledCarryover plans key t,
      (if settledCarryover plans key t = t.carryover then t
        else t.updateCarryover dbNow (settledCarryover plans key t)).insertTotal key) := by
  unfold settleAddonCarryover
  rw [h]
  rfl

/-- What a settlement changes: the carryover, and the totals by a new month. -/
structure Settled (plans : PlanCatalog) (key : MonthKey) (t : Tables) (rest : Int) (s : Tables) : Prop where
  carryover : s.carryover = rest
  touched : (t.total? key).isSome → s = t
  fresh : t.total? key = none →
    rest = settledCarryover plans key t ∧ s.account.questionTotals = t.account.questionTotals ++ [(key, 0)]
  planCode : s.planCode = t.planCode
  present : s.account.subscription.isSome = t.account.subscription.isSome
  usage : s.usage = t.usage
  events : s.events = t.events

variable (plans dbNow key) in
theorem settled (h : t.account.subscription.isSome) : Settled plans key t (settleAddonCarryover plans dbNow key t).1
    (settleAddonCarryover plans dbNow key t).2 := by
  cases ht : t.total? key with
  | some row =>
    have touched : (t.total? key).isSome := by rw [ht]; rfl
    have unfresh : t.total? key ≠ none := by simp [ht]
    rw [settle_of_touched touched]
    exact ⟨rfl, fun _ => rfl, fun h => absurd h unfresh, rfl, rfl, rfl, rfl⟩
  | none =>
    have untouched : ¬(t.total? key).isSome := by simp [ht]
    rw [settle_of_untouched ht]
    split
    · next same =>
      exact ⟨by simp [same], fun h => absurd h untouched, fun _ => ⟨rfl, Tables.insertTotal_totals ht⟩, by simp,
        by simp, by simp, by simp⟩
    · have fresh : (t.updateCarryover dbNow (settledCarryover plans key t)).total? key = none := ht
      refine ⟨?_, fun h => absurd h untouched, fun _ => ⟨rfl, Tables.insertTotal_totals fresh⟩, ?_, ?_, ?_, ?_⟩
      · rw [Tables.insertTotal_carryover, Tables.updateCarryover_carryover h]
      · rw [Tables.insertTotal_planCode, Tables.updateCarryover_planCode]
      · rw [Tables.insertTotal_subscription, Tables.updateCarryover_isSome]
      · rw [Tables.insertTotal_usage, Tables.updateCarryover_usage]
      · rw [Tables.insertTotal_events, Tables.updateCarryover_events]

/-- A tenant without a subscription has no extra questions to settle. -/
theorem settled_absent (dbNow : Int) (h : t.account.subscription = none) :
    Settled plans key t (settleAddonCarryover plans dbNow key t).1 (settleAddonCarryover plans dbNow key t).2 := by
  cases ht : t.total? key with
  | some row =>
    have touched : (t.total? key).isSome := by rw [ht]; rfl
    have unfresh : t.total? key ≠ none := by simp [ht]
    rw [settle_of_touched touched]
    exact ⟨rfl, fun _ => rfl, fun h => absurd h unfresh, rfl, rfl, rfl, rfl⟩
  | none =>
    have untouched : ¬(t.total? key).isSome := by simp [ht]
    have nothing : t.carryover = 0 := by simp [Tables.carryover, h]
    have same : settledCarryover plans key t = t.carryover := by
      unfold settledCarryover remainingExtras
      cases t.previousTotal key with
      | none => rfl
      | some previous =>
        rw [nothing]
        exact max_eq_left (by omega)
    rw [settle_of_untouched ht, if_pos same]
    exact ⟨by simp [same], fun h => absurd h untouched, fun _ => ⟨rfl, Tables.insertTotal_totals ht⟩, by simp, by simp,
      by simp, by simp⟩

variable (plans key t) in
theorem settled_always (dbNow : Int) :
    Settled plans key t (settleAddonCarryover plans dbNow key t).1 (settleAddonCarryover plans dbNow key t).2 := by
  cases h : t.account.subscription with
  | none => exact settled_absent dbNow h
  | some sub => exact settled plans dbNow key (by rw [h]; rfl)

theorem Settled.total?_isSome {rest : Int} {s : Tables} (h : Settled plans key t rest s) : (s.total? key).isSome := by
  cases ht : t.total? key with
  | some row =>
    rw [h.touched (by rw [ht]; rfl), ht]
    rfl
  | none =>
    rw [Tables.total?_isSome_iff, (h.fresh ht).2, List.map_append]
    exact List.mem_append_right _ List.mem_cons_self

theorem Settled.loadMonthlyIncluded {rest : Int} {s : Tables} (h : Settled plans key t rest s) :
    loadMonthlyIncluded plans s = loadMonthlyIncluded plans t := by
  unfold Traffic.loadMonthlyIncluded
  rw [h.planCode]

end

/-! ### Reservations -/

section
variable {plans : PlanCatalog} {r : ReservationRequest} {t : Tables}

theorem answer_allowed_iff {used available : Int} :
    (r.answer used available).allowed = true ↔ 0 < available ∧ used < available := by
  unfold ReservationRequest.answer
  split <;> simp <;> omega

theorem reserveQuestion_of_allowed (h : (reserveQuestion plans r t).1.allowed = true) :
    (reserveQuestion plans r t).2 = r.record (settleAddonCarryover plans r.dbNow r.periodKey t).2 := by
  change (if (reserveQuestion plans r t).1.allowed then r.record (settleAddonCarryover plans r.dbNow r.periodKey t).2
    else t) = _
  rw [if_pos h]

theorem reserveQuestion_of_denied (h : (reserveQuestion plans r t).1.allowed = false) :
    (reserveQuestion plans r t).2 = t := by
  change (if (reserveQuestion plans r t).1.allowed then r.record (settleAddonCarryover plans r.dbNow r.periodKey t).2
    else t) = _
  rw [h, if_neg Bool.false_ne_true]

/-- A reservation is allowed when the month, once settled, has used less than its allowance and the extra questions. -/
theorem reserveQuestion_allowed_iff :
    let (carryover, settled) := settleAddonCarryover plans r.dbNow r.periodKey t
    (reserveQuestion plans r t).1.allowed = true ↔
      0 < loadMonthlyIncluded plans settled + carryover ∧
        settled.usedTotal r.periodKey < max 0 (loadMonthlyIncluded plans settled + carryover) := by
  unfold reserveQuestion
  generalize settleAddonCarryover plans r.dbNow r.periodKey t = settlement
  simp only [answer_allowed_iff]
  omega

theorem record_subscription : (r.record t).account.subscription = t.account.subscription := by
  simp [ReservationRequest.record]

theorem record_planCode : (r.record t).planCode = t.planCode := by
  unfold Tables.planCode
  rw [record_subscription]

theorem record_carryover : (r.record t).carryover = t.carryover := by
  unfold Tables.carryover
  rw [record_subscription]

/-- A reservation keeps the subscription present. -/
theorem reserveQuestion_present (h : t.account.subscription.isSome) :
    (reserveQuestion plans r t).2.account.subscription.isSome = t.account.subscription.isSome := by
  cases ha : (reserveQuestion plans r t).1.allowed with
  | false => rw [reserveQuestion_of_denied ha]
  | true => rw [reserveQuestion_of_allowed ha, record_subscription, (settled plans r.dbNow r.periodKey h).present]

end

/-- A tenant on the starter plan, which allows 40 questions a month. -/
def onStarter (carryover : Int) (totals : List (MonthKey × Int)) : Tables :=
  let subscription : Subscription :=
    { planCode := "starter", billingPeriod := .monthly, status := .active, trialStartedAt := none, trialEndsAt := none
      carryoverAddonQuestions := carryover, createdAt := 0, updatedAt := 0 }
  { account := { Account.created "acme" "Acme" 0 with subscription := some subscription, questionTotals := totals } }

end NyzRating.Traffic
