import NyzRating.Billing.Catalog
import NyzRating.Billing.PlanChange
import NyzRating.Lib.Run
import NyzRating.Traffic.Balance

/-!
# The readers of the quota

Billing shows what is left of the quota without settling the month, the list of the traffic page settles it first, and
so does a reservation.
-/

namespace NyzRating.Traffic

open Billing Runs

/-- What `list_sms_sends` answers, its rows apart. -/
structure SmsSendList where
  remainingTotal : Int
  availableTotal : Int
  usedTotal : Int
  deriving DecidableEq, Repr

/-- `list_sms_sends`. -/
def listSmsSends (plans : PlanCatalog) (dbNow : Int) (key : MonthKey) (t : Tables) : SmsSendList × Tables :=
  let (_, t) := ensureAddonCarryover plans dbNow key t
  let used := t.userTotal key
  let available := (plans.getOrFree t.planCode).includedQuestionsMonthly + t.carryover
  ({ remainingTotal := max 0 (available - used), availableTotal := available, usedTotal := used }, t)

/-! ### Reachable states -/

namespace Readers

/-- What changes the counters and the subscription of a tenant, on any day: billing writes any row, and a reset of the
    tenant empties the counters. -/
inductive Op where
  | reserve (r : ReservationRequest)
  | list (dbNow : Int) (key : MonthKey)
  | subscribe (row : Subscription)
  | reset (row : Subscription)

def step (plans : PlanCatalog) (t : Tables) : Op → Tables
  | .reserve r => (reserveQuestion plans r t).2
  | .list dbNow key => (listSmsSends plans dbNow key t).2
  | .subscribe row => { t with account := { t.account with subscription := some row } }
  | .reset row =>
    { account := { t.account with subscription := some row, questionTotals := [], questionUsage := [] } }

/-- A tenant with a subscription that has not asked anything. -/
structure Fresh (t : Tables) : Prop where
  present : t.account.subscription.isSome
  totals : t.account.questionTotals = []
  unbilled : t.account.questionUsage = []
  usage : t.usage = []
  events : t.events = []

/-- The counters agree, and billing has not counted any question of its own. -/
structure Reachable (t : Tables) : Prop where
  present : t.account.subscription.isSome
  balanced : Balanced t
  unbilled : t.account.questionUsage = []

theorem Fresh.reachable {t : Tables} (h : Fresh t) : Reachable t :=
  ⟨h.present, Balanced.empty h.totals h.usage h.events, h.unbilled⟩

section
variable {plans : PlanCatalog} {t : Tables} {dbNow : Int} {key : MonthKey}

theorem settle_questionUsage :
    (settleAddonCarryover plans dbNow key t).2.account.questionUsage = t.account.questionUsage := by
  cases ht : t.total? key with
  | some row => rw [settle_of_touched (by rw [ht]; rfl)]
  | none =>
    rw [settle_of_untouched ht]
    unfold Tables.insertTotal
    split <;> split <;> rfl

theorem record_questionUsage (r : ReservationRequest) : (r.record t).account.questionUsage = t.account.questionUsage := by
  unfold ReservationRequest.record
  rw [Tables.insertEvent_account]
  unfold Tables.countInTotal
  rw [Tables.countForUser_account]

theorem Reachable.step (h : Reachable t) (op : Op) : Reachable (step plans t op) := by
  cases op with
  | reserve r =>
    refine ⟨(reserveQuestion_present h.present).trans h.present, h.balanced.reserve h.present r, ?_⟩
    change (reserveQuestion plans r t).2.account.questionUsage = []
    cases allowed : (reserveQuestion plans r t).1.allowed with
    | false =>
      rw [reserveQuestion_of_denied allowed]
      exact h.unbilled
    | true =>
      rw [reserveQuestion_of_allowed allowed, record_questionUsage, settle_questionUsage]
      exact h.unbilled
  | list dbNow key =>
    have settlement := settled plans dbNow key h.present
    exact ⟨settlement.present.trans h.present, h.balanced.settled settlement, settle_questionUsage.trans h.unbilled⟩
  | subscribe row => exact ⟨rfl, ⟨h.balanced.totalKeys, h.balanced.userKeys, h.balanced.users, h.balanced.events⟩, h.unbilled⟩
  | reset row => exact ⟨rfl, Balanced.empty rfl rfl rfl, rfl⟩

theorem reachable (h : Fresh t) (ops : List Op) : Reachable (final (Readers.step plans) t ops) :=
  final_kept Reachable h.reachable fun _ op h => h.step op

end

/-! ### What the readers see -/

/-- All three see the same number, and a reservation is allowed exactly when it is positive. -/
def Agree (env : Env) (dbNow : Int) (r : ReservationRequest) (sub : Subscription) (t : Tables) : Prop :=
  let shown := (questionUsageSummary env sub t.account).remainingTotal
  (listSmsSends env.plans dbNow env.currentPeriod.key t).1.remainingTotal = shown ∧
    ((reserveQuestion env.plans r t).1.allowed = true ↔ 0 < shown)

/-- The settlement of the month leaves the extra questions as they are. -/
def NothingOwed (env : Env) (sub : Subscription) (t : Tables) : Prop :=
  (t.total? env.currentPeriod.key).isSome ∨ sub.carryoverAddonQuestions = 0 ∨
    ∀ previous ∈ t.previousTotal env.currentPeriod.key,
      previous.2 ≤ max 0 (env.plans.getOrFree sub.planCode).includedQuestionsMonthly

/-- Nothing is owed; or what is owed is more than there is, and the allowance takes the rest. A negative allowance
    counts as none for a reservation only, and then what is shown has to be on the same side of zero. -/
def Consistent (env : Env) (sub : Subscription) (t : Tables) : Prop :=
  let included := (env.plans.getOrFree sub.planCode).includedQuestionsMonthly
  let used := t.usedTotal env.currentPeriod.key
  let extras := sub.carryoverAddonQuestions
  NothingOwed env sub t ∧ (0 ≤ included ∨ used < included + extras ∨ extras ≤ used) ∨
    ¬NothingOwed env sub t ∧ included + extras ≤ 0 ∧ ∀ previous ∈ t.previousTotal env.currentPeriod.key, extras ≤ previous.2

instance (env : Env) (dbNow : Int) (r : ReservationRequest) (sub : Subscription) (t : Tables) :
    Decidable (Agree env dbNow r sub t) := inferInstanceAs (Decidable (_ ∧ _))

instance (env : Env) (sub : Subscription) (t : Tables) : Decidable (NothingOwed env sub t) :=
  inferInstanceAs (Decidable (_ ∨ _ ∨ _))

instance (env : Env) (sub : Subscription) (t : Tables) : Decidable (Consistent env sub t) :=
  inferInstanceAs (Decidable (_ ∧ (_ ∨ _ ∨ _) ∨ _ ∧ _ ∧ _))

section
variable {env : Env} {dbNow : Int} {r : ReservationRequest} {sub : Subscription} {t : Tables} {key : MonthKey}

/-- An empty code falls back to the free plan, as a code that the catalog does not have. -/
theorem getOrFree_orText (named : env.plans.find? "" = none) (code : String) :
    env.plans.getOrFree (orText (some code) "free") = env.plans.getOrFree code := by
  unfold orText
  rw [Option.filter_some]
  by_cases h : code = ""
  · have free : env.plans.find? "free" = some env.plans.free := (Option.some_get _).symm
    simp [h, PlanCatalog.getOrFree, named, free]
  · simp [h]

theorem Reachable.used_nonneg (h : Reachable t) (key : MonthKey) : 0 ≤ t.usedTotal key := h.balanced.used_nonneg key

theorem usedTotal_of_untouched (h : t.total? key = none) : t.usedTotal key = 0 := by
  rw [Tables.usedTotal, h]
  rfl

/-- Billing counts as the totals do. -/
theorem questionsUsedInPeriod_eq (unbilled : t.account.questionUsage = []) (nonneg : 0 ≤ t.usedTotal key) :
    t.account.questionsUsedInPeriod key = t.usedTotal key := by
  unfold Account.questionsUsedInPeriod
  unfold Tables.usedTotal Tables.total? at *
  cases ht : t.account.questionTotals.find? (·.1 = key) with
  | none =>
    simp only [unbilled]
    rfl
  | some row =>
    rw [ht] at nonneg
    exact max_eq_right nonneg

theorem Reachable.questionsUsedInPeriod (h : Reachable t) (key : MonthKey) :
    t.account.questionsUsedInPeriod key = t.usedTotal key := questionsUsedInPeriod_eq h.unbilled (h.used_nonneg key)

/-- The extra questions in force in a month, once it is settled. -/
def settledExtras (plans : PlanCatalog) (key : MonthKey) (t : Tables) : Int :=
  (t.total? key).elim (settledCarryover plans key t) fun _ => t.carryover

theorem settle_fst (plans : PlanCatalog) (dbNow : Int) (key : MonthKey) (t : Tables) :
    (settleAddonCarryover plans dbNow key t).1 = settledExtras plans key t := by
  unfold settledExtras
  cases ht : t.total? key with
  | some row => rw [settle_of_touched (by rw [ht]; rfl), Option.elim_some]
  | none => rw [settle_of_untouched ht, Option.elim_none]

theorem planCode_of_some (hs : t.account.subscription = some sub) : t.planCode = orText (some sub.planCode) "free" := by
  rw [Tables.planCode, hs, Option.map_some]

/-- What the traffic page shows, by what the settlement leaves. -/
theorem Reachable.listed (h : Reachable t) (hs : t.account.subscription = some sub) (named : env.plans.find? "" = none)
    (key : MonthKey) : (listSmsSends env.plans dbNow key t).1.remainingTotal =
      max 0 ((env.plans.getOrFree sub.planCode).includedQuestionsMonthly + settledExtras env.plans key t - t.usedTotal key) := by
  have settlement := settled env.plans dbNow key h.present
  have used := (h.balanced.settled settlement).users key
  rw [settlement.usedTotal key] at used
  unfold listSmsSends ensureAddonCarryover
  simp only
  rw [← used, settlement.carryover, settlement.planCode, planCode_of_some hs, getOrFree_orText named, settle_fst]

/-- When a reservation is allowed, by what the settlement leaves. -/
theorem Reachable.allowed_iff {included : Int} (h : Reachable t) (hs : t.account.subscription = some sub)
    (named : env.plans.find? "" = none) (hi : included = max 0 (env.plans.getOrFree sub.planCode).includedQuestionsMonthly) :
    (reserveQuestion env.plans r t).1.allowed = true ↔ 0 < included + settledExtras env.plans r.periodKey t ∧
      t.usedTotal r.periodKey < max 0 (included + settledExtras env.plans r.periodKey t) := by
  have settlement := settled env.plans r.dbNow r.periodKey h.present
  have quota : loadMonthlyIncluded env.plans (settleAddonCarryover env.plans r.dbNow r.periodKey t).2 = included := by
    rw [settlement.loadMonthlyIncluded, loadMonthlyIncluded, planCode_of_some hs, monthlyIncludedForPlan,
      getOrFree_orText named, hi]
  have allowed : (reserveQuestion env.plans r t).1.allowed = true ↔
      0 < loadMonthlyIncluded env.plans (settleAddonCarryover env.plans r.dbNow r.periodKey t).2 +
          (settleAddonCarryover env.plans r.dbNow r.periodKey t).1 ∧
        (settleAddonCarryover env.plans r.dbNow r.periodKey t).2.usedTotal r.periodKey <
          max 0 (loadMonthlyIncluded env.plans (settleAddonCarryover env.plans r.dbNow r.periodKey t).2 +
            (settleAddonCarryover env.plans r.dbNow r.periodKey t).1) := reserveQuestion_allowed_iff
  rw [allowed, quota, settlement.usedTotal, settle_fst]

/-- What the settlement leaves, case by case. -/
theorem settledExtras_cases (hs : t.account.subscription = some sub) (named : env.plans.find? "" = none)
    (carryover : 0 ≤ sub.carryoverAddonQuestions) :
    let included := (env.plans.getOrFree sub.planCode).includedQuestionsMonthly
    let key := env.currentPeriod.key
    NothingOwed env sub t ∧ settledExtras env.plans key t = sub.carryoverAddonQuestions ∨
      ∃ previous, ¬NothingOwed env sub t ∧ t.total? key = none ∧ t.previousTotal key = some previous ∧
        max 0 included < previous.2 ∧ 0 < sub.carryoverAddonQuestions ∧
        settledExtras env.plans key t = max 0 (sub.carryoverAddonQuestions - (previous.2 - max 0 included)) := by
  intro included key
  have left : t.carryover = sub.carryoverAddonQuestions := by
    rw [Tables.carryover, hs]
    rfl
  unfold settledExtras NothingOwed
  cases ht : t.total? key with
  | some row => exact .inl ⟨.inl rfl, left⟩
  | none =>
    unfold settledCarryover
    rw [Option.elim_none, left]
    cases hp : t.previousTotal key with
    | none => exact .inl ⟨.inr (.inr fun p mem => absurd mem (Option.not_mem_none p)), rfl⟩
    | some previous =>
      have quota : loadMonthlyIncluded env.plans t = max 0 included := by
        rw [loadMonthlyIncluded, planCode_of_some hs, monthlyIncludedForPlan, getOrFree_orText named]
      have owes : (∀ p, p ∈ some previous → p.2 ≤ max 0 included) ↔ previous.2 ≤ max 0 included := by simp
      change ((none : Option (MonthKey × Int)).isSome ∨ sub.carryoverAddonQuestions = 0 ∨
        ∀ p, p ∈ some previous → p.2 ≤ max 0 included) ∧ _ ∨ ∃ p, ¬((none : Option (MonthKey × Int)).isSome ∨ _) ∧ _
      rw [owes, Option.elim_some, remainingExtras, quota]
      simp only [Option.isSome_none, Bool.false_eq_true, false_or]
      by_cases nothing : sub.carryoverAddonQuestions = 0 ∨ previous.2 ≤ max 0 included
      · refine .inl ⟨nothing, ?_⟩
        omega
      · refine .inr ⟨previous, nothing, trivial, rfl, ?_, ?_, ?_⟩
        · omega
        · omega
        · omega

theorem Reachable.agree_iff (h : Reachable t) (hs : t.account.subscription = some sub) (named : env.plans.find? "" = none)
    (month : r.periodKey = env.currentPeriod.key) (carryover : 0 ≤ sub.carryoverAddonQuestions) :
    Agree env dbNow r sub t ↔ Consistent env sub t := by
  have nonneg := h.used_nonneg env.currentPeriod.key
  unfold Agree Consistent
  simp only [questionUsageSummary]
  rw [h.listed hs named, h.allowed_iff hs named rfl, month, h.questionsUsedInPeriod]
  obtain ⟨nothing, left⟩ | ⟨previous, owed, untouched, hp, excess, positive, left⟩ := settledExtras_cases hs named carryover
  · rw [left]
    simp only [nothing, not_true_eq_false, true_and, false_and, or_false]
    omega
  · have unused := usedTotal_of_untouched untouched
    have bound : (∀ p ∈ t.previousTotal env.currentPeriod.key, sub.carryoverAddonQuestions ≤ p.2) ↔
        sub.carryoverAddonQuestions ≤ previous.2 := by
      rw [hp]
      simp
    rw [left, bound]
    simp only [owed, not_false_eq_true, true_and, false_and, false_or]
    omega

end

/-- The three readers agree, in every state that a tenant reaches, exactly under `Consistent`. -/
theorem readers_agree_iff (env : Env) (dbNow : Int) (r : ReservationRequest) (start : Tables) (ops : List Op) (sub : Subscription)
    (fresh : Fresh start) (named : env.plans.find? "" = none) (month : r.periodKey = env.currentPeriod.key)
    (hs : (final (step env.plans) start ops).account.subscription = some sub) (carryover : 0 ≤ sub.carryoverAddonQuestions) :
    Agree env dbNow r sub (final (step env.plans) start ops) ↔ Consistent env sub (final (step env.plans) start ops) :=
  (reachable fresh ops).agree_iff hs named month carryover

/-- On the free plan, which allows 3 questions a month, with 10 extra questions. -/
def onFree : Subscription :=
  { planCode := "free", billingPeriod := .monthly, status := .trial, trialStartedAt := none, trialEndsAt := none
    carryoverAddonQuestions := 10, createdAt := 0, updatedAt := 0 }

def free : Tables := { account := { Account.created "acme" "Acme" 0 with subscription := some onFree } }

def asks (count : Nat) : List Op := List.replicate count (.reserve { userId := 1, periodKey := ⟨2024, 10⟩ })

def november : Env := Env.seeded (Calendar.midnight 20032)

theorem fresh_free : Fresh free := ⟨rfl, rfl, rfl, rfl, rfl⟩

/-- Three questions of October are in the allowance. -/
theorem readers_agree_within_allowance :
    Agree november 0 { userId := 1, periodKey := ⟨2024, 11⟩ } onFree (final (step november.plans) free (asks 3)) :=
  (readers_agree_iff november 0 { userId := 1, periodKey := ⟨2024, 11⟩ } free (asks 3) onFree fresh_free rfl rfl rfl
    (by decide)).mpr (by decide)

/-- After four questions in October, billing shows 13 for November, and the traffic page 12. -/
theorem readers_disagree :
    ¬∀ (env : Env) (dbNow : Int) (r : ReservationRequest) (start : Tables) (ops : List Op) (sub : Subscription),
      Fresh start → env.plans.find? "" = none → r.periodKey = env.currentPeriod.key →
      (final (step env.plans) start ops).account.subscription = some sub → 0 ≤ sub.carryoverAddonQuestions →
      Agree env dbNow r sub (final (step env.plans) start ops) := by
  intro h
  have agree := h november 0 { userId := 1, periodKey := ⟨2024, 11⟩ } free (asks 4) onFree fresh_free rfl rfl rfl (by decide)
  exact absurd agree (by decide)

end Readers

end NyzRating.Traffic
