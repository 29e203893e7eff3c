import NyzRating.Traffic.Readers

/-!
# The quota set for debugging

`set_debug_sms_quota` solves for the carryover that leaves the given number of questions. Where the month is not yet
touched, the first reservation settles the month before against that carryover.
-/

namespace NyzRating.Traffic

open Billing Calendar Program Runs

structure DebugSmsQuota where
  slug : String
  smsQuota : Int
  planIncluded : Int
  usedTotal : Int
  periodKey : MonthKey
  carryoverAddonQuestions : Int
  availableTotal : Int
  remainingTotal : Int
  deriving DecidableEq, Repr

/-- `set_debug_sms_quota` of an existing tenant; its month is that of the system clock. -/
def setDebugSmsQuota (env : Env) (systemNow : Int) (ctx : TenantContext) (smsQuota : Int) : AccountM DebugSmsQuota := do
  if smsQuota < 0 then throw (.valueError "Az SMS keret nem lehet negatív.")
  let sub ← modifyGet (ensureSubscription env ctx)
  let a ← get
  let included := (env.plans.getOrFree sub.planCode).includedQuestionsMonthly
  let key := (currentMonthPeriod systemNow).key
  let used := a.questionsUsedInPeriod key
  let available := used + smsQuota
  let updated ← modifyGet (Account.upsertSubscription env.utcnow
    { sub.toSubscriptionData with carryoverAddonQuestions := available - included })
  modify (syncTenantConfig env updated)
  let final := included + updated.carryoverAddonQuestions
  return { slug := ctx.slug, smsQuota, planIncluded := included, usedTotal := used, periodKey := key
           carryoverAddonQuestions := updated.carryoverAddonQuestions, availableTotal := final
           remainingTotal := max 0 (final - used) }

namespace DebugQuota

open Readers

/-- The tables after `set_debug_sms_quota`. -/
def setQuota (env : Env) (systemNow : Int) (ctx : TenantContext) (smsQuota : Int) (t : Tables) : Tables :=
  { t with account := after (setDebugSmsQuota env systemNow ctx smsQuota) t.account }

/-! ### Reservations in a row -/

def answers (plans : PlanCatalog) : Tables → List ReservationRequest → List Bool
  | _, [] => []
  | t, r :: rs => (reserveQuestion plans r t).1.allowed :: answers plans (reserveQuestion plans r t).2 rs

/-- Of any `n + 1` reservations of the month, in a row, the first `n` succeed and the last is denied. -/
def Grants (plans : PlanCatalog) (key : MonthKey) (n : Nat) (t : Tables) : Prop :=
  ∀ rs : List ReservationRequest, (∀ r ∈ rs, r.periodKey = key) → rs.length = n + 1 →
    answers plans t rs = List.replicate n true ++ [false]

/-- What is left of the month once it is settled. -/
def left (plans : PlanCatalog) (key : MonthKey) (t : Tables) : Int :=
  max 0 (loadMonthlyIncluded plans t + settledExtras plans key t) - t.usedTotal key

section
variable {plans : PlanCatalog} {key : MonthKey} {t : Tables} {r : ReservationRequest}

theorem allowed_iff_left (nonneg : 0 ≤ t.usedTotal key) (month : r.periodKey = key) :
    (reserveQuestion plans r t).1.allowed = true ↔ 0 < left plans key t := by
  have settlement := settled_always plans r.periodKey t r.dbNow
  have allowed := @reserveQuestion_allowed_iff plans r t
  dsimp only at allowed
  rw [settlement.loadMonthlyIncluded, settlement.usedTotal, settle_fst, month] at allowed
  rw [allowed]
  unfold left
  omega

theorem settledExtras_of_touched (touched : (t.total? key).isSome) : settledExtras plans key t = t.carryover := by
  obtain ⟨row, hrow⟩ := Option.isSome_iff_exists.mp touched
  rw [settledExtras, hrow, Option.elim_some]

theorem record_touched (touched : (t.total? r.periodKey).isSome) : ((r.record t).total? r.periodKey).isSome := by
  rw [Tables.total?_isSome_iff, record_totalKeys, ← Tables.total?_isSome_iff]
  exact touched

/-- A reservation takes one. -/
theorem reserve_left (month : r.periodKey = key) (allowed : (reserveQuestion plans r t).1.allowed = true) :
    (reserveQuestion plans r t).2.usedTotal key = t.usedTotal key + 1 ∧
      left plans key (reserveQuestion plans r t).2 = left plans key t - 1 := by
  subst month
  have settlement := settled_always plans r.periodKey t r.dbNow
  have extras := settlement.carryover
  have included := settlement.loadMonthlyIncluded
  have used := settlement.usedTotal r.periodKey
  have touched := settlement.total?_isSome
  rw [settle_fst] at extras
  rw [reserveQuestion_of_allowed allowed]
  generalize (settleAddonCarryover plans r.dbNow r.periodKey t).2 = s at extras included used touched
  have counted : (r.record s).usedTotal r.periodKey = t.usedTotal r.periodKey + 1 := by
    rw [usedTotal_record touched, used, Tables.unit, if_pos rfl]
  have touched' := record_touched touched
  refine ⟨counted, ?_⟩
  unfold left
  rw [counted, settledExtras_of_touched touched', record_carryover, extras, loadMonthlyIncluded, record_planCode]
  unfold loadMonthlyIncluded at included ⊢
  rw [included]
  omega

/-- As many reservations succeed as are left. -/
theorem answers_eq (nonneg : 0 ≤ t.usedTotal key) (rs : List ReservationRequest) (month : ∀ r ∈ rs, r.periodKey = key) :
    answers plans t rs = List.replicate (min (left plans key t).toNat rs.length) true ++
      List.replicate (rs.length - (left plans key t).toNat) false := by
  induction rs generalizing t with
  | nil => simp [answers]
  | cons r rs ih =>
    have now := month r List.mem_cons_self
    have rest : ∀ r ∈ rs, r.periodKey = key := fun r mem => month r (List.mem_cons_of_mem _ mem)
    rw [answers]
    cases allowed : (reserveQuestion plans r t).1.allowed with
    | true =>
      have positive := (allowed_iff_left nonneg now).mp allowed
      obtain ⟨used, fewer⟩ := reserve_left now allowed
      have nonneg' : 0 ≤ (reserveQuestion plans r t).2.usedTotal key := by omega
      obtain ⟨m, hm⟩ : ∃ m, (left plans key t).toNat = m + 1 := ⟨(left plans key t).toNat - 1, by omega⟩
      have toNat : (left plans key (reserveQuestion plans r t).2).toNat = m := by omega
      rw [ih nonneg' rest, toNat, hm, List.length_cons, Nat.add_min_add_right, List.replicate_succ, Nat.add_sub_add_right]
      rfl
    | false =>
      have none : (left plans key t).toNat = 0 := by
        have := (allowed_iff_left nonneg now).not.mp (by rw [allowed]; exact Bool.false_ne_true)
        omega
      rw [reserveQuestion_of_denied allowed, ih nonneg rest, none]
      simp [List.replicate_succ]

theorem grants_iff (nonneg : 0 ≤ t.usedTotal key) (n : Nat) :
    Grants plans key n t ↔ (left plans key t).toNat = n := by
  constructor
  · intro h
    have run := h (List.replicate (n + 1) { userId := 0, periodKey := key })
      (fun r mem => by rw [List.eq_of_mem_replicate mem]) List.length_replicate
    rw [answers_eq nonneg _ fun r mem => by rw [List.eq_of_mem_replicate mem]] at run
    have counts := congrArg (List.count true) run
    simp [List.count_replicate] at counts
    omega
  · intro h rs month length
    rw [answers_eq nonneg rs month, h, length]
    simp

end

/-! ### The state after the setting -/

section
variable {env : Env} {systemNow : Int} {ctx : TenantContext} {n : Nat} {t : Tables}

theorem ensureSubscription_counters (env : Env) (ctx : TenantContext) (a : Account) :
    (ensureSubscription env ctx a).2.questionTotals = a.questionTotals ∧
      (ensureSubscription env ctx a).2.questionUsage = a.questionUsage := by
  unfold ensureSubscription
  split
  · exact ⟨rfl, rfl⟩
  · exact ⟨rfl, rfl⟩

/-- The setting writes a carryover to the subscription, and leaves the counters alone. -/
theorem setQuota_writes (env : Env) (systemNow : Int) (ctx : TenantContext) (n : Nat) (t : Tables) :
    ∃ row, (setQuota env systemNow ctx n t).account.subscription = some row ∧
      row.planCode = (ensureSubscription env ctx t.account).1.planCode ∧
      row.carryoverAddonQuestions = t.account.questionsUsedInPeriod (currentMonthPeriod systemNow).key + n -
        (env.plans.getOrFree (ensureSubscription env ctx t.account).1.planCode).includedQuestionsMonthly ∧
      (setQuota env systemNow ctx n t).account.questionTotals = t.account.questionTotals := by
  obtain ⟨totals, usage⟩ := ensureSubscription_counters env ctx t.account
  have used : ∀ key, (ensureSubscription env ctx t.account).2.questionsUsedInPeriod key = t.account.questionsUsedInPeriod key := by
    intro key
    simp only [Account.questionsUsedInPeriod, totals, usage]
  unfold setQuota setDebugSmsQuota
  rw [if_neg (by omega : ¬(n : Int) < 0)]
  rw [after_modifyGet_bind, after_bind_of_ok (EStateM.run_get _), after_modifyGet_bind,
    after_bind_of_ok (EStateM.run_modify _ _)]
  refine ⟨(Account.upsertSubscription env.utcnow _ (ensureSubscription env ctx t.account).2).1, rfl, ?_, ?_, totals⟩
  · rw [Account.upsertSubscription_data]
  · rw [Account.upsertSubscription_data, ← used]

/-- The allowance and the extra questions in force after the setting. -/
theorem left_setQuota (named : env.plans.find? "" = none) (unbilled : t.account.questionsUsedInPeriod (currentMonthPeriod systemNow).key =
      t.usedTotal (currentMonthPeriod systemNow).key) :
    let key := (currentMonthPeriod systemNow).key
    let included := (env.plans.getOrFree (ensureSubscription env ctx t.account).1.planCode).includedQuestionsMonthly
    let carryover := t.usedTotal key + n - included
    left env.plans key (setQuota env systemNow ctx n t) = max 0 (max 0 included +
      if (t.total? key).isSome then carryover
      else (t.previousTotal key).elim carryover (remainingExtras carryover (max 0 included))) - t.usedTotal key := by
  intro key included carryover
  obtain ⟨row, subscription, plan, extras, totals⟩ := setQuota_writes env systemNow ctx n t
  rw [unbilled] at extras
  generalize setQuota env systemNow ctx n t = s at subscription totals
  have carried : s.carryover = carryover := by
    rw [Tables.carryover, subscription]
    exact extras
  have allowance : loadMonthlyIncluded env.plans s = max 0 included := by
    rw [loadMonthlyIncluded, planCode_of_some subscription, monthlyIncludedForPlan, getOrFree_orText named, plan]
  have total : s.total? key = t.total? key := by
    rw [Tables.total?, totals]
    rfl
  have previous : s.previousTotal key = t.previousTotal key := by
    rw [Tables.previousTotal, totals]
    rfl
  have used : s.usedTotal key = t.usedTotal key := by
    rw [Tables.usedTotal, total]
    rfl
  unfold left settledExtras settledCarryover
  rw [allowance, used, total, previous, carried]
  cases t.total? key with
  | none => rfl
  | some row => rfl

end

/-! ### The condition -/

/-- The month is touched, or there is none before it, and the allowance is not negative. Or the month before leaves the
    extra questions alone: the quota is the allowance itself, or more, and that month did not exceed it. A negative
    allowance, which counts as none for a reservation, is met by as many questions owed. -/
def SolvedFor (included : Int) (key : MonthKey) (n : Nat) (t : Tables) : Prop :=
  if (t.total? key).isSome ∨ t.previousTotal key = none then 0 ≤ included
  else ∀ previous ∈ t.previousTotal key,
    if 0 ≤ included then n = included ∨ included < n ∧ previous.2 ≤ included
    else previous.2 = -included ∨ n = 0 ∧ -included ≤ previous.2

def Solved (env : Env) (ctx : TenantContext) (key : MonthKey) (n : Nat) (t : Tables) : Prop :=
  SolvedFor (env.plans.getOrFree (ensureSubscription env ctx t.account).1.planCode).includedQuestionsMonthly key n t

instance (included : Int) (key : MonthKey) (n : Nat) (t : Tables) : Decidable (SolvedFor included key n t) :=
  inferInstanceAs (Decidable (if (t.total? key).isSome ∨ t.previousTotal key = none then 0 ≤ included
    else ∀ previous ∈ t.previousTotal key,
      if 0 ≤ included then n = included ∨ included < n ∧ previous.2 ≤ included
      else previous.2 = -included ∨ n = 0 ∧ -included ≤ previous.2))

instance (env : Env) (ctx : TenantContext) (key : MonthKey) (n : Nat) (t : Tables) : Decidable (Solved env ctx key n t) :=
  inferInstanceAs (Decidable (SolvedFor _ key n t))

/-! ### Reachable states -/

/-- A tenant that has not asked anything, with a subscription or without. -/
structure Unasked (t : Tables) : Prop where
  totals : t.account.questionTotals = []
  unbilled : t.account.questionUsage = []
  usage : t.usage = []
  events : t.events = []

structure Reached (t : Tables) : Prop where
  balanced : Balanced t
  unbilled : t.account.questionUsage = []

theorem Reached.step {plans : PlanCatalog} {t : Tables} (h : Reached t) (op : Readers.Op) : Reached (Readers.step plans t op) := by
  cases op with
  | reserve r =>
    have settlement := settled_always plans r.periodKey t r.dbNow
    change Reached (reserveQuestion plans r t).2
    cases allowed : (reserveQuestion plans r t).1.allowed with
    | false =>
      rw [reserveQuestion_of_denied allowed]
      exact h
    | true =>
      rw [reserveQuestion_of_allowed allowed]
      exact ⟨(h.balanced.settled settlement).record settlement.total?_isSome,
        (record_questionUsage r).trans (settle_questionUsage.trans h.unbilled)⟩
  | list dbNow key =>
    exact ⟨h.balanced.settled (settled_always plans key t dbNow), settle_questionUsage.trans h.unbilled⟩
  | subscribe row => exact ⟨⟨h.balanced.totalKeys, h.balanced.userKeys, h.balanced.users, h.balanced.events⟩, h.unbilled⟩
  | reset row => exact ⟨Balanced.empty rfl rfl rfl, rfl⟩

theorem reached {plans : PlanCatalog} {start : Tables} (h : Unasked start) (ops : List Readers.Op) :
    Reached (final (Readers.step plans) start ops) :=
  final_kept Reached ⟨Balanced.empty h.totals h.usage h.events, h.unbilled⟩ fun _ op h => h.step op

/-! ### Every reachable state -/

/-- After the setting, exactly as many reservations of the month succeed as were set just when it has solved for the
    carryover that is in force. -/
theorem debug_quota_iff (env : Env) (systemNow : Int) (ctx : TenantContext) (n : Nat) (start : Tables) (ops : List Readers.Op)
    (unasked : Unasked start) (named : env.plans.find? "" = none) :
    Grants env.plans (currentMonthPeriod systemNow).key n
        (setQuota env systemNow ctx n (final (Readers.step env.plans) start ops)) ↔
      Solved env ctx (currentMonthPeriod systemNow).key n (final (Readers.step env.plans) start ops) := by
  have h := @reached env.plans start unasked ops
  generalize final (Readers.step env.plans) start ops = t at h
  have nonneg := h.balanced.used_nonneg (currentMonthPeriod systemNow).key
  have counted := questionsUsedInPeriod_eq h.unbilled nonneg
  have same : (setQuota env systemNow ctx n t).usedTotal (currentMonthPeriod systemNow).key =
      t.usedTotal (currentMonthPeriod systemNow).key := by
    obtain ⟨_, -, -, -, totals⟩ := setQuota_writes env systemNow ctx n t
    rw [Tables.usedTotal, Tables.total?, totals]
    rfl
  have after := @left_setQuota env systemNow ctx n t named counted
  dsimp only at after
  rw [grants_iff (by rw [same]; exact nonneg), after]
  generalize (currentMonthPeriod systemNow).key = key at nonneg
  unfold Solved SolvedFor
  generalize (env.plans.getOrFree (ensureSubscription env ctx t.account).1.planCode).includedQuestionsMonthly = included
  cases touched : (t.total? key).isSome with
  | true =>
    simp only [true_or, if_true]
    omega
  | false =>
    have unused := usedTotal_of_untouched (Option.isSome_eq_false_iff.mp touched |> Option.isNone_iff_eq_none.mp)
    simp only [Bool.false_eq_true, if_false, false_or]
    cases t.previousTotal key with
    | none =>
      simp only [Option.elim_none, if_true]
      omega
    | some previous =>
      simp only [Option.elim_some, remainingExtras, reduceCtorEq, if_false, Option.mem_def, Option.some.injEq, forall_eq']
      split
      · omega
      · omega

/-! ### A new month -/

def acmeContext : TenantContext := { slug := "acme", createdAt := none, isActive := none }

/-- Three questions of October are in the allowance. -/
theorem debug_quota_after_allowance :
    Grants november.plans (currentMonthPeriod november.now).key 10 (setQuota november november.now acmeContext 10
      (final (Readers.step november.plans) free (asks 3))) :=
  (debug_quota_iff november november.now acmeContext 10 free (asks 3) ⟨rfl, rfl, rfl, rfl⟩ rfl).mpr (by decide)

/-- With four, the first reservation of November takes the fourth from the extra questions that were just set. -/
theorem debug_quota_short :
    ¬Grants november.plans (currentMonthPeriod november.now).key 10 (setQuota november november.now acmeContext 10
      (final (Readers.step november.plans) free (asks 4))) := by
  intro h
  have run := h (List.replicate 11 { userId := 1, periodKey := ⟨2024, 11⟩ }) (by decide) (by decide)
  exact absurd run (by decide)

end DebugQuota

end NyzRating.Traffic
