import NyzRating.Billing.PlanChange
import NyzRating.Billing.RestrictionStable
import NyzRating.Lib.WriteBack
import NyzRating.Traffic.QuestionUsage
import Mathlib.Data.List.Permutation

/-!
# Concurrent writes of the subscription row

Purchases, status synchronisations, plan changes and warnings read the row of the subscription, compute all its columns
and write back those that differ from the row as it is loaded for the write. The settlement of a month locks the row
and updates one column.
-/

namespace NyzRating.Billing.LostUpdate

open WriteBack Runs Calendar Program

/-! ### The calls -/

def questionWarningLevels : List Int := [90, 100]

/-- `_send_question_warning_if_needed`. `percent` is the rounded percentage that one count is of another. -/
def questionWarning (env : Env) (percent : Int → Int → Int) (sub : Subscription) (a : Account) : Option SubscriptionData :=
  let usage := questionUsageSummary env sub a
  let percentUsed := max 0 (min 100 (percent usage.usedTotal usage.availableTotal))
  let currentLevel := if sub.questionWarningPeriodKey = some usage.periodKey then sub.questionWarningLevel else 0
  let targetLevel := questionWarningLevels.foldl (fun target level => if percentUsed ≥ level then level else target) 0
  if usage.availableTotal ≤ 0 ∨ targetLevel ≤ currentLevel ∨ a.resources.ownerEmail.isNone then none
  else some { sub.toSubscriptionData with
    questionWarningPeriodKey := some usage.periodKey
    questionWarningLevel := targetLevel }

inductive Op where
  | purchaseAddon (env : Env) (ctx : TenantContext) (addonCode : String) (quantity : Int)
  | syncStatus (env : Env)
  | planChange (env : Env) (plan : BillingPlan) (period : BillingPeriod) (paidUntil : Option Int)
  | warning (env : Env) (percent : Int → Int → Int)
  | settlement (plans : PlanCatalog) (dbNow : Int) (month : MonthKey)

/-- The row with these columns, written over `sub`. -/
def stamped (env : Env) (sub : Subscription) (data : SubscriptionData) : Subscription :=
  { data with createdAt := sub.createdAt, updatedAt := env.utcnow }

/-- A call, and the rows of the other tables as it reads them. -/
abbrev Call := Op × Account

/-- What a call writes back when it has read the row `sub`. -/
def compute : Call → Subscription → Option Subscription
  | (.purchaseAddon env _ addonCode quantity, _), sub =>
    (purchasedAddon env addonCode quantity).map fun addon => stamped env sub (addonSubscription env sub addon (max 1 quantity))
  | (.syncStatus env, a), sub =>
    if nextStatus env sub a = sub.status then none
    else some (stamped env sub { sub.toSubscriptionData with status := nextStatus env sub a })
  | (.planChange env plan period paidUntil, a), sub => some (stamped env sub (immediatePlanData env sub plan period paidUntil a))
  | (.warning env percent, a), sub => (questionWarning env percent sub a).map (stamped env sub)
  | (.settlement .., _), _ => none

/-- The settlement holds the lock of the row from its first statement on. -/
def update : Call → Option (Subscription → Subscription)
  | (.settlement plans dbNow month, a) => some fun sub =>
    ((Traffic.settleAddonCarryover plans dbNow month
      { account := { a with subscription := some sub } }).2.account.subscription).getD sub
  | _ => none

/-- A column is written when its value is not the one loaded. -/
def column {α : Type} [DecidableEq α] (loaded computed current : α) : α := if computed = loaded then current else computed

/-- The update that `upsert_subscription` sends for the attributes it has set. -/
def flush (loaded computed current : Subscription) : Subscription where
  planCode := column loaded.planCode computed.planCode current.planCode
  billingPeriod := column loaded.billingPeriod computed.billingPeriod current.billingPeriod
  status := column loaded.status computed.status current.status
  trialStartedAt := column loaded.trialStartedAt computed.trialStartedAt current.trialStartedAt
  trialEndsAt := column loaded.trialEndsAt computed.trialEndsAt current.trialEndsAt
  extraKbCount := column loaded.extraKbCount computed.extraKbCount current.extraKbCount
  extraStorageGb := column loaded.extraStorageGb computed.extraStorageGb current.extraStorageGb
  carryoverAddonQuestions :=
    column loaded.carryoverAddonQuestions computed.carryoverAddonQuestions current.carryoverAddonQuestions
  carryoverTrainingChars :=
    column loaded.carryoverTrainingChars computed.carryoverTrainingChars current.carryoverTrainingChars
  scheduledPlanCode := column loaded.scheduledPlanCode computed.scheduledPlanCode current.scheduledPlanCode
  scheduledBillingPeriod :=
    column loaded.scheduledBillingPeriod computed.scheduledBillingPeriod current.scheduledBillingPeriod
  scheduledChangeEffectivePeriod := column loaded.scheduledChangeEffectivePeriod computed.scheduledChangeEffectivePeriod
    current.scheduledChangeEffectivePeriod
  questionWarningPeriodKey :=
    column loaded.questionWarningPeriodKey computed.questionWarningPeriodKey current.questionWarningPeriodKey
  questionWarningLevel := column loaded.questionWarningLevel computed.questionWarningLevel current.questionWarningLevel
  createdAt := current.createdAt
  updatedAt := column loaded.updatedAt computed.updatedAt current.updatedAt

theorem column_loaded {α : Type} [DecidableEq α] (loaded computed : α) : column loaded computed loaded = computed := by
  unfold column
  split
  · next same => exact same.symm
  · rfl

theorem flush_loaded {loaded computed : Subscription} (created : computed.createdAt = loaded.createdAt) :
    flush loaded computed loaded = computed := by
  unfold flush
  simp only [column_loaded, ← created]

theorem compute_createdAt {c : Call} {sub computed : Subscription} (h : compute c sub = some computed) :
    computed.createdAt = sub.createdAt := by
  obtain ⟨op, a⟩ := c
  cases op with
  | purchaseAddon env ctx addonCode quantity =>
    obtain ⟨addon, -, rfl⟩ := Option.map_eq_some_iff.mp h
    rfl
  | syncStatus env =>
    simp only [compute] at h
    split at h
    · cases h
    · cases h
      rfl
  | planChange env plan period paidUntil =>
    cases h
    rfl
  | warning env percent =>
    obtain ⟨data, -, rfl⟩ := Option.map_eq_some_iff.mp h
    rfl
  | settlement plans dbNow month => cases h

/-- The calls on the row of one subscription. -/
def calls : Calls Subscription Call where
  update := update
  compute := compute
  flush := flush
  flush_loaded _ _ _ h := flush_loaded (compute_createdAt h)

/-! ### A call alone -/

/-- The whole call, uninterrupted. -/
def whole (a : Account) : Op → Account
  | .purchaseAddon env ctx addonCode quantity => after (Billing.purchaseAddon env ctx addonCode quantity) a
  | .syncStatus env => a.subscription.elim a fun sub => (Billing.syncStatus env sub a).2
  | .planChange env plan period paidUntil =>
    a.subscription.elim a fun sub => (applyImmediatePlanChange env sub plan period paidUntil a).2
  | .warning env percent =>
    (a.subscription.bind fun sub => questionWarning env percent sub a).elim a fun data => (a.upsertSubscription env.utcnow data).2
  | .settlement plans dbNow month => (Traffic.settleAddonCarryover plans dbNow month { account := a }).2.account

theorem upsertSubscription_of_some {a : Account} {sub : Subscription} (hs : a.subscription = some sub) (env : Env)
    (data : SubscriptionData) : (a.upsertSubscription env.utcnow data).2.subscription = some (stamped env sub data) := by
  unfold Account.upsertSubscription
  rw [hs]
  rfl

/-- Uninterrupted, a call leaves the row that its effect gives. -/
theorem whole_subscription {a : Account} {sub : Subscription} (hs : a.subscription = some sub) (op : Op) :
    (whole a op).subscription = some (calls.effect (op, a) sub) := by
  cases op with
  | purchaseAddon env ctx addonCode quantity =>
    change _ = some (((purchasedAddon env addonCode quantity).map _).getD sub)
    obtain ⟨refused, same⟩ | ⟨addon, invoices, nextInvoiceId, bought, run⟩ := purchaseAddon_cases env ctx addonCode quantity a
    · rw [whole, same, refused, hs]
      rfl
    · rw [whole, run, ensureSubscription_of_some hs, bought]
      exact upsertSubscription_of_some hs env _
  | syncStatus env =>
    have synced : (whole a (.syncStatus env)) = (Billing.syncStatus env sub a).2 := by rw [whole, hs, Option.elim_some]
    rw [synced, Restriction.syncStatus_eq]
    change _ = some ((if nextStatus env sub a = sub.status then none else some _).getD sub)
    split
    · exact (Restriction.settled_subscription env sub a).trans hs
    · exact upsertSubscription_of_some ((Restriction.settled_subscription env sub a).trans hs) env _
  | planChange env plan period paidUntil =>
    rw [whole, hs, Option.elim_some]
    exact upsertSubscription_of_some hs env _
  | warning env percent =>
    rw [whole, hs, Option.bind_some]
    change _ = some (((questionWarning env percent sub a).map _).getD sub)
    cases questionWarning env percent sub a with
    | none => exact hs
    | some data => exact upsertSubscription_of_some hs env data
  | settlement plans dbNow month =>
    have same : { a with subscription := some sub } = a := by rw [← hs]
    change _ = some (((Traffic.settleAddonCarryover plans dbNow month
      { account := { a with subscription := some sub } }).2.account.subscription).getD sub)
    rw [same]
    have present : ({ account := a } : Traffic.Tables).account.subscription.isSome = true := by rw [hs]; rfl
    have kept := (Traffic.settled plans dbNow month present).present.trans present
    obtain ⟨settled, hsettled⟩ := Option.isSome_iff_exists.mp kept
    rw [whole, hsettled, Option.getD_some]

/-! ### Runs -/

def acme : Account := Account.created "acme" "Acme" (midnight 20000)

def acmeContext : TenantContext := { slug := "acme", createdAt := none, isActive := none }

/-- Call 0 buys 50 questions, call 1 restricts the subscription, call 2 settles a month. -/
def input : Nat → Call
  | 0 => (.purchaseAddon (Env.seeded (midnight 20008)) acmeContext "question_pack_50" 1, acme)
  | 1 => (.syncStatus (Env.seeded (midnight 20008)), acme)
  | _ => (.settlement defaultPlans 0 ⟨2024, 11⟩, { acme with questionTotals := [(⟨2024, 10⟩, 13)] })

end NyzRating.Billing.LostUpdate
