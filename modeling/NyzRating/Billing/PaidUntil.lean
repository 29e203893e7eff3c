import NyzRating.Billing.Effects
import NyzRating.Billing.FreeUpgrade
import NyzRating.Billing.RowRules

/-!
# The date until which a subscription is paid

Due dates, coverage and proration are read off `trial_ends_at`. A signup for a plan without trial days leaves it empty,
and so does a change between paid plans that `update_subscription` applies at once. The other operations set it or keep
it, and only a change of plan moves it back.
-/

namespace NyzRating.Billing.PaidUntil

open Calendar Program Runs

/-! ### Operations -/

/-- The calls on one tenant. -/
inductive Call where
  | signup (env : Env) (planCode billingPeriod : String)
  | ensure (env : Env) (ctx : TenantContext)
  | update (env : Env) (ctx : TenantContext) (planCode billingPeriod : String)
  | completeUpgrade (env : Env) (ctx : TenantContext) (planCode billingPeriod : String)
  | applyDue (env : Env)
  | completeBilling (env : Env) (ctx : TenantContext) (outcome : String) (force forceNewInvoice : Bool)
  | settle (env : Env) (ctx : TenantContext)
  | retry (env : Env) (ctx : TenantContext)
  | dueCycles (env : Env)

def Call.run (a : Account) : Call → Option Account
  | .signup env planCode billingPeriod => some (setSignupSubscription env planCode billingPeriod a)
  | .ensure env ctx => some (ensureSubscription env ctx a).2
  | .update env ctx planCode billingPeriod => some (after (updateSubscription env ctx planCode billingPeriod) a)
  | .completeUpgrade env ctx planCode billingPeriod =>
    some (after (completeUpgradeAfterCheckout env ctx planCode billingPeriod) a)
  | .applyDue env => some (a.subscription.elim a fun sub => (applyDueScheduledPlanChange env sub a).2)
  | .completeBilling env ctx outcome force forceNewInvoice =>
    some (after (completeSubscriptionBilling env ctx none outcome force forceNewInvoice) a)
  | .settle env ctx => some (after (settleSubscription env ctx) a)
  | .retry env ctx => some (after (retryFailedPayment env ctx) a)
  | .dueCycles env => processDueCycles env a

inductive Op where
  | call (id : Nat) (call : Call)
  | pay (d : Delivery)

def step (s : PaymentState) : Op → PaymentState
  | .call id call =>
    match s.accounts id with
    | none => s
    | some a => { s with accounts := Function.update s.accounts id (call.run a) }
  | .pay d => deliver s d

/-- The subscription of the tenant says until when it is paid. -/
def Dated (s : PaymentState) (id : Nat) : Prop := ∀ a ∈ s.accounts id, ∀ row ∈ a.subscription, row.trialEndsAt.isSome = true

/-- The tenant signs up for a plan without trial days. -/
def Op.Untried (id : Nat) : Op → Prop
  | .call k (.signup env planCode _) => k = id ∧ (env.plans.getOrFree planCode).trialDays = 0
  | _ => False

def OtherPlan (sub row : Subscription) : Prop := (row.planCode, row.billingPeriod) ≠ (sub.planCode, sub.billingPeriod)

/-- The operation is a change of plan from `sub` to `row`. -/
def Op.ChangesPlan (sub row : Subscription) : Op → Prop
  | .call _ (.signup ..) => True
  | .call _ (.update ..) => OtherPlan sub row
  | .call _ (.completeUpgrade ..) => OtherPlan sub row
  | .call .. => False
  | .pay _ => OtherPlan sub row

/-- But for a signup without trial days, a date that is set stays set, and only a change of plan moves it back. -/
def Forward (s : PaymentState) (op : Op) : Prop :=
  ∀ id a sub b, s.accounts id = some a → a.subscription = some sub → (step s op).accounts id = some b → ¬op.Untried id →
    ∀ t ∈ sub.trialEndsAt, ∃ row ∈ b.subscription, ∃ t' ∈ row.trialEndsAt, t ≤ t' ∨ op.ChangesPlan sub row

/-- `update_subscription` applies no change between two paid plans at once. -/
def Condition (s : PaymentState) : Op → Prop
  | .call id (.update env _ planCode billingPeriod) =>
    ∀ a ∈ s.accounts id, ∀ sub ∈ a.subscription, sub.planCode ≠ "free" →
      ∀ plan ∈ env.plans.find? (Text.stripLower planCode), plan.code ≠ "free" →
        isScheduledChange sub.toSubscriptionData plan.code (normalizeBillingPeriod billingPeriod) env.plans = true
  | _ => True

/-! ### What one operation makes of the row -/

/-- The row that an operation goes out from: the stored one, or a new trial. -/
def Loaded (a : Account) (sub : Subscription) : Prop :=
  a.subscription = some sub ∨ a.subscription = none ∧ sub.planCode = "free" ∧ sub.trialEndsAt.isSome = true

/-- A date of `sub` has one in `row` that is not before it, unless this is an allowed change. -/
def Carried (changes : Prop) (sub row : Subscription) : Prop := ∀ t ∈ sub.trialEndsAt, ∃ t' ∈ row.trialEndsAt, t ≤ t' ∨ changes

/-- The row carries the date of the one loaded from `a`. -/
def FromLoaded (changes : Subscription → Subscription → Prop) (a : Account) (row : Subscription) : Prop :=
  ∃ sub, Loaded a sub ∧ Carried (changes sub row) sub row

/-- The account keeps its row, or has one that carries the date of the row loaded. -/
def Left (changes : Subscription → Subscription → Prop) (a b : Account) : Prop :=
  b.subscription = a.subscription ∨ Holds (FromLoaded changes a) b

section
variable {env : Env} {ctx : TenantContext} {a b : Account} {sub row : Subscription} {changes : Subscription → Subscription → Prop}

theorem loaded_ensure (env : Env) (ctx : TenantContext) (a : Account) : Loaded a (ensureSubscription env ctx a).1 := by
  unfold ensureSubscription
  split
  · next sub stored => exact .inl stored
  · next none =>
    exact .inr ⟨none, congrArg (·.planCode) (Account.upsertSubscription_data ..),
      congrArg (fun data : SubscriptionData => data.trialEndsAt.isSome) (Account.upsertSubscription_data ..)⟩

theorem Carried.of_same {p : Prop} (same : row.trialEndsAt = sub.trialEndsAt) : Carried p sub row :=
  fun t ends => ⟨t, same ▸ ends, .inl le_rfl⟩

theorem FromLoaded.of_same {next : Subscription} (loaded : Loaded a sub) (same : next.trialEndsAt = sub.trialEndsAt) :
    FromLoaded changes a next := ⟨sub, loaded, .of_same same⟩

theorem le_midnight {t d : Int} (before : dateOf t < d) : t ≤ midnight d := by
  by_contra later
  have same := midnight_le_iff.mp (le_of_lt (not_le.mp later))
  omega

/-- The next billing date comes after the date until which the row is paid. -/
theorem fromLoaded_rule (a : Account) : RowRule True (FromLoaded (fun _ _ => False) a) where
  status _ _ _ h := h
  paid := by
    rintro row next day period gb - ⟨sub, loaded, carried⟩ until' data
    refine ⟨sub, loaded, fun t ends => ?_⟩
    obtain ⟨t', ends', le | never⟩ := carried t ends
    · refine ⟨midnight (nextBillingDateAfter day period), by rw [data]; rfl, .inl ?_⟩
      have later : dateOf t' < nextBillingDateAfter day period := by
        rw [until' t' ends']
        refine lt_addMonthsToDate day ?_
        cases period <;> decide
      exact le.trans (le_midnight later)
    · exact never.elim

theorem fromLoaded_ensure (env : Env) (ctx : TenantContext) (a : Account) :
    FromLoaded changes a (ensureSubscription env ctx a).1 := .of_same (loaded_ensure env ctx a) rfl

theorem fromLoaded_renewed (env : Env) (ctx : TenantContext) (a : Account) :
    FromLoaded changes a (renewed env (ensureSubscription env ctx a).1) :=
  .of_same (loaded_ensure env ctx a) (renewed_trialEndsAt env _)

/-! ### Changes of plan -/

/-- A change of plan keeps the date, or sets one for another plan or period. -/
def Moved (sub row : Subscription) : Prop :=
  row.trialEndsAt = sub.trialEndsAt ∨ row.trialEndsAt.isSome = true ∧ OtherPlan sub row

theorem Moved.carried (h : Moved sub row) : Carried (OtherPlan sub row) sub row := by
  rcases h with same | ⟨set, other⟩
  · exact .of_same same
  · intro t _
    obtain ⟨t', ends⟩ := Option.isSome_iff_exists.mp set
    exact ⟨t', ends, .inr other⟩

theorem moved_immediate {plan : BillingPlan} {period : BillingPeriod} {paidUntil : Option Int} {next : Subscription}
    (data : next.toSubscriptionData = immediatePlanData env sub plan period paidUntil b)
    (other : plan.code ≠ "free" → paidUntil.isSome = true ∧ (plan.code, period) ≠ (sub.planCode, sub.billingPeriod)) :
    Moved sub next := by
  have ends : next.trialEndsAt = if plan.code = "free" then sub.trialEndsAt else paidUntil := by
    rw [data]
    simp only [immediatePlanData, decide_eq_true_eq]
  have held : (next.planCode, next.billingPeriod) = (plan.code, period) := by
    rw [data]
    rfl
  by_cases free : plan.code = "free"
  · exact .inl (by rw [ends, if_pos free])
  · obtain ⟨set, different⟩ := other free
    rw [if_neg free] at ends
    refine .inr ⟨ends ▸ set, ?_⟩
    rw [OtherPlan, held]
    exact different

theorem update_left (env : Env) (ctx : TenantContext) (planCode billingPeriod : String) (a : Account)
    (condition : ∀ sub ∈ a.subscription, sub.planCode ≠ "free" →
      ∀ plan ∈ env.plans.find? (Text.stripLower planCode), plan.code ≠ "free" →
        isScheduledChange sub.toSubscriptionData plan.code (normalizeBillingPeriod billingPeriod) env.plans = true) :
    Left OtherPlan a (after (updateSubscription env ctx planCode billingPeriod) a) := by
  have form := updateSubscription_updated env ctx planCode billingPeriod a
  have loaded := loaded_ensure env ctx a
  have stored := ensureSubscription_subscription env ctx a
  generalize after (updateSubscription env ctx planCode billingPeriod) a = c at form ⊢
  generalize ensureSubscription env ctx a = ensured at form loaded stored
  obtain ⟨sub, b⟩ := ensured
  have moved : ∀ row, c.subscription = some row → Moved sub row → Left OtherPlan a c :=
    fun row held moved => .inr ⟨row, held, sub, loaded, moved.carried⟩
  have first : ∀ plan, env.plans.find? (Text.stripLower planCode) = some plan →
      isScheduledChange sub.toSubscriptionData plan.code (normalizeBillingPeriod billingPeriod) env.plans = false →
      plan.code ≠ "free" → (firstPaidUntil env sub plan (normalizeBillingPeriod billingPeriod)).isSome = true ∧
        (plan.code, normalizeBillingPeriod billingPeriod) ≠ (sub.planCode, sub.billingPeriod) := by
    intro plan found now paid
    have free : sub.planCode = "free" := by
      by_contra other
      rcases loaded with held | ⟨-, free, -⟩
      · have scheduled := condition sub held other plan found paid
        exact Bool.false_ne_true (now.symm.trans scheduled)
      · exact other free
    refine ⟨by rw [firstPaidUntil, if_pos ⟨free, paid⟩]; rfl, fun same => paid ?_⟩
    exact (congrArg Prod.fst same).trans free
  cases form with
  | unknown => exact .inl rfl
  | scheduled => exact moved _ rfl (.inl (congrArg (·.trialEndsAt) (Account.upsertSubscription_data ..)))
  | refused => exact moved sub stored (.inl rfl)
  | applied found now => exact moved _ rfl (moved_immediate (Account.upsertSubscription_data ..) (first _ found now))
  | charged found now => exact moved _ rfl (moved_immediate (Account.upsertSubscription_data ..) (first _ found now))

theorem proration_other {plan : String} {period : BillingPeriod} {p : UpgradeProration}
    (priced : upgradeProration env sub plan period = some p) : (plan, period) ≠ (sub.planCode, sub.billingPeriod) := by
  rintro ⟨rfl, rfl⟩
  unfold upgradeProration computeUpgradeProration at priced
  obtain ⟨next, -, priced⟩ := Option.bind_eq_some_iff.mp priced
  obtain ⟨⟨⟩, -, priced⟩ := Option.bind_eq_some_iff.mp priced
  obtain ⟨⟨⟩, guarded, -⟩ := Option.bind_eq_some_iff.mp priced
  simp at guarded

theorem completeUpgrade_left (env : Env) (ctx : TenantContext) (planCode billingPeriod : String) (a : Account) :
    Left OtherPlan a (after (completeUpgradeAfterCheckout env ctx planCode billingPeriod) a) := by
  have form := completeUpgradeAfterCheckout_upgraded env ctx planCode billingPeriod a
  have loaded := loaded_ensure env ctx a
  have stored := ensureSubscription_subscription env ctx a
  generalize after (completeUpgradeAfterCheckout env ctx planCode billingPeriod) a = c at form ⊢
  generalize ensureSubscription env ctx a = ensured at form loaded stored
  obtain ⟨sub, b⟩ := ensured
  have moved : ∀ row, c.subscription = some row → Moved sub row → Left OtherPlan a c :=
    fun row held moved => .inr ⟨row, held, sub, loaded, moved.carried⟩
  cases form with
  | unchanged => exact moved sub stored (.inl rfl)
  | applied found paid priced =>
    exact moved _ rfl (moved_immediate (Account.upsertSubscription_data ..) fun _ => ⟨rfl, proration_other priced⟩)
  | charged found paid priced =>
    exact moved _ rfl (moved_immediate (Account.upsertSubscription_data ..) fun _ => ⟨rfl, proration_other priced⟩)

theorem delivered_left {d : Delivery} (form : Delivered d a b) : Left OtherPlan a b := by
  have loaded := loaded_ensure d.env a.snapshot a
  have stored := ensureSubscription_subscription d.env a.snapshot a
  have changed : ∀ p, d.preview a = some p → b.subscription = some (d.changed a p).1 → Left OtherPlan a b := by
    intro p priced held
    refine .inr ⟨_, held, _, loaded, Moved.carried (moved_immediate (Account.upsertSubscription_data ..) fun _ => ⟨rfl, ?_⟩)⟩
    rw [FreeUpgrade.upgradeProration_plan priced]
    exact proration_other priced
  cases form with
  | untouched => exact .inl rfl
  | ensured => exact .inr ⟨_, stored, _, loaded, .of_same rfl⟩
  | changed priced => exact changed _ priced rfl
  | synced priced => exact changed _ priced rfl
  | booked priced => exact changed _ priced rfl

/-! ### Runs -/

theorem signup_left (env : Env) {planCode : String} (billingPeriod : String) (a : Account)
    (tried : (env.plans.getOrFree planCode).trialDays ≠ 0) :
    Left (fun _ _ => True) a (setSignupSubscription env planCode billingPeriod a) := by
  refine .inr ⟨_, rfl, _, loaded_ensure env a.snapshot a, fun t _ => ?_⟩
  refine ⟨env.now + days (env.plans.getOrFree planCode).trialDays, ?_, .inr trivial⟩
  refine (congrArg (·.trialEndsAt) (Account.upsertSubscription_data ..)).trans ?_
  simp only
  rw [if_pos tried]

/-- What a call leaves of the row of its tenant, but for a signup without trial days. -/
theorem call_left {call : Call} {id : Nat} {s : PaymentState} (stored : s.accounts id = some a)
    (condition : Condition s (.call id call)) (tried : ¬(Op.call id call).Untried id) (run : call.run a = some b) :
    Left (fun sub row => (Op.call id call).ChangesPlan sub row) a b := by
  cases call with
  | signup env planCode billingPeriod =>
    cases run
    exact signup_left env billingPeriod a fun untried => tried ⟨rfl, untried⟩
  | ensure env ctx =>
    cases run
    exact .inr ⟨_, ensureSubscription_subscription env ctx a, fromLoaded_ensure env ctx a⟩
  | update env ctx planCode billingPeriod =>
    cases run
    exact update_left env ctx planCode billingPeriod a (condition a stored)
  | completeUpgrade env ctx planCode billingPeriod =>
    cases run
    exact completeUpgrade_left env ctx planCode billingPeriod a
  | applyDue env =>
    cases run
    cases held : a.subscription with
    | none => exact .inl rfl
    | some sub =>
      refine .inr ⟨renewed env sub, ?_, .of_same (.inl held) (renewed_trialEndsAt env sub)⟩
      rw [Option.elim_some, applyDueScheduledPlanChange_eq held]
  | completeBilling env ctx outcome force forceNewInvoice =>
    cases run
    exact .inr ((fromLoaded_rule a).completeBilling_ensured (fromLoaded_ensure env ctx a) (fromLoaded_renewed env ctx a)
      outcome force forceNewInvoice fun _ => trivial)
  | settle env ctx =>
    cases run
    exact .inr ((fromLoaded_rule a).settle (fromLoaded_ensure env ctx a) (fromLoaded_renewed env ctx a) fun _ => trivial)
  | retry env ctx =>
    cases run
    rcases (fromLoaded_rule a).retry (fromLoaded_ensure env ctx a) (fun _ => trivial) with same | holds
    · exact .inl (congrArg (·.subscription) same)
    · exact .inr holds
  | dueCycles env =>
    refine (fromLoaded_rule a).dueCycles trivial (fun ctx c same => ?_) run
    have renewed : FromLoaded (fun _ _ => False) c _ := fromLoaded_renewed env ctx c
    obtain ⟨sub, loaded, carried⟩ := renewed
    rw [Loaded, same] at loaded
    exact ⟨sub, loaded, carried⟩

/-- What a step leaves of the row of a tenant, but for a signup without trial days. -/
theorem step_left {s : PaymentState} {op : Op} {id : Nat} (condition : Condition s op) (tried : ¬op.Untried id)
    (left : (step s op).accounts id = some b) :
    ∃ a, s.accounts id = some a ∧ Left (fun sub row => op.ChangesPlan sub row) a b := by
  cases op with
  | call k call =>
    cases found : s.accounts k with
    | none =>
      simp only [step, found] at left
      exact ⟨b, left, .inl rfl⟩
    | some a =>
      simp only [step, found] at left
      by_cases own : id = k
      · subst own
        rw [Function.update_self] at left
        exact ⟨a, found, call_left found condition tried left⟩
      · rw [Function.update_of_ne own] at left
        exact ⟨b, left, .inl rfl⟩
  | pay d =>
    rw [step] at left
    obtain ⟨a, stored, form⟩ := deliver_delivered s d left
    exact ⟨a, stored, delivered_left form⟩

theorem forward_of_condition {s : PaymentState} {op : Op} (condition : Condition s op) : Forward s op := by
  intro id a sub b stored held left tried t ends
  obtain ⟨a', stored', same | ⟨row, row', sub', loaded, carried⟩⟩ := step_left condition tried left
  · rw [stored] at stored'
    cases stored'
    exact ⟨sub, same.trans held, t, ends, .inl le_rfl⟩
  · rw [stored] at stored'
    cases stored'
    rcases loaded with loaded | ⟨none, -⟩
    · rw [held] at loaded
      cases loaded
      exact ⟨row, row', carried t ends⟩
    · rw [held] at none
      cases none

/-- A step loses no date and makes no row without one, but for a signup without trial days. -/
theorem dated_step {s : PaymentState} {op : Op} {id : Nat} (dated : Dated s id) (condition : Condition s op)
    (tried : ¬op.Untried id) : Dated (step s op) id := by
  intro b left row held
  obtain ⟨a, stored, same | ⟨next, held', sub, loaded, carried⟩⟩ := step_left condition tried left
  · exact dated a stored row (same.symm.trans held)
  · rw [Option.mem_def, held', Option.some.injEq] at held
    subst held
    have set : sub.trialEndsAt.isSome = true := by
      rcases loaded with loaded | ⟨-, -, set⟩
      · exact dated a stored sub loaded
      · exact set
    obtain ⟨t, ends⟩ := Option.isSome_iff_exists.mp set
    obtain ⟨t', ends', -⟩ := carried t ends
    exact Option.isSome_iff_exists.mpr ⟨t', ends'⟩

end

/-- A subscription says until when it is paid, after every run in which its tenant has not signed up for a plan without
trial days; and every step carries the date forward. -/
theorem paid_until_kept (start : PaymentState) (ops : List Op) (dated : ∀ id, Dated start id) :
    (∀ id, Always step (fun s op => Condition s op ∧ ¬op.Untried id) start ops → Dated (final step start ops) id) ∧
      Always step (fun s op => Condition s op → Forward s op) start ops := by
  refine ⟨fun id allowed => ?_, .of_forall fun op _ s => forward_of_condition⟩
  exact final_invariant (Dated · id) (dated id) (fun s op dated allowed => dated_step dated allowed.1 allowed.2) allowed

/-- A trial, the first paid plan and a period paid for. -/
def lifetime : List Op :=
  [.call 1 (.signup (Env.seeded (midnight 20000)) "free" "monthly"),
    .call 1 (.update (Env.seeded (midnight 20002)) FreeUpgrade.acme "starter" "monthly"),
    .call 1 (.settle (Env.seeded (midnight 20040)) FreeUpgrade.acme)]

theorem opened_unsubscribed {id : Nat} {a : Account} (stored : FreeUpgrade.opened.accounts id = some a) :
    a.subscription = none := by
  have new : ∀ b ∈ FreeUpgrade.opened.accounts 1, b.subscription = none := by decide
  by_cases own : id = 1
  · exact new a (own ▸ stored)
  · have none : FreeUpgrade.opened.accounts id = none := if_neg own
    rw [none] at stored
    cases stored

theorem paid_until_kept_over_lifetime :
    Dated (final step FreeUpgrade.opened lifetime) 1 ∧ Always step Forward FreeUpgrade.opened lifetime ∧
      ∃ a ∈ (final step FreeUpgrade.opened lifetime).accounts 1, ∃ row ∈ a.subscription,
        row.planCode = "starter" ∧ row.trialEndsAt = some (midnight 20063) := by
  have free : ∀ a ∈ (step FreeUpgrade.opened (.call 1 (.signup (Env.seeded (midnight 20000)) "free" "monthly"))).accounts 1,
      ∀ sub ∈ a.subscription, sub.planCode = "free" := by decide
  have tried : ¬(Op.call 1 (.signup (Env.seeded (midnight 20000)) "free" "monthly")).Untried 1 := by
    rintro ⟨-, none⟩
    exact absurd none (by decide)
  have kept := paid_until_kept FreeUpgrade.opened lifetime
    fun id a stored row held => absurd (opened_unsubscribed stored ▸ held) nofun
  have allowed : Always step (fun s op => Condition s op ∧ ¬op.Untried 1) FreeUpgrade.opened lifetime :=
    ⟨⟨trivial, tried⟩, ⟨fun a stored sub held paid => absurd (free a stored sub held) paid, id⟩, ⟨trivial, id⟩, trivial⟩
  have forward : Always step Forward FreeUpgrade.opened lifetime :=
    ⟨kept.2.1 allowed.1.1, kept.2.2.1 allowed.2.1.1, kept.2.2.2.1 allowed.2.2.1.1, trivial⟩
  exact ⟨kept.1 1 allowed, forward, by decide +kernel⟩

/-- A signup for a plan without trial days leaves the date empty. -/
theorem paid_until_empty :
    ¬∀ (start : PaymentState) (ops : List Op), (∀ id a, start.accounts id = some a → a.subscription = none) →
      ∀ id, ∀ a ∈ (final step start ops).accounts id, ∀ row ∈ a.subscription, row.planCode ≠ "free" →
        row.trialEndsAt.isSome = true := by
  intro set
  have empty : ∃ a ∈ (final step FreeUpgrade.opened
      [.call 1 (.signup (Env.seeded (midnight 20000)) "starter" "monthly")]).accounts 1,
      ∃ row ∈ a.subscription, row.planCode ≠ "free" ∧ row.trialEndsAt = none := by decide
  obtain ⟨a, stored, row, held, paid, none⟩ := empty
  have isSet := set FreeUpgrade.opened _ (fun _ _ => opened_unsubscribed) 1 a stored row held paid
  rw [none] at isSet
  cases isSet

end NyzRating.Billing.PaidUntil
