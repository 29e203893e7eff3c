import NyzRating.Billing.GracePeriod
import NyzRating.Lib.Run

/-!
# Every addon has its invoice

`purchase_addon` commits the new limits before it creates the invoice, whose key is its time cut to hundredths of a second.
Here any number of purchases of one tenant take their steps interleaved, and each step can fail.
-/

namespace NyzRating.Billing.AddonInvoices

open Program Runs Calendar

/-! ### Purchases, step by step -/

structure Purchase where
  env : Env
  ctx : TenantContext
  addonCode : String
  quantity : Int

/-- `max(1, int(quantity or 1))`. -/
def Purchase.qty (p : Purchase) : Int := max 1 p.quantity

/-- The fields that an addon can raise. -/
structure AddonLimits where
  extraKbCount : Int
  extraStorageGb : Int
  carryoverAddonQuestions : Int
  carryoverTrainingChars : Int
  deriving DecidableEq, Repr

def limits (sub : SubscriptionData) : AddonLimits :=
  { extraKbCount := sub.extraKbCount
    extraStorageGb := sub.extraStorageGb
    carryoverAddonQuestions := sub.carryoverAddonQuestions
    carryoverTrainingChars := sub.carryoverTrainingChars }

/-- The addon raises the limits of the subscription that the purchase has read. -/
def Purchase.grants (p : Purchase) (addon : BillingAddon) (sub : Subscription) : Bool :=
  limits (addonSubscription p.env sub addon p.qty) ≠ limits sub.toSubscriptionData

/-- How far a purchase has come; `granted` once it has committed other limits. -/
inductive Phase where
  | waiting
  | refused
  | paid (addon : BillingAddon)
  | subscribed (addon : BillingAddon) (sub : Subscription)
  | upserted (addon : BillingAddon) (updated : Subscription) (granted : Bool)
  | synced (addon : BillingAddon) (granted : Bool)
  | completed (addon : BillingAddon) (invoice : Invoice) (granted : Bool)
  /-- It has raised after the accepted payment. -/
  | raised (granted : Bool)
  deriving DecidableEq

/-- A step that fails ends the purchase. -/
def failing (fault : Option Fault) (stopped : Fault → Phase) (next : Phase × Account) (a : Account) : Phase × Account :=
  match fault with
  | none => next
  | some .before => (stopped .before, a)
  | some .after => (stopped .after, next.2)

def invoiceOf (p : Purchase) (addon : BillingAddon) : AccountM Invoice :=
  let total := addon.priceCents * p.qty
  let line : InvoiceLine :=
    { code := some addon.code, name := addon.name, quantity := some p.qty, unitPriceCents := some addon.priceCents
      totalCents := some total, simulatedPayment := p.env.isSimulatedProvider
      paymentProvider := some p.env.billingProvider, paymentReference := (p.env.executePayment total).externalId }
  createInvoice (.addon addon.code) (.ofTime p.env.now) total (addon.name ++ " x " ++ toString p.qty) [line] p.env.now
    p.env.invoicePaidStatus p.env.invoicePaymentMethod p.env.now

def advance (p : Purchase) (fault : Option Fault) (phase : Phase) (a : Account) : Phase × Account :=
  match phase with
  | .waiting =>
    match purchasedAddon p.env p.addonCode p.quantity with
    | none => (.refused, a)
    | some addon => failing fault (fun _ => .refused) (.paid addon, a) a
  | .paid addon =>
    let (sub, b) := ensureSubscription p.env p.ctx a
    failing fault (fun _ => .raised false) (.subscribed addon sub, b) a
  | .subscribed addon sub =>
    let granted := p.grants addon sub
    let (updated, b) := a.upsertSubscription p.env.utcnow (addonSubscription p.env sub addon p.qty)
    failing fault (fun f => .raised (f = .after && granted)) (.upserted addon updated granted, b) a
  | .upserted addon updated granted =>
    failing fault (fun _ => .raised granted) (.synced addon granted, syncTenantConfig p.env updated a) a
  | .synced addon granted =>
    match (invoiceOf p addon).run a with
    | .ok invoice b => failing fault (fun _ => .raised granted) (.completed addon invoice granted, b) a
    | .error _ b => (.raised granted, b)
  | .refused | .completed .. | .raised _ => (phase, a)

structure State where
  account : Account
  phase : Nat → Phase := fun _ => .waiting

/-- Call `i` takes its next step. -/
def step (input : Nat → Purchase) (s : State) (e : Nat × Option Fault) : State :=
  let next := advance (input e.1) e.2 (s.phase e.1) s.account
  { account := next.2, phase := Function.update s.phase e.1 next.1 }

/-! ### Alone -/

theorem advance_synced (p : Purchase) (addon : BillingAddon) (granted : Bool) (a : Account) :
    (advance p none (.synced addon granted) a).2 = after (invoiceOf p addon) a := by
  simp only [advance, after]
  cases (invoiceOf p addon).run a <;> rfl

/-- Uninterrupted and without a failure, the steps are `purchase_addon`. -/
theorem purchase_alone (input : Nat → Purchase) (i : Nat) (a : Account) :
    (final (step input) { account := a } (List.replicate 5 (i, none))).account =
      after (purchaseAddon (input i).env (input i).ctx (input i).addonCode (input i).quantity) a := by
  generalize hp : input i = p
  have steps : (final (step input) { account := a } (List.replicate 5 (i, none))).account =
      ((fun s => advance p none s.1 s.2)^[5] (.waiting, a)).2 := by
    simp [List.replicate, step, hp]
  rw [steps]
  cases hm : p.env.addonMap (Text.stripLower p.addonCode) with
  | none =>
    have refused : advance p none .waiting a = (.refused, a) := by simp [advance, purchasedAddon, hm]
    simp only [Function.iterate_succ, Function.comp_apply, refused, purchaseAddon, hm]
    rfl
  | some addon =>
    cases accepted : ownerCheckoutPaymentAccepted (p.env.executePayment (addon.priceCents * max 1 p.quantity)) with
    | false =>
      have none : purchasedAddon p.env p.addonCode p.quantity = none := by
        rw [purchasedAddon, hm, Option.filter_some, accepted]
        rfl
      have refused : advance p .none .waiting a = (.refused, a) := by simp only [advance, none]
      simp only [Function.iterate_succ, Function.comp_apply, refused, purchaseAddon, hm, accepted]
      rfl
    | true =>
      have some : purchasedAddon p.env p.addonCode p.quantity = some addon := by
        rw [purchasedAddon, hm, Option.filter_some, accepted]
        rfl
      have paid : advance p none .waiting a = (.paid addon, a) := by
        simp only [advance, some]
        rfl
      simp only [Function.iterate_succ, Function.comp_apply, paid, purchaseAddon, hm, accepted, Bool.not_true,
        Bool.false_eq_true, if_false]
      rw [after_bind_of_ok (EStateM.run_modifyGet ..), after_bind_of_ok (EStateM.run_modify ..)]
      exact advance_synced p addon _ _

/-! ### The property -/

/-- A purchase that has returned and raised the limits has its invoice; one that has raised has not raised the limits. -/
def Backed (p : Purchase) (a : Account) : Phase → Prop
  | .completed addon invoice granted => granted = true → invoice ∈ a.invoices ∧ invoice.invoiceType = .addon addon.code ∧
      invoice.totalCents = addon.priceCents * p.qty
  | .raised granted => granted = false
  | _ => True

def Invoiced (input : Nat → Purchase) (s : State) : Prop := ∀ i, Backed (input i) s.account (s.phase i)

/-! ### The condition -/

/-- From the commit of other limits to that of the invoice no step fails, and the tenant has no invoice of the addon in the
    same hundredth of a second. -/
def Clear (p : Purchase) (a : Account) (fault : Option Fault) : Phase → Prop
  | .subscribed addon sub => p.grants addon sub = true → fault ≠ some .after
  | .upserted _ _ granted => granted = true → fault = none
  | .synced addon granted => granted = true → fault = none ∧ a.getInvoice (.addon addon.code) (.ofTime p.env.now) = none
  | _ => True

def Unblocked (input : Nat → Purchase) (s : State) (e : Nat × Option Fault) : Prop :=
  Clear (input e.1) s.account e.2 (s.phase e.1)

/-! ### One step -/

section
variable {p : Purchase} {fault : Option Fault} {phase : Phase} {a b : Account}

theorem Backed.of_subset (h : Backed p a phase) (kept : a.invoices ⊆ b.invoices) : Backed p b phase := by
  cases phase with
  | completed addon invoice granted => exact fun g => ⟨kept (h g).1, (h g).2⟩
  | _ => exact h

/-- The account after a step that may fail. -/
theorem failing_invoices {stopped : Fault → Phase} {next : Phase × Account} (kept : a.invoices ⊆ next.2.invoices) :
    a.invoices ⊆ (failing fault stopped next a).2.invoices := by
  match fault with
  | none | some .after => exact kept
  | some .before => exact List.Subset.refl _

theorem invoiceOf_run (p : Purchase) (addon : BillingAddon) (a : Account) :
    (a.getInvoice (.addon addon.code) (.ofTime p.env.now) = none ∧ ∃ invoice : Invoice, invoice.invoiceType = .addon addon.code ∧
      invoice.totalCents = addon.priceCents * p.qty ∧ (invoiceOf p addon).run a =
        .ok invoice { a with invoices := a.invoices ++ [invoice], nextInvoiceId := a.nextInvoiceId + 1 }) ∨
    (a.getInvoice (.addon addon.code) (.ofTime p.env.now) ≠ none ∧ (invoiceOf p addon).run a = .error .integrityError a) := by
  unfold invoiceOf
  cases found : a.getInvoice (.addon addon.code) (.ofTime p.env.now) with
  | none =>
    obtain ⟨row, type, -, -, total, run⟩ := createInvoice_run found _ _ _ _ _ _ _
    exact .inl ⟨rfl, row, type, total, run⟩
  | some row =>
    refine .inr ⟨nofun, ?_⟩
    simp only [createInvoice, EStateM.run_bind, EStateM.run_get, found]
    rfl

/-- No step removes an invoice. -/
theorem advance_invoices : a.invoices ⊆ (advance p fault phase a).2.invoices := by
  cases phase with
  | waiting =>
    simp only [advance]
    cases purchasedAddon p.env p.addonCode p.quantity with
    | none => exact List.Subset.refl _
    | some addon => exact failing_invoices (List.Subset.refl _)
  | paid addon =>
    have kept : a.invoices ⊆ (ensureSubscription p.env p.ctx a).2.invoices := by
      rw [ensureSubscription_invoices]
      exact List.Subset.refl _
    exact failing_invoices kept
  | subscribed addon sub => exact failing_invoices (List.Subset.refl _)
  | upserted addon updated granted => exact failing_invoices (List.Subset.refl _)
  | synced addon granted =>
    obtain ⟨-, invoice, -, -, run⟩ | ⟨-, run⟩ := invoiceOf_run p addon a
    · simp only [advance, run]
      exact failing_invoices (List.subset_append_left ..)
    · simp only [advance, run]
      exact List.Subset.refl _
  | refused | completed | raised => exact List.Subset.refl _

/-- A purchase stays backed just when its step is clear. -/
theorem advance_backed (h : Backed p a phase) :
    Backed p (advance p fault phase a).2 (advance p fault phase a).1 ↔ Clear p a fault phase := by
  cases phase with
  | waiting =>
    simp only [advance, Clear, iff_true]
    cases purchasedAddon p.env p.addonCode p.quantity with
    | none => trivial
    | some addon => match fault with
      | none | some .before | some .after => trivial
  | paid addon =>
    simp only [Clear, iff_true]
    match fault with
    | none => trivial
    | some .before | some .after => rfl
  | subscribed addon sub =>
    match fault with
    | none => simp [advance, failing, Backed, Clear]
    | some .before => simp [advance, failing, Backed, Clear]
    | some .after => simp [advance, failing, Backed, Clear]
  | upserted addon updated granted =>
    match fault with
    | none => simp [advance, failing, Backed, Clear]
    | some .before => simp [advance, failing, Backed, Clear]
    | some .after => simp [advance, failing, Backed, Clear]
  | synced addon granted =>
    obtain ⟨free, invoice, type, total, run⟩ | ⟨taken, run⟩ := invoiceOf_run p addon a
    · simp only [advance, run, Clear, free, and_true]
      match fault with
      | none => simp [failing, Backed, type, total]
      | some .before => simp [failing, Backed]
      | some .after => simp [failing, Backed]
    · simp [advance, run, Backed, Clear, taken]
  | refused => simp [advance, Backed, Clear]
  | completed addon invoice granted => simpa [advance, Clear] using h
  | raised granted => simpa [advance, Clear] using h

end

/-! ### Every run -/

variable {input : Nat → Purchase}

theorem step_invoiced {s : State} (h : Invoiced input s) (e : Nat × Option Fault) :
    Invoiced input (step input s e) ↔ Unblocked input s e := by
  have own := @advance_backed (input e.1) e.2 (s.phase e.1) s.account (h e.1)
  constructor
  · intro all
    have here := all e.1
    simp only [step, Function.update_self] at here
    exact own.mp here
  · intro clear i
    by_cases same : i = e.1
    · simp only [step, same, Function.update_self]
      exact own.mpr clear
    · simp only [step, Function.update_of_ne same]
      exact (h i).of_subset advance_invoices

/-- In every interleaving of purchases, all that raise limits have their invoices and none that raises an exception has
    raised a limit, just when each step is clear. -/
theorem addons_invoiced (a : Account) (es : List (Nat × Option Fault)) :
    (∀ n, Invoiced input (final (step input) { account := a } (es.take n))) ↔
      Always (step input) (Unblocked input) { account := a } es :=
  always_iff_kept (Invoiced input) (fun _ => trivial) fun _ e _ h => step_invoiced h e

/-! ### Two packs in one hundredth of a second -/

def acme : Account :=
  ((final GracePeriod.step GracePeriod.customer [GracePeriod.purchase]).account).getD
    (Account.created "acme" "Acme" (midnight 20000))

/-- Purchases of a question pack; the second is five milliseconds after the first. -/
def packs (i : Nat) : Purchase :=
  { env := Env.seeded (midnight 20008 + 5000 * i)
    ctx := { slug := "acme", createdAt := none, isActive := none }
    addonCode := "question_pack_50", quantity := 1 }

theorem second_pack_not_invoiced : ¬∀ n, Invoiced packs (final (step packs) { account := acme }
    ((List.replicate 5 (0, none) ++ List.replicate 5 (1, none)).take n)) := by
  intro h
  have raised : (final (step packs) { account := acme }
      ((List.replicate 5 (0, none) ++ List.replicate 5 (1, none)).take 10)).phase 1 = .raised true := by decide
  have backed := h 10 1
  rw [raised] at backed
  cases backed

end NyzRating.Billing.AddonInvoices
