import NyzRating.Billing.Catalog
import NyzRating.Billing.InvoiceTotals

/-!
# The printed invoice

The amounts that `render_invoice_pdf` prints. A total or unit price that a line does not have, or has as zero, is
replaced: the total by that of the invoice, the unit price by the total over the quantity. The credit line of an upgrade
is therefore wrong when there is no credit, and the line of a subscription period has a unit price that leaves out the
extra knowledge bases and storage that its total has.
-/

namespace NyzRating.Billing.Pdf

open Calendar Program Totals

/-- `int(x or d)` -/
def orNumber (x : Option Int) (d : Int) : Int :=
  match x with
  | some n => if n = 0 then d else n
  | none => d

/-- The quantity of a period is its number of months; old invoices have it in `period_multiplier` only. -/
def printedQuantity (line : InvoiceLine) : Int :=
  let periodMultiplier := max 1 (orNumber line.periodMultiplier 1)
  let rawQuantity := orNumber line.quantity 0
  if rawQuantity > 1 then rawQuantity
  else if periodMultiplier > 1 then periodMultiplier
  else max 1 (if rawQuantity = 0 then 1 else rawQuantity)

def printedGross (totalCents : Int) (line : InvoiceLine) : Int := orNumber line.totalCents totalCents

def printedUnit (totalCents : Int) (line : InvoiceLine) : Int :=
  orNumber line.unitPriceCents (printedGross totalCents line / max 1 (printedQuantity line))

structure PrintedRow where
  name : String
  quantity : Int
  unitCents : Int
  grossCents : Int
  deriving DecidableEq, Repr

structure PrintedInvoice where
  rows : List PrintedRow
  netCents : Int
  taxCents : Int
  totalCents : Int
  deriving DecidableEq, Repr

/-- `render_invoice_pdf_document`. The quotient by 1.27 is a floating-point number there; no amount of cents has its net
half way between two cents. -/
def renderInvoicePdfDocument (i : Invoice) : PrintedInvoice :=
  let net := if i.totalCents > 0 then roundDiv (i.totalCents * 100) 127 else 0
  let lines := if i.lines = [] then
      [{ name := i.description, quantity := some 1, totalCents := some i.totalCents : InvoiceLine }]
    else i.lines
  { rows := lines.map fun line =>
      { name := orText (some line.name) (orText (some i.description) "Szolgáltatás")
        quantity := printedQuantity line
        unitCents := printedUnit i.totalCents line
        grossCents := printedGross i.totalCents line }
    netCents := net
    taxCents := i.totalCents - net
    totalCents := i.totalCents }

inductive PdfError where
  | valueError (message : String)
  | permissionError (message : String)
  deriving DecidableEq, Repr

/-- `render_invoice_pdf` -/
def renderInvoicePdf (a : Account) (invoiceId : Nat) : Except PdfError PrintedInvoice :=
  match a.getInvoiceById invoiceId with
  | none => .error (.valueError "Számla nem található.")
  | some i =>
    if !i.status.isPaid then .error (.permissionError "A számla csak fizetés után tölthető le.")
    else if i.totalCents ≤ 0 then .error (.permissionError "A számla csak fizetés után tölthető le.")
    else .ok (renderInvoicePdfDocument i)

/-- Quantity times unit price is the total of each row, the rows come to the total, and so do net and tax. -/
structure PrintedInvoice.Consistent (p : PrintedInvoice) : Prop where
  rows : ∀ r ∈ p.rows, r.quantity * r.unitCents = r.grossCents
  total : (p.rows.map (·.grossCents)).sum = p.totalCents
  net : p.netCents + p.taxCents = p.totalCents

/-- The invoice is consistent whenever it is printed. Its status, type and method change when it is paid; its amounts do
not. -/
def PrintsRight (i : Invoice) : Prop :=
  ∀ (a : Account) (id : Nat) (status : InvoiceStatus) (paymentMethod : String) (invoiceType : InvoiceType)
    (printed : PrintedInvoice), a.getInvoiceById id = some { i with status, paymentMethod, invoiceType } →
      renderInvoicePdf a id = .ok printed → printed.Consistent

/-! ### What is printed depends on the amounts -/

/-- The lines of an invoice, as they are printed, fit each other and the total. -/
structure RowsRight (totalCents : Int) (lines : List InvoiceLine) : Prop where
  rows : ∀ line ∈ lines, printedQuantity line * printedUnit totalCents line = printedGross totalCents line
  total : lines = [] ∨ (lines.map (printedGross totalCents)).sum = totalCents

theorem consistent_iff (i : Invoice) : (renderInvoicePdfDocument i).Consistent ↔ RowsRight i.totalCents i.lines := by
  have grosses : ∀ lines : List InvoiceLine, ((lines.map fun line : InvoiceLine => (
      { name := orText (some line.name) (orText (some i.description) "Szolgáltatás")
        quantity := printedQuantity line
        unitCents := printedUnit i.totalCents line
        grossCents := printedGross i.totalCents line } : PrintedRow)).map (·.grossCents)) =
      lines.map (printedGross i.totalCents) := by
    intro lines
    rw [List.map_map]
    rfl
  constructor
  · rintro ⟨rows, total, -⟩
    unfold renderInvoicePdfDocument at rows total
    by_cases empty : i.lines = []
    · exact ⟨by simp [empty], .inl empty⟩
    · simp only [if_neg empty, grosses] at rows total
      exact ⟨fun line mem => rows _ (List.mem_map_of_mem mem), .inr total⟩
  · rintro ⟨rows, total⟩
    have net : ∀ n : Int, n + (i.totalCents - n) = i.totalCents := fun n => by omega
    by_cases empty : i.lines = []
    · have whole : printedQuantity { name := i.description, quantity := some 1, totalCents := some i.totalCents } = 1 := rfl
      have gross : printedGross i.totalCents
          { name := i.description, quantity := some 1, totalCents := some i.totalCents } = i.totalCents := by
        simp only [printedGross, orNumber]
        split <;> rfl
      have unit : printedUnit i.totalCents
          { name := i.description, quantity := some 1, totalCents := some i.totalCents } = i.totalCents := by
        rw [printedUnit, gross, whole]
        exact Int.ediv_one _
      refine ⟨?_, ?_, net _⟩
      · simp only [renderInvoicePdfDocument, if_pos empty, List.map_cons, List.map_nil, List.mem_singleton]
        rintro r rfl
        rw [whole, unit, gross, one_mul]
      · simp only [renderInvoicePdfDocument, if_pos empty, List.map_cons, List.map_nil, gross]
        simp
    · refine ⟨?_, ?_, net _⟩
      · simp only [renderInvoicePdfDocument, if_neg empty]
        intro r mem
        obtain ⟨line, inLines, rfl⟩ := List.mem_map.mp mem
        exact rows line inLines
      · simp only [renderInvoicePdfDocument, if_neg empty, grosses]
        exact total.resolve_left empty

theorem printsRight_iff (i : Invoice) : PrintsRight i ↔ (0 < i.totalCents → RowsRight i.totalCents i.lines) := by
  constructor
  · intro right positive
    let paid : Invoice := { i with status := .paid }
    have found : ({ Account.created "" "" 0 with invoices := [paid] } : Account).getInvoiceById i.id = some paid := by
      simp [Account.getInvoiceById, paid]
    have printed : renderInvoicePdf { Account.created "" "" 0 with invoices := [paid] } i.id =
        .ok (renderInvoicePdfDocument paid) := by
      unfold renderInvoicePdf
      rw [found]
      exact if_neg (not_le.mpr positive)
    exact (consistent_iff paid).mp (right _ _ .paid i.paymentMethod i.invoiceType _ found printed)
  · intro right a id status method type printed found rendered
    unfold renderInvoicePdf at rendered
    rw [found] at rendered
    dsimp only at rendered
    split at rendered
    · cases rendered
    · split at rendered
      · cases rendered
      · next positive =>
        cases rendered
        exact (consistent_iff _).mpr (right (not_le.mp positive))

theorem printsRight_ofAmounts (c : Prop) : OfAmounts fun i => PrintsRight i ↔ c := by
  intro i j total lines h
  rw [printsRight_iff] at h ⊢
  rw [total, lines]
  exact h

/-! ### The lines of each operation -/

/-- The unit price of a period times its months is what is charged; or the plan costs nothing, and the charge is split
evenly; or nothing is charged. -/
def PeriodPriced (env : Env) (sub : Subscription) (a : Account) : Prop :=
  let monthly := planMonthlyChargeCentsAfterDiscount (env.plans.getOrFree sub.planCode).priceCents sub.billingPeriod
  let months := billingPeriodMultiplier sub.billingPeriod
  let charged := (estimateNextInvoice env sub a).totalCents
  charged ≤ 0 ∨ months * monthly = charged ∨ monthly = 0 ∧ months ∣ charged

/-- There is a credit, and the total is what it leaves of the new period; or nothing is charged. -/
def CreditShown (p : UpgradeProration) (totalCents : Int) : Prop :=
  totalCents ≤ 0 ∨ 0 < p.oldRemainingCreditCents ∧ totalCents = p.nextPeriodChargeCents - p.oldRemainingCreditCents

theorem one_le_multiplier (period : BillingPeriod) : 1 ≤ billingPeriodMultiplier period := by cases period <;> decide

theorem printedQuantity_period {line : InvoiceLine} {period : BillingPeriod}
    (quantity : line.quantity = some (billingPeriodMultiplier period))
    (multiplier : line.periodMultiplier = some (billingPeriodMultiplier period)) :
    printedQuantity line = billingPeriodMultiplier period := by
  unfold printedQuantity
  rw [quantity, multiplier]
  cases period <;> rfl

theorem printedQuantity_plain {line : InvoiceLine} {n : Int} (positive : 1 ≤ n) (quantity : line.quantity = some n)
    (multiplier : line.periodMultiplier = none) : printedQuantity line = n := by
  unfold printedQuantity
  rw [quantity, multiplier]
  have raw : orNumber (some n) 0 = n := if_neg (by omega)
  have single : max 1 (orNumber none 1) = 1 := rfl
  simp only [raw, single, gt_iff_lt, lt_irrefl, if_false]
  split
  · rfl
  · rw [if_neg (by omega)]
    omega

theorem period_printsRight_iff {env : Env} {sub : Subscription} {a : Account} {row : Invoice}
    (written : PeriodInvoice env sub a row) : PrintsRight row ↔ PeriodPriced env sub a := by
  obtain ⟨charged, line, lines, total, unit, quantity, multiplier⟩ := written
  have months := one_le_multiplier sub.billingPeriod
  have printed := printedQuantity_period quantity multiplier
  rw [printsRight_iff, PeriodPriced, ← charged]
  generalize planMonthlyChargeCentsAfterDiscount _ _ = monthly at unit ⊢
  generalize billingPeriodMultiplier sub.billingPeriod = n at months printed ⊢
  have gross : printedGross row.totalCents line = row.totalCents := by
    simp only [printedGross, total, orNumber]
    split <;> rfl
  have rowsRight : RowsRight row.totalCents row.lines ↔
      n * (if monthly = 0 then row.totalCents / n else monthly) = row.totalCents := by
    have price : printedUnit row.totalCents line = if monthly = 0 then row.totalCents / n else monthly := by
      rw [printedUnit, unit, gross, printed, Int.max_eq_right months]
      rfl
    constructor
    · intro right
      have row := right.rows line (lines ▸ List.mem_singleton_self line)
      rwa [printed, price, gross] at row
    · intro row
      refine ⟨fun l mem => ?_, .inr ?_⟩
      · rw [lines] at mem
        rw [List.mem_singleton.mp mem, printed, price, gross]
        exact row
      · rw [lines]
        simp [gross]
  rw [rowsRight]
  by_cases free : monthly = 0
  · have split : n * (row.totalCents / n) = row.totalCents ↔ n ∣ row.totalCents :=
      ⟨fun same => ⟨_, same.symm⟩, Int.mul_ediv_cancel'⟩
    rw [if_pos free, split]
    constructor
    · intro right
      rcases le_or_gt row.totalCents 0 with none | some
      · exact .inl none
      · exact .inr (.inr ⟨free, right some⟩)
    · rintro (none | same | ⟨-, even⟩) positive
      · omega
      · rw [free, Int.mul_zero] at same
        omega
      · exact even
  · rw [if_neg free]
    constructor
    · intro right
      rcases le_or_gt row.totalCents 0 with none | some
      · exact .inl none
      · exact .inr (.inl (right some))
    · rintro (none | same | ⟨zero, -⟩) positive
      · omega
      · exact same
      · exact absurd zero free

theorem addon_printsRight {price n : Int} {row : Invoice} (positive : 1 ≤ n) (written : AddonInvoice price n row) :
    PrintsRight row := by
  obtain ⟨charged, line, lines, total, unit, quantity, multiplier⟩ := written
  rw [printsRight_iff]
  intro some
  have priced : price ≠ 0 := by
    rintro rfl
    omega
  have gross : printedGross row.totalCents line = row.totalCents := by
    simp only [printedGross, total, orNumber]
    split <;> rfl
  refine ⟨fun l mem => ?_, .inr ?_⟩
  · rw [lines] at mem
    rw [List.mem_singleton.mp mem, printedQuantity_plain positive quantity multiplier, gross, charged, printedUnit, unit,
      orNumber, if_neg priced, Int.mul_comm]
  · rw [lines]
    simp [gross]

theorem upgrade_printsRight_iff {p : UpgradeProration} {plan : String} {period : BillingPeriod} {periodTotal : Int}
    {simulated : Bool} {provider : String} {reference : Option String} {row : Invoice} (free : p.trainingInitialFeeCents = 0)
    (credit : 0 ≤ p.oldRemainingCreditCents)
    (next : p.nextPeriodChargeCents = p.newMonthlyCents * billingPeriodMultiplier period)
    (periodCharge : periodTotal = p.nextPeriodChargeCents ∨ p.nextPeriodChargeCents = 0 ∧ periodTotal = row.totalCents)
    (lines : row.lines = upgradeLines p plan period periodTotal simulated provider reference) :
    PrintsRight row ↔ CreditShown p row.totalCents := by
  have months := one_le_multiplier period
  rw [printsRight_iff, CreditShown]
  unfold upgradeLines at lines
  rw [free, if_neg (lt_irrefl 0)] at lines
  generalize hp : InvoiceLine.mk _ _ _ _ _ _ _ _ _ (some periodTotal) _ _ _ _ _ _ _ _ _ = newPeriod at lines
  generalize hc : InvoiceLine.mk _ _ _ _ _ _ _ _ _ (some (-p.oldRemainingCreditCents)) _ _ _ _ _ _ _ _ _ = old at lines
  have periodQuantity : printedQuantity newPeriod = billingPeriodMultiplier period := by
    subst hp
    exact printedQuantity_period rfl rfl
  have oldQuantity : printedQuantity old = 1 := by
    subst hc
    rfl
  have periodGross : printedGross row.totalCents newPeriod =
      if p.nextPeriodChargeCents = 0 then row.totalCents else p.nextPeriodChargeCents := by
    subst hp
    simp only [printedGross, orNumber]
    grind
  have oldGross : printedGross row.totalCents old =
      if p.oldRemainingCreditCents = 0 then row.totalCents else -p.oldRemainingCreditCents := by
    subst hc
    simp only [printedGross, orNumber]
    grind
  have oldUnit : printedUnit row.totalCents old = printedGross row.totalCents old := by
    rw [printedUnit, oldQuantity]
    subst hc
    exact Int.ediv_one _
  have sum : (row.lines.map (printedGross row.totalCents)).sum =
      (if p.nextPeriodChargeCents = 0 then row.totalCents else p.nextPeriodChargeCents) +
      if p.oldRemainingCreditCents = 0 then row.totalCents else -p.oldRemainingCreditCents := by
    rw [lines]
    simp [periodGross, oldGross]
  constructor
  · intro right
    rcases le_or_gt row.totalCents 0 with none | some
    · exact .inl none
    · have total := (right some).total.resolve_left (by simp [lines])
      rw [sum] at total
      refine .inr ?_
      split at total
      · split at total <;> omega
      · split at total <;> omega
  · rintro (none | ⟨some, total⟩) positive
    · omega
    · have charged : p.nextPeriodChargeCents ≠ 0 := by omega
      have monthly : p.newMonthlyCents ≠ 0 := by
        intro zero
        rw [zero, Int.zero_mul] at next
        exact charged next
      refine ⟨fun line mem => ?_, .inr ?_⟩
      · rw [lines] at mem
        rcases List.mem_pair.mp mem with rfl | rfl
        · have unit : printedUnit row.totalCents line = p.newMonthlyCents := by
            subst hp
            exact if_neg monthly
          rw [periodQuantity, unit, periodGross, if_neg charged, next, Int.mul_comm]
        · rw [oldQuantity, oldUnit, Int.one_mul]
      · rw [sum, if_neg charged, if_neg some.ne']
        omega

/-! ### Every invoice -/

theorem proration_next {env : Env} {sub : Subscription} {plan : String} {period : BillingPeriod} {p : UpgradeProration}
    (priced : upgradeProration env sub plan period = some p) :
    p.nextPeriodChargeCents = p.newMonthlyCents * billingPeriodMultiplier period := by
  unfold upgradeProration computeUpgradeProration at priced
  obtain ⟨next, -, priced⟩ := Option.bind_eq_some_iff.mp priced
  obtain ⟨⟨⟩, -, priced⟩ := Option.bind_eq_some_iff.mp priced
  obtain ⟨⟨⟩, -, priced⟩ := Option.bind_eq_some_iff.mp priced
  cases priced
  rfl

/-- The invoice of an upgrade that `p` prices prints right exactly when `p` has a credit and the total is what it
leaves. -/
def UpgradePrints (priced : Option UpgradeProration) (charge : UpgradeProration → Option Int) (i : Invoice) : Prop :=
  ∃ p total, priced = some p ∧ charge p = some total ∧ (PrintsRight i ↔ CreditShown p total)

/-- An estimate for a row with nothing scheduled. -/
theorem periodPriced_iff_of_unscheduled {env : Env} {sub : Subscription} {a : Account}
    (plan : orText sub.scheduledPlanCode (orText (some sub.planCode) "free") = sub.planCode)
    (period : sub.scheduledBillingPeriod = none) : PeriodPriced env sub a ↔
      (estimateNextInvoice env sub a).totalCents ≤ 0 ∨
        sub.extraKbCount + requiredExtraStorageGb env sub a.resources = 0 ∨
        planMonthlyChargeCentsAfterDiscount (env.plans.getOrFree sub.planCode).priceCents sub.billingPeriod = 0 := by
  have months := one_le_multiplier sub.billingPeriod
  have charged : (estimateNextInvoice env sub a).totalCents = billingPeriodMultiplier sub.billingPeriod *
      (planMonthlyChargeCentsAfterDiscount (env.plans.getOrFree sub.planCode).priceCents sub.billingPeriod +
        500 * (sub.extraKbCount + requiredExtraStorageGb env sub a.resources)) := by
    simp only [estimateNextInvoice, plan, period, Option.getD_none]
    rw [← Int.add_mul, Int.mul_comm]
    refine congrArg (_ * ·) ?_
    omega
  unfold PeriodPriced
  simp only
  generalize planMonthlyChargeCentsAfterDiscount _ _ = monthly at charged ⊢
  generalize sub.extraKbCount + requiredExtraStorageGb env sub a.resources = extras at charged ⊢
  generalize billingPeriodMultiplier sub.billingPeriod = n at months charged ⊢
  rw [charged]
  have whole : n * monthly = n * (monthly + 500 * extras) ↔ extras = 0 := by
    rw [Int.mul_eq_mul_left_iff (by omega)]
    omega
  rw [whole, and_iff_left (dvd_mul_right ..)]

/-- What is printed of the invoices of the five operations, whatever the catalog, the rows, the day and the event. -/
theorem printed_invoices (env : Env) (ctx : TenantContext) (a : Account) (s : PaymentState) (d : Delivery) :
    (∀ sub dueDate key, Created (fun i => PrintsRight i ↔ PeriodPriced env sub a) a
      (after (issueSubscriptionPaymentRequest env sub dueDate key) a)) ∧
    (∀ planCode billingPeriod, Created (UpgradePrints
        ((env.plans.find? (Text.stripLower planCode)).bind fun plan => upgradeProration env (ensureSubscription env ctx a).1
          plan.code (normalizeBillingPeriod billingPeriod))
        fun p => some p.totalChargeCents) a
      (after (completeUpgradeAfterCheckout env ctx planCode billingPeriod) a)) ∧
    (∀ subscription outcome force forced, Created (fun i => PrintsRight i ↔
        PeriodPriced env (billed env ctx subscription a).1 (billed env ctx subscription a).2) a
      (after (completeSubscriptionBilling env ctx subscription outcome force forced) a)) ∧
    ((deliver s d).Each fun k b => ∃ a, s.accounts k = some a ∧ Created (UpgradePrints (d.preview a) d.totalCharge) a b) ∧
    ∀ addonCode quantity, Created PrintsRight a (after (purchaseAddon env ctx addonCode quantity) a) := by
  have start : ∀ Q, Created Q a a := fun Q => .refl Q a
  refine ⟨fun sub dueDate key => issueRequest_created env sub dueDate key (start _) fun row => period_printsRight_iff,
    fun planCode period => checkout_created env ctx planCode period a ?_,
    fun subscription outcome force forced => completeBilling_created (printsRight_ofAmounts _) env ctx subscription outcome
      force forced (start _) fun row => period_printsRight_iff,
    fun k b stored => ?_,
    fun addonCode quantity => purchaseAddon_created env ctx addonCode quantity (start _) fun price row =>
      addon_printsRight (Int.le_max_left 1 quantity)⟩
  · intro plan p row found priced total lines
    obtain ⟨free, credit, -⟩ := proration_amounts priced
    refine ⟨p, _, ?_, rfl, total ▸ upgrade_printsRight_iff free credit (proration_next priced) (.inl rfl) lines⟩
    rw [found]
    exact priced
  · obtain ⟨c, was, form⟩ := deliver_delivered s d stored
    refine ⟨c, was, delivered_created form fun p row priced total lines => ⟨p, _, priced, total, ?_⟩⟩
    obtain ⟨free, credit, -⟩ := proration_amounts priced
    refine upgrade_printsRight_iff free credit (proration_next priced) ?_ lines
    split
    · next costless => exact .inr ⟨costless, rfl⟩
    · exact .inl rfl

/-- A month of the plan costs 18 900, and the line says so; the total has an extra knowledge base as well. -/
theorem extra_kb_printed_wrong : ¬∀ (env : Env) (ctx : TenantContext) (a : Account) (subscription : Option Subscription),
    Created PrintsRight a (after (completeSubscriptionBilling env ctx subscription "success" true false) a) := by
  intro right
  let sub : Subscription :=
    { planCode := "pro", billingPeriod := .monthly, status := .active, trialStartedAt := none
      trialEndsAt := some (midnight 20030), createdAt := midnight 20000, updatedAt := midnight 20000, extraKbCount := 1 }
  let a : Account := { Account.created "acme" "Acme" (midnight 20000) with subscription := some sub }
  let b := after (completeSubscriptionBilling (Env.seeded (midnight 20025)) a.snapshot (some sub) "success" true false) a
  have created := right (Env.seeded (midnight 20025)) a.snapshot a (some sub)
  obtain ⟨i, found⟩ : ∃ i, b.getInvoiceById 1 = some i := Option.isSome_iff_exists.mp (by decide +kernel)
  have wrong : ((renderInvoicePdf b 1).toOption.any fun p => p.rows.any fun r => r.quantity * r.unitCents ≠ r.grossCents) =
      true := by decide +kernel
  cases printed : renderInvoicePdf b 1 with
  | error e =>
    rw [printed] at wrong
    cases wrong
  | ok p =>
    rw [printed] at wrong
    obtain ⟨r, inRows, wrong⟩ : ∃ r ∈ p.rows, r.quantity * r.unitCents ≠ r.grossCents := by
      simpa [Except.toOption, List.any_eq_true] using wrong
    rcases created i (List.mem_of_find?_eq_some found) with ⟨j, none, -⟩ | prints
    · exact List.not_mem_nil none
    · exact wrong ((prints b 1 i.status i.paymentMethod i.invoiceType p found printed).rows r inRows)

end NyzRating.Billing.Pdf
