import NyzRating.Billing.DebtOnce

/-!
# A debt is retried once a day

The retries of one tenant on one day, in their order. A retry takes the steps of `retry_failed_payments_daily` one by one;
any of them can raise, before or after its commit, and the exception ends the retry and is swallowed.
-/

namespace NyzRating.Billing.RetryOnce

open Program Runs DebtOnce Restriction Calendar

/-! ### Retries whose steps can raise -/

/-- One tenant of a run on this day. -/
structure Attempt (today : Int) where
  env : Env
  ctx : TenantContext
  on_day : env.today = today

inductive Action (today : Int) where
  | start (attempt : Attempt today)
  /-- The next step of the retry that runs. -/
  | go (fault : Option Fault)

/-- The tenant, how far its retry has come, and the invoices for which `_execute_payment` has been called. -/
structure State (today : Int) where
  account : Account
  running : Option (Attempt today × Phase) := none
  charged : List Nat := []

variable {today : Int}

def State.phase (s : State today) : Phase := (s.running.map (·.2)).getD .ended

/-- `except Exception` logs and goes on with the next tenant. -/
def raising (fault : Option Fault) (next : Phase × Account) (a : Account) : Phase × Account :=
  match fault with
  | none => next
  | some .before => (.ended, a)
  | some .after => (.ended, next.2)

/-- The runs do not overlap: a retry starts when the one before has ended. -/
def step (s : State today) : Action today → State today
  | .start attempt => if s.phase = .ended then { s with running := some (attempt, .waiting) } else s
  | .go fault =>
    match s.running with
    | none => s
    | some (attempt, phase) =>
      let next := raising fault (advance (.retry attempt.env attempt.ctx) phase s.account) s.account
      { account := next.2
        running := some (attempt, next.1)
        charged := s.charged ++ (phase.charging.map (·.id)).toList }

/-! ### The condition -/

/-- No other invoice has this type and the key of the invoice. -/
def Free (a : Account) (type : InvoiceType) (id : Nat) : Prop :=
  ∃ row ∈ a.getInvoiceById id, ∀ other ∈ a.invoices, other.id ≠ id → other.invoiceType = type →
    other.periodKey ≠ row.periodKey

instance (a : Account) (type : InvoiceType) (id : Nat) : Decidable (Free a type id) :=
  inferInstanceAs (Decidable (∃ row ∈ a.getInvoiceById id, ∀ other ∈ a.invoices, _))

/-- The step that marks an accepted debt as paid commits, and after a refusal every step up to the note commits: none
    raises of itself, and no other invoice is in the way of the new type. -/
def Noting (a : Account) (fault : Option Fault) : Phase → Prop
  | .owing .. | .refreshing .. | .resyncing .. => fault = none
  | .accepted _ debt => fault ≠ some .before ∧ Free a .monthlySubscription debt.id
  | .refused _ debt => fault = none ∧ (debt.status = .issued → Free a .monthlySubscriptionFailed debt.id)
  | .noting _ => fault ≠ some .before
  | _ => True

instance (a : Account) (fault : Option Fault) : (phase : Phase) → Decidable (Noting a fault phase)
  | .owing .. | .refreshing .. | .resyncing .. => inferInstanceAs (Decidable (fault = none))
  | .accepted _ debt => inferInstanceAs (Decidable (fault ≠ some .before ∧ Free a .monthlySubscription debt.id))
  | .refused _ debt =>
    inferInstanceAs (Decidable (fault = none ∧ (debt.status = .issued → Free a .monthlySubscriptionFailed debt.id)))
  | .noting _ => inferInstanceAs (Decidable (fault ≠ some .before))
  | .waiting | .subscribed _ | .indebted _ | .marked _ | .covered | .syncing _ | .demoting .. | .prepaying _ | .prepaid _
  | .billing .. | .invoicing .. | .covering .. | .reactivating | .prefailing _ | .failing .. | .ended => .isTrue trivial

def Recording (s : State today) : Action today → Prop
  | .start _ => True
  | .go fault => Noting s.account fault s.phase

instance (s : State today) : (action : Action today) → Decidable (Recording s action)
  | .start _ => .isTrue trivial
  | .go fault => inferInstanceAs (Decidable (Noting s.account fault s.phase))

/-! ### The invoice table -/

/-- The primary key and the unique constraint of the table. -/
structure Keyed (a : Account) : Prop where
  ids : ∀ i ∈ a.invoices, a.getInvoiceById i.id = some i
  types : ∀ i ∈ a.invoices, ∀ j ∈ a.invoices, i.invoiceType = j.invoiceType → i.periodKey = j.periodKey → i.id = j.id

instance (a : Account) : Decidable (Keyed a) :=
  decidable_of_iff ((∀ i ∈ a.invoices, a.getInvoiceById i.id = some i) ∧ ∀ i ∈ a.invoices, ∀ j ∈ a.invoices,
    i.invoiceType = j.invoiceType → i.periodKey = j.periodKey → i.id = j.id) ⟨fun h => ⟨h.1, h.2⟩, fun h => ⟨h.1, h.2⟩⟩

section
variable {a : Account} {id : Nat}

theorem Keyed.of_invoices {b : Account} (same : b.invoices = a.invoices) (h : Keyed a) : Keyed b := by
  obtain ⟨ids, types⟩ := h
  constructor
  · simpa only [Account.getInvoiceById, same] using ids
  · simpa only [same] using types

theorem held_id {row : Invoice} (found : a.getInvoiceById id = some row) : row.id = id := by
  simpa using List.find?_some found

theorem found_mem {row : Invoice} (found : a.getInvoiceById id = some row) : row ∈ a.invoices :=
  List.mem_of_find?_eq_some found

/-- The table with the row in place of the one of the same id. -/
def rewritten (a : Account) (row : Invoice) : Account :=
  { a with invoices := a.invoices.map fun i => if i.id = row.id then row else i }

theorem rewritten_found (row : Invoice) (j : Nat) : (rewritten a row).getInvoiceById j =
    (a.getInvoiceById j).map fun i => if i.id = row.id then row else i :=
  getInvoiceById_update rfl a j

theorem mem_rewritten {row i : Invoice} (h : i ∈ (rewritten a row).invoices) :
    i = row ∨ i ∈ a.invoices ∧ i.id ≠ row.id := by
  obtain ⟨old, mem, rfl⟩ := List.mem_map.mp h
  split
  · exact .inl rfl
  · next other => exact .inr ⟨mem, other⟩

/-- A row that no other one is in the way of keeps the constraints. -/
theorem Keyed.rewritten (h : Keyed a) {old row : Invoice} (found : a.getInvoiceById row.id = some old)
    (alone : ∀ other ∈ a.invoices, other.id ≠ row.id → other.invoiceType = row.invoiceType →
      other.periodKey ≠ row.periodKey) : Keyed (rewritten a row) where
  ids i mem := by
    rw [rewritten_found]
    obtain rfl | ⟨mem, other⟩ := mem_rewritten mem
    · rw [found, Option.map_some, if_pos (held_id found)]
    · rw [h.ids i mem, Option.map_some, if_neg other]
  types i hi j hj type key := by
    obtain same | ⟨oldI, otherI⟩ := mem_rewritten hi <;> obtain same' | ⟨oldJ, otherJ⟩ := mem_rewritten hj
    · rw [same, same']
    · subst same
      exact absurd key.symm (alone j oldJ otherJ type.symm)
    · subst same'
      exact absurd key (alone i oldI otherI type)
    · exact h.types i oldI j oldJ type key

/-- An update that no other invoice is in the way of goes through. -/
theorem updateInvoice_ok {old : Invoice} (found : a.getInvoiceById id = some old) (status : InvoiceStatus)
    (method : Option String) (type : Option InvoiceType) (lines : Option (List InvoiceLine))
    (alone : ∀ other ∈ a.invoices, other.id ≠ id → other.invoiceType = type.getD old.invoiceType →
      other.periodKey ≠ old.periodKey) :
    ∃ row : Invoice, row.id = id ∧ row.status = status ∧ row.invoiceType = type.getD old.invoiceType ∧
      row.periodKey = old.periodKey ∧ row.lines = lines.getD old.lines ∧
      (updateInvoicePaymentStatus id status method type lines).run a = .ok (some row) (RetryOnce.rewritten a row) := by
  have held := held_id found
  have clear : a.invoices.any (fun i => i.id ≠ id ∧ i.invoiceType = type.getD old.invoiceType ∧
      i.periodKey = old.periodKey) = false := by
    rw [List.any_eq_false]
    intro other mem
    simp only [decide_eq_true_eq, not_and]
    exact alone other mem
  refine ⟨{ old with
    status, paymentMethod := method.getD old.paymentMethod, invoiceType := type.getD old.invoiceType
    lines := lines.getD old.lines }, held, rfl, rfl, rfl, rfl, ?_⟩
  simp only [updateInvoicePaymentStatus, EStateM.run_bind, EStateM.run_get, found, run_ite, clear]
  unfold RetryOnce.rewritten
  simp only [held]
  rfl

/-- The debt that the retry finds is stored and unpaid. -/
theorem latestDebt_mem {debt : Invoice} (h : a.getLatestUnpaidDebtInvoice = some debt) :
    debt ∈ a.invoices ∧ debt.status.isPaid = false := by
  have issued : ∀ i, a.getLatestOpenSubscriptionInvoice = some i → i ∈ a.invoices ∧ i.status.isPaid = false := by
    intro i hi
    have mem := Lists.latestBy_mem hi
    simp only [List.mem_filter, decide_eq_true_eq] at mem
    exact ⟨mem.1, by rw [mem.2.2]; rfl⟩
  have failed : ∀ i, Lists.latestBy Account.issuedBefore (a.invoices.filter (fun i => i.status = .paymentFailed ∧
      (i.invoiceType = .monthlySubscription ∨ i.invoiceType = .monthlySubscriptionFailed))) = some i →
      i ∈ a.invoices ∧ i.status.isPaid = false := by
    intro i hi
    have mem := Lists.latestBy_mem hi
    simp only [List.mem_filter, decide_eq_true_eq] at mem
    exact ⟨mem.1, by rw [mem.2.1]; rfl⟩
  unfold Account.getLatestUnpaidDebtInvoice at h
  dsimp only at h
  split at h
  · exact failed debt h
  · next hi _ => exact issued debt (hi.trans h)
  · next hi hf =>
    split at h
    · exact issued debt (hi.trans h)
    · exact failed debt (hf.trans h)

end

/-! ### What a retry keeps -/

/-- The retry passes over the invoice for the rest of the day. -/
def Noted (today : Int) (a : Account) (id : Nat) : Prop :=
  ∃ row, a.getInvoiceById id = some row ∧ (row.status.isPaid = true ∨ invoiceRetryDate row = some today)

/-- The debt that a call has charged and not yet recorded. -/
def holding : Phase → Option Nat
  | .accepted _ debt | .refused _ debt | .refreshing _ debt | .resyncing _ debt | .noting debt => some debt.id
  | _ => none

/-- The phases of a retry: the debt that it holds is the stored one, and it is not yet charged before the payment. -/
def Fits (a : Account) (charged : List Nat) : Phase → Prop
  | .waiting | .marked _ | .covered | .syncing _ | .ended => True
  | .indebted debt | .owing _ debt => a.getInvoiceById debt.id = some debt ∧ debt.id ∉ charged
  | .accepted _ debt | .refused _ debt | .resyncing _ debt | .noting debt => a.getInvoiceById debt.id = some debt
  | .refreshing _ debt => ∃ row, a.getInvoiceById debt.id = some row
  | _ => False

/-- Every invoice charged is noted, but for the one that the retry holds. -/
structure Sound (today : Int) (a : Account) (charged : List Nat) (phase : Phase) : Prop where
  keyed : Keyed a
  fits : Fits a charged phase
  noted : ∀ id ∈ charged, holding phase = some id ∨ Noted today a id

section
variable {a b : Account} {id : Nat}

theorem Noted.of_invoices (same : b.invoices = a.invoices) (h : Noted today a id) : Noted today b id := by
  obtain ⟨row, found, noted⟩ := h
  refine ⟨row, ?_, noted⟩
  rw [Account.getInvoiceById, same]
  exact found

theorem Noted.rewritten {row : Invoice} (h : Noted today a id) (other : id ≠ row.id) : Noted today (rewritten a row) id := by
  obtain ⟨old, found, noted⟩ := h
  refine ⟨old, ?_, noted⟩
  rw [rewritten_found, found, Option.map_some, if_neg (by rw [held_id found]; exact other)]

theorem noted_rewritten {row old : Invoice} (found : a.getInvoiceById row.id = some old)
    (noted : row.status.isPaid = true ∨ invoiceRetryDate row = some today) : Noted today (rewritten a row) row.id :=
  ⟨row, by rw [rewritten_found, found, Option.map_some, if_pos (held_id found)], noted⟩

variable {charged : List Nat} {phase next : Phase}

/-- A step that leaves the invoices alone. -/
theorem Sound.move (h : Sound today a charged phase) (same : b.invoices = a.invoices)
    (held : ∀ id, holding phase = some id → holding next = some id) (fits : Fits b charged next) :
    Sound today b charged next where
  keyed := h.keyed.of_invoices same
  fits := fits
  noted id mem := (h.noted id mem).imp (held id) (Noted.of_invoices same)

/-- A step that writes the invoice held. -/
theorem Sound.write (h : Sound today a charged phase) {row old : Invoice} (found : a.getInvoiceById row.id = some old)
    (alone : ∀ other ∈ a.invoices, other.id ≠ row.id → other.invoiceType = row.invoiceType →
      other.periodKey ≠ row.periodKey)
    (held : holding phase = some row.id)
    (noted : holding next = some row.id ∨ row.status.isPaid = true ∨ invoiceRetryDate row = some today)
    (fits : Fits (rewritten a row) charged next) : Sound today (rewritten a row) charged next where
  keyed := h.keyed.rewritten found alone
  fits := fits
  noted id mem := by
    by_cases same : id = row.id
    · rw [same]
      exact noted.imp_right (noted_rewritten found)
    · have kept := (h.noted id mem).resolve_left (by rw [held]; simpa using Ne.symm same)
      exact .inr (kept.rewritten same)

theorem Sound.ended (h : Sound today a charged phase) (free : holding phase = none) : Sound today a charged .ended :=
  h.move rfl (fun id held => by rw [free] at held; cases held) trivial

/-! ### The steps -/

/-- The debt that the retry takes up has not been charged on this day. -/
theorem Sound.taken (h : Sound today a charged .waiting) {debt : Invoice} (found : a.getLatestUnpaidDebtInvoice = some debt)
    (open_ : invoiceRetryDate debt ≠ some today) : a.getInvoiceById debt.id = some debt ∧ debt.id ∉ charged := by
  obtain ⟨mem, unpaid⟩ := latestDebt_mem found
  have stored := h.keyed.ids debt mem
  refine ⟨stored, fun charged => ?_⟩
  obtain held | ⟨row, found', noted⟩ := h.noted debt.id charged
  · cases held
  · obtain rfl : row = debt := Option.some.inj (found'.symm.trans stored)
    rcases noted with paid | date
    · rw [unpaid] at paid
      cases paid
    · exact open_ date

theorem Sound.waiting (r : Attempt today) (h : Sound today a charged .waiting) :
    Sound today (advance (.retry r.env r.ctx) .waiting a).2 charged (advance (.retry r.env r.ctx) .waiting a).1 := by
  cases found : a.getLatestUnpaidDebtInvoice with
  | none =>
    have next : advance (.retry r.env r.ctx) .waiting a = (.ended, a) := by simp only [advance, found]
    rw [next]
    exact h.ended rfl
  | some debt =>
    by_cases late : r.env.today ≥ dateOf debt.dueAt + paymentFailureDeactivationDays
    · have next : advance (.retry r.env r.ctx) .waiting a = (.ended, a) := by
        simp only [advance, found]
        exact if_pos late
      rw [next]
      exact h.ended rfl
    · by_cases done : invoiceRetryDate debt = some r.env.today
      · have next : advance (.retry r.env r.ctx) .waiting a = (.ended, a) := by
          simp only [advance, found]
          exact (if_neg late).trans (if_pos done)
        rw [next]
        exact h.ended rfl
      · have next : advance (.retry r.env r.ctx) .waiting a = (.indebted debt, a) := by
          simp only [advance, found]
          exact (if_neg late).trans (if_neg done)
        rw [next]
        rw [r.on_day] at done
        exact h.move rfl (fun _ held => by cases held) (h.taken found done)

/-- The call of `_execute_payment`. -/
theorem Sound.charge {sub : Subscription} {debt : Invoice} (h : Sound today a charged (.owing sub debt))
    (after : next = .accepted sub debt ∨ next = .refused sub debt) : Sound today a (charged ++ [debt.id]) next where
  keyed := h.keyed
  fits := by
    obtain rfl | rfl := after
    · exact h.fits.1
    · exact h.fits.1
  noted id mem := by
    have held : holding next = some debt.id := by
      obtain rfl | rfl := after <;> rfl
    obtain before | now := List.mem_append.mp mem
    · exact .inr ((h.noted id before).resolve_left nofun)
    · rw [List.mem_singleton.mp now]
      exact .inl held

theorem Sound.accepted (c : Call) {sub : Subscription} {debt : Invoice} (h : Sound today a charged (.accepted sub debt))
    (free : Free a .monthlySubscription debt.id) :
    Sound today (advance c (.accepted sub debt) a).2 charged (advance c (.accepted sub debt) a).1 := by
  obtain ⟨old, found, alone⟩ := free
  obtain ⟨row, id, status, type, key, -, run⟩ := updateInvoice_ok found c.env.invoicePaidStatus
    (some c.env.invoicePaymentMethod) (some .monthlySubscription) none alone
  have next : advance c (.accepted sub debt) a = (.marked sub, rewritten a row) := congrArg (proceed (.marked sub)) run
  rw [next]
  rw [← id] at found alone
  refine h.write found (fun other mem ne same => ?_) (by rw [id]; rfl) (.inr (.inl ?_)) trivial
  · rw [key]
    exact alone other mem ne (same.trans type)
  · rw [status]
    exact c.env.invoicePaidStatus_isPaid

theorem Sound.refused (r : Attempt today) {sub : Subscription} {debt : Invoice} (h : Sound today a charged (.refused sub debt))
    (free : debt.status = .issued → Free a .monthlySubscriptionFailed debt.id) :
    Sound today (advance (.retry r.env r.ctx) (.refused sub debt) a).2 charged
      (advance (.retry r.env r.ctx) (.refused sub debt) a).1 := by
  by_cases issued : debt.status = .issued
  · obtain ⟨old, found, alone⟩ := free issued
    obtain ⟨row, id, status, type, key, -, run⟩ := updateInvoice_ok found .paymentFailed (some "auto_retry_failed")
      (some .monthlySubscriptionFailed) none alone
    have next : advance (.retry r.env r.ctx) (.refused sub debt) a = (.refreshing sub debt, rewritten a row) :=
      (if_pos issued).trans (congrArg (proceed (.refreshing sub debt)) run)
    rw [next]
    rw [← id] at found alone
    refine h.write found (fun other mem ne same => ?_) (by rw [id]; rfl) (.inl (by rw [id]; rfl)) ?_
    · rw [key]
      exact alone other mem ne (same.trans type)
    · refine ⟨row, ?_⟩
      rw [← id, rewritten_found, found, Option.map_some, if_pos (held_id found)]
  · have next : advance (.retry r.env r.ctx) (.refused sub debt) a = (.noting debt, a) := if_neg issued
    rw [next]
    exact h.move rfl (fun _ held => held) h.fits

theorem Sound.noting (r : Attempt today) {debt : Invoice} (h : Sound today a charged (.noting debt)) :
    Sound today (advance (.retry r.env r.ctx) (.noting debt) a).2 charged
      (advance (.retry r.env r.ctx) (.noting debt) a).1 := by
  have found : a.getInvoiceById debt.id = some debt := h.fits
  have mem := found_mem found
  have alone : ∀ other ∈ a.invoices, other.id ≠ debt.id → other.invoiceType = debt.invoiceType →
      other.periodKey ≠ debt.periodKey :=
    fun other mem' ne type key => ne (h.keyed.types other mem' debt mem type key)
  have written : ∀ lines : List InvoiceLine, lines.findSome? (·.autoRetryDate) = some today →
      Sound today (after (do let _ ← updateInvoicePaymentStatus debt.id debt.status none none (some lines)) a) charged .ended := by
    intro lines date
    obtain ⟨row, id, status, type, key, hlines, run⟩ := updateInvoice_ok found debt.status none none (some lines) alone
    rw [after_bind_of_ok run]
    rw [← id] at found alone
    refine h.write found (fun other mem ne same => ?_) (by rw [id]; rfl) (.inr (.inr ?_)) trivial
    · rw [key]
      exact alone other mem ne (same.trans type)
    · rw [invoiceRetryDate, hlines]
      exact date
  have next : advance (.retry r.env r.ctx) (.noting debt) a =
      (.ended, after (markInvoiceRetryMeta debt r.env.today (sendPaymentFailedOwnerEmail r.env a)) a) :=
    Prod.ext ((proceed_fst _ _).elim id id) (proceed_snd _ _ _)
  rw [next, r.on_day]
  cases hlines : debt.lines with
  | nil =>
    simp only [markInvoiceRetryMeta, hlines]
    exact written _ rfl
  | cons line lines =>
    simp only [markInvoiceRetryMeta, hlines]
    exact written _ rfl

theorem upsertSubscription_invoices (utcnow : Int) (data : SubscriptionData) (a : Account) :
    (a.upsertSubscription utcnow data).2.invoices = a.invoices := rfl

theorem reactivate_invoices (ctx : TenantContext) (a : Account) : (reactivate ctx a).invoices = a.invoices := by
  unfold reactivate
  split
  · rfl
  · rfl

theorem uncharged (h : phase.charging = none) : charged ++ (phase.charging.map (·.id)).toList = charged := by
  rw [h]
  exact List.append_nil _

/-- One step that does not raise. -/
theorem Sound.advance (r : Attempt today) (h : Sound today a charged phase) (noting : Noting a none phase) :
    Sound today (advance (.retry r.env r.ctx) phase a).2 (charged ++ (phase.charging.map (·.id)).toList)
      (advance (.retry r.env r.ctx) phase a).1 := by
  cases phase with
  | owing sub debt =>
    refine Sound.charge h ?_
    simp only [DebtOnce.advance]
    split
    · exact .inl rfl
    · exact .inr rfl
  | waiting =>
    rw [uncharged rfl]
    exact h.waiting r
  | accepted sub debt =>
    rw [uncharged rfl]
    exact h.accepted _ noting.2
  | refused sub debt =>
    rw [uncharged rfl]
    exact h.refused r noting.2
  | noting debt =>
    rw [uncharged rfl]
    exact h.noting r
  | indebted debt =>
    rw [uncharged rfl]
    refine h.move (ensureSubscription_invoices ..) (fun _ held => by cases held) ⟨?_, h.fits.2⟩
    exact (congrArg (List.find? _) (ensureSubscription_invoices ..)).trans h.fits.1
  | refreshing sub debt =>
    rw [uncharged rfl]
    obtain ⟨row, found⟩ := h.fits
    have next : DebtOnce.advance (.retry r.env r.ctx) (.refreshing sub debt) a = (.resyncing sub row, a) := by
      simp only [DebtOnce.advance, found, Option.getD_some]
    rw [next]
    have same := held_id found
    exact h.move rfl (fun id held => by rw [← held]; exact congrArg some same) (by rw [← same] at found; exact found)
  | resyncing sub debt =>
    rw [uncharged rfl]
    have same := syncStatus_invoices r.env sub a
    exact h.move same (fun _ held => held) ((congrArg (List.find? _) same).trans h.fits)
  | marked sub =>
    rw [uncharged rfl]
    exact h.move (upsertSubscription_invoices ..) (fun _ held => by cases held) trivial
  | covered =>
    rw [uncharged rfl]
    exact h.move ((ensureSubscription_invoices ..).trans (reactivate_invoices ..)) (fun _ held => by cases held) trivial
  | syncing sub =>
    rw [uncharged rfl]
    exact h.move (syncStatus_invoices r.env sub a) (fun _ held => by cases held) trivial
  | ended =>
    rw [uncharged rfl]
    exact h.ended rfl
  | subscribed | demoting | prepaying | prepaid | billing | invoicing | covering | reactivating | prefailing | failing =>
    exact h.fits.elim

theorem Noting.of_fault {fault : Fault} (noting : Noting a (some fault) phase) : Noting a none phase ∧ phase.charging = none := by
  cases phase with
  | owing | refused | refreshing | resyncing => simp [Noting] at noting
  | accepted sub debt => exact ⟨⟨nofun, noting.2⟩, rfl⟩
  | _ => exact ⟨by simp [Noting], rfl⟩

/-- A step that may raise before its commit finds no debt charged and unrecorded. -/
theorem Noting.free_before (noting : Noting a (some .before) phase) : holding phase = none := by
  cases phase with
  | accepted | refused | refreshing | resyncing | noting => simp [Noting] at noting
  | _ => rfl

/-- A step that may raise after its commit leaves none. -/
theorem Noting.free_after (r : Attempt today) {fault : Fault} (noting : Noting a (some fault) phase)
    (fits : Fits a charged phase) : holding (DebtOnce.advance (.retry r.env r.ctx) phase a).1 = none := by
  cases phase with
  | waiting =>
    simp only [DebtOnce.advance]
    cases a.getLatestUnpaidDebtInvoice with
    | none => rfl
    | some debt =>
      dsimp only
      split
      · rfl
      · split <;> rfl
  | accepted sub debt =>
    obtain next | next := proceed_fst (.marked sub) ((updateInvoicePaymentStatus debt.id r.env.invoicePaidStatus
      (some r.env.invoicePaymentMethod) (some .monthlySubscription) none).run a)
    · exact congrArg holding next
    · exact congrArg holding next
  | noting debt =>
    exact congrArg holding ((proceed_fst _ _).elim id id)
  | owing | refused | refreshing | resyncing => simp [Noting] at noting
  | indebted | marked | covered | syncing | ended => rfl
  | subscribed | demoting | prepaying | prepaid | billing | invoicing | covering | reactivating | prefailing | failing =>
    exact fits.elim

/-- A step that may raise. -/
theorem Sound.raising (r : Attempt today) (h : Sound today a charged phase) (fault : Option Fault)
    (noting : Noting a fault phase) :
    Sound today (raising fault (DebtOnce.advance (.retry r.env r.ctx) phase a) a).2
      (charged ++ (phase.charging.map (·.id)).toList)
      (raising fault (DebtOnce.advance (.retry r.env r.ctx) phase a) a).1 := by
  cases fault with
  | none => exact h.advance r noting
  | some fault =>
    obtain ⟨noting', none⟩ := noting.of_fault
    rw [uncharged none]
    cases fault with
    | before => exact h.ended noting.free_before
    | after =>
      have moved := h.advance r noting'
      rw [uncharged none] at moved
      exact moved.ended (noting.free_after r h.fits)

end

/-! ### Every run -/

/-- The debt that is charged next is not yet charged. -/
theorem Sound.fresh {a : Account} {charged : List Nat} {phase : Phase} (h : Sound today a charged phase)
    (once : charged.Nodup) : (charged ++ (phase.charging.map (·.id)).toList).Nodup := by
  cases here : phase.charging with
  | none =>
    rw [Option.map_none, Option.toList_none, List.append_nil]
    exact once
  | some debt =>
    obtain ⟨sub, rfl⟩ : ∃ sub, phase = .owing sub debt := by
      cases phase <;> simp_all [Phase.charging]
    refine List.nodup_append.mpr ⟨once, List.nodup_singleton _, fun i mem j mem' same => ?_⟩
    rw [same, List.mem_singleton.mp mem'] at mem
    exact h.fits.2 mem

/-- The state of a run. -/
structure Orderly (s : State today) : Prop where
  sound : Sound today s.account s.charged s.phase
  once : s.charged.Nodup

theorem Orderly.step {s : State today} {action : Action today} (h : Orderly s) (recording : Recording s action) :
    Orderly (step s action) := by
  obtain ⟨sound, once⟩ := h
  cases action with
  | start attempt =>
    simp only [RetryOnce.step]
    split
    · next ended =>
      rw [ended] at sound
      exact ⟨sound.move rfl (fun _ held => by cases held) trivial, once⟩
    · exact ⟨sound, once⟩
  | go fault =>
    simp only [RetryOnce.step]
    cases running : s.running with
    | none => exact ⟨sound, once⟩
    | some r =>
      obtain ⟨attempt, phase⟩ := r
      have here : s.phase = phase := by rw [State.phase, running]; rfl
      rw [here] at sound
      have noting : Noting s.account fault phase := here ▸ recording
      exact ⟨sound.raising attempt fault noting, sound.fresh once⟩

/-- In every sequence of retries on one day in which the steps that record a charge commit, no invoice is charged twice. -/
theorem retried_once {a : Account} (keyed : Keyed a) (actions : List (Action today))
    (h : Always step Recording { account := a } actions) : (final step { account := a } actions).charged.Nodup := by
  have start : Orderly ({ account := a } : State today) := ⟨⟨keyed, trivial, nofun⟩, List.nodup_nil⟩
  exact (final_invariant Orderly start (fun _ _ orderly recording => orderly.step recording) h).once

/-! ### Retries that end before they record -/

/-- A retry whose first step after the payment raises. -/
def interrupted (r : Attempt today) : List (Action today) := [.start r, .go none, .go none, .go none, .go (some .before)]

theorem latestDebt_congr {a b : Account} (same : b.invoices = a.invoices) :
    b.getLatestUnpaidDebtInvoice = a.getLatestUnpaidDebtInvoice := by
  simp only [Account.getLatestUnpaidDebtInvoice, Account.getLatestOpenSubscriptionInvoice, same]

theorem interrupted_step (r : Attempt today) {s : State today} {debt : Invoice} (idle : s.phase = .ended)
    (latest : s.account.getLatestUnpaidDebtInvoice = some debt)
    (early : today < dateOf debt.dueAt + paymentFailureDeactivationDays)
    (unnoted : invoiceRetryDate debt ≠ some today) :
    ∃ b running, b.invoices = s.account.invoices ∧ final step s (interrupted r) =
      { account := b, running := some (running, .ended), charged := s.charged ++ [debt.id] } := by
  rw [← r.on_day] at early unnoted
  have taken : advance (.retry r.env r.ctx) .waiting s.account = (.indebted debt, s.account) := by
    simp only [advance, latest]
    exact (if_neg (show ¬r.env.today ≥ _ from not_le.mpr early)).trans (if_neg unnoted)
  have read : advance (.retry r.env r.ctx) (.indebted debt) s.account =
      (.owing (ensureSubscription r.env r.ctx s.account).1 debt, (ensureSubscription r.env r.ctx s.account).2) := rfl
  have same : (ensureSubscription r.env r.ctx s.account).2.invoices = s.account.invoices := ensureSubscription_invoices ..
  generalize ensureSubscription r.env r.ctx s.account = subscribed at read same
  obtain ⟨sub, b⟩ := subscribed
  obtain ⟨next, paying, after⟩ : ∃ next, advance (.retry r.env r.ctx) (.owing sub debt) b = (next, b) ∧
      next.charging = none := by
    simp only [advance]
    split
    · exact ⟨_, rfl, rfl⟩
    · exact ⟨_, rfl, rfl⟩
  refine ⟨b, r, same, ?_⟩
  simp only [interrupted, final_cons, final_nil, step, if_pos idle, raising, taken, read, paying, after]
  simp [Phase.charging]

/-- However often they are repeated, each of them charges the debt. -/
theorem interrupted_charges (attempts : List (Attempt today)) {s : State today} {debt : Invoice} (idle : s.phase = .ended)
    (latest : s.account.getLatestUnpaidDebtInvoice = some debt)
    (early : today < dateOf debt.dueAt + paymentFailureDeactivationDays)
    (unnoted : invoiceRetryDate debt ≠ some today) :
    (final step s (attempts.flatMap interrupted)).charged = s.charged ++ List.replicate attempts.length debt.id := by
  induction attempts generalizing s with
  | nil => simp
  | cons r attempts ih =>
    obtain ⟨b, running, same, next⟩ := interrupted_step r idle latest early unnoted
    rw [List.flatMap_cons, final_append, next]
    rw [ih rfl ((latestDebt_congr same).trans latest)]
    simp [List.replicate_succ]

/-! ### Two runs on one day -/

/-- The debtor's card is declined again; the second run comes after the note, or after the e-mail has raised. -/
def declined : Attempt 20032 where
  env := { Env.seeded (midnight 20032) with
    provider := .stripeTest
    charge := fun _ => { success := false, status := "declined", paymentMethod := "stripe_test_card" } }
  ctx := acmeContext
  on_day := by decide

def twoRuns (fault : Option Fault) : List (Action 20032) :=
  [.start declined, .go none, .go none, .go none, .go none, .go fault, .start declined, .go none, .go none, .go none]

theorem retried_once_when_noted : (final step { account := debtor } (twoRuns none)).charged.Nodup ∧
    (final step { account := debtor } (twoRuns none)).charged = [2] :=
  ⟨retried_once (by decide) _ (by decide), by decide⟩

theorem retried_twice : ¬(final step { account := debtor } (twoRuns (some .before))).charged.Nodup := by
  have twice : (final step { account := debtor } (twoRuns (some .before))).charged = [2, 2] := by decide
  rw [twice]
  decide

end NyzRating.Billing.RetryOnce
