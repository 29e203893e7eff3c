import NyzRating.Billing.Cancellation
import NyzRating.Billing.Catalog
import NyzRating.Lib.Run

/-!
# The delay before a deletion

The lifecycle decides on the requests as they were before its pass. So the deactivation that a drop refers to is older
than the pass, and a notice that is on record is not recorded again.
-/

namespace NyzRating.Billing.Deletion

open Program Runs Calendar

/-- The calls of a run on one tenant: those that write its cancellation requests. -/
inductive Op where
  | cancel (env : Env) (ctx : TenantContext) (reasonCode reasonText : String) (requestedByUserId : Option Nat)
  | restore (env : Env) (ctx : TenantContext)
  | deleteAccess (env : Env) (ctx : TenantContext)
  | sync (env : Env) (sub : Subscription)
  | lifecycle (env : Env)

def Op.run (a : Account) : Op → Option Account
  | .cancel env ctx code text user => some (after (cancelSubscription env ctx code text user) a)
  | .restore env ctx => some (after (restoreSubscriptionRenewal env ctx) a)
  | .deleteAccess env ctx => some (after (deleteServiceAccess env ctx) a)
  | .sync env sub => some (syncStatus env sub a).2
  | .lifecycle env => (processCancellationLifecycle env a).account

/-- The account of the tenant after a call; a deleted tenant has none any more. -/
def step (s : Option Account) (op : Op) : Option Account := s.bind op.run

inductive Notice where
  | twoDays
  | oneDay
  | expired
  deriving DecidableEq, Repr

def noticeSentAt (r : CancellationRequest) : Notice → Option Int
  | .twoDays => r.noticeTwoDaysSentAt
  | .oneDay => r.noticeOneDaySentAt
  | .expired => r.noticeExpiredSentAt

/-- The notice is on record for the request with this number. -/
def recorded (id : Nat) (notice : Notice) (s : Option Account) : Bool :=
  s.any fun a => a.cancellations.any fun r => r.id = id && (noticeSentAt r notice).isSome

/-- 1 where the call puts the notice on record. -/
def records (id : Nat) (notice : Notice) (s : Option Account) (op : Op) : Int :=
  if recorded id notice s = false ∧ recorded id notice (step s op) = true then 1 else 0

/-- A call of the lifecycle drops a schema only for a request that recorded, before the call, a deactivation at least
seven days old. -/
def DropsLate : Option Account → Op → Prop
  | some a, .lifecycle env => ∀ slug live, .dropTenantSchema slug live ∈ (processCancellationLifecycle env a).log.calls →
      ∃ r ∈ a.cancellations, r.schemaName = slug ∧ ∃ d, r.deactivatedAt = some d ∧ dateOf d + 7 ≤ env.today
  | _, _ => True

/-! ### Notices stay on record -/

/-- Every request of `a` is one of `b`, with the notices that it had. -/
def NoticesKept (a b : Account) : Prop :=
  ∀ r ∈ a.cancellations, ∃ r' ∈ b.cancellations, r'.id = r.id ∧
    ∀ notice t, noticeSentAt r notice = some t → noticeSentAt r' notice = some t

/-- The call keeps the notices of a tenant that it does not delete. -/
def KeepsNotices (s : Option Account) (op : Op) : Prop := ∀ a b, s = some a → step s op = some b → NoticesKept a b

variable {a b : Account}

theorem NoticesKept.refl (a : Account) : NoticesKept a a := fun r mem => ⟨r, mem, rfl, fun _ _ h => h⟩

theorem NoticesKept.updateRequest (h : NoticesKept a b) {id : Nat} {guard : CancellationRequest → Bool}
    {set : CancellationRequest → CancellationRequest} (same : ∀ r, (set r).id = r.id)
    (keeps : ∀ r, guard r = true → ∀ notice t, noticeSentAt r notice = some t → noticeSentAt (set r) notice = some t) :
    NoticesKept a (Account.updateRequest id guard set b).2 := by
  intro r mem
  obtain ⟨r', old, ids, stamps⟩ := h r mem
  refine ⟨if r'.id == id && guard r' then set r' else r', Account.mem_updateRequest.mpr ⟨r', old, rfl⟩, ?_⟩
  by_cases hit : (r'.id == id && guard r') = true
  · rw [if_pos hit]
    obtain ⟨-, guarded⟩ := (Bool.and_eq_true _ _).mp hit
    exact ⟨(same r').trans ids, fun notice t sent => keeps r' guarded notice t (stamps notice t sent)⟩
  · rw [if_neg hit]
    exact ⟨ids, stamps⟩

/-- A stamp is set only where there is none. -/
theorem NoticesKept.marked (h : NoticesKept a b) (id : Nat) (sentAt : Int) :
    NoticesKept a (b.markCancellationNoticeTwoDaysSent id sentAt).2 ∧
    NoticesKept a (b.markCancellationNoticeOneDaySent id sentAt).2 ∧
    NoticesKept a (b.markCancellationNoticeExpiredSent id sentAt).2 := by
  refine ⟨h.updateRequest (fun _ => rfl) ?_, h.updateRequest (fun _ => rfl) ?_, h.updateRequest (fun _ => rfl) ?_⟩
  all_goals
    intro r unset notice t sent
    cases notice <;> simp_all [noticeSentAt]

theorem NoticesKept.deactivated (h : NoticesKept a b) (id : Nat) (deactivatedAt : Int) :
    NoticesKept a (b.deactivate.markCancellationDeactivated id deactivatedAt).2 :=
  NoticesKept.updateRequest (b := b.deactivate) h (fun _ => rfl) fun r _ notice t sent => by cases notice <;> exact sent

theorem NoticesKept.restored (h : NoticesKept a b) (restoredAt : Int) :
    NoticesKept a (b.restoreLatestCancellationRequest restoredAt).2 := by
  unfold Account.restoreLatestCancellationRequest
  split
  · exact h
  · exact h.updateRequest (fun _ => rfl) fun r _ notice t sent => by cases notice <;> exact sent

theorem NoticesKept.created (h : NoticesKept a b) (utcnow : Int) (slug : String) (user : Option Nat) (code text : String)
    (kbs : Int) (status : CancellationStatus) (effectiveAt deactivatedAt : Option Int) :
    NoticesKept a (b.createCancellationRequest utcnow slug user code text kbs status effectiveAt deactivatedAt).2 := by
  intro r mem
  obtain ⟨r', old, kept⟩ := h r mem
  exact ⟨r', List.mem_append_left _ old, kept⟩

theorem lifecycleInvariant_noticesKept (a : Account) : LifecycleInvariant (NoticesKept a) where
  twoDays _ id t h := (h.marked id t).1
  oneDay _ id t h := (h.marked id t).2.1
  expired _ id t h := (h.marked id t).2.2
  withdrawn _ id t h := h.deactivated id t

theorem rowInvariant_noticesKept (a : Account) : RowInvariant (NoticesKept a) where
  invoices _ _ _ h := h
  subscription _ _ h := h
  config _ _ _ h := h

/-- Every call keeps the notices that are on record. -/
theorem step_noticesKept {op : Op} (ran : step (some a) op = some b) : NoticesKept a b := by
  have start := NoticesKept.refl a
  have ensured : ∀ env ctx, NoticesKept a (ensureSubscription env ctx a).2 := fun env ctx =>
    (rowInvariant_noticesKept a).ensure env ctx start
  cases op with
  | cancel env ctx code text user =>
    obtain rfl := Option.some.inj ran
    rcases cancelSubscription_cases env ctx a code text user with h | ⟨_, _, _, _, h⟩
    · rw [h]
      exact ensured env ctx
    · rw [h]
      exact (ensured env ctx).created _ _ _ _ _ _ _ _ _
  | restore env ctx =>
    obtain rfl := Option.some.inj ran
    rcases restoreSubscriptionRenewal_cases env ctx a with ⟨r, h, -⟩ | ⟨e, h⟩ | ⟨r, h, -⟩
    · rw [after_of_ok h]
      exact ensured env ctx
    · rw [after_of_error h]
      exact ensured env ctx
    · rw [after_of_ok h]
      exact (ensured env ctx).restored env.now
  | deleteAccess env ctx =>
    obtain rfl := Option.some.inj ran
    rcases deleteServiceAccess_cases env ctx a with h | ⟨cancellation, -, h⟩
    · rw [h]
      exact ensured env ctx
    · rw [h]
      exact (ensured env ctx).deactivated cancellation.id env.now
  | sync env sub =>
    obtain rfl := Option.some.inj ran
    exact (rowInvariant_noticesKept a).synced (fun _ h => h) (fun _ id t h => h.deactivated id t) env sub start
  | lifecycle env => exact (lifecycleInvariant_noticesKept a).lifecycle env start b ran

/-- Once on record, a notice stays so as long as the tenant is there. -/
theorem recorded_step {id : Nat} {notice : Notice} {s : Option Account} (op : Op) (h : recorded id notice s = true) :
    step s op = none ∨ recorded id notice (step s op) = true := by
  obtain ⟨a, rfl, found⟩ := (Option.any_eq_true _ _).mp h
  obtain ⟨r, mem, hit⟩ := List.any_eq_true.mp found
  simp only [Bool.and_eq_true, decide_eq_true_eq] at hit
  obtain ⟨same, sent⟩ := hit
  obtain ⟨t, stamp⟩ := Option.isSome_iff_exists.mp sent
  cases ran : step (some a) op with
  | none => exact .inl rfl
  | some b =>
    obtain ⟨r', mem', ids, stamps⟩ := step_noticesKept ran r mem
    refine .inr ((Option.any_eq_true _ _).mpr ⟨b, rfl, List.any_eq_true.mpr ⟨r', mem', ?_⟩⟩)
    simp [ids.trans same, stamps notice t stamp]

/-- After the notice was recorded, or the tenant deleted, nothing more is recorded. -/
theorem total_records_of_done {id : Nat} {notice : Notice} {s : Option Account} (later : List Op)
    (done : s = none ∨ recorded id notice s = true) : total step (records id notice) s later = 0 := by
  induction later generalizing s with
  | nil => rfl
  | cons op later ih =>
    have next : step s op = none ∨ recorded id notice (step s op) = true := by
      rcases done with rfl | on
      · exact .inl rfl
      · exact recorded_step op on
    have silent : records id notice s op = 0 := by
      rcases done with rfl | on
      · rfl
      · simp [records, on]
    rw [total_cons, silent, ih next, add_zero]

theorem total_records (id : Nat) (notice : Notice) (s : Option Account) (history : List Op) :
    total step (records id notice) s history ≤ 1 := by
  induction history generalizing s with
  | nil => exact Int.zero_le_ofNat 1
  | cons op history ih =>
    rw [total_cons]
    by_cases now : recorded id notice s = false ∧ recorded id notice (step s op) = true
    · rw [records, if_pos now, total_records_of_done history (.inr now.2), add_zero]
    · rw [records, if_neg now, zero_add]
      exact ih (step s op)

/-! ### Drops -/

/-- The rows of a pass were read before it. -/
theorem dropsLate (s : Option Account) (op : Op) : DropsLate s op := by
  unfold DropsLate
  split
  · next a env =>
    intro slug live mem
    let ok : LifecycleCall → Prop
      | .dropTenantSchema slug _ =>
        ∃ r ∈ a.cancellations, r.schemaName = slug ∧ ∃ d, r.deactivatedAt = some d ∧ dateOf d + 7 ≤ env.today
      | _ => True
    have all : (processCancellationLifecycle env a).Calls ok := by
      refine lifecycle_calls ok env _ trivial (fun _ none => nomatch none) fun row listed d deactivated past live _ => ?_
      obtain ⟨stored, -⟩ := Account.mem_listCancellationRequestsForLifecycle.mp listed
      exact ⟨⟨row, stored, rfl, d, deactivated, past⟩, trivial⟩
    exact all _ mem
  · trivial

/-- In every run, a schema is dropped no earlier than seven days after a deactivation that was on record before the call,
and each notice of a request is recorded at most once; what is on record stays. -/
theorem deletion_delayed (start : Account) (history : List Op) :
    Always step DropsLate (some start) history ∧
    (∀ id notice, total step (records id notice) (some start) history ≤ 1) ∧
    Always step KeepsNotices (some start) history := by
  refine ⟨.of_forall fun op _ s => dropsLate s op, fun id notice => total_records id notice _ history,
    .of_forall fun op _ s a b now ran => ?_⟩
  subst now
  exact step_noticesKept ran

/-- Access withdrawn on day 20001 by a tenant that has just cancelled. -/
def withdrawn : Option Account :=
  let acme := Account.created "acme" "Acme" (midnight 20000)
  let env := Env.seeded (midnight 20001)
  final step (some acme) [.cancel env acme.snapshot "other" "" none, .deleteAccess env acme.snapshot]

example : (withdrawn.map fun a => [20007, 20008].map fun day =>
    (processCancellationLifecycle (Env.seeded (midnight day)) a).log.calls) =
      some [[], [.dropTenantSchema "acme" false, .hardDeleteTenant false]] := by decide +kernel

end NyzRating.Billing.Deletion
