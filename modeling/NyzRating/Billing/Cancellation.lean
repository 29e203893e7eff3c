import NyzRating.Billing.Subscription

/-!
# Cancellation, restored renewal, withdrawn access, and the daily lifecycle of requests
-/

namespace NyzRating.Billing

open Calendar Program

inductive CancellationResponseStatus where
  | deactivationRequested
  | alreadyActive
  | renewalRestored
  | blockedActiveKnowledgeBases
  | deactivated
  | alreadyDeactivated
  deriving DecidableEq, Repr

structure CancellationResponse where
  status : CancellationResponseStatus
  message : String
  activeKbCount : Int
  cancellationRequestId : Option Nat := none
  currentPeriodEnd : Int
  deriving DecidableEq, Repr

def cancellationReasons : List String :=
  ["too_expensive", "not_using", "not_satisfied", "missing_features", "other"]

/-- A pending request does not stop another one from being recorded. -/
def cancelSubscription (env : Env) (ctx : TenantContext) (reasonCode reasonText : String)
    (requestedByUserId : Option Nat) : AccountM CancellationResponse := do
  let sub ← modifyGet (ensureSubscription env ctx)
  let a ← get
  let activeKbCount := a.resources.knowledgeBases
  let paidUntil := subscriptionDueDate sub a
  let reason := Text.stripLower reasonCode
  if reason ∉ cancellationReasons then throw (.valueError "Érvénytelen lemondási ok.")
  let row ← modifyGet (Account.createCancellationRequest env.utcnow ctx.slug requestedByUserId reason
    (String.ofList ((Text.strip reasonText.toList).take 2000)) activeKbCount .deactivationRequested
    (some (midnight (paidUntil + 1))) none)
  return {
    status := .deactivationRequested
    message := "A lemondási kérelmet rögzítettük. Leállítjuk az automatikus megújítást, új számlázás már nem indul."
    activeKbCount, cancellationRequestId := some row.id, currentPeriodEnd := paidUntil }

def restoreSubscriptionRenewal (env : Env) (ctx : TenantContext) : AccountM CancellationResponse := do
  let sub ← modifyGet (ensureSubscription env ctx)
  let a ← get
  let paidUntil := subscriptionDueDate sub a
  let alreadyActive : CancellationResponse :=
    { status := .alreadyActive, message := "Az automatikus számlázás már aktív."
      activeKbCount := 0, currentPeriodEnd := paidUntil }
  match a.getLatestCancellationRequest with
  | none => return alreadyActive
  | some cancellation =>
    if cancellation.status ≠ .deactivationRequested then return alreadyActive
    if cancellation.deactivatedAt.isSome then
      throw (.valueError "A szolgáltatás hozzáférése már le van tiltva, nem állítható vissza innen.")
    let restored ← modifyGet (Account.restoreLatestCancellationRequest env.now)
    if !restored then return alreadyActive
    return {
      status := .renewalRestored, message := "Az automatikus számlázást visszaállítottuk."
      activeKbCount := 0, cancellationRequestId := some cancellation.id, currentPeriodEnd := paidUntil }

def deleteServiceAccess (env : Env) (ctx : TenantContext) : AccountM CancellationResponse := do
  let sub ← modifyGet (ensureSubscription env ctx)
  let a ← get
  let activeKbCount := a.resources.knowledgeBases
  let paidUntil := subscriptionDueDate sub a
  if activeKbCount > 0 then
    return {
      status := .blockedActiveKnowledgeBases
      message := "A szolgáltatás törlése előtt törölnöd kell az összes aktív tudástárat."
      activeKbCount, currentPeriodEnd := paidUntil }
  let missing : BillingError :=
    .valueError "A szolgáltatás törlése előtt rögzítsd az automatikus megújítás lemondását."
  match a.getLatestCancellationRequest with
  | none => throw missing
  | some cancellation =>
    if cancellation.status ≠ .deactivationRequested then throw missing
    if cancellation.deactivatedAt.isNone then
      modify (fun a => (a.deactivate.markCancellationDeactivated cancellation.id env.now).2)
      return {
        status := .deactivated, message := "A szolgáltatás hozzáférését azonnal letiltottuk."
        activeKbCount := 0, cancellationRequestId := some cancellation.id, currentPeriodEnd := paidUntil }
    return {
      status := .alreadyDeactivated, message := "A szolgáltatás hozzáférése már le van tiltva."
      activeKbCount := 0, cancellationRequestId := some cancellation.id, currentPeriodEnd := paidUntil }

/-! ### What the three operations do -/

section
variable (env : Env) (ctx : TenantContext) (a : Account)

/-- Cancelling either only made sure that there is a subscription, or added one open request. -/
theorem cancelSubscription_cases (reasonCode reasonText : String) (requestedByUserId : Option Nat) :
    after (cancelSubscription env ctx reasonCode reasonText requestedByUserId) a = (ensureSubscription env ctx a).2 ∨
    ∃ code text kbs effectiveAt,
      after (cancelSubscription env ctx reasonCode reasonText requestedByUserId) a =
        ((ensureSubscription env ctx a).2.createCancellationRequest env.utcnow ctx.slug requestedByUserId code text kbs
          .deactivationRequested (some effectiveAt) none).2 := by
  simp only [after, cancelSubscription, EStateM.run_bind, EStateM.run_modifyGet, EStateM.run_get, run_ite]
  split
  · exact .inl rfl
  · exact .inr ⟨_, _, _, _, rfl⟩

/-- Restoring the renewal changed a request only if it closed the newest pending one; this is what
    `renewal_restored` reports. -/
theorem restoreSubscriptionRenewal_cases :
    let b := (ensureSubscription env ctx a).2
    (∃ r, (restoreSubscriptionRenewal env ctx).run a = .ok r b ∧ r.status = .alreadyActive) ∨
    (∃ e, (restoreSubscriptionRenewal env ctx).run a = .error e b) ∨
    (∃ r, (restoreSubscriptionRenewal env ctx).run a = .ok r (b.restoreLatestCancellationRequest env.now).2 ∧
      (r.status = .renewalRestored → (b.restoreLatestCancellationRequest env.now).1 = true)) := by
  intro b
  simp only [restoreSubscriptionRenewal, EStateM.run_bind, EStateM.run_modifyGet, EStateM.run_get]
  cases h : (ensureSubscription env ctx a).2.getLatestCancellationRequest with
  | none => exact .inl ⟨_, rfl, rfl⟩
  | some cancellation =>
    simp only [run_ite, EStateM.run_bind, EStateM.run_modifyGet]
    split
    · exact .inl ⟨_, rfl, rfl⟩
    · split
      · exact .inr (.inl ⟨_, rfl⟩)
      · refine .inr (.inr ?_)
        split
        · exact ⟨_, rfl, fun hs => nomatch hs⟩
        · next restored => exact ⟨_, rfl, fun _ => by simpa using restored⟩

/-- Withdrawing access changed the tenant only if it deactivated it and marked its latest request. -/
theorem deleteServiceAccess_cases :
    let b := (ensureSubscription env ctx a).2
    after (deleteServiceAccess env ctx) a = b ∨
    ∃ cancellation, b.getLatestCancellationRequest = some cancellation ∧
      after (deleteServiceAccess env ctx) a = (b.deactivate.markCancellationDeactivated cancellation.id env.now).2 := by
  intro b
  simp only [after, deleteServiceAccess, EStateM.run_bind, EStateM.run_modifyGet, EStateM.run_get, run_ite]
  split
  · exact .inl rfl
  · cases h : (ensureSubscription env ctx a).2.getLatestCancellationRequest with
    | none => exact .inl rfl
    | some cancellation =>
      simp only [run_ite, EStateM.run_bind, EStateM.run_modify]
      split
      · exact .inl rfl
      · split
        · exact .inr ⟨cancellation, rfl, rfl⟩
        · exact .inl rfl

end

/-! ### The lifecycle -/

/-- What the lifecycle does to a tenant. `live` is the `is_active` flag of the tenant at that moment. -/
inductive LifecycleCall where
  | deactivate
  | dropTenantSchema (slug : String) (live : Bool)
  | hardDeleteTenant (live : Bool)
  deriving DecidableEq, Repr

/-- The metrics the lifecycle returns, and the calls it made. -/
structure LifecycleLog where
  emailsSent : Nat := 0
  deactivated : Nat := 0
  deleted : Nat := 0
  calls : List LifecycleCall := []
  deriving DecidableEq, Repr

/-- The account of a tenant and what happened to it so far; `none` once the tenant row is deleted. -/
structure LifecycleState where
  account : Option Account
  log : LifecycleLog := {}
  deriving DecidableEq, Repr

namespace LifecycleState

/-- The flag of the tenant row; a deleted tenant has none. -/
def live (s : LifecycleState) : Bool := s.account.any (·.tenant.isActive)

def call (c : LifecycleCall) (s : LifecycleState) : LifecycleState :=
  { s with log := { s.log with calls := s.log.calls ++ [c] } }

/-- One `UPDATE` on the requests; `count` is applied to the metrics when a row was changed. -/
def mark (update : Account → Bool × Account) (count : LifecycleLog → LifecycleLog) (s : LifecycleState) :
    LifecycleState :=
  match s.account with
  | none => s
  | some a =>
    let (changed, a) := update a
    { account := some a, log := if changed then count s.log else s.log }

/-- Sends a mail to the owner, and marks the notice as sent when it was accepted. -/
def notify (env : Env) (subject : String) (update : Account → Bool × Account) (s : LifecycleState) : LifecycleState :=
  match s.account.bind (·.resources.ownerEmail) with
  | none => s
  | some owner =>
    if env.sendEmail owner subject then s.mark update (fun l => { l with emailsSent := l.emailsSent + 1 }) else s

end LifecycleState

/-- The mails of a request: two days and one day before it takes effect. -/
def lifecycleNotices (env : Env) (row : CancellationRequest) (effectiveAt : Int) (s : LifecycleState) : LifecycleState :=
  let daysUntil := dateOf effectiveAt - env.today
  let s :=
    if daysUntil = 2 ∧ row.noticeTwoDaysSentAt = none then
      s.notify env "Előfizetés lejárat értesítő" (Account.markCancellationNoticeTwoDaysSent row.id env.now)
    else s
  if daysUntil = 1 ∧ row.noticeOneDaySentAt = none then
    s.notify env "Előfizetés lejárat értesítő" (Account.markCancellationNoticeOneDaySent row.id env.now)
  else s

/-- Seven days after it took effect, the tenant of a request is deactivated. -/
def lifecycleDeactivate (env : Env) (row : CancellationRequest) (s : LifecycleState) : LifecycleState :=
  if row.deactivatedAt = none ∧ row.deactivationDue env.today then
    (({ s with account := s.account.map Account.deactivate } : LifecycleState).call .deactivate).mark
      (Account.markCancellationDeactivated row.id env.now) (fun l => { l with deactivated := l.deactivated + 1 })
  else s

def lifecycleExpiredNotice (env : Env) (row : CancellationRequest) (effectiveAt : Int) (s : LifecycleState) :
    LifecycleState :=
  if effectiveAt ≤ env.now ∧ row.noticeExpiredSentAt = none then
    s.notify env "Előfizetés lejárt" (Account.markCancellationNoticeExpiredSent row.id env.now)
  else s

/-- Deletes the tenant row with everything that refers to it. -/
def lifecycleHardDelete (s : LifecycleState) : LifecycleState :=
  let t := s.call (.hardDeleteTenant s.live)
  match s.account with
  | none => t
  | some _ => { account := none, log := { t.log with deleted := t.log.deleted + 1 } }

/-- Seven days after the deactivation that the request records, schema and tenant are deleted. A schema that
    cannot be dropped leaves the tenant in place. -/
def lifecycleCleanup (env : Env) (row : CancellationRequest) (s : LifecycleState) : LifecycleState :=
  match row.deactivatedAt with
  | none => s
  | some deactivatedAt =>
    if env.today < dateOf deactivatedAt + 7 then s
    else
      let slug := String.ofList (Text.strip row.tenantSlug.toList)
      if env.engine ∧ slug ≠ "" then
        let t := s.call (.dropTenantSchema slug s.live)
        if env.dropSchema slug then lifecycleHardDelete t else t
      else lifecycleHardDelete s

/-- One row of the walk. `row` is the request as it was read before the walk began. -/
def lifecycleRow (env : Env) (s : LifecycleState) (row : CancellationRequest) : LifecycleState :=
  match row.effectiveAt with
  | none => s
  | some effectiveAt =>
    lifecycleCleanup env row
      (lifecycleExpiredNotice env row effectiveAt
        (lifecycleDeactivate env row
          (lifecycleNotices env row effectiveAt s)))

/-- `process_cancellation_lifecycle`, for the requests of one tenant. -/
def processCancellationLifecycle (env : Env) (a : Account) : LifecycleState :=
  a.listCancellationRequestsForLifecycle.foldl (lifecycleRow env) { account := some a }

/-! ### What the lifecycle keeps -/

/-- `b` has the requests of `a`: of each, only the stamps of its notices and of its deactivation may differ. -/
structure RequestsKept (a b : Account) : Prop where
  rows : ∃ f : CancellationRequest → CancellationRequest, b.cancellations = a.cancellations.map f ∧
    ∀ r, (f r).id = r.id ∧ (f r).status = r.status ∧ (f r).effectiveAt = r.effectiveAt ∧
      (f r).cleanupCompletedAt = r.cleanupCompletedAt
  next : b.nextCancellationId = a.nextCancellationId

theorem RequestsKept.refl (a : Account) : RequestsKept a a := ⟨⟨id, by simp⟩, rfl⟩

theorem RequestsKept.trans {a b c : Account} (h : RequestsKept a b) (h' : RequestsKept b c) : RequestsKept a c := by
  obtain ⟨⟨f, hf, hfk⟩, hn⟩ := h
  obtain ⟨⟨g, hg, hgk⟩, hn'⟩ := h'
  refine ⟨⟨g ∘ f, by rw [hg, hf, List.map_map], fun r => ?_⟩, hn'.trans hn⟩
  obtain ⟨h1, h2, h3, h4⟩ := hfk r
  obtain ⟨k1, k2, k3, k4⟩ := hgk (f r)
  exact ⟨k1.trans h1, k2.trans h2, k3.trans h3, k4.trans h4⟩

/-- An update that sets a stamp only. -/
theorem RequestsKept.update {id : Nat} {guard : CancellationRequest → Bool}
    {set : CancellationRequest → CancellationRequest} (a : Account)
    (h : ∀ r, (set r).id = r.id ∧ (set r).status = r.status ∧ (set r).effectiveAt = r.effectiveAt ∧
      (set r).cleanupCompletedAt = r.cleanupCompletedAt) :
    RequestsKept a (Account.updateRequest id guard set a).2 := by
  refine ⟨⟨_, rfl, fun r => ?_⟩, rfl⟩
  split
  · exact h r
  · exact ⟨rfl, rfl, rfl, rfl⟩

theorem markCancellationNoticeTwoDaysSent_kept (id : Nat) (t : Int) (a : Account) :
    RequestsKept a (a.markCancellationNoticeTwoDaysSent id t).2 := .update a fun _ => ⟨rfl, rfl, rfl, rfl⟩

theorem markCancellationNoticeOneDaySent_kept (id : Nat) (t : Int) (a : Account) :
    RequestsKept a (a.markCancellationNoticeOneDaySent id t).2 := .update a fun _ => ⟨rfl, rfl, rfl, rfl⟩

theorem markCancellationNoticeExpiredSent_kept (id : Nat) (t : Int) (a : Account) :
    RequestsKept a (a.markCancellationNoticeExpiredSent id t).2 := .update a fun _ => ⟨rfl, rfl, rfl, rfl⟩

theorem markCancellationDeactivated_kept (id : Nat) (t : Int) (a : Account) :
    RequestsKept a (a.markCancellationDeactivated id t).2 := .update a fun _ => ⟨rfl, rfl, rfl, rfl⟩

/-- `t` follows `s` in a walk: the calls made stay, a deleted tenant stays deleted, and the requests are kept. -/
structure LifecycleState.Kept (s t : LifecycleState) : Prop where
  calls : s.log.calls <+: t.log.calls
  rows : ∀ b, t.account = some b → ∃ a, s.account = some a ∧ RequestsKept a b

namespace LifecycleState

theorem Kept.refl (s : LifecycleState) : Kept s s := ⟨List.prefix_rfl, fun b hb => ⟨b, hb, .refl b⟩⟩

theorem Kept.trans {s t u : LifecycleState} (h : Kept s t) (h' : Kept t u) : Kept s u := by
  refine ⟨h.calls.trans h'.calls, fun c hc => ?_⟩
  obtain ⟨b, hb, hbc⟩ := h'.rows c hc
  obtain ⟨a, ha, hab⟩ := h.rows b hb
  exact ⟨a, ha, hab.trans hbc⟩

theorem call_kept (c : LifecycleCall) (s : LifecycleState) : Kept s (s.call c) :=
  ⟨List.prefix_append _ _, fun b hb => ⟨b, hb, .refl b⟩⟩

theorem mark_calls {update : Account → Bool × Account} {count : LifecycleLog → LifecycleLog} (s : LifecycleState)
    (hc : ∀ l, (count l).calls = l.calls) : (s.mark update count).log.calls = s.log.calls := by
  unfold mark
  split
  · rfl
  · simp only
    split
    · exact hc s.log
    · rfl

theorem notify_calls (env : Env) (subject : String) (update : Account → Bool × Account) (s : LifecycleState) :
    (s.notify env subject update).log.calls = s.log.calls := by
  unfold notify
  split
  · rfl
  · split
    · exact mark_calls s fun _ => rfl
    · rfl

theorem mark_kept {update : Account → Bool × Account} {count : LifecycleLog → LifecycleLog} (s : LifecycleState)
    (hu : ∀ a, RequestsKept a (update a).2) (hc : ∀ l, (count l).calls = l.calls) : Kept s (s.mark update count) := by
  refine ⟨mark_calls s hc ▸ List.prefix_rfl, fun b hb => ?_⟩
  unfold mark at hb
  cases h : s.account with
  | none => simp [h] at hb
  | some a =>
    rw [h] at hb
    cases hb
    exact ⟨a, rfl, hu a⟩

theorem Kept.ite {s t : LifecycleState} {c : Prop} [Decidable c] (h : Kept s t) : Kept s (if c then t else s) := by
  split
  · exact h
  · exact .refl s

theorem notify_kept {update : Account → Bool × Account} (env : Env) (subject : String) (s : LifecycleState)
    (hu : ∀ a, RequestsKept a (update a).2) : Kept s (s.notify env subject update) := by
  unfold notify
  split
  · exact .refl s
  · split
    · exact mark_kept s hu fun _ => rfl
    · exact .refl s

end LifecycleState

open LifecycleState

section
variable (env : Env) (row : CancellationRequest) (s : LifecycleState)

theorem lifecycleNotices_kept (effectiveAt : Int) : s.Kept (lifecycleNotices env row effectiveAt s) :=
  (Kept.ite (notify_kept env _ s (markCancellationNoticeTwoDaysSent_kept _ _))).trans
    (Kept.ite (notify_kept env _ _ (markCancellationNoticeOneDaySent_kept _ _)))

theorem lifecycleDeactivate_kept : s.Kept (lifecycleDeactivate env row s) := by
  refine Kept.ite (Kept.trans ⟨List.prefix_append _ _, fun b hb => ?_⟩
    (mark_kept _ (markCancellationDeactivated_kept _ _) fun _ => rfl))
  obtain ⟨a, ha, rfl⟩ := Option.map_eq_some_iff.mp hb
  exact ⟨a, ha, ⟨id, by simp [Account.deactivate]⟩, rfl⟩

theorem lifecycleExpiredNotice_kept (effectiveAt : Int) : s.Kept (lifecycleExpiredNotice env row effectiveAt s) :=
  Kept.ite (notify_kept env _ s (markCancellationNoticeExpiredSent_kept _ _))

theorem lifecycleHardDelete_kept : s.Kept (lifecycleHardDelete s) := by
  unfold lifecycleHardDelete
  cases h : s.account with
  | none => exact call_kept _ s
  | some a => exact ⟨List.prefix_append _ _, fun b hb => nomatch hb⟩

theorem lifecycleCleanup_kept : s.Kept (lifecycleCleanup env row s) := by
  unfold lifecycleCleanup
  split
  · exact .refl s
  · split
    · exact .refl s
    · simp only
      split
      · split
        · exact (call_kept _ s).trans (lifecycleHardDelete_kept _)
        · exact call_kept _ s
      · exact lifecycleHardDelete_kept s

theorem lifecycleRow_kept : s.Kept (lifecycleRow env s row) := by
  unfold lifecycleRow
  split
  · exact .refl s
  · exact (lifecycleNotices_kept ..).trans ((lifecycleDeactivate_kept ..).trans
      ((lifecycleExpiredNotice_kept ..).trans (lifecycleCleanup_kept ..)))

theorem lifecycle_kept (rows : List CancellationRequest) : s.Kept (rows.foldl (lifecycleRow env) s) := by
  induction rows generalizing s with
  | nil => exact .refl s
  | cons row rows ih => exact (lifecycleRow_kept env row s).trans (ih _)

end

/-- What every write of the lifecycle to an account preserves. -/
structure LifecycleInvariant (P : Account → Prop) : Prop where
  twoDays : ∀ a id t, P a → P (Account.markCancellationNoticeTwoDaysSent id t a).2
  oneDay : ∀ a id t, P a → P (Account.markCancellationNoticeOneDaySent id t a).2
  expired : ∀ a id t, P a → P (Account.markCancellationNoticeExpiredSent id t a).2
  withdrawn : ∀ a id t, P a → P (a.deactivate.markCancellationDeactivated id t).2

/-- `P` holds of the account, if the tenant is not deleted. -/
def LifecycleState.Holds (P : Account → Prop) (s : LifecycleState) : Prop := ∀ a ∈ s.account, P a

namespace LifecycleInvariant

variable {P : Account → Prop} {s : LifecycleState} (env : Env) (row : CancellationRequest)

theorem mark {update : Account → Bool × Account} {count : LifecycleLog → LifecycleLog} (hu : ∀ a, P a → P (update a).2)
    (h : s.Holds P) : (s.mark update count).Holds P := by
  unfold LifecycleState.mark
  cases hs : s.account with
  | none => exact h
  | some a =>
    rintro b ⟨⟩
    exact hu a (h a hs)

theorem notify {update : Account → Bool × Account} (subject : String) (hu : ∀ a, P a → P (update a).2) (h : s.Holds P) :
    (s.notify env subject update).Holds P := by
  unfold LifecycleState.notify
  split
  · exact h
  · split
    · exact mark hu h
    · exact h

theorem ite {t : LifecycleState} {c : Prop} [Decidable c] (h : s.Holds P) (ht : t.Holds P) :
    (if c then t else s).Holds P := by
  split
  · exact ht
  · exact h

theorem notices (hP : LifecycleInvariant P) (effectiveAt : Int) (h : s.Holds P) :
    (lifecycleNotices env row effectiveAt s).Holds P := by
  simp only [lifecycleNotices]
  refine ite ?_ (notify env _ (hP.oneDay · row.id env.now) ?_)
  · exact ite h (notify env _ (hP.twoDays · row.id env.now) h)
  · exact ite h (notify env _ (hP.twoDays · row.id env.now) h)

theorem deactivate (hP : LifecycleInvariant P) (h : s.Holds P) : (lifecycleDeactivate env row s).Holds P := by
  unfold lifecycleDeactivate
  refine ite h ?_
  unfold LifecycleState.mark LifecycleState.call
  cases hs : s.account with
  | none => simp [LifecycleState.Holds]
  | some a =>
    rintro b ⟨⟩
    exact hP.withdrawn a row.id env.now (h a hs)

theorem expiredNotice (hP : LifecycleInvariant P) (effectiveAt : Int) (h : s.Holds P) :
    (lifecycleExpiredNotice env row effectiveAt s).Holds P :=
  ite h (notify env _ (hP.expired · row.id env.now) h)

theorem hardDelete (h : s.Holds P) : (lifecycleHardDelete s).Holds P := by
  unfold lifecycleHardDelete
  split
  · exact h
  · exact fun _ ha => nomatch ha

theorem cleanup (h : s.Holds P) : (lifecycleCleanup env row s).Holds P := by
  unfold lifecycleCleanup
  split
  · exact h
  · split
    · exact h
    · simp only
      split
      · split
        · exact hardDelete h
        · exact h
      · exact hardDelete h

/-- Such a property holds after a row of the walk if it did before. -/
theorem step (hP : LifecycleInvariant P) (h : s.Holds P) : (lifecycleRow env s row).Holds P := by
  unfold lifecycleRow
  split
  · exact h
  · exact cleanup env row (hP.expiredNotice env row _ (hP.deactivate env row (hP.notices env row _ h)))

theorem walk (hP : LifecycleInvariant P) (rows : List CancellationRequest) (h : s.Holds P) :
    (rows.foldl (lifecycleRow env) s).Holds P := by
  induction rows generalizing s with
  | nil => exact h
  | cons row rows ih => exact ih (hP.step env row h)

/-- After the lifecycle, the account has what its writes preserve. -/
theorem lifecycle (hP : LifecycleInvariant P) {a : Account} (h : P a) :
    ∀ b ∈ (processCancellationLifecycle env a).account, P b :=
  hP.walk env _ (by rintro _ ⟨⟩; exact h)

end LifecycleInvariant

/-! ### The calls of the lifecycle -/

/-- The tenant was active when its schema or its row was deleted. -/
def LifecycleCall.hitsLive : LifecycleCall → Bool
  | .deactivate => false
  | .dropTenantSchema _ live | .hardDeleteTenant live => live

/-- The flag of the tenant is off, or the tenant is deleted. -/
def LifecycleState.Dead (s : LifecycleState) : Prop := s.Holds fun a => a.tenant.isActive = false

theorem LifecycleState.Dead.live {s : LifecycleState} (h : s.Dead) : s.live = false := by
  unfold LifecycleState.live
  cases hs : s.account with
  | none => rfl
  | some a => simpa using h a hs

/-- The lifecycle never switches a tenant on. -/
theorem lifecycleInvariant_inactive : LifecycleInvariant fun a => a.tenant.isActive = false :=
  ⟨fun _ _ _ h => h, fun _ _ _ h => h, fun _ _ _ h => h, fun _ _ _ _ => rfl⟩

/-- Every call so far is one of `ok`. -/
def LifecycleState.Calls (ok : LifecycleCall → Prop) (s : LifecycleState) : Prop := ∀ c ∈ s.log.calls, ok c

/-- The name that the lifecycle drops for a request. -/
def CancellationRequest.schemaName (r : CancellationRequest) : String := String.ofList (Text.strip r.tenantSlug.toList)

section
variable {ok : LifecycleCall → Prop} {s t : LifecycleState} (env : Env) (row : CancellationRequest)

theorem LifecycleState.Calls.of_calls (h : s.Calls ok) (hc : t.log.calls = s.log.calls) : t.Calls ok :=
  fun c hm => h c (hc ▸ hm)

theorem LifecycleState.Calls.call (h : s.Calls ok) {c : LifecycleCall} (hc : ok c) : (s.call c).Calls ok := by
  intro d hd
  rcases List.mem_append.mp hd with hd | hd
  · exact h d hd
  · rw [List.mem_singleton.mp hd]
    exact hc

theorem lifecycleNotices_calls (effectiveAt : Int) (h : s.Calls ok) : (lifecycleNotices env row effectiveAt s).Calls ok := by
  refine h.of_calls ?_
  simp only [lifecycleNotices]
  split <;> split <;> simp only [notify_calls]

theorem lifecycleDeactivate_calls (deactivate : ok .deactivate) (h : s.Calls ok) :
    (lifecycleDeactivate env row s).Calls ok := by
  unfold lifecycleDeactivate
  split
  · exact (Calls.call h deactivate).of_calls (mark_calls _ (by intro; rfl))
  · exact h

theorem lifecycleExpiredNotice_calls (effectiveAt : Int) (h : s.Calls ok) :
    (lifecycleExpiredNotice env row effectiveAt s).Calls ok := by
  refine h.of_calls ?_
  unfold lifecycleExpiredNotice
  split
  · exact notify_calls ..
  · rfl

theorem lifecycleHardDelete_calls (h : s.Calls ok) (delete : ok (.hardDeleteTenant s.live)) :
    (lifecycleHardDelete s).Calls ok := by
  have called : (s.call (.hardDeleteTenant s.live)).Calls ok := h.call delete
  unfold lifecycleHardDelete
  split
  · exact called
  · exact called

/-- A request whose deactivation was a week ago or more may have its schema dropped and its tenant deleted. -/
theorem lifecycleCleanup_calls (h : s.Calls ok)
    (made : ∀ d ∈ row.deactivatedAt, dateOf d + 7 ≤ env.today →
      ok (.dropTenantSchema row.schemaName s.live) ∧ ok (.hardDeleteTenant s.live)) :
    (lifecycleCleanup env row s).Calls ok := by
  unfold lifecycleCleanup
  split
  · exact h
  · next d hd =>
    split
    · exact h
    · next past =>
      obtain ⟨drop, delete⟩ := made d hd (by omega)
      have dropped : (s.call (.dropTenantSchema row.schemaName s.live)).Calls ok := h.call drop
      simp only
      split
      · split
        · exact lifecycleHardDelete_calls dropped delete
        · exact dropped
      · exact lifecycleHardDelete_calls h delete

/-- A walk hits a live tenant only if the tenant is live when it begins. -/
theorem lifecycleRow_calls (deactivate : ok .deactivate) (h : s.Calls ok)
    (made : ∀ d ∈ row.deactivatedAt, dateOf d + 7 ≤ env.today → ∀ live, (s.Dead → live = false) →
      ok (.dropTenantSchema row.schemaName live) ∧ ok (.hardDeleteTenant live)) : (lifecycleRow env s row).Calls ok := by
  unfold lifecycleRow
  split
  · exact h
  · next e _ =>
    refine lifecycleCleanup_calls env row (lifecycleExpiredNotice_calls env row e
      (lifecycleDeactivate_calls env row deactivate (lifecycleNotices_calls env row e h))) fun d hd past => made d hd past _ fun dead => ?_
    have inv := lifecycleInvariant_inactive
    exact LifecycleState.Dead.live (inv.expiredNotice env row e (inv.deactivate env row (inv.notices env row e dead)))

variable (ok) in
theorem lifecycle_calls (rows : List CancellationRequest) (deactivate : ok .deactivate) (h : s.Calls ok)
    (made : ∀ row ∈ rows, ∀ d ∈ row.deactivatedAt, dateOf d + 7 ≤ env.today → ∀ live, (s.Dead → live = false) →
      ok (.dropTenantSchema row.schemaName live) ∧ ok (.hardDeleteTenant live)) :
    (rows.foldl (lifecycleRow env) s).Calls ok := by
  induction rows generalizing s with
  | nil => exact h
  | cons row rows ih =>
    refine ih (lifecycleRow_calls env row deactivate h (made row List.mem_cons_self)) fun r hr d hd past live hl => ?_
    exact made r (List.mem_cons_of_mem _ hr) d hd past live fun dead => hl (lifecycleInvariant_inactive.step env row dead)

end

/-- An open request whose deactivation day has come switches the tenant off. -/
theorem lifecycle_deactivates {a : Account} {row : CancellationRequest} (env : Env) (mem : row ∈ a.cancellations)
    (isOpen : Account.isOpen row) (untouched : row.deactivatedAt = none) (due : row.deactivationDue env.today = true) :
    (processCancellationLifecycle env a).Dead := by
  have off : ∀ s : LifecycleState, (lifecycleRow env s row).Dead := by
    intro s
    obtain ⟨e, he, -⟩ := (Option.any_eq_true _ _).mp due
    have withdrawn : ∀ t, (lifecycleDeactivate env row t).Dead := by
      intro t
      unfold lifecycleDeactivate
      rw [if_pos ⟨untouched, due⟩]
      refine LifecycleInvariant.mark (fun _ h => h) fun b hb => ?_
      obtain ⟨c, -, rfl⟩ := Option.map_eq_some_iff.mp hb
      rfl
    unfold lifecycleRow
    rw [he]
    exact LifecycleInvariant.cleanup env row (lifecycleInvariant_inactive.expiredNotice env row e (withdrawn _))
  have listed : row ∈ a.listCancellationRequestsForLifecycle :=
    Account.mem_listCancellationRequestsForLifecycle.mpr ⟨mem, isOpen⟩
  obtain ⟨before, behind, hsplit⟩ := List.append_of_mem listed
  rw [processCancellationLifecycle, hsplit, List.foldl_append, List.foldl_cons]
  exact lifecycleInvariant_inactive.walk env behind (off _)

/-- A walk over no request does nothing. -/
theorem processCancellationLifecycle_of_nil {env : Env} {a : Account}
    (h : a.listCancellationRequestsForLifecycle = []) : processCancellationLifecycle env a = { account := some a } := by
  rw [processCancellationLifecycle, h, List.foldl_nil]

/-- A row whose deactivation day has come, and whose seven days after a deactivation are over, is acted on. -/
theorem lifecycleRow_acts {env : Env} {row : CancellationRequest} (s : LifecycleState) (dated : row.effectiveAt.isSome)
    (due : row.deactivationDue env.today) (past : ∀ d ∈ row.deactivatedAt, dateOf d + 7 ≤ env.today) :
    (lifecycleRow env s row).log.calls ≠ [] := by
  obtain ⟨e, he⟩ := Option.isSome_iff_exists.mp dated
  simp only [lifecycleRow, he]
  cases hd : row.deactivatedAt with
  | none =>
    have made : (lifecycleDeactivate env row (lifecycleNotices env row e s)).log.calls ≠ [] := by
      unfold lifecycleDeactivate
      rw [if_pos ⟨hd, due⟩]
      refine (mark_kept _ (markCancellationDeactivated_kept _ _) (by intro; rfl)).calls.ne_nil ?_
      simp [LifecycleState.call]
    exact (((lifecycleExpiredNotice_kept ..).trans (lifecycleCleanup_kept ..)).calls).ne_nil made
  | some d =>
    unfold lifecycleCleanup
    have hlt : ¬env.today < dateOf d + 7 := by
      have := past d hd
      omega
    rw [hd]
    simp only [if_neg hlt]
    split
    · split
      · exact (lifecycleHardDelete_kept _).calls.ne_nil (by simp [LifecycleState.call])
      · simp [LifecycleState.call]
    · unfold lifecycleHardDelete
      split <;> simp [LifecycleState.call]

/-- An open request that is dated is acted on by some later run. -/
theorem lifecycle_acts {a : Account} {row : CancellationRequest} (env : Env) (mem : row ∈ a.cancellations)
    (isOpen : Account.isOpen row) (dated : row.effectiveAt.isSome) :
    ∃ now, (processCancellationLifecycle { env with now } a).log.calls ≠ [] := by
  obtain ⟨e, he⟩ := Option.isSome_iff_exists.mp dated
  let d := row.deactivatedAt.getD 0
  refine ⟨midnight (max (dateOf e) (dateOf d) + 7), ?_⟩
  have listed : row ∈ a.listCancellationRequestsForLifecycle := by
    simp [Account.listCancellationRequestsForLifecycle, mem, isOpen]
  obtain ⟨before, behind, hsplit⟩ := List.append_of_mem listed
  rw [processCancellationLifecycle, hsplit, List.foldl_append, List.foldl_cons]
  refine (lifecycle_kept _ _ behind).calls.ne_nil (lifecycleRow_acts _ dated ?_ fun d' hd' => ?_)
  · simp only [CancellationRequest.deactivationDue, he, Env.today, dateOf_midnight, Option.any_some, decide_eq_true_eq]
    omega
  · have same : d = d' := by simp [d, Option.mem_def.mp hd']
    simp only [Env.today, dateOf_midnight, ← same]
    omega

end NyzRating.Billing
