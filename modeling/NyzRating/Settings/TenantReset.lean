import NyzRating.Billing.Catalog
import NyzRating.Lib.Transaction
import NyzRating.Tenancy.Slug

/-!
# Tenant reset

A reset purges the public rows of a tenant, drops its schema, installs it again and puts the owner back. Each step
commits on its own; from the drop to the insert the owner exists in a variable of the call only.
-/

namespace NyzRating.Settings

open Billing Program Calendar Tenancy

/-- The purged tables that billing does not read. -/
inductive OtherTable where
  | trafficSmsSends | trafficQuestionEvents | trafficQuestionUsage
  | channelFeedbackEvents | channelUsageEvents | channelCredentials
  | billingPaymentEvents | billingTrainingUsage | tenantDomains | platformEventOutbox
  deriving DecidableEq, Repr

inductive PurgedTable where
  | trafficQuestionUsageTotals
  | billingInvoices
  | billingQuestionUsage
  | tenantCancellationRequests
  | billingSubscriptions
  | other (t : OtherTable)
  deriving DecidableEq, Repr

/-- The statements of a purge in their order; each deletes the tenant's rows of one table. -/
def purgeStatements : List PurgedTable := [
  .other .trafficSmsSends,
  .other .trafficQuestionEvents,
  .other .trafficQuestionUsage,
  .trafficQuestionUsageTotals,
  .other .channelFeedbackEvents,
  .other .channelUsageEvents,
  .other .channelCredentials,
  .other .billingPaymentEvents,
  .billingInvoices,
  .billingQuestionUsage,
  .other .billingTrainingUsage,
  .tenantCancellationRequests,
  .other .tenantDomains,
  .billingSubscriptions,
  .other .platformEventOutbox]

theorem mem_purgeStatements (t : PurgedTable) : t ∈ purgeStatements := by
  cases t with
  | other t => cases t <;> decide
  | _ => decide

structure UserRow where
  email : String
  passwordHash : String
  role : String
  deletedAt : Option Int := none
  deriving DecidableEq, Repr

structure AuthenticatorRow where
  secretBase32 : Option String
  isEnabled : Bool
  deriving DecidableEq, Repr

/-- The schema of a tenant: users by id, authenticators by the id of their user. -/
structure TenantSchema where
  migrations : List String := []
  users : Nat → Option UserRow := fun _ => none
  authenticators : Nat → Option AuthenticatorRow := fun _ => none

/-- What the database holds of a tenant, and the names that `drop_tenant_schema` was called with. -/
structure TenantStore where
  account : Account
  rows : OtherTable → List Nat := fun _ => []
  schema : Option TenantSchema
  dropCalls : List String := []

namespace TenantStore

variable (s : TenantStore)

def user? (id : Nat) : Option UserRow := s.schema.bind (·.users id)

def authenticator? (id : Nat) : Option AuthenticatorRow := s.schema.bind (·.authenticators id)

/-- The row of a user that is an owner and not deleted. -/
def owner? (id : Nat) : Option UserRow := (s.user? id).filter fun u => u.role = "owner" && u.deletedAt.isNone

end TenantStore

def AuthenticatorRow.secret? (x : AuthenticatorRow) : Option String := x.secretBase32.filter (· ≠ "")

def TenantStore.secret? (s : TenantStore) (id : Nat) : Option String := (s.authenticator? id).bind (·.secret?)

/-! ### The purge -/

/-- The number of the tenant's rows in a table. -/
def TenantStore.rowCount (s : TenantStore) : PurgedTable → Nat
  | .trafficQuestionUsageTotals => s.account.questionTotals.length
  | .billingInvoices => s.account.invoices.length
  | .billingQuestionUsage => s.account.questionUsage.length
  | .tenantCancellationRequests => s.account.cancellations.length
  | .billingSubscriptions => s.account.subscription.toList.length
  | .other t => (s.rows t).length

def deleteRows (t : PurgedTable) (s : TenantStore) : TenantStore :=
  match t with
  | .trafficQuestionUsageTotals => { s with account := { s.account with questionTotals := [] } }
  | .billingInvoices => { s with account := { s.account with invoices := [] } }
  | .billingQuestionUsage => { s with account := { s.account with questionUsage := [] } }
  | .tenantCancellationRequests => { s with account := { s.account with cancellations := [] } }
  | .billingSubscriptions => { s with account := { s.account with subscription := none } }
  | .other t => { s with rows := Function.update s.rows t [] }

theorem rowCount_deleteRows (t u : PurgedTable) (s : TenantStore) :
    (deleteRows t s).rowCount u = if u = t then 0 else s.rowCount u := by
  cases t <;> cases u <;> simp [deleteRows, TenantStore.rowCount, Function.update_apply]
  split <;> rfl

@[simp] theorem deleteRows_schema (t : PurgedTable) (s : TenantStore) : (deleteRows t s).schema = s.schema := by
  cases t <;> rfl

@[simp] theorem deleteRows_tenant (t : PurgedTable) (s : TenantStore) :
    (deleteRows t s).account.tenant = s.account.tenant := by
  cases t <;> rfl

@[simp] theorem deleteRows_dropCalls (t : PurgedTable) (s : TenantStore) : (deleteRows t s).dropCalls = s.dropCalls := by
  cases t <;> rfl

/-- Deletions of rows change what they delete only. -/
theorem rowCount_deleteAll (ts : List PurgedTable) (u : PurgedTable) (s : TenantStore) :
    (ts.foldl (fun s t => deleteRows t s) s).rowCount u = if u ∈ ts then 0 else s.rowCount u := by
  induction ts generalizing s with
  | nil => simp
  | cons t ts ih =>
    rw [List.foldl_cons, ih, rowCount_deleteRows]
    by_cases hu : u = t
    · simp [hu]
    · simp [hu]

/-! ### The reset -/

/-- The steps of a reset that can fail. The hooks of a schema are named by their revisions. -/
inductive ResetStep where
  | snapshot
  | lookup
  | statement (t : PurgedTable)
  | purgeCommit
  | dropSchema
  | migrationTable
  | appliedMigrations
  | install (revision : String)
  | record (revision : String)
  | restoreOwner
  | subscription
  | config
  | cache
  deriving DecidableEq, Repr

inductive ResetError where
  | valueError (message : String)
  | interrupted (step : ResetStep)
  deriving DecidableEq, Repr

abbrev ResetM := EStateM ResetError TenantStore

structure ResetRequest where
  env : Env
  tenantSlug : String
  confirmSlug : String
  ownerUserId : Nat
  demoTrialDays : Int := 7
  hooks : List String
  fault : ResetStep → Option Fault := fun _ => none

structure OwnerSnapshot where
  owner : UserRow
  authenticator : Option AuthenticatorRow
  deriving DecidableEq, Repr

namespace ResetRequest

variable (r : ResetRequest)

def attempt {α : Type} (step : ResetStep) (m : ResetM α) : ResetM α := Program.attempt (r.fault step) (.interrupted step) m

def normalizedSlug : String := Text.stripLower r.tenantSlug

def confirmed : Bool := r.normalizedSlug ≠ "" && Text.stripLower r.confirmSlug = r.normalizedSlug

def trialEndsAt : Int := r.env.now + days (max 1 r.demoTrialDays)

/-- The subscription after a reset. -/
def freshSubscription : SubscriptionData :=
  { planCode := "free", billingPeriod := .monthly, status := .trial
    trialStartedAt := some r.env.now, trialEndsAt := some r.trialEndsAt }

end ResetRequest

/-- `_snapshot_owner_auth`. An authenticator that is not enabled, or without a secret, is left out. -/
def snapshotOwnerAuth (r : ResetRequest) : ResetM OwnerSnapshot := do
  r.attempt .snapshot (pure ())
  let s ← get
  match s.owner? r.ownerUserId with
  | none => throw (.valueError "Csak a tenant tulajdonosa indíthat resetet.")
  | some owner =>
    return { owner, authenticator := (s.authenticator? r.ownerUserId).filter fun x => x.isEnabled && x.secret?.isSome }

/-- The store after the transaction of the purge, which swallows the errors of its statements. -/
def purged (r : ResetRequest) (s : TenantStore) : TenantStore :=
  ((Transaction.opened s).executeAll (fun t => (r.fault (.statement t)).isSome) deleteRows purgeStatements).commit s

/-- `_purge_public_tenant_data`. -/
def purgePublicTenantData (r : ResetRequest) : ResetM Unit := do
  r.attempt .lookup (pure ())
  r.attempt .purgeCommit (modify (purged r))

/-- `_safe_slug`. -/
def safeSlug (slug : String) : ResetM Unit :=
  if isSafeSlug slug then pure () else throw (.valueError ("Érvénytelen tenant slug: " ++ slug))

def dropTenantSchema (r : ResetRequest) : ResetM Unit := do
  modify fun s => { s with dropCalls := s.dropCalls ++ [r.normalizedSlug] }
  safeSlug r.normalizedSlug
  r.attempt .dropSchema (modify fun s => { s with schema := none })

/-- The hooks whose revision is not applied yet; each commits on its own. -/
def installHooks (r : ResetRequest) : (hooks applied : List String) → ResetM Unit
  | [], _ => pure ()
  | revision :: hooks, applied => do
    if revision ∈ applied then installHooks r hooks applied
    else
      r.attempt (.install revision) (pure ())
      r.attempt (.record revision) (modify fun s =>
        { s with schema := s.schema.map fun c => { c with migrations := c.migrations ++ [revision] } })
      installHooks r hooks (revision :: applied)

def upgradeTenantSchema (r : ResetRequest) : ResetM Unit := do
  r.attempt .migrationTable (modify fun s => { s with schema := some (s.schema.getD {}) })
  r.attempt .appliedMigrations (pure ())
  installHooks r r.hooks ((← get).schema.getD {}).migrations

/-- The owner's rows, inserted under their old ids. -/
def insertOwner (id : Nat) (snapshot : OwnerSnapshot) (s : TenantStore) : TenantStore :=
  { s with
    schema := s.schema.map fun c =>
      { c with
        users := Function.update c.users id (some snapshot.owner)
        authenticators :=
          match snapshot.authenticator with
          | none => c.authenticators
          | some x => Function.update c.authenticators id (some x) } }

def restoreOwner (r : ResetRequest) (snapshot : OwnerSnapshot) : ResetM Unit :=
  r.attempt .restoreOwner (modify (insertOwner r.ownerUserId snapshot))

def onAccount (f : Account → Account) : ResetM Unit := modify fun s => { s with account := f s.account }

/-- `_reset_billing_and_config`. -/
def resetBillingAndConfig (r : ResetRequest) : ResetM Unit := do
  r.attempt .subscription (onAccount fun a => (a.upsertSubscription r.env.utcnow r.freshSubscription).2)
  r.attempt .config (onAccount fun a =>
    { a with
      config := some
        { package := "free", limits := none
          featureFlags := { billingEnabled := true, demoMode := true, demoExpiresAt := some r.trialEndsAt } } })

/-- `reset_tenant`; it answers `reset` if it returns. -/
def resetTenant (r : ResetRequest) : ResetM Unit := do
  if !r.confirmed then throw (.valueError "A megerősítő slug nem egyezik a tenant azonosítóval.")
  let snapshot ← snapshotOwnerAuth r
  purgePublicTenantData r
  dropTenantSchema r
  upgradeTenantSchema r
  restoreOwner r snapshot
  resetBillingAndConfig r
  r.attempt .cache (pure ())

/-! ### What a reset keeps -/

/-- The row of the user and the secret of its authenticator are what they were. -/
def OwnerKept (id : Nat) (s t : TenantStore) : Prop :=
  ∀ u, s.user? id = some u → t.user? id = some u ∧ ∀ secret, s.secret? id = some secret → t.secret? id = some secret

/-- The tenant has no row in the purged tables but the subscription of the reset. -/
def Purged (r : ResetRequest) (t : TenantStore) : Prop :=
  (∀ table, table ≠ .billingSubscriptions → t.rowCount table = 0) ∧
    t.account.subscription.map (·.toSubscriptionData) = some r.freshSubscription

def answersReset (r : ResetRequest) (s : TenantStore) : Bool :=
  match (resetTenant r).run s with
  | .ok _ _ => true
  | .error _ _ => false

/-- The drop of the schema is committed. -/
structure Drops (r : ResetRequest) (s : TenantStore) : Prop where
  confirmed : r.confirmed = true
  snapshot : r.fault .snapshot = none
  owner : (s.owner? r.ownerUserId).isSome
  lookup : r.fault .lookup = none
  purgeCommit : r.fault .purgeCommit = none
  safe : isSafeSlug r.normalizedSlug = true
  dropSchema : r.fault .dropSchema ≠ some .before

/-- The revision is installed and recorded. -/
def HookRuns (r : ResetRequest) (revision : String) : Prop :=
  r.fault (.install revision) = none ∧ r.fault (.record revision) = none

/-- The installation of the schema raises nothing. -/
structure Installs (r : ResetRequest) : Prop where
  migrationTable : r.fault .migrationTable = none
  appliedMigrations : r.fault .appliedMigrations = none
  hooks : ∀ revision ∈ r.hooks, HookRuns r revision

/-- What follows on the drop puts the owner back. -/
structure Restores (r : ResetRequest) (s : TenantStore) : Prop where
  dropSchema : r.fault .dropSchema = none
  installs : Installs r
  restoreOwner : r.fault .restoreOwner ≠ some .before
  enabled : ∀ x, s.authenticator? r.ownerUserId = some x → x.secret?.isSome → x.isEnabled = true

/-- No step but statements of the purge raises. -/
structure Completes (r : ResetRequest) (s : TenantStore) : Prop where
  drops : Drops r s
  dropSchema : r.fault .dropSchema = none
  installs : Installs r
  restoreOwner : r.fault .restoreOwner = none
  subscription : r.fault .subscription = none
  config : r.fault .config = none
  cache : r.fault .cache = none

/-- No statement of the purge raises, or there is nothing to purge. -/
def PurgeRuns (r : ResetRequest) (s : TenantStore) : Prop :=
  (∀ table, r.fault (.statement table) = none) ∨ ∀ table, table ≠ .billingSubscriptions → s.rowCount table = 0

section
variable {r : ResetRequest} {s u : TenantStore}

theorem ResetRequest.attempt_returns {α : Type} (step : ResetStep) {m : ResetM α}
    {P E : TenantStore → Prop} {R : α → TenantStore → Prop} (hm : Returns P m R fun _ => False)
    (before : r.fault step = some .before → ∀ s, P s → E s) (after : r.fault step = some .after → ∀ a s, R a s → E s) :
    Returns P (r.attempt step m) (fun a t => r.fault step = none ∧ R a t) E := Returns.step hm before after

/-! ### The installation -/

/-- The schema has no rows. -/
def Fresh (t : TenantStore) : Prop := ∃ migrations, t.schema = some { migrations }

/-- Outside the schema the store is as it was. -/
def SameRows (u t : TenantStore) : Prop := t.account = u.account ∧ t.rows = u.rows

theorem installHooks_returns (hooks applied : List String) (happlied : ∀ revision ∈ applied, HookRuns r revision) :
    Returns (fun t => Fresh t ∧ SameRows u t) (installHooks r hooks applied)
      (fun _ t => (∀ revision ∈ hooks, HookRuns r revision) ∧ Fresh t ∧ SameRows u t)
      (fun t => (¬∀ revision ∈ hooks, HookRuns r revision) ∧ Fresh t) := by
  induction hooks generalizing applied with
  | nil => exact Returns.pure fun t ht => ⟨fun _ h => (nomatch h), ht⟩
  | cons revision hooks ih =>
    have rest : ∀ applied, (∀ revision ∈ applied, HookRuns r revision) → HookRuns r revision →
        Returns (fun t => Fresh t ∧ SameRows u t) (installHooks r hooks applied)
          (fun _ t => (∀ rev ∈ revision :: hooks, HookRuns r rev) ∧ Fresh t ∧ SameRows u t)
          (fun t => (¬∀ rev ∈ revision :: hooks, HookRuns r rev) ∧ Fresh t) := by
      intro applied happlied hr
      refine (ih applied happlied).mono (fun _ t h => ⟨List.forall_mem_cons.mpr ⟨hr, h.1⟩, h.2⟩) fun t h => ⟨?_, h.2⟩
      exact fun all => h.1 (List.forall_mem_cons.mp all).2
    have failed : ∀ t, Fresh t → ¬HookRuns r revision → (¬∀ rev ∈ revision :: hooks, HookRuns r rev) ∧ Fresh t :=
      fun t ht hr => ⟨fun h => hr (h revision List.mem_cons_self), ht⟩
    unfold installHooks
    refine Returns.ite (fun old => rest applied happlied (happlied revision old)) fun _ => ?_
    have installed : Returns (fun t => Fresh t ∧ SameRows u t) (r.attempt (.install revision) (pure ()))
        (fun _ t => r.fault (.install revision) = none ∧ Fresh t ∧ SameRows u t)
        (fun t => (¬∀ rev ∈ revision :: hooks, HookRuns r rev) ∧ Fresh t) := by
      refine r.attempt_returns _ (Returns.pure fun _ h => h) (fun hf t ht => ?_) (fun hf _ t ht => ?_)
      · exact failed t ht.1 fun h => nomatch hf.symm.trans h.1
      · exact failed t ht.1 fun h => nomatch hf.symm.trans h.1
    refine Returns.bind installed fun _ => Returns.given fun hi => ?_
    have recorded : Returns (fun t => Fresh t ∧ SameRows u t)
        (r.attempt (.record revision) (modify fun s =>
          { s with schema := s.schema.map fun c => { c with migrations := c.migrations ++ [revision] } }))
        (fun _ t => r.fault (.record revision) = none ∧ Fresh t ∧ SameRows u t)
        (fun t => (¬∀ rev ∈ revision :: hooks, HookRuns r rev) ∧ Fresh t) := by
      refine r.attempt_returns _ (R := fun _ t => Fresh t ∧ SameRows u t) (Returns.modify fun t ht => ?_) (fun hf t ht => ?_)
        (fun hf _ t ht => ?_)
      · obtain ⟨⟨migrations, hm⟩, hs⟩ := ht
        exact ⟨⟨migrations ++ [revision], by simp only [hm, Option.map_some]⟩, hs⟩
      · exact failed t ht.1 fun h => nomatch hf.symm.trans h.2
      · exact failed t ht.1 fun h => nomatch hf.symm.trans h.2
    refine Returns.bind recorded fun _ => Returns.given fun hrec => ?_
    exact rest (revision :: applied) (List.forall_mem_cons.mpr ⟨⟨hi, hrec⟩, happlied⟩) ⟨hi, hrec⟩

theorem upgradeTenantSchema_returns :
    Returns (fun t => t.schema = none ∧ SameRows u t) (upgradeTenantSchema r)
      (fun _ t => Installs r ∧ Fresh t ∧ SameRows u t) (fun t => ¬Installs r ∧ ∀ id, t.user? id = none) := by
  have fresh : ∀ t, Fresh t → ∀ id, t.user? id = none := by
    intro t ⟨migrations, hm⟩ id
    rw [TenantStore.user?, hm, Option.bind_some]
  have created : Returns (fun t => t.schema = none ∧ SameRows u t)
      (r.attempt .migrationTable (modify fun s => { s with schema := some (s.schema.getD {}) }))
      (fun _ t => r.fault .migrationTable = none ∧ t.schema = some {} ∧ SameRows u t)
      (fun t => ¬Installs r ∧ ∀ id, t.user? id = none) := by
    refine r.attempt_returns _ (R := fun _ t => t.schema = some {} ∧ SameRows u t) (Returns.modify fun t ht => ?_)
      (fun hf t ht => ?_) (fun hf _ t ht => ?_)
    · exact ⟨by rw [ht.1]; rfl, ht.2⟩
    · exact ⟨fun h => (nomatch hf.symm.trans h.migrationTable), fun id => by rw [TenantStore.user?, ht.1, Option.bind_none]⟩
    · exact ⟨fun h => (nomatch hf.symm.trans h.migrationTable), fresh t ⟨[], ht.1⟩⟩
  unfold upgradeTenantSchema
  refine Returns.bind created fun _ => Returns.given fun hm => ?_
  have listed : Returns (fun t => t.schema = some {} ∧ SameRows u t) (r.attempt .appliedMigrations (pure ()))
      (fun _ t => r.fault .appliedMigrations = none ∧ t.schema = some {} ∧ SameRows u t)
      (fun t => ¬Installs r ∧ ∀ id, t.user? id = none) := by
    refine r.attempt_returns _ (Returns.pure fun _ h => h) (fun hf t ht => ?_) (fun hf _ t ht => ?_)
    · exact ⟨fun h => (nomatch hf.symm.trans h.appliedMigrations), fresh t ⟨[], ht.1⟩⟩
    · exact ⟨fun h => (nomatch hf.symm.trans h.appliedMigrations), fresh t ⟨[], ht.1⟩⟩
  refine Returns.bind listed fun _ => Returns.given fun ha => ?_
  have read : Returns (fun t => t.schema = some {} ∧ SameRows u t) (get : ResetM TenantStore)
      (fun s t => s.schema = some {} ∧ t.schema = some {} ∧ SameRows u t)
      (fun t => ¬Installs r ∧ ∀ id, t.user? id = none) := Returns.get fun t ht => ⟨ht.1, ht⟩
  refine Returns.bind read fun t => Returns.given fun ht => ?_
  rw [ht]
  intro t' ht'
  have hooks := (installHooks_returns (u := u) (r := r) r.hooks [] fun _ h => nomatch h).mono
    (S := fun _ t => Installs r ∧ Fresh t ∧ SameRows u t) (F := fun t => ¬Installs r ∧ ∀ id, t.user? id = none)
    (fun _ t h => ⟨⟨hm, ha, h.1⟩, h.2⟩) fun t h => ⟨fun hi => h.1 hi.hooks, fresh t h.2⟩
  exact hooks t' ⟨⟨[], ht'.1⟩, ht'.2⟩

/-! ### The steps before the drop -/

theorem snapshotOwnerAuth_returns :
    Returns (· = s) (snapshotOwnerAuth r)
      (fun snapshot t => (r.fault .snapshot = none ∧ s.owner? r.ownerUserId = some snapshot.owner ∧
        snapshot.authenticator = (s.authenticator? r.ownerUserId).filter fun x => x.isEnabled && x.secret?.isSome) ∧ t = s)
      (fun t => ¬Drops r s ∧ t.schema = s.schema) := by
  have begun : Returns (· = s) (r.attempt .snapshot (pure ())) (fun _ t => r.fault .snapshot = none ∧ t = s)
      (fun t => ¬Drops r s ∧ t.schema = s.schema) := by
    refine r.attempt_returns _ (Returns.pure fun _ h => h) (fun hf t ht => ?_) (fun hf _ t ht => ?_)
    · exact ⟨fun h => (nomatch hf.symm.trans h.snapshot), congrArg _ ht⟩
    · exact ⟨fun h => (nomatch hf.symm.trans h.snapshot), congrArg _ ht⟩
  have read : Returns (· = s) (get : ResetM TenantStore) (fun a t => a = s ∧ t = s)
      (fun t => ¬Drops r s ∧ t.schema = s.schema) := Returns.get fun t ht => ⟨ht, ht⟩
  unfold snapshotOwnerAuth
  refine Returns.bind begun fun _ => Returns.given fun hf => ?_
  refine Returns.bind read fun a => Returns.given fun ha => ?_
  subst ha
  cases ho : a.owner? r.ownerUserId with
  | none =>
    refine Returns.throw fun t ht => ⟨fun h => ?_, congrArg _ ht⟩
    have owner := h.owner
    rw [ho] at owner
    cases owner
  | some owner => exact Returns.pure fun t ht => ⟨⟨hf, rfl, rfl⟩, ht⟩

theorem purged_eq (r : ResetRequest) (s : TenantStore) :
    purged r s = if purgeStatements.any fun t => (r.fault (.statement t)).isSome then s
      else purgeStatements.foldl (fun s t => deleteRows t s) s :=
  Transaction.commit_executeAll _ _ _ _ _

theorem purged_schema (r : ResetRequest) (s : TenantStore) : (purged r s).schema = s.schema := by
  have all : ∀ (ts : List PurgedTable) (s : TenantStore), (ts.foldl (fun s t => deleteRows t s) s).schema = s.schema := by
    intro ts
    induction ts with
    | nil => exact fun _ => rfl
    | cons t ts ih => exact fun s => (ih _).trans (deleteRows_schema t s)
  rw [purged_eq]
  split
  · rfl
  · exact all _ _

/-- After a purge the tables are empty if it runs, or if there was nothing to purge. -/
theorem purged_empty_iff (r : ResetRequest) (s : TenantStore) :
    (∀ table, table ≠ .billingSubscriptions → (purged r s).rowCount table = 0) ↔ PurgeRuns r s := by
  rw [purged_eq]
  by_cases hf : purgeStatements.any fun t => (r.fault (.statement t)).isSome
  · rw [if_pos hf]
    obtain ⟨t, -, ht⟩ := List.any_eq_true.mp hf
    refine ⟨.inr, fun h => h.resolve_left fun all => ?_⟩
    rw [all t] at ht
    cases ht
  · rw [if_neg hf]
    have none : ∀ t, r.fault (.statement t) = none := by
      intro t
      by_contra ht
      exact hf (List.any_eq_true.mpr ⟨t, mem_purgeStatements t, Option.isSome_iff_ne_none.mpr ht⟩)
    refine ⟨fun _ => .inl none, fun _ t _ => ?_⟩
    rw [rowCount_deleteAll, if_pos (mem_purgeStatements t)]

theorem purgePublicTenantData_returns :
    Returns (· = s) (purgePublicTenantData r)
      (fun _ t => (r.fault .lookup = none ∧ r.fault .purgeCommit = none) ∧ t = purged r s)
      (fun t => ¬Drops r s ∧ t.schema = s.schema) := by
  have begun : Returns (· = s) (r.attempt .lookup (pure ())) (fun _ t => r.fault .lookup = none ∧ t = s)
      (fun t => ¬Drops r s ∧ t.schema = s.schema) := by
    refine r.attempt_returns _ (Returns.pure fun _ h => h) (fun hf t ht => ?_) (fun hf _ t ht => ?_)
    · exact ⟨fun h => (nomatch hf.symm.trans h.lookup), congrArg _ ht⟩
    · exact ⟨fun h => (nomatch hf.symm.trans h.lookup), congrArg _ ht⟩
  unfold purgePublicTenantData
  refine Returns.bind begun fun _ => Returns.given fun hl => ?_
  refine (r.attempt_returns _ (R := fun _ t => t = purged r s) (Returns.modify fun t ht => ht ▸ rfl) (fun hf t ht => ?_)
    (fun hf _ t ht => ?_)).mono (fun _ t h => ⟨⟨hl, h.1⟩, h.2⟩) fun _ h => h
  · exact ⟨fun h => (nomatch hf.symm.trans h.purgeCommit), congrArg _ ht⟩
  · exact ⟨fun h => (nomatch hf.symm.trans h.purgeCommit), (congrArg _ ht).trans (purged_schema r s)⟩

theorem safeSlug_returns {P : TenantStore → Prop} (slug : String) :
    Returns P (safeSlug slug) (fun _ t => isSafeSlug slug = true ∧ P t) (fun t => isSafeSlug slug = false ∧ P t) := by
  unfold safeSlug
  exact Returns.ite (fun h => Returns.pure fun _ ht => ⟨h, ht⟩)
    fun h => Returns.throw fun _ ht => ⟨Bool.eq_false_iff.mpr h, ht⟩

/-- The drop has raised before it was committed, or after. -/
def DropRaised (r : ResetRequest) (s t : TenantStore) : Prop :=
  ¬Drops r s ∧ t.schema = s.schema ∨
    (isSafeSlug r.normalizedSlug = true ∧ r.fault .dropSchema = some .after) ∧ t.schema = none

theorem dropTenantSchema_returns (hs : u.schema = s.schema) :
    Returns (· = u) (dropTenantSchema r)
      (fun _ t => (isSafeSlug r.normalizedSlug = true ∧ r.fault .dropSchema = none) ∧ t.schema = none ∧ SameRows u t)
      (DropRaised r s) := by
  have called : Returns (· = u) (modify fun s => { s with dropCalls := s.dropCalls ++ [r.normalizedSlug] } : ResetM PUnit)
      (fun _ t => t.schema = s.schema ∧ SameRows u t) (DropRaised r s) :=
    Returns.modify fun t ht => ⟨ht ▸ hs, ht ▸ ⟨rfl, rfl⟩⟩
  have checked : Returns (fun t => t.schema = s.schema ∧ SameRows u t) (safeSlug r.normalizedSlug)
      (fun _ t => isSafeSlug r.normalizedSlug = true ∧ t.schema = s.schema ∧ SameRows u t) (DropRaised r s) :=
    (safeSlug_returns _).mono (fun _ _ h => h) fun t ht => .inl ⟨fun h => (nomatch ht.1.symm.trans h.safe), ht.2.1⟩
  unfold dropTenantSchema
  refine Returns.bind called fun _ => Returns.bind checked fun _ => Returns.given fun safe => ?_
  refine (r.attempt_returns _ (R := fun _ t => t.schema = none ∧ SameRows u t) (Returns.modify fun t ht => ⟨rfl, ht.2⟩)
    (fun hf t ht => .inl ⟨fun h => h.dropSchema hf, ht.1⟩) (fun hf _ t ht => .inr ⟨⟨safe, hf⟩, ht.1⟩)).mono
    (fun _ t h => ⟨⟨safe, h.1⟩, h.2⟩) fun _ h => h

/-! ### The owner's return -/

/-- The owner of the snapshot is back. -/
def Back (id : Nat) (snapshot : OwnerSnapshot) (t : TenantStore) : Prop :=
  t.user? id = some snapshot.owner ∧ t.authenticator? id = snapshot.authenticator

theorem Fresh.insertOwner {t : TenantStore} (h : Fresh t) (id : Nat) (snapshot : OwnerSnapshot) :
    Back id snapshot (insertOwner id snapshot t) := by
  obtain ⟨migrations, hm⟩ := h
  refine ⟨?_, ?_⟩
  · simp only [TenantStore.user?, Settings.insertOwner, hm, Option.map_some, Option.bind_some, Function.update_self]
  · cases ha : snapshot.authenticator with
    | none => simp only [TenantStore.authenticator?, Settings.insertOwner, hm, ha, Option.map_some, Option.bind_some]
    | some x =>
      simp only [TenantStore.authenticator?, Settings.insertOwner, hm, ha, Option.map_some, Option.bind_some,
        Function.update_self]

theorem owner?_eq_some {id : Nat} {owner : UserRow} (h : s.owner? id = some owner) : s.user? id = some owner :=
  (Option.filter_eq_some_iff.mp h).1

/-- With its owner back, a tenant has what it had, but for the secret of an authenticator that is not enabled. -/
theorem Back.kept_iff {snapshot : OwnerSnapshot} {t : TenantStore} (h : Back r.ownerUserId snapshot t)
    (owner : s.owner? r.ownerUserId = some snapshot.owner)
    (authenticator : snapshot.authenticator =
      (s.authenticator? r.ownerUserId).filter fun x => x.isEnabled && x.secret?.isSome) :
    OwnerKept r.ownerUserId s t ↔
      ∀ x, s.authenticator? r.ownerUserId = some x → x.secret?.isSome → x.isEnabled = true := by
  have user := owner?_eq_some owner
  have secret : t.secret? r.ownerUserId = snapshot.authenticator.bind (·.secret?) := by rw [TenantStore.secret?, h.2]
  constructor
  · intro kept x hx hsecret
    obtain ⟨text, htext⟩ := Option.isSome_iff_exists.mp hsecret
    have told := (kept _ user).2 text (by rw [TenantStore.secret?, hx, Option.bind_some, htext])
    rw [secret, authenticator, hx] at told
    by_contra disabled
    rw [Option.filter_some, Bool.eq_false_iff.mpr disabled, Bool.false_and, if_neg Bool.false_ne_true] at told
    cases told
  · intro enabled u hu
    rw [user] at hu
    cases hu
    refine ⟨h.1, fun text htext => ?_⟩
    obtain ⟨x, hx, hs⟩ := Option.bind_eq_some_iff.mp htext
    have hsome : x.secret?.isSome := by rw [hs]; rfl
    rw [secret, authenticator, hx, Option.filter_some, enabled x hx hsome, hsome, Bool.and_self, if_pos rfl,
      Option.bind_some, hs]

/-! ### The whole reset -/

/-- A reset that raised in `t` has kept the owner exactly if it was to put the owner back. -/
def Raised (r : ResetRequest) (s t : TenantStore) : Prop :=
  ¬Completes r s ∧ (OwnerKept r.ownerUserId s t ↔ (Drops r s → Restores r s))

theorem Raised.of_unchanged {t : TenantStore} (h : ¬Drops r s ∧ t.schema = s.schema) : Raised r s t := by
  have kept : OwnerKept r.ownerUserId s t := by
    intro u hu
    simp only [TenantStore.secret?, TenantStore.authenticator?, TenantStore.user?, h.2]
    exact ⟨hu, fun _ hs => hs⟩
  exact ⟨fun c => h.1 c.drops, fun _ hd => absurd hd h.1, fun _ => kept⟩

/-- Without its owner, the tenant was to be restored and is not. -/
theorem Raised.of_lost {t : TenantStore} (hd : Drops r s) (gone : ∀ id, t.user? id = none)
    (raised : ¬(r.fault .dropSchema = none ∧ Installs r ∧ r.fault .restoreOwner ≠ some .before)) : Raised r s t := by
  obtain ⟨owner, ho⟩ := Option.isSome_iff_exists.mp hd.owner
  have lost : ¬OwnerKept r.ownerUserId s t := by
    intro kept
    have back := (kept owner (owner?_eq_some ho)).1
    rw [gone] at back
    cases back
  refine ⟨fun c => raised ⟨c.dropSchema, c.installs, ?_⟩, fun kept => absurd kept lost, fun restored => ?_⟩
  · rw [c.restoreOwner]
    nofun
  · have h := restored hd
    exact absurd ⟨h.dropSchema, h.installs, h.restoreOwner⟩ raised

variable {snapshot : OwnerSnapshot}

/-- What the first half of a reset has made sure of. -/
structure Prepared (r : ResetRequest) (s : TenantStore) (snapshot : OwnerSnapshot) : Prop where
  drops : Drops r s
  dropSchema : r.fault .dropSchema = none
  installs : Installs r
  owner : s.owner? r.ownerUserId = some snapshot.owner
  authenticator : snapshot.authenticator =
    (s.authenticator? r.ownerUserId).filter fun x => x.isEnabled && x.secret?.isSome

theorem Prepared.kept_iff (h : Prepared r s snapshot) (hf : r.fault .restoreOwner ≠ some .before) {t : TenantStore}
    (back : Back r.ownerUserId snapshot t) : OwnerKept r.ownerUserId s t ↔ (Drops r s → Restores r s) := by
  rw [back.kept_iff h.owner h.authenticator]
  exact ⟨fun enabled _ => ⟨h.dropSchema, h.installs, hf, enabled⟩, fun restored => (restored h.drops).enabled⟩

theorem restoreOwner_returns (h : Prepared r s snapshot) :
    Returns (fun t => Fresh t ∧ SameRows u t) (restoreOwner r snapshot)
      (fun _ t => r.fault .restoreOwner = none ∧ Back r.ownerUserId snapshot t ∧ SameRows u t) (Raised r s) := by
  refine r.attempt_returns _ (R := fun _ t => Back r.ownerUserId snapshot t ∧ SameRows u t)
    (Returns.modify fun t ht => ⟨ht.1.insertOwner _ _, ht.2⟩) (fun hf t ht => ?_) (fun hf _ t ht => ?_)
  · obtain ⟨⟨migrations, hm⟩, -⟩ := ht
    refine Raised.of_lost h.drops (fun id => ?_) fun c => c.2.2 hf
    rw [TenantStore.user?, hm, Option.bind_some]
  · have notBefore : r.fault .restoreOwner ≠ some .before := by
      rw [hf]
      nofun
    exact ⟨fun c => (nomatch hf.symm.trans c.restoreOwner), h.kept_iff notBefore ht.1⟩

/-- The rows of the purged tables are those of `u`, but for the subscription, which is that of the reset. -/
def Billed (r : ResetRequest) (u t : TenantStore) : Prop :=
  (∀ table, table ≠ .billingSubscriptions → t.rowCount table = u.rowCount table) ∧
    t.account.subscription.map (·.toSubscriptionData) = some r.freshSubscription

theorem upsertSubscription_data (utcnow : Int) (data : SubscriptionData) (a : Account) :
    (a.upsertSubscription utcnow data).2.subscription.map (·.toSubscriptionData) = some data := by
  unfold Account.upsertSubscription
  cases a.subscription <;> rfl

theorem resetBillingAndConfig_returns (h : Prepared r s snapshot) (hr : r.fault .restoreOwner = none) :
    Returns (fun t => Back r.ownerUserId snapshot t ∧ SameRows u t) (resetBillingAndConfig r)
      (fun _ t => (r.fault .subscription = none ∧ r.fault .config = none) ∧ Back r.ownerUserId snapshot t ∧ Billed r u t)
      (Raised r s) := by
  have notBefore : r.fault .restoreOwner ≠ some .before := by
    rw [hr]
    nofun
  have subscribed : Returns (fun t => Back r.ownerUserId snapshot t ∧ SameRows u t)
      (r.attempt .subscription (onAccount fun a => (a.upsertSubscription r.env.utcnow r.freshSubscription).2))
      (fun _ t => r.fault .subscription = none ∧ Back r.ownerUserId snapshot t ∧ Billed r u t) (Raised r s) := by
    refine r.attempt_returns _ (R := fun _ t => Back r.ownerUserId snapshot t ∧ Billed r u t)
      (Returns.modify fun t ht => ⟨ht.1, fun table htable => ?_, upsertSubscription_data _ _ _⟩) (fun hf t ht => ?_)
      (fun hf _ t ht => ?_)
    · obtain ⟨-, ha, hrows⟩ := ht
      cases table with
      | billingSubscriptions => exact absurd rfl htable
      | other t => exact congrArg (fun rows => (rows t).length) hrows
      | trafficQuestionUsageTotals => exact congrArg (·.questionTotals.length) ha
      | billingInvoices => exact congrArg (·.invoices.length) ha
      | billingQuestionUsage => exact congrArg (·.questionUsage.length) ha
      | tenantCancellationRequests => exact congrArg (·.cancellations.length) ha
    · exact ⟨fun c => (nomatch hf.symm.trans c.subscription), h.kept_iff notBefore ht.1⟩
    · exact ⟨fun c => (nomatch hf.symm.trans c.subscription), h.kept_iff notBefore ht.1⟩
  unfold resetBillingAndConfig
  refine Returns.bind subscribed fun _ => Returns.given fun hs => ?_
  refine (r.attempt_returns _ (R := fun _ t => Back r.ownerUserId snapshot t ∧ Billed r u t)
    (Returns.modify fun t ht => ⟨ht.1, fun table htable => ?_, ht.2.2⟩) (fun hf t ht => ?_)
    (fun hf _ t ht => ?_)).mono (fun _ t ht => ⟨⟨hs, ht.1⟩, ht.2⟩) fun _ ht => ht
  · refine Eq.trans ?_ (ht.2.1 table htable)
    cases table <;> rfl
  · exact ⟨fun c => (nomatch hf.symm.trans c.config), h.kept_iff notBefore ht.1⟩
  · exact ⟨fun c => (nomatch hf.symm.trans c.config), h.kept_iff notBefore ht.1⟩

theorem resetTenant_returns (r : ResetRequest) (s : TenantStore) :
    Returns (· = s) (resetTenant r)
      (fun _ t => Completes r s ∧ (OwnerKept r.ownerUserId s t ↔ (Drops r s → Restores r s)) ∧
        (Purged r t ↔ PurgeRuns r s))
      (Raised r s) := by
  unfold resetTenant
  refine Returns.ite (fun refused => Returns.throw_bind fun t ht => ?_) fun confirmed => ?_
  · rw [Bool.not_eq_true'] at refused
    exact Raised.of_unchanged ⟨fun h => (nomatch refused.symm.trans h.confirmed), congrArg _ ht⟩
  rw [Bool.not_eq_true', Bool.not_eq_false] at confirmed
  refine Returns.bind (snapshotOwnerAuth_returns.mono (fun _ _ h => h) fun _ h => .of_unchanged h) fun snapshot =>
    Returns.given fun ⟨hsnap, howner, hauth⟩ => ?_
  refine Returns.bind (purgePublicTenantData_returns.mono (fun _ _ h => h) fun _ h => .of_unchanged h) fun _ =>
    Returns.given fun ⟨hlookup, hcommit⟩ => ?_
  have drops : isSafeSlug r.normalizedSlug = true → r.fault .dropSchema ≠ some .before → Drops r s :=
    fun safe hdrop => ⟨confirmed, hsnap, by rw [howner]; rfl, hlookup, hcommit, safe, hdrop⟩
  refine Returns.bind ((dropTenantSchema_returns (purged_schema r s)).mono (fun _ _ h => h) fun t ht => ?_) fun _ =>
    Returns.given fun ⟨safe, hdrop⟩ => ?_
  · rcases ht with unchanged | ⟨⟨safe, hdrop⟩, gone⟩
    · exact .of_unchanged unchanged
    · refine .of_lost (drops safe (by rw [hdrop]; nofun)) (fun id => ?_) fun c => (nomatch hdrop.symm.trans c.1)
      rw [TenantStore.user?, gone, Option.bind_none]
  have dropped : Drops r s := drops safe (by rw [hdrop]; nofun)
  refine Returns.bind (upgradeTenantSchema_returns.mono (fun _ _ h => h) fun t ht =>
    .of_lost dropped ht.2 fun c => ht.1 c.2.1) fun _ => Returns.given fun installs => ?_
  have prepared : Prepared r s snapshot := ⟨dropped, hdrop, installs, howner, hauth⟩
  refine Returns.bind (restoreOwner_returns prepared) fun _ => Returns.given fun hrestore => ?_
  refine Returns.bind (resetBillingAndConfig_returns prepared hrestore) fun _ => Returns.given fun ⟨hsub, hconfig⟩ => ?_
  have kept : ∀ t, Back r.ownerUserId snapshot t → (OwnerKept r.ownerUserId s t ↔ (Drops r s → Restores r s)) :=
    fun t => prepared.kept_iff (by rw [hrestore]; nofun)
  have cached : Returns (fun t => Back r.ownerUserId snapshot t ∧ Billed r (purged r s) t) (r.attempt .cache (pure ()))
      (fun _ t => r.fault .cache = none ∧ Back r.ownerUserId snapshot t ∧ Billed r (purged r s) t) (Raised r s) := by
    refine r.attempt_returns _ (Returns.pure fun _ h => h) (fun hf t ht => ?_) (fun hf _ t ht => ?_)
    · exact ⟨fun c => (nomatch hf.symm.trans c.cache), kept t ht.1⟩
    · exact ⟨fun c => (nomatch hf.symm.trans c.cache), kept t ht.1⟩
  refine cached.mono (fun _ t ⟨hcache, back, billed⟩ => ?_) fun _ h => h
  refine ⟨⟨dropped, hdrop, installs, hrestore, hsub, hconfig, hcache⟩, kept t back, ?_⟩
  rw [← purged_empty_iff]
  refine ⟨fun h table htable => (billed.1 table htable).symm.trans (h.1 table htable), fun h => ⟨?_, billed.2⟩⟩
  exact fun table htable => (billed.1 table htable).trans (h table htable)

/-- A reset keeps the owner, and leaves nothing of the tenant in the purged tables when it answers. -/
def ResetSafe (r : ResetRequest) (s : TenantStore) : Prop :=
  OwnerKept r.ownerUserId s (after (resetTenant r) s) ∧
    (answersReset r s = true → Purged r (after (resetTenant r) s))

/-- A reset is safe exactly if the owner comes back once the drop is committed, and if no statement of the purge raises
    in a reset that answers, unless there is nothing to purge. -/
theorem reset_safe_iff (r : ResetRequest) (s : TenantStore) :
    ResetSafe r s ↔ (Drops r s → Restores r s) ∧ (Completes r s → PurgeRuns r s) := by
  have run := resetTenant_returns r s s rfl
  unfold ResetSafe answersReset after
  generalize (resetTenant r).run s = result at run ⊢
  cases run with
  | returned h =>
    obtain ⟨completes, owner, purge⟩ := h
    exact and_congr owner ⟨fun h _ => purge.mp (h rfl), fun h _ => purge.mpr (h completes)⟩
  | raised h =>
    obtain ⟨incomplete, owner⟩ := h
    exact and_congr owner ⟨fun _ c => absurd c incomplete, fun _ answered => nomatch answered⟩

end

/-! ### What the writes of a reset keep -/

/-- `I` is kept by every write of a reset. -/
structure ResetInvariant (r : ResetRequest) (I : TenantStore → Prop) : Prop where
  deleteRows : ∀ t s, I s → I (deleteRows t s)
  callDrop : ∀ s, I s → I { s with dropCalls := s.dropCalls ++ [r.normalizedSlug] }
  schema : ∀ s schema, I s → I { s with schema := schema }
  subscription : ∀ s sub, I s → I { s with account := { s.account with subscription := sub } }
  config : ∀ s config, I s → I { s with account := { s.account with config := config } }

namespace ResetInvariant

variable {r : ResetRequest} {I : TenantStore → Prop}

theorem attempt {α : Type} (step : ResetStep) {m : ResetM α} (h : Leads I m I) : Leads I (r.attempt step m) I :=
  (Returns.attempt (.of_leads h) (fun _ h => h) fun _ _ h => h).leads

theorem pass (step : ResetStep) : Leads I (r.attempt step (pure ())) I := attempt step (Leads.pure (fun _ h => h) _)

theorem purged (hI : ResetInvariant r I) {s : TenantStore} (h : I s) : I (Settings.purged r s) := by
  have all : ∀ (ts : List PurgedTable) s, I s → I (ts.foldl (fun s t => Settings.deleteRows t s) s) := by
    intro ts
    induction ts with
    | nil => exact fun _ h => h
    | cons t ts ih => exact fun s h => ih _ (hI.deleteRows t s h)
  rw [purged_eq]
  split
  · exact h
  · exact all _ _ h

theorem installHooks (hI : ResetInvariant r I) (hooks applied : List String) :
    Leads I (installHooks r hooks applied) I := by
  induction hooks generalizing applied with
  | nil => exact Leads.pure (fun _ h => h) _
  | cons revision hooks ih =>
    unfold Settings.installHooks
    refine Leads.ite (fun _ => ih applied) fun _ => ?_
    refine Leads.bind (pass _) (fun _ => ?_) fun _ h => h
    refine Leads.bind (attempt _ (Leads.modify fun s h => hI.schema s _ h)) (fun _ => ih _) fun _ h => h

theorem snapshot : Leads I (snapshotOwnerAuth r) I := by
  unfold snapshotOwnerAuth
  refine Leads.bind (pass _) (fun _ => ?_) fun _ h => h
  refine Leads.bind (Leads.get fun _ h => h) (fun s => ?_) fun _ h => h
  split
  · exact Leads.throw (fun _ h => h) _
  · exact Leads.pure (fun _ h => h) _

theorem drop (hI : ResetInvariant r I) : Leads I (dropTenantSchema r) I := by
  unfold dropTenantSchema
  refine Leads.bind (Leads.modify fun s h => hI.callDrop s h) (fun _ => ?_) fun _ h => h
  have checked : Leads I (safeSlug r.normalizedSlug) I :=
    ((safeSlug_returns _).mono (fun _ _ h => h.2) fun _ h => h.2).leads
  exact Leads.bind checked (fun _ => attempt _ (Leads.modify fun s h => hI.schema s _ h)) fun _ h => h

theorem upgrade (hI : ResetInvariant r I) : Leads I (upgradeTenantSchema r) I := by
  unfold upgradeTenantSchema
  refine Leads.bind (attempt _ (Leads.modify fun s h => hI.schema s _ h)) (fun _ => ?_) fun _ h => h
  refine Leads.bind (pass _) (fun _ => ?_) fun _ h => h
  exact Leads.bind (Leads.get fun _ h => h) (fun s => hI.installHooks _ _) fun _ h => h

/-- Whatever fails, a reset keeps what its writes keep. -/
theorem reset (hI : ResetInvariant r I) : Leads I (resetTenant r) I := by
  unfold resetTenant
  refine Leads.ite (fun _ => Leads.throw_bind (fun _ h => h) _ _) fun _ => ?_
  refine Leads.bind snapshot (fun snapshot => ?_) fun _ h => h
  have purge : Leads I (purgePublicTenantData r) I :=
    Leads.bind (pass _) (fun _ => attempt _ (Leads.modify fun _ h => hI.purged h)) fun _ h => h
  have restore : Leads I (restoreOwner r snapshot) I := attempt _ (Leads.modify fun s h => hI.schema s _ h)
  have billing : Leads I (resetBillingAndConfig r) I := by
    refine Leads.bind (attempt _ (Leads.modify fun s h => ?_)) (fun _ => ?_) fun _ h => h
    · exact hI.subscription s _ h
    · exact attempt _ (Leads.modify fun s h => hI.config s _ h)
  refine Leads.bind purge (fun _ => ?_) fun _ h => h
  refine Leads.bind hI.drop (fun _ => ?_) fun _ h => h
  refine Leads.bind hI.upgrade (fun _ => ?_) fun _ h => h
  refine Leads.bind restore (fun _ => ?_) fun _ h => h
  exact Leads.bind billing (fun _ => pass _) fun _ h => h

end ResetInvariant

/-! ### Two resets that fail half way -/

/-- A tenant with an owner, whose authenticator is enabled, and two feedback events. -/
def tenantWithOwner : TenantStore where
  account := Account.created "acme" "Acme" (midnight 20000)
  rows t := if t = .channelFeedbackEvents then [1, 2] else []
  schema := some
    { migrations := ["users", "auth"]
      users := fun id => if id = 1 then some { email := "a@acme.hu", passwordHash := "h", role := "owner" } else none
      authenticators := fun id => if id = 1 then some { secretBase32 := some "S", isEnabled := true } else none }

/-- The reset that the owner asks for, with one step that fails. -/
def ownersReset (failing : Option ResetStep) : ResetRequest where
  env := Env.seeded (midnight 20001)
  tenantSlug := "acme"
  confirmSlug := "acme"
  ownerUserId := 1
  hooks := ["users", "auth"]
  fault step := if some step = failing then some .before else none

example : answersReset (ownersReset none) tenantWithOwner = true := by decide

/-- A hook that fails after the drop loses the owner; a statement of the purge that fails leaves all rows, and the reset
    answers all the same. -/
theorem reset_not_safe : (¬∀ r s, OwnerKept r.ownerUserId s (after (resetTenant r) s)) ∧
    ¬∀ r s, answersReset r s = true → Purged r (after (resetTenant r) s) := by
  constructor
  · intro h
    have kept := (h (ownersReset (some (.install "auth"))) tenantWithOwner _ rfl).1
    have gone : (after (resetTenant (ownersReset (some (.install "auth")))) tenantWithOwner).user? 1 = none := by decide
    exact absurd (gone.symm.trans kept) (by decide)
  · intro h
    have purged := h (ownersReset (some (.statement .billingInvoices))) tenantWithOwner (by decide)
    exact absurd (purged.1 (.other .channelFeedbackEvents) (by decide)) (by decide)

end NyzRating.Settings
