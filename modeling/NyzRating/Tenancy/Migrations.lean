import NyzRating.Lib.Ledger
import NyzRating.Lib.Text
import Mathlib.Data.List.Sort
import Mathlib.Data.String.Basic

/-!
# Migrations

The public schema and the schema of every tenant are brought up to date by migrations, when the platform is deployed, when a
tenant is provisioned and when one is reset; several processes may do so at a time.
-/

namespace NyzRating.Tenancy.Migrations

open Process Runs
open Ledger (Migration Op Plan)

/-! ### Hooks -/

/-- A table of the tenant metadata, and those that its foreign keys refer to. -/
inductive Table where
  | mk (fullname : String) (referred : List Table)

mutual

def copyWithFkDeps (copied : List String) : Table → List String
  | .mk key referred => if key ∈ copied then copied else copyAll (key :: copied) referred

def copyAll (copied : List String) : List Table → List String
  | [] => copied
  | table :: tables => copyAll (copyWithFkDeps copied table) tables

end

/-- The tables are created in one transaction, with those that they refer to. -/
def installSchemaTables (tables : List Table) : Ledger.Part String := { creates := copyAll [] tables }

/-- The statements alter tables, and are committed together. -/
def runSchemaStatements (altered : List String) : List (Ledger.Part String) := if altered = [] then [] else [{ needs := altered }]

structure TenantSchemaHook where
  name : String
  install : List (Ledger.Part String)
  tableNames : List String := []
  revision : Option String := none

def tenantMigrationRevision (hook : TenantSchemaHook) : String :=
  String.ofList (Text.strip ((hook.revision.filter (· ≠ "")).getD hook.name).toList)

def TenantSchemaHook.migration (hook : TenantSchemaHook) : Migration String String where
  key := tenantMigrationRevision hook
  parts := hook.install

/-- The registered hooks, by their revisions. -/
structure HookRegistry where
  hooks : List TenantSchemaHook
  distinct : (hooks.map tenantMigrationRevision).Nodup

def resetTenantSchemaHooks : HookRegistry := ⟨[], List.nodup_nil⟩

/-- A hook takes the place of the one that has its revision. -/
def HookRegistry.put (r : HookRegistry) (hook : TenantSchemaHook) : HookRegistry :=
  if registered : tenantMigrationRevision hook ∈ r.hooks.map tenantMigrationRevision then
    { hooks := r.hooks.map fun h => if tenantMigrationRevision h = tenantMigrationRevision hook then hook else h
      distinct := by
        have same : (r.hooks.map fun h => if tenantMigrationRevision h = tenantMigrationRevision hook then hook else h).map
            tenantMigrationRevision = r.hooks.map tenantMigrationRevision := by
          rw [List.map_map]
          refine List.map_congr_left fun h _ => ?_
          dsimp only [Function.comp]
          split
          · next same => exact same.symm
          · rfl
        exact same ▸ r.distinct }
  else
    { hooks := r.hooks ++ [hook]
      distinct := by
        rw [List.map_append, List.map_singleton]
        exact List.nodup_append.mpr ⟨r.distinct, List.nodup_singleton _, fun x mem y last => by
          rw [List.mem_singleton.mp last]
          exact fun same => registered (same ▸ mem)⟩ }

def registerTenantSchemaHooks (hooks : List TenantSchemaHook) (r : HookRegistry) : HookRegistry := hooks.foldl HookRegistry.put r

/-- Registered by revision, the hooks run in the order of their revisions. -/
def listTenantSchemaHooks (r : HookRegistry) : List TenantSchemaHook :=
  r.hooks.insertionSort fun h h' => tenantMigrationRevision h ≤ tenantMigrationRevision h'

structure PublicSchemaMigration where
  revision : String
  description : String
  /-- The tables that `apply` creates, and those that it alters or refers to, in one transaction. -/
  creates : List String := []
  uses : List String := []

def publicMigrations : List PublicSchemaMigration := [
  { revision := "platform.public.0001_core"
    description := "Core public tenant tables and indexes"
    creates := ["tenants", "tenant_configs", "tenant_domains"]
    uses := ["tenants", "tenant_configs", "tenant_domains"] },
  { revision := "platform.public.0002_event_outbox"
    description := "Platform event outbox table"
    creates := ["platform_event_outbox"]
    uses := ["platform_event_outbox"] },
  { revision := "platform.public.0003_platform_admin"
    description := "Platform admin users and password setup tokens"
    creates := ["platform_admin_users", "platform_admin_invite_tokens", "platform_admin_refresh_tokens"] },
  { revision := "platform.public.0004_platform_admin_refresh_tokens"
    description := "Platform admin refresh token sessions"
    creates := ["platform_admin_refresh_tokens"]
    uses := ["platform_admin_users"] },
  { revision := "platform.public.0005_platform_security_alerts_legacy_compat"
    description := "Normalize legacy platform security alerts schema"
    creates := ["platform_security_alerts"]
    uses := ["platform_security_alerts"] },
  { revision := "platform.public.0006_channel_access"
    description := "Channel credentials, usage and feedback analytics tables"
    creates := ["channel_credentials", "channel_usage_events", "channel_feedback_events"]
    uses := ["channel_credentials", "tenants"] },
  { revision := "platform.public.0007_platform_admin_mfa"
    description := "Platform admin MFA fields (TOTP + recovery codes)"
    uses := ["platform_admin_users"] },
  { revision := "platform.public.0008_platform_admin_mfa_attempts"
    description := "Platform admin MFA attempt counters and lockouts"
    creates := ["platform_admin_mfa_attempts"] },
  { revision := "platform.public.0009_billing"
    description := "Billing public tables and indexes"
    creates := ["billing_catalog_entries", "billing_subscriptions", "billing_question_usage", "billing_training_usage",
      "billing_invoices", "billing_payment_events", "billing_debug_state", "tenant_cancellation_requests"]
    uses := ["tenants"] },
  { revision := "platform.public.0010_platform_security_ip_bans"
    description := "Platform security IP ban table and indexes"
    creates := ["platform_security_ip_bans"] },
  { revision := "platform.public.0011_demo_signup_state"
    description := "Demo signup session and blocklist tables"
    creates := ["demo_signup_sessions", "demo_signup_blocklist"]
    uses := ["demo_signup_sessions"] },
  { revision := "platform.public.0012_tenant_cancellation_requests"
    description := "Tenant cancellation request records for subscription cancellation flow"
    creates := ["tenant_cancellation_requests"]
    uses := ["tenants"] },
  { revision := "platform.public.0013_tenant_cancellation_notifications"
    description := "Tenant cancellation notification tracking columns"
    uses := ["tenant_cancellation_requests"] },
  { revision := "platform.public.0014_traffic_question_usage"
    description := "Central outbound inquiry (megkeresés) usage tables for traffic/billing limits"
    creates := ["traffic_question_usage", "traffic_question_usage_totals", "traffic_question_events"]
    uses := ["tenants"] },
  { revision := "platform.public.0015_traffic_sms_sends"
    description := "SMS send log for customer outreach on traffic page"
    creates := ["traffic_sms_sends"]
    uses := ["tenants"] },
  { revision := "platform.public.0016_billing_debug_payment_outcome"
    description := "Billing debug payment simulation outcome column"
    uses := ["billing_debug_state"] },
  { revision := "platform.public.0017_demo_signup_email_verification"
    description := "Demo signup pending email verification columns and index"
    uses := ["demo_signup_sessions"] }]

def PublicSchemaMigration.migration (m : PublicSchemaMigration) : Migration String String where
  key := m.revision
  parts := [{ needs := m.uses, creates := m.creates }]

/-! ### Upgrades -/

inductive Target where
  | publicSchema
  | tenantSchema (slug : String)
  deriving DecidableEq, Repr

abbrev Database := Ledger.Store Target String String

inductive SchemaError where
  | invalidSlug (slug : String)
  | undefinedTable (target : Target)
  deriving DecidableEq, Repr

abbrev Call := Process (Op Target String String) Database SchemaError Unit

variable (isalnum : Char → Bool) (r : HookRegistry)

/-- `_safe_slug` returns the slug. -/
def isSafeSlug (slug : String) : Bool := slug.toList.all fun c => isalnum c || c = '_' || c = '-'

def tenantMigrations : List (Migration String String) := (listTenantSchemaHooks r).map (·.migration)

def upgradePublicSchema : Call := do
  ask (.ensure .publicSchema) fun _ => ()
  let applied ← Ledger.readLedger .undefinedTable .publicSchema
  Ledger.applyPending .undefinedTable .publicSchema (publicMigrations.map (·.migration)) applied

def listAppliedTenantMigrations (slug : String) : Process (Op Target String String) Database SchemaError (List String) := do
  ask (.ensure (.tenantSchema slug)) fun _ => ()
  Ledger.readLedger .undefinedTable (.tenantSchema slug)

def upgradeTenantSchema (slug : String) : Call :=
  if isSafeSlug isalnum slug then do
    ask (.ensure (.tenantSchema slug)) fun _ => ()
    let applied ← listAppliedTenantMigrations slug
    Ledger.applyPending .undefinedTable (.tenantSchema slug) (tenantMigrations r) applied
  else .raise (.invalidSlug slug)

def createTenantSchema (slug : String) : Call := upgradeTenantSchema isalnum r slug

def upgradeAll : List String → Call
  | [] => pure ()
  | slug :: slugs => do
    if isSafeSlug isalnum slug then upgradeTenantSchema isalnum r slug
    upgradeAll slugs

/-- `slugs` is what `list_tenant_slugs` finds in the table of the tenants. -/
def syncExistingTenantSchemas (slugs : List String) : Call := do
  upgradePublicSchema
  upgradeAll isalnum r slugs

def usersTable : Table := .mk "users" []

/-- A table whose rows belong to users. -/
def ofUsers (name : String) : Table := .mk name [usersTable]

def applicationHooks : List TenantSchemaHook := [
  { name := "audit"
    install := installSchemaTables [ofUsers "audit_log"] :: runSchemaStatements ["audit_log"]
    tableNames := ["audit_log"] },
  { name := "settings"
    install := installSchemaTables [.mk "settings" []] :: runSchemaStatements ["settings"]
    tableNames := ["settings"] },
  { name := "users"
    revision := some "users_pending_email_change"
    install := installSchemaTables [usersTable, ofUsers "user_invite_tokens"] ::
      runSchemaStatements ["users", "user_invite_tokens"]
    tableNames := ["users", "user_invite_tokens"] },
  { name := "auth"
    install := installSchemaTables [ofUsers "refresh_tokens", ofUsers "two_factor_codes", .mk "two_factor_attempts" [],
        ofUsers "pending_2fa_logins", ofUsers "user_authenticators"] ::
      runSchemaStatements ["refresh_tokens", "two_factor_codes", "two_factor_attempts", "pending_2fa_logins", "user_authenticators"]
    tableNames := ["refresh_tokens", "two_factor_codes", "two_factor_attempts", "pending_2fa_logins", "user_authenticators"] },
  { name := "brand_settings"
    install := installSchemaTables [.mk "brand_settings" []] :: runSchemaStatements ["brand_settings"]
    tableNames := ["brand_settings"] },
  { name := "billing_noop"
    install := installSchemaTables [] :: runSchemaStatements [] }]

def applicationRegistry : HookRegistry := registerTenantSchemaHooks applicationHooks resetTenantSchemaHooks

/-! ### The plan -/

variable {r}

theorem nodup_tenantMigrations : ((tenantMigrations r).map (·.key)).Nodup := by
  have same : (tenantMigrations r).map (·.key) = (listTenantSchemaHooks r).map tenantMigrationRevision := by
    rw [tenantMigrations, List.map_map]
    rfl
  rw [same]
  exact ((List.perm_insertionSort _ r.hooks).map tenantMigrationRevision).nodup_iff.mpr r.distinct

theorem nodup_publicMigrations : ((publicMigrations.map (·.migration)).map (·.key)).Nodup := by decide

variable (r) in
def plan : Plan Target String String where
  migrations
    | .publicSchema => publicMigrations.map (·.migration)
    | .tenantSchema _ => tenantMigrations r
  distinct
    | .publicSchema => nodup_publicMigrations
    | .tenantSchema _ => nodup_tenantMigrations

inductive Caller where
  | upgradePublicSchema
  | upgradeTenantSchema (slug : String)
  | syncExistingTenantSchemas (slugs : List String)

variable (r) in
def Caller.call : Caller → Call
  | .upgradePublicSchema => Migrations.upgradePublicSchema
  | .upgradeTenantSchema slug => Migrations.upgradeTenantSchema isalnum r slug
  | .syncExistingTenantSchemas slugs => Migrations.syncExistingTenantSchemas isalnum r slugs

/-- The targets that the call is for. -/
def Caller.Serves (c : Caller) (t : Target) : Prop :=
  match c, t with
  | .upgradePublicSchema, .publicSchema => True
  | .upgradeTenantSchema slug, .tenantSchema other => slug = other
  | .syncExistingTenantSchemas _, .publicSchema => True
  | .syncExistingTenantSchemas slugs, .tenantSchema slug => slug ∈ slugs ∧ isSafeSlug isalnum slug = true
  | _, _ => False

variable {isalnum} {db : Database} {ops : List (Op Target String String)} {slug : String} {slugs : List String}

theorem outline_upgradePublicSchema :
    (Ledger.rely (plan r)).Outline (fun _ _ db => Ledger.UpToDate (plan r) db .publicSchema) upgradePublicSchema ops db :=
  Rely.Outline.ask_bind fun _ _ => ⟨trivial, Ledger.outline_catchUp Ledger.Created.ensure⟩

theorem outline_upgradeTenantSchema :
    (Ledger.rely (plan r)).Outline (fun _ _ db => isSafeSlug isalnum slug = true ∧ Ledger.UpToDate (plan r) db (.tenantSchema slug))
      (upgradeTenantSchema isalnum r slug) ops db := by
  unfold upgradeTenantSchema
  split
  · next safe =>
    refine Rely.Outline.ask_bind fun _ _ => ⟨trivial, Rely.Outline.ask_bind fun _ _ => ⟨trivial, ?_⟩⟩
    exact (Ledger.outline_catchUp Ledger.Created.ensure).mono fun _ _ _ done => ⟨safe, done⟩
  · trivial

theorem outline_upgradeAll : (Ledger.rely (plan r)).Outline
    (fun _ _ db => ∀ slug ∈ slugs, isSafeSlug isalnum slug = true → Ledger.UpToDate (plan r) db (.tenantSchema slug))
    (upgradeAll isalnum r slugs) ops db := by
  induction slugs generalizing ops db with
  | nil => exact fun slug mem => absurd mem List.not_mem_nil
  | cons slug slugs ih =>
    have rest {ops : List (Op Target String String)} {db : Database}
        (first : isSafeSlug isalnum slug = true → Ledger.UpToDate (plan r) db (.tenantSchema slug)) :
        (Ledger.rely (plan r)).Outline (fun _ _ db => ∀ other ∈ slug :: slugs, isSafeSlug isalnum other = true →
          Ledger.UpToDate (plan r) db (.tenantSchema other)) (upgradeAll isalnum r slugs) ops db := by
      refine (ih.grown ((Ledger.rely (plan r)).refl db)).mono fun _ _ db' ⟨more, others⟩ other mem safe => ?_
      rcases List.mem_cons.mp mem with rfl | mem
      · exact (first safe).grows more
      · exact others other mem safe
    unfold upgradeAll
    split
    · exact Rely.Outline.bind outline_upgradeTenantSchema fun _ _ _ done => rest fun _ => done.2
    · next skipped => exact rest fun safe => absurd safe skipped

theorem outline_syncExistingTenantSchemas : (Ledger.rely (plan r)).Outline
    (fun _ _ db => Ledger.UpToDate (plan r) db .publicSchema ∧
      ∀ slug ∈ slugs, isSafeSlug isalnum slug = true → Ledger.UpToDate (plan r) db (.tenantSchema slug))
    (syncExistingTenantSchemas isalnum r slugs) ops db :=
  Rely.Outline.bind outline_upgradePublicSchema fun _ _ db done =>
    (outline_upgradeAll.grown ((Ledger.rely (plan r)).refl db)).mono fun _ _ _ ⟨more, others⟩ => ⟨done.grows more, others⟩

variable (isalnum) in
def Target.Safe : Target → Prop
  | .publicSchema => True
  | .tenantSchema slug => isSafeSlug isalnum slug = true

variable (isalnum r) in
/-- Every target that the call is for is up to date. -/
def Caller.Finished (c : Caller) (db : Database) : Prop :=
  ∀ t, c.Serves isalnum t → t.Safe isalnum ∧ Ledger.UpToDate (plan r) db t

theorem outline_call (c : Caller) :
    (Ledger.rely (plan r)).Outline (fun _ _ db => c.Finished isalnum r db) (c.call isalnum r) ops db := by
  cases c with
  | upgradePublicSchema =>
    refine outline_upgradePublicSchema.mono fun _ _ _ done t serves => ?_
    cases t with
    | publicSchema => exact ⟨trivial, done⟩
    | tenantSchema slug => cases serves
  | upgradeTenantSchema slug =>
    refine outline_upgradeTenantSchema.mono fun _ _ _ done t serves => ?_
    cases t with
    | publicSchema => cases serves
    | tenantSchema other => exact serves ▸ done
  | syncExistingTenantSchemas slugs =>
    refine outline_syncExistingTenantSchemas.mono fun _ _ _ done t serves => ?_
    cases t with
    | publicSchema => exact ⟨trivial, done.1⟩
    | tenantSchema slug => exact ⟨serves.2, done.2 slug serves.1 serves.2⟩

/-! ### Alone -/

theorem alone_upgradeTenantSchema :
    Alone Ledger.apply Ledger.Pending (fun _ _ => True) (upgradeTenantSchema isalnum r slug) db := by
  unfold upgradeTenantSchema
  split
  · exact Alone.ask_bind trivial (Alone.ask_bind trivial (Ledger.alone_catchUp (plan r)))
  · trivial

theorem alone_upgradeAll : Alone Ledger.apply Ledger.Pending (fun _ _ => True) (upgradeAll isalnum r slugs) db := by
  induction slugs generalizing db with
  | nil => trivial
  | cons slug slugs ih =>
    unfold upgradeAll
    split
    · exact alone_upgradeTenantSchema.bind fun _ _ _ => ih
    · exact ih

theorem alone_call (c : Caller) : Alone Ledger.apply Ledger.Pending (fun _ _ => True) (c.call isalnum r) db := by
  have ofPublic {db : Database} : Alone Ledger.apply Ledger.Pending (fun _ _ => True) upgradePublicSchema db :=
    Alone.ask_bind trivial (Ledger.alone_catchUp (plan applicationRegistry))
  cases c with
  | upgradePublicSchema => exact ofPublic
  | upgradeTenantSchema slug => exact alone_upgradeTenantSchema
  | syncExistingTenantSchemas slugs => exact ofPublic.bind fun _ _ _ => alone_upgradeAll

/-! ### Together -/

variable (isalnum r) in
def pool (db : Database) (callers : List Caller) : Pool (Op Target String String) Database SchemaError Unit :=
  { store := db, calls := callers.map (·.call isalnum r) }

variable {callers : List Caller}

theorem getElem?_pool {i : Nat} {m : Call} (at_i : (pool isalnum r db callers).calls[i]? = some m) :
    ∃ c, callers[i]? = some c ∧ m = c.call isalnum r := by
  rw [pool, List.getElem?_map] at at_i
  obtain ⟨c, mem, rfl⟩ := Option.map_eq_some_iff.mp at_i
  exact ⟨c, mem, rfl⟩

variable (isalnum callers) in
/-- Whatever the order of their statements, the processes go by their outlines on a sound store. -/
theorem run_kept (sound : Ledger.Sound (plan r) db) (turns : List Nat) :
    let s := final (Pool.step Ledger.apply) (pool isalnum r db callers) turns
    Ledger.Sound (plan r) s.store ∧
      (Ledger.rely (plan r)).Followed (fun i _ _ db => ∀ c, callers[i]? = some c → c.Finished isalnum r db) s := by
  refine final_kept (s := pool isalnum r db callers) (fun s => Ledger.Sound (plan r) s.store ∧ (Ledger.rely (plan r)).Followed
    (fun i _ _ db => ∀ c, callers[i]? = some c → c.Finished isalnum r db) s) ⟨sound, ?_⟩ ?_
  · intro i m at_i
    obtain ⟨c, found, rfl⟩ := getElem?_pool at_i
    refine (outline_call c).mono fun _ _ _ finished c' same => ?_
    rw [found] at same
    exact Option.some.inj same ▸ finished
  · rintro s i ⟨sound, followed⟩
    refine ⟨?_, followed.step (fun _ _ _ _ _ more finished c at_i t serves =>
      (finished c at_i t serves).imp_right (·.grows more)) i⟩
    rcases s.step_cases Ledger.apply i with same | ⟨op, next, -, turn, same⟩
    · rw [same]
      exact sound
    · rw [same]
      exact sound.apply (followed.finds turn)

theorem sound_empty : Ledger.Sound (plan r) fun _ => none := fun _ _ _ recorded => by
  obtain ⟨a, none_there, -⟩ := recorded
  cases none_there

/-- Where the processes run one after another, and each may stop anywhere, nothing is installed that is recorded. -/
theorem installed_while_pending {turns : List Nat} (ordered : turns.Pairwise (· ≤ ·)) :
    Always (Pool.step Ledger.apply) (fun s i => ∀ t revision part,
      s.pending? i = some (.part t revision part) → ¬Ledger.Recorded s.store t revision) (pool isalnum r db callers) turns := by
  have calls : ∀ m ∈ (pool isalnum r db callers).calls, ∀ db,
      Alone Ledger.apply Ledger.Pending (fun _ _ => True) m db := by
    intro m mem db
    obtain ⟨c, -, rfl⟩ := List.mem_map.mp mem
    exact alone_call c
  exact (Alone.in_turn calls ordered).mono fun s i made t revision part turn => made _ turn

/-- The first process stops while it installs its first table, the second one takes over. -/
theorem installed_while_pending_resumed :
    Always (Pool.step Ledger.apply) (fun s i => ∀ t revision part,
      s.pending? i = some (.part t revision part) → ¬Ledger.Recorded s.store t revision)
      (pool Char.isAlphanum applicationRegistry (fun _ => none) [.upgradeTenantSchema "acme", .upgradeTenantSchema "acme"])
      [0, 0, 0, 0, 1, 1, 1, 1] :=
  installed_while_pending (by decide)

end NyzRating.Tenancy.Migrations
