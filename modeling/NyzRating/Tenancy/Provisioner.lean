import NyzRating.Lib.Program
import NyzRating.Tenancy.Registry
import NyzRating.Tenancy.Slug
import NyzRating.Users.Services

/-!
# Tenant provisioning

`TenantProvisioningService.provision`: schema, tenant, owner, actor, configuration, domains and activation, one after
the other, and what `_compensate` takes back where one of the calls raises.
-/

namespace NyzRating.Tenancy.Provisioner

open Program

/-! ### Schemas -/

structure TenantSchemaHook where
  name : String
  revision : Option String := none
  /-- What the commits of `install` make of the tables, columns and indexes. -/
  install : List (List String → List String)
  tableNames : List String := []

/-- `tenant_migration_revision`. -/
def TenantSchemaHook.migrationRevision (hook : TenantSchemaHook) : String :=
  Users.stripped ((hook.revision.filter (· ≠ "")).getD hook.name)

/-- The schema of a tenant: its `schema_migrations`, if that table is there, its tables, columns and indexes, and the
rows of its users. -/
structure TenantSchema where
  migrations : Option (List String) := none
  objects : List String := []
  users : Users.Tables := {}
  deriving DecidableEq

namespace TenantSchema

def ensureMigrationTable (schema : TenantSchema) : TenantSchema :=
  { schema with migrations := some (schema.migrations.getD []) }

def installed (change : List String → List String) (schema : TenantSchema) : TenantSchema :=
  { schema with objects := change schema.objects }

/-- `record_tenant_migration`: `ON CONFLICT (revision) DO NOTHING`. -/
def recordMigration (revision : String) (schema : TenantSchema) : TenantSchema :=
  { schema with migrations := schema.migrations.map fun applied =>
      if revision ∈ applied then applied else applied ++ [revision] }

end TenantSchema

/-- The commits of the hooks whose revision is not applied. -/
def hookCommits : (applied : List String) → List TenantSchemaHook → List (TenantSchema → TenantSchema)
  | _, [] => []
  | applied, hook :: hooks =>
    let revision := hook.migrationRevision
    if revision ∈ applied then hookCommits applied hooks
    else
      hook.install.map TenantSchema.installed ++ TenantSchema.recordMigration revision ::
        hookCommits (revision :: applied) hooks

/-- The commits of `upgrade_tenant_schema` on a schema. -/
def upgradeCommits (hooks : List TenantSchemaHook) (schema : TenantSchema) : List (TenantSchema → TenantSchema) :=
  .ensureMigrationTable :: hookCommits (schema.migrations.getD []) hooks

/-- The schema after the first `commits` commits, of which the very first is `CREATE SCHEMA IF NOT EXISTS`. -/
def upgradedBy (hooks : List TenantSchemaHook) (before : Option TenantSchema) : (commits : Nat) → Option TenantSchema
  | 0 => before
  | n + 1 => some (((upgradeCommits hooks (before.getD {})).take n).foldl (fun schema commit => commit schema) (before.getD {}))

def upgradeTenantSchema (hooks : List TenantSchemaHook) (before : Option TenantSchema) : TenantSchema :=
  (upgradeCommits hooks (before.getD {})).foldl (fun schema commit => commit schema) (before.getD {})

theorem hookCommits_users : ∀ (hooks : List TenantSchemaHook) (applied : List String) (schema : TenantSchema),
    ∀ commit ∈ hookCommits applied hooks, (commit schema).users = schema.users
  | [], _, _, _, mem => absurd mem List.not_mem_nil
  | hook :: hooks, applied, schema, commit, mem => by
    simp only [hookCommits] at mem
    split at mem
    · exact hookCommits_users hooks _ schema commit mem
    · rcases List.mem_append.mp mem with install | later
      · obtain ⟨change, -, rfl⟩ := List.mem_map.mp install
        rfl
      · rcases List.mem_cons.mp later with rfl | later
        · rfl
        · exact hookCommits_users hooks _ schema commit later

/-- The migrations leave the rows of the users alone. -/
theorem upgradeTenantSchema_users (hooks : List TenantSchemaHook) (before : Option TenantSchema) :
    (upgradeTenantSchema hooks before).users = (before.getD {}).users := by
  have kept : ∀ schema, ∀ commit ∈ upgradeCommits hooks (before.getD {}), (commit schema).users = schema.users := by
    intro schema commit mem
    rcases List.mem_cons.mp mem with rfl | mem
    · rfl
    · exact hookCommits_users _ _ schema commit mem
  unfold upgradeTenantSchema
  refine List.foldlRecOn (motive := fun (schema : TenantSchema) => schema.users = _) _ _ rfl fun schema same commit mem => ?_
  exact (kept schema commit mem).trans same

/-- `list_missing_tenant_schema_tables`. -/
def missingTables (hooks : List TenantSchemaHook) (schema : TenantSchema) : List String :=
  (hooks.flatMap (·.tableNames)).dedup.filter (· ∉ schema.objects)

/-! ### Requests -/

structure TenantProvisioningRequest (Json : Type) where
  slug : String
  tenantName : String
  ownerEmail : String
  ownerName : Option String
  primaryDomain : String
  customDomain : Option String := none
  package : String := "free"
  featureFlags : Option Json := none
  limits : Option Json := none
  ownerActivateImmediately : Bool := false

structure ProvisioningCompensationPlan where
  schemaCreated : Bool := false
  tenantCreated : Bool := false
  actorChanged : Bool := false
  previousActorUserId : Option Nat := none
  configCreated : Bool := false
  domainsCreated : List String := []
  deriving DecidableEq, Repr

structure TenantProvisioningValidation where
  tenantExists : Bool
  ownerExists : Bool
  configExists : Bool
  primaryDomainExists : Bool
  customDomainExists : Bool
  schemaExists : Bool
  missingSchemaTables : List String := []
  deriving DecidableEq, Repr

def TenantProvisioningValidation.isConsistent (v : TenantProvisioningValidation) : Bool :=
  v.tenantExists && v.ownerExists && v.configExists && v.primaryDomainExists && v.schemaExists &&
    v.missingSchemaTables.isEmpty && v.customDomainExists

structure TenantDomainInfo where
  requestHost : String
  resolvedHost : String
  isCustomDomain : Bool
  verifiedAt : Option Int
  deriving DecidableEq, Repr

/-- The public tables and the tenants' schemas by name. -/
structure Installation (Json : Type) where
  registry : Registry Json := {}
  schemas : String → Option TenantSchema := fun _ => none

/-- The schema hooks in the order of their revisions, and the values that the services draw. -/
structure ProvisionEnv where
  hooks : List TenantSchemaHook
  now : Int
  passwordHash : String
  invite : Users.InvitePayload

inductive Step where
  | schema | tenant | owner | actor | config | primaryDomain | customDomain | activation | validation | snapshot
  deriving DecidableEq, Repr

inductive Undo where
  | domain (domain : String)
  | config | actor | tenant | schema
  deriving DecidableEq, Repr

/-- The calls that raise. A write may do so before it commits or after; the creation of the schema after any number of
its commits, and `recheck` is the second look whether the schema exists. -/
structure Faults where
  read : Step → Bool := fun _ => false
  write : Step → Option Fault := fun _ => none
  createSchema : Option Nat := none
  recheck : Bool := false

inductive ProvisionError where
  | valueError (message : String)
  | runtimeError (message : String)
  | undefinedTable
  | registry (e : RegistryError)
  | user (e : Users.UserError)
  | interrupted (step : Step)
  | undoInterrupted (undo : Undo)
  deriving DecidableEq, Repr

structure Provisioning (Json : Type) where
  world : Installation Json
  plan : ProvisioningCompensationPlan := {}

section

variable {Json : Type}

abbrev ProvisionM (Json : Type) := EStateM ProvisionError (Provisioning Json)

/-! ### Calls -/

def query (f : Faults) (step : Step) : ProvisionM Json Unit := if f.read step then throw (.interrupted step) else pure ()

def note (change : ProvisioningCompensationPlan → ProvisioningCompensationPlan) : ProvisionM Json Unit :=
  modify fun s => { s with plan := change s.plan }

def setSchema (slug : String) (schema : Option TenantSchema) : ProvisionM Json Unit :=
  modify fun s => { s with world := { s.world with schemas := Function.update s.world.schemas slug schema } }

/-- A statement on the public tables that returns nothing. -/
def onRegistry (change : Registry Json → Except RegistryError (Registry Json)) : ProvisionM Json Unit := do
  match change (← get).world.registry with
  | .ok registry => modify fun s => { s with world := { s.world with registry } }
  | .error e => throw (.registry e)

/-- The users of a tenant, as its search path reaches them. -/
def usersOf (slug : String) : ProvisionM Json Users.Tables := do
  match ((← get).world.schemas slug).filter fun schema => "users" ∈ schema.objects with
  | some schema => return schema.users
  | none => throw .undefinedTable

/-! ### The steps -/

def safeSlug (slug : String) : ProvisionM Json Unit :=
  if isSafeSlug slug then pure () else throw (.valueError ("Érvénytelen tenant slug: " ++ slug))

def schemaExists (slug : String) : ProvisionM Json Bool := do
  safeSlug slug
  return ((← get).world.schemas slug).isSome

def createSchema (env : ProvisionEnv) (f : Faults) (slug : String) : ProvisionM Json Unit := do
  safeSlug slug
  let before := (← get).world.schemas slug
  match f.createSchema with
  | some commits =>
    setSchema slug (upgradedBy env.hooks before commits)
    throw (.interrupted .schema)
  | none => setSchema slug (some (upgradeTenantSchema env.hooks before))

def ensureSchema (env : ProvisionEnv) (f : Faults) (slug : String) : ProvisionM Json Unit := do
  query f .schema
  let schemaPresentBefore ← schemaExists slug
  createSchema env f slug
  if !schemaPresentBefore then
    if f.recheck then throw (.interrupted .schema)
    if ← schemaExists slug then note ({ · with schemaCreated := true })

def ensureTenant (env : ProvisionEnv) (f : Faults) (r : TenantProvisioningRequest Json) : ProvisionM Json Nat := do
  query f .tenant
  match (← get).world.registry.getBySlug r.slug with
  | some id => return id
  | none =>
    let id := (← get).world.registry.nextTenantId
    let row : TenantRow := { slug := r.slug, name := r.tenantName, createdAt := env.now, isActive := false }
    attempt (f.write .tenant) (.interrupted .tenant) (onRegistry fun R => (R.create row).map (·.2))
    note ({ · with tenantCreated := true })
    return id

def TenantProvisioningRequest.owner (r : TenantProvisioningRequest Json) (env : ProvisionEnv) : Users.CreateInput where
  email := r.ownerEmail
  name := r.ownerName
  role := "owner"
  activateImmediately := r.ownerActivateImmediately
  passwordHash := env.passwordHash
  invite := env.invite
  now := env.now

/-- `UserService.create`, in the schema of the tenant. -/
def createUser (slug : String) (input : Users.CreateInput) : ProvisionM Json Users.User := do
  match Users.create (← usersOf slug) input with
  | .error e => throw (.user e)
  | .ok (user, users) =>
    setSchema slug (((← get).world.schemas slug).map ({ · with users }))
    return user

def ensureOwner (env : ProvisionEnv) (f : Faults) (r : TenantProvisioningRequest Json) : ProvisionM Json Users.User := do
  query f .owner
  match (← usersOf r.slug).getByEmail r.ownerEmail with
  | some existing => return existing
  | none => attempt (f.write .owner) (.interrupted .owner) (createUser r.slug (r.owner env))

def ensureActor (f : Faults) (tenantId ownerId : Nat) : ProvisionM Json Unit := do
  query f .actor
  let previousActor := (← get).world.registry.getActorUserId tenantId
  if previousActor ≠ some ownerId then
    note ({ · with previousActorUserId := previousActor })
    attempt (f.write .actor) (.interrupted .actor) (onRegistry fun R => return R.setActor tenantId (some ownerId))
    note ({ · with actorChanged := true })

def TenantProvisioningRequest.config [EmptyCollection Json] (r : TenantProvisioningRequest Json) : ConfigRow Json where
  package := r.package
  featureFlags := r.featureFlags.getD ∅
  limits := r.limits.getD ∅

def ensureConfig [EmptyCollection Json] (f : Faults) (r : TenantProvisioningRequest Json) (tenantId : Nat) :
    ProvisionM Json Unit := do
  query f .config
  if ((← get).world.registry.configs tenantId).isNone then note ({ · with configCreated := true })
  attempt (f.write .config) (.interrupted .config) (onRegistry (·.createConfig tenantId r.config))

def ensureDomain (f : Faults) (step : Step) (tenantId : Nat) (domain : String) : ProvisionM Json Unit := do
  if domain ≠ "" then
    query f step
    match (← get).world.registry.getDomain domain with
    | none =>
      attempt (f.write step) (.interrupted step) (onRegistry (·.createDomain tenantId domain none))
      note fun plan => { plan with domainsCreated := plan.domainsCreated ++ [domain] }
    | some existing => if existing.tenantId ≠ tenantId then throw (.valueError "domain_taken")

/-- `assert_transition` to the active state, of a tenant that is active or not. -/
def assertCanActivate : (isActive : Option Bool) → ProvisionM Json Unit
  | none => throw (.valueError "invalid_tenant_transition:provisioning->active")
  | some true => throw (.valueError "invalid_tenant_transition:active->active")
  | some false => pure ()

def ensureActivation (f : Faults) (tenantId : Nat) (slug : String) : ProvisionM Json Unit := do
  query f .activation
  let status := (← get).world.registry.getTenantStatus slug
  if status ≠ some true then
    assertCanActivate status
    attempt (f.write .activation) (.interrupted .activation) (onRegistry fun R => return R.activate tenantId)

/-- `TenantProvisioningValidator.validate`. -/
def validate (env : ProvisionEnv) (r : TenantProvisioningRequest Json) : ProvisionM Json TenantProvisioningValidation := do
  let registry := (← get).world.registry
  let tenant := registry.getBySlug r.slug
  let ownerExists ← match tenant with
    | none => pure false
    | some _ => do pure (((← usersOf r.slug).getByEmail r.ownerEmail).any (·.isOwner))
  let owned (domain : String) : Bool := (registry.getDomain domain).any fun row => tenant = some row.tenantId
  let schemaExists ← schemaExists r.slug
  return {
    tenantExists := tenant.isSome
    ownerExists
    configExists := (tenant.bind registry.configs).isSome
    primaryDomainExists := owned r.primaryDomain
    customDomainExists := r.customDomain.all fun domain => domain ≠ "" && owned domain
    schemaExists
    missingSchemaTables := (((← get).world.schemas r.slug).map (missingTables env.hooks)).getD [] }

def validateProvisioningState (env : ProvisionEnv) (f : Faults) (r : TenantProvisioningRequest Json) : ProvisionM Json Unit := do
  query f .validation
  if !(← validate env r).isConsistent then throw (.runtimeError "tenant_provisioning_inconsistent")

/-- The snapshot with the primary domain. -/
def readSnapshot [EmptyCollection Json] (f : Faults) (r : TenantProvisioningRequest Json) :
    ProvisionM Json (TenantSnapshot Json × TenantDomainInfo) := do
  query f .snapshot
  match (← get).world.registry.getSnapshotBySlug r.slug with
  | none => throw (.runtimeError "tenant_snapshot_missing_after_provisioning")
  | some snapshot =>
    return (snapshot,
      { requestHost := r.primaryDomain, resolvedHost := r.primaryDomain, isCustomDomain := false, verifiedAt := none })

/-- What `provision` does before anything is taken back. -/
def provisionSteps [EmptyCollection Json] (env : ProvisionEnv) (f : Faults) (r : TenantProvisioningRequest Json) :
    ProvisionM Json (TenantSnapshot Json × TenantDomainInfo) := do
  ensureSchema env f r.slug
  let tenantId ← ensureTenant env f r
  let owner ← ensureOwner env f r
  ensureActor f tenantId owner.id
  ensureConfig f r tenantId
  ensureDomain f .primaryDomain tenantId r.primaryDomain
  ensureDomain f .customDomain tenantId (r.customDomain.getD "")
  ensureActivation f tenantId r.slug
  validateProvisioningState env f r
  readSnapshot f r

/-! ### Compensation -/

/-- Takes one write back, on the tenant of the slug if it is there. -/
def takeBack (undo : Undo → Option Fault) (step : Undo) (slug : String) (change : Nat → Registry Json → Registry Json) :
    ProvisionM Json Unit := do
  match (← get).world.registry.getBySlug slug with
  | none => if (undo step).isSome then throw (.undoInterrupted step)
  | some id => attempt (undo step) (.undoInterrupted step) (onRegistry fun R => return change id R)

def deleteDomains (undo : Undo → Option Fault) : List String → ProvisionM Json Unit
  | [] => pure ()
  | domain :: domains => do
    attempt (undo (.domain domain)) (.undoInterrupted (.domain domain)) (onRegistry fun R => return R.deleteDomain domain none)
    deleteDomains undo domains

/-- `_compensate`. -/
def compensate (undo : Undo → Option Fault) (slug : String) : ProvisionM Json Unit := do
  let plan := (← get).plan
  deleteDomains undo plan.domainsCreated.reverse
  if plan.configCreated then takeBack undo .config slug fun id R => R.deleteConfig id
  if plan.actorChanged then takeBack undo .actor slug fun id R => R.setActor id plan.previousActorUserId
  if plan.tenantCreated then attempt (undo .tenant) (.undoInterrupted .tenant) (onRegistry (·.deleteBySlug slug))
  if plan.schemaCreated then attempt (undo .schema) (.undoInterrupted .schema) (setSchema slug none)

/-- `provision`. -/
def provision [EmptyCollection Json] (env : ProvisionEnv) (f : Faults) (undo : Undo → Option Fault)
    (r : TenantProvisioningRequest Json) : ProvisionM Json (TenantSnapshot Json × TenantDomainInfo) := do
  modify fun s => { s with plan := {} }
  tryCatch (provisionSteps env f r) fun e => do
    compensate undo r.slug
    throw e

/-! ### The calls -/

variable {f : Faults} {P : Provisioning Json → Prop} {F : ProvisionError → Provisioning Json → Prop} {t : Provisioning Json}

theorem settles_query {step : Step} (raised : f.read step = true → ∀ s, P s → F (.interrupted step) s) :
    Settles P (query f step) (fun _ s => f.read step = false ∧ P s) F := by
  unfold query
  refine Settles.ite (fun fails => Settles.throw (raised fails)) fun works => Settles.pure fun s h => ⟨?_, h⟩
  simpa using works

theorem run_onRegistry {change : Registry Json → Except RegistryError (Registry Json)} {R : Registry Json}
    (done : change t.world.registry = .ok R) :
    (onRegistry change).run t = .ok () { t with world := { t.world with registry := R } } := by
  simp [onRegistry, done]

theorem run_setSchema (slug : String) (schema : Option TenantSchema) : (setSchema slug schema).run t =
    .ok () { t with world := { t.world with schemas := Function.update t.world.schemas slug schema } } := rfl

theorem run_usersOf {slug : String} {schema : TenantSchema} (there : t.world.schemas slug = some schema)
    (users : "users" ∈ schema.objects) : (usersOf slug).run t = .ok schema.users t := by
  have found : (some schema).filter (fun schema => decide ("users" ∈ schema.objects)) = some schema := by simp [users]
  simp only [usersOf, EStateM.run_bind, EStateM.run_get, there, found]
  rfl

theorem run_usersOf_undefined {slug : String} {schema : TenantSchema} (there : t.world.schemas slug = some schema)
    (users : "users" ∉ schema.objects) : (usersOf slug).run t = .error .undefinedTable t := by
  have found : (some schema).filter (fun schema => decide ("users" ∈ schema.objects)) = none := by simp [users]
  simp only [usersOf, EStateM.run_bind, EStateM.run_get, there, found]
  rfl

theorem run_createUser {slug : String} {schema : TenantSchema} {input : Users.CreateInput} {user : Users.User}
    {users : Users.Tables} (there : t.world.schemas slug = some schema) (table : "users" ∈ schema.objects)
    (created : Users.create schema.users input = .ok (user, users)) : (createUser slug input).run t =
      .ok user { t with world := { t.world with schemas := Function.update t.world.schemas slug (some { schema with users }) } } := by
  rw [createUser, EStateM.run_bind, run_usersOf there table]
  simp only [created, EStateM.run_bind, EStateM.run_get, there, Option.map_some, run_setSchema]
  rfl

theorem run_createUser_refused {slug : String} {schema : TenantSchema} {input : Users.CreateInput} {e : Users.UserError}
    (there : t.world.schemas slug = some schema) (table : "users" ∈ schema.objects)
    (refused : Users.create schema.users input = .error e) : (createUser slug input).run t = .error (.user e) t := by
  rw [createUser, EStateM.run_bind, run_usersOf there table]
  simp [refused]

theorem run_schemaExists {slug : String} (safe : isSafeSlug slug = true) :
    (schemaExists slug).run t = .ok (t.world.schemas slug).isSome t := by
  rw [schemaExists, safeSlug, if_pos safe]
  rfl

theorem settles_schemaExists {slug : String}
    (refused : isSafeSlug slug = false → F (.valueError ("Érvénytelen tenant slug: " ++ slug)) t) :
    Settles (· = t) (schemaExists slug)
      (fun a u => isSafeSlug slug = true ∧ a = (t.world.schemas slug).isSome ∧ u = t) F := by
  cases safe : isSafeSlug slug with
  | true => exact (Settles.of_run (run_schemaExists safe)).mono (fun _ _ h => ⟨rfl, h⟩) fun _ _ h => h
  | false =>
    refine Settles.of_run_error ?_ (refused safe)
    rw [schemaExists, safeSlug, if_neg (by simp [safe])]
    rfl

/-- The creation of a schema leaves it built, or raises where it is broken off. -/
theorem settles_createSchema {env : ProvisionEnv} {slug : String} (safe : isSafeSlug slug = true)
    (raised : ∀ commits, f.createSchema = some commits → F (.interrupted .schema) { t with world := { t.world with
      schemas := Function.update t.world.schemas slug (upgradedBy env.hooks (t.world.schemas slug) commits) } }) :
    Settles (· = t) (createSchema env f slug)
      (fun _ u => f.createSchema = none ∧ u = { t with world := { t.world with
        schemas := Function.update t.world.schemas slug (some (upgradeTenantSchema env.hooks (t.world.schemas slug))) } }) F := by
  have set : ∀ schema, Settles (· = t) (setSchema slug schema) (fun _ u => u = { t with world := { t.world with
      schemas := Function.update t.world.schemas slug schema } }) F :=
    fun schema => Settles.modify fun u hu => by rw [hu]
  unfold createSchema safeSlug
  rw [if_pos safe, pure_bind]
  refine Settles.get_bind ?_
  rintro _ rfl
  cases fails : f.createSchema with
  | some commits => exact Settles.bind (set _) fun _ => Settles.throw fun u hu => hu ▸ raised commits fails
  | none => exact (set _).mono (fun _ u hu => ⟨rfl, hu⟩) fun _ _ h => h

end

end NyzRating.Tenancy.Provisioner
