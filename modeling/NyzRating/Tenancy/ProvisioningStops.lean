import NyzRating.Tenancy.Provisioner

/-!
# Where a provisioning raises

The request, the calls that fail and the tables before it decide which step raises first (`stopOf`), and with that what
the provisioning has written and what its plan knows there (`At`).
-/

namespace NyzRating.Tenancy.Provisioner

open Program

/-- The step at which a provisioning raises, before or after what it writes has been committed. -/
abbrev Stop := Step × Fault

def Step.position : Step → Nat
  | .schema => 0
  | .tenant => 1
  | .owner => 2
  | .actor => 3
  | .config => 4
  | .primaryDomain => 5
  | .customDomain => 6
  | .activation => 7
  | .validation => 8
  | .snapshot => 9

/-- The step has returned. -/
def Stop.passed (stop : Stop) (step : Step) : Bool := step.position < stop.1.position

/-- What the step writes has been committed. -/
def Stop.written (stop : Stop) (step : Step) : Bool := stop.passed step || stop = (step, .after)

section

variable {Json : Type}
variable (env : ProvisionEnv) (f : Faults) (s : Installation Json) (r : TenantProvisioningRequest Json)

/-! ### What the steps find and make -/

/-- The schema after its creation, or after the migrations that it lacked. -/
def builtSchema : TenantSchema := upgradeTenantSchema env.hooks (s.schemas r.slug)

def tenantId : Nat := (s.registry.getBySlug r.slug).getD s.registry.nextTenantId

def tenantRow : TenantRow :=
  (s.registry.tenants (tenantId s r)).getD { slug := r.slug, name := r.tenantName, createdAt := env.now, isActive := false }

/-- The owner is there before. -/
def existingOwner : Option Users.User := (builtSchema env s r).users.getByEmail r.ownerEmail

/-- The owner with the users among which it then is, unless there is none. -/
def ownerOf : Option (Users.User × Users.Tables) :=
  if "users" ∉ (builtSchema env s r).objects then none
  else
    match existingOwner env s r with
    | some user => some (user, (builtSchema env s r).users)
    | none => (Users.create (builtSchema env s r).users (r.owner env)).toOption

def ownerId : Nat := (ownerOf env s r).elim 0 (·.1.id)

def ownerUsers : Users.Tables := (ownerOf env s r).elim {} (·.2)

/-- The domains with one more of the tenant, unless there is such a domain. -/
def withDomain (id : Nat) (domain : String) (domains : String → Option DomainRow) : String → Option DomainRow :=
  if domain = "" ∨ (domains (normalizeDomain domain)).isSome then domains
  else Function.update domains (normalizeDomain domain) (some { tenantId := id })

/-- The domain is created, where its step has returned. -/
def created (domain : String) (domains : String → Option DomainRow) : List String :=
  if domain = "" ∨ (domains (normalizeDomain domain)).isSome then [] else [domain]

def primaryDomains : String → Option DomainRow := withDomain (tenantId s r) r.primaryDomain s.registry.domains

def customDomains : String → Option DomainRow := withDomain (tenantId s r) (r.customDomain.getD "") (primaryDomains s r)

/-- What the validation finds after all steps. -/
def isConsistent : Bool :=
  let owned (domain : String) : Bool := ((customDomains s r) (normalizeDomain domain)).any fun row => tenantId s r = row.tenantId
  ((ownerUsers env s r).getByEmail r.ownerEmail).any (·.isOwner) && owned r.primaryDomain &&
    (missingTables env.hooks (builtSchema env s r)).isEmpty && r.customDomain.all fun domain => domain ≠ "" && owned domain

/-! ### Where a provisioning raises -/

/-- A step that reads, and writes where that is needed. -/
def stepStop (step : Step) (needed : Bool) : Option Stop :=
  if f.read step then some (step, .before) else if needed then (f.write step).map (step, ·) else none

def schemaStop : Option Stop :=
  if f.read .schema || !isSafeSlug r.slug then some (.schema, .before)
  else if f.createSchema.isSome || (s.schemas r.slug).isNone && f.recheck then some (.schema, .after)
  else none

def ownerStop : Option Stop :=
  if (ownerOf env s r).isNone then some (.owner, .before) else stepStop f .owner (existingOwner env s r).isNone

def domainStop (step : Step) (id : Nat) (domain : String) (domains : String → Option DomainRow) : Option Stop :=
  if domain = "" then none
  else if (domains (normalizeDomain domain)).any (·.tenantId ≠ id) then some (step, .before)
  else stepStop f step (domains (normalizeDomain domain)).isNone

def validationStop : Option Stop :=
  if f.read .validation || !isConsistent env s r then some (.validation, .before) else none

/-- The first step that raises. -/
def stopOf : Option Stop :=
  schemaStop f s r
  <|> stepStop f .tenant (s.registry.getBySlug r.slug).isNone
  <|> ownerStop env f s r
  <|> stepStop f .actor (s.registry.getActorUserId (tenantId s r) ≠ some (ownerId env s r))
  <|> stepStop f .config true
  <|> domainStop f .primaryDomain (tenantId s r) r.primaryDomain s.registry.domains
  <|> domainStop f .customDomain (tenantId s r) (r.customDomain.getD "") (primaryDomains s r)
  <|> stepStop f .activation (!(tenantRow env s r).isActive)
  <|> validationStop env f s r
  <|> stepStop f .snapshot false

/-! ### On the way -/

/-- The schema of a creation that was broken off. -/
def interruptedSchema : Option TenantSchema :=
  match f.createSchema with
  | some commits => upgradedBy env.hooks (s.schemas r.slug) commits
  | none => some (builtSchema env s r)

/-- What the plan knows where a provisioning raises. -/
structure PlanAt (stop : Stop) (plan : ProvisioningCompensationPlan) : Prop where
  schema : plan.schemaCreated = (stop.passed .schema && (s.schemas r.slug).isNone)
  tenant : plan.tenantCreated = (stop.passed .tenant && (s.registry.getBySlug r.slug).isNone)
  actor : plan.actorChanged = (stop.passed .actor && s.registry.getActorUserId (tenantId s r) ≠ some (ownerId env s r))
  previous : plan.actorChanged = true → plan.previousActorUserId = s.registry.getActorUserId (tenantId s r)
  config : plan.configCreated = true → s.registry.configs (tenantId s r) = none
  configured : stop.written .config → s.registry.configs (tenantId s r) = none → plan.configCreated = true
  domains : plan.domainsCreated =
    (if stop.passed .primaryDomain then created r.primaryDomain s.registry.domains else []) ++
      if stop.passed .customDomain then created (r.customDomain.getD "") (primaryDomains s r) else []

section
variable {env f s r}

/-- A plan says as much of two places between which none of its steps returns. -/
theorem PlanAt.congr {stop next : Stop} {plan : ProvisioningCompensationPlan} (h : PlanAt env s r stop plan)
    (passed : ∀ step ∈ [Step.schema, .tenant, .actor, .primaryDomain, .customDomain], stop.passed step = next.passed step)
    (written : next.written .config = true → stop.written .config = true) : PlanAt env s r next plan where
  schema := by rw [h.schema, passed .schema (by simp)]
  tenant := by rw [h.tenant, passed .tenant (by simp)]
  actor := by rw [h.actor, passed .actor (by simp)]
  previous := h.previous
  config := h.config
  configured := fun done => h.configured (written done)
  domains := by rw [h.domains, passed .primaryDomain (by simp), passed .customDomain (by simp)]

theorem PlanAt.after {step : Step} {plan : ProvisioningCompensationPlan} (h : PlanAt env s r (step, .before) plan)
    (other : step ≠ .config) : PlanAt env s r (step, .after) plan := by
  refine h.congr (fun _ _ => rfl) fun done => ?_
  simpa [Stop.written, Stop.passed, other] using done

theorem stepStop_write {step : Step} {moment : Fault} (works : f.read step = false) (fails : f.write step = some moment) :
    stepStop f step true = some (step, moment) := by simp [stepStop, works, fails]

theorem tenantId_of_some {id : Nat} (found : s.registry.getBySlug r.slug = some id) : tenantId s r = id := by
  simp [tenantId, found]

variable (env) in
theorem tenantRow_of_some {id : Nat} (found : s.registry.getBySlug r.slug = some id) :
    s.registry.tenants (tenantId s r) = some (tenantRow env s r) := by
  obtain ⟨row, stored, -⟩ := Registry.getBySlug_row found
  rw [tenantRow, tenantId_of_some found, stored, Option.getD_some]

variable (env) in
theorem tenantRow_of_none (consistent : s.registry.Consistent) (new : s.registry.getBySlug r.slug = none) :
    tenantRow env s r = { slug := r.slug, name := r.tenantName, createdAt := env.now, isActive := false } := by
  simp [tenantRow, tenantId, new, consistent.new]

variable (env) in
theorem tenantRow_slug (consistent : s.registry.Consistent) : (tenantRow env s r).slug = r.slug := by
  cases found : s.registry.getBySlug r.slug with
  | some id =>
    obtain ⟨row, stored, slug⟩ := Registry.getBySlug_row found
    have same := tenantRow_of_some env found
    rw [tenantId_of_some found, stored] at same
    rw [← Option.some.inj same, slug]
  | none => rw [tenantRow_of_none env consistent found]

variable (env) in
theorem tenantRow_createdBy (consistent : s.registry.Consistent) :
    (tenantRow env s r).createdBy = s.registry.getActorUserId (tenantId s r) := by
  cases found : s.registry.getBySlug r.slug with
  | some id => rw [Registry.getActorUserId, tenantRow_of_some env found, Option.bind_some]
  | none =>
    rw [tenantRow_of_none env consistent found, Registry.getActorUserId, tenantId, found, Option.getD_none, consistent.new]
    rfl

end

/-- What holds of the tables where the first step to raise is `stop`. -/
structure Reached (stop : Stop) : Prop where
  tenant : stop = (.tenant, .after) → s.registry.getBySlug r.slug = none
  owner : stop.written .owner = true → (ownerOf env s r).isSome
  actor : stop = (.actor, .after) → s.registry.getActorUserId (tenantId s r) ≠ some (ownerId env s r)
  primaryDomain : stop = (.primaryDomain, .after) → r.primaryDomain ≠ "" ∧
    s.registry.domains (normalizeDomain r.primaryDomain) = none
  customDomain : stop = (.customDomain, .after) → r.customDomain.getD "" ≠ "" ∧
    primaryDomains s r (normalizeDomain (r.customDomain.getD "")) = none

section
variable {env f s r}

theorem stepStop_some {step : Step} {needed : Bool} {stop : Stop} (h : stepStop f step needed = some stop) :
    stop.1 = step ∧ (stop.2 = .after → needed = true) := by
  unfold stepStop at h
  split at h
  · cases h
    exact ⟨rfl, nofun⟩
  · split at h
    · next need =>
      obtain ⟨moment, -, rfl⟩ := Option.map_eq_some_iff.mp h
      exact ⟨rfl, fun _ => need⟩
    · cases h

theorem domainStop_some {step : Step} {id : Nat} {domain : String} {domains : String → Option DomainRow} {stop : Stop}
    (h : domainStop f step id domain domains = some stop) :
    stop.1 = step ∧ (stop.2 = .after → domain ≠ "" ∧ domains (normalizeDomain domain) = none) := by
  unfold domainStop at h
  split at h
  · cases h
  · next asked =>
    split at h
    · cases h
      exact ⟨rfl, nofun⟩
    · obtain ⟨own, need⟩ := stepStop_some h
      exact ⟨own, fun after => ⟨asked, Option.isNone_iff_eq_none.mp (need after)⟩⟩

theorem schemaStop_some {stop : Stop} (h : schemaStop f s r = some stop) : stop.1 = .schema := by
  unfold schemaStop at h
  split at h
  · cases h
    rfl
  · split at h <;> cases h
    rfl

theorem validationStop_some {stop : Stop} (h : validationStop env f s r = some stop) : stop = (.validation, .before) := by
  unfold validationStop at h
  split at h <;> cases h
  rfl

theorem ownerStop_some {stop : Stop} (h : ownerStop env f s r = some stop) :
    stop.1 = .owner ∧ (stop.2 = .after → (ownerOf env s r).isSome) := by
  unfold ownerStop at h
  split at h
  · cases h
    exact ⟨rfl, nofun⟩
  · next there => exact ⟨(stepStop_some h).1, fun _ => by simpa [Option.isSome_iff_ne_none] using there⟩

theorem ownerOf_of_passed (h : ownerStop env f s r = none) : (ownerOf env s r).isSome := by
  cases there : ownerOf env s r with
  | none => simp [ownerStop, there] at h
  | some _ => rfl

theorem reached_of_stopOf {stop : Stop} (h : stopOf env f s r = some stop) : Reached env s r stop := by
  obtain ⟨step, moment⟩ := stop
  simp only [stopOf, Option.orElse_eq_orElse, Option.orElse_eq_or, Option.or_eq_some_iff] at h
  have early : ∀ {step : Step}, step.position < 2 → (Stop.written (step, moment) .owner = true → (ownerOf env s r).isSome) := by
    intro step before written
    cases step <;> simp [Stop.written, Stop.passed, Step.position] at before written
  obtain h | ⟨-, h | ⟨-, h | ⟨owned, h⟩⟩⟩ := h
  · obtain rfl := schemaStop_some h
    exact ⟨nofun, early (by decide), nofun, nofun, nofun⟩
  · obtain ⟨rfl, needed⟩ := stepStop_some h
    refine ⟨fun same => ?_, early (by decide), nofun, nofun, nofun⟩
    exact Option.isNone_iff_eq_none.mp (needed (congrArg (·.2) same))
  · obtain ⟨rfl, there⟩ := ownerStop_some h
    refine ⟨nofun, fun written => there ?_, nofun, nofun, nofun⟩
    simpa [Stop.written, Stop.passed] using written
  have owner := ownerOf_of_passed owned
  obtain h | ⟨-, h | ⟨-, h | ⟨-, h | ⟨-, h | ⟨-, h | ⟨-, h⟩⟩⟩⟩⟩⟩ := h
  · obtain ⟨rfl, needed⟩ := stepStop_some h
    exact ⟨nofun, fun _ => owner, fun same => of_decide_eq_true (needed (congrArg (·.2) same)), nofun, nofun⟩
  · obtain ⟨rfl, -⟩ := stepStop_some h
    exact ⟨nofun, fun _ => owner, nofun, nofun, nofun⟩
  · obtain ⟨rfl, needed⟩ := domainStop_some h
    exact ⟨nofun, fun _ => owner, nofun, fun same => needed (congrArg (·.2) same), nofun⟩
  · obtain ⟨rfl, needed⟩ := domainStop_some h
    exact ⟨nofun, fun _ => owner, nofun, nofun, fun same => needed (congrArg (·.2) same)⟩
  · obtain ⟨rfl, -⟩ := stepStop_some h
    exact ⟨nofun, fun _ => owner, nofun, nofun, nofun⟩
  · cases validationStop_some h
    exact ⟨nofun, fun _ => owner, nofun, nofun, nofun⟩
  · obtain ⟨rfl, -⟩ := stepStop_some h
    exact ⟨nofun, fun _ => owner, nofun, nofun, nofun⟩

end

variable [EmptyCollection Json]

def schemaAt (stop : Stop) : Option TenantSchema :=
  if stop.passed .schema then
    let built := builtSchema env s r
    some (if stop.written .owner then { built with users := ownerUsers env s r } else built)
  else if stop.written .schema then interruptedSchema env f s r
  else s.schemas r.slug

def rowAt (stop : Stop) : TenantRow :=
  let row := tenantRow env s r
  { row with
    createdBy := if stop.written .actor then some (ownerId env s r) else row.createdBy
    isActive := stop.written .activation || row.isActive }

def domainsAt (stop : Stop) : String → Option DomainRow :=
  if stop.written .customDomain then customDomains s r
  else if stop.written .primaryDomain then primaryDomains s r
  else s.registry.domains

/-- The tables where a provisioning raises. -/
def worldAt (stop : Stop) : Installation Json where
  registry :=
    { tenants := if stop.written .tenant then Function.update s.registry.tenants (tenantId s r) (some (rowAt env s r stop))
        else s.registry.tenants
      configs := if stop.written .config then Function.update s.registry.configs (tenantId s r) (some r.config)
        else s.registry.configs
      domains := domainsAt s r stop
      nextTenantId := if stop.written .tenant && (s.registry.getBySlug r.slug).isNone then s.registry.nextTenantId + 1
        else s.registry.nextTenantId }
  schemas := Function.update s.schemas r.slug (schemaAt env f s r stop)

structure At (stop : Stop) (t : Provisioning Json) : Prop where
  world : t.world = worldAt env f s r stop
  plan : PlanAt env s r stop t.plan

/-! ### The calls -/

variable {env f s r}
variable {F : ProvisionError → Provisioning Json → Prop} {t : Provisioning Json}

/-- The call raises where that is known to be. -/
def Raises (env : ProvisionEnv) (f : Faults) (s : Installation Json) (r : TenantProvisioningRequest Json) (stop : Option Stop)
    (_ : ProvisionError) (t : Provisioning Json) : Prop := ∃ place, stop = some place ∧ At env f s r place t

theorem at_start : At env f s r (.schema, .before) { world := s } where
  world := by simp [worldAt, schemaAt, domainsAt, Stop.written, Stop.passed, Step.position]
  plan := by constructor <;> simp [Stop.written, Stop.passed, Step.position]

theorem ensureSchema_settles : Settles (· = { world := s }) (ensureSchema env f r.slug)
    (fun _ t => schemaStop f s r = none ∧ At env f s r (.tenant, .before) t) (Raises env f s r (schemaStop f s r)) := by
  have early : ∀ e u, (f.read .schema || !isSafeSlug r.slug) = true → u = { world := s } →
      Raises env f s r (schemaStop f s r) e u := by
    rintro e _ raised rfl
    exact ⟨(_, .before), if_pos raised, at_start⟩
  unfold ensureSchema
  refine Settles.bind (settles_query fun fails u hu => early _ u (by simp [fails]) hu) fun _ => Settles.given fun works => ?_
  refine Settles.bind (settles_schemaExists fun unsafely => early _ _ (by simp [unsafely]) rfl) fun present => ?_
  refine Settles.given fun safe => Settles.given fun known => ?_
  have known : present = (s.schemas r.slug).isSome := known
  have goes : schemaStop f s r = if f.createSchema.isSome || (s.schemas r.slug).isNone && f.recheck then
      some (.schema, .after) else none := by simp [schemaStop, works, safe]
  -- what the creation leaves where it, or the look after it, raises
  have broken : ∀ e, (f.createSchema.isSome || (s.schemas r.slug).isNone && f.recheck) = true →
      Raises env f s r (schemaStop f s r) e
        { world := { s with schemas := Function.update s.schemas r.slug (interruptedSchema env f s r) } } := by
    intro e raised
    refine ⟨(_, .after), by rw [goes, if_pos raised], ?_, ?_⟩
    · simp [worldAt, schemaAt, domainsAt, Stop.written, Stop.passed, Step.position]
    · constructor <;> simp [Stop.written, Stop.passed, Step.position]
  have built : f.createSchema = none → interruptedSchema env f s r = some (builtSchema env s r) := fun whole => by
    simp [interruptedSchema, whole]
  have stands : ∀ plan, PlanAt env s r (.tenant, .before) plan → At env f s r (.tenant, .before)
      { world := { s with schemas := Function.update s.schemas r.slug (some (builtSchema env s r)) }, plan } := by
    intro plan noted
    exact ⟨by simp [worldAt, schemaAt, domainsAt, Stop.written, Stop.passed, Step.position], noted⟩
  have create : Settles (· = { world := s }) (createSchema env f r.slug)
      (fun _ u => f.createSchema = none ∧
        u = { world := { s with schemas := Function.update s.schemas r.slug (some (builtSchema env s r)) } })
      (Raises env f s r (schemaStop f s r)) := by
    refine settles_createSchema safe fun commits fails => ?_
    have same : interruptedSchema env f s r = upgradedBy env.hooks (s.schemas r.slug) commits := by
      simp [interruptedSchema, fails]
    rw [← same]
    exact broken _ (by simp [fails])
  refine Settles.bind create fun _ => Settles.given fun whole => ?_
  rw [known]
  refine Settles.ite (fun absent => ?_) fun there => Settles.pure ?_
  · have absent : s.schemas r.slug = none := by simpa using absent
    refine Settles.ite (fun fails => Settles.throw_bind ?_) fun looks => ?_
    · rintro _ rfl
      have left := broken (.interrupted .schema) (by simp [absent, fails])
      rwa [built whole] at left
    · refine Settles.bind (settles_schemaExists fun unsafely => by simp [safe] at unsafely) fun present => ?_
      refine Settles.given fun _ => Settles.given fun present => ?_
      have present := present.trans (by simp : _ = true)
      rw [present, if_pos rfl]
      refine Settles.modify ?_
      rintro _ rfl
      refine ⟨by simp [goes, whole, looks], stands _ ?_⟩
      constructor <;> simp [Stop.written, Stop.passed, Step.position, absent]
  · rintro _ rfl
    have there : (s.schemas r.slug).isNone = false := by simpa [Option.isSome_iff_ne_none] using there
    refine ⟨by simp [goes, whole, there], stands _ ?_⟩
    constructor <;> simp [Stop.written, Stop.passed, Step.position, there]

/-- The read of a step raises. -/
theorem raises_read {step : Step} {needed : Bool} (fails : f.read step = true) (t : Provisioning Json)
    (there : At env f s r (step, .before) t) : Raises env f s r (stepStop f step needed) (.interrupted step) t :=
  ⟨(_, .before), by simp [stepStop, fails], there⟩

/-- The write of a step raises before it has an effect, or after. -/
theorem settles_write {α : Type} {step : Step} {m : ProvisionM Json α} {a : α} {u : Provisioning Json}
    (works : f.read step = false) (there : At env f s r (step, .before) t) (run : m.run t = .ok a u)
    (done : At env f s r (step, .after) u) :
    Settles (· = t) (attempt (f.write step) (.interrupted step) m)
      (fun b v => (stepStop f step true = none ∧ b = a) ∧ v = u) (Raises env f s r (stepStop f step true)) := by
  refine Settles.attempt (Settles.of_run run) (fun whole b v hv => ?_) (fun fails v hv => ?_) fun fails b v hv => ?_
  · exact ⟨⟨by simp [stepStop, works, whole], hv.1⟩, hv.2⟩
  · exact ⟨(_, .before), stepStop_write works fails, hv ▸ there⟩
  · exact ⟨(_, .after), stepStop_write works fails, hv.2 ▸ done⟩

theorem worldAt_congr {stop next : Stop} (passed : stop.passed .schema = next.passed .schema)
    (written : ∀ step, stop.written step = next.written step) : worldAt env f s r stop = worldAt env f s r next := by
  simp only [worldAt, schemaAt, rowAt, domainsAt, passed, written]

/-- Where a step has written, the next one starts. -/
theorem worldAt_next {step next : Step} (passed : step ≠ .schema) (follows : next.position = step.position + 1) :
    worldAt env f s r (step, .after) = worldAt env f s r (next, .before) := by
  have started : 0 < step.position := by cases step <;> simp [Step.position] at passed ⊢
  refine worldAt_congr ?_ fun other => ?_
  · have later : 0 < next.position := by omega
    exact (decide_eq_true started).trans (decide_eq_true later).symm
  · rw [Bool.eq_iff_iff]
    have same : other = step ↔ other.position = step.position := by
      cases other <;> cases step <;> simp [Step.position]
    simp only [Stop.written, Stop.passed, follows, Bool.or_eq_true, decide_eq_true_eq, Prod.mk.injEq, and_true, reduceCtorEq,
      and_false, or_false, eq_comm (a := step), same]
    omega

theorem ensureTenant_settles (consistent : s.registry.Consistent) :
    Settles (At env f s r (.tenant, .before)) (ensureTenant env f r)
      (fun id t => stepStop f .tenant (s.registry.getBySlug r.slug).isNone = none ∧ id = tenantId s r ∧
        At env f s r (.owner, .before) t)
      (Raises env f s r (stepStop f .tenant (s.registry.getBySlug r.slug).isNone)) := by
  unfold ensureTenant
  refine Settles.bind (settles_query fun fails t there => raises_read fails t there) fun _ => Settles.given fun works => ?_
  refine Settles.get_bind fun t there => ?_
  have registry : t.world.registry = s.registry := by
    rw [there.world]
    simp [worldAt, domainsAt, Stop.written, Stop.passed, Step.position]
  have next : worldAt env f s r (.tenant, .after) = worldAt env f s r (.owner, .before) := worldAt_next nofun rfl
  rw [registry]
  cases found : s.registry.getBySlug r.slug with
  | some id =>
    refine Settles.pure ?_
    rintro _ rfl
    have kept := Function.update_eq_self (tenantId s r) s.registry.tenants
    rw [tenantRow_of_some env found] at kept
    refine ⟨by simp [stepStop, works], (tenantId_of_some found).symm, ?_, ?_⟩
    · rw [there.world]
      simp [worldAt, domainsAt, schemaAt, rowAt, Stop.written, Stop.passed, Step.position, kept, found]
    · exact ⟨by simp [there.plan.schema, Stop.passed, Step.position], by simp [there.plan.tenant, found],
        by simp [there.plan.actor, Stop.passed, Step.position], there.plan.previous, there.plan.config,
        by simp [Stop.written, Stop.passed, Step.position], by simp [there.plan.domains, Stop.passed, Step.position]⟩
  | none =>
    have own : tenantId s r = s.registry.nextTenantId := by simp [tenantId, found]
    have fresh := tenantRow_of_none env consistent found
    have create : (t.world.registry.create { slug := r.slug, name := r.tenantName, createdAt := env.now, isActive := false }).map
        (·.2) = .ok (worldAt env f s r (.tenant, .after)).registry := by
      rw [registry]
      simp [Registry.create, found, own, fresh, worldAt, rowAt, domainsAt, Stop.written, Stop.passed, Step.position]
      rfl
    have world : (worldAt env f s r (.tenant, .after)) =
        { t.world with registry := (worldAt env f s r (.tenant, .after)).registry } := by
      rw [there.world]
      simp [worldAt, schemaAt, Stop.written, Stop.passed, Step.position]
    have done : At env f s r (.tenant, .after)
        { t with world := { t.world with registry := (worldAt env f s r (.tenant, .after)).registry } } := by
      exact ⟨world.symm, there.plan.after nofun⟩
    refine Settles.get_bind ?_
    rintro _ rfl
    refine Settles.bind (settles_write works there (run_onRegistry create) done) fun _ => Settles.given fun clear => ?_
    refine Settles.bind (Settles.modify (R := fun _ => At env f s r (.owner, .before)) ?_) fun _ => Settles.pure fun u there' => ?_
    · rintro _ rfl
      exact ⟨done.world.trans next, by simp [there.plan.schema, Stop.passed, Step.position], by simp [found, Stop.passed, Step.position],
        by simp [there.plan.actor, Stop.passed, Step.position], there.plan.previous, there.plan.config,
        by simp [Stop.written, Stop.passed, Step.position], by simp [there.plan.domains, Stop.passed, Step.position]⟩
    · exact ⟨clear.1, own.symm ▸ registry ▸ rfl, there'⟩

theorem ensureOwner_settles :
    Settles (At env f s r (.owner, .before)) (ensureOwner env f r)
      (fun owner t => ownerStop env f s r = none ∧ owner.id = ownerId env s r ∧ At env f s r (.actor, .before) t)
      (Raises env f s r (ownerStop env f s r)) := by
  have next : worldAt env f s r (.owner, .after) = worldAt env f s r (.actor, .before) := worldAt_next nofun rfl
  unfold ensureOwner
  refine Settles.bind (settles_query fun fails t there => ⟨(_, .before), ?_, there⟩) fun _ => Settles.given fun works => ?_
  · simp [ownerStop, stepStop, fails]
  intro t there
  have schema : t.world.schemas r.slug = some (builtSchema env s r) := by
    rw [there.world]
    simp [worldAt, schemaAt, Stop.written, Stop.passed, Step.position]
  have early : ownerOf env s r = none → ownerStop env f s r = some (.owner, .before) := fun absent => by
    simp [ownerStop, absent]
  by_cases table : "users" ∈ (builtSchema env s r).objects
  case neg =>
    exact Settles.bind (Settles.of_run_error (R := fun _ _ => False) (run_usersOf_undefined schema table)
      ⟨(_, .before), early (if_pos table), there⟩) (fun _ _ h => h.elim) t rfl
  refine Settles.bind (Settles.of_run (run_usersOf schema table)) (fun found => Settles.given ?_) t rfl
  rintro rfl
  change Settles _ (match existingOwner env s r with
    | some existing => pure existing
    | none => attempt (f.write .owner) (.interrupted .owner) (createUser r.slug (r.owner env))) _ _
  have plan : PlanAt env s r (.actor, .before) t.plan :=
    there.plan.congr (by simp [Stop.passed, Step.position]) (by simp [Stop.written, Stop.passed, Step.position])
  cases existing : existingOwner env s r with
  | some user =>
    have owner : ownerOf env s r = some (user, (builtSchema env s r).users) := by simp [ownerOf, table, existing]
    refine Settles.pure ?_
    rintro _ rfl
    refine ⟨by simp [ownerStop, owner, existing, stepStop, works], by simp [ownerId, owner], ?_, plan⟩
    rw [there.world, ← next]
    simp [worldAt, schemaAt, rowAt, domainsAt, Stop.written, Stop.passed, Step.position, ownerUsers, owner]
  | none =>
    cases created : Users.create (builtSchema env s r).users (r.owner env) with
    | error e =>
      have absent : ownerOf env s r = none := by simp [ownerOf, table, existing, created, Except.toOption]
      refine Settles.attempt (R := fun _ _ => False) (Settles.of_run_error (run_createUser_refused schema table created) ?_)
        (fun _ _ _ h => h.elim) (fun _ u hu => ?_) fun _ _ _ h => h.elim
      · exact ⟨(_, .before), early absent, there⟩
      · exact ⟨(_, .before), early absent, hu ▸ there⟩
    | ok done =>
      obtain ⟨user, users⟩ := done
      have owner : ownerOf env s r = some (user, users) := by simp [ownerOf, table, existing, created, Except.toOption]
      have stop : ownerStop env f s r = stepStop f .owner true := by simp [ownerStop, owner, existing]
      have world : { t.world with
          schemas := Function.update t.world.schemas r.slug (some { builtSchema env s r with users }) } =
            worldAt env f s r (.owner, .after) := by
        rw [there.world]
        simp [worldAt, schemaAt, rowAt, domainsAt, Stop.written, Stop.passed, Step.position, ownerUsers, owner]
      rw [stop]
      refine (settles_write works there (run_createUser schema table created)
        ⟨world, there.plan.after nofun⟩).mono (fun a u h => ⟨h.1.1, ?_, ?_⟩) fun _ _ h => h
      · simp [h.1.2, ownerId, owner]
      · rw [h.2]
        exact ⟨world.trans next, plan⟩

theorem ensureActor_settles (consistent : s.registry.Consistent) :
    Settles (At env f s r (.actor, .before)) (ensureActor f (tenantId s r) (ownerId env s r))
      (fun _ t => stepStop f .actor (s.registry.getActorUserId (tenantId s r) ≠ some (ownerId env s r)) = none ∧
        At env f s r (.config, .before) t)
      (Raises env f s r (stepStop f .actor (s.registry.getActorUserId (tenantId s r) ≠ some (ownerId env s r)))) := by
  have next : worldAt env f s r (.actor, .after) = worldAt env f s r (.config, .before) := worldAt_next (by decide) rfl
  unfold ensureActor
  refine Settles.bind (settles_query fun fails t there => raises_read fails t there) fun _ => Settles.given fun works => ?_
  refine Settles.get_bind fun t there => ?_
  have tenant : t.world.registry.tenants (tenantId s r) = some (tenantRow env s r) := by
    rw [there.world]
    simp [worldAt, rowAt, Stop.written, Stop.passed, Step.position]
  have actor : t.world.registry.getActorUserId (tenantId s r) = s.registry.getActorUserId (tenantId s r) := by
    rw [Registry.getActorUserId, tenant, ← tenantRow_createdBy env consistent, Option.bind_some]
  rw [actor]
  refine Settles.ite (fun differs => ?_) fun same => Settles.pure ?_
  · rw [decide_eq_true differs]
    refine Settles.bind (Settles.modify (R := fun _ u => u = { t with
      plan := { t.plan with previousActorUserId := s.registry.getActorUserId (tenantId s r) } }) ?_) fun _ => ?_
    · rintro _ rfl
      rfl
    have noted : At env f s r (.actor, .before) { t with
        plan := { t.plan with previousActorUserId := s.registry.getActorUserId (tenantId s r) } } :=
      ⟨there.world, { there.plan with previous := fun _ => rfl }⟩
    have world : { t.world with registry := t.world.registry.setActor (tenantId s r) (some (ownerId env s r)) } =
        worldAt env f s r (.actor, .after) := by
      rw [there.world]
      simp [worldAt, schemaAt, rowAt, domainsAt, Registry.setActor, Registry.setTenant, Stop.written, Stop.passed, Step.position]
    refine Settles.bind (settles_write works noted (run_onRegistry rfl) ⟨world, noted.plan.after (by decide)⟩) fun _ => ?_
    refine Settles.given fun clear => Settles.modify ?_
    rintro _ rfl
    exact ⟨clear.1, world.trans next, by simp [there.plan.schema, Stop.passed, Step.position],
      by simp [there.plan.tenant, Stop.passed, Step.position], by simp [differs, Stop.passed, Step.position], fun _ => rfl,
      there.plan.config, by simp [Stop.written, Stop.passed, Step.position],
      by simp [there.plan.domains, Stop.passed, Step.position]⟩
  · rintro _ rfl
    have same : s.registry.getActorUserId (tenantId s r) = some (ownerId env s r) := not_not.mp same
    refine ⟨by simp [stepStop, works, same], ?_, ?_⟩
    · rw [there.world, ← next]
      simp [worldAt, schemaAt, rowAt, domainsAt, Stop.written, Stop.passed, Step.position, ← same,
        tenantRow_createdBy env consistent]
    · exact ⟨by simp [there.plan.schema, Stop.passed, Step.position], by simp [there.plan.tenant, Stop.passed, Step.position],
        by simp [there.plan.actor, Stop.passed, Step.position, same], there.plan.previous, there.plan.config,
        by simp [Stop.written, Stop.passed, Step.position], by simp [there.plan.domains, Stop.passed, Step.position]⟩

theorem ensureConfig_settles :
    Settles (At env f s r (.config, .before)) (ensureConfig f r (tenantId s r))
      (fun _ t => stepStop f .config true = none ∧ At env f s r (.primaryDomain, .before) t)
      (Raises env f s r (stepStop f .config true)) := by
  have next : worldAt env f s r (.config, .after) = worldAt env f s r (.primaryDomain, .before) := worldAt_next nofun rfl
  unfold ensureConfig
  refine Settles.bind (settles_query fun fails t there => raises_read fails t there) fun _ => Settles.given fun works => ?_
  refine Settles.get_bind fun t there => ?_
  have config : t.world.registry.configs (tenantId s r) = s.registry.configs (tenantId s r) := by
    rw [there.world]
    simp [worldAt, Stop.written, Stop.passed, Step.position]
  -- with what the plan has to know, the row is written
  have write : ∀ u, At env f s r (.config, .before) u →
      (s.registry.configs (tenantId s r) = none → u.plan.configCreated = true) →
      Settles (· = u) (attempt (f.write .config) (.interrupted .config) (onRegistry (·.createConfig (tenantId s r) r.config)))
        (fun _ t => stepStop f .config true = none ∧ At env f s r (.primaryDomain, .before) t)
        (Raises env f s r (stepStop f .config true)) := by
    intro u there noted
    have create : u.world.registry.createConfig (tenantId s r) r.config = .ok (worldAt env f s r (.config, .after)).registry := by
      rw [there.world]
      simp [Registry.createConfig, worldAt, domainsAt, rowAt, Stop.written, Stop.passed, Step.position]
    have world : { u.world with registry := (worldAt env f s r (.config, .after)).registry } =
        worldAt env f s r (.config, .after) := by
      rw [there.world]
      simp [worldAt, schemaAt, Stop.written, Stop.passed, Step.position]
    have plan : PlanAt env s r (.config, .after) u.plan :=
      { there.plan.congr (fun _ _ => rfl) nofun with configured := fun _ => noted }
    refine (settles_write works there (run_onRegistry create) ⟨world, plan⟩).mono (fun _ v h => ⟨h.1.1, ?_⟩) fun _ _ h => h
    rw [h.2]
    exact ⟨world.trans next, plan.congr (by simp [Stop.passed, Step.position])
      (by simp [Stop.written, Stop.passed, Step.position])⟩
  rw [config]
  refine Settles.ite (fun absent => ?_) fun present => ?_
  · refine Settles.bind (Settles.modify (R := fun _ u => u = { t with plan := { t.plan with configCreated := true } }) ?_)
      fun _ => write { t with plan := { t.plan with configCreated := true } }
        ⟨there.world, { there.plan with config := fun _ => ?_, configured := nofun }⟩ fun _ => rfl
    · rintro _ rfl
      rfl
    · exact Option.isNone_iff_eq_none.mp absent
  · exact write t there fun absent => absurd (by simp [absent]) present

/-- Either domain: `domains` are those that its step finds. -/
theorem ensureDomain_settles {step : Step} (next : Step) {domain : String} {domains : String → Option DomainRow}
    (kind : step = .primaryDomain ∨ step = .customDomain) (follows : next.position = step.position + 1)
    (before : domainsAt s r (step, .before) = domains)
    (after : domainsAt s r (step, .after) = withDomain (tenantId s r) domain domains)
    (noted : ∀ plan, PlanAt env s r (step, .after) plan →
      PlanAt env s r (next, .before) { plan with domainsCreated := plan.domainsCreated ++ created domain domains }) :
    Settles (At env f s r (step, .before)) (ensureDomain f step (tenantId s r) domain)
      (fun _ t => domainStop f step (tenantId s r) domain domains = none ∧ At env f s r (next, .before) t)
      (Raises env f s r (domainStop f step (tenantId s r) domain domains)) := by
  have other : step ≠ .config := by rcases kind with rfl | rfl <;> nofun
  have moved : worldAt env f s r (step, .after) = worldAt env f s r (next, .before) :=
    worldAt_next (by rcases kind with rfl | rfl <;> nofun) follows
  have world : worldAt env f s r (step, .after) = { worldAt env f s r (step, .before) with
      registry := { (worldAt env f s r (step, .before)).registry with domains := withDomain (tenantId s r) domain domains } } := by
    rw [← after]
    rcases kind with rfl | rfl <;> simp [worldAt, schemaAt, rowAt, Stop.written, Stop.passed, Step.position]
  -- where the domain is there, or none is asked for, nothing is written
  have passes : ∀ t, At env f s r (step, .before) t → domain = "" ∨ (domains (normalizeDomain domain)).isSome →
      At env f s r (next, .before) t := by
    intro t there idle
    have plan := noted t.plan (there.plan.after other)
    rw [created, if_pos idle, List.append_nil] at plan
    refine ⟨?_, plan⟩
    have same : (worldAt env f s r (step, .before)).registry.domains = domains := before
    rw [there.world, ← moved, world, withDomain, if_pos idle, ← same]
  unfold ensureDomain
  refine Settles.ite (fun asked => ?_) fun none' => Settles.pure fun t there => ?_
  · refine Settles.bind (settles_query fun fails t there => ⟨(_, .before), ?_, there⟩) fun _ => Settles.given fun works => ?_
    · by_cases taken : (domains (normalizeDomain domain)).any (·.tenantId ≠ tenantId s r)
      · rw [domainStop, if_neg asked, if_pos taken]
      · rw [domainStop, if_neg asked, if_neg taken, stepStop, if_pos fails]
    refine Settles.get_bind fun t there => ?_
    have found : t.world.registry.getDomain domain = domains (normalizeDomain domain) := by
      rw [there.world]
      exact congrFun before _
    rw [found]
    cases existing : domains (normalizeDomain domain) with
    | some row =>
      refine Settles.ite (fun taken => Settles.throw ?_) fun own => Settles.pure ?_
      · rintro _ rfl
        exact ⟨(_, .before), by simp [domainStop, asked, existing, taken], there⟩
      · rintro _ rfl
        exact ⟨by simp [domainStop, asked, existing, own, stepStop, works], passes _ there (.inr (by simp [existing]))⟩
    | none =>
      have write : t.world.registry.createDomain (tenantId s r) domain none = .ok (worldAt env f s r (step, .after)).registry := by
        have tenant : (worldAt env f s r (step, .before)).registry.tenants (tenantId s r) = some (rowAt env s r (step, .before)) := by
          rcases kind with rfl | rfl <;> simp [worldAt, Stop.written, Stop.passed, Step.position]
        have same : (worldAt env f s r (step, .before)).registry.domains = domains := before
        rw [there.world, world]
        simp [Registry.createDomain, tenant, same, existing, withDomain, asked, Registry.assignedDomain]
      have done : { t.world with registry := (worldAt env f s r (step, .after)).registry } = worldAt env f s r (step, .after) := by
        rw [there.world, world]
      have stop : domainStop f step (tenantId s r) domain domains = stepStop f step true := by
        simp [domainStop, asked, existing]
      have new : created domain domains = [domain] := by simp [created, asked, existing]
      rw [stop]
      refine Settles.bind (settles_write works there (run_onRegistry write) ⟨done, there.plan.after other⟩) fun _ => ?_
      refine Settles.given fun clear => Settles.modify ?_
      rintro _ rfl
      have plan := noted t.plan (there.plan.after other)
      rw [new] at plan
      exact ⟨clear.1, done.trans moved, plan⟩
  · have empty := not_not.mp none'
    exact ⟨by simp [domainStop, empty], passes t there (.inl empty)⟩

variable (env) in
/-- The slug finds the tenant as soon as it is written. -/
theorem worldAt_getBySlug (consistent : s.registry.Consistent) {stop : Stop} (written : stop.written .tenant = true) :
    (worldAt env f s r stop).registry.getBySlug r.slug = some (tenantId s r) := by
  have slug : (rowAt env s r stop).slug = r.slug := tenantRow_slug env consistent
  cases found : s.registry.getBySlug r.slug with
  | some id =>
    have same := Registry.getBySlug_update (tenantRow_of_some env found) (show (rowAt env s r stop).slug = _ from rfl)
      (show (worldAt env f s r stop).registry.tenants = _ by simp [worldAt, written]) (by simp [worldAt, found]) r.slug
    rw [same, found, tenantId_of_some found]
  | none =>
    have own : tenantId s r = s.registry.nextTenantId := by simp [tenantId, found]
    rw [own]
    exact Registry.getBySlug_new found slug (by simp [worldAt, written, own]) (by simp [worldAt, written, found])

theorem ensureActivation_settles (consistent : s.registry.Consistent) :
    Settles (At env f s r (.activation, .before)) (ensureActivation f (tenantId s r) r.slug)
      (fun _ t => stepStop f .activation (!(tenantRow env s r).isActive) = none ∧ At env f s r (.validation, .before) t)
      (Raises env f s r (stepStop f .activation (!(tenantRow env s r).isActive))) := by
  have next : worldAt env f s r (.activation, .after) = worldAt env f s r (.validation, .before) := worldAt_next (by decide) rfl
  unfold ensureActivation
  refine Settles.bind (settles_query fun fails t there => raises_read fails t there) fun _ => Settles.given fun works => ?_
  refine Settles.get_bind fun t there => ?_
  have status : t.world.registry.getTenantStatus r.slug = some (tenantRow env s r).isActive := by
    rw [there.world, Registry.getTenantStatus, worldAt_getBySlug env consistent (by simp [Stop.written, Stop.passed, Step.position])]
    simp [worldAt, rowAt, Stop.written, Stop.passed, Step.position]
  have plan : PlanAt env s r (.validation, .before) t.plan :=
    there.plan.congr (by simp [Stop.passed, Step.position]) (by simp [Stop.written, Stop.passed, Step.position])
  rw [status]
  cases active : (tenantRow env s r).isActive with
  | true =>
    refine Settles.ite (fun differs => absurd rfl differs) fun _ => Settles.pure ?_
    rintro _ rfl
    refine ⟨by simp [stepStop, works], ?_, plan⟩
    rw [there.world, ← next]
    simp [worldAt, schemaAt, rowAt, domainsAt, Stop.written, Stop.passed, Step.position, active]
  | false =>
    refine Settles.ite (fun _ => ?_) fun same => absurd same (by simp)
    have world : { t.world with registry := t.world.registry.activate (tenantId s r) } = worldAt env f s r (.activation, .after) := by
      rw [there.world]
      simp [worldAt, schemaAt, rowAt, domainsAt, Registry.activate, Registry.setTenant, Stop.written, Stop.passed, Step.position]
    refine Settles.bind (Settles.pure (R := fun _ u => u = t) fun _ h => h) fun _ => ?_
    have run : (onRegistry fun R => return R.activate (tenantId s r)).run t = _ :=
      run_onRegistry (R := t.world.registry.activate (tenantId s r)) rfl
    refine (settles_write works there run ⟨world, there.plan.after (by decide)⟩).mono (fun _ u h => ⟨h.1.1, ?_⟩) fun _ _ h => h
    rw [h.2]
    exact ⟨world.trans next, plan⟩

/-- What the validator finds after all steps. -/
theorem validate_settles (consistent : s.registry.Consistent) (safe : isSafeSlug r.slug = true)
    (table : "users" ∈ (builtSchema env s r).objects) {t : Provisioning Json} (there : At env f s r (.validation, .before) t) :
    Settles (· = t) (validate env r) (fun v u => v.isConsistent = isConsistent env s r ∧ u = t) F := by
  have found : t.world.registry.getBySlug r.slug = some (tenantId s r) := by
    rw [there.world]
    exact worldAt_getBySlug env consistent (by simp [Stop.written, Stop.passed, Step.position])
  have schema : t.world.schemas r.slug = some { builtSchema env s r with users := ownerUsers env s r } := by
    rw [there.world]
    simp [worldAt, schemaAt, Stop.written, Stop.passed, Step.position]
  have config : t.world.registry.configs (tenantId s r) = some r.config := by
    rw [there.world]
    simp [worldAt, Stop.written, Stop.passed, Step.position]
  have domains : t.world.registry.domains = customDomains s r := by
    rw [there.world]
    simp [worldAt, domainsAt, Stop.written, Stop.passed, Step.position]
  unfold validate
  refine Settles.get_bind ?_
  rintro t rfl
  simp only [found]
  refine Settles.bind (Settles.of_run (run_usersOf schema table)) fun users => Settles.given ?_
  rintro rfl
  refine Settles.bind (Settles.pure (R := fun a u => a = ((ownerUsers env s r).getByEmail r.ownerEmail).any (·.isOwner) ∧ u = t)
    fun _ h => ⟨rfl, h⟩) fun owner => Settles.given ?_
  rintro rfl
  refine Settles.bind (Settles.of_run (run_schemaExists safe)) fun _ => Settles.given ?_
  rintro rfl
  refine Settles.get_bind ?_
  rintro t rfl
  refine Settles.pure fun u hu => ⟨?_, hu⟩
  simp [TenantProvisioningValidation.isConsistent, isConsistent, Registry.getDomain, domains, config, schema]
  rfl

theorem validateProvisioningState_settles (consistent : s.registry.Consistent) (safe : isSafeSlug r.slug = true)
    (table : "users" ∈ (builtSchema env s r).objects) :
    Settles (At env f s r (.validation, .before)) (validateProvisioningState env f r)
      (fun _ t => validationStop env f s r = none ∧ At env f s r (.snapshot, .before) t)
      (Raises env f s r (validationStop env f s r)) := by
  have next : worldAt env f s r (.validation, .before) = worldAt env f s r (.snapshot, .before) := by
    simp [worldAt, schemaAt, rowAt, domainsAt, Stop.written, Stop.passed, Step.position]
  unfold validateProvisioningState
  refine Settles.bind (settles_query fun fails t there => ⟨(_, .before), by simp [validationStop, fails], there⟩) fun _ => ?_
  refine Settles.given fun works t there => ?_
  refine Settles.bind (validate_settles consistent safe table there) (fun v => Settles.given fun same => ?_) t rfl
  rw [same]
  refine Settles.ite (fun fails => Settles.throw ?_) fun passes => Settles.pure ?_
  · rintro _ rfl
    exact ⟨(_, .before), by simp [validationStop, works, fails], there⟩
  · rintro _ rfl
    refine ⟨by simp [validationStop, works, passes], there.world.trans next, ?_⟩
    exact there.plan.congr (by simp [Stop.passed, Step.position]) (by simp [Stop.written, Stop.passed, Step.position])

theorem readSnapshot_settles (consistent : s.registry.Consistent) :
    Settles (At env f s r (.snapshot, .before)) (readSnapshot f r) (fun _ _ => stepStop f .snapshot false = none)
      (Raises env f s r (stepStop f .snapshot false)) := by
  unfold readSnapshot
  refine Settles.bind (settles_query fun fails t there => raises_read fails t there) fun _ => Settles.given fun works => ?_
  refine Settles.get_bind fun t there => ?_
  have found : t.world.registry.getBySlug r.slug = some (tenantId s r) := by
    rw [there.world]
    exact worldAt_getBySlug env consistent (by simp [Stop.written, Stop.passed, Step.position])
  have tenant : t.world.registry.tenants (tenantId s r) = some (rowAt env s r (.snapshot, .before)) := by
    rw [there.world]
    simp [worldAt, Stop.written, Stop.passed, Step.position]
  have snapshot := congrArg (·.isSome) (show t.world.registry.getSnapshotBySlug r.slug = _ by
    rw [Registry.getSnapshotBySlug, found, Option.bind_some, tenant, Option.map_some])
  cases read : t.world.registry.getSnapshotBySlug r.slug with
  | none => simp [read] at snapshot
  | some snapshot => exact Settles.pure fun _ _ => by simp [stepStop, works]

/-- One call after the other: the first that raises. -/
theorem settles_seq {α β : Type} {m : ProvisionM Json α} {g : α → ProvisionM Json β} {P : Provisioning Json → Prop}
    {Q : α → Provisioning Json → Prop} {stop rest : Option Stop}
    (hm : Settles P m (fun a t => stop = none ∧ Q a t) (Raises env f s r stop))
    (hg : stop = none → ∀ a, Settles (Q a) (g a) (fun _ _ => rest = none) (Raises env f s r rest)) :
    Settles P (m >>= g) (fun _ _ => (stop <|> rest) = none) (Raises env f s r (stop <|> rest)) := by
  cases stop with
  | none =>
    refine Settles.bind (hm.mono (fun _ _ h => h) fun _ _ h => ?_) fun a => Settles.given fun passed => hg passed a
    obtain ⟨place, none', -⟩ := h
    cases none'
  | some place =>
    refine Settles.bind (R := fun _ _ => False) (hm.mono (fun _ _ h => ?_) fun _ _ h => h) fun _ _ h => h.elim
    exact absurd h.1 (Option.some_ne_none place)

/-- A provisioning raises where `stopOf` says, and leaves what `At` says. -/
theorem provisionSteps_settles (consistent : s.registry.Consistent) :
    Settles (· = { world := s }) (provisionSteps env f r) (fun _ _ => stopOf env f s r = none)
      (Raises env f s r (stopOf env f s r)) := by
  unfold provisionSteps
  refine settles_seq ensureSchema_settles fun passed _ => ?_
  have safe : isSafeSlug r.slug = true := by
    by_contra unsafely
    simp only [Bool.not_eq_true] at unsafely
    simp [schemaStop, unsafely] at passed
  refine settles_seq (ensureTenant_settles consistent) fun _ id => ?_
  refine Settles.given ?_
  rintro rfl
  refine settles_seq ensureOwner_settles fun passed owner => ?_
  refine Settles.given fun own => ?_
  have table : "users" ∈ (builtSchema env s r).objects := by
    by_contra missing
    simp [ownerStop, ownerOf, missing] at passed
  rw [own]
  refine settles_seq (ensureActor_settles consistent) fun _ _ => ?_
  refine settles_seq ensureConfig_settles fun _ _ => ?_
  refine settles_seq (ensureDomain_settles .customDomain (.inl rfl) rfl rfl rfl fun plan noted => ?_) fun _ _ => ?_
  · exact ⟨by simp [noted.schema, Stop.passed, Step.position], by simp [noted.tenant, Stop.passed, Step.position],
      by simp [noted.actor, Stop.passed, Step.position], noted.previous, noted.config,
      fun _ => noted.configured (by simp [Stop.written, Stop.passed, Step.position]),
      by simp [noted.domains, Stop.passed, Step.position]⟩
  refine settles_seq (ensureDomain_settles .activation (.inr rfl) rfl rfl rfl fun plan noted => ?_) fun _ _ => ?_
  · exact ⟨by simp [noted.schema, Stop.passed, Step.position], by simp [noted.tenant, Stop.passed, Step.position],
      by simp [noted.actor, Stop.passed, Step.position], noted.previous, noted.config,
      fun _ => noted.configured (by simp [Stop.written, Stop.passed, Step.position]),
      by simp [noted.domains, Stop.passed, Step.position]⟩
  refine settles_seq (ensureActivation_settles consistent) fun _ _ => ?_
  exact settles_seq (validateProvisioningState_settles consistent safe table) fun _ _ => readSnapshot_settles consistent

end

end NyzRating.Tenancy.Provisioner
