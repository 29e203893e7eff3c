import NyzRating.Tenancy.ProvisioningStops

/-!
# What a failed provisioning takes back

The plan of the compensation knows what was created, but not all that was written: `Undone` says when nothing is left.
-/

namespace NyzRating.Tenancy.Provisioner

open Program

section

variable {Json : Type}

/-- Schemas with their users, tenants with actor and activation, configurations and domains are those from before. -/
structure Restored (s t : Installation Json) : Prop where
  schemas : t.schemas = s.schemas
  tenants : t.registry.tenants = s.registry.tenants
  configs : t.registry.configs = s.registry.configs
  domains : t.registry.domains = s.registry.domains

/-! ### What the compensating calls do -/

section

variable {R : Registry Json} {S : String → Option TenantSchema} {F : ProvisionError → Provisioning Json → Prop}

/-- The tables and the schemas, whatever the plan. -/
def Has (R : Registry Json) (S : String → Option TenantSchema) (u : Provisioning Json) : Prop :=
  u.world = { registry := R, schemas := S }

theorem settles_change {change : Registry Json → Except RegistryError (Registry Json)} {R' : Registry Json} {e : ProvisionError}
    (done : change R = .ok R') : Settles (Has R S) (attempt none e (onRegistry change)) (fun _ => Has R' S) F := by
  intro u there
  have registry : u.world.registry = R := congrArg (·.registry) there
  have run := run_onRegistry (t := u) (registry.symm ▸ done)
  refine (Settles.of_run run).mono (fun _ v h => ?_) (fun _ _ h => h) u rfl
  rw [Has, h.2, there]

theorem settles_deleteDomains : ∀ (domains : List String) (R : Registry Json),
    Settles (Has R S) (deleteDomains (fun _ => none) domains)
      (fun _ => Has { R with domains := domains.reverse.foldr (fun x D => Function.update D (normalizeDomain x) none) R.domains } S) F
  | [], _ => Settles.pure fun _ h => h
  | domain :: domains, R => by
    have rest := settles_deleteDomains domains { R with domains := Function.update R.domains (normalizeDomain domain) none }
    dsimp only at rest
    simp only [deleteDomains, List.reverse_cons, List.foldr_append, List.foldr_cons, List.foldr_nil]
    have deleted : (Except.ok (R.deleteDomain domain none) : Except RegistryError _) = _ :=
      congrArg Except.ok (R.deleteDomain_any domain)
    exact Settles.bind (settles_change deleted) fun _ => rest

theorem settles_takeBack {step : Undo} {slug : String} {change : Nat → Registry Json → Registry Json} {R' : Registry Json}
    (found : ∀ id, R.getBySlug slug = some id → change id R = R') (absent : R.getBySlug slug = none → R = R') :
    Settles (Has R S) (takeBack (fun _ => none) step slug change) (fun _ => Has R' S) F := by
  refine Settles.get_bind fun u there => ?_
  have registry : u.world.registry = R := congrArg (·.registry) there
  rw [registry]
  cases tenant : R.getBySlug slug with
  | some id => exact Settles.of (settles_change (congrArg Except.ok (found id tenant))) fun v h => h ▸ there
  | none => exact Settles.pure fun v h => absent tenant ▸ h ▸ there

theorem settles_dropSchema {slug : String} {e : ProvisionError} :
    Settles (Has R S) (attempt none e (setSchema slug none)) (fun _ => Has R (Function.update S slug none)) F :=
  Settles.modify fun u there => by rw [Has, there]

/-- Deleting what was created gives the domains from before. -/
theorem delete_created (id : Nat) (domain : String) (domains : String → Option DomainRow) :
    (created domain domains).foldr (fun x D => Function.update D (normalizeDomain x) none) (withDomain id domain domains) = domains := by
  unfold created withDomain
  split
  · rfl
  · next new =>
    obtain ⟨-, new⟩ := not_or.mp new
    have same := Function.update_eq_self (normalizeDomain domain) domains
    rw [Option.not_isSome_iff_eq_none.mp new] at same
    simp [same]

/-- The new tenant's domain goes with it. -/
theorem filter_withDomain {id : Nat} {domains : String → Option DomainRow} (other : ∀ k, ∀ row ∈ domains k, row.tenantId ≠ id)
    (domain : String) : (fun k => (withDomain id domain domains k).filter (·.tenantId ≠ id)) = domains := by
  have kept : ∀ k, (domains k).filter (·.tenantId ≠ id) = domains k := by
    intro k
    cases there : domains k with
    | none => rfl
    | some row => simp [other k row there]
  funext k
  unfold withDomain
  split
  · exact kept k
  · next new =>
    obtain ⟨-, new⟩ := not_or.mp new
    by_cases own : k = normalizeDomain domain
    · subst own
      simp [Option.not_isSome_iff_eq_none.mp new]
    · rw [Function.update_of_ne own]
      exact kept k

end

variable (env : ProvisionEnv) (f : Faults) (s : Installation Json) (r : TenantProvisioningRequest Json) [EmptyCollection Json]

/-- Nothing is left of a provisioning that raises at `stop`. -/
structure Undone (stop : Stop) : Prop where
  interrupted : stop = (.schema, .after) → interruptedSchema env f s r = s.schemas r.slug
  upgraded : stop.passed .schema → ∀ before ∈ s.schemas r.slug, builtSchema env s r = before
  tenant : stop ≠ (.tenant, .after)
  owner : stop.written .owner → (s.schemas r.slug).isSome → (existingOwner env s r).isSome
  actor : stop = (.actor, .after) → s.registry.getBySlug r.slug = none
  config : stop.written .config → ∀ config ∈ s.registry.configs (tenantId s r), config = r.config
  domain : stop = (.primaryDomain, .after) ∨ stop = (.customDomain, .after) → s.registry.getBySlug r.slug = none
  activation : stop.written .activation → (s.registry.getBySlug r.slug).isSome → (tenantRow env s r).isActive

/-! ### Compensation -/

/-- The domains that are not deleted one by one. -/
def keptDomains (stop : Stop) : String → Option DomainRow :=
  if stop = (.primaryDomain, .after) then primaryDomains s r
  else if stop = (.customDomain, .after) then withDomain (tenantId s r) (r.customDomain.getD "") s.registry.domains
  else s.registry.domains

/-- A configuration that was overwritten stays so. -/
def keptConfigs (stop : Stop) : Nat → Option (ConfigRow Json) :=
  if stop.written .config && (s.registry.configs (tenantId s r)).isSome then
    Function.update s.registry.configs (tenantId s r) (some r.config)
  else s.registry.configs

/-- The actor goes back to the one before, where the plan knows that it was changed. -/
def keptRow (stop : Stop) : TenantRow :=
  let row := rowAt env s r stop
  { row with createdBy := if stop.passed .actor then (tenantRow env s r).createdBy else row.createdBy }

def keptTenants (stop : Stop) : Nat → Option TenantRow :=
  if stop.written .tenant then Function.update s.registry.tenants (tenantId s r) (some (keptRow env s r stop))
  else s.registry.tenants

/-- The tables that the compensation leaves of a provisioning that raises at `stop`. -/
structure Left (stop : Stop) (w : Installation Json) : Prop where
  schemas : w.schemas = if stop.passed .schema && (s.schemas r.slug).isNone then s.schemas
    else Function.update s.schemas r.slug (schemaAt env f s r stop)
  tenants : w.registry.tenants = if stop.passed .tenant && (s.registry.getBySlug r.slug).isNone then s.registry.tenants
    else keptTenants env s r stop
  configs : w.registry.configs = keptConfigs s r stop
  domains : w.registry.domains = if stop.passed .tenant && (s.registry.getBySlug r.slug).isNone then s.registry.domains
    else keptDomains s r stop

variable {env f s r} {stop : Stop} {t : Provisioning Json}

omit [EmptyCollection Json] in
/-- The domains after those that the plan names are deleted. -/
theorem deleted_domains {plan : ProvisioningCompensationPlan} (noted : PlanAt env s r stop plan) (reached : Reached env s r stop) :
    plan.domainsCreated.foldr (fun x D => Function.update D (normalizeDomain x) none) (domainsAt s r stop) =
      keptDomains s r stop := by
  unfold keptDomains
  have primary : (created r.primaryDomain s.registry.domains).foldr (fun x D => Function.update D (normalizeDomain x) none)
      (primaryDomains s r) = s.registry.domains := delete_created ..
  have custom : (created (r.customDomain.getD "") (primaryDomains s r)).foldr
      (fun x D => Function.update D (normalizeDomain x) none) (customDomains s r) = primaryDomains s r := delete_created ..
  rw [noted.domains]
  obtain ⟨step, moment⟩ := stop
  by_cases last : (step, moment) = (.customDomain, .after)
  case neg => cases step <;> cases moment <;> simp [domainsAt, Stop.written, Stop.passed, Step.position, primary, custom] at last ⊢
  -- the custom domain is left where its step raises after it is written
  cases last
  obtain ⟨asked, new⟩ := reached.customDomain rfl
  have left : domainsAt s r (.customDomain, .after) = customDomains s r := by
    simp [domainsAt, Stop.written]
  by_cases idle : r.primaryDomain = "" ∨ (s.registry.domains (normalizeDomain r.primaryDomain)).isSome
  · have same : primaryDomains s r = s.registry.domains := if_pos idle
    simp [left, Stop.passed, Step.position, created, idle, customDomains, same]
  · have first : primaryDomains s r = Function.update s.registry.domains (normalizeDomain r.primaryDomain)
        (some { tenantId := tenantId s r }) := if_neg idle
    obtain ⟨-, unused⟩ := not_or.mp idle
    have kept := Function.update_eq_self (normalizeDomain r.primaryDomain) s.registry.domains
    rw [Option.not_isSome_iff_eq_none.mp unused] at kept
    rw [first] at new
    by_cases same : normalizeDomain (r.customDomain.getD "") = normalizeDomain r.primaryDomain
    · rw [same, Function.update_self] at new
      cases new
    · rw [Function.update_of_ne same] at new
      have second : customDomains s r = Function.update (primaryDomains s r) (normalizeDomain (r.customDomain.getD ""))
          (some { tenantId := tenantId s r }) := by
        simp [customDomains, withDomain, asked, first, Function.update_of_ne same, new]
      simp [left, Stop.passed, Step.position, created, idle, second, first, Function.update_comm same, kept, withDomain, asked, new]

theorem Stop.written_of_passed {step : Step} (passed : stop.passed step = true) : stop.written step = true := by
  simp [Stop.written, passed]

theorem Stop.passed_of_written {step next : Step} (follows : step.position < next.position) (written : stop.written next = true) :
    stop.passed step = true := by
  simp only [Stop.written, Stop.passed, Bool.or_eq_true, decide_eq_true_eq] at written ⊢
  rcases written with passed | rfl
  · exact follows.trans passed
  · exact follows

theorem Stop.written_of_written {step next : Step} (follows : step.position < next.position) (written : stop.written next = true) :
    stop.written step = true := by
  exact Stop.written_of_passed (Stop.passed_of_written follows written)

section

variable {plan : ProvisioningCompensationPlan}

/-- The slug finds no other tenant than the one of the provisioning. -/
theorem worldAt_tenantId (consistent : s.registry.Consistent) {id : Nat}
    (found : (worldAt env f s r stop).registry.getBySlug r.slug = some id) : id = tenantId s r := by
  cases written : stop.written .tenant with
  | true => exact Option.some.inj (found.symm.trans (worldAt_getBySlug env consistent written))
  | false =>
    have same : (worldAt env f s r stop).registry.getBySlug r.slug = s.registry.getBySlug r.slug := by
      simp [Registry.getBySlug, worldAt, written]
    exact (tenantId_of_some (same.symm.trans found)).symm

variable (env f) in
theorem configs_deleted (noted : PlanAt env s r stop plan) (new : plan.configCreated = true) :
    Function.update (worldAt env f s r stop).registry.configs (tenantId s r) none = keptConfigs s r stop := by
  have absent := noted.config new
  have kept := Function.update_eq_self (tenantId s r) s.registry.configs
  rw [absent] at kept
  cases written : stop.written .config <;> simp [worldAt, keptConfigs, written, absent, kept]

theorem keptConfigs_new (absent : s.registry.configs (tenantId s r) = none) : keptConfigs s r stop = s.registry.configs := by
  simp [keptConfigs, absent]

variable (env f) in
theorem configs_kept (noted : PlanAt env s r stop plan) (old : ¬plan.configCreated = true) :
    (worldAt env f s r stop).registry.configs = keptConfigs s r stop := by
  cases written : stop.written .config with
  | false => simp [worldAt, keptConfigs, written]
  | true =>
    have there : s.registry.configs (tenantId s r) ≠ none := fun absent => old (noted.configured written absent)
    simp [worldAt, keptConfigs, written, Option.isSome_iff_ne_none, there]

variable (f) in
theorem tenants_kept (consistent : s.registry.Consistent) (noted : PlanAt env s r stop plan) (same : ¬plan.actorChanged = true) :
    (worldAt env f s r stop).registry.tenants = keptTenants env s r stop := by
  have row : keptRow env s r stop = rowAt env s r stop := by
    unfold keptRow
    rw [noted.actor] at same
    cases passed : stop.passed .actor with
    | false => simp
    | true =>
      have owner : s.registry.getActorUserId (tenantId s r) = some (ownerId env s r) := by simpa [passed] using same
      simp [rowAt, Stop.written, passed, tenantRow_createdBy env consistent, owner]
  rw [keptTenants, row]
  rfl

end

omit [EmptyCollection Json] in
/-- No domain of a new tenant is kept with it. -/
theorem keptDomains_filter (other : ∀ domain, ∀ row ∈ s.registry.domains domain, row.tenantId ≠ tenantId s r) :
    (fun domain => (keptDomains s r stop domain).filter (·.tenantId ≠ tenantId s r)) = s.registry.domains := by
  unfold keptDomains
  split
  · exact filter_withDomain other _
  · split
    · exact filter_withDomain other _
    · have none' := filter_withDomain other ""
      rwa [withDomain, if_pos (.inl rfl)] at none'

variable (f) in
/-- The tenant of a slug that was new can be deleted once its configuration is. -/
theorem deleteBySlug_new (consistent : s.registry.Consistent) (absent : s.registry.getBySlug r.slug = none)
    (written : stop.written .tenant = true) {R : Registry Json} (tenants : R.tenants = keptTenants env s r stop)
    (configs : R.configs = keptConfigs s r stop) (domains : R.domains = keptDomains s r stop)
    (next : R.nextTenantId = (worldAt env f s r stop).registry.nextTenantId) :
    R.deleteBySlug r.slug = .ok { R with tenants := s.registry.tenants, domains := s.registry.domains } := by
  have own : tenantId s r = s.registry.nextTenantId := by simp [tenantId, absent]
  have row : (worldAt env f s r stop).registry.tenants (tenantId s r) = some (rowAt env s r stop) := by simp [worldAt, written]
  have found : R.getBySlug r.slug = some (tenantId s r) := by
    rw [← worldAt_getBySlug (f := f) env consistent written]
    have slug : (keptRow env s r stop).slug = (rowAt env s r stop).slug := rfl
    refine Registry.getBySlug_update row slug ?_ next _
    simp [tenants, keptTenants, worldAt, written]
  have config : s.registry.configs (tenantId s r) = none := own ▸ consistent.new_config
  have tenant := Function.update_eq_self (tenantId s r) s.registry.tenants
  rw [own, consistent.new, ← own] at tenant
  have none' : (R.configs (tenantId s r)).isSome = false := by simp [configs, keptConfigs_new config, config]
  have left : (fun domain => (keptDomains s r stop domain).filter (·.tenantId ≠ tenantId s r)) = s.registry.domains :=
    keptDomains_filter (own ▸ consistent.new_domain)
  simp only [Registry.deleteBySlug, found, none', Bool.false_eq_true, if_false, tenants, keptTenants, written, if_true,
    Function.update_idem, tenant, domains, left]
  rfl

theorem compensate_settles (consistent : s.registry.Consistent) (reached : Reached env s r stop)
    (there : At env f s r stop t) :
    Settles (· = t) (compensate (fun _ => none) r.slug) (fun _ u => Left env f s r stop u.world) (fun _ _ => False) := by
  have noted := there.plan
  let R := (worldAt env f s r stop).registry
  let S := (worldAt env f s r stop).schemas
  have world : Has R S t := there.world
  have tenant : stop.written .tenant = true → R.getBySlug r.slug = some (tenantId s r) := worldAt_getBySlug env consistent
  have row : stop.written .tenant = true → R.tenants (tenantId s r) = some (rowAt env s r stop) := fun written => by
    simp [R, worldAt, written]
  unfold compensate
  refine Settles.get_bind ?_
  rintro t rfl
  refine Settles.bind (Settles.of (settles_deleteDomains (S := S) _ R) fun _ h => h ▸ world) fun _ => ?_
  rw [List.reverse_reverse, show t.plan.domainsCreated.foldr _ R.domains = _ from deleted_domains noted reached]
  -- the configuration
  let R₁ : Registry Json := { R with domains := keptDomains s r stop, configs := keptConfigs s r stop }
  refine Settles.ite_bind (M := Has R₁ S) (fun new => settles_takeBack (fun id found => ?_) fun absent => ?_) (fun old u h => ?_) ?_
  · rw [worldAt_tenantId consistent (show R.getBySlug r.slug = some id from found)]
    simp only [Registry.deleteConfig, R, configs_deleted env f noted new, R₁]
  · have before : stop.written .config = false := by
      by_contra written
      have found := tenant (Stop.written_of_written (by decide) (eq_true_of_ne_false written))
      cases found.symm.trans absent
    simp [R₁, R, keptConfigs, worldAt, before]
  · simp only [R₁, ← configs_kept env f noted old]
    exact h
  -- the actor
  let R₂ : Registry Json := { R₁ with tenants := keptTenants env s r stop }
  have actor : t.plan.actorChanged = true → stop.passed .actor = true := fun changed => by
    have known := noted.actor.symm.trans changed
    simp only [Bool.and_eq_true] at known
    exact known.1
  refine Settles.ite_bind (M := Has R₂ S) (fun changed => settles_takeBack (fun id found => ?_) fun absent => ?_) (fun same u h => ?_) ?_
  · rw [worldAt_tenantId consistent (show R.getBySlug r.slug = some id from found)]
    have written : stop.written .tenant = true := Stop.written_of_written (by decide) (Stop.written_of_passed (actor changed))
    simp only [Registry.setActor, Registry.setTenant, R₁, row written, R₂, keptTenants, keptRow, written, actor changed]
    simp [R, worldAt, written, noted.previous changed, tenantRow_createdBy env consistent]
  · have written : stop.written .tenant = true := Stop.written_of_written (by decide) (Stop.written_of_passed (actor changed))
    cases (tenant written).symm.trans absent
  · simp only [R₂, ← tenants_kept f consistent noted same]
    exact h
  -- the tenant
  let R₃ : Registry Json := { R₂ with
    tenants := if stop.passed .tenant && (s.registry.getBySlug r.slug).isNone then s.registry.tenants else keptTenants env s r stop
    domains := if stop.passed .tenant && (s.registry.getBySlug r.slug).isNone then s.registry.domains else keptDomains s r stop }
  refine Settles.ite_bind (M := Has R₃ S) (fun new => settles_change ?_) (fun old u h => ?_) ?_
  · have new := noted.tenant.symm.trans new
    simp only [Bool.and_eq_true, Option.isNone_iff_eq_none] at new
    obtain ⟨passed, absent⟩ := new
    have deleted : R₂.deleteBySlug r.slug = _ := deleteBySlug_new f consistent absent (Stop.written_of_passed passed) rfl rfl rfl rfl
    rw [deleted]
    simp [R₃, passed, absent]
  · have old : ¬(stop.passed .tenant && (s.registry.getBySlug r.slug).isNone) = true := fun new => old (noted.tenant.trans new)
    simp only [R₃, if_neg old]
    exact h
  -- the schema
  have left : ∀ u, Has R₃ (if stop.passed .schema && (s.schemas r.slug).isNone then s.schemas else S) u →
      Left env f s r stop u.world := fun u h => by
    rw [show u.world = _ from h]
    exact ⟨rfl, rfl, rfl, rfl⟩
  refine Settles.ite (fun new => ?_) fun old => Settles.pure fun u h => left u ?_
  · have new := noted.schema.symm.trans new
    have absent := Function.update_eq_self r.slug s.schemas
    rw [if_pos new] at left
    simp only [Bool.and_eq_true, Option.isNone_iff_eq_none] at new
    rw [new.2] at absent
    have dropped : Function.update S r.slug none = s.schemas := by simp [S, worldAt, absent]
    exact settles_dropSchema.mono (fun _ u h => left u (dropped ▸ h)) fun _ _ h => h
  · rw [noted.schema] at old
    rwa [if_neg old]

/-! ### When nothing is left -/

omit [EmptyCollection Json] in
theorem ownerUsers_existing {user : Users.User} (there : (ownerOf env s r).isSome) (existing : existingOwner env s r = some user) :
    ownerUsers env s r = (builtSchema env s r).users := by
  unfold ownerUsers ownerOf at *
  split at there
  · cases there
  · next table => rw [if_neg table, existing]; rfl

omit [EmptyCollection Json] in
theorem ownerUsers_new (there : (ownerOf env s r).isSome) (new : existingOwner env s r = none) :
    (ownerUsers env s r).users.length = (builtSchema env s r).users.users.length + 1 := by
  unfold ownerUsers ownerOf at *
  split at there
  · cases there
  · next table =>
    rw [if_neg table, new]
    cases done : Users.create (builtSchema env s r).users (r.owner env) with
    | error e => simp [new, done, Except.toOption] at there
    | ok made =>
      obtain ⟨user, users⟩ := made
      exact Users.create_length done

omit [EmptyCollection Json] in
/-- The schemas of before. -/
theorem schemas_iff (reached : Reached env s r stop) :
    (if stop.passed .schema && (s.schemas r.slug).isNone then s.schemas
      else Function.update s.schemas r.slug (schemaAt env f s r stop)) = s.schemas ↔
    (stop = (.schema, .after) → interruptedSchema env f s r = s.schemas r.slug) ∧
    (stop.passed .schema = true → ∀ before ∈ s.schemas r.slug, builtSchema env s r = before) ∧
    (stop.written .owner = true → (s.schemas r.slug).isSome → (existingOwner env s r).isSome) := by
  cases passed : stop.passed .schema with
  | false =>
    have own : stop.1 = .schema := by
      obtain ⟨step, moment⟩ := stop
      cases step <;> simp [Stop.passed, Step.position] at passed ⊢
    obtain ⟨step, _ | _⟩ := stop <;> cases own <;> simp [schemaAt, Stop.written, Stop.passed, Step.position]
  | true =>
    have late : stop ≠ (.schema, .after) := by
      rintro rfl
      simp [Stop.passed] at passed
    cases there : s.schemas r.slug with
    | none => simp [late]
    | some before =>
      have users : (builtSchema env s r).users = before.users := by
        simp [builtSchema, upgradeTenantSchema_users, there]
      simp only [Option.isNone_some, Bool.and_false, Bool.false_eq_true, if_false, Function.update_eq_self_iff, there, schemaAt, passed,
        if_true, Option.some_inj, late, false_imp_iff, true_and, Option.mem_some_iff, forall_eq', Option.isSome_some, true_imp_iff]
      cases owned : stop.written .owner with
      | false => simp
      | true =>
        simp only [if_true, true_imp_iff]
        have owner := reached.owner owned
        cases existing : existingOwner env s r with
        | some user =>
          simp [ownerUsers_existing owner existing]
        | none =>
          have grown := ownerUsers_new owner existing
          have grew : { builtSchema env s r with users := ownerUsers env s r } ≠ before := by
            rintro rfl
            rw [users] at grown
            simp at grown
          simp [grew]

omit [EmptyCollection Json] in
/-- The row of a tenant that was there before. -/
theorem keptRow_iff (consistent : s.registry.Consistent) (reached : Reached env s r stop) :
    keptRow env s r stop = tenantRow env s r ↔
      stop ≠ (.actor, .after) ∧ (stop.written .activation = true → (tenantRow env s r).isActive) := by
  have columns : keptRow env s r stop = tenantRow env s r ↔
      (if stop.passed .actor then (tenantRow env s r).createdBy else (rowAt env s r stop).createdBy) = (tenantRow env s r).createdBy ∧
      (stop.written .activation || (tenantRow env s r).isActive) = (tenantRow env s r).isActive := by
    constructor
    · intro same
      exact ⟨congrArg (·.createdBy) same, congrArg (·.isActive) same⟩
    · rintro ⟨actor, active⟩
      simp only [keptRow, actor]
      simp only [rowAt, active]
  have active : (stop.written .activation || (tenantRow env s r).isActive) = (tenantRow env s r).isActive ↔
      (stop.written .activation = true → (tenantRow env s r).isActive) := by
    cases stop.written .activation <;> cases (tenantRow env s r).isActive <;> simp
  rw [columns, active]
  refine and_congr_left fun _ => ?_
  cases passed : stop.passed .actor with
  | true =>
    have late : stop ≠ (.actor, .after) := by
      rintro rfl
      simp [Stop.passed] at passed
    simp [late]
  | false =>
    by_cases own : stop = (.actor, .after)
    · have differs := reached.actor own
      rw [← tenantRow_createdBy env consistent] at differs
      simp [own, rowAt, Stop.written, Ne.symm differs]
    · simp [own, rowAt, Stop.written, passed]

omit [EmptyCollection Json] in
theorem withDomain_none {id : Nat} {domain key : String} {domains : String → Option DomainRow}
    (absent : withDomain id domain domains key = none) : domains key = none := by
  unfold withDomain at absent
  split at absent
  · exact absent
  · next new =>
    by_cases own : key = normalizeDomain domain
    · simp [own] at absent
    · rwa [Function.update_of_ne own] at absent

omit [EmptyCollection Json] in
theorem tenants_iff (consistent : s.registry.Consistent) (reached : Reached env s r stop) :
    (if stop.passed .tenant && (s.registry.getBySlug r.slug).isNone then s.registry.tenants else keptTenants env s r stop) =
      s.registry.tenants ↔
    stop ≠ (.tenant, .after) ∧ (stop = (.actor, .after) → s.registry.getBySlug r.slug = none) ∧
    (stop.written .activation = true → (s.registry.getBySlug r.slug).isSome → (tenantRow env s r).isActive) := by
  cases written : stop.written .tenant with
  | false =>
    have passed : stop.passed .tenant = false := by
      by_contra passed
      exact absurd (Stop.written_of_passed (eq_true_of_ne_false passed)) (by simp [written])
    have activation : ¬stop.written .activation = true := fun later => by
      have early : stop.written .tenant = true := Stop.written_of_written (by decide) later
      simp [written] at early
    have tenant : stop ≠ (.tenant, .after) := by
      rintro rfl
      simp [Stop.written] at written
    have actor : stop ≠ (.actor, .after) := by
      rintro rfl
      simp [Stop.written, Stop.passed, Step.position] at written
    simp [passed, keptTenants, written, activation, tenant, actor]
  | true =>
    cases passed : stop.passed .tenant with
    | false =>
      -- the tenant is written, and not noted
      have own : stop = (.tenant, .after) := by simpa [Stop.written, passed] using written
      have new : s.registry.tenants (tenantId s r) = none := by
        simp [tenantId, reached.tenant own, consistent.new]
      simp [own, keptTenants, Stop.written, Stop.passed, Step.position, new]
    | true =>
      have late : stop ≠ (.tenant, .after) := by
        rintro rfl
        simp [Stop.passed] at passed
      cases found : s.registry.getBySlug r.slug with
      | none => simp [late]
      | some id =>
        simp only [Option.isNone_some, Bool.and_false, Bool.false_eq_true, if_false, keptTenants, written, if_true,
          Function.update_eq_self_iff, tenantRow_of_some env found, Option.some_inj, Option.isSome_some, true_imp_iff,
          reduceCtorEq, imp_false, ne_eq, late, not_false_eq_true, true_and]
        exact keptRow_iff consistent reached

theorem configs_iff : keptConfigs s r stop = s.registry.configs ↔
    (stop.written .config = true → ∀ config ∈ s.registry.configs (tenantId s r), config = r.config) := by
  unfold keptConfigs
  cases written : stop.written .config with
  | false => simp
  | true =>
    cases there : s.registry.configs (tenantId s r) with
    | none => simp
    | some config => simp [there, eq_comm]

omit [EmptyCollection Json] in
theorem domains_iff (reached : Reached env s r stop) :
    (if stop.passed .tenant && (s.registry.getBySlug r.slug).isNone then s.registry.domains else keptDomains s r stop) =
      s.registry.domains ↔
    (stop = (.primaryDomain, .after) ∨ stop = (.customDomain, .after) → s.registry.getBySlug r.slug = none) := by
  have changed : ∀ domain, domain ≠ "" → s.registry.domains (normalizeDomain domain) = none →
      withDomain (tenantId s r) domain s.registry.domains ≠ s.registry.domains := by
    intro domain asked new
    simp [withDomain, asked, new]
  cases found : s.registry.getBySlug r.slug with
  | none =>
    simp only [Option.isNone_none, Bool.and_true, imp_true_iff, iff_true, ite_eq_left_iff]
    intro early
    have neither : stop ≠ (.primaryDomain, .after) ∧ stop ≠ (.customDomain, .after) := by
      constructor <;> rintro rfl <;> simp [Stop.passed, Step.position] at early
    simp [keptDomains, neither.1, neither.2]
  | some id =>
    simp only [Option.isNone_some, Bool.and_false, Bool.false_eq_true, if_false, reduceCtorEq, imp_false, not_or, keptDomains]
    split
    · next primary =>
      obtain ⟨asked, new⟩ := reached.primaryDomain primary
      simp [primary, primaryDomains, changed _ asked new]
    · next primary =>
      split
      · next custom =>
        obtain ⟨asked, new⟩ := reached.customDomain custom
        have unused : s.registry.domains (normalizeDomain (r.customDomain.getD "")) = none := by
          exact withDomain_none new
        simp [custom, changed _ asked unused]
      · next custom => simp [primary, custom]

theorem restored_iff (consistent : s.registry.Consistent) (reached : Reached env s r stop) {w : Installation Json}
    (left : Left env f s r stop w) : Restored s w ↔ Undone env f s r stop := by
  have schemas := schemas_iff (f := f) reached
  have tenants := tenants_iff consistent reached
  have configs : _ ↔ (stop.written .config = true → _) := configs_iff (s := s) (r := r)
  have domains := domains_iff reached
  rw [← left.schemas] at schemas
  rw [← left.tenants] at tenants
  rw [← left.configs] at configs
  rw [← left.domains] at domains
  constructor
  · rintro ⟨h₁, h₂, h₃, h₄⟩
    obtain ⟨interrupted, upgraded, owner⟩ := schemas.mp h₁
    obtain ⟨tenant, actor, activation⟩ := tenants.mp h₂
    exact ⟨interrupted, upgraded, tenant, owner, actor, configs.mp h₃, domains.mp h₄, activation⟩
  · rintro ⟨interrupted, upgraded, tenant, owner, actor, config, domain, activation⟩
    exact ⟨schemas.mpr ⟨interrupted, upgraded, owner⟩, tenants.mpr ⟨tenant, actor, activation⟩, configs.mpr config, domains.mpr domain⟩

/-- A provisioning raises where `stopOf` says, and is taken back as far as the plan knows. -/
theorem provision_settles (consistent : s.registry.Consistent) :
    Settles (· = { world := s }) (provision env f (fun _ => none) r) (fun _ _ => stopOf env f s r = none)
      (fun _ u => ∃ stop, stopOf env f s r = some stop ∧ Left env f s r stop u.world) := by
  unfold provision
  refine Settles.bind (R := fun _ u => u = { world := s }) (Settles.modify ?_) fun _ => ?_
  · rintro _ rfl
    rfl
  refine Settles.tryCatch (provisionSteps_settles consistent) fun e u raised => ?_
  obtain ⟨stop, first, there⟩ := raised
  have left := compensate_settles consistent (reached_of_stopOf first) there
  refine Settles.bind (left.mono (fun _ _ h => h) fun _ _ h => h.elim) (fun _ => Settles.throw fun v h => ?_) u rfl
  exact ⟨stop, first, h⟩

/-- A provisioning that raises leaves everything as it was, exactly where it raises before anything is written that the
plan does not know. -/
theorem provision_restores_iff (env : ProvisionEnv) (f : Faults) (s : Installation Json) (r : TenantProvisioningRequest Json)
    (consistent : s.registry.Consistent) :
    (∀ e t, (provision env f (fun _ => none) r).run { world := s } = .error e t → Restored s t.world) ↔
      ∀ stop ∈ stopOf env f s r, Undone env f s r stop := by
  have settled : Settled _ _ ((provision env f (fun _ => none) r).run { world := s }) := provision_settles consistent _ rfl
  constructor
  · intro restores stop first
    cases run : (provision env f (fun _ => none) r).run { world := s } with
    | ok a t =>
      rw [run] at settled
      cases settled with
      | returned none' => exact absurd (none'.symm.trans first) nofun
    | error e t =>
      rw [run] at settled
      cases settled with
      | raised h =>
        obtain ⟨place, same, left⟩ := h
        obtain rfl := Option.some.inj (same.symm.trans first)
        exact (restored_iff consistent (reached_of_stopOf same) left).mp (restores e t run)
  · intro undone e t run
    rw [run] at settled
    cases settled with
    | raised h =>
      obtain ⟨stop, first, left⟩ := h
      exact (restored_iff consistent (reached_of_stopOf first) left).mpr (undone stop first)

end

/-- The creation of the schema is broken off after `CREATE SCHEMA`: the schema stays. -/
theorem provision_not_undone :
    let r : TenantProvisioningRequest (List Nat) :=
      { slug := "acme", tenantName := "Acme", ownerEmail := "o@acme.hu", ownerName := none, primaryDomain := "acme.nyz.hu" }
    let run := (provision { hooks := [], now := 0, passwordHash := "", invite := { tokenHash := "", expiresAt := 0 } }
      { createSchema := some 1 } (fun _ => none) r).run { world := {} }
    (∃ t, run = .error (.interrupted .schema) t) ∧ ((store run).world.schemas "acme").isSome := by
  refine ⟨⟨_, rfl⟩, ?_⟩
  decide +kernel

/-- Where the read of the tenant raises, the new schema is dropped. -/
theorem provision_restores_schema :
    let r : TenantProvisioningRequest (List Nat) :=
      { slug := "acme", tenantName := "Acme", ownerEmail := "o@acme.hu", ownerName := none, primaryDomain := "acme.nyz.hu" }
    ∀ e t, (provision { hooks := [], now := 0, passwordHash := "", invite := { tokenHash := "", expiresAt := 0 } }
      { read := (· = .tenant) } (fun _ => none) r).run { world := {} } = .error e t → Restored {} t.world := by
  intro r
  refine (provision_restores_iff _ _ {} r ?_).mpr fun stop first => ?_
  · constructor <;> simp
  · have place : stop = (.tenant, .before) := by
      refine Option.some.inj (Eq.trans (Eq.symm first) ?_)
      decide +kernel
    subst place
    constructor <;> simp [Stop.written, Stop.passed, Step.position]

end NyzRating.Tenancy.Provisioner
