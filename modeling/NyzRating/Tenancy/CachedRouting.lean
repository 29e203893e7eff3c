import Mathlib.Data.List.Find
import NyzRating.Tenancy.Routing

/-!
# Cached routing and the tables

Each write of the tenant tables with the entries that it drops, and when the entries that stay are right.
-/

namespace NyzRating.Tenancy.Routing

open Runs Caches

/-! ### Writes -/

/-- The tables after a write, and the entries that it drops. -/
structure Effect (Json : Type) where
  registry : Registry Json
  dropsHost : String → Bool := fun _ => false
  dropsSlug : String → Bool := fun _ => false

/-- How the SQL of a write reads the flags of a configuration. -/
structure Flags (Json : Type) where
  demoMode : Json → Option Bool
  demoExpiresAt : Json → Option Int

section

variable {Json : Type}

/-- `invalidate_tenant_cache`. -/
def dropsTenant (slug : String) : String → Bool := fun k => slug ≠ "" && k = slug

/-- `invalidate_domain2tenant_cache`. -/
def dropsDomain (host : String) : String → Bool := fun k => normalizeDomain host ≠ "" && k = normalizeDomain host

inductive Mutation (Json : Type) where
  | create (row : TenantRow)
  | createConfig (id : Nat) (slug : String) (config : ConfigRow Json)
  | deleteConfig (id : Nat) (slug : Option String)
  | setActor (id : Nat) (actor : Option Nat)
  | activate (id : Nat)
  | deactivate (id : Nat)
  | incrementSecurityVersion (id : Nat)
  | createDomain (id : Nat) (domain : String) (verifiedAt : Option Int)
  | verifyDomain (domain : String) (verifiedAt : Option Int)
  | deleteDomain (domain : String) (id : Option Nat)
  | deleteBySlug (slug : String)
  | hardDeleteTenant (id : Nat)
  /-- The latest cancellation of the tenant has the given status. -/
  | restoreCancelledTenant (id : Nat) (latest : Option String)
  | permanentlyDeleteCancelledTenant (id : Nat)
  | cleanupExpiredDemoTenants (now : Int)

/-- A column of one tenant is written, and its snapshot dropped. -/
def writeTenant (R : Registry Json) (id : Nat) (registry : Registry Json) : Effect Json :=
  match R.tenants id with
  | none => { registry := R }
  | some row => { registry, dropsSlug := dropsTenant row.slug }

/-- `DELETE FROM public.tenants`, with the rows that cascade. -/
def deleteRow (R : Registry Json) (id : Nat) : Registry Json :=
  { R with
    tenants := Function.update R.tenants id none
    configs := Function.update R.configs id none
    domains := fun domain => (R.domains domain).filter (·.tenantId ≠ id) }

/-- The configuration marks an expired demo. -/
def demoExpired (flags : Flags Json) (now : Int) (config : ConfigRow Json) : Bool :=
  (flags.demoMode config.featureFlags).getD false && (flags.demoExpiresAt config.featureFlags).any (· ≤ now)

def cleanedRow (flags : Flags Json) (now : Int) (R : Registry Json) (id : Nat) (row : TenantRow) : TenantRow :=
  if row.isActive && (R.configs id).any (demoExpired flags now) then { row with isActive := false } else row

/-- A call that raises, or finds no row, leaves the tables and the entries. -/
def Mutation.effect (flags : Flags Json) (R : Registry Json) : Mutation Json → Effect Json
  | .create row =>
    match R.create row with
    | .error _ => { registry := R }
    | .ok (_, registry) => { registry, dropsSlug := dropsTenant row.slug }
  | .createConfig id slug config =>
    match R.createConfig id config with
    | .error _ => { registry := R }
    | .ok registry => { registry, dropsSlug := dropsTenant slug }
  | .deleteConfig id slug =>
    if (R.configs id).isNone then { registry := R }
    else
      let effective := ((slug.filter (· ≠ "")).or ((R.tenants id).map (·.slug))).getD ""
      { registry := R.deleteConfig id, dropsSlug := dropsTenant effective }
  | .setActor id actor => writeTenant R id (R.setActor id actor)
  | .activate id => writeTenant R id (R.activate id)
  | .deactivate id => writeTenant R id (R.deactivate id)
  | .incrementSecurityVersion id => writeTenant R id (R.incrementSecurityVersion id)
  | .createDomain id domain verifiedAt =>
    match R.createDomain id domain verifiedAt with
    | .error _ => { registry := R }
    | .ok registry => { registry, dropsHost := dropsDomain (normalizeDomain domain) }
  | .verifyDomain domain verifiedAt =>
    if (R.getDomain domain).isNone then { registry := R }
    else { registry := R.verifyDomain domain verifiedAt, dropsHost := dropsDomain (normalizeDomain domain) }
  | .deleteDomain domain id =>
    if (R.getDomain domain).any fun row => id.all (· = row.tenantId) then
      { registry := R.deleteDomain domain id, dropsHost := dropsDomain (normalizeDomain domain) }
    else { registry := R }
  | .deleteBySlug slug =>
    match R.getBySlug slug, R.deleteBySlug slug with
    | some id, .ok registry =>
      -- a domain is stored as it is normalized
      { registry, dropsSlug := dropsTenant slug, dropsHost := fun host => host ≠ "" && (R.domains host).any (·.tenantId = id) }
    | _, _ => { registry := R }
  | .hardDeleteTenant id => { registry := if (R.tenants id).isNone then R else deleteRow R id }
  | .restoreCancelledTenant id latest =>
    match R.tenants id with
    | none => { registry := R }
    | some row =>
      if row.isActive || latest.map (fun status => String.ofList (Text.lower status.toList)) ≠ some "deactivation_requested" then
        { registry := R }
      else { registry := R.activate id, dropsSlug := dropsTenant row.slug }
  | .permanentlyDeleteCancelledTenant id =>
    match R.tenants id with
    | none => { registry := R }
    | some row => if row.isActive then { registry := R } else { registry := deleteRow R id, dropsSlug := dropsTenant row.slug }
  | .cleanupExpiredDemoTenants now =>
    { registry := { R with tenants := fun id => (R.tenants id).map (cleanedRow flags now R id) } }

def State.mutate (flags : Flags Json) (s : State Json) (m : Mutation Json) : State Json :=
  let e := m.effect flags s.registry
  { registry := e.registry, hosts := drop e.dropsHost s.hosts, snapshots := drop e.dropsSlug s.snapshots }

inductive Op (Json : Type) where
  | mutate (m : Mutation Json)
  | resolve (now : Int) (host : String)

section

variable (policy : DomainRoutingPolicy) (flags : Flags Json) [EmptyCollection Json]

def step (s : State Json) : Op Json → State Json
  | .mutate m => s.mutate flags m
  | .resolve now host => (resolveRequest policy now s host).2

/-- A resolution returns what it would return with an empty cache. -/
def Transparent (s : State Json) : Op Json → Prop
  | .mutate _ => True
  | .resolve now host => (resolveRequest policy now s host).1 = (resolveRequest policy now { registry := s.registry } host).1

/-! ### Calls that leave no stale entry -/

/-- No host is cached for a domain of the tenant. -/
def UncachedDomains (s : State Json) (id : Nat) : Prop :=
  ∀ host, (s.hosts host).isSome → policy.resolvePlatformSlug host = none → s.registry.getByDomain host ≠ some id

/-- A host that is cached under another spelling than the domain's keeps its tenant. -/
def KeepsSpellings (s : State Json) (domain : String) (registry : Registry Json) : Prop :=
  ∀ host, (s.hosts host).isSome → policy.resolvePlatformSlug host = none → normalizeDomain host = normalizeDomain domain →
    slugByDomain registry host = slugByDomain s.registry host ∨ dropsDomain (normalizeDomain domain) host

/-- The snapshot of the tenant is not cached, or the configuration does not show in it. -/
def UncachedConfig (s : State Json) (id : Nat) (slug : String) (config : Option (ConfigRow Json)) : Prop :=
  ∀ row ∈ s.registry.tenants id, row.slug = slug ∨ s.snapshots row.slug = none ∨
    Registry.buildSnapshot id row config = Registry.buildSnapshot id row (s.registry.configs id)

def Careful (s : State Json) : Op Json → Prop
  | .mutate (.createConfig id slug config) => UncachedConfig s id slug (some config)
  | .mutate (.deleteConfig id (some slug)) => slug ≠ "" → UncachedConfig s id slug none
  | .mutate (.createDomain id domain verifiedAt) =>
      KeepsSpellings policy s domain ((Mutation.createDomain id domain verifiedAt).effect flags s.registry).registry
  | .mutate (.verifyDomain domain verifiedAt) =>
      KeepsSpellings policy s domain ((Mutation.verifyDomain domain verifiedAt).effect flags s.registry).registry
  | .mutate (.deleteDomain domain id) =>
      KeepsSpellings policy s domain ((Mutation.deleteDomain domain id).effect flags s.registry).registry
  | .mutate (.deleteBySlug slug) => ∀ id ∈ s.registry.getBySlug slug, ∀ host, (s.hosts host).isSome →
      policy.resolvePlatformSlug host = none → s.registry.getByDomain host = some id → normalizeDomain host = host ∧ host ≠ ""
  | .mutate (.hardDeleteTenant id) => UncachedDomains policy s id ∧ ∀ row ∈ s.registry.tenants id, s.snapshots row.slug = none
  | .mutate (.permanentlyDeleteCancelledTenant id) =>
      ∀ row ∈ s.registry.tenants id, row.isActive = false → UncachedDomains policy s id
  | .mutate (.cleanupExpiredDemoTenants now) => ∀ id, ∀ row ∈ s.registry.tenants id, row.isActive = true →
      (s.registry.configs id).any (demoExpired flags now) = true → s.snapshots row.slug = none
  | .mutate _ => True
  | .resolve _ host => (s.hosts host).isSome → policy.resolvePlatformSlug host = none →
      ∀ slug ∈ slugByDomain s.registry host, slug ≠ "" ∧ policy.isPlatformHost host = false

end

/-! ### What the reads take from the tables -/

variable {R R' : Registry Json} {slug host : String} {id : Nat}

theorem slugByDomain_eq (R : Registry Json) (host : String) : slugByDomain R host =
    ((R.getDomain host).filter (·.verifiedAt.isSome)).bind fun row => (R.tenants row.tenantId).map (·.slug) := by
  unfold slugByDomain Registry.getByDomain
  cases R.getDomain host with
  | none => rfl
  | some row =>
    cases verified : row.verifiedAt with
    | none => simp [Option.filter, verified]
    | some at' => cases tenant : R.tenants row.tenantId <;> simp [Option.filter, verified, tenant]

/-- A domain routes to a tenant by its slug only. -/
theorem slugByDomain_congr (domain : R'.getDomain host = R.getDomain host)
    (slugs : ∀ row ∈ R.getDomain host, (R'.tenants row.tenantId).map (·.slug) = (R.tenants row.tenantId).map (·.slug)) :
    slugByDomain R' host = slugByDomain R host := by
  rw [slugByDomain_eq, slugByDomain_eq, domain]
  cases there : R.getDomain host with
  | none => rfl
  | some row =>
    cases verified : row.verifiedAt.isSome with
    | false => simp [Option.filter, verified]
    | true => simpa [Option.filter, verified] using slugs row there

theorem getBySlug_congr (next : R'.nextTenantId = R.nextTenantId)
    (same : ∀ id, (R'.tenants id).any (·.slug = slug) = (R.tenants id).any (·.slug = slug)) :
    R'.getBySlug slug = R.getBySlug slug := by
  unfold Registry.getBySlug
  rw [next, funext same]

theorem getSnapshotBySlug_congr [EmptyCollection Json] (found : R'.getBySlug slug = R.getBySlug slug)
    (rows : ∀ id ∈ R.getBySlug slug, R'.tenants id = R.tenants id ∧ R'.configs id = R.configs id) :
    R'.getSnapshotBySlug slug = R.getSnapshotBySlug slug := by
  unfold Registry.getSnapshotBySlug
  rw [found]
  cases there : R.getBySlug slug with
  | none => rfl
  | some id =>
    obtain ⟨tenant, config⟩ := rows id there
    simp only [Option.bind_some, tenant, config]

/-- The row of a tenant with another slug is another one. -/
theorem ne_of_getBySlug {row : TenantRow} (stored : R.tenants id = some row) (other : slug ≠ row.slug) {k : Nat}
    (found : R.getBySlug slug = some k) : k ≠ id := by
  rintro rfl
  obtain ⟨own, there, same⟩ := Registry.getBySlug_row found
  rw [stored] at there
  exact other (by rw [← same, Option.some.inj there])

/-! ### What a write leaves -/

structure Linked (R : Registry Json) : Prop where
  ids : ∀ id, (R.tenants id).isSome → id < R.nextTenantId
  domains : ∀ domain, ∀ row ∈ R.domains domain, (R.tenants row.tenantId).isSome

/-- The entries that a write leaves are as right as before. -/
structure Kept (policy : DomainRoutingPolicy) [EmptyCollection Json] (s : State Json) (e : Effect Json) : Prop where
  hosts : ∀ host, (s.hosts host).isSome → policy.resolvePlatformSlug host = none → e.dropsHost host = false →
    slugByDomain e.registry host = slugByDomain s.registry host
  snapshots : ∀ slug, slug ≠ "" → (s.snapshots slug).isSome → e.dropsSlug slug = false →
    e.registry.getSnapshotBySlug slug = s.registry.getSnapshotBySlug slug
  linked : Linked e.registry

variable {policy : DomainRoutingPolicy} {flags : Flags Json} {s : State Json}

theorem dropsTenant_self (named : slug ≠ "") : dropsTenant slug slug = true := by simp [dropsTenant, named]

theorem Linked.of_tenants (linked : Linked R) (domains : R'.domains = R.domains) (next : R'.nextTenantId = R.nextTenantId)
    (rows : ∀ id, (R'.tenants id).isSome = (R.tenants id).isSome) : Linked R' where
  ids id there := next ▸ linked.ids id (rows id ▸ there)
  domains domain row mem := by
    rw [rows]
    exact linked.domains domain row (domains ▸ mem)

variable [EmptyCollection Json]

theorem Kept.unchanged (linked : Linked s.registry) : Kept policy s { registry := s.registry } where
  hosts _ _ _ _ := rfl
  snapshots _ _ _ _ := rfl
  linked := linked

/-- A tenant is written, and its snapshot dropped. -/
theorem Kept.tenant (linked : Linked s.registry) {row : TenantRow} (stored : s.registry.tenants id = some row)
    {f : TenantRow → TenantRow} (slugs : (f row).slug = row.slug) :
    Kept policy s { registry := s.registry.setTenant id f, dropsSlug := dropsTenant row.slug } := by
  have tenants : (s.registry.setTenant id f).tenants = Function.update s.registry.tenants id (some (f row)) := by
    simp [Registry.setTenant, stored]
  refine ⟨fun host _ _ _ => slugByDomain_congr rfl fun link _ => ?_, fun slug named _ stays => ?_, ?_⟩
  · rw [tenants]
    by_cases own : link.tenantId = id
    · rw [own, Function.update_self, stored]
      exact congrArg some slugs
    · rw [Function.update_of_ne own]
  · have found : (s.registry.setTenant id f).getBySlug slug = s.registry.getBySlug slug :=
      Registry.getBySlug_update stored slugs tenants rfl slug
    have other : slug ≠ row.slug := by
      rintro rfl
      cases (dropsTenant_self named).symm.trans stays
    refine getSnapshotBySlug_congr found fun k there => ⟨?_, rfl⟩
    rw [tenants, Function.update_of_ne (ne_of_getBySlug stored other there)]
  · refine linked.of_tenants rfl rfl fun k => ?_
    rw [tenants]
    by_cases own : k = id
    · rw [own, Function.update_self, stored]
      rfl
    · rw [Function.update_of_ne own]

theorem Kept.writeTenant (linked : Linked s.registry) (f : TenantRow → TenantRow) (slugs : ∀ row, (f row).slug = row.slug) :
    Kept policy s (writeTenant s.registry id (s.registry.setTenant id f)) := by
  unfold Routing.writeTenant
  cases stored : s.registry.tenants id with
  | none => exact .unchanged linked
  | some row => exact .tenant linked stored (slugs row)

/-- The configuration of a tenant is written or deleted. -/
theorem Kept.config (linked : Linked s.registry) {config : Option (ConfigRow Json)} {slug : String}
    (uncached : UncachedConfig s id slug config) : Kept policy s
      { registry := { s.registry with configs := Function.update s.registry.configs id config }, dropsSlug := dropsTenant slug } := by
  refine ⟨fun host _ _ _ => slugByDomain_congr rfl fun _ _ => rfl, fun slug' named cached stays => ?_, ⟨linked.ids, linked.domains⟩⟩
  unfold Registry.getSnapshotBySlug
  change ((s.registry.getBySlug slug').bind _) = _
  cases found : s.registry.getBySlug slug' with
  | none => rfl
  | some k =>
    obtain ⟨row, stored, own⟩ := Registry.getBySlug_row found
    simp only [Option.bind_some, stored, Option.map_some]
    by_cases same : k = id
    · subst same
      rw [Function.update_self]
      rcases uncached row stored with given | absent | shown
      · rw [own] at given
        subst given
        exact absurd ((dropsTenant_self named).symm.trans stays) nofun
      · rw [own] at absent
        rw [absent] at cached
        cases cached
      · rw [shown]
    · rw [Function.update_of_ne same]

/-- The row of one domain is written. -/
theorem Kept.domain (linked : Linked s.registry) {domain : String} {row : Option DomainRow}
    (tenant : ∀ r ∈ row, (s.registry.tenants r.tenantId).isSome) {registry : Registry Json}
    (written : registry = { s.registry with domains := Function.update s.registry.domains (normalizeDomain domain) row })
    (spelled : KeepsSpellings policy s domain registry) :
    Kept policy s { registry, dropsHost := dropsDomain (normalizeDomain domain) } := by
  subst written
  refine ⟨fun host cached custom stays => ?_, fun slug _ _ _ => ?_, linked.ids, fun k r mem => ?_⟩
  · dsimp only at stays ⊢
    by_cases same : normalizeDomain host = normalizeDomain domain
    · rcases spelled host cached custom same with kept | dropped
      · exact kept
      · rw [dropped] at stays
        cases stays
    · simp only [slugByDomain_eq, Registry.getDomain, Function.update_of_ne same]
  · exact getSnapshotBySlug_congr (getBySlug_congr rfl fun _ => rfl) fun _ _ => ⟨rfl, rfl⟩
  · dsimp only at mem
    by_cases own : k = normalizeDomain domain
    · rw [own, Function.update_self] at mem
      exact tenant r mem
    · rw [Function.update_of_ne own] at mem
      exact linked.domains k r mem

/-- A tenant is deleted with its domains, and with its configuration where it has one. -/
theorem Kept.delete (linked : Linked s.registry) {row : TenantRow} (stored : s.registry.tenants id = some row)
    {e : Effect Json} (tenants : e.registry.tenants = Function.update s.registry.tenants id none)
    (configs : ∀ k ≠ id, e.registry.configs k = s.registry.configs k)
    (domains : e.registry.domains = fun domain => (s.registry.domains domain).filter (·.tenantId ≠ id))
    (next : e.registry.nextTenantId = s.registry.nextTenantId)
    (dropped : ∀ host, (s.hosts host).isSome → policy.resolvePlatformSlug host = none →
      s.registry.getByDomain host = some id → e.dropsHost host = true)
    (snapshot : row.slug = "" ∨ s.snapshots row.slug = none ∨ e.dropsSlug row.slug = true) : Kept policy s e := by
  refine ⟨fun host cached custom stays => ?_, fun slug named cached stays => ?_, ?_, ?_⟩
  · have other : s.registry.getByDomain host ≠ some id := fun own => by simp [dropped host cached custom own] at stays
    rw [slugByDomain_eq, slugByDomain_eq, Registry.getDomain, Registry.getDomain, domains]
    dsimp only
    cases there : s.registry.domains (normalizeDomain host) with
    | none => rfl
    | some link =>
      by_cases own : link.tenantId = id
      · -- a domain of the tenant that is not verified
        have unverified : link.verifiedAt.isSome = false := by
          by_contra verified
          refine other ?_
          simp [Registry.getByDomain, Registry.getDomain, there, Option.filter, own, stored, eq_true_of_ne_false verified]
        simp [Option.filter, own, unverified]
      · cases verified : link.verifiedAt.isSome <;> simp [Option.filter, own, verified, tenants]
  · have other : slug ≠ row.slug := by
      rintro rfl
      rcases snapshot with blank | absent | drops
      · exact named blank
      · rw [absent] at cached
        cases cached
      · exact absurd (drops.symm.trans stays) nofun
    have found : e.registry.getBySlug slug = s.registry.getBySlug slug := by
      refine getBySlug_congr next fun k => ?_
      rw [tenants]
      by_cases own : k = id
      · simp [own, stored, Ne.symm other]
      · rw [Function.update_of_ne own]
    refine getSnapshotBySlug_congr found fun k there => ?_
    have differs := ne_of_getBySlug stored other there
    exact ⟨by rw [tenants, Function.update_of_ne differs], configs k differs⟩
  · intro k there
    rw [tenants] at there
    rw [next]
    by_cases own : k = id
    · simp [own] at there
    · rw [Function.update_of_ne own] at there
      exact linked.ids k there
  · intro domain link mem
    rw [domains] at mem
    simp only [Option.mem_def, Option.filter_eq_some_iff, decide_eq_true_eq] at mem
    rw [tenants, Function.update_of_ne mem.2]
    exact linked.domains domain link mem.1

theorem Kept.create (linked : Linked s.registry) {row : TenantRow} {e : Effect Json}
    (tenants : e.registry.tenants = Function.update s.registry.tenants s.registry.nextTenantId (some row))
    (configs : e.registry.configs = s.registry.configs) (domains : e.registry.domains = s.registry.domains)
    (next : e.registry.nextTenantId = s.registry.nextTenantId + 1) (drops : e.dropsSlug = dropsTenant row.slug) : Kept policy s e := by
  have old : ∀ {k}, (s.registry.tenants k).isSome → e.registry.tenants k = s.registry.tenants k := fun there => by
    rw [tenants, Function.update_of_ne (Nat.ne_of_lt (linked.ids _ there))]
  refine ⟨fun host _ _ _ => ?_, fun slug named _ stays => ?_, fun k there => ?_, fun domain link mem => ?_⟩
  · refine slugByDomain_congr (congrFun domains _) fun link mem => ?_
    rw [old (linked.domains _ link mem)]
  · have other : slug ≠ row.slug := by
      rintro rfl
      rw [drops, dropsTenant_self named] at stays
      cases stays
    have found : e.registry.getBySlug slug = s.registry.getBySlug slug := by
      unfold Registry.getBySlug
      rw [next, List.range_succ, List.find?_append, List.find?_singleton, tenants]
      simp only [Function.update_self, Option.any_some, Ne.symm other, decide_false, Bool.false_eq_true, if_false, Option.or_none]
      refine List.find?_congr fun k mem => ?_
      rw [Function.update_of_ne (Nat.ne_of_lt (List.mem_range.mp mem))]
    refine getSnapshotBySlug_congr found fun k there => ?_
    obtain ⟨own, stored, -⟩ := Registry.getBySlug_row there
    exact ⟨old (by simp [stored]), congrFun configs k⟩
  · rw [next]
    rw [tenants] at there
    by_cases own : k = s.registry.nextTenantId
    · simp [own]
    · rw [Function.update_of_ne own] at there
      exact Nat.lt_succ_of_lt (linked.ids k there)
  · rw [domains] at mem
    have there := linked.domains domain link mem
    rwa [old there]

/-- The demos that have expired are deactivated, none of which has its snapshot cached. -/
theorem Kept.cleanup (linked : Linked s.registry) {now : Int} (uncached : ∀ id, ∀ row ∈ s.registry.tenants id, row.isActive = true →
    (s.registry.configs id).any (demoExpired flags now) = true → s.snapshots row.slug = none) :
    Kept policy s ((Mutation.cleanupExpiredDemoTenants now).effect flags s.registry) := by
  have slugs : ∀ id row, (cleanedRow flags now s.registry id row).slug = row.slug := by
    intro id row
    unfold cleanedRow
    split <;> rfl
  refine ⟨fun host _ _ _ => slugByDomain_congr rfl fun link _ => ?_, fun slug _ cached _ => ?_, ?_⟩
  · cases row : s.registry.tenants link.tenantId <;> simp [Mutation.effect, row, slugs]
  · refine getSnapshotBySlug_congr (getBySlug_congr rfl fun k => ?_) fun k there => ⟨?_, rfl⟩
    · cases row : s.registry.tenants k <;> simp [Mutation.effect, row, slugs]
    · obtain ⟨row, stored, own⟩ := Registry.getBySlug_row there
      simp only [Mutation.effect, stored, Option.map_some]
      unfold cleanedRow
      split
      · next expired =>
        simp only [Bool.and_eq_true] at expired
        have absent := uncached k row stored expired.1 expired.2
        rw [own] at absent
        rw [absent] at cached
        cases cached
      · rfl
  · refine linked.of_tenants rfl rfl fun k => ?_
    simp [Mutation.effect]

omit [EmptyCollection Json] in
theorem getByDomain_row (found : R.getByDomain host = some id) :
    ∃ link, R.domains (normalizeDomain host) = some link ∧ link.tenantId = id := by
  obtain ⟨link, there, own⟩ := Option.map_eq_some_iff.mp found
  exact ⟨link, (Option.filter_eq_some_iff.mp there).1, own⟩

/-- A careful write leaves no stale entry. -/
theorem Mutation.kept (linked : Linked s.registry) (m : Mutation Json) (careful : Careful policy flags s (.mutate m)) :
    Kept policy s (m.effect flags s.registry) := by
  cases m with
  | create row =>
    cases taken : (s.registry.getBySlug row.slug).isSome with
    | true =>
      have refused : s.registry.create row = .error .integrityError := by rw [Registry.create, if_pos taken]; rfl
      simp only [effect, refused]
      exact .unchanged linked
    | false =>
      have made : s.registry.create row = .ok (s.registry.nextTenantId, _) := if_neg (by simp [taken])
      simp only [effect, made]
      exact .create linked rfl rfl rfl rfl rfl
  | createConfig id slug config =>
    cases tenant : s.registry.tenants id with
    | none =>
      have refused : s.registry.createConfig id config = .error .integrityError := by simp [Registry.createConfig, tenant]; rfl
      simp only [effect, refused]
      exact .unchanged linked
    | some row =>
      have made : s.registry.createConfig id config = .ok _ := if_neg (by simp [tenant])
      simp only [effect, made]
      exact .config linked careful
  | deleteConfig id slug =>
    simp only [effect]
    split
    · exact .unchanged linked
    · refine .config linked ?_
      rcases slug with _ | slug
      · intro row stored
        exact .inl (by simp [Option.mem_def.mp stored])
      · by_cases named : slug = ""
        · intro row stored
          exact .inl (by simp [named, Option.filter, Option.mem_def.mp stored])
        · simpa [Option.filter, named] using careful named
  | setActor id actor => exact .writeTenant linked _ fun _ => rfl
  | activate id => exact .writeTenant linked _ fun _ => rfl
  | deactivate id => exact .writeTenant linked _ fun _ => rfl
  | incrementSecurityVersion id => exact .writeTenant linked _ fun _ => rfl
  | createDomain id domain verifiedAt =>
    cases tenant : s.registry.tenants id with
    | none =>
      have refused : s.registry.createDomain id domain verifiedAt = .error .integrityError := by simp [Registry.createDomain, tenant]; rfl
      simp only [effect, refused]
      exact .unchanged linked
    | some row =>
      have made : s.registry.createDomain id domain verifiedAt = .ok _ := if_neg (by simp [tenant])
      simp only [Careful, effect, made] at careful ⊢
      refine .domain linked ?_ rfl careful
      rintro _ ⟨⟩
      cases s.registry.domains (normalizeDomain domain) <;> simp [Registry.assignedDomain, tenant]
  | verifyDomain domain verifiedAt =>
    simp only [Careful, effect] at careful ⊢
    split
    · exact .unchanged linked
    · next there =>
      rw [if_neg there] at careful
      refine .domain linked ?_ rfl careful
      intro row mem
      obtain ⟨old, stored, rfl⟩ := Option.map_eq_some_iff.mp mem
      exact linked.domains _ old stored
  | deleteDomain domain id =>
    simp only [Careful, effect] at careful ⊢
    split
    · next there =>
      have deleted : s.registry.deleteDomain domain id = _ := if_pos there
      rw [if_pos there, deleted] at careful
      rw [deleted]
      exact .domain linked (fun _ mem => by cases mem) rfl careful
    · exact .unchanged linked
  | deleteBySlug slug =>
    cases found : s.registry.getBySlug slug with
    | none =>
      simp only [effect, found]
      exact .unchanged linked
    | some id =>
      obtain ⟨row, stored, rfl⟩ := Registry.getBySlug_row found
      cases config : (s.registry.configs id).isSome with
      | true =>
        have refused : s.registry.deleteBySlug row.slug = .error .integrityError := by simp [Registry.deleteBySlug, found, config]; rfl
        simp only [effect, found, refused]
        exact .unchanged linked
      | false =>
        have made : s.registry.deleteBySlug row.slug = .ok { s.registry with
            tenants := Function.update s.registry.tenants id none
            domains := fun domain => (s.registry.domains domain).filter (·.tenantId ≠ id) } := by
          simp only [Registry.deleteBySlug, found, config, Bool.false_eq_true, if_false]
          rfl
        simp only [effect, found, made]
        refine .delete linked stored rfl (fun _ _ => rfl) rfl rfl (fun host cached custom own => ?_) ?_
        · obtain ⟨normal, named⟩ := careful id found host cached custom own
          obtain ⟨link, there, tenant⟩ := getByDomain_row own
          rw [normal] at there
          simp [named, there, tenant]
        · rcases eq_or_ne row.slug "" with blank | named
          · exact .inl blank
          · exact .inr (.inr (dropsTenant_self named))
  | hardDeleteTenant id =>
    obtain ⟨domains, snapshot⟩ := careful
    simp only [effect]
    cases stored : s.registry.tenants id with
    | none => exact .unchanged linked
    | some row =>
      exact .delete linked stored rfl (fun _ other => Function.update_of_ne other _ _) rfl rfl
        (fun host cached custom own => absurd own (domains host cached custom)) (.inr (.inl (snapshot row stored)))
  | restoreCancelledTenant id latest =>
    simp only [effect]
    cases stored : s.registry.tenants id with
    | none => exact .unchanged linked
    | some row =>
      dsimp only
      split
      · exact .unchanged linked
      · exact .tenant linked stored rfl
  | permanentlyDeleteCancelledTenant id =>
    simp only [effect]
    cases stored : s.registry.tenants id with
    | none => exact .unchanged linked
    | some row =>
      dsimp only
      split
      · exact .unchanged linked
      · next inactive =>
        have domains := careful row stored (eq_false_of_ne_true inactive)
        refine .delete linked stored rfl (fun _ other => Function.update_of_ne other _ _) rfl rfl
          (fun host cached custom own => absurd own (domains host cached custom)) ?_
        rcases eq_or_ne row.slug "" with blank | named
        · exact .inl blank
        · exact .inr (.inr (dropsTenant_self named))
  | cleanupExpiredDemoTenants now => exact .cleanup linked careful

/-! ### Resolution -/

/-- Every entry says what the tables say. -/
structure Sound (policy : DomainRoutingPolicy) (s : State Json) : Prop where
  hosts : Fresh (fun host slug => slug = (lookUpHost policy s.registry host).1.getD "") s.hosts
  snapshots : Fresh (fun slug raw => ∃ tenant, s.registry.getSnapshotBySlug slug = some tenant ∧ raw = tenantToJson tenant) s.snapshots
  named : s.snapshots "" = none
  linked : Linked s.registry

omit [EmptyCollection Json] in
theorem lookUpHost_fst : (lookUpHost policy R host).1 = (policy.resolvePlatformSlug host).or (slugByDomain R host) := by
  unfold lookUpHost
  cases policy.resolvePlatformSlug host <;> rfl

theorem sound_empty (linked : Linked R) : Sound policy { registry := R } :=
  ⟨fresh_empty, fresh_empty, rfl, linked⟩

theorem Sound.mutate (sound : Sound policy s) (m : Mutation Json) (careful : Careful policy flags s (.mutate m)) :
    Sound policy (s.mutate flags m) := by
  have kept : Kept policy s (m.effect flags s.registry) := m.kept sound.linked careful
  refine ⟨sound.hosts.drop fun host slug there stays right => ?_, sound.snapshots.drop fun slug raw there stays right => ?_, ?_, kept.linked⟩
  · rw [lookUpHost_fst] at right ⊢
    cases platform : policy.resolvePlatformSlug host with
    | some _ => simpa [platform] using right
    | none =>
      have same := kept.hosts host (by simp [there]) platform stays
      simpa [platform, State.mutate, same] using right
  · have named : slug ≠ "" := by
      rintro rfl
      rw [sound.named] at there
      cases there
    have same := kept.snapshots slug named (by simp [there]) stays
    simpa [State.mutate, same] using right
  · simp [State.mutate, drop, sound.named]

theorem DomainRoutingPolicy.resolvePlatformSlug_kind {slug : String} (found : policy.resolvePlatformSlug host = some slug) :
    policy.isPlatformHost host = true ∧ policy.hostKind host ≠ .customDomain := by
  unfold DomainRoutingPolicy.resolvePlatformSlug at found
  unfold DomainRoutingPolicy.isPlatformHost
  split at found
  · next kind => simp [kind]
  · next kind => simp [kind]
  · cases found

/-- A host that is cached resolves as if it were not. -/
theorem Sound.getSlugForHost_eq (sound : Sound policy s) (careful : Careful policy flags s (.resolve now host)) :
    ((getSlugForHost policy s host).1.1.filter (· ≠ ""), (getSlugForHost policy s host).1.2) =
      ((lookUpHost policy s.registry host).1.filter (· ≠ ""), (lookUpHost policy s.registry host).2) := by
  unfold getSlugForHost
  cases cached : s.hosts host with
  | none => rfl
  | some value =>
    have right : value = (lookUpHost policy s.registry host).1.getD "" := sound.hosts host value cached
    cases platform : policy.resolvePlatformSlug host with
    | some slug =>
      obtain ⟨isPlatform, kind⟩ := DomainRoutingPolicy.resolvePlatformSlug_kind platform
      have found : lookUpHost policy s.registry host = (some slug, false) := by simp [lookUpHost, platform, kind]
      rw [found] at right ⊢
      have right : value = slug := right
      by_cases blank : slug = "" <;> simp [right, blank, isPlatform, Option.filter]
    | none =>
      have plain := careful (by simp [cached]) platform
      have found : lookUpHost policy s.registry host = (slugByDomain s.registry host, (slugByDomain s.registry host).isSome) := by
        simp [lookUpHost, platform]
      rw [found] at right ⊢
      cases domain : slugByDomain s.registry host with
      | none =>
        rw [domain] at right
        have right : value = "" := right
        simp [right]
      | some slug =>
        rw [domain] at right
        have right : value = slug := right
        obtain ⟨named, isCustom⟩ := plain slug domain
        simp [right, named, isCustom]

omit [EmptyCollection Json] in
theorem getSlugForHost_tables (policy : DomainRoutingPolicy) (s : State Json) (host : String) :
    (getSlugForHost policy s host).2.registry = s.registry ∧
    (getSlugForHost policy s host).2.snapshots = s.snapshots := by
  unfold getSlugForHost
  split
  · split <;> exact ⟨rfl, rfl⟩
  · exact ⟨rfl, rfl⟩

theorem Sound.getSlugForHost_state (sound : Sound policy s) : Sound policy (getSlugForHost policy s host).2 := by
  unfold getSlugForHost
  split
  · split <;> exact sound
  · exact ⟨sound.hosts.set rfl, sound.snapshots, sound.named, sound.linked⟩

theorem Sound.getTenantSnapshot_eq (sound : Sound policy s) {now : Int} :
    (getTenantSnapshot now s slug).1 = s.registry.getSnapshotBySlug slug := by
  unfold getTenantSnapshot
  cases cached : s.snapshots slug with
  | none => cases s.registry.getSnapshotBySlug slug <;> rfl
  | some raw =>
    obtain ⟨tenant, found, rfl⟩ := sound.snapshots slug raw cached
    simp [found]

theorem Sound.getTenantSnapshot_state (sound : Sound policy s) {now : Int} (named : slug ≠ "") :
    Sound policy (getTenantSnapshot now s slug).2 := by
  unfold getTenantSnapshot
  split
  · exact sound
  · split
    · next tenant found =>
      refine ⟨sound.hosts, sound.snapshots.set ⟨tenant, found, rfl⟩, ?_, sound.linked⟩
      exact (Function.update_of_ne (Ne.symm named) _ _).trans sound.named
    · exact sound

theorem Sound.resolveRequest_state (sound : Sound policy s) {now : Int} : Sound policy (resolveRequest policy now s host).2 := by
  have next : Sound policy (getSlugForHost policy s host).2 := sound.getSlugForHost_state
  unfold resolveRequest
  split
  next slug isCustomDomain t found =>
    rw [found] at next
    split
    · exact next
    · next name given => exact next.getTenantSnapshot_state (by simpa using (Option.filter_eq_some_iff.mp given).2)

/-- A resolution returns what the tables say. -/
theorem Sound.resolveRequest_eq (sound : Sound policy s) {now : Int} (careful : Careful policy flags s (.resolve now host)) :
    (resolveRequest policy now s host).1 = match (lookUpHost policy s.registry host).1.filter (· ≠ "") with
      | none => (none, (lookUpHost policy s.registry host).2, none)
      | some slug => (some slug, (lookUpHost policy s.registry host).2, s.registry.getSnapshotBySlug slug) := by
  have answer := sound.getSlugForHost_eq careful
  have state := getSlugForHost_tables policy s host
  have next : Sound policy (getSlugForHost policy s host).2 := sound.getSlugForHost_state
  unfold resolveRequest
  generalize getSlugForHost policy s host = result at answer state next ⊢
  obtain ⟨⟨slug, isCustomDomain⟩, t⟩ := result
  simp only [Prod.mk.injEq] at answer state next ⊢
  obtain ⟨given, custom⟩ := answer
  rw [given, custom]
  cases (lookUpHost policy s.registry host).1.filter (· ≠ "") with
  | none => rfl
  | some name => simp only [next.getTenantSnapshot_eq, state.1]

/-! ### Every run -/

variable (policy flags)

/-- In a run of careful writes and resolutions, every resolution returns what it would return with an empty cache. -/
theorem always_transparent (R : Registry Json) (consistent : R.Consistent) (ops : List (Op Json))
    (careful : Always (step policy flags) (Careful policy flags) { registry := R } ops) :
    Always (step policy flags) (Transparent policy) { registry := R } ops := by
  have linked : Linked R := ⟨consistent.ids, consistent.domains⟩
  refine Always.of_invariant (Sound policy) (sound_empty linked) (fun s op sound careful => ?_) (fun s op sound careful => ?_) careful
  · cases op with
    | mutate m => exact sound.mutate m careful
    | resolve now host => exact sound.resolveRequest_state
  · cases op with
    | mutate m => trivial
    | resolve now host =>
      have fresh : Sound policy ({ registry := s.registry } : State Json) := sound_empty sound.linked
      have uncached : Careful policy flags ({ registry := s.registry } : State Json) (.resolve now host) := by
        intro cached
        simp at cached
      rw [Transparent, sound.resolveRequest_eq careful, fresh.resolveRequest_eq uncached]

end

/-- A tenant that billing has deleted is still routed to. -/
theorem not_always_transparent :
    let policy := DomainRoutingPolicy.new "nyz.hu"
    let flags : Flags (List Nat) := { demoMode := fun _ => none, demoExpiresAt := fun _ => none }
    let s := final (step policy flags) {} [.mutate (.create { slug := "acme", name := "Acme", createdAt := 0 }),
      .resolve 0 "acme.nyz.hu", .mutate (.hardDeleteTenant 1)]
    (resolveRequest policy 0 s "acme.nyz.hu").1.2.2.isSome = true ∧
      (resolveRequest policy 0 { registry := s.registry } "acme.nyz.hu").1 = (some "acme", false, none) := by
  decide +kernel

theorem transparent_deactivate :
    let policy := DomainRoutingPolicy.new "nyz.hu"
    let flags : Flags (List Nat) := { demoMode := fun _ => none, demoExpiresAt := fun _ => none }
    Always (step policy flags) (Transparent policy) {} [.mutate (.create { slug := "acme", name := "Acme", createdAt := 0 }),
      .resolve 0 "acme.nyz.hu", .mutate (.deactivate 1), .resolve 0 "acme.nyz.hu"] := by
  intro policy flags
  have platform : policy.resolvePlatformSlug "acme.nyz.hu" = some "acme" := by decide +kernel
  have named : policy.resolvePlatformSlug "acme.nyz.hu" ≠ none := by simp [platform]
  refine always_transparent policy flags {} ?_ _
    ⟨trivial, fun _ none' => absurd none' named, trivial, fun _ none' => absurd none' named, trivial⟩
  constructor <;> simp

end NyzRating.Tenancy.Routing
