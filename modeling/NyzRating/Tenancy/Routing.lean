import NyzRating.Lib.Cache
import NyzRating.Lib.Run
import NyzRating.Tenancy.Registry

/-!
# Routing of requests to tenants

`TenantResolutionService` keeps two caches beside the public tables, host to slug and slug to snapshot; whoever writes the
tables drops the entries by hand.
-/

namespace NyzRating.Tenancy.Routing

open Runs Caches

/-! ### Hosts -/

inductive HostKind where
  | missing
  | platformRoot
  | platformSubdomain
  | localhost
  | customDomain
  deriving DecidableEq, Repr

/-- The settings of a `DomainRoutingPolicy`, normalized. -/
structure DomainRoutingPolicy where
  tenantBaseDomain : String
  localhostTenant : Option String := some "demo"
  deriving DecidableEq, Repr

namespace DomainRoutingPolicy

def new (tenantBaseDomain : String) (localhostTenant : Option String := some "demo") : DomainRoutingPolicy where
  tenantBaseDomain := Text.stripLower tenantBaseDomain
  localhostTenant := (localhostTenant.map Text.stripLower).filter (· ≠ "")

variable (policy : DomainRoutingPolicy)

def hostKind (host : String) : HostKind :=
  let normalized := Text.stripLower host
  if normalized = "" then .missing
  else if normalized = policy.tenantBaseDomain then .platformRoot
  else if ("." ++ policy.tenantBaseDomain).toList.isSuffixOf normalized.toList then .platformSubdomain
  else if policy.localhostTenant.isSome && (normalized = "localhost" || normalized = "127.0.0.1") then .localhost
  else .customDomain

def resolvePlatformSlug (host : String) : Option String :=
  match policy.hostKind host with
  | .platformSubdomain =>
    let normalized := (Text.stripLower host).toList
    let label := normalized.take (normalized.length - (policy.tenantBaseDomain.length + 1))
    some (Text.stripLower (String.ofList label)) |>.filter (· ≠ "")
  | .localhost => policy.localhostTenant
  | _ => none

/-- The host is of the platform, as the reader of a cached entry asks. -/
def isPlatformHost (host : String) : Bool :=
  policy.hostKind host = .platformRoot || policy.hostKind host = .platformSubdomain || policy.hostKind host = .localhost

end DomainRoutingPolicy

/-! ### Snapshots as they are cached -/

/-- What `tenant_to_json` writes. -/
structure TenantJson (Json : Type) where
  id : Nat
  slug : String
  name : String
  createdAt : Option Int
  securityVersion : Option Int
  isActive : Option Bool
  package : Option String
  featureFlags : Option Json
  limits : Option Json
  deriving DecidableEq, Repr

section

variable {Json : Type}

def tenantToJson (tenant : TenantSnapshot Json) : TenantJson Json where
  id := tenant.tenantId
  slug := tenant.slug
  name := tenant.name
  createdAt := some tenant.createdAt
  securityVersion := some tenant.securityVersion
  isActive := some tenant.isActive
  package := some tenant.package
  featureFlags := some tenant.featureFlags
  limits := some tenant.limits

/-- A snapshot without a time of creation gets the current one. -/
def tenantFromJson [EmptyCollection Json] (now : Int) (raw : TenantJson Json) : TenantSnapshot Json where
  tenantId := raw.id
  slug := raw.slug
  name := raw.name
  createdAt := raw.createdAt.getD now
  securityVersion := raw.securityVersion.getD 0
  isActive := raw.isActive.getD true
  package := raw.package.getD "free"
  featureFlags := raw.featureFlags.getD ∅
  limits := raw.limits.getD ∅

@[simp] theorem tenantFromJson_tenantToJson [EmptyCollection Json] (now : Int) (tenant : TenantSnapshot Json) :
    tenantFromJson now (tenantToJson tenant) = tenant := rfl

/-! ### `TenantResolutionService` -/

/-- The public tables and the entries of the cache by host and by slug. -/
structure State (Json : Type) where
  registry : Registry Json := {}
  hosts : String → Option String := fun _ => none
  snapshots : String → Option (TenantJson Json) := fun _ => none

/-- The slug of the tenant that has the domain. -/
def slugByDomain (R : Registry Json) (host : String) : Option String :=
  (R.getByDomain host).bind fun id => (R.tenants id).map (·.slug)

variable (policy : DomainRoutingPolicy)

/-- The slug of a host with what is returned beside it, where nothing is cached. -/
def lookUpHost (R : Registry Json) (host : String) : Option String × Bool :=
  match policy.resolvePlatformSlug host with
  | some slug => (some slug, policy.hostKind host = .customDomain)
  | none =>
    let slug := slugByDomain R host
    (slug, slug.isSome)

/-- `_get_slug_for_host`. -/
def getSlugForHost (s : State Json) (host : String) : (Option String × Bool) × State Json :=
  match s.hosts host with
  | some cached => if cached = "" then ((none, false), s) else ((some cached, !policy.isPlatformHost host), s)
  | none =>
    let found := lookUpHost policy s.registry host
    (found, { s with hosts := Function.update s.hosts host (some (found.1.getD "")) })

variable [EmptyCollection Json]

/-- `_get_tenant_snapshot`. -/
def getTenantSnapshot (now : Int) (s : State Json) (slug : String) : Option (TenantSnapshot Json) × State Json :=
  match s.snapshots slug with
  | some cached => (some (tenantFromJson now cached), s)
  | none =>
    match s.registry.getSnapshotBySlug slug with
    | some tenant => (some tenant, { s with snapshots := Function.update s.snapshots slug (some (tenantToJson tenant)) })
    | none => (none, s)

def resolveRequest (now : Int) (s : State Json) (host : String) :
    (Option String × Bool × Option (TenantSnapshot Json)) × State Json :=
  match getSlugForHost policy s host with
  | ((slug, isCustomDomain), s) =>
    match slug.filter (· ≠ "") with
    | none => ((none, isCustomDomain, none), s)
    | some slug =>
      match getTenantSnapshot now s slug with
      | (snapshot, s) => ((some slug, isCustomDomain, snapshot), s)

end

end NyzRating.Tenancy.Routing
