import Mathlib.Logic.Function.Basic
import NyzRating.Lib.Text

/-!
# The public tenant tables

`public.tenants`, `public.tenant_configs` and `public.tenant_domains`, with the statements of `TenantReadRepository` and
`TenantWriteRepository`. Each table is looked up by its unique key; `Json` are the objects of the JSONB columns.
-/

namespace NyzRating.Tenancy

/-! ### Rows -/

/-- A row of `tenants`; `created_by` is the tenant's actor. -/
structure TenantRow where
  slug : String
  name : String
  createdAt : Int
  createdBy : Option Nat := none
  securityVersion : Int := 0
  isActive : Bool := true
  deriving DecidableEq, Repr

structure ConfigRow (Json : Type) where
  package : String
  featureFlags : Json
  limits : Json
  deriving DecidableEq, Repr

structure DomainRow where
  tenantId : Nat
  verifiedAt : Option Int := none
  deriving DecidableEq, Repr

/-- `tenants` and `tenant_configs` by the id of the tenant, `tenant_domains` by the normalized domain. -/
structure Registry (Json : Type) where
  tenants : Nat → Option TenantRow := fun _ => none
  configs : Nat → Option (ConfigRow Json) := fun _ => none
  domains : String → Option DomainRow := fun _ => none
  nextTenantId : Nat := 1

/-- `TenantSnapshot`, with the fields of its status and of its configuration. -/
structure TenantSnapshot (Json : Type) where
  tenantId : Nat
  slug : String
  name : String
  createdAt : Int
  securityVersion : Int
  isActive : Bool
  package : String
  featureFlags : Json
  limits : Json
  deriving DecidableEq, Repr

inductive RegistryError where
  | integrityError
  deriving DecidableEq, Repr

/-- `_normalize_domain`. -/
def normalizeDomain (domain : String) : String := Text.stripLower domain

namespace Registry

variable {Json : Type} (R : Registry Json)

/-! ### `TenantReadRepository` -/

/-- The id of the tenant that `get_by_slug` finds. -/
def getBySlug (slug : String) : Option Nat :=
  (List.range R.nextTenantId).find? fun id => (R.tenants id).any (·.slug = slug)

def getActorUserId (id : Nat) : Option Nat := (R.tenants id).bind (·.createdBy)

def getDomain (domain : String) : Option DomainRow := R.domains (normalizeDomain domain)

/-- The id of the tenant that `get_by_domain` finds. -/
def getByDomain (domain : String) : Option Nat :=
  ((R.getDomain domain).filter fun row => row.verifiedAt.isSome && (R.tenants row.tenantId).isSome).map (·.tenantId)

/-- `get_tenant_status`, of which `is_active` is read. -/
def getTenantStatus (slug : String) : Option Bool := ((R.getBySlug slug).bind R.tenants).map (·.isActive)

/-- `_build_snapshot`; without a row of its own, the tenant has the configuration of the free package. -/
def buildSnapshot [EmptyCollection Json] (id : Nat) (row : TenantRow) (config : Option (ConfigRow Json)) : TenantSnapshot Json where
  tenantId := id
  slug := row.slug
  name := row.name
  createdAt := row.createdAt
  securityVersion := row.securityVersion
  isActive := row.isActive
  package := ((config.map (·.package)).filter (· ≠ "")).getD "free"
  featureFlags := (config.map (·.featureFlags)).getD ∅
  limits := (config.map (·.limits)).getD ∅

def getSnapshotBySlug [EmptyCollection Json] (slug : String) : Option (TenantSnapshot Json) :=
  (R.getBySlug slug).bind fun id => (R.tenants id).map fun row => buildSnapshot id row (R.configs id)

/-! ### `TenantWriteRepository` -/

def setTenant (id : Nat) (f : TenantRow → TenantRow) : Registry Json :=
  { R with tenants := Function.update R.tenants id ((R.tenants id).map f) }

/-- The id of the new tenant, with the tables. -/
def create (row : TenantRow) : Except RegistryError (Nat × Registry Json) :=
  if (R.getBySlug row.slug).isSome then throw .integrityError
  else
    return (R.nextTenantId,
      { R with tenants := Function.update R.tenants R.nextTenantId (some row), nextTenantId := R.nextTenantId + 1 })

/-- Writes the row of the tenant, a new one or the one that is there. -/
def createConfig (id : Nat) (row : ConfigRow Json) : Except RegistryError (Registry Json) :=
  if (R.tenants id).isNone then throw .integrityError
  else return { R with configs := Function.update R.configs id (some row) }

def deleteConfig (id : Nat) : Registry Json := { R with configs := Function.update R.configs id none }

/-- The row that `create_domain` leaves of the one that is there: it keeps its time of verification. -/
def assignedDomain (id : Nat) (verifiedAt : Option Int) : Option DomainRow → DomainRow
  | none => { tenantId := id, verifiedAt }
  | some row => { row with tenantId := id, verifiedAt := verifiedAt.or row.verifiedAt }

def createDomain (id : Nat) (domain : String) (verifiedAt : Option Int) : Except RegistryError (Registry Json) :=
  if (R.tenants id).isNone then throw .integrityError
  else
    let domain := normalizeDomain domain
    return { R with domains := Function.update R.domains domain (some (assignedDomain id verifiedAt (R.domains domain))) }

def verifyDomain (domain : String) (verifiedAt : Option Int) : Registry Json :=
  let domain := normalizeDomain domain
  { R with domains := Function.update R.domains domain ((R.domains domain).map fun row => { row with verifiedAt }) }

/-- `tenantId` restricts the call to the domains of one tenant. -/
def deleteDomain (domain : String) (tenantId : Option Nat) : Registry Json :=
  let domain := normalizeDomain domain
  if (R.domains domain).any fun row => tenantId.all (· = row.tenantId) then
    { R with domains := Function.update R.domains domain none }
  else R

/-- The domains go with the tenant. Its configuration does not: the session would clear the reference, which the column
refuses. -/
def deleteBySlug (slug : String) : Except RegistryError (Registry Json) :=
  match R.getBySlug slug with
  | none => return R
  | some id =>
    if (R.configs id).isSome then throw .integrityError
    else
      return { R with
        tenants := Function.update R.tenants id none
        domains := fun domain => (R.domains domain).filter (·.tenantId ≠ id) }

def setActor (id : Nat) (actor : Option Nat) : Registry Json := R.setTenant id ({ · with createdBy := actor })

def activate (id : Nat) : Registry Json := R.setTenant id ({ · with isActive := true })

def deactivate (id : Nat) : Registry Json := R.setTenant id ({ · with isActive := false })

def incrementSecurityVersion (id : Nat) : Registry Json :=
  R.setTenant id fun row => { row with securityVersion := row.securityVersion + 1 }

/-! ### What the constraints of the tables say -/

structure Consistent : Prop where
  ids : ∀ id, (R.tenants id).isSome → id < R.nextTenantId
  slugs : ∀ i j, ∀ a ∈ R.tenants i, ∀ b ∈ R.tenants j, a.slug = b.slug → i = j
  configs : ∀ id, (R.configs id).isSome → (R.tenants id).isSome
  domains : ∀ domain, ∀ row ∈ R.domains domain, (R.tenants row.tenantId).isSome

variable {R} {slug : String} {id : Nat}

theorem getBySlug_row (h : R.getBySlug slug = some id) : ∃ row, R.tenants id = some row ∧ row.slug = slug := by
  have found := List.find?_some h
  simp only [Option.any_eq_true, decide_eq_true_eq] at found
  exact found

/-- A row that keeps its slug is found as before. -/
theorem getBySlug_update {R' : Registry Json} {row row' : TenantRow} (stored : R.tenants id = some row)
    (slugs : row'.slug = row.slug) (tenants : R'.tenants = Function.update R.tenants id (some row'))
    (next : R'.nextTenantId = R.nextTenantId) (slug : String) : R'.getBySlug slug = R.getBySlug slug := by
  have same : (fun k => (R'.tenants k).any (·.slug = slug)) = fun k => (R.tenants k).any (·.slug = slug) := by
    funext k
    rw [tenants]
    by_cases own : k = id
    · subst own
      simp [stored, slugs]
    · rw [Function.update_of_ne own]
  unfold getBySlug
  rw [same, next]

/-- The tenant of a new slug is the new tenant. -/
theorem getBySlug_new {R' : Registry Json} {row : TenantRow} (new : R.getBySlug slug = none) (own : row.slug = slug)
    (tenants : R'.tenants = Function.update R.tenants R.nextTenantId (some row))
    (next : R'.nextTenantId = R.nextTenantId + 1) : R'.getBySlug slug = some R.nextTenantId := by
  unfold getBySlug at new ⊢
  rw [List.find?_eq_none] at new
  rw [next, List.range_succ, List.find?_append, List.find?_eq_none.mpr]
  · simp [tenants, own]
  · intro k hk
    rw [tenants, Function.update_of_ne (Nat.ne_of_lt (List.mem_range.mp hk))]
    exact new k hk

variable (R) in
theorem deleteDomain_any (domain : String) :
    R.deleteDomain domain none = { R with domains := Function.update R.domains (normalizeDomain domain) none } := by
  unfold deleteDomain
  cases there : R.domains (normalizeDomain domain) with
  | some row => simp [there]
  | none =>
    have same := Function.update_eq_self (normalizeDomain domain) R.domains
    rw [there] at same
    simp [there, same]

theorem Consistent.new (h : R.Consistent) : R.tenants R.nextTenantId = none := by
  by_contra there
  exact Nat.lt_irrefl _ (h.ids _ (Option.isSome_iff_ne_none.mpr there))

theorem Consistent.new_config (h : R.Consistent) : R.configs R.nextTenantId = none := by
  by_contra there
  have tenant := h.configs _ (Option.isSome_iff_ne_none.mpr there)
  rw [h.new] at tenant
  cases tenant

theorem Consistent.new_domain (h : R.Consistent) (domain : String) : ∀ row ∈ R.domains domain, row.tenantId ≠ R.nextTenantId := by
  intro row there own
  have tenant := h.domains domain row there
  rw [own, h.new] at tenant
  cases tenant

theorem Consistent.getBySlug_iff (h : R.Consistent) :
    R.getBySlug slug = some id ↔ ∃ row, R.tenants id = some row ∧ row.slug = slug := by
  constructor
  · exact getBySlug_row
  · rintro ⟨row, stored, own⟩
    have inRange : id ∈ List.range R.nextTenantId := List.mem_range.mpr (h.ids id (by simp [stored]))
    cases found : R.getBySlug slug with
    | none =>
      have absent := List.find?_eq_none.mp found id inRange
      simp [stored, own] at absent
    | some k =>
      obtain ⟨other, there, same⟩ := getBySlug_row found
      rw [h.slugs k id other there row stored (same.trans own.symm)]

/-! ### The constraints are kept -/

/-- One entry of a table is written. -/
theorem mem_update {κ α : Type} [DecidableEq κ] {table : κ → Option α} {k i : κ} {entry : Option α} {a : α} :
    a ∈ Function.update table k entry i ↔ i = k ∧ a ∈ entry ∨ i ≠ k ∧ a ∈ table i := by
  by_cases own : i = k
  · subst own
    simp
  · simp [own]

section
variable {R' : Registry Json} {k : Nat} {domain : String} {verifiedAt : Option Int}

theorem Consistent.create {row : TenantRow} (h : R.Consistent) (done : R.create row = .ok (k, R')) : R'.Consistent := by
  unfold Registry.create at done
  split at done
  · cases done
  next free =>
  cases done
  rw [Option.not_isSome_iff_eq_none] at free
  have other : ∀ i, ∀ a ∈ R.tenants i, a.slug ≠ row.slug := by
    intro i a there same
    have found := h.getBySlug_iff.mpr ⟨a, there, same⟩
    rw [free] at found
    cases found
  have stays : ∀ i, (R.tenants i).isSome → (Function.update R.tenants R.nextTenantId (some row) i).isSome := by
    intro i there
    by_cases own : i = R.nextTenantId
    · simp [own]
    · rwa [Function.update_of_ne own]
  refine ⟨fun i there => ?_, fun i j a ha b hb same => ?_, fun i there => stays i (h.configs i there),
    fun domain d there => stays _ (h.domains domain d there)⟩
  · obtain ⟨a, there⟩ := Option.isSome_iff_exists.mp there
    rcases mem_update.mp there with ⟨rfl, -⟩ | ⟨-, there⟩
    · exact Nat.lt_succ_self _
    · exact Nat.lt_succ_of_lt (h.ids i (Option.isSome_iff_exists.mpr ⟨a, there⟩))
  · rcases mem_update.mp ha with ⟨rfl, new⟩ | ⟨-, ha⟩ <;> rcases mem_update.mp hb with ⟨rfl, new'⟩ | ⟨-, hb⟩
    · rfl
    · obtain rfl := Option.some.inj new
      exact absurd same.symm (other j b hb)
    · obtain rfl := Option.some.inj new'
      exact absurd same (other i a ha)
    · exact h.slugs i j a ha b hb same

/-- Rows that keep their slug. -/
theorem Consistent.setTenant (h : R.Consistent) {f : TenantRow → TenantRow} (slugs : ∀ row, (f row).slug = row.slug) :
    (R.setTenant id f).Consistent := by
  have back : ∀ i, ∀ a ∈ (R.setTenant id f).tenants i, ∃ a₀ ∈ R.tenants i, a.slug = a₀.slug := by
    intro i a there
    rcases mem_update.mp there with ⟨rfl, there⟩ | ⟨-, there⟩
    · obtain ⟨a₀, stored, rfl⟩ := Option.map_eq_some_iff.mp there
      exact ⟨a₀, stored, slugs a₀⟩
    · exact ⟨a, there, rfl⟩
  have same : ∀ i, ((R.setTenant id f).tenants i).isSome = (R.tenants i).isSome := by
    intro i
    by_cases own : i = id <;> simp [Registry.setTenant, own]
  refine ⟨fun i there => h.ids i (same i ▸ there), fun i j a ha b hb eq => ?_, fun i there => (same i).trans (h.configs i there),
    fun domain d there => (same _).trans (h.domains domain d there)⟩
  obtain ⟨a₀, ha, sa⟩ := back i a ha
  obtain ⟨b₀, hb, sb⟩ := back j b hb
  exact h.slugs i j a₀ ha b₀ hb (sa.symm.trans (eq.trans sb))

theorem Consistent.createConfig {row : ConfigRow Json} (h : R.Consistent) (done : R.createConfig id row = .ok R') :
    R'.Consistent := by
  unfold Registry.createConfig at done
  split at done
  · cases done
  next tenant =>
  cases done
  refine ⟨h.ids, h.slugs, fun i there => ?_, h.domains⟩
  obtain ⟨config, there⟩ := Option.isSome_iff_exists.mp there
  rcases mem_update.mp there with ⟨rfl, -⟩ | ⟨-, there⟩
  · simpa [Option.isSome_iff_ne_none] using tenant
  · exact h.configs i (Option.isSome_iff_exists.mpr ⟨config, there⟩)

theorem Consistent.deleteConfig (h : R.Consistent) : (R.deleteConfig id).Consistent := by
  refine ⟨h.ids, h.slugs, fun i there => ?_, h.domains⟩
  obtain ⟨config, there⟩ := Option.isSome_iff_exists.mp there
  rcases mem_update.mp there with ⟨-, there⟩ | ⟨-, there⟩
  · cases there
  · exact h.configs i (Option.isSome_iff_exists.mpr ⟨config, there⟩)

theorem Consistent.createDomain (h : R.Consistent) (done : R.createDomain id domain verifiedAt = .ok R') : R'.Consistent := by
  unfold Registry.createDomain at done
  split at done
  · cases done
  next tenant =>
  cases done
  refine ⟨h.ids, h.slugs, h.configs, fun key d there => ?_⟩
  dsimp only at there
  rcases mem_update.mp there with ⟨-, there⟩ | ⟨-, there⟩
  · obtain rfl := Option.some.inj there
    have owner : (assignedDomain id verifiedAt (R.domains (normalizeDomain domain))).tenantId = id := by
      unfold assignedDomain
      split <;> rfl
    rw [owner]
    simpa [Option.isSome_iff_ne_none] using tenant
  · exact h.domains key d there

theorem Consistent.deleteDomain (h : R.Consistent) : (R.deleteDomain domain none).Consistent := by
  rw [R.deleteDomain_any]
  refine ⟨h.ids, h.slugs, h.configs, fun key d there => ?_⟩
  dsimp only at there
  rcases mem_update.mp there with ⟨-, there⟩ | ⟨-, there⟩
  · cases there
  · exact h.domains key d there

theorem Consistent.deleteBySlug (h : R.Consistent) (done : R.deleteBySlug slug = .ok R') : R'.Consistent := by
  unfold Registry.deleteBySlug at done
  split at done
  · cases done
    exact h
  next id found =>
  split at done
  · cases done
  next bare =>
  cases done
  have back : ∀ i, ∀ a ∈ Function.update R.tenants id none i, a ∈ R.tenants i := by
    intro i a there
    rcases mem_update.mp there with ⟨-, there⟩ | ⟨-, there⟩
    · cases there
    · exact there
  have stays : ∀ i, i ≠ id → (R.tenants i).isSome → (Function.update R.tenants id none i).isSome := by
    intro i other there
    rwa [Function.update_of_ne other]
  refine ⟨fun i there => ?_, fun i j a ha b hb => h.slugs i j a (back i a ha) b (back j b hb), fun i there => ?_,
    fun domain d there => ?_⟩
  · obtain ⟨a, there⟩ := Option.isSome_iff_exists.mp there
    exact h.ids i (Option.isSome_iff_exists.mpr ⟨a, back i a there⟩)
  · refine stays i ?_ (h.configs i there)
    rintro rfl
    exact bare there
  · obtain ⟨there, other⟩ := Option.filter_eq_some_iff.mp there
    exact stays _ (of_decide_eq_true other) (h.domains domain d there)

end

end Registry

end NyzRating.Tenancy
