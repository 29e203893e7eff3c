import NyzRating.Lib.Run
import NyzRating.Tenancy.Registry

/-!
# Custom domains and their verification

`TenantDomainVerificationService.verify_domain` asks the DNS for the token of one tenant, and marks the row of the domain,
whoever has it; `create_domain` gives a domain that is there to another tenant with the mark that it has.
-/

namespace NyzRating.Tenancy.DomainVerification

open Runs

/-! ### DNS -/

inductive TxtError where
  | nxDomain
  | noAnswer
  | lookupFailed
  deriving DecidableEq, Repr

/-- An answer, with its decoded `strings` and its `to_text()`. -/
structure TxtAnswer where
  strings : List String := []
  toText : Option String := none
  deriving DecidableEq, Repr

/-- What the DNS answers at the time of a call. -/
structure Dns where
  txt : String → Except TxtError (List TxtAnswer)
  /-- `getaddrinfo`; none where it raises. -/
  addresses : String → Option (List String)

structure Settings where
  jwtSecret : String := ""
  tenantBaseDomain : String := ""
  installHost : String := ""
  /-- `hmac.new(secret, payload, sha256).hexdigest()` -/
  hexdigest : String → String → String

/-- `DomainDnsVerificationFailedError`. -/
abbrev DnsM := Except String

/-- The texts in turn, up to the first that is not empty. -/
def firstText (texts : List String) : String := (texts.find? (· ≠ "")).getD ""

def strip (s : String) : String := String.ofList (Text.strip s.toList)

/-- `s.strip('"')`. -/
def stripQuotes (s : String) : String :=
  String.ofList (((s.toList.dropWhile (· = '"')).reverse.dropWhile (· = '"')).reverse)

def challengeName (domain : String) : String := "_nyzrating-challenge." ++ domain

def resolveTxtValues (dns : Dns) (recordName : String) : DnsM (List String) :=
  match dns.txt recordName with
  | .error .nxDomain => throw "dns_txt_not_found"
  | .error .noAnswer => throw "dns_txt_no_answer"
  | .error .lookupFailed => throw "dns_txt_lookup_failed"
  | .ok answers =>
    let values := answers.flatMap fun answer =>
      (answer.strings.map strip ++ (answer.toText.map fun text => stripQuotes (strip text)).toList).filter (· ≠ "")
    if values.isEmpty then throw "dns_txt_empty" else return values

def challengeToken (settings : Settings) (domain : String) (tenantId : Nat) : String :=
  let secret := firstText [settings.jwtSecret, settings.tenantBaseDomain, "nyzrating"]
  String.ofList ((settings.hexdigest secret (toString tenantId ++ ":" ++ domain)).toList.take 32)

def resolveIps (dns : Dns) (host : String) : DnsM (List String) :=
  match dns.addresses host with
  | none => throw "dns_lookup_failed"
  | some infos =>
    let ips := infos.filter (· ≠ "")
    if ips.isEmpty then throw "dns_lookup_empty" else return ips

def cnameTarget (settings : Settings) : String :=
  Text.stripLower (firstText [settings.installHost, settings.tenantBaseDomain])

def assertDnsPointsToPlatform (settings : Settings) (dns : Dns) (domain : String) : DnsM Unit := do
  let expectedHost := cnameTarget settings
  if expectedHost = "" then throw "platform_host_missing"
  let domainIps ← resolveIps dns domain
  let expectedIps ← resolveIps dns expectedHost
  if !domainIps.any (· ∈ expectedIps) then throw "dns_target_mismatch"

/-- The record and the token that a tenant has to set for a domain. -/
def challengeForDomain (settings : Settings) (domain : String) (tenantId : Nat) : String × String :=
  let domain := normalizeDomain domain
  (challengeName domain, challengeToken settings domain tenantId)

def assertDnsChallenge (settings : Settings) (dns : Dns) (domain : String) (tenantId : Nat) : DnsM Unit := do
  let (recordName, token) := challengeForDomain settings domain tenantId
  let txtValues ← resolveTxtValues dns recordName
  if token ∉ txtValues then throw "dns_txt_token_mismatch"

/-- The checks of `verify_domain`, of a normalized domain. -/
def assertDns (settings : Settings) (dns : Dns) (domain : String) (tenantId : Nat) : DnsM Unit := do
  assertDnsChallenge settings dns domain tenantId
  assertDnsPointsToPlatform settings dns domain

/-- The row after the call, if there is one, and the tables. -/
def verifyDomain {Json : Type} (settings : Settings) (dns : Dns) (R : Registry Json) (domain : String) (tenantId : Nat)
    (now : Int) : DnsM (Option DomainRow × Registry Json) := do
  let domain := normalizeDomain domain
  assertDns settings dns domain tenantId
  let R := R.verifyDomain domain (some now)
  return (R.getDomain domain, R)

/-! ### Runs -/

/-- The tables, with the tenants that have passed the challenge of a domain since it was created or given to its tenant. -/
structure State (Json : Type) where
  registry : Registry Json
  passed : String → List Nat := fun _ => []

inductive Op where
  | createDomain (tenantId : Nat) (domain : String) (verifiedAt : Option Int)
  | deleteDomain (domain : String) (tenantId : Option Nat)
  | verifyDomain (dns : Dns) (domain : String) (tenantId : Nat) (now : Int)

section

variable {Json : Type} (settings : Settings)

/-- The tables of before where the call raises. -/
def Op.run (R : Registry Json) : Op → Registry Json
  | .createDomain tenantId domain verifiedAt => (R.createDomain tenantId domain verifiedAt).toOption.getD R
  | .deleteDomain domain tenantId => R.deleteDomain domain tenantId
  | .verifyDomain dns domain tenantId now => ((DomainVerification.verifyDomain settings dns R domain tenantId now).toOption.map (·.2)).getD R

/-- The challenge is passed by who verifies; it counts no more where the row goes, or to another tenant. -/
def step (s : State Json) (op : Op) : State Json :=
  let registry := op.run settings s.registry
  match op with
  | .verifyDomain dns domain tenantId _ =>
    let domain := normalizeDomain domain
    if (assertDns settings dns domain tenantId).isOk then
      { registry, passed := Function.update s.passed (normalizeDomain domain) (tenantId :: s.passed (normalizeDomain domain)) }
    else { registry, passed := s.passed }
  | _ =>
    { registry
      passed := fun domain =>
        if (registry.domains domain).map (·.tenantId) = (s.registry.domains domain).map (·.tenantId) then s.passed domain else [] }

/-- Every verified domain belongs to a tenant that has passed its challenge. -/
def Proved (s : State Json) : Prop :=
  ∀ domain, ∀ row ∈ s.registry.domains domain, row.verifiedAt.isSome → row.tenantId ∈ s.passed domain

/-- A domain that is verified, or is created so, is the caller's; who verifies a domain has it. -/
def Own (s : State Json) : Op → Prop
  | .createDomain tenantId domain verifiedAt => (s.registry.tenants tenantId).isSome →
      let domain := normalizeDomain domain
      (verifiedAt.isSome → (s.registry.domains domain).any (·.tenantId = tenantId) ∧ tenantId ∈ s.passed domain) ∧
      ∀ row ∈ s.registry.domains domain, row.verifiedAt.isSome → row.tenantId = tenantId
  | .deleteDomain .. => True
  | .verifyDomain dns domain tenantId _ =>
      let domain := normalizeDomain domain
      (assertDns settings dns domain tenantId).isOk = true →
      ∀ row ∈ s.registry.domains (normalizeDomain domain), row.tenantId = tenantId ∨ row.tenantId ∈ s.passed (normalizeDomain domain)

/-! ### One call -/

variable {settings} {s : State Json}

/-- Only the row of one domain is written, and the challenges that count of the others stay. -/
theorem proved_iff_of_update {t : State Json} (key : String) {row : Option DomainRow} (proved : Proved s)
    (domains : t.registry.domains = Function.update s.registry.domains key row)
    (passed : ∀ domain ≠ key, t.passed domain = s.passed domain) :
    Proved t ↔ ∀ r ∈ row, r.verifiedAt.isSome → r.tenantId ∈ t.passed key := by
  constructor
  · intro h r mem
    exact h key r (by rwa [domains, Function.update_self])
  · intro own domain r mem
    by_cases same : domain = key
    · subst same
      rw [domains, Function.update_self] at mem
      exact own r mem
    · rw [domains, Function.update_of_ne same] at mem
      rw [passed domain same]
      exact proved domain r mem

variable (settings) in
theorem run_createDomain {R : Registry Json} {tenantId : Nat} {row : TenantRow} (tenant : R.tenants tenantId = some row)
    (domain : String) (verifiedAt : Option Int) : (Op.createDomain tenantId domain verifiedAt).run settings R =
      let key := normalizeDomain domain
      { R with domains := Function.update R.domains key (some (Registry.assignedDomain tenantId verifiedAt (R.domains key))) } := by
  simp only [Op.run, Registry.createDomain, tenant, Option.isNone_some, Bool.false_eq_true, if_false]
  rfl

theorem run_createDomain_refused {R : Registry Json} {tenantId : Nat} (tenant : R.tenants tenantId = none) (domain : String)
    (verifiedAt : Option Int) : (Op.createDomain tenantId domain verifiedAt).run settings R = R := by
  simp only [Op.run, Registry.createDomain, tenant, Option.isNone_none, if_true]
  rfl

theorem createDomain_proved (proved : Proved s) (tenantId : Nat) (domain : String) (verifiedAt : Option Int) :
    Proved (step settings s (.createDomain tenantId domain verifiedAt)) ↔ Own settings s (.createDomain tenantId domain verifiedAt) := by
  cases tenant : s.registry.tenants tenantId with
  | none =>
    have same : step settings s (.createDomain tenantId domain verifiedAt) = s := by
      simp [step, run_createDomain_refused tenant]
    simp [same, Own, tenant, proved]
  | some row =>
    have written := run_createDomain settings tenant domain verifiedAt
    dsimp only at written
    have domains := congrArg (·.domains) written
    dsimp only at domains
    rw [proved_iff_of_update (normalizeDomain domain) proved domains fun other differs => by simp [step, written, differs]]
    simp only [Option.mem_some_iff, forall_eq', step, written, Function.update_self, Option.map_some, Own, tenant,
      Option.isSome_some, true_imp_iff]
    cases there : s.registry.domains (normalizeDomain domain) with
    | none => simp [Registry.assignedDomain]
    | some old =>
      have known := proved (normalizeDomain domain) old there
      by_cases own : old.tenantId = tenantId
      · subst own
        cases verifiedAt <;> simp_all [Registry.assignedDomain]
      · cases verifiedAt <;> simp [Registry.assignedDomain, own, Ne.symm own]

theorem deleteDomain_proved (proved : Proved s) (domain : String) (tenantId : Option Nat) :
    Proved (step settings s (.deleteDomain domain tenantId)) := by
  by_cases found : (s.registry.domains (normalizeDomain domain)).any fun row => tenantId.all (· = row.tenantId)
  · have deleted : s.registry.deleteDomain domain tenantId =
        { s.registry with domains := Function.update s.registry.domains (normalizeDomain domain) none } := if_pos found
    have domains := congrArg (·.domains) deleted
    dsimp only at domains
    refine (proved_iff_of_update (normalizeDomain domain) proved domains fun other differs => ?_).mpr fun _ mem => by cases mem
    simp [step, Op.run, deleted, differs]
  · have kept : s.registry.deleteDomain domain tenantId = s.registry := if_neg found
    have same : step settings s (.deleteDomain domain tenantId) = s := by simp [step, Op.run, kept]
    rwa [same]

theorem verifyDomain_proved (proved : Proved s) (dns : Dns) (domain : String) (tenantId : Nat) (now : Int) :
    Proved (step settings s (.verifyDomain dns domain tenantId now)) ↔ Own settings s (.verifyDomain dns domain tenantId now) := by
  cases checked : assertDns settings dns (normalizeDomain domain) tenantId with
  | error e =>
    have failed : Op.run settings s.registry (.verifyDomain dns domain tenantId now) = s.registry := by
      simp only [Op.run, verifyDomain, checked]
      rfl
    simp [step, failed, Own, checked, Except.isOk, Except.toBool, proved]
  | ok _ =>
    obtain ⟨key, normal⟩ : ∃ key, normalizeDomain (normalizeDomain domain) = key := ⟨_, rfl⟩
    have written : Op.run settings s.registry (.verifyDomain dns domain tenantId now) = { s.registry with
        domains := Function.update s.registry.domains key ((s.registry.domains key).map ({ · with verifiedAt := some now })) } := by
      simp only [Op.run, verifyDomain, checked, ← normal]
      rfl
    have moved : step settings s (.verifyDomain dns domain tenantId now) =
        { registry := Op.run settings s.registry (.verifyDomain dns domain tenantId now)
          passed := Function.update s.passed key (tenantId :: s.passed key) } := by
      simp only [step, checked, normal]
      rfl
    rw [moved, written, proved_iff_of_update key proved rfl fun other differs => Function.update_of_ne differs _ _]
    simp [Own, checked, Except.isOk, Except.toBool, normal]

theorem step_proved_iff (proved : Proved s) (op : Op) : Proved (step settings s op) ↔ Own settings s op := by
  cases op with
  | createDomain tenantId domain verifiedAt => exact createDomain_proved proved tenantId domain verifiedAt
  | deleteDomain domain tenantId => simp only [deleteDomain_proved proved, Own]
  | verifyDomain dns domain tenantId now => exact verifyDomain_proved proved dns domain tenantId now

end

/-! ### Every run -/

section

variable {Json : Type}

/-- Before the first call there is no domain. -/
def start (R : Registry Json) : State Json where
  registry := { R with domains := fun _ => none }

/-- In a run from tables without a domain, every verified domain always belongs to a tenant that has passed its challenge since
the domain became the tenant's, exactly where the calls are those of its tenant. -/
theorem always_proved_iff (settings : Settings) (R : Registry Json) (ops : List Op) :
    (∀ n, Proved (final (step settings) (start R) (ops.take n))) ↔ Always (step settings) (Own settings) (start R) ops :=
  always_iff_kept Proved (fun _ _ mem => nomatch mem) fun _ op _ proved => step_proved_iff proved op

end

/-- The first tenant proves a domain, and the second one has it. -/
theorem not_always_proved :
    let settings : Settings := { tenantBaseDomain := "nyz.hu", hexdigest := fun _ payload => payload }
    let dns : Dns :=
      { txt := fun _ => .ok [{ strings := ["1:shop.hu"] }], addresses := fun _ => some ["192.0.2.1"] }
    let tenants : Nat → Option TenantRow := fun id => some { slug := toString id, name := "", createdAt := 0 }
    let last := final (step settings) (start ({ tenants } : Registry Unit))
      [.createDomain 1 "shop.hu" none, .verifyDomain dns "shop.hu" 1 5, .createDomain 2 "shop.hu" none]
    last.registry.domains "shop.hu" = some { tenantId := 2, verifiedAt := some 5 } ∧ 2 ∉ last.passed "shop.hu" := by
  decide +kernel

end NyzRating.Tenancy.DomainVerification
