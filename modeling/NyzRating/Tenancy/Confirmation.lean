import NyzRating.Billing.Catalog
import NyzRating.Tenancy.Provisioner
import NyzRating.Tenancy.SignupSessions

/-!
# Confirming a signup

`confirm_and_provision`: the token of the mail leads to the provisioning of its tenant, or to the tenant that is there
already, then to the signup hooks, the company profile, and a link with which the owner sets a password. Each call on a
table, a schema or a service may raise.

Source: `tenant/signup/new_demo_signup.py`, `tenant/extensions/tenant_hooks.py`, `billing/bootstrap/tenant_hooks.py`.
-/

namespace NyzRating.Tenancy.Confirmation

open Billing Calendar Program Provisioner

/-! ### Rows -/

/-- The objects of the JSONB columns of a configuration. -/
inductive ConfigJson where
  | empty
  | featureFlags (flags : FeatureFlags)
  | limits (limits : Limits)
  deriving DecidableEq, Repr

instance : EmptyCollection ConfigJson := ⟨.empty⟩

def ConfigJson.flags : ConfigJson → FeatureFlags
  | .featureFlags flags => flags
  | _ => {}

/-- A row of `demo_signup_sessions` with the columns that the confirmation reads. -/
structure PendingSession extends SignupSession where
  ownerName : Option String := none
  preferredLocale : Option String := none
  googleReviewUrl : Option String := none
  verifiedAt : Option Int := none
  deriving DecidableEq, Repr

namespace PendingSession

variable (r : PendingSession)

def owner : String := firstText [r.ownerName.getD "", r.requestedName] r.tenantSlug

def company : String := firstText [r.tenantName.getD "", r.requestedName] r.tenantSlug

def locale : String := Business.shortLocale (orText r.preferredLocale "hu")

end PendingSession

/-- What a signup is about, whatever becomes of it. -/
structure SignupTerms where
  sessionId : String
  slug : String
  email : String
  planCode : String
  subscriptionPeriod : String
  deriving DecidableEq, Repr

def PendingSession.terms (r : PendingSession) : SignupTerms where
  sessionId := r.sessionId
  slug := r.tenantSlug
  email := Text.stripLower r.email
  planCode := firstText [Text.stripLower (orText r.planCode "free")] "free"
  subscriptionPeriod := firstText [Text.stripLower (orText r.subscriptionPeriod "monthly")] "monthly"

/-- The entry `TENANT_PROVISIONED` of the audit log. -/
structure TenantProvisioned where
  userId : Nat
  tenantSlug : String
  tenantName : String
  planCode : String
  subscriptionPeriod : String
  deriving DecidableEq, Repr

/-- The tables that a confirmation reads and writes. `settings` are those of a tenant, by key. -/
structure SignupWorld where
  world : Installation ConfigJson := {}
  sessions : List PendingSession := []
  subscriptions : Nat → Option Subscription := fun _ => none
  invoices : Nat → List Invoice := fun _ => []
  settings : String → String → Option String := fun _ _ => none
  auditLog : List TenantProvisioned := []

namespace SignupWorld

variable (s : SignupWorld)

def getPendingByVerificationTokenHash (tokenHash : String) : Option PendingSession :=
  s.sessions.find? (·.verificationTokenHash = some tokenHash)

def deleteSession (sessionId : String) : SignupWorld :=
  { s with sessions := s.sessions.filter (·.sessionId ≠ sessionId) }

def updateSession (sessionId : String) (f : PendingSession → PendingSession) : SignupWorld :=
  { s with sessions := s.sessions.map fun r => if r.sessionId = sessionId then f r else r }

def markSessionVerified (sessionId : String) (now : Int) : SignupWorld :=
  s.updateSession sessionId fun r => { r with verifiedAt := some now }

def markSessionCompleted (sessionId : String) (now : Int) : SignupWorld :=
  s.updateSession sessionId fun r => { r with completedAt := some now, verifiedAt := r.verifiedAt.or (some now) }

/-- The rows of a tenant as billing reads them. -/
def account (id : Nat) (row : TenantRow) : Account where
  tenant := { id, slug := row.slug, name := row.name, createdAt := row.createdAt, isActive := row.isActive }
  config := (s.world.registry.configs id).map fun config =>
    { package := config.package, featureFlags := config.featureFlags.flags
      limits := match config.limits with
        | .limits limits => some limits
        | _ => none }
  subscription := s.subscriptions id
  invoices := s.invoices id

end SignupWorld

/-! ### Configuration and faults -/

/-- The hooks that modules register with `register_tenant_signup_hook`. -/
inductive SignupHook where
  | billing
  deriving DecidableEq, Repr

/-- What the service is configured with. `billing` has the catalogue of plans. -/
structure SignupConfig where
  sha256 : String → String
  billing : Env
  signupHooks : List SignupHook := [.billing]
  tenantBaseDomain : String
  cookieSecure : Bool := true
  frontendSetPasswordPort : Option Nat := none
  frontendSetPasswordPath : String := "/set-password"
  inviteTtlHours : Int := 4
  demoTrialDays : Int := 7

/-- The calls of a confirmation outside the provisioning. -/
inductive ConfirmStep where
  | session | completedTenant | completedOwner | completedLocale | deleteSession
  | tenantBefore | tenant | owner | locale
  | subscription | snapshot | invoices | billingConfig
  | settings | companyName | reviewUrl | settingsAudit
  | invalidateLinks | createLink | markVerified | markCompleted | audit | lastTenant
  deriving DecidableEq, Repr

/-- One call of `confirm_and_provision`: the clocks, the values that are drawn, and what raises. -/
structure ConfirmCall where
  now : Int
  clockNow : Int
  env : ProvisionEnv
  rawToken : String
  fault : ConfirmStep → Option Fault := fun _ => none
  provision : Faults := {}
  undo : Undo → Option Fault := fun _ => none

inductive ConfirmError where
  | verificationInvalid
  | verificationExpired
  | runtimeError (message : String)
  | integrityError
  | provision (e : ProvisionError)
  | interrupted (step : ConfirmStep)
  deriving DecidableEq, Repr

structure DemoConfirmSignupResult where
  slug : String
  hostHint : String
  setPasswordUrl : String
  email : String
  deriving DecidableEq, Repr

abbrev SignupM := EStateM ConfirmError SignupWorld

namespace ConfirmCall

variable (c : ConfirmCall)

/-- A read. -/
def query (step : ConfirmStep) : SignupM Unit := if (c.fault step).isSome then throw (.interrupted step) else pure ()

/-- A write that commits. -/
def write {α : Type} (step : ConfirmStep) (m : SignupM α) : SignupM α := attempt (c.fault step) (.interrupted step) m

end ConfirmCall

/-- A call of the provisioning service, or on the schema of a tenant. -/
def onInstallation {α : Type} (m : Provisioner.ProvisionM ConfigJson α) : SignupM α := fun s =>
  match m.run { world := s.world } with
  | .ok a t => .ok a { s with world := t.world }
  | .error e t => .error (.provision e) { s with world := t.world }

/-- A call of a repository of users, in the schema of the tenant. -/
def onUsers (slug : String) (change : Users.Tables → Except Users.UserError Users.Tables) : SignupM Unit :=
  onInstallation do
    match change (← usersOf slug) with
    | .error e => throw (.user e)
    | .ok users => setSchema slug (((← get).world.schemas slug).map ({ · with users }))

/-! ### Links -/

def hours (n : Int) : Int := n * 3600000000

/-- `invite_ttl_hours` -/
def SignupConfig.linkExpiresAt (cfg : SignupConfig) (now : Int) : Int := now + hours (max 1 (min 24 cfg.inviteTtlHours))

/-- `demo_host_hint` -/
def SignupConfig.demoHostHint (cfg : SignupConfig) (slug : String) : String := slug ++ "." ++ cfg.tenantBaseDomain

/-- `tenant_frontend_base_url_by_slug` -/
def SignupConfig.frontendBaseUrl (cfg : SignupConfig) (slug : String) : String :=
  let base := (if cfg.cookieSecure then "https" else "http") ++ "://" ++ cfg.demoHostHint (Text.stripLower slug)
  match cfg.frontendSetPasswordPort with
  | none => base
  | some port => if port = 80 ∨ port = 443 then base else base ++ ":" ++ toString port

def SignupConfig.setPasswordPath (cfg : SignupConfig) : String :=
  let path := Users.stripped (orText (some cfg.frontendSetPasswordPath) "/set-password")
  if path ≠ "" ∧ path.toList.head? ≠ some '/' then "/" ++ path else path

def SignupConfig.buildSetPasswordLink (cfg : SignupConfig) (requestBaseUrl token : String) : String :=
  let base := String.ofList (Business.rstripSlash (Text.strip requestBaseUrl.toList))
  if base = "" then "" else base ++ cfg.setPasswordPath ++ "?token=" ++ token

/-! ### Hooks -/

structure TenantSignupContext where
  tenantSlug : String
  tenantId : Option Nat
  planCode : String
  subscriptionPeriod : String
  deriving DecidableEq, Repr

def SignupTerms.context (terms : SignupTerms) (tenantId : Option Nat) : TenantSignupContext where
  tenantSlug := terms.slug
  tenantId
  planCode := terms.planCode
  subscriptionPeriod := terms.subscriptionPeriod

/-- The environment of billing in a call. -/
def SignupConfig.billingAt (cfg : SignupConfig) (c : ConfirmCall) : Env := { cfg.billing with now := c.clockNow, utcnow := c.now }

/-- What `set_signup_subscription` stores. -/
def signupData (env : Env) (planCode billingPeriod : String) : SubscriptionData :=
  let plan := env.plans.getOrFree planCode
  { planCode := plan.code
    billingPeriod := normalizeBillingPeriod billingPeriod
    status := if plan.code = "free" then .trial else .active
    trialStartedAt := if plan.trialDays ≠ 0 then some env.now else none
    trialEndsAt := if plan.trialDays ≠ 0 then some (env.now + days plan.trialDays) else none
    carryoverTrainingChars := plan.includedTrainingChars }

/-- `set_signup_subscription`, write by write. -/
def setSignupSubscription (cfg : SignupConfig) (c : ConfirmCall) (tenantId : Nat) (slug planCode period : String) :
    SignupM Unit := do
  let env := cfg.billingAt c
  match (← get).world.registry.tenants tenantId with
  | none => throw .integrityError
  | some row =>
    let sub := (((← get).account tenantId row).upsertSubscription env.utcnow (signupData env planCode period)).1
    c.write .subscription (modify fun s => { s with subscriptions := Function.update s.subscriptions tenantId (some sub) })
    c.query .snapshot
    match (← get).world.registry.getSnapshotBySlug slug with
    | none => pure ()
    | some snapshot =>
      c.query .invoices
      let limits := buildLimits env sub ((← get).account snapshot.tenantId row)
      let flags := ((← get).world.registry.configs snapshot.tenantId).elim {} (·.featureFlags.flags)
      c.write .billingConfig <| onInstallation <| onRegistry (·.createConfig snapshot.tenantId
        { package := sub.planCode, featureFlags := .featureFlags { flags with billingEnabled := true }
          limits := .limits limits })

def SignupHook.handle (cfg : SignupConfig) (c : ConfirmCall) (context : TenantSignupContext) : SignupHook → SignupM Unit
  | .billing =>
    match context.tenantId with
    | none => pure ()
    | some id => setSignupSubscription cfg c id context.tenantSlug context.planCode context.subscriptionPeriod

def runHooks (cfg : SignupConfig) (c : ConfirmCall) (context : TenantSignupContext) : List SignupHook → SignupM Unit
  | [] => pure ()
  | hook :: hooks => do
    hook.handle cfg c context
    runHooks cfg c context hooks

/-! ### The steps of a confirmation -/

/-- `_load_tenant_owner`; the locale of the signup becomes the owner's. -/
def loadTenantOwner (c : ConfirmCall) (read write : ConfirmStep) (slug email locale : String) : SignupM (Option Users.User) := do
  c.query read
  match (← onInstallation (usersOf slug)).getByEmail email with
  | none => return none
  | some owner =>
    if owner.preferredLocale ≠ some locale then
      c.write write (onUsers slug (·.update { owner with preferredLocale := some locale }))
    return (← onInstallation (usersOf slug)).getById owner.id

/-- `_send_demo_set_password_email` without a mail: the links of the owner are taken back, and a new one is made. -/
def sendDemoSetPasswordEmail (cfg : SignupConfig) (c : ConfirmCall) (slug : String) (userId : Nat) : SignupM String := do
  c.write .invalidateLinks (onUsers slug fun t => return t.invalidateInviteTokens userId c.now)
  c.write .createLink (onUsers slug (·.createInviteToken userId (cfg.sha256 c.rawToken) (cfg.linkExpiresAt c.now)))
  return cfg.buildSetPasswordLink (cfg.frontendBaseUrl slug) c.rawToken

def setTextSetting (slug key value : String) : SignupM Unit :=
  let value := String.ofList ((Text.strip value.toList).take 500)
  modify fun s => { s with settings := Function.update s.settings slug (Function.update (s.settings slug) key (some value)) }

/-- `_persist_signup_company_profile` -/
def persistSignupCompanyProfile (c : ConfirmCall) (slug tenantName googleReviewUrl : String) : SignupM Unit := do
  let reviewUrl := Business.normalizeGoogleReviewUrl googleReviewUrl
  let company := Users.stripped tenantName
  if reviewUrl ≠ "" ∨ company ≠ "" then
    c.query .settings
    if company ≠ "" then c.write .companyName (setTextSetting slug "billing_company_name" company)
    if reviewUrl ≠ "" then c.write .reviewUrl (setTextSetting slug "google_review_url" reviewUrl)
    c.query .settingsAudit

namespace PendingSession

variable (cfg : SignupConfig) (c : ConfirmCall) (r : PendingSession)

def provisioningRequest : TenantProvisioningRequest ConfigJson where
  slug := r.terms.slug
  tenantName := r.company
  ownerEmail := r.terms.email
  ownerName := some r.owner |>.filter (· ≠ "")
  primaryDomain := cfg.demoHostHint r.terms.slug
  package := r.terms.planCode
  featureFlags := some (.featureFlags { demoMode := true, demoExpiresAt := some (c.clockNow + days (max 1 cfg.demoTrialDays)) })
  limits := some .empty
  ownerActivateImmediately := true

def result (setPasswordUrl : String) : DemoConfirmSignupResult where
  slug := r.terms.slug
  hostHint := cfg.demoHostHint r.terms.slug
  setPasswordUrl
  email := r.terms.email

end PendingSession

/-- A token that has done its work makes a new link, if tenant and owner are found; whatever raises on the way to the owner
is ignored. -/
def reconnect (cfg : SignupConfig) (c : ConfirmCall) (pending : PendingSession) : SignupM (Option DemoConfirmSignupResult) := do
  let slug := pending.terms.slug
  if pending.completedAt.isNone then return none
  c.query .completedTenant
  if ((← get).world.registry.getBySlug slug).isNone then return none
  let owner ← tryCatch (loadTenantOwner c .completedOwner .completedLocale slug pending.terms.email pending.locale) fun _ =>
    return none
  match owner with
  | none => return none
  | some owner => return some (pending.result cfg (← sendDemoSetPasswordEmail cfg c slug owner.id))

/-- The provisioning, where there is no tenant of the slug. -/
def ensureProvisioned (cfg : SignupConfig) (c : ConfirmCall) (pending : PendingSession) : SignupM Unit := do
  c.query .tenantBefore
  if ((← get).world.registry.getBySlug pending.terms.slug).isNone then
    let _ ← onInstallation (Provisioner.provision c.env c.provision c.undo (pending.provisioningRequest cfg c))

/-- The whole way, from the provisioning on. -/
def complete (cfg : SignupConfig) (c : ConfirmCall) (pending : PendingSession) : SignupM DemoConfirmSignupResult := do
  let terms := pending.terms
  ensureProvisioned cfg c pending
  c.query .tenant
  let tenantId := (← get).world.registry.getBySlug terms.slug
  match ← loadTenantOwner c .owner .locale terms.slug terms.email pending.locale with
  | none => throw (.runtimeError "demo_owner_missing_after_signup")
  | some owner =>
    runHooks cfg c (terms.context tenantId) cfg.signupHooks
    persistSignupCompanyProfile c terms.slug pending.company (pending.googleReviewUrl.getD "")
    let setPasswordUrl ← sendDemoSetPasswordEmail cfg c terms.slug owner.id
    c.write .markVerified (modify (·.markSessionVerified terms.sessionId c.now))
    c.write .markCompleted (modify (·.markSessionCompleted terms.sessionId c.now))
    c.write .audit (modify fun s => { s with auditLog := s.auditLog ++
      [{ userId := owner.id, tenantSlug := terms.slug, tenantName := pending.company, planCode := terms.planCode
         subscriptionPeriod := terms.subscriptionPeriod }] })
    return pending.result cfg setPasswordUrl

/-- `confirm_and_provision` -/
def confirmAndProvision (cfg : SignupConfig) (token : String) (c : ConfirmCall) : SignupM DemoConfirmSignupResult := do
  let raw := Users.stripped token
  if raw = "" then throw .verificationInvalid
  c.query .session
  match (← get).getPendingByVerificationTokenHash (cfg.sha256 raw) with
  | none => throw .verificationInvalid
  | some pending =>
    match ← reconnect cfg c pending with
    | some result => return result
    | none =>
      if pending.verificationExpiresAt.any (· ≤ c.now) ∧ pending.completedAt = none then
        c.write .deleteSession (modify (·.deleteSession pending.sessionId))
        throw .verificationExpired
      tryCatch (complete cfg c pending) fun e => do
        -- nothing depends on whether the tenant is there
        c.query .lastTenant
        throw e

/-- The calls with one token. -/
def step (cfg : SignupConfig) (token : String) (s : SignupWorld) (c : ConfirmCall) : SignupWorld :=
  after (confirmAndProvision cfg token c) s

/-- Billing stores what its own account of the signup says. -/
theorem setSignupSubscription_eq (env : Env) (planCode billingPeriod : String) (a : Account) :
    Billing.setSignupSubscription env planCode billingPeriod a =
      syncTenantConfig env (a.upsertSubscription env.utcnow (signupData env planCode billingPeriod)).1
        (a.upsertSubscription env.utcnow (signupData env planCode billingPeriod)).2 := rfl

end NyzRating.Tenancy.Confirmation
