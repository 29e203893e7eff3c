import NyzRating.Billing.PaymentEvents
import NyzRating.Tenancy.Slug

/-!
# Signup: slug reservation, confirmation, provisioning

A visitor reserves a slug and confirms an address; the confirmation creates schema, tenant, configuration and
subscription. A failed provisioning takes back what its plan says it created.
-/

namespace NyzRating.Tenancy

open Billing Program Calendar

/-- A row of `demo_signup_sessions`; `session_id` and `tenant_slug` are unique. -/
structure SignupSession where
  sessionId : String
  requestedName : String
  email : String
  tenantSlug : String
  verificationTokenHash : Option String := none
  verificationExpiresAt : Option Int := none
  tenantName : Option String := none
  planCode : Option String := none
  subscriptionPeriod : Option String := none
  completedAt : Option Int := none
  deriving DecidableEq, Repr

/-- The public tables, the schemas, and the names `drop_tenant_schema` was called with. -/
structure Platform where
  payments : PaymentState
  nextTenantId : Nat := 1
  sessions : List SignupSession := []
  schemas : List String := ["public", "information_schema", "pg_catalog"]
  dropCalls : List String := []

/-- The steps of a signup or a confirmation that can fail. -/
inductive SignupStep where
  | schema | tenant | owner | actor | config | domain | activation | validation
  | deleteDomain | deleteConfig | restoreActor | deleteTenant | dropSchema
  | hook | profile | passwordLink | markCompleted
  deriving DecidableEq, Repr

inductive SignupError where
  | valueError (message : String)
  | runtimeError (message : String)
  | nameRequired
  | sessionRequired
  | invalidSlug
  | verificationInvalid
  | verificationExpired
  | interrupted (step : SignupStep)
  deriving DecidableEq, Repr

abbrev PlatformM := EStateM SignupError Platform

namespace Platform

variable (p : Platform)

def account (id : Nat) : Option Account := p.payments.accounts id

/-- The id of the tenant with a slug. -/
def tenantBySlug (slug : String) : Option Nat :=
  (List.range p.nextTenantId).find? fun id => (p.account id).any (·.tenant.slug = slug)

def updateAccount (id : Nat) (f : Account → Account) : Platform :=
  match p.account id with
  | none => p
  | some a => { p with payments := p.payments.storeAccount id (f a) }

/-- A new tenant is inactive. -/
def createTenant (slug name : String) (createdAt : Int) : Platform :=
  let tenant : Tenant := { id := p.nextTenantId, slug, name, createdAt, isActive := false }
  { p with payments := p.payments.storeAccount p.nextTenantId { tenant }, nextTenantId := p.nextTenantId + 1 }

def deleteTenant (id : Nat) : Platform :=
  { p with payments := { p.payments with accounts := Function.update p.payments.accounts id none } }

def createSchema (slug : String) : Platform :=
  if slug ∈ p.schemas then p else { p with schemas := p.schemas ++ [slug] }

/-- A call of `drop_tenant_schema`, whether it succeeds or not. -/
def callDrop (slug : String) : Platform := { p with dropCalls := p.dropCalls ++ [slug] }

def dropSchema (slug : String) : Platform := { p with schemas := p.schemas.filter (· ≠ slug) }

theorem updateAccount_nextTenantId (id : Nat) (f : Account → Account) :
    (p.updateAccount id f).nextTenantId = p.nextTenantId := by
  unfold updateAccount
  split <;> rfl

theorem deleteTenant_account_self (id : Nat) : (p.deleteTenant id).account id = none := Function.update_self ..

theorem deleteTenant_account_of_ne {id k : Nat} (h : k ≠ id) : (p.deleteTenant id).account k = p.account k :=
  Function.update_of_ne h ..

/-! ### Sessions -/

def getReservedSlug (sessionId : String) : Option String :=
  (p.sessions.find? (·.sessionId = sessionId)).map (·.tenantSlug)

/-- `INSERT … ON CONFLICT DO NOTHING`. -/
def reserveSlug (session : SignupSession) : Bool × Platform :=
  if p.sessions.any (fun s => s.sessionId = session.sessionId || s.tenantSlug = session.tenantSlug) then (false, p)
  else (true, { p with sessions := p.sessions ++ [session] })

def deleteSession (sessionId : String) : Platform :=
  { p with sessions := p.sessions.filter (·.sessionId ≠ sessionId) }

def updateSession (sessionId : String) (f : SignupSession → SignupSession) : Platform :=
  { p with sessions := p.sessions.map fun s => if s.sessionId = sessionId then f s else s }

end Platform

/-! ### Reserving a slug -/

/-- The candidates from `suffix` on, `attempts` of them. -/
def reserveFrom (base : String) (session : SignupSession) : (attempts suffix : Nat) → PlatformM String
  | 0, _ => throw (.valueError "slug_generation_failed")
  | attempts + 1, suffix => do
    let candidate := candidateDemoSlug base suffix
    if ((← get).tenantBySlug candidate).isSome then reserveFrom base session attempts (suffix + 1)
    else
      let reserved ← modifyGet (·.reserveSlug { session with tenantSlug := candidate })
      if reserved then return candidate
      match ((← get).getReservedSlug session.sessionId).filter (· ≠ "") with
      | none => reserveFrom base session attempts (suffix + 1)
      | some existing =>
        if slugMatchesDemoBase existing base then return existing
        modify (·.deleteSession session.sessionId)
        reserveFrom base session attempts (suffix + 1)

/-- `DemoSlugReserver.reserve`. -/
def reserve (nfkd : List Char → List Char) (sessionId requestedName email : String) : PlatformM String := do
  let base := demoSlugBase nfkd requestedName
  let session : SignupSession := { sessionId, requestedName, email, tenantSlug := "" }
  match ((← get).getReservedSlug sessionId).filter (· ≠ "") with
  | none => reserveFrom base session 9999 1
  | some existing =>
    if slugMatchesDemoBase existing base then return existing
    modify (·.deleteSession sessionId)
    reserveFrom base session 9999 1

/-- A signup that has passed the checks on address and frequency. `mailSent` tells whether the mail to confirm the
    address is accepted. -/
structure SignupRequest where
  sessionId : String
  companyName : String
  ownerName : String
  kbName : Option String := none
  email : String
  planCode : Option String := none
  subscriptionPeriod : Option String := none
  verificationTokenHash : String
  verificationExpiresAt : Int
  mailSent : Bool := true
  deriving DecidableEq, Repr

def stripText (s : String) : String := String.ofList (Text.strip s.toList)

/-- The first of the texts that is not empty. -/
def firstText (texts : List String) (default : String) : String := (texts.find? (· ≠ "")).getD default

/-- The name a slug is made from. -/
def SignupRequest.slugSource (r : SignupRequest) : String := firstText [stripText r.companyName] (stripText r.ownerName)

def abandonPending (sessionId message : String) : PlatformM Unit := do
  modify (·.deleteSession sessionId)
  throw (.runtimeError message)

/-- `start_pending`: without the mail the reservation is given up. -/
def startPending (slug : String) (r : SignupRequest) : PlatformM Unit := do
  let sessionId := stripText r.sessionId
  let names := [stripText r.companyName, stripText r.ownerName, r.kbName.getD ""]
  if !(← get).sessions.any (fun s => s.sessionId = sessionId ∧ s.completedAt = none) then
    abandonPending sessionId "Pending verification mentése sikertelen"
  modify (·.updateSession sessionId fun s =>
    if s.completedAt.isSome then s
    else
      { s with
        verificationTokenHash := some r.verificationTokenHash
        verificationExpiresAt := some r.verificationExpiresAt
        tenantName := some (firstText [stripText (firstText names slug)] slug)
        planCode := some (firstText [Text.stripLower (orText r.planCode "free")] "free")
        subscriptionPeriod := some (firstText [Text.stripLower (orText r.subscriptionPeriod "monthly")] "monthly") })
  if !r.mailSent then abandonPending sessionId "A megerősítő email küldése sikertelen."

/-- `signup`, from the reservation on. -/
def signup (nfkd : List Char → List Char) (r : SignupRequest) : PlatformM String := do
  if r.slugSource = "" then throw .nameRequired
  if stripText r.sessionId = "" then throw .sessionRequired
  let slug ← reserve nfkd (stripText r.sessionId) r.slugSource (Text.stripLower r.email)
  if !slugIsValid slug then throw .invalidSlug
  startPending slug r
  return slug

/-! ### Provisioning -/

/-- `ProvisioningCompensationPlan`: what a provisioning has created. -/
structure CompensationPlan where
  schemaCreated : Bool := false
  tenantCreated : Bool := false
  configCreated : Bool := false
  deriving DecidableEq, Repr

structure Provisioning where
  platform : Platform
  plan : CompensationPlan := {}

abbrev ProvisionM := EStateM SignupError Provisioning

/-- A confirmation: the hash of its token, the length of the trial, whether the owner is found before and after the
    provisioning, and the steps that fail. -/
structure ConfirmRequest where
  env : Env
  verificationTokenHash : String
  demoTrialDays : Int := 7
  ownerBefore : Bool := true
  ownerAfter : Bool := true
  fault : SignupStep → Option Fault := fun _ => none

namespace ConfirmRequest

variable (r : ConfirmRequest)

def attempt {σ α : Type} (step : SignupStep) (m : EStateM SignupError σ α) : EStateM SignupError σ α :=
  Program.attempt (r.fault step) (.interrupted step) m

/-- `demo_trial_expires_at`. -/
def demoExpiresAt : Int := r.env.now + days (max 1 r.demoTrialDays)

end ConfirmRequest

def onPlatform (f : Platform → Platform) : ProvisionM Unit := modify fun s => { s with platform := f s.platform }

def ensureSchema (r : ConfirmRequest) (slug : String) : ProvisionM Unit := do
  if !isSafeSlug slug then throw (.valueError ("Érvénytelen tenant slug: " ++ slug))
  let present := slug ∈ (← get).platform.schemas
  r.attempt .schema (onPlatform (·.createSchema slug))
  if !present then modify fun s => { s with plan := { s.plan with schemaCreated := true } }

def ensureTenant (r : ConfirmRequest) (slug name : String) : ProvisionM Nat := do
  let s ← get
  match s.platform.tenantBySlug slug with
  | some id => return id
  | none =>
    r.attempt .tenant (onPlatform (·.createTenant slug name r.env.utcnow))
    modify fun s => { s with plan := { s.plan with tenantCreated := true } }
    return s.platform.nextTenantId

/-- The flags of the trial are written for every plan. -/
def demoConfig (r : ConfirmRequest) (package : String) (a : Account) : Account :=
  { a with
    config := some
      { package, featureFlags := { demoMode := true, demoExpiresAt := some r.demoExpiresAt }, limits := none } }

def ensureConfig (r : ConfirmRequest) (package : String) (id : Nat) : ProvisionM Unit := do
  if (((← get).platform.account id).bind (·.config)).isNone then
    modify fun s => { s with plan := { s.plan with configCreated := true } }
  r.attempt .config (onPlatform (·.updateAccount id (demoConfig r package)))

def ensureActivation (r : ConfirmRequest) (id : Nat) : ProvisionM Unit := do
  if !((← get).platform.account id).any (·.tenant.isActive) then
    r.attempt .activation (onPlatform (·.updateAccount id Account.activate))

/-- Takes one write back, if the tenant of the slug is still there. -/
def takeBack (r : ConfirmRequest) (slug : String) (step : SignupStep) (created : Bool)
    (f : Nat → Platform → Platform) : PlatformM Unit := do
  if created then
    match (← get).tenantBySlug slug with
    | none => pure ()
    | some id => r.attempt step (modify (f id))

/-- `_compensate`. -/
def compensate (r : ConfirmRequest) (slug : String) (plan : CompensationPlan) : PlatformM Unit := do
  r.attempt .deleteDomain (pure ())
  takeBack r slug .deleteConfig plan.configCreated fun id p => p.updateAccount id Account.deleteConfig
  r.attempt .restoreActor (pure ())
  takeBack r slug .deleteTenant plan.tenantCreated fun id p => p.deleteTenant id
  if plan.schemaCreated then
    modify (·.callDrop slug)
    r.attempt .dropSchema (modify (·.dropSchema slug))

/-- The steps of `provision` up to its validation. -/
def provisionSteps (r : ConfirmRequest) (slug name package : String) : ProvisionM Unit := do
  ensureSchema r slug
  let id ← ensureTenant r slug name
  r.attempt .owner (pure ())
  r.attempt .actor (pure ())
  ensureConfig r package id
  r.attempt .domain (pure ())
  ensureActivation r id
  r.attempt .validation (pure ())

def provision (r : ConfirmRequest) (slug name package : String) : PlatformM Unit := do
  match (provisionSteps r slug name package).run { platform := ← get } with
  | .ok _ s => set s.platform
  | .error e s =>
    set s.platform
    compensate r slug s.plan
    throw e

/-! ### Confirmation -/

/-- The subscription hook of an activated tenant. -/
def onTenantActivated (r : ConfirmRequest) (slug planCode period : String) : PlatformM Unit := do
  match (← get).tenantBySlug slug with
  | none => pure ()
  | some id => r.attempt .hook (modify (·.updateAccount id (setSignupSubscription r.env planCode period)))

/-- What follows on the provisioning. -/
def completeSignup (r : ConfirmRequest) (pending : SignupSession) (planCode period : String) : PlatformM Unit := do
  if !r.ownerAfter then throw (.runtimeError "demo_owner_missing_after_signup")
  onTenantActivated r pending.tenantSlug planCode period
  r.attempt .profile (pure ())
  r.attempt .passwordLink (pure ())
  r.attempt .markCompleted (modify (·.updateSession pending.sessionId ({ · with completedAt := some r.env.utcnow })))

/-- `confirm_and_provision`. -/
def confirmAndProvision (r : ConfirmRequest) : PlatformM Unit := do
  let p ← get
  match p.sessions.find? (·.verificationTokenHash = some r.verificationTokenHash) with
  | none => throw .verificationInvalid
  | some pending =>
    let slug := pending.tenantSlug
    let tenantName := orText pending.tenantName (orText (some pending.requestedName) slug)
    let planCode := firstText [Text.stripLower (orText pending.planCode "free")] "free"
    let period := firstText [Text.stripLower (orText pending.subscriptionPeriod "monthly")] "monthly"
    -- a confirmation that is repeated only makes a new link
    if pending.completedAt.isSome && (p.tenantBySlug slug).isSome && r.ownerBefore then
      r.attempt .passwordLink (pure ())
      return ()
    if pending.verificationExpiresAt.any (· ≤ r.env.utcnow) && pending.completedAt.isNone then
      modify (·.deleteSession pending.sessionId)
      throw .verificationExpired
    if (p.tenantBySlug slug).isNone then provision r slug tenantName planCode
    completeSignup r pending planCode period

/-! ### What a confirmation keeps -/

theorem ConfirmRequest.attempt_leads {σ α : Type} (r : ConfirmRequest) (step : SignupStep) {m : EStateM SignupError σ α}
    {Q : σ → Prop} (h : Leads Q m Q) : Leads Q (r.attempt step m) Q :=
  (Returns.attempt (.of_leads h) (fun _ h => h) fun _ _ h => h).leads

/-- `I` is kept by every write of a confirmation for a slug. `Own` are the tenants that it may create. -/
structure ConfirmInvariant (r : ConfirmRequest) (slug : String) (Own : Nat → Prop) (I : Platform → Prop) : Prop where
  createSchema : ∀ p, I p → I (p.createSchema slug)
  createTenant : ∀ p name, I p → I (p.createTenant slug name r.env.utcnow)
  own : ∀ p, I p → p.tenantBySlug slug = none → Own p.nextTenantId
  config : ∀ p id package, Own id → I p → I (p.updateAccount id (demoConfig r package))
  activate : ∀ p id, I p → I (p.updateAccount id Account.activate)
  deleteConfig : ∀ p id, I p → I (p.updateAccount id Account.deleteConfig)
  deleteTenant : ∀ p id, I p → I (p.deleteTenant id)
  callDrop : ∀ p, I p → I (p.callDrop slug)
  dropSchema : ∀ p, I p → I (p.dropSchema slug)
  subscription : ∀ p id plan period, I p → I (p.updateAccount id (setSignupSubscription r.env plan period))
  deleteSession : ∀ p id, I p → I (p.deleteSession id)
  completed : ∀ p id, I p → I (p.updateSession id ({ · with completedAt := some r.env.utcnow }))

namespace ConfirmInvariant

variable {r : ConfirmRequest} {slug : String} {Own : Nat → Prop} {I : Platform → Prop}

theorem schemaStep (hI : ConfirmInvariant r slug Own I) :
    Leads (fun s => I s.platform ∧ s.platform.tenantBySlug slug = none) (ensureSchema r slug)
      (fun s => I s.platform ∧ s.platform.tenantBySlug slug = none) := by
  have same : ∀ p : Platform, (p.createSchema slug).tenantBySlug slug = p.tenantBySlug slug := by
    intro p
    unfold Platform.createSchema
    split <;> rfl
  unfold ensureSchema
  refine Leads.ite (fun _ => Leads.throw_bind (fun _ h => h) _ _) fun _ => ?_
  refine Leads.bind (Leads.get fun _ h => h) (fun s => ?_) fun _ h => h
  refine Leads.bind (r.attempt_leads _ (Leads.modify fun s h => ?_)) (fun _ => ?_) fun _ h => h
  · exact ⟨hI.createSchema _ h.1, (same s.platform).trans h.2⟩
  · exact Leads.ite (fun _ => Leads.modify fun _ h => h) fun _ => Leads.pure (fun _ h => h) _

/-- Without a tenant of the slug, the tenant of a provisioning is new. -/
theorem tenantStep (hI : ConfirmInvariant r slug Own I) (name : String) :
    Returns (fun s => I s.platform ∧ s.platform.tenantBySlug slug = none) (ensureTenant r slug name)
      (fun id s => Own id ∧ I s.platform) (fun s => I s.platform) := by
  unfold ensureTenant
  have read : Returns (fun s => I s.platform ∧ s.platform.tenantBySlug slug = none) (get : ProvisionM Provisioning)
      (fun s t => (s.platform.tenantBySlug slug = none ∧ Own s.platform.nextTenantId) ∧ I t.platform)
      (fun s => I s.platform) := Returns.get fun s h => ⟨⟨h.2, hI.own _ h.1 h.2⟩, h.1⟩
  refine Returns.bind read fun s => Returns.given fun ⟨new, own⟩ => ?_
  rw [new]
  refine Returns.bind (.of_leads (r.attempt_leads _ (Leads.modify fun t h => hI.createTenant _ name h))) fun _ => ?_
  exact Returns.bind (Returns.modify fun _ h => h) fun _ => Returns.pure fun _ h => ⟨own, h⟩

theorem configStep (hI : ConfirmInvariant r slug Own I) (package : String) {id : Nat} (own : Own id) :
    Leads (fun s => I s.platform) (ensureConfig r package id) (fun s => I s.platform) := by
  have written : Leads (fun s : Provisioning => I s.platform)
      (r.attempt .config (onPlatform (·.updateAccount id (demoConfig r package)))) (fun s => I s.platform) :=
    r.attempt_leads _ (Leads.modify fun s h => hI.config _ id package own h)
  unfold ensureConfig
  refine Leads.bind (Leads.get fun _ h => h) (fun s => ?_) fun _ h => h
  refine Leads.ite (fun _ => ?_) fun _ => written
  exact Leads.bind (Leads.modify fun _ h => h) (fun _ => written) fun _ h => h

theorem activationStep (hI : ConfirmInvariant r slug Own I) (id : Nat) :
    Leads (fun s => I s.platform) (ensureActivation r id) (fun s => I s.platform) := by
  unfold ensureActivation
  refine Leads.bind (Leads.get fun _ h => h) (fun s => ?_) fun _ h => h
  refine Leads.ite (fun _ => ?_) fun _ => Leads.pure (fun _ h => h) _
  exact r.attempt_leads _ (Leads.modify fun s h => hI.activate _ id h)

theorem provisionSteps (hI : ConfirmInvariant r slug Own I) (name package : String) :
    Leads (fun s => I s.platform ∧ s.platform.tenantBySlug slug = none) (Tenancy.provisionSteps r slug name package)
      (fun s => I s.platform) := by
  have pass : ∀ step, Leads (fun s : Provisioning => I s.platform) (r.attempt step (pure ())) (fun s => I s.platform) :=
    fun step => r.attempt_leads step (Leads.pure (fun _ h => h) _)
  unfold Tenancy.provisionSteps
  refine Leads.bind hI.schemaStep (fun _ => ?_) fun _ h => h.1
  refine (Returns.bind (hI.tenantStep name) fun id => Returns.given fun own => .of_leads ?_).leads
  refine Leads.bind (pass _) (fun _ => ?_) fun _ h => h
  refine Leads.bind (pass _) (fun _ => ?_) fun _ h => h
  refine Leads.bind (hI.configStep package own) (fun _ => ?_) fun _ h => h
  refine Leads.bind (pass _) (fun _ => ?_) fun _ h => h
  exact Leads.bind (hI.activationStep id) (fun _ => pass _) fun _ h => h

theorem takeBack {step : SignupStep} {created : Bool} {f : Nat → Platform → Platform} (hf : ∀ p id, I p → I (f id p)) :
    Leads I (Tenancy.takeBack r slug step created f) I := by
  unfold Tenancy.takeBack
  refine Leads.ite (fun _ => ?_) fun _ => Leads.pure (fun _ h => h) _
  refine Leads.bind (Leads.get fun _ h => h) (fun p => ?_) fun _ h => h
  split
  · exact Leads.pure (fun _ h => h) _
  · exact r.attempt_leads _ (Leads.modify fun p h => hf p _ h)

theorem compensate (hI : ConfirmInvariant r slug Own I) (plan : CompensationPlan) :
    Leads I (Tenancy.compensate r slug plan) I := by
  have pass : ∀ step, Leads I (r.attempt step (pure ())) I := fun step => r.attempt_leads step (Leads.pure (fun _ h => h) _)
  unfold Tenancy.compensate
  refine Leads.bind (pass _) (fun _ => ?_) fun _ h => h
  refine Leads.bind (takeBack hI.deleteConfig) (fun _ => ?_) fun _ h => h
  refine Leads.bind (pass _) (fun _ => ?_) fun _ h => h
  refine Leads.bind (takeBack hI.deleteTenant) (fun _ => ?_) fun _ h => h
  refine Leads.ite (fun _ => ?_) fun _ => Leads.pure (fun _ h => h) _
  refine Leads.bind (Leads.modify fun p h => hI.callDrop p h) (fun _ => ?_) fun _ h => h
  exact r.attempt_leads _ (Leads.modify fun p h => hI.dropSchema p h)

theorem provision (hI : ConfirmInvariant r slug Own I) (name package : String) :
    Leads (fun p => I p ∧ p.tenantBySlug slug = none) (Tenancy.provision r slug name package) I := by
  intro p hp
  have steps := hI.provisionSteps name package { platform := p } hp
  unfold Tenancy.provision
  rw [after_bind_of_ok (EStateM.run_get p)]
  split
  · next hrun =>
    rw [after_of_ok hrun] at steps
    exact steps
  · next e s hrun =>
    rw [after_of_error hrun] at steps
    exact Leads.bind (Leads.set (P := fun _ => True) steps)
      (fun _ => Leads.bind (hI.compensate s.plan) (fun _ => Leads.throw (fun _ h => h) _) fun _ h => h) (fun _ h => h) p trivial

theorem completeSignup {pending : SignupSession} (hI : ConfirmInvariant r pending.tenantSlug Own I)
    (planCode period : String) : Leads I (Tenancy.completeSignup r pending planCode period) I := by
  have pass : ∀ step, Leads I (r.attempt step (pure ())) I := fun step => r.attempt_leads step (Leads.pure (fun _ h => h) _)
  have hook : Leads I (onTenantActivated r pending.tenantSlug planCode period) I := by
    refine Leads.bind (Leads.get fun _ h => h) (fun p => ?_) fun _ h => h
    split
    · exact Leads.pure (fun _ h => h) _
    · exact r.attempt_leads _ (Leads.modify fun p h => hI.subscription p _ _ _ h)
  unfold Tenancy.completeSignup
  refine Leads.ite (fun _ => Leads.throw_bind (fun _ h => h) _ _) fun _ => ?_
  refine Leads.bind hook (fun _ => ?_) fun _ h => h
  refine Leads.bind (pass _) (fun _ => ?_) fun _ h => h
  refine Leads.bind (pass _) (fun _ => ?_) fun _ h => h
  exact r.attempt_leads _ (Leads.modify fun p h => hI.completed p _ h)

end ConfirmInvariant

/-- A confirmation keeps what its writes keep, whichever of its steps fail. -/
theorem confirmAndProvision_keeps {r : ConfirmRequest} {Own : Nat → Prop} {I : Platform → Prop} {p : Platform}
    (hI : ∀ pending ∈ p.sessions, ConfirmInvariant r pending.tenantSlug Own I) (h : I p) :
    I (after (confirmAndProvision r) p) := by
  unfold confirmAndProvision
  rw [after_bind_of_ok (EStateM.run_get p)]
  cases hs : p.sessions.find? (·.verificationTokenHash = some r.verificationTokenHash) with
  | none => exact h
  | some pending =>
    have kept := hI pending (List.mem_of_find?_eq_some hs)
    -- the confirmation is still where it started until the tenant of the slug is there
    let Start : Platform → Prop := fun q => q = p
    have start : ∀ q, Start q → I q := fun q hq => hq ▸ h
    have link : Leads Start (r.attempt .passwordLink (pure ())) Start :=
      r.attempt_leads _ (Leads.pure (fun _ h => h) _)
    refine Leads.ite (P := Start) (fun _ => Leads.bind link (fun _ => Leads.pure start _) start) (fun _ => ?_) p rfl
    refine Leads.ite (fun _ => ?_) fun _ => ?_
    · have dropped : Leads Start (modify (·.deleteSession pending.sessionId) : PlatformM PUnit) I :=
        Leads.modify fun q hq => kept.deleteSession q _ (start q hq)
      exact Leads.bind dropped (fun _ => Leads.throw_bind (fun _ h => h) _ _) fun _ h => h
    refine Leads.ite (fun new => ?_) fun _ q hq => kept.completeSignup _ _ q (start q hq)
    refine Leads.bind (fun q hq => ?_) (fun _ => kept.completeSignup _ _) fun _ h => h
    exact kept.provision _ _ q ⟨start q hq, hq ▸ Option.isNone_iff_eq_none.mp new⟩

end NyzRating.Tenancy
