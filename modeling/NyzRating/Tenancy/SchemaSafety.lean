import NyzRating.Billing.Cancellation
import NyzRating.Lib.Run
import NyzRating.Settings.TenantReset
import NyzRating.Tenancy.Signup

/-!
# Schemas that must not be dropped

A tenant's slug is the name of its schema. It comes from the name that a visitor enters, and months later it is dropped
by a reset, by the lifecycle of a cancellation, by an administrator or by a provisioning that takes itself back.
-/

namespace NyzRating.Tenancy.SchemaSafety

open Billing Program Runs Settings Calendar

/-! ### Runs -/

/-- The calls that make tenants or drop schemas. A reset reads the users of the tenant's schema from `schema`. -/
inductive Op where
  | signup (r : SignupRequest)
  | confirm (r : ConfirmRequest)
  | reset (tenantId : Nat) (r : ResetRequest) (rows : OtherTable → List Nat) (schema : Option TenantSchema)
  | cancel (env : Env) (tenantId : Nat) (reasonCode reasonText : String) (requestedByUserId : Option Nat)
  | lifecycle (env : Env)
  | permanentlyDelete (tenantId : Nat) (dropped : Bool)

/-- The reset of a tenant by its slug. -/
def resetOn (p : Platform) (id : Nat) (r : ResetRequest) (rows : OtherTable → List Nat) (schema : Option TenantSchema) :
    Platform :=
  match p.account id with
  | none => p
  | some a =>
    let r := { r with tenantSlug := a.tenant.slug }
    let t := after (resetTenant r) { account := a, rows, schema }
    { p with
      payments := p.payments.storeAccount id t.account
      schemas := if t.schema.isNone then p.schemas.filter (· ≠ r.normalizedSlug) else p.schemas
      dropCalls := p.dropCalls ++ t.dropCalls }

/-- What a call of the lifecycle does to the schemas. -/
def lifecycleCall (env : Env) (p : Platform) : LifecycleCall → Platform
  | .dropTenantSchema slug _ => if env.dropSchema slug then (p.callDrop slug).dropSchema slug else p.callDrop slug
  | _ => p

/-- The lifecycle of the requests of one tenant. -/
def lifecycleOn (env : Env) (p : Platform) (id : Nat) : Platform :=
  match p.account id with
  | none => p
  | some a =>
    let s := processCancellationLifecycle env a
    let p :=
      match s.account with
      | none => p.deleteTenant id
      | some b => { p with payments := p.payments.storeAccount id b }
    s.log.calls.foldl (lifecycleCall env) p

/-- `permanently_delete_cancelled_tenant`. -/
def permanentlyDelete (p : Platform) (id : Nat) (dropped : Bool) : Platform :=
  match p.account id with
  | none => p
  | some a =>
    if a.tenant.isActive then p
    else if dropped then ((p.callDrop a.tenant.slug).dropSchema a.tenant.slug).deleteTenant id
    else p.callDrop a.tenant.slug

def step (nfkd : List Char → List Char) (p : Platform) : Op → Platform
  | .signup r => after (signup nfkd r) p
  | .confirm r => after (confirmAndProvision r) p
  | .reset id r rows schema => resetOn p id r rows schema
  | .cancel env id code text user => p.updateAccount id fun a => after (cancelSubscription env a.snapshot code text user) a
  | .lifecycle env => (List.range p.nextTenantId).foldl (lifecycleOn env) p
  | .permanentlyDelete id dropped => permanentlyDelete p id dropped

/-- The platform before its first visitor. -/
def installed : Platform where
  payments := { accounts := fun _ => none }

/-- No schema of the platform itself has been named in a call of `drop_tenant_schema`. -/
def PlatformKept (p : Platform) : Prop := ∀ name ∈ p.dropCalls, isPlatformSchema name = false

instance : DecidablePred PlatformKept := fun p =>
  inferInstanceAs (Decidable (∀ name ∈ p.dropCalls, isPlatformSchema name = false))

/-- The name of a signup does not come down to `public`. -/
def NamedApart (nfkd : List Char → List Char) (_ : Platform) : Op → Prop
  | .signup r => demoSlugBase nfkd r.slugSource ≠ "public"
  | _ => True

/-! ### Names -/

/-- A name that a slug can have, and that is not the platform's. -/
structure SafeName (name : String) : Prop where
  text : SlugText name
  apart : name ≠ "public"

theorem SafeName.not_platform {name : String} (h : SafeName name) : isPlatformSchema name = false :=
  Bool.eq_false_iff.mpr fun hp => h.apart ((isPlatformSchema_iff h.text).mp hp)

theorem SafeName.candidate {nfkd : List Char → List Char} {name : String} (h : demoSlugBase nfkd name ≠ "public")
    (suffix : Nat) : SafeName (candidateDemoSlug (demoSlugBase nfkd name) suffix) where
  text := candidateDemoSlug_slugText (demoSlugBase_slugText nfkd name) suffix
  apart hc := h (base_of_candidateDemoSlug_eq_public (demoSlugBase_length nfkd name) hc)

/-- The slug of the tenant and those in its requests are safe. -/
structure SafeAccount (a : Account) : Prop where
  tenant : SafeName a.tenant.slug
  requests : ∀ r ∈ a.cancellations, SafeName r.tenantSlug

theorem rowInvariant_safe : RowInvariant SafeAccount :=
  ⟨fun _ _ _ h => ⟨h.tenant, h.requests⟩, fun _ _ h => ⟨h.tenant, h.requests⟩, fun _ _ _ h => ⟨h.tenant, h.requests⟩⟩

/-- A stamp on a request leaves its slug. -/
theorem SafeAccount.stamped {a : Account} (h : SafeAccount a) (id : Nat) (guard : CancellationRequest → Bool)
    {set : CancellationRequest → CancellationRequest} (hs : ∀ r, (set r).tenantSlug = r.tenantSlug) :
    SafeAccount (Account.updateRequest id guard set a).2 := by
  refine ⟨h.tenant, fun r' hr' => ?_⟩
  obtain ⟨r, hr, rfl⟩ := List.mem_map.mp hr'
  split
  · exact hs r ▸ h.requests r hr
  · exact h.requests r hr

theorem lifecycleInvariant_safe : LifecycleInvariant SafeAccount where
  twoDays _ _ _ h := h.stamped _ _ fun _ => rfl
  oneDay _ _ _ h := h.stamped _ _ fun _ => rfl
  expired _ _ _ h := h.stamped _ _ fun _ => rfl
  withdrawn a _ _ h :=
    have off : SafeAccount a.deactivate := ⟨h.tenant, h.requests⟩
    off.stamped _ _ fun _ => rfl

theorem SafeAccount.cancel (env : Env) (code text : String) (user : Option Nat) {a : Account} (h : SafeAccount a) :
    SafeAccount (after (cancelSubscription env a.snapshot code text user) a) := by
  have named : SafeName a.snapshot.slug := h.tenant
  have kept : Leads SafeAccount (cancelSubscription env a.snapshot code text user) SafeAccount := by
    unfold cancelSubscription
    refine Leads.bind (Leads.modifyGet fun b hb => rowInvariant_safe.ensure env _ hb) (fun sub => ?_) fun _ h => h
    refine Leads.bind (Leads.get fun _ h => h) (fun b => ?_) fun _ h => h
    refine Leads.ite (fun _ => Leads.throw_bind (fun _ h => h) _ _) fun _ => ?_
    refine Leads.bind (Leads.modifyGet fun b hb => ⟨hb.tenant, fun r hr => ?_⟩) (fun _ => Leads.pure (fun _ h => h) _) fun _ h => h
    rcases List.mem_append.mp hr with hr | hr
    · exact hb.requests r hr
    · rw [List.mem_singleton.mp hr]
      exact named
  exact kept a h

/-! ### The platform -/

/-- Every slug is safe, reserved, given or dropped. -/
structure Clean (p : Platform) : Prop where
  sessions : ∀ s ∈ p.sessions, SafeName s.tenantSlug
  accounts : p.payments.Each fun _ => SafeAccount
  calls : ∀ name ∈ p.dropCalls, SafeName name

namespace Clean

variable {p : Platform}

theorem update (h : Clean p) (id : Nat) {f : Account → Account} (hf : ∀ a, SafeAccount a → SafeAccount (f a)) :
    Clean (p.updateAccount id f) := by
  unfold Platform.updateAccount
  cases ha : p.account id with
  | none => exact h
  | some a => exact ⟨h.sessions, h.accounts.store (hf a (h.accounts id a ha)), h.calls⟩

theorem create (h : Clean p) {slug : String} (hslug : SafeName slug) (name : String) (createdAt : Int) :
    Clean (p.createTenant slug name createdAt) :=
  ⟨h.sessions, h.accounts.store ⟨hslug, fun _ hr => nomatch hr⟩, h.calls⟩

theorem delete (h : Clean p) (id : Nat) : Clean (p.deleteTenant id) := by
  refine ⟨h.sessions, fun k a hk => ?_, h.calls⟩
  have found : (p.deleteTenant id).account k = some a := hk
  by_cases heq : k = id
  · rw [heq, p.deleteTenant_account_self] at found
    cases found
  · rw [p.deleteTenant_account_of_ne heq] at found
    exact h.accounts k a found

theorem callDrop (h : Clean p) {slug : String} (hslug : SafeName slug) : Clean (p.callDrop slug) := by
  refine ⟨h.sessions, h.accounts, fun name hname => ?_⟩
  rcases List.mem_append.mp hname with hname | hname
  · exact h.calls name hname
  · rw [List.mem_singleton.mp hname]
    exact hslug

theorem dropSchema (h : Clean p) (slug : String) : Clean (p.dropSchema slug) := ⟨h.sessions, h.accounts, h.calls⟩

theorem deleteSession (h : Clean p) (id : String) : Clean (p.deleteSession id) :=
  ⟨fun s hs => h.sessions s (List.mem_filter.mp hs).1, h.accounts, h.calls⟩

theorem updateSession (h : Clean p) (id : String) {f : SignupSession → SignupSession}
    (hf : ∀ s, (f s).tenantSlug = s.tenantSlug) : Clean (p.updateSession id f) := by
  refine ⟨fun s' hs' => ?_, h.accounts, h.calls⟩
  obtain ⟨s, hs, rfl⟩ := List.mem_map.mp hs'
  split
  · exact hf s ▸ h.sessions s hs
  · exact h.sessions s hs

theorem reserveSlug (h : Clean p) {session : SignupSession} (hs : SafeName session.tenantSlug) :
    Clean (p.reserveSlug session).2 := by
  unfold Platform.reserveSlug
  split
  · exact h
  · refine ⟨fun s hm => ?_, h.accounts, h.calls⟩
    rcases List.mem_append.mp hm with hm | hm
    · exact h.sessions s hm
    · rw [List.mem_singleton.mp hm]
      exact hs

/-! ### Every call keeps the slugs safe -/

theorem reserveFrom {base : String} (hbase : ∀ suffix, SafeName (candidateDemoSlug base suffix)) (session : SignupSession)
    (attempts suffix : Nat) : Leads Clean (reserveFrom base session attempts suffix) Clean := by
  induction attempts generalizing suffix with
  | zero => exact Leads.throw (fun _ h => h) _
  | succ attempts ih =>
    unfold Tenancy.reserveFrom
    refine Leads.bind (Leads.get fun _ h => h) (fun p => ?_) fun _ h => h
    refine Leads.ite (fun _ => ih _) fun _ => ?_
    refine Leads.bind (Leads.modifyGet fun q h => h.reserveSlug (hbase suffix)) (fun reserved => ?_) fun _ h => h
    refine Leads.ite (fun _ => Leads.pure (fun _ h => h) _) fun _ => ?_
    refine Leads.bind (Leads.get fun _ h => h) (fun q => ?_) fun _ h => h
    split
    · exact ih _
    · refine Leads.ite (fun _ => Leads.pure (fun _ h => h) _) fun _ => ?_
      exact Leads.bind (Leads.modify fun q h => h.deleteSession _) (fun _ => ih _) fun _ h => h

theorem reserve {nfkd : List Char → List Char} {name : String} (hname : demoSlugBase nfkd name ≠ "public")
    (sessionId email : String) : Leads Clean (reserve nfkd sessionId name email) Clean := by
  have from_ := reserveFrom (SafeName.candidate hname) { sessionId, requestedName := name, email, tenantSlug := "" } 9999 1
  unfold Tenancy.reserve
  refine Leads.bind (Leads.get fun _ h => h) (fun p => ?_) fun _ h => h
  split
  · exact from_
  · refine Leads.ite (fun _ => Leads.pure (fun _ h => h) _) fun _ => ?_
    exact Leads.bind (Leads.modify fun q h => h.deleteSession _) (fun _ => from_) fun _ h => h

theorem startPending (slug : String) (r : SignupRequest) : Leads Clean (startPending slug r) Clean := by
  have abandon : ∀ message, Leads Clean (abandonPending (stripText r.sessionId) message) Clean := fun message =>
    Leads.bind (Leads.modify fun p h => h.deleteSession _) (fun _ => Leads.throw (fun _ h => h) _) fun _ h => h
  have written : ∀ f : Platform → Platform, (∀ p, Clean p → Clean (f p)) → ∀ message, Leads Clean (do
      modify f
      if !r.mailSent then abandonPending (stripText r.sessionId) message) Clean := fun f hf message =>
    Leads.bind (Leads.modify hf) (fun _ => Leads.ite (fun _ => abandon _) fun _ => Leads.pure (fun _ h => h) _) fun _ h => h
  unfold Tenancy.startPending
  refine Leads.bind (Leads.get fun _ h => h) (fun p => ?_) fun _ h => h
  refine Leads.ite (fun _ => Leads.bind (abandon _) (fun _ => ?_) fun _ h => h) fun _ => ?_
  · refine written _ (fun p h => h.updateSession _ fun s => ?_) _
    split <;> rfl
  · refine written _ (fun p h => h.updateSession _ fun s => ?_) _
    split <;> rfl

theorem signup {nfkd : List Char → List Char} {r : SignupRequest} (hname : demoSlugBase nfkd r.slugSource ≠ "public") :
    Leads Clean (signup nfkd r) Clean := by
  unfold Tenancy.signup
  refine Leads.ite (fun _ => Leads.throw_bind (fun _ h => h) _ _) fun _ => ?_
  refine Leads.ite (fun _ => Leads.throw_bind (fun _ h => h) _ _) fun _ => ?_
  refine Leads.bind (reserve hname _ _) (fun slug => ?_) fun _ h => h
  refine Leads.ite (fun _ => Leads.throw_bind (fun _ h => h) _ _) fun _ => ?_
  exact Leads.bind (startPending slug r) (fun _ => Leads.pure (fun _ h => h) _) fun _ h => h

theorem confirmInvariant (r : ConfirmRequest) {slug : String} (hslug : SafeName slug) :
    ConfirmInvariant r slug (fun _ => True) Clean where
  createSchema p h := by
    unfold Platform.createSchema
    split
    · exact h
    · exact ⟨h.sessions, h.accounts, h.calls⟩
  createTenant p name h := h.create hslug _ _
  own _ _ _ := trivial
  config p id package _ h := h.update id fun _ ha => ⟨ha.tenant, ha.requests⟩
  activate p id h := h.update id fun _ ha => ⟨ha.tenant, ha.requests⟩
  deleteConfig p id h := h.update id fun _ ha => ⟨ha.tenant, ha.requests⟩
  deleteTenant p id h := h.delete id
  callDrop p h := h.callDrop hslug
  dropSchema p h := h.dropSchema slug
  subscription p id plan period h := h.update id fun _ ha => rowInvariant_safe.config _ _ _ (rowInvariant_safe.upsert _ _ ha)
  deleteSession p id h := h.deleteSession id
  completed p id h := h.updateSession id fun _ => rfl

theorem reset (h : Clean p) (id : Nat) (r : ResetRequest) (rows : OtherTable → List Nat) (schema : Option TenantSchema) :
    Clean (resetOn p id r rows schema) := by
  unfold resetOn
  cases ha : p.account id with
  | none => exact h
  | some a =>
    have safe := h.accounts id a ha
    have kept : ResetInvariant { r with tenantSlug := a.tenant.slug }
        (fun t => SafeAccount t.account ∧ ∀ name ∈ t.dropCalls, SafeName name) := by
      refine ⟨fun t s hs => ?_, fun s hs => ⟨hs.1, fun name hname => ?_⟩, fun s schema hs => hs,
        fun s sub hs => ⟨⟨hs.1.tenant, hs.1.requests⟩, hs.2⟩, fun s config hs => ⟨⟨hs.1.tenant, hs.1.requests⟩, hs.2⟩⟩
      · refine ⟨⟨?_, fun r hr => ?_⟩, ?_⟩
        · exact deleteRows_tenant t s ▸ hs.1.tenant
        · cases t with
          | tenantCancellationRequests => cases hr
          | _ => exact hs.1.requests r hr
        · exact deleteRows_dropCalls t s ▸ hs.2
      · rcases List.mem_append.mp hname with hname | hname
        · exact hs.2 name hname
        · rw [List.mem_singleton.mp hname, ResetRequest.normalizedSlug, safe.tenant.text.stripLower_eq]
          exact safe.tenant
    have after := kept.reset { account := a, rows, schema } ⟨safe, fun _ hn => nomatch hn⟩
    refine ⟨h.sessions, h.accounts.store after.1, fun name hname => ?_⟩
    rcases List.mem_append.mp hname with hname | hname
    · exact h.calls name hname
    · exact after.2 name hname

/-- A call of the lifecycle names the slug of a request. -/
def SafeCall : LifecycleCall → Prop
  | .dropTenantSchema slug _ => SafeName slug
  | _ => True

theorem lifecycle_safe (env : Env) {a : Account} (h : SafeAccount a) :
    (processCancellationLifecycle env a).Calls SafeCall := by
  refine lifecycle_calls _ env _ trivial (fun _ hc => nomatch hc) fun row hrow _ _ _ live _ => ⟨?_, trivial⟩
  have safe := h.requests row (Account.mem_listCancellationRequestsForLifecycle.mp hrow).1
  have same : row.schemaName = row.tenantSlug := safe.text.strip_eq
  rw [SafeCall, same]
  exact safe

theorem lifecycleCalls (h : Clean p) (env : Env) {calls : List LifecycleCall} (hc : ∀ c ∈ calls, SafeCall c) :
    Clean (calls.foldl (lifecycleCall env) p) := by
  induction calls generalizing p with
  | nil => exact h
  | cons c calls ih =>
    refine ih ?_ fun d hd => hc d (List.mem_cons_of_mem _ hd)
    have safe := hc c List.mem_cons_self
    cases c with
    | dropTenantSchema slug live =>
      have called : Clean (p.callDrop slug) := h.callDrop safe
      simp only [lifecycleCall]
      split
      · exact called.dropSchema slug
      · exact called
    | deactivate => exact h
    | hardDeleteTenant live => exact h

theorem lifecycle (h : Clean p) (env : Env) (id : Nat) : Clean (lifecycleOn env p id) := by
  unfold lifecycleOn
  cases ha : p.account id with
  | none => exact h
  | some a =>
    have safe := h.accounts id a ha
    refine lifecycleCalls ?_ env (lifecycle_safe env safe)
    cases hb : (processCancellationLifecycle env a).account with
    | none => exact h.delete id
    | some b => exact ⟨h.sessions, h.accounts.store (lifecycleInvariant_safe.lifecycle env safe b hb), h.calls⟩

theorem permanentlyDelete (h : Clean p) (id : Nat) (dropped : Bool) :
    Clean (SchemaSafety.permanentlyDelete p id dropped) := by
  unfold SchemaSafety.permanentlyDelete
  cases ha : p.account id with
  | none => exact h
  | some a =>
    have called := h.callDrop (h.accounts id a ha).tenant
    simp only
    split
    · exact h
    · split
      · exact (called.dropSchema _).delete id
      · exact called

theorem step {nfkd : List Char → List Char} (h : Clean p) {op : Op} (named : NamedApart nfkd p op) :
    Clean (SchemaSafety.step nfkd p op) := by
  cases op with
  | signup r => exact signup named p h
  | confirm r =>
    have kept : ∀ pending ∈ p.sessions, ConfirmInvariant r pending.tenantSlug (fun _ => True) Clean :=
      fun pending hp => confirmInvariant r (h.sessions pending hp)
    exact confirmAndProvision_keeps kept h
  | reset id r rows schema => exact h.reset id r rows schema
  | cancel env id code text user => exact h.update id fun _ ha => ha.cancel env code text user
  | lifecycle env =>
    have walk : ∀ (ids : List Nat) (p : Platform), Clean p → Clean (ids.foldl (lifecycleOn env) p) := by
      intro ids
      induction ids with
      | nil => exact fun _ h => h
      | cons id ids ih => exact fun p h => ih _ (h.lifecycle env id)
    exact walk _ p h
  | permanentlyDelete id dropped => exact h.permanentlyDelete id dropped

end Clean

theorem installed_clean : Clean installed :=
  ⟨fun _ hs => (nomatch hs), fun _ _ ha => (nomatch ha), fun _ hn => (nomatch hn)⟩

/-! ### A visitor whose company is called Public -/

/-- A decomposition leaves ASCII text alone. -/
def KeepsAscii (nfkd : List Char → List Char) : Prop := ∀ cs : List Char, (∀ c ∈ cs, c.toNat < 128) → nfkd cs = cs

def visitor (companyName : String) : SignupRequest where
  sessionId := "s"
  companyName
  ownerName := "A"
  email := "a@b.hu"
  verificationTokenHash := "h"
  verificationExpiresAt := midnight 20001

/-- The visitor signs up, confirms, and resets the new tenant, which has an owner. -/
def visit (companyName slug : String) : List Op := [
  .signup (visitor companyName),
  .confirm { env := Env.seeded (midnight 20000), verificationTokenHash := "h" },
  .reset 1
    { env := Env.seeded (midnight 20002), tenantSlug := slug, confirmSlug := slug, ownerUserId := 1, hooks := ["users"] }
    (fun _ => [])
    (some
      { users := fun id => if id = 1 then some { email := "a@b.hu", passwordHash := "h", role := "owner" } else none })]

/-- In every run whose signups bear names that do not come down to `public`, no schema of the platform is dropped. -/
theorem platform_schemas_kept (nfkd : List Char → List Char) (ops : List Op)
    (named : Always (step nfkd) (NamedApart nfkd) installed ops) : PlatformKept (final (step nfkd) installed ops) := by
  have clean := final_invariant Clean installed_clean (fun _ _ h named => h.step named) named
  exact fun name hname => (clean.calls name hname).not_platform

/-- The schema of another company is dropped. -/
theorem other_schema_dropped : PlatformKept (final (step id) installed (visit "Minta Kft." "minta-kft")) ∧
    (final (step id) installed (visit "Minta Kft." "minta-kft")).dropCalls = ["minta-kft"] := by
  have apart : demoSlugBase id (visitor "Minta Kft.").slugSource ≠ "public" := by decide
  exact ⟨platform_schemas_kept id _ ⟨apart, trivial, trivial, trivial⟩, by decide⟩

/-- Whatever the decomposition does to other texts, the schema `public` is dropped in some run. -/
theorem platform_schema_dropped : ¬∃ nfkd, KeepsAscii nfkd ∧ ∀ ops, PlatformKept (final (step nfkd) installed ops) := by
  rintro ⟨nfkd, ascii, kept⟩
  have letters : "Public".toList.all (fun c => decide (c.toNat < 128)) = true := by decide
  have base : demoSlugBase nfkd "Public" = demoSlugBase id "Public" := by
    rw [demoSlugBase, ascii _ fun c hc => of_decide_eq_true (List.all_eq_true.mp letters c hc)]
    rfl
  have source : (visitor "Public").slugSource = "Public" := by decide
  have same : signup nfkd (visitor "Public") = signup id (visitor "Public") := by
    simp only [signup, reserve, source, base]
  have run : final (step nfkd) installed (visit "Public" "public") = final (step id) installed (visit "Public" "public") := by
    simp only [visit, final_cons, final_nil, step, same]
  have dropped : ¬PlatformKept (final (step id) installed (visit "Public" "public")) := by decide
  exact dropped (run ▸ kept (visit "Public" "public"))

end NyzRating.Tenancy.SchemaSafety
