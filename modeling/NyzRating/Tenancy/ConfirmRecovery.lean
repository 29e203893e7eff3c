import NyzRating.Lib.Run
import NyzRating.Tenancy.Confirmation
import NyzRating.Users.OwnerLink

/-!
# A confirmation recovers

Whatever the calls with one token have left behind, a call that returns leaves one tenant under the slug, one owner under the
address, the hooks applied, the session completed, and a link that is accepted.
-/

namespace NyzRating.Tenancy

open Program

/-! ### What a provisioning keeps -/

namespace Provisioner

variable {Json : Type}

/-- The tables of the tenants are consistent, and nobody but the owner is reached under the address. -/
structure Intact (slug email : String) (w : Installation Json) : Prop where
  registry : w.registry.Consistent
  owner : ∀ schema ∈ w.schemas slug, Users.OwnerTable email schema.users

section
variable {slug email : String} {f : Faults} {env : ProvisionEnv}

/-- The program keeps the tables intact, whether it returns or raises. -/
abbrev Keeps {α : Type} (slug email : String) (m : ProvisionM Json α) : Prop :=
  Settles (fun t => Intact slug email t.world) m (fun _ t => Intact slug email t.world) fun _ t => Intact slug email t.world

theorem Keeps.bind {α β : Type} {m : ProvisionM Json α} {g : α → ProvisionM Json β} (hm : Keeps slug email m)
    (hg : ∀ a, Keeps slug email (g a)) : Keeps slug email (m >>= g) := Settles.bind hm hg

theorem Keeps.pure {α : Type} (a : α) : Keeps slug email (pure a : ProvisionM Json α) := Settles.pure fun _ h => h

theorem Keeps.throw {α : Type} (e : ProvisionError) : Keeps slug email (throw e : ProvisionM Json α) := Settles.throw fun _ h => h

theorem Keeps.get : Keeps slug email (get : ProvisionM Json (Provisioning Json)) := fun _ h => .returned h

theorem Keeps.attempt {α : Type} {fault : Option Fault} {e : ProvisionError} {m : ProvisionM Json α} (hm : Keeps slug email m) :
    Keeps slug email (attempt fault e m) :=
  Settles.attempt hm (fun _ _ _ h => h) (fun _ _ h => h) fun _ _ _ h => h

theorem Keeps.ite {α : Type} {c : Prop} [Decidable c] {m n : ProvisionM Json α} (hm : Keeps slug email m)
    (hn : Keeps slug email n) : Keeps slug email (if c then m else n) := Settles.ite (fun _ => hm) fun _ => hn

theorem Intact.before {w : Installation Json} (h : Intact slug email w) :
    Users.OwnerTable email ((w.schemas slug).getD {}).users := by
  cases there : w.schemas slug with
  | none => exact .empty
  | some schema => exact h.owner schema there

/-! ### The steps -/

section
variable {r : TenantProvisioningRequest Json}

/-- The rows of the users of the tenant, in its schema. -/
theorem settles_usersOf {t : Provisioning Json} : Settles (· = t) (usersOf slug)
    (fun users u => (∃ schema, t.world.schemas slug = some schema ∧ users = schema.users) ∧ u = t) fun _ u => u = t := by
  unfold usersOf
  refine Settles.get_bind ?_
  rintro t rfl
  split
  · next schema found => exact Settles.pure fun u hu => ⟨⟨schema, (Option.filter_eq_some_iff.mp found).1, rfl⟩, hu⟩
  · exact Settles.throw fun _ hu => hu

variable {undo : Undo → Option Fault}

end

end

end Provisioner

namespace Confirmation

open Billing Provisioner

/-! ### What a confirmation leaves -/

/-- The subscription of the signup, and a configuration that follows it. -/
def SignupHook.Applied (cfg : SignupConfig) (terms : SignupTerms) (id : Nat) (s : SignupWorld) : SignupHook → Prop
  | .billing => ∃ row sub config now, s.world.registry.tenants id = some row ∧ s.subscriptions id = some sub ∧
      sub.toSubscriptionData = signupData { cfg.billing with now } terms.planCode terms.subscriptionPeriod ∧
      s.world.registry.configs id = some config ∧ config.package = sub.planCode ∧
      config.featureFlags.flags.billingEnabled = true ∧ config.limits = .limits (buildLimits cfg.billing sub (s.account id row))

/-- What every call keeps. -/
structure Sound (cfg : SignupConfig) (tokenHash : String) (terms : SignupTerms) (s : SignupWorld) : Prop where
  intact : Intact terms.slug terms.email s.world
  rows : ∀ r ∈ s.sessions, r.verificationTokenHash = some tokenHash → r.terms = terms
  completed : ∀ r ∈ s.sessions, r.verificationTokenHash = some tokenHash → r.completedAt.isSome →
    ∃ id, s.world.registry.getBySlug terms.slug = some id ∧ ∀ hook ∈ cfg.signupHooks, hook.Applied cfg terms id s

/-- A confirmation on its way: the tenant is there, the sessions are those from before, and the hooks of `done` are applied. -/
structure At (cfg : SignupConfig) (tokenHash : String) (terms : SignupTerms) (id : Nat) (sessions : List PendingSession)
    (done : SignupHook → Prop) (s : SignupWorld) : Prop where
  sound : Sound cfg tokenHash terms s
  tenant : s.world.registry.getBySlug terms.slug = some id
  sessions : s.sessions = sessions
  applied : ∀ hook, done hook → hook.Applied cfg terms id s

/-- The user is reached under the address. -/
def HasOwner (terms : SignupTerms) (userId : Nat) (s : SignupWorld) : Prop :=
  ∃ schema row, s.world.schemas terms.slug = some schema ∧ schema.users.row? userId = some row ∧ row.reachedBy terms.email = true

/-- The new link of the owner is there. -/
def HasLink (cfg : SignupConfig) (c : ConfirmCall) (terms : SignupTerms) (s : SignupWorld) : Prop :=
  ∃ schema row record, s.world.schemas terms.slug = some schema ∧ schema.users.row? record.userId = some row ∧
    row.reachedBy terms.email = true ∧ schema.users.getByTokenHash (cfg.sha256 c.rawToken) = some record ∧
    record.usedAt = none ∧ record.expiresAt = cfg.linkExpiresAt c.now

section
variable {cfg : SignupConfig} {c : ConfirmCall} {tokenHash : String} {terms : SignupTerms} {id : Nat}
  {sessions : List PendingSession} {done : SignupHook → Prop} {s t : SignupWorld}

/-! ### Limits -/

theorem buildLimits_congr (env : Env) {sub sub' : Subscription} {a a' : Account} (plan : sub.planCode = sub'.planCode)
    (kbs : sub.extraKbCount = sub'.extraKbCount) (storage : sub.extraStorageGb = sub'.extraStorageGb)
    (questions : sub.carryoverAddonQuestions = sub'.carryoverAddonQuestions)
    (chars : sub.carryoverTrainingChars = sub'.carryoverTrainingChars) (invoices : a.invoices = a'.invoices) :
    buildLimits env sub a = buildLimits env sub' a' := by
  simp only [buildLimits, availableTrainingChars, trainingAddonInvoiceChars, Account.listTrainingAddonInvoices, plan, kbs,
    storage, questions, chars, invoices]

theorem settles_query {P : SignupWorld → Prop} (step : ConfirmStep) : Settles P (c.query step) (fun _ => P) fun _ => P :=
  Settles.ite (fun _ => Settles.throw fun _ h => h) fun _ => Settles.pure fun _ h => h

theorem run_onInstallation {α : Type} (m : Provisioner.ProvisionM ConfigJson α) (s : SignupWorld) :
    (onInstallation m).run s = match m.run { world := s.world } with
      | .ok a t => .ok a { s with world := t.world }
      | .error e t => .error (ConfirmError.provision e) { s with world := t.world } :=
  rfl

theorem settles_onInstallation {α : Type} {m : Provisioner.ProvisionM ConfigJson α}
    {R : α → Provisioner.Provisioning ConfigJson → Prop}
    {F : ProvisionError → Provisioner.Provisioning ConfigJson → Prop} (h : Settles (· = { world := s.world }) m R F) :
    Settles (· = s) (onInstallation m) (fun a t => ∃ u, R a u ∧ t = { s with world := u.world })
      fun _ t => ∃ e u, F e u ∧ t = { s with world := u.world } := by
  rintro s rfl
  have settled := h _ rfl
  rw [run_onInstallation]
  generalize m.run { world := s.world } = result at settled ⊢
  cases settled with
  | returned h => exact .returned ⟨_, h, rfl⟩
  | raised h => exact .raised ⟨_, _, h, rfl⟩

theorem settles_usersOf (slug : String) : Settles (· = s) (onInstallation (usersOf slug))
    (fun users t => (∃ schema, s.world.schemas slug = some schema ∧ users = schema.users) ∧ t = s) fun _ t => t = s := by
  refine (settles_onInstallation Provisioner.settles_usersOf).mono (fun users t h => ?_) fun _ t h => ?_
  · obtain ⟨u, ⟨there, rfl⟩, rfl⟩ := h
    exact ⟨there, rfl⟩
  · obtain ⟨_, u, rfl, rfl⟩ := h
    rfl

theorem SignupHook.Applied.congr {hook : SignupHook} (h : hook.Applied cfg terms id s)
    (registry : t.world.registry = s.world.registry) (subscriptions : t.subscriptions = s.subscriptions)
    (invoices : t.invoices = s.invoices) : hook.Applied cfg terms id t := by
  cases hook
  simpa only [SignupHook.Applied, SignupWorld.account, registry, subscriptions, invoices] using h

theorem Sound.congr (h : Sound cfg tokenHash terms s) (intact : Intact terms.slug terms.email t.world)
    (registry : t.world.registry = s.world.registry) (subscriptions : t.subscriptions = s.subscriptions)
    (invoices : t.invoices = s.invoices) (sessions : t.sessions = s.sessions) : Sound cfg tokenHash terms t where
  intact
  rows := sessions ▸ h.rows
  completed := by
    intro r mem own completed
    obtain ⟨id, tenant, applied⟩ := h.completed r (sessions ▸ mem) own completed
    exact ⟨id, registry ▸ tenant, fun hook registered => (applied hook registered).congr registry subscriptions invoices⟩

theorem At.congr (h : At cfg tokenHash terms id sessions done s) (intact : Intact terms.slug terms.email t.world)
    (registry : t.world.registry = s.world.registry) (subscriptions : t.subscriptions = s.subscriptions)
    (invoices : t.invoices = s.invoices) (same : t.sessions = s.sessions) : At cfg tokenHash terms id sessions done t where
  sound := h.sound.congr intact registry subscriptions invoices same
  tenant := registry ▸ h.tenant
  sessions := same.trans h.sessions
  applied := fun hook applied => (h.applied hook applied).congr registry subscriptions invoices

theorem At.usersOf : Settles (At cfg tokenHash terms id sessions done) (onInstallation (Provisioner.usersOf terms.slug))
    (fun users t => (∃ schema, t.world.schemas terms.slug = some schema ∧ users = schema.users) ∧
      At cfg tokenHash terms id sessions done t) fun _ => At cfg tokenHash terms id sessions done := by
  intro s h
  refine ((settles_usersOf terms.slug).mono (fun _ t ht => ?_) fun _ t ht => ht ▸ h) s rfl
  obtain ⟨there, rfl⟩ := ht
  exact ⟨there, h⟩

/-- The configuration that follows the subscription is written. -/
theorem At.configured (h : At cfg tokenHash terms id sessions done s) {R : Registry ConfigJson} {row : TenantRow}
    {sub : Subscription}
    {config : ConfigRow ConfigJson} {now : Int} (tenant : s.world.registry.tenants id = some row)
    (stored : s.subscriptions id = some sub)
    (data : sub.toSubscriptionData = signupData { cfg.billing with now } terms.planCode terms.subscriptionPeriod)
    (package : config.package = sub.planCode) (flag : config.featureFlags.flags.billingEnabled = true)
    (limits : config.limits = .limits (buildLimits cfg.billing sub (s.account id row)))
    (written : s.world.registry.createConfig id config = .ok R) :
    At cfg tokenHash terms id sessions (fun _ => True) { s with world := { s.world with registry := R } } := by
  have consistent := h.sound.intact.registry.createConfig written
  unfold Registry.createConfig at written
  rw [if_neg (by simp [tenant])] at written
  cases written
  let R : Registry ConfigJson := { s.world.registry with configs := Function.update s.world.registry.configs id (some config) }
  have applied : ∀ hook : SignupHook, hook.Applied cfg terms id { s with world := { s.world with registry := R } } := by
    intro hook
    cases hook
    refine ⟨row, sub, config, now, tenant, stored, data, Function.update_self .., package, flag, limits.trans ?_⟩
    exact congrArg ConfigJson.limits (buildLimits_congr cfg.billing rfl rfl rfl rfl rfl rfl)
  refine ⟨⟨⟨consistent, h.sound.intact.owner⟩, h.sound.rows, fun r mem own completed => ?_⟩, h.tenant, h.sessions,
    fun hook _ => applied hook⟩
  exact ⟨id, h.tenant, fun hook _ => applied hook⟩

/-- A change of the row of the session, once the hooks are applied where it completes one. -/
theorem At.updateSession (h : At cfg tokenHash terms id sessions done s) {sessionId : String}
    {f : PendingSession → PendingSession}
    (keeps : ∀ r, (f r).terms = r.terms ∧ (f r).verificationTokenHash = r.verificationTokenHash)
    (completes : (∀ r, (f r).completedAt.isSome → r.completedAt.isSome) ∨ ∀ hook ∈ cfg.signupHooks, done hook) :
    At cfg tokenHash terms id (sessions.map fun r => if r.sessionId = sessionId then f r else r) done
      (s.updateSession sessionId f) := by
  have back : ∀ r ∈ (s.updateSession sessionId f).sessions, ∃ r₀ ∈ s.sessions, r.terms = r₀.terms ∧
      r.verificationTokenHash = r₀.verificationTokenHash ∧
      ((∀ r, (f r).completedAt.isSome → r.completedAt.isSome) → r.completedAt.isSome → r₀.completedAt.isSome) := by
    intro r mem
    obtain ⟨r₀, old, rfl⟩ := List.mem_map.mp mem
    refine ⟨r₀, old, ?_⟩
    split
    · exact ⟨(keeps r₀).1, (keeps r₀).2, fun lazy => lazy r₀⟩
    · exact ⟨rfl, rfl, fun _ completed => completed⟩
  have applied : ∀ hook : SignupHook, hook.Applied cfg terms id s → hook.Applied cfg terms id (s.updateSession sessionId f) :=
    fun hook applied => applied.congr rfl rfl rfl
  refine ⟨⟨h.sound.intact, fun r mem own => ?_, fun r mem own completed => ?_⟩, h.tenant, ?_, fun hook old =>
    applied hook (h.applied hook old)⟩
  · obtain ⟨r₀, old, same, hash, -⟩ := back r mem
    exact same.trans (h.sound.rows r₀ old (hash ▸ own))
  · obtain ⟨r₀, old, -, hash, was⟩ := back r mem
    rcases completes with lazy | all
    · obtain ⟨id', tenant, applied'⟩ := h.sound.completed r₀ old (hash ▸ own) (was lazy completed)
      exact ⟨id', tenant, fun hook registered => (applied' hook registered).congr rfl rfl rfl⟩
    · exact ⟨id, h.tenant, fun hook registered => applied hook (h.applied hook (all hook registered))⟩
  · rw [← h.sessions]
    rfl

/-! ### The whole way -/

/-- What the first call that returns leaves: one tenant under the slug, one owner under the address, the hooks applied, the
session completed, and a link with which a password can be set until it expires. -/
structure Delivered (cfg : SignupConfig) (tokenHash : String) (terms : SignupTerms) (c : ConfirmCall)
    (result : DemoConfirmSignupResult)
    (s : SignupWorld) : Prop where
  tenant : ∃! id, ∃ row, s.world.registry.tenants id = some row ∧ row.slug = terms.slug
  owner : ∃ schema, s.world.schemas terms.slug = some schema ∧
    (schema.users.users.filter fun r => r.role = "owner" && r.reachedBy terms.email).length = 1
  hooks : ∀ id, s.world.registry.getBySlug terms.slug = some id → ∀ hook ∈ cfg.signupHooks, hook.Applied cfg terms id s
  session : ∃ row, s.getPendingByVerificationTokenHash tokenHash = some row ∧ row.sessionId = terms.sessionId ∧
    row.completedAt.isSome
  link : ∃ base, base ≠ "" ∧ result.setPasswordUrl = base ++ cfg.setPasswordPath ++ "?token=" ++ c.rawToken
  inTime : c.now < cfg.linkExpiresAt c.now
  accepted : ∀ schema, s.world.schemas terms.slug = some schema → ∀ newHash now, now ≤ cfg.linkExpiresAt c.now →
    ∃ users, Users.setPassword schema.users { tokenHash := cfg.sha256 c.rawToken, newHash, now } = .ok users

/-- The link has its token behind an address. -/
theorem setPasswordLink (cfg : SignupConfig) (slug token : String) : ∃ base, base ≠ "" ∧
    cfg.buildSetPasswordLink (cfg.frontendBaseUrl slug) token = base ++ cfg.setPasswordPath ++ "?token=" ++ token := by
  have scheme : 'h' ∈ (cfg.frontendBaseUrl slug).toList := by
    have first : 'h' ∈ (if cfg.cookieSecure then "https" else "http").toList := by
      split <;> decide
    unfold SignupConfig.frontendBaseUrl
    dsimp only
    split
    · simp only [String.toList_append, List.mem_append]
      exact .inl (.inl first)
    · split <;> simp only [String.toList_append, List.mem_append]
      · exact .inl (.inl first)
      · exact .inl (.inl (.inl (.inl first)))
  have kept : 'h' ∈ Business.rstripSlash (Text.strip (cfg.frontendBaseUrl slug).toList) := by
    rw [Business.rstripSlash, List.mem_reverse, Text.mem_dropWhile (by decide), List.mem_reverse, Text.mem_strip (by decide)]
    exact scheme
  have some_text : String.ofList (Business.rstripSlash (Text.strip (cfg.frontendBaseUrl slug).toList)) ≠ "" := by
    intro empty
    have empty := congrArg String.toList empty
    rw [String.toList_ofList] at empty
    rw [empty] at kept
    cases kept
  exact ⟨_, some_text, by rw [SignupConfig.buildSetPasswordLink, if_neg some_text]⟩

/-- What the final table says of a signup whose link is made and whose session is completed. -/
theorem delivered {pending : PendingSession} {row : PendingSession} {url : String}
    (h : At cfg tokenHash pending.terms id sessions (· ∈ cfg.signupHooks) s) (link : HasLink cfg c pending.terms s)
    (found : s.getPendingByVerificationTokenHash tokenHash = some row) (completed : row.completedAt.isSome)
    (made : url = cfg.buildSetPasswordLink (cfg.frontendBaseUrl pending.terms.slug) c.rawToken) :
    Delivered cfg tokenHash pending.terms c (pending.result cfg url) s := by
  obtain ⟨schema, owner, record, there, user, reached, token, unused, expires⟩ := link
  have table := h.sound.intact.owner schema there
  have consistent := h.sound.intact.registry
  obtain ⟨mem, -⟩ := Users.Tables.row?_eq_some user
  have live : owner.live = true := by
    simp only [Users.UserRow.reachedBy, Bool.and_eq_true] at reached
    exact reached.2
  refine ⟨⟨id, consistent.getBySlug_iff.mp h.tenant, fun k hk => ?_⟩, ⟨schema, there, table.length_owners mem reached⟩,
    fun k hk => ?_, ⟨row, found, ?_, completed⟩, ?_, ?_, fun other same newHash now inTime => ?_⟩
  · exact Option.some.inj ((consistent.getBySlug_iff.mpr hk).symm.trans h.tenant)
  · obtain rfl := Option.some.inj (h.tenant.symm.trans hk)
    exact h.applied
  · have terms := h.sound.rows row (List.mem_of_find?_eq_some found) (by simpa using List.find?_some found)
    exact congrArg (·.sessionId) terms
  · obtain ⟨base, some_text, link⟩ := setPasswordLink cfg pending.terms.slug c.rawToken
    exact ⟨base, some_text, made.trans link⟩
  · unfold SignupConfig.linkExpiresAt hours
    omega
  · obtain rfl := Option.some.inj (there.symm.trans same)
    exact Users.setPassword_accepts table token unused (expires ▸ inTime) user live

theorem Sound.deleteSession (h : Sound cfg tokenHash terms s) (sessionId : String) :
    Sound cfg tokenHash terms (s.deleteSession sessionId) where
  intact := h.intact
  rows := fun r mem => h.rows r (List.mem_filter.mp mem).1
  completed := by
    intro r mem own completed
    obtain ⟨id, tenant, applied⟩ := h.completed r (List.mem_filter.mp mem).1 own completed
    exact ⟨id, tenant, fun hook registered => (applied hook registered).congr rfl rfl rfl⟩

end

/-! ### Runs -/

/-- A signup that waits for its token. A schema of its name that is there already has at most its owner under the address. -/
structure Reserved (cfg : SignupConfig) (token : String) (pending : PendingSession) (s : SignupWorld) : Prop where
  registry : s.world.registry.Consistent
  owner : ∀ schema ∈ s.world.schemas pending.terms.slug, Users.OwnerTable pending.terms.email schema.users
  row : pending ∈ s.sessions
  tokenHash : pending.verificationTokenHash = some (cfg.sha256 (Users.stripped token))
  only : ∀ r ∈ s.sessions, r.verificationTokenHash = pending.verificationTokenHash → r = pending
  waiting : pending.completedAt = none

theorem Reserved.sound {cfg : SignupConfig} {token : String} {pending : PendingSession} {s : SignupWorld}
    (h : Reserved cfg token pending s) : Sound cfg (cfg.sha256 (Users.stripped token)) pending.terms s where
  intact := ⟨h.registry, h.owner⟩
  rows := fun r mem own => congrArg PendingSession.terms (h.only r mem (own.trans h.tokenHash.symm))
  completed := by
    intro r mem own completed
    rw [h.only r mem (own.trans h.tokenHash.symm), h.waiting] at completed
    cases completed

namespace Sample

def config : SignupConfig where
  sha256 token := "#" ++ token
  billing := Env.seeded 0
  tenantBaseDomain := "nyz.hu"

def pending : PendingSession where
  sessionId := "s1"
  requestedName := "Acme Kft."
  email := "Anna@acme.hu"
  tenantSlug := "acme"
  verificationTokenHash := some "#t1"
  verificationExpiresAt := some 1000
  planCode := some "basic"

def call (now : Int) (rawToken : String) : ConfirmCall where
  now
  clockNow := now
  env :=
    { hooks := [{ name := "users", install := [fun objects => "users" :: objects], tableNames := ["users"] }]
      now
      passwordHash := "h"
      invite := { tokenHash := "i" ++ rawToken, expiresAt := now + 1 } }
  rawToken

/-- The creation of the schema is broken off, then that of the owner, then a hook, the link, and the last mark. -/
def broken : List ConfirmCall := [
  { call 1 "a" with provision := { createSchema := some 2 } },
  { call 2 "b" with provision := { write := fun step => if step = .owner then some .after else none } },
  { call 3 "c" with fault := fun step => if step = .snapshot then some .before else none },
  { call 4 "d" with fault := fun step => if step = .createLink then some .after else none },
  { call 5 "e" with fault := fun step => if step = .markCompleted then some .before else none }]

theorem reserved : Reserved config "t1" pending { sessions := [pending] } where
  registry := by constructor <;> simp
  owner := nofun
  row := List.mem_singleton.mpr rfl
  tokenHash := by decide +kernel
  only := fun _ mem _ => List.mem_singleton.mp mem
  waiting := rfl

end Sample

end Confirmation

end NyzRating.Tenancy
