import NyzRating.Billing.Catalog
import NyzRating.Billing.Effects
import NyzRating.Billing.Settlement
import NyzRating.Lib.Run
import NyzRating.Tenancy.Signup

/-!
# Expired demos and tenants that pay

A confirmation marks every new tenant as a demo with the end of its trial. No payment takes the mark back, and the
cleanup looks at nothing else.
-/

namespace NyzRating.Tenancy.DemoCleanup

open Billing Program Runs Calendar

def featureFlags (a : Account) : FeatureFlags := (a.config.map (·.featureFlags)).getD {}

/-- The demo of the tenant has expired. -/
def demoExpired (now : Int) (a : Account) : Bool :=
  (featureFlags a).demoMode && (featureFlags a).demoExpiresAt.any (· ≤ now)

def cleanupAccount (now : Int) (a : Account) : Account :=
  if a.tenant.isActive && demoExpired now a then a.deactivate else a

/-- `cleanup_expired_demo_tenants`. -/
def cleanupExpiredDemoTenants (now : Int) (p : Platform) : Platform :=
  { p with payments := { p.payments with accounts := fun id => (p.account id).map (cleanupAccount now) } }

/-- The subscription is on a paid plan, active and paid beyond `now`. -/
def paying (now : Int) (a : Account) : Bool :=
  a.subscription.any fun sub => sub.planCode ≠ "free" && sub.status = .active && sub.trialEndsAt.any (now < ·)

/-! ### Runs -/

/-- The calls of a run; the operations of billing name their tenant. -/
inductive Op where
  | confirm (r : ConfirmRequest)
  | update (env : Env) (tenantId : Nat) (ctx : TenantContext) (planCode billingPeriod : String)
  | completeUpgrade (env : Env) (tenantId : Nat) (ctx : TenantContext) (planCode billingPeriod : String)
  | paymentEvent (d : Delivery)
  | settle (env : Env) (tenantId : Nat) (ctx : TenantContext)
  | syncConfig (env : Env) (tenantId : Nat) (sub : Subscription)
  | cleanup (now : Int)

def Op.run (p : Platform) : Op → Platform
  | .confirm r => after (confirmAndProvision r) p
  | .update env id ctx plan period => p.updateAccount id (after (updateSubscription env ctx plan period))
  | .completeUpgrade env id ctx plan period => p.updateAccount id (after (completeUpgradeAfterCheckout env ctx plan period))
  | .paymentEvent d => { p with payments := deliver p.payments d }
  | .settle env id ctx => p.updateAccount id (after (settleSubscription env ctx))
  | .syncConfig env id sub => p.updateAccount id (syncTenantConfig env sub)
  | .cleanup now => cleanupExpiredDemoTenants now p

/-- The platform, and the end of the trial that the confirmation of each tenant has set. -/
structure World where
  platform : Platform
  trialEnds : Nat → Option Int

/-- At the start of a run, the trial of a tenant ends when its flags say. -/
def World.start (p : Platform) : World where
  platform := p
  trialEnds id := (p.account id).bind fun a => (featureFlags a).demoExpiresAt

/-- A confirmation sets the trial of the tenant that it creates. -/
def step (w : World) (op : Op) : World :=
  let p := op.run w.platform
  match op with
  | .confirm r =>
    { platform := p
      trialEnds := fun id => if w.platform.nextTenantId ≤ id then some r.demoExpiresAt else w.trialEnds id }
  | _ => { w with platform := p }

/-- A cleanup leaves every active tenant that pays active. -/
def Spared (w : World) : Op → Prop
  | .cleanup now => ∀ id a, w.platform.account id = some a → a.tenant.isActive = true → paying now a = true →
      ((cleanupExpiredDemoTenants now w.platform).account id).any (·.tenant.isActive) = true
  | _ => True

/-- A cleanup comes before the end of the trial of every active tenant that pays and still is marked as a demo. -/
def BeforeTrialEnd (w : World) : Op → Prop
  | .cleanup now => ∀ id a t, w.platform.account id = some a → a.tenant.isActive = true → paying now a = true →
      (featureFlags a).demoMode = true → w.trialEnds id = some t → now < t
  | _ => True

/-! ### The flags of a demo -/

/-- A tenant marked as a demo has the given end of its trial. -/
def Marked (trialEnd : Option Int) (a : Account) : Prop :=
  (featureFlags a).demoMode = true → (featureFlags a).demoExpiresAt = trialEnd

/-- Billing writes the configuration with the flags it finds. -/
theorem rowInvariant_marked (trialEnd : Option Int) : RowInvariant (Marked trialEnd) where
  invoices _ _ _ h := h
  subscription _ _ h := h
  config env sub a h := by
    unfold Marked featureFlags at h ⊢
    cases hc : a.config with
    | none => simp [syncTenantConfig, Account.createConfig, hc]
    | some c =>
      rw [hc] at h
      simpa [syncTenantConfig, Account.createConfig, hc] using h

theorem Marked.settle {trialEnd : Option Int} (env : Env) (ctx : TenantContext) {a : Account} (h : Marked trialEnd a) :
    Marked trialEnd (after (settleSubscription env ctx) a) :=
  (rowInvariant_marked trialEnd).settle env ctx (fun _ _ _ h => h)
    (fun sub _ h => (rowInvariant_marked trialEnd).synced (fun _ h => h) (fun _ _ _ h => h) env sub h) (fun _ h => h) h

theorem Marked.signup {trialEnd : Option Int} (env : Env) (plan period : String) {a : Account} (h : Marked trialEnd a) :
    Marked trialEnd (setSignupSubscription env plan period a) :=
  (rowInvariant_marked trialEnd).config _ _ _ ((rowInvariant_marked trialEnd).upsert _ _ h)

theorem Marked.cleanup {trialEnd : Option Int} (now : Int) {a : Account} (h : Marked trialEnd a) :
    Marked trialEnd (cleanupAccount now a) := by
  unfold cleanupAccount
  split
  · exact h
  · exact h

/-- A tenant is marked with its own trial only, and the id of the next tenant is beyond those in use. -/
structure Trials (ends : Nat → Option Int) (p : Platform) : Prop where
  marked : p.payments.Each fun id => Marked (ends id)
  numbered : p.payments.Each fun id _ => id < p.nextTenantId

namespace Trials

variable {ends ends' : Nat → Option Int} {p : Platform}

theorem congr (h : Trials ends p) (heq : ∀ id < p.nextTenantId, ends id = ends' id) : Trials ends' p :=
  ⟨fun id a ha hm => (h.marked id a ha hm).trans (heq id (h.numbered id a ha)), h.numbered⟩

theorem update (h : Trials ends p) (id : Nat) {f : Account → Account}
    (hf : ∀ a, Marked (ends id) a → Marked (ends id) (f a)) : Trials ends (p.updateAccount id f) := by
  unfold Platform.updateAccount
  cases ha : p.account id with
  | none => exact h
  | some a => exact ⟨h.marked.store (hf a (h.marked id a ha)), h.numbered.store (h.numbered id a ha)⟩

theorem create (h : Trials ends p) (slug name : String) (createdAt : Int) :
    Trials ends (p.createTenant slug name createdAt) := by
  have numbered : p.payments.Each fun id _ => id < p.nextTenantId + 1 :=
    fun id a ha => Nat.lt_succ_of_lt (h.numbered id a ha)
  exact ⟨h.marked.store (fun hm => nomatch hm), numbered.store (Nat.lt_succ_self _)⟩

theorem delete (h : Trials ends p) (id : Nat) : Trials ends (p.deleteTenant id) := by
  have found : ∀ k a, (p.deleteTenant id).account k = some a → p.account k = some a := by
    intro k a hk
    by_cases heq : k = id
    · subst heq
      rw [p.deleteTenant_account_self] at hk
      cases hk
    · rwa [p.deleteTenant_account_of_ne heq] at hk
  exact ⟨fun k a hk => h.marked k a (found k a hk), fun k a hk => h.numbered k a (found k a hk)⟩

theorem payments {q : PaymentState} (marked : q.Each fun id => Marked (ends id))
    (numbered : q.Each fun id _ => id < p.nextTenantId) : Trials ends { p with payments := q } := ⟨marked, numbered⟩

theorem deliver (h : Trials ends p) (d : Delivery) : Trials ends { p with payments := Billing.deliver p.payments d } := by
  have constant : ∀ k, RowInvariant fun _ => k < p.nextTenantId :=
    fun k => ⟨fun _ _ _ h => h, fun _ _ h => h, fun _ _ _ h => h⟩
  exact payments (deliver_each (fun id => rowInvariant_marked (ends id)) d h.marked) (deliver_each constant d h.numbered)

theorem cleanup (h : Trials ends p) (now : Int) : Trials ends (cleanupExpiredDemoTenants now p) := by
  have found : ∀ id b, (cleanupExpiredDemoTenants now p).account id = some b →
      ∃ a, p.account id = some a ∧ cleanupAccount now a = b := fun id b hb => Option.map_eq_some_iff.mp hb
  refine ⟨fun id b hb => ?_, fun id b hb => ?_⟩
  · obtain ⟨a, ha, rfl⟩ := found id b hb
    exact (h.marked id a ha).cleanup now
  · obtain ⟨a, ha, -⟩ := found id b hb
    exact h.numbered id a ha

/-- With the new trial for the tenants from `first` on, a confirmation keeps the marks. -/
theorem confirmInvariant (r : ConfirmRequest) (slug : String) {first : Nat}
    (own : ∀ id, first ≤ id → ends id = some r.demoExpiresAt) :
    ConfirmInvariant r slug (first ≤ ·) (fun p => Trials ends p ∧ first ≤ p.nextTenantId) := by
  have update : ∀ (p : Platform) id f, (∀ a, Marked (ends id) a → Marked (ends id) (f a)) →
      Trials ends p ∧ first ≤ p.nextTenantId →
      Trials ends (p.updateAccount id f) ∧ first ≤ (p.updateAccount id f).nextTenantId :=
    fun p id f hf h => ⟨h.1.update id hf, p.updateAccount_nextTenantId id f ▸ h.2⟩
  exact {
    createSchema := by
      intro p h
      unfold Platform.createSchema
      split
      · exact h
      · exact ⟨⟨h.1.marked, h.1.numbered⟩, h.2⟩
    createTenant := fun p name h => ⟨h.1.create _ _ _, Nat.le_succ_of_le h.2⟩
    own := fun p h _ => h.2
    config := fun p id package hid h => update p id _ (fun _ _ _ => (own id hid).symm) h
    activate := fun p id h => update p id _ (fun _ hm => hm) h
    deleteConfig := fun p id h => update p id _ (fun _ _ hm => nomatch hm) h
    deleteTenant := fun p id h => ⟨h.1.delete id, h.2⟩
    callDrop := fun p h => ⟨⟨h.1.marked, h.1.numbered⟩, h.2⟩
    dropSchema := fun p h => ⟨⟨h.1.marked, h.1.numbered⟩, h.2⟩
    subscription := fun p id plan period h => update p id _ (fun _ hm => hm.signup _ _ _) h
    deleteSession := fun p id h => ⟨⟨h.1.marked, h.1.numbered⟩, h.2⟩
    completed := fun p id h => ⟨⟨h.1.marked, h.1.numbered⟩, h.2⟩ }

end Trials

/-- Every call keeps the marks, with the trial of its confirmation for a new tenant. -/
theorem step_trials {w : World} (h : Trials w.trialEnds w.platform) (op : Op) :
    Trials (step w op).trialEnds (step w op).platform := by
  cases op with
  | confirm r =>
    let first := w.platform.nextTenantId
    let ends : Nat → Option Int := fun id => if first ≤ id then some r.demoExpiresAt else w.trialEnds id
    have before : Trials ends w.platform := h.congr fun id hid => (if_neg (Nat.not_le.mpr hid)).symm
    have own : ∀ id, first ≤ id → ends id = some r.demoExpiresAt := fun id hid => if_pos hid
    have kept : ∀ pending ∈ w.platform.sessions, ConfirmInvariant r pending.tenantSlug (first ≤ ·)
        (fun p => Trials ends p ∧ first ≤ p.nextTenantId) := fun pending _ => Trials.confirmInvariant r _ own
    exact (confirmAndProvision_keeps kept ⟨before, Nat.le_refl _⟩).1
  | update env id ctx plan period =>
    exact h.update id fun a ha => (rowInvariant_marked _).updateSubscription env ctx plan period a ha
  | completeUpgrade env id ctx plan period =>
    exact h.update id fun a ha => (rowInvariant_marked _).completeUpgrade env ctx plan period a ha
  | paymentEvent d =>
    simp only [step, Op.run]
    exact h.deliver d
  | settle env id ctx => exact h.update id fun _ ha => ha.settle env ctx
  | syncConfig env id sub => exact h.update id fun a ha => (rowInvariant_marked _).config env sub a ha
  | cleanup now => exact h.cleanup now

/-- With the marks, the demo of a tenant expires with its trial. -/
theorem demoExpired_iff {trialEnd : Option Int} {a : Account} (h : Marked trialEnd a) (now : Int) :
    demoExpired now a = true ↔ (featureFlags a).demoMode = true ∧ ∃ t, trialEnd = some t ∧ t ≤ now := by
  unfold demoExpired
  rw [Bool.and_eq_true]
  refine and_congr_right fun hm => ?_
  rw [h hm, Option.any_eq_true]
  exact exists_congr fun t => and_congr_right fun _ => decide_eq_true_iff

/-- A cleanup spares the tenants that pay exactly if it comes before the end of their trials. -/
theorem spared_iff {w : World} (h : Trials w.trialEnds w.platform) (op : Op) : Spared w op ↔ BeforeTrialEnd w op := by
  cases op with
  | cleanup now =>
    have cleaned : ∀ id a, w.platform.account id = some a → a.tenant.isActive = true →
        (((cleanupExpiredDemoTenants now w.platform).account id).any (·.tenant.isActive) = true ↔ demoExpired now a = false) := by
      intro id a ha hactive
      have row : (cleanupExpiredDemoTenants now w.platform).account id = (w.platform.account id).map (cleanupAccount now) := rfl
      rw [row, ha, Option.map_some, Option.any_some, cleanupAccount, hactive, Bool.true_and]
      cases demoExpired now a with
      | false => simp [hactive]
      | true => simp [Account.deactivate]
    refine forall_congr' fun id => forall_congr' fun a => ?_
    constructor
    · intro spared t ha hactive hpays hm ht
      have fresh := (cleaned id a ha hactive).mp (spared ha hactive hpays)
      by_contra ended
      rw [(demoExpired_iff (h.marked id a ha) now).mpr ⟨hm, t, ht, not_lt.mp ended⟩] at fresh
      cases fresh
    · intro before ha hactive hpays
      refine (cleaned id a ha hactive).mpr ?_
      by_contra expired
      obtain ⟨hm, t, ht, ended⟩ := (demoExpired_iff (h.marked id a ha) now).mp (eq_true_of_ne_false expired)
      exact absurd (before t ha hactive hpays hm ht) (not_lt.mpr ended)
  | _ => exact Iff.rfl

/-- The flags of the start mark every tenant with the trial that they tell. -/
theorem start_trials {p : Platform} (numbered : p.payments.Each fun id _ => id < p.nextTenantId) :
    Trials (World.start p).trialEnds (World.start p).platform := by
  refine ⟨fun id a ha _ => ?_, numbered⟩
  have told : (p.account id).bind (fun a => (featureFlags a).demoExpiresAt) = (featureFlags a).demoExpiresAt := by
    rw [show p.account id = some a from ha, Option.bind_some]
  exact told.symm

/-- In a run from any platform, no cleanup switches a paying tenant off if and only if every cleanup comes before the
    end of the trial of each active tenant that pays and is still marked as a demo. -/
theorem cleanup_spares_paying_iff {p : Platform} (numbered : p.payments.Each fun id _ => id < p.nextTenantId)
    (ops : List Op) : Always step Spared (World.start p) ops ↔ Always step BeforeTrialEnd (World.start p) ops := by
  have kept : ∀ (P : World → Op → Prop) w op, Trials w.trialEnds w.platform → P w op →
      Trials (step w op).trialEnds (step w op).platform := fun _ _ op h _ => step_trials h op
  constructor
  · exact Always.of_invariant _ (start_trials numbered) (kept Spared) fun w op h => (spared_iff h op).mp
  · exact Always.of_invariant _ (start_trials numbered) (kept BeforeTrialEnd) fun w op h => (spared_iff h op).mpr

/-! ### A visitor who pays -/

/-- A platform without tenants where a visitor has reserved a slug. -/
def visited : Platform where
  payments := { accounts := fun _ => none }
  sessions := [
    { sessionId := "s", requestedName := "Minta Kft.", email := "a@minta.hu", tenantSlug := "minta-kft"
      verificationTokenHash := some "h", verificationExpiresAt := some (midnight 20001) }]

/-- The visitor confirms, and buys a plan on the third day of a trial of seven. -/
def purchase : List Op := [
  .confirm { env := Env.seeded (midnight 20000), verificationTokenHash := "h" },
  .update (Env.seeded (midnight 20003)) 1 { slug := "minta-kft", createdAt := none, isActive := none } "starter" "monthly"]

/-- The visitor's tenant after the purchase and the cleanups at the given times. -/
def afterCleanups (times : List Int) : World := final step (World.start visited) (purchase ++ times.map .cleanup)

def visitorIs (q : Account → Bool) (w : World) : Bool := (w.platform.account 1).any q

/-- On the fifth day the tenant pays, and a cleanup leaves it alone. -/
theorem cleanup_spares_paying_within_trial :
    Always step Spared (World.start visited) (purchase ++ [.cleanup (midnight 20005)]) ∧
      visitorIs (fun a => a.tenant.isActive && paying (midnight 20005) a) (afterCleanups [midnight 20005]) = true := by
  have numbered : visited.payments.Each fun id _ => id < visited.nextTenantId := fun id a ha => nomatch ha
  have ends : (afterCleanups []).trialEnds = fun id => if 1 ≤ id then some (midnight 20007) else none := rfl
  refine ⟨(cleanup_spares_paying_iff numbered _).mpr ⟨trivial, trivial, ?_, trivial⟩, by decide⟩
  intro id a t _ _ _ _ ht
  have trial : (if 1 ≤ id then some (midnight 20007) else none) = some t := ht
  split at trial
  · cases trial
    decide
  · cases trial

/-- On the eighth day the tenant still pays, and a cleanup switches it off. -/
theorem cleanup_switches_paying_off : ¬∀ p ops, p.payments.Each (fun id _ => id < p.nextTenantId) →
    Always step Spared (World.start p) ops := by
  intro h
  have numbered : visited.payments.Each fun id _ => id < visited.nextTenantId := fun id a ha => nomatch ha
  have spared : Spared (afterCleanups []) (.cleanup (midnight 20008)) :=
    (h visited (purchase ++ [Op.cleanup (midnight 20008)]) numbered).2.2.1
  have pays : visitorIs (fun a => a.tenant.isActive && paying (midnight 20008) a) (afterCleanups []) = true := by decide
  have off : visitorIs (·.tenant.isActive) (afterCleanups [midnight 20008]) = false := by decide
  obtain ⟨a, ha, hpays⟩ := (Option.any_eq_true _ _).mp pays
  obtain ⟨hactive, hpaying⟩ := (Bool.and_eq_true _ _).mp hpays
  have kept : visitorIs (·.tenant.isActive) (afterCleanups [midnight 20008]) = true := spared 1 a ha hactive hpaying
  rw [off] at kept
  cases kept

end NyzRating.Tenancy.DemoCleanup
