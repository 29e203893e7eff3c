import Mathlib.Logic.Function.Basic
import NyzRating.Auth.SessionFamily
import NyzRating.Auth.TokenAllowlist

/-!
# Tokens of one tenant at another one

All tenants sign with one key, and no claim of a token names its tenant. An access token is looked for in the allowlist of the
tenant that the request is resolved to, a refresh token among the sessions of that tenant's schema.
-/

namespace NyzRating.Auth.TenantIsolation

open Program Runs Refresh TokenAllowlist

/-! ### The middleware -/

/-- A request with a bearer token, and the tenant that it is resolved to. -/
structure BearerRequest where
  token : String
  path : String := "/"
  tenantSlug : Option String
  tenantVer : Int := 0
  now : Int
  site : Site

structure AuthMiddleware where
  /-- The claims of an access token with the right signature, issuer and audience. -/
  decodeAccess : String → Option AccessPayload
  lightPaths : List String := []
  /-- `_get_user_with_timing`, from the cache or from the database. -/
  getUser : Option String → Nat → Option TokenUser

def minimalUserFromPayload (p : AccessPayload) : TokenUser := { id := p.sub, securityVersion := p.userVer, role := p.role }

namespace AuthMiddleware

variable (mw : AuthMiddleware) (req : BearerRequest) (allowlist : TokenAllowlist.State)

/-- The claims of a token that is verified and allowed. -/
def allowed : Option AccessPayload :=
  (mw.decodeAccess req.token).filter fun p =>
    req.now < p.exp * 1000000 && p.jti ≠ "" && isAllowed req.site req.tenantSlug p.sub p.jti allowlist

def light : Bool := mw.lightPaths.any fun p => p.toList.isPrefixOf req.path.toList

/-- The user that `_resolve_request_user` finds, after the check of the security versions. -/
def resolveRequestUser : Option TokenUser :=
  (mw.allowed req allowlist).bind fun p =>
    if mw.light req then some (minimalUserFromPayload p)
    else (mw.getUser req.tenantSlug p.sub).filter fun user => p.userVer = user.securityVersion && p.tenantVer = req.tenantVer

end AuthMiddleware

/-! ### Tenants that share a key and an allowlist -/

/-- The sessions of each tenant's schema, and the jtis of the tokens that have been made for each tenant. -/
structure Platform where
  tables : String → SessionTables := fun _ => {}
  allowlist : TokenAllowlist.State := {}
  accessMinted : List (String × String) := []
  refreshMinted : List (String × String) := []

/-- What the calls on a tenant are, and from where the allowlist is called. -/
inductive Op where
  | login (site : Site) (slug : String) (inp : IssueInput)
  | refresh (site : Site) (slug : String) (inp : RefreshInput)
  /-- A logout by the refresh token of a cookie; `user` is whom the router logs out. -/
  | logout (site : Site) (slug : String) (inp : LogoutInput) (user : Option Nat)
  /-- The user's access tokens are revoked, at a change of the user for example. -/
  | revoke (site : Site) (slug : String) (user : Nat)
  | expire (key : String)
  | restart (process : Nat)

/-- The tokens are made for the tenant, and the router puts the access token on the allowlist. -/
def Platform.mint (s : Platform) (site : Site) (slug : String) (jti accessJti : String) (user : Option Nat) : Platform :=
  { s with
    allowlist := match user with
      | none => s.allowlist
      | some user => TokenAllowlist.add site (some slug) user accessJti s.allowlist
    accessMinted := (slug, accessJti) :: s.accessMinted
    refreshMinted := (slug, jti) :: s.refreshMinted }

def Platform.store (s : Platform) (slug : String) (t : SessionTables) : Platform :=
  { s with tables := Function.update s.tables slug t }

variable (svc : AuditService) (env : TokenEnv)

def step (s : Platform) : Op → Platform
  | .login site slug inp =>
    match (issueTokensForUser env inp).run (s.tables slug) with
    | .ok _ t => (s.store slug t).mint site slug inp.jti inp.accessJti (some inp.user.id)
    | .error _ _ => s
  | .refresh site slug inp =>
    match (svc.refresh env inp).run (s.tables slug) with
    | .ok (.success tokens) t => (s.store slug t).mint site slug inp.jti inp.accessJti (tokens.user.map (·.id))
    | .ok (.failed _) t => s.store slug t
    | .error _ _ => s
  | .logout site slug inp user =>
    let s := s.store slug (after (svc.logout env inp) (s.tables slug))
    match user with
    | none => s
    | some user => { s with allowlist := TokenAllowlist.removeByUser site (some slug) user s.allowlist }
  | .revoke site slug user => { s with allowlist := TokenAllowlist.removeByUser site (some slug) user s.allowlist }
  | .expire key => { s with allowlist := TokenAllowlist.step s.allowlist (.expire key) }
  | .restart process => { s with allowlist := TokenAllowlist.step s.allowlist (.restart process) }

/-- Every jti is a new one, for all tenants. -/
def Fresh (s : Platform) : Op → Prop
  | .login _ _ inp => (∀ m ∈ s.accessMinted, m.2 ≠ inp.accessJti) ∧ ∀ m ∈ s.refreshMinted, m.2 ≠ inp.jti
  | .refresh _ _ inp => (∀ m ∈ s.accessMinted, m.2 ≠ inp.accessJti) ∧ ∀ m ∈ s.refreshMinted, m.2 ≠ inp.jti
  | _ => True

instance (s : Platform) : DecidablePred (Fresh s)
  | .login .. | .refresh .. => inferInstanceAs (Decidable (_ ∧ _))
  | .logout .. | .revoke .. | .expire _ | .restart _ => .isTrue trivial

/-- An access token of tenant `a` finds no user in a request to `b`, and a refresh token of `a` is not exchanged at `b`. -/
def Isolated (s : Platform) (a b : String) : Prop :=
  (∀ mw req p, req.tenantSlug = some b → AuthMiddleware.decodeAccess mw req.token = some p → (a, p.jti) ∈ s.accessMinted →
    mw.resolveRequestUser req s.allowlist = none) ∧
  ∀ inp p, env.decode (RefreshInput.token inp) = .ok p → (a, p.jti) ∈ s.refreshMinted → ∀ tokens t,
    (svc.refresh env inp).run (s.tables b) ≠ .ok (.success tokens) t

/-! ### The invariant -/

/-- No jti has been made for two tenants. -/
def OneTenant (minted : List (String × String)) : Prop := ∀ m ∈ minted, ∀ m' ∈ minted, m.2 = m'.2 → m.1 = m'.1

/-- What is allowed or in a session table has been made for that tenant, and no jti for two of them. -/
structure Sound (s : Platform) : Prop where
  redis : ∀ slug u jti, (redisKey (some slug) u, jti) ∈ s.allowlist.redis → (slug, jti) ∈ s.accessMinted
  store : ∀ p slug u jti, (p, (some slug, u), jti) ∈ s.allowlist.store → (slug, jti) ∈ s.accessMinted
  sessions : ∀ slug, ∀ r ∈ (s.tables slug).sessions, (slug, r.jti) ∈ s.refreshMinted
  access : OneTenant s.accessMinted
  refresh : OneTenant s.refreshMinted

section
variable {svc : AuditService} {env : TokenEnv} {s : Platform} {site : Site} {slug : String} {t u : SessionTables}

theorem OneTenant.cons {minted : List (String × String)} (h : OneTenant minted) {jti : String} (fresh : ∀ m ∈ minted, m.2 ≠ jti)
    (slug : String) : OneTenant ((slug, jti) :: minted) := by
  intro m mem m' mem' same
  rcases List.mem_cons.mp mem with rfl | old
  · rcases List.mem_cons.mp mem' with rfl | old'
    · rfl
    · exact absurd same.symm (fresh m' old')
  · rcases List.mem_cons.mp mem' with rfl | old'
    · exact absurd same (fresh m old)
    · exact h m old m' old' same

/-- The jtis of a table are old ones, and perhaps a new one. -/
def JtisFrom (t u : SessionTables) (jti : String) : Prop := ∀ r ∈ u.sessions, (∃ r₀ ∈ t.sessions, r.jti = r₀.jti) ∨ r.jti = jti

theorem Weakens.jtisFrom {f : SessionRow → SessionRow} (h : Weakens f) (same : Same { t with sessions := t.sessions.map f } u)
    (jti : String) : JtisFrom t u jti := by
  intro r mem
  rw [same.sessions] at mem
  obtain ⟨r₀, old, rfl⟩ := List.mem_map.mp mem
  exact .inl ⟨r₀, old, h.jti r₀⟩

theorem Weakens.jtisFrom_create {f : SessionRow → SessionRow} (h : Weakens f) {row : SessionRow}
    (same : Same (SessionTables.create { t with sessions := t.sessions.map f } row) u) : JtisFrom t u row.jti := by
  intro r mem
  rw [same.sessions] at mem
  rcases List.mem_append.mp mem with old | new
  · obtain ⟨r₀, before, rfl⟩ := List.mem_map.mp old
    exact .inl ⟨r₀, before, h.jti r₀⟩
  · rw [List.mem_singleton.mp new]
    exact .inr rfl

theorem Same.jtisFrom (same : Same t u) (jti : String) : JtisFrom t u jti := by
  intro r mem
  exact .inl ⟨r, same.sessions ▸ mem, rfl⟩

/-- Only rows whose jtis are known are in a schema that is written. -/
theorem Sound.stored (h : Sound s) {jti : String} (jtis : JtisFrom (s.tables slug) t jti) :
    ∀ b, ∀ r ∈ ((s.store slug t).tables b).sessions, (b, r.jti) ∈ s.refreshMinted ∨ b = slug ∧ r.jti = jti := by
  intro b r mem
  by_cases own : b = slug
  · subst own
    simp only [Platform.store, Function.update_self] at mem
    rcases jtis r mem with ⟨r₀, old, same⟩ | new
    · exact .inl (same ▸ h.sessions b r₀ old)
    · exact .inr ⟨rfl, new⟩
  · simp only [Platform.store, Function.update_of_ne own] at mem
    exact .inl (h.sessions b r mem)

theorem Sound.stores (h : Sound s) (known : ∀ jti, JtisFrom (s.tables slug) t jti) : Sound (s.store slug t) where
  redis := h.redis
  store := h.store
  sessions b r mem := by
    -- A jti that is not the one of this row.
    rcases h.stored (known (r.jti ++ "'")) b r mem with old | ⟨-, new⟩
    · exact old
    · have longer := congrArg String.length new
      simp at longer
  access := h.access
  refresh := h.refresh

/-- Allowing a token of the tenant. -/
theorem Sound.mint (h : Sound s) {jti accessJti : String} {user : Option Nat} (jtis : JtisFrom (s.tables slug) t jti)
    (freshAccess : ∀ m ∈ s.accessMinted, m.2 ≠ accessJti) (fresh : ∀ m ∈ s.refreshMinted, m.2 ≠ jti) :
    Sound ((s.store slug t).mint site slug jti accessJti user) where
  redis b v jti' mem := by
    cases user with
    | none => exact List.mem_cons_of_mem _ (h.redis b v jti' mem)
    | some user =>
      simp only [Platform.mint, add] at mem
      split at mem
      · rcases Finset.mem_insert.mp mem with new | old
        · obtain ⟨key, rfl⟩ := Prod.mk.injEq .. ▸ new
          have own : b = slug := (redisKey_inj.mp key).1
          rw [own]
          exact List.mem_cons_self
        · exact List.mem_cons_of_mem _ (h.redis b v jti' old)
      · exact List.mem_cons_of_mem _ (h.redis b v jti' mem)
  store p b v jti' mem := by
    cases user with
    | none => exact List.mem_cons_of_mem _ (h.store p b v jti' mem)
    | some user =>
      simp only [Platform.mint, add] at mem
      split at mem
      · rcases Finset.mem_insert.mp mem with new | old
        · cases new
          exact List.mem_cons_self
        · exact List.mem_cons_of_mem _ (h.store p b v jti' old)
      · exact List.mem_cons_of_mem _ (h.store p b v jti' mem)
  sessions b r mem := by
    rcases h.stored jtis b r mem with old | ⟨rfl, new⟩
    · exact List.mem_cons_of_mem _ old
    · rw [new]
      exact List.mem_cons_self
  access := h.access.cons freshAccess slug
  refresh := h.refresh.cons fresh slug

/-- A smaller allowlist. -/
theorem Sound.drop (h : Sound s) {allowlist : TokenAllowlist.State} (redis : ∀ e ∈ allowlist.redis, e ∈ s.allowlist.redis)
    (store : ∀ e ∈ allowlist.store, e ∈ s.allowlist.store) : Sound { s with allowlist } where
  redis slug v jti mem := h.redis slug v jti (redis _ mem)
  store p slug v jti mem := h.store p slug v jti (store _ mem)
  sessions := h.sessions
  access := h.access
  refresh := h.refresh

theorem Sound.revoke (h : Sound s) (site : Site) (slug : String) (user : Nat) :
    Sound { s with allowlist := TokenAllowlist.removeByUser site (some slug) user s.allowlist } := by
  refine h.drop (fun e mem => ?_) fun e mem => ?_
  · simp only [removeByUser] at mem
    split at mem
    · exact (Finset.mem_filter.mp mem).1
    · exact mem
  · simp only [removeByUser] at mem
    split at mem
    · exact (Finset.mem_filter.mp mem).1
    · exact mem

theorem refreshed_jtis {inp : RefreshInput} {result : RefreshResult} (h : Refreshed env inp t result u) : JtisFrom t u inp.jti := by
  cases h with
  | refused same _ => exact Same.jtisFrom same _
  | reused _ _ same => exact Weakens.jtisFrom (weakens_invalidateAll _) same _
  | expired _ _ _ same => exact Weakens.jtisFrom (weakens_update _) same _
  | rotated _ _ _ _ _ same => exact Weakens.jtisFrom_create (weakens_update _) same

/-- A refresh that is refused adds no session. -/
theorem refused_jtis {inp : RefreshInput} {reason : RefreshFailReason} (h : Refreshed env inp t (.failed reason) u) (jti : String) :
    JtisFrom t u jti := by
  cases h with
  | refused same _ => exact Same.jtisFrom same _
  | reused _ _ same => exact Weakens.jtisFrom (weakens_invalidateAll _) same _
  | expired _ _ _ same => exact Weakens.jtisFrom (weakens_update _) same _

theorem logout_jtis (svc : AuditService) (env : TokenEnv) (inp : LogoutInput) (t : SessionTables) (jti : String) :
    JtisFrom t (after (svc.logout env inp) t) jti := by
  have spec : Returns (· = t) (svc.logout env inp) _ _ := svc.logout_returns
  have ends := spec t rfl
  cases run : (svc.logout env inp).run t with
  | ok done v =>
    rw [run] at ends
    rw [after_of_ok run]
    cases ends with
    | returned ended =>
      rcases ended with same | ⟨rec, -, same⟩
      · exact Same.jtisFrom same _
      · exact Weakens.jtisFrom (weakens_update rec) same _
  | error e v =>
    rw [run] at ends
    cases ends with
    | raised same =>
      subst same
      simp only [after, run]
      exact Same.jtisFrom (.refl _) _

/-! ### Steps and runs -/

theorem Sound.step (h : Sound s) {op : Op} (fresh : Fresh s op) : Sound (step svc env s op) := by
  cases op with
  | login site slug inp =>
    simp only [TenantIsolation.step]
    have spec : Returns (· = s.tables slug) (issueTokensForUser env inp) _ _ := issueTokens_returns inp
    have ends := spec _ rfl
    split
    · next tokens t run =>
      rw [run] at ends
      cases ends with
      | returned ended =>
        obtain ⟨-, -, same⟩ := ended
        exact h.mint (Weakens.jtisFrom_create (weakens_invalidateAll inp.user.id) same) fresh.1 fresh.2
    · exact h
  | refresh site slug inp =>
    simp only [TenantIsolation.step]
    have spec : Returns (· = s.tables slug) (svc.refresh env inp) _ _ := svc.refresh_returns
    have ends := spec _ rfl
    split
    · next tokens t run =>
      rw [run] at ends
      cases ends with
      | returned ended => exact h.mint (refreshed_jtis ended) fresh.1 fresh.2
    · next reason t run =>
      rw [run] at ends
      cases ends with
      | returned ended => exact h.stores (refused_jtis ended)
    · exact h
  | logout site slug inp user =>
    have stored := h.stores (logout_jtis svc env inp (s.tables slug))
    simp only [TenantIsolation.step]
    cases user with
    | none => exact stored
    | some user => exact stored.revoke site slug user
  | revoke site slug user => exact h.revoke site slug user
  | expire key => exact h.drop (fun e mem => (Finset.mem_filter.mp mem).1) fun e mem => mem
  | restart process => exact h.drop (fun e mem => mem) fun e mem => (Finset.mem_filter.mp mem).1

theorem Sound.isolated (h : Sound s) {a b : String} (apart : a ≠ b) : Isolated svc env s a b := by
  refine ⟨fun mw req p tenant decoded minted => ?_, fun inp p decoded minted tokens t run => ?_⟩
  · have refused : mw.allowed req s.allowlist = none := by
      unfold AuthMiddleware.allowed
      rw [decoded, Option.filter_eq_none_iff]
      rintro _ ⟨⟩ allowed
      have allowed : isAllowed req.site (some b) p.sub p.jti s.allowlist = true := by
        rw [tenant] at allowed
        exact (Bool.and_eq_true_iff.mp allowed).2
      refine apart (h.access _ minted (b, p.jti) ?_ rfl)
      unfold isAllowed at allowed
      split at allowed
      · exact h.redis b p.sub p.jti (of_decide_eq_true allowed)
      · exact h.store _ b p.sub p.jti (of_decide_eq_true (Bool.and_eq_true_iff.mp allowed).2)
    simp [AuthMiddleware.resolveRequestUser, refused]
  · have spec : Returns (· = s.tables b) (svc.refresh env inp) _ _ := svc.refresh_returns
    have ends := spec _ rfl
    rw [run] at ends
    cases ends with
    | returned ended =>
      cases ended with
      | @rotated payload rec _ _ verified typ found valid new same =>
        obtain ⟨mem, jti⟩ := getByJti_eq_some found
        have claims : payload = p := Except.ok.inj ((verify_eq_ok verified).symm.trans decoded)
        refine apart (h.refresh _ minted (b, p.jti) ?_ rfl)
        rw [← claims, ← jti]
        exact h.sessions b rec mem

theorem sound_start : Sound {} where
  redis _ _ _ mem := absurd mem (Finset.notMem_empty _)
  store _ _ _ _ mem := absurd mem (Finset.notMem_empty _)
  sessions _ _ mem := absurd mem List.not_mem_nil
  access := nofun
  refresh := nofun

end

/-- In every run in which jtis are given once, no token of a tenant is accepted at another one. -/
theorem tenants_isolated (svc : AuditService) (env : TokenEnv) (ops : List Op) (h : Always (step svc env) Fresh {} ops)
    (a b : String) (apart : a ≠ b) : Isolated svc env (final (step svc env) {} ops) a b :=
  (final_invariant Sound sound_start (fun _ _ sound fresh => sound.step fresh) h).isolated apart

/-- User 7 of both tenants logs in, with Redis and without it. -/
def sameUser : List Op :=
  [.login { redis := .up } "acme" { user := owner, jti := "j1", accessJti := "a1", now := 0 },
    .login { redis := .absent } "other" { user := owner, jti := "j2", accessJti := "a2", now := 0 }]

theorem tenants_isolated_same_user : Isolated proxy twoTokens (final (step proxy twoTokens) {} sameUser) "acme" "other" :=
  tenants_isolated proxy twoTokens sameUser (by decide) "acme" "other" (by decide)

end NyzRating.Auth.TenantIsolation
