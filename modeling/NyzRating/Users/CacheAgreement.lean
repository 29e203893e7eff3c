import NyzRating.Lib.Run
import NyzRating.Users.Outcomes

/-!
# The user cache

Where the middleware takes the user from the cache, the database would have given one with the same role and version. A change
of an account that does not forget the entry breaks this, unless the entry is an old one that no token fits any more.
-/

namespace NyzRating.Users

open Runs Auth.Refresh

/-! ### Statement -/

/-- The user of the request, where an entry of the cache decides. -/
def World.cachedUser (env : LoginEnv) (w : World) (b : Bearer) : Option User :=
  (w.allowed env b).bind fun p => (w.getCachedUser p.sub).1.filter (current b p)

/-- The user of the request, where the database decides. -/
def World.storedUser (env : LoginEnv) (w : World) (b : Bearer) : Option User :=
  (w.allowed env b).bind fun p => (w.fetchUser p.sub).filter (current b p)

/-- Nobody else signs access tokens for this tenant. -/
def World.Authentic (env : LoginEnv) (w : World) (b : Bearer) : Prop :=
  ∀ p ∈ env.decodeAccess b.token, p ∈ w.signedAccess ∨ p.jti ∉ w.allowlist p.sub

def World.CacheAgrees (env : LoginEnv) (w : World) : Prop := ∀ b user, w.Authentic env b → w.cachedUser env b = some user →
  ∃ stored, w.storedUser env b = some stored ∧ stored.role = user.role ∧ stored.securityVersion = user.securityVersion

/-- The identifier that is drawn for an access token. -/
def Op.accessJti : Op → Option String
  | .refresh inp => some inp.accessJti
  | op => op.tokens.map (·.accessJti)

/-- It has not been drawn before. -/
def World.DrawsNew (w : World) (op : Op) : Prop := ∀ jti ∈ op.accessJti, ∀ p ∈ w.signedAccess, p.jti ≠ jti

/-- The user whose account the request changes without a word to the cache. -/
def World.unannounced (env : LoginEnv) (w : World) : Op → Option Nat
  | .login inp => w.tables.lockedBy env inp
  | .setPassword inp => w.tables.linkOwner inp
  | op => w.authenticatorSet env op

/-- The user has an entry of the account's current version. -/
def World.Cached (w : World) (id : Nat) : Prop := ∃ entry ∈ w.cache id, ∃ a ∈ w.tables.accounts id, a.securityVersion = entry.securityVersion

def World.Announces (env : LoginEnv) (w : World) (op : Op) : Prop := ∀ id ∈ w.unannounced env op, ¬w.Cached id

/-! ### Entries -/

/-- What the entry says holds of the account. -/
def World.Current (w : World) (id : Nat) (entry : CachedUser) : Prop :=
  ∃ a ∈ w.tables.accounts id, a.enabled = true ∧ a.role = entry.role ∧ a.securityVersion = entry.securityVersion

/-- The entry has an old version, which no allowed token has. -/
structure World.Outdated (w : World) (id : Nat) (entry : CachedUser) : Prop where
  old : ∃ a ∈ w.tables.accounts id, entry.securityVersion < a.securityVersion
  unused : ∀ p ∈ w.signedAccess, p.sub = id → p.jti ∈ w.allowlist id → p.userVer ≠ entry.securityVersion

structure Agreed (w : World) : Prop where
  keyed : w.tables.Keyed
  cacheKeyed : w.CacheKeyed
  listed : ∀ id, ∀ jti ∈ w.allowlist id, ∃ p ∈ w.signedAccess, p.jti = jti
  entries : ∀ id entry, w.cache id = some entry → w.Current id entry ∨ w.Outdated id entry

section
variable {env : LoginEnv} {caller : Option User} {w w' : World} {op : Op} {event : Event} {id : Nat} {entry : CachedUser}
  {p : AccessPayload}

theorem World.Current.cached (h : w.Current id entry) (stored : w.cache id = some entry) : w.Cached id := by
  obtain ⟨a, found, -, -, version⟩ := h
  exact ⟨entry, stored, a, found, version⟩

theorem World.Outdated.kept (h : w.Outdated id entry) (account : Refines w.tables w'.tables event) (loses : Loses w w') :
    w'.Outdated id entry where
  old := by
    obtain ⟨a, found, version⟩ := h.old
    obtain ⟨b, found', version', -⟩ := Accounts.version_kept account.allowed found
    exact ⟨b, account.accounts ▸ found', Int.lt_of_lt_of_le version version'⟩
  unused p mem own allowed := by
    rw [loses.signedAccess] at mem
    rcases loses.allowlist id with kept | gone
    · exact h.unused p mem own (kept ▸ allowed)
    · rw [gone] at allowed
      cases allowed

theorem World.Current.kept (h : w.Current id entry) (account : Refines w.tables w'.tables event) (other : event.subject ≠ some id) :
    w'.Current id entry := by
  obtain ⟨a, found, holds⟩ := h
  refine ⟨a, ?_, holds⟩
  rw [account.accounts, Accounts.apply_of_ne other]
  exact found

/-- Entries and tokens are lost, and the account of one user is changed: his entry is lost as well, is not one of the current
    version, or has become an old one for which no token is left. -/
theorem Agreed.loses (h : Agreed w) (account : Refines w.tables w'.tables event) (loses : Loses w w')
    (own : ∀ id entry, event.subject = some id → w'.cache id = some entry → w.cache id = some entry → w.Current id entry →
      w'.Current id entry ∨ w'.Outdated id entry) : Agreed w' where
  keyed := account.keyed
  cacheKeyed := h.cacheKeyed.of_loses loses.cache
  listed id jti mem := by
    rw [loses.signedAccess]
    rcases loses.allowlist id with kept | gone
    · exact h.listed id jti (kept ▸ mem)
    · rw [gone] at mem
      cases mem
  entries id entry stored := by
    have before : w.cache id = some entry := by
      rcases loses.cache id with kept | gone
      · exact kept ▸ stored
      · rw [gone] at stored
        cases stored
    rcases h.entries id entry before with current | outdated
    · by_cases subject : event.subject = some id
      · exact own id entry subject stored before current
      · exact .inl (current.kept account subject)
    · exact .inr (outdated.kept account loses)

/-- A token is handed out, and allowed if it has the version of the account. -/
structure Granted (w w' : World) (p : AccessPayload) : Prop where
  cache : w'.cache = w.cache
  account : Refines w.tables w'.tables .none
  signedAccess : w'.signedAccess = w.signedAccess ++ [p]
  allowlist : w'.allowlist = w.allowlist ∨ w'.allowlist = Function.update w.allowlist p.sub (p.jti :: w.allowlist p.sub) ∧
    ∃ a ∈ w.tables.accounts p.sub, p.userVer = a.securityVersion

/-- What is allowed has been before, or is the new token. -/
theorem Granted.allowed (h : Granted w w' p) {jti : String} (mem : jti ∈ w'.allowlist id) : jti ∈ w.allowlist id ∨
    jti = p.jti ∧ ∃ a ∈ w.tables.accounts p.sub, p.userVer = a.securityVersion := by
  rcases h.allowlist with same | ⟨added, account⟩
  · exact .inl (same ▸ mem)
  · rw [added] at mem
    by_cases own : id = p.sub
    · subst own
      rw [Function.update_self] at mem
      rcases List.mem_cons.mp mem with new | old
      · exact .inr ⟨new, account⟩
      · exact .inl old
    · rw [Function.update_of_ne own] at mem
      exact .inl mem

theorem Agreed.granted (h : Agreed w) (granted : Granted w w' p) (new : ∀ q ∈ w.signedAccess, q.jti ≠ p.jti) : Agreed w' where
  keyed := granted.account.keyed
  cacheKeyed := by
    intro id entry stored
    rw [granted.cache] at stored
    exact h.cacheKeyed id entry stored
  listed id jti mem := by
    rw [granted.signedAccess]
    rcases granted.allowed mem with old | ⟨rfl, -⟩
    · obtain ⟨q, signed, own⟩ := h.listed id jti old
      exact ⟨q, List.mem_append_left _ signed, own⟩
    · exact ⟨p, List.mem_append_right _ List.mem_cons_self, rfl⟩
  entries id entry stored := by
    rw [granted.cache] at stored
    have accounts : w'.tables.accounts = w.tables.accounts := granted.account.accounts
    rcases h.entries id entry stored with current | ⟨⟨a, found, version⟩, unused⟩
    · exact .inl (current.kept granted.account (by simp [Event.subject]))
    · refine .inr ⟨⟨a, accounts ▸ found, version⟩, fun q mem own allowed => ?_⟩
      rw [granted.signedAccess] at mem
      rcases List.mem_append.mp mem with before | last
      · rcases granted.allowed allowed with old | ⟨same, -⟩
        · exact unused q before own old
        · exact absurd same (new q before)
      · obtain rfl := List.mem_singleton.mp last
        rcases granted.allowed allowed with old | ⟨-, a', found', same⟩
        · obtain ⟨q', before, same⟩ := h.listed id q.jti old
          exact absurd same (new q' before)
        · rw [own, Option.mem_def.mp found] at found'
          obtain rfl := Option.some.inj found'
          exact fun equal => absurd version (by omega)

theorem Agreed.looked (h : Agreed w) (looked : Looked w w') : Agreed w' where
  keyed := looked.tables ▸ h.keyed
  cacheKeyed := looked.cacheKeyed h.cacheKeyed
  listed := by
    rw [looked.allowlist, looked.signedAccess]
    exact h.listed
  entries id entry stored := by
    rcases looked.cache id entry stored with old | ⟨user, found, active, rfl⟩
    · refine (h.entries id entry old).imp (fun current => ?_) fun outdated => ?_
      · unfold World.Current
        rw [looked.tables]
        exact current
      · refine ⟨looked.tables ▸ outdated.old, ?_⟩
        rw [looked.signedAccess, looked.allowlist]
        exact outdated.unused
    · refine .inl ⟨user.account, looked.tables ▸ Tables.accounts_of_getById found, ?_, rfl, rfl⟩
      rw [Account.enabled, User.account, active]
      rfl

theorem handOut_granted {inp : TokenInput} {user : User} {t : Tables} (found : w.tables.getById user.id = some user)
    (account : Refines w.tables t .none) : Granted w ({ w with tables := t }.handOut env inp user) (inp.access env.tokens user.token) where
  cache := rfl
  account := account
  signedAccess := rfl
  allowlist := .inr ⟨rfl, user.account, Tables.accounts_of_getById found, rfl⟩

theorem refreshed_granted {inp : RefreshRequest} {tokens : RefreshSuccess} {s : SessionTables} {p : Payload} {rec : SessionRow}
    (account : Refines w.tables { w.tables with refreshTokens := s } .none) (rotated : Rotated env w inp tokens s p rec) :
    Granted w { w.refreshed env inp tokens with tables := { w.tables with refreshTokens := s } } (w.refreshedAccess env inp p) where
  cache := rfl
  account := account
  signedAccess := by
    have claims : World.refreshClaims env inp = some p := by
      unfold World.refreshClaims
      rw [rotated.verified]
      rfl
    simp only [World.refreshed, claims, Option.map_some, Option.toList_some]
  allowlist := by
    have user : tokens.user = (w.tables.getById p.sub).map User.token := rotated.user
    cases found : w.tables.getById p.sub with
    | none =>
      refine .inl ?_
      simp only [World.refreshed, user, found, Option.map_none]
    | some u =>
      have own : u.id = p.sub := Tables.getById_id found
      refine .inr ⟨?_, u.account, Tables.accounts_of_getById found, ?_⟩
      · simp only [World.refreshed, user, found, Option.map_some, User.token, own]
        rfl
      · simp only [World.refreshedAccess, RefreshInput.userVer, RefreshRequest.input, found, Option.map_some, Option.getD_some]
        rfl

theorem accessJti_of_tokens {inp : TokenInput} (tokens : op.tokens = some inp) : op.accessJti = some inp.accessJti := by
  cases op with
  | refresh _ => cases tokens
  | _ => exact congrArg (Option.map (·.accessJti)) tokens

theorem unannounced_of_authenticatorSet (completed : w.authenticatorSet env op = some id) : w.unannounced env op = some id := by
  cases op with
  | login _ => cases completed
  | setPassword _ => cases completed
  | _ => exact completed

theorem Outcome.agreed (h : Outcome env caller w op w') (agreed : Agreed w) (new : w.DrawsNew op) (announces : w.Announces env op) :
    Agreed w' := by
  have forgets : ∀ {id : Nat} {entry : CachedUser} {P : Prop}, w'.cache id = none → w'.cache id = some entry → P := by
    intro id entry P forgotten stored
    rw [forgotten] at stored
    cases stored
  cases h with
  | quiet loses account _ => exact agreed.loses account loses fun _ _ subject => (by cases subject)
  | locked locks loses account _ =>
    refine agreed.loses account loses fun id entry subject _ stored current => ?_
    obtain rfl := Option.some.inj subject
    exact absurd (current.cached stored) (announces _ locks)
  | @handedOut _ inp user t tokens found _ account _ =>
    exact agreed.granted (handOut_granted found account) fun q mem => new inp.accessJti (accessJti_of_tokens tokens) q mem
  | refreshed account rotated => exact agreed.granted (refreshed_granted account rotated) fun q mem => new _ rfl q mem
  | added loses account _ =>
    refine agreed.loses account loses fun id entry subject _ _ current => ?_
    obtain rfl := Option.some.inj subject
    obtain ⟨a, found, -⟩ := current
    rw [account.allowed.1] at found
    cases found
  | edited loses forgotten _ account _ =>
    refine agreed.loses account loses fun id entry subject stored _ _ => ?_
    obtain rfl := Option.some.inj subject
    exact forgets forgotten stored
  | deleted loses revoked account _ =>
    refine agreed.loses account loses fun id entry subject _ _ current => .inr ?_
    obtain rfl := Option.some.inj subject
    obtain ⟨a, found, -, -, version⟩ := current
    refine ⟨⟨a.delete, ?_, ?_⟩, fun p _ _ allowed => ?_⟩
    · rw [account.accounts]
      exact Accounts.set_self.trans (congrArg (Option.map _) found)
    · exact version ▸ Int.lt_add_one_of_le (Int.le_refl _)
    · rw [revoked] at allowed
      cases allowed
  | registered link loses account _ =>
    refine agreed.loses account loses fun id entry subject _ stored current => ?_
    obtain rfl := Option.some.inj subject
    exact absurd (current.cached stored) (announces _ link)
  | firstPassword loses forgotten account _ =>
    refine agreed.loses account loses fun id entry subject stored _ _ => ?_
    obtain rfl := Option.some.inj subject
    exact forgets forgotten stored
  | @firstLogin inp demo refusal tokens v user t loses forgotten account _ found account' _ =>
    have seen : Agreed v := by
      refine agreed.loses account loses fun id entry subject stored _ _ => ?_
      obtain rfl := Option.some.inj subject
      rw [forgotten] at stored
      cases stored
    have own : user.id = inp.userId := Tables.getById_id found
    exact seen.granted (handOut_granted (own ▸ found) account') fun q mem => new _ rfl q (loses.signedAccess ▸ mem)
  | revoked completed loses account _ =>
    refine agreed.loses account loses fun id entry subject _ stored current => ?_
    obtain rfl := Option.some.inj subject
    exact absurd (current.cached stored) (announces _ (unannounced_of_authenticatorSet completed))
  | overwritten _ _ loses forgotten account _ =>
    refine agreed.loses account loses fun id entry subject stored _ _ => ?_
    obtain rfl := Option.some.inj subject
    exact forgets forgotten stored

/-- Where the middleware looks anything up, the endpoint announces its changes and hands out no tokens. -/
theorem Agreed.step (h : Agreed w) (new : w.DrawsNew op) (announces : w.Announces env op) : Agreed (w.step env op) := by
  have looked : Looked w (w.seen env op) := seen_looked h.cacheKeyed op
  have seen : Agreed (w.seen env op) := h.looked looked
  refine (step_outcome env w h.keyed h.cacheKeyed op).agreed seen ?_ ?_
  · unfold World.DrawsNew
    rw [looked.signedAccess]
    exact new
  · cases op with
    | logout inp => exact fun _ gone => absurd gone (Option.not_mem_none _)
    | updateMe b inp => exact fun _ gone => absurd gone (Option.not_mem_none _)
    | request b => exact fun _ gone => absurd gone (Option.not_mem_none _)
    | _ => exact announces

theorem getCachedUser_eq_some {user : User} : (w.getCachedUser id).1 = some user ↔
    ∃ entry, w.cache id = some entry ∧ entry.isActive = true ∧ user = userFromCache entry := by
  unfold World.getCachedUser
  cases w.cache id with
  | none => simp
  | some entry =>
    cases active : entry.isActive with
    | false => simp [active]
    | true =>
      simp only [active, if_true, Option.some.injEq]
      constructor
      · rintro rfl
        exact ⟨entry, rfl, active, rfl⟩
      · rintro ⟨_, rfl, -, rfl⟩
        rfl

theorem Agreed.agrees (h : Agreed w) : w.CacheAgrees env := by
  intro b user authentic accepted
  obtain ⟨p, allowed, accepted⟩ := Option.bind_eq_some_iff.mp accepted
  obtain ⟨cached, versions⟩ := Option.filter_eq_some_iff.mp accepted
  obtain ⟨entry, stored, -, rfl⟩ := getCachedUser_eq_some.mp cached
  obtain ⟨decoded, holds⟩ := Option.filter_eq_some_iff.mp allowed
  have listed : p.jti ∈ w.allowlist p.sub := by simpa using (Bool.and_eq_true_iff.mp holds).2
  have signed : p ∈ w.signedAccess := (authentic p decoded).resolve_right fun unlisted => unlisted listed
  simp only [current, Bool.and_eq_true, decide_eq_true_eq] at versions
  rcases h.entries p.sub entry stored with ⟨a, found, enabled, role, version⟩ | outdated
  · rw [Account.enabled, Bool.and_eq_true] at enabled
    obtain ⟨u, query, same⟩ := Tables.getById_of_accounts found enabled.2
    subst same
    have fetched : w.fetchUser p.sub = some u := fetchUser_eq_some.mpr ⟨query, enabled.1⟩
    refine ⟨u, Option.bind_eq_some_iff.mpr ⟨p, allowed, Option.filter_eq_some_iff.mpr ⟨fetched, ?_⟩⟩, role, version⟩
    simp only [current, Bool.and_eq_true, decide_eq_true_eq]
    exact ⟨versions.1.trans version.symm, versions.2⟩
  · exact absurd versions.1 (outdated.unused p signed rfl listed)

end

/-! ### The middleware -/

theorem getUser_eq (w : World) (id : Nat) : (w.getUser id).1 = (w.getCachedUser id).1.or (w.fetchUser id) := by
  have loaded : ∀ v : World, v.tables = w.tables → (v.loadUser id).1 = w.fetchUser id := by
    intro v tables
    unfold World.loadUser World.fetchUser
    rw [tables]
    cases (w.tables.getById id).filter (·.isActive) with
    | none => rfl
    | some user => rfl
  unfold World.getUser World.getCachedUser
  cases w.cache id with
  | none => exact loaded w rfl
  | some entry =>
    cases active : entry.isActive with
    | true =>
      simp only [active, if_true]
      rfl
    | false =>
      simp only [active, Bool.false_eq_true, if_false]
      exact loaded _ rfl

/-- The middleware asks the database where the cache has no active user, and only there. -/
theorem authenticate_eq (env : LoginEnv) (w : World) (b : Bearer) : (w.authenticate env b).1 =
    if ((w.allowed env b).bind fun p => (w.getCachedUser p.sub).1).isSome then w.cachedUser env b else w.storedUser env b := by
  unfold World.authenticate World.cachedUser World.storedUser
  cases w.allowed env b with
  | none => rfl
  | some p =>
    simp only [getUser_eq, Option.bind_some]
    cases (w.getCachedUser p.sub).1 with
    | none => rfl
    | some user => rfl

/-! ### Runs -/

/-- In every run in which each change of an account comes with a word to the cache, or finds no entry of the current version, the
    cache agrees with the database. -/
theorem cache_agrees (env : LoginEnv) (w : World) (start : Agreed w) (ops : List Op)
    (new : Always (World.step env) World.DrawsNew w ops) (announces : Always (World.step env) (World.Announces env) w ops) :
    (final (World.step env) w ops).CacheAgrees env := by
  have agreed : Agreed (final (World.step env) w ops) :=
    final_invariant Agreed start (fun _ _ h ok => h.step ok.1 ok.2) (new.and announces)
  exact agreed.agrees

theorem twoUsers_agreed : Agreed twoUsers where
  keyed := ⟨by decide, by decide⟩
  cacheKeyed := fun _ _ stored => absurd stored (Option.not_mem_none _)
  listed := fun _ _ mem => absurd mem List.not_mem_nil
  entries := fun _ _ stored => absurd stored (Option.not_mem_none _)

def firstBearer : Bearer := { token := "a1", now := 60000000 }

instance (w : World) (op : Op) : Decidable (w.DrawsNew op) :=
  inferInstanceAs (Decidable (∀ jti ∈ op.accessJti, ∀ p ∈ w.signedAccess, p.jti ≠ jti))

instance (env : LoginEnv) (w : World) (op : Op) : Decidable (w.Announces env op) :=
  inferInstanceAs (Decidable (∀ id ∈ w.unannounced env op, ¬∃ entry ∈ w.cache id, ∃ a ∈ w.tables.accounts id,
    a.securityVersion = entry.securityVersion))

/-- User 7 logs in, and her next request fills the cache. -/
theorem cache_agrees_after_request :
    (final (World.step plainEnv) twoUsers [signIn, .request firstBearer]).CacheAgrees plainEnv ∧
      ((final (World.step plainEnv) twoUsers [signIn, .request firstBearer]).cachedUser plainEnv firstBearer).isSome :=
  ⟨cache_agrees plainEnv twoUsers twoUsers_agreed [signIn, .request firstBearer] (by decide +kernel) (by decide +kernel),
    by decide +kernel⟩

/-- She removes her authenticator, which voids her tokens. -/
def withoutAuthenticator : List Op := [signIn, .request firstBearer, .disableAuthenticator 7]

/-- The cache goes on accepting them. -/
theorem cache_disagrees : ¬∀ (w : World) (ops : List Op), Agreed w → Always (World.step plainEnv) World.DrawsNew w ops →
    (final (World.step plainEnv) w ops).CacheAgrees plainEnv := by
  intro h
  have agrees := h twoUsers withoutAuthenticator twoUsers_agreed (by decide +kernel)
  have authentic : (final (World.step plainEnv) twoUsers withoutAuthenticator).Authentic plainEnv firstBearer := by
    unfold World.Authentic
    decide +kernel
  have cached : ((final (World.step plainEnv) twoUsers withoutAuthenticator).cachedUser plainEnv firstBearer).isSome = true := by
    decide +kernel
  have stored : (final (World.step plainEnv) twoUsers withoutAuthenticator).storedUser plainEnv firstBearer = none := by
    decide +kernel
  obtain ⟨user, accepted⟩ := Option.isSome_iff_exists.mp cached
  obtain ⟨_, found, -⟩ := agrees firstBearer user authentic accepted
  rw [stored] at found
  cases found

end NyzRating.Users
