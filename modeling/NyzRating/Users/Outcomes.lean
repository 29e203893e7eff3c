import NyzRating.Users.Effects

/-!
# What a request comes to

The middleware first looks the user up, and may fill the cache. What the endpoint then does is one of few things.
-/

namespace NyzRating.Users

open Program Auth.Refresh

/-! ### The middleware -/

/-- The bearer token that the middleware looks at. -/
def Op.bearer : Op → Option Bearer
  | .logout inp => inp.bearer
  | .updateMe b _ => some b
  | .request b => some b
  | _ => none

/-- The user of the request. -/
def World.caller (env : LoginEnv) (w : World) (op : Op) : Option User := op.bearer.bind fun b => (w.authenticate env b).1

/-- The world when the middleware is done. -/
def World.seen (env : LoginEnv) (w : World) (op : Op) : World :=
  match op.bearer with
  | none => w
  | some b => (w.authenticate env b).2

/-- An entry that was written from the user's row. -/
def World.Fresh (w : World) (id : Nat) (entry : CachedUser) : Prop :=
  ∃ user, w.tables.getById id = some user ∧ user.isActive = true ∧ entry = userToCache user

/-- The middleware writes the cache only: entries stay, go, or are made from the row. -/
structure Looked (w w' : World) : Prop where
  tables : w'.tables = w.tables
  cache : ∀ id entry, w'.cache id = some entry → w.cache id = some entry ∨ w.Fresh id entry
  allowlist : w'.allowlist = w.allowlist
  flags : w'.permissionsChanged = w.permissionsChanged
  signed : w'.signed = w.signed
  signedAccess : w'.signedAccess = w.signedAccess

section
variable {env : LoginEnv} {w w' : World} {id : Nat} {user : User} {b : Bearer}

theorem Looked.refl (w : World) : Looked w w := ⟨rfl, fun _ _ => .inl, rfl, rfl, rfl, rfl⟩

theorem Looked.update (w : World) (id : Nat) {entry : Option CachedUser} (fresh : ∀ e ∈ entry, w.Fresh id e) :
    Looked w { w with cache := Function.update w.cache id entry } := by
  refine ⟨rfl, fun j e stored => ?_, rfl, rfl, rfl, rfl⟩
  change Function.update w.cache id entry j = some e at stored
  by_cases same : j = id
  · subst same
    rw [Function.update_self] at stored
    exact .inr (fresh e stored)
  · rw [Function.update_of_ne same] at stored
    exact .inl stored

theorem Looked.trans {v : World} (h : Looked w v) (h' : Looked v w') : Looked w w' where
  tables := h'.tables.trans h.tables
  cache id entry stored := by
    rcases h'.cache id entry stored with old | fresh
    · exact h.cache id entry old
    · unfold World.Fresh at fresh
      rw [h.tables] at fresh
      exact .inr fresh
  allowlist := h'.allowlist.trans h.allowlist
  flags := h'.flags.trans h.flags
  signed := h'.signed.trans h.signed
  signedAccess := h'.signedAccess.trans h.signedAccess

theorem fetchUser_eq_some : w.fetchUser id = some user ↔ w.tables.getById id = some user ∧ user.isActive = true :=
  Option.filter_eq_some_iff

end

/-- Entries of the cache belong to the user of their key. -/
def World.CacheKeyed (w : World) : Prop := ∀ id entry, w.cache id = some entry → entry.id = id

/-- The user of a request has an entry, from which he was made or which was made from him. -/
structure Known (w : World) (id : Nat) (user : User) : Prop where
  key : user.id = id
  active : user.isActive = true
  stored : ∃ entry, w.cache id = some entry ∧ entry.role = user.role ∧ entry.securityVersion = user.securityVersion

section
variable {env : LoginEnv} {w w' : World} {id : Nat} {user : User} {b : Bearer}

theorem Looked.cacheKeyed (looked : Looked w w') (keyed : w.CacheKeyed) : w'.CacheKeyed := by
  intro id entry stored
  rcases looked.cache id entry stored with old | ⟨user, found, -, rfl⟩
  · exact keyed id entry old
  · exact Tables.getById_id found

/-- Entries are lost only. -/
theorem World.CacheKeyed.of_loses (keyed : w.CacheKeyed) (loses : ∀ id, w'.cache id = w.cache id ∨ w'.cache id = none) : w'.CacheKeyed := by
  intro j entry stored
  rcases loses j with kept | gone
  · exact keyed j entry (kept ▸ stored)
  · rw [gone] at stored
    cases stored

theorem loadUser_spec (w : World) (id : Nat) : Looked w (w.loadUser id).2 ∧
    ∀ user, (w.loadUser id).1 = some user → Known (w.loadUser id).2 id user := by
  unfold World.loadUser
  cases fetched : w.fetchUser id with
  | none => exact ⟨.refl w, fun _ gone => absurd gone (Option.not_mem_none _)⟩
  | some user =>
    obtain ⟨found, active⟩ := fetchUser_eq_some.mp fetched
    refine ⟨.update w id fun e stored => ⟨user, found, active, (Option.some.inj stored).symm⟩, ?_⟩
    intro user' loaded
    obtain rfl := Option.some.inj loaded
    exact ⟨Tables.getById_id found, active, userToCache user, Function.update_self _ _ _, rfl, rfl⟩

theorem getUser_spec (keyed : w.CacheKeyed) (id : Nat) : Looked w (w.getUser id).2 ∧
    ∀ user, (w.getUser id).1 = some user → Known (w.getUser id).2 id user := by
  unfold World.getUser World.getCachedUser
  cases stored : w.cache id with
  | none => exact loadUser_spec w id
  | some entry =>
    cases active : entry.isActive with
    | true =>
      simp only [active, if_true]
      refine ⟨.refl w, ?_⟩
      intro user cached
      obtain rfl := Option.some.inj cached
      exact ⟨keyed id entry stored, active, entry, stored, rfl, rfl⟩
    | false =>
      simp only [active, Bool.false_eq_true, if_false]
      obtain ⟨looked, known⟩ := loadUser_spec { w with cache := Function.update w.cache id none } id
      exact ⟨(Looked.update w id fun _ gone => absurd gone (Option.not_mem_none _)).trans looked, known⟩

theorem authenticate_spec (keyed : w.CacheKeyed) (b : Bearer) : Looked w (w.authenticate env b).2 ∧
    ∀ user, (w.authenticate env b).1 = some user → ∃ p, w.allowed env b = some p ∧ current b p user = true ∧
      Known (w.authenticate env b).2 p.sub user := by
  unfold World.authenticate
  cases allowed : w.allowed env b with
  | none => exact ⟨.refl w, fun _ gone => absurd gone (Option.not_mem_none _)⟩
  | some p =>
    obtain ⟨looked, known⟩ := getUser_spec keyed p.sub
    refine ⟨looked, fun user accepted => ?_⟩
    obtain ⟨found, current⟩ := Option.filter_eq_some_iff.mp accepted
    exact ⟨p, rfl, current, known user found⟩

theorem seen_looked (keyed : w.CacheKeyed) (op : Op) : Looked w (w.seen env op) := by
  unfold World.seen
  cases op.bearer with
  | none => exact .refl w
  | some b => exact (authenticate_spec keyed b).1

end

/-! ### A refresh that succeeds -/

/-- The token of the refresh is the current one of its user, its session is there and valid, and a new one takes its place. -/
structure Rotated (env : LoginEnv) (w : World) (inp : RefreshRequest) (tokens : RefreshSuccess) (s : SessionTables) (p : Payload)
    (rec : SessionRow) : Prop where
  verified : env.tokens.verify inp.token inp.now = .ok p
  typ : p.typ = "refresh"
  current : (inp.input w).current p = true
  user : tokens.user = (inp.input w).users p.sub
  found : w.tables.refreshTokens.getByJti p.jti = some rec
  valid : rec.valid = true
  fresh : ∀ r ∈ w.tables.refreshTokens.sessions, r.jti ≠ inp.jti
  same : Same ((w.tables.refreshTokens.update rec.invalidate).create ((inp.input w).row env.tokens p)) s

section
variable {env : LoginEnv} {w : World} {inp : RefreshRequest} {tokens : RefreshSuccess} {s : SessionTables}

/-- What a call says of its token when it returns new ones. -/
def Answers (env : TokenEnv) (inp : RefreshInput) (result : RefreshResult) : Prop :=
  ∀ tokens, result = .success tokens → ∃ p, env.verify inp.token inp.now = .ok p ∧ inp.current p = true ∧ tokens.user = inp.users p.sub

theorem refuse_answers {env : TokenEnv} {inp : RefreshInput} (svc : AuditService) {userId : Option Nat} {why : String}
    {reason : RefreshFailReason} :
    Returns (fun _ => True) (svc.refuse inp userId why reason) (fun result _ => Answers env inp result) fun _ => True :=
  .bind (R := fun _ _ => True) (.of_leads fun _ _ => trivial) fun _ => .pure fun _ _ _ => nofun

theorem refreshToken_answers {env : TokenEnv} {inp : RefreshInput} (svc : AuditService) :
    Returns (fun _ => True) (svc.refreshToken env inp) (fun result _ => Answers env inp result) fun _ => True := by
  have any : ∀ {α : Type} (m : SessionM α), Returns (fun _ => True) m (fun _ _ => True) fun _ => True := fun _ =>
    .of_leads fun _ _ => trivial
  unfold AuditService.refreshToken
  cases verified : env.verify inp.token inp.now with
  | error e =>
    cases e with
    | expired => exact refuse_answers svc
    | invalid => exact refuse_answers svc
    | other => exact .throw fun _ _ => trivial
  | ok p =>
    refine .ite (fun _ => refuse_answers svc) fun _ => .ite (fun _ => refuse_answers svc) fun current => ?_
    have current : inp.current p = true := Bool.not_eq_false _ ▸ current
    refine .bind (any _) fun t => ?_
    cases t.getByJti p.jti with
    | none => exact refuse_answers svc
    | some rec =>
      simp only [AuditService.refreshSession]
      refine .ite (fun _ => .ite (fun _ => refuse_answers svc) fun _ => ?_) fun _ => .ite (fun _ => ?_) fun _ => .ite (fun _ => ?_) fun _ => ?_
      · exact .bind (any _) fun _ => .bind (any _) fun _ => .pure fun _ _ _ same => by cases same
      · exact .bind (any _) fun _ => .bind (any _) fun _ => .pure fun _ _ _ same => by cases same
      · exact .bind (any _) fun _ => .pure fun _ _ _ same => by cases same
      · refine .bind (any _) fun _ => .bind (any _) fun _ => .bind (any _) fun _ => .pure ?_
        intro _ _ tokens same
        obtain rfl := RefreshResult.success.inj same
        exact ⟨p, verified, current, rfl⟩

theorem refresh_rotated (run : w.refresh env inp = .ok (.success tokens) s) : ∃ p rec, Rotated env w inp tokens s p rec := by
  have spec : Returns (· = w.tables.refreshTokens) (proxy.refresh env.tokens (inp.input w)) _ _ := proxy.refresh_returns
  have spec' : Returns (fun _ => True) (proxy.refreshToken env.tokens (inp.input w)) _ _ := refreshToken_answers proxy
  have ends := spec w.tables.refreshTokens rfl
  have ends' := spec' w.tables.refreshTokens trivial
  unfold World.refresh at run
  rw [run] at ends
  rw [AuditService.refresh, run_atomically] at run
  generalize (proxy.refreshToken env.tokens (inp.input w)).run w.tables.refreshTokens = body at ends' run
  cases ends' with
  | raised _ => cases run
  | @returned answer _ answers =>
    obtain ⟨rfl, -⟩ := EStateM.Result.ok.inj run
    obtain ⟨p, verified, current, user⟩ := answers tokens rfl
    cases ends with
    | returned ended =>
      cases ended with
      | @rotated p' rec _ _ verified' typ found valid fresh same =>
        obtain rfl : p = p' := Except.ok.inj (verified.symm.trans verified')
        exact ⟨p, rec, verified, typ, current, user, found, valid, fresh, same⟩

end

/-! ### Outcomes -/

/-- Entries of the stores go, and no tokens are handed out. -/
structure Loses (w w' : World) : Prop where
  cache : ∀ id, w'.cache id = w.cache id ∨ w'.cache id = none
  allowlist : ∀ id, w'.allowlist id = w.allowlist id ∨ w'.allowlist id = []
  signed : w'.signed = w.signed
  signedAccess : w'.signedAccess = w.signedAccess

/-- Sessions end, and none begins. -/
def Ended (s s' : SessionTables) : Prop := ∃ f, Weakens f ∧ Same { s with sessions := s.sessions.map f } s'

/-- What is drawn for the tokens that a request may hand out. -/
def Op.tokens : Op → Option TokenInput
  | .login inp => some inp.toTokenInput
  | .loginStep2 inp => some inp.tokens
  | .setInitialPassword _ _ _ tokens => some tokens
  | _ => none

/-- The user whose authenticator a request sets or removes, where it completes. -/
def World.authenticatorSet (env : LoginEnv) (w : World) : Op → Option Nat
  | .confirmAuthenticator inp => if (confirmAuthenticatorSetup env.auth w.tables inp).toBool then some inp.userId else none
  | .disableAuthenticator id => some id
  | _ => none

/-- What the endpoint, asked by `caller`, makes of the world in which it starts. -/
inductive Outcome (env : LoginEnv) (caller : Option User) (w : World) : Op → World → Prop
  | quiet {op : Op} {w' : World} (loses : Loses w w') (account : Refines w.tables w'.tables .none)
      (sessions : Ended w.tables.refreshTokens w'.tables.refreshTokens) : Outcome env caller w op w'
  | locked {inp : Step1Input} {id : Nat} {w' : World} (locks : w.tables.lockedBy env inp = some id) (loses : Loses w w')
      (account : Refines w.tables w'.tables (.locked id)) (sessions : w'.tables.refreshTokens = w.tables.refreshTokens) :
      Outcome env caller w (.login inp) w'
  | handedOut {op : Op} {inp : TokenInput} {user : User} {t : Tables} (tokens : op.tokens = some inp)
      (found : w.tables.getById user.id = some user) (active : user.isActive = true) (account : Refines w.tables t .none)
      (issued : Issued env.tokens inp user w.tables.refreshTokens t.refreshTokens) :
      Outcome env caller w op ({ w with tables := t }.handOut env inp user)
  | refreshed {inp : RefreshRequest} {tokens : RefreshSuccess} {s : SessionTables} {p : Payload} {rec : SessionRow}
      (account : Refines w.tables { w.tables with refreshTokens := s } .none) (rotated : Rotated env w inp tokens s p rec) :
      Outcome env caller w (.refresh inp) { w.refreshed env inp tokens with tables := { w.tables with refreshTokens := s } }
  | added {inp : CreateInput} {w' : World} (loses : Loses w w') (account : Refines w.tables w'.tables (.added w.tables.nextUserId inp.role))
      (sessions : w'.tables.refreshTokens = w.tables.refreshTokens) : Outcome env caller w (.create inp) w'
  | edited {inp : UpdateInput} {w' : World} (loses : Loses w w') (forgotten : w'.cache inp.userId = none)
      (revoked : inp.isActive.isSome = true ∨ inp.role.isSome = true → w'.allowlist inp.userId = [])
      (account : Refines w.tables w'.tables (.edited inp.userId inp.isActive inp.role))
      (sessions : w'.tables.refreshTokens = w.tables.refreshTokens.invalidateAllForUser inp.userId ∨
        w'.tables.refreshTokens = w.tables.refreshTokens ∧ w'.tables.accounts = w.tables.accounts) :
      Outcome env caller w (.update inp) w'
  | deleted {inp : DeleteInput} {w' : World} (loses : Loses w w') (revoked : w'.allowlist inp.userId = [])
      (account : Refines w.tables w'.tables (.deleted inp.userId))
      (sessions : w'.tables.refreshTokens = w.tables.refreshTokens.invalidateAllForUser inp.userId) :
      Outcome env caller w (.delete inp) w'
  | registered {inp : SetPasswordInput} {id : Nat} {promoted : Bool} {w' : World} (link : w.tables.linkOwner inp = some id)
      (loses : Loses w w') (account : Refines w.tables w'.tables (.registered id promoted))
      (sessions : w'.tables.refreshTokens = w.tables.refreshTokens) : Outcome env caller w (.setPassword inp) w'
  | firstPassword {inp : PasswordInput} {demo : Bool} {refusal : Option String} {tokens : TokenInput} {w' : World}
      (loses : Loses w w') (forgotten : w'.cache inp.userId = none) (account : Refines w.tables w'.tables (.raised inp.userId))
      (sessions : w'.tables.refreshTokens = w.tables.refreshTokens) :
      Outcome env caller w (.setInitialPassword inp demo refusal tokens) w'
  /-- The new tokens are handed out at once. -/
  | firstLogin {inp : PasswordInput} {demo : Bool} {refusal : Option String} {tokens : TokenInput} {v : World} {user : User}
      {t : Tables} (loses : Loses w v) (forgotten : v.cache inp.userId = none)
      (account : Refines w.tables v.tables (.raised inp.userId)) (sessions : v.tables.refreshTokens = w.tables.refreshTokens)
      (found : v.tables.getById inp.userId = some user) (account' : Refines v.tables t .none)
      (issued : Issued env.tokens tokens user v.tables.refreshTokens t.refreshTokens) :
      Outcome env caller w (.setInitialPassword inp demo refusal tokens) ({ v with tables := t }.handOut env tokens user)
  | revoked {op : Op} {id : Nat} {w' : World} (completed : w.authenticatorSet env op = some id) (loses : Loses w w')
      (account : Refines w.tables w'.tables (.raised id))
      (sessions : w'.tables.refreshTokens = w.tables.refreshTokens.invalidateAllForUser id) : Outcome env caller w op w'
  | overwritten {b : Bearer} {inp : ProfileInput} {id : Nat} {user : User} {w' : World} (own : caller = some user)
      (known : Known w id user) (loses : Loses w w') (forgotten : w'.cache id = none)
      (account : Refines w.tables w'.tables (.overwritten id user.role))
      (sessions : w'.tables.refreshTokens = w.tables.refreshTokens) : Outcome env caller w (.updateMe b inp) w'

/-! ### Every request has one of the outcomes -/

section
variable {env : LoginEnv} {caller : Option User} {w w' : World} {op : Op} {t : Tables} {id : Nat}

theorem Loses.refl (w : World) : Loses w w := ⟨fun _ => .inl rfl, fun _ => .inl rfl, rfl, rfl⟩

theorem Loses.tables (w : World) (t : Tables) : Loses w { w with tables := t } := ⟨fun _ => .inl rfl, fun _ => .inl rfl, rfl, rfl⟩

theorem Loses.trans {v : World} (h : Loses w v) (h' : Loses v w') : Loses w w' where
  cache id := by
    rcases h'.cache id with kept | gone
    · rw [kept]
      exact h.cache id
    · exact .inr gone
  allowlist id := by
    rcases h'.allowlist id with kept | gone
    · rw [kept]
      exact h.allowlist id
    · exact .inr gone
  signed := h'.signed.trans h.signed
  signedAccess := h'.signedAccess.trans h.signedAccess

/-- One key of a store is emptied. -/
theorem update_cases {α : Type} (f : Nat → α) (id j : Nat) (a : α) :
    Function.update f id a j = f j ∨ Function.update f id a j = a := by
  by_cases same : j = id
  · subst same
    exact .inr (Function.update_self j a f)
  · exact .inl (Function.update_of_ne same a f)

theorem forget_loses (w : World) (id : Nat) : Loses w (w.forget id) :=
  ⟨fun j => update_cases w.cache id j none, fun _ => .inl rfl, rfl, rfl⟩

theorem revoke_loses (w : World) (id : Nat) : Loses w (w.revoke id) :=
  ⟨fun _ => .inl rfl, fun j => update_cases w.allowlist id j [], rfl, rfl⟩

theorem Ended.of_eq {s s' : SessionTables} (same : s' = s) : Ended s s' := by
  subst same
  exact ⟨id, ⟨fun _ => rfl, fun _ => rfl, fun _ => rfl, fun _ => id⟩, by simp, rfl⟩

/-- A call whose result no account and no session shows. -/
theorem commit_quiet (keys : w.tables.Keyed) (loses : Loses w w') (tables : w'.tables = w.tables) {result : Except UserError Tables}
    (done : ∀ t, result = .ok t → Refines w.tables t .none ∧ t.refreshTokens = w.tables.refreshTokens) :
    Outcome env caller w op (w'.commit result) := by
  cases result with
  | error e => exact .quiet (loses.trans (.tables w' _)) (tables ▸ keys.refl) (.of_eq (congrArg Tables.refreshTokens tables))
  | ok t =>
    obtain ⟨account, sessions⟩ := done t rfl
    exact .quiet (loses.trans (.tables w' _)) account (.of_eq sessions)

/-- A login hands out tokens, or does nothing but count. -/
theorem loggedIn_outcome (keys : w.tables.Keyed) {inp : TokenInput} (tokens : op.tokens = some inp)
    {result : Except UserError (LoginResult × Tables)}
    (done : ∀ answer t, result = .ok (answer, t) → LoggedIn env w.tables t inp answer ∨
      answer.user = none ∧ Outcome env caller w op { w with tables := t }) : Outcome env caller w op (w.loggedIn env inp result) := by
  cases result with
  | error e => exact .quiet (.refl w) keys.refl (.of_eq rfl)
  | ok pair =>
    obtain ⟨answer, t⟩ := pair
    rcases done answer t rfl with ⟨user, handed, rfl, found, active, account, issued⟩ | ⟨refused, outcome⟩
    · exact .handedOut tokens found active account issued
    · cases answer with
      | success user handed => cases refused
      | refused => exact outcome
      | twoFactorRequired _ _ => exact outcome

theorem login_outcome (keys : w.tables.Keyed) (inp : Step1Input) :
    Outcome env caller w (.login inp) (w.loggedIn env inp.toTokenInput (loginStep1 env w.tables inp)) := by
  refine loggedIn_outcome keys rfl fun answer t done => ?_
  rcases loginStep1_refines keys done with in_ | ⟨refused, sessions, account⟩
  · exact .inl in_
  · refine .inr ⟨refused, ?_⟩
    rcases account with quiet | ⟨id, locks, account⟩
    · exact .quiet (.tables w t) quiet (.of_eq sessions)
    · exact .locked locks (.tables w t) account sessions

theorem loginStep2_outcome (keys : w.tables.Keyed) (inp : Step2Input) :
    Outcome env caller w (.loginStep2 inp) (w.loggedIn env inp.tokens (Users.loginStep2 env w.tables inp)) := by
  refine loggedIn_outcome keys rfl fun answer t done => ?_
  rcases loginStep2_refines keys done with in_ | ⟨refused, sessions, account⟩
  · exact .inl in_
  · exact .inr ⟨refused, .quiet (.tables w t) account (.of_eq sessions)⟩

/-- A refresh that is refused ends sessions at most. -/
theorem refresh_ended {inp : RefreshRequest} {reason : RefreshFailReason} {s : SessionTables}
    (run : w.refresh env inp = .ok (.failed reason) s) : Ended w.tables.refreshTokens s := by
  have spec : Returns (· = w.tables.refreshTokens) (proxy.refresh env.tokens (inp.input w)) _ _ := proxy.refresh_returns
  have ends := spec w.tables.refreshTokens rfl
  unfold World.refresh at run
  rw [run] at ends
  cases ends with
  | returned ended =>
    cases ended with
    | refused same _ => exact same.weakened
    | reused _ _ same => exact ⟨_, weakens_invalidateAll _, same⟩
    | expired _ _ _ same => exact ⟨_, weakens_update _, same⟩

theorem refresh_outcome (keys : w.tables.Keyed) (inp : RefreshRequest) : Outcome env caller w (.refresh inp) (w.onRefresh env inp) := by
  unfold World.onRefresh
  split
  · next tokens s run =>
    obtain ⟨p, rec, rotated⟩ := refresh_rotated run
    exact .refreshed (keys.refl.of_users rfl rfl) rotated
  · next reason s run => exact .quiet (.tables w _) (keys.refl.of_users rfl rfl) (refresh_ended run)
  · exact .quiet (.refl w) keys.refl (.of_eq rfl)

/-- A logout ends one session at most. -/
theorem logout_ended (env : TokenEnv) (inp : LogoutInput) (s : SessionTables) : Ended s (after (proxy.logout env inp) s) := by
  have spec : Returns (· = s) (proxy.logout env inp) _ _ := proxy.logout_returns
  have ends := spec s rfl
  unfold after
  generalize (proxy.logout env inp).run s = run at ends ⊢
  cases ends with
  | raised same => exact .of_eq same
  | returned ended =>
    rcases ended with same | ⟨rec, -, same⟩
    · exact same.weakened
    · exact ⟨_, weakens_update rec, same⟩

theorem endSession_ended (w : World) (inp : LogoutRequest) : Ended w.tables.refreshTokens (match inp.token with
    | none => w.tables.refreshTokens
    | some token => after (proxy.logout env.tokens { token, client := inp.client, now := inp.now }) w.tables.refreshTokens) := by
  cases inp.token with
  | none => exact .of_eq rfl
  | some token => exact logout_ended _ _ _

theorem endSession_outcome (keys : w.tables.Keyed) (inp : LogoutRequest) (bearer : Option User) :
    Outcome env caller w op (w.endSession env inp bearer) := by
  unfold World.endSession
  dsimp only
  cases World.logoutUser env inp bearer with
  | none => exact .quiet (.tables w _) (keys.refl.of_users rfl rfl) (endSession_ended w inp)
  | some id => exact .quiet ((Loses.tables w _).trans (revoke_loses _ id)) (keys.refl.of_users rfl rfl) (endSession_ended w inp)

theorem update_outcome (keys : w.tables.Keyed) (inp : UpdateInput) : Outcome env caller w (.update inp) (w.onUpdate inp) := by
  unfold World.onUpdate
  cases done : Users.update w.tables inp with
  | error _ => exact .quiet (.refl w) keys.refl (.of_eq rfl)
  | ok t =>
    have forgets : Loses w ({ w with tables := t }.forget inp.userId) := (Loses.tables w t).trans (forget_loses _ _)
    have gone : Function.update w.cache inp.userId none inp.userId = none := Function.update_self _ _ _
    have revokes : Loses w { ({ w with tables := t }.forget inp.userId).revoke inp.userId with
        permissionsChanged := Function.update w.permissionsChanged inp.userId true } :=
      ⟨forgets.cache, (forgets.trans (revoke_loses _ _)).allowlist, rfl, rfl⟩
    dsimp only
    rcases update_refines keys done with ⟨account, sessions, -, -⟩ | ⟨account, sessions⟩
    · split
      · exact .quiet revokes account (.of_eq sessions)
      · exact .quiet forgets account (.of_eq sessions)
    · split
      · exact .edited revokes gone (fun _ => Function.update_self _ _ _) account sessions
      · next unasked =>
        refine .edited forgets gone (fun asked => absurd ?_ unasked) account sessions
        rcases asked with isActive | role
        · rw [isActive, Bool.or_true, Bool.true_or]
        · rw [role, Bool.true_or, Bool.true_or]

theorem delete_outcome (keys : w.tables.Keyed) (inp : DeleteInput) :
    Outcome env caller w (.delete inp) ((w.revoke inp.userId).commit (Users.delete w.tables inp)) := by
  cases done : Users.delete w.tables inp with
  | error _ => exact .quiet (revoke_loses w _) keys.refl (.of_eq rfl)
  | ok t =>
    obtain ⟨account, sessions⟩ := delete_refines keys done
    exact .deleted ((revoke_loses w inp.userId).trans (.tables _ t)) (Function.update_self _ _ _) account sessions

theorem create_outcome (keys : w.tables.Keyed) (inp : CreateInput) :
    Outcome env caller w (.create inp) (w.commit ((create w.tables inp).map (·.2))) := by
  cases done : create w.tables inp with
  | error _ => exact .quiet (.tables w _) keys.refl (.of_eq rfl)
  | ok pair =>
    obtain ⟨user, t⟩ := pair
    obtain ⟨account, sessions⟩ := create_refines keys done
    exact .added (.tables w t) account sessions

theorem setPassword_outcome (keys : w.tables.Keyed) (inp : SetPasswordInput) :
    Outcome env caller w (.setPassword inp) (w.commit (Users.setPassword w.tables inp)) := by
  cases done : Users.setPassword w.tables inp with
  | error _ => exact .quiet (.tables w _) keys.refl (.of_eq rfl)
  | ok t =>
    obtain ⟨sessions, id, link, quiet | ⟨promoted, account⟩⟩ := setPassword_refines keys done
    · exact .quiet (.tables w t) quiet (.of_eq sessions)
    · exact .registered link (.tables w t) account sessions

theorem setInitialPassword_outcome (keys : w.tables.Keyed) (inp : PasswordInput) (demo : Bool) (refusal : Option String)
    (tokens : TokenInput) :
    Outcome env caller w (.setInitialPassword inp demo refusal tokens) (w.onSetInitialPassword env inp demo refusal tokens) := by
  unfold World.onSetInitialPassword
  cases done : setInitialPasswordDemo w.tables inp demo refusal with
  | error _ => exact .quiet (.refl w) keys.refl (.of_eq rfl)
  | ok t =>
    obtain ⟨account, sessions, -⟩ := setInitialPasswordDemo_refines keys done
    have forgets : Loses w ({ w with tables := t }.forget inp.userId) := (Loses.tables w t).trans (forget_loses _ _)
    have gone : Function.update w.cache inp.userId none inp.userId = none := Function.update_self _ _ _
    dsimp only
    cases found : t.getById inp.userId with
    | none => exact .firstPassword forgets gone account sessions
    | some user =>
      dsimp only
      cases issued : issueTokens env.tokens t tokens user with
      | error _ => exact .firstPassword forgets gone account sessions
      | ok pair =>
        obtain ⟨handed, u⟩ := pair
        obtain ⟨same, issue⟩ := issueTokens_issued account.keyed issued
        exact .firstLogin forgets gone account sessions found same issue

theorem writeProfile_outcome (keys : w.tables.Keyed) {user : User} (own : caller = some user) (known : Known w id user) (b : Bearer)
    (inp : ProfileInput) :
    Outcome env caller w (.updateMe b inp) (w.writeProfile user inp) := by
  unfold World.writeProfile
  cases done : Users.updateMe w.tables user inp with
  | error _ => exact .quiet (.refl w) keys.refl (.of_eq rfl)
  | ok t =>
    have forgets : Loses w ({ w with tables := t }.forget user.id) := (Loses.tables w t).trans (forget_loses _ _)
    have gone : Function.update w.cache user.id none id = none := known.key ▸ Function.update_self _ _ _
    obtain ⟨sessions, quiet | account⟩ := updateMe_refines keys known.active done
    · exact .quiet forgets quiet (.of_eq sessions)
    · exact .overwritten own known forgets gone (known.key ▸ account) sessions

theorem updateMe_outcome (keys : w.tables.Keyed) (keyed : w.CacheKeyed) (b : Bearer) (inp : ProfileInput) :
    Outcome env (w.authenticate env b).1 (w.authenticate env b).2 (.updateMe b inp) (w.onUpdateMe env b inp) := by
  obtain ⟨looked, known⟩ := authenticate_spec keyed b
  unfold World.onUpdateMe
  cases found : (w.authenticate env b).1 with
  | none =>
    have same : w.authenticate env b = (none, (w.authenticate env b).2) := Prod.ext found rfl
    rw [same]
    exact .quiet (.refl _) (looked.tables ▸ keys.refl) (.of_eq rfl)
  | some user =>
    have same : w.authenticate env b = (some user, (w.authenticate env b).2) := Prod.ext found rfl
    obtain ⟨p, -, -, known⟩ := known user found
    rw [same]
    exact writeProfile_outcome (looked.tables ▸ keys) rfl known b inp

theorem expire_loses (w : World) (id : Nat) (cached allowed flag : Bool) : Loses w (w.expire id cached allowed flag) := by
  refine ⟨fun j => ?_, fun j => ?_, rfl, rfl⟩
  · cases cached with
    | true => exact update_cases w.cache id j none
    | false => exact .inl rfl
  · cases allowed with
    | true => exact update_cases w.allowlist id j []
    | false => exact .inl rfl

/-- The outcome of a request, from the world in which the middleware leaves it. -/
theorem step_outcome (env : LoginEnv) (w : World) (keys : w.tables.Keyed) (keyed : w.CacheKeyed) (op : Op) :
    Outcome env (w.caller env op) (w.seen env op) op (w.step env op) := by
  cases op with
  | login inp => exact login_outcome keys inp
  | loginStep2 inp => exact loginStep2_outcome keys inp
  | refresh inp => exact refresh_outcome keys inp
  | logout inp =>
    simp only [World.step, World.onLogout, World.seen, Op.bearer]
    cases inp.bearer with
    | none => exact endSession_outcome keys inp none
    | some b =>
      have looked : Looked w (w.authenticate env b).2 := (authenticate_spec keyed b).1
      exact endSession_outcome (looked.tables ▸ keys) inp _
  | create inp => exact create_outcome keys inp
  | update inp => exact update_outcome keys inp
  | delete inp => exact delete_outcome keys inp
  | forgotPassword email now invite => exact commit_quiet keys (.refl w) rfl fun _ => forgotPassword_refines keys
  | resendInvite userId now invite => exact commit_quiet keys (.refl w) rfl fun _ => resendInvite_refines keys
  | setPassword inp => exact setPassword_outcome keys inp
  | changePassword inp => exact commit_quiet keys (.refl w) rfl fun _ => changePassword_refines keys
  | setInitialPassword inp demo refusal tokens => exact setInitialPassword_outcome keys inp demo refusal tokens
  | updateMe b inp => exact updateMe_outcome keys keyed b inp
  | setupAuthenticator userId secret now =>
    have users : (w.tables.upsertPendingSecret userId secret (now + Auth.minutes 10)).users = w.tables.users ∧
        (w.tables.upsertPendingSecret userId secret (now + Auth.minutes 10)).nextUserId = w.tables.nextUserId ∧
        (w.tables.upsertPendingSecret userId secret (now + Auth.minutes 10)).refreshTokens = w.tables.refreshTokens := by
      unfold Tables.upsertPendingSecret
      split <;> exact ⟨rfl, rfl, rfl⟩
    exact .quiet (.tables w _) (keys.refl.of_users users.1 users.2.1) (.of_eq users.2.2)
  | confirmAuthenticator inp =>
    cases done : confirmAuthenticatorSetup env.auth w.tables inp with
    | error _ =>
      simp only [World.step, World.commit, done]
      exact .quiet (.tables w _) keys.refl (.of_eq rfl)
    | ok t =>
      obtain ⟨account, sessions⟩ := confirmAuthenticatorSetup_refines keys done
      have completed : w.authenticatorSet env (.confirmAuthenticator inp) = some inp.userId := by
        simp only [World.authenticatorSet, done, Except.toBool, if_true]
      simp only [World.step, World.commit, done]
      exact .revoked completed (.tables w t) account sessions
  | disableAuthenticator userId =>
    obtain ⟨account, sessions⟩ := disableAuthenticator_refines keys userId
    exact .revoked rfl (.tables w _) account sessions
  | request b =>
    have looked : Looked w (w.authenticate env b).2 := (authenticate_spec keyed b).1
    exact .quiet (.refl _) (looked.tables ▸ keys.refl) (.of_eq rfl)
  | expire userId cached allowed flag => exact .quiet (expire_loses w userId cached allowed flag) keys.refl (.of_eq rfl)

/-- The event that a request is for the accounts. -/
inductive Means (env : LoginEnv) (caller : Option User) (w w' : World) : Op → Event → Prop
  | nothing {op : Op} : Means env caller w w' op .none
  | locked {inp : Step1Input} {id : Nat} (locks : w.tables.lockedBy env inp = some id) : Means env caller w w' (.login inp) (.locked id)
  | added {inp : CreateInput} {id : Nat} : Means env caller w w' (.create inp) (.added id inp.role)
  | edited {inp : UpdateInput} (forgotten : w'.cache inp.userId = none)
      (sessions : w'.tables.refreshTokens = w.tables.refreshTokens.invalidateAllForUser inp.userId ∨
        w'.tables.accounts = w.tables.accounts) : Means env caller w w' (.update inp) (.edited inp.userId inp.isActive inp.role)
  | deleted {inp : DeleteInput}
      (sessions : w'.tables.refreshTokens = w.tables.refreshTokens.invalidateAllForUser inp.userId) :
      Means env caller w w' (.delete inp) (.deleted inp.userId)
  | registered {inp : SetPasswordInput} {id : Nat} {promoted : Bool} (link : w.tables.linkOwner inp = some id) :
      Means env caller w w' (.setPassword inp) (.registered id promoted)
  | raised {op : Op} {id : Nat} : Means env caller w w' op (.raised id)
  | overwritten {b : Bearer} {inp : ProfileInput} {id : Nat} {user : User} (own : caller = some user)
      (known : Known w id user) (forgotten : w'.cache id = none) : Means env caller w w' (.updateMe b inp) (.overwritten id user.role)

/-- An outcome is one event, and puts nothing into the cache. -/
theorem Outcome.event (h : Outcome env caller w op w') : (∀ id, w'.cache id = w.cache id ∨ w'.cache id = none) ∧
    ∃ event, Refines w.tables w'.tables event ∧ Means env caller w w' op event := by
  cases h with
  | quiet loses account _ => exact ⟨loses.cache, .none, account, .nothing⟩
  | locked locks loses account _ => exact ⟨loses.cache, _, account, .locked locks⟩
  | handedOut _ _ _ account _ => exact ⟨fun _ => .inl rfl, .none, account, .nothing⟩
  | refreshed account _ => exact ⟨fun _ => .inl rfl, .none, account, .nothing⟩
  | added loses account _ => exact ⟨loses.cache, _, account, .added⟩
  | edited loses forgotten _ account sessions => exact ⟨loses.cache, _, account, .edited forgotten (sessions.imp_right (·.2))⟩
  | deleted loses _ account sessions => exact ⟨loses.cache, _, account, .deleted sessions⟩
  | registered link loses account _ => exact ⟨loses.cache, _, account, .registered link⟩
  | firstPassword loses _ account _ => exact ⟨loses.cache, _, account, .raised⟩
  | firstLogin loses _ account _ _ account' _ => exact ⟨loses.cache, _, account.trans_none account', .raised⟩
  | revoked _ loses account _ => exact ⟨loses.cache, _, account, .raised⟩
  | overwritten own known loses forgotten account _ => exact ⟨loses.cache, _, account, .overwritten own known forgotten⟩

end

end NyzRating.Users
