import NyzRating.Auth.RefreshRace

/-!
# Logout and refresh at the same time

Requests to `/auth/refresh` and `/auth/logout` with tokens of one user. The service call of each is a read-committed
transaction: it reads one session, updates its row under the lock of the row, and commits. The allowlist of access tokens
is changed after that, by a call of its own.
-/

namespace NyzRating.Auth.Refresh

open Program Runs

/-! ### The logout, statement by statement -/

/-- The claims by which a logout looks for a session. -/
def LogoutInput.lookup (env : TokenEnv) (inp : LogoutInput) : Option Payload :=
  match env.verify inp.token inp.now with
  | .ok payload => if payload.typ = "refresh" then some payload else none
  | .error .expired => (env.decode inp.token).toOption.filter fun p => p.typ = "refresh" ∧ p.jti ≠ ""
  | .error _ => none

def LogoutInput.reads (env : TokenEnv) (inp : LogoutInput) (t : SessionTables) : Option SessionRow :=
  (inp.lookup env).bind fun p => t.getByJti p.jti

/-- The session that the logout ends, of the one that it has read. -/
def LogoutInput.ending (env : TokenEnv) (inp : LogoutInput) (read : Option SessionRow) : Option SessionRow :=
  read.filter (·.tokenHash = env.hashToken inp.token)

/-- What the logout says to the audit service. -/
def LogoutInput.event (env : TokenEnv) (inp : LogoutInput) (read : Option SessionRow) :
    Option (SessionAction × Option Nat × List (String × Option String)) :=
  match env.verify inp.token inp.now with
  | .error .expired => some (.logoutFailed, (env.decode inp.token).toOption.map (·.sub), [("reason", some "expired_token")])
  | .error .invalid => some (.logoutFailed, none, [("reason", some "invalid_token")])
  | .error .other => none
  | .ok payload =>
    if payload.typ ≠ "refresh" then some (.logoutFailed, none, [("reason", some "wrong_type")])
    else if read = none then some (.logoutFailed, some payload.sub, [("reason", some "unknown_jti")])
    else if inp.ending env read = none then some (.logoutFailed, some payload.sub, [("reason", some "replay_detected")])
    else some (.logout, some payload.sub, [])

def AuditService.logLogout (svc : AuditService) (env : TokenEnv) (inp : LogoutInput) (read : Option SessionRow) :
    SessionM Bool :=
  match inp.event env read with
  | some (action, userId, details) => do
    svc.log inp.client action userId details
    return true
  | none => throw .invalidToken

/-- The rest of a logout that has read a session. -/
def AuditService.logoutRead (svc : AuditService) (env : TokenEnv) (inp : LogoutInput) (read : Option SessionRow) :
    SessionM Bool :=
  match inp.ending env read with
  | some session => do
    modify (·.update session.invalidate)
    svc.logLogout env inp read
  | none => svc.logLogout env inp read

section
variable {env : TokenEnv} {t : SessionTables} (svc : AuditService) {inp : LogoutInput} {read : Option SessionRow}

/-- A logout that is not interrupted between its reading and the rest. -/
theorem AuditService.logoutToken_eq :
    (svc.logoutToken env inp).run t = (svc.logoutRead env inp (inp.reads env t)).run t := by
  unfold AuditService.logoutToken AuditService.logoutRead AuditService.logLogout LogoutInput.event LogoutInput.ending
    LogoutInput.reads LogoutInput.lookup
  cases verified : env.verify inp.token inp.now with
  | error e =>
    cases e with
    | expired =>
      dsimp only
      have same : ((env.decode inp.token).toOption.bind fun p =>
          if p.typ = "refresh" ∧ p.jti ≠ "" then t.sessionOf env p inp.token else none) =
          (((env.decode inp.token).toOption.filter fun p => p.typ = "refresh" ∧ p.jti ≠ "").bind fun p =>
            t.getByJti p.jti).filter (·.tokenHash = env.hashToken inp.token) := by
        cases (env.decode inp.token).toOption with
        | none => rfl
        | some p =>
          rw [Option.filter_some, Option.bind_some]
          by_cases known : p.typ = "refresh" ∧ p.jti ≠ ""
          · rw [if_pos known, if_pos (decide_eq_true known)]
            rfl
          · rw [if_neg known, if_neg (by simpa using known)]
            rfl
      unfold AuditService.logoutWithExpiredToken
      simp only [EStateM.run_bind, EStateM.run_get, same]
      generalize Option.filter _ (Option.bind _ _) = ending
      cases ending with
      | none => rfl
      | some session => rfl
    | invalid => rfl
    | other => rfl
  | ok payload =>
    dsimp only
    unfold AuditService.logoutVerified
    by_cases typ : payload.typ = "refresh"
    · simp only [EStateM.run_bind, EStateM.run_get, typ, not_true_eq_false, if_false, if_true, Option.bind_some, ne_eq]
      cases t.getByJti payload.jti with
      | none => rfl
      | some session =>
        simp only [Option.filter_some]
        by_cases own : session.tokenHash = env.hashToken inp.token
        · simp only [own, not_true_eq_false, decide_true, if_false, if_true, reduceCtorEq]
          rfl
        · simp only [own, not_false_eq_true, decide_false, if_true, reduceCtorEq, Bool.false_eq_true, if_false]
    · simp only [EStateM.run_bind, EStateM.run_get, typ, not_false_eq_true, if_false, if_true, ne_eq]
      rfl

theorem AuditService.logoutRead_returns : Returns (Same t) (svc.logoutRead env inp read)
    (fun _ => Same ((inp.ending env read).elim t fun session => t.update session.invalidate)) fun _ => True := by
  have rest : ∀ {w : SessionTables}, Returns (Same w) (svc.logLogout env inp read) (fun _ => Same w) fun _ => True := by
    intro w
    unfold AuditService.logLogout
    cases inp.event env read with
    | none => exact .throw fun _ _ => trivial
    | some event => exact Returns.bind (svc.log_returns _ _ _) fun _ => .pure fun _ same => same
  unfold AuditService.logoutRead
  cases inp.ending env read with
  | none => exact rest
  | some session =>
    exact Returns.bind (R := fun _ => Same (t.update session.invalidate)) (.modify fun _ same => same.update _) fun _ => rest

end

namespace Requests

/-! ### Requests -/

structure Store where
  tables : SessionTables
  /-- The access tokens that `is_allowed` accepts, each with its user. -/
  allowlist : List (Nat × String) := []
  deriving DecidableEq, Repr

inductive RefreshPhase where
  | waiting
  | read (payload : Payload) (rec : Option SessionRow)
  /-- The row is updated, and its lock held. -/
  | updated (payload : Payload) (rec : SessionRow)
  /-- The service has returned tokens. The access token is not on the allowlist yet. -/
  | committed (userId : Nat) (accessJti : String)
  | ended
  deriving DecidableEq, Repr

structure RefreshRequest where
  inp : RefreshInput
  phase : RefreshPhase := .waiting

inductive LogoutPhase where
  | waiting
  | read (session : Option SessionRow)
  | updated (session : Option SessionRow)
  /-- The service has returned or raised. The allowlist is not cleared yet. -/
  | committed (success : Bool)
  /-- `overlapping` are the refreshes that are under way at the end. -/
  | ended (success : Bool) (overlapping : List Nat)
  deriving DecidableEq, Repr

structure LogoutRequest where
  inp : LogoutInput
  /-- The user whom the access token of the request belongs to. -/
  bearer : Option Nat := none
  phase : LogoutPhase := .waiting

structure State extends Store where
  refreshes : List RefreshRequest
  logouts : List LogoutRequest

/-- What the router does with the answer of `RefreshService.refresh`. -/
def RefreshPhase.answered : Option RefreshResult → RefreshPhase
  | some (.success tokens) =>
    match tokens.user with
    | some user => .committed user.id tokens.accessJti
    | none => .ended
  | _ => .ended

def RefreshRequest.settle (m : SessionM RefreshResult) (s : Store) : Store × RefreshPhase :=
  let ends := committed m s.tables
  ({ s with tables := ends.1 }, .answered ends.2)

def RefreshRequest.next (svc : AuditService) (env : TokenEnv) (locked : List Nat) (s : Store) (c : RefreshRequest) :
    Store × RefreshPhase :=
  match c.phase with
  | .waiting =>
    match env.verify c.inp.token c.inp.now with
    | .ok payload =>
      if payload.typ = "refresh" ∧ c.inp.current payload = true then (s, .read payload (s.tables.getByJti payload.jti))
      else RefreshRequest.settle (svc.refreshToken env c.inp) s
    | .error _ => RefreshRequest.settle (svc.refreshToken env c.inp) s
  | .read payload read =>
    match read.filter c.inp.rotates with
    | some rec => if rec.id ∈ locked then (s, c.phase) else (s, .updated payload rec)
    | none => RefreshRequest.settle (svc.refreshSession env c.inp payload read) s
  | .updated payload rec => RefreshRequest.settle (svc.rotate env c.inp payload rec) s
  | .committed userId accessJti => ({ s with allowlist := (userId, accessJti) :: s.allowlist }, .ended)
  | .ended => (s, .ended)

/-- The user whose access tokens the logout takes off the allowlist. -/
def LogoutRequest.userId (env : TokenEnv) (c : LogoutRequest) : Option Nat :=
  c.bearer.or (((env.decode c.inp.token).toOption.filter fun p => p.typ = "refresh" ∧ p.sub ≠ 0).map (·.sub))

def LogoutRequest.settle (m : SessionM Bool) (s : Store) : Store × LogoutPhase :=
  let ends := committed m s.tables
  ({ s with tables := ends.1 }, .committed (ends.2.getD false))

def LogoutRequest.next (svc : AuditService) (env : TokenEnv) (locked running : List Nat) (s : Store) (c : LogoutRequest) :
    Store × LogoutPhase :=
  match c.phase with
  | .waiting => (s, .read (c.inp.reads env s.tables))
  | .read read =>
    if (c.inp.ending env read).any (·.id ∈ locked) then (s, c.phase) else (s, .updated read)
  | .updated read => LogoutRequest.settle (svc.logoutRead env c.inp read) s
  | .committed success =>
    ({ s with allowlist := s.allowlist.filter fun e => c.userId env ≠ some e.1 }, .ended success running)
  | .ended success overlapping => (s, .ended success overlapping)

def RefreshRequest.locks (c : RefreshRequest) : Option Nat :=
  match c.phase with
  | .updated _ rec => some rec.id
  | _ => none

def LogoutRequest.locks (env : TokenEnv) (c : LogoutRequest) : Option Nat :=
  match c.phase with
  | .updated read => (c.inp.ending env read).map (·.id)
  | _ => none

def State.locked (env : TokenEnv) (s : State) : List Nat :=
  s.refreshes.filterMap (·.locks) ++ s.logouts.filterMap (·.locks env)

/-- The refresh has begun, and has not ended. -/
def RefreshRequest.running (c : RefreshRequest) : Bool := c.phase ≠ .waiting && c.phase ≠ .ended

def State.running (s : State) : List Nat :=
  (List.range s.refreshes.length).filter fun i => (s.refreshes[i]?).any (·.running)

inductive Event where
  | refresh (i : Nat)
  | logout (i : Nat)
  deriving DecidableEq, Repr

def step (svc : AuditService) (env : TokenEnv) (s : State) : Event → State
  | .refresh i =>
    match s.refreshes[i]? with
    | none => s
    | some c =>
      let next := c.next svc env (s.locked env) s.toStore
      { s with toStore := next.1, refreshes := s.refreshes.set i { c with phase := next.2 } }
  | .logout i =>
    match s.logouts[i]? with
    | none => s
    | some c =>
      let next := c.next svc env (s.locked env) s.running s.toStore
      { s with toStore := next.1, logouts := s.logouts.set i { c with phase := next.2 } }

/-! ### Logged out -/

/-- The refresh is about to put a new session in the place of an old one, or has done so. -/
def RefreshRequest.replacing (c : RefreshRequest) : Bool :=
  match c.phase with
  | .read _ read => (read.filter c.inp.rotates).isSome
  | .updated .. => true
  | .committed .. => true
  | _ => false

/-- The logout has read its session, and has not committed. -/
def LogoutRequest.reading (c : LogoutRequest) : Bool :=
  match c.phase with
  | .read _ => true
  | .updated _ => true
  | _ => false

/-- A logout is the user's own, and reads while no refresh is replacing a session; its token is the one of every valid
    session. A refresh reads a session that it will replace while no logout is between its reading and its commit. -/
def InTurn (env : TokenEnv) (user : Nat) (s : State) : Event → Prop
  | .refresh i => ∀ c ∈ s.refreshes[i]?, c.phase = .waiting →
      (∀ payload ∈ (env.verify c.inp.token c.inp.now).toOption, ∀ rec ∈ s.tables.getByJti payload.jti,
        c.inp.rotates rec = false) ∨ ∀ d ∈ s.logouts, d.reading = false
  | .logout i => ∀ c ∈ s.logouts[i]?, c.phase = .waiting →
      (∀ d ∈ s.refreshes, d.replacing = false) ∧ c.userId env = some user ∧
        ∀ r ∈ s.tables.sessions, r.userId = user → r.valid = true →
          c.inp.ending env (c.inp.reads env s.tables) = some r

instance (env : TokenEnv) (user : Nat) (s : State) : (e : Event) → Decidable (InTurn env user s e)
  | .refresh _ => inferInstanceAs (Decidable (∀ c ∈ s.refreshes[_]?, _ → _ ∨ _))
  | .logout _ => inferInstanceAs (Decidable (∀ c ∈ s.logouts[_]?, _ → _ ∧ _ ∧ _))

/-- An identifier is given to one user's tokens only. -/
def Genuine (env : TokenEnv) (userOf : String → Nat) : Prop :=
  ∀ token payload, env.decode token = .ok payload → payload.typ = "refresh" → userOf payload.jti = payload.sub

/-- Requests with tokens of the user, none of which has begun. -/
structure Started (env : TokenEnv) (userOf : String → Nat) (user : Nat) (s : State) : Prop where
  known : ∀ r ∈ s.tables.sessions, userOf r.jti = r.userId
  refreshes : ∀ c ∈ s.refreshes, c.phase = .waiting ∧ userOf c.inp.jti = user ∧
    ∀ payload, env.decode c.inp.token = .ok payload → payload.sub = user
  logouts : ∀ c ∈ s.logouts, c.phase = .waiting

/-! ### The invariant -/

def RefreshRequest.payload? (c : RefreshRequest) : Option Payload :=
  match c.phase with
  | .read payload _ => some payload
  | .updated payload _ => some payload
  | _ => none

/-- The logout has read its session, and has not failed. -/
def LogoutRequest.begun (c : LogoutRequest) : Bool :=
  match c.phase with
  | .waiting => false
  | .committed success => success
  | .ended success _ => success
  | _ => true

/-- The session that the logout has still to end. -/
def LogoutRequest.left (env : TokenEnv) (c : LogoutRequest) : Option SessionRow :=
  match c.phase with
  | .read read => c.inp.ending env read
  | .updated read => c.inp.ending env read
  | _ => none

/-- No session of the user is valid, except for the one that is about to be ended. -/
def OnlyLeft (user : Nat) (t : SessionTables) (left : Option SessionRow) : Prop :=
  ∀ r ∈ t.sessions, r.userId = user → r.valid = true → ∃ session, left = some session ∧ r.id = session.id

structure Sound (env : TokenEnv) (userOf : String → Nat) (user : Nat) (s : State) : Prop where
  known : ∀ r ∈ s.tables.sessions, userOf r.jti = r.userId
  refreshes : ∀ c ∈ s.refreshes, userOf c.inp.jti = user ∧
    (∀ payload, env.decode c.inp.token = .ok payload → payload.sub = user) ∧ ∀ payload, c.payload? = some payload → payload.sub = user
  quiet : ∀ c ∈ s.logouts, c.begun = true → ∀ d ∈ s.refreshes, d.replacing = false
  left : ∀ c ∈ s.logouts, c.begun = true → OnlyLeft user s.tables (c.left env)
  own : ∀ c ∈ s.logouts, c.begun = true → c.userId env = some user
  cleared : ∀ c ∈ s.logouts, ∀ overlapping, c.phase = .ended true overlapping → ∀ e ∈ s.allowlist, e.1 ≠ user

/-- The valid sessions of `u` are among those of `t`. -/
def NoneNew (t u : SessionTables) : Prop :=
  ∀ r ∈ u.sessions, r.valid = true → ∃ r₀ ∈ t.sessions, r₀.id = r.id ∧ r₀.userId = r.userId ∧ r₀.valid = true

section
variable {svc : AuditService} {env : TokenEnv} {userOf : String → Nat} {user : Nat} {s : State} {t u : SessionTables}
  {c : RefreshRequest} {e : LogoutRequest} {i : Nat}

theorem NoneNew.of_weakens {f : SessionRow → SessionRow} (weakens : Weakens f)
    (same : Same { t with sessions := t.sessions.map f } u) : NoneNew t u := by
  intro r mem valid
  rw [same.sessions] at mem
  obtain ⟨r₀, old, rfl⟩ := List.mem_map.mp mem
  exact ⟨r₀, old, (weakens.id r₀).symm, (weakens.userId r₀).symm, weakens.valid r₀ valid⟩

theorem NoneNew.refl (t : SessionTables) : NoneNew t t := fun r mem valid => ⟨r, mem, rfl, rfl, valid⟩

theorem OnlyLeft.follow {left : Option SessionRow} (h : OnlyLeft user t left) (none_new : NoneNew t u) : OnlyLeft user u left := by
  intro r mem own valid
  obtain ⟨r₀, old, id, userId, valid₀⟩ := none_new r mem valid
  obtain ⟨session, same, id₀⟩ := h r₀ old (userId.trans own) valid₀
  exact ⟨session, same, id.symm.trans id₀⟩

/-- One refresh goes on. Once a logout has begun, it replaces no session. -/
theorem Sound.refresh (h : Sound env userOf user s) (at_i : s.refreshes[i]? = some c) {store : Store} {phase : RefreshPhase}
    (payload : ∀ payload, ({ c with phase } : RefreshRequest).payload? = some payload → payload.sub = user)
    (known : ∀ r ∈ store.tables.sessions, userOf r.jti = r.userId)
    (quiet : (∃ e ∈ s.logouts, e.begun = true) → ({ c with phase } : RefreshRequest).replacing = false ∧
      NoneNew s.tables store.tables ∧ store.allowlist = s.allowlist) :
    Sound env userOf user { s with toStore := store, refreshes := s.refreshes.set i { c with phase } } where
  known := known
  refreshes d mem := by
    rcases List.mem_or_eq_of_mem_set mem with old | rfl
    · exact h.refreshes d old
    · obtain ⟨own, presented, -⟩ := h.refreshes c (List.mem_of_getElem? at_i)
      exact ⟨own, presented, payload⟩
  quiet e mem begun d mem' := by
    rcases List.mem_or_eq_of_mem_set mem' with old | rfl
    · exact h.quiet e mem begun d old
    · exact (quiet ⟨e, mem, begun⟩).1
  left e mem begun := (h.left e mem begun).follow (quiet ⟨e, mem, begun⟩).2.1
  own := h.own
  cleared e mem overlapping ended a on_list := by
    have begun : e.begun = true := by simp only [LogoutRequest.begun, ended]
    rw [(quiet ⟨e, mem, begun⟩).2.2] at on_list
    exact h.cleared e mem overlapping ended a on_list

/-- One logout goes on. -/
theorem Sound.logout (h : Sound env userOf user s) {store : Store} {phase : LogoutPhase}
    (known : ∀ r ∈ store.tables.sessions, userOf r.jti = r.userId) (none_new : NoneNew s.tables store.tables)
    (allowlist : ∀ a ∈ store.allowlist, a ∈ s.allowlist)
    (begun : ({ e with phase } : LogoutRequest).begun = true → (∀ d ∈ s.refreshes, d.replacing = false) ∧
      OnlyLeft user store.tables (({ e with phase } : LogoutRequest).left env) ∧ e.userId env = some user)
    (cleared : ∀ overlapping, phase = .ended true overlapping → ∀ a ∈ store.allowlist, a.1 ≠ user) :
    Sound env userOf user { s with toStore := store, logouts := s.logouts.set i { e with phase } } where
  known := known
  refreshes := h.refreshes
  quiet d mem begun_d := by
    rcases List.mem_or_eq_of_mem_set mem with old | rfl
    · exact h.quiet d old begun_d
    · exact (begun begun_d).1
  left d mem begun_d := by
    rcases List.mem_or_eq_of_mem_set mem with old | rfl
    · exact (h.left d old begun_d).follow none_new
    · exact (begun begun_d).2.1
  own d mem begun_d := by
    rcases List.mem_or_eq_of_mem_set mem with old | rfl
    · exact h.own d old begun_d
    · exact (begun begun_d).2.2
  cleared d mem overlapping ended a on_list := by
    rcases List.mem_or_eq_of_mem_set mem with old | rfl
    · exact h.cleared d old overlapping ended a (allowlist a on_list)
    · exact cleared overlapping ended a on_list

theorem Sound.not_begun_of_replacing (h : Sound env userOf user s) (mem : c ∈ s.refreshes) (replacing : c.replacing = true) :
    ¬∃ e ∈ s.logouts, e.begun = true := by
  rintro ⟨e, mem', begun⟩
  rw [h.quiet e mem' begun c mem] at replacing
  cases replacing

theorem known_of_weakens (known : ∀ r ∈ t.sessions, userOf r.jti = r.userId) {f : SessionRow → SessionRow} (weakens : Weakens f)
    (same : Same { t with sessions := t.sessions.map f } u) : ∀ r ∈ u.sessions, userOf r.jti = r.userId := by
  intro r mem
  rw [same.sessions] at mem
  obtain ⟨r₀, old, rfl⟩ := List.mem_map.mp mem
  rw [weakens.jti, weakens.userId]
  exact known r₀ old

theorem answered_of_failed {answer : Option RefreshResult} (failed : ∀ tokens, answer ≠ some (.success tokens)) :
    RefreshPhase.answered answer = .ended := by
  cases answer with
  | none => rfl
  | some result =>
    cases result with
    | failed reason => rfl
    | success tokens => exact absurd rfl (failed tokens)

theorem answered_cases (answer : Option RefreshResult) : RefreshPhase.answered answer = .ended ∨
    ∃ userId accessJti, RefreshPhase.answered answer = .committed userId accessJti := by
  cases answer with
  | none => exact .inl rfl
  | some result =>
    cases result with
    | failed reason => exact .inl rfl
    | success tokens =>
      simp only [RefreshPhase.answered]
      cases tokens.user with
      | none => exact .inl rfl
      | some user => exact .inr ⟨user.id, tokens.accessJti, rfl⟩

/-- A refresh that replaces no session may end. -/
theorem Sound.idle (h : Sound env userOf user s) (at_i : s.refreshes[i]? = some c) {m : SessionM RefreshResult}
    (returns : Returns (Same s.tables) m (fun result u => (∀ tokens, result ≠ .success tokens) ∧
      ∃ f, Weakens f ∧ Same { s.tables with sessions := s.tables.sessions.map f } u) fun _ => True) :
    Sound env userOf user { s with
      toStore := (RefreshRequest.settle m s.toStore).1
      refreshes := s.refreshes.set i { c with phase := (RefreshRequest.settle m s.toStore).2 } } := by
  unfold RefreshRequest.settle
  rcases committed_forms (Same.start returns) with raised | ⟨result, u, ⟨failed, f, weakens, same⟩, returned⟩
  · rw [raised]
    exact h.refresh at_i nofun h.known fun _ => ⟨rfl, .refl _, rfl⟩
  · have ended : RefreshPhase.answered (some result) = .ended :=
      answered_of_failed fun tokens same => failed tokens (Option.some.inj same)
    simp only [returned, ended]
    exact h.refresh at_i nofun (known_of_weakens h.known weakens same) fun _ => ⟨rfl, .of_weakens weakens same, rfl⟩

theorem userOf_eq (genuine : Genuine env userOf) (known : ∀ r ∈ t.sessions, userOf r.jti = r.userId) {token : String}
    {payload : Payload} (decoded : env.decode token = .ok payload) (typ : payload.typ = "refresh") {rec : SessionRow}
    (found : t.getByJti payload.jti = some rec) : rec.userId = payload.sub := by
  obtain ⟨mem, jti⟩ := getByJti_eq_some found
  calc rec.userId = userOf rec.jti := (known rec mem).symm
    _ = userOf payload.jti := by rw [jti]
    _ = payload.sub := genuine token payload decoded typ

/-- The refresh reads its session. -/
theorem Sound.read (h : Sound env userOf user s) (genuine : Genuine env userOf) (at_i : s.refreshes[i]? = some c)
    (waiting : c.phase = .waiting) (turn : InTurn env user s (.refresh i)) {payload : Payload}
    (verified : env.verify c.inp.token c.inp.now = .ok payload) (typ : payload.typ = "refresh") :
    Sound env userOf user { s with
      refreshes := s.refreshes.set i { c with phase := .read payload (s.tables.getByJti payload.jti) } } := by
  have decoded := verify_eq_ok verified
  obtain ⟨-, presented, -⟩ := h.refreshes c (List.mem_of_getElem? at_i)
  refine h.refresh at_i ?_ h.known fun ⟨e, mem, begun⟩ => ⟨?_, .refl _, rfl⟩
  · rintro payload' same
    cases same
    exact presented payload decoded
  · cases found : (s.tables.getByJti payload.jti).filter c.inp.rotates with
    | none => simp only [RefreshRequest.replacing, found, Option.isSome_none]
    | some rec =>
      obtain ⟨found, rotates⟩ := Option.filter_eq_some_iff.mp found
      have valid : rec.valid = true := by
        simp only [RefreshInput.rotates, Bool.and_eq_true] at rotates
        exact rotates.1.1
      have own : rec.userId = user := (userOf_eq genuine h.known decoded typ found).trans (presented payload decoded)
      obtain ⟨session, left, -⟩ := h.left e mem begun rec (getByJti_eq_some found).1 own valid
      rcases turn c at_i waiting with stays | none_reading
      · have claims : payload ∈ (env.verify c.inp.token c.inp.now).toOption := by
          rw [verified]
          rfl
        rw [stays payload claims rec found] at rotates
        cases rotates
      · have apart := none_reading e mem
        unfold LogoutRequest.left at left
        unfold LogoutRequest.reading at apart
        split at left
        · next phase => simp [phase] at apart
        · next phase => simp [phase] at apart
        · cases left

/-- A session is replaced. -/
theorem Sound.rotate (h : Sound env userOf user s) (at_i : s.refreshes[i]? = some c) {payload : Payload} {rec : SessionRow}
    (phase : c.phase = .updated payload rec) : Sound env userOf user { s with
      toStore := (RefreshRequest.settle (svc.rotate env c.inp payload rec) s.toStore).1
      refreshes := s.refreshes.set i
        { c with phase := (RefreshRequest.settle (svc.rotate env c.inp payload rec) s.toStore).2 } } := by
  have mem := List.mem_of_getElem? at_i
  have nobody := h.not_begun_of_replacing mem (by simp only [RefreshRequest.replacing, phase])
  obtain ⟨own, -, presented⟩ := h.refreshes c mem
  have no_payload : ∀ answer payload', ({ c with phase := .answered answer } : RefreshRequest).payload? = some payload' →
      payload'.sub = user := by
    intro answer payload' same
    rcases answered_cases answer with ended | ⟨userId, accessJti, committed⟩
    · rw [ended] at same
      cases same
    · rw [committed] at same
      cases same
  unfold RefreshRequest.settle
  rcases committed_forms (Same.start svc.rotate_writes) with raised | ⟨result, u, ⟨-, -, same⟩, returned⟩
  · rw [raised]
    exact h.refresh at_i (no_payload none) h.known fun begun => absurd begun nobody
  · rw [returned]
    refine h.refresh at_i (no_payload _) (fun r mem => ?_) fun begun => absurd begun nobody
    dsimp only at mem
    rw [same.sessions] at mem
    rcases List.mem_append.mp mem with old | new
    · exact known_of_weakens h.known (weakens_update rec) (.refl _) r old
    · rw [List.mem_singleton.mp new]
      exact own.trans (presented payload (by simp only [RefreshRequest.payload?, phase])).symm

/-- A refresh that does not come to the sessions. -/
theorem refreshToken_idle {inp : RefreshInput}
    (unread : ∀ payload, env.verify inp.token inp.now = .ok payload → ¬(payload.typ = "refresh" ∧ inp.current payload = true)) :
    Returns (Same t) (svc.refreshToken env inp) (fun result u => (∀ tokens, result ≠ .success tokens) ∧
      ∃ f, Weakens f ∧ Same { t with sessions := t.sessions.map f } u) fun _ => True := by
  unfold AuditService.refreshToken
  cases verified : env.verify inp.token inp.now with
  | error e =>
    cases e with
    | expired | invalid => exact svc.refuse_idle
    | other => exact .throw fun _ _ => trivial
  | ok payload =>
    dsimp only
    unfold AuditService.refreshVerified
    refine .ite (fun _ => svc.refuse_idle) fun typ => .ite (fun _ => svc.refuse_idle) fun current => ?_
    exact absurd ⟨not_not.mp typ, by simpa using current⟩ (unread payload verified)

theorem Sound.step_refresh (h : Sound env userOf user s) (genuine : Genuine env userOf) (turn : InTurn env user s (.refresh i)) :
    Sound env userOf user (step svc env s (.refresh i)) := by
  cases at_i : s.refreshes[i]? with
  | none => simpa only [step, at_i] using h
  | some c =>
    have mem := List.mem_of_getElem? at_i
    obtain ⟨-, -, presented⟩ := h.refreshes c mem
    simp only [step, at_i]
    unfold RefreshRequest.next
    split
    · next waiting =>
      split
      · next payload verified =>
        split
        · next reads => exact h.read genuine at_i waiting turn verified reads.1
        · next unread =>
          refine h.idle at_i (refreshToken_idle fun payload' verified' => ?_)
          cases verified.symm.trans verified'
          exact unread
      · next e failed =>
        refine h.idle at_i (refreshToken_idle fun payload' verified' => ?_)
        cases failed.symm.trans verified'
    · next payload read phase =>
      split
      · next rec found =>
        have replacing : c.replacing = true := by simp only [RefreshRequest.replacing, phase, found, Option.isSome_some]
        have nobody := h.not_begun_of_replacing mem replacing
        have own : payload.sub = user := presented payload (by simp only [RefreshRequest.payload?, phase])
        split
        · refine h.refresh at_i presented h.known fun begun => absurd begun nobody
        · refine h.refresh at_i ?_ h.known fun begun => absurd begun nobody
          rintro payload' same
          cases same
          exact own
      · next stays =>
        refine h.idle at_i (svc.refreshSession_idle fun rec found => ?_)
        have kept := Option.filter_eq_none_iff.mp stays rec found
        simpa using kept
    · next payload rec phase => exact h.rotate at_i phase
    · next userId accessJti phase =>
      have replacing : c.replacing = true := by simp only [RefreshRequest.replacing, phase]
      have nobody := h.not_begun_of_replacing mem replacing
      exact h.refresh at_i nofun h.known fun begun => absurd begun nobody
    · next phase => exact h.refresh at_i nofun h.known fun _ => ⟨rfl, .refl _, rfl⟩

/-- The session is ended, and no valid one is left. -/
theorem Sound.commit (h : Sound env userOf user s) (mem : e ∈ s.logouts) {read : Option SessionRow}
    (phase : e.phase = .updated read) : Sound env userOf user { s with
      toStore := (LogoutRequest.settle (svc.logoutRead env e.inp read) s.toStore).1
      logouts := s.logouts.set i
        { e with phase := (LogoutRequest.settle (svc.logoutRead env e.inp read) s.toStore).2 } } := by
  have begun : e.begun = true := by simp only [LogoutRequest.begun, phase]
  have only := h.left e mem begun
  have left : e.left env = e.inp.ending env read := by simp only [LogoutRequest.left, phase]
  rw [left] at only
  unfold LogoutRequest.settle
  rcases committed_forms (Same.start svc.logoutRead_returns) with raised | ⟨answer, u, same, returned⟩
  · rw [raised]
    exact h.logout h.known (.refl _) (fun _ => id) nofun nofun
  · rw [returned]
    cases ending : e.inp.ending env read with
    | none =>
      rw [ending] at same only
      have weakened := same.weakened
      obtain ⟨f, weakens, same⟩ := weakened
      have none_new : NoneNew s.tables u := .of_weakens weakens same
      exact h.logout (known_of_weakens h.known weakens same) none_new (fun _ => id)
        (fun _ => ⟨h.quiet e mem begun, only.follow none_new, h.own e mem begun⟩) nofun
    | some session =>
      rw [ending] at same only
      have none_new : NoneNew s.tables u := .of_weakens (weakens_update session) same
      refine h.logout (known_of_weakens h.known (weakens_update session) same) none_new (fun _ => id)
        (fun _ => ⟨h.quiet e mem begun, ?_, h.own e mem begun⟩) nofun
      intro r mem_r own valid
      exfalso
      dsimp only at mem_r
      rw [same.sessions] at mem_r
      obtain ⟨r₀, old, rfl⟩ := List.mem_map.mp mem_r
      rw [(weakens_update session).userId] at own
      obtain ⟨session', ended, id⟩ := only r₀ old own ((weakens_update session).valid r₀ valid)
      cases ended
      simp [SessionRow.written, SessionRow.invalidate, id] at valid

theorem Sound.step_logout (h : Sound env userOf user s) (turn : InTurn env user s (.logout i)) :
    Sound env userOf user (step svc env s (.logout i)) := by
  cases at_i : s.logouts[i]? with
  | none => simpa only [step, at_i] using h
  | some e =>
    have mem := List.mem_of_getElem? at_i
    simp only [step, at_i]
    unfold LogoutRequest.next
    split
    · next waiting =>
      obtain ⟨alone, own, single⟩ := turn e at_i waiting
      refine h.logout h.known (.refl _) (fun _ => id) (fun _ => ⟨alone, ?_, own⟩) nofun
      exact fun r mem_r user_r valid => ⟨r, single r mem_r user_r valid, rfl⟩
    · next read phase =>
      have begun : e.begun = true := by simp only [LogoutRequest.begun, phase]
      have left : e.left env = e.inp.ending env read := by simp only [LogoutRequest.left, phase]
      have only := h.left e mem begun
      rw [left] at only
      split
      · refine h.logout h.known (.refl _) (fun _ => id) (fun _ => ⟨h.quiet e mem begun, ?_, h.own e mem begun⟩) fun o ended => ?_
        · simp only [LogoutRequest.left, phase]
          exact only
        · rw [phase] at ended
          cases ended
      · exact h.logout h.known (.refl _) (fun _ => id) (fun _ => ⟨h.quiet e mem begun, only, h.own e mem begun⟩) nofun
    · next read phase => exact h.commit mem phase
    · next success phase =>
      have fewer : ∀ a ∈ s.allowlist.filter fun a => e.userId env ≠ some a.1, a ∈ s.allowlist := fun a mem_a =>
        (List.mem_filter.mp mem_a).1
      cases success with
      | false => exact h.logout h.known (.refl _) fewer nofun nofun
      | true =>
        have begun : e.begun = true := by simp only [LogoutRequest.begun, phase]
        have only := h.left e mem begun
        simp only [LogoutRequest.left, phase] at only
        refine h.logout h.known (.refl _) fewer (fun _ => ⟨h.quiet e mem begun, only, h.own e mem begun⟩) fun _ _ a mem_a own => ?_
        have other := of_decide_eq_true (List.mem_filter.mp mem_a).2
        exact other (own ▸ h.own e mem begun)
    · next success overlapping phase =>
      have same : ({ e with phase := .ended success overlapping } : LogoutRequest) = e := by rw [← phase]
      rw [same]
      refine h.logout h.known (.refl _) (fun _ => id) (fun begun => ?_) fun o ended => h.cleared e mem o ended
      exact ⟨h.quiet e mem begun, h.left e mem begun, h.own e mem begun⟩

theorem Started.sound (h : Started env userOf user s) : Sound env userOf user s where
  known := h.known
  refreshes c mem := by
    obtain ⟨waiting, own, presented⟩ := h.refreshes c mem
    refine ⟨own, presented, fun payload same => ?_⟩
    simp [RefreshRequest.payload?, waiting] at same
  quiet e mem begun := by simp [LogoutRequest.begun, h.logouts e mem] at begun
  left e mem begun := by simp [LogoutRequest.begun, h.logouts e mem] at begun
  own e mem begun := by simp [LogoutRequest.begun, h.logouts e mem] at begun
  cleared e mem overlapping ended := by
    rw [h.logouts e mem] at ended
    cases ended

theorem Sound.step (h : Sound env userOf user s) (genuine : Genuine env userOf) {event : Event} (turn : InTurn env user s event) :
    Sound env userOf user (step svc env s event) := by
  cases event with
  | refresh i => exact h.step_refresh genuine turn
  | logout i => exact h.step_logout turn

/-- The phase of a request whose service call has come to `phase`. -/
def RefreshPhase.of : Race.Phase → RefreshPhase
  | .waiting => .waiting
  | .read payload rec => .read payload rec
  | .updated payload rec => .updated payload rec
  | .ended result => .answered result

theorem settle_of (m : SessionM RefreshResult) (store : Store) : RefreshRequest.settle m store =
    ({ store with tables := (Race.settle m store.tables).1 }, .of (Race.settle m store.tables).2) := by
  unfold RefreshRequest.settle committed Race.settle
  generalize (atomically (fun t _ => t) m).run store.tables = result
  cases result with
  | ok answer u => rfl
  | error e u => rfl

/-- Up to its answer, a request does what the call does that races with others. -/
theorem next_of (call : Race.RefreshCall) (running : ∀ result, call.phase ≠ .ended result) (locked : List Nat) (store : Store) :
    ({ inp := call.inp, phase := .of call.phase } : RefreshRequest).next synchronous env locked store =
      ({ store with tables := (call.next env locked store.tables).1 }, .of (call.next env locked store.tables).2) := by
  unfold RefreshRequest.next Race.RefreshCall.next
  cases phase : call.phase with
  | waiting =>
    simp only [RefreshPhase.of]
    cases env.verify call.inp.token call.inp.now with
    | error e => exact settle_of _ _
    | ok payload =>
      dsimp only
      split
      · rfl
      · exact settle_of _ _
  | read payload read =>
    simp only [RefreshPhase.of]
    cases read.filter call.inp.rotates with
    | none => exact settle_of _ _
    | some rec =>
      dsimp only
      split
      · rfl
      · rfl
  | updated payload rec => exact settle_of _ _
  | ended result => exact absurd phase (running result)

/-- A logout whose statements nothing comes between is `LogoutService.logout`. -/
theorem logout_alone (store : Store) (running : List Nat) (inp : LogoutInput) (bearer : Option Nat) :
    ({ inp, bearer, phase := .updated (inp.reads env store.tables) } : LogoutRequest).next svc env [] running store =
      LogoutRequest.settle (svc.logoutToken env inp) store := by
  simp only [LogoutRequest.next, LogoutRequest.settle, committed_congr svc.logoutToken_eq]

end

/-! ### A logout while a tab refreshes -/

end Requests

end NyzRating.Auth.Refresh
