import NyzRating.Lib.Run
import NyzRating.Users.Services

/-!
# Calls at the same time

Calls that write users, each in a read-committed transaction of its own. A call makes its statements one by one; each reads
what the commits so far have left, and what a call writes is seen by the others when it commits. The index of the exact
e-mail is the only one that the table has.
-/

namespace NyzRating.Users

/-! ### Reads and commits -/

/-- `create` once the e-mail and the role are checked. -/
def insertUser (t : Tables) (inp : CreateInput) : Except UserError (User × Tables) := do
  let (created, t) ← t.create
    { id := 0, email := stripped inp.email, passwordHash := inp.passwordHash, isActive := true, role := inp.role
      name := inp.name.filter (· ≠ "")
      registrationCompletedAt := if inp.activateImmediately then some inp.now else none
      credentialsPasswordSet := false }
  if inp.activateImmediately then return (created, t)
  else
    let t ← t.createInviteToken created.id inp.invite.tokenHash inp.invite.expiresAt
    return (created, t)

/-- `update` once the updates are decided. -/
def writeUpdates (t : Tables) (user : User) (updates : Updates) (inp : UpdateInput) : Except UserError Tables := do
  let t ← t.update (user.withUpdates updates)
  if authStateChanged user inp then return (t.invalidateSessions user.id).incrementSecurityVersion user.id
  else return t

theorem create_eq (t : Tables) (inp : CreateInput) : create t inp =
    if (t.getByEmail (stripped inp.email)).isSome then throw (.valueError "Email already exists")
    else checkedRole t inp.role >>= fun _ => insertUser t inp := rfl

theorem update_eq (t : Tables) (inp : UpdateInput) : update t inp =
    match t.getById inp.userId with
    | none => throw (.valueError "User not found")
    | some user => decidedUpdates t user inp >>= fun updates =>
        if updates = {} then return t else writeUpdates t user updates inp := rfl

def Tables.getByPendingEmailTokenHash (t : Tables) (tokenHash : String) : Option User :=
  (t.users.find? fun r => r.pendingEmailTokenHash = some tokenHash && r.live).map (·.toUser)

/-- The number of users that `_load_resource_counts` gives. -/
def Tables.userCount (t : Tables) : Nat := t.users.countP (·.live)

/-- What the plan and the account of the tenant say of new users: `assert_not_restricted`, and `max_users`. -/
structure UsageLimits where
  notRestricted : Bool × Option String := (true, none)
  maxUsers : Option Int

/-- `BillingService.can_create_user` -/
def canCreateUser (usage : UsageLimits) (t : Tables) : Bool × Option String :=
  if usage.notRestricted.1 = false then usage.notRestricted
  else
    match usage.maxUsers with
    | none => (true, none)
    | some maxUsers =>
      if maxUsers ≤ t.userCount then
        (false, some ("Elérted a csomagban engedélyezett felhasználói limitet (" ++ toString maxUsers ++ ")."))
      else (true, none)

namespace Concurrent

/-! ### Calls -/

inductive Request where
  /-- `POST /users` -/
  | post (usage : UsageLimits) (inp : CreateInput)
  | create (inp : CreateInput)
  | update (inp : UpdateInput)
  /-- `confirm_email_change` with a token of this hash. -/
  | confirmEmailChange (tokenHash : String) (now : Int)

inductive Write where
  | insert (inp : CreateInput)
  | update (user : User) (updates : Updates) (inp : UpdateInput)
  | confirm (user : User) (newEmail : String)

inductive Result where
  | done
  | refused (reason : Option String)
  | raised (e : UserError)
  /-- Another error: the database, the mail or a service that is missing. -/
  | failed

inductive Phase where
  | waiting
  /-- The request was let through to `UserService.create`. -/
  | admitted (inp : CreateInput)
  /-- No user has the e-mail. -/
  | emailFree (inp : CreateInput)
  /-- The user of an update that names an e-mail is read. -/
  | found (user : User) (inp : UpdateInput)
  /-- The user of a token is read, and the new e-mail with it. -/
  | tokenFound (user : User) (newEmail : String)
  /-- All checks are made. -/
  | checked (write : Write)
  | ended (result : Result)

structure Call where
  request : Request
  phase : Phase := .waiting

structure State where
  tables : Tables
  calls : List Call

/-- The first read of `create`. -/
def checkEmail (t : Tables) (inp : CreateInput) : Phase :=
  if (t.getByEmail (stripped inp.email)).isSome then .ended (.raised (.valueError "Email already exists")) else .emailFree inp

/-- The decision of `update` and, without anything to write, its end. -/
def decideUpdate (t : Tables) (user : User) (inp : UpdateInput) : Phase :=
  match decidedUpdates t user inp with
  | .error e => .ended (.raised e)
  | .ok updates => if updates = {} then .ended .done else .checked (.update user updates inp)

/-- The first statement of a call. -/
def begin (t : Tables) : Request → Phase
  | .post usage inp =>
    match canCreateUser usage t with
    | (true, _) => .admitted inp
    | (false, reason) => .ended (.refused reason)
  | .create inp => checkEmail t inp
  | .update inp =>
    match t.getById inp.userId with
    | none => .ended (.raised (.valueError "User not found"))
    | some user => if user.isOwner || inp.email.isNone then decideUpdate t user inp else .found user inp
  | .confirmEmailChange tokenHash now =>
    match (t.getByPendingEmailTokenHash tokenHash).filter fun user => (user.pendingEmail.getD "") ≠ "" with
    | none => .ended (.raised (.valueError "invalid_email_change_token"))
    | some user =>
      if user.pendingEmailExpiresAt.all (· < now) then .ended (.raised (.valueError "expired_email_change_token"))
      else .tokenFound user (stripped (user.pendingEmail.getD ""))

/-- The commit of what a call writes. -/
def commit (t : Tables) : Write → Except UserError Tables
  | .insert inp => (insertUser t inp).map (·.2)
  | .update user updates inp => writeUpdates t user updates inp
  | .confirm user newEmail => do
    let t ← t.update
      { user with email := newEmail, pendingEmail := none, pendingEmailTokenHash := none, pendingEmailExpiresAt := none }
    return (t.invalidateSessions user.id).incrementSecurityVersion user.id

/-- The next statement of a call. Where it fails, the call is over, but for the check of the seats, which counts as
passed. -/
def Call.next (c : Call) (fails : Bool) (t : Tables) : Tables × Phase :=
  match c.phase with
  | .ended result => (t, .ended result)
  | .waiting =>
    match fails, c.request with
    | true, .post _ inp => (t, .admitted inp)
    | true, _ => (t, .ended .failed)
    | false, request => (t, begin t request)
  | .admitted inp => (t, if fails then .ended .failed else checkEmail t inp)
  | .emailFree inp =>
    if fails then (t, .ended .failed)
    else
      match checkedRole t inp.role with
      | .error e => (t, .ended (.raised e))
      | .ok _ => (t, .checked (.insert inp))
  | .found user inp => (t, if fails then .ended .failed else decideUpdate t user inp)
  | .tokenFound user newEmail =>
    if fails then (t, .ended .failed)
    else if (t.getByEmail newEmail).any (·.id ≠ user.id) then
      (t, .ended (.raised (.valueError "email_already_exists")))
    else (t, .checked (.confirm user newEmail))
  | .checked write =>
    if fails then (t, .ended .failed)
    else
      match commit t write with
      | .error e => (t, .ended (.raised e))
      | .ok t => (t, .ended .done)

/-- A turn of one call, which may fail. -/
structure Turn where
  call : Nat
  fails : Bool := false

def step (s : State) (turn : Turn) : State :=
  match s.calls[turn.call]? with
  | none => s
  | some c =>
    let (tables, phase) := c.next turn.fails s.tables
    { tables, calls := s.calls.set turn.call { c with phase } }

theorem step_cases (s : State) (turn : Turn) : step s turn = s ∨ ∃ c, s.calls[turn.call]? = some c ∧
    step s turn = { tables := (c.next turn.fails s.tables).1
                    calls := s.calls.set turn.call { c with phase := (c.next turn.fails s.tables).2 } } := by
  unfold step
  cases at_i : s.calls[turn.call]? with
  | none => exact .inl rfl
  | some c => exact .inr ⟨c, rfl, rfl⟩

/-- Only a commit changes the tables. -/
theorem Call.next_tables (c : Call) (fails : Bool) (t : Tables) : (c.next fails t).1 = t ∨
    ∃ write t', c.phase = .checked write ∧ commit t write = .ok t' ∧ c.next fails t = (t', .ended .done) := by
  unfold Call.next
  cases c.phase with
  | waiting =>
    cases fails with
    | false => exact .inl rfl
    | true => cases c.request <;> exact .inl rfl
  | admitted inp => exact .inl rfl
  | emailFree inp =>
    refine .inl ?_
    dsimp only
    split
    · rfl
    · split <;> rfl
  | found user inp => exact .inl rfl
  | tokenFound user newEmail =>
    refine .inl ?_
    dsimp only
    split
    · rfl
    · split <;> rfl
  | checked write =>
    dsimp only
    split
    · exact .inl rfl
    · cases done : commit t write with
      | error e => exact .inl rfl
      | ok t' => exact .inr ⟨write, t', rfl, done, rfl⟩
  | ended result => exact .inl rfl

/-! ### A call alone -/

/-- What the tables are when a service has returned or raised. -/
def after {α : Type} (t : Tables) (result : Except UserError α) (tables : α → Tables) : Tables :=
  match result with
  | .ok a => tables a
  | .error _ => t

/-- One call in a phase. -/
def inPhase (t : Tables) (request : Request) (phase : Phase) : State := { tables := t, calls := [{ request, phase }] }

section
variable (t : Tables) (request : Request)

theorem step_at {phase : Phase} : step (inPhase t request phase) { call := 0 } =
    inPhase (Call.next { request, phase } false t).1 request (Call.next { request, phase } false t).2 := rfl

theorem write_at (write : Write) : ∃ result, step (inPhase t request (.checked write)) { call := 0 } =
    inPhase (after t (commit t write) id) request (.ended result) := by
  have next : Call.next { request, phase := .checked write } false t =
      match commit t write with
      | .error e => (t, .ended (.raised e))
      | .ok t => (t, .ended .done) := rfl
  rw [step_at, next]
  cases commit t write with
  | error e => exact ⟨.raised e, rfl⟩
  | ok t' => exact ⟨.done, rfl⟩

theorem decideUpdate_at (user : User) (inp : UpdateInput) : ∃ result,
    step (inPhase t request (decideUpdate t user inp)) { call := 0 } =
      inPhase (after t (decidedUpdates t user inp >>= fun updates =>
        if updates = {} then return t else writeUpdates t user updates inp) id) request (.ended result) := by
  unfold decideUpdate
  cases decidedUpdates t user inp with
  | error e => exact ⟨.raised e, rfl⟩
  | ok updates =>
    show ∃ result, step (inPhase t request (if updates = {} then _ else _)) _ =
      inPhase (after t (if updates = {} then return t else _) id) _ _
    split
    · exact ⟨.done, rfl⟩
    · exact write_at t request (.update user updates inp)

end

/-- Statement after statement, a call with no other one beside it is `create`. -/
theorem create_alone (t : Tables) (inp : CreateInput) :
    (Runs.final step (inPhase t (.create inp) .waiting) [{ call := 0 }, { call := 0 }, { call := 0 }]).tables =
      after t (create t inp) (·.2) := by
  have first : step (inPhase t (.create inp) .waiting) { call := 0 } = inPhase t (.create inp) (checkEmail t inp) := rfl
  rw [create_eq, Runs.final_cons, first, checkEmail]
  split
  · rfl
  · have next : Call.next { request := .create inp, phase := .emailFree inp } false t =
        match checkedRole t inp.role with
        | .error e => (t, .ended (.raised e))
        | .ok _ => (t, .checked (.insert inp)) := rfl
    rw [Runs.final_cons, step_at, next]
    cases checkedRole t inp.role with
    | error e => rfl
    | ok _ =>
      obtain ⟨result, written⟩ := write_at t (.create inp) (.insert inp)
      refine (congrArg State.tables written).trans ?_
      show after t ((insertUser t inp).map (·.2)) id = after t (insertUser t inp) (·.2)
      cases insertUser t inp <;> rfl

/-- And so is an update. -/
theorem update_alone (t : Tables) (inp : UpdateInput) :
    (Runs.final step (inPhase t (.update inp) .waiting) [{ call := 0 }, { call := 0 }, { call := 0 }]).tables =
      after t (update t inp) id := by
  have next : Call.next { request := .update inp, phase := .waiting } false t =
      (t, match t.getById inp.userId with
        | none => .ended (.raised (.valueError "User not found"))
        | some user => if user.isOwner || inp.email.isNone then decideUpdate t user inp else .found user inp) := rfl
  rw [update_eq, Runs.final_cons, step_at, next]
  cases t.getById inp.userId with
  | none => rfl
  | some user =>
    obtain ⟨result, decided⟩ := decideUpdate_at t (.update inp) user inp
    dsimp only
    split
    · rw [Runs.final_cons, decided]
      rfl
    · have found : step (inPhase t (.update inp) (.found user inp)) { call := 0 } =
          inPhase t (.update inp) (decideUpdate t user inp) := rfl
      rw [Runs.final_cons, found, Runs.final_cons, decided]
      rfl

/-! ### What a commit does -/

/-- The e-mail that a write leaves, and the user whose row has it, if there is one already. -/
def Write.address : Write → String × Option Nat
  | .insert inp => (stripped inp.email, none)
  | .update user updates _ => (updates.email.getD user.email, some user.id)
  | .confirm user newEmail => (newEmail, some user.id)

/-- A row with the e-mail has come; no other row has it. -/
def Inserted (t t' : Tables) (email : String) : Prop :=
  (∀ r ∈ t.users, r.email ≠ email) ∧ ∃ row : UserRow, row.id = t.nextUserId ∧ row.email = email ∧ row.live = true ∧
    t'.users = t.users ++ [row] ∧ t'.nextUserId = t.nextUserId + 1

/-- The row of a user has got the e-mail; no other row has it. -/
def Rewritten (t t' : Tables) (id : Nat) (email : String) : Prop :=
  (∀ r ∈ t.users, r.id ≠ id → r.email ≠ email) ∧ ∃ f : UserRow → UserRow,
    (∀ r, (f r).id = r.id ∧ (f r).email = email ∧ (f r).live = r.live) ∧
      t'.users = (t.setRow id f).users ∧ t'.nextUserId = t.nextUserId

theorem update_rewritten {t t' : Tables} {u : User} (done : t.update u = .ok t') : Rewritten t t' u.id u.email := by
  obtain ⟨-, free, rfl⟩ := Tables.update_eq_ok.mp done
  refine ⟨fun r mem other same => ?_, u.written, fun r => ⟨rfl, rfl, rfl⟩, rfl, rfl⟩
  have taken : t.emailTaken u = true := List.any_eq_true.mpr ⟨r, mem, by simp [other, same]⟩
  exact Bool.false_ne_true (free.symm.trans taken)

theorem Rewritten.revoke {t t' : Tables} {id : Nat} {email : String} (h : Rewritten t t' id email) :
    Rewritten t ((t'.invalidateSessions id).incrementSecurityVersion id) id email := by
  obtain ⟨free, f, keeps, users, next⟩ := h
  refine ⟨free, fun r => { f r with securityVersion := (f r).securityVersion + 1 }, keeps, ?_, next⟩
  show t'.users.map _ = t.users.map _
  rw [users]
  show (t.users.map _).map _ = t.users.map _
  rw [List.map_map]
  refine List.map_congr_left fun r _ => ?_
  by_cases own : r.id = id
  · have same : (f r).id = id := (keeps r).1.trans own
    simp only [Function.comp_apply, if_pos own, if_pos same]
  · simp only [Function.comp_apply, if_neg own]

theorem commit_insert {t t' : Tables} {inp : CreateInput} (done : commit t (.insert inp) = .ok t') :
    Inserted t t' (stripped inp.email) := by
  have done : (insertUser t inp).map (·.2) = .ok t' := done
  cases inserted : insertUser t inp with
  | error e =>
    rw [inserted] at done
    cases done
  | ok result =>
    rw [inserted] at done
    cases done
    obtain ⟨⟨created, u⟩, row, inserted⟩ := Fallible.bind_eq_ok.mp inserted
    obtain ⟨absent, row⟩ := Fallible.guard_eq_ok.mp row
    have free : ∀ r ∈ t.users, r.email ≠ stripped inp.email := fun r mem same =>
      absent (List.any_eq_true.mpr ⟨r, mem, decide_eq_true same⟩)
    cases row
    dsimp only at inserted
    split at inserted
    · cases inserted
      exact ⟨free, _, rfl, rfl, rfl, rfl, rfl⟩
    · obtain ⟨v, token, inserted⟩ := Fallible.bind_eq_ok.mp inserted
      obtain ⟨-, token⟩ := Fallible.guard_eq_ok.mp token
      cases token
      cases inserted
      exact ⟨free, _, rfl, rfl, rfl, rfl, rfl⟩

theorem commit_update {t t' : Tables} {user : User} {updates : Updates} {inp : UpdateInput}
    (done : commit t (.update user updates inp) = .ok t') : Rewritten t t' user.id (updates.email.getD user.email) := by
  obtain ⟨u, updated, done⟩ := Fallible.bind_eq_ok.mp done
  split at done
  · cases done
    exact (update_rewritten updated).revoke
  · cases done
    exact update_rewritten updated

theorem commit_confirm {t t' : Tables} {user : User} {newEmail : String}
    (done : commit t (.confirm user newEmail) = .ok t') : Rewritten t t' user.id newEmail := by
  obtain ⟨u, updated, done⟩ := Fallible.bind_eq_ok.mp done
  cases done
  exact (update_rewritten updated).revoke

end Concurrent

end NyzRating.Users
