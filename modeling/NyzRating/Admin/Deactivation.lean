import NyzRating.Admin.UserManagement
import NyzRating.Admin.MfaLockout

/-!
# Deactivated platform admins

One operation after another. An admin is out from the time at which another one has deactivated or deleted the account,
until another one activates it or sends a new link. A link that was sent before still activates it.
-/

namespace NyzRating.Admin.Deactivation

open Process Program Runs

/-! ### Operations -/

inductive Operation where
  | bootstrapFirstAdmin (email password : String) (now : Int)
  | createUser (email unknown : String) (m : Moment)
  | updateUser (userId : Nat) (email : Option String) (isActive : Option Bool) (updatedBy : Option Nat)
  | deleteUser (userId currentUserId : Nat) (now : Int)
  | changePassword (userId : Nat) (currentPassword newPassword : String)
  | login (inp : AdminLoginInput)
  | refresh (inp : AdminRefreshInput)
  | logout (refreshToken : String)
  | resolveToken (token : String) (now : Int)
  | setPassword (inp : SetPasswordInput)
  | sendSetPasswordEmail (userId : Nat) (updatedBy : Option Nat) (m : Moment)
  | startMfaSetup (userId : Nat) (secret : String) (now : Int)
  | confirmMfaSetup (userId : Nat) (code : String) (recoveryCodes : List String) (now timestamp : Int)
  | disableMfa (userId : Nat) (password : String)

/-- The admin who has got in. -/
abbrev Admitted := Option Nat

def Operation.program (env : AdminEnv) : Operation → AdminM Admitted
  | .bootstrapFirstAdmin email password now => do
    Admin.bootstrapFirstAdmin env email password now
    return none
  | .createUser email unknown m => do
    createAccount env email unknown m
    return none
  | .updateUser userId email isActive _ => do
    updateAccount env userId email isActive
    return none
  | .deleteUser userId currentUserId now => do
    deleteAccount userId currentUserId now
    return none
  | .changePassword userId currentPassword newPassword => do
    Admin.changePassword env userId currentPassword newPassword
    return none
  | .login inp => do
    let login ← Admin.login env inp
    return login.map (·.userId)
  | .refresh inp => do
    let login ← Admin.refresh env inp
    return login.map (·.userId)
  | .logout refreshToken => do
    Admin.logout env refreshToken
    return none
  | .resolveToken token now => do
    let user ← Admin.resolveToken env token now
    return user.map (·.id)
  | .setPassword inp => do
    Admin.setPassword env inp
    return none
  | .sendSetPasswordEmail userId _ m => do
    Admin.sendSetPasswordEmail env userId m
    return none
  | .startMfaSetup userId secret now => do
    Admin.startMfaSetup userId secret now
    return none
  | .confirmMfaSetup userId code recoveryCodes now timestamp => do
    Admin.confirmMfaSetup env userId code recoveryCodes now timestamp
    return none
  | .disableMfa userId password => do
    Admin.disableMfa env userId password
    return none

/-- The admins that are out once the operation has returned. -/
def Operation.outAfter (out : List Nat) : Operation → List Nat
  | .updateUser userId _ (some false) _ => userId :: out
  | .deleteUser userId _ _ => userId :: out
  | .updateUser userId _ (some true) updatedBy => if updatedBy = some userId then out else out.filter (· ≠ userId)
  | .sendSetPasswordEmail userId updatedBy m =>
    if m.delivery = .sent ∧ updatedBy ≠ some userId then out.filter (· ≠ userId) else out
  | _ => out

structure State extends World where
  /-- The admins that are out. -/
  out : List Nat := []
  deriving DecidableEq, Repr

def perform (env : AdminEnv) (op : Operation) (w : World) : EStateM.Result AdminError World Admitted :=
  ((op.program env).run AdminCall.apply).run w

def step (env : AdminEnv) (s : State) (op : Operation) : State :=
  match perform env op s.toWorld with
  | .ok _ w => { toWorld := w, out := op.outAfter s.out }
  | .error _ w => { toWorld := w, out := s.out }

def admitted : EStateM.Result AdminError World Admitted → Admitted
  | .ok result _ => result
  | .error _ _ => none

/-- The operation lets none of those in who are out. -/
def KeepsOut (env : AdminEnv) (s : State) (op : Operation) : Prop := ∀ userId ∈ admitted (perform env op s.toWorld), userId ∉ s.out

/-- The link is one that can still be used, of a user who is out and has not been deleted. -/
def opensDoor (env : AdminEnv) (s : State) (inp : SetPasswordInput) : Bool :=
  (s.tables.getInviteToken (env.auth.sha256Hex inp.token)).any fun record =>
    record.usedAt.isNone && inp.now ≤ record.expiresAt && (env.passwordRefusal inp.password).isNone &&
      s.tables.users.any fun u => u.id = record.userId && u.deletedAt.isNone && record.userId ∈ s.out

/-- No password is set with a link of an admin who is out; and none of these activates the own account. -/
def Guarded (env : AdminEnv) (s : State) : Operation → Prop
  | .setPassword inp => opensDoor env s inp = false
  | .updateUser userId _ (some true) updatedBy => updatedBy = some userId → userId ∉ s.out
  | _ => True

instance (env : AdminEnv) (s : State) : ∀ op : Operation, Decidable (Guarded env s op)
  | .setPassword inp => inferInstanceAs (Decidable (opensDoor env s inp = false))
  | .updateUser userId _ (some true) updatedBy => inferInstanceAs (Decidable (updatedBy = some userId → userId ∉ s.out))
  | .updateUser _ _ none _ | .updateUser _ _ (some false) _ | .bootstrapFirstAdmin .. | .createUser .. | .deleteUser ..
  | .changePassword .. | .login _ | .refresh _ | .logout _ | .resolveToken .. | .sendSetPasswordEmail .. | .startMfaSetup ..
  | .confirmMfaSetup .. | .disableMfa .. => .isTrue trivial

instance (env : AdminEnv) (s : State) (op : Operation) : Decidable (KeepsOut env s op) :=
  inferInstanceAs (Decidable (∀ userId ∈ admitted (perform env op s.toWorld), userId ∉ s.out))

/-! ### The invariant -/

/-- The accounts of those who are out are inactive or deleted. -/
structure Locked (out : List Nat) (w : World) : Prop where
  known : ∀ user ∈ w.tables.users, user.id < w.tables.nextUserId
  drawn : ∀ userId ∈ out, userId < w.tables.nextUserId
  closed : ∀ user ∈ w.tables.users, user.id ∈ out → user.isActive = false ∨ user.deletedAt.isSome = true

/-- A call that activates none of the accounts. -/
def Mild (out : List Nat) : AdminCall → Prop
  | .updateUser userId change => userId ∈ out → change.isActive ≠ some true
  | .updateUserWithEmail userId _ change => userId ∈ out → change.isActive ≠ some true
  | _ => True

section
variable {env : AdminEnv} {out out' : List Nat} {w : World} {call : AdminCall}

/-- Accounts changed in place. -/
theorem Locked.of_map (h : Locked out w) {u : World} {f : PlatformAdminUser → PlatformAdminUser}
    (users : u.tables.users = w.tables.users.map f) (next : u.tables.nextUserId = w.tables.nextUserId)
    (same : ∀ user, (f user).id = user.id)
    (closed : ∀ user ∈ w.tables.users, user.id ∈ out → (user.isActive = false ∨ user.deletedAt.isSome = true) →
      (f user).isActive = false ∨ (f user).deletedAt.isSome = true) : Locked out u where
  known user mem := by
    rw [users] at mem
    obtain ⟨before, inside, rfl⟩ := List.mem_map.mp mem
    rw [same, next]
    exact h.known before inside
  drawn userId mem := next ▸ h.drawn userId mem
  closed user mem gone := by
    rw [users] at mem
    obtain ⟨before, inside, rfl⟩ := List.mem_map.mp mem
    rw [same] at gone
    exact closed before inside gone (h.closed before inside gone)

theorem Locked.of_same (h : Locked out w) {u : World} (users : u.tables.users = w.tables.users)
    (next : u.tables.nextUserId = w.tables.nextUserId) : Locked out u :=
  h.of_map (f := id) (users.trans (List.map_id _).symm) next (fun _ => rfl) fun _ _ _ closed => closed

/-- The accounts of `userId` changed: none of those that are out has been activated. -/
theorem Locked.update (h : Locked out w) {u : World} {userId : Nat} (isActive : Option Bool)
    {f : PlatformAdminUser → PlatformAdminUser}
    (users : u.tables.users = w.tables.users.map fun user => if user.id = userId then f user else user)
    (next : u.tables.nextUserId = w.tables.nextUserId) (same : ∀ user, (f user).id = user.id)
    (sets : ∀ user, (f user).isActive = isActive.getD user.isActive)
    (deleted : ∀ user, user.deletedAt.isSome = true → (f user).deletedAt.isSome = true)
    (turns : ∀ id ∈ out', id = userId ∧ isActive = some false ∧ userId < w.tables.nextUserId ∨
      id ∈ out ∧ (id = userId → isActive ≠ some true)) : Locked out' u where
  known user mem := by
    rw [users] at mem
    obtain ⟨before, inside, rfl⟩ := List.mem_map.mp mem
    have id_eq : (if before.id = userId then f before else before).id = before.id := by
      split
      · exact same before
      · rfl
    rw [id_eq, next]
    exact h.known before inside
  drawn id mem := by
    rw [next]
    rcases turns id mem with ⟨rfl, -, drawn⟩ | ⟨old, -⟩
    · exact drawn
    · exact h.drawn id old
  closed user mem gone := by
    rw [users] at mem
    obtain ⟨before, inside, rfl⟩ := List.mem_map.mp mem
    by_cases own : before.id = userId
    · rw [if_pos own] at gone ⊢
      rw [sets]
      rw [same, own] at gone
      rcases turns userId gone with ⟨-, off, -⟩ | ⟨old, keeps⟩
      · exact .inl (by rw [off]; rfl)
      · rcases h.closed before inside (own ▸ old) with inactive | late
        · rcases isActive with _ | _ | _
          · exact .inl inactive
          · exact .inl rfl
          · exact absurd rfl (keeps rfl)
        · exact .inr (deleted before late)
    · rw [if_neg own] at gone ⊢
      rcases turns before.id gone with ⟨same, -, -⟩ | ⟨old, -⟩
      · exact absurd same own
      · exact h.closed before inside old

theorem updateUserWithEmail_cases (t : AdminTables) (userId : Nat) (email : String) (change : UserUpdate) :
    t.updateUserWithEmail userId email change = t ∨ t.updateUserWithEmail userId email change =
      { t with users := t.users.map fun u => if u.id = userId then { change.apply u with email } else u } := by
  unfold AdminTables.updateUserWithEmail
  split
  · exact .inl rfl
  · exact .inr rfl

theorem createUser_cases (t : AdminTables) (row : PlatformAdminUser) : t.createUser row = t ∨
    t.createUser row = { t with users := t.users ++ [{ row with id := t.nextUserId }], nextUserId := t.nextUserId + 1 } := by
  unfold AdminTables.createUser
  split
  · exact .inl rfl
  · exact .inr rfl

theorem Locked.apply (h : Locked out w) (mild : Mild out call) : Locked out (call.apply w) := by
  cases call with
  | updateUser userId change =>
    exact h.update change.isActive rfl rfl (fun _ => rfl) (fun _ => rfl) (fun _ late => late) fun id gone =>
      .inr ⟨gone, fun own => mild (own ▸ gone)⟩
  | updateUserWithEmail userId email change =>
    rcases updateUserWithEmail_cases w.tables userId email change with same | changed
    · exact h.of_same (congrArg AdminTables.users same) (congrArg AdminTables.nextUserId same)
    · have next := congrArg AdminTables.nextUserId changed
      exact h.update change.isActive (congrArg AdminTables.users changed) next (fun _ => rfl) (fun _ => rfl) (fun _ late => late)
        fun id gone =>
        .inr ⟨gone, fun own => mild (own ▸ gone)⟩
  | createUser row =>
    rcases createUser_cases w.tables row with same | added
    · exact h.of_same (congrArg AdminTables.users same) (congrArg AdminTables.nextUserId same)
    · have users : ((AdminCall.createUser row).apply w).tables.users = w.tables.users ++ [{ row with id := w.tables.nextUserId }] :=
        congrArg AdminTables.users added
      have next : ((AdminCall.createUser row).apply w).tables.nextUserId = w.tables.nextUserId + 1 :=
        congrArg AdminTables.nextUserId added
      refine ⟨fun user mem => ?_, fun userId mem => ?_, fun user mem gone => ?_⟩
      · rw [users] at mem
        rw [next]
        rcases List.mem_append.mp mem with old | new
        · exact Nat.lt_succ_of_lt (h.known user old)
        · cases List.mem_singleton.mp new
          exact Nat.lt_succ_self _
      · rw [next]
        exact Nat.lt_succ_of_lt (h.drawn userId mem)
      · rw [users] at mem
        rcases List.mem_append.mp mem with old | new
        · exact h.closed user old gone
        · cases List.mem_singleton.mp new
          exact absurd (h.drawn _ gone) (Nat.lt_irrefl _)
  | deleteUser userId now =>
    refine h.update (some false) rfl rfl (fun _ => rfl) (fun _ => rfl) (fun _ _ => rfl) fun id gone => ?_
    exact .inr ⟨gone, fun _ => nofun⟩
  | consumeMfaRecoveryCode userId _ _ | upsertPendingMfaSecret userId _ _ | enableMfa userId _ _ | disableMfa userId =>
    refine h.of_map rfl rfl (fun user => ?_) fun user mem gone closed => ?_
    · split
      · rfl
      · rfl
    · split
      · exact closed
      · exact closed
  | createRefreshSession session =>
    have same : (w.tables.createRefreshSession session).users = w.tables.users ∧
        (w.tables.createRefreshSession session).nextUserId = w.tables.nextUserId := by
      unfold AdminTables.createRefreshSession
      split
      · exact ⟨rfl, rfl⟩
      · exact ⟨rfl, rfl⟩
    exact h.of_same same.1 same.2
  | recordFailedAttempt key limits now =>
    have same : (w.tables.recordFailedAttempt key limits now).users = w.tables.users ∧
        (w.tables.recordFailedAttempt key limits now).nextUserId = w.tables.nextUserId := by
      unfold AdminTables.recordFailedAttempt
      split
      · exact ⟨rfl, rfl⟩
      · exact ⟨rfl, rfl⟩
    exact h.of_same same.1 same.2
  | _ => exact h.of_same rfl rfl

theorem Locked.subset (h : Locked out w) (sub : ∀ userId ∈ out', userId ∈ out) : Locked out' w :=
  ⟨h.known, fun userId mem => h.drawn userId (sub userId mem), fun user mem gone => h.closed user mem (sub _ gone)⟩

/-- A user who is out is not one whose tokens are good. -/
theorem Locked.not_open (h : Locked out w) {user : PlatformAdminUser} (mem : user ∈ w.tables.users)
    (active : user.isActive = true) (present : user.deletedAt.isSome = false) : user.id ∉ out := by
  intro gone
  rcases h.closed user mem gone with inactive | deleted
  · rw [active] at inactive
    cases inactive
  · rw [present] at deleted
    cases deleted

/-! ### What the programs call -/

theorem settles_of_mild {α : Type} {m : AdminM α} (h : Issues (Mild out) m) :
    Settles (Locked out) (m.run AdminCall.apply) (fun _ => Locked out) fun _ => Locked out :=
  h.settles fun _ _ mild locked => locked.apply mild

theorem mild_ensureNotBlocked (now : Int) : ∀ pairs, Issues (Mild out) (ensureNotBlocked now pairs)
  | [] => Issues.ret _
  | _ :: pairs => Issues.bind (Issues.ask trivial) fun blocked => by
    cases blocked with
    | true => exact Issues.raise _
    | false => exact mild_ensureNotBlocked now pairs

theorem mild_recordFailedAttempts (now : Int) : ∀ pairs, Issues (Mild out) (recordFailedAttempts env now pairs)
  | [] => Issues.ret _
  | _ :: pairs => by
    refine Issues.bind ?_ fun _ => Issues.bind (mild_recordFailedAttempts now pairs) fun _ => Issues.ret _
    unfold recordMfaFailedAttempt
    dsimp only
    split
    · exact Issues.ret _
    · exact Issues.ask trivial

theorem mild_verifyTotp (user : PlatformAdminUser) (code : String) (now timestamp : Int) :
    Issues (Mild out) (verifyTotp env user code now timestamp) := by
  unfold verifyTotp
  refine Issues.ite (Issues.ret _) ?_
  cases Auth.verifyAuthenticatorCode env.auth user.mfaSecret code timestamp with
  | none => exact Issues.raise _
  | some matched => exact Issues.ite (Issues.ask trivial) (Issues.ret _)

theorem mild_consume (userId : Nat) (codeHash : String) : Issues (Mild out) (consumeMfaRecoveryCode userId codeHash) :=
  Issues.bind (Issues.ask trivial) fun row => by
    cases row with
    | none => exact Issues.ret _
    | some row => exact Issues.ite (Issues.ask trivial) (Issues.ret _)

theorem mild_verify (user : PlatformAdminUser) (code : Option String) (now timestamp : Int) :
    Issues (Mild out) (verifyPlatformAdminMfa env user code now timestamp) := by
  unfold verifyPlatformAdminMfa
  dsimp only
  generalize env.normalizeMfaCode code = normalized
  refine Issues.ite (Issues.ret _) (Issues.bind (mild_verifyTotp _ _ _ _) fun _ => ?_)
  exact Issues.ite (Issues.ret _) (Issues.ite (mild_consume _ _) (Issues.ret _))

theorem mild_reset (now : Int) (pairs : List (MfaScope × String)) : Issues (Mild out) (resetMfaAttempts now pairs) := by
  unfold resetMfaAttempts
  exact Issues.ite (Issues.ret _) (Issues.ask trivial)

theorem mild_secondFactor (user : PlatformAdminUser) (inp : AdminLoginInput) : Issues (Mild out) (secondFactor env user inp) := by
  unfold secondFactor
  split
  · exact Issues.ret _
  · split
    · exact Issues.raise _
    · dsimp only
      generalize mfaAttemptScopePairs user.id inp.client.ip _ = pairs
      generalize resetPairs user.id inp.client.ip = all
      refine Issues.bind (mild_ensureNotBlocked inp.now pairs) fun _ => Issues.bind (mild_verify _ _ _ _) fun verified => ?_
      cases verified with
      | true =>
        rw [if_pos rfl]
        exact mild_reset _ _
      | false =>
        rw [if_neg Bool.false_ne_true]
        refine Issues.bind (mild_recordFailedAttempts inp.now pairs) fun blockedNow => ?_
        cases blockedNow with
        | true =>
          rw [if_pos rfl]
          exact Issues.bind (Issues.ask trivial) fun _ => Issues.raise _
        | false =>
          rw [if_neg Bool.false_ne_true]
          exact Issues.raise _

/-! ### Who gets in -/

theorem Locked.current (h : Locked out w) {user : PlatformAdminUser} {userId : Nat} {userVer : Int}
    (found : w.tables.getById userId = some user) (current : user.current userVer = true) : user.id ∉ out := by
  simp only [PlatformAdminUser.current, Bool.and_eq_true, Option.isNone_iff_eq_none] at current
  exact h.not_open (List.mem_of_find?_eq_some found) current.1.1 (by rw [current.1.2]; rfl)

theorem settles_issue (user : PlatformAdminUser) (client : Auth.Refresh.Client) (ids : FreshIds) (now : Int) :
    Settles (Locked out) ((issueAccessAndRefresh env user client ids now).run AdminCall.apply)
      (fun login w => Locked out w ∧ login.userId = user.id) fun _ => Locked out :=
  settles_bind (settles_of_mild (Issues.attempt trivial)) fun _ => settles_ret fun _ h => ⟨h, rfl⟩

theorem settles_updateUser {userId : Nat} {change : UserUpdate} (mild : change.isActive ≠ some true) :
    Settles (Locked out) ((updateUser userId change).run AdminCall.apply)
      (fun updated w => (∀ user ∈ updated, user.id = userId) ∧ Locked out w) fun _ => Locked out := by
  refine settles_call fun w locked => settles_ret ?_
  rintro _ rfl
  refine ⟨fun user mem => ?_, locked.apply fun _ => mild⟩
  obtain ⟨row, found, rfl⟩ := Option.map_eq_some_iff.mp mem
  have same : row.id = userId := by simpa using List.find?_some found
  exact same

theorem login_locked (inp : AdminLoginInput) : Settles (Locked out) ((Admin.login env inp).run AdminCall.apply)
    (fun login w => Locked out w ∧ ∀ l ∈ login, l.userId ∉ out) fun _ => Locked out := by
  refine settles_ask_bind fun w locked => ?_
  have start : ∀ v : World, v = w → Locked out v := fun _ same => same ▸ locked
  cases found : w.tables.getByEmail (env.normalizeEmail inp.email) with
  | none => exact settles_ret fun v same => ⟨start v same, nofun⟩
  | some user =>
    dsimp only
    split
    · exact settles_ret fun v same => ⟨start v same, nofun⟩
    · next opened =>
      have both : user.isActive = true ∧ user.deletedAt = none := by simpa using opened
      have inside : user.id ∉ out := locked.not_open (List.mem_of_find?_eq_some found) both.1 (by rw [both.2]; rfl)
      refine Settles.of ?_ start
      split
      · refine settles_bind (settles_of_mild (Issues.ask fun gone => absurd gone inside)) fun _ => settles_ret fun _ h => ⟨h, nofun⟩
      · refine settles_bind (settles_of_mild (mild_secondFactor user inp)) fun _ => ?_
        refine settles_bind (settles_updateUser nofun) fun updated => Settles.given fun own => ?_
        refine settles_bind (settles_issue (updated.getD user) _ _ _) fun tokens => settles_ret fun _ h => ⟨h.1, ?_⟩
        intro login mem
        obtain rfl := Option.mem_some_iff.mp mem
        rw [h.2]
        cases updated with
        | none => exact inside
        | some row => exact own row rfl ▸ inside

theorem refreshSession_locked (inp : AdminRefreshInput) (payload : Claims) (userId : Nat) (session : Auth.Refresh.SessionRow) :
    Settles (Locked out) ((refreshSession env inp payload userId session).run AdminCall.apply)
      (fun login w => Locked out w ∧ ∀ l ∈ login, l.userId ∉ out) fun _ => Locked out := by
  unfold refreshSession
  split
  · exact settles_ret fun _ h => ⟨h, nofun⟩
  · split
    · exact settles_bind (settles_of_mild (Issues.ask trivial)) fun _ => settles_ret fun _ h => ⟨h, nofun⟩
    · refine settles_ask_bind fun w locked => ?_
      have start : ∀ v : World, v = w → Locked out v := fun _ same => same ▸ locked
      cases found : w.tables.getById userId with
      | none => exact settles_ret fun v same => ⟨start v same, nofun⟩
      | some user =>
        dsimp only
        split
        · exact settles_ret fun v same => ⟨start v same, nofun⟩
        · next current =>
          have inside : user.id ∉ out := locked.current found ((Bool.not_eq_false _).mp current)
          refine Settles.of ?_ start
          refine settles_bind (settles_of_mild (Issues.ask trivial)) fun _ => ?_
          refine settles_bind (settles_issue user _ _ _) fun tokens => settles_ret fun _ h => ⟨h.1, ?_⟩
          intro login mem
          obtain rfl := Option.mem_some_iff.mp mem
          exact h.2.symm ▸ inside

theorem refresh_locked (inp : AdminRefreshInput) : Settles (Locked out) ((Admin.refresh env inp).run AdminCall.apply)
    (fun login w => Locked out w ∧ ∀ l ∈ login, l.userId ∉ out) fun _ => Locked out := by
  unfold Admin.refresh
  cases env.verify inp.token inp.now with
  | none => exact settles_ret fun _ h => ⟨h, fun _ none => (nomatch none)⟩
  | some payload =>
    dsimp only
    split
    · exact settles_ret fun _ h => ⟨h, fun _ none => (nomatch none)⟩
    · cases payload.sub with
      | none => exact settles_ret fun _ h => ⟨h, fun _ none => (nomatch none)⟩
      | some userId =>
        refine settles_bind (settles_of_mild (Issues.ask trivial)) fun session => ?_
        cases session with
        | none => exact settles_ret fun _ h => ⟨h, fun _ none => (nomatch none)⟩
        | some session => exact refreshSession_locked inp payload userId session

theorem resolveToken_locked (token : String) (now : Int) : Settles (Locked out) ((Admin.resolveToken env token now).run AdminCall.apply)
    (fun user w => Locked out w ∧ ∀ u ∈ user, u.id ∉ out) fun _ => Locked out := by
  unfold Admin.resolveToken
  cases env.verify token now with
  | none => exact settles_ret fun _ h => ⟨h, fun _ none => (nomatch none)⟩
  | some payload =>
    dsimp only
    split
    · exact settles_ret fun _ h => ⟨h, fun _ none => (nomatch none)⟩
    · cases payload.sub with
      | none => exact settles_ret fun _ h => ⟨h, fun _ none => (nomatch none)⟩
      | some userId =>
        refine settles_call fun w locked => settles_ret ?_
        rintro _ rfl
        refine ⟨locked, fun user mem => ?_⟩
        obtain ⟨found, current⟩ := Option.filter_eq_some_iff.mp mem
        exact locked.current found current

/-! ### Who is out -/

theorem Locked.below (h : Locked out w) {userId : Nat} (present : (w.tables.getById userId).isSome = true) :
    userId < w.tables.nextUserId := by
  obtain ⟨user, found⟩ := Option.isSome_iff_exists.mp present
  have same : user.id = userId := by simpa using List.find?_some found
  exact same ▸ h.known user (List.mem_of_find?_eq_some found)

section
variable {userId : Nat} {change : UserUpdate}

/-- Once the account has been switched so, those of `out'` are out. -/
def Turns (userId : Nat) (isActive : Option Bool) (out out' : List Nat) : Prop :=
  ∀ id ∈ out', id = userId ∧ isActive = some false ∨ id ∈ out ∧ (id = userId → isActive ≠ some true)

theorem Turns.moved {isActive : Option Bool} (h : Turns userId isActive out out') (locked : Locked out w)
    (present : (w.tables.getById userId).isSome = true) : ∀ id ∈ out', id = userId ∧ isActive = some false ∧
      userId < w.tables.nextUserId ∨ id ∈ out ∧ (id = userId → isActive ≠ some true) := by
  intro id gone
  rcases h id gone with ⟨own, off⟩ | keeps
  · exact .inl ⟨own, off, locked.below present⟩
  · exact .inr keeps

theorem turn_updateUser (turns : Turns userId change.isActive out out') :
    Settles (fun w => Locked out w ∧ (w.tables.getById userId).isSome = true)
      ((do let updated ← updateUser userId change; if updated.isNone then .raise userNotFound else pure () : AdminM Unit).run
        AdminCall.apply) (fun _ => Locked out') fun _ => Locked out := by
  refine settles_call fun w ⟨locked, present⟩ => ?_
  change Settles _ ((if ((w.tables.getById userId).map change.apply).isNone then _ else _ : AdminM Unit).run _) _ _
  obtain ⟨user, found⟩ := Option.isSome_iff_exists.mp present
  rw [found, if_neg (by simp)]
  refine settles_ret ?_
  rintro _ rfl
  exact locked.update change.isActive rfl rfl (fun _ => rfl) (fun _ => rfl) (fun _ late => late) (turns.moved locked present)

theorem turn_email (turns : Turns userId change.isActive out out') (email : String) :
    Settles (fun w => Locked out w ∧ (w.tables.getById userId).isSome = true)
      ((updateUserWithEmail userId email change).run AdminCall.apply) (fun updated w => updated.isSome = true ∧ Locked out' w)
      fun _ => Locked out := by
  refine settles_call fun w ⟨locked, present⟩ => ?_
  dsimp only
  cases refused : w.tables.refusesEmail userId email with
  | true =>
    rw [if_pos rfl]
    refine settles_raise ?_
    rintro _ rfl
    have kept : w.tables.updateUserWithEmail userId email change = w.tables := if_pos refused
    exact locked.of_same (congrArg AdminTables.users kept) (congrArg AdminTables.nextUserId kept)
  | false =>
    rw [if_neg Bool.false_ne_true]
    refine settles_ret ?_
    rintro _ rfl
    refine ⟨(Option.isSome_map).trans present, ?_⟩
    have moved : w.tables.updateUserWithEmail userId email change = _ := if_neg (refused ▸ Bool.false_ne_true)
    have next := congrArg AdminTables.nextUserId moved
    exact locked.update change.isActive (congrArg AdminTables.users moved) next (fun _ => rfl) (fun _ => rfl) (fun _ late => late)
      (turns.moved locked present)

theorem turn_updateUserWithEmail (turns : Turns userId change.isActive out out') (email : String) :
    Settles (fun w => Locked out w ∧ (w.tables.getById userId).isSome = true)
      ((do let updated ← updateUserWithEmail userId email change; if updated.isNone then .raise userNotFound else pure () :
        AdminM Unit).run AdminCall.apply) (fun _ => Locked out') fun _ => Locked out := by
  refine settles_bind (turn_email turns email) fun updated => Settles.given fun there => ?_
  obtain ⟨user, rfl⟩ := Option.isSome_iff_exists.mp there
  exact settles_ret fun _ h => h

end

theorem settles_taken {P : World → Prop} {F : AdminError → World → Prop} (userId : Nat) (email : String) :
    Settles P ((taken userId email).run AdminCall.apply) (fun _ => P) F := fun _ h => .returned h

theorem updateAccount_locked {userId : Nat} (email : Option String) {isActive : Option Bool}
    (turns : Turns userId isActive out out') :
    Settles (Locked out) ((updateAccount env userId email isActive).run AdminCall.apply) (fun _ => Locked out') fun _ => Locked out := by
  refine settles_ask_bind fun w locked => ?_
  cases there : (w.tables.getById userId).filter (·.deletedAt.isNone) with
  | none => exact settles_raise fun _ same => same ▸ locked
  | some existing =>
    have present : (w.tables.getById userId).isSome = true := by
      rw [(Option.filter_eq_some_iff.mp there).1]
      rfl
    have start : ∀ v : World, v = w → Locked out v ∧ (v.tables.getById userId).isSome = true := fun _ same => same ▸ ⟨locked, present⟩
    dsimp only
    refine Settles.of ?_ start
    cases email.filter (· ≠ "") with
    | none => exact turn_updateUser turns
    | some email =>
      dsimp only
      cases env.ensureValidEmail email with
      | none => exact settles_raise fun _ h => h.1
      | some normalized =>
        dsimp only
        have rest : ∀ other : Bool, Settles (fun v => Locked out v ∧ (v.tables.getById userId).isSome = true)
            ((if other then .raise (.valueError "email_already_exists")
              else do
                let updated ← updateUserWithEmail userId (Text.stripLower normalized)
                  { isActive, bumpSecurityVersion := isActive = some false }
                if updated.isNone then .raise userNotFound else return () : AdminM Unit).run AdminCall.apply)
            (fun _ => Locked out') fun _ => Locked out := by
          intro other
          cases other with
          | true => exact settles_raise fun _ h => h.1
          | false => exact turn_updateUserWithEmail turns _
        split
        · exact settles_bind (settles_taken userId normalized) rest
        · exact rest false

theorem deleteAccount_locked (userId currentUserId : Nat) (now : Int) :
    Settles (Locked out) ((deleteAccount userId currentUserId now).run AdminCall.apply) (fun _ => Locked (userId :: out))
      fun _ => Locked out := by
  unfold deleteAccount
  split
  · exact settles_raise fun _ h => h
  · refine settles_call fun w locked => ?_
    change Settles _ ((if (w.tables.getById userId).isSome then _ else _ : AdminM Unit).run _) _ _
    split
    · next known =>
      have closed : Locked (userId :: out) ((AdminCall.deleteUser userId now).apply w) := by
        refine locked.update (some false) rfl rfl (fun _ => rfl) (fun _ => rfl) (fun _ _ => rfl) fun id gone => ?_
        rcases List.mem_cons.mp gone with own | old
        · exact .inl ⟨own, rfl, locked.below known⟩
        · exact .inr ⟨old, fun _ => nofun⟩
      have mild : Mild (userId :: out) (.invalidateAllRefreshSessionsForUser userId) := trivial
      refine Settles.of ((settles_of_mild (Issues.ask mild)).mono (fun _ _ h => h) fun _ _ h => ?_) fun v same => same ▸ closed
      exact h.subset fun _ => List.mem_cons_of_mem _
    · refine settles_raise ?_
      rintro _ rfl
      have mild : Mild out (.deleteUser userId now) := trivial
      exact locked.apply mild

theorem setPassword_locked {inp : SetPasswordInput} (locked : Locked out w)
    (shut : opensDoor env { toWorld := w, out } inp = false) :
    Settles (· = w) ((Admin.setPassword env inp).run AdminCall.apply) (fun _ => Locked out) fun _ => Locked out := by
  have start : ∀ v : World, v = w → Locked out v := fun _ same => same ▸ locked
  refine settles_ask_bind fun v same => ?_
  subst same
  cases found : (v.tables.getInviteToken (env.auth.sha256Hex inp.token)).filter (·.usedAt.isNone) with
  | none => exact settles_raise start
  | some record =>
    obtain ⟨there, unused⟩ := Option.filter_eq_some_iff.mp found
    dsimp only
    split
    · exact settles_raise start
    · next valid =>
      cases refusal : env.passwordRefusal inp.password with
      | some message => exact settles_raise start
      | none =>
        have shut : record.userId ∈ out → ∀ user ∈ v.tables.users, user.id = record.userId → user.deletedAt.isSome = true := by
          intro gone user mem own
          by_contra present
          have opens : opensDoor env { toWorld := v, out } inp = true := by
            simp only [opensDoor, there, Option.any_some, Bool.and_eq_true, decide_eq_true_eq, List.any_eq_true]
            have left : user.deletedAt.isNone = true := by simpa using present
            exact ⟨⟨⟨unused, Int.not_lt.mp valid⟩, by rw [refusal]; rfl⟩, user, mem, ⟨own, left⟩, gone⟩
          rw [shut] at opens
          cases opens
        refine settles_bind (R := fun _ => Locked out) ?_ fun _ => settles_of_mild ?_
        · refine settles_call ?_
          rintro _ rfl
          refine settles_ret ?_
          rintro _ rfl
          refine locked.of_map rfl rfl (fun user => ?_) fun user mem gone closed => ?_
          · split
            · rfl
            · rfl
          · split
            · next own => exact .inr (shut (own ▸ gone) user mem own)
            · exact closed
        · exact Issues.bind (Issues.ask trivial) fun _ => Issues.ask trivial

/-! ### The other operations -/

theorem mild_send (userId : Nat) (m : Moment) : Issues (Mild out) (Admin.sendSetPasswordEmail env userId m) := by
  refine Issues.bind (Issues.ask trivial) fun found => ?_
  cases found.filter (·.deletedAt.isNone) with
  | none => exact Issues.raise _
  | some user => exact Issues.bind (Issues.ask trivial) fun _ => Issues.ite (Issues.raise _) (Issues.ret _)

theorem mild_createAccount (email unknown : String) (m : Moment) : Issues (Mild out) (createAccount env email unknown m) := by
  unfold createAccount
  cases env.ensureValidEmail email with
  | none => exact Issues.raise _
  | some normalized =>
    refine Issues.bind (Issues.ask trivial) fun found => Issues.ite (Issues.raise _) ?_
    exact Issues.bind (Issues.attempt trivial) fun userId => mild_send userId m

theorem mild_bootstrap (email password : String) (now : Int) : Issues (Mild out) (bootstrapFirstAdmin env email password now) := by
  unfold Admin.bootstrapFirstAdmin
  refine Issues.ite (Issues.ret _) (Issues.bind (Issues.ask trivial) fun found => Issues.ite (Issues.ret _) ?_)
  cases env.passwordRefusal password with
  | some message => exact Issues.raise _
  | none => exact Issues.bind (Issues.attempt trivial) fun _ => Issues.ret _

theorem mild_changePassword (userId : Nat) (current new : String) : Issues (Mild out) (changePassword env userId current new) := by
  refine Issues.bind (Issues.ask trivial) fun found => ?_
  cases found.filter fun user => env.verifyPassword current user.passwordHash with
  | none => exact Issues.raise _
  | some user =>
    dsimp only
    cases env.passwordRefusal new with
    | some message => exact Issues.raise _
    | none => exact Issues.bind (Issues.ask fun _ => nofun) fun _ => Issues.ask trivial

theorem mild_logout (refreshToken : String) : Issues (Mild out) (logout env refreshToken) := by
  unfold Admin.logout
  cases (env.decode refreshToken).filter fun payload => refreshToken ≠ "" && payload.typ = "platform_admin_refresh" with
  | none => exact Issues.ret _
  | some payload =>
    refine Issues.bind (Issues.ask trivial) fun found => ?_
    cases found.filter fun session => session.tokenHash = env.hashToken refreshToken with
    | none => exact Issues.ret _
    | some session => exact Issues.ask trivial

theorem mild_startMfaSetup (userId : Nat) (secret : String) (now : Int) : Issues (Mild out) (startMfaSetup userId secret now) := by
  refine Issues.bind (Issues.ask trivial) fun found => Issues.ite (Issues.raise _) ?_
  exact Issues.bind (Issues.ask trivial) fun updated => Issues.ite (Issues.ret _) (Issues.raise _)

theorem mild_confirmMfaSetup (userId : Nat) (code : String) (recoveryCodes : List String) (now timestamp : Int) :
    Issues (Mild out) (confirmMfaSetup env userId code recoveryCodes now timestamp) := by
  refine Issues.bind (Issues.ask trivial) fun found => ?_
  cases found with
  | none => exact Issues.raise _
  | some user =>
    dsimp only
    cases user.pendingSecret now with
    | none => exact Issues.raise _
    | some secret =>
      dsimp only
      cases Auth.verifyAuthenticatorCode env.auth secret code timestamp with
      | none => exact Issues.raise _
      | some matched =>
        cases matched with
        | false => exact Issues.raise _
        | true => exact Issues.bind (Issues.ask trivial) fun updated => Issues.ite (Issues.ask trivial) (Issues.raise _)

theorem mild_disableMfa (userId : Nat) (password : String) : Issues (Mild out) (disableMfa env userId password) := by
  refine Issues.bind (Issues.ask trivial) fun found => ?_
  cases found with
  | none => exact Issues.raise _
  | some user =>
    refine Issues.ite (Issues.raise _) ?_
    exact Issues.bind (Issues.ask trivial) fun updated => Issues.ite (Issues.ask trivial) (Issues.raise _)

/-! ### Every operation -/

/-- An operation that lets nobody in. -/
theorem settles_quiet {P : World → Prop} {m : AdminM Unit}
    (h : Settles P (m.run AdminCall.apply) (fun _ => Locked out') fun _ => Locked out) :
    Settles P ((m >>= fun _ => pure none : AdminM Admitted).run AdminCall.apply)
      (fun result w => Locked out' w ∧ ∀ userId ∈ result, userId ∉ out) fun _ => Locked out :=
  settles_bind h fun _ => settles_ret fun _ locked => ⟨locked, nofun⟩

theorem settles_admitted {α : Type} {m : AdminM (Option α)} {id : α → Nat}
    (h : Settles (Locked out) (m.run AdminCall.apply) (fun result w => Locked out w ∧ ∀ a ∈ result, id a ∉ out) fun _ => Locked out) :
    Settles (Locked out) ((m >>= fun result => pure (result.map id) : AdminM Admitted).run AdminCall.apply)
      (fun result w => Locked out w ∧ ∀ userId ∈ result, userId ∉ out) fun _ => Locked out := by
  refine settles_bind h fun result => settles_ret fun _ h => ⟨h.1, fun userId mem => ?_⟩
  obtain ⟨a, inside, rfl⟩ := Option.map_eq_some_iff.mp mem
  exact h.2 a inside

theorem Locked.filter (h : Locked out w) (userId : Nat) : Locked (out.filter (· ≠ userId)) w :=
  h.subset fun _ mem => List.mem_of_mem_filter mem

theorem turns_update {userId : Nat} {isActive : Option Bool} (updatedBy : Option Nat) (email : Option String)
    (other : isActive = some true → updatedBy = some userId → userId ∉ out) :
    Turns userId isActive out ((Operation.updateUser userId email isActive updatedBy).outAfter out) := by
  rcases isActive with _ | _ | _
  · exact fun id mem => .inr ⟨mem, fun _ => nofun⟩
  · intro id mem
    rcases List.mem_cons.mp mem with own | old
    · exact .inl ⟨own, rfl⟩
    · exact .inr ⟨old, fun _ => nofun⟩
  · intro id mem
    by_cases own : updatedBy = some userId
    · rw [show (Operation.updateUser userId email (some true) updatedBy).outAfter out = out from if_pos own] at mem
      exact .inr ⟨mem, fun same => absurd (same ▸ mem) (other rfl own)⟩
    · rw [show (Operation.updateUser userId email (some true) updatedBy).outAfter out = _ from if_neg own] at mem
      obtain ⟨old, differs⟩ := List.mem_filter.mp mem
      exact .inr ⟨old, fun same => absurd same (by simpa using differs)⟩

/-- What an operation leaves, and whom it lets in. -/
theorem Operation.locked {s : State} (locked : Locked s.out s.toWorld) (op : Operation) (guarded : Guarded env s op) :
    Settles (· = s.toWorld) ((op.program env).run AdminCall.apply)
      (fun result w => Locked (op.outAfter s.out) w ∧ ∀ userId ∈ result, userId ∉ s.out) fun _ => Locked s.out := by
  have start : ∀ w : World, w = s.toWorld → Locked s.out w := fun _ same => same ▸ locked
  cases op with
  | bootstrapFirstAdmin email password now => exact Settles.of (settles_quiet (settles_of_mild (mild_bootstrap _ _ _))) start
  | createUser email unknown m => exact Settles.of (settles_quiet (settles_of_mild (mild_createAccount _ _ _))) start
  | updateUser userId email isActive updatedBy =>
    refine Settles.of (settles_quiet (updateAccount_locked email (turns_update updatedBy email fun active own => ?_))) start
    subst active
    exact guarded own
  | deleteUser userId currentUserId now => exact Settles.of (settles_quiet (deleteAccount_locked _ _ _)) start
  | changePassword userId current new => exact Settles.of (settles_quiet (settles_of_mild (mild_changePassword _ _ _))) start
  | login inp => exact Settles.of (settles_admitted (login_locked inp)) start
  | refresh inp => exact Settles.of (settles_admitted (refresh_locked inp)) start
  | logout refreshToken => exact Settles.of (settles_quiet (settles_of_mild (mild_logout _))) start
  | resolveToken token now => exact Settles.of (settles_admitted (resolveToken_locked token now)) start
  | setPassword inp => exact settles_quiet (setPassword_locked locked guarded)
  | sendSetPasswordEmail userId updatedBy m =>
    refine Settles.of (settles_quiet ((settles_of_mild (mild_send userId m)).mono (fun _ w h => ?_) fun _ _ h => h)) start
    unfold outAfter
    dsimp only
    split
    · exact h.filter userId
    · exact h
  | startMfaSetup userId secret now => exact Settles.of (settles_quiet (settles_of_mild (mild_startMfaSetup _ _ _))) start
  | confirmMfaSetup userId code recoveryCodes now timestamp =>
    exact Settles.of (settles_quiet (settles_of_mild (mild_confirmMfaSetup _ _ _ _ _))) start
  | disableMfa userId password => exact Settles.of (settles_quiet (settles_of_mild (mild_disableMfa _ _))) start

end

/-! ### Runs -/

theorem step_locked {env : AdminEnv} {s : State} (h : Locked s.out s.toWorld) {op : Operation} (guarded : Guarded env s op) :
    Locked (step env s op).out (step env s op).toWorld ∧ KeepsOut env s op := by
  have settled := Operation.locked h op guarded s.toWorld rfl
  unfold step KeepsOut perform
  generalize ((op.program env).run AdminCall.apply).run s.toWorld = result at settled ⊢
  cases settled with
  | returned h => exact h
  | raised h => exact ⟨h, fun _ none => (nomatch none)⟩

/-- In a run without such links, the admins that are out stay out. -/
theorem platform_deactivation_sticks (env : AdminEnv) (s : State) (nobody : s.out = [])
    (known : ∀ user ∈ s.tables.users, user.id < s.tables.nextUserId) (run : List Operation)
    (guarded : Always (step env) (Guarded env) s run) : Always (step env) (KeepsOut env) s run := by
  have start : Locked s.out s.toWorld := by
    rw [nobody]
    exact ⟨known, fun _ mem => (nomatch mem), fun _ _ mem => (nomatch mem)⟩
  refine guarded.of_invariant (fun s => Locked s.out s.toWorld) start (fun t op h now => ?_) fun t op h now => ?_
  · exact (step_locked h now).1
  · exact (step_locked h now).2

/-! ### Runs that show it -/

def twoAdmins : State where
  tables :=
    { users := [{ id := 1, email := "a@b.hu", passwordHash := "pw" }, { id := 2, email := "c@b.hu", passwordHash := "pw" }]
      nextUserId := 3 }

def loginOf (password : String) : Operation :=
  .login { email := "c@b.hu", password, now := 3, timestamp := 0, ids := { jti := "r", accessJti := "a" } }

def link (token : String) : Operation := .sendSetPasswordEmail 2 (some 1) { now := 1, payload := { rawToken := token, expiresAt := 9 } }

def deactivate : Operation := .updateUser 2 none (some false) (some 1)

/-- A link that is used in time, a deactivation, and a new link. -/
def invited : List Operation :=
  [link "x", .setPassword { token := "x", password := "new", now := 2 }, deactivate, loginOf "new", link "y",
    .setPassword { token := "y", password := "newer", now := 3 }, loginOf "newer"]

theorem deactivation_invited : Always (step Lockout.defaults) (KeepsOut Lockout.defaults) twoAdmins invited :=
  platform_deactivation_sticks Lockout.defaults twoAdmins rfl (by decide +kernel) invited (by decide +kernel)

/-- The link is older than the deactivation. -/
def reopened : List Operation := [link "x", deactivate, .setPassword { token := "x", password := "new", now := 2 }, loginOf "new"]

theorem deactivation_undone : ¬Always (step Lockout.defaults) (KeepsOut Lockout.defaults) twoAdmins reopened := by
  decide +kernel

end NyzRating.Admin.Deactivation
