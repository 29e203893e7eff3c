import NyzRating.Auth.SessionFamily
import NyzRating.Users.Accounts
import NyzRating.Users.ProfileFrame
import NyzRating.Users.Requests

/-!
# What the services make of the accounts

Each call of a service is one event of the accounts, and says what it makes of the sessions.
-/

namespace NyzRating.Users

open Program Auth.Refresh

/-! ### The accounts of the tables -/

def UserRow.account (r : UserRow) : Account :=
  { isActive := r.isActive, role := r.role, securityVersion := r.securityVersion, live := r.live }

/-- The account of a user that a query has found. -/
def User.account (u : User) : Account :=
  { isActive := u.isActive, role := u.role, securityVersion := u.securityVersion, live := true }

def Tables.accounts (t : Tables) : Accounts := fun id => (t.row? id).map UserRow.account

/-- The call is this event, and ids stay unique. -/
structure Refines (t t' : Tables) (event : Event) : Prop where
  keyed : t'.Keyed
  allowed : t.accounts.Allows event
  accounts : t'.accounts = t.accounts.apply event

namespace Tables

section
variable {t t' : Tables} {id j : Nat} {r : UserRow} {u : User} {f : UserRow → UserRow} {g : Account → Account}

theorem accounts_of_getById (found : t.getById id = some u) : t.accounts id = some u.account := by
  obtain ⟨r, row, live, rfl⟩ := getById_eq_some.mp found
  simp only [accounts, row, Option.map_some, UserRow.account, User.account, live]

theorem getById_of_accounts {a : Account} (found : a ∈ t.accounts id) (live : a.live = true) :
    ∃ u, t.getById id = some u ∧ u.account = a := by
  obtain ⟨r, row, rfl⟩ := Option.map_eq_some_iff.mp found
  have stored : t.getById id = some r.toUser := getById_eq_some.mpr ⟨r, row, live, rfl⟩
  refine ⟨r.toUser, stored, ?_⟩
  have same := accounts_of_getById stored
  rw [Option.mem_def.mp found] at same
  exact (Option.some.inj same).symm

theorem getById_id (found : t.getById id = some u) : u.id = id := by
  obtain ⟨r, row, -, rfl⟩ := getById_eq_some.mp found
  exact (row?_eq_some row).2

theorem row_of_getById (found : t.getById id = some u) : ∃ r, t.row? id = some r := by
  obtain ⟨r, row, -, -⟩ := getById_eq_some.mp found
  exact ⟨r, row⟩

theorem Keyed.getById (keys : t.Keyed) (mem : r ∈ t.users) (live : r.live = true) : t.getById r.id = some r.toUser :=
  getById_eq_some.mpr ⟨r, keys.row? mem, live, rfl⟩

theorem getById_of_getByEmail (keys : t.Keyed) {email : String} (found : t.getByEmail email = some u) :
    t.getById u.id = some u := by
  obtain ⟨r, query, rfl⟩ := Option.map_eq_some_iff.mp found
  have holds := List.find?_some query
  simp only [Bool.and_eq_true] at holds
  exact keys.getById (List.mem_of_find?_eq_some query) holds.2

theorem accounts_setRow (keeps : ∀ r, (f r).id = r.id) (account : ∀ r, (f r).account = g r.account) :
    (t.setRow id f).accounts = t.accounts.set id g := by
  have keeps' : ∀ r : UserRow, r.id = id → (f r).id = id := fun r own => (keeps r).trans own
  funext j
  by_cases same : j = id
  · subst same
    rw [Accounts.set_self, accounts, row?_setRow_self keeps', accounts, Option.map_map, Option.map_map]
    congr 1
    funext r
    exact account r
  · rw [Accounts.set_of_ne same, accounts, row?_setRow_of_ne keeps' same, accounts]

/-- A write that no account shows. -/
theorem Keyed.idle (keys : t'.Keyed) (accounts : t'.accounts = t.accounts) : Refines t t' .none := ⟨keys, trivial, accounts⟩

theorem Keyed.refl (keys : t.Keyed) : Refines t t .none := keys.idle rfl

theorem hasOwner_iff (keys : t.Keyed) : t.accounts.HasOwner ↔ t.existsOwner = true := by
  rw [existsOwner, List.any_eq_true]
  constructor
  · rintro ⟨id, a, found, live, role⟩
    obtain ⟨r, row, rfl⟩ := Option.map_eq_some_iff.mp found
    exact ⟨r, (row?_eq_some row).1, Bool.and_eq_true_iff.mpr ⟨decide_eq_true role, live⟩⟩
  · rintro ⟨r, mem, owner⟩
    obtain ⟨role, live⟩ := Bool.and_eq_true_iff.mp owner
    refine ⟨r.id, r.account, ?_, live, of_decide_eq_true role⟩
    rw [Option.mem_def, accounts, keys.row? mem]
    rfl

/-! ### Statements -/

theorem update_accounts (done : t.update u = .ok t') : t'.accounts =
    t.accounts.set u.id (fun a => { a with isActive := u.isActive, role := u.role }) ∧ (t.Keyed → t'.Keyed) ∧
      t'.refreshTokens = t.refreshTokens := by
  obtain ⟨-, -, rfl⟩ := update_eq_ok.mp done
  refine ⟨accounts_setRow (fun _ => rfl) fun _ => rfl, fun keys => keys.setRow fun _ => rfl, rfl⟩

/-- An update of a user that was just read, where activity and role are the same. -/
theorem update_idle (keys : t.Keyed) {v : User} (done : t.update v = .ok t') (found : t.getById u.id = some u)
    (id : v.id = u.id) (isActive : v.isActive = u.isActive) (role : v.role = u.role) : Refines t t' .none := by
  obtain ⟨accounts, keyed, -⟩ := update_accounts done
  refine (keyed keys).idle (accounts.trans (Accounts.set_eq_self fun a own => ?_))
  rw [id, Option.mem_def, accounts_of_getById found] at own
  rw [← Option.some.inj own, isActive, role]
  rfl

theorem setRow_idle (keys : t.Keyed) (keeps : ∀ r, (f r).id = r.id) (account : ∀ r, (f r).account = r.account) :
    Refines t (t.setRow id f) .none :=
  (keys.setRow keeps).idle ((accounts_setRow (g := fun a => a) keeps account).trans (Accounts.set_eq_self fun _ _ => rfl))

theorem incrementSecurityVersion_refines (keys : t.Keyed) : Refines t (t.incrementSecurityVersion id) (.raised id) :=
  ⟨keys.setRow fun _ => rfl, trivial, accounts_setRow (fun _ => rfl) fun _ => rfl⟩

/-! ### Failed logins and passwords -/

theorem resetFailedLogin_refines (keys : t.Keyed) (done : t.resetFailedLogin id = .ok t') :
    Refines t t' .none ∧ t'.refreshTokens = t.refreshTokens := by
  unfold resetFailedLogin at done
  cases found : t.getById id with
  | none =>
    simp only [found, Fallible.pure_eq_ok] at done
    subst done
    exact ⟨keys.refl, rfl⟩
  | some user =>
    simp only [found] at done
    have own : t.getById user.id = some user := (getById_id found).symm ▸ found
    exact ⟨update_idle keys done own rfl rfl rfl, (update_accounts done).2.2⟩

/-- A failed login of an active user counts, or locks the account. -/
theorem recordFailedLogin_refines (keys : t.Keyed) (found : t.getById id = some u) (active : u.isActive = true)
    (done : t.recordFailedLogin id = .ok t') :
    Refines t t' (if (evaluateFailedLogin u).2 then .locked id else .none) ∧ t'.refreshTokens = t.refreshTokens := by
  have own : t.getById u.id = some u := (getById_id found).symm ▸ found
  simp only [recordFailedLogin, found] at done
  obtain ⟨accounts, keyed, sessions⟩ := update_accounts done
  refine ⟨?_, sessions⟩
  by_cases locks : (evaluateFailedLogin u).2 = true
  · rw [if_pos locks]
    have member : u.role ≠ "owner" := by
      intro owner
      simp [evaluateFailedLogin, User.isOwner, owner] at locks
    refine ⟨keyed keys, ⟨u.account, accounts_of_getById found, rfl, active, member⟩, accounts.trans ?_⟩
    funext j
    by_cases same : j = u.id
    · subst same
      rw [← getById_id found]
      simp only [Accounts.apply, Accounts.set_self, accounts_of_getById own, Option.map_some, locks, if_true]
      rfl
    · have other : j ≠ id := getById_id found ▸ same
      rw [Accounts.set_of_ne same, Accounts.apply, Accounts.set_of_ne other]
  · rw [if_neg locks]
    refine (keyed keys).idle (accounts.trans (Accounts.set_eq_self fun a mem => ?_))
    have same : a = u.account := Option.some.inj ((Option.mem_def.mp mem).symm.trans (accounts_of_getById own))
    rw [same, if_neg locks]
    rfl

theorem updatePassword_refines (keys : t.Keyed) {hash : String} (done : t.updatePassword id hash = .ok t') :
    Refines t t' .none ∧ t'.refreshTokens = t.refreshTokens ∧
      t' = t.setRow id fun r => { r with passwordHash := hash, credentialsPasswordSet := true } := by
  unfold updatePassword at done
  split at done
  · cases done
  · have same := Fallible.pure_eq_ok.mp done
    subst same
    exact ⟨setRow_idle keys (fun _ => rfl) fun _ => rfl, rfl, rfl⟩

end

end Tables

/-! ### `UserService` -/

section
variable {t t' v : Tables} {event : Event}

theorem Refines.none_trans (h : Refines t t' .none) (h' : Refines t' v event) : Refines t v event := by
  have same : t'.accounts = t.accounts := h.accounts
  exact ⟨h'.keyed, same ▸ h'.allowed, same ▸ h'.accounts⟩

theorem Refines.trans_none (h : Refines t t' event) (h' : Refines t' v .none) : Refines t v event :=
  ⟨h'.keyed, h.allowed, h'.accounts.trans h.accounts⟩

/-- Other tables may be written as well. -/
theorem Refines.of_users (h : Refines t t' event) (users : v.users = t'.users) (next : v.nextUserId = t'.nextUserId) :
    Refines t v event := by
  have accounts : v.accounts = t'.accounts := by
    funext id
    simp only [Tables.accounts, Tables.row?, users]
  exact ⟨⟨users ▸ h.keyed.ids, by rw [users, next]; exact h.keyed.below⟩, h.allowed, accounts.trans h.accounts⟩

theorem createInviteToken_refines (keys : t.Keyed) {userId : Nat} {hash : String} {expiresAt : Int}
    (done : t.createInviteToken userId hash expiresAt = .ok t') : Refines t t' .none ∧ t'.refreshTokens = t.refreshTokens := by
  unfold Tables.createInviteToken at done
  simp only [Fallible.guard_eq_ok, Fallible.pure_eq_ok] at done
  obtain ⟨-, rfl⟩ := done
  exact ⟨keys.refl.of_users rfl rfl, rfl⟩

theorem checkedRole_eq_ok {role : String} {u : Unit} (keys : t.Keyed) (checked : checkedRole t role = .ok u) :
    role = "owner" → ¬t.accounts.HasOwner := by
  rintro rfl owner
  rw [Tables.hasOwner_iff keys] at owner
  simp [checkedRole, owner] at checked

theorem accounts_none (keys : t.Keyed) : t.accounts t.nextUserId = none := by
  cases found : t.row? t.nextUserId with
  | none => simp only [Tables.accounts, found, Option.map_none]
  | some r =>
    obtain ⟨mem, id⟩ := Tables.row?_eq_some found
    exact absurd id (Nat.ne_of_lt (keys.below r mem))

/-- A row with a new id. -/
theorem insert_refines (keys : t.Keyed) {row : UserRow} (id : row.id = t.nextUserId) (isActive : row.isActive = true)
    (version : row.securityVersion = 0) (live : row.live = true) (owner : row.role = "owner" → ¬t.accounts.HasOwner) :
    Refines t { t with users := t.users ++ [row], nextUserId := t.nextUserId + 1 } (.added t.nextUserId row.role) where
  keyed := by
    constructor
    · rw [List.map_append, List.map_singleton]
      refine keys.ids.append (List.nodup_singleton _) fun _ mem own => ?_
      obtain ⟨r, old, rfl⟩ := List.mem_map.mp mem
      exact Nat.ne_of_lt (keys.below r old) ((List.mem_singleton.mp own).trans id)
    · intro r mem
      rcases List.mem_append.mp mem with old | new
      · exact Nat.lt_succ_of_lt (keys.below r old)
      · rw [List.mem_singleton.mp new, id]
        exact Nat.lt_succ_self _
  allowed := ⟨accounts_none keys, owner⟩
  accounts := by
    have account : row.account = { isActive := true, role := row.role, securityVersion := 0, live := true } := by
      simp only [UserRow.account, isActive, version, live]
    funext j
    simp only [Tables.accounts, Tables.row?, List.find?_append, Accounts.apply]
    by_cases same : j = t.nextUserId
    · subst same
      have unknown : t.users.find? (·.id = t.nextUserId) = none := Option.map_eq_none_iff.mp (accounts_none keys)
      rw [Function.update_self, unknown, Option.none_or, List.find?_singleton, if_pos (decide_eq_true id), Option.map_some,
        account]
    · have other : ¬decide (row.id = j) = true := fun own => same ((of_decide_eq_true own).symm.trans id)
      rw [Function.update_of_ne same, List.find?_singleton, if_neg other, Option.or_none]
      rfl

theorem insertUser_refines (keys : t.Keyed) {user created : User} (inserted : t.create user = .ok (created, t'))
    (active : user.isActive = true) (owner : user.role = "owner" → ¬t.accounts.HasOwner) :
    Refines t t' (.added t.nextUserId user.role) ∧ t'.refreshTokens = t.refreshTokens := by
  simp only [Tables.create, Fallible.guard_eq_ok, Fallible.pure_eq_ok, Prod.mk.injEq] at inserted
  obtain ⟨-, -, rfl⟩ := inserted
  exact ⟨insert_refines keys rfl active rfl rfl owner, rfl⟩

theorem create_refines (keys : t.Keyed) {inp : CreateInput} {user : User} (done : create t inp = .ok (user, t')) :
    Refines t t' (.added t.nextUserId inp.role) ∧ t'.refreshTokens = t.refreshTokens := by
  simp only [create, Fallible.guard_eq_ok, Fallible.bind_eq_ok] at done
  obtain ⟨-, _, checked, ⟨created, u⟩, inserted, done⟩ := done
  have owner := checkedRole_eq_ok keys checked
  obtain ⟨added, same⟩ := insertUser_refines keys inserted rfl owner
  split at done
  · obtain ⟨-, rfl⟩ := Prod.mk.inj (Fallible.pure_eq_ok.mp done)
    exact ⟨added, same⟩
  · obtain ⟨w, invited, done⟩ := Fallible.bind_eq_ok.mp done
    obtain ⟨-, rfl⟩ := Prod.mk.inj (Fallible.pure_eq_ok.mp done)
    obtain ⟨idle, sessions⟩ := createInviteToken_refines added.keyed invited
    exact ⟨added.trans_none idle, sessions.trans same⟩

/-- What the request asks of activity and role is what is written; of the owner's account it may ask neither. -/
theorem updates_spec {user : User} {inp : UpdateInput} {updates : Updates}
    (decided : decidedUpdates t user inp = .ok updates) :
    updates.isActive = inp.isActive ∧ updates.role = inp.role ∧ (user.isOwner = true → inp.isActive = none ∧ inp.role = none) := by
  unfold decidedUpdates at decided
  split at decided
  · simp only [ownerUpdates, Fallible.guard_eq_ok, Fallible.pure_eq_ok, Bool.or_eq_true, not_or, Bool.not_eq_true,
      Option.isSome_eq_false_iff, Option.isNone_iff_eq_none] at decided
    obtain ⟨-, ⟨⟨isActive, -⟩, role⟩, rfl⟩ := decided
    exact ⟨isActive.symm, role.symm, fun _ => ⟨isActive, role⟩⟩
  · next member =>
    simp only [memberUpdates, Fallible.guard_eq_ok, Fallible.pure_eq_ok] at decided
    obtain ⟨-, -, -, rfl⟩ := decided
    exact ⟨rfl, rfl, fun owner => absurd owner member⟩

theorem any_ne_eq_false {α : Type} [DecidableEq α] {a : α} {o : Option α} : o.any (a ≠ ·) = false ↔ o.getD a = a := by
  cases o with
  | none => simp
  | some b =>
    simp only [Option.any_some, decide_eq_false_iff_not, not_not, Option.getD_some]
    exact eq_comm

/-- The accounts of another user, as an update of the row and of the version leaves them. -/
theorem edit_eq (user : User) (inp : UpdateInput) : user.account.edit inp.isActive inp.role =
    if authStateChanged user inp then
      { user.account with
        isActive := inp.isActive.getD user.isActive
        role := inp.role.getD user.role
        securityVersion := user.securityVersion + 1 }
    else user.account := by
  have same : authStateChanged user inp = false ↔
      inp.isActive.getD user.isActive = user.isActive ∧ inp.role.getD user.role = user.role := by
    rw [authStateChanged, Bool.or_eq_false_iff, any_ne_eq_false, any_ne_eq_false, and_comm]
  cases changed : authStateChanged user inp with
  | false =>
    obtain ⟨isActive, role⟩ := same.mp changed
    have equal : user.account = { user.account with isActive := inp.isActive.getD user.isActive, role := inp.role.getD user.role } := by
      rw [isActive, role]
      rfl
    exact if_pos equal.symm
  | true =>
    refine if_neg fun equal => ?_
    have unchanged := same.mpr ⟨congrArg Account.isActive equal, congrArg Account.role equal⟩
    rw [changed] at unchanged
    cases unchanged

/-- What `UserService.update` does: the owner's account it leaves alone, another one it edits, and where that changes anything
    it ends the sessions. -/
theorem update_refines (keys : t.Keyed) {inp : UpdateInput} (done : update t inp = .ok t') :
    (Refines t t' .none ∧ t'.refreshTokens = t.refreshTokens ∧ inp.isActive = none ∧ inp.role = none) ∨
      Refines t t' (.edited inp.userId inp.isActive inp.role) ∧
        (t'.refreshTokens = t.refreshTokens.invalidateAllForUser inp.userId ∨
          t'.refreshTokens = t.refreshTokens ∧ t'.accounts = t.accounts) := by
  unfold update at done
  cases found : t.getById inp.userId with
  | none => simp [found] at done
  | some user =>
    simp only [found, Fallible.bind_eq_ok] at done
    obtain ⟨updates, decided, done⟩ := done
    obtain ⟨isActive, role, owner⟩ := updates_spec decided
    split at done
    · next empty =>
      have same := Fallible.pure_eq_ok.mp done
      subst same
      rw [empty] at isActive role
      exact .inl ⟨keys.refl, rfl, isActive.symm, role.symm⟩
    · obtain ⟨u, written, done⟩ := Fallible.bind_eq_ok.mp done
      have id : user.id = inp.userId := Tables.getById_id found
      have own : t.accounts inp.userId = some user.account := Tables.accounts_of_getById found
      obtain ⟨accounts, keyed, sessions⟩ := Tables.update_accounts written
      have version : (user.withUpdates updates).id = inp.userId := id
      rw [version] at accounts
      by_cases ownerRow : user.isOwner = true
      · obtain ⟨noActive, noRole⟩ := owner ownerRow
        have unchanged : authStateChanged user inp = false := by simp [authStateChanged, noActive, noRole]
        rw [unchanged, if_neg Bool.false_ne_true] at done
        have same := Fallible.pure_eq_ok.mp done
        subst same
        refine .inl ⟨(keyed keys).idle (accounts.trans (Accounts.set_eq_self fun a mem => ?_)), sessions, noActive, noRole⟩
        rw [Option.mem_def, own] at mem
        rw [← Option.some.inj mem]
        simp only [User.withUpdates, isActive, role, noActive, noRole, Option.getD_none]
        rfl
      · have member : user.role ≠ "owner" := fun same => ownerRow (decide_eq_true same)
        have only : ∀ a ∈ t.accounts inp.userId, a = user.account := fun a mem =>
          Option.some.inj ((Option.mem_def.mp mem).symm.trans own)
        have allowed : t.accounts.Allows (.edited inp.userId inp.isActive inp.role) := ⟨user.account, own, rfl, member⟩
        refine .inr ?_
        cases changed : authStateChanged user inp with
        | true =>
          rw [changed, if_pos rfl, id] at done
          have same := Fallible.pure_eq_ok.mp done
          subst same
          have raised : Refines (u.invalidateSessions inp.userId) _ (.raised inp.userId) :=
            Tables.incrementSecurityVersion_refines ⟨(keyed keys).ids, (keyed keys).below⟩
          refine ⟨⟨raised.keyed, allowed, raised.accounts.trans ?_⟩, .inl (congrArg (SessionTables.invalidateAllForUser · inp.userId) sessions)⟩
          refine (congrArg (Accounts.set · inp.userId Account.raise) accounts).trans (Accounts.set_set.trans ?_)
          refine Accounts.set_congr fun a mem => ?_
          rw [only a mem, edit_eq, changed, if_pos rfl, ← isActive, ← role]
          rfl
        | false =>
          rw [changed, if_neg Bool.false_ne_true] at done
          have same := Fallible.pure_eq_ok.mp done
          subst same
          have kept : ∀ a ∈ t.accounts inp.userId, a.edit inp.isActive inp.role = a := by
            intro a mem
            rw [only a mem, edit_eq, changed, if_neg Bool.false_ne_true]
          have unchanged : t'.accounts = t.accounts := by
            refine accounts.trans (Accounts.set_eq_self fun a mem => ?_)
            have isActive' := (Accounts.edit_isActive inp.isActive inp.role a).symm.trans (congrArg _ (kept a mem))
            have role' := (Accounts.edit_role inp.isActive inp.role a).symm.trans (congrArg _ (kept a mem))
            rw [only a mem] at isActive' role' ⊢
            simp only [User.withUpdates, isActive, role]
            exact Account.ext isActive' role' rfl rfl
          exact ⟨⟨keyed keys, allowed, unchanged.trans (Accounts.set_eq_self kept).symm⟩, .inr ⟨sessions, unchanged⟩⟩

theorem invalidateAllForUser_idem (s : SessionTables) (id : Nat) :
    (s.invalidateAllForUser id).invalidateAllForUser id = s.invalidateAllForUser id := by
  simp only [SessionTables.invalidateAllForUser, List.map_map]
  congr 1
  refine List.map_congr_left fun r _ => ?_
  by_cases own : r.userId = id
  · simp [own]
  · simp [own]

theorem delete_refines (keys : t.Keyed) {inp : DeleteInput} (done : delete t inp = .ok t') :
    Refines t t' (.deleted inp.userId) ∧ t'.refreshTokens = t.refreshTokens.invalidateAllForUser inp.userId := by
  simp only [delete, Fallible.guard_eq_ok] at done
  obtain ⟨-, done⟩ := done
  cases found : t.getById inp.userId with
  | none => simp [found] at done
  | some user =>
    simp only [found, Fallible.guard_eq_ok] at done
    obtain ⟨member, done⟩ := done
    obtain ⟨r, row⟩ := Tables.row_of_getById found
    have row' : (t.invalidateSessions inp.userId).row? inp.userId = some r := row
    simp only [Tables.delete, row', Fallible.guard_eq_ok, Fallible.pure_eq_ok] at done
    obtain ⟨-, rfl⟩ := done
    have allowed : t.accounts.Allows (.deleted inp.userId) :=
      ⟨user.account, Tables.accounts_of_getById found, rfl, fun same => member (decide_eq_true same)⟩
    have keyed : t.Keyed := keys
    refine ⟨⟨Tables.Keyed.setRow ⟨keyed.ids, keyed.below⟩ fun _ => rfl, allowed, ?_⟩, invalidateAllForUser_idem _ _⟩
    exact Tables.accounts_setRow (fun _ => rfl) fun _ => rfl

theorem inviteAgain_refines (keys : t.Keyed) {userId : Nat} {now : Int} {invite : InvitePayload}
    (done : inviteAgain t userId now invite = .ok t') : Refines t t' .none ∧ t'.refreshTokens = t.refreshTokens := by
  have idle : Refines t (t.invalidateInviteTokens userId now) .none := keys.refl.of_users rfl rfl
  obtain ⟨created, sessions⟩ := createInviteToken_refines idle.keyed done
  exact ⟨idle.none_trans created, sessions⟩

theorem forgotPassword_refines (keys : t.Keyed) {email : String} {now : Int} {invite : InvitePayload}
    (done : forgotPassword t email now invite = .ok t') : Refines t t' .none ∧ t'.refreshTokens = t.refreshTokens := by
  unfold forgotPassword at done
  split at done
  · have same := Fallible.pure_eq_ok.mp done
    subst same
    exact ⟨keys.refl, rfl⟩
  · exact inviteAgain_refines keys done

theorem changePassword_refines (keys : t.Keyed) {verify : VerifyPassword} {inp : PasswordInput}
    (done : changePassword verify t inp = .ok t') : Refines t t' .none ∧ t'.refreshTokens = t.refreshTokens := by
  unfold changePassword at done
  split at done
  · cases done
  · simp only [Fallible.guard_eq_ok, Fallible.bind_eq_ok] at done
    obtain ⟨-, -, u, updated, reset⟩ := done
    obtain ⟨hashed, sessions, -⟩ := Tables.updatePassword_refines keys updated
    obtain ⟨idle, sessions'⟩ := Tables.resetFailedLogin_refines hashed.keyed reset
    exact ⟨hashed.none_trans idle, sessions'.trans sessions⟩

/-- The first password of a demo user revokes the tokens by their version alone. -/
theorem setInitialPasswordDemo_refines (keys : t.Keyed) {inp : PasswordInput} {demo : Bool} {refusal : Option String}
    (done : setInitialPasswordDemo t inp demo refusal = .ok t') :
    Refines t t' (.raised inp.userId) ∧ t'.refreshTokens = t.refreshTokens ∧
      ∃ user, t.getById inp.userId = some user := by
  simp only [setInitialPasswordDemo, Fallible.guard_eq_ok] at done
  obtain ⟨-, done⟩ := done
  split at done
  · cases done
  · split at done
    · cases done
    · next user found =>
      simp only [Fallible.guard_eq_ok, Fallible.bind_eq_ok, Fallible.pure_eq_ok] at done
      obtain ⟨-, u, updated, v, reset, rfl⟩ := done
      obtain ⟨hashed, sessions, -⟩ := Tables.updatePassword_refines keys updated
      obtain ⟨idle, sessions'⟩ := Tables.resetFailedLogin_refines hashed.keyed reset
      have before := hashed.none_trans idle
      exact ⟨before.none_trans (Tables.incrementSecurityVersion_refines idle.keyed), sessions'.trans sessions, user, found⟩

/-! ### `InviteService` and `UserProfileService` -/

theorem setPassword_refines (keys : t.Keyed) {inp : SetPasswordInput} (done : setPassword t inp = .ok t') :
    t'.refreshTokens = t.refreshTokens ∧ ∃ id, t.linkOwner inp = some id ∧
      (Refines t t' .none ∨ ∃ promoted, Refines t t' (.registered id promoted)) := by
  unfold setPassword at done
  split at done
  · cases done
  · next record found =>
    simp only [Fallible.guard_eq_ok, Fallible.bind_eq_ok] at done
    obtain ⟨unexpired, u, updated, done⟩ := done
    obtain ⟨query, unused⟩ := Option.filter_eq_some_iff.mp found
    have link : t.linkOwner inp = some record.userId := by
      have inTime : inp.now ≤ record.expiresAt := Int.not_lt.mp unexpired
      simp [Tables.linkOwner, query, unused, inTime, Option.filter]
    obtain ⟨hashed, sessions, -⟩ := Tables.updatePassword_refines keys updated
    have marked : Refines t (u.markUsed record.id inp.now) .none := hashed.of_users rfl rfl
    split at done
    · have same := Fallible.pure_eq_ok.mp done
      subst same
      exact ⟨sessions, record.userId, link, .inl marked⟩
    · next user found' =>
      obtain ⟨accounts, keyed, sessions'⟩ := Tables.update_accounts done
      have id : user.id = record.userId := Tables.getById_id found'
      refine ⟨sessions'.trans sessions, record.userId, link, .inr ⟨!(u.markUsed record.id inp.now).existsOwner, ?_⟩⟩
      refine marked.none_trans ⟨keyed marked.keyed, ⟨⟨user.account, Tables.accounts_of_getById found', rfl⟩, ?_⟩, ?_⟩
      · intro promoted owner
        rw [Tables.hasOwner_iff marked.keyed] at owner
        rw [owner] at promoted
        cases promoted
      · have registered : (user.registered (u.markUsed record.id inp.now).existsOwner inp.now).id = record.userId := id
        rw [registered] at accounts
        refine accounts.trans (Accounts.set_congr fun a mem => ?_)
        rw [Option.mem_def, Tables.accounts_of_getById found'] at mem
        rw [← Option.some.inj mem]
        cases (u.markUsed record.id inp.now).existsOwner <;> rfl

theorem resendInvite_refines (keys : t.Keyed) {userId : Nat} {now : Int} {invite : InvitePayload}
    (done : resendInvite t userId now invite = .ok t') : Refines t t' .none ∧ t'.refreshTokens = t.refreshTokens := by
  unfold resendInvite at done
  split at done
  · cases done
  · simp only [Fallible.guard_eq_ok] at done
    exact inviteAgain_refines keys done.2.2

theorem withStoredEmail_account (u : User) : (withStoredEmail t u).isActive = u.isActive ∧ (withStoredEmail t u).role = u.role := by
  unfold withStoredEmail
  split
  · split
    · split <;> exact ⟨rfl, rfl⟩
    · exact ⟨rfl, rfl⟩
  · exact ⟨rfl, rfl⟩

/-- The profile of an active user is written with the role that the request knows. -/
theorem updateMe_refines (keys : t.Keyed) {user : User} (active : user.isActive = true) {inp : ProfileInput}
    (done : updateMe t user inp = .ok t') : t'.refreshTokens = t.refreshTokens ∧
      (Refines t t' .none ∨ Refines t t' (.overwritten user.id user.role)) := by
  unfold updateMe at done
  dsimp only at done
  split at done
  · have same := Fallible.pure_eq_ok.mp done
    subst same
    exact ⟨rfl, .inl keys.refl⟩
  · obtain ⟨accounts, keyed, sessions⟩ := Tables.update_accounts done
    obtain ⟨isActive, role⟩ := withStoredEmail_account (t := t) (user.withProfile (buildProfileUpdates inp))
    have id : (withStoredEmail t (user.withProfile (buildProfileUpdates inp))).id = user.id := withStoredEmail_id
    refine ⟨sessions, .inr ⟨keyed keys, trivial, ?_⟩⟩
    rw [id, isActive, role] at accounts
    refine accounts.trans (Accounts.set_congr fun a _ => ?_)
    have shown : (user.withProfile (buildProfileUpdates inp)).isActive = true := active
    rw [shown]
    rfl

/-! ### Authenticators -/

theorem revoke_refines (keys : t.Keyed) (id : Nat) : Refines t ((t.incrementSecurityVersion id).invalidateSessions id) (.raised id) :=
  (Tables.incrementSecurityVersion_refines keys).of_users rfl rfl

theorem confirmAuthenticatorSetup_refines (keys : t.Keyed) {env : Auth.AuthEnv} {inp : ConfirmInput}
    (done : confirmAuthenticatorSetup env t inp = .ok t') :
    Refines t t' (.raised inp.userId) ∧ t'.refreshTokens = t.refreshTokens.invalidateAllForUser inp.userId := by
  unfold confirmAuthenticatorSetup at done
  split at done
  · cases done
  · next secret _ =>
    split at done
    · cases done
    · cases done
    · have same := Fallible.pure_eq_ok.mp done
      subst same
      have users : (t.enableSecret inp.userId secret).users = t.users ∧
          (t.enableSecret inp.userId secret).nextUserId = t.nextUserId ∧
          (t.enableSecret inp.userId secret).refreshTokens = t.refreshTokens := by
        unfold Tables.enableSecret
        split <;> exact ⟨rfl, rfl, rfl⟩
      have enabled : Refines t (t.enableSecret inp.userId secret) .none := keys.refl.of_users users.1 users.2.1
      exact ⟨enabled.none_trans (revoke_refines enabled.keyed inp.userId),
        congrArg (SessionTables.invalidateAllForUser · inp.userId) users.2.2⟩

theorem disableAuthenticator_refines (keys : t.Keyed) (id : Nat) :
    Refines t (disableAuthenticator t id) (.raised id) ∧
      (disableAuthenticator t id).refreshTokens = t.refreshTokens.invalidateAllForUser id := by
  have disabled : Refines t (t.disableAuthenticator id) .none := keys.refl.of_users rfl rfl
  exact ⟨disabled.none_trans (revoke_refines disabled.keyed id), rfl⟩

end

/-! ### Login -/

/-- Tokens have been issued: the user's other sessions are ended, and the new one is there. -/
structure Issued (env : TokenEnv) (inp : TokenInput) (user : User) (s s' : SessionTables) : Prop where
  fresh : ∀ r ∈ s.sessions, r.jti ≠ inp.jti
  same : Same ((s.invalidateAllForUser user.id).create
    (.new user.id inp.jti (env.hashToken (env.encode ((inp.issue user).pair env).1)) ((inp.issue user).pair env).2 inp.client)) s'

section
variable {t t' : Tables} {env : LoginEnv} {user : User} {result : LoginResult}

theorem issueTokens_issued (keys : t.Keyed) {inp : TokenInput} {tokens : Tokens}
    (done : issueTokens env.tokens t inp user = .ok (tokens, t')) :
    Refines t t' .none ∧ Issued env.tokens inp user t.refreshTokens t'.refreshTokens := by
  unfold issueTokens at done
  split at done
  · next sessions run =>
    obtain ⟨rfl, rfl⟩ := Prod.mk.inj (Fallible.pure_eq_ok.mp done)
    have spec : Returns (· = t.refreshTokens) (issueTokensForUser env.tokens (inp.issue user)) _ _ := issueTokens_returns _
    have ends := spec t.refreshTokens rfl
    rw [issueTokensForUser, run_atomically, run] at ends
    cases ends with
    | returned ended =>
      obtain ⟨fresh, -, same⟩ := ended
      exact ⟨keys.refl.of_users rfl rfl, fresh, same⟩
  · cases done

/-- A login hands out tokens to an active user only. -/
def LoggedIn (env : LoginEnv) (t t' : Tables) (inp : TokenInput) (result : LoginResult) : Prop :=
  ∃ user tokens, result = .success user tokens ∧ t.getById user.id = some user ∧ user.isActive = true ∧
    Refines t t' .none ∧ Issued env.tokens inp user t.refreshTokens t'.refreshTokens

theorem challenged_users (t : Tables) (inp : Step1Input) (user : User) (secret : Option String) :
    (t.challenged inp user secret).users = t.users ∧ (t.challenged inp user secret).nextUserId = t.nextUserId ∧
      (t.challenged inp user secret).refreshTokens = t.refreshTokens := by
  cases secret with
  | none => exact ⟨rfl, rfl, rfl⟩
  | some _ => exact ⟨rfl, rfl, rfl⟩

theorem challenge_refines (keys : t.Keyed) {inp : Step1Input} {secret : Option String}
    (done : challenge t inp user secret = .ok (result, t')) :
    result.user = none ∧ Refines t t' .none ∧ t'.refreshTokens = t.refreshTokens := by
  obtain ⟨-, returned⟩ := Fallible.guard_eq_ok.mp done
  obtain ⟨rfl, rfl⟩ := Prod.mk.inj (Fallible.pure_eq_ok.mp returned)
  obtain ⟨users, next, sessions⟩ := challenged_users t inp user secret
  exact ⟨rfl, keys.refl.of_users users next, sessions⟩

/-- Nobody has been given tokens. -/
def NotLoggedIn (env : LoginEnv) (t t' : Tables) (inp : Step1Input) (result : LoginResult) : Prop :=
  result.user = none ∧ t'.refreshTokens = t.refreshTokens ∧
    (Refines t t' .none ∨ ∃ id, t.lockedBy env inp = some id ∧ Refines t t' (.locked id))

theorem checkPassword_refines (keys : t.Keyed) {inp : Step1Input} {email password : String}
    (given : inp.email.filter (· ≠ "") = some email) (given' : inp.password.filter (· ≠ "") = some password)
    (found : t.getByEmail email = some user) (done : checkPassword env t inp email password user = .ok (result, t')) :
    LoggedIn env t t' inp.toTokenInput result ∨ NotLoggedIn env t t' inp result := by
  have own : t.getById user.id = some user := Tables.getById_of_getByEmail keys found
  unfold checkPassword at done
  split at done
  · obtain ⟨rfl, rfl⟩ := Prod.mk.inj (Fallible.pure_eq_ok.mp done)
    exact .inr ⟨rfl, rfl, .inl (keys.refl.of_users rfl rfl)⟩
  · next active =>
    have active : user.isActive = true := Bool.not_eq_false _ ▸ active
    split at done
    · next wrong =>
      obtain ⟨u, recorded, done⟩ := Fallible.bind_eq_ok.mp done
      obtain ⟨rfl, rfl⟩ := Prod.mk.inj (Fallible.pure_eq_ok.mp done)
      have published : Refines t (t.publish inp.client .loginFailed (some user.id) [("reason", "bad_password"), ("email", email)])
        .none := keys.refl.of_users rfl rfl
      obtain ⟨counted, sessions⟩ := Tables.recordFailedLogin_refines published.keyed own active recorded
      refine .inr ⟨rfl, sessions, ?_⟩
      by_cases locks : (Tables.evaluateFailedLogin user).2 = true
      · rw [if_pos locks] at counted
        refine .inr ⟨user.id, ?_, published.none_trans counted⟩
        unfold Tables.lockedBy
        rw [given, given']
        simp only [found, Option.filter_some, active, wrong, locks, Bool.not_false, Bool.and_true, if_true, Option.map_some]
      · rw [if_neg locks] at counted
        exact .inl (published.none_trans counted)
    · obtain ⟨u, reset, done⟩ := Fallible.bind_eq_ok.mp done
      obtain ⟨idle, sessions⟩ := Tables.resetFailedLogin_refines keys reset
      dsimp only at done
      split at done
      · obtain ⟨⟨tokens, v⟩, handed, done⟩ := Fallible.bind_eq_ok.mp done
        obtain ⟨rfl, rfl⟩ := Prod.mk.inj (Fallible.pure_eq_ok.mp done)
        have published : Refines t (u.publish inp.client .loginSuccess (some user.id) [("email", user.email), ("2fa", "False")])
          .none := idle.of_users rfl rfl
        obtain ⟨same, issued⟩ := issueTokens_issued published.keyed handed
        exact .inl ⟨user, tokens, rfl, own, active, published.none_trans same, sessions ▸ issued⟩
      · obtain ⟨none_in, asked, sessions'⟩ := challenge_refines idle.keyed done
        exact .inr ⟨none_in, sessions'.trans sessions, .inl (idle.none_trans asked)⟩

theorem loginStep1_refines (keys : t.Keyed) {inp : Step1Input} (done : loginStep1 env t inp = .ok (result, t')) :
    LoggedIn env t t' inp.toTokenInput result ∨ NotLoggedIn env t t' inp result := by
  unfold loginStep1 at done
  split at done
  · next email password given given' =>
    split at done
    · obtain ⟨rfl, rfl⟩ := Prod.mk.inj (Fallible.pure_eq_ok.mp done)
      exact .inr ⟨rfl, rfl, .inl (keys.refl.of_users rfl rfl)⟩
    · next user found => exact checkPassword_refines keys given given' found done
  · obtain ⟨rfl, rfl⟩ := Prod.mk.inj (Fallible.pure_eq_ok.mp done)
    exact .inr ⟨rfl, rfl, .inl keys.refl⟩

/-! ### The second step -/

variable {users : List Auth.User} {svc : Auth.LoginAudit} {inp : Auth.LoginInput} {userId : Nat}

/-- The second factor leaves the users alone. -/
theorem secondFactor_users (secret : Option String) : Returns (fun w => w.tables.users = users)
    (svc.secondFactor env.auth inp userId secret) (fun _ w => w.tables.users = users) fun w => w.tables.users = users := by
  have logged (action : Auth.AuditLogAction) (details : List (String × String)) :
      Returns (fun w => w.tables.users = users) (svc.log inp action userId details) (fun _ w => w.tables.users = users)
        fun w => w.tables.users = users := svc.log_keeps (fun _ _ h => h) action details
  have counted := Auth.recordAttempts_keeps (P := fun w => w.tables.users = users) fun _ _ h => h
  cases secret with
  | some secret =>
    refine .bind (R := fun _ w => w.tables.users = users) (.get fun _ h => h) fun w => ?_
    refine .ite (fun _ => .throw fun _ h => h) fun _ => ?_
    cases Auth.verifyAuthenticatorCode env.auth secret inp.twoFactorCode inp.timestamp with
    | none => exact .throw fun _ h => h
    | some ok =>
      cases ok with
      | true => exact .bind (R := fun _ w => w.tables.users = users) (.modify fun _ h => h) fun _ => .pure fun _ h => h
      | false =>
        refine .bind (R := fun _ w => w.tables.users = users) (.modify fun _ h => h) fun _ => ?_
        refine .bind (counted _ _ _ _) fun _ => .bind (logged _ _) fun _ => ?_
        exact .ite (fun _ => .throw fun _ h => h) fun _ => .pure fun _ h => h
  | none =>
    refine .bind (R := fun _ w => w.tables.users = users) ?_ fun _ => ?_
    · refine .bind (R := fun _ w => w.tables.users = users) (.get fun _ h => h) fun w => ?_
      refine .ite (fun _ => .throw fun _ h => h) fun _ => ?_
      cases w.tables.getValidCode env.auth inp.now userId inp.twoFactorCode with
      | none => exact .bind (counted _ _ _ _) fun _ => .pure fun _ h => h
      | some code => exact .bind (R := fun _ w => w.tables.users = users) (.modify fun _ h => h) fun _ => .pure fun _ h => h
    · exact .ite (fun _ => .pure fun _ h => h) fun _ => .bind (logged _ _) fun _ => .pure fun _ h => h

/-- A second step that succeeds names an active user. -/
theorem secondStep_active : Returns (fun w => w.tables.users = users) (svc.loginStep2 env.auth inp)
    (fun accepted _ => ∀ a ∈ accepted, ∃ u ∈ users, u.id = a.userId ∧ u.isActive = true ∧ u.deletedAt = none) fun _ => True := by
  have logged (userId : Nat) (action : Auth.AuditLogAction) (details : List (String × String)) :
      Returns (fun w => w.tables.users = users) (svc.log inp action userId details) (fun _ w => w.tables.users = users)
        fun _ => True := (svc.log_keeps (fun _ _ h => h) action details).mono (fun _ _ h => h) fun _ _ => trivial
  refine .bind (R := fun _ w => w.tables.users = users) (.get fun _ h => h) fun w => ?_
  cases w.tables.getUserId inp.now inp.pendingToken with
  | none => exact .pure fun _ _ => nofun
  | some userId =>
    refine .bind (.tryCatch (secondFactor_users _) fun e => svc.rateLimited_raises e) fun codeOk => ?_
    refine .ite (fun _ => ?_) fun _ => .pure fun _ _ => nofun
    refine .bind (R := fun _ w => w.tables.users = users) (.modify fun _ h => h) fun _ => ?_
    refine .bind (R := fun x w => x.tables.users = users ∧ w.tables.users = users) (.get fun _ h => ⟨h, h⟩) fun x => .given fun same => ?_
    cases found : x.tables.getUser userId with
    | none => exact .pure fun _ _ => nofun
    | some u =>
      refine .ite (fun active => ?_) fun _ => .pure fun _ _ => nofun
      have member : u ∈ users ∧ u.deletedAt = none := by
        have holds := List.find?_some found
        simp only [decide_eq_true_eq] at holds
        exact ⟨same ▸ List.mem_of_find?_eq_some found, holds.2⟩
      refine .bind (logged _ _ _) fun _ => .bind (logged _ _ _) fun _ => ?_
      refine .ite (fun _ => ?_) fun _ => .throw fun _ _ => trivial
      refine .bind (R := fun _ w => w.tables.users = users) (.modify fun _ h => h) fun _ => .pure ?_
      intro w h a accepted
      exact ⟨u, member.1, congrArg Auth.LoginSuccess.userId (Option.some.inj accepted), active, member.2⟩

theorem loginStep2_refines (keys : t.Keyed) {inp : Step2Input} (done : loginStep2 env t inp = .ok (result, t')) :
    LoggedIn env t t' inp.tokens result ∨ result.user = none ∧ t'.refreshTokens = t.refreshTokens ∧ Refines t t' .none := by
  have spec : Returns (fun w => w.tables.users = t.forSecondStep.users)
      (Auth.LoginAudit.proxy.loginStep2 env.auth inp.toLoginInput) _ _ := secondStep_active
  have ends := spec { tables := t.forSecondStep } rfl
  unfold loginStep2 at done
  generalize (Auth.LoginAudit.proxy.loginStep2 env.auth inp.toLoginInput).run { tables := t.forSecondStep } = run at ends done
  cases ends with
  | raised _ => cases done
  | @returned answer w active =>
    cases answer with
    | none =>
      obtain ⟨rfl, rfl⟩ := Prod.mk.inj (Fallible.pure_eq_ok.mp done)
      exact .inr ⟨rfl, rfl, keys.refl.of_users rfl rfl⟩
    | some accepted =>
      obtain ⟨u, mem, id, active, live⟩ := active accepted rfl
      obtain ⟨r, row, rfl⟩ := List.mem_map.mp mem
      have own : t.getById r.id = some r.toUser := keys.getById row (decide_eq_true live)
      have named : t.getById accepted.userId = some r.toUser := id ▸ own
      simp only [named] at done
      obtain ⟨⟨tokens, v⟩, handed, done⟩ := Fallible.bind_eq_ok.mp done
      obtain ⟨rfl, rfl⟩ := Prod.mk.inj (Fallible.pure_eq_ok.mp done)
      have idle : Refines t (t.afterSecondStep w.tables) .none := keys.refl.of_users rfl rfl
      obtain ⟨same, issued⟩ := issueTokens_issued idle.keyed handed
      exact .inl ⟨r.toUser, tokens, rfl, own, active, idle.none_trans same, issued⟩

end

end NyzRating.Users
