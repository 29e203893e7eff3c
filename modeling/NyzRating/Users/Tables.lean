import Mathlib.Data.List.Nodup
import NyzRating.Auth.RefreshService
import NyzRating.Lib.Fallible

/-!
# Users

The users of one tenant's schema, with the rows that belong to them, and the statements of their repositories.
-/

namespace NyzRating.Users

open Auth.Refresh

/-! ### Rows -/

/-- The data transfer object; the columns of a row. A user that has not been stored has no id yet, and 0 stands for none. -/
structure User where
  id : Nat
  email : String
  passwordHash : String
  isActive : Bool
  role : String
  name : Option String := none
  registrationCompletedAt : Option Int := none
  failedLoginAttempts : Int := 0
  preferredLocale : Option String := none
  preferredTheme : Option String := none
  securityVersion : Int := 0
  credentialsPasswordSet : Bool := true
  pendingEmail : Option String := none
  pendingEmailTokenHash : Option String := none
  pendingEmailExpiresAt : Option Int := none
  deriving DecidableEq, Repr

def User.isOwner (u : User) : Bool := u.role = "owner"

/-- A row of `users`. -/
structure UserRow extends User where
  deletedAt : Option Int := none
  deriving DecidableEq, Repr

structure InviteToken where
  id : Nat
  userId : Nat
  tokenHash : String
  expiresAt : Int
  usedAt : Option Int := none
  deriving DecidableEq, Repr

/-- A row of `user_authenticators`. -/
structure AuthenticatorRow extends Auth.UserAuthenticator where
  pendingSecretBase32 : Option String := none
  pendingExpiresAt : Option Int := none
  deriving DecidableEq, Repr

/-- The events of the first step of a login. -/
inductive LoginAction where
  | loginFailed
  | loginSuccess
  | login2faRequired
  deriving DecidableEq, Repr

structure LoginEvent where
  action : LoginAction
  userId : Option Nat
  details : List (String × String)
  ip : Option String
  userAgent : Option String
  deriving DecidableEq, Repr

structure Tables where
  users : List UserRow := []
  nextUserId : Nat := 1
  inviteTokens : List InviteToken := []
  nextInviteTokenId : Nat := 1
  refreshTokens : SessionTables := {}
  userAuthenticators : List AuthenticatorRow := []
  pending2fa : List Auth.Pending2FA := []
  twoFactorCodes : List Auth.TwoFactorCode := []
  nextTwoFactorCodeId : Nat := 1
  twoFactorAttempts : List Auth.TwoFactorAttempt := []
  outbox : List LoginEvent := []
  deriving DecidableEq, Repr

inductive UserError where
  | valueError (message : String)
  | inviteTokenInvalid
  | inviteTokenExpired
  /-- An e-mail or a token hash is there already. -/
  | integrityError
  /-- `TwoFactorTooManyAttemptsError`, or another error of the second step. -/
  | secondStep (e : Auth.LoginError)
  /-- The tokens could not be issued. -/
  | session (e : SessionError)
  deriving DecidableEq, Repr

/-! ### `UserRepository` -/

/-- The columns that `update` writes of the row `r`. -/
def User.written (u : User) (r : UserRow) : UserRow :=
  { r with
    email := u.email
    isActive := u.isActive
    role := u.role
    name := u.name
    registrationCompletedAt := u.registrationCompletedAt
    failedLoginAttempts := u.failedLoginAttempts
    preferredLocale := u.preferredLocale
    preferredTheme := u.preferredTheme
    credentialsPasswordSet := u.credentialsPasswordSet
    pendingEmail := u.pendingEmail
    pendingEmailTokenHash := u.pendingEmailTokenHash
    pendingEmailExpiresAt := u.pendingEmailExpiresAt }

def UserRow.live (r : UserRow) : Bool := r.deletedAt = none

namespace Tables

variable (t : Tables)

def row? (id : Nat) : Option UserRow := t.users.find? (·.id = id)

def getById (id : Nat) : Option User := ((t.row? id).filter (·.live)).map (·.toUser)

def existsOwner : Bool := t.users.any fun r => r.role = "owner" && r.live

def getByEmail (email : String) : Option User :=
  (t.users.find? fun r => String.ofList (Text.lower r.email.toList) = Text.stripLower email && r.live).map (·.toUser)

/-- The row of the id, changed by `f`. -/
def setRow (id : Nat) (f : UserRow → UserRow) : Tables := { t with users := t.users.map fun r => if r.id = id then f r else r }

def create (u : User) : Except UserError (User × Tables) :=
  if t.users.any (·.email = u.email) then throw .integrityError
  else
    let row : UserRow :=
      { id := t.nextUserId, email := u.email, name := u.name, passwordHash := u.passwordHash, isActive := u.isActive,
        role := u.role, registrationCompletedAt := u.registrationCompletedAt,
        credentialsPasswordSet := u.credentialsPasswordSet }
    return ({ u with id := t.nextUserId }, { t with users := t.users ++ [row], nextUserId := t.nextUserId + 1 })

def update (u : User) : Except UserError Tables :=
  match t.row? u.id with
  | none => throw (.valueError ("User not found: " ++ toString u.id))
  | some _ =>
    if t.users.any fun r => r.id ≠ u.id && r.email = u.email then throw .integrityError
    else return t.setRow u.id u.written

def incrementSecurityVersion (id : Nat) : Tables :=
  t.setRow id fun r => { r with securityVersion := r.securityVersion + 1 }

/-- `LoginSecurityPolicy.evaluate_failed_login`: the new count, and whether the account is locked. -/
def evaluateFailedLogin (u : User) : Int × Bool :=
  let shouldLock := u.failedLoginAttempts + 1 ≥ 5 && !u.isOwner
  (if shouldLock then 0 else u.failedLoginAttempts + 1, shouldLock)

def recordFailedLogin (id : Nat) : Except UserError Tables :=
  match t.getById id with
  | none => return t
  | some user =>
    let (newFailedAttempts, shouldLock) := evaluateFailedLogin user
    t.update { user with
      failedLoginAttempts := newFailedAttempts
      isActive := if shouldLock then false else user.isActive }

def resetFailedLogin (id : Nat) : Except UserError Tables :=
  match t.getById id with
  | none => return t
  | some user => t.update { user with failedLoginAttempts := 0 }

def updatePassword (id : Nat) (passwordHash : String) : Except UserError Tables :=
  match t.row? id with
  | none => throw (.valueError ("User not found: " ++ toString id))
  | some _ => return t.setRow id fun r => { r with passwordHash, credentialsPasswordSet := true }

/-! ### The other repositories -/

/-- The tokens of the user are used up, those that have been used before keep their time. -/
def invalidateInviteTokens (userId : Nat) (now : Int) : Tables :=
  { t with inviteTokens := t.inviteTokens.map fun i =>
      if i.userId = userId then { i with usedAt := i.usedAt.or (some now) } else i }

def createInviteToken (userId : Nat) (tokenHash : String) (expiresAt : Int) : Except UserError Tables :=
  if t.inviteTokens.any (·.tokenHash = tokenHash) then throw .integrityError
  else
    return { t with
      inviteTokens := t.inviteTokens ++ [{ id := t.nextInviteTokenId, userId, tokenHash, expiresAt }]
      nextInviteTokenId := t.nextInviteTokenId + 1 }

def getByTokenHash (tokenHash : String) : Option InviteToken := t.inviteTokens.find? (·.tokenHash = tokenHash)

def markUsed (tokenId : Nat) (now : Int) : Tables :=
  { t with inviteTokens := t.inviteTokens.map fun i => if i.id = tokenId then { i with usedAt := some now } else i }

def invalidateSessions (userId : Nat) : Tables := { t with refreshTokens := t.refreshTokens.invalidateAllForUser userId }

def invalidateUserCodes (userId : Nat) : Tables :=
  { t with twoFactorCodes := t.twoFactorCodes.map fun c => if c.userId = userId then { c with used := true } else c }

/-- The row `r` of a deleted user. -/
def deletedRow (now : Int) (email passwordHash : String) (r : UserRow) : UserRow :=
  { r with
    email
    name := none
    passwordHash
    isActive := false
    role := "user"
    registrationCompletedAt := none
    failedLoginAttempts := 0
    preferredLocale := none
    preferredTheme := none
    securityVersion := r.securityVersion + 1
    deletedAt := some now }

/-- `UserRepository.delete`; `suffix` and `passwordHash` are random texts. -/
def delete (id : Nat) (now : Int) (suffix passwordHash : String) : Except UserError Tables :=
  match t.row? id with
  | none => throw (.valueError ("User not found: " ++ toString id))
  | some _ =>
    let email := "deleted-user-" ++ toString id ++ "-" ++ suffix ++ "@deleted.local"
    if t.users.any fun r => r.id ≠ id && r.email = email then throw .integrityError
    else
      let t := (((t.invalidateInviteTokens id now).invalidateUserCodes id).invalidateSessions id)
      let pending := t.pending2fa.map fun p => if p.userId = id ∧ p.expiresAt > now then { p with expiresAt := now } else p
      return { t with pending2fa := pending }.setRow id (deletedRow now email passwordHash)

def createCode (userId : Nat) (codeHash : String) (expiresAt : Int) : Tables :=
  { t with
    twoFactorCodes := t.twoFactorCodes ++ [{ id := t.nextTwoFactorCodeId, userId, codeHash, expiresAt, used := false }]
    nextTwoFactorCodeId := t.nextTwoFactorCodeId + 1 }

def authenticator? (userId : Nat) : Option AuthenticatorRow := t.userAuthenticators.find? (·.userId = userId)

def getEnabledSecret (userId : Nat) : Option String :=
  match t.authenticator? userId with
  | none => none
  | some row =>
    if row.isEnabled then some (String.ofList (Text.strip (row.secretBase32.getD "").toList)) |>.filter (· ≠ "") else none

def getPendingSecret (userId : Nat) (now : Int) : Option String :=
  match t.authenticator? userId with
  | none => none
  | some row => (row.pendingSecretBase32.filter (· ≠ "")).filter fun _ => row.pendingExpiresAt.any (now < ·)

def setAuthenticator (userId : Nat) (f : AuthenticatorRow → AuthenticatorRow) : Tables :=
  { t with userAuthenticators := t.userAuthenticators.map fun a => if a.userId = userId then f a else a }

def upsertPendingSecret (userId : Nat) (secret : String) (expiresAt : Int) : Tables :=
  match t.authenticator? userId with
  | none =>
    let row : AuthenticatorRow :=
      { userId, secretBase32 := none, isEnabled := false, pendingSecretBase32 := some secret, pendingExpiresAt := some expiresAt }
    { t with userAuthenticators := t.userAuthenticators ++ [row] }
  | some _ => t.setAuthenticator userId fun a => { a with pendingSecretBase32 := some secret, pendingExpiresAt := some expiresAt }

def enableSecret (userId : Nat) (secret : String) : Tables :=
  match t.authenticator? userId with
  | none => { t with userAuthenticators := t.userAuthenticators ++ [{ userId, secretBase32 := some secret, isEnabled := true }] }
  | some _ =>
    t.setAuthenticator userId fun _ => { userId, secretBase32 := some secret, isEnabled := true }

def disableAuthenticator (userId : Nat) : Tables :=
  t.setAuthenticator userId fun _ => { userId, secretBase32 := none, isEnabled := false }

end Tables

/-! ### One row -/

namespace Tables

/-- Ids are given once. -/
structure Keyed (t : Tables) : Prop where
  ids : (t.users.map (·.id)).Nodup
  below : ∀ r ∈ t.users, r.id < t.nextUserId

section
variable {t t' : Tables} {id j : Nat} {r : UserRow} {u : User} {f : UserRow → UserRow}

theorem row?_eq_some (h : t.row? id = some r) : r ∈ t.users ∧ r.id = id :=
  ⟨List.mem_of_find?_eq_some h, of_decide_eq_true (List.find?_some (p := fun r : UserRow => decide (r.id = id)) h)⟩

theorem Keyed.row? (h : Keyed t) (mem : r ∈ t.users) : t.row? r.id = some r := Lists.find?_of_mem h.ids mem

theorem getById_eq_some : t.getById id = some u ↔ ∃ r, t.row? id = some r ∧ r.live = true ∧ r.toUser = u := by
  simp only [getById, Option.map_eq_some_iff, Option.filter_eq_some_iff, and_assoc]

theorem row?_setRow (keeps : ∀ r, r.id = id → (f r).id = id) :
    (t.setRow id f).row? j = (t.row? j).map fun r => if r.id = id then f r else r :=
  Lists.find?_update keeps t.users

theorem row?_setRow_of_ne (keeps : ∀ r, r.id = id → (f r).id = id) (other : j ≠ id) : (t.setRow id f).row? j = t.row? j := by
  rw [row?_setRow keeps]
  cases found : t.row? j with
  | none => rfl
  | some r => rw [Option.map_some, if_neg ((row?_eq_some found).2 ▸ other)]

theorem row?_setRow_self (keeps : ∀ r, r.id = id → (f r).id = id) : (t.setRow id f).row? id = (t.row? id).map f := by
  rw [row?_setRow keeps]
  cases found : t.row? id with
  | none => rfl
  | some r => rw [Option.map_some, Option.map_some, if_pos (row?_eq_some found).2]

theorem Keyed.setRow (h : Keyed t) (keeps : ∀ r, (f r).id = r.id) : Keyed (t.setRow id f) where
  ids := by
    have same : (t.setRow id f).users.map (·.id) = t.users.map (·.id) := Lists.map_key_update (·.id) f keeps t.users
    exact same ▸ h.ids
  below := by
    intro r mem
    obtain ⟨r₀, old, rfl⟩ := List.mem_map.mp mem
    split
    · rw [keeps]
      exact h.below r₀ old
    · exact h.below r₀ old

@[simp] theorem written_id : (u.written r).id = r.id := rfl

/-- Some other row has the e-mail. -/
def emailTaken (t : Tables) (u : User) : Bool := t.users.any fun r => r.id ≠ u.id && r.email = u.email

theorem update_eq_ok : t.update u = .ok t' ↔ (∃ r, t.row? u.id = some r) ∧ t.emailTaken u = false ∧ t' = t.setRow u.id u.written := by
  unfold update
  cases t.row? u.id with
  | none => simp
  | some r =>
    have guard : (t.users.any fun r => r.id ≠ u.id && r.email = u.email) = t.emailTaken u := rfl
    simp only [guard, Fallible.guard_eq_ok, Fallible.pure_eq_ok, Bool.not_eq_true, Option.some.injEq, exists_eq', true_and]

def deletedEmail (id : Nat) (suffix : String) : String := "deleted-user-" ++ toString id ++ "-" ++ suffix ++ "@deleted.local"

/-- What a deletion writes of the users and of their invite tokens. -/
theorem delete_ok {now : Int} {suffix passwordHash : String} (done : t.delete id now suffix passwordHash = .ok t') :
    (∃ r, t.row? id = some r) ∧ t'.users = (t.setRow id (deletedRow now (deletedEmail id suffix) passwordHash)).users ∧
    t'.nextUserId = t.nextUserId ∧ t'.inviteTokens = (t.invalidateInviteTokens id now).inviteTokens ∧
    t'.nextInviteTokenId = t.nextInviteTokenId := by
  unfold delete at done
  cases found : t.row? id with
  | none =>
    rw [found] at done
    cases done
  | some r =>
    simp only [found, Fallible.guard_eq_ok, Fallible.pure_eq_ok] at done
    obtain ⟨-, rfl⟩ := done
    exact ⟨⟨r, rfl⟩, rfl, rfl, rfl, rfl⟩

end

end Tables

end NyzRating.Users
