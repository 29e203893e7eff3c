import NyzRating.Auth.RefreshService
import NyzRating.Lib.Process

/-!
# The tables of the platform admins

`PlatformAdminRepository`, as far as logins, tokens and passwords go. Each of its calls is a transaction of its own. The
one that consumes a recovery code reads the codes, and then writes all of them.
-/

namespace NyzRating.Admin

open Auth (minutes)
open Auth.Refresh (SessionRow)

/-! ### Tables -/

/-- A row of `platform_admin_users`. -/
structure PlatformAdminUser where
  id : Nat
  email : String
  passwordHash : String
  isActive : Bool := true
  role : String := "admin"
  deletedAt : Option Int := none
  registrationCompletedAt : Option Int := none
  failedLoginAttempts : Nat := 0
  securityVersion : Int := 0
  mfaEnabled : Bool := false
  mfaSecretBase32 : Option String := none
  mfaPendingSecretBase32 : Option String := none
  mfaPendingExpiresAt : Option Int := none
  mfaRecoveryCodesHashes : List String := []
  deriving DecidableEq, Repr

structure InviteToken where
  id : Nat
  userId : Nat
  tokenHash : String
  expiresAt : Int
  usedAt : Option Int := none
  deriving DecidableEq, Repr

inductive MfaKind where
  | totp
  | recovery
  deriving DecidableEq, Repr

inductive MfaSubject where
  | user
  | ip
  deriving DecidableEq, Repr

/-- `platform_admin_mfa_{kind}_{subject}` -/
structure MfaScope where
  kind : MfaKind
  subject : MfaSubject
  deriving DecidableEq, Repr

/-- A row of `platform_admin_mfa_attempts`. -/
structure MfaAttempt where
  scope : MfaScope
  scopeKey : String
  attempts : Nat
  windowStartedAt : Int
  blockedUntil : Option Int
  deriving DecidableEq, Repr

def MfaAttempt.key (r : MfaAttempt) : MfaScope × String := (r.scope, r.scopeKey)

structure AdminTables where
  users : List PlatformAdminUser
  nextUserId : Nat := 1
  inviteTokens : List InviteToken := []
  nextInviteId : Nat := 1
  refreshTokens : List SessionRow := []
  nextSessionId : Nat := 1
  mfaAttempts : List MfaAttempt := []
  deriving DecidableEq, Repr

/-- A code that was compared with those of a user's secret. -/
structure Evaluation where
  userId : Nat
  now : Int
  matched : Bool
  deriving DecidableEq, Repr

/-- The tables, and what they do not keep. -/
structure World where
  tables : AdminTables
  evaluations : List Evaluation := []
  /-- The counters that were locked, and until when. -/
  locks : List ((MfaScope × String) × Int) := []
  /-- The counters that began a window. -/
  windows : List (MfaScope × String) := []
  deriving DecidableEq, Repr

/-! ### Reads -/

namespace AdminTables

variable (t : AdminTables)

def getById (userId : Nat) : Option PlatformAdminUser := t.users.find? (·.id = userId)

def getByEmail (email : String) : Option PlatformAdminUser :=
  let normalized := Text.lower (Text.strip email.toList)
  t.users.find? fun u => Text.lower u.email.toList = normalized

def getInviteToken (tokenHash : String) : Option InviteToken := t.inviteTokens.find? (·.tokenHash = tokenHash)

def getRefreshSessionByJti (jti : String) : Option SessionRow := t.refreshTokens.find? (·.jti = jti)

def attempt? (key : MfaScope × String) : Option MfaAttempt := t.mfaAttempts.find? (·.key = key)

/-- The scope's key as the table has it. -/
def normalizedKey (scopeKey : String) : String := String.ofList (Text.strip scopeKey.toList)

def isMfaScopeBlocked (now : Int) (scope : MfaScope) (scopeKey : String) : Bool :=
  normalizedKey scopeKey ≠ "" && (t.attempt? (scope, normalizedKey scopeKey)).any (·.blockedUntil.any (· > now))

/-- The codes of the column that are not blank. -/
def recoveryCodes (u : PlatformAdminUser) : List String := u.mfaRecoveryCodesHashes.filter (Text.strip ·.toList ≠ [])

end AdminTables

/-! ### Writes -/

structure UserUpdate where
  isActive : Option Bool := none
  passwordHash : Option String := none
  registrationCompletedAt : Option Int := none
  failedLoginAttempts : Option Nat := none
  bumpSecurityVersion : Bool := false
  deriving DecidableEq, Repr

def UserUpdate.apply (c : UserUpdate) (row : PlatformAdminUser) : PlatformAdminUser :=
  { row with
    isActive := c.isActive.getD row.isActive
    passwordHash := c.passwordHash.getD row.passwordHash
    registrationCompletedAt := c.registrationCompletedAt.or row.registrationCompletedAt
    failedLoginAttempts := c.failedLoginAttempts.getD row.failedLoginAttempts
    securityVersion := if c.bumpSecurityVersion then row.securityVersion + 1 else row.securityVersion }

/-- The row after its secret was confirmed. -/
def PlatformAdminUser.withMfa (row : PlatformAdminUser) (secret : String) (hashes : List String) : PlatformAdminUser :=
  { row with
    mfaEnabled := true, mfaSecretBase32 := some secret, mfaPendingSecretBase32 := none, mfaPendingExpiresAt := none
    mfaRecoveryCodesHashes := hashes, securityVersion := row.securityVersion + 1 }

def PlatformAdminUser.withoutMfa (row : PlatformAdminUser) : PlatformAdminUser :=
  { row with
    mfaEnabled := false, mfaSecretBase32 := none, mfaPendingSecretBase32 := none, mfaPendingExpiresAt := none
    mfaRecoveryCodesHashes := [], securityVersion := row.securityVersion + 1 }

/-- The limits of a counter. -/
structure AttemptLimits where
  maxAttempts : Int
  windowMinutes : Int
  lockMinutes : Int
  deriving DecidableEq, Repr

namespace MfaAttempt

/-- `max(1, int(value or 1))` -/
def safe (value : Int) : Int := max 1 (if value = 0 then 1 else value)

def first (key : MfaScope × String) (now : Int) : MfaAttempt :=
  { scope := key.1, scopeKey := key.2, attempts := 0, windowStartedAt := now, blockedUntil := none }

def blocked (r : MfaAttempt) (now : Int) : Bool := r.blockedUntil.any (· > now)

/-- The counter's window has ended. -/
def «over» (r : MfaAttempt) (limits : AttemptLimits) (now : Int) : Bool :=
  now ≥ r.windowStartedAt + minutes (safe limits.windowMinutes)

/-- The row with one more attempt. -/
def counted (r : MfaAttempt) (limits : AttemptLimits) (now : Int) : MfaAttempt :=
  if r.over limits now then { r with attempts := 1, windowStartedAt := now } else { r with attempts := r.attempts + 1 }

def failed (r : MfaAttempt) (limits : AttemptLimits) (now : Int) : MfaAttempt :=
  if r.blocked now then r
  else
    let r := r.counted limits now
    { r with blockedUntil :=
        if (r.attempts : Int) ≥ safe limits.maxAttempts then some (now + minutes (safe limits.lockMinutes)) else none }

def reset (r : MfaAttempt) (now : Int) : MfaAttempt := { r with attempts := 0, windowStartedAt := now, blockedUntil := none }

end MfaAttempt

namespace AdminTables

variable (t : AdminTables)

def updateUser (userId : Nat) (change : UserUpdate) : AdminTables :=
  { t with users := t.users.map fun u => if u.id = userId then change.apply u else u }

/-- The exact address is one of another row. -/
def refusesEmail (userId : Nat) (email : String) : Bool := t.users.any fun u => u.id ≠ userId && u.email = email

def updateUserWithEmail (userId : Nat) (email : String) (change : UserUpdate) : AdminTables :=
  if t.refusesEmail userId email then t
  else { t with users := t.users.map fun u => if u.id = userId then { change.apply u with email } else u }

/-- The row gets its id from the table. -/
def createUser (row : PlatformAdminUser) : AdminTables :=
  if t.refusesEmail t.nextUserId row.email then t
  else { t with users := t.users ++ [{ row with id := t.nextUserId }], nextUserId := t.nextUserId + 1 }

def deleteUser (userId : Nat) (now : Int) : AdminTables :=
  { t with users := t.users.map fun u =>
      if u.id = userId then { u with isActive := false, deletedAt := some now, securityVersion := u.securityVersion + 1 } else u }

def upsertPendingMfaSecret (userId : Nat) (secret : String) (expiresAt : Int) : AdminTables :=
  { t with users := t.users.map fun u =>
      if u.id = userId then { u with mfaPendingSecretBase32 := some secret, mfaPendingExpiresAt := some expiresAt } else u }

def enableMfa (userId : Nat) (secret : String) (hashes : List String) : AdminTables :=
  { t with users := t.users.map fun u => if u.id = userId then u.withMfa secret (hashes.filter (Text.strip ·.toList ≠ [])) else u }

def disableMfa (userId : Nat) : AdminTables :=
  { t with users := t.users.map fun u => if u.id = userId then u.withoutMfa else u }

/-- The links that the user has not used yet count as used. -/
def createInviteToken (userId : Nat) (tokenHash : String) (expiresAt now : Int) : AdminTables :=
  { t with
    inviteTokens := (t.inviteTokens.map fun r => if r.userId = userId ∧ r.usedAt = none then { r with usedAt := some now } else r) ++
      [{ id := t.nextInviteId, userId, tokenHash, expiresAt }]
    nextInviteId := t.nextInviteId + 1 }

def setRecoveryCodes (userId : Nat) (hashes : List String) : AdminTables :=
  { t with users := t.users.map fun u => if u.id = userId then { u with mfaRecoveryCodesHashes := hashes } else u }

def markInviteUsed (tokenId : Nat) (now : Int) : AdminTables :=
  { t with inviteTokens := t.inviteTokens.map fun r => if r.id = tokenId then { r with usedAt := some now } else r }

/-- A text is too long for its column, or the `jti` is taken. -/
def refusesSession (s : SessionRow) : Bool := !s.fits || t.refreshTokens.any (·.jti = s.jti)

def createRefreshSession (s : SessionRow) : AdminTables :=
  if t.refusesSession s then t
  else { t with refreshTokens := t.refreshTokens ++ [{ s with id := t.nextSessionId }], nextSessionId := t.nextSessionId + 1 }

def updateRefreshSession (s : SessionRow) : AdminTables := { t with refreshTokens := t.refreshTokens.map s.written }

def invalidateAllRefreshSessionsForUser (userId : Nat) : AdminTables :=
  { t with refreshTokens := t.refreshTokens.map fun r => if r.userId = userId then { r with valid := false } else r }

/-- The row of a counter after one more failed attempt. -/
def attempted (key : MfaScope × String) (limits : AttemptLimits) (now : Int) : MfaAttempt :=
  ((t.attempt? key).getD (.first key now)).failed limits now

def recordFailedAttempt (key : MfaScope × String) (limits : AttemptLimits) (now : Int) : AdminTables :=
  match t.attempt? key with
  | some _ => { t with mfaAttempts := t.mfaAttempts.map fun r => if r.key = key then r.failed limits now else r }
  | none => { t with mfaAttempts := t.mfaAttempts ++ [(MfaAttempt.first key now).failed limits now] }

def resetAttempts (keys : List (MfaScope × String)) (now : Int) : AdminTables :=
  { t with mfaAttempts := t.mfaAttempts.map fun r => if r.key ∈ keys then r.reset now else r }

end AdminTables

/-! ### Calls -/

inductive AdminCall where
  /-- A transaction that only reads. -/
  | read
  | updateUser (userId : Nat) (change : UserUpdate)
  /-- The `UPDATE` of `consume_mfa_recovery_code`, with the codes that its `SELECT` has found. -/
  | consumeMfaRecoveryCode (userId : Nat) (loaded : List String) (codeHash : String)
  | recordFailedAttempt (key : MfaScope × String) (limits : AttemptLimits) (now : Int)
  | resetAttempts (keys : List (MfaScope × String)) (now : Int)
  | createRefreshSession (s : SessionRow)
  | updateRefreshSession (s : SessionRow)
  | invalidateAllRefreshSessionsForUser (userId : Nat)
  | markInviteUsed (tokenId : Nat) (now : Int)
  | updateUserWithEmail (userId : Nat) (email : String) (change : UserUpdate)
  | createUser (row : PlatformAdminUser)
  | deleteUser (userId : Nat) (now : Int)
  | upsertPendingMfaSecret (userId : Nat) (secret : String) (expiresAt : Int)
  | enableMfa (userId : Nat) (secret : String) (hashes : List String)
  | disableMfa (userId : Nat)
  | createInviteToken (userId : Nat) (tokenHash : String) (expiresAt now : Int)
  /-- A code is compared with those of the user's secret. No table knows of it. -/
  | evaluate (evaluation : Evaluation)
  deriving DecidableEq, Repr

namespace AdminCall

def table : AdminCall → AdminTables → AdminTables
  | .read, t => t
  | .updateUser userId change, t => t.updateUser userId change
  | .consumeMfaRecoveryCode userId loaded codeHash, t => t.setRecoveryCodes userId (loaded.filter (· ≠ codeHash))
  | .recordFailedAttempt key limits now, t => t.recordFailedAttempt key limits now
  | .resetAttempts keys now, t => t.resetAttempts keys now
  | .createRefreshSession s, t => t.createRefreshSession s
  | .updateRefreshSession s, t => t.updateRefreshSession s
  | .invalidateAllRefreshSessionsForUser userId, t => t.invalidateAllRefreshSessionsForUser userId
  | .markInviteUsed tokenId now, t => t.markInviteUsed tokenId now
  | .updateUserWithEmail userId email change, t => t.updateUserWithEmail userId email change
  | .createUser row, t => t.createUser row
  | .deleteUser userId now, t => t.deleteUser userId now
  | .upsertPendingMfaSecret userId secret expiresAt, t => t.upsertPendingMfaSecret userId secret expiresAt
  | .enableMfa userId secret hashes, t => t.enableMfa userId secret hashes
  | .disableMfa userId, t => t.disableMfa userId
  | .createInviteToken userId tokenHash expiresAt now, t => t.createInviteToken userId tokenHash expiresAt now
  | .evaluate _, t => t

/-- The attempt begins a window of its counter: the first one, or a later one after it. -/
def opens (t : AdminTables) (key : MfaScope × String) (limits : AttemptLimits) (now : Int) : Bool :=
  match t.attempt? key with
  | none => true
  | some row => !row.blocked now && row.over limits now

def apply (c : AdminCall) (w : World) : World :=
  { tables := c.table w.tables
    evaluations :=
      match c with
      | .evaluate e => w.evaluations ++ [e]
      | _ => w.evaluations
    locks :=
      match c with
      | .recordFailedAttempt key limits now =>
        w.locks ++ ((w.tables.attempted key limits now).blockedUntil.map (key, ·)).toList
      | _ => w.locks
    windows :=
      match c with
      | .recordFailedAttempt key limits now => if opens w.tables key limits now then w.windows ++ [key] else w.windows
      | .resetAttempts keys _ => w.windows ++ keys.filter fun key => (w.tables.attempt? key).isSome
      | _ => w.windows }

end AdminCall

end NyzRating.Admin
