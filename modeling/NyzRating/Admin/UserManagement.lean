import NyzRating.Admin.PlatformAdminService

/-!
# The other operations of the platform admins

`PlatformAdminService` without the tenants: the accounts, their links, the setup of the second factor, and what a token
stands for. One operation at a time.
-/

namespace NyzRating.Admin

open Auth (verifyAuthenticatorCode)
open Auth.Refresh (SessionRow)
open Process Program

/-! ### The repository's calls -/

def updateUserWithEmail (userId : Nat) (email : String) (change : UserUpdate) : AdminM (Option PlatformAdminUser) :=
  Process.attempt (.updateUserWithEmail userId email change) fun w =>
    if w.tables.refusesEmail userId email then .error .databaseError
    else .ok ((w.tables.getById userId).map fun u => { change.apply u with email })

def insertUser (row : PlatformAdminUser) : AdminM Nat :=
  Process.attempt (.createUser row) fun w =>
    if w.tables.refusesEmail w.tables.nextUserId row.email then .error .databaseError else .ok w.tables.nextUserId

/-- Whether there is such a user. -/
def removeUser (userId : Nat) (now : Int) : AdminM Bool :=
  ask (.deleteUser userId now) fun w => (w.tables.getById userId).isSome

def createInviteToken (userId : Nat) (tokenHash : String) (expiresAt now : Int) : AdminM Unit :=
  ask (.createInviteToken userId tokenHash expiresAt now) fun _ => ()

/-- The answer of a call that changes the row of a user. -/
def changed (call : AdminCall) (userId : Nat) : AdminM Bool := ask call fun w => (w.tables.getById userId).isSome

/-! ### Accounts -/

def userNotFound : AdminError := .valueError "user_not_found"

/-- What `new_invite_token_payload` draws. -/
structure InvitePayload where
  rawToken : String
  expiresAt : Int
  deriving DecidableEq, Repr

/-- What becomes of the e-mail with a link. -/
inductive Delivery where
  | sent
  | failed
  /-- There is no e-mail service, or no address of the site. -/
  | skipped
  deriving DecidableEq, Repr

/-- What an operation is given from outside. -/
structure Moment where
  now : Int
  payload : InvitePayload
  delivery : Delivery := .sent
  deriving DecidableEq, Repr

/-- What comes after the last `@`. -/
def domainOf (email : List Char) : List Char := (email.reverse.takeWhile (· ≠ '@')).reverse

/-- `ensure_valid_email` -/
def AdminEnv.ensureValidEmail (env : AdminEnv) (email : String) : Option String :=
  let normalized := env.normalizeEmail email
  if normalized = "" ∨ '@' ∉ normalized.toList ∨ '.' ∉ domainOf normalized.toList then none else some normalized

def sendSetPasswordEmail (env : AdminEnv) (userId : Nat) (m : Moment) : AdminM Unit := do
  let found ← getById userId
  match found.filter (·.deletedAt.isNone) with
  | none => .raise userNotFound
  | some user => do
    createInviteToken user.id (env.auth.sha256Hex m.payload.rawToken) m.payload.expiresAt m.now
    if m.delivery = .failed then .raise .mailError else return ()

/-- The password is one that nobody knows. -/
def createAccount (env : AdminEnv) (email : String) (unknown : String) (m : Moment) : AdminM Unit :=
  match env.ensureValidEmail email with
  | none => .raise (.valueError "invalid_email")
  | some normalized => do
    let found ← getByEmail normalized
    if found.isSome then .raise (.valueError "email_already_exists")
    else do
      let userId ← insertUser { id := 0, email := normalized, passwordHash := env.hashPassword unknown, isActive := false }
      sendSetPasswordEmail env userId m

def bootstrapFirstAdmin (env : AdminEnv) (bootstrapEmail password : String) (now : Int) : AdminM Unit :=
  let email := env.normalizeEmail bootstrapEmail
  if email = "" ∨ password = "" then return ()
  else do
    let found ← getByEmail email
    if found.isSome then return ()
    else
      match env.passwordRefusal password with
      | some message => .raise (.valueError ("Invalid platform admin bootstrap password: " ++ message))
      | none => do
        let _ ← insertUser { id := 0, email, passwordHash := env.hashPassword password, registrationCompletedAt := some now }
        return ()

/-- The address of another user. -/
def taken (userId : Nat) (email : String) : AdminM Bool := do
  let other ← getByEmail email
  return other.any (·.id ≠ userId)

def updateAccount (env : AdminEnv) (userId : Nat) (email : Option String) (isActive : Option Bool) : AdminM Unit := do
  let found ← getById userId
  match found.filter (·.deletedAt.isNone) with
  | none => .raise userNotFound
  | some existing =>
    let change : UserUpdate := { isActive, bumpSecurityVersion := isActive = some false }
    match email.filter (· ≠ "") with
    | none => do
      let updated ← updateUser userId change
      if updated.isNone then .raise userNotFound else return ()
    | some email =>
      match env.ensureValidEmail email with
      | none => .raise (.valueError "invalid_email")
      | some normalized => do
        let other ← if normalized ≠ env.normalizeEmail existing.email then taken userId normalized else pure false
        if other then .raise (.valueError "email_already_exists")
        else do
          let updated ← updateUserWithEmail userId (Text.stripLower normalized) change
          if updated.isNone then .raise userNotFound else return ()

def deleteAccount (userId currentUserId : Nat) (now : Int) : AdminM Unit :=
  if userId = currentUserId then .raise (.valueError "cannot_delete_self")
  else do
    let deleted ← removeUser userId now
    if deleted then invalidateAllRefreshSessionsForUser userId else .raise userNotFound

def changePassword (env : AdminEnv) (userId : Nat) (currentPassword newPassword : String) : AdminM Unit := do
  let found ← getById userId
  match found.filter fun user => env.verifyPassword currentPassword user.passwordHash with
  | none => .raise (.valueError "invalid_current_password")
  | some _ =>
    match env.passwordRefusal newPassword with
    | some message => .raise (.valueError message)
    | none => do
      let _ ← updateUser userId { passwordHash := some (env.hashPassword newPassword), bumpSecurityVersion := true }
      invalidateAllRefreshSessionsForUser userId

/-! ### Tokens -/

def logout (env : AdminEnv) (refreshToken : String) : AdminM Unit :=
  match (env.decode refreshToken).filter fun payload => refreshToken ≠ "" && payload.typ = "platform_admin_refresh" with
  | none => return ()
  | some payload => do
    let found ← getRefreshSessionByJti payload.jti
    match found.filter fun session => session.tokenHash = env.hashToken refreshToken with
    | none => return ()
    | some session => updateRefreshSession session.invalidate

def resolveToken (env : AdminEnv) (token : String) (now : Int) : AdminM (Option PlatformAdminUser) :=
  match env.verify token now with
  | none => return none
  | some payload =>
    if payload.typ ≠ "platform_admin_access" then return none
    else
      match payload.sub with
      | none => return none
      | some userId => do
        let found ← getById userId
        return found.filter (·.current payload.userVer)

/-! ### The setup of the second factor -/

def startMfaSetup (userId : Nat) (secret : String) (now : Int) : AdminM Unit := do
  let found ← getById userId
  if found.isNone then .raise userNotFound
  else do
    let updated ← changed (.upsertPendingMfaSecret userId secret (now + Auth.minutes 10)) userId
    if updated then return () else .raise userNotFound

/-- The secret that waits for its first code. -/
def PlatformAdminUser.pendingSecret (user : PlatformAdminUser) (now : Int) : Option String :=
  if user.mfaPendingExpiresAt.any (now < ·) then
    some (String.ofList (Text.strip (user.mfaPendingSecretBase32.getD "").toList)) |>.filter (· ≠ "")
  else none

def confirmMfaSetup (env : AdminEnv) (userId : Nat) (code : String) (recoveryCodes : List String) (now timestamp : Int) :
    AdminM Unit := do
  let found ← getById userId
  match found with
  | none => .raise userNotFound
  | some user =>
    match user.pendingSecret now with
    | none => .raise (.valueError "mfa_setup_not_started")
    | some secret =>
      match verifyAuthenticatorCode env.auth secret code timestamp with
      | none => .raise .badSecret
      | some false => .raise (.valueError "invalid_mfa_code")
      | some true => do
        let updated ← changed (.enableMfa userId secret (recoveryCodes.map env.recoveryHash)) userId
        if updated then invalidateAllRefreshSessionsForUser userId else .raise userNotFound

def disableMfa (env : AdminEnv) (userId : Nat) (password : String) : AdminM Unit := do
  let found ← getById userId
  match found with
  | none => .raise userNotFound
  | some user =>
    if env.verifyPassword password user.passwordHash = false then .raise (.valueError "invalid_password")
    else do
      let updated ← changed (.disableMfa userId) userId
      if updated then invalidateAllRefreshSessionsForUser userId else .raise userNotFound

end NyzRating.Admin
