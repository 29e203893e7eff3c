import NyzRating.Admin.Repository

/-!
# Logins of platform admins

`PlatformAdminService.login`, `refresh` and `set_password`. Between two calls of the repository, other requests may make
theirs.
-/

namespace NyzRating.Admin

open Auth (AuthEnv minutes verifyAuthenticatorCode)
open Auth.Refresh (SessionRow Client)
open Process

/-! ### Settings and libraries -/

/-- The claims of a token that are read or written; `exp` is in seconds. -/
structure Claims where
  /-- Nothing, where it is no number. -/
  sub : Option Nat
  typ : String
  jti : String
  userVer : Int
  role : Option String := none
  exp : Int
  deriving DecidableEq, Repr

/-- The settings, and what the libraries compute. -/
structure AdminEnv where
  maxFailedLoginAttempts : Int
  mfaAttemptWindowMinutes : Int
  mfaLockMinutes : Int
  mfaTotpMaxAttemptsPerUser : Int
  mfaTotpMaxAttemptsPerIp : Int
  mfaRecoveryMaxAttemptsPerUser : Int
  mfaRecoveryMaxAttemptsPerIp : Int
  auth : AuthEnv
  /-- `str.isalnum` of one character. -/
  isAlnum : Char → Bool
  /-- `str.upper` of one character. -/
  upper : Char → List Char
  /-- The address that `parseaddr` finds. -/
  parseaddr : String → String
  /-- `pwd_hasher.verify` of a password and a hash. -/
  verifyPassword : String → String → Bool
  hashPassword : String → String
  /-- The message of `validate_password_strength`. -/
  passwordRefusal : String → Option String
  /-- The claims of a text with the right signature, issuer and audience. -/
  decode : String → Option Claims
  encode : Claims → String
  hashToken : String → String
  accessExp : Int
  refreshExp : Int

inductive AdminError where
  | valueError (message : String)
  /-- `binascii.Error` -/
  | badSecret
  /-- A text is too long for its column, or a row with this `jti` exists. -/
  | databaseError
  /-- An e-mail could not be sent. -/
  | mailError
  deriving DecidableEq, Repr

abbrev AdminM := Process AdminCall World AdminError

structure AdminLogin where
  accessToken : String
  refreshToken : String
  accessJti : String
  userId : Nat
  deriving DecidableEq, Repr

/-! ### The repository's calls -/

def getByEmail (email : String) : AdminM (Option PlatformAdminUser) := ask .read (·.tables.getByEmail email)

def getById (userId : Nat) : AdminM (Option PlatformAdminUser) := ask .read (·.tables.getById userId)

def updateUser (userId : Nat) (change : UserUpdate) : AdminM (Option PlatformAdminUser) :=
  ask (.updateUser userId change) fun w => (w.tables.getById userId).map change.apply

/-- `consume_mfa_recovery_code`: what the `SELECT` finds is what the `UPDATE` writes back, without the code. -/
def consumeMfaRecoveryCode (userId : Nat) (codeHash : String) : AdminM Bool := do
  let row ← getById userId
  match row with
  | none => return false
  | some row =>
    if codeHash ∈ AdminTables.recoveryCodes row then
      ask (.consumeMfaRecoveryCode userId (AdminTables.recoveryCodes row) codeHash) fun _ => true
    else return false

def isMfaScopeBlocked (now : Int) (pair : MfaScope × String) : AdminM Bool :=
  ask .read (·.tables.isMfaScopeBlocked now pair.1 pair.2)

def recordMfaFailedAttempt (now : Int) (limits : AttemptLimits) (pair : MfaScope × String) : AdminM Bool :=
  let key := (pair.1, AdminTables.normalizedKey pair.2)
  if key.2 = "" then return false
  else ask (.recordFailedAttempt key limits now) fun w => (w.tables.attempted key limits now).blockedUntil.isSome

def resetMfaAttempts (now : Int) (pairs : List (MfaScope × String)) : AdminM Unit :=
  let keys := (pairs.map fun pair => (pair.1, AdminTables.normalizedKey pair.2)).filter (·.2 ≠ "")
  if keys = [] then return () else ask (.resetAttempts keys now) fun _ => ()

def getRefreshSessionByJti (jti : String) : AdminM (Option SessionRow) := ask .read (·.tables.getRefreshSessionByJti jti)

def createRefreshSession (s : SessionRow) : AdminM Unit :=
  Process.attempt (.createRefreshSession s) fun w => if w.tables.refusesSession s then .error .databaseError else .ok ()

def updateRefreshSession (s : SessionRow) : AdminM Unit := ask (.updateRefreshSession s) fun _ => ()

def invalidateAllRefreshSessionsForUser (userId : Nat) : AdminM Unit :=
  ask (.invalidateAllRefreshSessionsForUser userId) fun _ => ()

def getInviteToken (tokenHash : String) : AdminM (Option InviteToken) := ask .read (·.tables.getInviteToken tokenHash)

def markInviteUsed (tokenId : Nat) (now : Int) : AdminM Unit := ask (.markInviteUsed tokenId now) fun _ => ()

/-! ### Tokens -/

namespace AdminEnv

variable (env : AdminEnv)

def verify (token : String) (now : Int) : Option Claims := (env.decode token).filter fun claims => now < claims.exp * 1000000

def makePlatformAdminAccess (user : PlatformAdminUser) (jti : String) (now : Int) : String :=
  env.encode {
    sub := some user.id, typ := "platform_admin_access", jti, userVer := user.securityVersion
    role := some (if user.role = "" then "admin" else user.role), exp := (now + minutes env.accessExp) / 1000000 }

def makePlatformAdminRefresh (user : PlatformAdminUser) (jti : String) (now : Int) : String :=
  env.encode {
    sub := some user.id, typ := "platform_admin_refresh", jti, userVer := user.securityVersion
    exp := (now + minutes env.refreshExp) / 1000000 }

end AdminEnv

/-- The identifiers that a call draws for its tokens. -/
structure FreshIds where
  jti : String
  accessJti : String
  deriving DecidableEq, Repr

def issueAccessAndRefresh (env : AdminEnv) (user : PlatformAdminUser) (client : Client) (ids : FreshIds) (now : Int) :
    AdminM AdminLogin := do
  let refreshToken := env.makePlatformAdminRefresh user ids.jti now
  createRefreshSession (.new user.id ids.jti (env.hashToken refreshToken) (now + minutes env.refreshExp) client)
  return {
    accessToken := env.makePlatformAdminAccess user ids.accessJti now
    refreshToken
    accessJti := ids.accessJti
    userId := user.id }

/-! ### The second factor -/

structure AdminLoginInput where
  email : String
  password : String
  client : Client := {}
  mfaCode : Option String := none
  /-- The clock of the service and of the repository. -/
  now : Int
  /-- The system clock, in seconds. -/
  timestamp : Int
  ids : FreshIds

namespace AdminEnv

variable (env : AdminEnv)

def normalizeEmail (email : String) : String :=
  Text.stripLower (env.parseaddr (String.ofList (Text.strip email.toList)))

def normalizeMfaCode (value : Option String) : String :=
  String.ofList (((value.getD "").toList.filter env.isAlnum).flatMap env.upper)

def mfaAttemptKindFromCode (code : Option String) : MfaKind :=
  if (env.normalizeMfaCode code).length ≥ 8 then .recovery else .totp

def recoveryHash (code : String) : String :=
  env.auth.sha256Hex (String.ofList ((Text.strip code.toList).flatMap env.upper))

/-- `max(1, int(value or default))` -/
def policy (value default : Int) : Int := max 1 (if value = 0 then default else value)

def mfaLimits (scope : MfaScope) : AttemptLimits :=
  { maxAttempts :=
      match scope.kind, scope.subject with
      | .totp, .user => policy env.mfaTotpMaxAttemptsPerUser 5
      | .totp, .ip => policy env.mfaTotpMaxAttemptsPerIp 10
      | .recovery, .user => policy env.mfaRecoveryMaxAttemptsPerUser 3
      | .recovery, .ip => policy env.mfaRecoveryMaxAttemptsPerIp 6
    windowMinutes := policy env.mfaAttemptWindowMinutes 15
    lockMinutes := policy env.mfaLockMinutes 30 }

end AdminEnv

def PlatformAdminUser.mfaSecret (u : PlatformAdminUser) : String :=
  String.ofList (Text.strip (u.mfaSecretBase32.getD "").toList)

def PlatformAdminUser.isMfaEnabled (u : PlatformAdminUser) : Bool := u.mfaEnabled && u.mfaSecretBase32.getD "" ≠ ""

def normalizedIp (ip : Option String) : String :=
  let value := (Text.strip ((ip.filter (· ≠ "")).getD "unknown").toList).take 64
  if value = [] then "unknown" else String.ofList value

def mfaAttemptScopePairs (userId : Nat) (ip : Option String) (kind : MfaKind) : List (MfaScope × String) :=
  [({ kind, subject := .user }, toString userId), ({ kind, subject := .ip }, normalizedIp ip)]

def ensureNotBlocked (now : Int) : List (MfaScope × String) → AdminM Unit
  | [] => return ()
  | pair :: pairs => do
    let blocked ← isMfaScopeBlocked now pair
    if blocked then .raise (.valueError "platform_admin_mfa_locked") else ensureNotBlocked now pairs

/-- Whether one of the counters is locked now. -/
def recordFailedAttempts (env : AdminEnv) (now : Int) : List (MfaScope × String) → AdminM Bool
  | [] => return false
  | pair :: pairs => do
    let blocked ← recordMfaFailedAttempt now (env.mfaLimits pair.1) pair
    let rest ← recordFailedAttempts env now pairs
    return blocked || rest

def resetPairs (userId : Nat) (ip : Option String) : List (MfaScope × String) :=
  mfaAttemptScopePairs userId ip .totp ++ mfaAttemptScopePairs userId ip .recovery

/-- `verify_authenticator_code` compares six digits with the codes of the secret, and refuses anything else. -/
def evaluates (env : AdminEnv) (code : String) : Bool := (code.toList.filter env.auth.isDigit).length = 6

def verifyTotp (env : AdminEnv) (user : PlatformAdminUser) (code : String) (now timestamp : Int) : AdminM Bool :=
  if user.mfaSecret = "" then return false
  else
    match verifyAuthenticatorCode env.auth user.mfaSecret code timestamp with
    | none => .raise .badSecret
    | some matched =>
      if evaluates env code then ask (.evaluate { userId := user.id, now, matched }) fun _ => matched else return matched

/-- `_verify_platform_admin_mfa` -/
def verifyPlatformAdminMfa (env : AdminEnv) (user : PlatformAdminUser) (code : Option String) (now timestamp : Int) :
    AdminM Bool :=
  let normalized := env.normalizeMfaCode code
  if normalized = "" then return false
  else do
    let matched ← verifyTotp env user normalized now timestamp
    if matched then return true
    else if normalized.length ≥ 8 then consumeMfaRecoveryCode user.id (env.recoveryHash normalized)
    else return false

/-- The part of `login` between the password and the tokens. -/
def secondFactor (env : AdminEnv) (user : PlatformAdminUser) (inp : AdminLoginInput) : AdminM Unit :=
  if user.isMfaEnabled = false then return ()
  else if env.normalizeMfaCode inp.mfaCode = "" then .raise (.valueError "platform_admin_mfa_required")
  else do
    let pairs := mfaAttemptScopePairs user.id inp.client.ip (env.mfaAttemptKindFromCode inp.mfaCode)
    ensureNotBlocked inp.now pairs
    let verified ← verifyPlatformAdminMfa env user inp.mfaCode inp.now inp.timestamp
    if verified then resetMfaAttempts inp.now (resetPairs user.id inp.client.ip)
    else do
      let blockedNow ← recordFailedAttempts env inp.now pairs
      if blockedNow then do
        invalidateAllRefreshSessionsForUser user.id
        .raise (.valueError "platform_admin_mfa_locked")
      else .raise (.valueError "platform_admin_mfa_invalid")

/-! ### The service -/

/-- What a wrong password costs; the last one locks the account. -/
def AdminEnv.wrongPassword (env : AdminEnv) (user : PlatformAdminUser) : UserUpdate :=
  let failures := user.failedLoginAttempts + 1
  let shouldLock : Bool := (failures : Int) ≥ max 1 env.maxFailedLoginAttempts
  { failedLoginAttempts := some failures
    isActive := if shouldLock then some false else none
    bumpSecurityVersion := shouldLock }

def login (env : AdminEnv) (inp : AdminLoginInput) : AdminM (Option AdminLogin) := do
  let found ← getByEmail (env.normalizeEmail inp.email)
  match found with
  | none => return none
  | some user =>
    if user.isActive = false ∨ user.deletedAt.isSome then return none
    else if env.verifyPassword inp.password user.passwordHash = false then do
      let _ ← updateUser user.id (env.wrongPassword user)
      return none
    else do
      secondFactor env user inp
      let updated ← updateUser user.id { failedLoginAttempts := some 0 }
      let tokens ← issueAccessAndRefresh env (updated.getD user) inp.client inp.ids inp.now
      return some tokens

structure AdminRefreshInput where
  token : String
  client : Client := {}
  now : Int
  ids : FreshIds

/-- Whether the user may go on with tokens of this version. -/
def PlatformAdminUser.current (user : PlatformAdminUser) (userVer : Int) : Bool :=
  user.isActive && user.deletedAt.isNone && user.securityVersion = userVer

def refreshSession (env : AdminEnv) (inp : AdminRefreshInput) (payload : Claims) (userId : Nat) (session : SessionRow) :
    AdminM (Option AdminLogin) :=
  if session.valid = false ∨ session.isExpired inp.now then return none
  else if session.tokenHash ≠ env.hashToken inp.token then do
    invalidateAllRefreshSessionsForUser session.userId
    return none
  else do
    let found ← getById userId
    match found with
    | none => return none
    | some user =>
      if user.current payload.userVer = false then return none
      else do
        updateRefreshSession session.invalidate
        let tokens ← issueAccessAndRefresh env user inp.client inp.ids inp.now
        return some tokens

def refresh (env : AdminEnv) (inp : AdminRefreshInput) : AdminM (Option AdminLogin) :=
  match env.verify inp.token inp.now with
  | none => return none
  | some payload =>
    if payload.typ ≠ "platform_admin_refresh" then return none
    else
      match payload.sub with
      | none => return none
      | some userId => do
        let found ← getRefreshSessionByJti payload.jti
        match found with
        | none => return none
        | some session => refreshSession env inp payload userId session

structure SetPasswordInput where
  token : String
  password : String
  now : Int

def setPassword (env : AdminEnv) (inp : SetPasswordInput) : AdminM Unit := do
  let found ← getInviteToken (env.auth.sha256Hex inp.token)
  match found.filter (·.usedAt.isNone) with
  | none => .raise (.valueError "invalid_token")
  | some record =>
    if record.expiresAt < inp.now then .raise (.valueError "expired_token")
    else
      match env.passwordRefusal inp.password with
      | some message => .raise (.valueError message)
      | none => do
        let _ ← updateUser record.userId {
          passwordHash := some (env.hashPassword inp.password), isActive := some true, registrationCompletedAt := some inp.now
          failedLoginAttempts := some 0, bumpSecurityVersion := true }
        markInviteUsed record.id inp.now
        invalidateAllRefreshSessionsForUser record.userId

end NyzRating.Admin
