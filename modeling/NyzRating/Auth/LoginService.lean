import NyzRating.Lib.Lists
import NyzRating.Lib.Text
import NyzRating.Lib.Transaction

/-!
# The second step of a login

`LoginService.login` with a pending token and a code, on the tables of one tenant's schema. The code is one of an
authenticator or one that was sent by e-mail. The whole call is one transaction.
-/

namespace NyzRating.Auth

open Program

/-! ### Tables -/

inductive AttemptScope where
  | token
  | user
  | ip
  deriving DecidableEq, Repr

structure TwoFactorAttempt where
  scope : AttemptScope
  scopeKey : String
  attempts : Nat
  windowStartAt : Int
  deriving DecidableEq, Repr

def TwoFactorAttempt.key (r : TwoFactorAttempt) : AttemptScope × String := (r.scope, r.scopeKey)

structure Pending2FA where
  token : String
  userId : Nat
  expiresAt : Int
  deriving DecidableEq, Repr

structure UserAuthenticator where
  userId : Nat
  secretBase32 : Option String
  isEnabled : Bool
  deriving DecidableEq, Repr

structure TwoFactorCode where
  id : Nat
  userId : Nat
  codeHash : String
  expiresAt : Int
  used : Bool
  deriving DecidableEq, Repr

structure User where
  id : Nat
  isActive : Bool
  deletedAt : Option Int
  deriving DecidableEq, Repr

structure Session where
  userId : Nat
  jti : String
  valid : Bool
  deriving DecidableEq, Repr

inductive AuditLogAction where
  | login2faFailed
  | login2faRateLimited
  | login2faSuccess
  | loginSuccess
  deriving DecidableEq, Repr

structure AuditLog where
  action : AuditLogAction
  userId : Nat
  details : List (String × String)
  ip : Option String
  userAgent : Option String
  correlationId : Option String
  deriving DecidableEq, Repr

/-- The tables of the schema that a second step reads or writes. -/
structure AuthTables where
  pending2fa : List Pending2FA
  userAuthenticators : List UserAuthenticator
  twoFactorCodes : List TwoFactorCode
  users : List User
  twoFactorAttempts : List TwoFactorAttempt := []
  sessions : List Session := []
  auditLog : List AuditLog := []
  deriving DecidableEq, Repr

/-- A wrong code that `verify_authenticator_code` has evaluated. -/
structure WrongCode where
  userId : Nat
  pendingToken : String
  ip : Option String
  deriving DecidableEq, Repr

/-- The tables, and what no transaction can take back. -/
structure World where
  tables : AuthTables
  wrongCodes : List WrongCode := []
  deriving DecidableEq, Repr

/-! ### The call -/

inductive LoginError where
  /-- `TwoFactorTooManyAttemptsError` -/
  | tooManyAttempts
  /-- A text is too long for its column. -/
  | dataError
  /-- `binascii.Error` -/
  | badSecret
  deriving DecidableEq, Repr

/-- The settings, and what the standard library computes. -/
structure AuthEnv where
  maxAttempts : Int
  attemptWindowMinutes : Int
  /-- `str.isdigit` of one character. -/
  isDigit : Char → Bool
  /-- `b32decode` of the sanitized secret. -/
  secretKey : String → Option (List UInt8)
  hmacSha1 : List UInt8 → List UInt8 → List UInt8
  sha256Hex : String → String

structure LoginInput where
  pendingToken : String
  twoFactorCode : String
  ip : Option String
  ua : Option String
  correlationId : Option String
  /-- The clock of the repositories. -/
  now : Int
  /-- The system clock, in seconds. -/
  timestamp : Int
  /-- The identifier that a new session is given. -/
  jti : String
  /-- With one of the two missing, it is the first step. -/
  secondStep : pendingToken ≠ "" ∧ twoFactorCode ≠ ""

structure LoginSuccess where
  userId : Nat
  jti : String
  deriving DecidableEq, Repr

abbrev LoginM := EStateM LoginError World

def minutes (n : Int) : Int := n * 60000000

/-! ### Repositories -/

namespace AuthTables

variable (t : AuthTables)

/-- A user's id of 0 counts as none. -/
def getUserId (now : Int) (token : String) : Option Nat :=
  ((t.pending2fa.find? fun r => r.token = token ∧ r.expiresAt > now).map (·.userId)).filter (· ≠ 0)

def consume (token : String) : AuthTables := { t with pending2fa := t.pending2fa.filter (·.token ≠ token) }

def getEnabledSecret (userId : Nat) : Option String :=
  match t.userAuthenticators.find? (·.userId = userId) with
  | none => none
  | some row =>
    if row.isEnabled then some (String.ofList (Text.strip (row.secretBase32.getD "").toList)) |>.filter (· ≠ "") else none

def getValidCode (env : AuthEnv) (now : Int) (userId : Nat) (code : String) : Option TwoFactorCode :=
  t.twoFactorCodes.find? fun r => r.userId = userId ∧ r.codeHash = env.sha256Hex code ∧ r.used = false ∧ r.expiresAt > now

def markAsUsed (codeId : Nat) : AuthTables :=
  { t with twoFactorCodes := t.twoFactorCodes.map fun r => if r.id = codeId then { r with used := true } else r }

def getUser (userId : Nat) : Option User := t.users.find? fun u => u.id = userId ∧ u.deletedAt = none

def attempt? (key : AttemptScope × String) : Option TwoFactorAttempt := t.twoFactorAttempts.find? (·.key = key)

def isBlocked (now maxAttempts windowMinutes : Int) (key : AttemptScope × String) : Bool :=
  match t.attempt? key with
  | none => false
  | some row => if now - row.windowStartAt > minutes windowMinutes then false else row.attempts ≥ maxAttempts

def resetForSuccess (pendingTokenKey : String) (userId : Nat) (ip : Option String) : AuthTables :=
  { t with twoFactorAttempts := t.twoFactorAttempts.filter fun r =>
      r.key ≠ (.token, pendingTokenKey) ∧ r.key ≠ (.user, toString userId) ∧ ∀ address ∈ ip.filter (· ≠ ""),
        r.key ≠ (.ip, address) }

def issueTokens (userId : Nat) (jti : String) : AuthTables :=
  { t with sessions := (t.sessions.map fun s => if s.userId = userId then { s with valid := false } else s) ++
      [{ userId, jti, valid := true }] }

end AuthTables

/-- A row after one more failed attempt; after its window, it starts again. -/
def TwoFactorAttempt.failed (now windowMinutes : Int) (r : TwoFactorAttempt) : TwoFactorAttempt :=
  let r := if now - r.windowStartAt > minutes windowMinutes then { r with attempts := 0, windowStartAt := now } else r
  { r with attempts := r.attempts + 1 }

/-- The row of a first failed attempt. -/
def TwoFactorAttempt.first (now : Int) (key : AttemptScope × String) : TwoFactorAttempt :=
  { scope := key.1, scopeKey := key.2, attempts := 1, windowStartAt := now }

def recordFailed (now windowMinutes : Int) (key : AttemptScope × String) : LoginM Unit := do
  let w ← get
  match w.tables.attempt? key with
  | some _ =>
    let rows := w.tables.twoFactorAttempts.map fun r => if r.key = key then r.failed now windowMinutes else r
    set { w with tables := { w.tables with twoFactorAttempts := rows } }
  | none =>
    if 128 < key.2.length then throw .dataError
    else set { w with tables := { w.tables with twoFactorAttempts := w.tables.twoFactorAttempts ++ [TwoFactorAttempt.first now key] } }

/-- Whether the texts fit the columns. -/
def LoginInput.fitsAuditLog (inp : LoginInput) : Bool :=
  inp.ip.all (·.length ≤ 64) && inp.ua.all (·.length ≤ 512) && inp.correlationId.all (·.length ≤ 128)

def LoginInput.fitsSession (inp : LoginInput) : Bool := inp.ip.all (·.length ≤ 64) && inp.ua.all (·.length ≤ 255)

def auditLog (inp : LoginInput) (action : AuditLogAction) (userId : Nat) (details : List (String × String)) : LoginM Unit :=
  if inp.fitsAuditLog then
    let row : AuditLog := { action, userId, details, ip := inp.ip, userAgent := inp.ua, correlationId := inp.correlationId }
    modify fun w => { w with tables := { w.tables with auditLog := w.tables.auditLog ++ [row] } }
  else throw .dataError

/-! ### Authenticator codes -/

/-- `struct.pack(">Q", counter)`. -/
def packCounter (counter : Nat) : List UInt8 := (List.range 8).map fun k => UInt8.ofNat (counter / 256 ^ (7 - k))

def hotp (env : AuthEnv) (key : List UInt8) (counter : Nat) : String :=
  let digest := env.hmacSha1 key (packCounter counter)
  let offset := (digest.getLast?.getD 0).toNat % 16
  let binary := ((digest.drop offset).take 4).foldl (fun n b => 256 * n + b.toNat) 0 % 2 ^ 31
  let token := toString (binary % 10 ^ 6)
  String.ofList (List.replicate (6 - token.length) '0') ++ token

/-- Nothing, where the secret cannot be decoded. -/
def verifyAuthenticatorCode (env : AuthEnv) (secret code : String) (timestamp : Int) : Option Bool :=
  let normalizedCode := String.ofList (code.toList.filter env.isDigit)
  if normalizedCode.length ≠ 6 then some false
  else
    (env.secretKey secret).map fun key =>
      [-1, 0, 1].any fun delta => hotp env key (timestamp / 30 + delta).toNat = normalizedCode

/-! ### Attempts -/

def AuthEnv.authenticatorMaxAttempts (env : AuthEnv) : Int := max 1 (if env.maxAttempts = 0 then 5 else env.maxAttempts)

def AuthEnv.authenticatorWindowMinutes (env : AuthEnv) : Int :=
  max 1 (if env.attemptWindowMinutes = 0 then 15 else env.attemptWindowMinutes)

def presentKeys (keys : List (AttemptScope × String)) : List (AttemptScope × String) := keys.filter (·.2 ≠ "")

def authenticatorAttemptScopes (userId : Nat) (pendingToken : String) (ip : Option String) : List (AttemptScope × String) :=
  presentKeys [(.token, String.ofList (Text.strip pendingToken.toList)), (.user, toString userId),
    (.ip, String.ofList (Text.strip (ip.getD "").toList))]

/-- The counters of a wrong code. -/
def WrongCode.keys (c : WrongCode) : List (AttemptScope × String) := authenticatorAttemptScopes c.userId c.pendingToken c.ip

def emailAttemptScopes (userId : Nat) (inp : LoginInput) : List (AttemptScope × String) :=
  presentKeys [(.token, inp.pendingToken), (.user, toString userId), (.ip, inp.ip.getD "")]

def authenticatorBlocked (env : AuthEnv) (inp : LoginInput) (userId : Nat) (t : AuthTables) : Bool :=
  (authenticatorAttemptScopes userId inp.pendingToken inp.ip).any
    (t.isBlocked inp.now env.authenticatorMaxAttempts env.authenticatorWindowMinutes)

def emailBlocked (env : AuthEnv) (inp : LoginInput) (userId : Nat) (t : AuthTables) : Bool :=
  (emailAttemptScopes userId inp).any (t.isBlocked inp.now env.maxAttempts env.attemptWindowMinutes)

/-- Whether one of the counters is full now. -/
def recordAttempts (now maxAttempts windowMinutes : Int) : List (AttemptScope × String) → LoginM Bool
  | [] => return false
  | key :: keys => do
    recordFailed now windowMinutes key
    let w ← get
    let rest ← recordAttempts now maxAttempts windowMinutes keys
    return w.tables.isBlocked now maxAttempts windowMinutes key || rest

def recordAuthenticatorFailedAttempt (env : AuthEnv) (inp : LoginInput) (userId : Nat) : LoginM Bool :=
  recordAttempts inp.now env.authenticatorMaxAttempts env.authenticatorWindowMinutes
    (authenticatorAttemptScopes userId inp.pendingToken inp.ip)

def LoginInput.wrongCode (inp : LoginInput) (userId : Nat) : WrongCode :=
  { userId, pendingToken := inp.pendingToken, ip := inp.ip }

def World.evaluated (w : World) (code : WrongCode) : World := { w with wrongCodes := w.wrongCodes ++ [code] }

/-! ### The second step -/

def verifyAuthenticator (env : AuthEnv) (inp : LoginInput) (userId : Nat) (secret : String) : LoginM Bool := do
  let w ← get
  if authenticatorBlocked env inp userId w.tables then throw .tooManyAttempts
  else
    match verifyAuthenticatorCode env secret inp.twoFactorCode inp.timestamp with
    | none => throw .badSecret
    | some true => do
      modify fun w => { w with tables := w.tables.resetForSuccess inp.pendingToken userId inp.ip }
      return true
    | some false => do
      modify (·.evaluated (inp.wrongCode userId))
      let blockedNow ← recordAuthenticatorFailedAttempt env inp userId
      auditLog inp .login2faFailed userId [("reason", "invalid_authenticator_code")]
      if blockedNow then throw .tooManyAttempts else return false

/-- `TwoFactorService.verify_code`. -/
def verifyCode (env : AuthEnv) (inp : LoginInput) (userId : Nat) : LoginM Bool := do
  let w ← get
  if emailBlocked env inp userId w.tables then throw .tooManyAttempts
  else
    match w.tables.getValidCode env inp.now userId inp.twoFactorCode with
    | none => do
      let _ ← recordAttempts inp.now env.maxAttempts env.attemptWindowMinutes (emailAttemptScopes userId inp)
      return false
    | some code => do
      modify fun w =>
        { w with tables := (w.tables.resetForSuccess inp.pendingToken userId inp.ip).markAsUsed code.id }
      return true

def secondFactor (env : AuthEnv) (inp : LoginInput) (userId : Nat) : Option String → LoginM Bool
  | some secret => verifyAuthenticator env inp userId secret
  | none => do
    let codeOk ← verifyCode env inp userId
    if codeOk then return true
    else do
      auditLog inp .login2faFailed userId [("reason", "invalid_code")]
      return false

/-- What happens to the error of the second factor. -/
def rateLimited (inp : LoginInput) (userId : Nat) (e : LoginError) : LoginM Bool :=
  if e = .tooManyAttempts then do
    modify fun w => { w with tables := w.tables.consume inp.pendingToken }
    auditLog inp .login2faRateLimited userId [("reason", "too_many_attempts")]
    throw e
  else throw e

def loginSucceeded (inp : LoginInput) (userId : Nat) (challengeType : String) : LoginM (Option LoginSuccess) := do
  modify fun w => { w with tables := w.tables.consume inp.pendingToken }
  let w ← get
  match w.tables.getUser userId with
  | none => return none
  | some user =>
    if user.isActive then do
      auditLog inp .login2faSuccess user.id [("challenge_type", challengeType)]
      auditLog inp .loginSuccess user.id []
      if inp.fitsSession then do
        modify fun w => { w with tables := w.tables.issueTokens user.id inp.jti }
        return some { userId := user.id, jti := inp.jti }
      else throw .dataError
    else return none

def loginStep2 (env : AuthEnv) (inp : LoginInput) : LoginM (Option LoginSuccess) := do
  let w ← get
  match w.tables.getUserId inp.now inp.pendingToken with
  | none => return none
  | some userId => do
    let secret := w.tables.getEnabledSecret userId
    let codeOk ← tryCatch (secondFactor env inp userId secret) (rateLimited inp userId)
    if codeOk then loginSucceeded inp userId (if secret.isSome then "authenticator" else "email") else return none

/-- `LoginService.login`: an error that leaves it takes back all that the call has written to the tables. -/
def login (env : AuthEnv) (inp : LoginInput) : LoginM (Option LoginSuccess) :=
  atomically (fun s w => { w with tables := s.tables }) (loginStep2 env inp)

/-! ### The audit service -/

/-- The service that the call is given for its events. It may raise, and writes nothing but events. -/
structure LoginAudit where
  log : LoginInput → AuditLogAction → Nat → List (String × String) → LoginM Unit
  keeps : ∀ inp action userId details w, ∃ rows,
    after (log inp action userId details) w = { w with tables := { w.tables with auditLog := rows } }

theorem auditLog_keeps (inp : LoginInput) (action : AuditLogAction) (userId : Nat) (details : List (String × String))
    (w : World) : ∃ rows,
      after (auditLog inp action userId details) w = { w with tables := { w.tables with auditLog := rows } } := by
  unfold auditLog
  split
  · exact ⟨_, rfl⟩
  · exact ⟨w.tables.auditLog, rfl⟩

namespace LoginAudit

/-- The row is written at once. -/
def synchronous : LoginAudit := ⟨Auth.auditLog, auditLog_keeps⟩

def publish (inp : LoginInput) (action : AuditLogAction) (userId : Nat) (details : List (String × String)) : LoginM Unit :=
  let row : AuditLog := { action, userId, details, ip := inp.ip, userAgent := inp.ua, correlationId := inp.correlationId }
  modify fun w => { w with tables := { w.tables with auditLog := w.tables.auditLog ++ [row] } }

/-- `AuditServiceProxy`: the event goes to the outbox, where no column bounds its texts. -/
def proxy : LoginAudit := ⟨publish, fun _ _ _ _ _ => ⟨_, rfl⟩⟩

variable (svc : LoginAudit)

def verifyAuthenticator (env : AuthEnv) (inp : LoginInput) (userId : Nat) (secret : String) : LoginM Bool := do
  let w ← get
  if authenticatorBlocked env inp userId w.tables then throw .tooManyAttempts
  else
    match verifyAuthenticatorCode env secret inp.twoFactorCode inp.timestamp with
    | none => throw .badSecret
    | some true => do
      modify fun w => { w with tables := w.tables.resetForSuccess inp.pendingToken userId inp.ip }
      return true
    | some false => do
      modify (·.evaluated (inp.wrongCode userId))
      let blockedNow ← recordAuthenticatorFailedAttempt env inp userId
      svc.log inp .login2faFailed userId [("reason", "invalid_authenticator_code")]
      if blockedNow then throw .tooManyAttempts else return false

def secondFactor (env : AuthEnv) (inp : LoginInput) (userId : Nat) : Option String → LoginM Bool
  | some secret => svc.verifyAuthenticator env inp userId secret
  | none => do
    let codeOk ← verifyCode env inp userId
    if codeOk then return true
    else do
      svc.log inp .login2faFailed userId [("reason", "invalid_code")]
      return false

def rateLimited (inp : LoginInput) (userId : Nat) (e : LoginError) : LoginM Bool :=
  if e = .tooManyAttempts then do
    modify fun w => { w with tables := w.tables.consume inp.pendingToken }
    svc.log inp .login2faRateLimited userId [("reason", "too_many_attempts")]
    throw e
  else throw e

def loginSucceeded (inp : LoginInput) (userId : Nat) (challengeType : String) : LoginM (Option LoginSuccess) := do
  modify fun w => { w with tables := w.tables.consume inp.pendingToken }
  let w ← get
  match w.tables.getUser userId with
  | none => return none
  | some user =>
    if user.isActive then do
      svc.log inp .login2faSuccess user.id [("challenge_type", challengeType)]
      svc.log inp .loginSuccess user.id []
      if inp.fitsSession then do
        modify fun w => { w with tables := w.tables.issueTokens user.id inp.jti }
        return some { userId := user.id, jti := inp.jti }
      else throw .dataError
    else return none

def loginStep2 (env : AuthEnv) (inp : LoginInput) : LoginM (Option LoginSuccess) := do
  let w ← get
  match w.tables.getUserId inp.now inp.pendingToken with
  | none => return none
  | some userId => do
    let secret := w.tables.getEnabledSecret userId
    let codeOk ← tryCatch (svc.secondFactor env inp userId secret) (svc.rateLimited inp userId)
    if codeOk then svc.loginSucceeded inp userId (if secret.isSome then "authenticator" else "email") else return none

def login (env : AuthEnv) (inp : LoginInput) : LoginM (Option LoginSuccess) :=
  atomically (fun s w => { w with tables := s.tables }) (svc.loginStep2 env inp)

end LoginAudit

/-! ### What a call leaves alone -/

section
variable {P : World → Prop} (svc : LoginAudit) {inp : LoginInput} {userId : Nat}

/-- What no event changes holds after one, also where the service raises. -/
theorem LoginAudit.log_keeps (events : ∀ w rows, P w → P { w with tables := { w.tables with auditLog := rows } })
    (action : AuditLogAction) (details : List (String × String)) :
    Returns P (svc.log inp action userId details) (fun _ => P) P := by
  intro w holds
  obtain ⟨rows, kept⟩ := svc.keeps inp action userId details w
  have left : P (after (svc.log inp action userId details) w) := kept ▸ events w rows holds
  unfold after at left
  cases run : (svc.log inp action userId details).run w with
  | ok _ u => exact .returned (by rwa [run] at left)
  | error _ u => exact .raised (by rwa [run] at left)

theorem recordFailed_keeps (attempts : ∀ w rows, P w → P { w with tables := { w.tables with twoFactorAttempts := rows } })
    (now window : Int) (key : AttemptScope × String) : Returns P (recordFailed now window key) (fun _ => P) P := by
  refine .bind (R := fun x w => P x ∧ P w) (.get fun _ h => ⟨h, h⟩) fun x => .given fun h => ?_
  dsimp only
  split
  · exact .set (attempts x _ h)
  · exact .ite (fun _ => .throw fun _ h => h) fun _ => .set (attempts x _ h)

theorem recordAttempts_keeps (attempts : ∀ w rows, P w → P { w with tables := { w.tables with twoFactorAttempts := rows } })
    (now limit window : Int) (keys : List (AttemptScope × String)) :
    Returns P (recordAttempts now limit window keys) (fun _ => P) P := by
  induction keys with
  | nil => exact .pure fun _ h => h
  | cons key keys ih =>
    refine .bind (recordFailed_keeps attempts now window key) fun _ => ?_
    refine .bind (R := fun _ => P) (.get fun _ h => h) fun _ => ?_
    exact .bind ih fun _ => .pure fun _ h => h

/-- A call that has met its limit raises. -/
theorem LoginAudit.rateLimited_raises (e : LoginError) {R : Bool → World → Prop} :
    Returns P (svc.rateLimited inp userId e) R fun _ => True := by
  intro w _
  unfold LoginAudit.rateLimited
  rw [run_ite]
  split
  · cases run : (svc.log inp .login2faRateLimited userId [("reason", "too_many_attempts")]).run
        { w with tables := w.tables.consume inp.pendingToken } with
    | ok _ u => simp [EStateM.run_bind, run, Ends.raised]
    | error _ u => simp [EStateM.run_bind, run, Ends.raised]
  · exact .raised trivial

end

theorem synchronous_login (env : AuthEnv) (inp : LoginInput) : LoginAudit.synchronous.login env inp = login env inp := rfl

end NyzRating.Auth
