import NyzRating.Auth.LoginService

/-!
# Refresh tokens

The table `refresh_tokens` of one tenant's schema, and the calls that write it: the tokens of a login, a refresh, a logout.
Each call is one transaction.
-/

namespace NyzRating.Auth.Refresh

open Program

/-! ### Tables -/

/-- A row of `refresh_tokens`. -/
structure SessionRow where
  id : Nat
  userId : Nat
  jti : String
  tokenHash : String
  ip : Option String
  userAgent : Option String
  valid : Bool := true
  expiresAt : Int
  deriving DecidableEq, Repr

inductive SessionAction where
  | refresh
  | refreshFailed
  | refreshSuspiciousFingerprint
  | logout
  | logoutFailed
  deriving DecidableEq, Repr

structure SessionAudit where
  action : SessionAction
  userId : Option Nat
  details : List (String × Option String) := []
  ip : Option String
  userAgent : Option String
  correlationId : Option String
  deriving DecidableEq, Repr

structure SessionTables where
  sessions : List SessionRow := []
  nextSessionId : Nat := 1
  auditLog : List SessionAudit := []
  deriving DecidableEq, Repr

/-! ### Tokens -/

/-- The claims of a refresh token; `exp` is in seconds. -/
structure Payload where
  sub : Nat
  typ : String
  jti : String
  userVer : Int
  tenantVer : Int
  exp : Int
  al : Bool
  deriving DecidableEq, Repr

structure AccessPayload where
  sub : Nat
  jti : String
  userVer : Int
  tenantVer : Int
  role : String
  exp : Int
  deriving DecidableEq, Repr

inductive JwtError where
  | expired
  /-- `InvalidSignatureError`, `DecodeError` -/
  | invalid
  /-- Another `InvalidTokenError`: the issuer, the audience, a token that is not valid yet. -/
  | other
  deriving DecidableEq, Repr

/-- The token service's settings, and what its libraries compute. -/
structure TokenEnv where
  /-- The claims of a text with the right signature, issuer and audience. -/
  decode : String → Except JwtError Payload
  encode : Payload → String
  encodeAccess : AccessPayload → String
  hashToken : String → String
  accessExp : Int
  refreshExp : Int
  refreshSessionExp : Int

def TokenEnv.verify (env : TokenEnv) (token : String) (now : Int) : Except JwtError Payload :=
  match env.decode token with
  | .error e => .error e
  | .ok payload => if payload.exp * 1000000 ≤ now then .error .expired else .ok payload

/-- The claims of a new refresh token, and the time at which its session expires. -/
def TokenEnv.makeRefreshPair (env : TokenEnv) (userId : Nat) (jti : String) (autoLogin : Bool) (userVer tenantVer now : Int) :
    Payload × Int :=
  let exp := now + minutes (if autoLogin then env.refreshExp else env.refreshSessionExp)
  ({ sub := userId, typ := "refresh", jti, userVer, tenantVer, exp := exp / 1000000, al := autoLogin }, exp)

def TokenEnv.makeAccess (env : TokenEnv) (userId : Nat) (jti : String) (userVer tenantVer : Int) (role : String) (now : Int) :
    String :=
  env.encodeAccess { sub := userId, jti, userVer, tenantVer, role, exp := (now + minutes env.accessExp) / 1000000 }

/-! ### Calls -/

/-- A user, as far as tokens go. -/
structure TokenUser where
  id : Nat
  securityVersion : Int
  role : String
  deriving DecidableEq, Repr

/-- Where a call comes from. -/
structure Client where
  ip : Option String := none
  ua : Option String := none
  correlationId : Option String := none
  deriving DecidableEq, Repr

inductive SessionError where
  /-- A text is too long for its column. -/
  | dataError
  /-- A row with this `jti` exists. -/
  | integrityError
  /-- An `InvalidTokenError` that is not handled. -/
  | invalidToken
  deriving DecidableEq, Repr

abbrev SessionM := EStateM SessionError SessionTables

/-- The row `r` after an update with `s`: only these columns are written. -/
def SessionRow.written (s r : SessionRow) : SessionRow :=
  if r.id = s.id then { r with valid := s.valid, expiresAt := s.expiresAt, ip := s.ip, userAgent := s.userAgent } else r

namespace SessionTables

variable (t : SessionTables)

def getByJti (jti : String) : Option SessionRow := t.sessions.find? (·.jti = jti)

def invalidateAllForUser (userId : Nat) : SessionTables :=
  { t with sessions := t.sessions.map fun r => if r.userId = userId then { r with valid := false } else r }

def update (s : SessionRow) : SessionTables := { t with sessions := t.sessions.map s.written }

def create (s : SessionRow) : SessionTables :=
  { t with sessions := t.sessions ++ [{ s with id := t.nextSessionId }], nextSessionId := t.nextSessionId + 1 }

end SessionTables

def SessionRow.invalidate (r : SessionRow) : SessionRow := { r with valid := false }

def SessionRow.isExpired (now : Int) (r : SessionRow) : Bool := r.expiresAt ≤ now

/-- A new session; the row gets its id from the table. -/
def SessionRow.new (userId : Nat) (jti tokenHash : String) (expiresAt : Int) (client : Client) : SessionRow :=
  { id := 0, userId, jti, tokenHash, ip := client.ip, userAgent := client.ua, expiresAt }

def Client.fitsAuditLog (c : Client) : Bool :=
  c.ip.all (·.length ≤ 64) && c.ua.all (·.length ≤ 512) && c.correlationId.all (·.length ≤ 128)

def SessionRow.fits (r : SessionRow) : Bool :=
  r.ip.all (·.length ≤ 64) && r.userAgent.all (·.length ≤ 255) && r.jti.length ≤ 128 && r.tokenHash.length ≤ 255

def audit (client : Client) (action : SessionAction) (userId : Option Nat) (details : List (String × Option String)) :
    SessionM Unit :=
  if client.fitsAuditLog then
    let row : SessionAudit :=
      { action, userId, details, ip := client.ip, userAgent := client.ua, correlationId := client.correlationId }
    modify fun t => { t with auditLog := t.auditLog ++ [row] }
  else throw .dataError

def createSession (s : SessionRow) : SessionM Unit := do
  let t ← get
  if s.fits = false then throw .dataError
  else if t.sessions.any (·.jti = s.jti) then throw .integrityError
  else set (t.create s)

/-! ### Login -/

structure IssueInput where
  user : TokenUser
  client : Client := {}
  autoLogin : Bool := false
  tenantVer : Int := 0
  jti : String
  accessJti : String
  now : Int

structure Tokens where
  accessToken : String
  refreshToken : String
  accessJti : String
  deriving DecidableEq, Repr

def IssueInput.pair (env : TokenEnv) (inp : IssueInput) : Payload × Int :=
  env.makeRefreshPair inp.user.id inp.jti inp.autoLogin inp.user.securityVersion inp.tenantVer inp.now

/-- `LoginService._issue_tokens`. -/
def issueTokens (env : TokenEnv) (inp : IssueInput) : SessionM Tokens := do
  modify (·.invalidateAllForUser inp.user.id)
  let refresh := env.encode (inp.pair env).1
  createSession (.new inp.user.id inp.jti (env.hashToken refresh) (inp.pair env).2 inp.client)
  return {
    accessToken := env.makeAccess inp.user.id inp.accessJti inp.user.securityVersion inp.tenantVer inp.user.role inp.now
    refreshToken := refresh
    accessJti := inp.accessJti }

def issueTokensForUser (env : TokenEnv) (inp : IssueInput) : SessionM Tokens := atomically (fun t _ => t) (issueTokens env inp)

/-! ### Refresh -/

inductive RefreshFailReason where
  | expiredToken
  | invalidToken
  | wrongTokenType
  | securityVersionMismatch
  | unknownSession
  | permissionsChanged
  | sessionReuseDetected
  | sessionExpired
  | re2faRequired
  deriving DecidableEq, Repr

structure RefreshSuccess where
  accessToken : String
  refreshToken : String
  accessJti : String
  user : Option TokenUser
  autoLogin : Bool
  deriving DecidableEq, Repr

inductive RefreshResult where
  | failed (reason : RefreshFailReason)
  | success (tokens : RefreshSuccess)
  deriving DecidableEq, Repr

structure RefreshInput where
  token : String
  client : Client := {}
  tenantVer : Int := 0
  /-- `user_repository.get_by_id`. -/
  users : Nat → Option TokenUser
  /-- `permissions_changed_store.get` for this tenant. -/
  permissionsChanged : Nat → Bool := fun _ => false
  jti : String
  accessJti : String
  now : Int

def RefreshInput.userVer (inp : RefreshInput) (userId : Nat) : Int := ((inp.users userId).map (·.securityVersion)).getD 0

def stripped (text : Option String) : List Char := Text.strip (text.getD "").toList

/-- Both the address and the browser are known, and both are other ones now. -/
def fingerprintMismatch (rec : SessionRow) (client : Client) : Bool :=
  rec.ip.isSome && rec.userAgent.isSome && stripped rec.ip ≠ [] && stripped rec.userAgent ≠ [] &&
    (stripped client.ip ≠ stripped rec.ip && stripped client.ua ≠ stripped rec.userAgent)

/-- `(ua[:80] + "…") if ua and len(ua) > 80 else ua`. -/
def shortened (ua : Option String) : Option String :=
  ua.map fun ua => if 80 < ua.length then String.ofList (ua.toList.take 80) ++ "…" else ua

def refuse (inp : RefreshInput) (userId : Option Nat) (why : String) (reason : RefreshFailReason) : SessionM RefreshResult := do
  audit inp.client .refreshFailed userId [("reason", some why)]
  return .failed reason

/-- The claims of the token that takes the place of `payload`'s, and the time at which its session expires. -/
def RefreshInput.pair (env : TokenEnv) (inp : RefreshInput) (payload : Payload) : Payload × Int :=
  env.makeRefreshPair payload.sub inp.jti payload.al (inp.userVer payload.sub) inp.tenantVer inp.now

/-- The row of the session that takes the place of another one. -/
def RefreshInput.row (env : TokenEnv) (inp : RefreshInput) (payload : Payload) : SessionRow :=
  .new payload.sub inp.jti (env.hashToken (env.encode (inp.pair env payload).1)) (inp.pair env payload).2 inp.client

def rotate (env : TokenEnv) (inp : RefreshInput) (payload : Payload) (rec : SessionRow) : SessionM RefreshResult := do
  modify (·.update rec.invalidate)
  let refresh := env.encode (inp.pair env payload).1
  createSession (inp.row env payload)
  audit inp.client .refresh (some payload.sub) []
  return .success {
    accessToken := env.makeAccess payload.sub inp.accessJti (inp.userVer payload.sub) inp.tenantVer
      (((inp.users payload.sub).map (·.role)).getD "user") inp.now
    refreshToken := refresh
    accessJti := inp.accessJti
    user := inp.users payload.sub
    autoLogin := payload.al }

/-- Whether the session can be replaced. -/
def RefreshInput.rotates (inp : RefreshInput) (rec : SessionRow) : Bool :=
  rec.valid && !rec.isExpired inp.now && !fingerprintMismatch rec inp.client

/-- The session of the token, as the call has read it. -/
def refreshSession (env : TokenEnv) (inp : RefreshInput) (payload : Payload) : Option SessionRow → SessionM RefreshResult
  | none => refuse inp (some payload.sub) "unknown_jti" .unknownSession
  | some rec =>
    if rec.valid = false then
      if inp.permissionsChanged rec.userId then refuse inp (some payload.sub) "permissions_changed" .permissionsChanged
      else do
        audit inp.client .refreshFailed (some payload.sub) [("reason", some "reuse_detected")]
        modify (·.invalidateAllForUser rec.userId)
        return .failed .sessionReuseDetected
    else if rec.isExpired inp.now then do
      modify (·.update rec.invalidate)
      audit inp.client .refreshFailed (some payload.sub) [("reason", some "session_expired")]
      return .failed .sessionExpired
    else if fingerprintMismatch rec inp.client then do
      audit inp.client .refreshSuspiciousFingerprint (some payload.sub)
        [("reason", some "fingerprint_mismatch"), ("stored_ip", rec.ip), ("current_ip", inp.client.ip),
          ("stored_ua", shortened rec.userAgent), ("current_ua", shortened inp.client.ua)]
      return .failed .re2faRequired
    else rotate env inp payload rec

/-- Whether the security versions are those of the token. -/
def RefreshInput.current (inp : RefreshInput) (payload : Payload) : Bool :=
  payload.userVer = inp.userVer payload.sub && payload.tenantVer = inp.tenantVer

def refreshVerified (env : TokenEnv) (inp : RefreshInput) (payload : Payload) : SessionM RefreshResult :=
  if payload.typ ≠ "refresh" then refuse inp none "wrong_type" .wrongTokenType
  else if inp.current payload = false then
    refuse inp (some payload.sub) "security_version_mismatch" .securityVersionMismatch
  else do
    let t ← get
    refreshSession env inp payload (t.getByJti payload.jti)

def refreshToken (env : TokenEnv) (inp : RefreshInput) : SessionM RefreshResult :=
  match env.verify inp.token inp.now with
  | .error .expired => refuse inp none "expired_token" .expiredToken
  | .error .invalid => refuse inp none "invalid_token" .invalidToken
  | .error .other => throw .invalidToken
  | .ok payload => refreshVerified env inp payload

/-- `RefreshService.refresh`. -/
def refresh (env : TokenEnv) (inp : RefreshInput) : SessionM RefreshResult := atomically (fun t _ => t) (refreshToken env inp)

/-! ### Logout -/

structure LogoutInput where
  token : String
  client : Client := {}
  now : Int

/-- The session of a token that is the one which it was made with. -/
def SessionTables.sessionOf (env : TokenEnv) (t : SessionTables) (payload : Payload) (token : String) : Option SessionRow :=
  (t.getByJti payload.jti).filter (·.tokenHash = env.hashToken token)

def logoutWithExpiredToken (env : TokenEnv) (inp : LogoutInput) : SessionM Bool := do
  let payload := (env.decode inp.token).toOption
  let t ← get
  match payload.bind fun p => if p.typ = "refresh" ∧ p.jti ≠ "" then t.sessionOf env p inp.token else none with
  | some session => set (t.update session.invalidate)
  | none => pure ()
  audit inp.client .logoutFailed (payload.map (·.sub)) [("reason", some "expired_token")]
  return true

def logoutVerified (env : TokenEnv) (inp : LogoutInput) (payload : Payload) : SessionM Bool := do
  let t ← get
  if payload.typ ≠ "refresh" then do
    audit inp.client .logoutFailed none [("reason", some "wrong_type")]
    return true
  else
    match t.getByJti payload.jti with
    | none => do
      audit inp.client .logoutFailed (some payload.sub) [("reason", some "unknown_jti")]
      return true
    | some session =>
      if session.tokenHash ≠ env.hashToken inp.token then do
        audit inp.client .logoutFailed (some payload.sub) [("reason", some "replay_detected")]
        return true
      else do
        set (t.update session.invalidate)
        audit inp.client .logout (some payload.sub) []
        return true

/-- `LogoutService.logout`. -/
def logout (env : TokenEnv) (inp : LogoutInput) : SessionM Bool :=
  atomically (fun t _ => t) <|
    match env.verify inp.token inp.now with
    | .error .expired => logoutWithExpiredToken env inp
    | .error .invalid => do
      audit inp.client .logoutFailed none [("reason", some "invalid_token")]
      return true
    | .error .other => throw .invalidToken
    | .ok payload => logoutVerified env inp payload

/-! ### The audit service -/

/-- The service that the calls are given for their events. It may raise, and leaves the sessions alone. -/
structure AuditService where
  log : Client → SessionAction → Option Nat → List (String × Option String) → SessionM Unit
  keeps : ∀ client action userId details t, (after (log client action userId details) t).sessions = t.sessions ∧
    (after (log client action userId details) t).nextSessionId = t.nextSessionId

theorem audit_keeps (client : Client) (action : SessionAction) (userId : Option Nat) (details : List (String × Option String))
    (t : SessionTables) : (after (audit client action userId details) t).sessions = t.sessions ∧
      (after (audit client action userId details) t).nextSessionId = t.nextSessionId := by
  unfold audit
  split
  · exact ⟨rfl, rfl⟩
  · exact ⟨rfl, rfl⟩

/-- The row is written at once. -/
def synchronous : AuditService := ⟨audit, audit_keeps⟩

def publish (client : Client) (action : SessionAction) (userId : Option Nat) (details : List (String × Option String)) :
    SessionM Unit :=
  modify fun t => { t with auditLog := t.auditLog ++
    [{ action, userId, details, ip := client.ip, userAgent := client.ua, correlationId := client.correlationId }] }

/-- `AuditServiceProxy`: the event goes to the outbox, where no column bounds its texts. -/
def proxy : AuditService := ⟨publish, fun _ _ _ _ _ => ⟨rfl, rfl⟩⟩

namespace AuditService

variable (svc : AuditService)

def refuse (inp : RefreshInput) (userId : Option Nat) (why : String) (reason : RefreshFailReason) : SessionM RefreshResult := do
  svc.log inp.client .refreshFailed userId [("reason", some why)]
  return .failed reason

def rotate (env : TokenEnv) (inp : RefreshInput) (payload : Payload) (rec : SessionRow) : SessionM RefreshResult := do
  modify (·.update rec.invalidate)
  let refresh := env.encode (inp.pair env payload).1
  createSession (inp.row env payload)
  svc.log inp.client .refresh (some payload.sub) []
  return .success {
    accessToken := env.makeAccess payload.sub inp.accessJti (inp.userVer payload.sub) inp.tenantVer
      (((inp.users payload.sub).map (·.role)).getD "user") inp.now
    refreshToken := refresh
    accessJti := inp.accessJti
    user := inp.users payload.sub
    autoLogin := payload.al }

def refreshSession (env : TokenEnv) (inp : RefreshInput) (payload : Payload) : Option SessionRow → SessionM RefreshResult
  | none => svc.refuse inp (some payload.sub) "unknown_jti" .unknownSession
  | some rec =>
    if rec.valid = false then
      if inp.permissionsChanged rec.userId then svc.refuse inp (some payload.sub) "permissions_changed" .permissionsChanged
      else do
        svc.log inp.client .refreshFailed (some payload.sub) [("reason", some "reuse_detected")]
        modify (·.invalidateAllForUser rec.userId)
        return .failed .sessionReuseDetected
    else if rec.isExpired inp.now then do
      modify (·.update rec.invalidate)
      svc.log inp.client .refreshFailed (some payload.sub) [("reason", some "session_expired")]
      return .failed .sessionExpired
    else if fingerprintMismatch rec inp.client then do
      svc.log inp.client .refreshSuspiciousFingerprint (some payload.sub)
        [("reason", some "fingerprint_mismatch"), ("stored_ip", rec.ip), ("current_ip", inp.client.ip),
          ("stored_ua", shortened rec.userAgent), ("current_ua", shortened inp.client.ua)]
      return .failed .re2faRequired
    else svc.rotate env inp payload rec

def refreshVerified (env : TokenEnv) (inp : RefreshInput) (payload : Payload) : SessionM RefreshResult :=
  if payload.typ ≠ "refresh" then svc.refuse inp none "wrong_type" .wrongTokenType
  else if inp.current payload = false then
    svc.refuse inp (some payload.sub) "security_version_mismatch" .securityVersionMismatch
  else do
    let t ← get
    svc.refreshSession env inp payload (t.getByJti payload.jti)

def refreshToken (env : TokenEnv) (inp : RefreshInput) : SessionM RefreshResult :=
  match env.verify inp.token inp.now with
  | .error .expired => svc.refuse inp none "expired_token" .expiredToken
  | .error .invalid => svc.refuse inp none "invalid_token" .invalidToken
  | .error .other => throw .invalidToken
  | .ok payload => svc.refreshVerified env inp payload

def refresh (env : TokenEnv) (inp : RefreshInput) : SessionM RefreshResult :=
  atomically (fun t _ => t) (svc.refreshToken env inp)

def logoutWithExpiredToken (env : TokenEnv) (inp : LogoutInput) : SessionM Bool := do
  let payload := (env.decode inp.token).toOption
  let t ← get
  match payload.bind fun p => if p.typ = "refresh" ∧ p.jti ≠ "" then t.sessionOf env p inp.token else none with
  | some session => set (t.update session.invalidate)
  | none => pure ()
  svc.log inp.client .logoutFailed (payload.map (·.sub)) [("reason", some "expired_token")]
  return true

def logoutVerified (env : TokenEnv) (inp : LogoutInput) (payload : Payload) : SessionM Bool := do
  let t ← get
  if payload.typ ≠ "refresh" then do
    svc.log inp.client .logoutFailed none [("reason", some "wrong_type")]
    return true
  else
    match t.getByJti payload.jti with
    | none => do
      svc.log inp.client .logoutFailed (some payload.sub) [("reason", some "unknown_jti")]
      return true
    | some session =>
      if session.tokenHash ≠ env.hashToken inp.token then do
        svc.log inp.client .logoutFailed (some payload.sub) [("reason", some "replay_detected")]
        return true
      else do
        set (t.update session.invalidate)
        svc.log inp.client .logout (some payload.sub) []
        return true

def logoutToken (env : TokenEnv) (inp : LogoutInput) : SessionM Bool :=
  match env.verify inp.token inp.now with
  | .error .expired => svc.logoutWithExpiredToken env inp
  | .error .invalid => do
    svc.log inp.client .logoutFailed none [("reason", some "invalid_token")]
    return true
  | .error .other => throw .invalidToken
  | .ok payload => svc.logoutVerified env inp payload

def logout (env : TokenEnv) (inp : LogoutInput) : SessionM Bool := atomically (fun t _ => t) (svc.logoutToken env inp)

end AuditService

theorem synchronous_refresh (env : TokenEnv) (inp : RefreshInput) : synchronous.refresh env inp = refresh env inp := rfl

theorem synchronous_logout (env : TokenEnv) (inp : LogoutInput) : synchronous.logout env inp = logout env inp := rfl

end NyzRating.Auth.Refresh
