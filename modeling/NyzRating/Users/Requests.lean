import Mathlib.Logic.Function.Basic
import NyzRating.Auth.SecondFactor
import NyzRating.Auth.SessionFamily
import NyzRating.Users.Services

/-!
# Requests

The endpoints of one tenant that write users, sessions, the user cache or the list of allowed access tokens, and the
middleware that finds the user of a bearer token. One request runs to its end before the next one.
-/

namespace NyzRating.Users

open Program Auth.Refresh

/-! ### Login -/

/-- The settings, and what the libraries compute. -/
structure LoginEnv where
  verifyPassword : VerifyPassword
  /-- `two_factor_settings.is_two_factor_enabled` -/
  twoFactorEnabled : Bool
  tokens : TokenEnv
  /-- The claims of an access token with the right signature, issuer and audience. -/
  decodeAccess : String → Option AccessPayload
  auth : Auth.AuthEnv

def User.token (u : User) : TokenUser := { id := u.id, securityVersion := u.securityVersion, role := u.role }

/-- Where tokens are issued: what the request says, and the identifiers that are drawn. -/
structure TokenInput where
  client : Client := {}
  autoLogin : Bool := false
  tenantVer : Int := 0
  jti : String
  accessJti : String
  now : Int

def TokenInput.issue (inp : TokenInput) (user : User) : IssueInput :=
  { user := user.token, client := inp.client, autoLogin := inp.autoLogin, tenantVer := inp.tenantVer, jti := inp.jti,
    accessJti := inp.accessJti, now := inp.now }

def TokenInput.access (env : TokenEnv) (inp : TokenInput) (user : TokenUser) : AccessPayload :=
  { sub := user.id, jti := inp.accessJti, userVer := user.securityVersion, tenantVer := inp.tenantVer, role := user.role,
    exp := (inp.now + Auth.minutes env.accessExp) / 1000000 }

def issueTokens (env : TokenEnv) (t : Tables) (inp : TokenInput) (user : User) : Except UserError (Tokens × Tables) :=
  match (Auth.Refresh.issueTokens env (inp.issue user)).run t.refreshTokens with
  | .ok tokens sessions => return (tokens, { t with refreshTokens := sessions })
  | .error e _ => throw (.session e)

structure Step1Input extends TokenInput where
  email : Option String
  password : Option String
  /-- The identifier of the second step, and the hash of the code that is sent. -/
  pendingToken : String
  codeHash : String

inductive LoginResult where
  | refused
  | success (user : User) (tokens : Tokens)
  | twoFactorRequired (pendingToken challengeType : String)
  deriving DecidableEq, Repr

/-- The user who has been given tokens. -/
def LoginResult.user : LoginResult → Option User
  | .success user _ => some user
  | _ => none

def Tables.publish (t : Tables) (client : Client) (action : LoginAction) (userId : Option Nat) (details : List (String × String)) :
    Tables :=
  { t with outbox := t.outbox ++ [{ action, userId, details, ip := client.ip, userAgent := client.ua }] }

/-- The tables after the second step is asked for: of an authenticator, or with a code that is sent. -/
def Tables.challenged (t : Tables) (inp : Step1Input) (user : User) (secret : Option String) : Tables :=
  let expiresAt := inp.now + Auth.minutes 10
  let t := t.publish inp.client .login2faRequired (some user.id) [("email", user.email)]
  let t := { t with pending2fa := t.pending2fa ++ [{ token := inp.pendingToken, userId := user.id, expiresAt }] }
  match secret with
  | none => (t.invalidateUserCodes user.id).createCode user.id inp.codeHash expiresAt
  | some _ => t

def challenge (t : Tables) (inp : Step1Input) (user : User) (secret : Option String) :
    Except UserError (LoginResult × Tables) :=
  if t.pending2fa.any (·.token = inp.pendingToken) then throw .integrityError
  else return (.twoFactorRequired inp.pendingToken (if secret.isSome then "authenticator" else "email"), t.challenged inp user secret)

/-- `_login_step1` of a user who has been found. -/
def checkPassword (env : LoginEnv) (t : Tables) (inp : Step1Input) (email password : String) (user : User) :
    Except UserError (LoginResult × Tables) :=
  if user.isActive = false then
    return (.refused, t.publish inp.client .loginFailed (some user.id) [("reason", "inactive_user")])
  else if env.verifyPassword password user.passwordHash = false then do
    let t := t.publish inp.client .loginFailed (some user.id) [("reason", "bad_password"), ("email", email)]
    let t ← t.recordFailedLogin user.id
    return (.refused, t)
  else do
    let t ← t.resetFailedLogin user.id
    let secret := t.getEnabledSecret user.id
    if env.twoFactorEnabled = false ∧ secret = none then
      let t := t.publish inp.client .loginSuccess (some user.id) [("email", user.email), ("2fa", "False")]
      let (tokens, t) ← issueTokens env.tokens t inp.toTokenInput user
      return (.success user tokens, t)
    else challenge t inp user secret

/-- `_login_step1`; an empty text counts as missing. -/
def loginStep1 (env : LoginEnv) (t : Tables) (inp : Step1Input) : Except UserError (LoginResult × Tables) :=
  match inp.email.filter (· ≠ ""), inp.password.filter (· ≠ "") with
  | some email, some password =>
    match t.getByEmail email with
    | none => return (.refused, t.publish inp.client .loginFailed none [("reason", "invalid_user"), ("email", email)])
    | some user => checkPassword env t inp email password user
  | _, _ => return (.refused, t)

/-- The user whom a failed login locks out. -/
def Tables.lockedBy (env : LoginEnv) (t : Tables) (inp : Step1Input) : Option Nat :=
  match inp.email.filter (· ≠ ""), inp.password.filter (· ≠ "") with
  | some email, some password =>
    let locks (user : User) : Bool :=
      user.isActive && !env.verifyPassword password user.passwordHash && (Tables.evaluateFailedLogin user).2
    ((t.getByEmail email).filter locks).map (·.id)
  | _, _ => none

/-- The tables, as far as the second step of a login knows them. -/
def Tables.forSecondStep (t : Tables) : Auth.AuthTables where
  pending2fa := t.pending2fa
  userAuthenticators := t.userAuthenticators.map (·.toUserAuthenticator)
  twoFactorCodes := t.twoFactorCodes
  users := t.users.map fun r => { id := r.id, isActive := r.isActive, deletedAt := r.deletedAt }
  twoFactorAttempts := t.twoFactorAttempts

def Tables.afterSecondStep (t : Tables) (a : Auth.AuthTables) : Tables :=
  { t with pending2fa := a.pending2fa, twoFactorCodes := a.twoFactorCodes, twoFactorAttempts := a.twoFactorAttempts }

structure Step2Input extends Auth.LoginInput where
  autoLogin : Bool := false
  tenantVer : Int := 0
  accessJti : String

def Step2Input.tokens (inp : Step2Input) : TokenInput :=
  { client := { ip := inp.ip, ua := inp.ua, correlationId := inp.correlationId }, autoLogin := inp.autoLogin,
    tenantVer := inp.tenantVer, jti := inp.jti, accessJti := inp.accessJti, now := inp.now }

/-- `_login_step2` -/
def loginStep2 (env : LoginEnv) (t : Tables) (inp : Step2Input) : Except UserError (LoginResult × Tables) :=
  match (Auth.LoginAudit.proxy.loginStep2 env.auth inp.toLoginInput).run { tables := t.forSecondStep } with
  | .error e _ => throw (.secondStep e)
  | .ok none w => return (.refused, t.afterSecondStep w.tables)
  | .ok (some accepted) w =>
    match t.getById accepted.userId with
    | none => return (.refused, t.afterSecondStep w.tables)
    | some user => do
      let (tokens, t) ← issueTokens env.tokens (t.afterSecondStep w.tables) inp.tokens user
      return (.success user tokens, t)

/-! ### The middleware -/

/-- What the requests of one tenant share. The last two fields are the claims of all tokens that have been handed out. -/
structure World where
  tables : Tables := {}
  cache : Nat → Option CachedUser := fun _ => none
  allowlist : Nat → List String := fun _ => []
  permissionsChanged : Nat → Bool := fun _ => false
  signed : List Payload := []
  signedAccess : List AccessPayload := []

/-- A bearer token, and the security version of the tenant. -/
structure Bearer where
  token : String
  tenantVer : Int := 0
  now : Int

/-- `get_cached_user`; an entry of an inactive user is dropped. -/
def World.getCachedUser (w : World) (id : Nat) : Option User × World :=
  match w.cache id with
  | none => (none, w)
  | some entry =>
    if entry.isActive then (some (userFromCache entry), w)
    else (none, { w with cache := Function.update w.cache id none })

/-- `_fetch_user_from_db` -/
def World.fetchUser (w : World) (id : Nat) : Option User := (w.tables.getById id).filter (·.isActive)

/-- A user from the database is put into the cache. -/
def World.loadUser (w : World) (id : Nat) : Option User × World :=
  match w.fetchUser id with
  | none => (none, w)
  | some user => (some user, { w with cache := Function.update w.cache id (some (userToCache user)) })

/-- `_get_user_with_timing` -/
def World.getUser (w : World) (id : Nat) : Option User × World :=
  match w.getCachedUser id with
  | (some user, w) => (some user, w)
  | (none, w) => w.loadUser id

/-- The claims of a token that is verified and allowed. -/
def World.allowed (env : LoginEnv) (w : World) (b : Bearer) : Option AccessPayload :=
  (env.decodeAccess b.token).filter fun p => b.now < p.exp * 1000000 && p.jti ≠ "" && p.jti ∈ w.allowlist p.sub

/-- Whether the security versions of the token are the current ones. -/
def current (b : Bearer) (p : AccessPayload) (user : User) : Bool :=
  p.userVer = user.securityVersion && p.tenantVer = b.tenantVer

/-- `AuthMiddleware`, on a path that is not light. -/
def World.authenticate (env : LoginEnv) (w : World) (b : Bearer) : Option User × World :=
  match w.allowed env b with
  | none => (none, w)
  | some p => ((w.getUser p.sub).1.filter (current b p), (w.getUser p.sub).2)

/-! ### Endpoints -/

structure RefreshRequest where
  token : String
  client : Client := {}
  tenantVer : Int := 0
  jti : String
  accessJti : String
  now : Int

def RefreshRequest.input (inp : RefreshRequest) (w : World) : RefreshInput :=
  { token := inp.token, client := inp.client, tenantVer := inp.tenantVer, users := fun id => (w.tables.getById id).map User.token,
    permissionsChanged := w.permissionsChanged, jti := inp.jti, accessJti := inp.accessJti, now := inp.now }

/-- `RefreshService.refresh` -/
def World.refresh (env : LoginEnv) (w : World) (inp : RefreshRequest) : EStateM.Result SessionError SessionTables RefreshResult :=
  (proxy.refresh env.tokens (inp.input w)).run w.tables.refreshTokens

structure LogoutRequest where
  bearer : Option Bearer := none
  /-- The cookie. -/
  token : Option String
  client : Client := {}
  now : Int

inductive Op where
  | login (inp : Step1Input)
  | loginStep2 (inp : Step2Input)
  | refresh (inp : RefreshRequest)
  | logout (inp : LogoutRequest)
  | create (inp : CreateInput)
  | update (inp : UpdateInput)
  | delete (inp : DeleteInput)
  | forgotPassword (email : String) (now : Int) (invite : InvitePayload)
  | resendInvite (userId : Nat) (now : Int) (invite : InvitePayload)
  | setPassword (inp : SetPasswordInput)
  | changePassword (inp : PasswordInput)
  | setInitialPassword (inp : PasswordInput) (tenantDemoMode : Bool) (refusal : Option String) (tokens : TokenInput)
  | updateMe (bearer : Bearer) (inp : ProfileInput)
  | setupAuthenticator (userId : Nat) (secret : String) (now : Int)
  | confirmAuthenticator (inp : ConfirmInput)
  | disableAuthenticator (userId : Nat)
  /-- Any other request with a bearer token. -/
  | request (bearer : Bearer)
  /-- Entries of the stores run out. -/
  | expire (userId : Nat) (cached allowed flag : Bool)

namespace World

variable (env : LoginEnv) (w : World)

def forget (id : Nat) : World := { w with cache := Function.update w.cache id none }

def revoke (id : Nat) : World := { w with allowlist := Function.update w.allowlist id [] }

/-- The tables that a call leaves; where it raises, those from before it. -/
def commit (result : Except UserError Tables) : World := { w with tables := result.toOption.getD w.tables }

/-- Tokens that have been issued to the user are handed out. -/
def handOut (inp : TokenInput) (user : User) : World :=
  { w with
    allowlist := Function.update w.allowlist user.id (inp.accessJti :: w.allowlist user.id)
    signed := w.signed ++ [((inp.issue user).pair env.tokens).1]
    signedAccess := w.signedAccess ++ [inp.access env.tokens user.token] }

def loggedIn (inp : TokenInput) : Except UserError (LoginResult × Tables) → World
  | .ok (.success user _, t) => { w with tables := t }.handOut env inp user
  | .ok (_, t) => { w with tables := t }
  | .error _ => w

/-- The claims of the token that a refresh takes. -/
def refreshClaims (inp : RefreshRequest) : Option Payload := (env.tokens.verify inp.token inp.now).toOption

/-- The claims of the access token that takes the place of `p`'s. -/
def refreshedAccess (inp : RefreshRequest) (p : Payload) : AccessPayload :=
  { sub := p.sub, jti := inp.accessJti, userVer := (inp.input w).userVer p.sub, tenantVer := inp.tenantVer
    role := (((inp.input w).users p.sub).map (·.role)).getD "user"
    exp := (inp.now + Auth.minutes env.tokens.accessExp) / 1000000 }

/-- The tokens are signed; the access token is not allowed where the user is gone. -/
def refreshed (inp : RefreshRequest) (tokens : RefreshSuccess) : World :=
  { w with
    allowlist := match tokens.user with
      | none => w.allowlist
      | some user => Function.update w.allowlist user.id (inp.accessJti :: w.allowlist user.id)
    signed := w.signed ++ ((refreshClaims env inp).map fun p => ((inp.input w).pair env.tokens p).1).toList
    signedAccess := w.signedAccess ++ ((refreshClaims env inp).map (w.refreshedAccess env inp)).toList }

def onRefresh (inp : RefreshRequest) : World :=
  match w.refresh env inp with
  | .ok (.success tokens) sessions =>
    { w.refreshed env inp tokens with tables := { w.tables with refreshTokens := sessions } }
  | .ok (.failed _) sessions => { w with tables := { w.tables with refreshTokens := sessions } }
  | .error _ _ => w

/-- The user of a logout: that of the bearer token, else the one whom the cookie names. -/
def logoutUser (inp : LogoutRequest) (bearer : Option User) : Option Nat :=
  match bearer with
  | some user => some user.id
  | none => ((inp.token.bind fun token => (env.tokens.decode token).toOption).filter (·.typ = "refresh")).map (·.sub)

/-- The session of the cookie is ended, and all access tokens of the user are revoked. -/
def endSession (inp : LogoutRequest) (bearer : Option User) : World :=
  let sessions := match inp.token with
    | none => w.tables.refreshTokens
    | some token =>
      after (proxy.logout env.tokens { token, client := inp.client, now := inp.now }) w.tables.refreshTokens
  let w' : World := { w with tables := { w.tables with refreshTokens := sessions } }
  match logoutUser env inp bearer with
  | none => w'
  | some id => w'.revoke id

def onLogout (inp : LogoutRequest) : World :=
  match inp.bearer with
  | none => w.endSession env inp none
  | some b => (w.authenticate env b).2.endSession env inp (w.authenticate env b).1

/-- The entries of the user go; with a change that counts, the access tokens as well. -/
def onUpdate (inp : UpdateInput) : World :=
  match Users.update w.tables inp with
  | .error _ => w
  | .ok t =>
    let w' := { w with tables := t }.forget inp.userId
    if inp.role.isSome || inp.isActive.isSome || inp.email.isSome then
      { w'.revoke inp.userId with permissionsChanged := Function.update w.permissionsChanged inp.userId true }
    else w'

def onSetInitialPassword (inp : PasswordInput) (tenantDemoMode : Bool) (refusal : Option String) (tokens : TokenInput) : World :=
  match setInitialPasswordDemo w.tables inp tenantDemoMode refusal with
  | .error _ => w
  | .ok t =>
    let w' := { w with tables := t }.forget inp.userId
    match t.getById inp.userId with
    | none => w'
    | some user =>
      match issueTokens env.tokens t tokens user with
      | .error _ => w'
      | .ok (_, t) => { w' with tables := t }.handOut env tokens user

/-- The profile of the user that the middleware has found. -/
def writeProfile (user : User) (inp : ProfileInput) : World :=
  match Users.updateMe w.tables user inp with
  | .error _ => w
  | .ok t => { w with tables := t }.forget user.id

def onUpdateMe (b : Bearer) (inp : ProfileInput) : World :=
  match w.authenticate env b with
  | (none, w') => w'
  | (some user, w') => w'.writeProfile user inp

def expire (id : Nat) (cached allowed flag : Bool) : World :=
  { w with
    cache := if cached then Function.update w.cache id none else w.cache
    allowlist := if allowed then Function.update w.allowlist id [] else w.allowlist
    permissionsChanged := if flag then Function.update w.permissionsChanged id false else w.permissionsChanged }

def step : Op → World
  | .login inp => w.loggedIn env inp.toTokenInput (loginStep1 env w.tables inp)
  | .loginStep2 inp => w.loggedIn env inp.tokens (Users.loginStep2 env w.tables inp)
  | .refresh inp => w.onRefresh env inp
  | .logout inp => w.onLogout env inp
  | .create inp => w.commit ((create w.tables inp).map (·.2))
  | .update inp => w.onUpdate inp
  | .delete inp => (w.revoke inp.userId).commit (Users.delete w.tables inp)
  | .forgotPassword email now invite => w.commit (Users.forgotPassword w.tables email now invite)
  | .resendInvite userId now invite => w.commit (Users.resendInvite w.tables userId now invite)
  | .setPassword inp => w.commit (Users.setPassword w.tables inp)
  | .changePassword inp => w.commit (Users.changePassword env.verifyPassword w.tables inp)
  | .setInitialPassword inp tenantDemoMode refusal tokens => w.onSetInitialPassword env inp tenantDemoMode refusal tokens
  | .updateMe bearer inp => w.onUpdateMe env bearer inp
  | .setupAuthenticator userId secret now =>
    { w with tables := w.tables.upsertPendingSecret userId secret (now + Auth.minutes 10) }
  | .confirmAuthenticator inp => w.commit (confirmAuthenticatorSetup env.auth w.tables inp)
  | .disableAuthenticator userId => { w with tables := Users.disableAuthenticator w.tables userId }
  | .request bearer => (w.authenticate env bearer).2
  | .expire userId cached allowed flag => w.expire userId cached allowed flag

end World

/-- Passwords are their own hashes, logins have no second step, and the tokens of the first login are known. -/
def plainEnv : LoginEnv where
  verifyPassword password hash := password = hash
  twoFactorEnabled := false
  tokens := twoTokens
  decodeAccess token :=
    if token = "a1" then some { sub := 7, jti := "a1", userVer := 0, tenantVer := 0, role := "user", exp := 900 } else none
  auth := Auth.SecondFactor.defaultEnv

/-- User 7 is an ordinary user, and user 1 the owner. -/
def twoUsers : World where
  tables := {
    users := [{ id := 1, email := "owner@example.com", passwordHash := "o", isActive := true, role := "owner" },
              { id := 7, email := "anna@example.com", passwordHash := "secret", isActive := true, role := "user" }]
    nextUserId := 8 }

/-- User 7 logs in. -/
def signIn : Op :=
  .login { jti := "j1", accessJti := "a1", now := 0, email := some "anna@example.com", password := some "secret",
           pendingToken := "9f86d081", codeHash := "" }

def wrongPassword : Op :=
  .login { jti := "j2", accessJti := "a2", now := 60000000, email := some "anna@example.com", password := some "guess",
           pendingToken := "9f86d081", codeHash := "" }

/-- She refreshes the token of her login. -/
def firstRefresh : RefreshRequest := { token := "j1", jti := "j2", accessJti := "a2", now := 60000000 }

end NyzRating.Users
