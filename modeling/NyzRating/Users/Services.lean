import NyzRating.Users.Tables

/-!
# The services of users

Each call is one transaction: where it raises, the tables are those from before it.
-/

namespace NyzRating.Users

open Auth.Refresh

def stripped (text : String) : String := String.ofList (Text.strip text.toList)

/-! ### `UserService` -/

/-- What `new_invite_token_payload` gives: the hash of a random token, and when it expires. -/
structure InvitePayload where
  tokenHash : String
  expiresAt : Int

structure CreateInput where
  email : String
  name : Option String := none
  role : String := "user"
  activateImmediately : Bool := false
  /-- Of a random placeholder. -/
  passwordHash : String
  invite : InvitePayload
  now : Int

def checkedRole (t : Tables) (role : String) : Except UserError Unit :=
  if role = "owner" then
    if t.existsOwner then throw (.valueError "Invalid role. Owner already exists") else return ()
  else if role = "user" ∨ role = "admin" then return ()
  else throw (.valueError "Invalid role. Must be 'user', 'admin' or 'owner' (owner only if none yet)")

def create (t : Tables) (inp : CreateInput) : Except UserError (User × Tables) :=
  let email := stripped inp.email
  if (t.getByEmail email).isSome then throw (.valueError "Email already exists")
  else do
    checkedRole t inp.role
    let (created, t) ← t.create
      { id := 0, email, passwordHash := inp.passwordHash, isActive := true, role := inp.role, name := inp.name.filter (· ≠ "")
        registrationCompletedAt := if inp.activateImmediately then some inp.now else none
        credentialsPasswordSet := false }
    if inp.activateImmediately then return (created, t)
    else
      let t ← t.createInviteToken created.id inp.invite.tokenHash inp.invite.expiresAt
      return (created, t)

/-- Who creates a user has one more. -/
theorem create_length {t t' : Tables} {inp : CreateInput} {user : User} (done : create t inp = .ok (user, t')) :
    t'.users.length = t.users.length + 1 := by
  simp only [create, Tables.create, Fallible.guard_eq_ok, Fallible.bind_eq_ok, Fallible.pure_eq_ok] at done
  obtain ⟨-, _, -, ⟨created, u⟩, ⟨-, -, rfl⟩, done⟩ := done
  split at done
  · cases done
    simp
  · simp only [Tables.createInviteToken, Fallible.bind_eq_ok, Fallible.guard_eq_ok, Fallible.pure_eq_ok, Prod.mk.injEq] at done
    obtain ⟨_, ⟨-, rfl⟩, -, rfl⟩ := done
    simp

structure UpdateInput where
  userId : Nat
  currentUserId : Nat
  name : Option String := none
  isActive : Option Bool := none
  email : Option String := none
  role : Option String := none
  deriving DecidableEq

structure Updates where
  name : Option String := none
  isActive : Option Bool := none
  email : Option String := none
  role : Option String := none
  deriving DecidableEq

def User.withUpdates (u : User) (updates : Updates) : User :=
  { u with
    name := updates.name.or u.name
    isActive := updates.isActive.getD u.isActive
    email := updates.email.getD u.email
    role := updates.role.getD u.role }

def nameUpdate (user : User) (name : Option String) : Option String :=
  (name.map stripped).filter (· ≠ stripped (user.name.getD ""))

def ownerUpdates (user : User) (inp : UpdateInput) : Except UserError Updates :=
  if inp.currentUserId ≠ inp.userId then throw (.valueError "Az owner adatait csak az owner szerkesztheti.")
  else if inp.isActive.isSome || inp.email.isSome || inp.role.isSome then
    throw (.valueError "Owner esetén csak a név módosítható.")
  else return { name := nameUpdate user inp.name }

def memberUpdates (t : Tables) (user : User) (inp : UpdateInput) : Except UserError Updates :=
  if inp.isActive.isSome && inp.userId = inp.currentUserId then
    throw (.valueError "A saját fiók aktiválási állapotát nem módosíthatod.")
  else if inp.email.any fun email => (t.getByEmail email).any (·.id ≠ inp.userId) then
    throw (.valueError "Ez az email már használatban van.")
  else if inp.role.any fun role => inp.userId = inp.currentUserId && user.role = "admin" && role ≠ "admin" then
    throw (.valueError "A saját adminisztrátor szerepköröd nem módosítható.")
  else
    return {
      name := nameUpdate user inp.name
      isActive := inp.isActive
      email := inp.email.filter (· ≠ user.email)
      role := inp.role }

def decidedUpdates (t : Tables) (user : User) (inp : UpdateInput) : Except UserError Updates :=
  if user.isOwner then ownerUpdates user inp else memberUpdates t user inp

def authStateChanged (user : User) (inp : UpdateInput) : Bool :=
  inp.role.any (user.role ≠ ·) || inp.isActive.any (user.isActive ≠ ·)

/-- `UserService.update` -/
def update (t : Tables) (inp : UpdateInput) : Except UserError Tables :=
  match t.getById inp.userId with
  | none => throw (.valueError "User not found")
  | some user => do
    let updates ← decidedUpdates t user inp
    if updates = {} then return t
    else
      let t ← t.update (user.withUpdates updates)
      if authStateChanged user inp then return (t.invalidateSessions user.id).incrementSecurityVersion user.id
      else return t

structure DeleteInput where
  userId : Nat
  currentUserId : Nat
  now : Int
  suffix : String
  passwordHash : String

/-- `UserService.delete` -/
def delete (t : Tables) (inp : DeleteInput) : Except UserError Tables :=
  if inp.userId = inp.currentUserId then throw (.valueError "Saját magad nem törölheted.")
  else
    match t.getById inp.userId with
    | none => throw (.valueError "User not found")
    | some user =>
      if user.isOwner then throw (.valueError "Az ownert nem lehet törölni.")
      else (t.invalidateSessions inp.userId).delete inp.userId inp.now inp.suffix inp.passwordHash

/-- Unused links of the user are taken back, and a new one is made. -/
def inviteAgain (t : Tables) (userId : Nat) (now : Int) (invite : InvitePayload) : Except UserError Tables :=
  (t.invalidateInviteTokens userId now).createInviteToken userId invite.tokenHash invite.expiresAt

def forgotPassword (t : Tables) (email : String) (now : Int) (invite : InvitePayload) : Except UserError Tables :=
  match t.getByEmail (stripped email) with
  | none => return t
  | some user => inviteAgain t user.id now invite

structure PasswordInput where
  userId : Nat
  currentPassword : String := ""
  /-- The hash of the new password. -/
  newHash : String

/-- `pwd_hasher.verify` -/
abbrev VerifyPassword := String → String → Bool

def changePassword (verify : VerifyPassword) (t : Tables) (inp : PasswordInput) : Except UserError Tables :=
  match t.getById inp.userId with
  | none => throw (.valueError "user_not_found")
  | some user =>
    if user.credentialsPasswordSet = false then throw (.valueError "credentials_password_not_set")
    else if verify inp.currentPassword user.passwordHash = false then throw (.valueError "current_password_wrong")
    else do
      let t ← t.updatePassword inp.userId inp.newHash
      t.resetFailedLogin inp.userId

/-- `refusal` is the message of `validate_password_policy`. -/
def setInitialPasswordDemo (t : Tables) (inp : PasswordInput) (tenantDemoMode : Bool) (refusal : Option String) :
    Except UserError Tables :=
  if tenantDemoMode = false then throw (.valueError "not_demo_tenant")
  else
    match refusal with
    | some message => throw (.valueError message)
    | none =>
      match t.getById inp.userId with
      | none => throw (.valueError "user_not_found")
      | some user =>
        if user.credentialsPasswordSet then throw (.valueError "credentials_already_set")
        else do
          let t ← t.updatePassword inp.userId inp.newHash
          let t ← t.resetFailedLogin inp.userId
          return t.incrementSecurityVersion inp.userId

/-! ### `InviteService` -/

structure SetPasswordInput where
  /-- The hash of the token. -/
  tokenHash : String
  newHash : String
  now : Int

/-- The user as the link leaves it. -/
def User.registered (u : User) (ownerExists : Bool) (now : Int) : User :=
  { u with
    isActive := true
    registrationCompletedAt := some now
    failedLoginAttempts := 0
    role := if ownerExists then u.role else "owner" }

/-- The user of a link that may be used. -/
def Tables.linkOwner (t : Tables) (inp : SetPasswordInput) : Option Nat :=
  ((t.getByTokenHash inp.tokenHash).filter fun record => record.usedAt.isNone && inp.now ≤ record.expiresAt).map (·.userId)

def setPassword (t : Tables) (inp : SetPasswordInput) : Except UserError Tables :=
  match (t.getByTokenHash inp.tokenHash).filter (·.usedAt.isNone) with
  | none => throw .inviteTokenInvalid
  | some record =>
    if record.expiresAt < inp.now then throw .inviteTokenExpired
    else do
      let t ← t.updatePassword record.userId inp.newHash
      let t := t.markUsed record.id inp.now
      match t.getById record.userId with
      | none => return t
      | some user => t.update (user.registered t.existsOwner inp.now)

def resendInvite (t : Tables) (userId : Nat) (now : Int) (invite : InvitePayload) : Except UserError Tables :=
  match t.getById userId with
  | none => throw (.valueError "User not found")
  | some user =>
    if user.credentialsPasswordSet then
      throw (.valueError "A felhasználó már beállított jelszót. Csak megerősítésre váró usereknek küldhető link.")
    else if user.isOwner then throw (.valueError "Az owner már aktív.")
    else inviteAgain t userId now invite

/-! ### `UserProfileService` -/

def normalizeLocale (locale : String) : Option String := some (Text.stripLower locale) |>.filter (· ∈ ["hu", "en", "es"])

def normalizeTheme (theme : String) : Option String := some (Text.stripLower theme) |>.filter (· ∈ ["light", "dark"])

structure ProfileInput where
  name : Option String := none
  preferredLocale : Option String := none
  preferredTheme : Option String := none
  deriving DecidableEq

/-- What `build_profile_updates` gives; a column may be set to nothing. -/
structure ProfileUpdates where
  name : Option (Option String) := none
  preferredLocale : Option (Option String) := none
  preferredTheme : Option (Option String) := none
  deriving DecidableEq

def buildProfileUpdates (inp : ProfileInput) : ProfileUpdates where
  name := inp.name.map fun name => some (stripped name) |>.filter (· ≠ "")
  preferredLocale := inp.preferredLocale.map normalizeLocale
  preferredTheme := inp.preferredTheme.map normalizeTheme

def User.withProfile (u : User) (updates : ProfileUpdates) : User :=
  { u with
    name := updates.name.getD u.name
    preferredLocale := updates.preferredLocale.getD u.preferredLocale
    preferredTheme := updates.preferredTheme.getD u.preferredTheme }

/-- Without an e-mail, as on a light path, the stored one is written. -/
def withStoredEmail (t : Tables) (u : User) : User :=
  if u.email = "" then
    match t.getById u.id with
    | some current => if current.email = "" then u else { u with email := current.email }
    | none => u
  else u

/-- `update_me`, with the user that the middleware has put into the request. -/
def updateMe (t : Tables) (user : User) (inp : ProfileInput) : Except UserError Tables :=
  let updates := buildProfileUpdates inp
  if updates = {} then return t
  else t.update (withStoredEmail t (user.withProfile updates))

/-! ### The user cache -/

/-- What `user_to_cache_json` stores. -/
structure CachedUser where
  id : Nat
  email : String
  role : String
  isActive : Bool
  name : Option String
  securityVersion : Int
  preferredLocale : Option String
  preferredTheme : Option String
  credentialsPasswordSet : Bool
  pendingEmail : Option String
  pendingEmailExpiresAt : Option Int
  deriving DecidableEq, Repr

def userToCache (u : User) : CachedUser where
  id := u.id
  email := u.email
  role := u.role
  isActive := u.isActive
  name := u.name
  securityVersion := u.securityVersion
  preferredLocale := u.preferredLocale
  preferredTheme := u.preferredTheme
  credentialsPasswordSet := u.credentialsPasswordSet
  pendingEmail := u.pendingEmail
  pendingEmailExpiresAt := u.pendingEmailExpiresAt

def userFromCache (c : CachedUser) : User where
  id := c.id
  email := c.email
  passwordHash := ""
  isActive := c.isActive
  role := c.role
  name := c.name
  registrationCompletedAt := none
  failedLoginAttempts := 0
  preferredLocale := c.preferredLocale
  preferredTheme := c.preferredTheme
  securityVersion := c.securityVersion
  credentialsPasswordSet := c.credentialsPasswordSet
  pendingEmail := c.pendingEmail

/-! ### Authenticators -/

structure ConfirmInput where
  userId : Nat
  code : String
  now : Int
  timestamp : Int

def confirmAuthenticatorSetup (env : Auth.AuthEnv) (t : Tables) (inp : ConfirmInput) : Except UserError Tables :=
  match t.getPendingSecret inp.userId inp.now with
  | none => throw (.valueError "authenticator_setup_not_started")
  | some secret =>
    match Auth.verifyAuthenticatorCode env secret inp.code inp.timestamp with
    | none => throw (.secondStep .badSecret)
    | some false => throw (.valueError "invalid_authenticator_code")
    | some true =>
      return ((t.enableSecret inp.userId secret).incrementSecurityVersion inp.userId).invalidateSessions inp.userId

def disableAuthenticator (t : Tables) (userId : Nat) : Tables :=
  ((t.disableAuthenticator userId).incrementSecurityVersion userId).invalidateSessions userId

end NyzRating.Users
