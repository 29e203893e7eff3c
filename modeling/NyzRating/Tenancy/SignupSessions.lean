import NyzRating.Lib.Lists
import NyzRating.Lib.Run
import NyzRating.Tenancy.Signup

/-!
# Signup sessions and the review link of a business

The rows of `demo_signup_sessions` with the review link, and the four calls that write them. The cleanup that a signup or a
confirmation begins with now and then is a call of its own. Outside test environments a tenant is made only by the confirmation.

Source: `tenant/signup/orchestrator.py`, `new_demo_signup.py`, `slug/reservation.py`, `repositories/demo_signup_repository.py`.
-/

namespace NyzRating.Tenancy.Business

open Program

/-! ### Review links -/

/-- `rstrip("/")`. -/
def rstripSlash (s : List Char) : List Char := (s.reverse.dropWhile (· = '/')).reverse

def normalizeGoogleReviewUrl (value : String) : String := String.ofList (rstripSlash (Text.strip value.toList))

/-- The letter that `re.IGNORECASE` compares: besides the upper case letters, it takes four others for small ones. -/
def foldChar (c : Char) : Char :=
  if c = '\u0130' ∨ c = '\u0131' then 'i' else if c = '\u017f' then 's' else if c = '\u212a' then 'k' else c.toLower

def isReviewCodeChar (c : Char) : Bool := isSlugLetter (foldChar c) || c = '_' || c = '-'

/-- What the router lets through: `^https://g\.page/r/[A-Za-z0-9_\-]+/review$`, in upper or lower case. -/
def isValidGoogleReviewUrl (url : String) : Bool :=
  let s := url.toList
  let code := (s.drop 17).take (s.length - 24)
  (s.take 17).map foldChar == "https://g.page/r/".toList && !code.isEmpty && code.all isReviewCodeChar &&
    (s.drop (s.length - 7)).map foldChar == "/review".toList

/-- `TRIM` takes blanks only. -/
def sqlTrim (s : List Char) : List Char := ((s.dropWhile (· = ' ')).reverse.dropWhile (· = ' ')).reverse

/-! ### Rows -/

structure Session where
  sessionId : String
  requestedName : String
  email : String
  tenantSlug : String
  createdAt : Int
  verificationToken : Option Nat := none
  verificationExpiresAt : Option Int := none
  verifiedAt : Option Int := none
  completedAt : Option Int := none
  ownerName : Option String := none
  tenantName : Option String := none
  preferredLocale : Option String := none
  planCode : Option String := none
  subscriptionPeriod : Option String := none
  googleReviewUrl : Option String := none
  deriving DecidableEq, Repr

/-- A tenant made by a confirmation, with its owner and its company profile. -/
structure Provisioned where
  slug : String
  tenantName : String
  ownerEmail : String
  ownerName : String
  package : String
  reviewUrl : String
  deriving DecidableEq, Repr

/-- The verification tokens are numbered: the generator repeats none. -/
structure Desk where
  sessions : List Session := []
  provisioned : List Provisioned := []
  /-- The slugs of the tenants that no signup has made. -/
  otherTenants : List String := []
  nextToken : Nat := 0
  deriving DecidableEq, Repr

inductive SignupFailure where
  | invalidEmailDomain
  | disposableEmail
  | nameRequired
  | sessionRequired
  | businessAlreadyExists (tenantSlug : String)
  | emailBlocked
  | disabled
  | capacityReached
  | rateLimited
  | valueError (message : String)
  | invalidSlug
  | verificationInvalid
  | verificationExpired
  | runtimeError (message : String)
  deriving DecidableEq, Repr

abbrev DeskM := EStateM SignupFailure Desk

namespace Desk

variable (s : Desk)

/-- `get_by_slug` finds a tenant. -/
def hasTenant (slug : String) : Bool := s.provisioned.any (·.slug = slug) || s.otherTenants.any (· = slug)

/-- The tenant has a user with the address. -/
def hasOwner (slug email : String) : Bool := s.provisioned.any fun p => p.slug = slug && p.ownerEmail = email

def getReservedSlug (sessionId : String) : Option String := (s.sessions.find? (·.sessionId = sessionId)).map (·.tenantSlug)

/-- `INSERT … ON CONFLICT DO NOTHING`: session id and slug are unique. -/
def reserveSlug (row : Session) : Bool × Desk :=
  if s.sessions.any fun r => r.sessionId = row.sessionId || r.tenantSlug = row.tenantSlug then (false, s)
  else (true, { s with sessions := s.sessions ++ [row] })

def deleteSession (sessionId : String) : Desk := { s with sessions := s.sessions.filter (·.sessionId ≠ sessionId) }

def getPendingByVerificationToken (token : Nat) : Option Session := s.sessions.find? (·.verificationToken = some token)

def isPending (r : Session) : Bool := r.completedAt.isNone && r.verificationToken.isSome

/-- `ORDER BY created_at DESC LIMIT 1`. -/
def latest (p : Session → Bool) : Option Session := Lists.latestBy (fun r t => r.createdAt < t.createdAt) (s.sessions.filter p)

def findLatestPendingSessionByEmail (email : String) : Option Session :=
  let email := Text.stripLower email
  if email = "" then none
  else s.latest fun r => Text.lower (sqlTrim r.email.toList) = email.toList && isPending r

/-- The link of the row is the link asked for: `LOWER(RTRIM(TRIM(…), '/')) = LOWER(:google_review_url)`. -/
def linkMatches (url : String) (r : Session) : Bool :=
  let asked := rstripSlash (Text.strip url.toList)
  asked ≠ [] && Text.lower (rstripSlash (sqlTrim (r.googleReviewUrl.getD "").toList)) = Text.lower asked

def findLatestCompletedByGoogleReviewUrl (url : String) : Option Session :=
  s.latest fun r => linkMatches url r && r.completedAt.isSome && sqlTrim r.tenantSlug.toList ≠ []

def findLatestPendingByGoogleReviewUrl (url : String) : Option Session := s.latest fun r => linkMatches url r && isPending r

def markSession (sessionId : String) (now : Int) : Desk :=
  { s with
    sessions := s.sessions.map fun r =>
      if r.sessionId = sessionId then { r with verifiedAt := some now, completedAt := some now } else r }

/-- What `save_pending_verification` writes. -/
structure Pending where
  expiresAt : Int
  ownerName : String
  tenantName : String
  preferredLocale : String
  planCode : String
  subscriptionPeriod : String
  googleReviewUrl : String
  deriving DecidableEq, Repr

def Pending.write (d : Pending) (token : Nat) (r : Session) : Session :=
  { r with
    verificationToken := some token
    verificationExpiresAt := some d.expiresAt
    verifiedAt := none
    ownerName := some d.ownerName
    tenantName := some d.tenantName
    preferredLocale := some d.preferredLocale
    planCode := some d.planCode
    subscriptionPeriod := some d.subscriptionPeriod
    googleReviewUrl := some d.googleReviewUrl }

/-- The `UPDATE` of a row that is not completed. -/
def writePending (sessionId : String) (d : Pending) (token : Nat) : Desk :=
  { s with
    sessions := s.sessions.map fun r => if r.sessionId = sessionId ∧ r.completedAt = none then d.write token r else r }

def cleanupExpiredPendingSessions (now : Int) : Desk :=
  { s with sessions := s.sessions.filter fun r => !(r.completedAt.isNone && r.verificationExpiresAt.any (· ≤ now)) }

end Desk

/-! ### Signup -/

/-- What the service is configured with. `nfkd` is the compatibility decomposition of a text. -/
structure Config where
  nfkd : List Char → List Char
  verificationTtl : Int

/-- A signup that the router lets through. `domain` is what the check of the address raises, `refusal` what the blocklist and
    the counters do; `mailSent` tells whether the mail to confirm the address is sent. -/
structure SignupCall where
  email : String
  name : String
  companyName : Option String := none
  kbName : Option String := none
  locale : Option String := none
  planCode : Option String := none
  subscriptionPeriod : Option String := none
  demoSessionId : Option String := none
  googleReviewUrl : String
  valid : isValidGoogleReviewUrl googleReviewUrl = true
  now : Int
  domain : Option SignupFailure := none
  refusal : Option SignupFailure := none
  mailSent : Bool := true

namespace SignupCall

variable (c : SignupCall)

def normalizedEmail : String := Text.stripLower c.email

def ownerName : String := stripText c.name

def company : String := stripText (c.companyName.getD "")

/-- The slug is made of the name of the company, or else of the owner. -/
def slugSource : String := firstText [c.company, c.ownerName] ""

def sessionId : String := stripText (c.demoSessionId.getD "")

def reviewUrl : String := normalizeGoogleReviewUrl c.googleReviewUrl

end SignupCall

def supportedDemoLocales : List String := ["hu", "en", "es"]

def normalizeDemoLocale (locale : Option String) : String :=
  let normalized := Text.stripLower (locale.getD "")
  if normalized ∈ supportedDemoLocales then normalized else "hu"

/-- The candidates from `suffix` on, `attempts` of them. -/
def reserveFrom (base : String) (row : Session) : (attempts suffix : Nat) → DeskM String
  | 0, _ => throw (.valueError "slug_generation_failed")
  | attempts + 1, suffix => do
    let candidate := candidateDemoSlug base suffix
    if (← get).hasTenant candidate then reserveFrom base row attempts (suffix + 1)
    else
      let reserved ← modifyGet (·.reserveSlug { row with tenantSlug := candidate })
      if reserved then return candidate
      match ((← get).getReservedSlug row.sessionId).filter (· ≠ "") with
      | none => reserveFrom base row attempts (suffix + 1)
      | some existing =>
        if slugMatchesDemoBase existing base then return existing
        modify (·.deleteSession row.sessionId)
        reserveFrom base row attempts (suffix + 1)

/-- `DemoSlugReserver.reserve`; `row` has the session id, the name and the address. -/
def reserve (cfg : Config) (row : Session) : DeskM String := do
  let base := demoSlugBase cfg.nfkd row.requestedName
  match ((← get).getReservedSlug row.sessionId).filter (· ≠ "") with
  | none => reserveFrom base row 9999 1
  | some existing =>
    if slugMatchesDemoBase existing base then return existing
    modify (·.deleteSession row.sessionId)
    reserveFrom base row 9999 1

/-- `new_invite_token_payload`. -/
def newToken : DeskM Nat := modifyGet fun s => (s.nextToken, { s with nextToken := s.nextToken + 1 })

/-- An `UPDATE` that finds no row raises. -/
def savePendingVerification (sessionId : String) (token : Nat) (d : Desk.Pending) : DeskM Unit := do
  if (← get).sessions.any (fun r => r.sessionId = sessionId ∧ r.completedAt = none) then
    modify (·.writePending sessionId d token)
  else throw (.runtimeError "Pending verification mentése sikertelen")

def sendConfirmSignupEmail (mailSent : Bool) : DeskM Unit := do
  if !mailSent then throw (.runtimeError "A megerősítő email küldése sikertelen.")

/-- Whatever fails, the session is given up. -/
def startPending (cfg : Config) (c : SignupCall) (slug : String) : DeskM Unit := do
  let token ← newToken
  tryCatch
    (do
      savePendingVerification c.sessionId token
        { expiresAt := c.now + cfg.verificationTtl
          ownerName := firstText [c.ownerName] c.company
          tenantName := firstText [stripText (firstText [c.company, c.ownerName, c.kbName.getD ""] slug)] slug
          preferredLocale := normalizeDemoLocale c.locale
          planCode := firstText [Text.stripLower (Billing.orText c.planCode "free")] "free"
          subscriptionPeriod := firstText [Text.stripLower (Billing.orText c.subscriptionPeriod "monthly")] "monthly"
          googleReviewUrl := c.reviewUrl }
      sendConfirmSignupEmail c.mailSent)
    fun e => do
      modify (·.deleteSession c.sessionId)
      throw e

/-- The first two letters of the locale. -/
def shortLocale (locale : String) : String := firstText [String.ofList ((Text.stripLower locale).toList.take 2)] "hu"

def resendPendingVerification (cfg : Config) (email : String) (preferredLocale : Option String) (now : Int) (mailSent : Bool) :
    DeskM Unit := do
  match (← get).findLatestPendingSessionByEmail email with
  | none => throw .verificationInvalid
  | some pending =>
    if pending.verificationExpiresAt.any (· ≤ now) then
      modify (·.deleteSession pending.sessionId)
      throw .verificationExpired
    let token ← newToken
    savePendingVerification pending.sessionId token
      { expiresAt := now + cfg.verificationTtl
        ownerName := firstText [pending.ownerName.getD "", pending.requestedName] pending.tenantSlug
        tenantName := firstText [pending.tenantName.getD "", pending.requestedName] pending.tenantSlug
        preferredLocale := shortLocale (firstText [preferredLocale.getD "", pending.preferredLocale.getD ""] "hu")
        planCode := firstText [pending.planCode.getD ""] "free"
        subscriptionPeriod := firstText [pending.subscriptionPeriod.getD ""] "monthly"
        googleReviewUrl := pending.googleReviewUrl.getD "" }
    sendConfirmSignupEmail mailSent

/-- What the checks of a signup end with. -/
inductive Admission where
  | refused (e : SignupFailure)
  | resend
  | admitted
  deriving DecidableEq, Repr

/-- The checks of `signup`, in their order. -/
def admission (s : Desk) (c : SignupCall) : Admission :=
  match c.domain with
  | some e => .refused e
  | none =>
    if c.slugSource = "" then .refused .nameRequired
    else if c.sessionId = "" then .refused .sessionRequired
    else
      match s.findLatestCompletedByGoogleReviewUrl c.reviewUrl with
      | some existing => .refused (.businessAlreadyExists (Text.stripLower existing.tenantSlug))
      | none =>
        match s.findLatestPendingByGoogleReviewUrl c.reviewUrl with
        | some pending =>
          if Text.stripLower pending.email = c.normalizedEmail then .resend
          else .refused (.businessAlreadyExists (Text.stripLower pending.tenantSlug))
        | none =>
          if (s.findLatestPendingSessionByEmail c.normalizedEmail).any fun pending =>
              let pendingUrl := normalizeGoogleReviewUrl (pending.googleReviewUrl.getD "")
              pendingUrl ≠ "" && pendingUrl = c.reviewUrl then .resend
          else
            match c.refusal with
            | some e => .refused e
            | none => .admitted

def signup (cfg : Config) (c : SignupCall) : DeskM Unit := do
  match admission (← get) c with
  | .refused e => throw e
  | .resend => resendPendingVerification cfg c.normalizedEmail (some (normalizeDemoLocale c.locale)) c.now c.mailSent
  | .admitted =>
    let slug ← reserve cfg
      { sessionId := c.sessionId, requestedName := c.slugSource, email := c.normalizedEmail, tenantSlug := "", createdAt := c.now }
    if !slugIsValid slug then throw .invalidSlug
    startPending cfg c slug

/-! ### Confirmation -/

/-- What is asked of the provisioning, and of the company profile after it. -/
def Session.tenant (r : Session) : Provisioned where
  slug := r.tenantSlug
  tenantName := firstText [r.tenantName.getD "", r.requestedName] r.tenantSlug
  ownerEmail := Text.stripLower r.email
  ownerName := firstText [r.ownerName.getD "", r.requestedName] r.tenantSlug
  package := firstText [Text.stripLower (firstText [r.planCode.getD ""] "free")] "free"
  reviewUrl := normalizeGoogleReviewUrl (r.googleReviewUrl.getD "")

/-- A token that is not known, or whose time is over, raises; one that is completed leads to its tenant again. -/
def confirmAndProvision (token : Nat) (now : Int) : DeskM String := do
  match (← get).getPendingByVerificationToken token with
  | none => throw .verificationInvalid
  | some pending =>
    let slug := pending.tenantSlug
    let email := Text.stripLower pending.email
    if pending.completedAt.isSome ∧ (← get).hasTenant slug ∧ (← get).hasOwner slug email then return slug
    if pending.verificationExpiresAt.any (· ≤ now) ∧ pending.completedAt = none then
      modify (·.deleteSession pending.sessionId)
      throw .verificationExpired
    if !(← get).hasTenant slug then
      modify fun s => { s with provisioned := s.provisioned ++ [pending.tenant] }
    if !(← get).hasOwner slug email then throw (.runtimeError "demo_owner_missing_after_signup")
    modify (·.markSession pending.sessionId now)
    return slug

/-! ### Runs -/

inductive Op where
  | signup (c : SignupCall)
  | resend (email : String) (preferredLocale : Option String) (now : Int) (mailSent : Bool)
  | confirm (token : Nat) (now : Int)
  | cleanup (now : Int)

def step (cfg : Config) (s : Desk) : Op → Desk
  | .signup c => after (signup cfg c) s
  | .resend email preferredLocale now mailSent => after (resendPendingVerification cfg email preferredLocale now mailSent) s
  | .confirm token now => after (confirmAndProvision token now) s
  | .cleanup now => s.cleanupExpiredPendingSessions now

/-- At most one tenant has been made for each review link. -/
def OnePerUrl (s : Desk) : Prop := ∀ url, (s.provisioned.filter (·.reviewUrl = url)).length ≤ 1

/-- The call leaves the completed sessions as they are. -/
def KeepsCompleted (cfg : Config) (s : Desk) (op : Op) : Prop :=
  ∀ r ∈ s.sessions, r.completedAt.isSome → r ∈ (step cfg s op).sessions

/-- A signup that passes its checks does not come with the id of a completed session. -/
def Unclaimed (s : Desk) : Op → Prop
  | .signup c => admission s c = .admitted → ∀ r ∈ s.sessions, r.sessionId = c.sessionId → r.completedAt = none
  | _ => True

end NyzRating.Tenancy.Business
