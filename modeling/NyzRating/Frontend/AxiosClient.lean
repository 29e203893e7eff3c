import Mathlib.Tactic.Common
import NyzRating.Lib.Lists
import NyzRating.Lib.Run

/-!
# The API client of the browser and its token refresh

Source: `api/axiosClient.ts`, `logout` of `features/auth/state/authStore.ts`. A request is answered, and what awaits it goes
on, at any later time: each of these is a step of its own. Toasts and the change of page are left out.
-/

namespace NyzRating.Frontend.AxiosClient

/-! ### Requests -/

/-- `/^start/` -/
def starts (start url : String) : Bool := start.toList.isPrefixOf url.toList

/-- `/^base(\/|$)/` -/
def under (base url : String) : Bool := url == base || starts (base ++ "/") url

/-- A string of JavaScript that is there and not empty. -/
def truthy (text : Option String) : Bool := text.any (· ≠ "")

inductive CsrfScope where
  | tenant
  | platformAdmin
deriving DecidableEq

inductive Method where
  | get
  | post
  | patch
  | put
  | delete
deriving DecidableEq

/-- `res.data`: what the client reads of it. -/
structure Body where
  csrfToken : Option String := none
  accessToken : Option String := none
deriving DecidableEq

inductive Reply where
  | response (status : Nat) (data : Option Body)
  | networkError
deriving DecidableEq

def Reply.status? : Reply → Option Nat
  | .response status _ => some status
  | .networkError => none

/-- How the promise of a request ends. -/
inductive Outcome where
  | resolved (data : Option Body)
  | rejected
deriving DecidableEq

inductive Phase where
  | inFlight
  /-- The response interceptor awaits this refresh promise. -/
  | awaiting (promise : Nat)
  | settled (outcome : Outcome)
  /-- What awaited the request has gone on. -/
  | finished
deriving DecidableEq

/-- What awaits a request: the application, `fetchCsrfToken`, or `doRefresh` of a refresh promise. -/
inductive Purpose where
  | application
  | fetchCsrf (scope : CsrfScope)
  | refreshCsrf (promise : Nat)
  | refreshPost (promise : Nat)
deriving DecidableEq

structure Request where
  url : String
  method : Method
  purpose : Purpose
  authorization : Option String := none
  csrf : Option String := none
  /-- `_retry` -/
  retry : Bool := false
  phase : Phase := .inFlight
  /-- How often the request has been sent. -/
  sends : Nat := 0
deriving DecidableEq

/-- The refresh promise whose `doRefresh` awaits the request. -/
def Request.owner (r : Request) : Option Nat :=
  match r.purpose with
  | .refreshCsrf p => some p
  | .refreshPost p => some p
  | _ => none

/-- A call of `api` by the rest of the application, which leaves `/auth/refresh` to `doRefresh`. -/
structure AppRequest where
  url : String
  method : Method
  authorization : Option String := none
  elsewhere : under "/auth/refresh" url = false

inductive RefreshPromise where
  | pending
  | resolved (token : Option String)
  | rejected
deriving DecidableEq

structure Client where
  /-- `authStoreAdapter.getToken()` -/
  token : Option String := none
  csrfToken : CsrfScope → Option String := fun _ => none
  requests : List Request := []
  promises : List RefreshPromise := []
  refreshPromise : Option Nat := none

namespace Client

variable (s : Client)

/-! ### The request interceptor -/

def scopeOf (url : String) : CsrfScope := if starts "/platform-admin/" url then .platformAdmin else .tenant

/-- The paths that get no `Authorization` header. -/
def withoutToken : List String :=
  ["/auth/csrf-token", "/auth/login", "/auth/register", "/auth/refresh", "/auth/logout", "/auth/forgot-password",
    "/auth/confirm-email", "/auth/demo-login", "/users/set-password", "/installer/confirm-signup",
    "/platform-admin/auth/login", "/platform-admin/auth/csrf-token", "/platform-admin/auth/refresh",
    "/platform-admin/auth/logout", "/platform-admin/set-password"]

def csrfHeader (r : Request) : Option String :=
  let csrf := s.csrfToken (scopeOf r.url)
  if r.method ≠ .get ∧ truthy csrf then csrf else r.csrf

def authorizationHeader (r : Request) : Option String :=
  if truthy r.authorization then r.authorization
  else if withoutToken.any (under · r.url) then r.authorization
  else if truthy s.token then s.token.map ("Bearer " ++ ·)
  else r.authorization

/-- The request as it leaves the browser. -/
def transmit (r : Request) : Request :=
  { r with
    authorization := s.authorizationHeader r
    csrf := s.csrfHeader r
    phase := .inFlight
    sends := r.sends + 1 }

def send (r : Request) : Client := { s with requests := s.requests ++ [s.transmit r] }

def put (i : Nat) (r : Request) : Client := { s with requests := s.requests.set i r }

/-! ### The refresh -/

/-- `doRefresh` begins with `fetchCsrfToken`. -/
def refreshAccessToken : Client × Nat :=
  match s.refreshPromise with
  | some p => (s, p)
  | none =>
    let p := s.promises.length
    ({ s.send { url := "/auth/csrf-token", method := .get, purpose := .refreshCsrf p } with
        promises := s.promises ++ [.pending]
        refreshPromise := some p }, p)

/-- `logout` of the store, which nobody awaits. -/
def redirectToLogin : Client :=
  { s with token := none }.send { url := "/auth/logout", method := .post, purpose := .application }

/-! ### The response interceptor -/

def onRejected (i : Nat) (r : Request) (status : Option Nat) (pathname : String) : Client :=
  if status ≠ some 401 ∨ r.retry then s.put i { r with phase := .settled .rejected }
  else if starts "/platform-admin" pathname ∧ ¬starts "/auth/" r.url then s.put i { r with phase := .settled .rejected }
  else if under "/auth/login" r.url ∨ under "/auth/register" r.url ∨ starts "/platform-admin/" r.url then
    s.put i { r with phase := .settled .rejected }
  else if under "/auth/refresh" r.url then s.redirectToLogin.put i { r with phase := .settled .rejected }
  else
    let (t, p) := s.refreshAccessToken
    t.put i { r with retry := true, phase := .awaiting p }

/-- The response to request `i`; `pathname` is where the browser is. -/
def answer (i : Nat) (reply : Reply) (pathname : String) : Client :=
  match s.requests[i]? with
  | none => s
  | some r =>
    if r.phase = .inFlight then
      match reply with
      | .response status data =>
        if 200 ≤ status ∧ status < 300 then s.put i { r with phase := .settled (.resolved data) }
        else s.onRejected i r status pathname
      | .networkError => s.onRejected i r none pathname
    else s

/-- The interceptor goes on when the promise it awaits is settled. -/
def resume (i : Nat) : Client :=
  match s.requests[i]? with
  | none => s
  | some r =>
    match r.phase with
    | .awaiting p =>
      match s.promises[p]? with
      | some (.resolved newToken) =>
        s.put i (s.transmit { r with authorization := some ("Bearer " ++ newToken.getD "undefined") })
      | some .rejected => s.redirectToLogin.put i { r with phase := .settled .rejected }
      | _ => s
    | _ => s

/-! ### What awaits a request -/

/-- `fetchCsrfToken` after its request. -/
def storeCsrf (scope : CsrfScope) : Outcome → Client
  | .resolved data =>
    let token := data.bind (·.csrfToken)
    if truthy token then { s with csrfToken := Function.update s.csrfToken scope token } else s
  | .rejected => { s with csrfToken := Function.update s.csrfToken scope none }

/-- `doRefresh` after its `POST`, and the `finally` of its promise. A body that is `null` raises. -/
def concludeRefresh (p : Nat) : Outcome → Client
  | .resolved (some data) =>
    { s with
      token := data.accessToken
      refreshPromise := none
      promises := s.promises.set p (.resolved data.accessToken) }
  | _ => { s with refreshPromise := none, promises := s.promises.set p .rejected }

def proceed (i : Nat) : Client :=
  match s.requests[i]? with
  | none => s
  | some r =>
    match r.phase with
    | .settled outcome =>
      let s := s.put i { r with phase := .finished }
      match r.purpose with
      | .application => s
      | .fetchCsrf scope => s.storeCsrf scope outcome
      | .refreshCsrf p =>
        (s.storeCsrf .tenant outcome).send { url := "/auth/refresh", method := .post, purpose := .refreshPost p }
      | .refreshPost p => s.concludeRefresh p outcome
    | _ => s

end Client

/-! ### Runs -/

inductive Event where
  | request (r : AppRequest)
  /-- `fetchCsrfToken` or `fetchPlatformAdminCsrfToken` -/
  | fetchCsrfToken (scope : CsrfScope)
  | refreshAccessToken
  | setToken (token : Option String)
  | answer (i : Nat) (reply : Reply) (pathname : String)
  | resume (i : Nat)
  | proceed (i : Nat)

def csrfUrl : CsrfScope → String
  | .tenant => "/auth/csrf-token"
  | .platformAdmin => "/platform-admin/auth/csrf-token"

def step (s : Client) : Event → Client
  | .request r => s.send { url := r.url, method := r.method, purpose := .application, authorization := r.authorization }
  | .fetchCsrfToken scope => s.send { url := csrfUrl scope, method := .get, purpose := .fetchCsrf scope }
  | .refreshAccessToken => s.refreshAccessToken.1
  | .setToken token => { s with token := token }
  | .answer i reply pathname => s.answer i reply pathname
  | .resume i => s.resume i
  | .proceed i => s.proceed i

/-- The requests `POST /auth/refresh` that have no answer yet. -/
def postsInFlight (s : Client) : List Request :=
  s.requests.filter fun r => under "/auth/refresh" r.url && r.method == .post && r.phase == .inFlight

/-- The pending refresh promise waits for a request whose interceptor awaits that promise. -/
def WaitsForItself (s : Client) : Prop :=
  ∃ p r, s.refreshPromise = some p ∧ r ∈ s.requests ∧ r.owner = some p ∧ r.phase = .awaiting p

/-- The `fetchCsrfToken` of a `doRefresh` is not answered 401. -/
def CsrfServed (s : Client) : Event → Prop
  | .answer i reply _ => ∀ r p, s.requests[i]? = some r → r.purpose = .refreshCsrf p → r.phase = .inFlight → reply.status? ≠ some 401
  | _ => True

end NyzRating.Frontend.AxiosClient
