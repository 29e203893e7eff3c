import NyzRating.Frontend.TokenRefresh

/-!
# The auth store and logging out

Source: `features/auth/state/authStore.ts` over the API client. The token of the store is the `token` of the client; here are
the user and the calls of `loadUser`, each of which awaits a refresh, then its `GET /auth/me`. A logout cancels nothing that is
under way: the page stays signed out as long as no answer that comes late brings a token or a user.
-/

namespace NyzRating.Frontend.AuthStore

open AxiosClient (Client Body Outcome AppRequest truthy starts under)
open Runs

/-! ### The store -/

/-- A call of `loadUser`. -/
inductive Load where
  /-- It awaits the refresh promise. -/
  | refreshing (promise : Nat)
  /-- It awaits `GET /auth/me`. -/
  | asking (request : Nat)
  | over
deriving DecidableEq

structure Page where
  client : Client := {}
  /-- The body of `/auth/me`, of which nothing is read here. -/
  user : Option Body := none
  loadingUser : Bool := true
  loads : List Load := []
  /-- Whether there is a `loadUserPromise`. -/
  loadUserPromise : Bool := false

def me : AppRequest := { url := "/auth/me", method := .get, elsewhere := by decide +kernel }

/-- How the request has ended, before what awaits it goes on. -/
def outcome? (s : Client) (i : Nat) : Option Outcome :=
  match s.requests[i]? with
  | none => none
  | some r =>
    match r.phase with
    | .settled outcome => some outcome
    | _ => none

/-- `await api.get("/auth/me")` -/
def askUser (s : Client) : Client × Load := (AxiosClient.step s (.request me), .asking s.requests.length)

/-- `await refreshAccessToken()` -/
def refreshToken (s : Client) : Client × Load := (s.refreshAccessToken.1, .refreshing s.refreshAccessToken.2)

/-- The response interceptor calls `redirectToLogin`: the refresh itself is answered 401. -/
def redirects (r : AxiosClient.Request) (status : Option Nat) (pathname : String) : Bool :=
  decide (status = some 401) && !r.retry && !(starts "/platform-admin" pathname && !starts "/auth/" r.url) &&
    !(under "/auth/login" r.url || under "/auth/register" r.url || starts "/platform-admin/" r.url) && under "/auth/refresh" r.url

/-- The step ends in `redirectToLogin`, which calls `logout` of the store. -/
def callsLogout (s : Client) : AxiosClient.Event → Bool
  | .answer i reply pathname =>
    match s.requests[i]? with
    | none => false
    | some r => decide (r.phase = .inFlight) && redirects r reply.status? pathname
  | .resume i =>
    match s.requests[i]? with
    | none => false
    | some r =>
      match r.phase with
      | .awaiting p =>
        match s.promises[p]? with
        | some .rejected => true
        | _ => false
      | _ => false
  | _ => false

namespace Page

variable (s : Page)

/-- `set({ user: null, token: null })` -/
def clear : Page := { s with client := { s.client with token := none }, user := none }

/-- The `finally` of `loadUser`. -/
def endLoad (load : Nat) : Page := { s with loadingUser := false, loadUserPromise := false, loads := s.loads.set load .over }

def loadUser : Page :=
  if s.loadUserPromise then s
  else
    let (client, load) := if truthy s.client.token then askUser s.client else refreshToken s.client
    { s with client := client, loadingUser := true, loadUserPromise := true, loads := s.loads ++ [load] }

/-- `loadUser` goes on when the refresh promise that it awaits is settled. -/
def resumeLoad (load : Nat) : Page :=
  match s.loads[load]? with
  | some (.refreshing p) =>
    match s.client.promises[p]? with
    | some (.resolved token) =>
      let (client, next) := askUser { s.client with token := token }
      { s with client := client, loads := s.loads.set load next }
    | some .rejected => s.clear.endLoad load
    | _ => s
  | _ => s

/-- `loadUser` after its request. -/
def concludeLoad (load : Nat) : Outcome → Page
  | .resolved data => { s with user := data }.endLoad load
  | .rejected => s.clear.endLoad load

/-- What awaits the request goes on. -/
def proceed (i : Nat) : Page :=
  let t := { s with client := s.client.proceed i }
  match outcome? s.client i, s.loads.idxOf? (.asking i) with
  | some outcome, some load => t.concludeLoad load outcome
  | _, _ => t

/-- A step of the client. -/
def take (e : AxiosClient.Event) : Page :=
  let t := { s with client := AxiosClient.step s.client e }
  if callsLogout s.client e then { t with user := none, loadUserPromise := false } else t

/-- `redirectToLogin` of the client is this, as the client sees it. -/
def logout : Page := { s with client := s.client.redirectToLogin, user := none, loadUserPromise := false }

end Page

/-! ### Runs -/

inductive Event where
  | client (e : AxiosClient.Event)
  | loadUser
  | resumeLoad (load : Nat)
  | logout

def step (s : Page) : Event → Page
  | .client (.proceed i) => s.proceed i
  | .client e => s.take e
  | .loadUser => s.loadUser
  | .resumeLoad load => s.resumeLoad load
  | .logout => s.logout

/-- `setToken` or `loadUser`, by a user action. -/
def Event.SignsIn : Event → Prop
  | .client (.setToken _) => True
  | .loadUser => True
  | _ => False

structure SignedOut (s : Page) : Prop where
  token : s.client.token = none
  user : s.user = none

/-- The page after a run and a call of `logout`. -/
def afterLogout (before : List Event) : Page := (final step {} before).logout

/-- After the logout, the page is signed out in every state. -/
def LogoutSticks (before after : List Event) : Prop := ∀ n, SignedOut (final step (afterLogout before) (after.take n))

/-- What goes on in the step is neither a `doRefresh` with the token it asked for, nor a `loadUser` with the token of a refresh or
with a user. -/
def Undisturbed (s : Page) : Event → Prop
  | .client (.proceed i) => ∀ r data, s.client.requests[i]? = some r → r.phase = .settled (.resolved (some data)) →
      .asking i ∉ s.loads ∧ ∀ p, r.purpose = .refreshPost p → data.accessToken = none
  | .resumeLoad load => ∀ p token, s.loads[load]? = some (.refreshing p) → s.client.promises[p]? = some (.resolved token) →
      token = none
  | _ => True

/-! ### A page is a run of its client -/

section
variable {s : Page} {c : Client} {e : Event}

def postLogout : AppRequest := { url := "/auth/logout", method := .post, elsewhere := by decide +kernel }

theorem redirectToLogin_eq : c.redirectToLogin = final AxiosClient.step c [.setToken none, .request postLogout] := rfl

@[simp] theorem take_client (s : Page) (e : AxiosClient.Event) : (s.take e).client = AxiosClient.step s.client e := by
  unfold Page.take
  dsimp only
  split <;> rfl

theorem take_steps (s : Page) (e : AxiosClient.Event) : ∃ es, (s.take e).client = final AxiosClient.step s.client es :=
  ⟨[e], take_client s e⟩

/-- What a step does to the client, steps of the client do. -/
theorem client_steps (s : Page) (e : Event) : ∃ es, (step s e).client = final AxiosClient.step s.client es := by
  cases e with
  | client e =>
    cases e with
    | proceed i =>
      simp only [step, Page.proceed]
      split
      · next outcome load _ _ =>
        cases outcome with
        | resolved data => exact ⟨[.proceed i], rfl⟩
        | rejected => exact ⟨[.proceed i, .setToken none], rfl⟩
      · exact ⟨[.proceed i], rfl⟩
    | _ => exact take_steps s _
  | loadUser =>
    simp only [step, Page.loadUser]
    split
    · exact ⟨[], rfl⟩
    · split
      · exact ⟨[.request me], rfl⟩
      · exact ⟨[.refreshAccessToken], rfl⟩
  | resumeLoad load =>
    simp only [step, Page.resumeLoad]
    split
    · split
      · next token _ => exact ⟨[.setToken token, .request me], rfl⟩
      · exact ⟨[.setToken none], rfl⟩
      · exact ⟨[], rfl⟩
    · exact ⟨[], rfl⟩
  | logout => exact ⟨_, redirectToLogin_eq⟩

/-- What the steps of a client keep, the steps of a page keep of its client. -/
theorem client_kept (I : Client → Prop) (kept : ∀ c e, I c → I (AxiosClient.step c e)) (h : I s.client) (e : Event) :
    I (step s e).client := by
  obtain ⟨es, steps⟩ := client_steps s e
  rw [steps]
  exact final_kept I h kept

/-- A page refreshes its token once at a time, and no request of it is sent a third time. -/
theorem page_single_flight (events : List Event) : (AxiosClient.postsInFlight (final step {} events).client).length ≤ 1 ∧
    ∀ r ∈ (final step {} events).client.requests, r.sends ≤ 2 := by
  have sound : AxiosClient.Sound (final step {} events).client :=
    final_kept (fun s : Page => AxiosClient.Sound s.client) AxiosClient.Sound.init fun _ e h =>
      client_kept AxiosClient.Sound (fun _ e sound => sound.step e) h e
  exact ⟨sound.one_post, fun r mem => (sound.fits r mem).sends⟩

end

/-! ### What brings a token -/

section
variable {s : Page} {c : Client} {i : Nat}

@[simp] theorem token_refreshAccessToken : c.refreshAccessToken.1.token = c.token := by
  unfold Client.refreshAccessToken
  split <;> rfl

theorem token_onRejected (i : Nat) (r : AxiosClient.Request) (status : Option Nat) (pathname : String) :
    (c.onRejected i r status pathname).token = if redirects r status pathname then none else c.token := by
  unfold Client.onRejected redirects
  split
  · next passes =>
    rcases passes with other | again
    · simp [other, Client.put]
    · simp [again, Client.put]
  · next asked =>
    obtain ⟨unauthorized, first⟩ : status = some 401 ∧ r.retry = false := by simpa using asked
    split
    · next platform => simp [platform, Client.put]
    · next tenant =>
      split
      · next exempt => rcases exempt with login | register | platform <;> simp [*, Client.put]
      · next other =>
        split
        · next refresh =>
          have tenant : starts "/platform-admin" pathname = false ∨ starts "/auth/" r.url = true := by
            rw [Bool.eq_false_iff, or_iff_not_imp_left, not_not]
            simpa using tenant
          rw [if_pos]
          · rfl
          · simpa [unauthorized, first, refresh, and_assoc] using And.intro tenant other
        · next elsewhere =>
          rw [if_neg (by simp [elsewhere])]
          exact token_refreshAccessToken

theorem token_answer (i : Nat) (reply : AxiosClient.Reply) (pathname : String) :
    (c.answer i reply pathname).token = if callsLogout c (.answer i reply pathname) then none else c.token := by
  cases at_i : c.requests[i]? with
  | none => simp [Client.answer, callsLogout, at_i]
  | some r =>
    simp only [Client.answer, callsLogout, at_i]
    split
    · next flying =>
      cases reply with
      | networkError => simp [token_onRejected, flying, AxiosClient.Reply.status?]
      | response status data =>
        dsimp only
        split
        · next success =>
          have other : status ≠ 401 := by omega
          simp [redirects, AxiosClient.Reply.status?, other, Client.put]
        · simp [token_onRejected, flying, AxiosClient.Reply.status?]
    · next ended => simp [ended]

theorem token_resume (i : Nat) : (c.resume i).token = if callsLogout c (.resume i) then none else c.token := by
  cases at_i : c.requests[i]? with
  | none => simp [Client.resume, callsLogout, at_i]
  | some r =>
    simp only [Client.resume, callsLogout, at_i]
    cases r.phase with
    | awaiting p =>
      dsimp only
      rcases (c.promises[p]?).eq_none_or_eq_some with absent | ⟨promise, found⟩
      · simp [absent]
      · cases promise with
        | rejected => simp [found, Client.put, Client.redirectToLogin, Client.send]
        | _ => simp [found, Client.put]
    | _ => rfl

@[simp] theorem token_storeCsrf (scope : AxiosClient.CsrfScope) (outcome : Outcome) :
    (c.storeCsrf scope outcome).token = c.token := by
  obtain ⟨csrfToken, stores⟩ := @AxiosClient.storeCsrf_eq c scope outcome
  rw [stores]

/-- The client signs in when the answer to the refresh goes on, and only then. -/
theorem token_proceed_iff (out : c.token = none) (i : Nat) :
    (c.proceed i).token = none ↔ ∀ r data p, c.requests[i]? = some r → r.phase = .settled (.resolved (some data)) →
      r.purpose = .refreshPost p → data.accessToken = none := by
  unfold Client.proceed
  split
  · next none_there =>
    exact iff_of_true out fun r _ _ there => by simp [none_there] at there
  · next r there =>
    have only : (∀ r' data p, c.requests[i]? = some r' → r'.phase = .settled (.resolved (some data)) →
        r'.purpose = .refreshPost p → data.accessToken = none) ↔
        ∀ data p, r.phase = .settled (.resolved (some data)) → r.purpose = .refreshPost p → data.accessToken = none := by
      simp only [there, Option.some.injEq]
      constructor
      · exact fun all data p => all r data p rfl
      · rintro own _ data p rfl
        exact own data p
    rw [only]
    split
    · next outcome settled =>
      dsimp only
      split
      · next purpose => exact iff_of_true out (by simp [purpose])
      · next purpose => exact iff_of_true ((token_storeCsrf ..).trans out) (by simp [purpose])
      · next purpose => exact iff_of_true ((token_storeCsrf ..).trans out) (by simp [purpose])
      · next p purpose =>
        cases outcome with
        | rejected => exact iff_of_true out (by simp [settled])
        | resolved data =>
          cases data with
          | none => exact iff_of_true out (by simp [settled])
          | some data => simp [Client.concludeRefresh, settled, purpose]
    · next unsettled => exact iff_of_true out fun data _ settled => absurd settled (unsettled _)

end

/-! ### Staying signed out -/

section
variable {s : Page}

theorem user_take (out : s.user = none) (e : AxiosClient.Event) : (s.take e).user = none := by
  unfold Page.take
  dsimp only
  split
  · rfl
  · exact out

/-- A step of the client that lets no request go on. -/
theorem signedOut_take (out : SignedOut s) (e : AxiosClient.Event) (token : (AxiosClient.step s.client e).token = none) :
    SignedOut (s.take e) where
  token := by
    rw [take_client]
    exact token
  user := user_take out.user e

theorem outcome?_eq_some {c : Client} {i : Nat} {outcome : Outcome} :
    outcome? c i = some outcome ↔ ∃ r, c.requests[i]? = some r ∧ r.phase = .settled outcome := by
  unfold outcome?
  split
  · next none_there => simp [none_there]
  · next r there =>
    simp only [there, Option.some.injEq, exists_eq_left']
    split
    · next settled => simp [settled]
    · next unsettled => exact iff_of_false nofun (unsettled _)

theorem signedOut_resumeLoad_iff (out : SignedOut s) (load : Nat) :
    SignedOut (s.resumeLoad load) ↔ Undisturbed s (.resumeLoad load) := by
  unfold Page.resumeLoad Undisturbed
  split
  · next p at_load =>
    split
    · next token promise =>
      have brought : SignedOut { s with
          client := (askUser { s.client with token := token }).1
          loads := s.loads.set load (askUser { s.client with token := token }).2 } ↔ token = none :=
        ⟨fun signedOut => signedOut.token, fun none => ⟨none, out.user⟩⟩
      rw [brought]
      constructor
      · rintro rfl q token at_load' promise'
        obtain rfl : p = q := by simpa [at_load] using at_load'
        simpa [promise] using promise'.symm
      · exact fun undisturbed => undisturbed p token at_load promise
    · next promise =>
      refine iff_of_true ⟨rfl, rfl⟩ fun q token at_load' promise' => ?_
      obtain rfl : p = q := by simpa [at_load] using at_load'
      simp [promise] at promise'
    · next unsettled _ =>
      refine iff_of_true out fun q token at_load' promise' => ?_
      obtain rfl : p = q := by simpa [at_load] using at_load'
      exact absurd promise' (unsettled token)
  · next other =>
    exact iff_of_true out fun p _ at_load => absurd at_load (other p)

theorem signedOut_proceed_iff (out : SignedOut s) (i : Nat) :
    SignedOut (s.proceed i) ↔ Undisturbed s (.client (.proceed i)) := by
  have token := token_proceed_iff out.token i
  have ends {r : AxiosClient.Request} {outcome : Outcome} (there : s.client.requests[i]? = some r)
      (settled : r.phase = .settled outcome) : outcome? s.client i = some outcome := outcome?_eq_some.mpr ⟨r, there, settled⟩
  unfold Page.proceed Undisturbed
  dsimp only
  split
  · next outcome load ended waits =>
    have waits : Load.asking i ∈ s.loads := by
      by_contra not_there
      rw [List.idxOf?_eq_none_iff.mpr not_there] at waits
      cases waits
    -- the load decides: it clears the store, or sets the user
    cases outcome with
    | rejected =>
      refine iff_of_true ⟨rfl, rfl⟩ fun r data there settled => ?_
      rw [ends there settled] at ended
      cases ended
    | resolved data =>
      cases data with
      | none =>
        refine iff_of_true ⟨token.mpr fun r data p there settled => ?_, rfl⟩ fun r data there settled => ?_
        all_goals
          rw [ends there settled] at ended
          cases ended
      | some data =>
        obtain ⟨r, there, settled⟩ := outcome?_eq_some.mp ended
        refine iff_of_false (fun signedOut => ?_) fun undisturbed => (undisturbed r data there settled).1 waits
        cases signedOut.user
  · next unawaited =>
    have only : SignedOut { s with client := s.client.proceed i } ↔ (s.client.proceed i).token = none :=
      ⟨fun signedOut => signedOut.token, fun token => ⟨token, out.user⟩⟩
    rw [only, token]
    constructor
    · intro brings r data there settled
      refine ⟨fun waits => ?_, fun p purpose => brings r data p there settled purpose⟩
      cases at_load : s.loads.idxOf? (.asking i) with
      | none => exact List.idxOf?_eq_none_iff.mp at_load waits
      | some load => exact unawaited _ load (ends there settled) at_load
    · exact fun undisturbed r data p there settled purpose => (undisturbed r data there settled).2 p purpose

theorem signedOut_take_of_token (out : SignedOut s) {e : AxiosClient.Event}
    (token : (AxiosClient.step s.client e).token = if callsLogout s.client e then none else s.client.token) :
    SignedOut (s.take e) := by
  refine signedOut_take out e (token.trans ?_)
  split
  · rfl
  · exact out.token

/-- What keeps a page that is signed out so. -/
theorem signedOut_step_iff (out : SignedOut s) {e : Event} (later : ¬e.SignsIn) : SignedOut (step s e) ↔ Undisturbed s e := by
  cases e with
  | client e =>
    cases e with
    | proceed i => exact signedOut_proceed_iff out i
    | setToken token => exact absurd trivial later
    | request r => exact iff_of_true (signedOut_take out (.request r) out.token) trivial
    | fetchCsrfToken scope => exact iff_of_true (signedOut_take out (.fetchCsrfToken scope) out.token) trivial
    | refreshAccessToken =>
      exact iff_of_true (signedOut_take out .refreshAccessToken (token_refreshAccessToken.trans out.token)) trivial
    | answer i reply pathname => exact iff_of_true (signedOut_take_of_token out (token_answer ..)) trivial
    | resume i => exact iff_of_true (signedOut_take_of_token out (token_resume i)) trivial
  | loadUser => exact absurd trivial later
  | resumeLoad load => exact signedOut_resumeLoad_iff out load
  | logout => exact iff_of_true ⟨rfl, rfl⟩ trivial

/-- The logout sticks just as long as nothing that is under way brings a token or a user. -/
theorem logout_sticks_iff {before after : List Event} (later : ∀ e ∈ after, ¬e.SignsIn) :
    LogoutSticks before after ↔ Always step Undisturbed (afterLogout before) after :=
  always_iff_kept SignedOut ⟨rfl, rfl⟩ fun _ e mem out => signedOut_step_iff out (later e mem)

/-! ### A calm logout -/

/-- Nothing is under way that could bring a token: no refresh is pending, no request waits for one, no `loadUser` goes on. -/
structure Calm (s : Page) : Prop where
  signedOut : SignedOut s
  sound : AxiosClient.Sound s.client
  idle : s.client.refreshPromise = none
  unawaited : ∀ r ∈ s.client.requests, ∀ p, r.phase ≠ .awaiting p
  loads : ∀ load ∈ s.loads, load = .over

/-- Nobody asks for a refresh, and no request is answered 401. -/
def Unprovoked : Event → Prop
  | .client (.answer _ reply _) => reply.status? ≠ some 401
  | .client .refreshAccessToken => False
  | _ => True

/-- What a calm client does: it keeps its refresh promise, and no interceptor of it comes to wait. -/
structure Quiet (c d : Client) : Prop where
  idle : d.refreshPromise = c.refreshPromise
  unawaited : (∀ r ∈ c.requests, ∀ p, r.phase ≠ .awaiting p) → ∀ r ∈ d.requests, ∀ p, r.phase ≠ .awaiting p

theorem quiet_put {c : Client} (i : Nat) {r : AxiosClient.Request} (passed : ∀ p, r.phase ≠ .awaiting p) :
    Quiet c (c.put i r) where
  idle := rfl
  unawaited := by
    intro calm x mem
    rcases AxiosClient.mem_put mem with rfl | mem
    · exact passed
    · exact calm x mem

theorem quiet_send {c : Client} (r : AxiosClient.Request) : Quiet c (c.send r) where
  idle := rfl
  unawaited := by
    intro calm x mem
    rcases List.mem_append.mp mem with mem | mem
    · exact calm x mem
    · rw [List.mem_singleton.mp mem]
      exact nofun

theorem quiet_answer {c : Client} (i : Nat) {reply : AxiosClient.Reply} (other : reply.status? ≠ some 401) (pathname : String) :
    Quiet c (c.answer i reply pathname) := by
  unfold Client.answer
  split
  · exact ⟨rfl, id⟩
  · split
    · cases reply with
      | networkError =>
        simp only [Client.onRejected, ne_eq, reduceCtorEq, not_false_eq_true, true_or, if_true]
        exact quiet_put i nofun
      | response status data =>
        dsimp only
        split
        · exact quiet_put i nofun
        · rw [Client.onRejected, if_pos (.inl other)]
          exact quiet_put i nofun
    · exact ⟨rfl, id⟩

theorem quiet_resume {c : Client} (unawaited : ∀ r ∈ c.requests, ∀ p, r.phase ≠ .awaiting p) (i : Nat) :
    Quiet c (c.resume i) := by
  unfold Client.resume
  split
  · exact ⟨rfl, id⟩
  · next r at_i =>
    split
    · next p awaiting => exact absurd awaiting (unawaited r (List.mem_of_getElem? at_i) p)
    · exact ⟨rfl, id⟩

/-- Without a pending refresh, no `doRefresh` awaits a request. -/
theorem owner_of_idle {c : Client} (sound : AxiosClient.Sound c) (idle : c.refreshPromise = none) {i : Nat}
    {r : AxiosClient.Request} (at_i : c.requests[i]? = some r) (unfinished : r.phase ≠ .finished) : r.owner = none := by
  by_contra owned
  have pending := sound.owner r (List.mem_of_getElem? at_i) ⟨Option.isSome_iff_ne_none.mpr owned, unfinished⟩
  exact owned (pending.trans idle)

theorem quiet_proceed {c : Client} (sound : AxiosClient.Sound c) (idle : c.refreshPromise = none) (i : Nat) :
    Quiet c (c.proceed i) := by
  unfold Client.proceed
  split
  · exact ⟨rfl, id⟩
  · next r at_i =>
    split
    · next outcome settled =>
      have unowned := owner_of_idle sound idle at_i (by simp [settled])
      have finish : Quiet c (c.put i { r with phase := .finished }) := quiet_put i nofun
      dsimp only
      split
      · exact finish
      · next scope _ =>
        obtain ⟨csrfToken, stores⟩ := @AxiosClient.storeCsrf_eq (c.put i { r with phase := .finished }) scope outcome
        rw [stores]
        exact ⟨finish.idle, finish.unawaited⟩
      · next purpose => simp [AxiosClient.Request.owner, purpose] at unowned
      · next purpose => simp [AxiosClient.Request.owner, purpose] at unowned
    · exact ⟨rfl, id⟩

theorem Calm.undisturbed (h : Calm s) (e : Event) : Undisturbed s e := by
  cases e with
  | client e =>
    cases e with
    | proceed i =>
      intro r data there settled
      refine ⟨fun waits => ?_, fun p posted => ?_⟩
      · cases h.loads _ waits
      · have unowned := owner_of_idle h.sound h.idle there (by simp [settled])
        simp [AxiosClient.Request.owner, posted] at unowned
    | _ => trivial
  | resumeLoad load =>
    intro p _ at_load
    cases h.loads _ (List.mem_of_getElem? at_load)
  | _ => trivial

theorem Calm.proceed (h : Calm s) (i : Nat) : s.proceed i = { s with client := s.client.proceed i } := by
  have unasked : s.loads.idxOf? (.asking i) = none := by
    rw [List.idxOf?_eq_none_iff]
    intro mem
    cases h.loads _ mem
  simp only [Page.proceed, unasked]
  cases outcome? s.client i <;> rfl

theorem Calm.resumeLoad (h : Calm s) (load : Nat) : s.resumeLoad load = s := by
  unfold Page.resumeLoad
  split
  · next p at_load => cases h.loads _ (List.mem_of_getElem? at_load)
  · rfl

theorem loads_take (s : Page) (e : AxiosClient.Event) : (s.take e).loads = s.loads := by
  unfold Page.take
  dsimp only
  split <;> rfl

theorem quiet_take {e : AxiosClient.Event} (quiet : Quiet s.client (AxiosClient.step s.client e)) :
    Quiet s.client (s.take e).client ∧ (s.take e).loads = s.loads := by
  rw [take_client]
  exact ⟨quiet, loads_take s e⟩

/-- What a calm page does in a step. -/
theorem Calm.quiet (h : Calm s) {e : Event} (later : ¬e.SignsIn) (unprovoked : Unprovoked e) :
    Quiet s.client (step s e).client ∧ (step s e).loads = s.loads := by
  cases e with
  | client e =>
    cases e with
    | proceed i =>
      rw [step, h.proceed]
      exact ⟨quiet_proceed h.sound h.idle i, rfl⟩
    | setToken token => exact absurd trivial later
    | refreshAccessToken => exact unprovoked.elim
    | request r => exact quiet_take (quiet_send _)
    | fetchCsrfToken scope => exact quiet_take (quiet_send _)
    | answer i reply pathname => exact quiet_take (quiet_answer i unprovoked pathname)
    | resume i => exact quiet_take (quiet_resume h.unawaited i)
  | loadUser => exact absurd trivial later
  | resumeLoad load =>
    rw [step, h.resumeLoad]
    exact ⟨⟨rfl, id⟩, rfl⟩
  | logout =>
    have sent : Quiet { s.client with token := none } s.client.redirectToLogin := quiet_send _
    exact ⟨⟨sent.idle, sent.unawaited⟩, rfl⟩

theorem Calm.step (h : Calm s) {e : Event} (later : ¬e.SignsIn) (unprovoked : Unprovoked e) : Calm (step s e) := by
  obtain ⟨quiet, loads⟩ := h.quiet later unprovoked
  exact {
    signedOut := (signedOut_step_iff h.signedOut later).mpr (h.undisturbed e)
    sound := client_kept AxiosClient.Sound (fun _ e sound => sound.step e) h.sound e
    idle := quiet.idle.trans h.idle
    unawaited := quiet.unawaited h.unawaited
    loads := by
      rw [loads]
      exact h.loads }

/-- Where nothing is under way at the logout, only a 401 or a new refresh could end it. -/
theorem logout_sticks_of_calm {before after : List Event} (calm : Calm (afterLogout before))
    (later : ∀ e ∈ after, ¬e.SignsIn ∧ Unprovoked e) : LogoutSticks before after := by
  refine (logout_sticks_iff fun e mem => (later e mem).1).mpr ?_
  generalize afterLogout before = s at calm
  induction after generalizing s with
  | nil => trivial
  | cons e after ih =>
    obtain ⟨first, unprovoked⟩ := later e List.mem_cons_self
    exact ⟨calm.undisturbed e, ih (fun e mem => later e (List.mem_cons_of_mem _ mem)) _ (calm.step first unprovoked)⟩

end

/-! ### A refresh that comes late -/

/-- The list of users is answered 401, and the refresh is posted. -/
def refreshing : List Event :=
  [.client (.setToken (some "old")), .client (.request { url := "/users", method := .get, elsewhere := by decide +kernel }),
    .client (.answer 0 (.response 401 none) "/users"),
    .client (.answer 1 (.response 200 (some { csrfToken := some "csrf" })) "/users"), .client (.proceed 1)]

/-- Its answer comes after the logout. -/
def refreshed : List Event :=
  [.client (.answer 2 (.response 200 (some { accessToken := some "new" })) "/login"), .client (.proceed 2)]

theorem refreshed_later : ∀ e ∈ refreshed, ¬e.SignsIn := by
  simp [refreshed, Event.SignsIn]

/-- The refresh that was posted before the logout signs the page in again. -/
theorem not_logout_sticks : ¬ ∀ before after : List Event, (∀ e ∈ after, ¬e.SignsIn) → LogoutSticks before after := by
  intro claim
  have out := (claim refreshing refreshed refreshed_later 2).token
  have back : (final step (afterLogout refreshing) (refreshed.take 2)).client.token = some "new" := by decide +kernel
  rw [out] at back
  cases back

/-- Until the answer goes on, the page is signed out. -/
theorem logout_sticks_refreshing : LogoutSticks refreshing (refreshed.take 1) :=
  (logout_sticks_iff fun e mem => refreshed_later e (List.mem_of_mem_take mem)).mpr ⟨trivial, trivial⟩

end NyzRating.Frontend.AuthStore
