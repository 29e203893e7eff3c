import Mathlib.Logic.Relation
import NyzRating.Frontend.AxiosClient

/-!
# One refresh at a time

A step of the client is a few moves on its requests and refresh promises. Every invariant is shown of the moves.
-/

namespace NyzRating.Frontend.AxiosClient

open Runs Relation

/-! ### Moves -/

def csrfRequest (p : Nat) : Request := { url := "/auth/csrf-token", method := .get, purpose := .refreshCsrf p }

def postRequest (p : Nat) : Request := { url := "/auth/refresh", method := .post, purpose := .refreshPost p }

/-- What one move does to the requests and the promises. An interceptor awaits only for requests of which `K` holds. -/
inductive Move (K : Request → Prop) (s : Client) : Client → Prop where
  | store (token : Option String) (csrfToken : CsrfScope → Option String) :
      Move K s { s with token := token, csrfToken := csrfToken }
  | send (r : Request) (unowned : r.owner = none) (elsewhere : under "/auth/refresh" r.url = false) (fresh : r.sends = 0) :
      Move K s (s.send r)
  | settle {i : Nat} {r : Request} (at_i : s.requests[i]? = some r) (outcome : Outcome)
      (unsettled : r.phase = .inFlight ∨ ∃ p, r.phase = .awaiting p ∧ s.promises[p]? = some .rejected) :
      Move K s (s.put i { r with phase := .settled outcome })
  | await {i p : Nat} {r : Request} (at_i : s.requests[i]? = some r) (flying : r.phase = .inFlight) (first : r.retry = false)
      (elsewhere : under "/auth/refresh" r.url = false) (current : s.refreshPromise = some p) (allowed : K r) :
      Move K s (s.put i { r with retry := true, phase := .awaiting p })
  | resend {i p : Nat} {r : Request} (at_i : s.requests[i]? = some r) (awaiting : r.phase = .awaiting p)
      {token : Option String} (promise : s.promises[p]? = some (.resolved token)) (authorization : Option String) :
      Move K s (s.put i (s.transmit { r with authorization := authorization }))
  | begin (idle : s.refreshPromise = none) : Move K s s.refreshAccessToken.1
  | finish {i : Nat} {r : Request} (at_i : s.requests[i]? = some r) (unowned : r.owner = none) {outcome : Outcome}
      (settled : r.phase = .settled outcome) : Move K s (s.put i { r with phase := .finished })
  | post {i p : Nat} {r : Request} (at_i : s.requests[i]? = some r) (csrf : r.purpose = .refreshCsrf p) {outcome : Outcome}
      (settled : r.phase = .settled outcome) : Move K s ((s.put i { r with phase := .finished }).send (postRequest p))
  | conclude {i p : Nat} {r : Request} (at_i : s.requests[i]? = some r) (posted : r.purpose = .refreshPost p)
      {outcome : Outcome} (settled : r.phase = .settled outcome) {promise : RefreshPromise} (ended : promise ≠ .pending) :
      Move K s
        { s.put i { r with phase := .finished } with refreshPromise := none, promises := s.promises.set p promise }

/-- The request whose interceptor may await in the step, if one does. -/
def Event.allows (K : Request → Prop) (s : Client) : Event → Prop
  | .answer i reply _ => ∀ r, s.requests[i]? = some r → r.phase = .inFlight → reply.status? = some 401 → K r
  | _ => True

section
variable {K : Request → Prop} {s : Client} {i p : Nat} {r : Request}

abbrev Moves (K : Request → Prop) : Client → Client → Prop := ReflTransGen (Move K)

theorem moves_redirectToLogin : Moves K s s.redirectToLogin :=
  .tail (.single (.store none s.csrfToken)) (.send _ rfl (by decide +kernel) rfl)

theorem put_at (at_i : s.requests[i]? = some r) (r' : Request) : (s.put i r').requests[i]? = some r' := by
  obtain ⟨lt, -⟩ := List.getElem?_eq_some_iff.mp at_i
  simp [Client.put, lt]

theorem send_at (at_i : s.requests[i]? = some r) (r' : Request) : (s.send r').requests[i]? = some r := by
  obtain ⟨lt, -⟩ := List.getElem?_eq_some_iff.mp at_i
  simpa [Client.send, List.getElem?_append_left lt] using at_i

/-- The interceptor gives up: the browser goes to the login, and the request fails. -/
theorem moves_giveUp (at_i : s.requests[i]? = some r)
    (unsettled : r.phase = .inFlight ∨ ∃ p, r.phase = .awaiting p ∧ s.promises[p]? = some .rejected) :
    Moves K s (s.redirectToLogin.put i { r with phase := .settled .rejected }) := by
  have at_i : s.redirectToLogin.requests[i]? = some r := @send_at { s with token := none } i r at_i _
  exact moves_redirectToLogin.tail (.settle at_i _ unsettled)

theorem moves_onRejected (at_i : s.requests[i]? = some r) (flying : r.phase = .inFlight) (status : Option Nat) (pathname : String)
    (allowed : status = some 401 → K r) : Moves K s (s.onRejected i r status pathname) := by
  unfold Client.onRejected
  split
  · exact .single (.settle at_i _ (.inl flying))
  · next asked =>
    obtain ⟨unauthorized, first⟩ : status = some 401 ∧ r.retry = false := by simpa using asked
    split
    · exact .single (.settle at_i _ (.inl flying))
    · split
      · exact .single (.settle at_i _ (.inl flying))
      · split
        · exact moves_giveUp at_i (.inl flying)
        · next elsewhere =>
          have elsewhere := Bool.eq_false_iff.mpr elsewhere
          cases current : s.refreshPromise with
          | some p =>
            simp only [Client.refreshAccessToken, current]
            exact .single (.await at_i flying first elsewhere current (allowed unauthorized))
          | none =>
            have begins : Moves K s s.refreshAccessToken.1 := .single (.begin current)
            simp only [Client.refreshAccessToken, current] at begins ⊢
            exact begins.tail (.await (send_at at_i (csrfRequest s.promises.length)) flying first elsewhere rfl (allowed unauthorized))

theorem moves_answer (reply : Reply) (pathname : String) (allowed : (Event.answer i reply pathname).allows K s) :
    Moves K s (s.answer i reply pathname) := by
  unfold Client.answer
  split
  · exact .refl
  · next r at_i =>
    split
    · next flying =>
      cases reply with
      | response status data =>
        dsimp only
        split
        · exact .single (.settle at_i _ (.inl flying))
        · exact moves_onRejected at_i flying _ _ (allowed r at_i flying)
      | networkError => exact moves_onRejected at_i flying _ _ nofun
    · exact .refl

theorem moves_resume : Moves K s (s.resume i) := by
  unfold Client.resume
  split
  · exact .refl
  · next r at_i =>
    split
    · next p awaiting =>
      split
      · next token promise => exact .single (.resend at_i awaiting promise _)
      · next promise => exact moves_giveUp at_i (.inr ⟨p, awaiting, promise⟩)
      · exact .refl
    · exact .refl

theorem storeCsrf_eq (scope : CsrfScope) (outcome : Outcome) :
    ∃ csrfToken, s.storeCsrf scope outcome = { s with csrfToken := csrfToken } := by
  unfold Client.storeCsrf
  split
  · dsimp only
    split
    · exact ⟨_, rfl⟩
    · exact ⟨s.csrfToken, rfl⟩
  · exact ⟨_, rfl⟩

theorem moves_concludeRefresh (at_i : s.requests[i]? = some r) (posted : r.purpose = .refreshPost p) {outcome : Outcome}
    (settled : r.phase = .settled outcome) :
    Moves K s ((s.put i { r with phase := .finished }).concludeRefresh p outcome) := by
  have ends {promise : RefreshPromise} (ended : promise ≠ .pending) := @Move.conclude K s i p r at_i posted outcome settled promise ended
  cases outcome with
  | rejected => exact .single (ends nofun)
  | resolved data =>
    cases data with
    | none => exact .single (ends nofun)
    | some data => exact .tail (.single (@ends (.resolved data.accessToken) nofun)) (.store data.accessToken s.csrfToken)

theorem moves_proceed : Moves K s (s.proceed i) := by
  unfold Client.proceed
  split
  · exact .refl
  · next r at_i =>
    split
    · next outcome settled =>
      dsimp only
      split
      · next purpose => exact .single (.finish at_i (by simp [Request.owner, purpose]) settled)
      · next scope purpose =>
        obtain ⟨csrfToken, stores⟩ := @storeCsrf_eq (s.put i { r with phase := .finished }) scope outcome
        rw [stores]
        exact .tail (.single (.finish at_i (by simp [Request.owner, purpose]) settled)) (.store s.token csrfToken)
      · next p purpose =>
        obtain ⟨csrfToken, stores⟩ := @storeCsrf_eq (s.put i { r with phase := .finished }) .tenant outcome
        rw [stores]
        exact .tail (.single (.store s.token csrfToken)) (.post at_i purpose settled)
      · next p purpose => exact moves_concludeRefresh at_i purpose settled
    · exact .refl

/-- What a step can do. -/
theorem moves_step {e : Event} (allowed : e.allows K s) : Moves K s (step s e) := by
  cases e with
  | request r => exact .single (.send _ rfl r.elsewhere rfl)
  | fetchCsrfToken scope =>
    refine .single (.send _ rfl ?_ rfl)
    cases scope <;> decide +kernel
  | refreshAccessToken =>
    cases current : s.refreshPromise with
    | none => exact .single (.begin current)
    | some p =>
      have same : (step s .refreshAccessToken) = s := by simp only [step, Client.refreshAccessToken, current]
      rw [same]
  | setToken token => exact .single (.store token s.csrfToken)
  | answer i reply pathname => exact moves_answer reply pathname allowed
  | resume i => exact moves_resume
  | proceed i => exact moves_proceed

/-- What every move keeps, a step keeps. -/
theorem step_kept (I : Client → Prop) (kept : ∀ s t, Move K s t → I s → I t) {e : Event} (allowed : e.allows K s) (h : I s) :
    I (step s e) := by
  have moves := moves_step allowed
  generalize step s e = t at moves
  induction moves with
  | refl => exact h
  | tail _ move ih => exact kept _ _ move ih

end

/-! ### The invariant -/

/-- A `doRefresh` still awaits the request. -/
def Request.Owned (r : Request) : Prop := r.owner.isSome ∧ r.phase ≠ .finished

/-- What holds of each request by itself. -/
structure Request.Fits (r : Request) : Prop where
  elsewhere : (∀ p, r.purpose ≠ .refreshPost p) → under "/auth/refresh" r.url = false
  csrf : ∀ p, r.purpose = .refreshCsrf p → r.url = "/auth/csrf-token" ∧ (r.retry = true → r.phase = .awaiting p)
  post : ∀ p, r.purpose = .refreshPost p → under "/auth/refresh" r.url = true ∧ ∀ q, r.phase ≠ .awaiting q
  sends : r.sends ≤ 2
  first : r.retry = false → r.sends ≤ 1
  awaiting : ∀ p, r.phase = .awaiting p → r.retry = true ∧ r.sends ≤ 1

structure Sound (s : Client) : Prop where
  pending : ∀ p, s.promises[p]? = some .pending ↔ s.refreshPromise = some p
  /-- Only the pending refresh awaits a request, and only one. -/
  owner : ∀ r ∈ s.requests, r.Owned → r.owner = s.refreshPromise
  alone : Lists.Apart (fun x y => x.Owned ∧ y.Owned) s.requests
  fits : ∀ r ∈ s.requests, r.Fits

section
variable {s : Client} {i p : Nat} {r r' : Request}

theorem Sound.at (h : Sound s) (at_i : s.requests[i]? = some r) : r.Fits := h.fits r (List.mem_of_getElem? at_i)

theorem mem_put (mem : r ∈ (s.put i r').requests) : r = r' ∨ r ∈ s.requests := (List.mem_or_eq_of_mem_set mem).symm

/-- A request that is owned just where it was before. -/
theorem Sound.put (h : Sound s) (at_i : s.requests[i]? = some r) (fits : r'.Fits) (same : r'.owner = r.owner)
    (owned : r'.Owned → r.Owned) : Sound (s.put i r') where
  pending := h.pending
  owner := by
    intro x mem x_owned
    rcases mem_put mem with rfl | mem
    · rw [same]
      exact h.owner r (List.mem_of_getElem? at_i) (owned x_owned)
    · exact h.owner x mem x_owned
  alone := by
    refine h.alone.set And.symm fun j y other at_j both => other ?_
    exact h.alone j i y r at_j at_i ⟨both.2, owned both.1⟩
  fits := by
    intro x mem
    rcases mem_put mem with rfl | mem
    · exact fits
    · exact h.fits x mem

theorem Sound.concat (h : Sound s) (fits : r.Fits)
    (alone : r.Owned → r.owner = s.refreshPromise ∧ ∀ x ∈ s.requests, ¬x.Owned) :
    Sound { s with requests := s.requests ++ [r] } where
  pending := h.pending
  owner := by
    intro x mem owned
    rcases List.mem_append.mp mem with mem | mem
    · exact h.owner x mem owned
    · obtain rfl := List.mem_singleton.mp mem
      exact (alone owned).1
  alone := h.alone.concat And.symm fun x mem both => (alone both.1).2 x mem both.2
  fits := by
    intro x mem
    rcases List.mem_append.mp mem with mem | mem
    · exact h.fits x mem
    · obtain rfl := List.mem_singleton.mp mem
      exact fits

/-- A request that goes on without waiting. -/
theorem Request.Fits.passed (h : r.Fits) (tried : ∀ p, r.purpose = .refreshCsrf p → r.retry = false) {phase : Phase}
    (passed : ∀ p, phase ≠ .awaiting p) : Request.Fits { r with phase := phase } where
  elsewhere := h.elsewhere
  csrf := fun p csrf => ⟨(h.csrf p csrf).1, fun retry => absurd (tried p csrf) (ne_false_of_eq_true retry)⟩
  post := fun p post => ⟨(h.post p post).1, passed⟩
  sends := h.sends
  first := h.first
  awaiting := fun p awaiting => absurd awaiting (passed p)

/-- The CSRF request of a refresh has been tried once, unless it waits. -/
theorem Request.Fits.tried (h : r.Fits) (passed : ∀ p, r.phase ≠ .awaiting p) (csrf : r.purpose = .refreshCsrf p) :
    r.retry = false := by
  cases retry : r.retry with
  | false => rfl
  | true => exact absurd ((h.csrf p csrf).2 retry) (passed p)

theorem fresh_fits (unowned : r.owner = none) (elsewhere : under "/auth/refresh" r.url = false) (fresh : r.sends = 0) :
    (s.transmit r).Fits where
  elsewhere := fun _ => elsewhere
  csrf := by
    intro p csrf
    have csrf : r.purpose = .refreshCsrf p := csrf
    simp [Request.owner, csrf] at unowned
  post := by
    intro p post
    have post : r.purpose = .refreshPost p := post
    simp [Request.owner, post] at unowned
  sends := by
    show r.sends + 1 ≤ 2
    omega
  first := by
    intro
    show r.sends + 1 ≤ 1
    omega
  awaiting := nofun

/-- The second time a request is sent is the last. -/
theorem Request.Fits.again (h : r.Fits) {authorization : Option String} (awaiting : r.phase = .awaiting p)
    (other : ∀ q, r.purpose ≠ .refreshCsrf q) : (s.transmit { r with authorization := authorization }).Fits where
  elsewhere := h.elsewhere
  csrf := fun q csrf => absurd csrf (other q)
  post := fun q post => ⟨(h.post q post).1, nofun⟩
  sends := Nat.succ_le_succ (h.awaiting p awaiting).2
  first := fun first => absurd first (ne_false_of_eq_true (h.awaiting p awaiting).1)
  awaiting := nofun

theorem csrf_fits : (s.transmit (csrfRequest p)).Fits where
  elsewhere := fun _ => (by decide +kernel : under "/auth/refresh" "/auth/csrf-token" = false)
  csrf := fun _ _ => ⟨rfl, nofun⟩
  post := nofun
  sends := (by decide : 1 ≤ 2)
  first := fun _ => Nat.le_refl 1
  awaiting := nofun

theorem post_fits : (s.transmit (postRequest p)).Fits where
  elsewhere := fun other => absurd rfl (other p)
  csrf := nofun
  post := fun _ _ => ⟨(by decide +kernel : under "/auth/refresh" "/auth/refresh" = true), nofun⟩
  sends := (by decide : 1 ≤ 2)
  first := fun _ => Nat.le_refl 1
  awaiting := nofun

/-- Once the request that the refresh awaits is finished, it awaits none. -/
theorem Sound.unowned (h : Sound s) (at_i : s.requests[i]? = some r) (owned : r.Owned) :
    ∀ x ∈ (s.put i { r with phase := .finished }).requests, ¬x.Owned := by
  intro x mem x_owned
  obtain ⟨j, at_j⟩ := List.mem_iff_getElem?.mp mem
  rcases Lists.getElem?_set_cases at_j with ⟨-, rfl⟩ | ⟨other, old⟩
  · exact x_owned.2 rfl
  · exact other (h.alone j i x r old at_i ⟨x_owned, owned⟩)

theorem Sound.idle (h : Sound s) (idle : s.refreshPromise = none) : ∀ x ∈ s.requests, ¬x.Owned := by
  intro x mem owned
  have none_owned := owned.1
  rw [h.owner x mem owned, idle] at none_owned
  cases none_owned

theorem Sound.begin (h : Sound s) (idle : s.refreshPromise = none) : Sound s.refreshAccessToken.1 := by
  have none_owned := h.idle idle
  have started : Sound { s with promises := s.promises ++ [.pending], refreshPromise := some s.promises.length } :=
    { pending := by
        intro p
        constructor
        · intro at_p
          rcases Lists.getElem?_concat_cases at_p with old | ⟨rfl, -⟩
          · rw [(h.pending p).mp old] at idle
            cases idle
          · rfl
        · intro current
          obtain rfl := Option.some.inj current
          exact List.getElem?_concat_length
      owner := fun x mem owned => absurd owned (none_owned x mem)
      alone := h.alone
      fits := h.fits }
  simp only [Client.refreshAccessToken, idle]
  exact started.concat csrf_fits fun _ => ⟨rfl, none_owned⟩

/-- A refresh that awaits no request is over. -/
theorem Sound.over (h : Sound s) (current : s.refreshPromise = some p) (none_owned : ∀ x ∈ s.requests, ¬x.Owned)
    {promise : RefreshPromise} (ended : promise ≠ .pending) :
    Sound { s with refreshPromise := none, promises := s.promises.set p promise } where
  pending := by
    intro q
    refine iff_of_false (fun at_q => ?_) nofun
    rcases Lists.getElem?_set_cases at_q with ⟨-, same⟩ | ⟨other, old⟩
    · exact ended same.symm
    · have same := current.symm.trans ((h.pending q).mp old)
      exact other (Option.some.inj same).symm
  owner := fun x mem owned => absurd owned (none_owned x mem)
  alone := h.alone
  fits := h.fits

/-- The request that the pending refresh awaits does not get past that promise. -/
theorem Sound.not_csrf (h : Sound s) (at_i : s.requests[i]? = some r) (awaiting : r.phase = .awaiting p)
    {promise : RefreshPromise} (at_p : s.promises[p]? = some promise) (ended : promise ≠ .pending) (q : Nat) :
    r.purpose ≠ .refreshCsrf q := by
  intro csrf
  have fits := h.at at_i
  have same : r.phase = .awaiting q := (fits.csrf q csrf).2 (fits.awaiting p awaiting).1
  obtain rfl : p = q := by simpa [awaiting] using same
  have owner : r.owner = some p := by simp [Request.owner, csrf]
  have current : s.refreshPromise = some p :=
    (h.owner r (List.mem_of_getElem? at_i) ⟨by simp [owner], by simp [awaiting]⟩).symm.trans owner
  have pending := (h.pending p).mpr current
  rw [pending] at at_p
  exact ended (Option.some.inj at_p).symm

theorem Sound.finish (h : Sound s) (at_i : s.requests[i]? = some r) {outcome : Outcome} (settled : r.phase = .settled outcome) :
    Sound (s.put i { r with phase := .finished }) := by
  refine h.put at_i ((h.at at_i).passed (fun p csrf => (h.at at_i).tried ?_ csrf) nofun) rfl fun owned => absurd rfl owned.2
  simp [settled]

theorem Sound.move {K : Request → Prop} {t : Client} (move : Move K s t) (h : Sound s) : Sound t := by
  cases move with
  | store token csrfToken => exact ⟨h.pending, h.owner, h.alone, h.fits⟩
  | send r unowned elsewhere fresh =>
    refine h.concat (fresh_fits unowned elsewhere fresh) fun owned => ?_
    have owner : r.owner.isSome := owned.1
    simp [unowned] at owner
  | @settle i r at_i outcome unsettled =>
    have fits := h.at at_i
    refine h.put at_i (fits.passed (fun p csrf => ?_) nofun) rfl fun owned => ⟨owned.1, ?_⟩
    · rcases unsettled with flying | ⟨q, awaiting, promise⟩
      · exact fits.tried (by simp [flying]) csrf
      · exact absurd csrf (h.not_csrf at_i awaiting promise nofun p)
    · rcases unsettled with flying | ⟨q, awaiting, -⟩
      · simp [flying]
      · simp [awaiting]
  | @await i p r at_i flying first elsewhere current allowed =>
    have fits := h.at at_i
    have owned : r.owner.isSome → r.Owned := fun owner => ⟨owner, by simp [flying]⟩
    refine h.put at_i ?_ rfl fun o => owned o.1
    exact {
      elsewhere := fits.elsewhere
      csrf := by
        intro q csrf
        refine ⟨(fits.csrf q csrf).1, fun _ => ?_⟩
        have owner : r.owner = some q := by
          have csrf : r.purpose = .refreshCsrf q := csrf
          simp [Request.owner, csrf]
        have same := (h.owner r (List.mem_of_getElem? at_i) (owned (by simp [owner]))).symm.trans owner
        obtain rfl := Option.some.inj (current.symm.trans same)
        rfl
      post := by
        intro q post
        rw [(fits.post q post).1] at elsewhere
        cases elsewhere
      sends := fits.sends
      first := nofun
      awaiting := fun _ _ => ⟨rfl, fits.first first⟩ }
  | resend at_i awaiting promise authorization =>
    refine h.put at_i ((h.at at_i).again awaiting (h.not_csrf at_i awaiting promise nofun)) rfl fun owned => ⟨owned.1, ?_⟩
    simp [awaiting]
  | begin idle => exact h.begin idle
  | finish at_i unowned settled => exact h.finish at_i settled
  | @post i p r at_i csrf outcome settled =>
    have owned : r.Owned := ⟨by simp [Request.owner, csrf], by simp [settled]⟩
    have current := h.owner r (List.mem_of_getElem? at_i) owned
    refine (h.finish at_i settled).concat post_fits fun _ => ⟨?_, h.unowned at_i owned⟩
    exact Eq.trans (by simp [Request.owner, csrf, postRequest, Client.transmit]) current
  | @conclude i p r at_i posted outcome settled promise ended =>
    have owned : r.Owned := ⟨by simp [Request.owner, posted], by simp [settled]⟩
    have current := h.owner r (List.mem_of_getElem? at_i) owned
    refine (h.finish at_i settled).over (p := p) ?_ (h.unowned at_i owned) ended
    exact current.symm.trans (by simp [Request.owner, posted])

theorem Sound.init : Sound {} where
  pending := fun p => by simp
  owner := fun _ mem => absurd mem List.not_mem_nil
  alone := fun _ _ _ _ at_i => absurd at_i (by simp)
  fits := fun _ mem => absurd mem List.not_mem_nil

theorem Event.allows_any (e : Event) : e.allows (fun _ => True) s := by
  cases e with
  | answer => exact fun _ _ _ _ => trivial
  | _ => trivial

theorem Sound.step (h : Sound s) (e : Event) : Sound (step s e) := step_kept Sound (fun _ _ => Sound.move) e.allows_any h

theorem sound_run (events : List Event) : Sound (final AxiosClient.step {} events) :=
  final_kept Sound Sound.init fun _ e h => h.step e

/-! ### Waiting for itself -/

/-- The request is awaited by the refresh that it awaits. -/
def Request.Stuck (r : Request) : Prop := ∃ p, r.owner = some p ∧ r.phase = .awaiting p

theorem Sound.waitsForItself_iff (h : Sound s) : WaitsForItself s ↔ ∃ r ∈ s.requests, r.Stuck := by
  constructor
  · rintro ⟨p, r, -, mem, owner, awaiting⟩
    exact ⟨r, mem, p, owner, awaiting⟩
  · rintro ⟨r, mem, p, owner, awaiting⟩
    have current := h.owner r mem ⟨by simp [owner], by simp [awaiting]⟩
    exact ⟨p, r, current.symm.trans owner, mem, owner, awaiting⟩

theorem not_stuck_of_passed (passed : ∀ p, r.phase ≠ .awaiting p) : ¬r.Stuck := fun ⟨p, _, awaiting⟩ => passed p awaiting

theorem unstuck_put (h : ∀ x ∈ s.requests, ¬x.Stuck) (fine : ¬r'.Stuck) : ∀ x ∈ (s.put i r').requests, ¬x.Stuck := by
  intro x mem
  rcases mem_put mem with rfl | mem
  · exact fine
  · exact h x mem

theorem unstuck_send (h : ∀ x ∈ s.requests, ¬x.Stuck) (r : Request) : ∀ x ∈ (s.send r).requests, ¬x.Stuck := by
  intro x mem
  rcases List.mem_append.mp mem with mem | mem
  · exact h x mem
  · obtain rfl := List.mem_singleton.mp mem
    exact not_stuck_of_passed nofun

/-- An interceptor that awaits for another request than the one of `doRefresh` makes no cycle. -/
theorem unstuck_move {t : Client} (move : Move (fun r => ∀ p, r.purpose ≠ .refreshCsrf p) s t) (sound : Sound s)
    (h : ∀ x ∈ s.requests, ¬x.Stuck) : ∀ x ∈ t.requests, ¬x.Stuck := by
  cases move with
  | store token csrfToken => exact h
  | send r unowned elsewhere fresh => exact unstuck_send h r
  | settle at_i outcome unsettled => exact unstuck_put h (not_stuck_of_passed nofun)
  | @await i p r at_i flying first elsewhere current allowed =>
    refine unstuck_put h ?_
    rintro ⟨q, owner, -⟩
    have post : r.purpose = .refreshPost q := by
      cases purpose : r.purpose with
      | refreshCsrf p => exact absurd purpose (allowed p)
      | refreshPost p => simpa [Request.owner, purpose] using owner
      | _ => simp [Request.owner, purpose] at owner
    have here := (sound.at at_i).post q post
    rw [here.1] at elsewhere
    cases elsewhere
  | resend at_i awaiting promise authorization => exact unstuck_put h (not_stuck_of_passed nofun)
  | begin idle =>
    simp only [Client.refreshAccessToken, idle]
    exact unstuck_send h _
  | finish at_i unowned settled => exact unstuck_put h (not_stuck_of_passed nofun)
  | @post i p r at_i csrf outcome settled =>
    have finished : ∀ x ∈ (s.put i { r with phase := .finished }).requests, ¬x.Stuck := unstuck_put h (not_stuck_of_passed nofun)
    exact unstuck_send finished _
  | conclude at_i posted settled ended => exact unstuck_put h (not_stuck_of_passed nofun)

theorem unstuck_step {e : Event} (sound : Sound s) (served : CsrfServed s e) (h : ∀ x ∈ s.requests, ¬x.Stuck) :
    ∀ x ∈ (step s e).requests, ¬x.Stuck := by
  have allowed : e.allows (fun r => ∀ p, r.purpose ≠ .refreshCsrf p) s := by
    cases e with
    | answer i reply pathname =>
      intro r at_i flying unauthorized p csrf
      exact served r p at_i csrf flying unauthorized
    | _ => trivial
  exact (step_kept (fun t => Sound t ∧ ∀ x ∈ t.requests, ¬x.Stuck)
    (fun _ _ move both => ⟨both.1.move move, unstuck_move move both.1 both.2⟩) allowed ⟨sound, h⟩).2

/-- Wherever the browser is: no exemption of the interceptor names the path of the CSRF token. -/
theorem answer_csrf (at_i : s.requests[i]? = some r) (flying : r.phase = .inFlight) (first : r.retry = false)
    (url : r.url = "/auth/csrf-token") (current : s.refreshPromise = some p) {reply : Reply}
    (unauthorized : reply.status? = some 401) (pathname : String) :
    s.answer i reply pathname = s.put i { r with retry := true, phase := .awaiting p } := by
  have auth : starts "/auth/" r.url = true := by
    rw [url]
    decide +kernel
  have exempt : ¬(under "/auth/login" r.url = true ∨ under "/auth/register" r.url = true ∨ starts "/platform-admin/" r.url = true) := by
    rw [url]
    decide +kernel
  have other : ¬under "/auth/refresh" r.url = true := by
    rw [url]
    decide +kernel
  have asks : s.onRejected i r (some 401) pathname = s.put i { r with retry := true, phase := .awaiting p } := by
    unfold Client.onRejected
    rw [if_neg (by simp [first]), if_neg (by simp [auth]), if_neg exempt, if_neg other]
    simp only [Client.refreshAccessToken, current]
  cases reply with
  | networkError => cases unauthorized
  | response status data =>
    obtain rfl : status = 401 := by simpa [Reply.status?] using unauthorized
    simpa [Client.answer, at_i, flying] using asks

/-- Where it is answered 401, its interceptor awaits the refresh that awaits it. -/
theorem stuck_of_unserved {e : Event} (sound : Sound s) (unserved : ¬CsrfServed s e) : ∃ x ∈ (step s e).requests, x.Stuck := by
  cases e with
  | answer i reply pathname =>
    obtain ⟨r, p, at_i, csrf, flying, unauthorized⟩ :
        ∃ r p, s.requests[i]? = some r ∧ r.purpose = .refreshCsrf p ∧ r.phase = .inFlight ∧ reply.status? = some 401 := by
      simpa [CsrfServed] using unserved
    have fits := sound.at at_i
    have first : r.retry = false := fits.tried (by simp [flying]) csrf
    have owner : r.owner = some p := by simp [Request.owner, csrf]
    have current : s.refreshPromise = some p :=
      (sound.owner r (List.mem_of_getElem? at_i) ⟨by simp [owner], by simp [flying]⟩).symm.trans owner
    have awaits : step s (.answer i reply pathname) = s.put i { r with retry := true, phase := .awaiting p } :=
      answer_csrf at_i flying first (fits.csrf p csrf).1 current unauthorized pathname
    rw [awaits]
    exact ⟨_, List.mem_of_getElem? (put_at at_i _), p, owner, rfl⟩
  | _ => exact absurd trivial unserved

theorem waitsForItself_step (sound : Sound s) (free : ¬WaitsForItself s) (e : Event) :
    ¬WaitsForItself (step s e) ↔ CsrfServed s e := by
  have unstuck : ∀ x ∈ s.requests, ¬x.Stuck := fun x mem stuck => free (sound.waitsForItself_iff.mpr ⟨x, mem, stuck⟩)
  rw [(sound.step e).waitsForItself_iff]
  constructor
  · intro free
    by_contra unserved
    exact free (stuck_of_unserved sound unserved)
  · rintro served ⟨x, mem, stuck⟩
    exact unstuck_step sound served unstuck x mem stuck

/-- A `POST /auth/refresh` without an answer is that of the pending refresh. -/
theorem Sound.posted (h : Sound s) (mem : r ∈ postsInFlight s) : r ∈ s.requests ∧ r.Owned ∧ r.phase = .inFlight := by
  obtain ⟨mem, ⟨url, -⟩, flying⟩ : r ∈ s.requests ∧ (under "/auth/refresh" r.url = true ∧ r.method = .post) ∧
      r.phase = .inFlight := by
    simpa [postsInFlight] using mem
  refine ⟨mem, ⟨?_, by simp [flying]⟩, flying⟩
  cases purpose : r.purpose with
  | refreshPost p => simp [Request.owner, purpose]
  | _ =>
    rw [(h.fits r mem).elsewhere (by simp [purpose])] at url
    cases url

theorem Sound.one_post (h : Sound s) : (postsInFlight s).length ≤ 1 :=
  h.alone.length_filter_le_one fun _ mem posted => (h.posted (List.mem_filter.mpr ⟨mem, posted⟩)).2.1

theorem put_elsewhere {j : Nat} {x : Request} (at_i : s.requests[i]? = some r) (at_j : s.requests[j]? = some x)
    (other : x.phase ≠ r.phase) : (s.put j r').requests[i]? = some r := by
  have apart : j ≠ i := by
    rintro rfl
    rw [at_i] at at_j
    exact other (congrArg Request.phase (Option.some.inj at_j).symm)
  exact (List.getElem?_set_ne apart).trans at_i

/-- No move touches the request. -/
theorem Sound.stuck_move {K : Request → Prop} {t : Client} (move : Move K s t) (h : Sound s) (at_i : s.requests[i]? = some r)
    (owner : r.owner = some p) (awaiting : r.phase = .awaiting p) : t.requests[i]? = some r := by
  have current : s.refreshPromise = some p :=
    (h.owner r (List.mem_of_getElem? at_i) ⟨by simp [owner], by simp [awaiting]⟩).symm.trans owner
  have pending := (h.pending p).mpr current
  cases move with
  | store token csrfToken => exact at_i
  | send x unowned elsewhere fresh => exact send_at at_i x
  | @settle j x at_j outcome unsettled =>
    refine put_elsewhere at_i at_j fun same => ?_
    rcases unsettled with flying | ⟨q, waits, promise⟩
    · simp [awaiting, flying] at same
    · obtain rfl : q = p := by simpa [awaiting, waits] using same
      rw [pending] at promise
      cases promise
  | await at_j flying first elsewhere current allowed => exact put_elsewhere at_i at_j (by simp [awaiting, flying])
  | @resend j q x at_j waits token promise authorization =>
    refine put_elsewhere at_i at_j fun same => ?_
    obtain rfl : q = p := by simpa [awaiting, waits] using same
    rw [pending] at promise
    cases promise
  | begin idle =>
    rw [idle] at current
    cases current
  | finish at_j unowned settled => exact put_elsewhere at_i at_j (by simp [awaiting, settled])
  | @post j q x at_j csrf outcome settled =>
    have kept : (s.put j { x with phase := .finished }).requests[i]? = some r :=
      put_elsewhere at_i at_j (by simp [awaiting, settled])
    exact send_at kept _
  | conclude at_j posted settled ended => exact put_elsewhere at_i at_j (by simp [awaiting, settled])

/-- A refresh that waits for itself does so for ever, and is never posted. -/
theorem waitsForItself_forever (sound : Sound s) (waits : WaitsForItself s) (events : List Event) :
    WaitsForItself (final step s events) ∧ postsInFlight (final step s events) = [] := by
  obtain ⟨p, r, -, mem, owner, awaiting⟩ := waits
  obtain ⟨i, at_i⟩ := List.mem_iff_getElem?.mp mem
  have kept : Sound (final step s events) ∧ (final step s events).requests[i]? = some r :=
    final_kept (fun t => Sound t ∧ t.requests[i]? = some r) ⟨sound, at_i⟩ fun t e h =>
      step_kept (fun t => Sound t ∧ t.requests[i]? = some r)
        (fun _ _ move both => ⟨both.1.move move, both.1.stuck_move move both.2 owner awaiting⟩) e.allows_any h
  generalize final step s events = t at kept ⊢
  obtain ⟨sound, at_i⟩ := kept
  have owned : r.Owned := ⟨by simp [owner], by simp [awaiting]⟩
  have mem := List.mem_of_getElem? at_i
  refine ⟨sound.waitsForItself_iff.mpr ⟨r, mem, p, owner, awaiting⟩, ?_⟩
  rw [List.eq_nil_iff_forall_not_mem]
  intro x posted
  obtain ⟨mem, also, flying⟩ := sound.posted posted
  obtain ⟨j, at_j⟩ := List.mem_iff_getElem?.mp mem
  obtain rfl := sound.alone i j r x at_i at_j ⟨owned, also⟩
  obtain rfl := Option.some.inj (at_i.symm.trans at_j)
  rw [awaiting] at flying
  cases flying

/-- Of the CSRF request of each refresh the server must not say 401: then, and only then, no refresh ever waits for itself. -/
theorem refresh_single_flight (events : List Event) :
    (∀ n, (postsInFlight (final step {} (events.take n))).length ≤ 1 ∧
      ∀ r ∈ (final step {} (events.take n)).requests, r.sends ≤ 2) ∧
    ((∀ n, ¬WaitsForItself (final step {} (events.take n))) ↔ Always step CsrfServed {} events) := by
  constructor
  · intro n
    have sound := sound_run (events.take n)
    exact ⟨sound.one_post, fun r mem => (sound.fits r mem).sends⟩
  · have kept := @always_iff_kept Client Event step CsrfServed {} (fun s => Sound s ∧ ¬WaitsForItself s)
      events ⟨Sound.init, fun ⟨_, _, current, _⟩ => nomatch current⟩
      fun s e _ h => ⟨fun next => (waitsForItself_step h.1 h.2 e).mp next.2,
        fun served => ⟨h.1.step e, (waitsForItself_step h.1 h.2 e).mpr served⟩⟩
    rw [← kept]
    exact forall_congr' fun n => ⟨fun free => ⟨sound_run _, free⟩, fun both => both.2⟩

end

/-! ### A session that freezes -/

/-- A page without a token asks for the user, and the server refuses the CSRF request of the refresh. -/
theorem waits_for_itself : WaitsForItself (final step {} [.refreshAccessToken, .answer 0 (.response 401 none) "/chat"]) :=
  ⟨0, { url := "/auth/csrf-token", method := .get, purpose := .refreshCsrf 0, retry := true, phase := .awaiting 0, sends := 1 },
    by decide +kernel, by decide +kernel, rfl, rfl⟩

end NyzRating.Frontend.AxiosClient
