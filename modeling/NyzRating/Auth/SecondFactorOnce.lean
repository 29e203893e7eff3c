import Mathlib.Logic.Function.Iterate
import NyzRating.Auth.SecondFactor

/-!
# Second steps at the same time

Second steps of logins, each in a read-committed transaction. A call reads its pending token, the secret, the counters and
the e-mailed code one after the other, as the last commit has left them. It marks the code and deletes the token under the
locks of the two rows, and what it writes is seen by the others when it commits.
-/

namespace NyzRating.Auth.SecondStep

open Program Runs

/-! ### Transactions -/

inductive Phase where
  | waiting
  /-- The pending token is found. -/
  | pending (userId : Nat)
  /-- The secret is read; these counters are still to be read. -/
  | counting (userId : Nat) (secret : Option String) (keys : List (AttemptScope × String))
  /-- The second factor is right: a code of the authenticator, or the e-mailed one with this id. -/
  | accepted (userId : Nat) (secret : Option String) (code : Option Nat)
  | marked (userId : Nat) (secret : Option String) (code : Option Nat)
  | consumed (userId : Nat) (secret : Option String) (code : Option Nat)
  /-- The call has committed and returned, or has raised. -/
  | ended (result : Option LoginSuccess) (code : Option Nat)
  deriving DecidableEq, Repr

structure LoginCall where
  inp : LoginInput
  phase : Phase := .waiting

structure State where
  tables : AuthTables
  calls : List LoginCall

/-- The rest of a call, and its commit. -/
def settle (m : LoginM (Option LoginSuccess)) (t : AuthTables) : AuthTables × Option LoginSuccess :=
  let ends := committed m { tables := t }
  (ends.1.tables, ends.2.join)

/-- A call whose second factor is refused. -/
def refused (m : LoginM Bool) (t : AuthTables) : AuthTables × Phase :=
  ((settle (do let _ ← m; return none) t).1, .ended none none)

def attemptScopes (inp : LoginInput) (userId : Nat) : Option String → List (AttemptScope × String)
  | some _ => authenticatorAttemptScopes userId inp.pendingToken inp.ip
  | none => emailAttemptScopes userId inp

def blocked (env : AuthEnv) (inp : LoginInput) (t : AuthTables) (key : AttemptScope × String) : Option String → Bool
  | some _ => t.isBlocked inp.now env.authenticatorMaxAttempts env.authenticatorWindowMinutes key
  | none => t.isBlocked inp.now env.maxAttempts env.attemptWindowMinutes key

/-- What follows a wrong code. -/
def wrongCode (svc : LoginAudit) (env : AuthEnv) (inp : LoginInput) (userId : Nat) : Option String → LoginM Bool
  | some _ => do
    modify (·.evaluated (inp.wrongCode userId))
    let blockedNow ← recordAuthenticatorFailedAttempt env inp userId
    svc.log inp .login2faFailed userId [("reason", "invalid_authenticator_code")]
    if blockedNow then throw .tooManyAttempts else return false
  | none => do
    let _ ← recordAttempts inp.now env.maxAttempts env.attemptWindowMinutes (emailAttemptScopes userId inp)
    svc.log inp .login2faFailed userId [("reason", "invalid_code")]
    return false

/-- The factor, where its counters are not full: the e-mailed code, if there is one, or nothing where it is wrong. -/
def acceptedCode (env : AuthEnv) (inp : LoginInput) (t : AuthTables) (userId : Nat) : Option String → Option (Option Nat)
  | some secret => if verifyAuthenticatorCode env secret inp.twoFactorCode inp.timestamp = some true then some none else none
  | none => (t.getValidCode env inp.now userId inp.twoFactorCode).map fun code => some code.id

/-- What a call writes that has accepted its second factor. -/
def finish (svc : LoginAudit) (inp : LoginInput) (userId : Nat) (secret : Option String) (code : Option Nat) :
    LoginM (Option LoginSuccess) := do
  modify fun w =>
    let t := w.tables.resetForSuccess inp.pendingToken userId inp.ip
    { w with tables := code.elim t t.markAsUsed }
  svc.loginSucceeded inp userId (if secret.isSome then "authenticator" else "email")

/-- The rows that a call has written and holds the locks of. -/
structure Locks where
  codes : List Nat
  tokens : List String

def LoginCall.next (svc : LoginAudit) (env : AuthEnv) (locks : Locks) (t : AuthTables) (c : LoginCall) : AuthTables × Phase :=
  match c.phase with
  | .waiting =>
    match t.getUserId c.inp.now c.inp.pendingToken with
    | none => (t, .ended none none)
    | some userId => (t, .pending userId)
  | .pending userId =>
    let secret := t.getEnabledSecret userId
    (t, .counting userId secret (attemptScopes c.inp userId secret))
  | .counting userId secret (key :: keys) =>
    if blocked env c.inp t key secret then refused (svc.rateLimited c.inp userId .tooManyAttempts) t
    else (t, .counting userId secret keys)
  | .counting userId secret [] =>
    match acceptedCode env c.inp t userId secret with
    | some code => (t, .accepted userId secret code)
    | none =>
      if secret.any fun secret => verifyAuthenticatorCode env secret c.inp.twoFactorCode c.inp.timestamp = none then
        (t, .ended none none)
      else refused (tryCatch (wrongCode svc env c.inp userId secret) (svc.rateLimited c.inp userId)) t
  | .accepted userId secret code =>
    if code.any (· ∈ locks.codes) then (t, c.phase) else (t, .marked userId secret code)
  | .marked userId secret code =>
    if c.inp.pendingToken ∈ locks.tokens then (t, c.phase) else (t, .consumed userId secret code)
  | .consumed userId secret code =>
    let ends := settle (finish svc c.inp userId secret code) t
    (ends.1, .ended ends.2 code)
  | .ended result code => (t, .ended result code)

/-- The e-mailed code that the call has accepted. -/
def LoginCall.code (c : LoginCall) : Option Nat :=
  match c.phase with
  | .accepted _ _ code => code
  | .marked _ _ code => code
  | .consumed _ _ code => code
  | .ended _ code => code
  | _ => none

def LoginCall.marking (c : LoginCall) : Option Nat :=
  match c.phase with
  | .marked _ _ code => code
  | .consumed _ _ code => code
  | _ => none

def LoginCall.consuming (c : LoginCall) : Option String :=
  match c.phase with
  | .consumed .. => some c.inp.pendingToken
  | _ => none

def State.locks (s : State) : Locks := { codes := s.calls.filterMap (·.marking), tokens := s.calls.filterMap (·.consuming) }

def step (svc : LoginAudit) (env : AuthEnv) (s : State) (i : Nat) : State :=
  match s.calls[i]? with
  | none => s
  | some c =>
    let next := c.next svc env s.locks s.tables
    { tables := next.1, calls := s.calls.set i { c with phase := next.2 } }

/-! ### Once -/

def LoginCall.succeeded (c : LoginCall) : Bool :=
  match c.phase with
  | .ended (some _) _ => true
  | _ => false

/-- Two calls with one token, or with one e-mailed code, do not both succeed. -/
structure UsedOnce (s : State) : Prop where
  token : ∀ (i j : Nat) (c d : LoginCall), s.calls[i]? = some c → s.calls[j]? = some d → c.succeeded = true → d.succeeded = true →
    c.inp.pendingToken = d.inp.pendingToken → i = j
  code : ∀ (i j : Nat) (c d : LoginCall), s.calls[i]? = some c → s.calls[j]? = some d → c.succeeded = true → d.succeeded = true →
    ∀ k, c.code = some k → d.code = some k → i = j

/-- The call has accepted its second factor, and has not ended. -/
def LoginCall.accepting (c : LoginCall) : Bool :=
  match c.phase with
  | .accepted .. => true
  | .marked .. => true
  | .consumed .. => true
  | _ => false

/-- What the call accepts next: an e-mailed code, or the code of an authenticator. -/
def LoginCall.accepts (env : AuthEnv) (t : AuthTables) (c : LoginCall) : Option (Option Nat) :=
  match c.phase with
  | .counting userId secret [] => acceptedCode env c.inp t userId secret
  | _ => none

/-- When a call accepts its second factor, its pending token is still there, and no other call is under way that has
    accepted one with the same token or the same e-mailed code. -/
def AcceptsAlone (env : AuthEnv) (s : State) (i : Nat) : Prop :=
  ∀ c ∈ s.calls[i]?, ∀ code ∈ c.accepts env s.tables,
    (∃ row ∈ s.tables.pending2fa, row.token = c.inp.pendingToken) ∧
      ∀ d ∈ s.calls, d.accepting = true → d.inp.pendingToken ≠ c.inp.pendingToken ∧ ∀ k ∈ code, d.code ≠ some k

instance (env : AuthEnv) (s : State) (i : Nat) : Decidable (AcceptsAlone env s i) :=
  inferInstanceAs (Decidable (∀ c ∈ s.calls[i]?, ∀ code ∈ c.accepts env s.tables, _ ∧ _))

/-! ### The invariant -/

/-- The call has accepted its second factor, and has not failed. -/
def LoginCall.engaged (c : LoginCall) : Prop := c.accepting = true ∨ c.succeeded = true

/-- No token comes back, and no e-mailed code becomes usable again. -/
structure Shrinks (t u : AuthTables) : Prop where
  pending : ∀ r ∈ u.pending2fa, r ∈ t.pending2fa
  codes : ∀ r ∈ u.twoFactorCodes, r.used = false → ∃ r₀ ∈ t.twoFactorCodes, r₀.id = r.id ∧ r₀.used = false

/-- What a call has spent stays spent. -/
structure Spent (t : AuthTables) (c : LoginCall) : Prop where
  token : ∀ r ∈ t.pending2fa, r.token ≠ c.inp.pendingToken
  code : ∀ k, c.code = some k → ∀ r ∈ t.twoFactorCodes, r.id = k → r.used = true

/-- Both calls count on the same pending token. -/
def SameToken (c d : LoginCall) : Prop := c.engaged ∧ d.engaged ∧ c.inp.pendingToken = d.inp.pendingToken

/-- Both calls count on the same e-mailed code. -/
def SameCode (c d : LoginCall) : Prop := c.engaged ∧ d.engaged ∧ ∃ k, c.code = some k ∧ d.code = some k

structure Sound (s : State) : Prop where
  spent : ∀ c ∈ s.calls, c.succeeded = true → Spent s.tables c
  token : Lists.Apart SameToken s.calls
  code : Lists.Apart SameCode s.calls

section
variable {svc : LoginAudit} {env : AuthEnv} {s : State} {t u v : AuthTables} {c d : LoginCall} {i : Nat}

theorem Shrinks.refl (t : AuthTables) : Shrinks t t := ⟨fun _ => id, fun r mem unused => ⟨r, mem, rfl, unused⟩⟩

theorem Spent.shrinks (h : Spent t c) (shrinks : Shrinks t u) : Spent u c where
  token r mem := h.token r (shrinks.pending r mem)
  code k own r mem id := by
    cases used : r.used with
    | true => rfl
    | false =>
      obtain ⟨r₀, mem₀, id₀, unused⟩ := shrinks.codes r mem used
      rw [h.code k own r₀ mem₀ (id₀.trans id)] at unused
      cases unused

/-- One call goes on. Where it has come to accept its second factor, or has succeeded, nobody else has with the same token or
    the same code. -/
theorem Sound.set (h : Sound s) (shrinks : Shrinks s.tables t) (spent : d.succeeded = true → Spent t d)
    (alone : ∀ j e, j ≠ i → s.calls[j]? = some e → ¬SameToken d e ∧ ¬SameCode d e) :
    Sound { tables := t, calls := s.calls.set i d } where
  spent e mem succeeded := by
    rcases List.mem_or_eq_of_mem_set mem with old | rfl
    · exact (h.spent e old succeeded).shrinks shrinks
    · exact spent succeeded
  token := h.token.set (fun ⟨c, d, same⟩ => ⟨d, c, same.symm⟩) fun j e other at_j => (alone j e other at_j).1
  code := h.code.set (fun ⟨c, d, k, own_c, own_d⟩ => ⟨d, c, k, own_d, own_c⟩) fun j e other at_j => (alone j e other at_j).2

/-- A call that does not accept anything goes on. -/
theorem Sound.idle (h : Sound s) (shrinks : Shrinks s.tables t) (idle : ¬d.engaged) :
    Sound { tables := t, calls := s.calls.set i d } :=
  h.set shrinks (fun succeeded => absurd (.inr succeeded) idle) fun _ _ _ _ => ⟨fun same => idle same.1, fun same => idle same.1⟩

/-- A call that has accepted its second factor goes on. -/
theorem Sound.go_on (h : Sound s) (at_i : s.calls[i]? = some c) (engaged : c.engaged) (inp : d.inp = c.inp) (code : d.code = c.code)
    (shrinks : Shrinks s.tables t) (spent : d.succeeded = true → Spent t d) :
    Sound { tables := t, calls := s.calls.set i d } := by
  refine h.set shrinks spent fun j e other at_j => ⟨?_, ?_⟩
  · rintro ⟨-, engaged_e, same⟩
    exact other (h.token j i e c at_j at_i ⟨engaged_e, engaged, same.symm.trans (congrArg _ inp)⟩)
  · rintro ⟨-, engaged_e, k, own_d, own_e⟩
    exact other (h.code j i e c at_j at_i ⟨engaged_e, engaged, k, own_e, code ▸ own_d⟩)

/-! ### Steps -/

theorem acceptedCode_spec {inp : LoginInput} {userId : Nat} {secret : Option String} {k : Nat}
    (accepted : acceptedCode env inp t userId secret = some (some k)) : ∃ r ∈ t.twoFactorCodes, r.id = k ∧ r.used = false := by
  cases secret with
  | some secret =>
    simp only [acceptedCode] at accepted
    split at accepted
    · cases accepted
    · cases accepted
  | none =>
    obtain ⟨r, found, same⟩ := Option.map_eq_some_iff.mp accepted
    have holds := List.find?_some found
    simp only [decide_eq_true_eq] at holds
    exact ⟨r, List.mem_of_find?_eq_some found, Option.some.inj same, holds.2.2.1⟩

/-- The second factor is accepted while nobody else has come as far with its token or its code. -/
theorem Sound.accept (h : Sound s) (at_i : s.calls[i]? = some c) {userId : Nat} {secret : Option String} {code : Option Nat}
    (phase : c.phase = .counting userId secret []) (accepted : acceptedCode env c.inp s.tables userId secret = some code)
    (alone : AcceptsAlone env s i) :
    Sound { s with calls := s.calls.set i { c with phase := .accepted userId secret code } } := by
  have accepts : c.accepts env s.tables = some code := by simp only [LoginCall.accepts, phase, accepted]
  obtain ⟨⟨row, mem_row, token⟩, others⟩ := alone c at_i code accepts
  refine h.set (.refl _) nofun fun j e other at_j => ⟨?_, ?_⟩
  · rintro ⟨-, engaged_e, same⟩
    have mem_e := List.mem_of_getElem? at_j
    rcases engaged_e with accepting | succeeded
    · exact (others e mem_e accepting).1 same.symm
    · exact (h.spent e mem_e succeeded).token row mem_row (token.trans same)
  · rintro ⟨-, engaged_e, k, own, own_e⟩
    have mem_e := List.mem_of_getElem? at_j
    simp only [LoginCall.code] at own
    subst own
    rcases engaged_e with accepting | succeeded
    · exact (others e mem_e accepting).2 k rfl own_e
    · obtain ⟨r, mem_r, id, unused⟩ := acceptedCode_spec accepted
      rw [(h.spent e mem_e succeeded).code k own_e r mem_r id] at unused
      cases unused

/-- The tokens and the codes of the tables. -/
structure Holds (pending : List Pending2FA) (codes : List TwoFactorCode) (w : World) : Prop where
  pending : w.tables.pending2fa = pending
  codes : w.tables.twoFactorCodes = codes

variable {inp : LoginInput} {pending : List Pending2FA} {codes : List TwoFactorCode} {userId : Nat} {code : Option Nat}

theorem log_holds (action : AuditLogAction) (details : List (String × String)) :
    Returns (Holds pending codes) (svc.log inp action userId details) (fun _ => Holds pending codes) fun _ => True :=
  (svc.log_keeps (fun _ _ h => ⟨h.pending, h.codes⟩) action details).mono (fun _ _ h => h) fun _ _ => trivial

theorem recordAttempts_holds (now limit window : Int) (keys : List (AttemptScope × String)) :
    Returns (Holds pending codes) (recordAttempts now limit window keys) (fun _ => Holds pending codes) fun _ => True :=
  (recordAttempts_keeps (fun _ _ h => ⟨h.pending, h.codes⟩) now limit window keys).mono (fun _ _ h => h) fun _ _ => trivial

theorem wrongCode_holds {secret : Option String} :
    Returns (Holds pending codes) (wrongCode svc env inp userId secret) (fun _ => Holds pending codes) fun _ => True := by
  cases secret with
  | some secret =>
    refine .bind (R := fun _ => Holds pending codes) (.modify fun _ h => ⟨h.pending, h.codes⟩) fun _ => ?_
    refine .bind (recordAttempts_holds _ _ _ _) fun _ => .bind (log_holds _ _) fun _ => ?_
    exact .ite (fun _ => .throw fun _ _ => trivial) fun _ => .pure fun _ h => h
  | none => exact .bind (recordAttempts_holds _ _ _ _) fun _ => .bind (log_holds _ _) fun _ => .pure fun _ h => h

theorem refused_shrinks {m : LoginM Bool}
    (h : ∀ {pending codes}, Returns (Holds pending codes) m (fun _ => Holds pending codes) fun _ => True) (t : AuthTables) :
    Shrinks t (refused m t).1 := by
  have whole : Returns (· = ({ tables := t } : World)) (do let _ ← m; return (none : Option LoginSuccess))
      (fun _ => Holds t.pending2fa t.twoFactorCodes) fun _ => True := by
    have body : Returns (Holds t.pending2fa t.twoFactorCodes) (do let _ ← m; return (none : Option LoginSuccess))
        (fun _ => Holds t.pending2fa t.twoFactorCodes) fun _ => True := .bind h fun _ => .pure fun _ holds => holds
    rintro w rfl
    exact body _ ⟨rfl, rfl⟩
  unfold refused settle
  rcases committed_forms whole with raised | ⟨_, u, holds, returned⟩
  · rw [raised]
    exact .refl t
  · rw [returned]
    refine ⟨fun r mem => holds.pending ▸ mem, fun r mem unused => ⟨r, ?_, rfl, unused⟩⟩
    exact holds.codes ▸ mem

def markedCodes (codes : List TwoFactorCode) (code : Option Nat) : List TwoFactorCode :=
  code.elim codes fun k => codes.map fun r => if r.id = k then { r with used := true } else r

/-- A call that has accepted its second factor deletes its token and marks its code, whatever it returns. -/
theorem finish_holds {secret : Option String} : Returns (· = ({ tables := t } : World)) (finish svc inp userId secret code)
    (fun _ => Holds (t.pending2fa.filter (·.token ≠ inp.pendingToken)) (markedCodes t.twoFactorCodes code)) fun _ => True := by
  refine .bind (R := fun _ => Holds t.pending2fa (markedCodes t.twoFactorCodes code)) (.modify ?_) fun _ => ?_
  · rintro w rfl
    cases code with
    | none => exact ⟨rfl, rfl⟩
    | some k => exact ⟨rfl, rfl⟩
  · refine .bind (R := fun _ => Holds (t.pending2fa.filter (·.token ≠ inp.pendingToken)) (markedCodes t.twoFactorCodes code))
      (.modify fun w h => ⟨congrArg (List.filter _) h.pending, h.codes⟩) fun _ => ?_
    refine .bind (R := fun _ => Holds (t.pending2fa.filter (·.token ≠ inp.pendingToken)) (markedCodes t.twoFactorCodes code))
      (.get fun _ h => h) fun x => ?_
    cases x.tables.getUser userId with
    | none => exact .pure fun _ h => h
    | some user =>
      refine .ite (fun _ => .bind (log_holds _ _) fun _ => .bind (log_holds _ _) fun _ => ?_) fun _ => .pure fun _ h => h
      refine .ite (fun _ => ?_) fun _ => .throw fun _ _ => trivial
      exact .bind (R := fun _ => Holds _ _) (.modify fun _ h => ⟨h.pending, h.codes⟩) fun _ => .pure fun _ h => h

/-- A call that is not past its second factor. -/
theorem not_engaged {phase : Phase} (idle : ({ c with phase } : LoginCall).accepting = false)
    (failed : ({ c with phase } : LoginCall).succeeded = false) : ¬({ c with phase } : LoginCall).engaged := by
  rintro (accepting | succeeded)
  · rw [idle] at accepting
    cases accepting
  · rw [failed] at succeeded
    cases succeeded

/-- The call commits. -/
theorem Sound.finish (h : Sound s) (at_i : s.calls[i]? = some c) {secret : Option String}
    (phase : c.phase = .consumed userId secret code) : Sound {
      tables := (settle (finish svc c.inp userId secret code) s.tables).1
      calls := s.calls.set i { c with phase := .ended (settle (finish svc c.inp userId secret code) s.tables).2 code } } := by
  have engaged : c.engaged := .inl (by simp only [LoginCall.accepting, phase])
  have own : c.code = code := by simp only [LoginCall.code, phase]
  unfold settle
  rcases committed_forms finish_holds with raised | ⟨result, u, holds, returned⟩
  · rw [raised]
    exact h.idle (.refl _) (not_engaged rfl rfl)
  · simp only [returned]
    have shrinks : Shrinks s.tables u.tables := by
      refine ⟨fun r mem => ?_, fun r mem unused => ?_⟩
      · rw [holds.pending] at mem
        exact (List.mem_filter.mp mem).1
      · rw [holds.codes] at mem
        cases code with
        | none => exact ⟨r, mem, rfl, unused⟩
        | some k =>
          obtain ⟨r₀, mem₀, rfl⟩ := List.mem_map.mp mem
          split at unused
          · cases unused
          · next other => exact ⟨r₀, mem₀, by rw [if_neg other], unused⟩
    refine h.go_on at_i engaged rfl own.symm shrinks fun _ => ⟨fun r mem token => ?_, fun k same r mem id => ?_⟩
    · rw [holds.pending] at mem
      exact of_decide_eq_true (List.mem_filter.mp mem).2 token
    · cases same
      rw [holds.codes] at mem
      obtain ⟨r₀, -, rfl⟩ := List.mem_map.mp mem
      split
      · rfl
      · next other =>
        rw [if_neg other] at id
        exact absurd id other

theorem Sound.step (h : Sound s) (alone : AcceptsAlone env s i) : Sound (step svc env s i) := by
  cases at_i : s.calls[i]? with
  | none => simpa only [SecondStep.step, at_i] using h
  | some c =>
    simp only [SecondStep.step, at_i]
    unfold LoginCall.next
    split
    · split
      · exact h.idle (.refl _) (not_engaged rfl rfl)
      · exact h.idle (.refl _) (not_engaged rfl rfl)
    · exact h.idle (.refl _) (not_engaged rfl rfl)
    · split
      · exact h.idle (refused_shrinks (svc.rateLimited_raises _) _) (not_engaged rfl rfl)
      · exact h.idle (.refl _) (not_engaged rfl rfl)
    · next userId secret phase =>
      split
      · next code accepted => exact h.accept at_i phase accepted alone
      · split
        · exact h.idle (.refl _) (not_engaged rfl rfl)
        · refine h.idle (refused_shrinks ?_ _) (not_engaged rfl rfl)
          exact .tryCatch wrongCode_holds fun e => svc.rateLimited_raises e
    · next userId secret code phase =>
      have engaged : c.engaged := .inl (by simp only [LoginCall.accepting, phase])
      have own : c.code = code := by simp only [LoginCall.code, phase]
      split
      · exact h.go_on at_i engaged rfl rfl (.refl _) fun succeeded => by simp [LoginCall.succeeded, phase] at succeeded
      · exact h.go_on at_i engaged rfl own.symm (.refl _) nofun
    · next userId secret code phase =>
      have engaged : c.engaged := .inl (by simp only [LoginCall.accepting, phase])
      have own : c.code = code := by simp only [LoginCall.code, phase]
      split
      · exact h.go_on at_i engaged rfl rfl (.refl _) fun succeeded => by simp [LoginCall.succeeded, phase] at succeeded
      · exact h.go_on at_i engaged rfl own.symm (.refl _) nofun
    · next userId secret code phase => exact h.finish at_i phase
    · next result code phase =>
      have same : ({ c with phase := .ended result code } : LoginCall) = c := by rw [← phase]
      rw [same]
      refine h.set (.refl _) (h.spent c (List.mem_of_getElem? at_i)) fun j e other at_j => ⟨?_, ?_⟩
      · exact fun same => other (h.token j i e c at_j at_i ⟨same.2.1, same.1, same.2.2.symm⟩)
      · rintro ⟨engaged_c, engaged_e, k, own, own_e⟩
        exact other (h.code j i e c at_j at_i ⟨engaged_e, engaged_c, k, own_e, own⟩)

theorem sound_start (waiting : ∀ c ∈ s.calls, c.phase = .waiting) : Sound s where
  spent c mem succeeded := by simp [LoginCall.succeeded, waiting c mem] at succeeded
  token i j c d at_i _ same := by
    rcases same.1 with accepting | succeeded
    · simp [LoginCall.accepting, waiting c (List.mem_of_getElem? at_i)] at accepting
    · simp [LoginCall.succeeded, waiting c (List.mem_of_getElem? at_i)] at succeeded
  code i j c d at_i _ same := by
    rcases same.1 with accepting | succeeded
    · simp [LoginCall.accepting, waiting c (List.mem_of_getElem? at_i)] at accepting
    · simp [LoginCall.succeeded, waiting c (List.mem_of_getElem? at_i)] at succeeded

/-- However the second steps interleave, a pending token and an e-mailed code let one of them in at most, if each accepts its
    second factor alone. -/
theorem second_factor_once (waiting : ∀ c ∈ s.calls, c.phase = .waiting) (schedule : List Nat)
    (alone : Always (SecondStep.step svc env) (AcceptsAlone env) s schedule) :
    UsedOnce (final (SecondStep.step svc env) s schedule) := by
  have sound : Sound (final (SecondStep.step svc env) s schedule) :=
    final_invariant Sound (sound_start waiting) (fun _ _ sound alone => sound.step alone) alone
  refine ⟨fun i j c d at_i at_j first second same => ?_, fun i j c d at_i at_j first second k own_c own_d => ?_⟩
  · exact sound.token i j c d at_i at_j ⟨.inr first, .inr second, same⟩
  · exact sound.code i j c d at_i at_j ⟨.inr first, .inr second, k, own_c, own_d⟩

/-! ### A call on its own -/

theorem blocked_any {secret : Option String} : (attemptScopes inp userId secret).any (blocked env inp t · secret) =
    secret.elim (emailBlocked env inp userId t) fun _ => authenticatorBlocked env inp userId t := by
  cases secret with
  | none => simp only [attemptScopes, blocked, emailBlocked, Option.elim_none]
  | some secret => simp only [attemptScopes, blocked, authenticatorBlocked, Option.elim_some]

/-- Where the second factor is accepted, the call is what its statements write. -/
theorem loginStep2_accepts (found : t.getUserId inp.now inp.pendingToken = some userId)
    (open_ : (attemptScopes inp userId (t.getEnabledSecret userId)).any (blocked env inp t · (t.getEnabledSecret userId)) = false)
    (accepted : acceptedCode env inp t userId (t.getEnabledSecret userId) = some code) :
    (svc.loginStep2 env inp).run { tables := t } =
      (finish svc inp userId (t.getEnabledSecret userId) code).run { tables := t } := by
  rw [blocked_any] at open_
  simp only [LoginAudit.loginStep2, EStateM.run_bind, EStateM.run_get, found, run_tryCatch]
  generalize t.getEnabledSecret userId = secret at open_ accepted ⊢
  cases secret with
  | some secret =>
    simp only [acceptedCode, Option.ite_none_right_eq_some] at accepted
    obtain ⟨right, same⟩ := accepted
    cases same
    simp only [Option.elim_some] at open_
    simp only [LoginAudit.secondFactor, LoginAudit.verifyAuthenticator, EStateM.run_bind, EStateM.run_get, open_, right,
      Bool.false_eq_true, if_false]
    rfl
  | none =>
    obtain ⟨row, valid, rfl⟩ := Option.map_eq_some_iff.mp accepted
    simp only [Option.elim_none] at open_
    simp only [LoginAudit.secondFactor, verifyCode, EStateM.run_bind, EStateM.run_get, open_, valid, Bool.false_eq_true, if_false]
    rfl

/-- A call that raises leaves the tables as they were. -/
theorem settle_raised {m : LoginM (Option LoginSuccess)} {e : LoginError} {w : World} (raised : m.run { tables := t } = .error e w) :
    settle m t = (t, none) := by
  simp only [settle, committed, run_atomically, raised, Option.join_none]

theorem rateLimited_run (svc : LoginAudit) (inp : LoginInput) (userId : Nat) (e : LoginError) (w : World) :
    ∃ e' u, (svc.rateLimited inp userId e).run w = .error e' u := by
  have raises : Returns (fun _ => True) (svc.rateLimited inp userId e) (fun _ _ => False) fun _ => True := svc.rateLimited_raises e
  have ends := raises w trivial
  cases run : (svc.rateLimited inp userId e).run w with
  | ok ok u =>
    rw [run] at ends
    cases ends with
    | returned never => exact never.elim
  | error e' u => exact ⟨e', u, rfl⟩

theorem loginStep2_blocked (found : t.getUserId inp.now inp.pendingToken = some userId)
    (blocked : (attemptScopes inp userId (t.getEnabledSecret userId)).any (blocked env inp t · (t.getEnabledSecret userId)) = true) :
    settle (svc.loginStep2 env inp) t = (t, none) := by
  rw [blocked_any] at blocked
  obtain ⟨e, u, raises⟩ := rateLimited_run svc inp userId .tooManyAttempts { tables := t }
  refine settle_raised (e := e) (w := u) ?_
  simp only [LoginAudit.loginStep2, EStateM.run_bind, EStateM.run_get, found, run_tryCatch]
  generalize t.getEnabledSecret userId = secret at blocked ⊢
  cases secret with
  | some secret =>
    simp only [Option.elim_some] at blocked
    simp only [LoginAudit.secondFactor, LoginAudit.verifyAuthenticator, EStateM.run_bind, EStateM.run_get, blocked, if_true,
      run_throw, raises]
  | none =>
    simp only [Option.elim_none] at blocked
    simp only [LoginAudit.secondFactor, verifyCode, EStateM.run_bind, EStateM.run_get, blocked, if_true, run_throw, raises]

theorem wrongCode_false (svc : LoginAudit) (env : AuthEnv) (inp : LoginInput) (userId : Nat) {secret : Option String} :
    Returns (fun _ => True)
    (tryCatch (wrongCode svc env inp userId secret) (svc.rateLimited inp userId)) (fun ok _ => ok = false) fun _ => True := by
  have any : ∀ {α : Type} (m : LoginM α), Returns (fun _ => True) m (fun _ _ => True) fun _ => True := by
    intro α m w _
    cases m.run w with
    | ok _ _ => exact .returned trivial
    | error _ _ => exact .raised trivial
  refine .tryCatch (F := fun _ => True) ?_ fun e => svc.rateLimited_raises e
  cases secret with
  | some secret =>
    refine .bind (any _) fun _ => .bind (any _) fun _ => .bind (any _) fun _ => ?_
    exact .ite (fun _ => .throw fun _ _ => trivial) fun _ => .pure fun _ _ => rfl
  | none => exact .bind (any _) fun _ => .bind (any _) fun _ => .pure fun _ _ => rfl

/-- Where the second factor is refused, the call returns nothing, and what it has counted stays. -/
theorem settle_wrongCode {m accepts : LoginM (Option LoginSuccess)} {factor : LoginM Bool} {secret : Option String}
    (whole : m.run { tables := t } = (do
      let ok ← tryCatch factor (svc.rateLimited inp userId)
      if ok then accepts else return none : LoginM (Option LoginSuccess)).run { tables := t })
    (same : factor.run { tables := t } = (wrongCode svc env inp userId secret).run { tables := t }) :
    settle m t = ((refused (tryCatch (wrongCode svc env inp userId secret) (svc.rateLimited inp userId)) t).1, none) := by
  have never := @wrongCode_false svc env inp userId secret { tables := t } trivial
  have handled : (tryCatch factor (svc.rateLimited inp userId)).run { tables := t } =
      (tryCatch (wrongCode svc env inp userId secret) (svc.rateLimited inp userId)).run { tables := t } := by
    rw [run_tryCatch, run_tryCatch, same]
  simp only [settle, refused, committed, run_atomically, whole, EStateM.run_bind, handled]
  cases run : (tryCatch (wrongCode svc env inp userId secret) (svc.rateLimited inp userId)).run { tables := t } with
  | error e u => rfl
  | ok ok u =>
    rw [run] at never
    cases never with
    | returned refused =>
      subst refused
      rfl

theorem loginStep2_refuses (found : t.getUserId inp.now inp.pendingToken = some userId)
    (open_ : (attemptScopes inp userId (t.getEnabledSecret userId)).any (blocked env inp t · (t.getEnabledSecret userId)) = false)
    (wrong : acceptedCode env inp t userId (t.getEnabledSecret userId) = none) :
    settle (svc.loginStep2 env inp) t =
      if (t.getEnabledSecret userId).any fun secret =>
        verifyAuthenticatorCode env secret inp.twoFactorCode inp.timestamp = none then (t, none)
      else ((refused (tryCatch (wrongCode svc env inp userId (t.getEnabledSecret userId)) (svc.rateLimited inp userId)) t).1, none) := by
  rw [blocked_any] at open_
  have whole : (svc.loginStep2 env inp).run { tables := t } = (do
      let ok ← tryCatch (svc.secondFactor env inp userId (t.getEnabledSecret userId)) (svc.rateLimited inp userId)
      if ok then svc.loginSucceeded inp userId (if (t.getEnabledSecret userId).isSome then "authenticator" else "email")
      else return none : LoginM (Option LoginSuccess)).run { tables := t } := by
    simp only [LoginAudit.loginStep2, EStateM.run_bind, EStateM.run_get, found]
  generalize t.getEnabledSecret userId = secret at open_ wrong whole ⊢
  cases secret with
  | some secret =>
    simp only [Option.elim_some] at open_
    simp only [acceptedCode, ite_eq_right_iff, reduceCtorEq, imp_false] at wrong
    cases verified : verifyAuthenticatorCode env secret inp.twoFactorCode inp.timestamp with
    | none =>
      obtain ⟨e, u, raises⟩ := rateLimited_run svc inp userId .badSecret { tables := t }
      have bad : (svc.secondFactor env inp userId (some secret)).run { tables := t } = .error .badSecret { tables := t } := by
        simp only [LoginAudit.secondFactor, LoginAudit.verifyAuthenticator, EStateM.run_bind, EStateM.run_get, open_, verified,
          Bool.false_eq_true, if_false, run_throw]
      rw [if_pos (by simp [verified])]
      refine settle_raised (e := e) (w := u) ?_
      rw [whole, EStateM.run_bind, run_tryCatch, bad]
      simp only [raises]
    | some ok =>
      cases ok with
      | true => exact absurd verified wrong
      | false =>
        have same : (svc.secondFactor env inp userId (some secret)).run { tables := t } =
            (wrongCode svc env inp userId (some secret)).run { tables := t } := by
          simp only [LoginAudit.secondFactor, LoginAudit.verifyAuthenticator, wrongCode, EStateM.run_bind, EStateM.run_get, open_,
            verified, Bool.false_eq_true, if_false]
        rw [if_neg (by simp [verified])]
        exact settle_wrongCode whole same
  | none =>
    simp only [Option.elim_none] at open_
    simp only [acceptedCode, Option.map_eq_none_iff] at wrong
    have same : (svc.secondFactor env inp userId none).run { tables := t } =
        (wrongCode svc env inp userId none).run { tables := t } := by
      simp only [LoginAudit.secondFactor, verifyCode, wrongCode, EStateM.run_bind, EStateM.run_get, open_, wrong,
        Bool.false_eq_true, if_false]
      cases (recordAttempts inp.now env.maxAttempts env.attemptWindowMinutes (emailAttemptScopes userId inp)).run
        { tables := t } with
      | ok _ _ => rfl
      | error _ _ => rfl
    rw [if_neg (by simp)]
    exact settle_wrongCode whole same

/-- The next statement of a call that nobody keeps waiting. -/
def undisturbed (svc : LoginAudit) (env : AuthEnv) (inp : LoginInput) (p : AuthTables × Phase) : AuthTables × Phase :=
  ({ inp, phase := p.2 } : LoginCall).next svc env { codes := [], tokens := [] } p.1

theorem undisturbed_counting (svc : LoginAudit) (userId : Nat) {secret : Option String} : ∀ (keys : List (AttemptScope × String)),
    keys.any (blocked env inp t · secret) = false →
      (undisturbed svc env inp)^[keys.length] (t, .counting userId secret keys) = (t, .counting userId secret [])
  | [], _ => rfl
  | key :: keys, open_ => by
    obtain ⟨free, rest⟩ := Bool.or_eq_false_iff.mp open_
    have one : undisturbed svc env inp (t, .counting userId secret (key :: keys)) = (t, .counting userId secret keys) := by
      simp only [undisturbed, LoginCall.next, free, Bool.false_eq_true, if_false]
    rw [List.length_cons, Function.iterate_succ_apply, one]
    exact undisturbed_counting svc userId keys rest

theorem undisturbed_blocked (svc : LoginAudit) (userId : Nat) {secret : Option String} : ∀ (keys : List (AttemptScope × String)),
    keys.any (blocked env inp t · secret) = true →
      ∃ n, (undisturbed svc env inp)^[n] (t, .counting userId secret keys) = (t, .ended none none)
  | key :: keys, blocked_any => by
    cases full : blocked env inp t key secret with
    | true =>
      obtain ⟨e, u, raises⟩ := rateLimited_run svc inp userId .tooManyAttempts { tables := t }
      have raised : (do let _ ← svc.rateLimited inp userId .tooManyAttempts; return none : LoginM (Option LoginSuccess)).run
          { tables := t } = .error e u := by
        simp only [EStateM.run_bind, raises]
      refine ⟨1, ?_⟩
      simp only [Function.iterate_one, undisturbed, LoginCall.next, full, if_true, refused, settle_raised raised]
    | false =>
      have rest : keys.any (blocked env inp t · secret) = true := by simpa [full] using blocked_any
      have one : undisturbed svc env inp (t, .counting userId secret (key :: keys)) = (t, .counting userId secret keys) := by
        simp only [undisturbed, LoginCall.next, full, Bool.false_eq_true, if_false]
      obtain ⟨n, ended⟩ := undisturbed_blocked svc userId keys rest
      exact ⟨n + 1, by rw [Function.iterate_succ_apply, one, ended]⟩

/-- A call whose statements nothing comes between is the second step of `LoginService.login`. -/
theorem login_alone (t : AuthTables) : ∃ n code, (undisturbed svc env inp)^[n] (t, .waiting) =
    ((settle (svc.loginStep2 env inp) t).1, .ended (settle (svc.loginStep2 env inp) t).2 code) := by
  cases found : t.getUserId inp.now inp.pendingToken with
  | none =>
    have none_found : settle (svc.loginStep2 env inp) t = (t, none) := by
      simp only [settle, committed, run_atomically, LoginAudit.loginStep2, EStateM.run_bind, EStateM.run_get, found,
        EStateM.run_pure, Option.join_some]
    refine ⟨1, none, ?_⟩
    simp only [Function.iterate_one, undisturbed, LoginCall.next, found, none_found]
  | some userId =>
    have two : (undisturbed svc env inp)^[2] (t, .waiting) =
        (t, .counting userId (t.getEnabledSecret userId) (attemptScopes inp userId (t.getEnabledSecret userId))) := by
      simp only [Function.iterate_succ_apply, Function.iterate_zero_apply, undisturbed, LoginCall.next, found]
    cases full : (attemptScopes inp userId (t.getEnabledSecret userId)).any (blocked env inp t · (t.getEnabledSecret userId)) with
    | true =>
      obtain ⟨n, ended⟩ := undisturbed_blocked svc userId _ full
      refine ⟨n + 2, none, ?_⟩
      rw [Function.iterate_add_apply, two, ended, loginStep2_blocked found full]
    | false =>
      have counted := undisturbed_counting svc userId _ full
      have read : (undisturbed svc env inp)^[(attemptScopes inp userId (t.getEnabledSecret userId)).length + 2] (t, .waiting) =
          (t, .counting userId (t.getEnabledSecret userId) []) := by
        rw [Function.iterate_add_apply, two, counted]
      cases accepted : acceptedCode env inp t userId (t.getEnabledSecret userId) with
      | some code =>
        have last : (undisturbed svc env inp)^[4] (t, .counting userId (t.getEnabledSecret userId) []) =
            ((settle (finish svc inp userId (t.getEnabledSecret userId) code) t).1,
              .ended (settle (finish svc inp userId (t.getEnabledSecret userId) code) t).2 code) := by
          simp only [Function.iterate_succ_apply, Function.iterate_zero_apply, undisturbed, LoginCall.next, accepted,
            List.not_mem_nil, decide_false, Option.any_false, Bool.false_eq_true, if_false]
        refine ⟨4 + ((attemptScopes inp userId (t.getEnabledSecret userId)).length + 2), code, ?_⟩
        rw [Function.iterate_add_apply, read, last]
        simp only [settle, committed_congr (loginStep2_accepts found full accepted)]
      | none =>
        refine ⟨1 + ((attemptScopes inp userId (t.getEnabledSecret userId)).length + 2), none, ?_⟩
        rw [Function.iterate_add_apply, read, loginStep2_refuses found full accepted]
        simp only [Function.iterate_one, undisturbed, LoginCall.next, accepted]
        split
        · rfl
        · rfl

end

/-! ### Two clients with one code -/

/-- User 7 has been sent the code 123456. -/
def emailed : AuthTables where
  pending2fa := [{ token := "9f86d081", userId := 7, expiresAt := minutes 10 }]
  userAuthenticators := []
  twoFactorCodes := [{ id := 1, userId := 7, codeHash := "123456", expiresAt := minutes 10, used := false }]
  users := [{ id := 7, isActive := true, deletedAt := none }]

def twoClients : State where
  tables := emailed
  calls := [{ inp := SecondFactor.guess }, { inp := { SecondFactor.guess with jti := "jti2" } }]

def inTurn : List Nat := List.replicate 9 0 ++ List.replicate 9 1

/-- Both read the token and the code before one of them commits. -/
def atOnce : List Nat := List.replicate 6 0 ++ List.replicate 6 1 ++ List.replicate 3 0 ++ List.replicate 3 1

theorem second_factor_once_in_turn :
    UsedOnce (final (step .proxy SecondFactor.defaultEnv) twoClients inTurn) ∧
      (final (step .proxy SecondFactor.defaultEnv) twoClients inTurn).calls.map (·.succeeded) = [true, false] := by
  refine ⟨second_factor_once ?_ inTurn ?_, ?_⟩
  · decide
  · decide +kernel
  · decide +kernel

theorem second_factor_twice : ¬UsedOnce (final (step .proxy SecondFactor.defaultEnv) twoClients atOnce) := by
  intro once
  have both : (final (step .proxy SecondFactor.defaultEnv) twoClients atOnce).calls.map (fun c => (c.succeeded, c.inp.pendingToken)) =
      [(true, "9f86d081"), (true, "9f86d081")] := by decide +kernel
  obtain ⟨c, d, calls⟩ : ∃ c d, (final (step .proxy SecondFactor.defaultEnv) twoClients atOnce).calls = [c, d] :=
    List.length_eq_two.mp (by simpa using congrArg List.length both)
  rw [calls, List.map_cons, List.map_singleton] at both
  obtain ⟨⟨first, token_c⟩, second, token_d⟩ :
      (c.succeeded = true ∧ c.inp.pendingToken = "9f86d081") ∧ d.succeeded = true ∧ d.inp.pendingToken = "9f86d081" := by
    simpa using both
  exact absurd (once.token 0 1 c d (by rw [calls]; rfl) (by rw [calls]; rfl) first second (token_c.trans token_d.symm)) (by decide)

end NyzRating.Auth.SecondStep
