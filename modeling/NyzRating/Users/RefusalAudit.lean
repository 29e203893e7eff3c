import NyzRating.Users.Requests

/-!
# The events of a refusal

Whoever refuses a caller leaves an event in the outbox, in the transaction of the call. The event stays where the call returns;
a refusal that raises takes its own events back.
-/

namespace NyzRating.Users

open Program Auth.Refresh
open Auth (AuthEnv AuthTables AttemptScope LoginInput LoginAudit LoginError LoginM LoginSuccess)
open Auth.SecondFactor (attempted)

/-! ### Calls -/

/-- The first step of a login, which writes the tables. -/
def step1 (env : LoginEnv) (inp : Step1Input) : EStateM UserError Tables LoginResult := fun t =>
  match loginStep1 env t inp with
  | .ok (result, t') => .ok result t'
  | .error e => .error e t

/-- A call of the three services, and the tables that it finds. -/
inductive AuthCall where
  | loginStep1 (env : LoginEnv) (inp : Step1Input) (t : Tables)
  | loginStep2 (env : AuthEnv) (inp : LoginInput) (w : Auth.World)
  | refresh (env : TokenEnv) (inp : RefreshInput) (t : SessionTables)
  | logout (env : TokenEnv) (inp : LogoutInput) (t : SessionTables)

inductive OutboxEvent where
  | login (e : LoginEvent)
  | secondStep (e : Auth.AuditLog)
  | session (e : SessionAudit)
  deriving DecidableEq, Repr

/-- The events in the outbox before the call, when the body of its transaction has ended, and after the call. -/
structure Trace where
  before : List OutboxEvent
  written : List OutboxEvent
  left : List OutboxEvent

/-- The events that the call has passed to the audit service. -/
def Trace.passed (t : Trace) : List OutboxEvent := t.written.drop t.before.length

/-- They are in the outbox after the call. -/
def Trace.Kept (t : Trace) : Prop := t.left = t.before ++ t.passed

section
variable {ε σ α β : Type} (outbox : σ → List β) (tag : β → OutboxEvent) (restore : σ → σ → σ) (body : EStateM ε σ α) (s : σ)

def trace : Trace where
  before := (outbox s).map tag
  written := (outbox (after body s)).map tag
  left := (outbox (after (atomically restore body) s)).map tag

end

/-- The calls are these bodies in a transaction. -/
def AuthCall.trace : AuthCall → Trace
  | .loginStep1 env inp t => Users.trace (·.outbox) .login (fun t _ => t) (step1 env inp) t
  | .loginStep2 env inp w =>
    Users.trace (·.tables.auditLog) .secondStep (fun s w => { w with tables := s.tables }) (LoginAudit.proxy.loginStep2 env inp) w
  | .refresh env inp t => Users.trace (·.auditLog) .session (fun t _ => t) (proxy.refreshToken env inp) t
  | .logout env inp t => Users.trace (·.auditLog) .session (fun t _ => t) (proxy.logoutToken env inp) t

/-- The caller is refused; a logout returns the same after a good token. -/
def AuthCall.Refuses : AuthCall → Prop
  | .loginStep1 env inp t => ∃ t', Users.loginStep1 env t inp = .ok (.refused, t')
  | .loginStep2 env inp w => (∃ u, (LoginAudit.proxy.login env inp).run w = .ok none u) ∨
      ∃ u, (LoginAudit.proxy.login env inp).run w = .error .tooManyAttempts u
  | .refresh env inp t => ∃ reason u, (proxy.refresh env inp).run t = .ok (.failed reason) u
  | .logout env inp t => ∃ u, (proxy.logout env inp).run t = .ok true u

/-! ### Counters -/

/-- One more wrong code fills the counter. -/
def fills (t : AuthTables) (now limit window : Int) (key : AttemptScope × String) : Bool :=
  limit ≤ (attempted t now window key).attempts

/-- A second step meets a full counter, or fills one with a wrong code of an authenticator. -/
def limited (env : AuthEnv) (inp : LoginInput) (userId : Nat) (t : AuthTables) : Option String → Bool
  | none => Auth.emailBlocked env inp userId t
  | some secret => Auth.authenticatorBlocked env inp userId t ||
      Auth.verifyAuthenticatorCode env secret inp.twoFactorCode inp.timestamp = some false &&
        (Auth.authenticatorAttemptScopes userId inp.pendingToken inp.ip).any
          (fills t inp.now env.authenticatorMaxAttempts env.authenticatorWindowMinutes)

def AuthCall.rateLimited : AuthCall → Bool
  | .loginStep2 env inp w => (w.tables.getUserId inp.now inp.pendingToken).any fun userId =>
      limited env inp userId w.tables (w.tables.getEnabledSecret userId)
  | _ => false

section
variable {now limit window : Int} {key : AttemptScope × String} {keys : List (AttemptScope × String)} {t u : AuthTables}
  {w : Auth.World}

theorem fills_congr (same : u.attempt? key = t.attempt? key) : fills u now limit window key = fills t now limit window key := by
  unfold fills attempted
  rw [same]

/-- A counter that has just been raised is within its window. -/
theorem isBlocked_attempted (positive : 0 ≤ window) (row : u.attempt? key = some (attempted t now window key)) :
    u.isBlocked now limit window key = fills t now limit window key := by
  have zero : 0 ≤ Auth.minutes window := Int.mul_nonneg positive (by decide)
  have fresh : ¬now - (attempted t now window key).windowStartAt > Auth.minutes window := by
    unfold attempted
    cases t.attempt? key with
    | none =>
      simp only [Option.map_none, Option.getD_none, Auth.TwoFactorAttempt.first]
      omega
    | some r =>
      simp only [Option.map_some, Option.getD_some, Auth.TwoFactorAttempt.failed]
      by_cases late : now - r.windowStartAt > Auth.minutes window
      · rw [if_pos late]
        dsimp only
        omega
      · rwa [if_neg late]
  simp only [AuthTables.isBlocked, row, fresh, if_false, fills, ge_iff_le]

theorem recordAttempts_fills (distinct : keys.Nodup) : Settles (· = w) (Auth.recordAttempts now limit window keys)
    (fun full u => u.tables.auditLog = w.tables.auditLog ∧ (0 ≤ window → full = keys.any (fills w.tables now limit window)))
    (fun e _ => e = .dataError) := by
  induction keys generalizing w with
  | nil =>
    refine .pure ?_
    rintro _ rfl
    exact ⟨rfl, fun _ => rfl⟩
  | cons key keys ih =>
    obtain ⟨apart, distinct⟩ := List.nodup_cons.mp distinct
    rintro w rfl
    simp only [Auth.recordAttempts, EStateM.run_bind]
    rcases Auth.SecondFactor.recordFailed_run now window key w with ⟨rows, run, look⟩ | run
    · have rest := ih (w := { w with tables := { w.tables with twoFactorAttempts := rows } }) distinct _ rfl
      have others : keys.any (fills { w.tables with twoFactorAttempts := rows } now limit window) =
          keys.any (fills w.tables now limit window) := by
        rw [Bool.eq_iff_iff, List.any_eq_true, List.any_eq_true]
        refine exists_congr fun k => and_congr_right fun mem => ?_
        have other : k ≠ key := fun same => apart (same ▸ mem)
        have same : ({ w.tables with twoFactorAttempts := rows } : AuthTables).attempt? k = w.tables.attempt? k :=
          (look k).trans (if_neg other)
        rw [fills_congr same]
      have own : ({ w.tables with twoFactorAttempts := rows } : AuthTables).attempt? key = some (attempted w.tables now window key) :=
        (look key).trans (if_pos rfl)
      rw [run]
      simp only [EStateM.run_get]
      generalize (Auth.recordAttempts now limit window keys).run
        { w with tables := { w.tables with twoFactorAttempts := rows } } = result at rest ⊢
      cases rest with
      | raised same => exact .raised same
      | @returned full u ended =>
        obtain ⟨log, counted⟩ := ended
        refine .returned ⟨log, fun positive => ?_⟩
        rw [List.any_cons, isBlocked_attempted positive own, counted positive, others]
    · rw [run]
      exact .raised rfl

end

/-! ### The second step -/

section
variable {env : AuthEnv} {inp : LoginInput} {userId : Nat} {w : Auth.World}

/-- The events of `w`, and maybe more of them. -/
def Logs (w u : Auth.World) : Prop := w.tables.auditLog <+: u.tables.auditLog

theorem Logs.refl (w : Auth.World) : Logs w w := List.prefix_rfl

theorem Logs.of_eq {u : Auth.World} (log : u.tables.auditLog = w.tables.auditLog) : Logs w u := by
  unfold Logs
  exact log ▸ List.prefix_rfl

theorem Logs.publish {u : Auth.World} (h : Logs w u) (row : Auth.AuditLog) :
    Logs w { u with tables := { u.tables with auditLog := u.tables.auditLog ++ [row] } } :=
  List.IsPrefix.trans h (List.prefix_append _ _)

theorem verifyAuthenticator_settles {secret : String} :
    Settles (· = w) (LoginAudit.proxy.verifyAuthenticator env inp userId secret)
      (fun _ u => limited env inp userId w.tables (some secret) = false ∧ Logs w u)
      (fun e u => e = .tooManyAttempts → limited env inp userId w.tables (some secret) = true ∧ Logs w u) := by
  unfold LoginAudit.verifyAuthenticator
  refine .get_bind ?_
  rintro w rfl
  refine .ite (fun blocked => .throw ?_) fun open_ => ?_
  · rintro w rfl _
    exact ⟨by rw [limited, blocked, Bool.true_or], .refl w⟩
  · have open_ : Auth.authenticatorBlocked env inp userId w.tables = false := (Bool.not_eq_true _).mp open_
    cases verified : Auth.verifyAuthenticatorCode env secret inp.twoFactorCode inp.timestamp with
    | none => exact .throw fun _ _ => nofun
    | some ok =>
      cases ok with
      | true =>
        have unlimited : limited env inp userId w.tables (some secret) = false := by simp [limited, open_, verified]
        refine .bind (R := fun _ u => Logs w u) (.modify ?_) fun _ => .pure fun _ logs => ⟨unlimited, logs⟩
        rintro w rfl
        exact .refl _
      | false =>
        have positive : 0 ≤ env.authenticatorWindowMinutes := Int.le_trans (by decide) (Int.le_max_left 1 _)
        have same : limited env inp userId w.tables (some secret) =
            (Auth.authenticatorAttemptScopes userId inp.pendingToken inp.ip).any
              (fills w.tables inp.now env.authenticatorMaxAttempts env.authenticatorWindowMinutes) := by
          simp [limited, open_, verified]
        refine .bind (R := fun _ u => u = w.evaluated (inp.wrongCode userId)) (.modify (fun _ same => same ▸ rfl)) fun _ => ?_
        have counts : Settles (· = w.evaluated (inp.wrongCode userId)) (Auth.recordAuthenticatorFailedAttempt env inp userId) _ _ :=
          recordAttempts_fills (Auth.SecondFactor.keys_nodup (inp.wrongCode userId))
        refine .bind (counts.mono (fun _ _ h => h) ?_) fun full => ?_
        · rintro e _ rfl
          nofun
        refine .bind (R := fun _ u => Logs w u ∧ full = limited env inp userId w.tables (some secret)) (.modify ?_) fun _ => ?_
        · rintro u ⟨log, counted⟩
          refine ⟨?_, (counted positive).trans same.symm⟩
          unfold Logs
          rw [log]
          exact List.prefix_append _ _
        · refine .ite (fun isFull => .throw ?_) fun notFull => .pure ?_
          · rintro u ⟨logs, same⟩ _
            exact ⟨same.symm.trans isFull, logs⟩
          · rintro u ⟨logs, same⟩
            exact ⟨same.symm.trans ((Bool.not_eq_true _).mp notFull), logs⟩

theorem verifyCode_settles : Settles (· = w) (Auth.verifyCode env inp userId)
    (fun _ u => limited env inp userId w.tables none = false ∧ u.tables.auditLog = w.tables.auditLog)
    (fun e u => e = .tooManyAttempts → limited env inp userId w.tables none = true ∧ Logs w u) := by
  unfold Auth.verifyCode
  refine .get_bind ?_
  rintro w rfl
  refine .ite (fun blocked => .throw ?_) fun open_ => ?_
  · rintro w rfl _
    exact ⟨blocked, .refl w⟩
  · have open_ : limited env inp userId w.tables none = false := (Bool.not_eq_true _).mp open_
    cases w.tables.getValidCode env inp.now userId inp.twoFactorCode with
    | none =>
      have counts : Settles (· = w) (Auth.recordAttempts inp.now env.maxAttempts env.attemptWindowMinutes
          (Auth.emailAttemptScopes userId inp)) _ _ := recordAttempts_fills Auth.SecondFactor.emailAttemptScopes_nodup
      refine .bind (counts.mono (fun _ _ h => h) ?_) fun _ => .pure fun _ ⟨log, _⟩ => ⟨open_, log⟩
      rintro e _ rfl
      nofun
    | some code =>
      refine .bind (R := fun _ u => u.tables.auditLog = w.tables.auditLog) (.modify ?_) fun _ => .pure fun _ log => ⟨open_, log⟩
      rintro w rfl
      rfl

theorem secondFactor_settles {secret : Option String} : Settles (· = w) (LoginAudit.proxy.secondFactor env inp userId secret)
    (fun _ u => limited env inp userId w.tables secret = false ∧ Logs w u)
    (fun e u => e = .tooManyAttempts → limited env inp userId w.tables secret = true ∧ Logs w u) := by
  cases secret with
  | some secret =>
    rw [LoginAudit.secondFactor]
    exact verifyAuthenticator_settles
  | none =>
    refine .bind verifyCode_settles fun ok => .ite (fun _ => .pure ?_) fun _ => ?_
    · rintro u ⟨open_, log⟩
      exact ⟨open_, .of_eq log⟩
    · refine .bind (R := fun _ u => limited env inp userId w.tables none = false ∧ Logs w u) (.modify ?_) fun _ => .pure fun _ h => h
      rintro u ⟨open_, log⟩
      refine ⟨open_, ?_⟩
      unfold Logs
      rw [log]
      exact List.prefix_append _ _

/-- Where a counter is full, the handler adds an event, and raises. -/
theorem rateLimited_settles {full : Prop} {R : Bool → Auth.World → Prop} (e : LoginError) :
    Settles (fun u => e = .tooManyAttempts → full ∧ Logs w u) (LoginAudit.proxy.rateLimited inp userId e) R
    (fun e u => e = .tooManyAttempts → full ∧ w.tables.auditLog.length < u.tables.auditLog.length) := by
  unfold LoginAudit.rateLimited
  refine .ite (fun same => ?_) fun other => .throw fun _ _ same => absurd same other
  refine .bind (R := fun _ u => full ∧ Logs w u) (.modify fun _ h => h same) fun _ => ?_
  refine .bind (R := fun _ u => full ∧ w.tables.auditLog.length < u.tables.auditLog.length) (.modify ?_) fun _ => .throw fun _ h _ => h
  rintro u ⟨isFull, logs⟩
  refine ⟨isFull, ?_⟩
  simp only [List.length_append, List.length_singleton]
  exact Nat.lt_succ_of_le (List.IsPrefix.length_le logs)

theorem loginSucceeded_settles (challengeType : String) : Settles (Logs w) (LoginAudit.proxy.loginSucceeded inp userId challengeType)
    (fun _ => Logs w) (fun e _ => e ≠ .tooManyAttempts) := by
  unfold LoginAudit.loginSucceeded
  refine .bind (R := fun _ => Logs w) (.modify fun _ h => h) fun _ => .get_bind fun u logs => ?_
  cases u.tables.getUser userId with
  | none => exact .pure fun _ same => same ▸ logs
  | some user =>
    refine .ite (fun _ => ?_) fun _ => .pure fun _ same => same ▸ logs
    refine .bind (R := fun _ => Logs w) (.modify fun _ same => same ▸ logs.publish _) fun _ => ?_
    refine .bind (R := fun _ => Logs w) (.modify fun _ logs => logs.publish _) fun _ => ?_
    refine .ite (fun _ => ?_) fun _ => .throw fun _ _ => nofun
    exact .bind (R := fun _ => Logs w) (.modify fun _ h => h) fun _ => .pure fun _ h => h

/-- The second step raises `TwoFactorTooManyAttemptsError` exactly where a counter is full, or filled by the call. -/
theorem loginStep2_settles : Settles (· = w) (LoginAudit.proxy.loginStep2 env inp)
    (fun _ u => (AuthCall.loginStep2 env inp w).rateLimited = false ∧ Logs w u)
    (fun e u => e = .tooManyAttempts →
      (AuthCall.loginStep2 env inp w).rateLimited = true ∧ w.tables.auditLog.length < u.tables.auditLog.length) := by
  unfold LoginAudit.loginStep2 AuthCall.rateLimited
  refine .get_bind ?_
  rintro w rfl
  dsimp only
  cases w.tables.getUserId inp.now inp.pendingToken with
  | none =>
    refine .pure ?_
    rintro w rfl
    exact ⟨rfl, .refl w⟩
  | some userId =>
    simp only [Option.any_some]
    refine .bind (.tryCatch secondFactor_settles rateLimited_settles) fun ok => .ite (fun _ => ?_) fun _ => .pure fun _ h => h
    refine .given fun open_ => (loginSucceeded_settles _).mono (fun _ _ logs => ⟨open_, logs⟩) ?_
    rintro e _ other same
    exact absurd same other

end

/-! ### Refresh and logout -/

section
variable {env : TokenEnv} {inp : RefreshInput} {t : SessionTables} {payload : Payload} {userId : Option Nat}

/-- The events of `t`, and maybe more of them. -/
def Grows (t u : SessionTables) : Prop := t.auditLog <+: u.auditLog

theorem log_grows (client : Client) (action : SessionAction) (details : List (String × Option String)) :
    Settles (Grows t) (proxy.log client action userId details) (fun _ => Grows t) fun _ _ => True :=
  .modify fun _ grows => List.IsPrefix.trans grows (List.prefix_append _ _)

theorem refuse_grows {why : String} {reason : RefreshFailReason} :
    Settles (Grows t) (proxy.refuse inp userId why reason) (fun _ => Grows t) fun _ _ => True :=
  .bind (log_grows _ _ _) fun _ => .pure fun _ h => h

theorem createSession_grows (s : SessionRow) : Settles (Grows t) (createSession s) (fun _ => Grows t) fun _ _ => True := by
  refine .get_bind fun u grows => ?_
  refine .ite (fun _ => .throw fun _ _ => trivial) fun _ => .ite (fun _ => .throw fun _ _ => trivial) fun _ => ?_
  exact .set grows

theorem refreshSession_grows (read : Option SessionRow) :
    Settles (Grows t) (proxy.refreshSession env inp payload read) (fun _ => Grows t) fun _ _ => True := by
  cases read with
  | none => exact refuse_grows
  | some rec =>
    refine .ite (fun _ => .ite (fun _ => refuse_grows) fun _ => ?_) fun _ => .ite (fun _ => ?_) fun _ => .ite (fun _ => ?_) fun _ => ?_
    · refine .bind (log_grows _ _ _) fun _ => .bind (.modify fun _ h => h) fun _ => .pure fun _ h => h
    · refine .bind (.modify fun _ h => h) fun _ => .bind (log_grows _ _ _) fun _ => .pure fun _ h => h
    · exact .bind (log_grows _ _ _) fun _ => .pure fun _ h => h
    · refine .bind (.modify fun _ h => h) fun _ => .bind (createSession_grows _) fun _ => ?_
      exact .bind (log_grows _ _ _) fun _ => .pure fun _ h => h

theorem refreshToken_grows : Settles (Grows t) (proxy.refreshToken env inp) (fun _ => Grows t) fun _ _ => True := by
  unfold AuditService.refreshToken
  cases env.verify inp.token inp.now with
  | error e =>
    cases e with
    | expired => exact refuse_grows
    | invalid => exact refuse_grows
    | other => exact .throw fun _ _ => trivial
  | ok payload =>
    refine .ite (fun _ => refuse_grows) fun _ => .ite (fun _ => refuse_grows) fun _ => .get_bind fun u grows => ?_
    exact (refreshSession_grows _).of fun _ same => same ▸ grows

theorem logoutToken_grows {inp : LogoutInput} : Settles (Grows t) (proxy.logoutToken env inp) (fun _ => Grows t) fun _ _ => True := by
  have logged : ∀ (action : SessionAction) (userId : Option Nat) (details : List (String × Option String)),
      Settles (Grows t) (do proxy.log inp.client action userId details; return true) (fun _ => Grows t) fun _ _ => True :=
    fun _ _ _ => .bind (log_grows _ _ _) fun _ => .pure fun _ h => h
  unfold AuditService.logoutToken
  cases env.verify inp.token inp.now with
  | error e =>
    cases e with
    | expired =>
      refine .get_bind fun u grows => ?_
      dsimp only
      split
      · exact .bind (.set grows) fun _ => logged _ _ _
      · exact (logged _ _ _).of fun _ same => same ▸ grows
    | invalid => exact logged _ _ _
    | other => exact .throw fun _ _ => trivial
  | ok payload =>
    refine .get_bind fun u grows => ?_
    have start : ∀ v, v = u → Grows t v := fun _ same => same ▸ grows
    refine .ite (fun _ => (logged _ _ _).of start) fun _ => ?_
    cases u.getByJti payload.jti with
    | none => exact (logged _ _ _).of start
    | some session =>
      refine .ite (fun _ => (logged _ _ _).of start) fun _ => ?_
      exact .bind (.set grows) fun _ => logged _ _ _

end

/-! ### The first step -/

section
variable {env : LoginEnv} {inp : Step1Input} {t t' : Tables} {userId : Nat}

theorem recordFailedLogin_outbox (done : t.recordFailedLogin userId = .ok t') : t'.outbox = t.outbox := by
  unfold Tables.recordFailedLogin at done
  split at done
  · rw [Fallible.pure_eq_ok.mp done]
  · obtain ⟨-, -, rfl⟩ := Tables.update_eq_ok.mp done
    rfl

theorem challenge_not_refused {user : User} {secret : Option String} : challenge t inp user secret ≠ .ok (.refused, t') := by
  unfold challenge
  split
  · nofun
  · intro same
    cases Prod.mk.inj (Except.ok.inj same) |>.1

theorem checkPassword_outbox {email password : String} {user : User}
    (refused : checkPassword env t inp email password user = .ok (.refused, t')) : t.outbox <+: t'.outbox := by
  unfold checkPassword at refused
  split at refused
  · obtain ⟨-, rfl⟩ := Prod.mk.inj (Fallible.pure_eq_ok.mp refused)
    exact List.prefix_append _ _
  · split at refused
    · obtain ⟨u, counted, returned⟩ := Fallible.bind_eq_ok.mp refused
      obtain ⟨-, rfl⟩ := Prod.mk.inj (Fallible.pure_eq_ok.mp returned)
      rw [recordFailedLogin_outbox counted]
      exact List.prefix_append _ _
    · obtain ⟨u, -, rest⟩ := Fallible.bind_eq_ok.mp refused
      dsimp only at rest
      split at rest
      · obtain ⟨⟨tokens, v⟩, -, returned⟩ := Fallible.bind_eq_ok.mp rest
        cases (Prod.mk.inj (Fallible.pure_eq_ok.mp returned)).1
      · exact absurd rest challenge_not_refused

theorem loginStep1_outbox (refused : loginStep1 env t inp = .ok (.refused, t')) : t.outbox <+: t'.outbox := by
  unfold loginStep1 at refused
  split at refused
  · split at refused
    · obtain ⟨-, rfl⟩ := Prod.mk.inj (Fallible.pure_eq_ok.mp refused)
      exact List.prefix_append _ _
    · exact checkPassword_outbox refused
  · obtain ⟨-, rfl⟩ := Prod.mk.inj (Fallible.pure_eq_ok.mp refused)
    exact List.prefix_rfl

end

/-! ### Every refusal -/

section
variable {ε σ α β : Type} {outbox : σ → List β} {tag : β → OutboxEvent} {restore : σ → σ → σ} {body : EStateM ε σ α} {s t : σ}

/-- A transaction that returns is committed. -/
theorem trace_kept {a : α} (run : body.run s = .ok a t) (grows : outbox s <+: outbox t) :
    (Users.trace outbox tag restore body s).Kept := by
  have whole : (atomically restore body).run s = .ok a t := by rw [run_atomically, run]
  simp only [Trace.Kept, Trace.passed, Users.trace, after_of_ok run, after_of_ok whole]
  obtain ⟨more, same⟩ := grows
  rw [← same, List.map_append, List.drop_left]

/-- A transaction that raises loses what its body has written. -/
theorem trace_lost {e : ε} (run : body.run s = .error e t) (restored : outbox (restore s t) = outbox s)
    (longer : (outbox s).length < (outbox t).length) : ¬(Users.trace outbox tag restore body s).Kept := by
  have whole : (atomically restore body).run s = .error e (restore s t) := by rw [run_atomically, run]
  simp only [Trace.Kept, Trace.passed, Users.trace, after_of_error run, after_of_error whole, restored]
  intro same
  have lengths := congrArg List.length same
  simp only [List.length_append, List.length_drop, List.length_map] at lengths
  omega

/-- A call that returns has a body that returns. -/
theorem body_of_ok {a : α} (run : (atomically restore body).run s = .ok a t) : body.run s = .ok a t := by
  rw [run_atomically] at run
  split at run
  · next b u same => rw [same, run]
  · cases run

theorem body_of_error {e : ε} (run : (atomically restore body).run s = .error e t) :
    ∃ u, body.run s = .error e u ∧ t = restore s u := by
  rw [run_atomically] at run
  split at run
  · cases run
  · next e' u same =>
    obtain ⟨rfl, rfl⟩ := EStateM.Result.error.inj run
    exact ⟨u, same, rfl⟩

end

/-- The events of a refusal stay exactly where it does not come from a full counter. -/
theorem refusals_audited (call : AuthCall) (refuses : call.Refuses) : call.trace.Kept ↔ call.rateLimited = false := by
  cases call with
  | loginStep1 env inp t =>
    obtain ⟨t', refused⟩ := refuses
    have run : (step1 env inp).run t = .ok .refused t' := by
      change step1 env inp t = _
      rw [step1, refused]
    exact iff_of_true (trace_kept run (loginStep1_outbox refused)) rfl
  | loginStep2 env inp w =>
    have settled : Settled _ _ ((LoginAudit.proxy.loginStep2 env inp).run w) := loginStep2_settles w rfl
    rcases refuses with ⟨u, run⟩ | ⟨u, run⟩
    · have body := body_of_ok run
      rw [body] at settled
      cases settled with
      | returned ended => exact iff_of_true (trace_kept body ended.2) ended.1
    · obtain ⟨v, body, -⟩ := body_of_error run
      rw [body] at settled
      cases settled with
      | raised ended =>
        obtain ⟨full, longer⟩ := ended rfl
        exact iff_of_false (trace_lost body rfl longer) (by rw [full]; decide)
  | refresh env inp t =>
    obtain ⟨reason, u, run⟩ := refuses
    have body := body_of_ok run
    have settled : Settled _ _ ((proxy.refreshToken env inp).run t) := refreshToken_grows t List.prefix_rfl
    rw [body] at settled
    cases settled with
    | returned grows => exact iff_of_true (trace_kept body grows) rfl
  | logout env inp t =>
    obtain ⟨u, run⟩ := refuses
    have body := body_of_ok run
    have settled : Settled _ _ ((proxy.logoutToken env inp).run t) := logoutToken_grows t List.prefix_rfl
    rw [body] at settled
    cases settled with
    | returned grows => exact iff_of_true (trace_kept body grows) rfl

/-- User 7 has given so many wrong codes, and gives another one. -/
def afterWrongCodes (attempts : Nat) : AuthCall :=
  .loginStep2 Auth.SecondFactor.defaultEnv Auth.SecondFactor.guess {
    tables := { Auth.SecondFactor.pendingLogin with
      twoFactorAttempts := [{ scope := .user, scopeKey := "7", attempts, windowStartAt := 59000000 }] } }

theorem refusals_audited_after_three : (afterWrongCodes 3).trace.Kept ↔ (afterWrongCodes 3).rateLimited = false :=
  refusals_audited (afterWrongCodes 3) (.inl ⟨_, rfl⟩)

/-- The fifth wrong code fills the counter, and both events of the call are lost. -/
theorem refusal_not_audited : ¬∀ call : AuthCall, call.Refuses → call.trace.Kept := by
  intro h
  have kept := h (afterWrongCodes 4) (.inr ⟨_, rfl⟩)
  revert kept
  unfold Trace.Kept
  decide +kernel

end NyzRating.Users
