import NyzRating.Auth.SessionFamily

/-!
# Refreshes at the same time

Several calls of `RefreshService.refresh` that present one token, each in a read-committed transaction. A call reads the
session as the last commit has left it; the update of the row waits for the lock of the row; what a call writes is seen by
the others when it commits.
-/

namespace NyzRating.Auth.Refresh.Race

open Program Runs

/-! ### Transactions -/

inductive Phase where
  | waiting
  /-- The call has read the session. -/
  | read (payload : Payload) (rec : Option SessionRow)
  /-- It has updated the row, and holds its lock. -/
  | updated (payload : Payload) (rec : SessionRow)
  /-- It has committed and returned, or has raised. -/
  | ended (result : Option RefreshResult)
  deriving DecidableEq, Repr

structure RefreshCall where
  inp : RefreshInput
  phase : Phase := .waiting

structure State where
  tables : SessionTables
  calls : List RefreshCall

/-- The rest of a call, and its commit. -/
def settle (m : SessionM RefreshResult) (t : SessionTables) : SessionTables × Phase :=
  match (atomically (fun t _ => t) m).run t with
  | .ok result u => (u, .ended (some result))
  | .error _ u => (u, .ended none)

def RefreshCall.next (env : TokenEnv) (locked : List Nat) (t : SessionTables) (c : RefreshCall) : SessionTables × Phase :=
  match c.phase with
  | .waiting =>
    match env.verify c.inp.token c.inp.now with
    | .ok payload =>
      if payload.typ = "refresh" ∧ c.inp.current payload = true then (t, .read payload (t.getByJti payload.jti))
      else settle (refreshToken env c.inp) t
    | .error _ => settle (refreshToken env c.inp) t
  | .read payload read =>
    match read.filter c.inp.rotates with
    | some rec => if rec.id ∈ locked then (t, c.phase) else (t, .updated payload rec)
    | none => settle (refreshSession env c.inp payload read) t
  | .updated payload rec => settle (rotate env c.inp payload rec) t
  | .ended result => (t, .ended result)

def RefreshCall.locks (c : RefreshCall) : Option Nat :=
  match c.phase with
  | .updated _ rec => some rec.id
  | _ => none

def step (env : TokenEnv) (s : State) (i : Nat) : State :=
  match s.calls[i]? with
  | none => s
  | some c =>
    let next := c.next env (s.calls.filterMap (·.locks)) s.tables
    { tables := next.1, calls := s.calls.set i { c with phase := next.2 } }

/-- The session that the call is about to replace. -/
def RefreshCall.rotating (c : RefreshCall) : Option SessionRow :=
  match c.phase with
  | .read _ read => read.filter c.inp.rotates
  | .updated _ rec => some rec
  | _ => none

def RefreshCall.succeeded (c : RefreshCall) : Bool :=
  match c.phase with
  | .ended (some (.success _)) => true
  | _ => false

/-- The calls of which a `RefreshSuccess` has come back. -/
def SucceedsOnce (s : State) : Prop :=
  ∀ (i j : Nat) (c d : RefreshCall), s.calls[i]? = some c → s.calls[j]? = some d → c.succeeded = true → d.succeeded = true → i = j

/-- A call reads its session only while no other call is about to replace one. -/
def ReadsAlone (s : State) (i : Nat) : Prop := ∀ c ∈ s.calls[i]?, c.phase = .waiting → ∀ d ∈ s.calls, d.rotating = none

instance (s : State) (i : Nat) : Decidable (ReadsAlone s i) :=
  inferInstanceAs (Decidable (∀ c ∈ s.calls[i]?, c.phase = .waiting → ∀ d ∈ s.calls, d.rotating = none))

/-- Calls with one token, none of which has begun. -/
structure Started (token : String) (s : State) : Prop where
  keyed : Keyed s.tables
  calls : ∀ c ∈ s.calls, c.inp.token = token ∧ c.phase = .waiting

/-! ### The invariant -/

/-- The call is about to replace the session, or has done so. -/
def RefreshCall.engaged (c : RefreshCall) : Prop := c.rotating.isSome = true ∨ c.succeeded = true

def RefreshCall.payload? (c : RefreshCall) : Option Payload :=
  match c.phase with
  | .read payload _ => some payload
  | .updated payload _ => some payload
  | _ => none

/-- The call and the session of the token go together. -/
structure Fits (env : TokenEnv) (token : String) (t : SessionTables) (c : RefreshCall) : Prop where
  presented : c.inp.token = token
  payload : ∀ payload, c.payload? = some payload → env.decode token = .ok payload
  row : ∀ rec, c.rotating = some rec → ∃ payload, env.decode token = .ok payload ∧
    ∃ r ∈ t.sessions, r.jti = payload.jti ∧ r.id = rec.id
  spent : c.succeeded = true → ∃ payload, env.decode token = .ok payload ∧
    ∃ r ∈ t.sessions, r.jti = payload.jti ∧ r.valid = false

structure Sound (env : TokenEnv) (token : String) (s : State) : Prop where
  keyed : Keyed s.tables
  fits : ∀ c ∈ s.calls, Fits env token s.tables c
  one : ∀ (i j : Nat) (c d : RefreshCall), s.calls[i]? = some c → s.calls[j]? = some d → c.engaged → d.engaged → i = j

section
variable {env : TokenEnv} {token : String} {s : State} {t u : SessionTables} {c d : RefreshCall} {i : Nat}

theorem Fits.follow (h : Fits env token t c) (follows : Follows t u) : Fits env token u c where
  presented := h.presented
  payload := h.payload
  row rec rotating := by
    obtain ⟨payload, decoded, r, mem, jti, id⟩ := h.row rec rotating
    obtain ⟨r', mem', id', jti', -, -⟩ := follows r mem
    exact ⟨payload, decoded, r', mem', jti'.trans jti, id'.trans id⟩
  spent succeeded := by
    obtain ⟨payload, decoded, r, mem, jti, invalid⟩ := h.spent succeeded
    obtain ⟨r', mem', -, jti', -, still⟩ := follows r mem
    exact ⟨payload, decoded, r', mem', jti'.trans jti, still invalid⟩

/-- What one call does, and how the others come through it. -/
theorem Sound.set (h : Sound env token s) (at_i : s.calls[i]? = some c) (follows : Follows s.tables t) (keyed : Keyed t)
    (fits : Fits env token t d) (alone : d.engaged → c.engaged ∨ ∀ e ∈ s.calls, ¬e.engaged) :
    Sound env token { tables := t, calls := s.calls.set i d } := by
  have one_d : ∀ j e, j ≠ i → s.calls[j]? = some e → d.engaged → ¬e.engaged := by
    intro j e other at_j engaged_d engaged_e
    rcases alone engaged_d with engaged_c | nobody
    · exact other (h.one j i e c at_j at_i engaged_e engaged_c)
    · exact nobody e (List.mem_of_getElem? at_j) engaged_e
  refine ⟨keyed, fun e mem => ?_, fun j k e f at_j at_k engaged_e engaged_f => ?_⟩
  · rcases List.mem_or_eq_of_mem_set mem with old | rfl
    · exact (h.fits e old).follow follows
    · exact fits
  · obtain ⟨rfl, rfl⟩ | ⟨other_j, old_j⟩ := Lists.getElem?_set_cases at_j
    · obtain ⟨rfl, -⟩ | ⟨other_k, old_k⟩ := Lists.getElem?_set_cases at_k
      · rfl
      · exact absurd engaged_f (one_d k f other_k old_k engaged_e)
    · obtain ⟨rfl, rfl⟩ | ⟨other_k, old_k⟩ := Lists.getElem?_set_cases at_k
      · exact absurd engaged_e (one_d j e other_j old_j engaged_f)
      · exact h.one j k e f old_j old_k engaged_e engaged_f

/-! ### Steps -/

theorem settle_forms {m : SessionM RefreshResult} {R : RefreshResult → SessionTables → Prop}
    (h : Returns (Same t) m R fun _ => True) :
    settle m t = (t, .ended none) ∨ ∃ result u, R result u ∧ settle m t = (u, .ended (some result)) := by
  have start : Returns (· = t) m R fun _ => True := fun u same => h u (same ▸ .refl _)
  have spec : Returns (· = t) (atomically (fun t _ => t) m) _ _ := .atomically start
  have ends := spec t rfl
  unfold settle
  generalize (atomically (fun t _ => t) m).run t = result at ends ⊢
  cases ends with
  | raised ended =>
    obtain ⟨_, -, rfl⟩ := ended
    exact .inl rfl
  | @returned result u ended => exact .inr ⟨result, u, ended, rfl⟩

theorem not_engaged_ended {result : Option RefreshResult} (failed : ∀ tokens, result ≠ some (.success tokens)) :
    ¬({ c with phase := .ended result } : RefreshCall).engaged := by
  rintro (rotating | succeeded)
  · cases rotating
  · cases result with
    | none => cases succeeded
    | some result =>
      cases result with
      | failed reason => cases succeeded
      | success tokens => exact failed tokens rfl

theorem Fits.ended (h : Fits env token t c) {result : Option RefreshResult} (failed : ∀ tokens, result ≠ some (.success tokens)) :
    Fits env token t { c with phase := .ended result } where
  presented := h.presented
  payload := nofun
  row := nofun
  spent succeeded := absurd (.inr succeeded) (not_engaged_ended (c := c) failed)

/-- A call that replaces no session may end. -/
theorem Sound.idle (h : Sound env token s) (at_i : s.calls[i]? = some c) {m : SessionM RefreshResult}
    (returns : Returns (Same s.tables) m (fun result u => (∀ tokens, result ≠ .success tokens) ∧
      ∃ f, Weakens f ∧ Same { s.tables with sessions := s.tables.sessions.map f } u) fun _ => True) :
    Sound env token
      { tables := (settle m s.tables).1, calls := s.calls.set i { c with phase := (settle m s.tables).2 } } := by
  have fits := h.fits c (List.mem_of_getElem? at_i)
  rcases settle_forms returns with raised | ⟨result, u, ⟨failed, f, weakens, same⟩, returned⟩
  · rw [raised]
    exact h.set at_i (Same.refl _).follows h.keyed (fits.ended nofun) fun engaged => absurd engaged (not_engaged_ended nofun)
  · have failed' : ∀ tokens, some result ≠ some (.success tokens) := fun tokens same => failed tokens (Option.some.inj same)
    have follows := (weakens.follows s.tables).trans same.follows
    rw [returned]
    exact h.set at_i follows (same.keyed (weakens.keyed h.keyed)) ((fits.follow follows).ended failed') fun engaged =>
      absurd engaged (not_engaged_ended failed')

/-- A call that does not come to the sessions. -/
theorem refreshToken_idle {inp : RefreshInput}
    (unread : ∀ payload, env.verify inp.token inp.now = .ok payload → ¬(payload.typ = "refresh" ∧ inp.current payload = true)) :
    Returns (Same t) (refreshToken env inp) (fun result u => (∀ tokens, result ≠ .success tokens) ∧
      ∃ f, Weakens f ∧ Same { t with sessions := t.sessions.map f } u) fun _ => True := by
  unfold refreshToken
  cases verified : env.verify inp.token inp.now with
  | error e =>
    cases e with
    | expired | invalid => exact synchronous.refuse_idle
    | other => exact .throw fun _ _ => trivial
  | ok payload =>
    dsimp only
    unfold refreshVerified
    refine .ite (fun _ => synchronous.refuse_idle) fun typ => .ite (fun _ => synchronous.refuse_idle) fun current => ?_
    exact absurd ⟨not_not.mp typ, by simpa using current⟩ (unread payload verified)

/-- A call reads the session while nobody else is about to replace it. -/
theorem Sound.read (h : Sound env token s) (at_i : s.calls[i]? = some c) {payload : Payload}
    (verified : env.verify c.inp.token c.inp.now = .ok payload) (alone : ∀ d ∈ s.calls, d.rotating = none) :
    Sound env token { s with calls := s.calls.set i { c with phase := .read payload (s.tables.getByJti payload.jti) } } := by
  have fits := h.fits c (List.mem_of_getElem? at_i)
  have decoded : env.decode token = .ok payload := fits.presented ▸ verify_eq_ok verified
  refine h.set at_i (Same.refl _).follows h.keyed ⟨fits.presented, ?_, fun rec rotating => ?_, nofun⟩ fun engaged => .inr ?_
  · rintro payload' same
    cases same
    exact decoded
  · obtain ⟨found, -⟩ := Option.filter_eq_some_iff.mp rotating
    obtain ⟨mem, jti⟩ := getByJti_eq_some found
    exact ⟨payload, decoded, rec, mem, jti, rfl⟩
  · rintro d mem (rotating | succeeded)
    · rw [alone d mem] at rotating
      cases rotating
    · rcases engaged with rotating | again
      · obtain ⟨rec, rotating⟩ := Option.isSome_iff_exists.mp rotating
        obtain ⟨found, rotates⟩ := Option.filter_eq_some_iff.mp rotating
        obtain ⟨mem', jti⟩ := getByJti_eq_some found
        obtain ⟨payload', decoded', r, mem, jti', invalid⟩ := (h.fits d mem).spent succeeded
        cases decoded.symm.trans decoded'
        have equal : r = rec := List.inj_on_of_nodup_map h.keyed.jtis mem mem' (jti'.trans jti.symm)
        rw [equal] at invalid
        simp [RefreshInput.rotates, invalid] at rotates
      · cases again

/-- The session is replaced. -/
theorem Sound.rotate (h : Sound env token s) (at_i : s.calls[i]? = some c) {payload : Payload} {rec : SessionRow}
    (phase : c.phase = .updated payload rec) : Sound env token
      { tables := (settle (Refresh.rotate env c.inp payload rec) s.tables).1
        calls := s.calls.set i { c with phase := (settle (Refresh.rotate env c.inp payload rec) s.tables).2 } } := by
  have fits := h.fits c (List.mem_of_getElem? at_i)
  have rotating : c.rotating = some rec := by simp only [RefreshCall.rotating, phase]
  have writes : Returns (Same s.tables) (Refresh.rotate env c.inp payload rec) _ _ := synchronous.rotate_writes
  rcases settle_forms writes with raised | ⟨result, u, ⟨-, fresh, same⟩, returned⟩
  · rw [raised]
    exact h.set at_i (Same.refl _).follows h.keyed (fits.ended nofun) fun engaged => absurd engaged (not_engaged_ended nofun)
  · have updated : Keyed (s.tables.update rec.invalidate) := (weakens_update rec).keyed h.keyed
    have follows : Follows s.tables u :=
      (((weakens_update rec).follows s.tables).trans (Follows.create _ _)).trans same.follows
    have fresh' : ∀ r ∈ (s.tables.update rec.invalidate).sessions, r.jti ≠ c.inp.jti := by
      intro r mem
      obtain ⟨r₀, old, rfl⟩ := List.mem_map.mp mem
      rw [(weakens_update rec).jti]
      exact fresh r₀ old
    rw [returned]
    refine h.set at_i follows (same.keyed (updated.create fresh')) ⟨fits.presented, nofun, nofun, fun _ => ?_⟩ fun _ =>
      .inl (.inl (Option.isSome_iff_exists.mpr ⟨rec, rotating⟩))
    obtain ⟨payload', decoded, r, mem, jti, own⟩ := fits.row rec rotating
    refine ⟨payload', decoded, rec.invalidate.written r, ?_, ((weakens_update rec).jti r).trans jti, ?_⟩
    · rw [same.sessions]
      exact List.mem_append_left _ (List.mem_map_of_mem mem)
    · simp [SessionRow.written, SessionRow.invalidate, own]

theorem Sound.step (h : Sound env token s) (alone : ReadsAlone s i) : Sound env token (step env s i) := by
  unfold Race.step
  cases at_i : s.calls[i]? with
  | none => exact h
  | some c =>
    have fits := h.fits c (List.mem_of_getElem? at_i)
    dsimp only
    unfold RefreshCall.next
    split
    · next waiting =>
      split
      · next payload verified =>
        split
        · exact h.read at_i verified (alone c at_i waiting)
        · next unread =>
          refine h.idle at_i (refreshToken_idle fun payload' verified' => ?_)
          cases verified.symm.trans verified'
          exact unread
      · next e failed =>
        refine h.idle at_i (refreshToken_idle fun payload' verified' => ?_)
        cases failed.symm.trans verified'
    · next payload read phase =>
      split
      · next rec found =>
        have rotating : c.rotating = some rec := by simp only [RefreshCall.rotating, phase, found]
        have engaged : c.engaged := .inl (Option.isSome_iff_exists.mpr ⟨rec, rotating⟩)
        split
        · exact h.set at_i (Same.refl _).follows h.keyed fits fun _ => .inl engaged
        · refine h.set at_i (Same.refl _).follows h.keyed ⟨fits.presented, ?_, ?_, nofun⟩ fun _ => .inl engaged
          · rintro payload' same
            cases same
            exact fits.payload payload (by simp only [RefreshCall.payload?, phase])
          · rintro rec' same
            cases same
            exact fits.row rec rotating
      · next stays =>
        refine h.idle at_i (synchronous.refreshSession_idle fun rec mem => ?_)
        have kept := Option.filter_eq_none_iff.mp stays rec mem
        simpa using kept
    · next payload rec phase => exact h.rotate at_i phase
    · next result phase =>
      have same : ({ c with phase := .ended result } : RefreshCall) = c := by rw [← phase]
      rw [same]
      exact h.set at_i (Same.refl _).follows h.keyed fits .inl

theorem Started.sound (h : Started token s) : Sound env token s where
  keyed := h.keyed
  fits c mem := by
    obtain ⟨presented, waiting⟩ := h.calls c mem
    refine ⟨presented, fun payload same => ?_, fun rec same => ?_, fun same => ?_⟩
    · simp [RefreshCall.payload?, waiting] at same
    · simp [RefreshCall.rotating, waiting] at same
    · simp [RefreshCall.succeeded, waiting] at same
  one i j c d at_i at_j engaged := by
    obtain ⟨-, waiting⟩ := h.calls c (List.mem_of_getElem? at_i)
    rcases engaged with rotating | succeeded
    · simp [RefreshCall.rotating, waiting] at rotating
    · simp [RefreshCall.succeeded, waiting] at succeeded

/-- However the transactions of the calls interleave, one of them at most returns tokens, if none reads its session while
    another one is about to replace it. -/
theorem refresh_succeeds_once (start : Started token s) (schedule : List Nat)
    (alone : Always (Race.step env) ReadsAlone s schedule) : SucceedsOnce (final (Race.step env) s schedule) := by
  have sound : Sound env token (final (Race.step env) s schedule) :=
    final_invariant (Sound env token) start.sound (fun _ _ sound alone => sound.step alone) alone
  exact fun i j c d at_i at_j first second => sound.one i j c d at_i at_j (.inr first) (.inr second)

/-! ### A call on its own -/

theorem settle_congr {m m' : SessionM RefreshResult} (same : m.run t = m'.run t) : settle m t = settle m' t := by
  simp only [settle, run_atomically, same]

theorem step_eq (at_i : s.calls[i]? = some c) : Race.step env s i =
    { tables := (c.next env (s.calls.filterMap (·.locks)) s.tables).1
      calls := s.calls.set i { c with phase := (c.next env (s.calls.filterMap (·.locks)) s.tables).2 } } := by
  simp only [Race.step, at_i]

/-- The state in which call `i` has come to `next`. -/
def State.moved (s : State) (i : Nat) (c : RefreshCall) (next : SessionTables × Phase) : State :=
  { tables := next.1, calls := s.calls.set i { c with phase := next.2 } }

theorem moved_at (at_i : s.calls[i]? = some c) (next : SessionTables × Phase) :
    (s.moved i c next).calls[i]? = some { c with phase := next.2 } := by
  have inside : i < s.calls.length := (List.getElem?_eq_some_iff.mp at_i).1
  exact List.getElem?_set_self inside

theorem moved_moved (d : RefreshCall) (other : d.inp = c.inp) (next next' : SessionTables × Phase) :
    (s.moved i c next).moved i d next' = s.moved i c next' := by
  simp only [State.moved, List.set_set, other]

theorem step_moved (at_i : s.calls[i]? = some c) (next : SessionTables × Phase) :
    Race.step env (s.moved i c next) i =
      s.moved i c (({ c with phase := next.2 } : RefreshCall).next env ((s.moved i c next).calls.filterMap (·.locks)) next.1) := by
  rw [step_eq (moved_at at_i _)]
  exact moved_moved _ rfl _ _

/-- Once it has ended, a call does nothing more. -/
theorem step_ended (at_i : s.calls[i]? = some c) (u : SessionTables) (result : Option RefreshResult) :
    Race.step env (s.moved i c (u, .ended result)) i = s.moved i c (u, .ended result) := step_moved at_i _

theorem settle_ended (m : SessionM RefreshResult) (t : SessionTables) :
    ∃ result, settle m t = ((settle m t).1, .ended result) := by
  unfold settle
  split
  · exact ⟨_, rfl⟩
  · exact ⟨_, rfl⟩

theorem unlocked_moved (unlocked : s.calls.filterMap (·.locks) = []) {next : SessionTables × Phase}
    (free : ({ c with phase := next.2 } : RefreshCall).locks = none) : (s.moved i c next).calls.filterMap (·.locks) = [] := by
  rw [List.filterMap_eq_nil_iff] at unlocked ⊢
  intro d mem
  rcases List.mem_or_eq_of_mem_set mem with old | rfl
  · exact unlocked d old
  · exact free

theorem refreshSession_rotates {inp : RefreshInput} {payload : Payload} {rec : SessionRow} (rotates : inp.rotates rec = true) :
    refreshSession env inp payload (some rec) = rotate env inp payload rec := by
  simp only [RefreshInput.rotates, Bool.and_eq_true, Bool.not_eq_true'] at rotates
  simp [refreshSession, rotates]

/-- A call that nobody disturbs is `RefreshService.refresh`. -/
theorem refresh_alone (at_i : s.calls[i]? = some c) (waiting : c.phase = .waiting)
    (unlocked : s.calls.filterMap (·.locks) = []) :
    final (Race.step env) s [i, i, i] = s.moved i c (settle (refreshToken env c.inp) s.tables) := by
  simp only [final_cons, final_nil]
  obtain ⟨result, ended⟩ := settle_ended (refreshToken env c.inp) s.tables
  by_cases reads : ∃ payload, env.verify c.inp.token c.inp.now = .ok payload ∧ payload.typ = "refresh" ∧
      c.inp.current payload = true
  · obtain ⟨payload, verified, typ, current⟩ := reads
    have first : Race.step env s i = s.moved i c (s.tables, .read payload (s.tables.getByJti payload.jti)) := by
      rw [step_eq at_i]
      simp only [RefreshCall.next, waiting, verified, typ, current, and_self, if_true]
      rfl
    have session : settle (refreshSession env c.inp payload (s.tables.getByJti payload.jti)) s.tables =
        settle (refreshToken env c.inp) s.tables := by
      refine settle_congr ?_
      simp [refreshToken, verified, refreshVerified, typ, current, EStateM.run_bind]
    rw [first, step_moved at_i]
    simp only [RefreshCall.next]
    rw [unlocked_moved unlocked rfl]
    cases found : (s.tables.getByJti payload.jti).filter c.inp.rotates with
    | none =>
      dsimp only
      rw [session, ended, step_ended at_i]
    | some rec =>
      obtain ⟨read, rotates⟩ := Option.filter_eq_some_iff.mp found
      simp only [List.not_mem_nil, if_false]
      rw [step_moved at_i]
      simp only [RefreshCall.next]
      rw [← session, read, refreshSession_rotates rotates]
  · have first : Race.step env s i = s.moved i c (settle (refreshToken env c.inp) s.tables) := by
      rw [step_eq at_i]
      have next : c.next env (s.calls.filterMap (·.locks)) s.tables = settle (refreshToken env c.inp) s.tables := by
        simp only [RefreshCall.next, waiting]
        split
        · next payload verified => rw [if_neg fun read => reads ⟨payload, verified, read⟩]
        · rfl
      rw [next]
      rfl
    rw [first, ended, step_ended at_i, step_ended at_i]

end

/-! ### Two tabs -/

/-- Two calls that come with the token of one login. -/
def twoTabs : State where
  tables := (final (Refresh.step twoTokens) {} [.login { user := owner, jti := "j1", accessJti := "a1", now := 0 }]).tables
  calls := ["j2", "j3"].map fun jti =>
    { inp := { token := "j1", users := fun _ => some owner, jti, accessJti := jti, now := 60000000 } }

theorem twoTabs_started : Started "j1" twoTabs where
  keyed := by constructor <;> decide +kernel
  calls := by
    intro c mem
    obtain ⟨jti, -, rfl⟩ := List.mem_map.mp mem
    exact ⟨rfl, rfl⟩

/-- One after the other, the second call finds the token used. -/
theorem refresh_succeeds_once_in_turn :
    SucceedsOnce (final (step twoTokens) twoTabs [0, 0, 0, 1, 1]) ∧
      (final (step twoTokens) twoTabs [0, 0, 0, 1, 1]).calls.map (·.succeeded) = [true, false] := by
  refine ⟨refresh_succeeds_once twoTabs_started _ ?_, ?_⟩
  · decide +kernel
  · decide +kernel

/-- Both calls read the session before one of them updates it, and both return tokens. -/
theorem refresh_succeeds_twice : ¬SucceedsOnce (final (step twoTokens) twoTabs [0, 1, 0, 0, 1, 1]) := by
  intro once
  have both : (final (step twoTokens) twoTabs [0, 1, 0, 0, 1, 1]).calls.map (·.succeeded) = [true, true] := by decide +kernel
  obtain ⟨c, d, calls⟩ : ∃ c d, (final (step twoTokens) twoTabs [0, 1, 0, 0, 1, 1]).calls = [c, d] :=
    List.length_eq_two.mp (by simpa using congrArg List.length both)
  rw [calls, List.map_cons, List.map_singleton] at both
  obtain ⟨first, second⟩ : c.succeeded = true ∧ d.succeeded = true := by simpa using both
  exact absurd (once 0 1 c d (by rw [calls]; rfl) (by rw [calls]; rfl) first second) (by decide)

end NyzRating.Auth.Refresh.Race
