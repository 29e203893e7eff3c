import Mathlib.Data.List.Nodup
import NyzRating.Auth.LoginService
import NyzRating.Lib.Run

/-!
# Wrong codes of an authenticator

The counters of a token, of a user and of an address are written in the transaction of the login. The call that fills
one of them raises, and its own count is taken back with everything else that it has written.
-/

namespace NyzRating.Auth.SecondFactor

open Program Runs

/-! ### Runs -/

/-- The world, and the counters of the wrong codes whose calls have been rolled back. -/
structure State extends World where
  lost : List (AttemptScope × String) := []
  deriving DecidableEq, Repr

def step (env : AuthEnv) (s : State) (inp : LoginInput) : State :=
  match (login env inp).run s.toWorld with
  | .ok _ w => { toWorld := w, lost := s.lost }
  | .error _ w => { toWorld := w, lost := s.lost ++ (w.wrongCodes.drop s.wrongCodes.length).flatMap (·.keys) }

/-- The codes counted for one token, user or address. -/
def wrongCodes (w : World) (key : AttemptScope × String) : Nat := w.wrongCodes.countP (key ∈ ·.keys)

/-- No token, user or address has had more wrong codes evaluated than the limit. -/
def Bounded (env : AuthEnv) (w : World) : Prop := ∀ key, (wrongCodes w key : Int) ≤ env.authenticatorMaxAttempts

/-- The wrong code that the second factor of a user evaluates, with this secret of an authenticator or none. -/
def factorEvaluatesWrong (env : AuthEnv) (inp : LoginInput) (t : AuthTables) (userId : Nat) : Option String → Option WrongCode
  | some secret =>
    if authenticatorBlocked env inp userId t = false ∧
        verifyAuthenticatorCode env secret inp.twoFactorCode inp.timestamp = some false then
      some (inp.wrongCode userId)
    else none
  | none => none

def factorAccepts (env : AuthEnv) (inp : LoginInput) (t : AuthTables) (userId : Nat) : Option String → Bool
  | some secret =>
    !authenticatorBlocked env inp userId t && verifyAuthenticatorCode env secret inp.twoFactorCode inp.timestamp = some true
  | none => !emailBlocked env inp userId t && (t.getValidCode env inp.now userId inp.twoFactorCode).isSome

/-- The wrong code of an authenticator that the call evaluates. -/
def evaluatesWrong (env : AuthEnv) (inp : LoginInput) (t : AuthTables) : Option WrongCode :=
  (t.getUserId inp.now inp.pendingToken).bind fun userId =>
    factorEvaluatesWrong env inp t userId (t.getEnabledSecret userId)

/-- The code of the call is right, and it is not blocked. -/
def accepts (env : AuthEnv) (inp : LoginInput) (t : AuthTables) : Bool :=
  (t.getUserId inp.now inp.pendingToken).any fun userId => factorAccepts env inp t userId (t.getEnabledSecret userId)

/-- The window that the call counts in. -/
def windowMinutes (env : AuthEnv) (inp : LoginInput) (t : AuthTables) : Int :=
  if (t.getUserId inp.now inp.pendingToken).any fun userId => (t.getEnabledSecret userId).isSome then
    env.authenticatorWindowMinutes
  else env.attemptWindowMinutes

/-- No counter has come to the end of its window, and the code is not a right one. -/
def WithinWindow (env : AuthEnv) (s : State) (inp : LoginInput) : Prop :=
  (∀ row ∈ s.tables.twoFactorAttempts, inp.now - row.windowStartAt ≤ minutes (windowMinutes env inp s.tables)) ∧
    accepts env inp s.tables = false

/-- No wrong code is evaluated for a token, user or address after one of its wrong codes was rolled back. -/
def NoneLost (env : AuthEnv) (s : State) (inp : LoginInput) : Prop :=
  ∀ code ∈ evaluatesWrong env inp s.tables, ∀ key ∈ code.keys, key ∉ s.lost

instance (env : AuthEnv) (s : State) (inp : LoginInput) : Decidable (WithinWindow env s inp) :=
  inferInstanceAs (Decidable ((∀ row ∈ s.tables.twoFactorAttempts, _) ∧ _))

instance (env : AuthEnv) (s : State) (inp : LoginInput) : Decidable (NoneLost env s inp) :=
  inferInstanceAs (Decidable (∀ code ∈ evaluatesWrong env inp s.tables, _))

/-! ### One attempt -/

/-- The count of a key. -/
def count (t : AuthTables) (key : AttemptScope × String) : Nat := ((t.attempt? key).map (·.attempts)).getD 0

/-- The counter of the key is within its window. -/
def Fresh (now window : Int) (t : AuthTables) (key : AttemptScope × String) : Prop :=
  ∀ row ∈ t.attempt? key, now - row.windowStartAt ≤ minutes window

/-- One more attempt on each of the keys, and nothing else on the counters. -/
structure Recorded (keys : List (AttemptScope × String)) (v w : World) : Prop where
  codes : w.wrongCodes = v.wrongCodes
  others : ∀ key ∉ keys, w.tables.attempt? key = v.tables.attempt? key
  counted : ∀ key ∈ keys, count w.tables key = count v.tables key + 1

section
variable {env : AuthEnv} {inp : LoginInput} {now window limit : Int} {keys : List (AttemptScope × String)}
  {key : AttemptScope × String} {v w : World}

theorem failed_key (now window : Int) (r : TwoFactorAttempt) : (r.failed now window).key = r.key := by
  unfold TwoFactorAttempt.failed
  split
  · rfl
  · rfl

/-- The row of the key after one more failed attempt. -/
def attempted (t : AuthTables) (now window : Int) (key : AttemptScope × String) : TwoFactorAttempt :=
  ((t.attempt? key).map (·.failed now window)).getD (.first now key)

theorem failed_attempts {r : TwoFactorAttempt} (fresh : now - r.windowStartAt ≤ minutes window) :
    (r.failed now window).attempts = r.attempts + 1 := by
  unfold TwoFactorAttempt.failed
  rw [if_neg (by omega)]

/-- One more attempt on one key, unless the key is too long for a new row. -/
theorem recordFailed_run (now window : Int) (key : AttemptScope × String) (w : World) :
    (∃ rows, (recordFailed now window key).run w = .ok ⟨⟩ { w with tables := { w.tables with twoFactorAttempts := rows } } ∧
      ∀ k, rows.find? (·.key = k) = if k = key then some (attempted w.tables now window key) else w.tables.attempt? k) ∨
    (recordFailed now window key).run w = .error .dataError w := by
  cases found : w.tables.attempt? key with
  | some row =>
    refine .inl ⟨w.tables.twoFactorAttempts.map fun r => if r.key = key then r.failed now window else r, ?_, fun k => ?_⟩
    · simp only [recordFailed, EStateM.run_bind, EStateM.run_get, found, EStateM.run_set]
    · have row_key : row.key = key := by simpa using List.find?_some found
      refine (Lists.find?_update (fun x hx => (failed_key now window x).trans hx) _).trans ?_
      by_cases same : k = key
      · subst same
        change (w.tables.attempt? k).map _ = _
        rw [found, Option.map_some, if_pos row_key, if_pos rfl, attempted, found]
        rfl
      · rw [if_neg same]
        change (w.tables.attempt? k).map _ = _
        cases other : w.tables.attempt? k with
        | none => rfl
        | some r =>
          have r_key : r.key = k := by simpa using List.find?_some other
          rw [Option.map_some, if_neg (r_key ▸ same)]
  | none =>
    simp only [recordFailed, EStateM.run_bind, EStateM.run_get, found, run_ite, run_throw, EStateM.run_set]
    split
    · exact .inr rfl
    · refine .inl ⟨_, rfl, fun k => ?_⟩
      have first_key : (TwoFactorAttempt.first now key).key = key := rfl
      rw [List.find?_append, List.find?_singleton, first_key]
      simp only [decide_eq_true_eq]
      change (w.tables.attempt? k).or _ = _
      by_cases same : k = key
      · subst same
        rw [found, if_pos rfl, if_pos rfl, attempted, found]
        rfl
      · rw [if_neg fun equal => same equal.symm, if_neg same, Option.or_none]

theorem recordFailed_recorded (fresh : Fresh now window w.tables key) :
    Returns (· = w) (recordFailed now window key) (fun _ => Recorded [key] w) fun u => u.wrongCodes = w.wrongCodes := by
  rintro w rfl
  rcases recordFailed_run now window key w with ⟨rows, run, look⟩ | run
  · rw [run]
    refine .returned { codes := rfl, others := fun k hk => ?_, counted := fun k hk => ?_ }
    · exact (look k).trans (if_neg fun same => hk (List.mem_singleton.mpr same))
    · cases List.mem_singleton.mp hk
      rw [count, count, AuthTables.attempt?, look key, if_pos rfl, attempted, Option.map_some, Option.getD_some]
      cases found : w.tables.attempt? key with
      | none => rfl
      | some row => exact failed_attempts (fresh row found)
  · rw [run]
    exact .raised rfl

theorem recordAttempts_recorded (limit : Int) (distinct : keys.Nodup) (fresh : ∀ key ∈ keys, Fresh now window w.tables key) :
    Returns (· = w) (recordAttempts now limit window keys) (fun _ => Recorded keys w) fun u => u.wrongCodes = w.wrongCodes := by
  induction keys generalizing w with
  | nil =>
    refine Returns.pure ?_
    rintro w rfl
    exact ⟨rfl, fun _ _ => rfl, fun _ h => absurd h List.not_mem_nil⟩
  | cons key keys ih =>
    obtain ⟨fresh_key, fresh_keys⟩ := List.forall_mem_cons.mp fresh
    obtain ⟨apart, distinct⟩ := List.nodup_cons.mp distinct
    refine Returns.bind (recordFailed_recorded fresh_key) fun _ u recorded => ?_
    have fresh_later : ∀ k ∈ keys, Fresh now window u.tables k := by
      intro k hk row found
      have other : k ∉ [key] := fun same => apart (List.mem_singleton.mp same ▸ hk)
      exact fresh_keys k hk row (recorded.others k other ▸ found)
    have later : Returns (· = u) (do
        let blocked ← recordAttempts now limit window keys
        return u.tables.isBlocked now limit window key || blocked) (fun _ => Recorded keys u) fun t =>
          t.wrongCodes = u.wrongCodes :=
      Returns.bind (ih distinct fresh_later) fun _ => Returns.pure fun _ h => h
    refine (later.mono (fun _ t rest => ?_) fun _ codes => codes.trans recorded.codes) u rfl
    refine ⟨rest.codes.trans recorded.codes, fun k hk => ?_, fun k hk => ?_⟩
    · have apart_keys : k ∉ keys := fun later => hk (List.mem_cons_of_mem _ later)
      have apart_key : k ∉ [key] := fun same => hk (List.mem_singleton.mp same ▸ List.mem_cons_self)
      rw [rest.others k apart_keys, recorded.others k apart_key]
    · rcases List.mem_cons.mp hk with rfl | later
      · rw [count, rest.others k apart]
        exact recorded.counted k (List.mem_singleton.mpr rfl)
      · have other : k ∉ [key] := fun same => apart (List.mem_singleton.mp same ▸ later)
        rw [rest.counted k later, count, recorded.others k other]
        rfl

/-- The wrong codes of a call are added, and each of them is counted. -/
structure Counted (codes : List WrongCode) (v w : World) : Prop where
  added : w.wrongCodes = v.wrongCodes ++ codes
  counted : ∀ key, count v.tables key + codes.countP (key ∈ ·.keys) ≤ count w.tables key

theorem Recorded.count_le (h : Recorded keys v w) (key : AttemptScope × String) :
    count v.tables key + (if key ∈ keys then 1 else 0) ≤ count w.tables key := by
  split
  · next mem => exact Nat.le_of_eq (h.counted key mem).symm
  · next other =>
    rw [count, count, h.others key other]
    exact Nat.le_refl _

theorem Recorded.counted_wrong {code : WrongCode} (h : Recorded code.keys (v.evaluated code) w) : Counted [code] v w where
  added := h.codes
  counted key := by
    rw [List.countP_singleton]
    simp only [decide_eq_true_eq]
    exact h.count_le key

theorem Recorded.counted_email (h : Recorded keys v w) : Counted [] v w where
  added := h.codes.trans (List.append_nil _).symm
  counted key := Nat.le_trans (Nat.le_add_right ..) (h.count_le key)

variable {codes : List WrongCode} {userId : Nat}

theorem auditLog_counted (action : AuditLogAction) (details : List (String × String)) :
    Returns (Counted codes v) (auditLog inp action userId details) (fun _ => Counted codes v)
      fun t => t.wrongCodes = v.wrongCodes ++ codes := by
  unfold auditLog
  refine Returns.ite (fun _ => Returns.modify fun t h => ?_) fun _ => Returns.throw fun t h => h.added
  exact ⟨h.added, h.counted⟩

theorem keys_nodup (code : WrongCode) : code.keys.Nodup := List.Nodup.filter _ (by simp)

theorem emailAttemptScopes_nodup : (emailAttemptScopes userId inp).Nodup := List.Nodup.filter _ (by simp)

/-- An authenticator's code that is not accepted is counted, if it is evaluated and wrong. -/
theorem verifyAuthenticator_counted {secret : String}
    (fresh : ∀ key, Fresh inp.now env.authenticatorWindowMinutes w.tables key)
    (rejected : factorAccepts env inp w.tables userId (some secret) = false) :
    Returns (· = w) (verifyAuthenticator env inp userId secret)
      (fun ok t => ok = false ∧ Counted (factorEvaluatesWrong env inp w.tables userId (some secret)).toList w t)
      fun t => t.wrongCodes = w.wrongCodes ++ (factorEvaluatesWrong env inp w.tables userId (some secret)).toList := by
  unfold verifyAuthenticator
  refine Returns.bind (R := fun x t => x = w ∧ t = w) (Returns.get fun _ h => ⟨h, h⟩) fun x => Returns.given ?_
  rintro rfl
  have raised : ∀ e : LoginError, Returns (· = x) (throw e : LoginM Bool) (fun ok t => ok = false ∧ Counted [] x t)
      fun t => t.wrongCodes = x.wrongCodes ++ [] := fun e => Returns.throw fun t h => h ▸ (List.append_nil _).symm
  unfold factorEvaluatesWrong
  unfold factorAccepts at rejected
  cases blocked : authenticatorBlocked env inp userId x.tables with
  | true => exact raised _
  | false =>
    simp only [blocked, Bool.not_false, Bool.true_and, decide_eq_false_iff_not] at rejected
    simp only [Bool.false_eq_true, if_false, true_and]
    cases verified : verifyAuthenticatorCode env secret inp.twoFactorCode inp.timestamp with
    | none => exact raised _
    | some ok =>
      cases ok with
      | true => exact absurd verified rejected
      | false =>
        refine Returns.bind (R := fun _ t => t = x.evaluated (inp.wrongCode userId)) (Returns.modify ?_) fun _ => ?_
        · rintro x rfl
          rfl
        · have recorded : Returns (· = x.evaluated (inp.wrongCode userId)) (recordAuthenticatorFailedAttempt env inp userId)
              (fun _ => Recorded (inp.wrongCode userId).keys (x.evaluated (inp.wrongCode userId)))
              fun t => t.wrongCodes = (x.evaluated (inp.wrongCode userId)).wrongCodes :=
            recordAttempts_recorded _ (keys_nodup (inp.wrongCode userId)) fun key _ => fresh key
          refine Returns.bind (recorded.mono (fun _ _ h => h.counted_wrong) fun _ h => h) fun blockedNow => ?_
          refine Returns.bind (auditLog_counted _ _) fun _ => ?_
          exact Returns.ite (fun _ => Returns.throw fun _ h => h.added) fun _ => Returns.pure fun _ h => ⟨rfl, h⟩

/-- An e-mailed code that is not accepted leaves the counters no lower. -/
theorem verifyCode_counted (fresh : ∀ key, Fresh inp.now env.attemptWindowMinutes w.tables key)
    (rejected : factorAccepts env inp w.tables userId none = false) :
    Returns (· = w) (verifyCode env inp userId) (fun ok t => ok = false ∧ Counted [] w t)
      fun t => t.wrongCodes = w.wrongCodes ++ [] := by
  unfold verifyCode
  refine Returns.bind (R := fun x t => x = w ∧ t = w) (Returns.get fun _ h => ⟨h, h⟩) fun x => Returns.given ?_
  rintro rfl
  unfold factorAccepts at rejected
  cases blocked : emailBlocked env inp userId x.tables with
  | true => exact Returns.throw fun t h => h ▸ (List.append_nil _).symm
  | false =>
    simp only [blocked, Bool.not_false, Bool.true_and, Option.isSome_eq_false_iff, Option.isNone_iff_eq_none] at rejected
    simp only [Bool.false_eq_true, if_false, rejected]
    refine Returns.bind (R := fun _ => Counted [] x) ?_ fun _ => Returns.pure fun _ h => ⟨rfl, h⟩
    exact (recordAttempts_recorded _ emailAttemptScopes_nodup fun key _ => fresh key).mono (fun _ _ h => h.counted_email)
      fun _ h => h.trans (List.append_nil _).symm

/-- The second factor of a user whose code is not accepted. -/
theorem secondFactor_counted {secret : Option String}
    (fresh : ∀ key, Fresh inp.now (if secret.isSome then env.authenticatorWindowMinutes else env.attemptWindowMinutes)
      w.tables key)
    (rejected : factorAccepts env inp w.tables userId secret = false) :
    Returns (· = w) (secondFactor env inp userId secret)
      (fun ok t => ok = false ∧ Counted (factorEvaluatesWrong env inp w.tables userId secret).toList w t)
      fun t => t.wrongCodes = w.wrongCodes ++ (factorEvaluatesWrong env inp w.tables userId secret).toList := by
  cases secret with
  | some secret =>
    rw [secondFactor]
    exact verifyAuthenticator_counted fresh rejected
  | none =>
    refine Returns.bind (verifyCode_counted fresh rejected) fun ok => Returns.given ?_
    rintro rfl
    exact Returns.bind (auditLog_counted _ _) fun _ => Returns.pure fun _ h => ⟨rfl, h⟩

theorem rateLimited_codes (all : List WrongCode) (e : LoginError) :
    Returns (·.wrongCodes = all) (rateLimited inp userId e) (fun _ _ => False) (·.wrongCodes = all) := by
  unfold rateLimited
  refine Returns.ite (fun _ => ?_) fun _ => Returns.throw fun _ h => h
  refine Returns.bind (R := fun _ t => t.wrongCodes = all) (Returns.modify fun _ h => h) fun _ => ?_
  refine Returns.bind (R := fun _ t => t.wrongCodes = all) ?_ fun _ => Returns.throw fun _ h => h
  unfold auditLog
  exact Returns.ite (fun _ => Returns.modify fun _ h => h) fun _ => Returns.throw fun _ h => h

/-! ### One call -/

variable {s : State}

theorem fresh_of_within (within : WithinWindow env s inp) (key : AttemptScope × String) :
    Fresh inp.now (windowMinutes env inp s.tables) s.tables key :=
  fun row found => within.1 row (List.mem_of_find?_eq_some found)

theorem loginStep2_counted (within : WithinWindow env s inp) :
    Returns (· = s.toWorld) (loginStep2 env inp) (fun _ => Counted (evaluatesWrong env inp s.tables).toList s.toWorld)
      fun t => t.wrongCodes = s.wrongCodes ++ (evaluatesWrong env inp s.tables).toList := by
  have fresh := fresh_of_within within
  obtain ⟨-, rejected⟩ := within
  unfold loginStep2
  refine Returns.bind (R := fun x t => x = s.toWorld ∧ t = s.toWorld) (Returns.get fun _ h => ⟨h, h⟩) fun x => Returns.given ?_
  rintro rfl
  unfold windowMinutes at fresh
  unfold accepts at rejected
  unfold evaluatesWrong
  cases found : s.tables.getUserId inp.now inp.pendingToken with
  | none =>
    refine Returns.pure ?_
    rintro _ rfl
    exact ⟨(List.append_nil _).symm, fun _ => Nat.le_refl _⟩
  | some userId =>
    rw [found, Option.any_some] at fresh rejected
    refine Returns.bind (Returns.tryCatch (secondFactor_counted fresh rejected) fun e =>
      (rateLimited_codes _ e).mono (fun _ _ h => h.elim) fun _ h => h) fun ok => Returns.given ?_
    rintro rfl
    exact Returns.pure fun _ h => h

/-- A call whose code is not accepted: the counters count its wrong code, or it leaves the tables as they were. -/
theorem login_counted (within : WithinWindow env s inp) :
    Returns (· = s.toWorld) (login env inp) (fun _ => Counted (evaluatesWrong env inp s.tables).toList s.toWorld)
      fun t => t.tables = s.tables ∧ t.wrongCodes = s.wrongCodes ++ (evaluatesWrong env inp s.tables).toList := by
  refine (Returns.atomically (loginStep2_counted within)).mono (fun _ _ h => h) ?_
  rintro _ ⟨t, codes, rfl⟩
  exact ⟨rfl, codes⟩

theorem factorEvaluatesWrong_some {t : AuthTables} {secret : Option String} {code : WrongCode}
    (h : factorEvaluatesWrong env inp t userId secret = some code) :
    secret.isSome = true ∧ authenticatorBlocked env inp userId t = false ∧ code = inp.wrongCode userId := by
  cases secret with
  | none => cases h
  | some secret =>
    obtain ⟨⟨unblocked, -⟩, same⟩ := Option.ite_none_right_eq_some.mp h
    exact ⟨rfl, unblocked, (Option.some.inj same).symm⟩

/-- Where a wrong code is evaluated, none of its counters is full. -/
theorem count_lt {code : WrongCode} (within : WithinWindow env s inp) (evaluated : evaluatesWrong env inp s.tables = some code)
    (mem : key ∈ code.keys) : (count s.tables key : Int) < env.authenticatorMaxAttempts := by
  have fresh := fresh_of_within within key
  obtain ⟨userId, found, evaluated⟩ := Option.bind_eq_some_iff.mp evaluated
  obtain ⟨authenticator, unblocked, rfl⟩ := factorEvaluatesWrong_some evaluated
  rw [windowMinutes, found, Option.any_some, if_pos authenticator] at fresh
  have open_ := List.any_eq_false.mp unblocked key mem
  have positive : 1 ≤ env.authenticatorMaxAttempts := Int.le_max_left ..
  unfold count
  unfold AuthTables.isBlocked at open_
  cases row : s.tables.attempt? key with
  | none =>
    change (0 : Int) < _
    omega
  | some r =>
    simp only [row, if_neg (Int.not_lt.mpr (fresh r row)), decide_eq_true_eq] at open_
    exact Int.not_le.mp open_

end

/-! ### The counters bound the wrong codes -/

/-- Where nothing is lost, the counters count every wrong code. -/
structure Sound (env : AuthEnv) (s : State) : Prop where
  bounded : Bounded env s.toWorld
  counted : ∀ key ∉ s.lost, wrongCodes s.toWorld key ≤ count s.tables key

section
variable {env : AuthEnv} {s : State} {inp : LoginInput}

theorem Sound.bounded_step {w : World} (h : Sound env s) (within : WithinWindow env s inp) (kept : NoneLost env s inp)
    (added : w.wrongCodes = s.wrongCodes ++ (evaluatesWrong env inp s.tables).toList) : Bounded env w := by
  intro key
  have before := h.bounded key
  unfold wrongCodes at before ⊢
  rw [added, List.countP_append]
  cases evaluated : evaluatesWrong env inp s.tables with
  | none => simpa using before
  | some code =>
    by_cases mem : key ∈ code.keys
    · have counted := h.counted key (kept code evaluated key mem)
      have limit := count_lt within evaluated mem
      unfold wrongCodes at counted
      simp only [Option.toList_some, List.countP_singleton, mem, decide_true, if_true]
      omega
    · simpa [mem] using before

theorem Sound.step (h : Sound env s) (within : WithinWindow env s inp) (kept : NoneLost env s inp) :
    Sound env (step env s inp) := by
  have called := login_counted within s.toWorld rfl
  unfold SecondFactor.step
  generalize (login env inp).run s.toWorld = result at called
  cases called with
  | returned after =>
    refine ⟨h.bounded_step within kept after.added, fun key hkey => ?_⟩
    have before := h.counted key hkey
    have counted := after.counted key
    unfold wrongCodes at before ⊢
    rw [after.added, List.countP_append]
    exact Nat.le_trans (Nat.add_le_add_right before _) counted
  | raised after =>
    obtain ⟨tables, added⟩ := after
    refine ⟨h.bounded_step within kept added, fun key hkey => ?_⟩
    dsimp only at hkey
    rw [added, List.drop_left] at hkey
    obtain ⟨earlier, unlost⟩ := not_or.mp (mt List.mem_append.mpr hkey)
    have none_added : (evaluatesWrong env inp s.tables).toList.countP (key ∈ ·.keys) = 0 :=
      List.countP_eq_zero.mpr fun code mem counts => unlost (List.mem_flatMap.mpr ⟨code, mem, by simpa using counts⟩)
    change wrongCodes _ key ≤ count _ key
    unfold wrongCodes
    rw [added, List.countP_append, none_added, tables]
    exact h.counted key earlier

theorem sound_start (t : AuthTables) : Sound env { tables := t } where
  bounded key := by
    have positive : 1 ≤ env.authenticatorMaxAttempts := Int.le_max_left ..
    change (0 : Int) ≤ _
    omega
  counted key _ := Nat.zero_le _

end

/-! ### A guesser -/

/-- The limits as they are set by default, at the second 59 of the epoch; the secret is the key of the test vectors of HOTP,
    with its first three digests. -/
def defaultEnv : AuthEnv where
  maxAttempts := 5
  attemptWindowMinutes := 15
  isDigit := Char.isDigit
  secretKey _ := some [49, 50, 51, 52, 53, 54, 55, 56, 57, 48, 49, 50, 51, 52, 53, 54, 55, 56, 57, 48]
  hmacSha1 _ counter :=
    match counter.getLast? with
    | some 0 => [204, 147, 207, 24, 80, 141, 148, 147, 76, 100, 182, 93, 139, 167, 102, 127, 183, 205, 228, 176]
    | some 1 => [117, 164, 138, 25, 212, 203, 225, 0, 100, 78, 138, 193, 57, 126, 234, 116, 122, 45, 51, 171]
    | _ => [11, 172, 183, 250, 8, 47, 239, 48, 120, 34, 17, 147, 139, 193, 197, 231, 4, 22, 255, 68]
  sha256Hex code := code

def secret : String := "GEZDGNBVGY3TQOJQGEZDGNBVGY3TQOJQ"

example : verifyAuthenticatorCode defaultEnv secret "287 082" 59 = some true := by decide

/-- User 7 has an authenticator and a pending login. -/
def pendingLogin : AuthTables where
  pending2fa := [{ token := "9f86d081", userId := 7, expiresAt := minutes 10 }]
  userAuthenticators := [{ userId := 7, secretBase32 := some secret, isEnabled := true }]
  twoFactorCodes := []
  users := [{ id := 7, isActive := true, deletedAt := none }]

def guess : LoginInput where
  pendingToken := "9f86d081"
  twoFactorCode := "123456"
  ip := some "203.0.113.7"
  ua := some "curl"
  correlationId := none
  now := 59000000
  timestamp := 59
  jti := "jti"
  secondStep := by decide

end NyzRating.Auth.SecondFactor
