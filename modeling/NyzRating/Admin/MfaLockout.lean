import Mathlib.Data.List.Nodup
import NyzRating.Admin.PlatformAdminService

/-!
# The lockout of the second factor

A code is counted as a recovery code if it has eight letters and digits or more, and compared with those of the
authenticator if six digits are left of it. It may be both.
-/

namespace NyzRating.Admin.Lockout

open Process Program Runs

/-! ### Runs -/

def totpKey (userId : Nat) : MfaScope × String := ({ kind := .totp, subject := .user }, toString userId)

def totpLimits (env : AdminEnv) : AttemptLimits := env.mfaLimits { kind := .totp, subject := .user }

/-- The world after logins one after another, and the wrong codes: whose, and in which window of the user's counter. -/
structure State extends World where
  clock : Int
  charged : List (Nat × Nat) := []
  deriving DecidableEq, Repr

/-- How many windows the counter of a key has begun. -/
def begun (key : MfaScope × String) (w : World) : Nat := w.windows.count key

def inWindow (env : AdminEnv) (w : World) (userId : Nat) (now : Int) : Bool :=
  (w.tables.attempt? (totpKey userId)).any fun row => !row.over (totpLimits env) now

/-- The window of a code that a login from `v` to `w` has evaluated: the one that was on, or the one that it has begun. -/
def windowOf (env : AdminEnv) (v w : World) (userId : Nat) (now : Int) : Option Nat :=
  if inWindow env v userId now then some (begun (totpKey userId) v)
  else if inWindow env w userId now then some (begun (totpKey userId) w)
  else none

def evaluated (v w : World) : List Evaluation := w.evaluations.drop v.evaluations.length

def charge (env : AdminEnv) (v w : World) (now : Int) (e : Evaluation) : Option (Nat × Nat) :=
  if e.matched then none else (windowOf env v w e.userId now).map (e.userId, ·)

def loggedIn (env : AdminEnv) (inp : AdminLoginInput) (w : World) : World := after ((login env inp).run AdminCall.apply) w

def step (env : AdminEnv) (s : State) (inp : AdminLoginInput) : State :=
  let w := loggedIn env inp s.toWorld
  { toWorld := w, clock := inp.now
    charged := s.charged ++ (evaluated s.toWorld w).filterMap (charge env s.toWorld w inp.now) }

/-- No window of a user's counter has more wrong codes than the limit. -/
def Bounded (env : AdminEnv) (s : State) : Prop :=
  ∀ userId window, (s.charged.count (userId, window) : Int) ≤ (totpLimits env).maxAttempts

/-- The login evaluates no code of a user whose counter was locked until a later time. -/
def KeepsLock (env : AdminEnv) (s : State) (inp : AdminLoginInput) : Prop :=
  ∀ e ∈ evaluated s.toWorld (loggedIn env inp s.toWorld), ∀ lock ∈ s.locks, lock.1 = totpKey e.userId → lock.2 ≤ inp.now

/-- The user of whom the login asks a code. -/
def asks (env : AdminEnv) (inp : AdminLoginInput) (t : AdminTables) : Option PlatformAdminUser :=
  (t.getByEmail (env.normalizeEmail inp.email)).filter fun user =>
    user.isActive && user.deletedAt.isNone && env.verifyPassword inp.password user.passwordHash && user.isMfaEnabled

/-- The code is a recovery code of the user. -/
def recovers (env : AdminEnv) (inp : AdminLoginInput) (t : AdminTables) (user : PlatformAdminUser) : Bool :=
  let normalized := env.normalizeMfaCode inp.mfaCode
  8 ≤ normalized.length && (t.getById user.id).any fun row => env.recoveryHash normalized ∈ AdminTables.recoveryCodes row

/-- A code that is evaluated is one that the authenticator's counter counts; no recovery code comes while that counter is
    locked; and no code comes in the window of a full counter whose lock is over. -/
structure Orderly (env : AdminEnv) (s : State) (inp : AdminLoginInput) : Prop where
  counted : ∀ user ∈ asks env inp s.tables, evaluates env (env.normalizeMfaCode inp.mfaCode) = true →
    env.mfaAttemptKindFromCode inp.mfaCode = .totp
  locked : ∀ user ∈ asks env inp s.tables, ∀ row ∈ s.tables.attempt? (totpKey user.id), row.blocked inp.now = true →
    recovers env inp s.tables user = false
  full : ∀ user ∈ asks env inp s.tables, ∀ row ∈ s.tables.attempt? (totpKey user.id),
    (totpLimits env).maxAttempts ≤ row.attempts → row.blocked inp.now = true ∨ row.over (totpLimits env) inp.now = true

instance (env : AdminEnv) (s : State) (inp : AdminLoginInput) : Decidable (KeepsLock env s inp) :=
  inferInstanceAs (Decidable (∀ e ∈ evaluated s.toWorld (loggedIn env inp s.toWorld), _))

instance (env : AdminEnv) (s : State) (inp : AdminLoginInput) : Decidable (Orderly env s inp) :=
  decidable_of_iff
    ((∀ user ∈ asks env inp s.tables, evaluates env (env.normalizeMfaCode inp.mfaCode) = true →
        env.mfaAttemptKindFromCode inp.mfaCode = .totp) ∧
      (∀ user ∈ asks env inp s.tables, ∀ row ∈ s.tables.attempt? (totpKey user.id), row.blocked inp.now = true →
        recovers env inp s.tables user = false) ∧
      ∀ user ∈ asks env inp s.tables, ∀ row ∈ s.tables.attempt? (totpKey user.id),
        (totpLimits env).maxAttempts ≤ row.attempts → row.blocked inp.now = true ∨ row.over (totpLimits env) inp.now = true)
    ⟨fun h => ⟨h.1, h.2.1, h.2.2⟩, fun h => ⟨h.counted, h.locked, h.full⟩⟩

/-! ### One counter -/

section
variable {env : AdminEnv} {inp : AdminLoginInput} {key : MfaScope × String} {u v w : World} {limits : AttemptLimits} {now : Int}

/-- The counter of the key is left alone. -/
structure Unmoved (key : MfaScope × String) (v w : World) : Prop where
  row : w.tables.attempt? key = v.tables.attempt? key
  begun : begun key w = begun key v
  locks : ∀ until', (key, until') ∈ w.locks ↔ (key, until') ∈ v.locks

/-- One more attempt is counted. -/
structure Counted (key : MfaScope × String) (limits : AttemptLimits) (now : Int) (v w : World) : Prop where
  row : w.tables.attempt? key = some (v.tables.attempted key limits now)
  begun : begun key w = begun key v + if AdminCall.opens v.tables key limits now then 1 else 0
  locks : ∀ until', (key, until') ∈ w.locks ↔
    (key, until') ∈ v.locks ∨ (v.tables.attempted key limits now).blockedUntil = some until'

/-- The counter is reset, if there is one. -/
structure Restarted (key : MfaScope × String) (now : Int) (v w : World) : Prop where
  row : w.tables.attempt? key = (v.tables.attempt? key).map (·.reset now)
  begun : begun key w = begun key v + if (v.tables.attempt? key).isSome then 1 else 0
  locks : ∀ until', (key, until') ∈ w.locks ↔ (key, until') ∈ v.locks

theorem Unmoved.refl : Unmoved key v v := ⟨rfl, rfl, fun _ => Iff.rfl⟩

theorem Unmoved.trans (h : Unmoved key u v) (h' : Unmoved key v w) : Unmoved key u w :=
  ⟨h'.row.trans h.row, h'.begun.trans h.begun, fun t => (h'.locks t).trans (h.locks t)⟩

theorem Counted.unmoved (h : Counted key limits now u v) (h' : Unmoved key v w) : Counted key limits now u w :=
  ⟨h'.row.trans h.row, h'.begun.trans h.begun, fun t => (h'.locks t).trans (h.locks t)⟩

theorem Restarted.unmoved (h : Restarted key now u v) (h' : Unmoved key v w) : Restarted key now u w :=
  ⟨h'.row.trans h.row, h'.begun.trans h.begun, fun t => (h'.locks t).trans (h.locks t)⟩

/-- Whether the call writes the counter of a key. -/
def touches (c : AdminCall) (key : MfaScope × String) : Prop :=
  match c with
  | .recordFailedAttempt k _ _ => k = key
  | .resetAttempts keys _ => key ∈ keys
  | _ => False

theorem failed_key (r : MfaAttempt) : (r.failed limits now).key = r.key := by
  unfold MfaAttempt.failed MfaAttempt.counted
  split
  · rfl
  · split
    · rfl
    · rfl

theorem attempt?_record (t : AdminTables) (key k : MfaScope × String) (limits : AttemptLimits) (now : Int) :
    (t.recordFailedAttempt k limits now).attempt? key =
      if key = k then some (t.attempted k limits now) else t.attempt? key := by
  unfold AdminTables.recordFailedAttempt
  cases found : t.attempt? k with
  | some row =>
    have row_key : row.key = k := by simpa using List.find?_some found
    refine (Lists.find?_update (fun x hx => (failed_key x).trans hx) _).trans ?_
    change (t.attempt? key).map _ = _
    by_cases same : key = k
    · rw [same, found, Option.map_some, if_pos row_key, if_pos rfl, AdminTables.attempted, found, Option.getD_some]
    · rw [if_neg same]
      cases other : t.attempt? key with
      | none => rfl
      | some r =>
        have r_key : r.key = key := by simpa using List.find?_some other
        rw [Option.map_some, if_neg (r_key ▸ same)]
  | none =>
    have first_key : ((MfaAttempt.first k now).failed limits now).key = k := failed_key _
    change (t.mfaAttempts ++ _).find? _ = _
    rw [List.find?_append, List.find?_singleton, first_key]
    change (t.attempt? key).or _ = _
    by_cases same : key = k
    · simp [same, found, AdminTables.attempted]
    · simp [same, Ne.symm same]

theorem attempt?_reset (t : AdminTables) (keys : List (MfaScope × String)) :
    (t.resetAttempts keys now).attempt? key = if key ∈ keys then (t.attempt? key).map (·.reset now) else t.attempt? key := by
  unfold AdminTables.resetAttempts AdminTables.attempt?
  induction t.mfaAttempts with
  | nil => simp
  | cons r rest ih =>
    have kept : (if r.key ∈ keys then r.reset now else r).key = r.key := by
      split
      · rfl
      · rfl
    rw [List.map_cons, List.find?_cons, List.find?_cons, kept]
    by_cases own : r.key = key
    · simp only [own, decide_true]
      split
      · rfl
      · rfl
    · simpa [own] using ih

theorem unmoved_of_not_touches {c : AdminCall} (h : ¬touches c key) (v : World) : Unmoved key v (c.apply v) := by
  cases c with
  | recordFailedAttempt k limits now =>
    have other : key ≠ k := fun same => h same.symm
    refine ⟨?_, ?_, fun t => ?_⟩
    · exact (attempt?_record v.tables key k limits now).trans (if_neg other)
    · simp only [begun, AdminCall.apply]
      split
      · simp [Ne.symm other]
      · rfl
    · simp only [AdminCall.apply, List.mem_append, Option.mem_toList]
      constructor
      · rintro (old | new)
        · exact old
        · obtain ⟨_, -, same⟩ := Option.map_eq_some_iff.mp new
          exact absurd (congrArg Prod.fst same).symm other
      · exact .inl
  | resetAttempts keys now =>
    have other : key ∉ keys := h
    refine ⟨?_, ?_, fun t => Iff.rfl⟩
    · exact (attempt?_reset v.tables keys).trans (if_neg other)
    · simp only [begun, AdminCall.apply, List.count_append, Nat.add_eq_left]
      exact List.count_eq_zero.mpr fun mem => other (List.mem_of_mem_filter mem)
  | createRefreshSession s =>
    refine ⟨?_, rfl, fun _ => Iff.rfl⟩
    change (v.tables.createRefreshSession s).attempt? key = _
    unfold AdminTables.createRefreshSession
    split
    · rfl
    · rfl
  | updateUserWithEmail userId email change =>
    refine ⟨?_, rfl, fun _ => Iff.rfl⟩
    change (v.tables.updateUserWithEmail userId email change).attempt? key = _
    unfold AdminTables.updateUserWithEmail
    split
    · rfl
    · rfl
  | createUser row =>
    refine ⟨?_, rfl, fun _ => Iff.rfl⟩
    change (v.tables.createUser row).attempt? key = _
    unfold AdminTables.createUser
    split
    · rfl
    · rfl
  | _ => exact ⟨rfl, rfl, fun _ => Iff.rfl⟩

theorem record_counted (v : World) : Counted key limits now v ((AdminCall.recordFailedAttempt key limits now).apply v) := by
  refine ⟨?_, ?_, fun t => ?_⟩
  · exact (attempt?_record v.tables key key limits now).trans (if_pos rfl)
  · simp only [begun, AdminCall.apply]
    split
    · simp
    · rfl
  · simp only [AdminCall.apply, List.mem_append, Option.mem_toList, Option.map_eq_some_iff, Prod.mk.injEq,
      true_and, exists_eq_right]

theorem reset_restarted {keys : List (MfaScope × String)} (mem : key ∈ keys) (nodup : keys.Nodup) (v : World) :
    Restarted key now v ((AdminCall.resetAttempts keys now).apply v) := by
  refine ⟨?_, ?_, fun t => Iff.rfl⟩
  · exact (attempt?_reset v.tables keys).trans (if_pos mem)
  · simp only [begun, AdminCall.apply, List.count_append, Nat.add_left_cancel_iff]
    split
    · next found => exact (List.count_filter (p := fun k => (v.tables.attempt? k).isSome) found).trans (List.count_eq_one_of_mem nodup mem)
    · next missing => exact List.count_eq_zero.mpr fun inside => missing (List.mem_filter.mp inside).2

/-! ### Keys -/

def tableKey (pair : MfaScope × String) : MfaScope × String := (pair.1, AdminTables.normalizedKey pair.2)

theorem isSpace_of_isDigit {c : Char} (h : c.isDigit = true) : Text.isSpace c = false := by
  simp only [Char.isDigit, Bool.and_eq_true, decide_eq_true_eq, UInt32.le_iff_toNat_le] at h
  have low : 48 ≤ c.toNat := h.1
  have high : c.toNat ≤ 57 := h.2
  simp only [Text.isSpace, Bool.or_eq_false_iff, Bool.and_eq_false_iff, decide_eq_false_iff_not, beq_eq_false_iff_ne]
  omega

theorem normalizedKey_toString (n : Nat) : AdminTables.normalizedKey (toString n) = toString n := by
  have digits : ∀ c ∈ (toString n).toList, Text.isSpace c = false := by
    intro c mem
    rw [Nat.toString_eq_repr, Nat.toList_repr] at mem
    exact isSpace_of_isDigit (Nat.isDigit_of_mem_toDigits (by decide) (by decide) mem)
  rw [AdminTables.normalizedKey, Text.strip_of_forall digits, String.ofList_toList]

theorem toString_ne_empty (n : Nat) : toString n ≠ "" := by simp

theorem toString_inj {m n : Nat} (h : toString m = toString n) : m = n := by
  have digits : Nat.toDigits 10 m = Nat.toDigits 10 n := by
    rw [← Nat.toList_repr, ← Nat.toList_repr]
    exact congrArg String.toList h
  rw [← Nat.ofDigitChars_ten_toDigits (n := m), digits, Nat.ofDigitChars_ten_toDigits]

theorem totpKey_inj {m n : Nat} (h : totpKey m = totpKey n) : m = n := toString_inj (congrArg Prod.snd h)

theorem tableKey_totp (userId : Nat) : tableKey ({ kind := .totp, subject := .user }, toString userId) = totpKey userId :=
  congrArg (Prod.mk _) (normalizedKey_toString userId)

theorem tableKey_ne {scope : MfaScope} {text : String} {userId : Nat} (h : scope ≠ { kind := .totp, subject := .user }) :
    tableKey (scope, text) ≠ totpKey userId := fun same => h (congrArg Prod.fst same)

/-! ### Calls -/

theorem ask_settles {α : Type} {op : AdminCall} {answer : World → α} {P : World → Prop} {R : α → World → Prop}
    {F : AdminError → World → Prop} (h : ∀ w, P w → R (answer w) (op.apply w)) :
    Settles P ((ask op answer : AdminM α).run AdminCall.apply) R F := by
  refine settles_call fun w hw => settles_ret ?_
  rintro _ rfl
  exact h w hw

/-- A call that neither evaluates a code nor writes a counter of the authenticator. -/
def Harmless (c : AdminCall) : Prop := (∀ userId, ¬touches c (totpKey userId)) ∧ ∀ w : World, (c.apply w).evaluations = w.evaluations

/-- The codes that a login evaluates, and nothing on the counters of the authenticator. -/
structure Evaluates (v w : World) (es : List Evaluation) : Prop where
  evaluations : w.evaluations = v.evaluations ++ es
  unmoved : ∀ userId, Unmoved (totpKey userId) v w

theorem Evaluates.refl : Evaluates v v [] := ⟨(List.append_nil _).symm, fun _ => .refl⟩

theorem Evaluates.harmless {c : AdminCall} {es : List Evaluation} (h : Evaluates v w es) (harmless : Harmless c) :
    Evaluates v (c.apply w) es :=
  ⟨(harmless.2 w).trans h.evaluations, fun userId => (h.unmoved userId).trans (unmoved_of_not_touches (harmless.1 userId) w)⟩

theorem ensureNotBlocked_settles (now : Int) (v : World) : ∀ pairs : List (MfaScope × String),
    Settles (· = v) ((ensureNotBlocked now pairs).run AdminCall.apply)
      (fun _ w => (∀ pair ∈ pairs, v.tables.isMfaScopeBlocked now pair.1 pair.2 = false) ∧ w = v) fun _ w => w = v
  | [] => settles_ret fun w hw => ⟨nofun, hw⟩
  | pair :: pairs => by
    rw [ensureNotBlocked, isMfaScopeBlocked]
    refine settles_ask_bind fun w hw => ?_
    subst hw
    cases blocked : w.tables.isMfaScopeBlocked now pair.1 pair.2 with
    | true => exact settles_raise fun _ h => h
    | false =>
      refine (ensureNotBlocked_settles now w pairs).mono (fun _ t h => ⟨fun q mem => ?_, h.2⟩) fun _ _ h => h
      rcases List.mem_cons.mp mem with rfl | rest
      · exact blocked
      · exact h.1 q rest

/-- What the counting of every pair keeps. -/
theorem recordFailedAttempts_settles (now : Int) (P : World → Prop) {F : AdminError → World → Prop} :
    ∀ pairs : List (MfaScope × String),
      (∀ pair ∈ pairs, ∀ w, P w → P ((AdminCall.recordFailedAttempt (tableKey pair) (env.mfaLimits pair.1) now).apply w)) →
        Settles P ((recordFailedAttempts env now pairs).run AdminCall.apply) (fun _ => P) F
  | [], _ => settles_ret fun _ h => h
  | pair :: pairs, kept => by
    have rest := recordFailedAttempts_settles (F := F) now P pairs fun q mem => kept q (List.mem_cons_of_mem _ mem)
    refine settles_bind (R := fun _ => P) ?_ fun blocked => settles_bind rest fun _ => settles_ret fun _ h => h
    unfold recordMfaFailedAttempt
    dsimp only
    split
    · exact settles_ret fun _ h => h
    · exact ask_settles (kept pair List.mem_cons_self)

theorem verifyTotp_settles (user : PlatformAdminUser) (code : String) (now timestamp : Int) (v : World) :
    Settles (· = v) ((verifyTotp env user code now timestamp).run AdminCall.apply)
      (fun matched w => ∃ es, Evaluates v w es ∧ w.tables = v.tables ∧ (es = [] ∧ matched = false ∨
        evaluates env code = true ∧ es = [{ userId := user.id, now, matched }])) fun _ w => w = v := by
  unfold verifyTotp
  split
  · exact settles_ret fun w hw => ⟨[], hw ▸ .refl, congrArg _ hw, .inl ⟨rfl, rfl⟩⟩
  · cases result : Auth.verifyAuthenticatorCode env.auth user.mfaSecret code timestamp with
    | none => exact settles_raise fun _ hw => hw
    | some matched =>
      dsimp only
      split
      · next six =>
        refine ask_settles ?_
        rintro _ rfl
        exact ⟨_, ⟨rfl, fun _ => unmoved_of_not_touches (c := .evaluate _) (fun h => h) _⟩, rfl, .inr ⟨six, rfl⟩⟩
      · next other =>
        have length : (String.ofList (code.toList.filter env.auth.isDigit)).length ≠ 6 := by
          rw [String.length_ofList]
          simpa [evaluates] using other
        rw [Auth.verifyAuthenticatorCode, if_pos length] at result
        cases result
        exact settles_ret fun w hw => ⟨[], hw ▸ .refl, congrArg _ hw, .inl ⟨rfl, rfl⟩⟩

/-- What `_verify_platform_admin_mfa` has found. -/
inductive Verified (env : AdminEnv) (inp : AdminLoginInput) (user : PlatformAdminUser) (t : AdminTables) :
    Bool → List Evaluation → Prop
  | refused {es} (own : es = [] ∨ evaluates env (env.normalizeMfaCode inp.mfaCode) = true ∧
      es = [{ userId := user.id, now := inp.now, matched := false }]) : Verified env inp user t false es
  | matched (six : evaluates env (env.normalizeMfaCode inp.mfaCode) = true) :
      Verified env inp user t true [{ userId := user.id, now := inp.now, matched := true }]
  | recovered {es} (long : 8 ≤ (env.normalizeMfaCode inp.mfaCode).length) (found : recovers env inp t user = true)
      (six : es ≠ [] → evaluates env (env.normalizeMfaCode inp.mfaCode) = true) : Verified env inp user t true es

theorem consume_settles (userId : Nat) (codeHash : String) {es : List Evaluation} (t : AdminTables) :
    Settles (fun w => Evaluates v w es ∧ w.tables = t) ((consumeMfaRecoveryCode userId codeHash).run AdminCall.apply)
      (fun ok w => Evaluates v w es ∧ (ok = true → (t.getById userId).any (codeHash ∈ AdminTables.recoveryCodes ·) = true))
      fun _ _ => False := by
  refine settles_ask_bind fun w hw => ?_
  obtain ⟨evaluates, rfl⟩ := hw
  cases found : w.tables.getById userId with
  | none =>
    refine settles_ret ?_
    rintro _ rfl
    exact ⟨evaluates, nofun⟩
  | some row =>
    dsimp only
    split
    · next mem =>
      refine ask_settles ?_
      rintro _ rfl
      exact ⟨evaluates.harmless ⟨fun _ h => h, fun _ => rfl⟩, fun _ => by simpa using mem⟩
    · refine settles_ret ?_
      rintro _ rfl
      exact ⟨evaluates, nofun⟩

theorem verifyPlatformAdminMfa_settles (user : PlatformAdminUser) (v : World) :
    Settles (· = v) ((verifyPlatformAdminMfa env user inp.mfaCode inp.now inp.timestamp).run AdminCall.apply)
      (fun ok w => ∃ es, Evaluates v w es ∧ Verified env inp user v.tables ok es) fun _ w => w = v := by
  unfold verifyPlatformAdminMfa
  dsimp only
  split
  · exact settles_ret fun w hw => ⟨[], hw ▸ .refl, .refused (.inl rfl)⟩
  · refine settles_bind (verifyTotp_settles user _ _ _ v) fun matched => ?_
    intro w hw
    obtain ⟨es, evaluated, tables, how⟩ := hw
    cases matched with
    | true =>
      refine settles_ret (P := (· = w)) ?_ w rfl
      rintro _ rfl
      rcases how with ⟨-, impossible⟩ | ⟨six, rfl⟩
      · cases impossible
      · exact ⟨_, evaluated, .matched six⟩
    | false =>
      have own : es = [] ∨ evaluates env (env.normalizeMfaCode inp.mfaCode) = true ∧
          es = [{ userId := user.id, now := inp.now, matched := false }] := how.imp (·.1) id
      rw [if_neg Bool.false_ne_true]
      by_cases long : (env.normalizeMfaCode inp.mfaCode).length ≥ 8
      · rw [if_pos long]
        refine ((consume_settles user.id _ v.tables).mono ?_ fun _ _ h => h.elim) w ⟨evaluated, tables⟩
        rintro ok t ⟨kept, found⟩
        refine ⟨es, kept, ?_⟩
        cases ok with
        | false => exact .refused own
        | true =>
          refine .recovered long ?_ fun some' => (own.resolve_left some').1
          simpa [recovers, long] using found rfl
      · rw [if_neg long]
        refine settles_ret (P := (· = w)) ?_ w rfl
        rintro _ rfl
        exact ⟨es, evaluated, .refused own⟩

/-! ### A whole login -/

/-- What one login does to the counters of the authenticator, with the codes `es` that it evaluates. -/
inductive Turn (env : AdminEnv) (inp : AdminLoginInput) (v w : World) (es : List Evaluation) : Prop
  /-- Nothing; a code that is evaluated is counted as a recovery code. -/
  | idle
    (foreign : es ≠ [] → ∃ user, asks env inp v.tables = some user ∧
      evaluates env (env.normalizeMfaCode inp.mfaCode) = true ∧ env.mfaAttemptKindFromCode inp.mfaCode = .recovery)
    (unmoved : ∀ userId, Unmoved (totpKey userId) v w)
  /-- A code that is not right. -/
  | failed (user : PlatformAdminUser) (asked : asks env inp v.tables = some user)
    (free : ∀ row ∈ v.tables.attempt? (totpKey user.id), row.blocked inp.now = false)
    (own : es = [] ∨ es = [{ userId := user.id, now := inp.now, matched := false }])
    (counted : Counted (totpKey user.id) (totpLimits env) inp.now v w)
    (others : ∀ userId ≠ user.id, Unmoved (totpKey userId) v w)
  /-- A code that is right. -/
  | passed (user : PlatformAdminUser) (asked : asks env inp v.tables = some user)
    (right : (∀ row ∈ v.tables.attempt? (totpKey user.id), row.blocked inp.now = false) ∧
        es = [{ userId := user.id, now := inp.now, matched := true }] ∨
      env.mfaAttemptKindFromCode inp.mfaCode = .recovery ∧
        (es ≠ [] → evaluates env (env.normalizeMfaCode inp.mfaCode) = true) ∧ (recovers env inp v.tables user = true ∨ es ≠ []))
    (restarted : Restarted (totpKey user.id) inp.now v w)
    (others : ∀ userId ≠ user.id, Unmoved (totpKey userId) v w)

def Turned (env : AdminEnv) (inp : AdminLoginInput) (v w : World) : Prop :=
  ∃ es, w.evaluations = v.evaluations ++ es ∧ Turn env inp v w es

theorem Turned.harmless {c : AdminCall} (h : Turned env inp v w) (harmless : Harmless c) : Turned env inp v (c.apply w) := by
  obtain ⟨es, evaluations, turn⟩ := h
  have unmoved : ∀ userId, Unmoved (totpKey userId) w (c.apply w) := fun userId =>
    unmoved_of_not_touches (harmless.1 userId) w
  refine ⟨es, (harmless.2 w).trans evaluations, ?_⟩
  cases turn with
  | idle foreign same => exact .idle foreign fun userId => (same userId).trans (unmoved userId)
  | failed user asked free own counted others =>
    exact .failed user asked free own (counted.unmoved (unmoved _)) fun userId other => (others userId other).trans (unmoved userId)
  | passed user asked right restarted others =>
    exact .passed user asked right (restarted.unmoved (unmoved _)) fun userId other => (others userId other).trans (unmoved userId)

theorem Turned.refl : Turned env inp v v := ⟨[], (List.append_nil _).symm, .idle (absurd rfl) fun _ => .refl⟩

theorem Turned.settles_harmless {α : Type} {c : AdminCall} {answer : World → α} {F : AdminError → World → Prop}
    (harmless : Harmless c) :
    Settles (Turned env inp v) ((ask c answer : AdminM α).run AdminCall.apply) (fun _ => Turned env inp v) F :=
  ask_settles fun _ h => h.harmless harmless

/-- The counters that a code of this kind is checked against and counted on. -/
theorem free_of_pairs {userId : Nat} {ip : Option String} (h : ∀ pair ∈ mfaAttemptScopePairs userId ip .totp,
    v.tables.isMfaScopeBlocked now pair.1 pair.2 = false) : ∀ row ∈ v.tables.attempt? (totpKey userId), row.blocked now = false := by
  intro row found
  have own := h _ List.mem_cons_self
  simp only [AdminTables.isMfaScopeBlocked, normalizedKey_toString, toString_ne_empty, ne_eq, not_false_eq_true,
    decide_true, Bool.true_and] at own
  have found' : v.tables.attempt? ({ kind := .totp, subject := .user }, toString userId) = some row := found
  rw [found', Option.any_some] at own
  exact own

theorem unmoved_of_record {scope : MfaScope} (h : scope ≠ { kind := .totp, subject := .user }) (text : String) (userId : Nat)
    (w : World) : Unmoved (totpKey userId) w ((AdminCall.recordFailedAttempt (tableKey (scope, text)) limits now).apply w) :=
  unmoved_of_not_touches (c := .recordFailedAttempt _ limits now) (fun same => tableKey_ne h same) w

theorem count_totp_settles (userId : Nat) (ip : Option String) {es : List Evaluation} :
    Settles (Evaluates v · es) ((recordFailedAttempts env now (mfaAttemptScopePairs userId ip .totp)).run AdminCall.apply)
      (fun _ w => w.evaluations = v.evaluations ++ es ∧ Counted (totpKey userId) (totpLimits env) now v w ∧
        ∀ other ≠ userId, Unmoved (totpKey other) v w) fun _ _ => False := by
  let P : World → Prop := fun w => w.evaluations = v.evaluations ++ es ∧
    Counted (totpKey userId) (totpLimits env) now v w ∧ ∀ other ≠ userId, Unmoved (totpKey other) v w
  have first : Settles (Evaluates v · es)
      ((recordMfaFailedAttempt now (env.mfaLimits { kind := .totp, subject := .user })
        ({ kind := .totp, subject := .user }, toString userId)).run AdminCall.apply) (fun _ => P) fun _ _ => False := by
    unfold recordMfaFailedAttempt
    dsimp only
    rw [normalizedKey_toString, if_neg (toString_ne_empty userId)]
    refine ask_settles fun w hw => ⟨hw.evaluations, ?_, fun other ne => ?_⟩
    · have counted : Counted (totpKey userId) (totpLimits env) now w _ := record_counted w
      have same := hw.unmoved userId
      refine ⟨?_, ?_, fun t => ?_⟩
      · rw [AdminTables.attempted, ← same.row]
        exact counted.row
      · rw [AdminCall.opens, ← same.row, ← same.begun]
        exact counted.begun
      · rw [AdminTables.attempted, ← same.row, ← same.locks]
        exact counted.locks t
    · refine (hw.unmoved other).trans (unmoved_of_not_touches (fun same => ne ?_) w)
      exact (totpKey_inj same).symm
  refine settles_bind first fun blocked => settles_bind (recordFailedAttempts_settles now P _ ?_) fun _ => settles_ret fun _ h => h
  intro pair mem w hw
  cases List.mem_singleton.mp mem
  have unmoved : ∀ other, Unmoved (totpKey other) w ((AdminCall.recordFailedAttempt
      (tableKey ({ kind := .totp, subject := .ip }, normalizedIp ip)) (env.mfaLimits { kind := .totp, subject := .ip }) now).apply w) :=
    fun other => unmoved_of_record (by decide) (normalizedIp ip) other w
  exact ⟨hw.1, hw.2.1.unmoved (unmoved userId), fun other ne => (hw.2.2 other ne).trans (unmoved other)⟩

theorem count_recovery_settles (userId : Nat) (ip : Option String) {es : List Evaluation} {F : AdminError → World → Prop} :
    Settles (Evaluates v · es) ((recordFailedAttempts env now (mfaAttemptScopePairs userId ip .recovery)).run AdminCall.apply)
      (fun _ w => Evaluates v w es) F := by
  refine recordFailedAttempts_settles now _ _ fun pair mem w hw => ?_
  have foreign : pair.1 ≠ { kind := .totp, subject := .user } := by
    rcases List.mem_cons.mp mem with rfl | mem
    · simp
    · cases List.mem_singleton.mp mem
      simp
  exact ⟨hw.evaluations, fun other => (hw.unmoved other).trans (unmoved_of_record foreign pair.2 other w)⟩

/-- The keys of the counters that a right code resets. -/
def resetKeys (userId : Nat) (ip : Option String) : List (MfaScope × String) :=
  ((resetPairs userId ip).map tableKey).filter (·.2 ≠ "")

theorem totpKey_mem_resetKeys (userId : Nat) (ip : Option String) : totpKey userId ∈ resetKeys userId ip := by
  refine List.mem_filter.mpr ⟨?_, ?_⟩
  · rw [← tableKey_totp]
    exact List.mem_cons_self
  · exact decide_eq_true (toString_ne_empty userId)

theorem eq_of_mem_resetKeys {userId other : Nat} {ip : Option String} (mem : totpKey other ∈ resetKeys userId ip) :
    other = userId := by
  obtain ⟨pair, inside, same⟩ := List.mem_map.mp (List.mem_filter.mp mem).1
  have scope : pair.1 = { kind := .totp, subject := .user } := congrArg Prod.fst same
  rcases List.mem_cons.mp inside with rfl | rest
  · exact (totpKey_inj ((tableKey_totp userId).symm.trans same)).symm
  · have foreign : ∀ q ∈ (resetPairs userId ip).tail, q.1 ≠ { kind := .totp, subject := .user } := by
      simp [resetPairs, mfaAttemptScopePairs]
    exact absurd scope (foreign pair rest)

theorem resetKeys_nodup (userId : Nat) (ip : Option String) : (resetKeys userId ip).Nodup := by
  have scopes : ((resetPairs userId ip).map tableKey).map Prod.fst = [{ kind := .totp, subject := .user },
      { kind := .totp, subject := .ip }, { kind := .recovery, subject := .user }, { kind := .recovery, subject := .ip }] := rfl
  refine List.Nodup.filter _ (List.Nodup.of_map Prod.fst ?_)
  rw [scopes]
  decide

theorem reset_settles (userId : Nat) (ip : Option String) {es : List Evaluation} {F : AdminError → World → Prop} :
    Settles (Evaluates v · es) ((resetMfaAttempts now (resetPairs userId ip)).run AdminCall.apply)
      (fun _ w => w.evaluations = v.evaluations ++ es ∧ Restarted (totpKey userId) now v w ∧
        ∀ other ≠ userId, Unmoved (totpKey other) v w) F := by
  have own := totpKey_mem_resetKeys userId ip
  have form : resetMfaAttempts now (resetPairs userId ip) = ask (.resetAttempts (resetKeys userId ip) now) fun _ => () := by
    unfold resetMfaAttempts
    exact if_neg (List.ne_nil_of_mem own)
  rw [form]
  refine ask_settles fun w hw => ⟨hw.evaluations, ?_, fun other ne => ?_⟩
  · have restarted : Restarted (totpKey userId) now w _ := reset_restarted own (resetKeys_nodup userId ip) w
    have same := hw.unmoved userId
    refine ⟨?_, ?_, fun t => (restarted.locks t).trans (same.locks t)⟩
    · rw [← same.row]
      exact restarted.row
    · rw [← same.row, ← same.begun]
      exact restarted.begun
  · exact (hw.unmoved other).trans
      (unmoved_of_not_touches (c := .resetAttempts _ now) (fun mem => ne (eq_of_mem_resetKeys mem)) w)

theorem kind_of_long {code : Option String} (h : 8 ≤ (env.normalizeMfaCode code).length) :
    env.mfaAttemptKindFromCode code = .recovery := if_pos h

theorem Evaluates.settles {m : AdminM Unit} {es : List Evaluation} {Q : World → Prop}
    (h : Settles (Evaluates v · es) (m.run AdminCall.apply) (fun _ => Q) fun _ => Q) (evaluates : Evaluates v w es) :
    Settles (· = w) (m.run AdminCall.apply) (fun _ => Q) fun _ => Q := Settles.of h fun _ same => same ▸ evaluates

/-- A code that is not right is counted, and the login raises. -/
theorem refused_settles {user : PlatformAdminUser} {es : List Evaluation} (asked : asks env inp v.tables = some user)
    (free : ∀ pair ∈ mfaAttemptScopePairs user.id inp.client.ip (env.mfaAttemptKindFromCode inp.mfaCode),
      v.tables.isMfaScopeBlocked inp.now pair.1 pair.2 = false)
    (verified : Verified env inp user v.tables false es) :
    Settles (Evaluates v · es) ((do
      let blockedNow ← recordFailedAttempts env inp.now
        (mfaAttemptScopePairs user.id inp.client.ip (env.mfaAttemptKindFromCode inp.mfaCode))
      if blockedNow then do
        invalidateAllRefreshSessionsForUser user.id
        .raise (.valueError "platform_admin_mfa_locked")
      else .raise (.valueError "platform_admin_mfa_invalid") : AdminM Unit).run AdminCall.apply)
      (fun _ => Turned env inp v) fun _ => Turned env inp v := by
  have own : es = [] ∨ evaluates env (env.normalizeMfaCode inp.mfaCode) = true ∧
      es = [{ userId := user.id, now := inp.now, matched := false }] := by
    cases verified with
    | refused own => exact own
  refine settles_bind (R := fun _ => Turned env inp v) ?_ fun blockedNow => ?_
  · cases kind : env.mfaAttemptKindFromCode inp.mfaCode with
    | totp =>
      rw [kind] at free
      refine (count_totp_settles user.id inp.client.ip).mono (fun _ w h => ?_) fun _ _ h => h.elim
      obtain ⟨evaluations, counted, others⟩ := h
      exact ⟨es, evaluations, .failed user asked (free_of_pairs free) (own.imp id (·.2)) counted others⟩
    | recovery =>
      refine (count_recovery_settles user.id inp.client.ip).mono (fun _ w h => ?_) fun _ _ h => h
      exact ⟨es, h.evaluations, .idle (fun some' => ⟨user, asked, (own.resolve_left some').1, kind⟩) h.unmoved⟩
  · cases blockedNow with
    | true =>
      exact settles_bind (Turned.settles_harmless ⟨fun _ h => h, fun _ => rfl⟩) fun _ => settles_raise fun _ h => h
    | false => exact settles_raise fun _ h => h

theorem secondFactor_settles {user : PlatformAdminUser}
    (asked : user.isMfaEnabled = true → asks env inp v.tables = some user) :
    Settles (· = v) ((secondFactor env user inp).run AdminCall.apply) (fun _ => Turned env inp v) fun _ => Turned env inp v := by
  unfold secondFactor
  split
  · exact settles_ret fun _ same => same ▸ .refl
  · next enabled =>
    have asked := asked (by simpa using enabled)
    split
    · exact settles_raise fun _ same => same ▸ .refl
    · dsimp only
      refine settles_bind ((ensureNotBlocked_settles inp.now v _).mono (fun _ _ h => h) fun _ _ same => same ▸ .refl) fun _ =>
        Settles.given fun free => ?_
      refine settles_bind ((verifyPlatformAdminMfa_settles user v).mono (fun _ _ h => h) fun _ _ same => same ▸ .refl)
        fun verified => ?_
      cases verified with
      | false =>
        rintro w ⟨es, evaluates, how⟩
        rw [if_neg Bool.false_ne_true]
        exact refused_settles asked free how w evaluates
      | true =>
        rintro w ⟨es, evaluates, how⟩
        rw [if_pos rfl]
        refine (reset_settles user.id inp.client.ip).mono (fun _ t h => ?_) (fun _ _ h => h) w evaluates
        obtain ⟨evaluations, restarted, others⟩ := h
        refine ⟨es, evaluations, .passed user asked ?_ restarted others⟩
        cases how with
        | recovered long found six => exact .inr ⟨kind_of_long long, six, .inl found⟩
        | matched six =>
          cases kind : env.mfaAttemptKindFromCode inp.mfaCode with
          | totp => exact .inl ⟨free_of_pairs (kind ▸ free), rfl⟩
          | recovery => exact .inr ⟨rfl, fun _ => six, .inr (List.cons_ne_nil _ _)⟩

theorem createRefreshSession_settles (session : Auth.Refresh.SessionRow) :
    Settles (Turned env inp v) ((createRefreshSession session).run AdminCall.apply) (fun _ => Turned env inp v)
      fun _ => Turned env inp v := by
  refine settles_call fun w turned => ?_
  have next : Turned env inp v ((AdminCall.createRefreshSession session).apply w) :=
    turned.harmless ⟨fun _ h => h, fun _ => rfl⟩
  split
  · exact settles_ret fun _ same => same ▸ next
  · exact settles_raise fun _ same => same ▸ next

theorem login_settles (env : AdminEnv) (inp : AdminLoginInput) (v : World) :
    Settles (· = v) ((login env inp).run AdminCall.apply) (fun _ => Turned env inp v) fun _ => Turned env inp v := by
  refine settles_ask_bind fun w same => ?_
  subst same
  cases found : w.tables.getByEmail (env.normalizeEmail inp.email) with
  | none => exact settles_ret fun _ same => same ▸ .refl
  | some user =>
    dsimp only
    split
    · exact settles_ret fun _ same => same ▸ .refl
    · next open' =>
      split
      · refine settles_bind (R := fun _ => Turned env inp w) (ask_settles ?_) fun _ => settles_ret fun _ h => h
        rintro _ rfl
        exact Turned.refl.harmless ⟨fun _ h => h, fun _ => rfl⟩
      · next password =>
        have asked : user.isMfaEnabled = true → asks env inp w.tables = some user := by
          intro enabled
          have both : user.isActive = true ∧ user.deletedAt = none := by simpa using open'
          rw [asks, found, Option.filter_some, if_pos]
          simp [enabled, both, password]
        refine settles_bind (secondFactor_settles asked) fun _ =>
          settles_bind (Turned.settles_harmless ⟨fun _ h => h, fun _ => rfl⟩) fun updated => ?_
        refine settles_bind (R := fun _ => Turned env inp w) (settles_bind ?_ fun _ => settles_ret fun _ h => h)
          fun _ => settles_ret fun _ h => h
        exact createRefreshSession_settles _

/-- What one login does. -/
theorem loggedIn_turned (env : AdminEnv) (inp : AdminLoginInput) (v : World) : Turned env inp v (loggedIn env inp v) :=
  (login_settles env inp v).leads v rfl

/-! ### The invariant -/

/-- The attempts that a row has counted in its window. -/
def attempts (t : AdminTables) (key : MfaScope × String) : Nat := ((t.attempt? key).map (·.attempts)).getD 0

/-- Codes are charged to windows that have begun, the last of which has counted all of its own; and a lock is over, or is
    that of the row. -/
structure Sound (env : AdminEnv) (s : State) : Prop where
  past : ∀ c ∈ s.charged, c.2 ≤ begun (totpKey c.1) s.toWorld
  bounded : Bounded env s
  present : ∀ userId, s.charged.count (userId, begun (totpKey userId) s.toWorld) ≤ attempts s.tables (totpKey userId)
  locked : ∀ userId until', (totpKey userId, until') ∈ s.locks →
    until' ≤ s.clock ∨ ∃ row ∈ s.tables.attempt? (totpKey userId), ∃ t ∈ row.blockedUntil, until' ≤ t

theorem minutes_safe_pos (n : Int) : 0 < Auth.minutes (MfaAttempt.safe n) := by
  have one : 1 ≤ MfaAttempt.safe n := Int.le_max_left _ _
  simp only [Auth.minutes]
  omega

theorem over_congr {r q : MfaAttempt} (h : r.windowStartedAt = q.windowStartedAt) : r.over limits now = q.over limits now := by
  rw [MfaAttempt.over, MfaAttempt.over, h]

/-- A window that begins now is not over. -/
theorem not_over_of_start {r : MfaAttempt} (h : r.windowStartedAt = now) : r.over limits now = false := by
  have pos := minutes_safe_pos limits.windowMinutes
  rw [MfaAttempt.over, h]
  exact decide_eq_false (by omega)

variable (limits now) in
/-- The count of a row that is not locked. -/
theorem failed_of_free {r : MfaAttempt} (free : r.blocked now = false) :
    (r.failed limits now).attempts = (r.counted limits now).attempts ∧
      (r.failed limits now).windowStartedAt = (r.counted limits now).windowStartedAt := by
  unfold MfaAttempt.failed
  rw [free, if_neg Bool.false_ne_true]
  exact ⟨rfl, rfl⟩

variable (limits) in
/-- What one more attempt makes of a counter that is not locked. -/
theorem attempted_cases (t : AdminTables) (free : ∀ row ∈ t.attempt? key, row.blocked now = false) :
    (t.attempted key limits now).over limits now = false ∧
    ((AdminCall.opens t key limits now = true ∧ (∀ row ∈ t.attempt? key, row.over limits now = true) ∧
        (t.attempted key limits now).attempts = 1) ∨
      ∃ row ∈ t.attempt? key, AdminCall.opens t key limits now = false ∧ row.over limits now = false ∧
        (t.attempted key limits now).attempts = row.attempts + 1) := by
  unfold AdminTables.attempted AdminCall.opens
  cases found : t.attempt? key with
  | none =>
    obtain ⟨attempts, started⟩ := failed_of_free limits now (r := .first key now) rfl
    have young : (MfaAttempt.first key now).over limits now = false := not_over_of_start rfl
    have counted : (MfaAttempt.first key now).counted limits now = { MfaAttempt.first key now with attempts := 1 } :=
      if_neg (by rw [young]; exact Bool.false_ne_true)
    rw [counted] at attempts started
    exact ⟨not_over_of_start started, .inl ⟨rfl, nofun, attempts⟩⟩
  | some row =>
    have unlocked := free row found
    obtain ⟨attempts, started⟩ := failed_of_free limits now unlocked
    rw [Option.getD_some]
    cases past : row.over limits now with
    | true =>
      have counted : row.counted limits now = { row with attempts := 1, windowStartedAt := now } := if_pos past
      rw [counted] at attempts started
      refine ⟨not_over_of_start started, .inl ⟨?_, ?_, attempts⟩⟩
      · simp only [unlocked, past, Bool.not_false, Bool.and_self]
      · rintro _ ⟨⟩
        exact past
    | false =>
      have counted : row.counted limits now = { row with attempts := row.attempts + 1 } :=
        if_neg (by rw [past]; exact Bool.false_ne_true)
      rw [counted] at attempts started
      refine ⟨(over_congr started).trans past, .inr ⟨row, rfl, ?_, past, attempts⟩⟩
      simp only [past, Bool.and_false]

end

section
variable {env : AdminEnv} {inp : AdminLoginInput} {s : State} {w : World} {es : List Evaluation}

theorem evaluated_append {v : World} (h : w.evaluations = v.evaluations ++ es) : evaluated v w = es := by
  rw [evaluated, h, List.drop_left]

/-- The locks of a counter that is not locked now are over. -/
theorem Sound.released (h : Sound env s) {userId : Nat} {now : Int} (le : s.clock ≤ now)
    (free : ∀ row ∈ s.tables.attempt? (totpKey userId), row.blocked now = false) :
    ∀ until', (totpKey userId, until') ∈ s.locks → until' ≤ now := by
  intro until' mem
  rcases h.locked userId until' mem with past | ⟨row, found, t, stamp, until_le⟩
  · omega
  · have open' := free row found
    rw [MfaAttempt.blocked, stamp, Option.any_some, decide_eq_false_iff_not] at open'
    omega

/-- A state in which the counters of the other users are left alone, and nothing is charged to them. -/
theorem Sound.others (h : Sound env s) {t : State} {userId : Nat} (charged : t.charged.count (userId, begun (totpKey userId) s.toWorld) =
    s.charged.count (userId, begun (totpKey userId) s.toWorld)) (unmoved : Unmoved (totpKey userId) s.toWorld t.toWorld) :
    t.charged.count (userId, begun (totpKey userId) t.toWorld) ≤ attempts t.tables (totpKey userId) := by
  rw [attempts, unmoved.row, unmoved.begun, charged]
  exact h.present userId

/-- A login that finds the counters in order and charges nothing. -/
theorem Sound.idle (h : Sound env s) (le : s.clock ≤ inp.now) (unmoved : ∀ userId, Unmoved (totpKey userId) s.toWorld w) :
    Sound env { toWorld := w, clock := inp.now, charged := s.charged } where
  past c mem := (h.past c mem).trans_eq (unmoved c.1).begun.symm
  bounded := h.bounded
  present userId := h.others rfl (unmoved userId)
  locked userId until' mem := by
    rcases h.locked userId until' ((unmoved userId).locks until' |>.mp mem) with past | stamped
    · exact .inl (Int.le_trans past le)
    · exact .inr ((unmoved userId).row ▸ stamped)

/-- The locks after a turn that concerns one user. -/
theorem Sound.locked_of_others (h : Sound env s) (le : s.clock ≤ inp.now) {user : Nat}
    (others : ∀ userId ≠ user, Unmoved (totpKey userId) s.toWorld w)
    (own : ∀ until', (totpKey user, until') ∈ w.locks →
      until' ≤ inp.now ∨ ∃ row ∈ w.tables.attempt? (totpKey user), ∃ t ∈ row.blockedUntil, until' ≤ t) :
    ∀ userId until', (totpKey userId, until') ∈ w.locks →
      until' ≤ inp.now ∨ ∃ row ∈ w.tables.attempt? (totpKey userId), ∃ t ∈ row.blockedUntil, until' ≤ t := by
  intro userId until' mem
  by_cases same : userId = user
  · subst same
    exact own until' mem
  · rcases h.locked userId until' (((others userId same).locks until').mp mem) with past | stamped
    · exact .inl (Int.le_trans past le)
    · exact .inr ((others userId same).row ▸ stamped)

theorem begun_le_of_others (user : Nat) (own : begun (totpKey user) s.toWorld ≤ begun (totpKey user) w)
    (others : ∀ userId ≠ user, Unmoved (totpKey userId) s.toWorld w) (userId : Nat) :
    begun (totpKey userId) s.toWorld ≤ begun (totpKey userId) w := by
  by_cases same : userId = user
  · exact same ▸ own
  · exact (others userId same).begun.ge

/-- Nothing has been charged to a window that has not begun. -/
theorem Sound.count_later (h : Sound env s) {userId window : Nat} (later : begun (totpKey userId) s.toWorld < window) :
    s.charged.count (userId, window) = 0 :=
  List.count_eq_zero.mpr fun mem => absurd (h.past _ mem) (Nat.not_le.mpr later)

/-- The counter of a user begins a new window, or has none. -/
theorem Sound.passed (h : Sound env s) (le : s.clock ≤ inp.now) {user : Nat}
    (free : ∀ row ∈ s.tables.attempt? (totpKey user), row.blocked inp.now = false)
    (restarted : Restarted (totpKey user) inp.now s.toWorld w)
    (others : ∀ userId ≠ user, Unmoved (totpKey userId) s.toWorld w) :
    Sound env { toWorld := w, clock := inp.now, charged := s.charged } where
  past c mem := (h.past c mem).trans
    (begun_le_of_others user (restarted.begun ▸ Nat.le_add_right _ _) others c.1)
  bounded := h.bounded
  present userId := by
    by_cases same : userId = user
    · subst same
      have begun_eq := restarted.begun
      cases found : s.tables.attempt? (totpKey userId) with
      | none =>
        rw [found, Option.isSome_none, if_neg Bool.false_ne_true, Nat.add_zero] at begun_eq
        have before := h.present userId
        rw [attempts, found] at before
        rw [begun_eq]
        exact before.trans (Nat.zero_le _)
      | some row =>
        rw [found, Option.isSome_some, if_pos rfl] at begun_eq
        have none' : s.charged.count (userId, begun (totpKey userId) w) = 0 := h.count_later (by omega)
        rw [none']
        exact Nat.zero_le _
    · exact h.others rfl (others userId same)
  locked := h.locked_of_others le others fun until' mem =>
    .inl (h.released le free until' ((restarted.locks until').mp mem))

theorem count_append_own (charged : List (Nat × Nat)) (c d : Nat × Nat) :
    (charged ++ [c]).count d = charged.count d + if d = c then 1 else 0 := by
  rw [List.count_append, List.count_singleton]
  by_cases same : d = c
  · simp [same]
  · simp [same, Ne.symm same]

variable (env) in
theorem one_le_maxAttempts : 1 ≤ (totpLimits env).maxAttempts := Int.le_max_left _ _

/-- The window of a wrong code that is counted as one of the authenticator is the last one that has begun, and has had room
    for it. -/
theorem Sound.charge_failed (h : Sound env s) {user : Nat}
    (free : ∀ row ∈ s.tables.attempt? (totpKey user), row.blocked inp.now = false)
    (full : ∀ row ∈ s.tables.attempt? (totpKey user), (totpLimits env).maxAttempts ≤ row.attempts →
      row.blocked inp.now = true ∨ row.over (totpLimits env) inp.now = true)
    (counted : Counted (totpKey user) (totpLimits env) inp.now s.toWorld w) :
    windowOf env s.toWorld w user inp.now = some (begun (totpKey user) w) ∧
      begun (totpKey user) s.toWorld ≤ begun (totpKey user) w ∧
      s.charged.count (user, begun (totpKey user) w) + 1 ≤ attempts w.tables (totpKey user) ∧
      (s.charged.count (user, begun (totpKey user) w) : Int) + 1 ≤ (totpLimits env).maxAttempts := by
  have one := one_le_maxAttempts env
  have begun_eq := counted.begun
  have after_eq : attempts w.tables (totpKey user) = (s.tables.attempted (totpKey user) (totpLimits env) inp.now).attempts := by
    rw [attempts, counted.row]
    rfl
  obtain ⟨young, ⟨opens, past, first⟩ | ⟨row, found, opens, past, more⟩⟩ := attempted_cases (totpLimits env) s.tables free
  · rw [opens, if_pos rfl] at begun_eq
    have none' : s.charged.count (user, begun (totpKey user) w) = 0 := h.count_later (by omega)
    have before : inWindow env s.toWorld user inp.now = false := by
      unfold inWindow
      cases found : s.tables.attempt? (totpKey user) with
      | none => rfl
      | some row => rw [Option.any_some, past row found, Bool.not_true]
    have now' : inWindow env w user inp.now = true := by
      rw [inWindow, counted.row, Option.any_some, young, Bool.not_false]
    refine ⟨?_, by omega, by omega, by omega⟩
    rw [windowOf, before, now', if_neg Bool.false_ne_true, if_pos rfl]
  · rw [opens, if_neg Bool.false_ne_true, Nat.add_zero] at begun_eq
    have before : inWindow env s.toWorld user inp.now = true := by
      rw [inWindow, found, Option.any_some, past, Bool.not_false]
    have present := h.present user
    rw [attempts, found, Option.map_some, Option.getD_some, ← begun_eq] at present
    have room : (row.attempts : Int) < (totpLimits env).maxAttempts := by
      by_contra above
      rcases full row found (by omega) with locked | ended
      · rw [free row found] at locked
        cases locked
      · rw [past] at ended
        cases ended
    refine ⟨?_, begun_eq.ge, by omega, by omega⟩
    rw [windowOf, before, if_pos rfl, begun_eq]

/-- One more attempt of a user, with a wrong code or none that was evaluated. -/
theorem Sound.failed (h : Sound env s) (le : s.clock ≤ inp.now) {user : Nat}
    (free : ∀ row ∈ s.tables.attempt? (totpKey user), row.blocked inp.now = false)
    (full : ∀ row ∈ s.tables.attempt? (totpKey user), (totpLimits env).maxAttempts ≤ row.attempts →
      row.blocked inp.now = true ∨ row.over (totpLimits env) inp.now = true)
    (counted : Counted (totpKey user) (totpLimits env) inp.now s.toWorld w)
    (others : ∀ userId ≠ user, Unmoved (totpKey userId) s.toWorld w)
    (own : es = [] ∨ es = [{ userId := user, now := inp.now, matched := false }]) :
    Sound env {
      toWorld := w, clock := inp.now
      charged := s.charged ++ es.filterMap (charge env s.toWorld w inp.now) } := by
  obtain ⟨window, grows, room, below⟩ := h.charge_failed free full counted
  have added : ∃ n ≤ 1, (∀ d, (s.charged ++ es.filterMap (charge env s.toWorld w inp.now)).count d =
      s.charged.count d + if d = (user, begun (totpKey user) w) then n else 0) := by
    rcases own with rfl | rfl
    · exact ⟨0, by omega, fun d => by simp⟩
    · refine ⟨1, le_rfl, fun d => ?_⟩
      simp only [charge, window, List.filterMap_cons, List.filterMap_nil, Bool.false_eq_true, if_false, Option.map_some]
      exact count_append_own _ _ d
  obtain ⟨n, n_le, count⟩ := added
  have grow := begun_le_of_others user grows others
  refine ⟨fun c mem => ?_, fun userId k => ?_, fun userId => ?_, ?_⟩
  · have some' := List.count_pos_iff.mpr mem
    rw [count] at some'
    by_cases same : c = (user, begun (totpKey user) w)
    · rw [same]
    · rw [if_neg same, Nat.add_zero] at some'
      exact (h.past c (List.count_pos_iff.mp some')).trans (grow c.1)
  · rw [count]
    split
    · next same =>
      rw [same]
      omega
    · exact h.bounded userId k
  · by_cases same : userId = user
    · subst same
      rw [count, if_pos rfl]
      change s.charged.count (userId, begun (totpKey userId) w) + n ≤ attempts w.tables (totpKey userId)
      omega
    · refine h.others ?_ (others userId same)
      rw [count, if_neg fun equal => same (congrArg Prod.fst equal), Nat.add_zero]
  · refine h.locked_of_others le others fun until' mem => ?_
    rcases (counted.locks until').mp mem with old | stamp
    · exact .inl (h.released le free until' old)
    · exact .inr ⟨_, counted.row, until', stamp, Int.le_refl _⟩

/-- An orderly login evaluates no code that is counted as a recovery code. -/
theorem Orderly.not_foreign (orderly : Orderly env s inp) {user : PlatformAdminUser} (asked : asks env inp s.tables = some user)
    (recovery : env.mfaAttemptKindFromCode inp.mfaCode = .recovery) :
    evaluates env (env.normalizeMfaCode inp.mfaCode) ≠ true := by
  intro six
  have totp := orderly.counted user asked six
  rw [recovery] at totp
  cases totp

/-- A right code comes while the user's counter is not locked; if it is a recovery code, it is not evaluated. -/
theorem Orderly.passed (orderly : Orderly env s inp) {user : PlatformAdminUser} (asked : asks env inp s.tables = some user)
    (right : (∀ row ∈ s.tables.attempt? (totpKey user.id), row.blocked inp.now = false) ∧
        es = [{ userId := user.id, now := inp.now, matched := true }] ∨
      env.mfaAttemptKindFromCode inp.mfaCode = .recovery ∧
        (es ≠ [] → evaluates env (env.normalizeMfaCode inp.mfaCode) = true) ∧ (recovers env inp s.tables user = true ∨ es ≠ [])) :
    (∀ row ∈ s.tables.attempt? (totpKey user.id), row.blocked inp.now = false) ∧
      (es = [] ∨ es = [{ userId := user.id, now := inp.now, matched := true }]) := by
  rcases right with ⟨free, own⟩ | ⟨recovery, six, found⟩
  · exact ⟨free, .inr own⟩
  · have none' : es = [] := by
      by_contra some'
      exact orderly.not_foreign asked recovery (six some')
    refine ⟨fun row at_key => ?_, .inl none'⟩
    have found := found.resolve_right (absurd none')
    by_contra locked
    rw [orderly.locked user asked row at_key (by simpa using locked)] at found
    cases found

/-- Every login of an orderly run leaves the counters in order, and respects the locks. -/
theorem Sound.logged (h : Sound env s) (le : s.clock ≤ inp.now) (orderly : Orderly env s inp) :
    Sound env (step env s inp) ∧ KeepsLock env s inp := by
  obtain ⟨es, evaluations, turn⟩ := loggedIn_turned env inp s.toWorld
  have evaluated_eq := evaluated_append evaluations
  have step_eq : step env s inp = {
      toWorld := loggedIn env inp s.toWorld, clock := inp.now
      charged := s.charged ++ es.filterMap (charge env s.toWorld (loggedIn env inp s.toWorld) inp.now) } := by
    rw [step, evaluated_eq]
  have respects : ∀ user : Nat, (∀ row ∈ s.tables.attempt? (totpKey user), row.blocked inp.now = false) →
      (∀ e ∈ es, e.userId = user) → KeepsLock env s inp := by
    intro user free own e mem lock inside same
    rw [evaluated_eq] at mem
    refine h.released le free lock.2 ?_
    rw [← own e mem, ← same]
    exact inside
  rw [step_eq]
  cases turn with
  | idle foreign unmoved =>
    have none' : es = [] := by
      by_contra some'
      obtain ⟨user, asked, six, recovery⟩ := foreign some'
      exact orderly.not_foreign asked recovery six
    refine ⟨?_, fun e mem => ?_⟩
    · rw [none', List.filterMap_nil, List.append_nil]
      exact h.idle le unmoved
    · rw [evaluated_eq, none'] at mem
      cases mem
  | failed user asked free own counted others =>
    refine ⟨h.failed le free (orderly.full user asked) counted others own, respects user.id free fun e mem => ?_⟩
    rcases own with rfl | rfl
    · cases mem
    · rw [List.mem_singleton.mp mem]
  | passed user asked right restarted others =>
    obtain ⟨free, own⟩ := orderly.passed asked right
    refine ⟨?_, respects user.id free fun e mem => ?_⟩
    · have charged : es.filterMap (charge env s.toWorld (loggedIn env inp s.toWorld) inp.now) = [] := by
        rcases own with rfl | rfl
        · rfl
        · simp [charge]
      rw [charged, List.append_nil]
      exact h.passed le free restarted others
    · rcases own with rfl | rfl
      · cases mem
      · rw [List.mem_singleton.mp mem]

theorem Sound.start (locks : s.locks = []) (charged : s.charged = []) : Sound env s where
  past c mem := by
    rw [charged] at mem
    cases mem
  bounded userId window := by
    have one := one_le_maxAttempts env
    rw [charged, List.count_nil]
    omega
  present userId := by
    rw [charged, List.count_nil]
    exact Nat.zero_le _
  locked userId until' mem := by
    rw [locks] at mem
    cases mem

end

/-- In a run of orderly logins no code is evaluated while its user's counter is locked, and no window has more wrong codes
    than the limit. -/
theorem lockout_holds (env : AdminEnv) (s : State) (locks : s.locks = []) (charged : s.charged = [])
    (run : List AdminLoginInput) (clock : Always (step env) (fun s inp => s.clock ≤ inp.now) s run)
    (orderly : Always (step env) (Orderly env) s run) :
    Always (step env) (KeepsLock env) s run ∧ ∀ n, Bounded env (final (step env) s (run.take n)) := by
  have start : Sound env s := .start locks charged
  have kept : ∀ t inp, Sound env t → t.clock ≤ inp.now ∧ Orderly env t inp → Sound env (step env t inp) := fun t inp h both =>
    (h.logged both.1 both.2).1
  have both := clock.and orderly
  refine ⟨both.of_invariant (Sound env) start kept fun t inp h now => (h.logged now.1 now.2).2, fun n => ?_⟩
  rw [← List.take_append_drop n run] at both
  exact (final_invariant (Sound env) start kept (always_append.mp both).1).bounded

/-! ### Runs that show it -/

/-- The default settings, and an authenticator whose codes are all zeros. -/
def defaults : AdminEnv where
  maxFailedLoginAttempts := 8
  mfaAttemptWindowMinutes := 15
  mfaLockMinutes := 30
  mfaTotpMaxAttemptsPerUser := 5
  mfaTotpMaxAttemptsPerIp := 10
  mfaRecoveryMaxAttemptsPerUser := 3
  mfaRecoveryMaxAttemptsPerIp := 6
  auth := {
    maxAttempts := 5, attemptWindowMinutes := 15, isDigit := Char.isDigit, secretKey := fun _ => some [0]
    hmacSha1 := fun _ _ => List.replicate 20 0, sha256Hex := id }
  isAlnum := Char.isAlphanum
  upper c := [c.toUpper]
  parseaddr := id
  verifyPassword password hash := password = hash
  hashPassword := id
  passwordRefusal _ := none
  decode _ := none
  encode claims := claims.jti
  hashToken := id
  accessExp := 15
  refreshExp := 60

def oneAdmin : State where
  tables := { users := [{ id := 7, email := "a@b.hu", passwordHash := "pw", mfaEnabled := true, mfaSecretBase32 := some "AAAA" }] }
  clock := 0

def attempt (code : String) (now : Int) : AdminLoginInput :=
  { email := "a@b.hu", password := "pw", mfaCode := some code, now, timestamp := 0, ids := { jti := "r", accessJti := "a" } }

theorem lockout_one_attempt :
    Always (step defaults) (KeepsLock defaults) oneAdmin [attempt "123456" 1] ∧
      ∀ n, Bounded defaults (final (step defaults) oneAdmin ([attempt "123456" 1].take n)) :=
  lockout_holds defaults oneAdmin rfl rfl [attempt "123456" 1] (by decide +kernel) (by decide +kernel)

/-- Five wrong codes of the authenticator lock its counter. The sixth one has eight letters and digits, six of them digits:
    it is compared with the authenticator's codes all the same. -/
def sixth : List AdminLoginInput := List.replicate 5 (attempt "123456" 1) ++ [attempt "12-34-56-ab" 2]

theorem lockout_bypassed :
    Always (step defaults) (fun s inp => s.clock ≤ inp.now) oneAdmin sixth ∧
      ¬Always (step defaults) (KeepsLock defaults) oneAdmin sixth ∧ ¬Bounded defaults (final (step defaults) oneAdmin sixth) := by
  refine ⟨by decide +kernel, by decide +kernel, fun bounded => ?_⟩
  have six : (final (step defaults) oneAdmin sixth).charged.count (7, 1) = 6 := by decide +kernel
  have limit := bounded 7 1
  rw [six] at limit
  exact absurd limit (by decide)

end NyzRating.Admin.Lockout
