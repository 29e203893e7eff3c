import NyzRating.Users.Sessions

/-!
# After a change of the password

The first password of a demo user raises the security version, so that older tokens are void. The other two ways to set a
password leave the version and the sessions alone: older tokens end with their sessions only.
-/

namespace NyzRating.Users

open Runs Auth.Refresh

/-! ### Statement -/

/-- The user whose password the call sets, where it completes. -/
def World.passwordSet (env : LoginEnv) (w : World) : Op → Option Nat
  | .changePassword inp => if (Users.changePassword env.verifyPassword w.tables inp).toBool then some inp.userId else none
  | .setPassword inp => if (Users.setPassword w.tables inp).toBool then w.tables.linkOwner inp else none
  | .setInitialPassword inp demo refusal _ => if (setInitialPasswordDemo w.tables inp demo refusal).toBool then some inp.userId else none
  | _ => none

/-- The tokens that have been handed out are known, and not of a later version. -/
structure Tracked (w : World) : Prop where
  keyed : w.tables.Keyed
  cacheKeyed : w.CacheKeyed
  sound : Sound w.sessions
  versions : ∀ p ∈ w.signed, ∃ a ∈ w.tables.accounts p.sub, a.live = true → p.userVer ≤ a.securityVersion

/-- The token's session is over, or its version is not the current one. -/
def World.Dead (w : World) (p : Payload) : Prop :=
  (∃ r ∈ w.tables.refreshTokens.sessions, r.jti = p.jti ∧ r.valid = false) ∨
    ∃ a ∈ w.tables.accounts p.sub, a.live = true ∧ p.userVer < a.securityVersion

/-! ### Steps -/

section
variable {env : LoginEnv} {caller : Option User} {w w' : World} {op : Op} {event : Event} {id : Nat} {p : Payload}

theorem userVer_of_getById {inp : RefreshRequest} {u : User} (found : w.tables.getById id = some u) :
    (inp.input w).userVer id = u.securityVersion := by
  simp only [RefreshInput.userVer, RefreshRequest.input, found, Option.map_some, Option.getD_some, User.token]

/-- The version of a new token is that of the account. -/
theorem userVer_le {inp : RefreshRequest} {a : Account} (found : a ∈ w.tables.accounts id) (live : a.live = true) :
    (inp.input w).userVer id = a.securityVersion := by
  obtain ⟨u, stored, same⟩ := Tables.getById_of_accounts found live
  exact (userVer_of_getById stored).trans (congrArg Account.securityVersion same)

theorem Tracked.looked (h : Tracked w) (looked : Looked w w') : Tracked w' where
  keyed := looked.tables ▸ h.keyed
  cacheKeyed := looked.cacheKeyed h.cacheKeyed
  sound := looked.sessions ▸ h.sound
  versions := by
    rw [looked.signed, looked.tables]
    exact h.versions

theorem Rotated.signed {inp : RefreshRequest} {tokens : RefreshSuccess} {s : SessionTables} {rec : SessionRow}
    (h : Rotated env w inp tokens s p rec) (genuine : w.Genuine env (.refresh inp)) : p ∈ w.signed := by
  obtain ⟨mem, jti⟩ := getByJti_eq_some h.found
  have claims : p ∈ (env.tokens.decode inp.token).toOption := by
    rw [verify_eq_ok h.verified]
    rfl
  rcases genuine p claims h.typ with signed | unknown
  · exact signed
  · exact absurd jti (unknown rec mem)

theorem Tracked.turn_versions (h : Tracked w) (turn : Turn env w w' op) (genuine : w.Genuine env op)
    (account : Refines w.tables w'.tables event) :
    ∀ p ∈ w'.signed, ∃ a ∈ w'.tables.accounts p.sub, a.live = true → p.userVer ≤ a.securityVersion := by
  have old : ∀ p ∈ w.signed, ∃ a ∈ w'.tables.accounts p.sub, a.live = true → p.userVer ≤ a.securityVersion := by
    intro p mem
    obtain ⟨a, found, le⟩ := h.versions p mem
    obtain ⟨b, found', version, live, -⟩ := Accounts.version_kept account.allowed found
    exact ⟨b, account.accounts ▸ found', fun alive => Int.le_trans (le (live alive)) version⟩
  cases turn with
  | ended _ signed => exact signed ▸ old
  | @issued inp user stored _ _ signed =>
    intro p mem
    rw [signed] at mem
    rcases List.mem_append.mp mem with before | new
    · exact old p before
    · rw [List.mem_singleton.mp new]
      exact ⟨user.account, stored, fun _ => Int.le_refl _⟩
  | @rotated inp _ p₀ rec asked accounts rotated signed =>
    subst asked
    intro p mem
    rw [signed] at mem
    rcases List.mem_append.mp mem with before | new
    · exact old p before
    · rw [List.mem_singleton.mp new]
      obtain ⟨a, found, -⟩ := h.versions p₀ (rotated.signed genuine)
      exact ⟨a, accounts ▸ found, fun live => Int.le_of_eq (userVer_le found live)⟩

theorem Tracked.step (h : Tracked w) (genuine : w.Genuine env op) : Tracked (w.step env op) := by
  have looked : Looked w (w.seen env op) := seen_looked h.cacheKeyed op
  have seen : Tracked (w.seen env op) := h.looked looked
  have outcome := step_outcome env w h.keyed h.cacheKeyed op
  obtain ⟨loses, event, account, means⟩ := outcome.event
  have genuine := genuine.seen
  exact ⟨account.keyed, seen.cacheKeyed.of_loses loses, outcome.turn.sound seen.sound genuine,
    seen.turn_versions outcome.turn genuine account⟩

theorem signed_step (h : Tracked w) (mem : p ∈ w.signed) : p ∈ (w.step env op).signed := by
  have looked : Looked w (w.seen env op) := seen_looked h.cacheKeyed op
  rw [← looked.signed] at mem
  cases (step_outcome env w h.keyed h.cacheKeyed op).turn with
  | ended _ signed => exact signed ▸ mem
  | issued _ _ _ signed => exact signed ▸ List.mem_append_left _ mem
  | rotated _ _ _ signed => exact signed ▸ List.mem_append_left _ mem

/-- A dead token stays dead. -/
theorem World.Dead.step (dead : w.Dead p) (h : Tracked w) (mem : p ∈ w.signed) : (w.step env op).Dead p := by
  have looked : Looked w (w.seen env op) := seen_looked h.cacheKeyed op
  have outcome := step_outcome env w h.keyed h.cacheKeyed op
  obtain ⟨-, event, account, means⟩ := outcome.event
  have follows : Follows w.tables.refreshTokens (w.step env op).tables.refreshTokens := looked.tables ▸ outcome.turn.follows
  rcases dead with ⟨r, known, jti, invalid⟩ | ⟨a, found, live, version⟩
  · obtain ⟨r', known', -, jti', -, still⟩ := follows r known
    exact .inl ⟨r', known', jti'.trans jti, still invalid⟩
  · by_cases deleted : event = .deleted p.sub
    · obtain ⟨r, known, jti, owner⟩ := h.sound.signed p mem
      obtain ⟨r', known', -, jti', owner', -⟩ := follows r known
      refine .inl ⟨r', known', jti'.trans jti, ?_⟩
      subst deleted
      generalize own : p.sub = j at means
      cases means with
      | deleted sessions => exact invalid_of_invalidated sessions known' ((owner'.trans owner).trans own)
    · rw [← looked.tables] at found
      obtain ⟨b, found', version', -, same⟩ := Accounts.version_kept account.allowed found
      exact .inr ⟨b, account.accounts ▸ found', (same deleted).trans live, Int.lt_of_lt_of_le version version'⟩

/-- A dead token is refused. -/
theorem World.Dead.refused (dead : w.Dead p) (h : Tracked w) (inp : RefreshRequest) (decoded : env.tokens.decode inp.token = .ok p) :
    w.accepts env inp = false := by
  by_contra accepted
  obtain ⟨tokens, s, p', rec, rotated⟩ := accepts_rotated ((Bool.not_eq_false _).mp accepted)
  obtain rfl : p = p' := Except.ok.inj (decoded.symm.trans (verify_eq_ok rotated.verified))
  rcases dead with ⟨r, known, jti, invalid⟩ | ⟨a, found, live, version⟩
  · obtain ⟨mem, jti'⟩ := getByJti_eq_some rotated.found
    have equal : r = rec := List.inj_on_of_nodup_map h.sound.keyed.jtis known mem (jti.trans jti'.symm)
    rw [equal, rotated.valid] at invalid
    cases invalid
  · have current := rotated.current
    simp only [RefreshInput.current, Bool.and_eq_true, decide_eq_true_eq, userVer_le found live] at current
    exact absurd current.1 (Int.ne_of_lt version)

/-- The first password of a demo user. -/
theorem firstPassword_accounts (keys : w.tables.Keyed) {inp : PasswordInput} {demo : Bool} {refusal : Option String}
    {tokens : TokenInput} {t : Tables} (done : setInitialPasswordDemo w.tables inp demo refusal = .ok t) :
    (w.step env (.setInitialPassword inp demo refusal tokens)).tables.accounts = t.accounts := by
  obtain ⟨account, -, -⟩ := setInitialPasswordDemo_refines keys done
  simp only [World.step, World.onSetInitialPassword, done]
  cases t.getById inp.userId with
  | none => rfl
  | some user =>
    dsimp only
    cases issued : issueTokens env.tokens t tokens user with
    | error _ => rfl
    | ok pair =>
      obtain ⟨handed, u⟩ := pair
      exact (issueTokens_issued account.keyed issued).1.accounts

/-- Once a password has been set, the older tokens are dead. -/
theorem Tracked.passwordSet (h : Tracked w) (completed : w.passwordSet env op = some id)
    (alone : op.firstPassword = none → validCount w.tables.refreshTokens id = 0) (mem : p ∈ w.signed) (own : p.sub = id) :
    (w.step env op).Dead p := by
  by_cases first : op.firstPassword = none
  · obtain ⟨r, known, jti, owner⟩ := h.sound.signed p mem
    have counted := List.countP_eq_zero.mp (alone first) r known
    have dead : w.Dead p := by
      refine .inl ⟨r, known, jti, ?_⟩
      simpa [owner, own] using counted
    exact dead.step h mem
  · cases op with
    | setInitialPassword inp demo refusal tokens =>
      change (if (setInitialPasswordDemo w.tables inp demo refusal).toBool then some inp.userId else none) = some id at completed
      cases done : setInitialPasswordDemo w.tables inp demo refusal with
      | error _ =>
        rw [done] at completed
        cases completed
      | ok t =>
        rw [done] at completed
        obtain rfl : inp.userId = id := Option.some.inj completed
        obtain ⟨account, -, user, found⟩ := setInitialPasswordDemo_refines h.keyed done
        have stored : w.tables.accounts inp.userId = some user.account := Tables.accounts_of_getById found
        obtain ⟨a, known, le⟩ := h.versions p mem
        rw [own, Option.mem_def, stored] at known
        obtain rfl := Option.some.inj known
        refine .inr ⟨user.account.raise, ?_, rfl, Int.lt_add_one_of_le (le rfl)⟩
        rw [own, firstPassword_accounts h.keyed done, account.accounts]
        exact Accounts.set_self.trans (congrArg (Option.map _) stored)
    | _ => exact absurd rfl first

end

/-! ### Runs -/

/-- After a password has been set for a user, a refresh refuses each token that he was given before, where the password is the
    first one of a demo user or the user has no valid session at that moment. -/
theorem password_change_ends_sessions (env : LoginEnv) (w : World) (start : Tracked w) (earlier later : List Op) (op : Op) (id : Nat)
    (genuine : Always (World.step env) (World.Genuine env) w (earlier ++ op :: later))
    (completed : (final (World.step env) w earlier).passwordSet env op = some id)
    (alone : op.firstPassword = none → validCount (final (World.step env) w earlier).tables.refreshTokens id = 0) :
    ∀ p ∈ (final (World.step env) w earlier).signed, p.sub = id → ∀ inp, env.tokens.decode inp.token = .ok p →
      (final (World.step env) w (earlier ++ op :: later)).accepts env inp = false := by
  obtain ⟨before, genuine, after⟩ := always_append.mp genuine
  have tracked : Tracked (final (World.step env) w earlier) := final_invariant Tracked start (fun _ _ h ok => h.step ok) before
  rw [final_append, final_cons]
  generalize final (World.step env) w earlier = v at *
  intro p mem own inp decoded
  have dead : (v.step env op).Dead p := tracked.passwordSet completed alone mem own
  have ends := final_invariant (fun v => Tracked v ∧ p ∈ v.signed ∧ v.Dead p) ⟨tracked.step genuine, signed_step tracked mem, dead⟩
    (fun _ _ ⟨tracked, known, dead⟩ ok => ⟨tracked.step ok, signed_step tracked known, dead.step tracked known⟩) after
  exact ends.2.2.refused ends.1 inp decoded

theorem twoUsers_tracked : Tracked twoUsers where
  keyed := ⟨by decide, by decide⟩
  cacheKeyed := fun _ _ stored => absurd stored (Option.not_mem_none _)
  sound := sound_start
  versions := fun _ mem => absurd mem List.not_mem_nil

def newPassword : Op := .changePassword { userId := 7, currentPassword := "secret", newHash := "new" }

/-- She logs out before she changes her password, as far as the sessions are concerned. -/
theorem password_change_ends_sessions_after_logout :
    (final (World.step plainEnv) twoUsers ([signIn, .logout { token := some "j1", now := 0 }] ++ [newPassword])).accepts
      plainEnv firstRefresh = false :=
  password_change_ends_sessions plainEnv twoUsers twoUsers_tracked [signIn, .logout { token := some "j1", now := 0 }] []
    newPassword 7 ⟨trivial, trivial, trivial, trivial⟩ (by decide +kernel) (fun _ => by decide +kernel)
    { sub := 7, typ := "refresh", jti := "j1", userVer := 0, tenantVer := 0, exp := 86400, al := false } (by decide +kernel) rfl
    firstRefresh rfl

/-- She changes her password while she is logged in, and refreshes the token of that login. -/
theorem password_change_keeps_session : ¬∀ (w : World) (earlier later : List Op) (op : Op) (id : Nat), Tracked w →
    Always (World.step plainEnv) (World.Genuine plainEnv) w (earlier ++ op :: later) →
      (final (World.step plainEnv) w earlier).passwordSet plainEnv op = some id →
        ∀ p ∈ (final (World.step plainEnv) w earlier).signed, p.sub = id → ∀ inp, plainEnv.tokens.decode inp.token = .ok p →
          (final (World.step plainEnv) w (earlier ++ op :: later)).accepts plainEnv inp = false := by
  intro h
  have refused := h twoUsers [signIn] [] newPassword 7 twoUsers_tracked ⟨trivial, trivial, trivial⟩ (by decide +kernel)
    { sub := 7, typ := "refresh", jti := "j1", userVer := 0, tenantVer := 0, exp := 86400, al := false } (by decide +kernel) rfl
    firstRefresh rfl
  have accepted : (final (World.step plainEnv) twoUsers ([signIn] ++ [newPassword])).accepts plainEnv firstRefresh = true := by
    decide +kernel
  rw [refused] at accepted
  cases accepted

end NyzRating.Users
