import NyzRating.Users.Sessions

/-!
# Sessions of enabled users

A refresh does not look whether the user is active. An administrator who changes or deletes an account ends the sessions of its
user, so that only enabled users have valid ones; a lock-out does not end them.
-/

namespace NyzRating.Users

open Runs Auth.Refresh

namespace Accounts

variable {s : Accounts} {id : Nat} {a : Account} {event : Event}

theorem enabled_kept (allowed : s.Allows event) (found : a ∈ s id) (enabled : a.enabled = true) (locked : event ≠ .locked id)
    (edited : ∀ isActive role, event ≠ .edited id isActive role) (deleted : event ≠ .deleted id) :
    ∃ b ∈ s.apply event id, b.enabled = true := by
  have live : a.live = true := (Bool.and_eq_true_iff.mp enabled).2
  rcases apply_found allowed found with ⟨-, kept⟩ | ⟨subject, changed⟩
  · exact ⟨a, kept, enabled⟩
  · refine ⟨event.change a, changed, ?_⟩
    cases event with
    | none => exact enabled
    | added j role => exact enabled
    | raised j => exact enabled
    | registered j promoted => exact live
    | overwritten j role => exact live
    | locked j =>
      obtain rfl : j = id := Option.some.inj subject
      exact absurd rfl locked
    | edited j isActive role =>
      obtain rfl : j = id := Option.some.inj subject
      exact absurd rfl (edited isActive role)
    | deleted j =>
      obtain rfl : j = id := Option.some.inj subject
      exact absurd rfl deleted

end Accounts

/-! ### Statement -/

/-- The user's row is active and not deleted. -/
def World.Enabled (w : World) (id : Nat) : Prop := ∃ a ∈ w.tables.accounts id, a.enabled = true

/-- No refresh succeeds for another user. -/
def World.RefreshesEnabled (env : LoginEnv) (w : World) : Prop := ∀ inp p, w.Genuine env (.refresh inp) →
  env.tokens.verify inp.token inp.now = .ok p → w.accepts env inp = true → w.Enabled p.sub

def Op.login? : Op → Option Step1Input
  | .login inp => some inp
  | _ => none

/-- A failed login locks a user out who has a valid session. -/
def World.LocksSession (env : LoginEnv) (w : World) (op : Op) : Prop :=
  ∃ inp ∈ op.login?, ∃ id ∈ w.tables.lockedBy env inp, validCount w.tables.refreshTokens id ≠ 0

/-- The route of the first password finds an active user. -/
def World.Served (w : World) (op : Op) : Prop := ∀ id ∈ op.firstPassword, w.Enabled id

instance (w : World) (id : Nat) : Decidable (w.Enabled id) := inferInstanceAs (Decidable (∃ a ∈ w.tables.accounts id, a.enabled = true))

instance (env : LoginEnv) (w : World) (op : Op) : Decidable (w.LocksSession env op) :=
  inferInstanceAs (Decidable (∃ inp ∈ op.login?, ∃ id ∈ w.tables.lockedBy env inp, validCount w.tables.refreshTokens id ≠ 0))

instance (w : World) (op : Op) : Decidable (w.Served op) := inferInstanceAs (Decidable (∀ id ∈ op.firstPassword, w.Enabled id))

/-- Valid sessions belong to enabled users. -/
structure EnabledOnly (w : World) : Prop where
  keyed : w.tables.Keyed
  cacheKeyed : w.CacheKeyed
  sound : Sound w.sessions
  enabled : ∀ r ∈ w.tables.refreshTokens.sessions, r.valid = true → w.Enabled r.userId

/-! ### Steps -/

section
variable {env : LoginEnv} {caller : Option User} {w w' : World} {op : Op} {event : Event} {id : Nat}

theorem EnabledOnly.looked (h : EnabledOnly w) (looked : Looked w w') : EnabledOnly w' where
  keyed := looked.tables ▸ h.keyed
  cacheKeyed := looked.cacheKeyed h.cacheKeyed
  sound := looked.sessions ▸ h.sound
  enabled := by
    unfold World.Enabled
    rw [looked.tables]
    exact h.enabled

/-- An enabled user who has a valid session after the request is enabled then, a lock-out apart. -/
theorem Means.enabled (means : Means env caller w w' op event) (account : Refines w.tables w'.tables event)
    (enabled : w.Enabled id) (unlocked : ∀ inp, op = .login inp → w.tables.lockedBy env inp ≠ some id)
    (valid : ∃ r ∈ w'.tables.refreshTokens.sessions, r.userId = id ∧ r.valid = true) : w'.Enabled id := by
  obtain ⟨a, found, active⟩ := enabled
  have alive : w'.tables.refreshTokens ≠ w.tables.refreshTokens.invalidateAllForUser id := by
    intro same
    obtain ⟨r, mem, own, valid⟩ := valid
    rw [invalid_of_invalidated same mem own] at valid
    cases valid
  by_cases same : w'.tables.accounts = w.tables.accounts
  · exact ⟨a, same ▸ found, active⟩
  · unfold World.Enabled
    rw [account.accounts]
    refine Accounts.enabled_kept account.allowed found active ?_ ?_ ?_
    · rintro rfl
      cases means with
      | @locked inp _ locks => exact unlocked inp rfl locks
    · rintro isActive role rfl
      generalize own : id = j at means
      cases means with
      | @edited inp _ sessions => exact sessions.elim (own ▸ alive) same
    · rintro rfl
      generalize own : id = j at means
      cases means with
      | @deleted inp sessions => exact alive (own ▸ sessions)

theorem EnabledOnly.step (h : EnabledOnly w) (genuine : w.Genuine env op) (served : w.Served op) (unlocked : ¬w.LocksSession env op) :
    EnabledOnly (w.step env op) := by
  have looked : Looked w (w.seen env op) := seen_looked h.cacheKeyed op
  have seen : EnabledOnly (w.seen env op) := h.looked looked
  have outcome := step_outcome env w h.keyed h.cacheKeyed op
  obtain ⟨loses, event, account, means⟩ := outcome.event
  have genuine := genuine.seen
  refine ⟨account.keyed, seen.cacheKeyed.of_loses loses, outcome.turn.sound seen.sound genuine, fun r mem valid => ?_⟩
  have kept : (w.seen env op).Enabled r.userId → (∀ inp, op = .login inp → w.tables.lockedBy env inp ≠ some r.userId) →
      (w.step env op).Enabled r.userId := fun enabled unlocked =>
    means.enabled account enabled (looked.tables ▸ unlocked) ⟨r, mem, rfl, valid⟩
  rcases outcome.turn.valid seen.sound genuine mem valid with ⟨r₀, old, valid₀, own⟩ | ⟨user, stored, active | first⟩
  · refine kept (own ▸ seen.enabled r₀ old valid₀) fun inp login locks =>
      unlocked ⟨inp, login ▸ rfl, r.userId, locks, fun none_valid => ?_⟩
    have counted := List.countP_eq_zero.mp none_valid r₀ (looked.tables ▸ old)
    exact counted (by rw [own, valid₀, decide_eq_true rfl]; rfl)
  · exact ⟨user.account, stored, by rw [Account.enabled, User.account, active]; rfl⟩
  · have enabled : (w.seen env op).Enabled r.userId := by
      unfold World.Enabled
      rw [looked.tables]
      exact served r.userId first
    refine kept enabled ?_
    rintro inp rfl
    cases first

theorem EnabledOnly.refreshes (h : EnabledOnly w) : w.RefreshesEnabled env := by
  intro inp p genuine verified accepts
  obtain ⟨tokens, s, p', rec, rotated⟩ := accepts_rotated accepts
  obtain rfl : p = p' := Except.ok.inj (verified.symm.trans rotated.verified)
  obtain ⟨mem, owner⟩ := rotated.owner h.sound genuine
  exact owner ▸ h.enabled rec mem rotated.valid

end

/-! ### Runs -/

/-- Where nobody is locked out who has a valid session, no refresh ever succeeds for a user who is inactive or deleted. -/
theorem refresh_for_enabled (env : LoginEnv) (w : World) (start : EnabledOnly w) (ops : List Op)
    (genuine : Always (World.step env) (World.Genuine env) w ops) (served : Always (World.step env) World.Served w ops)
    (unlocked : Always (World.step env) (fun w op => ¬w.LocksSession env op) w ops) :
    (final (World.step env) w ops).RefreshesEnabled env := by
  have enabledOnly : EnabledOnly (final (World.step env) w ops) :=
    final_invariant EnabledOnly start (fun _ _ h ok => h.step ok.1.1 ok.1.2 ok.2) ((genuine.and served).and unlocked)
  exact enabledOnly.refreshes

theorem twoUsers_enabledOnly : EnabledOnly twoUsers where
  keyed := ⟨by decide, by decide⟩
  cacheKeyed := fun _ _ stored => absurd stored (Option.not_mem_none _)
  sound := sound_start
  enabled := fun _ mem => absurd mem List.not_mem_nil

/-- She is locked out before she logs in. -/
def sixGuesses : List Op := List.replicate 5 wrongPassword ++ [signIn]

theorem refresh_for_enabled_after_guesses : (final (World.step plainEnv) twoUsers sixGuesses).RefreshesEnabled plainEnv := by
  refine refresh_for_enabled plainEnv twoUsers twoUsers_enabledOnly sixGuesses ?_ ?_ ?_
  · exact ⟨trivial, trivial, trivial, trivial, trivial, trivial, trivial⟩
  · decide +kernel
  · decide +kernel

/-- She is locked out after she has logged in, and refreshes her token. -/
theorem refresh_for_locked_out : ¬∀ (w : World) (ops : List Op), EnabledOnly w →
    Always (World.step plainEnv) (World.Genuine plainEnv) w ops → Always (World.step plainEnv) World.Served w ops →
      (final (World.step plainEnv) w ops).RefreshesEnabled plainEnv := by
  intro h
  have enabled := h twoUsers (signIn :: List.replicate 5 wrongPassword) twoUsers_enabledOnly
    ⟨trivial, trivial, trivial, trivial, trivial, trivial, trivial⟩ (by decide +kernel)
  have disabled : ¬(final (World.step plainEnv) twoUsers (signIn :: List.replicate 5 wrongPassword)).Enabled 7 := by decide +kernel
  refine disabled (enabled firstRefresh _ ?_ rfl (by decide +kernel))
  unfold World.Genuine
  decide +kernel

end NyzRating.Users
