import NyzRating.Lib.Run
import NyzRating.Users.Outcomes

/-!
# Sessions of the users

A request ends sessions, or gives one user a new one.
-/

namespace NyzRating.Users

open Auth.Refresh

/-- What the services of the tokens keep. -/
def World.sessions (w : World) : Auth.Refresh.State := { tables := w.tables.refreshTokens, signed := w.signed }

/-- Nobody else signs refresh tokens for this tenant. -/
def World.Genuine (env : LoginEnv) (w : World) : Op → Prop
  | .refresh inp => Auth.Refresh.Genuine env.tokens w.sessions (.refresh (inp.input w))
  | _ => True

/-- The refresh succeeds. -/
def World.accepts (env : LoginEnv) (w : World) (inp : RefreshRequest) : Bool :=
  match w.refresh env inp with
  | .ok (.success _) _ => true
  | _ => false

/-- The user who sets a first password in a tenant for demonstrations. -/
def Op.firstPassword : Op → Option Nat
  | .setInitialPassword inp _ _ _ => some inp.userId
  | _ => none

/-- What a request makes of the sessions. -/
inductive Turn (env : LoginEnv) (w w' : World) (op : Op) : Prop
  | ended (sessions : Ended w.tables.refreshTokens w'.tables.refreshTokens) (signed : w'.signed = w.signed)
  | issued {inp : TokenInput} {user : User} (account : w'.tables.accounts user.id = some user.account)
      (active : user.isActive = true ∨ op.firstPassword = some user.id)
      (issued : Issued env.tokens inp user w.tables.refreshTokens w'.tables.refreshTokens)
      (signed : w'.signed = w.signed ++ [((inp.issue user).pair env.tokens).1])
  | rotated {inp : RefreshRequest} {tokens : RefreshSuccess} {p : Payload} {rec : SessionRow} (asked : op = .refresh inp)
      (accounts : w'.tables.accounts = w.tables.accounts)
      (rotated : Rotated env w inp tokens w'.tables.refreshTokens p rec)
      (signed : w'.signed = w.signed ++ [((inp.input w).pair env.tokens p).1])

section
variable {env : LoginEnv} {caller : Option User} {w w' : World} {op : Op} {s s' : SessionTables} {id : Nat} {r : SessionRow}

theorem Ended.follows (h : Ended s s') : Follows s s' := by
  obtain ⟨f, weakens, same⟩ := h
  exact (weakens.follows s).trans same.follows

theorem Ended.invalidated (same : s' = s.invalidateAllForUser id) : Ended s s' := by
  subst same
  exact ⟨_, weakens_invalidateAll id, .refl _⟩

theorem Outcome.turn (h : Outcome env caller w op w') : Turn env w w' op := by
  cases h with
  | quiet loses _ sessions => exact .ended sessions loses.signed
  | locked _ loses _ sessions => exact .ended (.of_eq sessions) loses.signed
  | handedOut _ found active account issued =>
    exact .issued (account.accounts ▸ Tables.accounts_of_getById found) (.inl active) issued rfl
  | @refreshed inp _ s p _ account rotated =>
    refine .rotated rfl account.accounts rotated ?_
    have claims : World.refreshClaims env inp = some p := by
      unfold World.refreshClaims
      rw [rotated.verified]
      rfl
    simp only [World.refreshed, claims, Option.map_some, Option.toList_some]
  | added loses _ sessions => exact .ended (.of_eq sessions) loses.signed
  | edited loses _ _ _ sessions =>
    rcases sessions with invalidated | ⟨same, -⟩
    · exact .ended (.invalidated invalidated) loses.signed
    · exact .ended (.of_eq same) loses.signed
  | deleted loses _ _ sessions => exact .ended (.invalidated sessions) loses.signed
  | registered _ loses _ sessions => exact .ended (.of_eq sessions) loses.signed
  | firstPassword loses _ _ sessions => exact .ended (.of_eq sessions) loses.signed
  | @firstLogin inp demo refusal tokens v user t loses _ _ sessions found account' issued =>
    have own : user.id = inp.userId := Tables.getById_id found
    refine .issued (own ▸ account'.accounts ▸ Tables.accounts_of_getById found) (.inr (congrArg some own.symm)) (sessions ▸ issued) ?_
    rw [← loses.signed]
    rfl
  | revoked _ loses _ sessions => exact .ended (.invalidated sessions) loses.signed
  | overwritten _ _ loses _ _ sessions => exact .ended (.of_eq sessions) loses.signed

/-- The middleware touches no sessions. -/
theorem World.Genuine.seen (h : w.Genuine env op) : (w.seen env op).Genuine env op := by
  cases op with
  | refresh inp => exact h
  | _ => trivial

theorem Looked.sessions (h : Looked w w') : w'.sessions = w.sessions := by
  unfold World.sessions
  rw [h.tables, h.signed]

theorem Issued.follows {inp : TokenInput} {user : User} (h : Issued env.tokens inp user s s') : Follows s s' :=
  (((weakens_invalidateAll user.id).follows s).trans (.create _ _)).trans h.same.follows

theorem Rotated.follows {inp : RefreshRequest} {tokens : RefreshSuccess} {p : Payload} {rec : SessionRow}
    (h : Rotated env w inp tokens s p rec) : Follows w.tables.refreshTokens s :=
  (((weakens_update rec).follows _).trans (.create _ _)).trans h.same.follows

theorem Turn.follows (h : Turn env w w' op) : Follows w.tables.refreshTokens w'.tables.refreshTokens := by
  cases h with
  | ended sessions _ => exact sessions.follows
  | issued _ _ issued _ => exact issued.follows
  | rotated _ _ rotated _ => exact rotated.follows

theorem accepts_rotated {inp : RefreshRequest} (accepts : w.accepts env inp = true) : ∃ tokens s p rec, Rotated env w inp tokens s p rec := by
  unfold World.accepts at accepts
  split at accepts
  · next tokens s run =>
    obtain ⟨p, rec, rotated⟩ := refresh_rotated run
    exact ⟨tokens, s, p, rec, rotated⟩
  · cases accepts

/-- The session that a refresh replaces belongs to the user of the token. -/
theorem Rotated.owner {inp : RefreshRequest} {tokens : RefreshSuccess} {p : Payload} {rec : SessionRow}
    (h : Rotated env w inp tokens s p rec) (sound : Sound w.sessions) (genuine : w.Genuine env (.refresh inp)) :
    rec ∈ w.tables.refreshTokens.sessions ∧ rec.userId = p.sub :=
  ⟨(getByJti_eq_some h.found).1, sound.owner genuine (verify_eq_ok h.verified) h.typ h.found⟩

theorem Turn.sound (h : Turn env w w' op) (sound : Sound w.sessions) (genuine : w.Genuine env op) : Sound w'.sessions := by
  unfold World.sessions
  cases h with
  | ended sessions signed =>
    obtain ⟨f, weakens, same⟩ := sessions
    rw [signed]
    exact sound.weaken weakens same
  | @issued inp user _ _ issued signed =>
    rw [signed]
    exact sound.issued (.new user.id _ _ _ _) issued.same issued.fresh ⟨rfl, rfl⟩
  | @rotated inp _ p rec asked _ rotated signed =>
    subst asked
    obtain ⟨mem, owner⟩ := rotated.owner sound genuine
    rw [signed]
    exact sound.rotated mem rotated.valid rotated.same owner rotated.fresh ⟨rfl, rfl⟩

theorem Ended.valid (h : Ended s s') (mem : r ∈ s'.sessions) (valid : r.valid = true) :
    ∃ r₀ ∈ s.sessions, r₀.valid = true ∧ r₀.userId = r.userId := by
  obtain ⟨f, weakens, same⟩ := h
  rw [same.sessions] at mem
  obtain ⟨r₀, old, rfl⟩ := List.mem_map.mp mem
  exact ⟨r₀, old, weakens.valid r₀ valid, (weakens.userId r₀).symm⟩

theorem Same.mem_create {t u : SessionTables} {row : SessionRow} (same : Same (t.create row) u) (mem : r ∈ u.sessions) :
    r ∈ t.sessions ∨ r.userId = row.userId := by
  rw [same.sessions] at mem
  rcases List.mem_append.mp mem with old | new
  · exact .inl old
  · rw [List.mem_singleton.mp new]
    exact .inr rfl

/-- After an administrator has ended the sessions of a user, none of them is valid. -/
theorem invalid_of_invalidated (same : s' = s.invalidateAllForUser id) (mem : r ∈ s'.sessions) (own : r.userId = id) :
    r.valid = false := by
  subst same
  obtain ⟨r₀, -, rfl⟩ := List.mem_map.mp mem
  have owner := (weakens_invalidateAll id).userId r₀
  rw [if_pos (owner.symm.trans own)]

/-- A valid session is one from before, or a new one of an active user. -/
theorem Turn.valid (h : Turn env w w' op) (sound : Sound w.sessions) (genuine : w.Genuine env op)
    (mem : r ∈ w'.tables.refreshTokens.sessions) (valid : r.valid = true) :
    (∃ r₀ ∈ w.tables.refreshTokens.sessions, r₀.valid = true ∧ r₀.userId = r.userId) ∨
      ∃ user : User, w'.tables.accounts r.userId = some user.account ∧
        (user.isActive = true ∨ op.firstPassword = some r.userId) := by
  cases h with
  | ended sessions _ => exact .inl (sessions.valid mem valid)
  | @issued inp user account active issued _ =>
    rcases Same.mem_create issued.same mem with old | own
    · have ended : Ended w.tables.refreshTokens (w.tables.refreshTokens.invalidateAllForUser user.id) := .invalidated rfl
      exact .inl (ended.valid old valid)
    · exact .inr ⟨user, own ▸ account, own ▸ active⟩
  | @rotated inp _ p rec asked _ rotated _ =>
    subst asked
    obtain ⟨known, owner⟩ := rotated.owner sound genuine
    rcases Same.mem_create rotated.same mem with old | own
    · have ended : Ended w.tables.refreshTokens (w.tables.refreshTokens.update rec.invalidate) := ⟨_, weakens_update rec, .refl _⟩
      exact .inl (ended.valid old valid)
    · exact .inl ⟨rec, known, rotated.valid, owner.trans own.symm⟩

end

end NyzRating.Users
