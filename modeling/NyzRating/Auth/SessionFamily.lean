import Mathlib.Data.List.Nodup
import NyzRating.Auth.RefreshService
import NyzRating.Lib.Run

/-!
# The family of a refresh token

A login ends all sessions of the user, and a refresh the one that it replaces, so that a user has one valid session at
most. A token that has been replaced gives the whole family away.
-/

namespace NyzRating.Auth.Refresh

open Program Runs

/-! ### Rows -/

/-- The same sessions; the audit log may be another one. -/
structure Same (t u : SessionTables) : Prop where
  sessions : u.sessions = t.sessions
  next : u.nextSessionId = t.nextSessionId

/-- Sessions stay in the table, and none becomes valid again. -/
def Follows (t u : SessionTables) : Prop :=
  ∀ r ∈ t.sessions, ∃ r' ∈ u.sessions, r'.id = r.id ∧ r'.jti = r.jti ∧ r'.userId = r.userId ∧
    (r.valid = false → r'.valid = false)

def validCount (t : SessionTables) (userId : Nat) : Nat := t.sessions.countP fun r => r.userId = userId && r.valid

/-- Ids and jtis are given once. -/
structure Keyed (t : SessionTables) : Prop where
  ids : (t.sessions.map (·.id)).Nodup
  below : ∀ r ∈ t.sessions, r.id < t.nextSessionId
  jtis : (t.sessions.map (·.jti)).Nodup

section
variable {t u v : SessionTables} {s rec : SessionRow} {userId : Nat}

theorem Same.refl (t : SessionTables) : Same t t := ⟨rfl, rfl⟩

theorem Same.invalidateAllForUser (h : Same t u) (userId : Nat) :
    Same (t.invalidateAllForUser userId) (u.invalidateAllForUser userId) where
  sessions := by simp only [SessionTables.invalidateAllForUser, h.sessions]
  next := h.next

theorem Same.update (h : Same t u) (s : SessionRow) : Same (t.update s) (u.update s) where
  sessions := by simp only [SessionTables.update, h.sessions]
  next := h.next

theorem Same.create (h : Same t u) (s : SessionRow) : Same (t.create s) (u.create s) where
  sessions := by simp only [SessionTables.create, h.sessions, h.next]
  next := by simp only [SessionTables.create, h.next]

theorem Same.follows (h : Same t u) : Follows t u := by
  intro r mem
  exact ⟨r, h.sessions ▸ mem, rfl, rfl, rfl, id⟩

theorem Same.validCount (h : Same t u) (userId : Nat) : validCount u userId = validCount t userId := by
  simp only [Refresh.validCount, h.sessions]

theorem Same.keyed (h : Same t u) (keyed : Keyed t) : Keyed u where
  ids := h.sessions ▸ keyed.ids
  below := by
    rw [h.sessions, h.next]
    exact keyed.below
  jtis := h.sessions ▸ keyed.jtis

theorem Follows.trans (h : Follows t u) (h' : Follows u v) : Follows t v := by
  intro r mem
  obtain ⟨r', mem', id, jti, user, invalid⟩ := h r mem
  obtain ⟨r'', mem'', id', jti', user', invalid'⟩ := h' r' mem'
  exact ⟨r'', mem'', id'.trans id, jti'.trans jti, user'.trans user, invalid' ∘ invalid⟩

/-- A change of rows that touches neither keys nor owners, and makes none valid. -/
structure Weakens (f : SessionRow → SessionRow) : Prop where
  id : ∀ r, (f r).id = r.id
  jti : ∀ r, (f r).jti = r.jti
  userId : ∀ r, (f r).userId = r.userId
  valid : ∀ r, (f r).valid = true → r.valid = true

theorem Weakens.follows {f : SessionRow → SessionRow} (h : Weakens f) (t : SessionTables) :
    Follows t { t with sessions := t.sessions.map f } := by
  intro r mem
  refine ⟨f r, List.mem_map_of_mem mem, h.id r, h.jti r, h.userId r, fun invalid => ?_⟩
  cases valid : (f r).valid with
  | false => rfl
  | true => rw [h.valid r valid] at invalid; cases invalid

theorem Weakens.keyed {f : SessionRow → SessionRow} (h : Weakens f) (keyed : Keyed t) :
    Keyed { t with sessions := t.sessions.map f } where
  ids := by
    rw [Lists.map_map_key h.id]
    exact keyed.ids
  below := by
    intro r mem
    obtain ⟨r₀, old, rfl⟩ := List.mem_map.mp mem
    rw [h.id]
    exact keyed.below r₀ old
  jtis := by
    rw [Lists.map_map_key h.jti]
    exact keyed.jtis

theorem Weakens.countP_le {f : SessionRow → SessionRow} (h : Weakens f) (userId : Nat) (rows : List SessionRow) :
    (rows.map f).countP (fun r => r.userId = userId && r.valid) ≤ rows.countP fun r => r.userId = userId && r.valid := by
  rw [List.countP_map]
  refine List.countP_mono_left fun r _ holds => ?_
  simp only [Function.comp_apply, h.userId, Bool.and_eq_true] at holds ⊢
  exact ⟨holds.1, h.valid r holds.2⟩

theorem Weakens.fresh {f : SessionRow → SessionRow} (h : Weakens f) {jti : String} (fresh : ∀ r ∈ t.sessions, r.jti ≠ jti) :
    ∀ r ∈ t.sessions.map f, r.jti ≠ jti := by
  intro r mem
  obtain ⟨r₀, old, rfl⟩ := List.mem_map.mp mem
  rw [h.jti]
  exact fresh r₀ old

theorem weakens_invalidateAll (userId : Nat) :
    Weakens fun r => if r.userId = userId then { r with valid := false } else r := by
  refine ⟨fun r => ?_, fun r => ?_, fun r => ?_, fun r valid => ?_⟩
  · split <;> rfl
  · split <;> rfl
  · split <;> rfl
  · split at valid
    · cases valid
    · exact valid

theorem weakens_update (s : SessionRow) : Weakens s.invalidate.written := by
  unfold SessionRow.written
  refine ⟨fun r => ?_, fun r => ?_, fun r => ?_, fun r valid => ?_⟩
  · split <;> rfl
  · split <;> rfl
  · split <;> rfl
  · split at valid
    · cases valid
    · exact valid

theorem written_invalidate (r : SessionRow) : (r.invalidate.written r).valid = false := by
  simp [SessionRow.written, SessionRow.invalidate]

theorem validCount_invalidateAll : validCount (t.invalidateAllForUser userId) userId = 0 := by
  refine List.countP_eq_zero.mpr fun r mem => ?_
  obtain ⟨r₀, -, rfl⟩ := List.mem_map.mp mem
  split
  · simp
  · next other => simp [other]

theorem validCount_create (t : SessionTables) (s : SessionRow) (userId : Nat) :
    validCount (t.create s) userId = validCount t userId + if s.userId = userId && s.valid then 1 else 0 := by
  simp only [validCount, SessionTables.create, List.countP_append, List.countP_cons, List.countP_nil, Nat.zero_add]

/-- The one valid session of a user is gone after it has been replaced. -/
theorem validCount_update (mem : rec ∈ t.sessions) (valid : rec.valid = true) (single : validCount t rec.userId ≤ 1) :
    validCount (t.update rec.invalidate) rec.userId = 0 := by
  obtain ⟨before, after, split⟩ := List.append_of_mem mem
  have alone : ∀ r ∈ before ++ after, ¬(decide (r.userId = rec.userId) && r.valid) = true := by
    rw [validCount, split, List.countP_append, List.countP_cons, valid, decide_eq_true rfl, Bool.and_true, if_pos rfl] at single
    rw [← List.countP_eq_zero, List.countP_append]
    omega
  refine List.countP_eq_zero.mpr fun r' mem' holds => ?_
  obtain ⟨r, old, rfl⟩ := List.mem_map.mp mem'
  rw [Bool.and_eq_true, (weakens_update rec).userId] at holds
  have still := (weakens_update rec).valid r holds.2
  rw [split, List.mem_append, List.mem_cons] at old
  rcases old with first | rfl | last
  · exact alone r (List.mem_append_left _ first) (Bool.and_eq_true_iff.mpr ⟨holds.1, still⟩)
  · rw [written_invalidate] at holds
    cases holds.2
  · exact alone r (List.mem_append_right _ last) (Bool.and_eq_true_iff.mpr ⟨holds.1, still⟩)

theorem Follows.create (t : SessionTables) (s : SessionRow) : Follows t (t.create s) :=
  fun r mem => ⟨r, List.mem_append_left _ mem, rfl, rfl, rfl, id⟩

theorem Keyed.create (h : Keyed t) (fresh : ∀ r ∈ t.sessions, r.jti ≠ s.jti) : Keyed (t.create s) where
  ids := by
    simp only [SessionTables.create, List.map_append, List.map_singleton]
    refine h.ids.append (List.nodup_singleton _) fun id old new => ?_
    obtain ⟨r, mem, rfl⟩ := List.mem_map.mp old
    exact Nat.ne_of_lt (h.below r mem) (List.mem_singleton.mp new)
  below := by
    intro r mem
    rcases List.mem_append.mp mem with old | new
    · exact Nat.lt_succ_of_lt (h.below r old)
    · rw [List.mem_singleton.mp new]
      exact Nat.lt_succ_self _
  jtis := by
    simp only [SessionTables.create, List.map_append, List.map_singleton]
    refine h.jtis.append (List.nodup_singleton _) fun jti old new => ?_
    obtain ⟨r, mem, rfl⟩ := List.mem_map.mp old
    exact fresh r mem (List.mem_singleton.mp new)

end

/-! ### What a call does -/

section
variable {env : TokenEnv} {t v : SessionTables} {s : SessionRow} {client : Client}

theorem Same.start {α : Type} {m : SessionM α} {R : α → SessionTables → Prop} {E : SessionTables → Prop}
    (h : Returns (Same t) m R E) : Returns (· = t) m R E := by
  rintro u rfl
  exact h u (.refl u)

theorem AuditService.log_returns (svc : AuditService) (action : SessionAction) (userId : Option Nat)
    (details : List (String × Option String)) :
    Returns (Same v) (svc.log client action userId details) (fun _ => Same v) fun _ => True := by
  intro u same
  obtain ⟨sessions, next⟩ := svc.keeps client action userId details u
  cases run : (svc.log client action userId details).run u with
  | ok _ t =>
    rw [after_of_ok run] at sessions next
    exact .returned ⟨sessions.trans same.sessions, next.trans same.next⟩
  | error _ _ => exact .raised trivial

theorem createSession_returns (s : SessionRow) :
    Returns (Same v) (createSession s) (fun _ u => (∀ r ∈ v.sessions, r.jti ≠ s.jti) ∧ Same (v.create s) u) fun _ => True := by
  unfold createSession
  refine .bind (R := fun x u => x = u ∧ Same v u) (.get fun _ h => ⟨rfl, h⟩) fun x => ?_
  refine .ite (fun _ => .throw fun _ _ => trivial) fun _ => .ite (fun _ => .throw fun _ _ => trivial) fun fresh => ?_
  intro u ⟨same, h⟩
  refine .returned ⟨fun r mem own => fresh ?_, same ▸ h.create s⟩
  rw [same, h.sessions]
  exact List.any_eq_true.mpr ⟨r, mem, decide_eq_true own⟩

/-- After a login the user has the new session and no other valid one. -/
theorem issueTokens_returns (inp : IssueInput) : Returns (· = t) (issueTokensForUser env inp)
    (fun tokens u => (∀ r ∈ t.sessions, r.jti ≠ inp.jti) ∧ tokens.refreshToken = env.encode (inp.pair env).1 ∧
      Same ((t.invalidateAllForUser inp.user.id).create
        (.new inp.user.id inp.jti (env.hashToken (env.encode (inp.pair env).1)) (inp.pair env).2 inp.client)) u) (· = t) := by
  refine (Returns.atomically (E := fun _ => True) ?_).mono (fun _ _ h => h) fun u ⟨_, _, h⟩ => h
  unfold issueTokens
  refine .bind (R := fun _ => Same (t.invalidateAllForUser inp.user.id)) ?_ fun _ => ?_
  · exact .modify fun u h => h ▸ .refl _
  · refine Returns.bind (createSession_returns _) fun _ => .pure fun u ⟨fresh, same⟩ => ⟨fun r mem => ?_, rfl, same⟩
    obtain ⟨r', mem', -, jti, -, -⟩ := (weakens_invalidateAll inp.user.id).follows t r mem
    exact jti ▸ fresh r' mem'

/-- A session, as far as the second step of a login knows it. -/
def SessionRow.session (r : SessionRow) : Session := { userId := r.userId, jti := r.jti, valid := r.valid }

/-- The tokens that a login issues do to the table what the model of its second step says. -/
theorem issueTokens_session {inp : IssueInput} {a : AuthTables} (start : a.sessions = t.sessions.map SessionRow.session)
    {tokens : Tokens} {u : SessionTables} (run : (issueTokensForUser env inp).run t = .ok tokens u) :
    (a.issueTokens inp.user.id inp.jti).sessions = u.sessions.map SessionRow.session := by
  have spec : Returns (· = t) (issueTokensForUser env inp) _ _ := issueTokens_returns inp
  have ends := spec t rfl
  rw [run] at ends
  cases ends with
  | returned ended =>
    obtain ⟨-, -, same⟩ := ended
    rw [same.sessions]
    simp only [AuthTables.issueTokens, start, SessionTables.create, SessionTables.invalidateAllForUser, List.map_append,
      List.map_map, List.map_singleton]
    congr 1
    refine List.map_congr_left fun r _ => ?_
    by_cases own : r.userId = inp.user.id
    · simp [SessionRow.session, own]
    · simp [SessionRow.session, own]

/-- The ways in which a refresh ends, where it returns. -/
inductive Refreshed (env : TokenEnv) (inp : RefreshInput) (t : SessionTables) : RefreshResult → SessionTables → Prop
  | refused {reason : RefreshFailReason} {u : SessionTables} (same : Same t u)
      (answer : ∀ payload, env.verify inp.token inp.now = .ok payload → payload.typ = "refresh" → inp.current payload = true →
        ∀ rec, t.getByJti payload.jti = some rec → rec.valid = false → inp.permissionsChanged rec.userId = true) :
      Refreshed env inp t (.failed reason) u
  | reused {payload : Payload} {rec : SessionRow} {u : SessionTables} (verified : env.verify inp.token inp.now = .ok payload)
      (found : t.getByJti payload.jti = some rec) (same : Same (t.invalidateAllForUser rec.userId) u) :
      Refreshed env inp t (.failed .sessionReuseDetected) u
  | expired {payload : Payload} {rec : SessionRow} {u : SessionTables} (verified : env.verify inp.token inp.now = .ok payload)
      (found : t.getByJti payload.jti = some rec) (valid : rec.valid = true) (same : Same (t.update rec.invalidate) u) :
      Refreshed env inp t (.failed .sessionExpired) u
  | rotated {payload : Payload} {rec : SessionRow} {u : SessionTables} {tokens : RefreshSuccess}
      (verified : env.verify inp.token inp.now = .ok payload) (typ : payload.typ = "refresh")
      (found : t.getByJti payload.jti = some rec) (valid : rec.valid = true) (fresh : ∀ r ∈ t.sessions, r.jti ≠ inp.jti)
      (same : Same ((t.update rec.invalidate).create (inp.row env payload)) u) : Refreshed env inp t (.success tokens) u

variable (svc : AuditService) {inp : RefreshInput} {payload : Payload} {rec : SessionRow}

theorem AuditService.refuse_returns {userId : Option Nat} {why : String} {reason : RefreshFailReason}
    (answer : ∀ payload, env.verify inp.token inp.now = .ok payload → payload.typ = "refresh" → inp.current payload = true →
      ∀ rec, t.getByJti payload.jti = some rec → rec.valid = false → inp.permissionsChanged rec.userId = true) :
    Returns (Same t) (svc.refuse inp userId why reason) (Refreshed env inp t) fun _ => True :=
  Returns.bind (svc.log_returns _ _ _) fun _ => .pure fun _ same => .refused same answer

/-- A rotation ends the session that the call has read, whatever has become of it. -/
theorem AuditService.rotate_writes : Returns (Same t) (svc.rotate env inp payload rec)
    (fun result u => (∃ tokens, result = .success tokens) ∧ (∀ r ∈ t.sessions, r.jti ≠ inp.jti) ∧
      Same ((t.update rec.invalidate).create (inp.row env payload)) u) fun _ => True := by
  unfold AuditService.rotate
  refine .bind (R := fun _ => Same (t.update rec.invalidate)) (.modify fun u h => h.update rec.invalidate) fun _ => ?_
  refine Returns.bind (createSession_returns _) fun _ => .given fun fresh => ?_
  refine Returns.bind (svc.log_returns _ _ _) fun _ => .pure fun u same => ⟨⟨_, rfl⟩, fun r mem => ?_, same⟩
  obtain ⟨r', mem', -, jti, -, -⟩ := (weakens_update rec).follows t r mem
  exact jti ▸ fresh r' mem'

theorem AuditService.rotate_returns (verified : env.verify inp.token inp.now = .ok payload) (typ : payload.typ = "refresh")
    (found : t.getByJti payload.jti = some rec) (valid : rec.valid = true) :
    Returns (Same t) (svc.rotate env inp payload rec) (Refreshed env inp t) fun _ => True := by
  refine svc.rotate_writes.mono ?_ fun _ h => h
  rintro _ u ⟨⟨tokens, rfl⟩, fresh, same⟩
  exact .rotated verified typ found valid fresh same

/-- Only the audit log is another one. -/
theorem Same.weakened (same : Same t u) : ∃ f, Weakens f ∧ Same { t with sessions := t.sessions.map f } u :=
  ⟨id, ⟨fun _ => rfl, fun _ => rfl, fun _ => rfl, fun _ => id⟩, ⟨by simpa using same.sessions, same.next⟩⟩

theorem AuditService.refuse_idle {userId : Option Nat} {why : String} {reason : RefreshFailReason} :
    Returns (Same t) (svc.refuse inp userId why reason) (fun result u => (∀ tokens, result ≠ .success tokens) ∧
      ∃ f, Weakens f ∧ Same { t with sessions := t.sessions.map f } u) fun _ => True :=
  Returns.bind (svc.log_returns _ _ _) fun _ => .pure fun _ same => ⟨nofun, same.weakened⟩

/-- Where the session that the call has read cannot be replaced, sessions are at most made invalid. -/
theorem AuditService.refreshSession_idle {read : Option SessionRow} (stays : ∀ rec ∈ read, inp.rotates rec = false) :
    Returns (Same t) (svc.refreshSession env inp payload read)
      (fun result u => (∀ tokens, result ≠ .success tokens) ∧ ∃ f, Weakens f ∧ Same { t with sessions := t.sessions.map f } u)
      fun _ => True := by
  cases read with
  | none => exact svc.refuse_idle
  | some rec =>
    simp only [AuditService.refreshSession]
    refine .ite (fun _ => .ite (fun _ => svc.refuse_idle) fun _ => ?_) fun valid => .ite (fun _ => ?_) fun unexpired => ?_
    · refine Returns.bind (svc.log_returns _ _ _) fun _ => ?_
      refine .bind (R := fun _ => Same (t.invalidateAllForUser rec.userId)) ?_ fun _ => .pure fun u same => ?_
      · exact .modify fun u same => same.invalidateAllForUser rec.userId
      · exact ⟨nofun, _, weakens_invalidateAll rec.userId, same⟩
    · refine .bind (R := fun _ => Same (t.update rec.invalidate)) (.modify fun u h => h.update rec.invalidate) fun _ => ?_
      exact Returns.bind (svc.log_returns _ _ _) fun _ => .pure fun u same => ⟨nofun, _, weakens_update rec, same⟩
    · refine .ite (fun _ => ?_) fun same_client => ?_
      · exact Returns.bind (svc.log_returns _ _ _) fun _ => .pure fun u same => ⟨nofun, same.weakened⟩
      · have rotates : inp.rotates rec = true := by simp_all [RefreshInput.rotates]
        rw [stays rec rfl] at rotates
        cases rotates

theorem AuditService.refreshSession_returns (verified : env.verify inp.token inp.now = .ok payload) (typ : payload.typ = "refresh") :
    Returns (Same t) (svc.refreshSession env inp payload (t.getByJti payload.jti)) (Refreshed env inp t) fun _ => True := by
  have only : ∀ payload', env.verify inp.token inp.now = .ok payload' → payload' = payload := fun payload' other =>
    Except.ok.inj (other.symm.trans verified)
  cases found : t.getByJti payload.jti with
  | none =>
    refine svc.refuse_returns fun payload' verified' _ _ rec found' => ?_
    rw [only payload' verified', found] at found'
    cases found'
  | some rec =>
    have same_rec : ∀ payload' rec', env.verify inp.token inp.now = .ok payload' → t.getByJti payload'.jti = some rec' →
        rec' = rec := by
      intro payload' rec' verified' found'
      rw [only payload' verified', found] at found'
      exact (Option.some.inj found').symm
    simp only [AuditService.refreshSession]
    refine .ite (fun invalid => .ite (fun changed => ?_) fun _ => ?_) fun valid => ?_
    · refine svc.refuse_returns fun payload' verified' _ _ rec' found' _ => ?_
      rw [same_rec payload' rec' verified' found']
      exact changed
    · refine Returns.bind (svc.log_returns _ _ _) fun _ => ?_
      refine .bind (R := fun _ => Same (t.invalidateAllForUser rec.userId)) ?_ fun _ => .pure fun u same => ?_
      · exact .modify fun u same => same.invalidateAllForUser rec.userId
      · exact .reused verified found same
    · have valid : rec.valid = true := by simpa using valid
      refine .ite (fun _ => ?_) fun _ => .ite (fun _ => ?_) fun _ => svc.rotate_returns verified typ found valid
      · refine .bind (R := fun _ => Same (t.update rec.invalidate)) (.modify fun u h => h.update rec.invalidate) fun _ => ?_
        exact Returns.bind (svc.log_returns _ _ _) fun _ => .pure fun u same => .expired verified found valid same
      · refine Returns.bind (svc.log_returns _ _ _) fun _ => .pure fun u same => .refused same ?_
        intro payload' verified' _ _ rec' found' invalid
        rw [same_rec payload' rec' verified' found', valid] at invalid
        cases invalid

theorem AuditService.refresh_returns : Returns (· = t) (svc.refresh env inp) (Refreshed env inp t) (· = t) := by
  refine (Returns.atomically (E := fun _ => True) ?_).mono (fun _ _ h => h) fun u ⟨_, _, h⟩ => h
  have start : ∀ {m : SessionM RefreshResult}, Returns (Same t) m (Refreshed env inp t) (fun _ => True) →
      Returns (· = t) m (Refreshed env inp t) fun _ => True := fun h u same => h u (same ▸ .refl _)
  refine start ?_
  unfold AuditService.refreshToken
  cases verified : env.verify inp.token inp.now with
  | error e =>
    have answer : ∀ payload, env.verify inp.token inp.now = .ok payload → payload.typ = "refresh" →
        inp.current payload = true → ∀ rec, t.getByJti payload.jti = some rec → rec.valid = false →
        inp.permissionsChanged rec.userId = true := by
      intro payload verified'
      rw [verified] at verified'
      cases verified'
    cases e with
    | expired => exact svc.refuse_returns answer
    | invalid => exact svc.refuse_returns answer
    | other => exact .throw fun _ _ => trivial
  | ok payload =>
    have only : ∀ payload', env.verify inp.token inp.now = .ok payload' → payload' = payload := fun payload' other =>
      Except.ok.inj (other.symm.trans verified)
    dsimp only
    unfold AuditService.refreshVerified
    refine .ite (fun wrong => svc.refuse_returns fun payload' verified' typ => ?_) fun typ => .ite (fun late => ?_) fun _ => ?_
    · rw [only payload' verified'] at typ
      exact absurd typ wrong
    · refine svc.refuse_returns fun payload' verified' _ current => ?_
      rw [only payload' verified', late] at current
      cases current
    · refine .bind (R := fun x u => x.getByJti payload.jti = t.getByJti payload.jti ∧ Same t u) (.get fun u same => ?_) ?_
      · exact ⟨by simp only [SessionTables.getByJti, same.sessions], same⟩
      · exact fun x => .given fun found => found ▸ svc.refreshSession_returns verified (not_not.mp typ)

/-- A logout ends one session at most. -/
theorem AuditService.logout_returns {inp : LogoutInput} : Returns (· = t) (svc.logout env inp)
    (fun _ u => Same t u ∨ ∃ rec ∈ t.sessions, Same (t.update rec.invalidate) u) (· = t) := by
  have audited : ∀ {w : SessionTables} (action : SessionAction) (userId : Option Nat) (why : List (String × Option String))
      (result : Bool), (w = t ∨ ∃ rec ∈ t.sessions, w = t.update rec.invalidate) →
      Returns (Same w) (svc.log inp.client action userId why >>= fun _ => pure result)
        (fun _ u => Same t u ∨ ∃ rec ∈ t.sessions, Same (t.update rec.invalidate) u) fun _ => True := by
    intro w action userId why result from_t
    refine Returns.bind (svc.log_returns _ _ _) fun _ => .pure fun u same => ?_
    rcases from_t with rfl | ⟨rec, mem, rfl⟩
    · exact .inl same
    · exact .inr ⟨rec, mem, same⟩
  have own : ∀ {jti : String} {rec : SessionRow}, t.getByJti jti = some rec → rec ∈ t.sessions := fun found =>
    List.mem_of_find?_eq_some found
  refine (Returns.atomically (E := fun _ => True) ?_).mono (fun _ _ h => h) fun u ⟨_, _, h⟩ => h
  unfold AuditService.logoutToken
  cases env.verify inp.token inp.now with
  | error e =>
    cases e with
    | expired =>
      unfold AuditService.logoutWithExpiredToken
      refine .bind (R := fun x u => x = t ∧ u = t) (.get fun _ h => ⟨h, h⟩) fun x => .given ?_
      rintro rfl
      split
      · next session found =>
        obtain ⟨p, -, found⟩ := Option.bind_eq_some_iff.mp found
        obtain ⟨-, found⟩ := Option.ite_none_right_eq_some.mp found
        obtain ⟨found, -⟩ := Option.filter_eq_some_iff.mp found
        refine .bind (R := fun _ => Same (x.update session.invalidate)) (.set (.refl _)) fun _ => ?_
        exact audited _ _ _ _ (.inr ⟨session, own found, rfl⟩)
      · exact fun u same => audited _ _ _ _ (.inl rfl) u (same ▸ .refl _)
    | invalid => exact fun u same => audited _ _ _ _ (.inl rfl) u (same ▸ .refl _)
    | other => exact .throw fun _ _ => trivial
  | ok payload =>
    dsimp only
    unfold AuditService.logoutVerified
    refine .bind (R := fun x u => x = t ∧ u = t) (.get fun _ h => ⟨h, h⟩) fun x => .given ?_
    rintro rfl
    have start : ∀ {m : SessionM Bool} {R : Bool → SessionTables → Prop}, Returns (Same x) m R (fun _ => True) →
        Returns (· = x) m R fun _ => True := fun h u same => h u (same ▸ .refl _)
    refine .ite (fun _ => start (audited _ _ _ _ (.inl rfl))) fun _ => ?_
    cases found : x.getByJti payload.jti with
    | none => exact start (audited _ _ _ _ (.inl rfl))
    | some session =>
      refine .ite (fun _ => start (audited _ _ _ _ (.inl rfl))) fun _ => ?_
      refine .bind (R := fun _ => Same (x.update session.invalidate)) (.set (.refl _)) fun _ => ?_
      exact audited _ _ _ _ (.inr ⟨session, own found, rfl⟩)

end

/-! ### Runs -/

/-- The calls of the services, each of which runs to its end before the next one. -/
inductive Call where
  | login (inp : IssueInput)
  | refresh (inp : RefreshInput)
  | logout (inp : LogoutInput)

/-- The claims that have been signed for refresh tokens of this tenant, and the tokens that a refresh has accepted. -/
structure State where
  tables : SessionTables := {}
  signed : List Payload := []
  accepted : List String := []
  deriving DecidableEq, Repr

def RefreshInput.payloads (env : TokenEnv) (inp : RefreshInput) : List Payload :=
  (env.verify inp.token inp.now).toOption.toList

def step (env : TokenEnv) (s : State) : Call → State
  | .login inp =>
    match (issueTokensForUser env inp).run s.tables with
    | .ok _ t => { s with tables := t, signed := s.signed ++ [(inp.pair env).1] }
    | .error _ t => { s with tables := t }
  | .refresh inp =>
    match (refresh env inp).run s.tables with
    | .ok (.success _) t =>
      { tables := t
        signed := s.signed ++ (inp.payloads env).map fun payload => (inp.pair env payload).1
        accepted := s.accepted ++ (inp.payloads env).map (·.jti) }
    | .ok (.failed _) t => { s with tables := t }
    | .error _ t => { s with tables := t }
  | .logout inp => { s with tables := after (logout env inp) s.tables }

/-- Nobody else signs tokens for this tenant: a refresh token that decodes has been signed here, or for another tenant, and
    then the table does not know its jti. -/
def Genuine (env : TokenEnv) (s : State) : Call → Prop
  | .refresh inp => ∀ payload ∈ (env.decode inp.token).toOption, payload.typ = "refresh" →
      payload ∈ s.signed ∨ ∀ r ∈ s.tables.sessions, r.jti ≠ payload.jti
  | _ => True

instance (env : TokenEnv) (s : State) : DecidablePred (Genuine env s)
  | .login _ | .logout _ => .isTrue trivial
  | .refresh inp => inferInstanceAs (Decidable (∀ payload ∈ (env.decode inp.token).toOption, _))

/-- A refresh of a token that has been accepted before issues no tokens. Unless the token has expired, its security versions
    are not the current ones, or the flag of changed permissions answers, it leaves the user without a valid session. -/
structure Replayed (env : TokenEnv) (s : State) (inp : RefreshInput) (payload : Payload) : Prop where
  refused : ∀ tokens t, (refresh env inp).run s.tables ≠ .ok (.success tokens) t
  revoked : ∀ result t, (refresh env inp).run s.tables = .ok result t → inp.now < payload.exp * 1000000 →
    inp.current payload = true → inp.permissionsChanged payload.sub = false → validCount t payload.sub = 0

structure Family (env : TokenEnv) (s : State) (call : Call) : Prop where
  single : ∀ userId, validCount (step env s call).tables userId ≤ 1
  once : (step env s call).accepted.Nodup
  replayed : ∀ inp payload, call = .refresh inp → env.decode inp.token = .ok payload → payload.typ = "refresh" →
    payload.jti ∈ s.accepted → Replayed env s inp payload

structure Sound (s : State) : Prop where
  keyed : Keyed s.tables
  signed : ∀ payload ∈ s.signed, ∃ r ∈ s.tables.sessions, r.jti = payload.jti ∧ r.userId = payload.sub
  single : ∀ userId, validCount s.tables userId ≤ 1
  once : s.accepted.Nodup
  spent : ∀ jti ∈ s.accepted, ∃ r ∈ s.tables.sessions, r.jti = jti ∧ r.valid = false

section
variable {env : TokenEnv} {s : State} {t u : SessionTables} {inp : RefreshInput} {payload : Payload} {rec : SessionRow}

/-- Rows that only lose their validity keep the invariant. -/
theorem Sound.follow (h : Sound s) (follows : Follows s.tables u) (keyed : Keyed u)
    (single : ∀ userId, validCount u userId ≤ 1) : Sound { s with tables := u } where
  keyed := keyed
  signed payload mem := by
    obtain ⟨r, mem, jti, user⟩ := h.signed payload mem
    obtain ⟨r', mem', -, jti', user', -⟩ := follows r mem
    exact ⟨r', mem', jti'.trans jti, user'.trans user⟩
  single := single
  once := h.once
  spent jti mem := by
    obtain ⟨r, mem, own, invalid⟩ := h.spent jti mem
    obtain ⟨r', mem', -, own', -, still⟩ := follows r mem
    exact ⟨r', mem', own'.trans own, still invalid⟩

theorem Sound.weaken (h : Sound s) {f : SessionRow → SessionRow} (weakens : Weakens f)
    (same : Same { s.tables with sessions := s.tables.sessions.map f } u) : Sound { s with tables := u } := by
  refine h.follow ((weakens.follows s.tables).trans same.follows) (same.keyed (weakens.keyed h.keyed)) fun userId => ?_
  rw [same.validCount]
  exact Nat.le_trans (weakens.countP_le userId s.tables.sessions) (h.single userId)

theorem Sound.same (h : Sound s) (same : Same s.tables u) : Sound { s with tables := u } :=
  h.follow same.follows (same.keyed h.keyed) fun userId => same.validCount userId ▸ h.single userId

/-- A user without a valid session may be given one. -/
theorem Sound.issue (h : Sound s) {row : SessionRow} (fresh : ∀ r ∈ s.tables.sessions, r.jti ≠ row.jti)
    (none_valid : validCount s.tables row.userId = 0) (same : Same (s.tables.create row) u) :
    Sound { s with tables := u } := by
  refine h.follow ((Follows.create _ row).trans same.follows) (same.keyed (h.keyed.create fresh)) fun userId => ?_
  rw [same.validCount, validCount_create]
  by_cases own : row.userId = userId
  · rw [← own, none_valid]
    split <;> simp
  · rw [decide_eq_false own, Bool.false_and, if_neg Bool.false_ne_true]
    exact h.single userId

theorem known_of_create {row : SessionRow} (same : Same (t.create row) u) :
    ∃ r ∈ u.sessions, r.jti = row.jti ∧ r.userId = row.userId := by
  refine ⟨{ row with id := t.nextSessionId }, ?_, rfl, rfl⟩
  rw [same.sessions]
  exact List.mem_append_right _ List.mem_cons_self

theorem Sound.sign (h : Sound s) {claims : Payload} (known : ∃ r ∈ s.tables.sessions, r.jti = claims.jti ∧ r.userId = claims.sub) :
    Sound { s with signed := s.signed ++ [claims] } where
  keyed := h.keyed
  signed payload mem := by
    rcases List.mem_append.mp mem with old | new
    · exact h.signed payload old
    · rw [List.mem_singleton.mp new]
      exact known
  single := h.single
  once := h.once
  spent := h.spent

theorem Sound.accept (h : Sound s) {jti : String} (new : jti ∉ s.accepted)
    (spent : ∃ r ∈ s.tables.sessions, r.jti = jti ∧ r.valid = false) : Sound { s with accepted := s.accepted ++ [jti] } where
  keyed := h.keyed
  signed := h.signed
  single := h.single
  once := h.once.append (List.nodup_singleton _) fun j old own => new (List.mem_singleton.mp own ▸ old)
  spent j mem := by
    rcases List.mem_append.mp mem with old | own
    · exact h.spent j old
    · rw [List.mem_singleton.mp own]
      exact spent

theorem getByJti_eq_some (h : t.getByJti payload.jti = some rec) : rec ∈ t.sessions ∧ rec.jti = payload.jti :=
  ⟨List.mem_of_find?_eq_some h, of_decide_eq_true (List.find?_some (p := fun r : SessionRow => decide (r.jti = payload.jti)) h)⟩

/-- The session of a genuine token belongs to the user whom the token names. -/
theorem Sound.owner (h : Sound s) (genuine : Genuine env s (.refresh inp)) (decoded : env.decode inp.token = .ok payload)
    (typ : payload.typ = "refresh") (found : s.tables.getByJti payload.jti = some rec) : rec.userId = payload.sub := by
  obtain ⟨mem, jti⟩ := getByJti_eq_some found
  have claims : payload ∈ (env.decode inp.token).toOption := by
    rw [decoded]
    rfl
  rcases genuine payload claims typ with signed | unknown
  · obtain ⟨r, mem', jti', user⟩ := h.signed payload signed
    have equal : r = rec := List.inj_on_of_nodup_map h.keyed.jtis mem' mem (jti'.trans jti.symm)
    rw [← equal]
    exact user
  · exact absurd jti (unknown rec mem)

theorem verify_eq_ok {token : String} {now : Int} (h : env.verify token now = .ok payload) : env.decode token = .ok payload := by
  unfold TokenEnv.verify at h
  split at h
  · cases h
  · next decoded =>
    split at h
    · cases h
    · rwa [← Except.ok.inj h]

theorem Sound.invalid_of_accepted (h : Sound s) (accepted : payload.jti ∈ s.accepted)
    (found : s.tables.getByJti payload.jti = some rec) : rec.valid = false := by
  obtain ⟨mem, jti⟩ := getByJti_eq_some found
  obtain ⟨r, mem', jti', invalid⟩ := h.spent payload.jti accepted
  have equal : r = rec := List.inj_on_of_nodup_map h.keyed.jtis mem' mem (jti'.trans jti.symm)
  exact equal ▸ invalid

/-- The user's other sessions are ended, and the new one is there. -/
theorem Sound.issued (h : Sound s) (row : SessionRow) {claims : Payload}
    (same : Same ((s.tables.invalidateAllForUser row.userId).create row) u) (fresh : ∀ r ∈ s.tables.sessions, r.jti ≠ row.jti)
    (claimed : row.jti = claims.jti ∧ row.userId = claims.sub) : Sound { s with tables := u, signed := s.signed ++ [claims] } := by
  have weakens := weakens_invalidateAll row.userId
  have cleared : Sound { s with tables := s.tables.invalidateAllForUser row.userId } := h.weaken weakens (.refl _)
  have issued := cleared.issue (weakens.fresh fresh) validCount_invalidateAll same
  exact issued.sign (claimed.1 ▸ claimed.2 ▸ known_of_create same)

/-- The new session takes the place of a valid one of the user. -/
theorem Sound.rotated (h : Sound s) {row : SessionRow} {claims : Payload} (mem : rec ∈ s.tables.sessions)
    (valid : rec.valid = true) (same : Same ((s.tables.update rec.invalidate).create row) u) (owner : rec.userId = row.userId)
    (fresh : ∀ r ∈ s.tables.sessions, r.jti ≠ row.jti) (claimed : row.jti = claims.jti ∧ row.userId = claims.sub) :
    Sound { s with tables := u, signed := s.signed ++ [claims] } := by
  have weakens := weakens_update rec
  have updated : Sound { s with tables := s.tables.update rec.invalidate } := h.weaken weakens (.refl _)
  have gone : validCount (s.tables.update rec.invalidate) row.userId = 0 := owner ▸ validCount_update mem valid (h.single rec.userId)
  have issued := updated.issue (weakens.fresh fresh) gone same
  exact issued.sign (claimed.1 ▸ claimed.2 ▸ known_of_create same)

theorem Sound.login (h : Sound s) (inp : IssueInput) : Sound (step env s (.login inp)) := by
  have spec : Returns (· = s.tables) (issueTokensForUser env inp) _ _ := issueTokens_returns inp
  have ends := spec s.tables rfl
  simp only [step]
  generalize (issueTokensForUser env inp).run s.tables = result at ends ⊢
  cases ends with
  | raised same => exact same ▸ h
  | @returned tokens u ended =>
    obtain ⟨fresh, -, same⟩ := ended
    exact h.issued (.new inp.user.id _ _ _ _) same fresh ⟨rfl, rfl⟩

theorem Sound.logout (h : Sound s) (inp : LogoutInput) : Sound (step env s (.logout inp)) := by
  have spec : Returns (· = s.tables) (Refresh.logout env inp) _ _ := synchronous.logout_returns
  have ends := spec s.tables rfl
  simp only [step, after]
  generalize (Refresh.logout env inp).run s.tables = result at ends ⊢
  cases ends with
  | raised same => exact same ▸ h
  | returned ended =>
    rcases ended with same | ⟨rec, -, same⟩
    · exact h.same same
    · exact h.weaken (weakens_update rec) same

theorem payloads_of_verified (verified : env.verify inp.token inp.now = .ok payload) : inp.payloads env = [payload] := by
  simp [RefreshInput.payloads, verified, Except.toOption]

theorem Sound.refresh (h : Sound s) (genuine : Genuine env s (.refresh inp)) : Sound (step env s (.refresh inp)) := by
  have spec : Returns (· = s.tables) (Refresh.refresh env inp) _ _ := synchronous.refresh_returns
  have ends := spec s.tables rfl
  simp only [step]
  generalize (Refresh.refresh env inp).run s.tables = result at ends ⊢
  cases ends with
  | raised same => exact same ▸ h
  | @returned answer u ended =>
    cases ended with
    | refused same answer => exact h.same same
    | reused verified found same => exact h.weaken (weakens_invalidateAll _) same
    | expired verified found valid same => exact h.weaken (weakens_update _) same
    | @rotated payload rec _ tokens verified typ found valid fresh same =>
      obtain ⟨mem, jti⟩ := getByJti_eq_some found
      have owner : rec.userId = payload.sub := h.owner genuine (verify_eq_ok verified) typ found
      have signed : Sound { s with tables := u, signed := s.signed ++ [(inp.pair env payload).1] } :=
        h.rotated mem valid same owner fresh ⟨rfl, rfl⟩
      have new : payload.jti ∉ s.accepted := by
        intro accepted
        rw [h.invalid_of_accepted accepted found] at valid
        cases valid
      have spent : ∃ r ∈ u.sessions, r.jti = payload.jti ∧ r.valid = false := by
        refine ⟨rec.invalidate.written rec, ?_, ((weakens_update rec).jti rec).trans jti, written_invalidate rec⟩
        rw [same.sessions]
        exact List.mem_append_left _ (List.mem_map_of_mem mem)
      dsimp only
      rw [payloads_of_verified verified]
      exact signed.accept new spent

theorem Sound.step (h : Sound s) {call : Call} (genuine : Genuine env s call) : Sound (step env s call) := by
  cases call with
  | login inp => exact h.login inp
  | refresh inp => exact h.refresh genuine
  | logout inp => exact h.logout inp

/-- What happens to a token that has been accepted before. -/
theorem Sound.replayed (h : Sound s) (genuine : Genuine env s (.refresh inp)) (decoded : env.decode inp.token = .ok payload)
    (typ : payload.typ = "refresh") (accepted : payload.jti ∈ s.accepted) : Replayed env s inp payload := by
  have spec : Returns (· = s.tables) (Refresh.refresh env inp) _ _ := synchronous.refresh_returns
  have ends := spec s.tables rfl
  have only : ∀ payload', env.verify inp.token inp.now = .ok payload' → payload' = payload := fun payload' verified =>
    Except.ok.inj ((verify_eq_ok verified).symm.trans decoded)
  constructor
  · intro tokens t returned
    rw [returned] at ends
    cases ends with
    | returned ended =>
      cases ended with
      | rotated verified typ found valid fresh same =>
        rw [only _ verified] at found
        rw [h.invalid_of_accepted accepted found] at valid
        cases valid
  · intro result t returned inTime current unchanged
    have verified : env.verify inp.token inp.now = .ok payload := by
      unfold TokenEnv.verify
      rw [decoded]
      dsimp only
      rw [if_neg (by omega)]
    obtain ⟨rec, mem, jti, invalid⟩ := h.spent payload.jti accepted
    have found : s.tables.getByJti payload.jti = some rec := by
      cases found : s.tables.getByJti payload.jti with
      | none => exact absurd (decide_eq_true jti) (List.find?_eq_none.mp found rec mem)
      | some rec' =>
        obtain ⟨mem', jti'⟩ := getByJti_eq_some found
        exact congrArg some (List.inj_on_of_nodup_map h.keyed.jtis mem' mem (jti'.trans jti.symm))
    have owner : rec.userId = payload.sub := h.owner genuine decoded typ found
    rw [returned] at ends
    cases ends with
    | returned ended =>
      cases ended with
      | refused same answer =>
        have changed := answer payload verified typ current rec found invalid
        rw [owner, unchanged] at changed
        cases changed
      | reused verified' found' same =>
        rw [only _ verified', found] at found'
        cases found'
        rw [same.validCount, ← owner]
        exact validCount_invalidateAll
      | expired verified' found' valid same =>
        rw [only _ verified', found] at found'
        cases found'
        rw [invalid] at valid
        cases valid
      | rotated verified' typ' found' valid fresh same =>
        rw [only _ verified', found] at found'
        cases found'
        rw [invalid] at valid
        cases valid

theorem Sound.family (h : Sound s) {call : Call} (genuine : Genuine env s call) : Family env s call where
  single := (h.step genuine).single
  once := (h.step genuine).once
  replayed inp payload same decoded typ accepted := by
    subst same
    exact h.replayed genuine decoded typ accepted

theorem sound_start : Sound {} where
  keyed := ⟨List.nodup_nil, fun _ h => absurd h List.not_mem_nil, List.nodup_nil⟩
  signed _ h := absurd h List.not_mem_nil
  single _ := Nat.zero_le 1
  once := List.nodup_nil
  spent _ h := absurd h List.not_mem_nil

end

/-- In every run of logins, refreshes and logouts a user has one valid session at most, a refresh token is accepted at most
    once, and one that comes again issues nothing and ends the family. -/
theorem session_family (env : TokenEnv) (calls : List Call) (h : Always (step env) (Genuine env) {} calls) :
    Always (step env) (Family env) {} calls :=
  h.of_invariant Sound sound_start (fun _ _ sound genuine => sound.step genuine) fun _ _ sound genuine => sound.family genuine

/-! ### A stolen token -/

/-- Two tokens of one user, for one day each. -/
def twoTokens : TokenEnv where
  decode token :=
    if token = "j1" then .ok { sub := 7, typ := "refresh", jti := "j1", userVer := 0, tenantVer := 0, exp := 86400, al := false }
    else if token = "j2" then
      .ok { sub := 7, typ := "refresh", jti := "j2", userVer := 0, tenantVer := 0, exp := 86460, al := false }
    else .error .invalid
  encode payload := payload.jti
  encodeAccess payload := payload.jti
  hashToken token := token
  accessExp := 15
  refreshExp := 43200
  refreshSessionExp := 1440

def owner : TokenUser := { id := 7, securityVersion := 0, role := "user" }

/-- The token "j1" is replaced after a minute. -/
def rotated : List Call :=
  [.login { user := owner, jti := "j1", accessJti := "a1", now := 0 },
    .refresh { token := "j1", users := fun _ => some owner, jti := "j2", accessJti := "a2", now := 60000000 }]

/-- It comes again on the same day. -/
def replay (now : Int) : RefreshInput :=
  { token := "j1", users := fun _ => some owner, jti := "j3", accessJti := "a3", now }

theorem session_family_after_replay :
    Always (step twoTokens) (Family twoTokens) {} (rotated ++ [.refresh (replay 120000000)]) ∧
      validCount (final (step twoTokens) {} (rotated ++ [.refresh (replay 120000000)])).tables 7 = 0 := by
  refine ⟨session_family _ _ ?_, ?_⟩
  · decide +kernel
  · decide +kernel

/-- A token that comes again when it has expired ends nothing, and the session that took its place is still valid. -/
theorem session_family_not_revoked : ¬∀ inp payload, twoTokens.decode inp.token = .ok payload → payload.typ = "refresh" →
    payload.jti ∈ (final (step twoTokens) {} rotated).accepted →
    ∀ result t, (refresh twoTokens inp).run (final (step twoTokens) {} rotated).tables = .ok result t →
      inp.current payload = true → inp.permissionsChanged payload.sub = false → validCount t payload.sub = 0 := by
  intro h
  have revoked := h (replay 86400000000)
    { sub := 7, typ := "refresh", jti := "j1", userVer := 0, tenantVer := 0, exp := 86400, al := false } rfl rfl
    (by decide +kernel) (.failed .expiredToken) _ rfl (by decide) rfl
  revert revoked
  decide +kernel

end NyzRating.Auth.Refresh
