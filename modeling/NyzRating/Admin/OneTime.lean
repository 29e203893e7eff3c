import NyzRating.Admin.MfaLockout

/-!
# One-time secrets of platform admins

Logins, refreshes and new passwords that take turns. A refresh reads its session in one transaction and replaces it in a
later one; a recovery code is looked for in one statement, and all codes are written back in the next.
-/

namespace NyzRating.Admin.Secrets

open Process Runs
open Auth.Refresh (SessionRow)

/-! ### Requests -/

inductive Request where
  | login (inp : AdminLoginInput)
  | refresh (inp : AdminRefreshInput)
  | setPassword (inp : SetPasswordInput)

def Request.program (env : AdminEnv) : Request → AdminM (Option AdminLogin)
  | .login inp => Admin.login env inp
  | .refresh inp => Admin.refresh env inp
  | .setPassword inp => do
    Admin.setPassword env inp
    return none

abbrev State := Pool AdminCall World AdminError (Option AdminLogin)

def start (env : AdminEnv) (requests : List Request) (w : World) : State :=
  { store := w, calls := requests.map (·.program env) }

def step (s : State) (i : Nat) : State := s.step AdminCall.apply i

/-- Request `i` exchanges its refresh token. -/
def Exchanges (requests : List Request) (s : State) (i : Nat) (token : String) : Prop :=
  ∃ inp, requests[i]? = some (.refresh inp) ∧ inp.token = token ∧ ∃ m ∈ s.calls[i]?, ∃ login, m.result? = some (some login)

/-- Request `i` is let through by a recovery code. -/
def LetThrough (s : State) (i userId : Nat) (codeHash : String) : Prop :=
  ∃ loaded, (i, .consumeMfaRecoveryCode userId loaded codeHash) ∈ s.log

structure OneTime (requests : List Request) (s : State) : Prop where
  tokens : ∀ i j token, Exchanges requests s i token → Exchanges requests s j token → i = j
  codes : ∀ i j userId codeHash, LetThrough s i userId codeHash → LetThrough s j userId codeHash → i = j
  gone : ∀ i userId codeHash, LetThrough s i userId codeHash →
    ∀ user ∈ s.store.tables.users, user.id = userId → codeHash ∉ AdminTables.recoveryCodes user

/-- What the call is about to replace is still what its request has read. -/
def Current (w : World) : AdminCall → Prop
  | .updateRefreshSession session => ∃ r ∈ w.tables.refreshTokens, r.id = session.id ∧ r.valid = true
  | .consumeMfaRecoveryCode userId loaded _ => ∀ user ∈ w.tables.users, user.id = userId → AdminTables.recoveryCodes user = loaded
  | _ => True

def Undisturbed (s : State) (i : Nat) : Prop := ∀ call ∈ s.pending? i, Current s.store call

instance (w : World) : ∀ call : AdminCall, Decidable (Current w call)
  | .updateRefreshSession session => inferInstanceAs (Decidable (∃ r ∈ w.tables.refreshTokens, r.id = session.id ∧ r.valid = true))
  | .consumeMfaRecoveryCode userId loaded _ =>
    inferInstanceAs (Decidable (∀ user ∈ w.tables.users, user.id = userId → AdminTables.recoveryCodes user = loaded))
  | .read | .updateUser .. | .recordFailedAttempt .. | .resetAttempts .. | .createRefreshSession _
  | .invalidateAllRefreshSessionsForUser _ | .markInviteUsed .. | .evaluate _ | .updateUserWithEmail .. | .createUser _
  | .deleteUser .. | .upsertPendingMfaSecret .. | .enableMfa .. | .disableMfa _ | .createInviteToken .. => .isTrue trivial

instance (s : State) (i : Nat) : Decidable (Undisturbed s i) :=
  inferInstanceAs (Decidable (∀ call ∈ s.pending? i, Current s.store call))

/-- Sessions have identifiers of their own. -/
structure Keyed (t : AdminTables) : Prop where
  jtis : ∀ r ∈ t.refreshTokens, ∀ q ∈ t.refreshTokens, r.jti = q.jti → r = q
  ids : ∀ r ∈ t.refreshTokens, ∀ q ∈ t.refreshTokens, r.id = q.id → r = q
  next : ∀ r ∈ t.refreshTokens, r.id < t.nextSessionId

/-! ### What the requests rely on -/

/-- Sessions and users stay, and a session that is not valid stays so. -/
structure Follows (v w : World) : Prop where
  sessions : ∀ r ∈ v.tables.refreshTokens, ∃ q ∈ w.tables.refreshTokens, q.id = r.id ∧ q.jti = r.jti ∧
    (r.valid = false → q.valid = false)
  users : ∀ user ∈ v.tables.users, ∃ user' ∈ w.tables.users, user'.id = user.id

/-- What a request has read before it makes the call. Some calls are none of theirs. -/
def Finds (call : AdminCall) (w : World) : Prop :=
  match call with
  | .updateUserWithEmail .. | .createUser _ | .deleteUser .. | .upsertPendingMfaSecret .. | .enableMfa .. | .disableMfa _
  | .createInviteToken .. => False
  | .updateRefreshSession session => session.valid = false ∧ ∃ r ∈ w.tables.refreshTokens, r.id = session.id ∧ r.jti = session.jti
  | .consumeMfaRecoveryCode userId loaded codeHash => codeHash ∈ loaded ∧ ∃ user ∈ w.tables.users, user.id = userId
  | _ => True

section
variable {u v w : World} {t : AdminTables}

theorem Follows.refl (v : World) : Follows v v := ⟨fun r mem => ⟨r, mem, rfl, rfl, id⟩, fun user mem => ⟨user, mem, rfl⟩⟩

theorem Follows.trans (h : Follows u v) (h' : Follows v w) : Follows u w where
  sessions r mem := by
    obtain ⟨q, mem', id, jti, valid⟩ := h.sessions r mem
    obtain ⟨p, mem'', id', jti', valid'⟩ := h'.sessions q mem'
    exact ⟨p, mem'', id'.trans id, jti'.trans jti, valid' ∘ valid⟩
  users user mem := by
    obtain ⟨user', mem', id⟩ := h.users user mem
    obtain ⟨user'', mem'', id'⟩ := h'.users user' mem'
    exact ⟨user'', mem'', id'.trans id⟩

/-- Sessions and users, each with one of its own. -/
theorem Follows.of_map {f : SessionRow → SessionRow} {g : PlatformAdminUser → PlatformAdminUser}
    (sessions : w.tables.refreshTokens = v.tables.refreshTokens.map f) (users : w.tables.users = v.tables.users.map g)
    (keeps : ∀ r, (f r).id = r.id ∧ (f r).jti = r.jti ∧ (r.valid = false → (f r).valid = false)) (same : ∀ user, (g user).id = user.id) :
    Follows v w where
  sessions r mem := ⟨f r, sessions ▸ List.mem_map_of_mem mem, keeps r⟩
  users user mem := ⟨g user, users ▸ List.mem_map_of_mem mem, same user⟩

theorem written_keeps {session : SessionRow} (invalid : session.valid = false) (r : SessionRow) :
    (session.written r).id = r.id ∧ (session.written r).jti = r.jti ∧ (r.valid = false → (session.written r).valid = false) := by
  unfold SessionRow.written
  split
  · exact ⟨rfl, rfl, fun _ => invalid⟩
  · exact ⟨rfl, rfl, id⟩

theorem apply_follows (call : AdminCall) (v : World) (finds : Finds call v) : Follows v (call.apply v) := by
  have kept : ∀ r : SessionRow, (id r).id = r.id ∧ (id r).jti = r.jti ∧ (r.valid = false → (id r).valid = false) := fun r =>
    ⟨rfl, rfl, id⟩
  cases call with
  | updateRefreshSession session =>
    exact .of_map (g := id) rfl (List.map_id _).symm (written_keeps finds.1) fun _ => rfl
  | createRefreshSession session =>
    refine ⟨fun r mem => ⟨r, ?_, kept r⟩, fun user mem => ⟨user, ?_, rfl⟩⟩
    · change r ∈ (v.tables.createRefreshSession session).refreshTokens
      unfold AdminTables.createRefreshSession
      split
      · exact mem
      · exact List.mem_append_left _ mem
    · change user ∈ (v.tables.createRefreshSession session).users
      unfold AdminTables.createRefreshSession
      split
      · exact mem
      · exact mem
  | invalidateAllRefreshSessionsForUser userId =>
    refine .of_map (g := id) rfl (List.map_id _).symm (fun r => ?_) fun _ => rfl
    split
    · exact ⟨rfl, rfl, fun _ => rfl⟩
    · exact ⟨rfl, rfl, id⟩
  | updateUser userId change =>
    refine .of_map (f := id) (List.map_id _).symm rfl kept fun user => ?_
    split
    · rfl
    · rfl
  | consumeMfaRecoveryCode userId loaded codeHash =>
    refine .of_map (f := id) (List.map_id _).symm rfl kept fun user => ?_
    split
    · rfl
    · rfl
  | recordFailedAttempt key limits now =>
    have same : (v.tables.recordFailedAttempt key limits now).refreshTokens = v.tables.refreshTokens ∧
        (v.tables.recordFailedAttempt key limits now).users = v.tables.users := by
      unfold AdminTables.recordFailedAttempt
      split
      · exact ⟨rfl, rfl⟩
      · exact ⟨rfl, rfl⟩
    exact ⟨fun r mem => ⟨r, same.1.symm ▸ mem, kept r⟩, fun user mem => ⟨user, same.2.symm ▸ mem, rfl⟩⟩
  | updateUserWithEmail _ _ _ | createUser _ | deleteUser _ _ | upsertPendingMfaSecret _ _ _ | enableMfa _ _ _ | disableMfa _
  | createInviteToken _ _ _ _ => exact finds.elim
  | read | resetAttempts _ _ | markInviteUsed _ _ | evaluate _ =>
    exact ⟨fun r mem => ⟨r, mem, kept r⟩, fun user mem => ⟨user, mem, rfl⟩⟩

def rely : Rely AdminCall.apply where
  le := Follows
  refl := Follows.refl
  trans := Follows.trans
  finds := Finds
  follows := apply_follows

end

/-! ### What the programs do -/

section
variable {α β : Type} {env : AdminEnv} {now : Int}

/-- Every call of the program finds what it needs. -/
def Goes (m : AdminM α) : Prop := ∀ ops w, rely.Outline (fun _ _ _ => True) m ops w

theorem Goes.ret (a : α) : Goes (.ret a) := fun _ _ => trivial

theorem Goes.raise (e : AdminError) : Goes (.raise e : AdminM α) := fun _ _ => trivial

theorem Goes.bind {m : AdminM α} {f : α → AdminM β} (h : Goes m) (next : ∀ a, Goes (f a)) : Goes (m >>= f) := fun ops w =>
  (h ops w).bind fun a ops w _ => next a ops w

theorem Goes.ite {c : Prop} [Decidable c] {m n : AdminM α} (hm : Goes m) (hn : Goes n) : Goes (if c then m else n) := by
  split
  · exact hm
  · exact hn

/-- A call for which nothing has to be read before. -/
theorem Goes.ask {call : AdminCall} {answer : World → α} (finds : ∀ w, Finds call w) : Goes (Process.ask call answer) :=
  fun _ _ t _ => ⟨finds t, trivial⟩

theorem goes_createRefreshSession (session : SessionRow) : Goes (createRefreshSession session) := by
  intro ops w t le
  refine ⟨trivial, ?_⟩
  dsimp only
  cases t.tables.refusesSession session with
  | true => trivial
  | false => trivial

theorem goes_issue (user : PlatformAdminUser) (client : Auth.Refresh.Client) (ids : FreshIds) :
    Goes (issueAccessAndRefresh env user client ids now) := (goes_createRefreshSession _).bind fun _ => .ret _

theorem goes_consume (userId : Nat) (codeHash : String) : Goes (consumeMfaRecoveryCode userId codeHash) := by
  intro ops w
  refine Rely.Outline.ask_bind fun t le => ⟨trivial, ?_⟩
  cases found : t.tables.getById userId with
  | none => trivial
  | some row =>
    dsimp only
    split
    · next mem =>
      refine fun u le' => ⟨⟨mem, ?_⟩, trivial⟩
      obtain ⟨user, inside, id⟩ := le'.users row (List.mem_of_find?_eq_some found)
      have row_id : row.id = userId := by simpa using List.find?_some found
      exact ⟨user, inside, id.trans row_id⟩
    · trivial

theorem Goes.outline {m : AdminM α} (h : Goes m) (ops : List AdminCall) (w : World) :
    rely.Outline (fun _ _ _ => True) m ops w := h ops w

-- from here on the rules of the programs do; unfolding one is slow
attribute [irreducible] Goes

theorem goes_ensureNotBlocked (now : Int) : ∀ pairs, Goes (ensureNotBlocked now pairs)
  | [] => .ret _
  | _ :: pairs => Goes.bind (.ask fun _ => trivial) fun _ => .ite (.raise _) (goes_ensureNotBlocked now pairs)

theorem goes_recordFailedAttempts (env : AdminEnv) (now : Int) : ∀ pairs, Goes (recordFailedAttempts env now pairs)
  | [] => .ret _
  | _ :: pairs =>
    Goes.bind (.ite (.ret _) (.ask fun _ => trivial)) fun _ => (goes_recordFailedAttempts env now pairs).bind fun _ => .ret _

theorem goes_verifyTotp (user : PlatformAdminUser) (code : String) (timestamp : Int) :
    Goes (verifyTotp env user code now timestamp) := by
  unfold verifyTotp
  refine .ite (.ret _) ?_
  cases Auth.verifyAuthenticatorCode env.auth user.mfaSecret code timestamp with
  | none => exact .raise _
  | some matched => exact .ite (.ask fun _ => trivial) (.ret _)

theorem goes_verify (user : PlatformAdminUser) (code : Option String) (timestamp : Int) :
    Goes (verifyPlatformAdminMfa env user code now timestamp) := by
  unfold verifyPlatformAdminMfa
  dsimp only
  generalize env.normalizeMfaCode code = normalized
  refine Goes.ite (Goes.ret _) ((goes_verifyTotp _ _ _).bind fun _ => ?_)
  exact Goes.ite (Goes.ret _) (Goes.ite (goes_consume _ _) (Goes.ret _))

theorem goes_reset (pairs : List (MfaScope × String)) : Goes (resetMfaAttempts now pairs) := by
  unfold resetMfaAttempts
  exact .ite (.ret _) (.ask fun _ => trivial)

theorem goes_secondFactor (user : PlatformAdminUser) (inp : AdminLoginInput) : Goes (secondFactor env user inp) := by
  unfold secondFactor
  split
  · exact Goes.ret _
  · split
    · exact Goes.raise _
    · dsimp only
      generalize mfaAttemptScopePairs user.id inp.client.ip _ = pairs
      refine (goes_ensureNotBlocked _ _).bind fun _ => (goes_verify _ _ _).bind fun verified => ?_
      cases verified with
      | true =>
        rw [if_pos rfl]
        exact goes_reset _
      | false =>
        rw [if_neg Bool.false_ne_true]
        refine (goes_recordFailedAttempts env inp.now pairs).bind fun blockedNow => ?_
        cases blockedNow with
        | true =>
          rw [if_pos rfl]
          exact Goes.bind (Goes.ask fun _ => trivial) fun _ => Goes.raise _
        | false =>
          rw [if_neg Bool.false_ne_true]
          exact Goes.raise _

theorem goes_login (inp : AdminLoginInput) : Goes (Admin.login env inp) := by
  unfold Admin.login
  refine Goes.bind (Goes.ask fun _ => trivial) fun found => ?_
  cases found with
  | none => exact .ret _
  | some user =>
    dsimp only
    split
    · exact Goes.ret _
    · split
      · exact Goes.bind (Goes.ask fun _ => trivial) fun _ => Goes.ret _
      · refine (goes_secondFactor user inp).bind fun _ => Goes.bind ?_ fun updated => ?_
        · exact Goes.ask fun _ => trivial
        · exact (goes_issue _ _ _).bind fun _ => Goes.ret _

theorem goes_setPassword (inp : SetPasswordInput) : Goes (Admin.setPassword env inp) := by
  refine Goes.bind (.ask fun _ => trivial) fun found => ?_
  cases found.filter (·.usedAt.isNone) with
  | none => exact .raise _
  | some record =>
    refine .ite (.raise _) ?_
    cases env.passwordRefusal inp.password with
    | some message => exact .raise _
    | none => exact Goes.bind (.ask fun _ => trivial) fun _ => Goes.bind (.ask fun _ => trivial) fun _ => .ask fun _ => trivial

/-- A refresh that returns tokens has replaced the session of its token. -/
def Replaces (env : AdminEnv) (inp : AdminRefreshInput) (calls : List AdminCall) (result : Option AdminLogin) : Prop :=
  result.isSome = true → ∃ session, .updateRefreshSession session ∈ calls ∧
    ∃ claims, env.decode inp.token = some claims ∧ session.jti = claims.jti

theorem refreshSession_outline (env : AdminEnv) (inp : AdminRefreshInput) {payload : Claims}
    (decoded : env.decode inp.token = some payload) (userId : Nat) {session : SessionRow} {calls : List AdminCall} {w : World}
    (jti : session.jti = payload.jti) (mem : session ∈ w.tables.refreshTokens) :
    rely.Outline (fun calls result _ => Replaces env inp calls result) (refreshSession env inp payload userId session) calls w := by
  unfold refreshSession
  split
  · exact nofun
  · split
    · exact fun t le => ⟨trivial, nofun⟩
    · refine fun t le => ⟨trivial, ?_⟩
      dsimp only [ret_bind]
      cases t.tables.getById userId with
      | none => exact nofun
      | some user =>
        change rely.Outline _ (if user.current payload.userVer = false then _ else _) _ _
        split
        · exact nofun
        · refine fun u le' => ⟨⟨rfl, ?_⟩, ?_⟩
          · obtain ⟨r, inside, id, same, -⟩ := (le.trans (le' : Follows t u)).sessions session mem
            exact ⟨r, inside, id, same⟩
          · refine Rely.Outline.bind (m := issueAccessAndRefresh env user inp.client inp.ids inp.now)
              (Rely.Outline.called ((goes_issue ..).outline _ _) (List.mem_append_right _ (List.mem_singleton_self _))) ?_
            exact fun a calls w h _ => ⟨session.invalidate, h.1, payload, decoded, jti⟩

theorem refresh_outline (env : AdminEnv) (inp : AdminRefreshInput) (w : World) :
    rely.Outline (fun calls result _ => Replaces env inp calls result) (Admin.refresh env inp) [] w := by
  unfold Admin.refresh
  cases verified : env.verify inp.token inp.now with
  | none => exact nofun
  | some payload =>
    have decoded : env.decode inp.token = some payload := (Option.filter_eq_some_iff.mp verified).1
    dsimp only
    split
    · exact nofun
    · cases payload.sub with
      | none => exact nofun
      | some userId =>
        refine Rely.Outline.ask_bind fun t le => ⟨trivial, ?_⟩
        cases found : t.tables.getRefreshSessionByJti payload.jti with
        | none => exact nofun
        | some session =>
          have jti : session.jti = payload.jti := by simpa using List.find?_some found
          exact refreshSession_outline env inp decoded userId jti (List.mem_of_find?_eq_some found)

end

/-! ### The invariant -/

/-- What request `i` has to show for what it returns. -/
def Shows (env : AdminEnv) (requests : List Request) (i : Nat) (calls : List AdminCall) (result : Option AdminLogin) : Prop :=
  ∀ inp, requests[i]? = some (.refresh inp) → Replaces env inp calls result

/-- Sessions that were replaced are not valid, each was replaced by one request; codes that were consumed are gone, each was
    consumed by one. -/
structure Sound (env : AdminEnv) (requests : List Request) (s : State) : Prop where
  outlined : rely.Outlined (Shows env requests) s
  keyed : Keyed s.store.tables
  replaced : ∀ i session, (i, .updateRefreshSession session) ∈ s.log →
    ∃ r ∈ s.store.tables.refreshTokens, r.id = session.id ∧ r.jti = session.jti ∧ r.valid = false
  once : ∀ i j a b, (i, .updateRefreshSession a) ∈ s.log → (j, .updateRefreshSession b) ∈ s.log → a.id = b.id → i = j
  gone : ∀ i userId codeHash, LetThrough s i userId codeHash → (∃ user ∈ s.store.tables.users, user.id = userId) ∧
    ∀ user ∈ s.store.tables.users, user.id = userId → codeHash ∉ AdminTables.recoveryCodes user
  codes : ∀ i j userId codeHash, LetThrough s i userId codeHash → LetThrough s j userId codeHash → i = j

section
variable {env : AdminEnv} {requests : List Request} {s : State} {t : AdminTables} {i : Nat} {call : AdminCall} {w : World}

theorem Sound.oneTime (h : Sound env requests s) : OneTime requests s where
  tokens i j token exchanged exchanged' := by
    obtain ⟨x, at_i, rfl, m, calls_i, login, result⟩ := exchanged
    obtain ⟨y, at_j, same, m', calls_j, login', result'⟩ := exchanged'
    have shown : ∀ k m (login : AdminLogin), s.calls[k]? = some m → m.result? = some (some login) →
        Shows env requests k (s.made k) (some login) := by
      intro k m login at_k result
      have outline := h.outlined k m at_k
      cases m with
      | ret a =>
        cases result
        exact outline
      | raise e => cases result
      | call op next => cases result
    have made : ∀ k call, call ∈ s.made k → (k, call) ∈ s.log := by
      intro k call mem
      obtain ⟨⟨k', call'⟩, inside, rfl⟩ := List.mem_map.mp mem
      obtain ⟨logged, own⟩ := List.mem_filter.mp inside
      rw [decide_eq_true_eq] at own
      exact own ▸ logged
    obtain ⟨a, mem, claims, decoded, jti⟩ := shown i m login calls_i result x at_i rfl
    obtain ⟨b, mem', claims', decoded', jti'⟩ := shown j m' login' calls_j result' y at_j rfl
    rw [same, decoded] at decoded'
    cases decoded'
    obtain ⟨r, inside, id, r_jti, -⟩ := h.replaced i a (made i _ mem)
    obtain ⟨q, inside', id', q_jti, -⟩ := h.replaced j b (made j _ mem')
    have same_row : r = q := h.keyed.jtis r inside q inside' (r_jti.trans (jti.trans (jti'.symm.trans q_jti.symm)))
    exact h.once i j a b (made i _ mem) (made j _ mem') (id.symm.trans (same_row ▸ id'))
  codes := h.codes
  gone i userId codeHash through := (h.gone i userId codeHash through).2

/-- Rows changed in place keep their identifiers. -/
theorem Keyed.of_map (h : Keyed t) {u : AdminTables} {f : SessionRow → SessionRow}
    (sessions : u.refreshTokens = t.refreshTokens.map f) (next : u.nextSessionId = t.nextSessionId)
    (keeps : ∀ r, (f r).id = r.id ∧ (f r).jti = r.jti) : Keyed u where
  jtis r mem q mem' same := by
    rw [sessions] at mem mem'
    obtain ⟨r, inside, rfl⟩ := List.mem_map.mp mem
    obtain ⟨q, inside', rfl⟩ := List.mem_map.mp mem'
    rw [(keeps r).2, (keeps q).2] at same
    rw [h.jtis r inside q inside' same]
  ids r mem q mem' same := by
    rw [sessions] at mem mem'
    obtain ⟨r, inside, rfl⟩ := List.mem_map.mp mem
    obtain ⟨q, inside', rfl⟩ := List.mem_map.mp mem'
    rw [(keeps r).1, (keeps q).1] at same
    rw [h.ids r inside q inside' same]
  next r mem := by
    rw [sessions] at mem
    obtain ⟨r, inside, rfl⟩ := List.mem_map.mp mem
    rw [(keeps r).1, next]
    exact h.next r inside

theorem Keyed.create (h : Keyed t) (session : SessionRow) : Keyed (t.createRefreshSession session) := by
  unfold AdminTables.createRefreshSession
  split
  · exact h
  · next accepted =>
    have fresh : ∀ r ∈ t.refreshTokens, r.jti ≠ session.jti := by
      intro r mem same
      refine accepted ?_
      rw [AdminTables.refusesSession, List.any_eq_true.mpr ⟨r, mem, decide_eq_true same⟩, Bool.or_true]
    refine ⟨fun r mem q mem' same => ?_, fun r mem q mem' same => ?_, fun r mem => ?_⟩
    · rcases List.mem_append.mp mem with old | new
      · rcases List.mem_append.mp mem' with old' | new'
        · exact h.jtis r old q old' same
        · cases List.mem_singleton.mp new'
          exact absurd same (fresh r old)
      · cases List.mem_singleton.mp new
        rcases List.mem_append.mp mem' with old' | new'
        · exact absurd same.symm (fresh q old')
        · exact (List.mem_singleton.mp new').symm
    · rcases List.mem_append.mp mem with old | new
      · rcases List.mem_append.mp mem' with old' | new'
        · exact h.ids r old q old' same
        · cases List.mem_singleton.mp new'
          exact absurd same (h.next r old).ne
      · cases List.mem_singleton.mp new
        rcases List.mem_append.mp mem' with old' | new'
        · exact absurd same.symm (h.next q old').ne
        · exact (List.mem_singleton.mp new').symm
    · rcases List.mem_append.mp mem with old | new
      · exact Nat.lt_succ_of_lt (h.next r old)
      · cases List.mem_singleton.mp new
        exact Nat.lt_succ_self _

theorem Keyed.apply (h : Keyed w.tables) (call : AdminCall) (finds : Finds call w) : Keyed (call.apply w).tables := by
  cases call with
  | updateUserWithEmail _ _ _ | createUser _ | deleteUser _ _ | upsertPendingMfaSecret _ _ _ | enableMfa _ _ _ | disableMfa _
  | createInviteToken _ _ _ _ => exact finds.elim
  | createRefreshSession session => exact h.create session
  | updateRefreshSession session =>
    refine h.of_map rfl rfl fun r => ?_
    unfold SessionRow.written
    split
    · exact ⟨rfl, rfl⟩
    · exact ⟨rfl, rfl⟩
  | invalidateAllRefreshSessionsForUser userId =>
    refine h.of_map rfl rfl fun r => ?_
    split
    · exact ⟨rfl, rfl⟩
    · exact ⟨rfl, rfl⟩
  | recordFailedAttempt key limits now =>
    change Keyed (w.tables.recordFailedAttempt key limits now)
    unfold AdminTables.recordFailedAttempt
    split
    · exact ⟨h.jtis, h.ids, h.next⟩
    · exact ⟨h.jtis, h.ids, h.next⟩
  | _ => exact ⟨h.jtis, h.ids, h.next⟩

/-- The users' recovery codes, which one call alone writes. -/
theorem recoveryCodes_of_apply (finds : Finds call w)
    (other : ∀ userId loaded codeHash, call ≠ .consumeMfaRecoveryCode userId loaded codeHash) {user : PlatformAdminUser}
    (mem : user ∈ (call.apply w).tables.users) :
    ∃ before ∈ w.tables.users, before.id = user.id ∧ AdminTables.recoveryCodes user = AdminTables.recoveryCodes before := by
  cases call with
  | consumeMfaRecoveryCode userId loaded codeHash => exact absurd rfl (other userId loaded codeHash)
  | updateUser userId change =>
    obtain ⟨before, inside, rfl⟩ := List.mem_map.mp mem
    refine ⟨before, inside, ?_⟩
    split
    · exact ⟨rfl, rfl⟩
    · exact ⟨rfl, rfl⟩
  | createRefreshSession session =>
    have same : (w.tables.createRefreshSession session).users = w.tables.users := by
      unfold AdminTables.createRefreshSession
      split
      · rfl
      · rfl
    exact ⟨user, same ▸ mem, rfl, rfl⟩
  | recordFailedAttempt key limits now =>
    have same : (w.tables.recordFailedAttempt key limits now).users = w.tables.users := by
      unfold AdminTables.recordFailedAttempt
      split
      · rfl
      · rfl
    exact ⟨user, same ▸ mem, rfl, rfl⟩
  | updateUserWithEmail _ _ _ | createUser _ | deleteUser _ _ | upsertPendingMfaSecret _ _ _ | enableMfa _ _ _ | disableMfa _
  | createInviteToken _ _ _ _ => exact finds.elim
  | _ => exact ⟨user, mem, rfl, rfl⟩

/-- The codes of a user after one of them was consumed. -/
theorem recoveryCodes_of_consume {userId : Nat} {loaded : List String} {codeHash : String} {user : PlatformAdminUser}
    (mem : user ∈ ((AdminCall.consumeMfaRecoveryCode userId loaded codeHash).apply w).tables.users) :
    ∃ before ∈ w.tables.users, before.id = user.id ∧
      if user.id = userId then ∀ code ∈ AdminTables.recoveryCodes user, code ∈ loaded ∧ code ≠ codeHash
      else AdminTables.recoveryCodes user = AdminTables.recoveryCodes before := by
  obtain ⟨before, inside, rfl⟩ := List.mem_map.mp mem
  refine ⟨before, inside, ?_⟩
  by_cases own : before.id = userId
  · rw [if_pos own]
    refine ⟨rfl, ?_⟩
    rw [if_pos own]
    intro code listed
    have kept := (List.mem_filter.mp listed).1
    simpa using kept
  · rw [if_neg own]
    refine ⟨rfl, ?_⟩
    rw [if_neg own]

/-- One more entry of the log, that of request `i`. -/
theorem mem_log_append {call : AdminCall} {j : Nat} {c : AdminCall} (mem : (j, c) ∈ s.log ++ [(i, call)]) :
    (j, c) ∈ s.log ∨ j = i ∧ c = call := by
  rcases List.mem_append.mp mem with old | new
  · exact .inl old
  · cases List.mem_singleton.mp new
    exact .inr ⟨rfl, rfl⟩

/-- A session that is replaced for the second time is not valid any more. -/
theorem Sound.not_replaced (h : Sound env requests s) {a b : SessionRow} (current : Current s.store (.updateRefreshSession a))
    (logged : (i, .updateRefreshSession b) ∈ s.log) : a.id ≠ b.id := by
  intro same
  obtain ⟨r, inside, id, valid⟩ := current
  obtain ⟨q, inside', id', -, invalid⟩ := h.replaced i b logged
  rw [h.keyed.ids r inside q inside' (id.trans (same.trans id'.symm)), invalid] at valid
  cases valid

/-- A code that is consumed for the second time is not in the list any more. -/
theorem Sound.not_consumed (h : Sound env requests s) {userId : Nat} {loaded : List String} {codeHash : String}
    (finds : Finds (.consumeMfaRecoveryCode userId loaded codeHash) s.store)
    (current : Current s.store (.consumeMfaRecoveryCode userId loaded codeHash)) : ¬LetThrough s i userId codeHash := by
  intro through
  obtain ⟨user, inside, id⟩ := finds.2
  refine (h.gone i userId codeHash through).2 user inside id ?_
  rw [current user inside id]
  exact finds.1

theorem Sound.step_gone (h : Sound env requests s) (finds : Finds call s.store) (current : Current s.store call) {j userId : Nat}
    {codeHash : String} (through : LetThrough s j userId codeHash ∨ ∃ loaded, .consumeMfaRecoveryCode userId loaded codeHash = call) :
    (∃ user ∈ (call.apply s.store).tables.users, user.id = userId) ∧
      ∀ user ∈ (call.apply s.store).tables.users, user.id = userId → codeHash ∉ AdminTables.recoveryCodes user := by
  have present : ∃ user ∈ s.store.tables.users, user.id = userId := by
    rcases through with old | ⟨loaded, rfl⟩
    · exact (h.gone j userId codeHash old).1
    · exact finds.2
  obtain ⟨user, inside, id⟩ := present
  obtain ⟨user', inside', id'⟩ := (apply_follows call s.store finds).users user inside
  refine ⟨⟨user', inside', id'.trans id⟩, fun user mem own => ?_⟩
  by_cases consumes : ∃ userId loaded codeHash, call = .consumeMfaRecoveryCode userId loaded codeHash
  · obtain ⟨userId', loaded, codeHash', rfl⟩ := consumes
    obtain ⟨before, inside, same, left⟩ := recoveryCodes_of_consume mem
    by_cases hit : user.id = userId'
    · rw [if_pos hit] at left
      intro listed
      obtain ⟨was_loaded, other⟩ := left codeHash listed
      rcases through with old | ⟨loaded', call_eq⟩
      · refine (h.gone j userId codeHash old).2 before inside (same.trans own) ?_
        rw [current before inside (same.trans hit)]
        exact was_loaded
      · cases call_eq
        exact other rfl
    · rw [if_neg hit] at left
      rcases through with old | ⟨loaded', call_eq⟩
      · rw [left]
        exact (h.gone j userId codeHash old).2 before inside (same.trans own)
      · cases call_eq
        exact absurd own hit
  · obtain ⟨before, inside, same, codes⟩ := recoveryCodes_of_apply finds (fun u l c equal => consumes ⟨u, l, c, equal⟩) mem
    rw [codes]
    rcases through with old | ⟨loaded', call_eq⟩
    · exact (h.gone j userId codeHash old).2 before inside (same.trans own)
    · exact absurd ⟨userId, loaded', codeHash, call_eq.symm⟩ consumes

/-- A step that replaces only what is still what its request has read. -/
theorem Sound.turn (h : Sound env requests s) (undisturbed : Undisturbed s i) : Sound env requests (step s i) := by
  have outlined := h.outlined.step i
  unfold Secrets.step
  rcases s.step_cases AdminCall.apply i with same | ⟨call, next, at_i, pending, same⟩
  · rw [same]
    exact h
  · have finds : Finds call s.store := h.outlined.finds at_i
    have current : Current s.store call := undisturbed call pending
    have follows := apply_follows call s.store finds
    have through_cases : ∀ {j userId : Nat} {codeHash : String}, LetThrough (s.step AdminCall.apply i) j userId codeHash →
        LetThrough s j userId codeHash ∨ j = i ∧ ∃ loaded, .consumeMfaRecoveryCode userId loaded codeHash = call := by
      rintro j userId codeHash ⟨loaded, mem⟩
      rw [same] at mem
      rcases mem_log_append mem with old | ⟨own, equal⟩
      · exact .inl ⟨loaded, old⟩
      · exact .inr ⟨own, loaded, equal⟩
    rw [same] at outlined through_cases ⊢
    refine ⟨outlined, h.keyed.apply call finds, fun j session mem => ?_, fun j k a b mem mem' ids => ?_, fun j userId codeHash through => ?_,
      fun j k userId codeHash through through' => ?_⟩
    · rcases mem_log_append mem with old | ⟨-, rfl⟩
      · obtain ⟨r, inside, id, jti, invalid⟩ := h.replaced j session old
        obtain ⟨q, inside', id', jti', kept⟩ := follows.sessions r inside
        exact ⟨q, inside', id'.trans id, jti'.trans jti, kept invalid⟩
      · obtain ⟨r, inside, id, jti⟩ := finds.2
        refine ⟨session.written r, List.mem_map_of_mem inside, ?_⟩
        unfold SessionRow.written
        rw [if_pos id]
        exact ⟨id, jti, finds.1⟩
    · rcases mem_log_append mem with old | ⟨rfl, rfl⟩
      · rcases mem_log_append mem' with old' | ⟨rfl, rfl⟩
        · exact h.once j k a b old old' ids
        · exact absurd ids.symm (h.not_replaced current old)
      · rcases mem_log_append mem' with old' | ⟨rfl, -⟩
        · exact absurd ids (h.not_replaced current old')
        · rfl
    · exact h.step_gone finds current ((through_cases through).imp id (·.2))
    · rcases through_cases through with old | ⟨rfl, loaded, rfl⟩
      · rcases through_cases through' with old' | ⟨rfl, loaded, rfl⟩
        · exact h.codes j k userId codeHash old old'
        · exact absurd old (h.not_consumed finds current)
      · rcases through_cases through' with old' | ⟨rfl, -⟩
        · exact absurd old' (h.not_consumed finds current)
        · rfl

theorem Sound.initial (keyed : Keyed w.tables) : Sound env requests (start env requests w) where
  outlined i m at_i := by
    rw [start, List.getElem?_map] at at_i
    obtain ⟨request, at_request, rfl⟩ := Option.map_eq_some_iff.mp at_i
    cases request with
    | refresh inp =>
      refine (refresh_outline env inp w).mono fun calls result _ shown inp' at_i => ?_
      rw [at_request] at at_i
      cases at_i
      exact shown
    | login inp =>
      refine ((goes_login inp).outline [] w).mono fun calls result _ _ inp' at_i => ?_
      rw [at_request] at at_i
      cases at_i
    | setPassword inp =>
      have goes : Goes (Request.program env (.setPassword inp)) := (goes_setPassword inp).bind fun _ => Goes.ret _
      refine (goes.outline [] w).mono fun calls result _ _ inp' at_i => ?_
      rw [at_request] at at_i
      cases at_i
  keyed := keyed
  replaced _ _ logged := absurd logged List.not_mem_nil
  once _ _ _ _ logged := absurd logged List.not_mem_nil
  gone := nofun
  codes := nofun

end

/-- In every run whose requests replace only what is still what they have read, every secret serves once. -/
theorem always_one_time (env : AdminEnv) (requests : List Request) (w : World) (keyed : Keyed w.tables) (turns : List Nat)
    (undisturbed : Always step Undisturbed (start env requests w) turns) :
    ∀ n, OneTime requests (final step (start env requests w) (turns.take n)) := by
  intro n
  rw [← List.take_append_drop n turns] at undisturbed
  exact (final_invariant (Sound env requests) (.initial keyed) (fun _ _ h => h.turn) (always_append.mp undisturbed).1).oneTime

/-! ### Runs that show it -/

theorem exchanges_of_result {requests : List Request} {s : State} {i : Nat} {inp : AdminRefreshInput}
    (at_i : requests[i]? = some (.refresh inp)) (returned : ((s.calls[i]?.bind (·.result?)).bind id).isSome = true) :
    Exchanges requests s i inp.token := by
  obtain ⟨login, result⟩ := Option.isSome_iff_exists.mp returned
  obtain ⟨result, returned, same⟩ := Option.bind_eq_some_iff.mp result
  obtain ⟨m, mem, ret⟩ := Option.bind_eq_some_iff.mp returned
  cases same
  exact ⟨inp, at_i, rfl, m, mem, login, ret⟩

/-- The refresh token `tok` of the user with the session `r1`. -/
def issued : AdminEnv :=
  { Lockout.defaults with
    decode := fun token =>
      if token = "tok" then some { sub := some 7, typ := "platform_admin_refresh", jti := "r1", userVer := 0, exp := 100 } else none }

def oneSession : World where
  tables := {
    users := [{ id := 7, email := "a@b.hu", passwordHash := "pw" }]
    refreshTokens := [{ id := 1, userId := 7, jti := "r1", tokenHash := "tok", ip := none, userAgent := none, expiresAt := 100000000 }]
    nextSessionId := 2 }

def refreshes : List Request :=
  [.refresh { token := "tok", now := 1, ids := { jti := "r2", accessJti := "a2" } },
    .refresh { token := "tok", now := 1, ids := { jti := "r3", accessJti := "a3" } }]

theorem oneSession_keyed : Keyed oneSession.tables where
  jtis r mem q mem' _ := (List.mem_singleton.mp mem).trans (List.mem_singleton.mp mem').symm
  ids r mem q mem' _ := (List.mem_singleton.mp mem).trans (List.mem_singleton.mp mem').symm
  next r mem := by
    cases List.mem_singleton.mp mem
    decide

/-- One refresh after the other. -/
theorem one_time_in_turn : OneTime refreshes (final step (start issued refreshes oneSession) [0, 0, 0, 0, 1, 1]) :=
  always_one_time issued refreshes oneSession oneSession_keyed [0, 0, 0, 0, 1, 1] (by decide +kernel) 6

/-- Two recovery codes, one for each of two logins. -/
def twoCodes : World where
  tables := {
    users := [{
      id := 7, email := "a@b.hu", passwordHash := "pw", mfaEnabled := true, mfaSecretBase32 := some "AAAA"
      mfaRecoveryCodesHashes := ["AAAAAAAA", "BBBBBBBB"] }] }

def recoveries : List Request :=
  [.login { Lockout.attempt "aaaaaaaa" 1 with ids := { jti := "r1", accessJti := "a1" } },
    .login { Lockout.attempt "bbbbbbbb" 1 with ids := { jti := "r2", accessJti := "a2" } }]

/-- Both refreshes read the session, and both replace it; both logins read the codes, and the second one writes back the code
    that the first one has consumed. -/
theorem one_time_broken :
    ¬OneTime refreshes (final step (start issued refreshes oneSession) [0, 1, 0, 1, 0, 1, 0, 1]) ∧
      ¬OneTime recoveries (final step (start issued recoveries twoCodes) [0, 0, 0, 0, 1, 1, 1, 1, 0, 1]) := by
  constructor
  · intro h
    have first : Exchanges refreshes (final step (start issued refreshes oneSession) [0, 1, 0, 1, 0, 1, 0, 1]) 0 "tok" :=
      exchanges_of_result (List.getElem?_cons_zero ..) (by decide +kernel)
    have second : Exchanges refreshes (final step (start issued refreshes oneSession) [0, 1, 0, 1, 0, 1, 0, 1]) 1 "tok" :=
      exchanges_of_result (List.getElem?_cons_succ.trans (List.getElem?_cons_zero ..)) (by decide +kernel)
    exact absurd (h.tokens 0 1 "tok" first second) (by decide)
  · intro h
    have consumed : (0, AdminCall.consumeMfaRecoveryCode 7 ["AAAAAAAA", "BBBBBBBB"] "AAAAAAAA") ∈
        (final step (start issued recoveries twoCodes) [0, 0, 0, 0, 1, 1, 1, 1, 0, 1]).log := by decide +kernel
    have back : ∃ user ∈ (final step (start issued recoveries twoCodes) [0, 0, 0, 0, 1, 1, 1, 1, 0, 1]).store.tables.users,
        user.id = 7 ∧ "AAAAAAAA" ∈ AdminTables.recoveryCodes user := by decide +kernel
    obtain ⟨user, mem, own, listed⟩ := back
    exact h.gone 0 7 "AAAAAAAA" ⟨_, consumed⟩ user mem own listed

end NyzRating.Admin.Secrets
