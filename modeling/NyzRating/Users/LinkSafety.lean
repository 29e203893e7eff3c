import Mathlib.Data.List.Count
import NyzRating.Lib.Run
import NyzRating.Users.Services

/-!
# Invite and reset links

The links of a user are rows of `user_invite_tokens`; a link is open while no `used_at` is set. Whoever makes a link of a user
takes the open ones back first, a password that is set uses up its link, and a deletion uses up all of them, so that a user
has one open link at most and a link that is no longer open never comes back.
-/

namespace NyzRating.Users

open Tables

/-! ### Calls -/

/-- The calls that write links. -/
inductive LinkCall where
  | create (inp : CreateInput)
  | resendInvite (userId : Nat) (now : Int) (invite : InvitePayload)
  | forgotPassword (email : String) (now : Int) (invite : InvitePayload)
  | setPassword (inp : SetPasswordInput)
  | delete (inp : DeleteInput)

def LinkCall.perform (t : Tables) : LinkCall → Except UserError Tables
  | .create inp => (Users.create t inp).map (·.2)
  | .resendInvite userId now invite => Users.resendInvite t userId now invite
  | .forgotPassword email now invite => Users.forgotPassword t email now invite
  | .setPassword inp => Users.setPassword t inp
  | .delete inp => Users.delete t inp

/-- The user that a call makes a link for or deletes, where it succeeds. -/
def LinkCall.subject (t : Tables) : LinkCall → Option Nat
  | .create inp => if inp.activateImmediately then none else some t.nextUserId
  | .resendInvite userId _ _ => some userId
  | .forgotPassword email _ _ => (t.getByEmail (stripped email)).map (·.id)
  | .setPassword _ => none
  | .delete inp => some inp.userId

/-- The tables may have become `t'` without a link written. -/
def LeavesLinks (t t' : Tables) : Prop :=
  t'.inviteTokens = t.inviteTokens ∧ t.nextUserId ≤ t'.nextUserId ∧ ∀ r ∈ t'.users, r.id < t'.nextUserId

instance (t t' : Tables) : Decidable (LeavesLinks t t') := by
  unfold LeavesLinks
  infer_instance

/-- A call, or what other services write in between. -/
inductive LinkMove where
  | call (c : LinkCall)
  | elsewhere (t' : Tables)

def LinkMove.step (t : Tables) : LinkMove → Tables
  | .call c =>
    match c.perform t with
    | .ok t' => t'
    | .error _ => t
  | .elsewhere t' => if LeavesLinks t t' then t' else t

/-- A password is set with the link of the hash. -/
def LinkMove.sets (hash : String) (t : Tables) : LinkMove → Bool
  | .call (.setPassword inp) => inp.tokenHash = hash && (setPassword t inp).isOk
  | _ => false

/-- The links of the user that set a password at the time. -/
def usableLinks (t : Tables) (userId : Nat) (now : Int) : List InviteToken :=
  t.inviteTokens.filter fun i => i.userId = userId && i.usedAt.isNone && now ≤ i.expiresAt

/-! ### Links -/

variable {links : List InviteToken} {f : InviteToken → InviteToken} {hash : String} {i : InviteToken} {u : Nat} {now : Int}

def openLinks (links : List InviteToken) (u : Nat) : Nat := links.countP fun i => i.userId = u && i.usedAt.isNone

/-- The link that the hash finds has been used or taken back. -/
def Spent (links : List InviteToken) (hash : String) : Prop :=
  ∃ i, links.find? (·.tokenHash = hash) = some i ∧ i.usedAt.isSome

/-- `f` may use up a link, and changes nothing else that matters. -/
structure Spends (f : InviteToken → InviteToken) : Prop where
  tokenHash : ∀ i, (f i).tokenHash = i.tokenHash
  userId : ∀ i, (f i).userId = i.userId
  usedAt : ∀ i, i.usedAt.isSome → (f i).usedAt.isSome

/-- `invalidate_all_for_user` on a row. -/
def takeBack (u : Nat) (now : Int) (i : InviteToken) : InviteToken :=
  if i.userId = u then { i with usedAt := i.usedAt.or (some now) } else i

/-- `mark_used` on a row. -/
def useUp (id : Nat) (now : Int) (i : InviteToken) : InviteToken := if i.id = id then { i with usedAt := some now } else i

theorem takeBack_spends : Spends (takeBack u now) where
  tokenHash i := by unfold takeBack; split <;> rfl
  userId i := by unfold takeBack; split <;> rfl
  usedAt i used := by
    unfold takeBack
    split
    · simp
    · exact used

theorem useUp_spends {id : Nat} : Spends (useUp id now) where
  tokenHash i := by unfold useUp; split <;> rfl
  userId i := by unfold useUp; split <;> rfl
  usedAt i used := by
    unfold useUp
    split
    · rfl
    · exact used

theorem takeBack_usedAt (own : i.userId = u) : (takeBack u now i).usedAt.isSome := by
  rw [takeBack, if_pos own]
  simp

namespace Spends

theorem find? (h : Spends f) (links : List InviteToken) :
    (links.map f).find? (·.tokenHash = hash) = (links.find? (·.tokenHash = hash)).map f := by
  rw [List.find?_map]
  have same : ((fun i : InviteToken => decide (i.tokenHash = hash)) ∘ f) = fun i => decide (i.tokenHash = hash) := by
    funext i
    simp [h.tokenHash]
  rw [same]

theorem spent (h : Spends f) (spent : Spent links hash) : Spent (links.map f) hash := by
  obtain ⟨i, found, used⟩ := spent
  exact ⟨f i, by rw [h.find?, found, Option.map_some], h.usedAt i used⟩

theorem hashes (h : Spends f) (links : List InviteToken) : (links.map f).map (·.tokenHash) = links.map (·.tokenHash) :=
  Lists.map_map_key h.tokenHash links

theorem openLinks_le (h : Spends f) (links : List InviteToken) (u : Nat) : openLinks (links.map f) u ≤ openLinks links u := by
  unfold openLinks
  rw [List.countP_map]
  refine List.countP_mono_left fun i _ still => ?_
  simp only [Function.comp_apply, h.userId, Bool.and_eq_true] at still ⊢
  refine ⟨still.1, ?_⟩
  cases used : i.usedAt with
  | none => rfl
  | some time =>
    have spent : (f i).usedAt.isSome := h.usedAt i (by rw [used]; rfl)
    rw [Option.isNone_iff_eq_none.mp still.2] at spent
    cases spent

end Spends

theorem openLinks_takeBack (links : List InviteToken) : openLinks (links.map (takeBack u now)) u = 0 := by
  unfold openLinks
  rw [List.countP_eq_zero]
  intro i mem
  obtain ⟨old, -, rfl⟩ := List.mem_map.mp mem
  simp only [Bool.and_eq_true, decide_eq_true_eq, not_and]
  intro own
  rw [takeBack_spends.userId] at own
  rw [Bool.not_eq_true, Option.isNone_eq_false_iff]
  exact takeBack_usedAt own

theorem find?_append_of_spent (h : Spent links hash) : Spent (links ++ [i]) hash := by
  obtain ⟨j, found, used⟩ := h
  exact ⟨j, by rw [List.find?_append, found, Option.some_or], used⟩

/-! ### What a call does to the links -/

/-- The links become those of the list, and all old ones of the user are spent. -/
inductive LinkChange (links : List InviteToken) : Option Nat → List InviteToken → Prop
  | kept : LinkChange links none links
  | used (id : Nat) (now : Int) : LinkChange links none (links.map (useUp id now))
  | withdrawn (u : Nat) (now : Int) : LinkChange links (some u) (links.map (takeBack u now))
  | issued (u : Nat) (now : Int) (i : InviteToken) (fresh : ∀ l ∈ links, l.tokenHash ≠ i.tokenHash) (own : i.userId = u) :
      LinkChange links (some u) (links.map (takeBack u now) ++ [i])

namespace LinkChange

variable {subject : Option Nat} {links' : List InviteToken}

theorem spent (h : LinkChange links subject links') (spent : Spent links hash) : Spent links' hash := by
  cases h with
  | kept => exact spent
  | used id now => exact useUp_spends.spent spent
  | withdrawn u now => exact takeBack_spends.spent spent
  | issued u now i fresh own => exact find?_append_of_spent (takeBack_spends.spent spent)

theorem hashes (h : LinkChange links subject links') (nodup : (links.map (·.tokenHash)).Nodup) :
    (links'.map (·.tokenHash)).Nodup := by
  cases h with
  | kept => exact nodup
  | used id now => exact useUp_spends.hashes links ▸ nodup
  | withdrawn u now => exact takeBack_spends.hashes links ▸ nodup
  | issued u now i fresh own =>
    rw [List.map_append, takeBack_spends.hashes, List.map_singleton, List.nodup_append]
    refine ⟨nodup, List.nodup_singleton _, ?_⟩
    rintro h mem _ last rfl
    obtain ⟨l, old, same⟩ := List.mem_map.mp mem
    exact fresh l old (same.trans (List.mem_singleton.mp last))

theorem one (h : LinkChange links subject links') (one : ∀ u, openLinks links u ≤ 1) (u : Nat) : openLinks links' u ≤ 1 := by
  cases h with
  | kept => exact one u
  | used id now => exact (useUp_spends.openLinks_le links u).trans (one u)
  | withdrawn v now => exact (takeBack_spends.openLinks_le links u).trans (one u)
  | issued v now i fresh own =>
    have split : openLinks (links.map (takeBack v now) ++ [i]) u = openLinks (links.map (takeBack v now)) u + openLinks [i] u :=
      List.countP_append
    rw [split]
    by_cases same : v = u
    · subst same
      rw [openLinks_takeBack, Nat.zero_add]
      exact List.countP_le_length
    · have other : openLinks [i] u = 0 := by
        refine List.countP_eq_zero.mpr fun j mem => ?_
        rw [List.mem_singleton.mp mem]
        simp [own, same]
      rw [other, Nat.add_zero]
      exact (takeBack_spends.openLinks_le links u).trans (one u)

/-- The links that the user had are spent. -/
theorem ended (h : LinkChange links (some u) links') (nodup : (links.map (·.tokenHash)).Nodup) (mem : i ∈ links)
    (own : i.userId = u) : Spent links' i.tokenHash := by
  have spent : ∀ now, Spent (links.map (takeBack u now)) i.tokenHash := by
    intro now
    refine ⟨takeBack u now i, ?_, takeBack_usedAt own⟩
    rw [takeBack_spends.find?, Lists.find?_of_mem nodup mem, Option.map_some]
  cases h with
  | withdrawn _ now => exact spent now
  | issued _ now i fresh own => exact find?_append_of_spent (spent now)

end LinkChange

/-! ### The services -/

/-- What a call leaves of users and links. -/
structure Rewrites (t t' : Tables) (subject : Option Nat) : Prop where
  links : LinkChange t.inviteTokens subject t'.inviteTokens
  next : t.nextUserId ≤ t'.nextUserId
  ids : ∀ id ∈ t'.users.map (·.id), id ∈ t.users.map (·.id) ∨ id < t'.nextUserId
  owners : ∀ i ∈ t'.inviteTokens, i.userId ∈ t.inviteTokens.map (·.userId) ∨ i.userId ∈ t.users.map (·.id) ∨
    i.userId < t'.nextUserId

/-- Ids are given once, also to the owners of links, and no user has two open links. -/
structure LinksSound (t : Tables) : Prop where
  users : ∀ id ∈ t.users.map (·.id), id < t.nextUserId
  owners : ∀ id ∈ t.inviteTokens.map (·.userId), id < t.nextUserId
  hashes : (t.inviteTokens.map (·.tokenHash)).Nodup
  one : ∀ u, openLinks t.inviteTokens u ≤ 1

variable {t t' : Tables}

theorem LinksSound.rewrites {subject : Option Nat} (sound : LinksSound t) (h : Rewrites t t' subject) : LinksSound t' where
  users id mem := by
    rcases h.ids id mem with old | new
    · exact (sound.users id old).trans_le h.next
    · exact new
  owners id mem := by
    obtain ⟨i, link, rfl⟩ := List.mem_map.mp mem
    rcases h.owners i link with old | user | new
    · exact (sound.owners _ old).trans_le h.next
    · exact (sound.users _ user).trans_le h.next
    · exact new
  hashes := h.links.hashes sound.hashes
  one := h.links.one sound.one

theorem setRow_ids {id : Nat} {f : UserRow → UserRow} (keeps : ∀ r, (f r).id = r.id) :
    (t.setRow id f).users.map (·.id) = t.users.map (·.id) := Lists.map_key_update (·.id) f keeps t.users

theorem createInviteToken_ok {expiresAt : Int} (done : t.createInviteToken u hash expiresAt = .ok t') :
    (∀ l ∈ t.inviteTokens, l.tokenHash ≠ hash) ∧
    t' = { t with
      inviteTokens := t.inviteTokens ++ [{ id := t.nextInviteTokenId, userId := u, tokenHash := hash, expiresAt }]
      nextInviteTokenId := t.nextInviteTokenId + 1 } := by
  simpa [createInviteToken] using done

/-- Without links of the user there are none to take back. -/
theorem takeBack_eq_self (none : ∀ i ∈ links, i.userId ≠ u) : links.map (takeBack u now) = links := by
  conv_rhs => rw [← List.map_id links]
  exact List.map_congr_left fun i mem => if_neg (none i mem)

theorem inviteAgain_rewrites {invite : InvitePayload} (row : u ∈ t.users.map (·.id)) (done : inviteAgain t u now invite = .ok t') :
    Rewrites t t' (some u) := by
  obtain ⟨fresh, rfl⟩ := createInviteToken_ok done
  have old : (t.invalidateInviteTokens u now).inviteTokens = t.inviteTokens.map (takeBack u now) := rfl
  refine ⟨.issued u now _ ?_ rfl, Nat.le_refl _, fun id mem => .inl mem, ?_⟩
  · intro l mem
    have kept := fresh (takeBack u now l) (List.mem_map_of_mem mem)
    rwa [takeBack_spends.tokenHash] at kept
  · intro i mem
    rcases List.mem_append.mp mem with mem | new
    · obtain ⟨l, link, rfl⟩ := List.mem_map.mp mem
      exact .inl (List.mem_map.mpr ⟨l, link, (takeBack_spends.userId l).symm⟩)
    · rw [List.mem_singleton.mp new]
      exact .inr (.inl row)

theorem getById_row {id : Nat} {user : User} (found : t.getById id = some user) : id ∈ t.users.map (·.id) := by
  obtain ⟨r, row, -, -⟩ := getById_eq_some.mp found
  obtain ⟨mem, same⟩ := row?_eq_some row
  exact List.mem_map.mpr ⟨r, mem, same⟩

theorem getByEmail_row {email : String} {user : User} (found : t.getByEmail email = some user) : user.id ∈ t.users.map (·.id) := by
  obtain ⟨r, row, rfl⟩ := Option.map_eq_some_iff.mp found
  exact List.mem_map.mpr ⟨r, List.mem_of_find?_eq_some row, rfl⟩

theorem create_rewrites {inp : CreateInput} {user : User} (sound : LinksSound t) (done : create t inp = .ok (user, t')) :
    Rewrites t t' (if inp.activateImmediately then none else some t.nextUserId) := by
  have ids : ∀ {r : UserRow}, r.id = t.nextUserId → ∀ id ∈ (t.users ++ [r]).map (·.id),
      id ∈ t.users.map (·.id) ∨ id < t.nextUserId + 1 := by
    intro r new id mem
    rw [List.map_append, List.mem_append] at mem
    rcases mem with old | last
    · exact .inl old
    · rw [List.map_singleton, List.mem_singleton, new] at last
      exact .inr (last ▸ Nat.lt_succ_self _)
  simp only [create, Tables.create, Fallible.guard_eq_ok, Fallible.bind_eq_ok, Fallible.pure_eq_ok] at done
  obtain ⟨-, _, -, ⟨created, stored⟩, ⟨-, made⟩, done⟩ := done
  obtain ⟨rfl, rfl⟩ := Prod.mk.injEq .. ▸ made
  by_cases immediate : inp.activateImmediately = true
  · rw [if_pos immediate] at done ⊢
    cases Fallible.pure_eq_ok.mp done
    exact ⟨.kept, Nat.le_succ _, ids rfl, fun i mem => .inl (List.mem_map_of_mem mem)⟩
  · rw [if_neg immediate] at done ⊢
    obtain ⟨t'', issued, done⟩ := Fallible.bind_eq_ok.mp done
    cases Fallible.pure_eq_ok.mp done
    obtain ⟨fresh, rfl⟩ := createInviteToken_ok issued
    have none : ∀ i ∈ t.inviteTokens, i.userId ≠ t.nextUserId := fun i mem same =>
      absurd (sound.owners i.userId (List.mem_map_of_mem mem)) (same ▸ Nat.lt_irrefl _)
    refine ⟨?_, Nat.le_succ _, ids rfl, ?_⟩
    · have change := LinkChange.issued t.nextUserId 0
        { id := t.nextInviteTokenId, userId := t.nextUserId, tokenHash := inp.invite.tokenHash,
          expiresAt := inp.invite.expiresAt } fresh rfl
      rwa [takeBack_eq_self none] at change
    · intro i mem
      rcases List.mem_append.mp mem with old | new
      · exact .inl (List.mem_map_of_mem old)
      · rw [List.mem_singleton.mp new]
        exact .inr (.inr (Nat.lt_succ_self _))

theorem updatePassword_ok {id : Nat} {passwordHash : String} (done : t.updatePassword id passwordHash = .ok t') :
    t'.users.map (·.id) = t.users.map (·.id) ∧ t'.nextUserId = t.nextUserId ∧ t'.inviteTokens = t.inviteTokens := by
  unfold updatePassword at done
  split at done
  · cases done
  · cases done
    exact ⟨setRow_ids fun _ => rfl, rfl, rfl⟩

theorem update_ok {user : User} (done : t.update user = .ok t') :
    t'.users.map (·.id) = t.users.map (·.id) ∧ t'.nextUserId = t.nextUserId ∧ t'.inviteTokens = t.inviteTokens := by
  obtain ⟨-, -, rfl⟩ := update_eq_ok.mp done
  exact ⟨setRow_ids fun _ => rfl, rfl, rfl⟩

/-- A password is set with a link that is open and has not expired, and uses it up. -/
theorem setPassword_ok {inp : SetPasswordInput} (done : setPassword t inp = .ok t') :
    ∃ link, t.getByTokenHash inp.tokenHash = some link ∧ link.usedAt.isNone ∧ inp.now ≤ link.expiresAt ∧
      t'.inviteTokens = t.inviteTokens.map (useUp link.id inp.now) ∧
      t'.users.map (·.id) = t.users.map (·.id) ∧ t'.nextUserId = t.nextUserId := by
  unfold setPassword at done
  split at done
  · cases done
  · rename_i link found
    obtain ⟨at_hash, unused⟩ := Option.filter_eq_some_iff.mp found
    rw [Fallible.guard_eq_ok, Fallible.bind_eq_ok] at done
    obtain ⟨intime, t₁, written, done⟩ := done
    obtain ⟨ids, next, tokens⟩ := updatePassword_ok written
    have marked : (t₁.markUsed link.id inp.now).inviteTokens = t.inviteTokens.map (useUp link.id inp.now) :=
      tokens ▸ rfl
    refine ⟨link, at_hash, unused, Int.not_lt.mp intime, ?_⟩
    dsimp only at done
    split at done
    · cases done
      exact ⟨marked, ids, next⟩
    · obtain ⟨ids', next', tokens'⟩ := update_ok done
      exact ⟨tokens'.trans marked, ids'.trans ids, next'.trans next⟩

theorem setPassword_rewrites {inp : SetPasswordInput} (done : setPassword t inp = .ok t') : Rewrites t t' none := by
  obtain ⟨link, -, -, -, tokens, ids, next⟩ := setPassword_ok done
  refine ⟨tokens ▸ .used link.id inp.now, next.ge, fun id mem => .inl (ids ▸ mem), fun i mem => .inl ?_⟩
  rw [tokens] at mem
  obtain ⟨l, old, rfl⟩ := List.mem_map.mp mem
  exact List.mem_map.mpr ⟨l, old, (useUp_spends.userId l).symm⟩

theorem delete_rewrites {inp : DeleteInput} (done : delete t inp = .ok t') : Rewrites t t' (some inp.userId) := by
  unfold delete at done
  rw [Fallible.guard_eq_ok] at done
  obtain ⟨-, done⟩ := done
  split at done
  · cases done
  · rw [Fallible.guard_eq_ok] at done
    obtain ⟨-, users, next, tokens, -⟩ := delete_ok done.2
    have old : t'.inviteTokens = t.inviteTokens.map (takeBack inp.userId inp.now) := tokens
    have ids : t'.users.map (·.id) = t.users.map (·.id) := users ▸ setRow_ids fun _ => rfl
    refine ⟨old ▸ .withdrawn inp.userId inp.now, next.ge, fun id mem => .inl (ids ▸ mem), fun i mem => .inl ?_⟩
    rw [old] at mem
    obtain ⟨l, link, rfl⟩ := List.mem_map.mp mem
    exact List.mem_map.mpr ⟨l, link, (takeBack_spends.userId l).symm⟩

theorem Rewrites.refl (t : Tables) : Rewrites t t none :=
  ⟨.kept, Nat.le_refl _, fun _ mem => .inl mem, fun _ mem => .inl (List.mem_map_of_mem mem)⟩

theorem LinkCall.perform_rewrites (sound : LinksSound t) (c : LinkCall) (done : c.perform t = .ok t') :
    Rewrites t t' (c.subject t) := by
  cases c with
  | create inp =>
    simp only [perform] at done
    cases created : Users.create t inp with
    | error e =>
      rw [created] at done
      cases done
    | ok made =>
      rw [created] at done
      cases done
      exact create_rewrites sound created
  | resendInvite userId now invite =>
    simp only [perform, Users.resendInvite] at done
    split at done
    · cases done
    · rename_i user found
      simp only [Fallible.guard_eq_ok] at done
      exact inviteAgain_rewrites (getById_row found) done.2.2
  | forgotPassword email now invite =>
    simp only [perform, Users.forgotPassword] at done
    simp only [subject]
    split at done
    · rename_i none
      cases done
      rw [none]
      exact .refl t
    · rename_i user found
      rw [found]
      exact inviteAgain_rewrites (getByEmail_row found) done
  | setPassword inp => exact setPassword_rewrites done
  | delete inp => exact delete_rewrites done

theorem LeavesLinks.rewrites (leaves : LeavesLinks t t') : Rewrites t t' none :=
  ⟨leaves.1 ▸ .kept, leaves.2.1, fun _ mem => .inr (by
    obtain ⟨r, row, rfl⟩ := List.mem_map.mp mem
    exact leaves.2.2 r row), fun _ mem => .inl (List.mem_map_of_mem (leaves.1 ▸ mem))⟩

theorem LinkMove.step_call {c : LinkCall} (done : c.perform t = .ok t') : (LinkMove.call c).step t = t' := by
  simp only [step, done]

theorem LinkMove.step_rewrites (sound : LinksSound t) (m : LinkMove) : ∃ subject, Rewrites t (m.step t) subject := by
  cases m with
  | call c =>
    cases done : c.perform t with
    | ok t' => exact ⟨_, step_call done ▸ c.perform_rewrites sound done⟩
    | error e =>
      simp only [step, done]
      exact ⟨none, .refl t⟩
  | elsewhere t' =>
    rw [step]
    split
    · rename_i leaves
      exact ⟨none, leaves.rewrites⟩
    · exact ⟨none, .refl t⟩

/-! ### Runs -/

/-- The tables after the moves, beginning with a new schema. -/
def linkRun (moves : List LinkMove) : Tables := Runs.final LinkMove.step {} moves

theorem linksSound_empty : LinksSound {} where
  users _ mem := nomatch mem
  owners _ mem := nomatch mem
  hashes := List.nodup_nil
  one _ := Nat.zero_le 1

theorem LinksSound.step (sound : LinksSound t) (m : LinkMove) : LinksSound (m.step t) := by
  obtain ⟨subject, rewrites⟩ := m.step_rewrites sound
  exact sound.rewrites rewrites

theorem linkRun_sound (moves : List LinkMove) : LinksSound (linkRun moves) :=
  Runs.final_kept LinksSound linksSound_empty fun _ m sound => sound.step m

/-- The link of the hash is spent in sound tables. -/
structure SpentIn (hash : String) (t : Tables) : Prop where
  sound : LinksSound t
  spent : Spent t.inviteTokens hash

theorem SpentIn.step (h : SpentIn hash t) (m : LinkMove) : SpentIn hash (m.step t) := by
  obtain ⟨subject, rewrites⟩ := m.step_rewrites h.sound
  exact ⟨h.sound.rewrites rewrites, rewrites.links.spent h.spent⟩

theorem Spent.refused {inp : SetPasswordInput} (spent : Spent t.inviteTokens inp.tokenHash) :
    setPassword t inp = .error .inviteTokenInvalid := by
  obtain ⟨link, found, used⟩ := spent
  have at_hash : t.getByTokenHash inp.tokenHash = some link := found
  have none : (t.getByTokenHash inp.tokenHash).filter (·.usedAt.isNone) = none := by
    rw [at_hash, Option.filter_eq_none_iff]
    intro l same
    cases same
    rw [Bool.not_eq_true, Option.isNone_eq_false_iff]
    exact used
  unfold setPassword
  rw [none]
  rfl

/-- A password that is set spends the link. -/
theorem LinkMove.sets_spends (sound : LinksSound t) (m : LinkMove) (sets : m.sets hash t = true) : SpentIn hash (m.step t) := by
  refine ⟨sound.step m, ?_⟩
  match m, sets with
  | .call (.setPassword inp), sets =>
    simp only [LinkMove.sets, Bool.and_eq_true, decide_eq_true_eq] at sets
    obtain ⟨rfl, accepted⟩ := sets
    cases done : setPassword t inp with
    | error e =>
      rw [done] at accepted
      cases accepted
    | ok t' =>
      obtain ⟨link, found, -, -, tokens, -⟩ := setPassword_ok done
      rw [step_call (c := .setPassword inp) done, tokens]
      refine ⟨useUp link.id inp.now link, ?_, ?_⟩
      · rw [useUp_spends.find?]
        exact congrArg (Option.map _) found
      · rw [useUp, if_pos rfl]
        rfl

theorem SpentIn.not_sets (h : SpentIn hash t) (m : LinkMove) : m.sets hash t = false := by
  match m with
  | .elsewhere _ | .call (.create _) | .call (.resendInvite ..) | .call (.forgotPassword ..) | .call (.delete _) => rfl
  | .call (.setPassword inp) =>
    by_cases same : inp.tokenHash = hash
    · subst same
      simp only [LinkMove.sets, h.spent.refused, Except.isOk, Except.toBool, Bool.and_false]
    · simp only [LinkMove.sets, same, decide_false, Bool.false_and]

/-- What holds of links in every run of the calls. -/
structure LinksSafe (moves : List LinkMove) : Prop where
  /-- One link of a user is usable at most. -/
  one : ∀ u now, (usableLinks (linkRun moves) u now).length ≤ 1
  /-- What sets a password is a link that is usable. -/
  usable : ∀ inp t', setPassword (linkRun moves) inp = .ok t' →
    ∃ link ∈ (linkRun moves).inviteTokens, link.tokenHash = inp.tokenHash ∧
      link ∈ usableLinks (linkRun moves) link.userId inp.now
  /-- A link sets a password once at most. -/
  once : ∀ hash, Runs.total LinkMove.step (fun t m => if m.sets hash t then 1 else 0) {} moves ≤ 1
  /-- Where a call makes a link of a user, or deletes him, no link that he had before works afterwards. -/
  stale : ∀ before after c t' link, moves = before ++ .call c :: after → c.perform (linkRun before) = .ok t' →
    link ∈ (linkRun before).inviteTokens → c.subject (linkRun before) = some link.userId →
      ∀ inp, inp.tokenHash = link.tokenHash → setPassword (linkRun moves) inp = .error .inviteTokenInvalid

theorem links_safe (moves : List LinkMove) : LinksSafe moves where
  one u now := by
    have fewer : (usableLinks (linkRun moves) u now).length ≤ openLinks (linkRun moves).inviteTokens u := by
      unfold usableLinks openLinks
      rw [← List.countP_eq_length_filter]
      refine List.countP_mono_left fun i _ usable => ?_
      simp only [Bool.and_eq_true] at usable ⊢
      exact usable.1
    exact fewer.trans ((linkRun_sound moves).one u)
  usable inp t' done := by
    obtain ⟨link, found, unused, intime, -⟩ := setPassword_ok done
    have mem : link ∈ (linkRun moves).inviteTokens := List.mem_of_find?_eq_some found
    have same : link.tokenHash = inp.tokenHash := by simpa using List.find?_some found
    refine ⟨link, mem, same, List.mem_filter.mpr ⟨mem, ?_⟩⟩
    simp [unused, intime]
  once hash := Runs.total_le_one (SpentIn hash) LinksSound (fun _ m sound => sound.step m) (fun _ m spent => spent.step m)
    (fun _ m spent => spent.not_sets m) (fun _ m sound sets => m.sets_spends sound sets) linksSound_empty
  stale before after c t' link := by
    rintro rfl done mem subject inp same
    have sound := linkRun_sound before
    have rewrites := c.perform_rewrites sound done
    rw [subject] at rewrites
    have ended : SpentIn link.tokenHash t' := ⟨sound.rewrites rewrites, rewrites.links.ended sound.hashes mem rfl⟩
    have kept : SpentIn link.tokenHash (linkRun (before ++ .call c :: after)) := by
      have reached : linkRun (before ++ .call c :: after) = Runs.final LinkMove.step t' after := by
        rw [← LinkMove.step_call done, linkRun, Runs.final_append, Runs.final_cons]
        rfl
      rw [reached]
      exact Runs.final_kept (SpentIn link.tokenHash) ended fun _ m h => h.step m
    exact Spent.refused (same ▸ kept.spent)

/-- The first link works until it expires, and not after a second one. -/
example :
    let invited : LinkMove := .call (.create { email := "anna@bolt.hu", passwordHash := "x", invite := ⟨"h", 10⟩, now := 0 })
    let again : LinkMove := .call (.forgotPassword "anna@bolt.hu" 3 ⟨"k", 13⟩)
    (setPassword (linkRun [invited]) ⟨"h", "y", 10⟩).isOk ∧
      setPassword (linkRun [invited, again]) ⟨"h", "y", 5⟩ = .error .inviteTokenInvalid ∧
      (setPassword (linkRun [invited, again]) ⟨"k", "y", 5⟩).isOk := by
  decide +kernel

end NyzRating.Users
