import NyzRating.Users.Services

/-!
# The owner of a tenant, and the link that sets the first password

An address that a schema knows is its owner's, and there is one owner. A link that was just made for a user in such a schema
is accepted until it expires.
-/

namespace NyzRating.Users

/-- `get_by_email` finds the row under the address. -/
def UserRow.reachedBy (r : UserRow) (email : String) : Bool :=
  String.ofList (Text.lower r.email.toList) = Text.stripLower email && r.live

/-- Nobody but the owner is reached under the address. -/
structure OwnerTable (email : String) (t : Tables) : Prop where
  keyed : t.Keyed
  emails : ∀ a ∈ t.users, ∀ b ∈ t.users, a.email = b.email → a.id = b.id
  owned : ∀ r ∈ t.users, r.reachedBy email → r.role = "owner"
  one : ∀ a ∈ t.users, ∀ b ∈ t.users, a.live → b.live → a.role = "owner" → b.role = "owner" → a.id = b.id

section
variable {email : String} {t t' : Tables}

theorem OwnerTable.empty : OwnerTable email {} where
  keyed := ⟨List.nodup_nil, fun _ mem => absurd mem List.not_mem_nil⟩
  emails := fun _ mem => absurd mem List.not_mem_nil
  owned := fun _ mem => absurd mem List.not_mem_nil
  one := fun _ mem => absurd mem List.not_mem_nil

/-- Only the rows of the users count. -/
theorem OwnerTable.congr (h : OwnerTable email t) (users : t'.users = t.users) (next : t'.nextUserId = t.nextUserId) :
    OwnerTable email t' where
  keyed := ⟨users ▸ h.keyed.ids, by rw [users, next]; exact h.keyed.below⟩
  emails := users ▸ h.emails
  owned := users ▸ h.owned
  one := users ▸ h.one

/-- A new owner, where there was none. -/
theorem OwnerTable.append (h : OwnerTable email t) {r : UserRow} (id : r.id = t.nextUserId) (role : r.role = "owner")
    (new : t.users.any (·.email = r.email) = false) (none' : t.existsOwner = false) :
    OwnerTable email { t with users := t.users ++ [r], nextUserId := t.nextUserId + 1 } := by
  have others : ∀ a ∈ t.users, a.id ≠ t.nextUserId := fun a mem => Nat.ne_of_lt (h.keyed.below a mem)
  have unlike : ∀ a ∈ t.users, a.email ≠ r.email := by simpa using new
  have vacant : ∀ a ∈ t.users, a.role = "owner" → a.live = false := by simpa [Tables.existsOwner] using none'
  have cases_of : ∀ a ∈ t.users ++ [r], a ∈ t.users ∨ a = r := by simp
  refine ⟨⟨?_, fun a mem => ?_⟩, fun a ma b mb same => ?_, fun a mem reached => ?_, fun a ma b mb la lb oa ob => ?_⟩
  · rw [List.map_append, List.map_singleton, List.nodup_append]
    refine ⟨h.keyed.ids, List.nodup_singleton _, ?_⟩
    intro k old j last
    obtain ⟨a, mem, rfl⟩ := List.mem_map.mp old
    rw [List.mem_singleton.mp last, id]
    exact others a mem
  · rcases cases_of a mem with old | rfl
    · exact Nat.lt_succ_of_lt (h.keyed.below a old)
    · exact id ▸ Nat.lt_succ_self _
  · rcases cases_of a ma with ha | rfl <;> rcases cases_of b mb with hb | rfl
    · exact h.emails a ha b hb same
    · exact absurd same (unlike a ha)
    · exact absurd same.symm (unlike b hb)
    · rfl
  · rcases cases_of a mem with old | rfl
    · exact h.owned a old reached
    · exact role
  · rcases cases_of a ma with ha | rfl <;> rcases cases_of b mb with hb | rfl
    · exact h.one a ha b hb la lb oa ob
    · rw [vacant a ha oa] at la
      cases la
    · rw [vacant b hb ob] at lb
      cases lb
    · rfl

/-- The row of a new owner. -/
theorem create_owner {inp : CreateInput} {user : User} (role : inp.role = "owner") (done : Users.create t inp = .ok (user, t')) :
    ∃ r : UserRow, r.id = t.nextUserId ∧ r.role = "owner" ∧ t.users.any (·.email = r.email) = false ∧ t.existsOwner = false ∧
      t'.users = t.users ++ [r] ∧ t'.nextUserId = t.nextUserId + 1 := by
  simp only [Users.create, Tables.create, checkedRole, role, if_true, Fallible.guard_eq_ok, Fallible.bind_eq_ok,
    Fallible.pure_eq_ok] at done
  obtain ⟨-, _, ⟨vacant, -⟩, made, ⟨new, rfl⟩, done⟩ := done
  have grown : ∃ r : UserRow, r.id = t.nextUserId ∧ r.role = "owner" ∧ r.email = stripped inp.email ∧
      t'.users = t.users ++ [r] ∧ t'.nextUserId = t.nextUserId + 1 := by
    split at done
    · cases done
      exact ⟨_, rfl, rfl, rfl, rfl, rfl⟩
    · simp only [Tables.createInviteToken, Fallible.bind_eq_ok, Fallible.guard_eq_ok, Fallible.pure_eq_ok, Prod.mk.injEq] at done
      obtain ⟨_, ⟨-, rfl⟩, -, rfl⟩ := done
      exact ⟨_, rfl, rfl, rfl, rfl, rfl⟩
  obtain ⟨r, id, role, address, grew⟩ := grown
  exact ⟨r, id, role, Bool.eq_false_iff.mpr (address ▸ new), Bool.eq_false_iff.mpr vacant, grew⟩

theorem OwnerTable.create (h : OwnerTable email t) {inp : CreateInput} {user : User} (role : inp.role = "owner")
    (done : Users.create t inp = .ok (user, t')) : OwnerTable email t' := by
  obtain ⟨r, id, role, new, vacant, users, next⟩ := create_owner role done
  exact (h.append id role new vacant).congr users next

/-! ### Changes of a row -/

/-- What `OwnerTable` sees of a row. -/
structure SameIdentity (a b : UserRow) : Prop where
  id : a.id = b.id
  email : a.email = b.email
  role : a.role = b.role
  deletedAt : a.deletedAt = b.deletedAt

theorem SameIdentity.refl (a : UserRow) : SameIdentity a a := ⟨rfl, rfl, rfl, rfl⟩

theorem SameIdentity.live {a b : UserRow} (h : SameIdentity a b) : a.live = b.live := by
  rw [UserRow.live, UserRow.live, h.deletedAt]

theorem SameIdentity.reachedBy {a b : UserRow} (h : SameIdentity a b) : a.reachedBy email = b.reachedBy email := by
  rw [UserRow.reachedBy, UserRow.reachedBy, h.email, h.live]

theorem OwnerTable.setRow {id : Nat} {f : UserRow → UserRow} (h : OwnerTable email t)
    (same : ∀ r ∈ t.users, r.id = id → SameIdentity (f r) r) : OwnerTable email (t.setRow id f) := by
  have back : ∀ a ∈ (t.setRow id f).users, ∃ a₀ ∈ t.users, SameIdentity a a₀ := by
    intro a mem
    obtain ⟨a₀, old, rfl⟩ := List.mem_map.mp mem
    refine ⟨a₀, old, ?_⟩
    split
    · next own => exact same a₀ old own
    · exact .refl a₀
  have ids : (t.setRow id f).users.map (·.id) = t.users.map (·.id) := by
    rw [Tables.setRow, List.map_map]
    refine List.map_congr_left fun r mem => ?_
    by_cases own : r.id = id
    · simp [own, (same r mem own).id]
    · simp [own]
  refine ⟨⟨ids ▸ h.keyed.ids, fun a mem => ?_⟩, fun a ha b hb eq => ?_, fun a mem reached => ?_, fun a ha b hb la lb oa ob => ?_⟩
  · obtain ⟨a₀, old, like⟩ := back a mem
    rw [like.id]
    exact h.keyed.below a₀ old
  · obtain ⟨a₀, olda, likea⟩ := back a ha
    obtain ⟨b₀, oldb, likeb⟩ := back b hb
    rw [likea.id, likeb.id]
    exact h.emails a₀ olda b₀ oldb (likea.email.symm.trans (eq.trans likeb.email))
  · obtain ⟨a₀, old, like⟩ := back a mem
    rw [like.role]
    exact h.owned a₀ old (like.reachedBy ▸ reached)
  · obtain ⟨a₀, olda, likea⟩ := back a ha
    obtain ⟨b₀, oldb, likeb⟩ := back b hb
    rw [likea.id, likeb.id]
    exact h.one a₀ olda b₀ oldb (likea.live ▸ la) (likeb.live ▸ lb) (likea.role ▸ oa) (likeb.role ▸ ob)

/-- Who is reached under the address is the one owner. -/
theorem OwnerTable.length_owners (h : OwnerTable email t) {r : UserRow} (mem : r ∈ t.users) (reached : r.reachedBy email = true) :
    (t.users.filter fun r => r.role = "owner" && r.reachedBy email).length = 1 := by
  have live : ∀ a : UserRow, a.reachedBy email = true → a.live = true := by
    intro a reached
    simp only [UserRow.reachedBy, Bool.and_eq_true] at reached
    exact reached.2
  have nodup : (t.users.filter fun r => r.role = "owner" && r.reachedBy email).Nodup := (List.Nodup.of_map _ h.keyed.ids).filter _
  have apart : (t.users.filter fun r => r.role = "owner" && r.reachedBy email).Pairwise fun _ _ => False := by
    refine nodup.imp_of_mem fun {a b} ha hb differ => differ ?_
    simp only [List.mem_filter, Bool.and_eq_true, decide_eq_true_eq] at ha hb
    have same := h.one a ha.1 b hb.1 (live a ha.2.2) (live b hb.2.2) ha.2.1 hb.2.1
    exact List.inj_on_of_nodup_map h.keyed.ids ha.1 hb.1 same
  have there : r ∈ t.users.filter fun r => r.role = "owner" && r.reachedBy email := by
    simp [mem, reached, h.owned r mem reached]
  exact Nat.le_antisymm (Lists.length_le_one apart) (List.length_pos_of_mem there)

/-- A user who keeps the address can be written. -/
theorem OwnerTable.update_accepts (h : OwnerTable email t) {u : User} {r : UserRow} (row : t.row? u.id = some r)
    (address : u.email = r.email) : ∃ t', t.update u = .ok t' := by
  obtain ⟨mem, own⟩ := Tables.row?_eq_some row
  refine ⟨_, Tables.update_eq_ok.mpr ⟨⟨r, row⟩, ?_, rfl⟩⟩
  rw [Tables.emailTaken, List.any_eq_false]
  intro a ha taken
  simp only [Bool.and_eq_true, decide_eq_true_eq] at taken
  exact taken.1 ((h.emails a ha r mem (taken.2.trans address)).trans own)

/-- `set_password` takes a link that is neither used nor expired. -/
theorem setPassword_accepts (h : OwnerTable email t) {inp : SetPasswordInput} {record : InviteToken} {r : UserRow}
    (token : t.getByTokenHash inp.tokenHash = some record) (unused : record.usedAt = none) (inTime : inp.now ≤ record.expiresAt)
    (user : t.row? record.userId = some r) (live : r.live = true) : ∃ t', setPassword t inp = .ok t' := by
  obtain ⟨-, own⟩ := Tables.row?_eq_some user
  let change : UserRow → UserRow := fun r => { r with passwordHash := inp.newHash, credentialsPasswordSet := true }
  let marked := (t.setRow record.userId change).markUsed record.id inp.now
  have row : (t.setRow record.userId change).row? record.userId = some (change r) := by
    have found : (t.setRow record.userId change).row? record.userId = (t.row? record.userId).map change :=
      Tables.row?_setRow_self fun _ id => id
    rwa [user] at found
  have sound : OwnerTable email marked := by
    have changed : OwnerTable email (t.setRow record.userId change) := h.setRow fun _ _ _ => ⟨rfl, rfl, rfl, rfl⟩
    exact changed.congr rfl rfl
  have there : marked.getById record.userId = some (change r).toUser := Tables.getById_eq_some.mpr ⟨_, row, live, rfl⟩
  obtain ⟨t', written⟩ := sound.update_accepts (u := (change r).toUser.registered marked.existsOwner inp.now) (r := change r)
    ((congrArg marked.row? own).trans row) rfl
  refine ⟨t', ?_⟩
  simp only [setPassword, token, Option.filter_some, unused, Option.isNone_none, if_true, Int.not_lt.mpr inTime, if_false,
    Tables.updatePassword, user, pure_bind]
  rw [there]
  exact written

end

end NyzRating.Users
