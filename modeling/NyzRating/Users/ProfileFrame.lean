import NyzRating.Users.Services

/-!
# What an update of the profile writes

The user of a request is the one of the database, or an entry of the user cache, which has lost some columns and may be
older than the row. The whole row is written from it.
-/

namespace NyzRating.Users

/-- The objects that the middleware may put into a request of the user of `r`. -/
inductive Supplied (r : UserRow) : User → Prop
  | fresh (live : r.live = true) (active : r.isActive = true) : Supplied r r.toUser
  | cached (earlier : User) (same : earlier.id = r.id) (active : earlier.isActive = true) :
      Supplied r (userFromCache (userToCache earlier))

/-- All of a row but the profile. -/
def frame (r : UserRow) : UserRow := { r with name := none, preferredLocale := none, preferredTheme := none }

/-- The object has the columns of the row that an update of the profile should leave alone. -/
structure Agrees (u : User) (r : UserRow) : Prop where
  email : u.email = r.email
  isActive : u.isActive = r.isActive
  role : u.role = r.role
  registrationCompletedAt : u.registrationCompletedAt = r.registrationCompletedAt
  failedLoginAttempts : u.failedLoginAttempts = r.failedLoginAttempts
  credentialsPasswordSet : u.credentialsPasswordSet = r.credentialsPasswordSet
  pendingEmail : u.pendingEmail = r.pendingEmail
  pendingEmailTokenHash : u.pendingEmailTokenHash = r.pendingEmailTokenHash
  pendingEmailExpiresAt : u.pendingEmailExpiresAt = r.pendingEmailExpiresAt

/-- The tables after the call. -/
def afterUpdateMe (t : Tables) (user : User) (inp : ProfileInput) : Tables := (updateMe t user inp).toOption.getD t

section
variable {t : Tables} {r : UserRow} {u : User} {inp : ProfileInput} {updates : ProfileUpdates}

theorem Supplied.id (h : Supplied r u) : u.id = r.id := by
  cases h with
  | fresh _ _ => rfl
  | cached _ same _ => exact same

theorem buildProfileUpdates_eq_empty : buildProfileUpdates inp = {} ↔ inp = {} := by
  obtain ⟨name, locale, theme⟩ := inp
  simp [buildProfileUpdates]

theorem withStoredEmail_id : (withStoredEmail t u).id = u.id := by
  unfold withStoredEmail
  split
  · split
    · split <;> rfl
    · rfl
  · rfl

theorem withStoredEmail_withProfile : withStoredEmail t (u.withProfile updates) = (withStoredEmail t u).withProfile updates := by
  have email : (u.withProfile updates).email = u.email := rfl
  have id : (u.withProfile updates).id = u.id := rfl
  simp only [withStoredEmail, email, id]
  split
  · split
    · split <;> rfl
    · rfl
  · rfl

/-- The other columns of a row are kept where the object has them. -/
theorem frame_written : frame ((u.withProfile updates).written r) = frame r ↔ Agrees u r := by
  constructor
  · intro kept
    have columns := UserRow.mk.inj kept
    have users := User.mk.inj columns.1
    obtain ⟨-, email, -, isActive, role, -, registration, attempts, -, -, -, credentials, pending, hash, expires⟩ := users
    exact ⟨email, isActive, role, registration, attempts, credentials, pending, hash, expires⟩
  · rintro ⟨email, isActive, role, registration, attempts, credentials, pending, hash, expires⟩
    simp only [frame, User.written, User.withProfile, email, isActive, role, registration, attempts, credentials, pending,
      hash, expires]

/-- An object that has just been read agrees with its row. -/
theorem Agrees.of_row (r : UserRow) : Agrees r.toUser r := ⟨rfl, rfl, rfl, rfl, rfl, rfl, rfl, rfl, rfl⟩

/-- A cache entry does so only if nothing has changed since, no registration is recorded, no login has failed and no change
    of the e-mail is pending. -/
theorem agrees_cached (earlier : User) (r : UserRow) : Agrees (userFromCache (userToCache earlier)) r ↔
    (earlier.email = r.email ∧ earlier.isActive = r.isActive ∧ earlier.role = r.role ∧
      earlier.credentialsPasswordSet = r.credentialsPasswordSet ∧ earlier.pendingEmail = r.pendingEmail) ∧
    r.registrationCompletedAt = none ∧ r.failedLoginAttempts = 0 ∧ r.pendingEmailTokenHash = none ∧
    r.pendingEmailExpiresAt = none := by
  constructor
  · rintro ⟨email, isActive, role, registration, attempts, credentials, pending, hash, expires⟩
    exact ⟨⟨email, isActive, role, credentials, pending⟩, registration.symm, attempts.symm, hash.symm, expires.symm⟩
  · rintro ⟨⟨email, isActive, role, credentials, pending⟩, registration, attempts, hash, expires⟩
    exact ⟨email, isActive, role, registration.symm, attempts.symm, credentials, pending, hash.symm, expires.symm⟩

theorem emailTaken_withProfile : t.emailTaken (u.withProfile updates) = t.emailTaken u := rfl

/-- Only the row of the user is written. -/
theorem map_frame_setRow (keys : t.Keyed) (mem : r ∈ t.users) {f : UserRow → UserRow} :
    (t.setRow r.id f).users.map frame = t.users.map frame ↔ frame (f r) = frame r := by
  simp only [Tables.setRow, List.map_map, List.map_inj_left, Function.comp_apply]
  constructor
  · intro all
    have own := all r mem
    rwa [if_pos rfl] at own
  · intro own r' mem'
    split
    · next same =>
      have equal : r' = r := List.inj_on_of_nodup_map keys.ids mem' mem same
      rw [equal]
      exact own
    · rfl

end

/-- An update of the profile leaves the other columns alone exactly where nothing is asked for, the e-mail of the object
    belongs to another user, so that the call is refused, or the object agrees with the row. -/
theorem update_me_frame (t : Tables) (keys : t.Keyed) (r : UserRow) (mem : r ∈ t.users) (user : User) (supplied : Supplied r user)
    (inp : ProfileInput) : (afterUpdateMe t user inp).users.map frame = t.users.map frame ↔
      inp = {} ∨ t.emailTaken (withStoredEmail t user) = true ∨ Agrees (withStoredEmail t user) r := by
  unfold afterUpdateMe updateMe
  by_cases none_asked : inp = {}
  · have empty : buildProfileUpdates inp = {} := buildProfileUpdates_eq_empty.mpr none_asked
    rw [if_pos empty]
    exact iff_of_true rfl (.inl none_asked)
  · have asked : buildProfileUpdates inp ≠ {} := fun empty => none_asked (buildProfileUpdates_eq_empty.mp empty)
    rw [if_neg asked, withStoredEmail_withProfile]
    have id : ((withStoredEmail t user).withProfile (buildProfileUpdates inp)).id = r.id :=
      withStoredEmail_id.trans supplied.id
    have row : t.row? r.id = some r := keys.row? mem
    cases taken : t.emailTaken (withStoredEmail t user) with
    | true =>
      refine iff_of_true ?_ (.inr (.inl rfl))
      cases done : t.update ((withStoredEmail t user).withProfile (buildProfileUpdates inp)) with
      | error _ => rfl
      | ok t' =>
        obtain ⟨-, free, -⟩ := Tables.update_eq_ok.mp done
        rw [emailTaken_withProfile, taken] at free
        cases free
    | false =>
      let object := (withStoredEmail t user).withProfile (buildProfileUpdates inp)
      have done : t.update object = .ok (t.setRow object.id object.written) :=
        Tables.update_eq_ok.mpr ⟨⟨r, id ▸ row⟩, taken, rfl⟩
      rw [done, id]
      have written := map_frame_setRow keys mem (f := object.written)
      exact written.trans (frame_written.trans (by simp [none_asked]))

/-! ### A registered user -/

/-- The row of a user who registered at noon of the first day, and has failed to log in once since then. -/
def registeredRow : UserRow :=
  { id := 7, email := "anna@example.com", passwordHash := "h", isActive := true, role := "user",
    registrationCompletedAt := some 43200000000, failedLoginAttempts := 1 }

def registeredTables : Tables := { users := [registeredRow], nextUserId := 8 }

def newName : ProfileInput := { name := some "Anna" }

theorem update_me_frame_fresh : (afterUpdateMe registeredTables registeredRow.toUser newName).users.map frame =
    registeredTables.users.map frame ↔ newName = {} ∨
      registeredTables.emailTaken (withStoredEmail registeredTables registeredRow.toUser) = true ∨
      Agrees (withStoredEmail registeredTables registeredRow.toUser) registeredRow :=
  update_me_frame registeredTables ⟨by decide, by decide⟩ registeredRow (by decide) registeredRow.toUser (.fresh rfl rfl) newName

/-- The object is the cache entry that was written from this very row. -/
theorem update_me_not_frame : ¬∀ (t : Tables) (r : UserRow) (user : User) (inp : ProfileInput), t.Keyed → r ∈ t.users →
    Supplied r user → (afterUpdateMe t user inp).users.map frame = t.users.map frame := by
  intro h
  have kept := h registeredTables registeredRow (userFromCache (userToCache registeredRow.toUser)) newName ⟨by decide, by decide⟩
    (by decide) (.cached registeredRow.toUser rfl rfl)
  revert kept
  decide +kernel

end NyzRating.Users
