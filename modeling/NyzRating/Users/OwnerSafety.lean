import NyzRating.Lib.Run
import NyzRating.Users.Outcomes

/-!
# The owner

A tenant has one owner at most. Whoever is the first to set a password becomes the owner, and no other user takes the role
away, deletes the owner or locks him out. A profile may be written from an old entry of the cache, but an entry that says
"owner" is the owner's.
-/

namespace NyzRating.Users

open Runs

/-! ### Statement -/

/-- What the schemas of the requests let through: only a new user may be asked to be the owner. -/
def Op.Schema : Op → Prop
  | .create inp => inp.role = "user" ∨ inp.role = "admin" ∨ inp.role = "owner"
  | .update inp => ∀ role ∈ inp.role, role = "user" ∨ role = "admin"
  | _ => True

/-- The tenant has one owner at most, and what the cache says of an owner is true. -/
structure Started (w : World) : Prop where
  keyed : w.tables.Keyed
  cacheKeyed : w.CacheKeyed
  one : w.tables.accounts.OneOwner
  cached : ∀ id entry, w.cache id = some entry → entry.role = "owner" → ∃ a ∈ w.tables.accounts id, a.owner

/-- The request is an update of his own profile by the user. -/
def OwnProfile (env : LoginEnv) (w : World) (op : Op) (id : Nat) : Prop :=
  ∃ b inp user, op = .updateMe b inp ∧ w.caller env op = some user ∧ user.id = id

/-- After the request there is one owner at most, and whoever was the owner is neither deleted nor locked out, and has lost
    his role by an update of his own profile if at all. -/
structure OwnerSafe (env : LoginEnv) (w : World) (op : Op) : Prop where
  one : (w.step env op).tables.accounts.OneOwner
  kept : ∀ id, ∀ a ∈ w.tables.accounts id, a.owner → ∃ b ∈ (w.step env op).tables.accounts id,
    b.live = true ∧ (a.isActive = true → b.isActive = true) ∧ (b.role = "owner" ∨ OwnProfile env w op id)

/-! ### Steps -/

section
variable {env : LoginEnv} {caller : Option User} {w w' : World} {op : Op} {event : Event} {id : Nat}

theorem Started.looked (h : Started w) (looked : Looked w w') : Started w' where
  keyed := looked.tables ▸ h.keyed
  cacheKeyed := looked.cacheKeyed h.cacheKeyed
  one := looked.tables ▸ h.one
  cached := by
    intro id entry stored owner
    rw [looked.tables]
    rcases looked.cache id entry stored with old | ⟨user, found, -, rfl⟩
    · exact h.cached id entry old owner
    · exact ⟨user.account, Tables.accounts_of_getById found, rfl, owner⟩

/-- One event of the accounts, with entries lost from the cache. -/
theorem Started.refines (h : Started w) (account : Refines w.tables w'.tables event) (plain : event.Plain w.tables.accounts)
    (loses : ∀ id, w'.cache id = w.cache id ∨ w'.cache id = none)
    (forgotten : ∀ id role, event = .overwritten id role → w'.cache id = none) : Started w' where
  keyed := account.keyed
  cacheKeyed := h.cacheKeyed.of_loses loses
  one := account.accounts ▸ h.one.apply account.allowed plain
  cached := by
    intro id entry stored owner
    rcases loses id with kept | gone
    · obtain ⟨a, found, own⟩ := h.cached id entry (kept ▸ stored) owner
      obtain ⟨b, found', own', -⟩ := Accounts.owner_kept account.allowed found own fun role same => by
        rw [forgotten id role same] at stored
        cases stored
      exact ⟨b, account.accounts ▸ found', own'⟩
    · rw [gone] at stored
      cases stored

/-- The accounts after a request, for one user; only his own profile is written from the cache. -/
theorem kept_of_refines (account : Refines w.tables w'.tables event)
    (other : ∀ role, event ≠ .overwritten id role) {a : Account} (found : a ∈ w.tables.accounts id) (owner : a.owner) :
    ∃ b ∈ w'.tables.accounts id, b.live = true ∧ (a.isActive = true → b.isActive = true) ∧ b.role = "owner" := by
  obtain ⟨b, found', own, active⟩ := Accounts.owner_kept account.allowed found owner other
  exact ⟨b, account.accounts ▸ found', own.1, active, own.2⟩

/-- The event of a request gives nobody the role of the owner but by the link of a first password. -/
theorem Means.plain (h : Started w) (schema : op.Schema) (means : Means env caller w w' op event) : event.Plain w.tables.accounts := by
  cases means with
  | edited _ _ =>
    intro asked
    rcases schema "owner" asked with same | same
    · exact absurd same (by decide)
    · exact absurd same (by decide)
  | overwritten _ known _ =>
    intro owner
    obtain ⟨entry, stored, role, -⟩ := known.stored
    exact h.cached _ entry stored (role.trans owner)
  | nothing => trivial
  | locked _ => trivial
  | added => trivial
  | deleted _ => trivial
  | registered _ => trivial
  | raised => trivial

theorem Started.step (h : Started w) (schema : op.Schema) : Started (w.step env op) := by
  have seen : Started (w.seen env op) := h.looked (seen_looked h.cacheKeyed op)
  obtain ⟨loses, event, account, means⟩ := (step_outcome env w h.keyed h.cacheKeyed op).event
  refine seen.refines account (means.plain seen schema) loses fun id role same => ?_
  cases means with
  | overwritten _ _ forgotten =>
    obtain ⟨rfl, -⟩ := Event.overwritten.inj same
    exact forgotten
  | _ => cases same

theorem Started.safe (h : Started w) (schema : op.Schema) : OwnerSafe env w op where
  one := (h.step schema).one
  kept := by
    intro id a found owner
    have looked : Looked w (w.seen env op) := seen_looked h.cacheKeyed op
    obtain ⟨-, event, account, means⟩ := (step_outcome env w h.keyed h.cacheKeyed op).event
    rw [← looked.tables] at found
    by_cases own : ∃ role, event = .overwritten id role
    · obtain ⟨role, rfl⟩ := own
      cases means with
      | @overwritten b inp _ user own known _ =>
        refine ⟨a.overwrite user.role, ?_, owner.1, fun _ => rfl, .inr ⟨b, inp, user, rfl, own, known.key⟩⟩
        rw [account.accounts]
        exact Accounts.set_self.trans (congrArg (Option.map _) found)
    · obtain ⟨b, found', live, active, role⟩ := kept_of_refines account (fun role same => own ⟨role, same⟩) found owner
      exact ⟨b, found', live, active, .inl role⟩

end

/-! ### Runs -/

/-- Where the tenant starts with one owner at most, every run of requests is safe for the owner. -/
theorem owner_safety (env : LoginEnv) (w : World) (start : Started w) (ops : List Op) (schema : ∀ op ∈ ops, op.Schema) :
    Always (World.step env) (OwnerSafe env) w ops :=
  .of_invariant Started start (fun _ _ h schema => h.step schema) (fun _ _ h schema => h.safe schema)
    (.of_forall fun op listed _ => schema op listed)

/-- User 7 has been sent a link, and nobody is the owner yet. -/
def invited : World where
  tables := {
    users := [{ id := 7, email := "anna@example.com", passwordHash := "", isActive := true, role := "user",
                credentialsPasswordSet := false }]
    nextUserId := 8
    inviteTokens := [{ id := 1, userId := 7, tokenHash := "link", expiresAt := 86400000000 }] }

def firstPasswordAndSixGuesses : List Op :=
  .setPassword { tokenHash := "link", newHash := "secret", now := 0 } :: List.replicate 6 wrongPassword

theorem invited_keyed : invited.tables.Keyed := ⟨by decide, by decide⟩

theorem invited_started : Started invited where
  keyed := invited_keyed
  cacheKeyed := fun _ _ stored => absurd stored (Option.not_mem_none _)
  one := by
    intro i _ a found _ _ owner _
    have owned : invited.tables.existsOwner = true := (Tables.hasOwner_iff invited_keyed).mp ⟨i, a, found, owner⟩
    exact absurd owned (by decide)
  cached := fun _ _ stored => absurd stored (Option.not_mem_none _)

/-- She becomes the owner, and wrong passwords do not lock her out. -/
theorem owner_safety_invited :
    Always (World.step plainEnv) (OwnerSafe plainEnv) invited firstPasswordAndSixGuesses ∧
      (final (World.step plainEnv) invited firstPasswordAndSixGuesses).tables.accounts 7 =
        some { isActive := true, role := "owner", securityVersion := 0, live := true } := by
  refine ⟨owner_safety plainEnv invited invited_started _ fun op listed => ?_, by decide +kernel⟩
  rcases List.mem_cons.mp listed with rfl | listed
  · trivial
  · obtain rfl := List.eq_of_mem_replicate listed
    trivial

end NyzRating.Users
