import Mathlib.Logic.Function.Basic
import Mathlib.Tactic.Common

/-!
# Accounts

What the accounts of a tenant are for: who may log in, in which role, and since which security version. An event says what
one call makes of them.
-/

namespace NyzRating.Users

@[ext] structure Account where
  isActive : Bool
  role : String
  securityVersion : Int
  live : Bool
  deriving DecidableEq, Repr

abbrev Accounts := Nat → Option Account

inductive Event where
  | none
  /-- Too many logins of the user have failed. -/
  | locked (id : Nat)
  | added (id : Nat) (role : String)
  | edited (id : Nat) (isActive : Option Bool) (role : Option String)
  | deleted (id : Nat)
  /-- All tokens of the user are revoked. -/
  | raised (id : Nat)
  /-- The user has set a password with a link. -/
  | registered (id : Nat) (promoted : Bool)
  /-- An active user's account is written from a request. -/
  | overwritten (id : Nat) (role : String)

def Account.lock (a : Account) : Account := { a with isActive := false }

def Account.raise (a : Account) : Account := { a with securityVersion := a.securityVersion + 1 }

def Account.edit (isActive : Option Bool) (role : Option String) (a : Account) : Account :=
  let b := { a with isActive := isActive.getD a.isActive, role := role.getD a.role }
  if b = a then a else b.raise

def Account.delete (a : Account) : Account :=
  { isActive := false, role := "user", securityVersion := a.securityVersion + 1, live := false }

def Account.register (promoted : Bool) (a : Account) : Account :=
  { a with isActive := true, role := if promoted then "owner" else a.role }

def Account.overwrite (role : String) (a : Account) : Account := { a with isActive := true, role }

/-- The account may log in. -/
def Account.enabled (a : Account) : Bool := a.isActive && a.live

def Account.owner (a : Account) : Prop := a.live = true ∧ a.role = "owner"

namespace Accounts

variable (s : Accounts)

def set (id : Nat) (f : Account → Account) : Accounts := Function.update s id ((s id).map f)

def apply : Event → Accounts
  | .none => s
  | .locked id => s.set id Account.lock
  | .added id role => Function.update s id (some { isActive := true, role, securityVersion := 0, live := true })
  | .edited id isActive role => s.set id (Account.edit isActive role)
  | .deleted id => s.set id Account.delete
  | .raised id => s.set id Account.raise
  | .registered id promoted => s.set id (Account.register promoted)
  | .overwritten id role => s.set id (Account.overwrite role)

def HasOwner : Prop := ∃ id, ∃ a ∈ s id, a.owner

/-- What the services check. -/
def Allows : Event → Prop
  | .none => True
  | .locked id => ∃ a, s id = some a ∧ a.live = true ∧ a.isActive = true ∧ a.role ≠ "owner"
  | .added id role => s id = none ∧ (role = "owner" → ¬s.HasOwner)
  | .edited id _ _ => ∃ a, s id = some a ∧ a.live = true ∧ a.role ≠ "owner"
  | .deleted id => ∃ a, s id = some a ∧ a.live = true ∧ a.role ≠ "owner"
  | .raised _ => True
  | .registered id promoted => (∃ a, s id = some a ∧ a.live = true) ∧ (promoted = true → ¬s.HasOwner)
  | .overwritten _ _ => True

/-- There is one owner at most. -/
def OneOwner : Prop := ∀ i j, ∀ a ∈ s i, ∀ b ∈ s j, a.owner → b.owner → i = j

end Accounts

/-- The user whose account an event changes. -/
def Event.subject : Event → Option Nat
  | .none => Option.none
  | .locked id | .added id _ | .edited id _ _ | .deleted id | .raised id | .registered id _ | .overwritten id _ => some id

/-- What an event makes of the account of its subject. -/
def Event.change : Event → Account → Account
  | .none | .added _ _ => id
  | .locked _ => .lock
  | .edited _ isActive role => .edit isActive role
  | .deleted _ => .delete
  | .raised _ => .raise
  | .registered _ promoted => .register promoted
  | .overwritten _ role => .overwrite role

namespace Accounts

variable {s : Accounts} {id j : Nat} {f : Account → Account} {a b : Account} {event : Event}

theorem set_self : s.set id f id = (s id).map f := Function.update_self _ _ _

theorem set_of_ne (other : j ≠ id) : s.set id f j = s j := Function.update_of_ne other _ _

/-- An account after a change of one account. -/
theorem mem_set (mem : b ∈ s.set id f j) : (j = id ∧ ∃ a ∈ s id, b = f a) ∨ (j ≠ id ∧ b ∈ s j) := by
  by_cases same : j = id
  · subst same
    rw [set_self] at mem
    obtain ⟨a, found, rfl⟩ := Option.map_eq_some_iff.mp mem
    exact .inl ⟨rfl, a, found, rfl⟩
  · rw [set_of_ne same] at mem
    exact .inr ⟨same, mem⟩

theorem set_congr {g : Account → Account} (same : ∀ a ∈ s id, f a = g a) : s.set id f = s.set id g := by
  unfold set
  congr 1
  exact Option.map_congr same

theorem set_set {g : Account → Account} : (s.set id f).set id g = s.set id (g ∘ f) := by
  rw [set, set_self, Option.map_map, set, Function.update_idem, set]

theorem set_eq_self (same : ∀ a ∈ s id, f a = a) : s.set id f = s := by
  funext j
  by_cases own : j = id
  · subst own
    rw [set_self]
    cases found : s j with
    | none => rfl
    | some a => rw [Option.map_some, same a found]
  · exact set_of_ne own

/-- Other accounts stay as they are. -/
theorem apply_of_ne (other : event.subject ≠ some j) : s.apply event j = s j := by
  have apart : ∀ {id : Nat}, some id ≠ some j → j ≠ id := fun h same => h (congrArg some same.symm)
  cases event with
  | none => rfl
  | added id role => exact Function.update_of_ne (apart other) _ _
  | locked id => exact set_of_ne (apart other)
  | edited id isActive role => exact set_of_ne (apart other)
  | deleted id => exact set_of_ne (apart other)
  | raised id => exact set_of_ne (apart other)
  | registered id promoted => exact set_of_ne (apart other)
  | overwritten id role => exact set_of_ne (apart other)

/-- An account after an event: as it was, or changed as its subject. -/
theorem apply_found (allowed : s.Allows event) (found : a ∈ s id) :
    (event.subject ≠ some id ∧ a ∈ s.apply event id) ∨ (event.subject = some id ∧ event.change a ∈ s.apply event id) := by
  by_cases subject : event.subject = some id
  · refine .inr ⟨subject, ?_⟩
    have changed : ∀ {j : Nat} (f : Account → Account), some j = some id → f a ∈ s.set j f id := by
      intro j f own
      obtain rfl : j = id := Option.some.inj own
      exact set_self.trans (congrArg (Option.map f) found)
    cases event with
    | none => cases subject
    | added j role =>
      obtain rfl : j = id := Option.some.inj subject
      rw [allowed.1] at found
      cases found
    | locked j => exact changed _ subject
    | edited j isActive role => exact changed _ subject
    | deleted j => exact changed _ subject
    | raised j => exact changed _ subject
    | registered j promoted => exact changed _ subject
    | overwritten j role => exact changed _ subject
  · exact .inl ⟨subject, by rw [apply_of_ne subject]; exact found⟩

/-- A change that makes nobody an owner. -/
theorem OneOwner.set (h : s.OneOwner) (keeps : ∀ a ∈ s id, (f a).owner → a.owner) : (s.set id f).OneOwner := by
  have before : ∀ {j : Nat} {b : Account}, b ∈ s.set id f j → b.owner → ∃ a ∈ s j, a.owner := by
    intro j b mem owner
    rcases mem_set mem with ⟨rfl, a, found, rfl⟩ | ⟨-, old⟩
    · exact ⟨a, found, keeps a found owner⟩
    · exact ⟨b, old, owner⟩
  intro i j a atI b atJ ownerA ownerB
  obtain ⟨a', foundA, ownA⟩ := before atI ownerA
  obtain ⟨b', foundB, ownB⟩ := before atJ ownerB
  exact h i j a' foundA b' foundB ownA ownB

/-- Without an owner, one account may be any. -/
theorem OneOwner.update (none_owner : ¬s.HasOwner) (a : Option Account) : OneOwner (Function.update s id a) := by
  have only : ∀ {j : Nat} {b : Account}, b ∈ Function.update s id a j → b.owner → j = id := by
    intro j b mem owner
    by_cases same : j = id
    · exact same
    · rw [Function.update_of_ne same] at mem
      exact absurd ⟨j, b, mem, owner⟩ none_owner
  intro i j a atI b atJ ownerA ownerB
  exact (only atI ownerA).trans (only atJ ownerB).symm

/-- A new account that is no owner's. -/
theorem OneOwner.add (h : s.OneOwner) (member : ¬a.owner) : OneOwner (Function.update s id (some a)) := by
  have before : ∀ {j : Nat} {b : Account}, b ∈ Function.update s id (some a) j → b.owner → b ∈ s j := by
    intro j b mem owner
    by_cases same : j = id
    · subst same
      rw [Function.update_self] at mem
      exact absurd owner (Option.some.inj mem ▸ member)
    · rwa [Function.update_of_ne same] at mem
  intro i j b atI c atJ ownerB ownerC
  exact h i j b (before atI ownerB) c (before atJ ownerC) ownerB ownerC

end Accounts

/-- The event gives nobody the role of the owner, the link of a first password apart. -/
def Event.Plain (s : Accounts) : Event → Prop
  | .edited _ _ role => role ≠ some "owner"
  | .overwritten id role => role = "owner" → ∃ a ∈ s id, a.owner
  | _ => True

namespace Accounts

variable {s : Accounts} {id : Nat} {a b : Account} {event : Event}

theorem edit_live (isActive : Option Bool) (role : Option String) (a : Account) : (a.edit isActive role).live = a.live := by
  unfold Account.edit
  dsimp only
  split <;> rfl

theorem edit_role (isActive : Option Bool) (role : Option String) (a : Account) :
    (a.edit isActive role).role = role.getD a.role := by
  unfold Account.edit
  dsimp only
  split
  · next same => exact congrArg Account.role same.symm
  · rfl

theorem edit_isActive (isActive : Option Bool) (role : Option String) (a : Account) :
    (a.edit isActive role).isActive = isActive.getD a.isActive := by
  unfold Account.edit
  dsimp only
  split
  · next same => exact congrArg Account.isActive same.symm
  · rfl

theorem edit_securityVersion_le (isActive : Option Bool) (role : Option String) (a : Account) :
    a.securityVersion ≤ (a.edit isActive role).securityVersion := by
  unfold Account.edit
  dsimp only
  split
  · exact Int.le_refl _
  · exact Int.le_add_one (Int.le_refl a.securityVersion)

theorem OneOwner.apply (h : s.OneOwner) (allowed : s.Allows event) (plain : event.Plain s) : (s.apply event).OneOwner := by
  cases event with
  | none => exact h
  | locked id => exact h.set fun _ _ owner => owner
  | raised id => exact h.set fun _ _ owner => owner
  | deleted id => exact h.set fun _ _ owner => absurd owner.1 Bool.false_ne_true
  | added id role =>
    by_cases owner : role = "owner"
    · exact OneOwner.update (allowed.2 owner) _
    · exact h.add fun own => owner own.2
  | edited id isActive role =>
    obtain ⟨a, found, -, member⟩ := allowed
    refine h.set fun a' found' owner => ?_
    obtain rfl : a = a' := Option.some.inj (found.symm.trans found')
    have granted := owner.2
    rw [edit_role] at granted
    cases role with
    | none => exact absurd granted member
    | some role => exact absurd (congrArg some granted) plain
  | registered id promoted =>
    cases promoted with
    | true => exact OneOwner.update (allowed.2 rfl) _
    | false => exact h.set fun _ _ owner => owner
  | overwritten id role =>
    refine h.set fun a found owner => ?_
    obtain ⟨a', found', own⟩ := plain owner.2
    exact Option.some.inj (Option.mem_def.mp found' ▸ found) ▸ own

/-- An owner stays one, and is not locked out, unless the account is written from a request. -/
theorem owner_kept (allowed : s.Allows event) (found : a ∈ s id) (owner : a.owner)
    (other : ∀ role, event ≠ .overwritten id role) : ∃ b ∈ s.apply event id, b.owner ∧ (a.isActive = true → b.isActive = true) := by
  have only : ∀ {j : Nat} {b : Account}, some j = some id → s j = some b → b = a := by
    intro j b own same
    obtain rfl : j = id := Option.some.inj own
    exact Option.some.inj (same.symm.trans found)
  rcases apply_found allowed found with ⟨-, kept⟩ | ⟨subject, changed⟩
  · exact ⟨a, kept, owner, fun active => active⟩
  · refine ⟨event.change a, changed, ?_⟩
    cases event with
    | none => cases subject
    | added j role => exact ⟨owner, fun active => active⟩
    | locked j =>
      obtain ⟨b, same, -, -, member⟩ := allowed
      exact absurd (only subject same ▸ owner.2) member
    | edited j isActive role =>
      obtain ⟨b, same, -, member⟩ := allowed
      exact absurd (only subject same ▸ owner.2) member
    | deleted j =>
      obtain ⟨b, same, -, member⟩ := allowed
      exact absurd (only subject same ▸ owner.2) member
    | raised j => exact ⟨owner, fun active => active⟩
    | registered j promoted =>
      refine ⟨⟨owner.1, ?_⟩, fun _ => rfl⟩
      cases promoted with
      | true => rfl
      | false => exact owner.2
    | overwritten j role =>
      obtain rfl : j = id := Option.some.inj subject
      exact absurd rfl (other role)

/-- Security versions never decrease, and a deleted account stays so. -/
theorem version_kept (allowed : s.Allows event) (found : a ∈ s id) : ∃ b ∈ s.apply event id,
    a.securityVersion ≤ b.securityVersion ∧ (b.live = true → a.live = true) ∧ (event ≠ .deleted id → b.live = a.live) := by
  rcases apply_found allowed found with ⟨-, kept⟩ | ⟨subject, changed⟩
  · exact ⟨a, kept, Int.le_refl _, fun live => live, fun _ => rfl⟩
  · refine ⟨event.change a, changed, ?_⟩
    have up : a.securityVersion ≤ a.securityVersion + 1 := Int.le_add_one (Int.le_refl _)
    cases event with
    | none => exact ⟨Int.le_refl _, fun live => live, fun _ => rfl⟩
    | added j role => exact ⟨Int.le_refl _, fun live => live, fun _ => rfl⟩
    | locked j => exact ⟨Int.le_refl _, fun live => live, fun _ => rfl⟩
    | registered j promoted => exact ⟨Int.le_refl _, fun live => live, fun _ => rfl⟩
    | overwritten j role => exact ⟨Int.le_refl _, fun live => live, fun _ => rfl⟩
    | raised j => exact ⟨up, fun live => live, fun _ => rfl⟩
    | edited j isActive role =>
      refine ⟨edit_securityVersion_le isActive role a, fun live => ?_, fun _ => edit_live isActive role a⟩
      exact (edit_live isActive role a).symm.trans live
    | deleted j =>
      obtain rfl : j = id := Option.some.inj subject
      exact ⟨up, fun live => absurd live Bool.false_ne_true, fun other => absurd rfl other⟩

end Accounts

end NyzRating.Users
