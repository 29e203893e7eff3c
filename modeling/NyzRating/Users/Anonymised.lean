import Mathlib.Logic.Function.Basic
import NyzRating.Users.Concurrent

/-!
# What a deletion leaves of a user

Two users that differ in personal data only are deleted with the same random texts and the same clock. `delete` empties or
overwrites every personal column but three: the e-mail that waits for its confirmation, its token and its expiry stay in
the row, although no read of the service finds them there any more.
-/

namespace NyzRating.Users

open Tables

/-! ### Whole rows -/

/-- The columns of a row that say who wrote it and when. -/
structure AuditColumns where
  createdAt : Option Int := none
  createdBy : Option Nat := none
  updatedAt : Option Int := none
  updatedBy : Option Nat := none
  deletedBy : Option Nat := none
  deriving DecidableEq, Repr

/-- All columns of `users`. -/
structure StoredRow extends UserRow, AuditColumns
  deriving DecidableEq, Repr

/-- The tables, with the audit columns of the user of each id. -/
structure Store where
  tables : Tables
  audit : Nat → AuditColumns := fun _ => {}

/-- What a deletion draws: the clock when it starts and when the row is flushed, `token_hex` and `token_urlsafe`. -/
structure Draw where
  now : Int
  flushedAt : Int
  suffix : String
  passwordHash : String

def AuditColumns.deleted (id : Nat) (updatedBy : Option Nat) (flushedAt : Int) (a : AuditColumns) : AuditColumns :=
  { a with updatedAt := some flushedAt, updatedBy := some (updatedBy.getD id), deletedBy := some (updatedBy.getD id) }

namespace Store

def row? (s : Store) (id : Nat) : Option StoredRow :=
  (s.tables.row? id).map fun r => { toUserRow := r, toAuditColumns := s.audit id }

/-- `UserRepository.delete` with all the columns it writes. -/
def delete (s : Store) (id : Nat) (updatedBy : Option Nat) (draw : Draw) : Except UserError Store := do
  let tables ← s.tables.delete id draw.now draw.suffix draw.passwordHash
  return { tables, audit := Function.update s.audit id ((s.audit id).deleted id updatedBy draw.flushedAt) }

end Store

/-- The row that a deletion makes of `r`. -/
def StoredRow.deleted (updatedBy : Option Nat) (draw : Draw) (r : StoredRow) : StoredRow where
  toUserRow := deletedRow draw.now (deletedEmail r.id draw.suffix) draw.passwordHash r.toUserRow
  toAuditColumns := r.toAuditColumns.deleted r.id updatedBy draw.flushedAt

variable {s s' s₁ s₂ s₁' s₂' : Store} {t t' : Tables} {id : Nat} {updatedBy : Option Nat} {draw : Draw} {r r₁ r₂ : StoredRow}

theorem Tables.delete_row? {now : Int} {suffix passwordHash : String} (done : t.delete id now suffix passwordHash = .ok t') :
    t'.row? id = (t.row? id).map (deletedRow now (deletedEmail id suffix) passwordHash) := by
  obtain ⟨-, users, -⟩ := delete_ok done
  have written : t'.row? id = (t.setRow id (deletedRow now (deletedEmail id suffix) passwordHash)).row? id := by
    unfold Tables.row?
    rw [users]
  exact written.trans (row?_setRow_self fun _ same => same)

theorem Store.delete_row? (found : s.row? id = some r) (done : s.delete id updatedBy draw = .ok s') :
    s'.row? id = some (r.deleted updatedBy draw) := by
  obtain ⟨row, at_id, rfl⟩ := Option.map_eq_some_iff.mp found
  obtain ⟨tables, deleted, made⟩ := Fallible.bind_eq_ok.mp done
  cases Fallible.pure_eq_ok.mp made
  have keyed : row.id = id := (row?_eq_some at_id).2
  subst keyed
  simp only [Store.row?, Tables.delete_row? deleted, at_id, Option.map_some, Function.update_self]
  rfl

/-! ### Personal data -/

/-- The row without the columns that hold personal data. -/
def StoredRow.impersonal (r : StoredRow) : StoredRow :=
  { r with
    email := ""
    name := none
    passwordHash := ""
    pendingEmail := none
    pendingEmailTokenHash := none
    pendingEmailExpiresAt := none
    preferredLocale := none
    preferredTheme := none }

/-- The rows differ in personal data only. -/
def SameButPersonal (r₁ r₂ : StoredRow) : Prop := r₁.impersonal = r₂.impersonal

/-- The columns of an e-mail change that waits for its confirmation. -/
def StoredRow.pendingChange (r : StoredRow) : Option String × Option String × Option Int :=
  (r.pendingEmail, r.pendingEmailTokenHash, r.pendingEmailExpiresAt)

/-- A row that holds nothing of the user but what a deletion puts there. -/
structure StoredRow.Erased (draw : Draw) (r : StoredRow) : Prop where
  email : r.email = deletedEmail r.id draw.suffix
  passwordHash : r.passwordHash = draw.passwordHash
  name : r.name = none
  preferredLocale : r.preferredLocale = none
  preferredTheme : r.preferredTheme = none
  pendingChange : r.pendingChange = (none, none, none)

/-- No token makes `confirm_email_change` change the user. -/
def Unconfirmable (t : Tables) (id : Nat) : Prop :=
  ∀ tokenHash now user newEmail,
    Concurrent.begin t (.confirmEmailChange tokenHash now) = .tokenFound user newEmail → user.id ≠ id

/-- Nothing tells the users of two stores apart that were deleted, and nothing of them is left. -/
structure Anonymised (draw : Draw) (id : Nat) (s₁ s₂ : Store) : Prop where
  same : s₁.row? id = s₂.row? id
  erased : ∀ s ∈ [s₁, s₂], ∀ r, s.row? id = some r → r.Erased draw
  unconfirmable : ∀ s ∈ [s₁, s₂], Unconfirmable s.tables id

@[simp] theorem deleted_pendingChange : (r.deleted updatedBy draw).pendingChange = r.pendingChange := rfl

/-- What a deletion writes depends on what is not personal, and on the change that waits. -/
theorem deleted_congr (alike : SameButPersonal r₁ r₂) (waiting : r₁.pendingChange = r₂.pendingChange) :
    r₁.deleted updatedBy draw = r₂.deleted updatedBy draw := by
  have restored : ∀ r : StoredRow, r.deleted updatedBy draw =
      { r.impersonal.deleted updatedBy draw with
        pendingEmail := r.pendingChange.1
        pendingEmailTokenHash := r.pendingChange.2.1
        pendingEmailExpiresAt := r.pendingChange.2.2 } := fun _ => rfl
  rw [restored r₁, restored r₂, alike, waiting]

theorem deleted_eq_iff (alike : SameButPersonal r₁ r₂) :
    r₁.deleted updatedBy draw = r₂.deleted updatedBy draw ↔ r₁.pendingChange = r₂.pendingChange := by
  refine ⟨fun same => ?_, deleted_congr alike⟩
  have pending : (r₁.deleted updatedBy draw).pendingChange = (r₂.deleted updatedBy draw).pendingChange :=
    congrArg StoredRow.pendingChange same
  simpa only [deleted_pendingChange] using pending

theorem deleted_erased_iff : (r.deleted updatedBy draw).Erased draw ↔ r.pendingChange = (none, none, none) :=
  ⟨fun erased => erased.pendingChange, fun nothing => ⟨rfl, rfl, rfl, rfl, rfl, nothing⟩⟩

/-! ### Reads -/

theorem begin_tokenFound {tokenHash newEmail : String} {now : Int} {user : User}
    (begins : Concurrent.begin t (.confirmEmailChange tokenHash now) = .tokenFound user newEmail) :
    t.getByPendingEmailTokenHash tokenHash = some user := by
  simp only [Concurrent.begin] at begins
  split at begins
  · cases begins
  · rename_i found
    split at begins
    · cases begins
    · cases begins
      exact (Option.filter_eq_some_iff.mp found).1

/-- A row that is deleted is not looked at. -/
theorem delete_unconfirmable (done : s.delete id updatedBy draw = .ok s') : Unconfirmable s'.tables id := by
  rintro tokenHash now user newEmail begins same
  obtain ⟨row, found, rfl⟩ := Option.map_eq_some_iff.mp (begin_tokenFound begins)
  obtain ⟨tables, deleted, made⟩ := Fallible.bind_eq_ok.mp done
  cases Fallible.pure_eq_ok.mp made
  have live : row.live = true := by
    have both := List.find?_some found
    exact (Bool.and_eq_true_iff.mp both).2
  have dead : ∀ r ∈ tables.users, r.id = id → r.live = false := by
    intro r mem of_id
    rw [(delete_ok deleted).2.1] at mem
    obtain ⟨old, -, rfl⟩ := List.mem_map.mp mem
    split
    · rfl
    · rename_i other
      rw [if_neg other] at of_id
      exact absurd of_id other
  rw [dead row (List.mem_of_find?_eq_some found) same] at live
  cases live

/-! ### Two deletions -/

/-- Two users that differ in personal data only cannot be told apart after their deletion, with nothing personal left of
them, exactly when neither had an e-mail change that waited. -/
theorem delete_anonymises_iff (found₁ : s₁.row? id = some r₁) (found₂ : s₂.row? id = some r₂)
    (alike : SameButPersonal r₁ r₂) (done₁ : s₁.delete id updatedBy draw = .ok s₁')
    (done₂ : s₂.delete id updatedBy draw = .ok s₂') :
    Anonymised draw id s₁' s₂' ↔ r₁.pendingChange = (none, none, none) ∧ r₂.pendingChange = (none, none, none) := by
  have left₁ := Store.delete_row? found₁ done₁
  have left₂ := Store.delete_row? found₂ done₂
  constructor
  · intro anonymised
    exact ⟨deleted_erased_iff.mp (anonymised.erased s₁' (by simp) _ left₁),
      deleted_erased_iff.mp (anonymised.erased s₂' (by simp) _ left₂)⟩
  · rintro ⟨nothing₁, nothing₂⟩
    refine ⟨?_, ?_, ?_⟩
    · rw [left₁, left₂, (deleted_eq_iff alike).mpr (nothing₁.trans nothing₂.symm)]
    · intro s mem r row
      rcases List.mem_pair.mp mem with rfl | rfl
      · cases left₁.symm.trans row
        exact deleted_erased_iff.mpr nothing₁
      · cases left₂.symm.trans row
        exact deleted_erased_iff.mpr nothing₂
    · intro s mem
      rcases List.mem_pair.mp mem with rfl | rfl
      · exact delete_unconfirmable done₁
      · exact delete_unconfirmable done₂

namespace Anonymised

/-- A user who asked for a new e-mail, and two who did not. -/
def asked : UserRow :=
  { id := 1, email := "anna@bolt.hu", passwordHash := "x", isActive := true, role := "user", name := some "Anna",
    pendingEmail := some "anna@otthon.hu", pendingEmailTokenHash := some "h", pendingEmailExpiresAt := some 90 }

def quiet : UserRow := { id := 1, email := "bela@bolt.hu", passwordHash := "y", isActive := true, role := "user" }

def named : UserRow := { quiet with name := some "Csilla", email := "csilla@bolt.hu" }

def alone (r : UserRow) : Store := { tables := { users := [r], nextUserId := 2 } }

def noon : Draw := { now := 10, flushedAt := 10, suffix := "0a1b", passwordHash := "z" }

/-- The store that the deletion of its only user leaves. -/
def afterwards (r : UserRow) : Store :=
  match (alone r).delete 1 none noon with
  | .ok s => s
  | .error _ => alone r

theorem delete_alone (r : UserRow) (deleted : ((alone r).delete 1 none noon).isOk = true) :
    (alone r).delete 1 none noon = .ok (afterwards r) := by
  unfold afterwards
  cases done : (alone r).delete 1 none noon with
  | ok s => rfl
  | error e =>
    rw [done] at deleted
    cases deleted

end Anonymised

open Anonymised in
/-- The e-mail that a deleted user wanted stays readable in the row. -/
theorem not_delete_anonymises : ¬ ∀ (s₁ s₂ s₁' s₂' : Store) (id : Nat) (updatedBy : Option Nat) (draw : Draw)
    (r₁ r₂ : StoredRow), s₁.row? id = some r₁ → s₂.row? id = some r₂ → SameButPersonal r₁ r₂ →
    s₁.delete id updatedBy draw = .ok s₁' → s₂.delete id updatedBy draw = .ok s₂' → Anonymised draw id s₁' s₂' := by
  intro claim
  have kept := (claim (alone asked) (alone quiet) (afterwards asked) (afterwards quiet) 1 none noon ⟨asked, {}⟩
    ⟨quiet, {}⟩ rfl rfl rfl (delete_alone asked (by decide +kernel)) (delete_alone quiet (by decide +kernel))).same
  have row := congrArg (Option.map (·.pendingEmail)) kept
  revert row
  decide +kernel

open Anonymised in
theorem delete_anonymises_quiet : Anonymised noon 1 (afterwards named) (afterwards quiet) := by
  have found₁ : (alone named).row? 1 = some { toUserRow := named } := rfl
  have found₂ : (alone quiet).row? 1 = some { toUserRow := quiet } := rfl
  refine (delete_anonymises_iff found₁ found₂ rfl (delete_alone named ?_) (delete_alone quiet ?_)).mpr ⟨rfl, rfl⟩
  · decide +kernel
  · decide +kernel

end NyzRating.Users
