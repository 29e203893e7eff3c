import NyzRating.Lib.Run
import NyzRating.Users.Outcomes

/-!
# Deactivation

An administrator takes a user's account out of use. What the user can do about it is to open a link: a link to set a password
makes the account active again, whoever made it inactive.
-/

namespace NyzRating.Users

open Runs

namespace Accounts

variable {s : Accounts} {id : Nat} {a : Account} {event : Event}

/-- An inactive account stays so, an administrator, a link and a write from a request apart. -/
theorem inactive_kept (allowed : s.Allows event) (found : a ∈ s id) (inactive : a.isActive = false)
    (edited : ∀ role, event ≠ .edited id (some true) role) (registered : ∀ promoted, event ≠ .registered id promoted)
    (overwritten : ∀ role, event ≠ .overwritten id role) : ∃ b ∈ s.apply event id, b.isActive = false := by
  rcases apply_found allowed found with ⟨-, kept⟩ | ⟨subject, changed⟩
  · exact ⟨a, kept, inactive⟩
  · refine ⟨event.change a, changed, ?_⟩
    cases event with
    | none => exact inactive
    | added j role => exact inactive
    | raised j => exact inactive
    | locked j => rfl
    | deleted j => rfl
    | edited j isActive role =>
      obtain rfl : j = id := Option.some.inj subject
      rw [Event.change, edit_isActive]
      cases isActive with
      | none => exact inactive
      | some active =>
        cases active with
        | true => exact absurd rfl (edited role)
        | false => rfl
    | registered j promoted =>
      obtain rfl : j = id := Option.some.inj subject
      exact absurd rfl (registered promoted)
    | overwritten j role =>
      obtain rfl : j = id := Option.some.inj subject
      exact absurd rfl (overwritten role)

end Accounts

/-! ### Statement -/

/-- An administrator makes the account inactive, and the call succeeds. -/
structure Deactivates (w : World) (inp : UpdateInput) : Prop where
  asked : inp.isActive = some false
  done : ∃ t, Users.update w.tables inp = .ok t

/-- An administrator makes the account active. -/
def Op.Activates (op : Op) (id : Nat) : Prop := ∃ inp, op = .update inp ∧ inp.userId = id ∧ inp.isActive = some true

/-- A password is set with a link of the user that may be used. -/
def World.OpensLink (w : World) (op : Op) (id : Nat) : Prop := ∃ inp, op = .setPassword inp ∧ w.tables.linkOwner inp = some id

def World.Inactive (w : World) (id : Nat) : Prop := ∃ a ∈ w.tables.accounts id, a.isActive = false

/-! ### Steps -/

/-- The user is inactive, and no entry of the cache says otherwise. -/
structure Blocked (w : World) (id : Nat) : Prop where
  keyed : w.tables.Keyed
  cacheKeyed : w.CacheKeyed
  inactive : w.Inactive id
  uncached : w.cache id = none

section
variable {env : LoginEnv} {caller : Option User} {w w' : World} {op : Op} {event : Event} {id : Nat}

theorem Blocked.looked (h : Blocked w id) (looked : Looked w w') : Blocked w' id where
  keyed := looked.tables ▸ h.keyed
  cacheKeyed := looked.cacheKeyed h.cacheKeyed
  inactive := by
    unfold World.Inactive
    rw [looked.tables]
    exact h.inactive
  uncached := by
    cases stored : w'.cache id with
    | none => rfl
    | some entry =>
      rcases looked.cache id entry stored with old | ⟨user, found, active, -⟩
      · rw [h.uncached] at old
        cases old
      · obtain ⟨a, account, inactive⟩ := h.inactive
        rw [Tables.accounts_of_getById found] at account
        obtain rfl := Option.some.inj account
        exact absurd (active.symm.trans inactive) (by decide)

/-- The events that would make the account active need an administrator, a link or an entry of the cache. -/
theorem Blocked.afterEvent (h : Blocked w id) (account : Refines w.tables w'.tables event) (means : Means env caller w w' op event)
    (unasked : ¬op.Activates id) (unlinked : ¬w.OpensLink op id) : w'.Inactive id := by
  obtain ⟨a, found, inactive⟩ := h.inactive
  unfold World.Inactive
  rw [account.accounts]
  refine Accounts.inactive_kept account.allowed found inactive ?_ ?_ ?_
  · rintro role rfl
    generalize asked : some true = isActive at means
    generalize own : id = j at means
    cases means with
    | @edited inp _ _ => exact unasked ⟨inp, rfl, own.symm, asked.symm⟩
  · rintro promoted rfl
    cases means with
    | @registered inp _ _ link => exact unlinked ⟨inp, rfl, link⟩
  · rintro role rfl
    cases means with
    | overwritten _ known _ =>
      obtain ⟨entry, stored, -⟩ := known.stored
      rw [h.uncached] at stored
      cases stored

theorem Blocked.step (h : Blocked w id) (unasked : ¬op.Activates id) (unlinked : ¬w.OpensLink op id) :
    Blocked (w.step env op) id := by
  have looked : Looked w (w.seen env op) := seen_looked h.cacheKeyed op
  have seen : Blocked (w.seen env op) id := h.looked looked
  obtain ⟨loses, event, account, means⟩ := (step_outcome env w h.keyed h.cacheKeyed op).event
  have unlinked : ¬(w.seen env op).OpensLink op id := by
    unfold World.OpensLink
    rw [looked.tables]
    exact unlinked
  refine ⟨account.keyed, seen.cacheKeyed.of_loses loses, seen.afterEvent account means unasked unlinked, ?_⟩
  rcases loses id with kept | gone
  · exact kept.trans seen.uncached
  · exact gone

end

/-- The cache forgets the user whom an administrator makes inactive. -/
theorem Deactivates.blocked {env : LoginEnv} {w : World} {inp : UpdateInput} (h : Deactivates w inp) (keyed : w.tables.Keyed)
    (cacheKeyed : w.CacheKeyed) : Blocked (w.step env (.update inp)) inp.userId := by
  obtain ⟨t, done⟩ := h.done
  have tables : (w.step env (.update inp)).tables = t := by
    simp only [World.step, World.onUpdate, done, h.asked, Option.isSome_some, Bool.or_true, Bool.true_or, if_true]
    rfl
  have cache : (w.step env (.update inp)).cache = Function.update w.cache inp.userId none := by
    simp only [World.step, World.onUpdate, done, h.asked, Option.isSome_some, Bool.or_true, Bool.true_or, if_true]
    rfl
  have forgotten : (w.step env (.update inp)).cache inp.userId = none := by
    rw [cache]
    exact Function.update_self _ _ _
  obtain ⟨loses, -⟩ := (step_outcome env w keyed cacheKeyed (.update inp)).event
  rcases update_refines keyed done with ⟨-, -, unasked, -⟩ | ⟨account, -⟩
  · rw [h.asked] at unasked
    cases unasked
  · refine ⟨tables ▸ account.keyed, cacheKeyed.of_loses loses, ?_, forgotten⟩
    obtain ⟨a, found, -⟩ := account.allowed
    refine ⟨a.edit inp.isActive inp.role, ?_, ?_⟩
    · rw [tables, account.accounts]
      exact Accounts.set_self.trans (congrArg (Option.map _) found)
    · rw [Accounts.edit_isActive, h.asked]
      rfl

/-! ### Runs -/

/-- A user whom an administrator has made inactive stays so until an administrator makes him active, in every run in which no
    link of his is used. -/
theorem deactivation_sticks (env : LoginEnv) (w : World) (keyed : w.tables.Keyed) (cacheKeyed : w.CacheKeyed) (inp : UpdateInput)
    (deactivates : Deactivates w inp) (ops : List Op) (unasked : ∀ op ∈ ops, ¬op.Activates inp.userId)
    (unlinked : Always (World.step env) (fun w op => ¬w.OpensLink op inp.userId) (w.step env (.update inp)) ops) :
    (final (World.step env) (w.step env (.update inp)) ops).Inactive inp.userId := by
  have allowed : Always (World.step env) (fun w op => ¬op.Activates inp.userId ∧ ¬w.OpensLink op inp.userId)
      (w.step env (.update inp)) ops := .and (.of_forall fun op listed _ => unasked op listed) unlinked
  have blocked : Blocked (w.step env (.update inp)) inp.userId := deactivates.blocked keyed cacheKeyed
  exact (final_invariant (Blocked · inp.userId) blocked (fun _ _ h ok => h.step ok.1 ok.2) allowed).inactive

def makeInactive : UpdateInput := { userId := 7, currentUserId := 1, isActive := some false }

theorem twoUsers_keyed : twoUsers.tables.Keyed := ⟨by decide, by decide⟩

theorem twoUsers_cacheKeyed : twoUsers.CacheKeyed := fun _ _ stored => absurd stored (Option.not_mem_none _)

theorem makeInactive_deactivates : Deactivates twoUsers makeInactive where
  asked := rfl
  done := ⟨_, rfl⟩

/-- She asks for a link. -/
def asksForLink : List Op := [.forgotPassword "anna@example.com" 0 { tokenHash := "link", expiresAt := 86400000000 }]

theorem deactivation_sticks_without_link :
    (final (World.step plainEnv) (twoUsers.step plainEnv (.update makeInactive)) asksForLink).Inactive 7 :=
  deactivation_sticks plainEnv twoUsers twoUsers_keyed twoUsers_cacheKeyed makeInactive makeInactive_deactivates asksForLink
    (fun _ listed ⟨_, same, _⟩ => by rw [List.mem_singleton.mp listed] at same; cases same)
    ⟨fun ⟨_, same, _⟩ => (by cases same), trivial⟩

def usesLink : List Op := asksForLink ++ [.setPassword { tokenHash := "link", newHash := "new", now := 60000000 }]

/-- She uses it, and is active again. -/
theorem deactivation_does_not_stick : ¬∀ (w : World) (inp : UpdateInput) (ops : List Op), w.tables.Keyed → w.CacheKeyed →
    Deactivates w inp → (∀ op ∈ ops, ¬op.Activates inp.userId) →
      (final (World.step plainEnv) (w.step plainEnv (.update inp)) ops).Inactive inp.userId := by
  intro h
  have unasked : ∀ op ∈ usesLink, ¬op.Activates 7 := by
    rintro op listed ⟨inp, rfl, -⟩
    rcases List.mem_cons.mp listed with same | same
    · cases same
    · cases List.mem_singleton.mp same
  obtain ⟨a, found, inactive⟩ := h twoUsers makeInactive usesLink twoUsers_keyed twoUsers_cacheKeyed makeInactive_deactivates unasked
  have active : (final (World.step plainEnv) (twoUsers.step plainEnv (.update makeInactive)) usesLink).tables.accounts 7 =
      some { isActive := true, role := "user", securityVersion := 1, live := true } := by decide +kernel
  have same := (Option.mem_def.mp found).symm.trans active
  rw [Option.some.inj same] at inactive
  cases inactive

end NyzRating.Users
