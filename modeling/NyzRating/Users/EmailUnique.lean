import NyzRating.Users.Concurrent
import NyzRating.Users.Effects

/-!
# E-mails of users

The check of an e-mail ignores letter case, the index of the table does not, and the write comes later. What keeps the
e-mails apart is that no two calls have checked the same e-mail in different letter case and for different users, and that
an e-mail given to `update` has no blanks around it that hide it from the check.
-/

namespace NyzRating.Users.Concurrent

open Runs

/-! ### E-mails and users -/

/-- The same but for letter case. -/
def SameEmail (a b : String) : Prop := Text.lower a.toList = Text.lower b.toList

/-- An e-mail, and the id of the user it is for, if there is one already. -/
abbrev Address := String × Option Nat

/-- What a call is about to write. -/
def Phase.address? : Phase → Option Address
  | .emailFree inp => some (stripped inp.email, none)
  | .checked write => some write.address
  | _ => none

/-- The e-mail that the next statement of a call looks for. -/
def Phase.checks (request : Request) : Phase → Option Address
  | .waiting =>
    match request with
    | .create inp => some (stripped inp.email, none)
    | _ => none
  | .admitted inp => some (stripped inp.email, none)
  | .found user inp => inp.email.map (·, some user.id)
  | .tokenFound user newEmail => some (newEmail, some user.id)
  | _ => none

/-- The e-mail as it is is free for the user, or the index keeps it from him. -/
def FreeFor (t : Tables) (a : Address) : Prop :=
  ∀ r ∈ t.users, r.live = true → SameEmail r.email a.1 → some r.id = a.2 ∨ r.email = a.1

/-- One user, or the index lets one of the writes through. -/
def Compatible (a b : Address) : Prop := a.1 = b.1 ∨ (a.2 = b.2 ∧ a.2.isSome = true)

/-- Where a call finds an e-mail free, no other call is about to write it in other letter case for another user, and where it
has blanks around it, it is free with the blanks. -/
def Clear (s : State) (turn : Turn) : Prop :=
  ∀ c ∈ s.calls[turn.call]?, turn.fails = false → ∀ a ∈ c.phase.checks c.request,
    (s.tables.getByEmail a.1).all (some ·.id = a.2) = true →
      (stripped a.1 ≠ a.1 → FreeFor s.tables a) ∧
        ∀ j d, j ≠ turn.call → s.calls[j]? = some d → ∀ b ∈ d.phase.address?, SameEmail a.1 b.1 → Compatible a b

/-- Where the call looks for no e-mail. -/
theorem Clear.of_none {s : State} {turn : Turn} {c : Call} (at_i : s.calls[turn.call]? = some c)
    (none : c.phase.checks c.request = none) : Clear s turn := fun d at_d _ a checks => by
  cases Option.some.inj (at_i.symm.trans at_d)
  rw [none] at checks
  cases checks

/-- No two users have the same e-mail but for letter case. -/
def Unambiguous (t : Tables) : Prop :=
  ∀ r ∈ t.users, ∀ r' ∈ t.users, r.live = true → r'.live = true → SameEmail r.email r'.email → r = r'

theorem SameEmail.symm {a b : String} (h : SameEmail a b) : SameEmail b a := Eq.symm h

theorem SameEmail.trans {a b c : String} (h : SameEmail a b) (h' : SameEmail b c) : SameEmail a c := Eq.trans h h'

theorem Compatible.symm {a b : Address} (h : Compatible a b) : Compatible b a := by
  obtain same | ⟨same, some⟩ := h
  · exact .inl same.symm
  · exact .inr ⟨same.symm, same ▸ some⟩

/-! ### What the check finds -/

theorem getByEmail_none {t : Tables} {email : String} (clean : stripped email = email) (free : t.getByEmail email = none)
    {r : UserRow} (mem : r ∈ t.users) (live : r.live = true) : ¬SameEmail r.email email := by
  intro same
  have clean : Text.strip email.toList = email.toList := by
    conv_rhs => rw [← clean, stripped, String.toList_ofList]
  refine List.find?_eq_none.mp (Option.map_eq_none_iff.mp free) r mem ?_
  have text : String.ofList (Text.lower r.email.toList) = Text.stripLower email := by
    rw [Text.stripLower, clean]
    exact congrArg String.ofList same
  simp only [text, decide_true, live, Bool.and_self]

/-- The user that the check finds has the e-mail but for letter case. -/
theorem getByEmail_some {t : Tables} {email : String} {u : User} (clean : stripped email = email)
    (found : t.getByEmail email = some u) : ∃ r ∈ t.users, r.live = true ∧ r.toUser = u ∧ SameEmail r.email email := by
  obtain ⟨r, at_r, rfl⟩ := Option.map_eq_some_iff.mp found
  have clean : Text.strip email.toList = email.toList := by
    conv_rhs => rw [← clean, stripped, String.toList_ofList]
  have holds := List.find?_some at_r
  simp only [Bool.and_eq_true, decide_eq_true_eq, Text.stripLower, clean] at holds
  exact ⟨r, List.mem_of_find?_eq_some at_r, holds.2, rfl, String.ofList_injective holds.1⟩

/-- An e-mail without blanks that the check finds free is free. -/
theorem freeFor_of_check {t : Tables} {a : Address} (apart : Unambiguous t) (clean : stripped a.1 = a.1)
    (free : (t.getByEmail a.1).all (some ·.id = a.2) = true) : FreeFor t a := by
  intro r mem live same
  cases found : t.getByEmail a.1 with
  | none => exact absurd same (getByEmail_none clean found mem live)
  | some u =>
    obtain ⟨r', mem', live', rfl, same'⟩ := getByEmail_some clean found
    rw [found] at free
    cases apart r mem r' mem' live live' (same.trans same'.symm)
    exact .inl (of_decide_eq_true free)

/-- The e-mail that a user has is free for him. -/
theorem freeFor_of_row {t : Tables} {r : UserRow} (apart : Unambiguous t) (mem : r ∈ t.users) (live : r.live = true) :
    FreeFor t (r.email, some r.id) := fun r' mem' live' same => .inl (by rw [apart r' mem' r mem live' live same])

/-! ### What a write does to the e-mails -/

section
variable {t t' : Tables} {email : String}

theorem Inserted.keyed (h : Inserted t t' email) (keys : t.Keyed) : t'.Keyed := by
  obtain ⟨-, row, id, -, -, users, next⟩ := h
  refine ⟨?_, fun r mem => ?_⟩
  · rw [users, List.map_append]
    refine keys.ids.append (List.nodup_singleton _) fun k mem own => ?_
    obtain ⟨r, old, rfl⟩ := List.mem_map.mp mem
    have below := keys.below r old
    have own : r.id = row.id := List.mem_singleton.mp own
    omega
  · rw [users] at mem
    rw [next]
    rcases List.mem_append.mp mem with old | new
    · exact Nat.lt_succ_of_lt (keys.below r old)
    · rw [List.mem_singleton.mp new, id]
      exact Nat.lt_succ_self _

theorem Rewritten.keyed {id : Nat} (h : Rewritten t t' id email) (keys : t.Keyed) : t'.Keyed := by
  obtain ⟨-, f, keeps, users, next⟩ := h
  have kept : (t.setRow id f).Keyed := keys.setRow fun r => (keeps r).1
  refine ⟨?_, fun r mem => ?_⟩
  · rw [users]
    exact kept.ids
  · rw [users] at mem
    rw [next]
    exact kept.below r mem

theorem Inserted.unambiguous (h : Inserted t t' email) (free : FreeFor t (email, none)) (apart : Unambiguous t) :
    Unambiguous t' := by
  obtain ⟨absent, row, -, rfl, -, users, -⟩ := h
  have new : ∀ r ∈ t.users, r.live = true → ¬SameEmail r.email row.email := fun r mem live same => by
    rcases free r mem live same with own | taken
    · cases own
    · exact absent r mem taken
  intro r mem r' mem' live live' same
  rw [users] at mem mem'
  rcases List.mem_append.mp mem with old | own
  · rcases List.mem_append.mp mem' with old' | own'
    · exact apart r old r' old' live live' same
    · rw [List.mem_singleton.mp own'] at same
      exact absurd same (new r old live)
  · rcases List.mem_append.mp mem' with old' | own'
    · rw [List.mem_singleton.mp own] at same
      exact absurd same.symm (new r' old' live')
    · exact (List.mem_singleton.mp own).trans (List.mem_singleton.mp own').symm

/-- A row after its user's was written again. -/
theorem mem_setRow {id : Nat} {f : UserRow → UserRow} {r : UserRow} (mem : r ∈ (t.setRow id f).users) :
    ∃ r₀ ∈ t.users, (r₀.id = id ∧ r = f r₀) ∨ (r₀.id ≠ id ∧ r = r₀) := by
  obtain ⟨r₀, old, rfl⟩ := List.mem_map.mp mem
  refine ⟨r₀, old, ?_⟩
  by_cases own : r₀.id = id
  · exact .inl ⟨own, if_pos own⟩
  · exact .inr ⟨own, if_neg own⟩

theorem Rewritten.unambiguous {id : Nat} (h : Rewritten t t' id email) (keys : t.Keyed) (free : FreeFor t (email, some id))
    (apart : Unambiguous t) : Unambiguous t' := by
  obtain ⟨absent, f, keeps, users, -⟩ := h
  have new : ∀ r ∈ t.users, r.id ≠ id → r.live = true → ¬SameEmail r.email email := fun r mem other live same => by
    rcases free r mem live same with own | taken
    · exact other (Option.some.inj own)
    · exact absent r mem other taken
  intro r mem r' mem' live live' same
  rw [users] at mem mem'
  obtain ⟨r₀, old, ⟨own, rfl⟩ | ⟨other, rfl⟩⟩ := mem_setRow mem
  · obtain ⟨r₀', old', ⟨own', rfl⟩ | ⟨other', rfl⟩⟩ := mem_setRow mem'
    · rw [List.inj_on_of_nodup_map keys.ids old old' (own.trans own'.symm)]
    · rw [(keeps r₀).2.1] at same
      exact absurd same.symm (new r' old' other' live')
  · obtain ⟨r₀', old', ⟨own', rfl⟩ | ⟨other', rfl⟩⟩ := mem_setRow mem'
    · rw [(keeps r₀').2.1] at same
      exact absurd same (new r old other live)
    · exact apart r old r' old' live live' same

/-- What another call is about to write stays free for it. -/
theorem Inserted.freeFor {b : Address} (h : Inserted t t' email) (free : FreeFor t b)
    (apart : SameEmail email b.1 → Compatible (email, none) b) : FreeFor t' b := by
  obtain ⟨-, row, -, rfl, -, users, -⟩ := h
  intro r mem live same
  rw [users] at mem
  rcases List.mem_append.mp mem with old | own
  · exact free r old live same
  · rw [List.mem_singleton.mp own] at same ⊢
    rcases apart same with same | ⟨-, none⟩
    · exact .inr same
    · cases none

theorem Rewritten.freeFor {id : Nat} {b : Address} (h : Rewritten t t' id email) (free : FreeFor t b)
    (apart : SameEmail email b.1 → Compatible (email, some id) b) : FreeFor t' b := by
  obtain ⟨-, f, keeps, users, -⟩ := h
  intro r mem live same
  rw [users] at mem
  obtain ⟨r₀, old, ⟨own, rfl⟩ | ⟨other, rfl⟩⟩ := mem_setRow mem
  · rw [(keeps r₀).2.1] at same ⊢
    rw [(keeps r₀).1, own]
    rcases apart same with same | ⟨same, -⟩
    · exact .inr same
    · exact .inl same
  · exact free r old live same

end

/-! ### The next statement of a call -/

/-- What a call has read of its user. -/
def Phase.Fetched : Phase → Prop
  | .found user inp => user.id = inp.userId ∧ inp.email.isSome = true
  | .tokenFound _ newEmail => stripped newEmail = newEmail
  | _ => True

/-- Where the call finds the e-mail of the address free, and what it then writes is free. -/
def Found (c : Call) (t : Tables) (a : Address) : Prop :=
  a ∈ c.phase.checks c.request ∧ (t.getByEmail a.1).all (some ·.id = a.2) = true ∧
    ((∃ user inp, c.phase = .found user inp) ∨ stripped a.1 = a.1)

/-- The address of a user's own row. -/
def OwnRow (t : Tables) (a : Address) : Prop := ∃ r ∈ t.users, r.live = true ∧ a = (r.email, some r.id)

/-- An update that has decided writes the e-mail that it was given, which it has looked for, or the one that was read. -/
theorem decideUpdate_address {t : Tables} {user : User} {inp : UpdateInput} {a : Address}
    (next : a ∈ (decideUpdate t user inp).address?) :
    (inp.email = none ∧ a = (user.email, some user.id)) ∨
      (user.isOwner = false ∧ ∃ email, inp.email = some email ∧ a = (email, some user.id) ∧
        ((t.getByEmail email).any (·.id ≠ inp.userId)) = false) := by
  unfold decideUpdate at next
  cases decided : decidedUpdates t user inp with
  | error e =>
    rw [decided] at next
    cases next
  | ok updates =>
    rw [decided] at next
    dsimp only at next
    split at next
    · cases next
    · cases next
      unfold decidedUpdates at decided
      split at decided
      · obtain ⟨-, decided⟩ := Fallible.guard_eq_ok.mp decided
        obtain ⟨only, decided⟩ := Fallible.guard_eq_ok.mp decided
        cases decided
        cases given : inp.email with
        | none => exact .inl ⟨rfl, rfl⟩
        | some email => exact absurd (by simp [given]) only
      · obtain ⟨-, decided⟩ := Fallible.guard_eq_ok.mp decided
        obtain ⟨free, decided⟩ := Fallible.guard_eq_ok.mp decided
        obtain ⟨-, decided⟩ := Fallible.guard_eq_ok.mp decided
        cases decided
        cases given : inp.email with
        | none => exact .inl ⟨rfl, rfl⟩
        | some email =>
          refine .inr ⟨Bool.eq_false_iff.mpr ‹_›, email, rfl, ?_, ?_⟩
          · show (((some email).filter (· ≠ user.email)).getD user.email, some user.id) = _
            rw [Option.filter_some]
            split
            · rfl
            · next same => rw [of_not_not fun other => same (decide_eq_true other), Option.getD_none]
          · rw [given] at free
            exact Bool.eq_false_iff.mpr free

/-- No other user is found. -/
theorem all_of_any {found : Option User} {id : Nat} (free : found.any (·.id ≠ id) = false) :
    found.all (some ·.id = some id) = true := by
  cases found with
  | none => rfl
  | some u =>
    have own : ¬u.id ≠ id := of_decide_eq_false free
    exact decide_eq_true (congrArg some (of_not_not own))

theorem checkEmail_address {t : Tables} {inp : CreateInput} {a : Address} (next : a ∈ (checkEmail t inp).address?) :
    a = (stripped inp.email, none) ∧ t.getByEmail (stripped inp.email) = none := by
  unfold checkEmail at next
  split at next
  · cases next
  · next absent =>
    cases next
    exact ⟨rfl, Option.not_isSome_iff_eq_none.mp absent⟩

theorem stripped_stripped (text : String) : stripped (stripped text) = stripped text := by
  unfold stripped
  rw [String.toList_ofList, Text.strip_strip]

/-- A statement that is no commit keeps what the call is about to write, or finds it: free, or in the user's own row. -/
theorem next_address {c : Call} {t : Tables} (fetched : c.phase.Fetched) (fails : Bool) {a : Address}
    (next : a ∈ (c.next fails t).2.address?) : a ∈ c.phase.address? ∨ (fails = false ∧ (Found c t a ∨ OwnRow t a)) := by
  unfold Call.next at next
  unfold Found
  generalize c.phase = phase at *
  cases phase with
  | waiting =>
    generalize c.request = request at *
    cases fails with
    | true => cases request <;> cases next
    | false =>
      refine .inr ⟨rfl, ?_⟩
      cases request with
      | post usage inp =>
        dsimp only [begin] at next
        split at next <;> cases next
      | create inp =>
        obtain ⟨rfl, free⟩ := checkEmail_address next
        refine .inl ⟨rfl, by rw [free]; rfl, .inr (stripped_stripped _)⟩
      | update inp =>
        refine .inr ?_
        dsimp only [begin] at next
        cases read : t.getById inp.userId with
        | none =>
          rw [read] at next
          cases next
        | some user =>
          rw [read] at next
          dsimp only at next
          obtain ⟨r, at_r, live, rfl⟩ := Tables.getById_eq_some.mp read
          split at next
          · next written =>
            obtain ⟨-, rfl⟩ | ⟨member, email, given, -, -⟩ := decideUpdate_address next
            · exact ⟨r, (Tables.row?_eq_some at_r).1, live, rfl⟩
            · rw [member, given] at written
              cases written
          · cases next
      | confirmEmailChange tokenHash now =>
        dsimp only [begin] at next
        split at next
        · cases next
        · split at next <;> cases next
  | admitted inp =>
    dsimp only at next
    split at next
    · cases next
    · obtain ⟨rfl, free⟩ := checkEmail_address next
      have runs : fails = false := Bool.eq_false_iff.mpr ‹_›
      exact .inr ⟨runs, .inl ⟨rfl, by rw [free]; rfl, .inr (stripped_stripped _)⟩⟩
  | emailFree inp =>
    dsimp only at next
    split at next
    · cases next
    · split at next
      · cases next
      · exact .inl next
  | found user inp =>
    dsimp only at next
    split at next
    · cases next
    · have runs : fails = false := Bool.eq_false_iff.mpr ‹_›
      obtain ⟨absent, -⟩ | ⟨-, email, given, rfl, free⟩ := decideUpdate_address next
      · have given := fetched.2
        rw [absent] at given
        cases given
      · refine .inr ⟨runs, .inl ⟨?_, ?_, .inl ⟨user, inp, rfl⟩⟩⟩
        · show _ ∈ inp.email.map (·, some user.id)
          rw [given]
          rfl
        · rw [fetched.1]
          exact all_of_any free
  | tokenFound user newEmail =>
    dsimp only at next
    split at next
    · cases next
    · have runs : fails = false := Bool.eq_false_iff.mpr ‹_›
      split at next
      · cases next
      · next free =>
        cases next
        exact .inr ⟨runs, .inl ⟨rfl, all_of_any (Bool.eq_false_iff.mpr free), .inr fetched⟩⟩
  | checked write =>
    dsimp only at next
    split at next
    · cases next
    · split at next <;> cases next
  | ended result => cases next

theorem decideUpdate_fetched (t : Tables) (user : User) (inp : UpdateInput) : (decideUpdate t user inp).Fetched := by
  unfold decideUpdate
  split
  · trivial
  · split <;> trivial

theorem checkEmail_fetched (t : Tables) (inp : CreateInput) : (checkEmail t inp).Fetched := by
  unfold checkEmail
  split <;> trivial

theorem begin_fetched (t : Tables) (request : Request) : (begin t request).Fetched := by
  cases request with
  | post usage inp =>
    dsimp only [begin]
    split <;> trivial
  | create inp => exact checkEmail_fetched t inp
  | update inp =>
    dsimp only [begin]
    cases read : t.getById inp.userId with
    | none => trivial
    | some user =>
      obtain ⟨r, at_r, -, rfl⟩ := Tables.getById_eq_some.mp read
      dsimp only
      split
      · exact decideUpdate_fetched t r.toUser inp
      · next other =>
        refine ⟨(Tables.row?_eq_some at_r).2, ?_⟩
        cases given : inp.email with
        | none => exact absurd (by simp [given]) other
        | some email => rfl
  | confirmEmailChange tokenHash now =>
    dsimp only [begin]
    split
    · trivial
    · split
      · trivial
      · exact stripped_stripped _

theorem next_fetched (c : Call) (fails : Bool) (t : Tables) : (c.next fails t).2.Fetched := by
  unfold Call.next
  cases c.phase with
  | waiting =>
    cases fails with
    | true => cases c.request <;> trivial
    | false => exact begin_fetched t c.request
  | admitted inp =>
    dsimp only
    split
    · trivial
    · exact checkEmail_fetched t inp
  | emailFree inp =>
    dsimp only
    split
    · trivial
    · split <;> trivial
  | found user inp =>
    dsimp only
    split
    · trivial
    · exact decideUpdate_fetched t user inp
  | tokenFound user newEmail =>
    dsimp only
    split
    · trivial
    · split <;> trivial
  | checked write =>
    dsimp only
    split
    · trivial
    · split <;> trivial
  | ended result => trivial

/-! ### Steps and runs -/

/-- What two calls are about to write is not for one e-mail in different letter case. -/
def Clash (c d : Call) : Prop :=
  ∃ a ∈ c.phase.address?, ∃ b ∈ d.phase.address?, SameEmail a.1 b.1 ∧ ¬Compatible a b

theorem Clash.symm {c d : Call} (h : Clash c d) : Clash d c := by
  obtain ⟨a, at_a, b, at_b, same, apart⟩ := h
  exact ⟨b, at_b, a, at_a, same.symm, fun compatible => apart compatible.symm⟩

/-- The e-mails are apart, and stay so when the calls under way write what they have checked. -/
structure Sound (s : State) : Prop where
  keys : s.tables.Keyed
  unambiguous : Unambiguous s.tables
  fetched : ∀ c ∈ s.calls, c.phase.Fetched
  free : ∀ c ∈ s.calls, ∀ a ∈ c.phase.address?, FreeFor s.tables a
  apart : Lists.Apart Clash s.calls

theorem Sound.compatible {s : State} {i j : Nat} {c d : Call} {a b : Address} (sound : Sound s) (at_i : s.calls[i]? = some c)
    (at_j : s.calls[j]? = some d) (other : j ≠ i) (at_a : a ∈ c.phase.address?) (at_b : b ∈ d.phase.address?)
    (same : SameEmail a.1 b.1) : Compatible a b := by
  by_contra apart
  exact other (sound.apart i j c d at_i at_j ⟨a, at_a, b, at_b, same, apart⟩).symm

/-- A commit keeps the e-mails apart, and those free that the other calls are about to write. -/
theorem commit_kept {t t' : Tables} {write : Write} (keys : t.Keyed) (apart : Unambiguous t) (free : FreeFor t write.address)
    (done : commit t write = .ok t') : t'.Keyed ∧ Unambiguous t' ∧
      ∀ b, FreeFor t b → (SameEmail write.address.1 b.1 → Compatible write.address b) → FreeFor t' b := by
  cases write with
  | insert inp =>
    have inserted := commit_insert done
    exact ⟨inserted.keyed keys, inserted.unambiguous free apart, fun _ vacant => inserted.freeFor vacant⟩
  | update user updates inp =>
    have rewritten := commit_update done
    exact ⟨rewritten.keyed keys, rewritten.unambiguous keys free apart, fun _ vacant => rewritten.freeFor vacant⟩
  | confirm user newEmail =>
    have rewritten := commit_confirm done
    exact ⟨rewritten.keyed keys, rewritten.unambiguous keys free apart, fun _ vacant => rewritten.freeFor vacant⟩

theorem Sound.commit {s : State} {i : Nat} {c : Call} {write : Write} {t' : Tables} (sound : Sound s)
    (at_i : s.calls[i]? = some c) (checked : c.phase = .checked write) (done : commit s.tables write = .ok t') :
    Sound { tables := t', calls := s.calls.set i { c with phase := .ended .done } } := by
  have at_write : write.address ∈ c.phase.address? := by rw [checked]; rfl
  obtain ⟨keys, unambiguous, kept⟩ :=
    commit_kept sound.keys sound.unambiguous (sound.free c (List.mem_of_getElem? at_i) _ at_write) done
  refine ⟨keys, unambiguous, fun d mem => ?_, fun d mem b at_b => ?_, sound.apart.set Clash.symm fun j d other at_j => ?_⟩
  · rcases List.mem_or_eq_of_mem_set mem with old | rfl
    · exact sound.fetched d old
    · trivial
  · obtain ⟨j, at_j⟩ := List.mem_iff_getElem?.mp mem
    obtain ⟨rfl, rfl⟩ | ⟨other, old⟩ := Lists.getElem?_set_cases at_j
    · cases at_b
    · exact kept b (sound.free d (List.mem_of_getElem? old) b at_b) fun same =>
        sound.compatible at_i old other at_write at_b same
  · rintro ⟨a, at_a, -⟩
    cases at_a

/-- What a call has found, or keeps, is free for it, and no other call is about to write it in other letter case for another
user. -/
theorem Sound.found {s : State} {turn : Turn} {c : Call} {a : Address} (sound : Sound s)
    (at_i : s.calls[turn.call]? = some c) (clear : Clear s turn) (next : a ∈ (c.next turn.fails s.tables).2.address?) :
    FreeFor s.tables a ∧ ∀ j d, j ≠ turn.call → s.calls[j]? = some d → ∀ b ∈ d.phase.address?, SameEmail a.1 b.1 →
      Compatible a b := by
  have mem := List.mem_of_getElem? at_i
  obtain kept | ⟨runs, ⟨checks, free, blank⟩ | ⟨r, at_r, live, rfl⟩⟩ := next_address (sound.fetched c mem) turn.fails next
  · exact ⟨sound.free c mem a kept, fun j d other at_j b at_b same => sound.compatible at_i at_j other kept at_b same⟩
  · obtain ⟨blanks, alone⟩ := clear c at_i runs a checks free
    refine ⟨?_, alone⟩
    by_cases clean : stripped a.1 = a.1
    · exact freeFor_of_check sound.unambiguous clean free
    · exact blanks clean
  · refine ⟨freeFor_of_row sound.unambiguous at_r live, fun j d other at_j b at_b same => ?_⟩
    rcases sound.free d (List.mem_of_getElem? at_j) b at_b r at_r live same with own | taken
    · exact .inr ⟨own, rfl⟩
    · exact .inl taken

theorem Sound.look {s : State} {turn : Turn} {c : Call} (sound : Sound s) (at_i : s.calls[turn.call]? = some c)
    (clear : Clear s turn) :
    Sound { tables := s.tables, calls := s.calls.set turn.call { c with phase := (c.next turn.fails s.tables).2 } } where
  keys := sound.keys
  unambiguous := sound.unambiguous
  fetched := fun d mem => by
    rcases List.mem_or_eq_of_mem_set mem with old | rfl
    · exact sound.fetched d old
    · exact next_fetched c turn.fails s.tables
  free := fun d mem a at_a => by
    rcases List.mem_or_eq_of_mem_set mem with old | rfl
    · exact sound.free d old a at_a
    · exact (sound.found at_i clear at_a).1
  apart := sound.apart.set Clash.symm fun j d other at_j ⟨_, at_a, b, at_b, same, apart⟩ =>
    apart ((sound.found at_i clear at_a).2 j d other at_j b at_b same)

theorem Sound.step {s : State} {turn : Turn} (sound : Sound s) (clear : Clear s turn) : Sound (step s turn) := by
  obtain same | ⟨c, at_i, same⟩ := step_cases s turn
  · rw [same]
    exact sound
  · rw [same]
    obtain tables | ⟨write, t', checked, done, next⟩ := c.next_tables turn.fails s.tables
    · rw [tables]
      exact sound.look at_i clear
    · rw [next]
      exact sound.commit at_i checked done

/-- The e-mails of the users differ not only in letter case, in every run in which no two calls find one e-mail free in
different letter case and for different users, and no e-mail with blanks around it hides from the check. -/
theorem emails_unambiguous (s : State) (run : List Turn) (keys : s.tables.Keyed) (start : Unambiguous s.tables)
    (waiting : ∀ c ∈ s.calls, c.phase = .waiting) (clear : Always step Clear s run) :
    Unambiguous (final step s run).tables := by
  have sound : Sound s := {
    keys := keys
    unambiguous := start
    fetched := fun c mem => by rw [waiting c mem]; trivial
    free := fun c mem a at_a => by
      rw [waiting c mem] at at_a
      cases at_a
    apart := fun i j c d at_i _ ⟨a, at_a, _⟩ => by
      rw [waiting c (List.mem_of_getElem? at_i)] at at_a
      cases at_a }
  exact (final_invariant Sound sound (fun _ _ sound clear => sound.step clear) clear).unambiguous

namespace Sample

def create (email tokenHash : String) : Call where
  request := .create { email, passwordHash := "placeholder", invite := { tokenHash, expiresAt := 100 }, now := 0 }

def creates (first second : String) : State where
  tables := {}
  calls := [create first "first", create second "second"]

/-- Both look for their e-mail before the first one writes it. -/
def interleaved : List Turn := [0, 1, 0, 0, 1, 1].map fun call => { call }

theorem creates_waiting (first second : String) : ∀ c ∈ (creates first second).calls, c.phase = .waiting := by
  intro c mem
  rcases List.mem_cons.mp mem with rfl | mem
  · rfl
  · cases List.mem_singleton.mp mem
    rfl

theorem nothing_checked {j : Nat} {d : Call} (at_j : (creates "anna@nyz.hu" "bea@nyz.hu").calls[j]? = some d) :
    d.phase.address? = none := by
  rw [creates_waiting _ _ d (List.mem_of_getElem? at_j)]
  rfl

theorem empty_keyed : Tables.Keyed {} := ⟨List.nodup_nil, fun _ mem => nomatch mem⟩

end Sample

/-- Two creates at the same time. -/
theorem two_created : Unambiguous (final step (Sample.creates "anna@nyz.hu" "bea@nyz.hu") Sample.interleaved).tables := by
  refine emails_unambiguous _ Sample.interleaved Sample.empty_keyed (fun _ mem => nomatch mem) (Sample.creates_waiting _ _)
    ⟨?_, ?_, Clear.of_none rfl rfl, Clear.of_none rfl rfl, Clear.of_none rfl rfl, Clear.of_none rfl rfl, trivial⟩
  · rintro c at_c - a checks -
    cases at_c
    cases checks
    refine ⟨fun blanks => absurd (by decide) blanks, fun j d _ at_j b at_b => ?_⟩
    rw [Sample.nothing_checked at_j] at at_b
    cases at_b
  · rintro c at_c - a checks -
    cases at_c
    cases checks
    refine ⟨fun blanks => absurd (by decide) blanks, fun j d other at_j b at_b same => ?_⟩
    cases j with
    | zero =>
      cases at_j
      cases at_b
      exact absurd same (by unfold SameEmail; decide)
    | succ j =>
      cases j with
      | zero => exact absurd rfl other
      | succ j => cases at_j

/-- Two creates at the same time, of one e-mail in different letter case. -/
theorem letter_case_created : Unambiguous (Sample.creates "anna@nyz.hu" "Anna@nyz.hu").tables ∧
    ¬Unambiguous (final step (Sample.creates "anna@nyz.hu" "Anna@nyz.hu") Sample.interleaved).tables := by
  refine ⟨fun _ mem => (nomatch mem), fun apart => ?_⟩
  have same := apart _ (List.mem_cons_self) _ (List.mem_cons_of_mem _ List.mem_cons_self) rfl rfl
    (by unfold SameEmail; decide)
  exact absurd same (by decide)

end NyzRating.Users.Concurrent
