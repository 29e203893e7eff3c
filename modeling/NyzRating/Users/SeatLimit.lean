import NyzRating.Users.Concurrent

/-!
# The seats of a plan

`POST /users` counts the users before it creates one. The count and the insert are two transactions, and a check that fails
counts as passed: what is kept is that the users and the requests that have passed are together no more than the seats,
as long as each request passes while one is free.
-/

namespace NyzRating.Users.Concurrent

open Runs

/-- A request has passed the check of the seats, and its user is not there yet. -/
def Phase.holdsSeat : Phase → Bool
  | .admitted _ | .emailFree _ | .checked (.insert _) => true
  | _ => false

def Call.holdsSeat (c : Call) : Bool := c.phase.holdsSeat

/-- The users, and those that the requests under way may still create. -/
def State.seats (s : State) : Nat := s.tables.userCount + s.calls.countP (·.holdsSeat)

/-- Requests of a tenant whose plan has `maxUsers` seats. -/
def Posts (maxUsers : Int) (s : State) : Prop :=
  ∀ c ∈ s.calls, ∃ usage inp, c.request = .post usage inp ∧ usage.maxUsers = some maxUsers

/-- The check of the seats lets the request through, also where it fails. -/
def Passes (usage : UsageLimits) (maxUsers : Int) (fails : Bool) (t : Tables) : Prop :=
  fails = true ∨ (usage.notRestricted.1 = true ∧ (t.userCount : Int) < maxUsers)

/-- Where the check lets a request through, one of the seats is free. -/
def SeatFree (maxUsers : Int) (s : State) (turn : Turn) : Prop :=
  ∀ c ∈ s.calls[turn.call]?, c.phase = .waiting → ∀ usage inp, c.request = .post usage inp →
    Passes usage maxUsers turn.fails s.tables → (s.seats : Int) < maxUsers

theorem SeatFree.of_begun {maxUsers : Int} {s : State} {turn : Turn} {c : Call} (at_i : s.calls[turn.call]? = some c)
    (begun : c.phase ≠ .waiting) : SeatFree maxUsers s turn := fun d at_d waits => by
  have same : c = d := Option.some.inj (at_i.symm.trans at_d)
  exact absurd (same ▸ waits) begun

/-! ### Users and seats -/

/-- An insert takes one seat. -/
theorem Inserted.userCount {t t' : Tables} {email : String} (h : Inserted t t' email) : t'.userCount = t.userCount + 1 := by
  obtain ⟨-, row, -, -, live, users, -⟩ := h
  rw [Tables.userCount, users, List.countP_append, List.countP_singleton, if_pos live]
  rfl

/-- A row written again takes none. -/
theorem Rewritten.userCount {t t' : Tables} {id : Nat} {email : String} (h : Rewritten t t' id email) :
    t'.userCount = t.userCount := by
  obtain ⟨-, f, keeps, users, -⟩ := h
  rw [Tables.userCount, users]
  show (t.users.map _).countP _ = _
  rw [List.countP_map]
  refine List.countP_congr fun r _ => ?_
  rw [Function.comp_apply]
  split
  · rw [(keeps r).2.2]
  · rfl

/-- The seats of one call: its own under way. -/
def Call.seats (c : Call) : Nat := if c.holdsSeat then 1 else 0

theorem commit_seats {c : Call} {write : Write} {t t' : Tables} (checked : c.phase = .checked write)
    (done : commit t write = .ok t') : t'.userCount ≤ t.userCount + c.seats := by
  cases write with
  | insert inp =>
    have admitted : c.seats = 1 := by
      unfold Call.seats Call.holdsSeat
      rw [checked]
      rfl
    rw [(commit_insert done).userCount, admitted]
  | update user updates inp =>
    rw [(commit_update done).userCount]
    exact Nat.le_add_right _ _
  | confirm user newEmail =>
    rw [(commit_confirm done).userCount]
    exact Nat.le_add_right _ _

/-- A request that waits gets in where the check lets it through. -/
theorem waiting_post {c : Call} (fails : Bool) (t : Tables) {maxUsers : Int} {usage : UsageLimits} {inp : CreateInput}
    (waits : c.phase = .waiting) (post : c.request = .post usage inp) (max : usage.maxUsers = some maxUsers) :
    (c.next fails t = (t, .admitted inp) ∧ Passes usage maxUsers fails t) ∨
      ∃ reason, c.next fails t = (t, .ended (.refused reason)) := by
  unfold Call.next Passes
  rw [waits, post]
  cases fails with
  | true => exact .inl ⟨rfl, .inl rfl⟩
  | false =>
    dsimp only [begin, canCreateUser]
    rw [max]
    cases usage.notRestricted with
    | mk allowed message =>
      cases allowed with
      | false => exact .inr ⟨message, rfl⟩
      | true =>
        by_cases full : maxUsers ≤ t.userCount
        · refine .inr ⟨some ("Elérted a csomagban engedélyezett felhasználói limitet (" ++ toString maxUsers ++ ")."), ?_⟩
          dsimp only
          rw [if_neg Bool.true_eq_false.mp, if_pos full]
        · refine .inl ⟨?_, .inr ⟨rfl, Int.not_le.mp full⟩⟩
          dsimp only
          rw [if_neg Bool.true_eq_false.mp, if_neg full]

theorem decideUpdate_holdsSeat (t : Tables) (user : User) (inp : UpdateInput) : (decideUpdate t user inp).holdsSeat = false := by
  unfold decideUpdate
  split
  · rfl
  · split <;> rfl

/-- Nothing but the check of a request that waits lets it in. -/
theorem holdsSeat_of_next {c : Call} {fails : Bool} {t : Tables} (begun : c.phase ≠ .waiting)
    (holds : (c.next fails t).2.holdsSeat = true) : c.holdsSeat = true := by
  unfold Call.holdsSeat
  cases at_phase : c.phase with
  | waiting => exact absurd at_phase begun
  | admitted inp => rfl
  | emailFree inp => rfl
  | found user inp =>
    unfold Call.next at holds
    rw [at_phase] at holds
    dsimp only at holds
    split at holds
    · cases holds
    · rw [decideUpdate_holdsSeat] at holds
      cases holds
  | tokenFound user newEmail =>
    unfold Call.next at holds
    rw [at_phase] at holds
    dsimp only at holds
    split at holds
    · cases holds
    · split at holds <;> cases holds
  | checked write =>
    unfold Call.next at holds
    rw [at_phase] at holds
    dsimp only at holds
    split at holds
    · cases holds
    · split at holds <;> cases holds
  | ended result =>
    unfold Call.next at holds
    rw [at_phase] at holds
    cases holds

/-- Where a request does not wait for its check, a step of it takes no seat. -/
theorem next_seats {c : Call} (fails : Bool) (t : Tables) (begun : c.phase ≠ .waiting) :
    (c.next fails t).1.userCount + Call.seats { c with phase := (c.next fails t).2 } ≤ t.userCount + c.seats := by
  obtain same | ⟨write, t', checked, done, next⟩ := c.next_tables fails t
  · rw [same]
    refine Nat.add_le_add_left ?_ _
    unfold Call.seats
    split
    · next holds => rw [if_pos (holdsSeat_of_next begun holds)]
    · exact Nat.zero_le _
  · rw [next]
    exact commit_seats checked done

/-! ### Steps and runs -/

/-- The seats after a step of one call. -/
theorem seats_set {s : State} {i : Nat} {c : Call} (t : Tables) (c' : Call) (at_i : s.calls[i]? = some c) :
    State.seats { tables := t, calls := s.calls.set i c' } + c.seats =
      t.userCount + s.calls.countP (·.holdsSeat) + c'.seats := by
  obtain ⟨lt, rfl⟩ := List.getElem?_eq_some_iff.mp at_i
  have there : s.calls[i].seats ≤ s.calls.countP (·.holdsSeat) := by
    unfold Call.seats
    split
    · next holds => exact List.countP_pos_iff.mpr ⟨_, List.getElem_mem lt, holds⟩
    · exact Nat.zero_le _
  have count : (s.calls.set i c').countP (·.holdsSeat) = s.calls.countP (·.holdsSeat) - s.calls[i].seats + c'.seats :=
    List.countP_set lt
  show t.userCount + (s.calls.set i c').countP (·.holdsSeat) + s.calls[i].seats = _
  rw [count]
  omega

theorem Posts.step {maxUsers : Int} {s : State} (posts : Posts maxUsers s) (turn : Turn) : Posts maxUsers (step s turn) := by
  rcases step_cases s turn with same | ⟨c, at_i, same⟩
  · rw [same]
    exact posts
  · rw [same]
    intro d mem
    rcases List.mem_or_eq_of_mem_set mem with old | rfl
    · exact posts d old
    · exact posts c (List.mem_of_getElem? at_i)

theorem seats_step {maxUsers : Int} {s : State} {turn : Turn} (posts : Posts maxUsers s) (kept : (s.seats : Int) ≤ maxUsers)
    (free : SeatFree maxUsers s turn) : ((step s turn).seats : Int) ≤ maxUsers := by
  rcases step_cases s turn with same | ⟨c, at_i, same⟩
  · rw [same]
    exact kept
  · have after := seats_set (c.next turn.fails s.tables).1 { c with phase := (c.next turn.fails s.tables).2 } at_i
    have seats : s.seats = s.tables.userCount + s.calls.countP (·.holdsSeat) := rfl
    rw [same]
    by_cases waits : c.phase = .waiting
    · obtain ⟨usage, inp, post, max⟩ := posts c (List.mem_of_getElem? at_i)
      obtain ⟨next, passes⟩ | ⟨reason, next⟩ := waiting_post turn.fails s.tables waits post max
      · have one := free c at_i waits usage inp post passes
        rw [next] at after ⊢
        dsimp only at after ⊢
        have taken : Call.seats { c with phase := .admitted inp } = 1 := rfl
        rw [taken] at after
        omega
      · rw [next] at after ⊢
        dsimp only at after ⊢
        have none : Call.seats { c with phase := .ended (.refused reason) } = 0 := rfl
        rw [none] at after
        omega
    · have le := next_seats turn.fails s.tables waits
      omega

/-- Before the first check, the seats are the users. -/
theorem seats_start {s : State} (waiting : ∀ c ∈ s.calls, c.phase = .waiting) : s.seats = s.tables.userCount := by
  unfold State.seats
  rw [List.countP_eq_zero.mpr]
  · rfl
  · intro c mem
    unfold Call.holdsSeat
    rw [waiting c mem]
    exact Bool.false_ne_true

/-- No more users than seats, in every run in which each request passes the check while a seat is free. -/
theorem users_within_seats (maxUsers : Int) (s : State) (run : List Turn) (posts : Posts maxUsers s)
    (waiting : ∀ c ∈ s.calls, c.phase = .waiting) (start : (s.tables.userCount : Int) ≤ maxUsers)
    (free : Always step (SeatFree maxUsers) s run) : ((final step s run).tables.userCount : Int) ≤ maxUsers := by
  have kept : Posts maxUsers (final step s run) ∧ ((final step s run).seats : Int) ≤ maxUsers :=
    final_invariant (fun s => Posts maxUsers s ∧ (s.seats : Int) ≤ maxUsers) ⟨posts, by rw [seats_start waiting]; exact start⟩
      (fun _ turn ⟨posts, kept⟩ free => ⟨posts.step turn, seats_step posts kept free⟩) free
  have le : (final step s run).tables.userCount ≤ (final step s run).seats := Nat.le_add_right _ _
  omega

namespace Sample

/-- The owner of the tenant. -/
def owner : UserRow := { id := 1, email := "owner@nyz.hu", passwordHash := "hash", isActive := true, role := "owner" }

def post (email tokenHash : String) : Call where
  request := .post { maxUsers := some 2 }
    { email, passwordHash := "placeholder", invite := { tokenHash, expiresAt := 100 }, now := 0 }

/-- One of two seats is free, and two requests want it. -/
def start : State where
  tables := { users := [owner], nextUserId := 2 }
  calls := [post "anna@nyz.hu" "first", post "bea@nyz.hu" "second"]

def turns (calls : List Nat) : List Turn := calls.map fun call => { call }

theorem start_posts : Posts 2 start := by
  intro c mem
  rcases List.mem_cons.mp mem with rfl | mem
  · exact ⟨_, _, rfl, rfl⟩
  · cases List.mem_singleton.mp mem
    exact ⟨_, _, rfl, rfl⟩

theorem start_waiting : ∀ c ∈ start.calls, c.phase = .waiting := by
  intro c mem
  rcases List.mem_cons.mp mem with rfl | mem
  · rfl
  · cases List.mem_singleton.mp mem
    rfl

end Sample

/-- One request after the other: the second one finds the seats taken. -/
theorem second_refused :
    ((final step Sample.start (Sample.turns [0, 0, 0, 0, 1])).tables.userCount : Int) ≤ 2 := by
  refine users_within_seats 2 Sample.start (Sample.turns [0, 0, 0, 0, 1]) Sample.start_posts Sample.start_waiting (by decide)
    ⟨?_, ?_, ?_, ?_, ?_, trivial⟩
  · exact fun _ _ _ _ _ _ _ => by decide
  · exact SeatFree.of_begun (c := { Sample.post "anna@nyz.hu" "first" with phase := _ }) rfl nofun
  · exact SeatFree.of_begun (c := { Sample.post "anna@nyz.hu" "first" with phase := _ }) rfl nofun
  · exact SeatFree.of_begun (c := { Sample.post "anna@nyz.hu" "first" with phase := _ }) rfl nofun
  · rintro c - - usage inp - (failed | ⟨-, free⟩)
    · exact absurd failed Bool.false_ne_true
    · exact absurd free (by decide)

/-- Both requests are counted before the first one inserts its user. -/
theorem both_inserted : Posts 2 Sample.start ∧ (∀ c ∈ Sample.start.calls, c.phase = .waiting) ∧
    (Sample.start.tables.userCount : Int) ≤ 2 ∧
    ¬((final step Sample.start (Sample.turns [0, 1, 0, 0, 0, 1, 1, 1])).tables.userCount : Int) ≤ 2 :=
  ⟨Sample.start_posts, Sample.start_waiting, by decide, by decide⟩

end NyzRating.Users.Concurrent
