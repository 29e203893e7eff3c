import Mathlib.Data.List.Pairwise
import NyzRating.Events.Outbox
import NyzRating.Lib.Lists
import NyzRating.Lib.Run

/-!
# An event is published once

`append` looks its key up, inserts the row, commits, and looks the key up again when the unique index refuses the row. Any
number of calls take these steps interleaved, each in a transaction of its own that reads what is committed.
-/

namespace NyzRating.Events.PublishOnce

open Runs

/-! ### Calls, step by step -/

structure Call where
  eventType : String
  idempotencyKey : Option String
  now : Int
  /-- `json.dumps` takes the payload. -/
  serializable : Bool := true
  /-- The column takes what it has written. -/
  storable : Bool := true

namespace Call

def key (c : Call) : Option String := nonBlank c.idempotencyKey

/-- The columns take the values: 64 characters of the type, blanks after them apart, and 128 of the key. -/
def fits (c : Call) : Bool :=
  c.storable && (c.eventType.toList.drop 64).all (· = ' ') && c.key.all (·.length ≤ 128)

def row (c : Call) (id : Nat) : OutboxRow :=
  { id, eventType := String.ofList (c.eventType.toList.take 64), nextRetryAt := c.now, idempotencyKey := c.key }

@[simp] theorem row_id (c : Call) (id : Nat) : (c.row id).id = id := rfl

@[simp] theorem row_idempotencyKey (c : Call) (id : Nat) : (c.row id).idempotencyKey = c.key := by
  rw [row]

end Call

inductive Phase where
  | waiting
  /-- There was no row with the key. -/
  | checked
  /-- The row is in the table, and not yet committed. -/
  | inserted (row : OutboxRow)
  /-- `IntegrityError`; rolled back. -/
  | refused
  | returned (row : OutboxRow)
  | raised
  deriving DecidableEq

namespace Phase

/-- The row of the open transaction. -/
def openRow : Phase → Option OutboxRow
  | .inserted row => some row
  | _ => none

def ended : Phase → Bool
  | .returned _ | .raised => true
  | _ => false

end Phase

/-- The committed rows, the rows of open transactions, and the sequence of the ids. -/
structure State where
  rows : List OutboxRow
  nextId : Nat
  pending : List OutboxRow := []
  phase : Nat → Phase := fun _ => .waiting

def find (key : Option String) (rows : List OutboxRow) : Option OutboxRow := rows.find? (·.idempotencyKey = key)

/-- What a worker writes to a row. -/
structure Update where
  change : OutboxRow → OutboxRow
  keepsId : ∀ r, (change r).id = r.id
  keepsKey : ∀ r, (change r).idempotencyKey = r.idempotencyKey

inductive Event where
  | call (i : Nat)
  | work (eventId : Nat) (update : Update)

def State.move (s : State) (i : Nat) (phase : Phase) : State := { s with phase := Function.update s.phase i phase }

/-- The next step of call `i`. An insert waits for an open transaction that has inserted the same key. -/
def advance (c : Call) (s : State) (i : Nat) : State :=
  match s.phase i with
  | .waiting =>
    if !c.serializable then s.move i .raised
    else if c.key = none then s.move i .checked
    else
      match find c.key s.rows with
      | some existing => s.move i (.returned existing)
      | none => s.move i .checked
  | .checked =>
    if !c.fits then s.move i .raised
    else if c.key ≠ none ∧ (find c.key s.rows).isSome then { s with nextId := s.nextId + 1 }.move i .refused
    else if c.key ≠ none ∧ (find c.key s.pending).isSome then s
    else
      let row := c.row s.nextId
      { s with pending := s.pending ++ [row], nextId := s.nextId + 1 }.move i (.inserted row)
  | .inserted row =>
    { s with rows := s.rows ++ [row], pending := s.pending.filter (·.id ≠ row.id) }.move i (.returned row)
  | .refused =>
    if c.key = none then s.move i .raised
    else
      match find c.key s.rows with
      | some existing => s.move i (.returned existing)
      | none => s.move i .raised
  | .returned _ | .raised => s

def step (input : Nat → Call) (s : State) : Event → State
  | .call i => advance (input i) s i
  | .work eventId update => { s with rows := updateRow eventId update.change s.rows }

/-! ### The invariant -/

/-- The primary key and the unique index. -/
def Apart (r r' : OutboxRow) : Prop := r.id ≠ r'.id ∧ (r.idempotencyKey ≠ none → r.idempotencyKey ≠ r'.idempotencyKey)

instance (r r' : OutboxRow) : Decidable (Apart r r') := inferInstanceAs (Decidable (_ ∧ _))

/-- The row of this id, with the key of the call, is committed. -/
def Stored (c : Call) (rows : List OutboxRow) (id : Nat) : Prop := ∃ r ∈ rows, r.id = id ∧ r.idempotencyKey = c.key

/-- What a call in this phase relies on. -/
def Backed (c : Call) (s : State) : Phase → Prop
  | .waiting | .checked => True
  | .inserted row => row ∈ s.pending ∧ row.idempotencyKey = c.key
  | .refused => c.key ≠ none ∧ ∃ r ∈ s.rows, r.idempotencyKey = c.key
  | .returned row => Stored c s.rows row.id
  | .raised => (c.serializable && c.fits) = false

structure Sound (input : Nat → Call) (s : State) : Prop where
  apart : (s.rows ++ s.pending).Pairwise Apart
  below : ∀ r ∈ s.rows ++ s.pending, r.id < s.nextId
  owned : ∀ r ∈ s.pending, ∃ i, s.phase i = .inserted r
  owner : ∀ i j r r', s.phase i = .inserted r → s.phase j = .inserted r' → r.id = r'.id → i = j
  backed : ∀ i, Backed (input i) s (s.phase i)

section
variable {input : Nat → Call} {s : State} {i : Nat}

theorem Apart.symm {r r' : OutboxRow} (h : Apart r r') : Apart r' r :=
  ⟨h.1.symm, fun some same => h.2 (same ▸ some) same.symm⟩

instance : Std.Symm Apart := ⟨fun _ _ => Apart.symm⟩

theorem find_some {key : Option String} {rows : List OutboxRow} {row : OutboxRow} (h : find key rows = some row) :
    row ∈ rows ∧ row.idempotencyKey = key :=
  ⟨List.mem_of_find?_eq_some h, by simpa using List.find?_some h⟩

theorem find_none {key : Option String} {rows : List OutboxRow} (h : find key rows = none) :
    ∀ row ∈ rows, row.idempotencyKey ≠ key := by
  simpa [find] using h

@[simp] theorem move_phase (phase : Phase) : (s.move i phase).phase i = phase := Function.update_self ..

theorem move_phase_of_ne {j : Nat} (other : j ≠ i) (phase : Phase) : (s.move i phase).phase j = s.phase j :=
  Function.update_of_ne other ..

theorem ne_of_closed {j : Nat} {r : OutboxRow} (closed : (s.phase i).openRow = none) (held : s.phase j = .inserted r) :
    j ≠ i := by
  rintro rfl
  rw [held] at closed
  cases closed

/-- A call moves to a phase in which it has no open row. -/
theorem Sound.move (h : Sound input s) {phase : Phase} (closed : (s.phase i).openRow = none) (next : phase.openRow = none)
    (backed : Backed (input i) s phase) : Sound input (s.move i phase) where
  apart := h.apart
  below := h.below
  owned r mem := by
    obtain ⟨j, held⟩ := h.owned r mem
    exact ⟨j, (move_phase_of_ne (ne_of_closed closed held) phase).trans held⟩
  owner j k r r' hj hk same := by
    have other : j ≠ i := by
      rintro rfl
      rw [move_phase] at hj
      cases hj
      cases next
    have other' : k ≠ i := by
      rintro rfl
      rw [move_phase] at hk
      cases hk
      cases next
    rw [move_phase_of_ne other] at hj
    rw [move_phase_of_ne other'] at hk
    exact h.owner j k r r' hj hk same
  backed j := by
    by_cases same : j = i
    · subst same
      rw [move_phase]
      exact backed
    · rw [move_phase_of_ne same]
      exact h.backed j

/-- An id of the sequence that no row takes. -/
theorem Sound.skipId (h : Sound input s) : Sound input { s with nextId := s.nextId + 1 } :=
  ⟨h.apart, fun r mem => (h.below r mem).trans (Nat.lt_succ_self _), h.owned, h.owner, h.backed⟩

/-- A row that neither the committed nor the open rows exclude. -/
theorem Sound.insert (h : Sound input s) (closed : (s.phase i).openRow = none) {row : OutboxRow} (id : row.id = s.nextId)
    (key : row.idempotencyKey = (input i).key)
    (unused : (input i).key = none ∨ find (input i).key s.rows = none)
    (unheld : (input i).key = none ∨ find (input i).key s.pending = none) :
    Sound input ({ s with pending := s.pending ++ [row], nextId := s.nextId + 1 }.move i (.inserted row)) := by
  have new : ∀ r ∈ s.rows ++ s.pending, Apart r row := by
    refine fun r mem => ⟨by rw [id]; exact (h.below r mem).ne, fun some same => ?_⟩
    rw [key] at same
    have keyed : (input i).key ≠ none := by rw [← same]; exact some
    obtain committed | held := List.mem_append.mp mem
    · exact find_none (unused.resolve_left keyed) r committed same
    · exact find_none (unheld.resolve_left keyed) r held same
  have held : ∀ j r, s.phase j = .inserted r → r.id ≠ s.nextId := by
    intro j r inserted
    have backed := h.backed j
    rw [inserted] at backed
    exact (h.below r (List.mem_append_right _ backed.1)).ne
  constructor
  · change (s.rows ++ (s.pending ++ [row])).Pairwise Apart
    rw [← List.append_assoc, List.pairwise_append]
    exact ⟨h.apart, List.pairwise_singleton .., fun r mem r' mem' => List.mem_singleton.mp mem' ▸ new r mem⟩
  · intro r mem
    change r ∈ s.rows ++ (s.pending ++ [row]) at mem
    rw [← List.append_assoc, List.mem_append, List.mem_singleton] at mem
    obtain old | rfl := mem
    · exact (h.below r old).trans (Nat.lt_succ_self _)
    · exact id ▸ Nat.lt_succ_self _
  · intro r mem
    obtain old | last := List.mem_append.mp mem
    · obtain ⟨j, held⟩ := h.owned r old
      exact ⟨j, (move_phase_of_ne (ne_of_closed closed held) _).trans held⟩
    · exact ⟨i, by rw [move_phase, List.mem_singleton.mp last]⟩
  · intro j k r r' hj hk same
    by_cases hji : j = i <;> by_cases hki : k = i
    · rw [hji, hki]
    · rw [hji, move_phase] at hj
      rw [move_phase_of_ne hki] at hk
      cases hj
      exact absurd (same.symm.trans id) (held k r' hk)
    · rw [hki, move_phase] at hk
      rw [move_phase_of_ne hji] at hj
      cases hk
      exact absurd (same.trans id) (held j r hj)
    · rw [move_phase_of_ne hji] at hj
      rw [move_phase_of_ne hki] at hk
      exact h.owner j k r r' hj hk same
  · intro j
    by_cases same : j = i
    · subst same
      rw [move_phase]
      exact ⟨List.mem_append_right _ (List.mem_singleton_self _), key⟩
    · rw [move_phase_of_ne same]
      have backed := h.backed j
      cases phase : s.phase j with
      | inserted row =>
        rw [phase] at backed
        exact ⟨List.mem_append_left _ backed.1, backed.2⟩
      | _ =>
        rw [phase] at backed
        exact backed

/-- The commit of an open row. -/
theorem Sound.commit (h : Sound input s) {row : OutboxRow} (held : s.phase i = .inserted row) :
    Sound input ({ s with rows := s.rows ++ [row], pending := s.pending.filter (·.id ≠ row.id) }.move i (.returned row)) := by
  have backed := h.backed i
  rw [held] at backed
  obtain ⟨mem, key⟩ := backed
  have apart : s.pending.Pairwise Apart := (List.pairwise_append.mp h.apart).2.1
  have perm : (s.rows ++ s.pending).Perm ((s.rows ++ [row]) ++ s.pending.filter (·.id ≠ row.id)) := by
    have nodup : s.pending.Nodup := apart.imp fun h same => h.1 (congrArg OutboxRow.id same)
    have others : s.pending.filter (·.id ≠ row.id) = s.pending.erase row := by
      rw [nodup.erase_eq_filter]
      refine List.filter_congr fun r hr => ?_
      have same : r.id = row.id ↔ r = row :=
        ⟨fun id => by_contra fun ne => (apart.forall hr mem ne).1 id, congrArg OutboxRow.id⟩
      simp only [same, ne_eq, decide_not, bne]
      rfl
    rw [others, List.append_assoc]
    exact (List.perm_cons_erase mem).append_left s.rows
  constructor
  · exact (perm.pairwise_iff Apart.symm).mp h.apart
  · exact fun r mem => h.below r (perm.mem_iff.mpr mem)
  · intro r mem
    obtain ⟨mem, other⟩ := List.mem_filter.mp mem
    obtain ⟨j, inserted⟩ := h.owned r mem
    have ne : j ≠ i := by
      rintro rfl
      rw [held] at inserted
      cases inserted
      simp at other
    exact ⟨j, (move_phase_of_ne ne _).trans inserted⟩
  · intro j k r r' hj hk same
    have other : ∀ j r, (s.move i (.returned row)).phase j = .inserted r → s.phase j = .inserted r := by
      intro j r inserted
      have ne : j ≠ i := by
        rintro rfl
        rw [move_phase] at inserted
        cases inserted
      rwa [move_phase_of_ne ne] at inserted
    exact h.owner j k r r' (other j r hj) (other k r' hk) same
  · intro j
    by_cases same : j = i
    · subst same
      rw [move_phase]
      exact ⟨row, List.mem_append_right _ (List.mem_singleton_self _), rfl, key⟩
    · rw [move_phase_of_ne same]
      have backed := h.backed j
      cases phase : s.phase j with
      | inserted r =>
        rw [phase] at backed
        refine ⟨List.mem_filter.mpr ⟨backed.1, ?_⟩, backed.2⟩
        simpa using fun id => same (h.owner j i r row phase held id)
      | refused =>
        rw [phase] at backed
        obtain ⟨some, r, mem, key⟩ := backed
        exact ⟨some, r, List.mem_append_left _ mem, key⟩
      | returned r =>
        rw [phase] at backed
        obtain ⟨stored, mem, same⟩ := backed
        exact ⟨stored, List.mem_append_left _ mem, same⟩
      | _ =>
        rw [phase] at backed
        exact backed

/-- A worker's write. -/
theorem Sound.work (h : Sound input s) (eventId : Nat) (update : Update) :
    Sound input { s with rows := updateRow eventId update.change s.rows } := by
  let write (r : OutboxRow) : OutboxRow := if r.id = eventId then update.change r else r
  have keeps : ∀ r, (write r).id = r.id ∧ (write r).idempotencyKey = r.idempotencyKey := by
    intro r
    simp only [write]
    split
    · exact ⟨update.keepsId r, update.keepsKey r⟩
    · exact ⟨rfl, rfl⟩
  have stored : ∀ r ∈ s.rows, ∃ r' ∈ s.rows.map write, r'.id = r.id ∧ r'.idempotencyKey = r.idempotencyKey :=
    fun r mem => ⟨write r, List.mem_map_of_mem mem, keeps r⟩
  constructor
  · change (s.rows.map write ++ s.pending).Pairwise Apart
    obtain ⟨rows, pending, between⟩ := List.pairwise_append.mp h.apart
    refine List.pairwise_append.mpr ⟨List.pairwise_map.mpr (rows.imp fun {r r'} apart => ?_), pending, fun r mem r' mem' => ?_⟩
    · simpa only [Apart, keeps] using apart
    · obtain ⟨old, held, rfl⟩ := List.mem_map.mp mem
      simpa only [Apart, keeps] using between old held r' mem'
  · intro r mem
    obtain mem | mem := List.mem_append.mp mem
    · obtain ⟨old, held, rfl⟩ := List.mem_map.mp mem
      change (write old).id < s.nextId
      rw [(keeps old).1]
      exact h.below old (List.mem_append_left _ held)
    · exact h.below r (List.mem_append_right _ mem)
  · exact h.owned
  · exact h.owner
  · intro j
    have backed := h.backed j
    change Backed (input j) _ (s.phase j)
    cases phase : s.phase j with
    | refused =>
      rw [phase] at backed
      obtain ⟨some, r, mem, key⟩ := backed
      obtain ⟨r', mem', -, same⟩ := stored r mem
      exact ⟨some, r', mem', same.trans key⟩
    | returned row =>
      rw [phase] at backed
      obtain ⟨r, mem, id, key⟩ := backed
      obtain ⟨r', mem', id', same⟩ := stored r mem
      exact ⟨r', mem', id'.trans id, same.trans key⟩
    | _ =>
      rw [phase] at backed
      exact backed

theorem Sound.step (h : Sound input s) (e : Event) : Sound input (step input s e) := by
  cases e with
  | work eventId update => exact h.work eventId update
  | call i =>
    simp only [PublishOnce.step, advance]
    have backed := h.backed i
    cases phase : s.phase i with
    | waiting =>
      have closed : (s.phase i).openRow = none := by rw [phase]; rfl
      dsimp only
      split
      · next unserializable =>
        have no : (input i).serializable = false := by simpa using unserializable
        exact h.move closed rfl (by rw [Backed, no, Bool.false_and])
      · split
        · exact h.move closed rfl trivial
        · split
          · next existing found =>
            obtain ⟨mem, key⟩ := find_some found
            exact h.move closed rfl ⟨existing, mem, rfl, key⟩
          · exact h.move closed rfl trivial
    | checked =>
      have closed : (s.phase i).openRow = none := by rw [phase]; rfl
      dsimp only
      split
      · next unfit =>
        have no : (input i).fits = false := by simpa using unfit
        exact h.move closed rfl (by rw [Backed, no, Bool.and_false])
      · split
        · next taken =>
          obtain ⟨row, found⟩ := Option.isSome_iff_exists.mp taken.2
          exact h.skipId.move closed rfl ⟨taken.1, row, find_some found⟩
        · next free =>
          split
          · exact h
          · next unheld =>
            simp only [ne_eq, not_and, Option.not_isSome_iff_eq_none, ← or_iff_not_imp_left] at free unheld
            exact h.insert closed (Call.row_id ..) (Call.row_idempotencyKey ..) free unheld
    | inserted row => exact h.commit phase
    | refused =>
      have closed : (s.phase i).openRow = none := by rw [phase]; rfl
      rw [phase] at backed
      obtain ⟨some, r, mem, key⟩ := backed
      dsimp only
      rw [if_neg some]
      cases found : find (input i).key s.rows with
      | some existing =>
        obtain ⟨mem, key⟩ := find_some found
        exact h.move closed rfl ⟨existing, mem, rfl, key⟩
      | none => exact absurd key (find_none found r mem)
    | returned | raised => exact h

/-! ### Alone -/

/-- Uninterrupted, a call whose row the table can hold is `append`. -/
theorem append_alone (input : Nat → Call) (i : Nat) (rows : List OutboxRow) (nextId : Nat)
    (serializable : (input i).serializable = true) (fits : (input i).fits = true)
    (short : (input i).eventType.toList.length ≤ 64) :
    (final (step input) { rows, nextId } [.call i, .call i, .call i]).rows =
      append nextId (input i).eventType (input i).idempotencyKey (input i).now rows := by
  have row : (input i).row nextId =
      { id := nextId, eventType := (input i).eventType, nextRetryAt := (input i).now, idempotencyKey := (input i).key } := by
    rw [Call.row, List.take_of_length_le short, String.ofList_toList]
  have taken : rows.any (·.idempotencyKey = (input i).key) = (find (input i).key rows).isSome := by
    rw [find, List.isSome_find?]
  rw [append, show nonBlank (input i).idempotencyKey = (input i).key from rfl, ← row, taken]
  cases key : (input i).key with
  | none => simp [step, advance, State.move, serializable, fits, key]
  | some k =>
    cases found : find (some k) rows with
    | some existing => simp [step, advance, State.move, serializable, key, found]
    | none =>
      have empty : find (some k) [] = none := rfl
      simp [step, advance, State.move, serializable, fits, key, found, empty]

/-! ### Every call comes to an end -/

/-- Some continuation ends the call. -/
def Completes (input : Nat → Call) (s : State) (i : Nat) : Prop := ∃ es, ((final (step input) s es).phase i).ended = true

theorem Completes.step (e : Event) (h : Completes input (step input s e) i) : Completes input s i := by
  obtain ⟨es, ended⟩ := h
  exact ⟨e :: es, ended⟩

theorem Completes.ended (h : (s.phase i).ended = true) : Completes input s i := ⟨[], h⟩

theorem completes_inserted {row : OutboxRow} (phase : s.phase i = .inserted row) : Completes input s i := by
  refine .step (.call i) (.ended ?_)
  simp only [PublishOnce.step, advance, phase]
  rw [move_phase]
  rfl

theorem completes_refused (phase : s.phase i = .refused) : Completes input s i := by
  refine .step (.call i) (.ended ?_)
  simp only [PublishOnce.step, advance, phase]
  split
  · rw [move_phase]
    rfl
  · split
    · rw [move_phase]
      rfl
    · rw [move_phase]
      rfl

/-- The insert finds the key committed. -/
theorem completes_taken (phase : s.phase i = .checked) (some : (input i).key ≠ none)
    (taken : (find (input i).key s.rows).isSome) : Completes input s i := by
  by_cases fits : (!(input i).fits) = true
  · refine .step (.call i) (.ended ?_)
    simp only [PublishOnce.step, advance, phase]
    rw [if_pos fits, move_phase]
    rfl
  · refine .step (.call i) (completes_refused ?_)
    simp only [PublishOnce.step, advance, phase]
    rw [if_neg fits, if_pos ⟨some, taken⟩, move_phase]

theorem Sound.completes_checked (h : Sound input s) (phase : s.phase i = .checked) : Completes input s i := by
  by_cases fits : (!(input i).fits) = true
  · refine .step (.call i) (.ended ?_)
    simp only [PublishOnce.step, advance, phase]
    rw [if_pos fits, move_phase]
    rfl
  by_cases taken : (input i).key ≠ none ∧ (find (input i).key s.rows).isSome
  · exact completes_taken phase taken.1 taken.2
  by_cases held : (input i).key ≠ none ∧ (find (input i).key s.pending).isSome
  · -- the call that holds the key commits first
    obtain ⟨some, open_⟩ := held
    obtain ⟨row, found⟩ := Option.isSome_iff_exists.mp open_
    obtain ⟨mem, key⟩ := find_some found
    obtain ⟨j, inserted⟩ := h.owned row mem
    have other : i ≠ j := by
      rintro rfl
      rw [phase] at inserted
      cases inserted
    refine .step (.call j) (completes_taken ?_ some ?_)
    · simp only [PublishOnce.step, advance, inserted]
      exact (move_phase_of_ne other _).trans phase
    · simp only [PublishOnce.step, advance, inserted]
      change (find (input i).key (s.rows ++ [row])).isSome
      simp [find, key]
  · refine .step (.call i) (@completes_inserted input _ i ((input i).row s.nextId) ?_)
    simp only [PublishOnce.step, advance, phase]
    rw [if_neg fits, if_neg taken, if_neg held, move_phase]

theorem Sound.completes (h : Sound input s) (i : Nat) : Completes input s i := by
  cases phase : s.phase i with
  | waiting =>
    have next := h.step (.call i)
    refine .step (.call i) ?_
    simp only [PublishOnce.step, advance, phase] at next ⊢
    split at next
    · next unserializable =>
      rw [if_pos unserializable]
      exact .ended (by rw [move_phase]; rfl)
    · next serializable =>
      rw [if_neg serializable]
      split at next
      · next keyless =>
        rw [if_pos keyless]
        exact next.completes_checked (move_phase _)
      · next keyed =>
        rw [if_neg keyed]
        cases found : find (input i).key s.rows with
        | some existing => exact .ended (by rw [move_phase]; rfl)
        | none =>
          simp only [found] at next
          exact next.completes_checked (move_phase _)
  | checked => exact h.completes_checked phase
  | inserted row => exact completes_inserted phase
  | refused => exact completes_refused phase
  | returned | raised => exact .ended (by rw [phase]; rfl)

end

/-! ### Every run -/

theorem sound_start {input : Nat → Call} {rows : List OutboxRow} {nextId : Nat} (apart : rows.Pairwise Apart)
    (below : ∀ r ∈ rows, r.id < nextId) : Sound input { rows, nextId } where
  apart := (List.append_nil rows).symm ▸ apart
  below := (List.append_nil rows).symm ▸ below
  owned r mem := absurd mem List.not_mem_nil
  owner i j r r' held := by cases held
  backed i := trivial

/-- In every interleaving there is at most one row with a key, a call that has returned has returned that row, only a call
    whose row the table cannot hold has raised, and every call can be completed. -/
theorem published_once (input : Nat → Call) (rows : List OutboxRow) (nextId : Nat) (apart : rows.Pairwise Apart)
    (below : ∀ r ∈ rows, r.id < nextId) (es : List Event) (k : String) :
    let s := final (step input) { rows, nextId } es
    (s.rows.filter (·.idempotencyKey = some k)).length ≤ 1 ∧ ∀ i, (input i).key = some k →
      (∀ row, s.phase i = .returned row → ∃ r ∈ s.rows, r.id = row.id ∧ r.idempotencyKey = some k) ∧
      (s.phase i = .raised → (input i).serializable = false ∨ (input i).fits = false) ∧
      ∃ rest, ((final (step input) s rest).phase i).ended = true := by
  intro s
  have h : Sound input s := final_kept (Sound input) (sound_start apart below) fun _ e h => h.step e
  clear_value s
  refine ⟨?_, fun i key => ⟨fun row returned => ?_, fun raised => ?_, h.completes i⟩⟩
  · have alike : (s.rows.filter (·.idempotencyKey = some k)).Pairwise fun _ _ => False := by
      refine ((List.pairwise_append.mp h.apart).1.filter _).imp_of_mem fun {r r'} mem mem' apart => ?_
      have key : r.idempotencyKey = some k := by simpa using (List.mem_filter.mp mem).2
      have key' : r'.idempotencyKey = some k := by simpa using (List.mem_filter.mp mem').2
      exact apart.2 (by rw [key]; exact Option.some_ne_none k) (key.trans key'.symm)
    exact Lists.length_le_one alike
  · have backed := h.backed i
    rw [returned] at backed
    exact key ▸ backed
  · have backed := h.backed i
    rw [raised] at backed
    exact Bool.and_eq_false_iff.mp backed

/-! ### Calls on an empty table -/

/-- Two services publish the same event. -/
def reported (i : Nat) : Call := { eventType := "report", idempotencyKey := some "report-1", now := i }

/-- Both have found no row; the second one waits, is refused, and returns the row of the first. -/
theorem published_once_by_two :
    let s := final (step reported) { rows := [], nextId := 1 }
      [.call 0, .call 1, .call 0, .call 1, .call 0, .call 1, .call 1]
    (s.rows.filter (·.idempotencyKey = some "report-1")).length ≤ 1 ∧
      s.phase 0 = .returned ((reported 0).row 1) ∧ s.phase 1 = .returned ((reported 0).row 1) :=
  ⟨(published_once reported [] 1 List.Pairwise.nil (fun _ mem => absurd mem List.not_mem_nil)
      [.call 0, .call 1, .call 0, .call 1, .call 0, .call 1, .call 1] "report-1").1, by decide, by decide⟩

theorem raises_of_unfit {c : Call} (key : c.key ≠ none) (serializable : c.serializable = true) (unfit : c.fits = false) :
    (final (step fun _ => c) { rows := [], nextId := 1 } [.call 0, .call 0]).phase 0 = .raised := by
  simp [final, step, advance, find, key, serializable, unfit]

/-- A key of 129 characters does not fit into its column. -/
theorem long_key_raises : ∃ c : Call, c.key ≠ none ∧ c.serializable = true ∧
    (final (step fun _ => c) { rows := [], nextId := 1 } [.call 0, .call 0]).phase 0 = .raised := by
  have plain : ∀ n, 0 < n → nonBlank (some (String.ofList (List.replicate n 'k'))) = some (String.ofList (List.replicate n 'k')) := by
    intro n positive
    have kept : Text.strip (List.replicate n 'k') = List.replicate n 'k' :=
      Text.strip_of_forall fun d mem => by
        rw [List.eq_of_mem_replicate mem]
        decide
    simp [nonBlank, kept, Nat.ne_of_gt positive]
  let c : Call := { eventType := "report", idempotencyKey := some (String.ofList (List.replicate 129 'k')), now := 0 }
  have key : c.key = some (String.ofList (List.replicate 129 'k')) := plain 129 (by decide)
  have unfit : c.fits = false := by
    rw [Call.fits, key, Option.all_some, String.length_ofList, List.length_replicate]
    decide
  have some_key : c.key ≠ none := by
    rw [key]
    exact Option.some_ne_none _
  exact ⟨c, some_key, rfl, raises_of_unfit some_key rfl unfit⟩

end NyzRating.Events.PublishOnce
