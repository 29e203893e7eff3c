import NyzRating.Lib.Lists
import NyzRating.Lib.Program
import NyzRating.Lib.Run

/-!
# Processes on a shared store

A process calls operations of a store, one at a time, and goes on with what the store was when it called. Alone it is a
program; several of them take turns, where each turn is one operation.
-/

inductive Process (ω σ ε α : Type) where
  | ret (a : α)
  | raise (e : ε)
  /-- The operation, and what follows it, given the store as the operation finds it. -/
  | call (op : ω) (next : σ → Process ω σ ε α)

namespace Process

open Program Runs

variable {ω σ ε α β : Type}

def bind : Process ω σ ε α → (α → Process ω σ ε β) → Process ω σ ε β
  | .ret a, f => f a
  | .raise e, _ => .raise e
  | .call op next, f => .call op fun s => (next s).bind f

instance : Monad (Process ω σ ε) where
  pure := .ret
  bind := bind

/-- One operation, and what it answers. -/
def ask (op : ω) (answer : σ → α) : Process ω σ ε α := .call op fun s => .ret (answer s)

/-- One operation, which raises instead of an answer. -/
def attempt (op : ω) (answer : σ → Except ε α) : Process ω σ ε α :=
  .call op fun s =>
    match answer s with
    | .ok a => .ret a
    | .error e => .raise e

@[simp] theorem ret_bind (a : α) (f : α → Process ω σ ε β) : (Process.ret a >>= f) = f a := rfl

@[simp] theorem raise_bind (e : ε) (f : α → Process ω σ ε β) : (Process.raise e >>= f) = .raise e := rfl

@[simp] theorem call_bind (op : ω) (next : σ → Process ω σ ε α) (f : α → Process ω σ ε β) :
    (Process.call op next >>= f) = .call op fun s => next s >>= f := rfl

@[simp] theorem ask_bind (op : ω) (answer : σ → α) (f : α → Process ω σ ε β) :
    (ask op answer >>= f) = .call op fun s => f (answer s) := rfl

/-- The operation that the process calls next. -/
def pending? : Process ω σ ε α → Option ω
  | .call op _ => some op
  | _ => none

/-- What the process has returned. -/
def result? : Process ω σ ε α → Option α
  | .ret a => some a
  | _ => none

variable (apply : ω → σ → σ)

/-! ### Alone -/

def run : Process ω σ ε α → EStateM ε σ α
  | .ret a => pure a
  | .raise e => throw e
  | .call op next => fun s => (next s).run (apply op s)

theorem run_bind (m : Process ω σ ε α) (f : α → Process ω σ ε β) :
    (m >>= f).run apply = m.run apply >>= fun a => (f a).run apply := by
  induction m with
  | ret a => rfl
  | raise e => rfl
  | call op next ih =>
    funext s
    exact congrFun (ih s) (apply op s)

section
variable {apply} {P : σ → Prop} {R : α → σ → Prop} {S : β → σ → Prop} {F : ε → σ → Prop}

theorem settles_ret {a : α} (h : ∀ s, P s → R a s) : Settles P ((Process.ret a : Process ω σ ε α).run apply) R F :=
  fun s hs => .returned (h s hs)

theorem settles_raise {e : ε} (h : ∀ s, P s → F e s) : Settles P ((Process.raise e : Process ω σ ε α).run apply) R F :=
  fun s hs => .raised (h s hs)

theorem settles_call {op : ω} {next : σ → Process ω σ ε α}
    (h : ∀ s, P s → Settles (· = apply op s) ((next s).run apply) R F) : Settles P ((Process.call op next).run apply) R F :=
  fun s hs => h s hs (apply op s) rfl

theorem settles_ask_bind {op : ω} {answer : σ → β} {f : β → Process ω σ ε α}
    (h : ∀ s, P s → Settles (· = apply op s) ((f (answer s)).run apply) R F) :
    Settles P ((ask op answer >>= f).run apply) R F :=
  settles_call h

theorem settles_bind {m : Process ω σ ε α} {f : α → Process ω σ ε β} (hm : Settles P (m.run apply) R F)
    (hf : ∀ a, Settles (R a) ((f a).run apply) S F) : Settles P ((m >>= f).run apply) S F := by
  rw [run_bind]
  exact Settles.bind hm hf

end

/-! ### What a process may call -/

/-- Every call of the process is one of which `K` holds. -/
def Issues (K : ω → Prop) : Process ω σ ε α → Prop
  | .ret _ => True
  | .raise _ => True
  | .call op next => K op ∧ ∀ s, Issues K (next s)

section
variable {K : ω → Prop}

theorem Issues.ret (a : α) : Issues K (Process.ret a : Process ω σ ε α) := trivial

theorem Issues.raise (e : ε) : Issues K (Process.raise e : Process ω σ ε α) := trivial

theorem Issues.bind {m : Process ω σ ε α} {f : α → Process ω σ ε β} (h : Issues K m) (next : ∀ a, Issues K (f a)) :
    Issues K (m >>= f) := by
  induction m with
  | ret a => exact next a
  | raise e => trivial
  | call op k ih => exact ⟨h.1, fun s => ih s (h.2 s)⟩

theorem Issues.ask {op : ω} {answer : σ → α} (h : K op) : Issues K (Process.ask op answer : Process ω σ ε α) :=
  ⟨h, fun _ => trivial⟩

theorem Issues.attempt {op : ω} {answer : σ → Except ε α} (h : K op) : Issues K (Process.attempt op answer) := by
  refine ⟨h, fun s => ?_⟩
  dsimp only
  split
  · exact Issues.ret _
  · exact Issues.raise _

theorem Issues.ite {c : Prop} [Decidable c] {m n : Process ω σ ε α} (hm : Issues K m) (hn : Issues K n) :
    Issues K (if c then m else n) := by
  split
  · exact hm
  · exact hn

variable {apply} {P : σ → Prop}

/-- What every call keeps is kept. -/
theorem Issues.settles {m : Process ω σ ε α} (h : Issues K m) (kept : ∀ op s, K op → P s → P (apply op s)) :
    Settles P (m.run apply) (fun _ => P) fun _ => P := by
  induction m with
  | ret a => exact settles_ret fun _ hs => hs
  | raise e => exact settles_raise fun _ hs => hs
  | call op next ih =>
    refine settles_call fun s hs => ?_
    rintro _ rfl
    exact ih s (h.2 s) _ (kept op s h.1 hs)

-- proofs go by the rules above; unfolding a large program is slow
attribute [irreducible] Issues

end

/-! ### Taking turns -/

/-- The store, how far each process has come, and the operations in their order. -/
structure Pool (ω σ ε α : Type) where
  store : σ
  calls : List (Process ω σ ε α)
  log : List (Nat × ω) := []

namespace Pool

/-- The next operation of process `i`. -/
def step (s : Pool ω σ ε α) (i : Nat) : Pool ω σ ε α :=
  match s.calls[i]? with
  | some (.call op next) =>
    { store := apply op s.store, calls := s.calls.set i (next s.store), log := s.log ++ [(i, op)] }
  | _ => s

/-- The operation that process `i` calls in its turn. -/
def pending? (s : Pool ω σ ε α) (i : Nat) : Option ω := s.calls[i]?.bind (·.pending?)

/-- The operations that process `i` has called. -/
def made (s : Pool ω σ ε α) (i : Nat) : List ω := (s.log.filter (·.1 = i)).map (·.2)

/-- What a turn can do: nothing, or one operation. -/
theorem step_cases (s : Pool ω σ ε α) (i : Nat) :
    s.step apply i = s ∨ ∃ op next, s.calls[i]? = some (.call op next) ∧ s.pending? i = some op ∧
      s.step apply i = { store := apply op s.store, calls := s.calls.set i (next s.store), log := s.log ++ [(i, op)] } := by
  unfold step pending?
  cases at_i : s.calls[i]? with
  | none => exact .inl rfl
  | some m =>
    cases m with
    | ret a => exact .inl rfl
    | raise e => exact .inl rfl
    | call op next => exact .inr ⟨op, next, rfl, rfl, rfl⟩

/-- Who has no turn stays where it is. -/
theorem calls_of_not_mem {j : Nat} {turns : List Nat} (waits : j ∉ turns) (s : Pool ω σ ε α) :
    (final (step apply) s turns).calls[j]? = s.calls[j]? := by
  induction turns generalizing s with
  | nil => rfl
  | cons i turns ih =>
    obtain ⟨other, waits⟩ := not_or.mp (List.mem_cons.not.mp waits)
    rw [final_cons, ih waits]
    rcases s.step_cases apply i with same | ⟨op, next, -, -, same⟩
    · rw [same]
    · rw [same]
      exact List.getElem?_set_ne (Ne.symm other)

end Pool

/-! ### What the processes rely on -/

/-- An order of the stores that every operation follows, if it finds what `finds` says. -/
structure Rely (apply : ω → σ → σ) where
  le : σ → σ → Prop
  refl : ∀ s, le s s
  trans : ∀ {s t u}, le s t → le t u → le s u
  finds : ω → σ → Prop
  follows : ∀ op s, finds op s → le s (apply op s)

namespace Rely

variable {apply} (G : Rely apply) (Q : List ω → α → σ → Prop)

/-- Whatever the others do in between, every operation of the process finds what it needs, and where the process returns,
    `Q` holds of its operations, `ops` being the first of them. -/
def Outline : Process ω σ ε α → List ω → σ → Prop
  | .ret a, ops, s => Q ops a s
  | .raise _, _, _ => True
  | .call op next, ops, s => ∀ t, G.le s t → G.finds op t ∧ Outline (next t) (ops ++ [op]) (apply op t)

variable {G Q} {Q' : List ω → β → σ → Prop} {m : Process ω σ ε α} {f : α → Process ω σ ε β} {ops : List ω} {s t : σ}

theorem Outline.ask_bind {op : ω} {answer : σ → α} {f : α → Process ω σ ε β} (h : ∀ t, G.le s t →
    G.finds op t ∧ G.Outline Q' (f (answer t)) (ops ++ [op]) (apply op t)) : G.Outline Q' (ask op answer >>= f) ops s :=
  h

theorem Outline.attempt_bind {op : ω} {answer : σ → Except ε α} {f : α → Process ω σ ε β} (h : ∀ t, G.le s t →
    G.finds op t ∧ ∀ a, answer t = .ok a → G.Outline Q' (f a) (ops ++ [op]) (apply op t)) :
    G.Outline Q' (attempt op answer >>= f) ops s := by
  refine fun t le => ⟨(h t le).1, ?_⟩
  dsimp only
  cases answered : answer t with
  | ok a => exact (h t le).2 a answered
  | error e => trivial

theorem Outline.bind (h : G.Outline Q m ops s) (next : ∀ a ops s, Q ops a s → G.Outline Q' (f a) ops s) :
    G.Outline Q' (m >>= f) ops s := by
  induction m generalizing ops s with
  | ret a => exact next a ops s h
  | raise e => trivial
  | call op k ih => exact fun t le => ⟨(h t le).1, ih t (h t le).2⟩

theorem Outline.mono {Q' : List ω → α → σ → Prop} (h : G.Outline Q m ops s) (imp : ∀ ops a s, Q ops a s → Q' ops a s) :
    G.Outline Q' m ops s := by
  induction m generalizing ops s with
  | ret a => exact imp ops a s h
  | raise e => trivial
  | call op k ih => exact fun t le => ⟨(h t le).1, ih t (h t le).2⟩

/-- What the process has called, it has called at the end. -/
theorem Outline.called {op : ω} (h : G.Outline Q m ops s) (mem : op ∈ ops) :
    G.Outline (fun ops a s => op ∈ ops ∧ Q ops a s) m ops s := by
  induction m generalizing ops s with
  | ret a => exact ⟨mem, h⟩
  | raise e => trivial
  | call op k ih => exact fun t le => ⟨(h t le).1, ih t (h t le).2 (List.mem_append_left _ mem)⟩

/-- What the process returns comes after the store it began in. -/
theorem Outline.grown {start : σ} (h : G.Outline Q m ops s) (le : G.le start s) :
    G.Outline (fun ops a s => G.le start s ∧ Q ops a s) m ops s := by
  induction m generalizing ops s with
  | ret a => exact ⟨le, h⟩
  | raise e => trivial
  | call op k ih =>
    intro t more
    obtain ⟨finds, rest⟩ := h t more
    exact ⟨finds, ih t rest (G.trans (G.trans le more) (G.follows op t finds))⟩

/-- The others may go on, where what is returned does not depend on them. -/
theorem Outline.le (h : G.Outline Q m ops s) (le : G.le s t) (stable : ∀ ops a s t, G.le s t → Q ops a s → Q ops a t) :
    G.Outline Q m ops t := by
  cases m with
  | ret a => exact stable ops a s t le h
  | raise e => trivial
  | call op next => exact fun u le' => h u (G.trans le le')

/-- Each process of the pool goes by its outline. -/
def Outlined (Q : Nat → List ω → α → Prop) (s : Pool ω σ ε α) : Prop :=
  ∀ i m, s.calls[i]? = some m → G.Outline (fun ops a _ => Q i ops a) m (s.made i) s.store

variable {Q : Nat → List ω → α → Prop} {p : Pool ω σ ε α}

theorem made_append_self {op : ω} {i : Nat} {store : σ} {calls : List (Process ω σ ε α)} :
    Pool.made { store, calls, log := p.log ++ [(i, op)] } i = p.made i ++ [op] := by
  simp [Pool.made]

theorem made_append_of_ne {op : ω} {i j : Nat} {store : σ} {calls : List (Process ω σ ε α)} (h : j ≠ i) :
    Pool.made { store, calls, log := p.log ++ [(i, op)] } j = p.made j := by
  simp [Pool.made, Ne.symm h]

/-- In its turn, a process finds what it needs. -/
theorem Outlined.finds (h : G.Outlined Q p) {i : Nat} {op : ω} {next : σ → Process ω σ ε α}
    (at_i : p.calls[i]? = some (.call op next)) : G.finds op p.store := (h i _ at_i p.store (G.refl _)).1

theorem Outlined.step (h : G.Outlined Q p) (i : Nat) : G.Outlined Q (p.step apply i) := by
  rcases p.step_cases apply i with same | ⟨op, next, at_i, -, same⟩
  · rw [same]
    exact h
  · have turn := h i _ at_i p.store (G.refl _)
    rw [same]
    intro j m at_j
    obtain ⟨rfl, rfl⟩ | ⟨other, old⟩ := Lists.getElem?_set_cases at_j
    · rw [made_append_self]
      exact turn.2
    · rw [made_append_of_ne other]
      exact (h j m old).le (G.follows op _ turn.1) fun _ _ _ _ _ q => q

variable (G) in
/-- Each process of the pool goes by its outline, where what it returns may be about the store too. -/
def Followed (Q : Nat → List ω → α → σ → Prop) (s : Pool ω σ ε α) : Prop :=
  ∀ i m, s.calls[i]? = some m → G.Outline (Q i) m (s.made i) s.store

section Followed
variable {Q : Nat → List ω → α → σ → Prop}

theorem Followed.finds (h : G.Followed Q p) {i : Nat} {op : ω} (turn : p.pending? i = some op) : G.finds op p.store := by
  obtain ⟨m, at_i, next⟩ := Option.bind_eq_some_iff.mp turn
  cases m with
  | ret a => cases next
  | raise e => cases next
  | call op' rest =>
    obtain rfl := Option.some.inj next
    exact (h i _ at_i p.store (G.refl _)).1

theorem Followed.step (h : G.Followed Q p) (stable : ∀ i ops a s t, G.le s t → Q i ops a s → Q i ops a t) (i : Nat) :
    G.Followed Q (p.step apply i) := by
  rcases p.step_cases apply i with same | ⟨op, next, at_i, -, same⟩
  · rw [same]
    exact h
  · have turn := h i _ at_i p.store (G.refl _)
    rw [same]
    intro j m at_j
    obtain ⟨rfl, rfl⟩ | ⟨other, old⟩ := Lists.getElem?_set_cases at_j
    · rw [made_append_self]
      exact turn.2
    · rw [made_append_of_ne other]
      exact (h j m old).le (G.follows op _ turn.1) (stable j)

end Followed

end Rely

/-! ### One after another -/

section Alone

variable {apply} {K : ω → σ → Prop} {Q : α → σ → Prop} {Q' : β → σ → Prop} {s : σ}

variable (apply K Q) in
/-- Left alone, the process makes only calls of which `K` holds, and where it returns, `Q` does. -/
def Alone : Process ω σ ε α → σ → Prop
  | .ret a, s => Q a s
  | .raise _, _ => True
  | .call op next, s => K op s ∧ Alone (next s) (apply op s)

theorem Alone.bind {m : Process ω σ ε α} {f : α → Process ω σ ε β} (h : Alone apply K Q m s)
    (next : ∀ a s, Q a s → Alone apply K Q' (f a) s) : Alone apply K Q' (m >>= f) s := by
  induction m generalizing s with
  | ret a => exact next a s h
  | raise e => trivial
  | call op k ih => exact ⟨h.1, ih s h.2⟩

theorem Alone.mono {m : Process ω σ ε α} {R : α → σ → Prop} (h : Alone apply K Q m s) (imp : ∀ a s, Q a s → R a s) :
    Alone apply K R m s := by
  induction m generalizing s with
  | ret a => exact imp a s h
  | raise e => trivial
  | call op k ih => exact ⟨h.1, ih s h.2⟩

theorem Alone.ask_bind {op : ω} {answer : σ → α} {f : α → Process ω σ ε β} (made : K op s)
    (next : Alone apply K Q' (f (answer s)) (apply op s)) : Alone apply K Q' (ask op answer >>= f) s :=
  ⟨made, next⟩

theorem Alone.attempt_bind {op : ω} {answer : σ → Except ε α} {f : α → Process ω σ ε β} (made : K op s)
    (next : ∀ a, answer s = .ok a → Alone apply K Q' (f a) (apply op s)) : Alone apply K Q' (attempt op answer >>= f) s := by
  refine ⟨made, ?_⟩
  dsimp only
  cases answered : answer s with
  | ok a => exact next a answered
  | error e => trivial

/-- Processes that run one after another, each for as long as it gets turns, make only calls that each of them makes alone. -/
theorem Alone.in_turn {p : Pool ω σ ε α} {turns : List Nat} (h : ∀ m ∈ p.calls, ∀ s, Alone apply K Q m s)
    (ordered : turns.Pairwise (· ≤ ·)) :
    Always (Pool.step apply) (fun p i => ∀ op, p.pending? i = some op → K op p.store) p turns := by
  -- Process `i` has the turn, and those after it have not begun.
  have from_here : ∀ (turns : List Nat) (i : Nat) (p : Pool ω σ ε α), turns.Pairwise (· ≤ ·) → (∀ j ∈ turns, i ≤ j) →
      (∀ m, p.calls[i]? = some m → Alone apply K Q m p.store) →
      (∀ j, i < j → ∀ m, p.calls[j]? = some m → ∀ s, Alone apply K Q m s) →
      Always (Pool.step apply) (fun p i => ∀ op, p.pending? i = some op → K op p.store) p turns := by
    intro turns
    induction turns with
    | nil => intros; trivial
    | cons j turns ih =>
      intro i p ordered bound now later
      obtain ⟨first, ordered⟩ := List.pairwise_cons.mp ordered
      have turn : ∀ m, p.calls[j]? = some m → Alone apply K Q m p.store := by
        intro m at_j
        rcases Nat.eq_or_lt_of_le (bound j List.mem_cons_self) with rfl | lt
        · exact now m at_j
        · exact later j lt m at_j p.store
      have after : ∀ k, j < k → ∀ m, p.calls[k]? = some m → ∀ s, Alone apply K Q m s := fun k lt =>
        later k (Nat.lt_of_le_of_lt (bound j List.mem_cons_self) lt)
      refine ⟨fun op next => ?_, ?_⟩
      · obtain ⟨m, at_j, next⟩ := Option.bind_eq_some_iff.mp next
        have alone := turn m at_j
        cases m with
        | ret a => cases next
        | raise e => cases next
        | call op' rest =>
          obtain rfl := Option.some.inj next
          exact alone.1
      · rcases p.step_cases apply j with same | ⟨op, next, at_j, -, same⟩
        · rw [same]
          exact ih j p ordered first turn after
        · rw [same]
          refine ih j _ ordered first ?_ ?_
          · intro m at_self
            obtain ⟨-, rfl⟩ | ⟨other, -⟩ := Lists.getElem?_set_cases at_self
            · exact (turn _ at_j).2
            · exact absurd rfl other
          · intro k lt m at_k
            obtain ⟨rfl, -⟩ | ⟨-, old⟩ := Lists.getElem?_set_cases at_k
            · exact absurd lt (Nat.lt_irrefl _)
            · exact after k lt m old
  refine from_here turns 0 p ordered (fun _ _ => Nat.zero_le _) ?_ ?_
  · intro m at_zero
    exact h m (List.mem_of_getElem? at_zero) p.store
  · intro j _ m at_j
    exact h m (List.mem_of_getElem? at_j)

end Alone

/-! ### A view of one's own -/

section View

variable {apply} {ν : Type} {view : σ → ν} {own : ω → Prop} {Q : α → ν → Prop}

variable (apply view own Q) in
/-- As long as no one else changes the view, every operation of the process is one of its own, and where it returns, `Q` holds of
    the view. -/
def Minds : Process ω σ ε α → ν → Prop
  | .ret a, v => Q a v
  | .raise _, _ => True
  | .call op next, v => ∀ t, view t = v → own op ∧ Minds (next t) (view (apply op t))

theorem Minds.ite {c : Prop} [Decidable c] {m n : Process ω σ ε α} {v : ν} (hm : c → Minds apply view own Q m v)
    (hn : ¬c → Minds apply view own Q n v) : Minds apply view own Q (if c then m else n) v := by
  split
  · next holds => exact hm holds
  · next fails => exact hn fails

variable {views : Nat → σ → ν} {owns : Nat → ω → Prop} {Qs : Nat → α → ν → Prop} {p : Pool ω σ ε α}

variable (apply views owns Qs) in
/-- Each process of the pool minds its own view. -/
def Minding (p : Pool ω σ ε α) : Prop :=
  ∀ i m, p.calls[i]? = some m → Minds apply (views i) (owns i) (Qs i) m (views i p.store)

/-- Where no process changes what another one views, all go on minding their own. -/
theorem Minding.step (h : Minding apply views owns Qs p)
    (apart : ∀ i j op s, i ≠ j → owns j op → views i (apply op s) = views i s) (i : Nat) :
    Minding apply views owns Qs (p.step apply i) := by
  rcases p.step_cases apply i with same | ⟨op, next, at_i, -, same⟩
  · rw [same]
    exact h
  · obtain ⟨mine, rest⟩ := h i _ at_i p.store rfl
    rw [same]
    intro j m at_j
    obtain ⟨rfl, rfl⟩ | ⟨other, old⟩ := Lists.getElem?_set_cases at_j
    · exact rest
    · rw [show views j (apply op p.store) = views j p.store from apart j i op p.store other mine]
      exact h j m old

theorem Minding.final (h : Minding apply views owns Qs p)
    (apart : ∀ i j op s, i ≠ j → owns j op → views i (apply op s) = views i s) (turns : List Nat) :
    Minding apply views owns Qs (final (Pool.step apply) p turns) :=
  Runs.final_kept _ h fun _ i minding => minding.step apart i

end View

end Process
