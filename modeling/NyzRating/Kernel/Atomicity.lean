import NyzRating.Kernel.Session

/-!
# Atomicity of the ambient transaction

A call that rolls the shared session back takes with it what the calls before it wrote. A block is atomic where no call
that returns normally does so, and no such call hides behind an exception caught inside the block.
-/

namespace NyzRating.Kernel

open Program

variable {W : Type}

/-! ### Intact calls -/

namespace Statement

/-- How a call on a usable session ends, where nothing is refused or rolled back on the way. -/
def outcome : Statement W → Option Error
  | .pass | .read | .write _ | .commit | .rollback => none
  | .refuse _ e | .raise e => some e
  | .seq p q => if p.outcome = none then q.outcome else p.outcome
  | .handle p handler =>
    match p.outcome with
    | none => none
    | some e => (handler e).outcome

/-- What it has written by then. -/
def writes : Statement W → List W
  | .write w => [w]
  | .seq p q => p.writes ++ if p.outcome = none then q.writes else []
  | .handle p handler =>
    p.writes ++
      match p.outcome with
      | none => []
      | some e => (handler e).writes
  | _ => []

/-- No statement on the call's path is refused, and the path does not roll back. -/
def Intact : Statement W → Prop
  | .rollback | .refuse _ _ => False
  | .seq p q => p.Intact ∧ (p.outcome = none → q.Intact)
  | .handle p handler => p.Intact ∧ ∀ e, p.outcome = some e → (handler e).Intact
  | _ => True

/-- An upper bound for the number of writes. -/
def size : Statement W → Nat
  | .write _ => 1
  | .seq p q => p.size + q.size
  | .handle p handler => p.size + (handler .integrity).size + (handler .other).size
  | _ => 0

end Statement

/-- A run that ends as `e` says, in the state `s`. -/
def endsAs {σ : Type} (e : Option Error) (s : σ) : EStateM.Result Error σ Unit :=
  match e with
  | none => .ok () s
  | some e => .error e s

@[simp] theorem endsAs_none {σ : Type} (s : σ) : endsAs none s = .ok () s := rfl

@[simp] theorem endsAs_some {σ : Type} (e : Error) (s : σ) : endsAs (some e) s = .error e s := rfl

@[simp] theorem run_execute (f : Session W → Session W) (db : Db W) : (execute f).run db =
    if db.session.refused = none then .ok () { db with session := f db.session } else .error .other db := by
  simp only [execute, EStateM.run_bind, EStateM.run_get, run_ite]
  split <;> rfl

@[simp] theorem run_flush (db : Db W) :
    flush.run db = if db.session.refused = some .flush then .error .other db else .ok () db := by
  simp only [flush, EStateM.run_bind, EStateM.run_get, run_ite]
  split <;> rfl

@[simp] theorem run_proxyRollback (db : Db W) :
    proxyRollback.run db = .ok () { db with session := db.session.rollback } := rfl

namespace Statement

/-- On a usable session an intact call does what its tree says, and nothing else. -/
theorem run_of_intact {p : Statement W} (intact : p.Intact) {s : Session W} (usable : s.refused = none) (d : List W) :
    (p.run true).run ⟨d, s⟩ = endsAs p.outcome ⟨d, s.wrote p.writes⟩ := by
  induction p generalizing s with
  | pass => simp [run, outcome, writes]
  | read => simp [run, outcome, writes, usable]
  | write w => simp [run, outcome, writes, usable]
  | refuse how e => exact intact.elim
  | commit => simp [run, proxyCommit, outcome, writes, usable]
  | rollback => exact intact.elim
  | raise e => simp [run, outcome, writes]
  | seq p q ihp ihq =>
    obtain ⟨first, second⟩ := intact
    simp only [run, outcome, writes, EStateM.run_bind, ihp first usable]
    cases ended : p.outcome with
    | none =>
      have rest := ihq (second ended) (s := s.wrote p.writes) usable
      simp [rest]
    | some e => simp
  | handle p handler ihp ihh =>
    obtain ⟨first, second⟩ := intact
    simp only [run, outcome, writes, run_tryCatch, ihp first usable]
    cases ended : p.outcome with
    | none => simp
    | some e =>
      have rest := ihh e (second e ended) (s := s.wrote p.writes) usable
      simp [rest]

/-- Inside a block nothing becomes durable. -/
theorem run_durable (p : Statement W) (d : List W) : Leads (fun db => db.durable = d) (p.run true) fun db => db.durable = d := by
  have executed : ∀ f, Leads (fun db : Db W => db.durable = d) (execute f) fun db => db.durable = d := by
    intro f db same
    unfold after
    rw [run_execute]
    split <;> exact same
  induction p with
  | pass => exact .pure (fun _ h => h) _
  | read => exact executed id
  | write w => exact executed _
  | refuse how e => exact .bind (executed _) (fun _ => .throw (fun _ h => h) _) fun _ h => h
  | commit =>
    intro db same
    unfold after
    simp only [run, proxyCommit, if_true, run_flush]
    split <;> exact same
  | rollback => exact .modify fun _ h => h
  | raise e => exact .throw (fun _ h => h) _
  | seq p q ihp ihq => exact .bind ihp (fun _ => ihq) fun _ h => h
  | handle p handler ihp ihh => exact (Returns.tryCatch (.of_leads ihp) fun e => .of_leads (ihh e)).leads

/-- What a session still holds grows by at most the writes of the call. -/
theorem run_held (p : Statement W) (n : Nat) :
    Leads (fun db => db.session.held.length ≤ n) (p.run true) fun db => db.session.held.length ≤ n + p.size := by
  induction p generalizing n with
  | pass => exact .pure (fun _ h => h) _
  | read =>
    intro db bound
    unfold after
    simp only [run, run_execute]
    split <;> exact bound
  | write w =>
    intro db bound
    unfold after
    simp only [run, run_execute]
    split
    · rename_i usable
      rw [Session.held_of_healthy usable] at bound
      simp [size, Session.held_wrote _ usable, bound]
    · exact Nat.le_trans bound (Nat.le_add_right _ _)
  | refuse how e =>
    refine .bind (M := fun db => db.session.held.length ≤ n) ?_ (fun _ => .throw (fun _ h => h) _) fun _ h => h
    intro db bound
    unfold after
    rw [run_execute]
    split
    · simp [Session.held]
    · exact bound
  | commit =>
    intro db bound
    unfold after
    simp only [run, proxyCommit, if_true, run_flush]
    split <;> exact bound
  | rollback => exact .modify fun _ _ => by simp [Session.held, Session.rollback]
  | raise e => exact .throw (fun _ h => h) _
  | seq p q ihp ihq =>
    refine .bind (ihp n) (fun _ => ?_) fun _ h => Nat.le_trans h ?_
    · simpa only [size, Nat.add_assoc] using ihq (n + p.size)
    · simp only [size]
      omega
  | handle p handler ihp ihh =>
    have widen : ∀ e, p.size + (handler e).size ≤ (handle p handler).size := by
      intro e
      cases e <;> simp only [size] <;> omega
    have tried : Returns (fun db => db.session.held.length ≤ n) ((handle p handler).run true)
        (fun _ db => db.session.held.length ≤ n + (handle p handler).size)
        fun db => db.session.held.length ≤ n + (handle p handler).size := by
      refine Returns.tryCatch (F := fun db => db.session.held.length ≤ n + p.size) ?_ fun e => ?_
      · have within := widen .other
        exact (Returns.of_leads (ihp n)).mono (fun _ _ h => by omega) fun _ h => h
      · have within := widen e
        exact (Returns.of_leads (ihh e (n + p.size))).mono (fun _ _ h => by omega) fun _ h => by omega
    exact tried.leads

/-- A call that is not intact leaves at most its own writes. -/
theorem run_held_of_not_intact {p : Statement W} (broken : ¬p.Intact) {s : Session W} (usable : s.refused = none) (d : List W) :
    (after (p.run true) ⟨d, s⟩).session.held.length ≤ p.size := by
  induction p generalizing s with
  | refuse how e => simp [after, run, usable, Session.held]
  | rollback => simp [after, run, Session.held, Session.rollback]
  | seq p q ihp ihq =>
    by_cases first : p.Intact
    · have ended : p.outcome = none ∧ ¬q.Intact := by
        simp only [Intact, first, true_and] at broken
        exact Classical.not_imp.mp broken
      have start := run_of_intact first usable d
      rw [ended.1] at start
      have rest := ihq ended.2 (s := s.wrote p.writes) usable
      rw [run, after_bind_of_ok start]
      exact Nat.le_trans rest (Nat.le_add_left _ _)
    · have lost := ihp first usable
      rw [run]
      cases ran : (p.run true).run ⟨d, s⟩ with
      | ok u db =>
        rw [after_of_ok ran] at lost
        rw [after_bind_of_ok ran]
        exact run_held q p.size db lost
      | error e db =>
        rw [after_of_error ran] at lost
        rw [after_bind_of_error ran]
        exact Nat.le_trans lost (Nat.le_add_right _ _)
  | handle p handler ihp ihh =>
    have widen : ∀ e, p.size + (handler e).size ≤ (handle p handler).size := by
      intro e
      cases e <;> simp only [size] <;> omega
    by_cases first : p.Intact
    · obtain ⟨e, ended, second⟩ : ∃ e, p.outcome = some e ∧ ¬(handler e).Intact := by
        simpa only [Intact, first, true_and, not_forall, exists_prop] using broken
      have start := run_of_intact first usable d
      rw [ended] at start
      have rest := ihh e second (s := s.wrote p.writes) usable
      have within := widen e
      unfold after at rest ⊢
      simp only [run, run_tryCatch, start, endsAs_some]
      omega
    · have lost := ihp first usable
      have within := widen .other
      unfold after at lost ⊢
      simp only [run, run_tryCatch]
      cases ran : (p.run true).run ⟨d, s⟩ with
      | ok u db =>
        rw [ran] at lost
        exact Nat.le_trans lost (by omega)
      | error e db =>
        rw [ran] at lost
        have more := run_held (handler e) p.size db lost
        have within := widen e
        exact Nat.le_trans more within
  | _ => exact (broken trivial).elim

/-- Among the calls that return, the intact ones are those that keep whatever the session held. -/
theorem keeps_iff_intact [Inhabited W] {p : Statement W} {d : List W}
    (returns : ∀ s : Session W, s.refused = none → ∃ db, (p.run true).run ⟨d, s⟩ = .ok () db) :
    (∀ (s : Session W) (db : Db W), s.refused = none → (p.run true).run ⟨d, s⟩ = .ok () db → s.journal <+: db.session.held) ↔
      p.Intact := by
  constructor
  · intro keeps
    by_contra broken
    let s : Session W := { journal := List.replicate (p.size + 1) default }
    obtain ⟨db, ran⟩ := returns s rfl
    have lost := run_held_of_not_intact broken (s := s) rfl d
    rw [after_of_ok ran] at lost
    have kept := (keeps s db rfl ran).length_le
    simp only [s, List.length_replicate] at kept
    omega
  · intro intact s db usable ran
    rw [run_of_intact intact usable d] at ran
    cases ended : p.outcome with
    | some e => simp [ended] at ran
    | none =>
      rw [ended, endsAs_none] at ran
      cases ran
      rw [Session.held_wrote _ usable]
      exact List.prefix_append _ _

end Statement

/-! ### Calls and blocks, run -/

/-- The world in which a block's body starts. -/
def World.entered (w : World W) : World W :=
  match w.shared with
  | some _ => { w with depth := w.depth + 1 }
  | none => { w with shared := some {}, depth := 1 }

theorem run_call {p : Statement W} {w : World W} {s : Session W} (shared : w.shared = some s) :
    (call p).run w = (onSession s some (p.run true)).run w := by
  simp only [call, EStateM.run_bind, EStateM.run_get, shared]

theorem run_onShared {f : DbM W Unit} {w : World W} {s : Session W} (shared : w.shared = some s) :
    (onShared f).run w = (onSession s some f).run w := by
  simp only [onShared, EStateM.run_bind, EStateM.run_get, shared]

theorem run_finallyDo (m : WorldM W Unit) (f : World W → World W) (w : World W) : (finallyDo m f).run w =
    match m.run w with
    | .ok _ w' => .ok () (f w')
    | .error e w' => .error e (f w') := by
  simp only [finallyDo, EStateM.run_bind, run_tryCatch]
  cases m.run w <;> rfl

theorem run_nested {m : WorldM W Unit} {w : World W} {s : Session W} (shared : w.shared = some s) :
    (transaction m).run w = (finallyDo m fun w' => { w' with depth := w.depth }).run w.entered := by
  simp only [transaction, EStateM.run_bind, EStateM.run_get, shared, World.entered]
  rw [← shared]
  rfl

theorem run_outermost {m : WorldM W Unit} {w : World W} (outermost : w.shared = none) :
    (transaction m).run w =
      (finallyDo (tryCatch (do m; onShared commit) fun e => do onShared proxyRollback; throw e) fun w' =>
        { w' with shared := none, depth := w.depth }).run w.entered := by
  simp only [transaction, EStateM.run_bind, EStateM.run_get, outermost, World.entered]
  rfl

namespace Body

/-- What holds of every repository call that a run of the body makes, and of the world that it finds. -/
def AtCalls (P : Statement W → World W → Prop) : Body W → World W → Prop
  | .call p, w => P p w
  | .block b, w => b.AtCalls P w.entered
  | .seq a b, w => a.AtCalls P w ∧ ∀ w', a.run.run w = .ok () w' → b.AtCalls P w'
  | .handle b handler, w => b.AtCalls P w ∧ ∀ e w', b.run.run w = .error e w' → (handler e).AtCalls P w'
  | _, _ => True

/-- No call that returns rolls back or is refused a statement, and no such call has run behind an exception that a
handler ends. -/
def Honest : Body W → World W → Prop
  | .call p, w => ∀ w', (Kernel.call p).run w = .ok () w' → p.Intact
  | .block b, w => b.Honest w.entered
  | .seq a b, w => a.Honest w ∧ ∀ w', a.run.run w = .ok () w' → b.Honest w'
  | .handle b handler, w => b.Honest w ∧ ∀ e w', b.run.run w = .error e w' →
      (handler e).Honest w' ∧ ∀ w'', (handler e).run.run w' = .ok () w'' → b.AtCalls (fun p _ => p.Intact) w
  | _, _ => True

/-- The session of the outermost block is in use, and only its own writes can have changed since `w`. -/
structure InBlock (w w' : World W) : Prop where
  shared : w'.shared.isSome
  durable : w'.durable = w.durable
  depth : w'.depth = w.depth

/-- Every write of the block is still in the session's open transaction. -/
def Whole (w : World W) : Prop := ∃ s, w.shared = some s ∧ s.refused = none ∧ s.journal = s.made

theorem call_inBlock {p : Statement W} {w w₀ : World W} (h : InBlock w₀ w) : InBlock w₀ (after (Kernel.call p) w) := by
  obtain ⟨s, shared⟩ := Option.isSome_iff_exists.mp h.shared
  have same := Statement.run_durable p w.durable ⟨w.durable, s⟩ rfl
  unfold after at same ⊢
  rw [run_call shared]
  simp only [onSession, EStateM.run] at same ⊢
  cases ran : p.run true ⟨w.durable, s⟩ with
  | ok u db =>
    rw [ran] at same
    exact ⟨rfl, same.trans h.durable, h.depth⟩
  | error e db =>
    rw [ran] at same
    exact ⟨rfl, same.trans h.durable, h.depth⟩

theorem run_inBlock (b : Body W) (w₀ : World W) : Leads (InBlock w₀) b.run (InBlock w₀) := by
  induction b generalizing w₀ with
  | pass => exact .pure (fun _ h => h) _
  | raise e => exact .throw (fun _ h => h) _
  | call p => exact fun w h => call_inBlock h
  | block b ih =>
    intro w h
    obtain ⟨s, shared⟩ := Option.isSome_iff_exists.mp h.shared
    have start : InBlock w.entered w.entered := ⟨by simp [World.entered, shared], rfl, rfl⟩
    have inner := ih w.entered w.entered start
    have same : w.entered.durable = w.durable := by simp [World.entered, shared]
    unfold after at inner ⊢
    rw [Body.run, run_nested shared, run_finallyDo]
    cases ran : b.run.run w.entered with
    | ok u w' =>
      rw [ran] at inner
      exact ⟨inner.shared, inner.durable.trans (same.trans h.durable), h.depth⟩
    | error e w' =>
      rw [ran] at inner
      exact ⟨inner.shared, inner.durable.trans (same.trans h.durable), h.depth⟩
  | seq a b iha ihb => exact .bind (iha w₀) (fun _ => ihb w₀) fun _ h => h
  | handle b handler ihb ihh => exact (Returns.tryCatch (.of_leads (ihb w₀)) fun e => .of_leads (ihh e w₀)).leads

/-- An intact call leaves the block's writes whole. -/
theorem call_whole {p : Statement W} {w : World W} (intact : p.Intact) (whole : Whole w) :
    Whole (after (Kernel.call p) w) := by
  obtain ⟨s, shared, usable, all⟩ := whole
  have ran := Statement.run_of_intact intact usable w.durable
  unfold after
  rw [run_call shared]
  simp only [onSession, EStateM.run] at ran ⊢
  rw [ran]
  have kept : (s.wrote p.writes).refused = none ∧ (s.wrote p.writes).journal = (s.wrote p.writes).made :=
    ⟨usable, congrArg (· ++ p.writes) all⟩
  cases p.outcome with
  | none => exact ⟨_, rfl, kept⟩
  | some e => exact ⟨_, rfl, kept⟩

theorem entered_whole {w : World W} (whole : Whole w) : Whole w.entered := by
  obtain ⟨s, shared, kept⟩ := whole
  exact ⟨s, by simp [World.entered, shared], kept⟩

/-- Calls that are all intact leave the block's writes whole, whether the body returns or raises. -/
theorem run_whole_of_intact (b : Body W) {w : World W} (intact : b.AtCalls (fun p _ => p.Intact) w) (whole : Whole w) :
    Whole (after b.run w) := by
  induction b generalizing w with
  | pass => exact whole
  | raise e => exact whole
  | call p => exact call_whole intact whole
  | block b ih =>
    have inner := ih intact (entered_whole whole)
    obtain ⟨s, shared, -⟩ := whole
    unfold after at inner ⊢
    rw [run, run_nested shared, run_finallyDo]
    cases ran : b.run.run w.entered with
    | ok u w' =>
      rw [ran] at inner
      exact inner
    | error e w' =>
      rw [ran] at inner
      exact inner
  | seq a b iha ihb =>
    have first := iha intact.1 whole
    rw [run]
    cases ran : a.run.run w with
    | ok u w' =>
      rw [after_of_ok ran] at first
      rw [after_bind_of_ok ran]
      exact ihb (intact.2 w' ran) first
    | error e w' =>
      rw [after_of_error ran] at first
      rw [after_bind_of_error ran]
      exact first
  | handle b handler ihb ihh =>
    have first := ihb intact.1 whole
    unfold after at first ⊢
    simp only [run, run_tryCatch]
    cases ran : b.run.run w with
    | ok u w' =>
      rw [ran] at first
      exact first
    | error e w' =>
      rw [ran] at first
      exact ihh e (intact.2 e w' ran) first

/-- A body that returns leaves the block's writes whole where its calls are honest. -/
theorem run_whole_of_honest (b : Body W) {w w' : World W} (honest : b.Honest w) (whole : Whole w)
    (ran : b.run.run w = .ok () w') : Whole w' := by
  induction b generalizing w w' with
  | pass =>
    cases ran
    exact whole
  | raise e => cases ran
  | call p =>
    have kept := call_whole (honest w' ran) whole
    rwa [after_of_ok (show (Kernel.call p).run w = .ok () w' from ran)] at kept
  | block b ih =>
    have start := entered_whole whole
    obtain ⟨s, shared, -⟩ := whole
    rw [run, run_nested shared, run_finallyDo] at ran
    cases inner : b.run.run w.entered with
    | ok u w'' =>
      have kept := ih honest start inner
      simp only [inner, EStateM.Result.ok.injEq, true_and] at ran
      subst ran
      exact kept
    | error e w'' => simp [inner] at ran
  | seq a b iha ihb =>
    obtain ⟨⟨⟩, m, first, second⟩ := bind_eq_ok.mp ran
    exact ihb (honest.2 m first) (iha honest.1 whole first) second
  | handle b handler ihb ihh =>
    simp only [run, run_tryCatch] at ran
    cases tried : b.run.run w with
    | ok u m =>
      simp only [tried] at ran
      cases ran
      exact ihb honest.1 whole tried
    | error e m =>
      simp only [tried] at ran
      obtain ⟨handled, intact⟩ := honest.2 e m tried
      have kept := run_whole_of_intact b (intact w' ran) whole
      rw [after_of_error tried] at kept
      exact ihh e handled kept ran

/-! ### Atomic blocks -/

/-- A call that returns leaves in the shared session what it found there. -/
def Keeps (p : Statement W) (w : World W) : Prop :=
  ∀ s w', w.shared = some s → (Kernel.call p).run w = .ok () w' → ∃ s', w'.shared = some s' ∧ s.held <+: s'.held

theorem keeps_of_intact {p : Statement W} {w : World W} (h : ∀ w', (Kernel.call p).run w = .ok () w' → p.Intact) :
    Keeps p w := by
  intro s w' shared ran
  have intact := h w' ran
  rw [run_call shared] at ran
  by_cases usable : s.refused = none
  · have ended := Statement.run_of_intact intact usable w.durable
    simp only [onSession, EStateM.run] at ran ended
    rw [ended] at ran
    cases outcome : p.outcome with
    | some e => simp [outcome] at ran
    | none =>
      simp only [outcome, endsAs_none, EStateM.Result.ok.injEq, true_and] at ran
      subst ran
      refine ⟨_, rfl, ?_⟩
      rw [Session.held_wrote _ usable, Session.held_of_healthy usable]
      exact List.prefix_append _ _
  · rw [Session.held_of_refused usable]
    simp only [onSession, EStateM.run] at ran
    cases inner : p.run true ⟨w.durable, s⟩ with
    | ok u db =>
      simp only [inner, EStateM.Result.ok.injEq, true_and] at ran
      subst ran
      exact ⟨_, rfl, List.nil_prefix⟩
    | error e db => simp [inner] at ran

theorem atCalls_keeps (b : Body W) {w : World W} (honest : b.Honest w) : b.AtCalls Keeps w := by
  induction b generalizing w with
  | pass => trivial
  | raise e => trivial
  | call p => exact keeps_of_intact honest
  | block b ih => exact ih honest
  | seq a b iha ihb => exact ⟨iha honest.1, fun w' ran => ihb (honest.2 w' ran)⟩
  | handle b handler ihb ihh => exact ⟨ihb honest.1, fun e w' ran => ihh e (honest.2 e w' ran).1⟩

/-- What the outermost block `b` has written by its end. -/
def made (b : Body W) (w : World W) : List W := ((after b.run w.entered).shared.map Session.made).getD []

/-- An outermost block whose calls keep each other's writes, and which writes all it made or nothing. -/
structure Atomic (b : Body W) (w : World W) : Prop where
  keeps : b.AtCalls Keeps w.entered
  committed : ∀ w', (Body.block b).run.run w = .ok () w' → w'.durable = w.durable ++ b.made w
  undone : ∀ e w', (Body.block b).run.run w = .error e w' → w'.durable = w.durable

theorem block_of_raised {b : Body W} {w w₁ : World W} {e : Error} (outermost : w.shared = none)
    (raised : b.run.run w.entered = .error e w₁) :
    ∃ w', (Body.block b).run.run w = .error e w' ∧ w'.durable = w.durable := by
  have start : InBlock w.entered w.entered := ⟨by simp [World.entered, outermost], rfl, rfl⟩
  have inside := run_inBlock b w.entered w.entered start
  rw [after_of_error raised] at inside
  obtain ⟨s, shared⟩ := Option.isSome_iff_exists.mp inside.shared
  have same : w₁.durable = w.durable := by simpa [World.entered, outermost] using inside.durable
  have rolled : (onShared proxyRollback).run w₁ = .ok () { w₁ with shared := some s.rollback } := by
    rw [run_onShared shared]
    rfl
  refine ⟨{ w₁ with shared := none, depth := w.depth }, ?_, same⟩
  rw [Body.run, run_outermost outermost, run_finallyDo, run_tryCatch, EStateM.run_bind, raised]
  simp only [EStateM.run_bind, rolled, run_throw]

theorem block_of_returned {b : Body W} {w w₁ : World W} {s : Session W} (outermost : w.shared = none)
    (returned : b.run.run w.entered = .ok () w₁) (shared : w₁.shared = some s) (usable : s.refused = none) :
    ∃ w', (Body.block b).run.run w = .ok () w' ∧ w'.durable = w.durable ++ s.journal := by
  have start : InBlock w.entered w.entered := ⟨by simp [World.entered, outermost], rfl, rfl⟩
  have inside := run_inBlock b w.entered w.entered start
  rw [after_of_ok returned] at inside
  have same : w₁.durable = w.durable := by simpa [World.entered, outermost] using inside.durable
  have committed : (onShared commit).run w₁ =
      .ok () { w₁ with durable := w₁.durable ++ s.journal, shared := some s.rollback } := by
    have flushed : commit.run ⟨w₁.durable, s⟩ = .ok () ⟨w₁.durable ++ s.journal, s.rollback⟩ := by
      rw [commit, EStateM.run_bind, run_flush, usable, if_neg (by simp)]
      simp only [EStateM.run_modify, Session.held_of_healthy usable]
    rw [run_onShared shared]
    simp only [onSession, EStateM.run] at flushed ⊢
    rw [flushed]
  refine ⟨{ w₁ with durable := w₁.durable ++ s.journal, shared := none, depth := w.depth }, ?_, congrArg (· ++ s.journal) same⟩
  rw [Body.run, run_outermost outermost, run_finallyDo, run_tryCatch, EStateM.run_bind, returned]
  simp only [committed]

theorem atomic_of_honest {b : Body W} {w : World W} (outermost : w.shared = none) (honest : b.Honest w.entered) :
    Atomic b w := by
  have start : Whole w.entered := ⟨{}, by simp [World.entered, outermost], rfl, rfl⟩
  cases ran : b.run.run w.entered with
  | error e w₁ =>
    obtain ⟨w', ended, same⟩ := block_of_raised outermost ran
    refine ⟨atCalls_keeps b honest, fun _ h => ?_, fun _ _ h => ?_⟩
    · simp [ended] at h
    · cases ended.symm.trans h
      exact same
  | ok u w₁ =>
    obtain ⟨s, shared, usable, all⟩ := run_whole_of_honest b honest start ran
    obtain ⟨w', ended, written⟩ := block_of_returned outermost ran shared usable
    have every : b.made w = s.journal := by simp [made, after_of_ok ran, shared, all]
    refine ⟨atCalls_keeps b honest, fun _ h => ?_, fun _ _ h => ?_⟩
    · cases ended.symm.trans h
      rw [written, every]
    · simp [ended] at h

end Body

/-- Honest blocks are atomic, and a call that returns is safe to use in any block exactly when it is intact. -/
theorem honest_blocks_atomic [Inhabited W] :
    (∀ (b : Body W) (w : World W), w.shared = none → b.Honest w.entered → b.Atomic w) ∧
    ∀ (p : Statement W) (d : List W),
      (∀ s : Session W, s.refused = none → ∃ db, (p.run true).run ⟨d, s⟩ = .ok () db) →
      ((∀ (s : Session W) (db : Db W), s.refused = none → (p.run true).run ⟨d, s⟩ = .ok () db →
        s.journal <+: db.session.held) ↔ p.Intact) :=
  ⟨fun _ _ outermost honest => Body.atomic_of_honest outermost honest, fun _ _ returns => Statement.keeps_iff_intact returns⟩

/-! ### The calls of the source -/

/-- A row written, then an event appended under a key that another transaction has written in the meantime. -/
def writeThenAppend (duplicate : Bool) : Body Nat :=
  .seq (.call (.seq (.write 1) .commit)) (.call (append 2 false duplicate true))

theorem append_intact (row : W) (existing duplicate found : Bool) :
    (append row existing duplicate found).Intact ↔ (existing = true ∨ duplicate = false) := by
  cases existing <;> cases duplicate <;> simp [append, Statement.Intact, Statement.outcome]

theorem writeAll_intact (ws : List W) : (Statement.writeAll ws).Intact := by
  induction ws with
  | nil => trivial
  | cons w ws ih => exact ⟨trivial, fun _ => ih⟩

theorem writeAll_outcome (ws : List W) : (Statement.writeAll ws).outcome = none := by
  induction ws with
  | nil => rfl
  | cons w ws ih => simp [Statement.writeAll, Statement.outcome, ih]

theorem reserveQuestion_intact (settlement question : List W) (allowed : Bool) :
    (reserveQuestion settlement question allowed).Intact ↔ allowed = true := by
  cases allowed <;>
    simp [reserveQuestion, Statement.Intact, Statement.outcome, writeAll_intact, writeAll_outcome]

theorem writeThenAppend_honest : (writeThenAppend false).Honest (World.entered { durable := [] }) :=
  ⟨fun _ _ => ⟨trivial, fun _ => trivial⟩, fun _ _ _ _ => (append_intact 2 false false true).mpr (.inr rfl)⟩

theorem honest_blocks_atomic_writeThenAppend :
    (writeThenAppend false).Atomic { durable := [] } ∧
    ((∀ (s : Session Nat) (db : Db Nat), s.refused = none → ((Statement.write 1).run true).run ⟨[], s⟩ = .ok () db →
      s.journal <+: db.session.held) ↔ (Statement.write 1).Intact) :=
  ⟨honest_blocks_atomic.1 _ _ rfl writeThenAppend_honest,
    honest_blocks_atomic.2 _ _ fun s usable => ⟨_, by simp [Statement.run, usable]; rfl⟩⟩

theorem append_discards_block :
    ¬∀ (b : Body Nat) (w : World Nat), w.shared = none → b.Atomic w := by
  intro atomic
  obtain ⟨-, committed, -⟩ := atomic (writeThenAppend true) { durable := [] } rfl
  have lost := committed { durable := [] } (by rfl)
  have written : (writeThenAppend true).made { durable := [] } = [1] := rfl
  rw [written] at lost
  simp at lost

end NyzRating.Kernel
