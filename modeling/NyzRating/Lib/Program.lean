import Mathlib.Tactic.Common

/-!
# Programs with a store and exceptions

A program `m : EStateM ε σ α` reads and writes a store of type `σ` and may raise an `ε`. What it wrote
before it raised stays written, as in code that commits each of its writes on its own.
-/

namespace Program

variable {ε σ α β : Type}

/-! ### Running a program step by step -/

@[simp] theorem run_throw (e : ε) (s : σ) : (throw e : EStateM ε σ α).run s = .error e s := rfl

@[simp] theorem run_ite {c : Prop} [Decidable c] (m n : EStateM ε σ α) (s : σ) :
    (if c then m else n).run s = if c then m.run s else n.run s := by
  split <;> rfl

@[simp] theorem run_tryCatch (m : EStateM ε σ α) (handle : ε → EStateM ε σ α) (s : σ) :
    (tryCatch m handle).run s =
      match m.run s with
      | .ok a t => .ok a t
      | .error e t => (handle e).run t := by
  change EStateM.tryCatch m handle s = _
  unfold EStateM.tryCatch EStateM.run
  cases m s <;> rfl

/-- The store in which a run ended. -/
def store : EStateM.Result ε σ α → σ
  | .ok _ t => t
  | .error _ t => t

@[simp] theorem store_ok (a : α) (t : σ) : store (.ok a t : EStateM.Result ε σ α) = t := rfl

@[simp] theorem store_error (e : ε) (t : σ) : store (.error e t : EStateM.Result ε σ α) = t := rfl

/-- The store `m` leaves when it is started in `s`, whether it returns or raises. -/
def after (m : EStateM ε σ α) (s : σ) : σ := store (m.run s)

theorem after_of_ok {m : EStateM ε σ α} {s t : σ} {a : α} (h : m.run s = .ok a t) : after m s = t := by
  simp [after, h]

theorem after_of_error {m : EStateM ε σ α} {s t : σ} {e : ε} (h : m.run s = .error e t) : after m s = t := by
  simp [after, h]

/-! ### Inversion of a sequence -/

theorem bind_eq_ok {m : EStateM ε σ α} {f : α → EStateM ε σ β} {s u : σ} {b : β} :
    (m >>= f).run s = .ok b u ↔ ∃ a t, m.run s = .ok a t ∧ (f a).run t = .ok b u := by
  rw [EStateM.run_bind]
  cases m.run s with
  | ok a t => simp [and_assoc]
  | error e t => simp

theorem after_bind_of_ok {m : EStateM ε σ α} {f : α → EStateM ε σ β} {s t : σ} {a : α} (h : m.run s = .ok a t) :
    after (m >>= f) s = after (f a) t := by
  simp [after, h]

theorem after_bind_of_error {m : EStateM ε σ α} {f : α → EStateM ε σ β} {s t : σ} {e : ε}
    (h : m.run s = .error e t) : after (m >>= f) s = t := by
  simp [after, h]

theorem after_modifyGet_bind {g : σ → α × σ} {f : α → EStateM ε σ β} {s : σ} :
    after (modifyGet g >>= f) s = after (f (g s).1) (g s).2 := rfl

/-! ### Faults -/

/-- A step that fails does so before it has an effect, or after. -/
inductive Fault where
  | before
  | after
  deriving DecidableEq, Repr

/-- The step `m`, or its failure with `e`. -/
def attempt (fault : Option Fault) (e : ε) (m : EStateM ε σ α) : EStateM ε σ α :=
  match fault with
  | none => m
  | some .before => throw e
  | some .after => do
    let _ ← m
    throw e

section
variable {fault : Option Fault} {e : ε} {m : EStateM ε σ α} {f : α → EStateM ε σ β} {s t : σ} {a : α}

theorem after_attempt_bind_of_none (hf : fault = none) (h : m.run s = .ok a t) :
    after (attempt fault e m >>= f) s = after (f a) t := by
  rw [hf, attempt]
  exact after_bind_of_ok h

theorem after_attempt_bind_of_error {e' : ε} (h : m.run s = .error e' t) :
    after (attempt fault e m >>= f) s = s ∨ after (attempt fault e m >>= f) s = t := by
  rcases fault with _ | _ | _
  · exact .inr (after_bind_of_error h)
  · exact .inl rfl
  · exact .inr (by simp [attempt, after, h])

/-- What holds where the step starts, where it ends and of all that follows it holds at the end. -/
theorem after_attempt_bind {Q : σ → Prop} (h : m.run s = .ok a t) (before : fault = some .before → Q s)
    (late : fault = some .after → Q t) (next : fault = none → Q (after (f a) t)) :
    Q (after (attempt fault e m >>= f) s) := by
  rcases fault with _ | _ | _
  · rw [after_attempt_bind_of_none rfl h]
    exact next rfl
  · exact before rfl
  · have stop : after (attempt (some .after) e m >>= f) s = t := by simp [attempt, after, h]
    rw [stop]
    exact late rfl

/-- After a failed step, nothing more of the program happens. -/
theorem after_attempt_bind_of_fault (hf : fault ≠ none) (h : m.run s = .ok a t) :
    after (attempt fault e m >>= f) s = s ∧ fault = some .before ∨
    after (attempt fault e m >>= f) s = t ∧ fault = some .after := by
  rcases fault with _ | _ | _
  · exact absurd rfl hf
  · exact .inl ⟨rfl, rfl⟩
  · exact .inr ⟨by simp [attempt, after, h], rfl⟩

end

/-! ### Before and after -/

/-- Started where `P` holds, `m` ends where `Q` holds, whether it returns or raises. -/
def Leads (P : σ → Prop) (m : EStateM ε σ α) (Q : σ → Prop) : Prop := ∀ s, P s → Q (after m s)

variable {P M Q : σ → Prop}

theorem Leads.pure (h : ∀ s, P s → Q s) (a : α) : Leads P (pure a : EStateM ε σ α) Q := h

theorem Leads.throw (h : ∀ s, P s → Q s) (e : ε) : Leads P (throw e : EStateM ε σ α) Q := h

theorem Leads.throw_bind (h : ∀ s, P s → Q s) (e : ε) (f : α → EStateM ε σ β) :
    Leads P ((MonadExcept.throw e : EStateM ε σ α) >>= f) Q := h

theorem Leads.get (h : ∀ s, P s → Q s) : Leads P (get : EStateM ε σ σ) Q := h

theorem Leads.set {t : σ} (h : Q t) : Leads P (set t : EStateM ε σ PUnit) Q := fun _ _ => h

theorem Leads.modify {f : σ → σ} (h : ∀ s, P s → Q (f s)) : Leads P (modify f : EStateM ε σ PUnit) Q := h

theorem Leads.modifyGet {f : σ → α × σ} (h : ∀ s, P s → Q (f s).2) : Leads P (modifyGet f : EStateM ε σ α) Q := h

theorem Leads.bind {m : EStateM ε σ α} {f : α → EStateM ε σ β} (hm : Leads P m M) (hf : ∀ a, Leads M (f a) Q)
    (raised : ∀ s, M s → Q s) : Leads P (m >>= f) Q := by
  intro s hs
  cases h : m.run s with
  | ok a t =>
    rw [after_bind_of_ok h]
    exact hf a t (after_of_ok h ▸ hm s hs)
  | error e t =>
    rw [after_bind_of_error h]
    exact raised t (after_of_error h ▸ hm s hs)

theorem Leads.ite {c : Prop} [Decidable c] {m n : EStateM ε σ α} (hm : c → Leads P m Q) (hn : ¬c → Leads P n Q) :
    Leads P (if c then m else n) Q := by
  split
  · exact hm ‹_›
  · exact hn ‹_›

/-! ### Before and after, with the value returned -/

/-- A run returned a value with a store of which `R` holds, or raised where `E` holds. -/
inductive Ends (R : α → σ → Prop) (E : σ → Prop) : EStateM.Result ε σ α → Prop
  | returned {a : α} {t : σ} (h : R a t) : Ends R E (.ok a t)
  | raised {e : ε} {t : σ} (h : E t) : Ends R E (.error e t)

/-- Every run of `m` from where `P` holds ends so. -/
def Returns (P : σ → Prop) (m : EStateM ε σ α) (R : α → σ → Prop) (E : σ → Prop) : Prop := ∀ s, P s → Ends R E (m.run s)

variable {E : σ → Prop} {R : α → σ → Prop} {S : β → σ → Prop}

theorem Returns.leads {m : EStateM ε σ α} (h : Returns P m (fun _ => Q) Q) : Leads P m Q := by
  intro s hs
  have hm := h s hs
  unfold after
  generalize m.run s = result at hm ⊢
  cases hm with
  | returned ht => exact ht
  | raised ht => exact ht

theorem Returns.of_leads {m : EStateM ε σ α} (h : Leads P m Q) : Returns P m (fun _ => Q) Q := by
  intro s hs
  have hm := h s hs
  unfold after at hm
  cases hr : m.run s with
  | ok a t => exact .returned (by rwa [hr] at hm)
  | error e t => exact .raised (by rwa [hr] at hm)

theorem Returns.pure {a : α} (h : ∀ s, P s → R a s) : Returns P (pure a : EStateM ε σ α) R E :=
  fun s hs => .returned (h s hs)

theorem Returns.throw {e : ε} (h : ∀ s, P s → E s) : Returns P (throw e : EStateM ε σ α) R E :=
  fun s hs => .raised (h s hs)

theorem Returns.throw_bind {e : ε} {f : α → EStateM ε σ β} (h : ∀ s, P s → E s) :
    Returns P ((MonadExcept.throw e : EStateM ε σ α) >>= f) S E := fun s hs => .raised (h s hs)

theorem Returns.get {R : σ → σ → Prop} (h : ∀ s, P s → R s s) : Returns P (get : EStateM ε σ σ) R E :=
  fun s hs => .returned (h s hs)

theorem Returns.set {t : σ} {R : PUnit → σ → Prop} (h : R ⟨⟩ t) : Returns P (set t : EStateM ε σ PUnit) R E :=
  fun _ _ => .returned h

theorem Returns.modify {f : σ → σ} {R : PUnit → σ → Prop} (h : ∀ s, P s → R ⟨⟩ (f s)) :
    Returns P (modify f : EStateM ε σ PUnit) R E := fun s hs => .returned (h s hs)

theorem Returns.mono {m : EStateM ε σ α} {S : α → σ → Prop} {F : σ → Prop} (hm : Returns P m R E)
    (returned : ∀ a s, R a s → S a s) (raised : ∀ s, E s → F s) : Returns P m S F := by
  intro s hs
  have h := hm s hs
  generalize m.run s = result at h ⊢
  cases h with
  | returned h => exact .returned (returned _ _ h)
  | raised h => exact .raised (raised _ h)

theorem Returns.bind {m : EStateM ε σ α} {f : α → EStateM ε σ β} (hm : Returns P m R E)
    (hf : ∀ a, Returns (R a) (f a) S E) : Returns P (m >>= f) S E := by
  intro s hs
  have h := hm s hs
  rw [EStateM.run_bind]
  generalize m.run s = result at h ⊢
  cases h with
  | returned h => exact hf _ _ h
  | raised h => exact .raised h

theorem Returns.ite {c : Prop} [Decidable c] {m n : EStateM ε σ α} (hm : c → Returns P m R E)
    (hn : ¬c → Returns P n R E) : Returns P (if c then m else n) R E := by
  split
  · exact hm ‹_›
  · exact hn ‹_›

/-- The handler starts where the program has raised. -/
theorem Returns.tryCatch {m : EStateM ε σ α} {handle : ε → EStateM ε σ α} {F : σ → Prop} (hm : Returns P m R F)
    (hh : ∀ e, Returns F (handle e) R E) : Returns P (tryCatch m handle) R E := by
  intro s hs
  have h := hm s hs
  rw [run_tryCatch]
  generalize m.run s = result at h ⊢
  cases h with
  | returned h => exact .returned h
  | raised h => exact hh _ _ h

/-- What holds of values only is a hypothesis. -/
theorem Returns.given {c : Prop} {m : EStateM ε σ α} (h : c → Returns P m R E) : Returns (fun s => c ∧ P s) m R E :=
  fun s hs => h hs.1 s hs.2

/-- A step that may fail raises where it started, or where it ended. -/
theorem Returns.attempt {fault : Option Fault} {e : ε} {m : EStateM ε σ α} (hm : Returns P m R E)
    (before : ∀ s, P s → E s) (after : ∀ a s, R a s → E s) : Returns P (attempt fault e m) R E := by
  rcases fault with _ | _ | _
  · exact hm
  · exact Returns.throw before
  · exact Returns.bind hm fun a => Returns.throw (after a)

/-- A step that raises only where it fails tells which of the two happened. -/
theorem Returns.step {fault : Option Fault} {e : ε} {m : EStateM ε σ α} (hm : Returns P m R fun _ => False)
    (before : fault = some .before → ∀ s, P s → E s) (after : fault = some .after → ∀ a s, R a s → E s) :
    Returns P (Program.attempt fault e m) (fun a s => fault = none ∧ R a s) E := by
  rcases fault with _ | _ | _
  · exact hm.mono (fun _ _ h => ⟨rfl, h⟩) fun _ h => h.elim
  · exact Returns.throw (before rfl)
  · exact Returns.bind (hm.mono (fun _ _ h => h) fun _ h => h.elim) fun a => Returns.throw (after rfl a)

/-! ### Before and after, with the value returned or the error raised -/

/-- A run returned a value with a store of which `R` holds, or raised an error with a store of which `F` holds. -/
inductive Settled (R : α → σ → Prop) (F : ε → σ → Prop) : EStateM.Result ε σ α → Prop
  | returned {a : α} {t : σ} (h : R a t) : Settled R F (.ok a t)
  | raised {e : ε} {t : σ} (h : F e t) : Settled R F (.error e t)

def Settles (P : σ → Prop) (m : EStateM ε σ α) (R : α → σ → Prop) (F : ε → σ → Prop) : Prop := ∀ s, P s → Settled R F (m.run s)

variable {F : ε → σ → Prop}

theorem Settles.pure {a : α} (h : ∀ s, P s → R a s) : Settles P (pure a : EStateM ε σ α) R F := fun s hs => .returned (h s hs)

theorem Settles.throw {e : ε} (h : ∀ s, P s → F e s) : Settles P (throw e : EStateM ε σ α) R F := fun s hs => .raised (h s hs)

theorem Settles.throw_bind {e : ε} {f : α → EStateM ε σ β} (h : ∀ s, P s → F e s) :
    Settles P ((MonadExcept.throw e : EStateM ε σ α) >>= f) S F := fun s hs => .raised (h s hs)

theorem Settles.modify {f : σ → σ} {R : PUnit → σ → Prop} (h : ∀ s, P s → R ⟨⟩ (f s)) :
    Settles P (modify f : EStateM ε σ PUnit) R F := fun s hs => .returned (h s hs)

theorem Settles.modifyGet {f : σ → α × σ} (h : ∀ s, P s → R (f s).1 (f s).2) : Settles P (modifyGet f : EStateM ε σ α) R F :=
  fun s hs => .returned (h s hs)

theorem Settles.set {t : σ} {R : PUnit → σ → Prop} (h : R ⟨⟩ t) : Settles P (set t : EStateM ε σ PUnit) R F :=
  fun _ _ => .returned h

theorem Settles.mono {m : EStateM ε σ α} {S : α → σ → Prop} {G : ε → σ → Prop} (hm : Settles P m R F)
    (returned : ∀ a s, R a s → S a s) (raised : ∀ e s, F e s → G e s) : Settles P m S G := by
  intro s hs
  have h := hm s hs
  generalize m.run s = result at h ⊢
  cases h with
  | returned h => exact .returned (returned _ _ h)
  | raised h => exact .raised (raised _ _ h)

theorem Settles.leads {m : EStateM ε σ α} (h : Settles P m (fun _ => Q) fun _ => Q) : Leads P m Q := by
  intro s hs
  have hm := h s hs
  unfold after
  generalize m.run s = result at hm ⊢
  cases hm with
  | returned ht => exact ht
  | raised ht => exact ht

theorem Settles.of {m : EStateM ε σ α} (hm : Settles M m R F) (start : ∀ s, P s → M s) : Settles P m R F :=
  fun s hs => hm s (start s hs)

theorem Settles.bind {m : EStateM ε σ α} {f : α → EStateM ε σ β} (hm : Settles P m R F) (hf : ∀ a, Settles (R a) (f a) S F) :
    Settles P (m >>= f) S F := by
  intro s hs
  have h := hm s hs
  rw [EStateM.run_bind]
  generalize m.run s = result at h ⊢
  cases h with
  | returned h => exact hf _ _ h
  | raised h => exact .raised h

/-- A run that is known. -/
theorem Settles.of_run {m : EStateM ε σ α} {s t : σ} {a : α} (h : m.run s = .ok a t) :
    Settles (· = s) m (fun b u => b = a ∧ u = t) F := by
  rintro _ rfl
  rw [h]
  exact .returned ⟨rfl, rfl⟩

theorem Settles.of_run_error {m : EStateM ε σ α} {s t : σ} {e : ε} (h : m.run s = .error e t) (raised : F e t) :
    Settles (· = s) m R F := by
  rintro _ rfl
  rw [h]
  exact .raised raised

/-- What is read is the store in which the rest starts. -/
theorem Settles.get_bind {f : σ → EStateM ε σ β} (h : ∀ s, P s → Settles (· = s) (f s) S F) : Settles P (get >>= f) S F :=
  fun s hs => h s hs s rfl

theorem Settles.ite {c : Prop} [Decidable c] {m n : EStateM ε σ α} (hm : c → Settles P m R F) (hn : ¬c → Settles P n R F) :
    Settles P (if c then m else n) R F := by
  split
  · exact hm ‹_›
  · exact hn ‹_›

/-- A step that is taken where `c` holds. -/
theorem Settles.ite_bind {c : Prop} [Decidable c] {m : EStateM ε σ Unit} {f : Unit → EStateM ε σ β} {M : σ → Prop}
    (hm : c → Settles P m (fun _ => M) F) (hn : ¬c → ∀ s, P s → M s) (hf : Settles M (f ()) S F) :
    Settles P (if c then m >>= f else f ()) S F :=
  Settles.ite (fun h => Settles.bind (hm h) fun _ => hf) fun h => Settles.of hf (hn h)

/-- What holds of values only is a hypothesis. -/
theorem Settles.given {c : Prop} {m : EStateM ε σ α} (h : c → Settles P m R F) : Settles (fun s => c ∧ P s) m R F :=
  fun s hs => h hs.1 s hs.2

/-- A step that may fail raises where it started, or where it ended. -/
theorem Settles.attempt {fault : Option Fault} {e : ε} {m : EStateM ε σ α} {S : α → σ → Prop} (hm : Settles P m R F)
    (next : fault = none → ∀ a s, R a s → S a s) (before : fault = some .before → ∀ s, P s → F e s)
    (after : fault = some .after → ∀ a s, R a s → F e s) : Settles P (Program.attempt fault e m) S F := by
  rcases fault with _ | _ | _
  · exact hm.mono (next rfl) fun _ _ h => h
  · exact Settles.throw (before rfl)
  · exact Settles.bind hm fun a => Settles.throw (after rfl a)

/-- The handler starts with the error that the program has raised. -/
theorem Settles.tryCatch {m : EStateM ε σ α} {handle : ε → EStateM ε σ α} {G : ε → σ → Prop} (hm : Settles P m R G)
    (hh : ∀ e, Settles (G e) (handle e) R F) : Settles P (tryCatch m handle) R F := by
  intro s hs
  have h := hm s hs
  rw [run_tryCatch]
  generalize m.run s = result at h ⊢
  cases h with
  | returned h => exact .returned h
  | raised h => exact hh _ _ h

end Program
