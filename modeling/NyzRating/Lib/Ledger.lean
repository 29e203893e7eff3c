import NyzRating.Lib.Process
import Mathlib.Logic.Function.Basic

/-!
# Ledgers of migrations

A target is brought up to date by migrations in a fixed order. Each is installed, in parts of which each commits on its own,
and then its key is recorded in the ledger of the target; what is recorded is not installed again. Several processes may do
so at a time, and each of them may stop anywhere.
-/

namespace Ledger

open Process

/-- A part needs some objects, and creates others unless they are there. -/
structure Part (ο : Type) where
  needs : List ο := []
  creates : List ο := []

structure Migration (κ ο : Type) where
  key : κ
  parts : List (Part ο)

/-- What there is of a target. -/
structure Area (κ ο : Type) where
  recorded : List κ := []
  objects : List ο := []

abbrev Store (τ κ ο : Type) := τ → Option (Area κ ο)

inductive Op (τ κ ο : Type) where
  /-- Creates the target and its ledger, unless they are there. -/
  | ensure (target : τ)
  | read (target : τ)
  | part (target : τ) (key : κ) (part : Part ο)
  | record (target : τ) (key : κ)

variable {τ κ ο ε α : Type}

/-! ### What the ledger says -/

variable {s s' : Store τ κ ο} {t : τ} {key : κ}

def Recorded (s : Store τ κ ο) (t : τ) (key : κ) : Prop := ∃ a, s t = some a ∧ key ∈ a.recorded

def Created (s : Store τ κ ο) (t : τ) (objects : List ο) : Prop := ∃ a, s t = some a ∧ ∀ o ∈ objects, o ∈ a.objects

/-- The ledgers and the objects only grow. -/
def Grows (s s' : Store τ κ ο) : Prop :=
  ∀ t a, s t = some a → ∃ a', s' t = some a' ∧ (∀ k ∈ a.recorded, k ∈ a'.recorded) ∧ ∀ o ∈ a.objects, o ∈ a'.objects

theorem Grows.refl (s : Store τ κ ο) : Grows s s := fun _ a h => ⟨a, h, fun _ => id, fun _ => id⟩

theorem Grows.trans {s'' : Store τ κ ο} (h : Grows s s') (h' : Grows s' s'') : Grows s s'' := by
  intro t a at_t
  obtain ⟨b, at_t, keys, objects⟩ := h t a at_t
  obtain ⟨c, at_t, keys', objects'⟩ := h' t b at_t
  exact ⟨c, at_t, fun k mem => keys' k (keys k mem), fun o mem => objects' o (objects o mem)⟩

theorem Recorded.grows (h : Recorded s t key) (le : Grows s s') : Recorded s' t key := by
  obtain ⟨a, at_t, mem⟩ := h
  obtain ⟨b, at_t, keys, -⟩ := le t a at_t
  exact ⟨b, at_t, keys key mem⟩

theorem Created.grows {objects : List ο} (h : Created s t objects) (le : Grows s s') : Created s' t objects := by
  obtain ⟨a, at_t, mem⟩ := h
  obtain ⟨b, at_t, -, more⟩ := le t a at_t
  exact ⟨b, at_t, fun o there => more o (mem o there)⟩

section
variable [DecidableEq τ]

/-- A change of one target that only adds to it. -/
theorem Grows.update {a' : Option (Area κ ο)} (more : ∀ a, s t = some a →
    ∃ b, a' = some b ∧ (∀ k ∈ a.recorded, k ∈ b.recorded) ∧ ∀ o ∈ a.objects, o ∈ b.objects) :
    Grows s (Function.update s t a') := by
  intro u a at_u
  rcases eq_or_ne u t with rfl | other
  · obtain ⟨b, rfl, keys, objects⟩ := more a at_u
    exact ⟨b, Function.update_self .., keys, objects⟩
  · exact ⟨a, (Function.update_of_ne other ..).trans at_u, fun _ => id, fun _ => id⟩

theorem recorded_update {a' : Option (Area κ ο)} {u : τ}
    (h : Recorded (Function.update s u a') t key) :
    Recorded s t key ∨ t = u ∧ ∃ b, a' = some b ∧ key ∈ b.recorded := by
  obtain ⟨b, at_t, mem⟩ := h
  rcases eq_or_ne t u with rfl | other
  · rw [Function.update_self] at at_t
    exact .inr ⟨rfl, b, at_t, mem⟩
  · rw [Function.update_of_ne other] at at_t
    exact .inl ⟨b, at_t, mem⟩

end

/-! ### Plans -/

/-- What the parts create. -/
def created (parts : List (Part ο)) : List ο := parts.flatMap (·.creates)

/-- The migrations of each target, in their order. No two of a target share a key. -/
structure Plan (τ κ ο : Type) where
  migrations : τ → List (Migration κ ο)
  distinct : ∀ t, ((migrations t).map (·.key)).Nodup

variable (plan : Plan τ κ ο)

def UpToDate (s : Store τ κ ο) (t : τ) : Prop := ∀ m ∈ plan.migrations t, Recorded s t m.key

variable {plan} {m : Migration κ ο} {done ms : List (Migration κ ο)}

theorem UpToDate.grows (h : UpToDate plan s t) (le : Grows s s') : UpToDate plan s' t := fun m mem => (h m mem).grows le

theorem Plan.eq_of_key {m' : Migration κ ο} (mem : m ∈ plan.migrations t) (mem' : m' ∈ plan.migrations t) (same : m'.key = m.key) :
    m' = m :=
  List.inj_on_of_nodup_map (plan.distinct t) mem' mem same

section
variable [DecidableEq ο]

/-- What the part needs is there, or made by it. -/
def Part.Fits (p : Part ο) (a : Area κ ο) : Prop := ∀ o ∈ p.needs, o ∈ p.creates ++ a.objects

instance (p : Part ο) (a : Area κ ο) : Decidable (p.Fits a) := inferInstanceAs (Decidable (∀ o ∈ p.needs, o ∈ p.creates ++ a.objects))

/-- A part that fails leaves nothing. -/
def Area.create (p : Part ο) (a : Area κ ο) : Area κ ο := if p.Fits a then { a with objects := p.creates ++ a.objects } else a

theorem Area.create_recorded (p : Part ο) (a : Area κ ο) : (a.create p).recorded = a.recorded := by
  unfold Area.create
  split <;> rfl

theorem Area.mem_create {p : Part ο} {a : Area κ ο} {o : ο} (mem : o ∈ a.objects) : o ∈ (a.create p).objects := by
  unfold Area.create
  split
  · exact List.mem_append_right _ mem
  · exact mem

end

variable [DecidableEq κ]

variable (plan) in
/-- The migrations that come before the key. -/
def Plan.earlier (t : τ) (key : κ) : List (Migration κ ο) := (plan.migrations t).takeWhile (·.key ≠ key)

variable (plan) in
def Ready (s : Store τ κ ο) (t : τ) (key : κ) : Prop := ∀ m ∈ plan.earlier t key, Recorded s t m.key

variable (plan) in
/-- What is recorded is there. -/
def Sound (s : Store τ κ ο) : Prop :=
  ∀ t, ∀ m ∈ plan.migrations t, Recorded s t m.key → Created s t (created m.parts)

variable (plan) in
/-- What a call finds: parts are installed on top of what comes before, and a key is recorded after all of its parts. -/
def Finds (op : Op τ κ ο) (s : Store τ κ ο) : Prop :=
  match op with
  | .part t key p => Ready plan s t key ∧ ∃ m ∈ plan.migrations t, m.key = key ∧
      ∃ before after, m.parts = before ++ p :: after ∧ Created s t (created before)
  | .record t key => Created s t [] ∧ Ready plan s t key ∧
      ∀ m ∈ plan.migrations t, m.key = key → Created s t (created m.parts)
  | .read t => Created s t []
  | .ensure _ => True

theorem Plan.earlier_eq (at_t : plan.migrations t = done ++ m :: ms) : plan.earlier t m.key = done := by
  have distinct := plan.distinct t
  rw [at_t, List.map_append, List.nodup_append] at distinct
  have others : ∀ m' ∈ done, decide (m'.key ≠ m.key) = true := fun m' mem =>
    decide_eq_true (distinct.2.2 _ (List.mem_map_of_mem mem) _ List.mem_cons_self)
  rw [Plan.earlier, at_t, List.takeWhile_append_of_pos others, List.takeWhile_cons_of_neg (by simp), List.append_nil]

/-! ### Calls -/

def Area.record (key : κ) (a : Area κ ο) : Area κ ο :=
  if key ∈ a.recorded then a else { a with recorded := a.recorded ++ [key] }

theorem Area.record_objects (key : κ) (a : Area κ ο) : (a.record key).objects = a.objects := by
  unfold Area.record
  split <;> rfl

theorem Area.mem_recorded_record {k : κ} {a : Area κ ο} : k ∈ (a.record key).recorded ↔ k ∈ a.recorded ∨ k = key := by
  unfold Area.record
  split
  · next there => exact ⟨.inl, fun h => h.elim id fun same => same ▸ there⟩
  · simp

variable [DecidableEq τ] [DecidableEq ο]

def apply : Op τ κ ο → Store τ κ ο → Store τ κ ο
  | .ensure t, s => Function.update s t (some ((s t).getD {}))
  | .read _, s => s
  | .part t _ p, s => Function.update s t ((s t).map (·.create p))
  | .record t key, s => Function.update s t ((s t).map (·.record key))

/-! ### Catching up -/

section Calls

variable (undefined : τ → ε) (t : τ)

/-- A statement about the target fails where it is not there. -/
def present (s : Store τ κ ο) : Except ε Unit := if (s t).isSome then .ok () else .error (undefined t)

def readLedger : Process (Op τ κ ο) (Store τ κ ο) ε (List κ) :=
  attempt (.read t) fun s => (s t).elim (.error (undefined t)) fun a => .ok a.recorded

def fits (p : Part ο) (s : Store τ κ ο) : Except ε Unit :=
  match s t with
  | none => .error (undefined t)
  | some a => if p.Fits a then .ok () else .error (undefined t)

def install (key : κ) : List (Part ο) → Process (Op τ κ ο) (Store τ κ ο) ε Unit
  | [] => pure ()
  | p :: parts => do
    attempt (.part t key p) (fits undefined t p)
    install key parts

def applyPending : List (Migration κ ο) → (applied : List κ) → Process (Op τ κ ο) (Store τ κ ο) ε Unit
  | [], _ => pure ()
  | m :: ms, applied =>
    if m.key ∈ applied then applyPending ms applied
    else do
      install undefined t m.key m.parts
      attempt (.record t m.key) (present undefined t)
      applyPending ms (m.key :: applied)

end Calls

theorem grows_apply (op : Op τ κ ο) (s : Store τ κ ο) : Grows s (apply op s) := by
  cases op with
  | ensure t => exact Grows.update fun a at_t => ⟨a, congrArg some (congrArg (·.getD {}) at_t), fun _ => id, fun _ => id⟩
  | read t => exact Grows.refl s
  | part t key p =>
    refine Grows.update fun a at_t => ⟨a.create p, by rw [at_t]; rfl, fun k mem => ?_, fun o mem => ?_⟩
    · rwa [Area.create_recorded]
    · exact Area.mem_create mem
  | record t key =>
    refine Grows.update fun a at_t => ⟨a.record key, by rw [at_t]; rfl, fun k mem => ?_, fun o mem => ?_⟩
    · exact Area.mem_recorded_record.mpr (.inl mem)
    · rwa [Area.record_objects]

variable (key) in
theorem Created.part {undefined : τ → ε} {p : Part ο} (runs : fits undefined t p s = .ok ()) :
    Created (apply (.part t key p) s) t p.creates := by
  cases at_t : s t with
  | none => simp [fits, at_t] at runs
  | some a =>
    have suits : p.Fits a := by
      simp only [fits, at_t] at runs
      split at runs
      · assumption
      · cases runs
    refine ⟨a.create p, ?_, fun o mem => ?_⟩
    · rw [apply, Function.update_self, at_t]
      rfl
    · rw [Area.create, if_pos suits]
      exact List.mem_append_left _ mem

theorem Created.ensure : Created (apply (.ensure t) s) t [] :=
  ⟨(s t).getD {}, Function.update_self .., fun _ => List.not_mem_nil.elim⟩

variable (key) in
theorem Recorded.record (there : (s t).isSome) : Recorded (apply (.record t key) s) t key := by
  obtain ⟨a, at_t⟩ := Option.isSome_iff_exists.mp there
  refine ⟨a.record key, ?_, Area.mem_recorded_record.mpr (.inr rfl)⟩
  rw [apply, Function.update_self, at_t]
  rfl

/-- What a call records is what it names. -/
theorem recorded_apply {op : Op τ κ ο} (h : Recorded (apply op s) t key) : Recorded s t key ∨ op = .record t key := by
  cases op with
  | read u => exact .inl h
  | ensure u =>
    rcases recorded_update h with old | ⟨rfl, b, at_t, mem⟩
    · exact .inl old
    · obtain rfl := Option.some.inj at_t
      cases before : s t with
      | none => rw [before] at mem; cases mem
      | some a => rw [before] at mem; exact .inl ⟨a, before, mem⟩
  | part u k p =>
    rcases recorded_update h with old | ⟨rfl, b, at_t, mem⟩
    · exact .inl old
    · obtain ⟨a, before, rfl⟩ := Option.map_eq_some_iff.mp at_t
      exact .inl ⟨a, before, Area.create_recorded p a ▸ mem⟩
  | record u k =>
    rcases recorded_update h with old | ⟨rfl, b, at_t, mem⟩
    · exact .inl old
    · obtain ⟨a, before, rfl⟩ := Option.map_eq_some_iff.mp at_t
      rcases Area.mem_recorded_record.mp mem with old | rfl
      · exact .inl ⟨a, before, old⟩
      · exact .inr rfl

theorem Sound.apply {op : Op τ κ ο} (h : Sound plan s) (finds : Finds plan op s) : Sound plan (Ledger.apply op s) := by
  intro t m mem recorded
  rcases recorded_apply recorded with old | rfl
  · exact (h t m mem old).grows (grows_apply op s)
  · exact (finds.2.2 m mem rfl).grows (grows_apply _ s)

variable (plan) in
def rely : Rely (apply (τ := τ) (κ := κ) (ο := ο)) where
  le := Grows
  refl := Grows.refl
  trans := Grows.trans
  finds := Finds plan
  follows op s _ := grows_apply op s

variable {undefined : τ → ε} {ops : List (Op τ κ ο)} {start : Store τ κ ο}

theorem outline_install (at_t : plan.migrations t = done ++ m :: ms) (ready : ∀ m' ∈ done, Recorded start t m'.key)
    {parts before : List (Part ο)} (split : m.parts = before ++ parts) (le : Grows start s) (there : Created s t (created before)) :
    (rely plan).Outline (fun _ _ s' => Grows start s' ∧ Created s' t (created m.parts)) (install undefined t m.key parts) ops s := by
  induction parts generalizing before ops s with
  | nil =>
    refine ⟨le, ?_⟩
    rwa [split, List.append_nil]
  | cons p parts ih =>
    refine Rely.Outline.attempt_bind fun u more => ⟨⟨?_, m, ?_, rfl, before, parts, split, there.grows more⟩, fun _ runs => ?_⟩
    · intro m' mem
      rw [Plan.earlier_eq at_t] at mem
      exact ((ready m' mem).grows le).grows more
    · rw [at_t]
      exact List.mem_append_right _ List.mem_cons_self
    · have more' : Grows s _ := more.trans (grows_apply (.part t m.key p) u)
      have split : m.parts = (before ++ [p]) ++ parts := by
        rw [split, List.append_assoc]
        rfl
      refine ih split (le.trans more') ?_
      obtain ⟨b, at_t, new⟩ := Created.part m.key runs
      obtain ⟨c, at_t', old⟩ := there.grows more'
      obtain rfl := Option.some.inj (at_t.symm.trans at_t')
      refine ⟨b, at_t, fun o mem => ?_⟩
      rw [created, List.flatMap_append, List.mem_append, List.flatMap_singleton] at mem
      exact mem.elim (old o) (new o)

/-- Whatever the others do, a process that comes to the end of the migrations leaves the target up to date. -/
theorem outline_applyPending (at_t : plan.migrations t = done ++ ms) (ready : ∀ m ∈ done, Recorded s t m.key) {applied : List κ}
    (read : ∀ k ∈ applied, Recorded s t k) (there : Created s t []) :
    (rely plan).Outline (fun _ _ s => UpToDate plan s t) (applyPending undefined t ms applied) ops s := by
  induction ms generalizing done applied ops s with
  | nil =>
    rw [List.append_nil] at at_t
    intro m mem
    exact ready m (at_t ▸ mem)
  | cons m ms ih =>
    have rest : plan.migrations t = (done ++ [m]) ++ ms := by rw [at_t, List.append_assoc]; rfl
    have mem : m ∈ plan.migrations t := at_t ▸ List.mem_append_right _ List.mem_cons_self
    unfold applyPending
    split
    · next known =>
      refine ih rest (fun m' mem => ?_) read there
      rcases List.mem_append.mp mem with old | new
      · exact ready m' old
      · rw [List.mem_singleton.mp new]
        exact read m.key known
    · have all : m.parts = [] ++ m.parts := rfl
      refine Rely.Outline.bind (outline_install at_t ready all (Grows.refl s) there) fun _ ops u ⟨more, created⟩ => ?_
      refine Rely.Outline.attempt_bind fun v more' => ⟨⟨(there.grows more).grows more', ?_, ?_⟩, fun _ _ => ?_⟩
      · intro m' mem
        rw [Plan.earlier_eq at_t] at mem
        exact ((ready m' mem).grows more).grows more'
      · intro m' mem' same
        rw [Plan.eq_of_key mem mem' same]
        exact created.grows more'
      · have le : Grows s _ := (more.trans more').trans (grows_apply (.record t m.key) v)
        obtain ⟨a, at_v, -⟩ := created.grows more'
        have new := Recorded.record m.key (Option.isSome_iff_exists.mpr ⟨a, at_v⟩)
        refine ih rest (fun m' mem => ?_) (fun k mem => ?_) (there.grows le)
        · rcases List.mem_append.mp mem with old | last
          · exact (ready m' old).grows le
          · rwa [List.mem_singleton.mp last]
        · rcases List.mem_cons.mp mem with rfl | old
          · exact new
          · exact (read k old).grows le

theorem outline_catchUp (there : Created s t []) : (rely plan).Outline (fun _ _ s => UpToDate plan s t)
    (readLedger undefined t >>= applyPending undefined t (plan.migrations t)) ops s := by
  refine Rely.Outline.attempt_bind fun u le => ⟨there.grows le, fun applied read => ?_⟩
  have known : ∀ k ∈ applied, Recorded u t k := by
    intro k mem
    cases at_t : u t with
    | none => rw [at_t] at read; cases read
    | some a =>
      rw [at_t] at read
      cases read
      exact ⟨a, at_t, mem⟩
  have none_before : ∀ m ∈ ([] : List (Migration κ ο)), Recorded u t m.key := fun m mem => absurd mem List.not_mem_nil
  exact outline_applyPending (List.nil_append _).symm none_before known (there.grows le)

/-! ### One after another -/

/-- What is installed is not recorded yet. -/
def Pending (op : Op τ κ ο) (s : Store τ κ ο) : Prop :=
  match op with
  | .part t key _ => ¬Recorded s t key
  | _ => True

theorem alone_install {parts : List (Part ο)} (pending : ¬Recorded s t key) :
    Alone apply Pending (fun _ s' => ∀ k, Recorded s' t k → Recorded s t k) (install undefined t key parts) s := by
  induction parts generalizing s with
  | nil => exact fun _ => id
  | cons p parts ih =>
    refine Alone.attempt_bind pending fun _ _ => ?_
    have same : ∀ k, Recorded (apply (.part t key p) s) t k → Recorded s t k := by
      intro k recorded
      rcases recorded_apply recorded with old | named
      · exact old
      · cases named
    exact (ih fun recorded => pending (same key recorded)).mono fun _ _ kept k recorded => same k (kept k recorded)

theorem alone_applyPending (distinct : (ms.map (·.key)).Nodup) {applied : List κ}
    (read : ∀ m ∈ ms, Recorded s t m.key → m.key ∈ applied) :
    Alone apply Pending (fun _ _ => True) (applyPending undefined t ms applied) s := by
  induction ms generalizing applied s with
  | nil => trivial
  | cons m ms ih =>
    obtain ⟨fresh, distinct⟩ := List.nodup_cons.mp distinct
    have later : ∀ m ∈ ms, Recorded s t m.key → m.key ∈ applied := fun m mem => read m (List.mem_cons_of_mem _ mem)
    unfold applyPending
    split
    · exact ih distinct later
    · next unknown =>
      refine (alone_install fun recorded => unknown (read m List.mem_cons_self recorded)).bind fun _ u kept => ?_
      refine Alone.attempt_bind trivial fun _ _ => ih distinct fun m' mem recorded => ?_
      rcases recorded_apply recorded with old | named
      · exact List.mem_cons_of_mem _ (later m' mem (kept _ old))
      · injection named with _ same
        exact same ▸ List.mem_cons_self

variable (plan) in
theorem alone_catchUp : Alone apply Pending (fun _ _ => True)
    (readLedger undefined t >>= applyPending undefined t (plan.migrations t)) s := by
  refine Alone.attempt_bind trivial fun applied read => alone_applyPending (plan.distinct t) fun m _ ⟨a, at_t, recorded⟩ => ?_
  have at_t : s t = some a := at_t
  rw [at_t] at read
  cases read
  exact recorded

end Ledger
