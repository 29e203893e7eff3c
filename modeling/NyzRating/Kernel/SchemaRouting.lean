import NyzRating.Events.AuditLog
import NyzRating.Lib.Run
import NyzRating.Lib.Setting

/-!
# Schema routing

Source: `core/kernel/db/session.py`, `core/kernel/db/session_context.py` and `tenant_repository_base.py`. The search path is
set when a block with a session of its own is entered, and when an instance is refreshed. It lasts until the transaction on
the server ends or another repository of the same session switches to `public`; changing `current_tenant_schema` does not
touch it.
-/

namespace NyzRating.Kernel.Schema

open Runs Events

/-! ### Sessions -/

inductive Path where
  | schema (name : String)
  /-- What the server sets for a new connection. -/
  | serverDefault
  deriving DecidableEq, Repr

/-- A session, with its connection while a transaction is open. `applied` remembers the schema that the path was last set
for, unless a commit, a rollback or a switch to `public` has come after it; nothing reads it. -/
structure Session where
  connection : Option (Setting Path) := none
  applied : Option (Option String) := none
  deriving DecidableEq, Repr

/-- The idle connections of the pool, each with the path that its session has. -/
abbrev Pool := List Path

namespace Session

variable (isalnum : Char → Bool) (s : Session) (pool : Pool)

/-- A statement outside a transaction begins one, on the connection `take` of the pool, or on a new one. -/
def begin (take : Nat) : Setting Path × Pool :=
  match s.connection with
  | some c => (c, pool)
  | none =>
    match pool[take]? with
    | some before => ({ before }, pool.eraseIdx take)
    | none => ({ before := .serverDefault }, pool)

def run (take : Nat) : Session × Pool :=
  ({ s with connection := some (s.begin pool take).1 }, (s.begin pool take).2)

def applySearchPath (schema : Option String) (take : Nat) : Session × Pool :=
  ({ connection := some ((s.begin pool take).1.setLocal (.schema (searchPath isalnum schema))), applied := some schema },
    (s.begin pool take).2)

def usePublicSchema (take : Nat) : Session × Pool :=
  ({ connection := some ((s.begin pool take).1.set (.schema "public")) }, (s.begin pool take).2)

def commit : Session × Pool :=
  match s.connection with
  | none => ({}, pool)
  | some c => ({}, c.committed :: pool)

def rollback : Session × Pool :=
  match s.connection with
  | none => ({}, pool)
  | some c => ({}, c.rolledBack :: pool)

end Session

/-! ### Blocks -/

inductive Block where
  /-- `SessionContext` with a session of its own. -/
  | context (session : Session)
  /-- The outermost `transaction()`. -/
  | transaction
  /-- `SessionContext` or `transaction()` inside of one. -/
  | joined
  deriving DecidableEq, Repr

/-- A statement that was issued through a proxy: the tenant schema at the time, and the path that it ran with. -/
structure Issued where
  tenantSchema : Option String
  path : Path
  deriving DecidableEq, Repr

structure World where
  /-- `current_tenant_schema` -/
  tenantSchema : Option String := none
  /-- `current_db_session` -/
  shared : Option Session := none
  /-- The innermost block first. -/
  blocks : List Block := []
  pool : Pool := []
  issued : List Issued := []
  deriving DecidableEq, Repr

inductive Event where
  | setTenantSchema (schema : Option String)
  | enterContext (take : Nat)
  | enterTransaction (take : Nat)
  /-- The innermost block ends, by an exception or without one. -/
  | exit (raises : Bool)
  /-- A tenant repository issues a statement through the proxy of a block; a flush of its writes is one. -/
  | statement (block take : Nat)
  /-- A repository that has set the path itself does. -/
  | publicStatement (block take : Nat)
  /-- `SessionProxy.commit`, with or without writes to flush. -/
  | commit (block take : Nat) (writes : Bool)
  | rollback (block : Nat)
  | refresh (block take : Nat)
  | usePublicSchema (block take : Nat)
  deriving DecidableEq, Repr

namespace World

variable (isalnum : Char → Bool) (w : World)

/-- The session behind the proxy of a block. -/
def session? (block : Nat) : Option Session :=
  match w.blocks[block]? with
  | none => none
  | some (.context s) => some s
  | some _ => w.shared

def onSession (block : Nat) (f : Session → Pool → Session × Pool) : World :=
  match w.blocks[block]? with
  | none => w
  | some (.context s) => { w with blocks := w.blocks.set block (.context (f s w.pool).1), pool := (f s w.pool).2 }
  | some _ =>
    match w.shared with
    | none => w
    | some s => { w with shared := some (f s w.pool).1, pool := (f s w.pool).2 }

/-- A statement of a tenant repository runs. -/
def issue (block take : Nat) : World :=
  let w := w.onSession block (·.run · take)
  { w with issued := w.issued ++
      (((w.session? block).bind (·.connection)).map fun c => { tenantSchema := w.tenantSchema, path := c.current }).toList }

def enter (take : Nat) : Session × Pool := Session.applySearchPath isalnum {} w.pool w.tenantSchema take

def exit (raises : Bool) : World :=
  match w.blocks with
  | [] => w
  | .context s :: rest => { w with blocks := rest, pool := (s.rollback w.pool).2 }
  | .joined :: rest => { w with blocks := rest }
  | .transaction :: rest =>
    match w.shared with
    | none => { w with blocks := rest }
    | some s =>
      { w with blocks := rest, shared := none, pool := if raises then (s.rollback w.pool).2 else (s.commit w.pool).2 }

def step : Event → World
  | .setTenantSchema schema => { w with tenantSchema := schema }
  | .enterContext take =>
    match w.shared with
    | some _ => { w with blocks := .joined :: w.blocks }
    | none => { w with blocks := .context (w.enter isalnum take).1 :: w.blocks, pool := (w.enter isalnum take).2 }
  | .enterTransaction take =>
    match w.shared with
    | some _ => { w with blocks := .joined :: w.blocks }
    | none =>
      { w with blocks := .transaction :: w.blocks, shared := some (w.enter isalnum take).1, pool := (w.enter isalnum take).2 }
  | .exit raises => w.exit raises
  | .statement block take => w.issue block take
  | .publicStatement block take => w.onSession block (·.run · take)
  | .commit block take writes =>
    let w := if writes then w.issue block take else w
    match w.blocks[block]? with
    | some (.context _) => w.onSession block Session.commit
    | _ => w
  | .rollback block => w.onSession block Session.rollback
  | .refresh block take =>
    (w.onSession block fun s pool => s.applySearchPath isalnum pool w.tenantSchema take).issue block take
  | .usePublicSchema block take => w.onSession block fun s pool => s.usePublicSchema pool take

end World

/-! ### What a statement meets -/

def Issued.Right (i : Issued) : Prop := ∀ schema ∈ i.tenantSchema, i.path = .schema schema

section
variable (isalnum : Char → Bool)

/-- The path that was last set for a schema is still the one of the connection. -/
def Session.Sound (s : Session) : Prop :=
  ∀ schema ∈ s.applied, ∃ c ∈ s.connection, c.current = .schema (searchPath isalnum schema)

structure World.Sound (w : World) : Prop where
  contexts : ∀ s, .context s ∈ w.blocks → s.Sound isalnum
  shared : ∀ s ∈ w.shared, s.Sound isalnum

/-- The proxy has a session, and where there is a tenant schema, its name can be set. -/
def World.Settable (w : World) (block : Nat) : Prop :=
  ∀ schema ∈ w.tenantSchema, (w.session? block).isSome → searchPath isalnum (some schema) = schema

/-- The path of the block's session was last set for the tenant schema of now, and no commit, rollback or switch to `public`
on this session has come after it. -/
def World.UpToDate (w : World) (block : Nat) : Prop :=
  ∀ schema ∈ w.tenantSchema, ∀ s ∈ w.session? block, s.applied = some (some schema)

/-- What a step asks for, where it issues a statement of a tenant repository. -/
def Routed (w : World) : Event → Prop
  | .statement block _ | .commit block _ true => w.Settable isalnum block ∧ w.UpToDate block
  | .refresh block _ => w.Settable isalnum block
  | _ => True

instance (w : World) (block : Nat) : Decidable (w.Settable isalnum block) :=
  inferInstanceAs (Decidable (∀ schema ∈ w.tenantSchema, (w.session? block).isSome → searchPath isalnum (some schema) = schema))

instance (w : World) (block : Nat) : Decidable (w.UpToDate block) :=
  inferInstanceAs (Decidable (∀ schema ∈ w.tenantSchema, ∀ s ∈ w.session? block, s.applied = some (some schema)))

instance (w : World) : ∀ event, Decidable (Routed isalnum w event)
  | .statement block _ | .commit block _ true => inferInstanceAs (Decidable (w.Settable isalnum block ∧ w.UpToDate block))
  | .refresh block _ => inferInstanceAs (Decidable (w.Settable isalnum block))
  | .setTenantSchema _ | .enterContext _ | .enterTransaction _ | .exit _ | .publicStatement _ _ | .commit _ _ false
  | .rollback _ | .usePublicSchema _ _ => .isTrue trivial

end

namespace Session

variable {isalnum : Char → Bool} {s : Session} {pool : Pool}

theorem begin_of_connection {c : Setting Path} (h : s.connection = some c) (take : Nat) : (s.begin pool take).1 = c := by
  unfold begin
  rw [h]

theorem Sound.run (h : s.Sound isalnum) (take : Nat) : (s.run pool take).1.Sound isalnum := by
  intro schema applied
  obtain ⟨c, at_c, current⟩ := h schema applied
  exact ⟨_, rfl, (begin_of_connection at_c take).symm ▸ current⟩

theorem applySearchPath_sound (schema : Option String) (take : Nat) :
    (s.applySearchPath isalnum pool schema take).1.Sound isalnum := by
  intro schema' applied
  cases applied
  exact ⟨_, rfl, rfl⟩

theorem usePublicSchema_sound (take : Nat) : (s.usePublicSchema pool take).1.Sound isalnum :=
  fun _ applied => nomatch applied

theorem commit_sound : (s.commit pool).1.Sound isalnum := by
  unfold commit
  split <;> exact nofun

theorem rollback_sound : (s.rollback pool).1.Sound isalnum := by
  unfold rollback
  split <;> exact nofun

end Session

namespace World

variable {isalnum : Char → Bool} {w : World}

/-- A step on the session of a block. -/
theorem session?_onSession (block : Nat) (f : Session → Pool → Session × Pool) :
    (w.onSession block f).session? block = (w.session? block).map fun s => (f s w.pool).1 := by
  unfold onSession session?
  cases at_block : w.blocks[block]? with
  | none =>
    dsimp only
    rw [at_block]
    rfl
  | some b =>
    cases b with
    | context s =>
      dsimp only
      rw [List.getElem?_set_self (List.getElem?_eq_some_iff.mp at_block).1]
      rfl
    | transaction =>
      cases shared : w.shared with
      | none =>
        dsimp only
        rw [at_block, shared]
        rfl
      | some s =>
        dsimp only
        rw [at_block]
        rfl
    | joined =>
      cases shared : w.shared with
      | none =>
        dsimp only
        rw [at_block, shared]
        rfl
      | some s =>
        dsimp only
        rw [at_block]
        rfl

theorem Sound.session (h : w.Sound isalnum) {block : Nat} {s : Session} (at_block : w.session? block = some s) :
    s.Sound isalnum := by
  unfold session? at at_block
  split at at_block
  · cases at_block
  · next s' own =>
    cases at_block
    exact h.contexts s (List.mem_of_getElem? own)
  · exact h.shared s at_block

theorem Sound.onSession (h : w.Sound isalnum) (block : Nat) {f : Session → Pool → Session × Pool}
    (keeps : ∀ s pool, s.Sound isalnum → (f s pool).1.Sound isalnum) : (w.onSession block f).Sound isalnum := by
  unfold World.onSession
  split
  · exact h
  · next s own =>
    refine ⟨fun s' mem => ?_, h.shared⟩
    rcases List.mem_or_eq_of_mem_set mem with old | same
    · exact h.contexts s' old
    · cases same
      exact keeps s w.pool (h.contexts s (List.mem_of_getElem? own))
  · split
    · exact h
    · next s shared =>
      refine ⟨h.contexts, fun s' same => ?_⟩
      cases same
      exact keeps s w.pool (h.shared s shared)

theorem onSession_issued (block : Nat) (f : Session → Pool → Session × Pool) : (w.onSession block f).issued = w.issued := by
  unfold onSession
  split
  · rfl
  · rfl
  · split <;> rfl

theorem onSession_tenantSchema (block : Nat) (f : Session → Pool → Session × Pool) :
    (w.onSession block f).tenantSchema = w.tenantSchema := by
  unfold onSession
  split
  · rfl
  · rfl
  · split <;> rfl

theorem Sound.issue (h : w.Sound isalnum) (block take : Nat) : (w.issue block take).Sound isalnum :=
  have kept := h.onSession block fun _ _ sound => sound.run take
  ⟨kept.contexts, kept.shared⟩

/-- A statement that is issued, with the path of its session. -/
theorem mem_issue {block take : Nat} {i : Issued} (mem : i ∈ (w.issue block take).issued) :
    i ∈ w.issued ∨ ∃ s ∈ w.session? block, ∃ pool,
      i = { tenantSchema := w.tenantSchema, path := (s.begin pool take).1.current } := by
  unfold World.issue at mem
  dsimp only at mem
  rw [onSession_issued, onSession_tenantSchema, session?_onSession] at mem
  rcases List.mem_append.mp mem with old | new
  · exact .inl old
  · obtain ⟨c, at_c, rfl⟩ := Option.map_eq_some_iff.mp (Option.mem_toList.mp new)
    obtain ⟨s', at_s', at_c⟩ := Option.bind_eq_some_iff.mp at_c
    obtain ⟨s, at_s, rfl⟩ := Option.map_eq_some_iff.mp at_s'
    cases at_c
    exact .inr ⟨s, at_s, w.pool, rfl⟩

theorem Sound.issue_right {block take : Nat} (h : w.Sound isalnum) (settable : w.Settable isalnum block) (upToDate : w.UpToDate block)
    (right : ∀ i ∈ w.issued, i.Right) : ∀ i ∈ (w.issue block take).issued, i.Right := by
  intro i mem
  obtain old | ⟨s, at_s, pool, rfl⟩ := mem_issue mem
  · exact right i old
  · intro schema named
    obtain ⟨c, at_c, current⟩ := h.session at_s _ (upToDate schema named s at_s)
    show (s.begin pool take).1.current = .schema schema
    rw [Session.begin_of_connection at_c, current, settable schema named (Option.isSome_of_mem at_s)]

/-- A refresh sets the path first. -/
theorem Sound.refresh_right {block take : Nat} (h : w.Sound isalnum) (settable : w.Settable isalnum block)
    (right : ∀ i ∈ w.issued, i.Right) : ∀ i ∈ (w.step isalnum (.refresh block take)).issued, i.Right := by
  have applied : (w.onSession block fun s pool => s.applySearchPath isalnum pool w.tenantSchema take).Sound isalnum :=
    h.onSession block fun _ _ _ => Session.applySearchPath_sound _ take
  refine applied.issue_right ?_ ?_ ?_
  · intro schema named there
    rw [onSession_tenantSchema] at named
    rw [session?_onSession, Option.isSome_map] at there
    exact settable schema named there
  · intro schema named s at_s
    rw [onSession_tenantSchema] at named
    rw [session?_onSession] at at_s
    obtain ⟨s₀, -, rfl⟩ := Option.map_eq_some_iff.mp at_s
    exact congrArg some named
  · rw [onSession_issued]
    exact right

theorem Sound.exit (h : w.Sound isalnum) (raises : Bool) : (w.exit raises).Sound isalnum := by
  unfold World.exit
  split
  · exact h
  · next at_blocks => exact ⟨fun s mem => h.contexts s (at_blocks ▸ List.mem_cons_of_mem _ mem), h.shared⟩
  · next at_blocks => exact ⟨fun s mem => h.contexts s (at_blocks ▸ List.mem_cons_of_mem _ mem), h.shared⟩
  · next at_blocks =>
    split
    · exact ⟨fun s mem => h.contexts s (at_blocks ▸ List.mem_cons_of_mem _ mem), h.shared⟩
    · exact ⟨fun s mem => h.contexts s (at_blocks ▸ List.mem_cons_of_mem _ mem), nofun⟩

theorem exit_issued (raises : Bool) : (w.exit raises).issued = w.issued := by
  unfold exit
  split
  · rfl
  · rfl
  · rfl
  · split <;> rfl

theorem Sound.step (h : w.Sound isalnum) (event : Event) : (w.step isalnum event).Sound isalnum := by
  cases event with
  | setTenantSchema schema => exact ⟨h.contexts, h.shared⟩
  | enterContext take =>
    dsimp only [World.step]
    split
    · refine ⟨fun s mem => h.contexts s ?_, h.shared⟩
      rcases List.mem_cons.mp mem with same | old
      · cases same
      · exact old
    · refine ⟨fun s mem => ?_, h.shared⟩
      rcases List.mem_cons.mp mem with same | old
      · cases same
        exact Session.applySearchPath_sound _ take
      · exact h.contexts s old
  | enterTransaction take =>
    dsimp only [World.step]
    split
    · refine ⟨fun s mem => h.contexts s ?_, h.shared⟩
      rcases List.mem_cons.mp mem with same | old
      · cases same
      · exact old
    · refine ⟨fun s mem => h.contexts s ?_, fun s same => ?_⟩
      · rcases List.mem_cons.mp mem with same | old
        · cases same
        · exact old
      · cases same
        exact Session.applySearchPath_sound _ take
  | exit raises => exact h.exit raises
  | statement block take => exact h.issue block take
  | publicStatement block take => exact h.onSession block fun _ _ sound => sound.run take
  | commit block take writes =>
    have flushed : (if writes then w.issue block take else w).Sound isalnum := by
      split
      · exact h.issue block take
      · exact h
    dsimp only [World.step]
    split
    · exact flushed.onSession block fun _ _ _ => Session.commit_sound
    · exact flushed
  | rollback block => exact h.onSession block fun _ _ _ => Session.rollback_sound
  | refresh block take => exact (h.onSession block fun _ _ _ => Session.applySearchPath_sound _ take).issue block take
  | usePublicSchema block take => exact h.onSession block fun _ _ _ => Session.usePublicSchema_sound take

theorem Sound.step_right (h : w.Sound isalnum) {event : Event} (routed : Routed isalnum w event)
    (right : ∀ i ∈ w.issued, i.Right) : ∀ i ∈ (w.step isalnum event).issued, i.Right := by
  cases event with
  | setTenantSchema schema => exact right
  | enterContext take =>
    dsimp only [World.step]
    split <;> exact right
  | enterTransaction take =>
    dsimp only [World.step]
    split <;> exact right
  | exit raises =>
    dsimp only [World.step]
    rw [exit_issued]
    exact right
  | statement block take => exact h.issue_right routed.1 routed.2 right
  | publicStatement block take =>
    dsimp only [World.step]
    rw [onSession_issued]
    exact right
  | commit block take writes =>
    have flushed : ∀ i ∈ (if writes then w.issue block take else w).issued, i.Right := by
      cases writes with
      | false => exact right
      | true => exact h.issue_right routed.1 routed.2 right
    dsimp only [World.step]
    split
    · rw [onSession_issued]
      exact flushed
    · exact flushed
  | rollback block =>
    dsimp only [World.step]
    rw [onSession_issued]
    exact right
  | refresh block take => exact h.refresh_right routed right
  | usePublicSchema block take =>
    dsimp only [World.step]
    rw [onSession_issued]
    exact right

end World

/-! ### Runs -/

/-- Every statement of a tenant repository runs in the tenant's schema, in every run in which each is issued while the path
of its session is up to date. -/
theorem statements_routed (isalnum : Char → Bool) (pool : Pool) (run : List Event)
    (routed : Always (World.step isalnum) (Routed isalnum) { pool } run) :
    ∀ i ∈ (final (World.step isalnum) { pool } run).issued, i.Right := by
  have start : World.Sound isalnum { pool } := ⟨fun _ mem => (nomatch mem), fun _ mem => (nomatch mem)⟩
  have kept := final_invariant (fun w => w.Sound isalnum ∧ ∀ i ∈ w.issued, i.Right) ⟨start, fun _ mem => (nomatch mem)⟩
    (fun _ event ⟨sound, right⟩ routed => ⟨sound.step event, sound.step_right routed right⟩) routed
  exact kept.2

/-! ### No other way -/

/-- A path that no tenant has. -/
def Path.Plain (p : Path) : Prop := p = .serverDefault ∨ p = .schema "public"

/-- Apart from what is local, the connection has a plain path, and a plain one altogether once the tenant's is lost. -/
def Session.Bare (s : Session) : Prop := ∀ c ∈ s.connection, c.Within Path.Plain ∧ (s.applied = none → c.current.Plain)

structure World.Bare (w : World) : Prop where
  pool : ∀ p ∈ w.pool, p.Plain
  contexts : ∀ s, .context s ∈ w.blocks → s.Bare
  shared : ∀ s ∈ w.shared, s.Bare

/-- `public` is not the schema of a tenant. -/
def Event.OfTenants : Event → Prop
  | .setTenantSchema schema => schema ≠ some "public"
  | _ => True

namespace Session

variable {isalnum : Char → Bool} {s : Session} {pool : Pool}

theorem Bare.begin (h : s.Bare) (plain : ∀ p ∈ pool, p.Plain) (take : Nat) :
    ((s.begin pool take).1.Within Path.Plain ∧ (s.applied = none → (s.begin pool take).1.current.Plain)) ∧
      ∀ p ∈ (s.begin pool take).2, p.Plain := by
  unfold Session.begin
  split
  · next c at_c => exact ⟨h c at_c, plain⟩
  · split
    · next before at_take =>
      have start := plain before (List.mem_of_getElem? at_take)
      exact ⟨⟨Setting.within_fresh start, fun _ => start⟩, fun p mem => plain p (List.mem_of_mem_eraseIdx mem)⟩
    · exact ⟨⟨Setting.within_fresh (.inl rfl), fun _ => .inl rfl⟩, plain⟩

theorem Bare.run (h : s.Bare) (plain : ∀ p ∈ pool, p.Plain) (take : Nat) :
    (s.run pool take).1.Bare ∧ ∀ p ∈ (s.run pool take).2, p.Plain := by
  refine ⟨fun c same => ?_, (h.begin plain take).2⟩
  cases same
  exact (h.begin plain take).1

theorem Bare.applySearchPath (h : s.Bare) (plain : ∀ p ∈ pool, p.Plain) (schema : Option String) (take : Nat) :
    (s.applySearchPath isalnum pool schema take).1.Bare ∧ ∀ p ∈ (s.applySearchPath isalnum pool schema take).2, p.Plain := by
  refine ⟨fun c same => ?_, (h.begin plain take).2⟩
  cases same
  exact ⟨(h.begin plain take).1.1.setLocal _, nofun⟩

theorem Bare.usePublicSchema (h : s.Bare) (plain : ∀ p ∈ pool, p.Plain) (take : Nat) :
    (s.usePublicSchema pool take).1.Bare ∧ ∀ p ∈ (s.usePublicSchema pool take).2, p.Plain := by
  refine ⟨fun c same => ?_, (h.begin plain take).2⟩
  cases same
  exact ⟨(h.begin plain take).1.1.set (.inr rfl), fun _ => .inr rfl⟩

theorem Bare.commit (h : s.Bare) (plain : ∀ p ∈ pool, p.Plain) :
    (s.commit pool).1.Bare ∧ ∀ p ∈ (s.commit pool).2, p.Plain := by
  unfold Session.commit
  split
  · exact ⟨nofun, plain⟩
  · next c at_c => exact ⟨nofun, List.forall_mem_cons.mpr ⟨(h c at_c).1.committed, plain⟩⟩

theorem Bare.rollback (h : s.Bare) (plain : ∀ p ∈ pool, p.Plain) :
    (s.rollback pool).1.Bare ∧ ∀ p ∈ (s.rollback pool).2, p.Plain := by
  unfold Session.rollback
  split
  · exact ⟨nofun, plain⟩
  · next c at_c => exact ⟨nofun, List.forall_mem_cons.mpr ⟨(h c at_c).1.rolledBack, plain⟩⟩

/-- The path is a tenant's only where it was set for this tenant. -/
theorem Bare.applied_of_path (h : s.Bare) (sound : s.Sound isalnum) (plain : ∀ p ∈ pool, p.Plain) {take : Nat} {schema : String}
    (tenant : schema ≠ "public") (path : (s.begin pool take).1.current = .schema schema) :
    s.applied = some (some schema) ∧ searchPath isalnum (some schema) = schema := by
  cases applied : s.applied with
  | none =>
    rcases (h.begin plain take).1.2 applied with server | isPublic
    · rw [path] at server
      cases server
    · rw [path] at isPublic
      cases isPublic
      exact absurd rfl tenant
  | some last =>
    obtain ⟨c, at_c, current⟩ := sound last applied
    rw [begin_of_connection at_c, current] at path
    have name : searchPath isalnum last = schema := Path.schema.inj path
    cases last with
    | none => exact absurd name.symm tenant
    | some last =>
      have same : last = schema := by
        unfold searchPath at name
        dsimp only at name
        split at name
        · exact name
        · exact absurd name.symm tenant
      subst same
      exact ⟨rfl, name⟩

end Session

namespace World

variable {isalnum : Char → Bool} {w : World}

theorem Bare.session (h : w.Bare) {block : Nat} {s : Session} (at_block : w.session? block = some s) : s.Bare := by
  unfold session? at at_block
  split at at_block
  · cases at_block
  · next s' own =>
    cases at_block
    exact h.contexts s (List.mem_of_getElem? own)
  · exact h.shared s at_block

theorem Bare.onSession (h : w.Bare) (block : Nat) {f : Session → Pool → Session × Pool}
    (keeps : ∀ {s : Session} {pool : Pool}, s.Bare → (∀ p ∈ pool, p.Plain) → (f s pool).1.Bare ∧ ∀ p ∈ (f s pool).2, p.Plain) :
    (w.onSession block f).Bare := by
  unfold World.onSession
  split
  · exact h
  · next s own =>
    have kept := keeps (h.contexts s (List.mem_of_getElem? own)) h.pool
    refine ⟨kept.2, fun s' mem => ?_, h.shared⟩
    rcases List.mem_or_eq_of_mem_set mem with old | same
    · exact h.contexts s' old
    · cases same
      exact kept.1
  · split
    · exact h
    · next s shared =>
      have kept := keeps (h.shared s shared) h.pool
      refine ⟨kept.2, h.contexts, fun s' same => ?_⟩
      cases same
      exact kept.1

theorem Bare.issue (h : w.Bare) (block take : Nat) : (w.issue block take).Bare :=
  have kept := h.onSession block fun bare plain => bare.run plain take
  ⟨kept.pool, kept.contexts, kept.shared⟩

theorem Bare.enter (isalnum : Char → Bool) (h : w.Bare) (take : Nat) :
    (w.enter isalnum take).1.Bare ∧ ∀ p ∈ (w.enter isalnum take).2, p.Plain :=
  Session.Bare.applySearchPath (s := {}) (fun _ none => nomatch none) h.pool w.tenantSchema take

theorem Bare.exit (h : w.Bare) (raises : Bool) : (w.exit raises).Bare := by
  unfold World.exit
  split
  · exact h
  · next s rest at_blocks =>
    have bare := h.contexts s (at_blocks ▸ List.mem_cons_self)
    exact ⟨(bare.rollback h.pool).2, fun s mem => h.contexts s (at_blocks ▸ List.mem_cons_of_mem _ mem), h.shared⟩
  · next at_blocks => exact ⟨h.pool, fun s mem => h.contexts s (at_blocks ▸ List.mem_cons_of_mem _ mem), h.shared⟩
  · next at_blocks =>
    split
    · exact ⟨h.pool, fun s mem => h.contexts s (at_blocks ▸ List.mem_cons_of_mem _ mem), h.shared⟩
    · next s shared =>
      refine ⟨?_, fun s mem => h.contexts s (at_blocks ▸ List.mem_cons_of_mem _ mem), nofun⟩
      cases raises with
      | true => exact ((h.shared s shared).rollback h.pool).2
      | false => exact ((h.shared s shared).commit h.pool).2

theorem Bare.step (h : w.Bare) (event : Event) : (w.step isalnum event).Bare := by
  cases event with
  | setTenantSchema schema => exact ⟨h.pool, h.contexts, h.shared⟩
  | enterContext take =>
    dsimp only [World.step]
    split
    · refine ⟨h.pool, fun s mem => h.contexts s ?_, h.shared⟩
      rcases List.mem_cons.mp mem with same | old
      · cases same
      · exact old
    · refine ⟨(Bare.enter isalnum h take).2, fun s mem => ?_, h.shared⟩
      rcases List.mem_cons.mp mem with same | old
      · cases same
        exact (Bare.enter isalnum h take).1
      · exact h.contexts s old
  | enterTransaction take =>
    dsimp only [World.step]
    split
    · refine ⟨h.pool, fun s mem => h.contexts s ?_, h.shared⟩
      rcases List.mem_cons.mp mem with same | old
      · cases same
      · exact old
    · refine ⟨(Bare.enter isalnum h take).2, fun s mem => h.contexts s ?_, fun s same => ?_⟩
      · rcases List.mem_cons.mp mem with same | old
        · cases same
        · exact old
      · cases same
        exact (Bare.enter isalnum h take).1
  | exit raises => exact h.exit raises
  | statement block take => exact h.issue block take
  | publicStatement block take => exact h.onSession block fun bare plain => bare.run plain take
  | commit block take writes =>
    have flushed : (if writes then w.issue block take else w).Bare := by
      split
      · exact h.issue block take
      · exact h
    dsimp only [World.step]
    split
    · exact flushed.onSession block fun bare plain => bare.commit plain
    · exact flushed
  | rollback block => exact h.onSession block fun bare plain => bare.rollback plain
  | refresh block take =>
    exact (h.onSession block fun bare plain => bare.applySearchPath plain w.tenantSchema take).issue block take
  | usePublicSchema block take => exact h.onSession block fun bare plain => bare.usePublicSchema plain take

/-- A statement that runs in the tenant's schema was issued with an up-to-date path. -/
theorem Bare.routed_of_issue (h : w.Bare) (sound : w.Sound isalnum) (tenant : w.tenantSchema ≠ some "public") {block take : Nat}
    (right : ∀ i ∈ (w.issue block take).issued, i.Right) : w.Settable isalnum block ∧ w.UpToDate block := by
  have path : ∀ schema ∈ w.tenantSchema, ∀ s ∈ w.session? block,
      s.applied = some (some schema) ∧ searchPath isalnum (some schema) = schema := by
    intro schema named s at_s
    have new : { tenantSchema := w.tenantSchema, path := (s.begin w.pool take).1.current : Issued } ∈
        (w.issue block take).issued := by
      unfold World.issue
      dsimp only
      rw [session?_onSession, onSession_tenantSchema, Option.mem_def.mp at_s]
      exact List.mem_append_right _ List.mem_cons_self
    have other : schema ≠ "public" := fun same => tenant (same ▸ named)
    exact (h.session at_s).applied_of_path (sound.session at_s) h.pool other (right _ new schema named)
  refine ⟨fun schema named there => ?_, fun schema named s at_s => (path schema named s at_s).1⟩
  obtain ⟨s, at_s⟩ := Option.isSome_iff_exists.mp there
  exact (path schema named s at_s).2

/-- What has been issued stays. -/
theorem issued_step {i : Issued} (event : Event) (mem : i ∈ w.issued) : i ∈ (w.step isalnum event).issued := by
  have issue : ∀ {w : World} {block take : Nat}, i ∈ w.issued → i ∈ (w.issue block take).issued := by
    intro w block take mem
    unfold World.issue
    dsimp only
    rw [onSession_issued]
    exact List.mem_append_left _ mem
  cases event with
  | setTenantSchema schema => exact mem
  | enterContext take =>
    dsimp only [World.step]
    split <;> exact mem
  | enterTransaction take =>
    dsimp only [World.step]
    split <;> exact mem
  | exit raises =>
    dsimp only [World.step]
    rw [exit_issued]
    exact mem
  | statement block take => exact issue mem
  | publicStatement block take =>
    dsimp only [World.step]
    rw [onSession_issued]
    exact mem
  | commit block take writes =>
    have flushed : i ∈ (if writes then w.issue block take else w).issued := by
      split
      · exact issue mem
      · exact mem
    dsimp only [World.step]
    split
    · rw [onSession_issued]
      exact flushed
    · exact flushed
  | rollback block =>
    dsimp only [World.step]
    rw [onSession_issued]
    exact mem
  | refresh block take => exact issue ((onSession_issued block _).symm ▸ mem)
  | usePublicSchema block take =>
    dsimp only [World.step]
    rw [onSession_issued]
    exact mem

theorem issued_final {i : Issued} (run : List Event) (mem : i ∈ w.issued) : i ∈ (final (World.step isalnum) w run).issued := by
  induction run generalizing w with
  | nil => exact mem
  | cons event run ih => exact ih (issued_step event mem)

theorem Bare.routed_of_step (h : w.Bare) (sound : w.Sound isalnum) (tenant : w.tenantSchema ≠ some "public") {event : Event}
    (right : ∀ i ∈ (w.step isalnum event).issued, i.Right) : Routed isalnum w event := by
  cases event with
  | statement block take => exact h.routed_of_issue sound tenant right
  | commit block take writes =>
    cases writes with
    | false => trivial
    | true =>
      have flushed : ∀ i ∈ (w.issue block take).issued, i.Right := by
        intro i mem
        refine right i ?_
        dsimp only [World.step]
        split
        · rw [onSession_issued]
          exact mem
        · exact mem
      exact h.routed_of_issue sound tenant flushed
  | refresh block take =>
    have applied : (w.onSession block fun s pool => s.applySearchPath isalnum pool w.tenantSchema take).Bare :=
      h.onSession block fun bare plain => bare.applySearchPath plain w.tenantSchema take
    have fresh : (w.onSession block fun s pool => s.applySearchPath isalnum pool w.tenantSchema take).Sound isalnum :=
      sound.onSession block fun _ _ _ => Session.applySearchPath_sound _ take
    have settable := (applied.routed_of_issue fresh (by rwa [onSession_tenantSchema]) right).1
    intro schema named there
    refine settable schema ((onSession_tenantSchema block _).symm ▸ named) ?_
    rw [session?_onSession, Option.isSome_map]
    exact there
  | _ => trivial

theorem step_tenantSchema {event : Event} (ofTenants : event.OfTenants) (tenant : w.tenantSchema ≠ some "public") :
    (w.step isalnum event).tenantSchema ≠ some "public" := by
  cases event with
  | setTenantSchema schema => exact ofTenants
  | enterContext take =>
    dsimp only [World.step]
    split <;> exact tenant
  | enterTransaction take =>
    dsimp only [World.step]
    split <;> exact tenant
  | exit raises =>
    dsimp only [World.step, World.exit]
    split
    · exact tenant
    · exact tenant
    · exact tenant
    · split <;> exact tenant
  | statement block take => rwa [World.step, World.issue, onSession_tenantSchema]
  | commit block take writes =>
    have flushed : (if writes then w.issue block take else w).tenantSchema ≠ some "public" := by
      split
      · rwa [World.issue, onSession_tenantSchema]
      · exact tenant
    dsimp only [World.step]
    split
    · rwa [onSession_tenantSchema]
    · exact flushed
  | refresh block take => rwa [World.step, World.issue, onSession_tenantSchema, onSession_tenantSchema]
  | _ => rwa [World.step, onSession_tenantSchema]

end World

/-- And there is no other way, where `public` is not the schema of a tenant and the pool has only connections that nobody has
set to one. -/
theorem routed_of_statements (isalnum : Char → Bool) (pool : Pool) (plain : ∀ p ∈ pool, p.Plain) (run : List Event)
    (tenants : ∀ event ∈ run, event.OfTenants) (right : ∀ i ∈ (final (World.step isalnum) { pool } run).issued, i.Right) :
    Always (World.step isalnum) (Routed isalnum) { pool } run := by
  have from_here : ∀ w : World, w.Bare → w.Sound isalnum → w.tenantSchema ≠ some "public" →
      (∀ i ∈ (final (World.step isalnum) w run).issued, i.Right) → Always (World.step isalnum) (Routed isalnum) w run := by
    clear right
    induction run with
    | nil => exact fun _ _ _ _ _ => trivial
    | cons event run ih =>
      intro w bare sound tenant right
      have own := tenants event List.mem_cons_self
      refine ⟨bare.routed_of_step sound tenant fun i mem => right i (World.issued_final run mem), ?_⟩
      exact ih (fun e mem => tenants e (List.mem_cons_of_mem _ mem)) _ (bare.step event) (sound.step event)
        (World.step_tenantSchema own tenant) right
  exact from_here { pool } ⟨plain, fun _ mem => (nomatch mem), nofun⟩ ⟨fun _ mem => (nomatch mem), nofun⟩ nofun right

namespace Sample

/-- Two tenant repositories in one transaction. -/
def atomic : List Event :=
  [.setTenantSchema (some "acme"), .enterTransaction 0, .enterContext 0, .statement 0 0, .commit 0 0 true, .exit false,
    .enterContext 0, .refresh 0 0, .exit false, .exit false]

/-- Between them, one that uses `public`. -/
def switched : List Event :=
  [.setTenantSchema (some "acme"), .enterTransaction 0, .enterContext 0, .usePublicSchema 0 0, .publicStatement 0 0,
    .exit false, .enterContext 0, .statement 0 0, .exit false, .exit false]

/-- `append` of a row whose key is there already, and a statement after it. -/
def rolledBack : List Event :=
  [.setTenantSchema (some "acme"), .enterTransaction 0, .enterContext 0, .rollback 0, .publicStatement 0 0, .exit false,
    .statement 0 0, .exit false]

end Sample

theorem atomic_routed :
    ∃ i ∈ (final (World.step Char.isAlphanum) { pool := [.serverDefault] } Sample.atomic).issued,
      i.tenantSchema = some "acme" ∧ i.path = .schema "acme" :=
  have issued : { tenantSchema := some "acme", path := .schema "acme" } ∈
      (final (World.step Char.isAlphanum) { pool := [.serverDefault] } Sample.atomic).issued := by decide
  ⟨_, issued, rfl, statements_routed Char.isAlphanum [.serverDefault] Sample.atomic (by decide) _ issued "acme" rfl⟩

/-- The switch outlasts the block of the repository that has made it, and a rollback drops the path. -/
theorem tenant_statements_astray :
    (∃ i ∈ (final (World.step Char.isAlphanum) {} Sample.switched).issued, i.tenantSchema = some "acme" ∧ i.path = .schema "public") ∧
      ∃ i ∈ (final (World.step Char.isAlphanum) {} Sample.rolledBack).issued,
        i.tenantSchema = some "acme" ∧ i.path = .serverDefault := by
  decide

end NyzRating.Kernel.Schema
