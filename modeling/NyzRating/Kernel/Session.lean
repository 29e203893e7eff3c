import NyzRating.Lib.Program

/-!
# The ambient database session

Source: `core/kernel/db/session.py` and `core/kernel/db/session_context.py`. Outside `transaction()` every repository
call has a session of its own; inside, all calls share the session of the outermost block, whose proxy turns `commit`
into `flush` and hands `rollback` through. What a call does to its session is a statement tree: which statements the
database refuses, and so which path a call takes, is part of the tree.
-/

namespace NyzRating.Kernel

open Program

variable {W : Type}

inductive Error where
  | integrity
  | other
  deriving DecidableEq, Repr

/-- A failed flush leaves the session unusable until it is rolled back. A failed statement aborts the transaction on the
server, whose commit then takes it back without an error. -/
inductive Refusal where
  | flush
  | statement
  deriving DecidableEq, Repr

/-- A session with the writes of its open transaction. `made` remembers every write ever made on it. -/
structure Session (W : Type) where
  journal : List W := []
  refused : Option Refusal := none
  made : List W := []
  deriving DecidableEq, Repr

namespace Session

def wrote (ws : List W) (s : Session W) : Session W := { s with journal := s.journal ++ ws, made := s.made ++ ws }

def rollback (s : Session W) : Session W := { s with journal := [], refused := none }

/-- The writes that a commit of the session would still make durable. -/
def held (s : Session W) : List W := if s.refused = none then s.journal else []

@[simp] theorem wrote_refused (ws : List W) (s : Session W) : (s.wrote ws).refused = s.refused := rfl

@[simp] theorem wrote_nil (s : Session W) : s.wrote [] = s := by simp [wrote]

@[simp] theorem wrote_wrote (s : Session W) (ws vs : List W) : (s.wrote ws).wrote vs = s.wrote (ws ++ vs) := by
  simp [wrote]

theorem held_of_healthy {s : Session W} (h : s.refused = none) : s.held = s.journal := if_pos h

theorem held_wrote {s : Session W} (ws : List W) (h : s.refused = none) : (s.wrote ws).held = s.journal ++ ws := if_pos h

theorem held_of_refused {s : Session W} (h : s.refused ≠ none) : s.held = [] := if_neg h

end Session

/-! ### A session that is its own transaction, or part of one -/

structure Db (W : Type) where
  durable : List W
  session : Session W

abbrev DbM (W : Type) := EStateM Error (Db W)

def execute (change : Session W → Session W) : DbM W Unit := do
  if (← get).session.refused = none then modify fun db => { db with session := change db.session } else throw .other

def flush : DbM W Unit := do
  if (← get).session.refused = some .flush then throw .other

/-- `Session.commit`. -/
def commit : DbM W Unit := do
  flush
  modify fun db => { durable := db.durable ++ db.session.held, session := db.session.rollback }

/-- `SessionProxy.commit`. -/
def proxyCommit (commitIsFlush : Bool) : DbM W Unit := if commitIsFlush then flush else commit

/-- `SessionProxy.rollback`. -/
def proxyRollback : DbM W Unit := modify fun db => { db with session := db.session.rollback }

/-! ### What a repository call does -/

inductive Statement (W : Type) where
  | pass
  | read
  | write (w : W)
  | refuse (how : Refusal) (e : Error)
  | commit
  | rollback
  | raise (e : Error)
  | seq (p q : Statement W)
  | handle (p : Statement W) (handler : Error → Statement W)

namespace Statement

def run (commitIsFlush : Bool) : Statement W → DbM W Unit
  | .pass => pure ()
  | .read => execute id
  | .write w => execute (·.wrote [w])
  | .refuse how e => do
    execute fun s => { s with refused := some how }
    throw e
  | .commit => proxyCommit commitIsFlush
  | .rollback => proxyRollback
  | .raise e => throw e
  | .seq p q => do
    p.run commitIsFlush
    q.run commitIsFlush
  | .handle p handler => tryCatch (p.run commitIsFlush) fun e => (handler e).run commitIsFlush

/-- Several statements one after another. -/
def writeAll : List W → Statement W
  | [] => .pass
  | w :: ws => .seq (.write w) (writeAll ws)

end Statement

/-! ### Calls and blocks -/

/-- What survives the sessions, with the context variables `current_db_session` and `db_transaction_depth`. -/
structure World (W : Type) where
  durable : List W
  shared : Option (Session W) := none
  depth : Nat := 0

abbrev WorldM (W : Type) := EStateM Error (World W)

/-- Lets `m` work on the session `s`, and keeps of it what `keep` says. -/
def onSession (s : Session W) (keep : Session W → Option (Session W)) (m : DbM W Unit) : WorldM W Unit := fun w =>
  match m.run { durable := w.durable, session := s } with
  | .ok _ db => .ok () { w with durable := db.durable, shared := keep db.session }
  | .error e db => .error e { w with durable := db.durable, shared := keep db.session }

/-- `with session_factory() as db`, around what the call does with `db`. -/
def call (p : Statement W) : WorldM W Unit := do
  match (← get).shared with
  | some s => onSession s some (p.run true)
  | none => onSession {} (fun _ => none) (p.run false)

/-- Python's `finally`. -/
def finallyDo (m : WorldM W Unit) (f : World W → World W) : WorldM W Unit := do
  tryCatch m fun e => do
    modify f
    throw e
  modify f

/-- The shared session commits, or rolls back where `f` is a rollback. -/
def onShared (f : DbM W Unit) : WorldM W Unit := do
  match (← get).shared with
  | some s => onSession s some f
  | none => pure ()

/-- `with session_factory.transaction()`, around the block `m`. -/
def transaction (m : WorldM W Unit) : WorldM W Unit := do
  let depth := (← get).depth
  match (← get).shared with
  | some _ =>
    modify fun w => { w with depth := depth + 1 }
    finallyDo m fun w => { w with depth := depth }
  | none =>
    modify fun w => { w with shared := some {}, depth := 1 }
    finallyDo
      (tryCatch
        (do
          m
          onShared commit)
        fun e => do
          onShared proxyRollback
          throw e)
      fun w => { w with shared := none, depth := depth }

/-- Code that makes repository calls, in blocks or outside of them. -/
inductive Body (W : Type) where
  | pass
  | raise (e : Error)
  | call (p : Statement W)
  | block (b : Body W)
  | seq (a b : Body W)
  | handle (b : Body W) (handler : Error → Body W)

namespace Body

def run : Body W → WorldM W Unit
  | .pass => pure ()
  | .raise e => throw e
  | .call p => Kernel.call p
  | .block b => transaction b.run
  | .seq a b => do
    a.run
    b.run
  | .handle b handler => tryCatch b.run fun e => (handler e).run

end Body

/-! ### Two calls that end an error themselves -/

/-- `PlatformEventOutboxRepository.append`: the key is there already, or the flush finds that another transaction has
written it, after which the row is looked up again. Without a key the flush meets no duplicate. -/
def append (row : W) (existing duplicate found : Bool) : Statement W :=
  .seq .read <|
    if existing then .pass
    else if duplicate then
      .handle (.refuse .flush .integrity) fun
        | .integrity => .seq .rollback (.seq .read (if found then .pass else .raise .integrity))
        | e => .raise e
    else .seq (.write row) (.seq .commit .read)

/-- `TrafficQuestionUsageRepository.reserve_question`: the settlement of a new month, and where the quota allows it the
question. -/
def reserveQuestion (settlement question : List W) (allowed : Bool) : Statement W :=
  .handle
    (.seq .read (.seq (.writeAll settlement) (.seq .read
      (if allowed then .seq (.writeAll question) .commit else .rollback))))
    fun e => .seq .rollback (.raise e)

end NyzRating.Kernel
