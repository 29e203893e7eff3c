import NyzRating.Lib.Calendar
import NyzRating.Lib.Counters
import NyzRating.Lib.Decimal
import NyzRating.Lib.Process
import NyzRating.Lib.Text

/-!
# Abuse controls of a signup

A signup must find the gate open, and is counted for its day by four counters, each of which has a limit. Counters and gate
are in Redis; where it does not answer, a deployed platform refuses, and another one falls back on the memory of the worker.
-/

namespace NyzRating.Tenancy.AbuseControls

open Calendar Process Runs

/-! ### Settings and calls -/

structure Settings where
  demoSignupsEnabled : Bool := true
  demoSignupMaxPerDay : Int := 100
  demoSignupMaxPerIpPerDay : Int := 100
  demoSignupMaxPerIpEmailPerDay : Int := 100
  demoSignupMaxPerSessionPerDay : Int := 100
  demoSignupMaxPerEmail : Int := 100
  demoSignupFailClosedWithoutRedis : Bool := true
  /-- `is_deployed_env` of the environment. -/
  deployed : Bool

def Settings.failClosedActive (env : Settings) : Bool := env.deployed && env.demoSignupFailClosedWithoutRedis

/-- `max(1, int(setting or 100))`. -/
def atLeastOne (setting : Int) : Nat := (max 1 (if setting = 0 then 100 else setting)).toNat

/-- What becomes of a call to Redis. -/
inductive RedisCall where
  /-- There is no client, or the command fails. -/
  | unavailable
  /-- The command is carried out, and an error follows. -/
  | unanswered
  | answered
  deriving DecidableEq, Repr

inductive Scope where
  | global
  | session
  | ip
  | ipEmail
  deriving DecidableEq, Repr

def Scope.text : Scope → String
  | .global => "global"
  | .session => "session"
  | .ip => "ip"
  | .ipEmail => "ip_email"

/-- A signup, the worker that serves it, the times that its counters read, and what becomes of its calls to Redis. -/
structure Signup where
  email : String
  demoSessionId : String
  remoteIp : Option String
  worker : Nat
  /-- `count_completed_signups_for_email`. -/
  completedSignups : Int
  now : Scope → Int
  redisGate : RedisCall
  redisCounter : Scope → RedisCall

inductive SignupError where
  | demoSignupDisabled
  | demoSignupCapacityReached
  | demoSignupRateLimited
  /-- The `RuntimeError` of the gate. -/
  | unavailable
  deriving DecidableEq, Repr

/-! ### Keys -/

def strippedOr (default value : String) : String :=
  let text := Text.stripLower value
  if text = "" then default else text

/-- `strftime("%Y%m%d")` of a time in UTC. -/
def dayKey (now : Int) : String :=
  let c := civil (dateOf now)
  String.ofList (Decimal.pad 4 c.year.toNat ++ Decimal.pad 2 c.month.toNat ++ Decimal.pad 2 c.day.toNat)

def counterKey (scope key : String) (now : Int) : String :=
  "security:demo_signup:counter:" ++ dayKey now ++ ":" ++ strippedOr "global" scope ++ ":" ++ strippedOr "default" key

namespace Signup

variable (c : Signup)

def normalizedIp : String := strippedOr "unknown" (c.remoteIp.getD "")

def scopeKey : Scope → String
  | .global => "all"
  | .session => c.demoSessionId
  | .ip => c.normalizedIp
  | .ipEmail => c.normalizedIp ++ ":" ++ c.email

def counterKey (scope : Scope) : String := AbuseControls.counterKey scope.text (c.scopeKey scope) (c.now scope)

end Signup

def Settings.limit (env : Settings) : Scope → Nat
  | .global => atLeastOne env.demoSignupMaxPerDay
  | .session => atLeastOne env.demoSignupMaxPerSessionPerDay
  | .ip => atLeastOne env.demoSignupMaxPerIpPerDay
  | .ipEmail => atLeastOne env.demoSignupMaxPerIpEmailPerDay

def refusal : Scope → SignupError
  | .global => .demoSignupCapacityReached
  | _ => .demoSignupRateLimited

/-! ### The stores -/

/-- Where a counter is. -/
inductive Place where
  | redis
  | memory (worker : Nat)
  deriving DecidableEq, Repr

/-- The gate in Redis and in the memory of each worker, and the counters. -/
structure Store where
  enabledKey : Option String := none
  enabledOverride : Nat → Option Bool := fun _ => none
  counters : Counters.Store (Place × String) Nat

inductive Op where
  | isDemoSignupEnabled
  | setDemoSignupEnabled (enabled : Bool) (worker : Nat) (redis : RedisCall)
  | bumpDailyCounter (caller : Nat) (key : String) (worker : Nat) (redis : RedisCall)

variable (env : Settings)

/-- Where the gate or a counter is asked, unless the platform refuses. -/
def place? (worker : Nat) : RedisCall → Option Place
  | .answered => some .redis
  | _ => if env.failClosedActive then none else some (.memory worker)

def Store.reach (s : Store) (key : String) (redis : RedisCall) : Store :=
  if redis = .unanswered then { s with counters := s.counters.incr (.redis, key) } else s

def apply : Op → Store → Store
  | .isDemoSignupEnabled, s => s
  | .setDemoSignupEnabled enabled worker redis, s =>
    let s := if redis = .unavailable then s else { s with enabledKey := some (if enabled then "1" else "0") }
    match place? env worker redis with
    | some (.memory worker) => { s with enabledOverride := Function.update s.enabledOverride worker (some enabled) }
    | _ => s
  | .bumpDailyCounter caller key worker redis, s =>
    let s := s.reach key redis
    match place? env worker redis with
    | some place => { s with counters := s.counters.count (place, key) caller }
    | none => s

def gateText (value : String) : Bool := Text.stripLower value ∈ ["1", "true", "yes", "on"]

/-- `is_demo_signup_enabled`. -/
def Store.enabled (s : Store) (worker : Nat) (redis : RedisCall) : Bool :=
  match place? env worker redis with
  | none => false
  | some .redis => (s.enabledKey.map gateText).getD env.demoSignupsEnabled
  | some (.memory worker) => (s.enabledOverride worker).getD env.demoSignupsEnabled

abbrev Call := Process Op Store SignupError

def isDemoSignupEnabled (worker : Nat) (redis : RedisCall) : Call Bool :=
  ask .isDemoSignupEnabled fun s => s.enabled env worker redis

def setDemoSignupEnabled (enabled : Bool) (worker : Nat) (redis : RedisCall) : Call Unit :=
  attempt (.setDemoSignupEnabled enabled worker redis) fun _ =>
    if (place? env worker redis).isSome then .ok () else .error .unavailable

/-- The count, as the counter is when it has been counted up. -/
def bumpDailyCounter (caller : Nat) (key : String) (worker : Nat) (redis : RedisCall) : Call Nat :=
  attempt (.bumpDailyCounter caller key worker redis) fun s =>
    match place? env worker redis with
    | some place => .ok ((s.reach key redis).counters.counters (place, key) + 1)
    | none => .error .demoSignupDisabled

def bumpWithin (caller : Nat) (c : Signup) (scope : Scope) : Call Unit := do
  let count ← bumpDailyCounter env caller (c.counterKey scope) c.worker (c.redisCounter scope)
  if env.limit scope < count then .raise (refusal scope)

def enforceSignupLimits (caller : Nat) (c : Signup) : Call Unit := do
  let enabled ← isDemoSignupEnabled env c.worker c.redisGate
  if enabled = false then .raise .demoSignupDisabled
  else if (atLeastOne env.demoSignupMaxPerEmail : Int) ≤ c.completedSignups then .raise .demoSignupRateLimited
  else do
    bumpWithin env caller c .global
    bumpWithin env caller c .session
    bumpWithin env caller c .ip
    bumpWithin env caller c .ipEmail

/-! ### Callers -/

inductive Caller where
  | signup (c : Signup)
  | setDemoSignupEnabled (enabled : Bool) (worker : Nat) (redis : RedisCall)

def Caller.call (i : Nat) : Caller → Call Unit
  | .signup c => enforceSignupLimits env i c
  | .setDemoSignupEnabled enabled worker redis => AbuseControls.setDemoSignupEnabled env enabled worker redis

def pool (s : Store) (callers : List Caller) : Pool Op Store SignupError Unit :=
  { store := s, calls := callers.mapIdx fun i caller => caller.call env i }

variable {env} {s : Store} {callers : List Caller} {ops : List Op} {i : Nat} {c : Signup} {scope : Scope}

theorem getElem?_pool {m : Call Unit} : (pool env s callers).calls[i]? = some m ↔
    ∃ caller, callers[i]? = some caller ∧ caller.call env i = m := by
  rw [pool, List.getElem?_mapIdx, Option.map_eq_some_iff]

/-! ### Counts -/

theorem numbered_apply (op : Op) (h : s.counters.Numbered) : (apply env op s).counters.Numbered := by
  cases op with
  | isDemoSignupEnabled => exact h
  | setDemoSignupEnabled enabled worker redis =>
    unfold apply
    dsimp only
    split <;> split <;> exact h
  | bumpDailyCounter caller key worker redis =>
    have reached : (s.reach key redis).counters.Numbered := by
      unfold Store.reach
      split
      · exact h.incr
      · exact h
    unfold apply
    dsimp only
    split
    · exact reached.count
    · exact reached

theorem answers_apply (op : Op) (s : Store) : ∀ a ∈ s.counters.answers, a ∈ (apply env op s).counters.answers := by
  intro a mem
  cases op with
  | isDemoSignupEnabled => exact mem
  | setDemoSignupEnabled enabled worker redis =>
    unfold apply
    dsimp only
    split <;> split <;> exact mem
  | bumpDailyCounter caller key worker redis =>
    have reached : (s.reach key redis).counters.answers = s.counters.answers := by
      unfold Store.reach
      split <;> rfl
    rw [← reached] at mem
    unfold apply
    dsimp only
    split
    · exact List.mem_append_left _ mem
    · exact mem

variable (env) in
/-- Answers are not taken back. -/
def answering : Rely (apply env) where
  le s t := ∀ a ∈ s.counters.answers, a ∈ t.counters.answers
  refl _ _ := id
  trans h h' a mem := h' a (h a mem)
  finds _ _ := True
  follows op s _ := answers_apply op s

/-- The caller was told a count within the limit. -/
def Told (env : Settings) (i : Nat) (c : Signup) (scope : Scope) (s : Store) : Prop :=
  ∃ a ∈ s.counters.answers, a.caller = i ∧ place? env c.worker (c.redisCounter scope) = some a.key.1 ∧
    a.key.2 = c.counterKey scope ∧ a.count ≤ env.limit scope

theorem Told.le {t : Store} (h : Told env i c scope s) (le : (answering env).le s t) : Told env i c scope t := by
  obtain ⟨a, mem, facts⟩ := h
  exact ⟨a, le a mem, facts⟩

theorem outline_bumpWithin : (answering env).Outline (fun _ _ s => Told env i c scope s) (bumpWithin env i c scope) ops s := by
  refine Rely.Outline.attempt_bind fun t _ => ⟨trivial, fun count told => ?_⟩
  split
  · trivial
  · next within =>
    cases placed : place? env c.worker (c.redisCounter scope) with
    | none =>
      rw [placed] at told
      cases told
    | some place =>
      rw [placed] at told
      obtain rfl := Except.ok.inj told
      refine ⟨⟨i, (place, c.counterKey scope), _⟩, ?_, rfl, placed, rfl, Nat.le_of_not_lt within⟩
      unfold apply
      dsimp only
      rw [placed]
      exact List.mem_append_right _ (List.mem_singleton_self _)

/-- What has been counted before stays. -/
theorem outline_bumpWithin_after {P : Store → Prop} (stable : ∀ s t, (answering env).le s t → P s → P t) (before : P s) :
    (answering env).Outline (fun _ _ s => P s ∧ Told env i c scope s) (bumpWithin env i c scope) ops s :=
  (outline_bumpWithin.grown ((answering env).refl s)).mono fun _ _ t ⟨le, told⟩ => ⟨stable s t le before, told⟩

theorem outline_enforceSignupLimits :
    (answering env).Outline (fun _ _ s => ∀ scope, Told env i c scope s) (enforceSignupLimits env i c) ops s := by
  refine Rely.Outline.ask_bind fun t _ => ⟨trivial, ?_⟩
  split
  · trivial
  · split
    · trivial
    · have stable (scopes : List Scope) : ∀ s t, (answering env).le s t → (∀ scope ∈ scopes, Told env i c scope s) →
          ∀ scope ∈ scopes, Told env i c scope t := fun s t le told scope mem => (told scope mem).le le
      have more {scopes : List Scope} {scope : Scope} {s : Store}
          (h : (∀ scope ∈ scopes, Told env i c scope s) ∧ Told env i c scope s) : ∀ other ∈ scope :: scopes, Told env i c other s := by
        intro other mem
        rcases List.mem_cons.mp mem with rfl | mem
        · exact h.2
        · exact h.1 other mem
      refine Rely.Outline.bind (outline_bumpWithin_after (stable []) fun _ mem => absurd mem List.not_mem_nil) fun _ _ _ h => ?_
      refine Rely.Outline.bind (outline_bumpWithin_after (stable [.global]) (more h)) fun _ _ _ h => ?_
      refine Rely.Outline.bind (outline_bumpWithin_after (stable [.session, .global]) (more h)) fun _ _ _ h => ?_
      refine (outline_bumpWithin_after (stable [.ip, .session, .global]) (more h)).mono fun _ _ _ h scope => ?_
      exact more h scope (by cases scope <;> simp)

/-- What a caller that has returned was told. -/
def Finished (env : Settings) (callers : List Caller) (i : Nat) (s : Store) : Prop :=
  ∀ c, callers[i]? = some (.signup c) → ∀ scope, Told env i c scope s

variable (env callers) in
theorem run_kept (numbered : s.counters.Numbered) (turns : List Nat) :
    let p := final (Pool.step (apply env)) (pool env s callers) turns
    p.store.counters.Numbered ∧ (answering env).Followed (fun i _ _ s => Finished env callers i s) p := by
  refine final_kept (s := pool env s callers) (fun p => p.store.counters.Numbered ∧
    (answering env).Followed (fun i _ _ s => Finished env callers i s) p) ⟨numbered, ?_⟩ ?_
  · intro i m at_i
    obtain ⟨caller, found, rfl⟩ := getElem?_pool.mp at_i
    cases caller with
    | signup c =>
      refine outline_enforceSignupLimits.mono fun _ _ s told c' same => ?_
      cases found.symm.trans same
      exact told
    | setDemoSignupEnabled enabled worker redis =>
      have other {s : Store} : Finished env callers i s := fun c same => by cases found.symm.trans same
      intro t _
      refine ⟨trivial, ?_⟩
      dsimp only
      split
      · exact other
      · trivial
  · rintro p i ⟨numbered, followed⟩
    refine ⟨?_, followed.step (fun _ _ _ _ _ le finished c same scope => (finished c same scope).le le) i⟩
    rcases p.step_cases (apply env) i with same | ⟨op, next, -, -, same⟩
    · rw [same]
      exact numbered
    · rw [same]
      exact numbered_apply op numbered

/-- The places where workers below the number count. -/
def places (env : Settings) (workers : Nat) : List Place :=
  .redis :: if env.failClosedActive then [] else (List.range workers).map .memory

theorem mem_places {worker workers : Nat} {redis : RedisCall} {place : Place} (served : worker < workers)
    (placed : place? env worker redis = some place) : place ∈ places env workers := by
  unfold place? at placed
  unfold places
  split at placed
  · cases placed
    exact List.mem_cons_self
  · split at placed
    · cases placed
    · next open_ =>
      cases placed
      rw [if_neg open_]
      exact List.mem_cons_of_mem _ (List.mem_map_of_mem (List.mem_range.mpr served))

theorem length_places (workers : Nat) : (places env workers).length = if env.failClosedActive then 1 else workers + 1 := by
  unfold places
  split <;> simp

/-- Of the signups that one counter counts, no more get through than its limit, in whatever order the calls of all workers
    reach Redis and whatever becomes of them; only a platform that does not refuse lets as many more through for each
    worker. -/
theorem length_passed_le {workers : Nat} {key : String} {passed : List Nat} (turns : List Nat) (distinct : passed.Nodup)
    (numbered : s.counters.Numbered)
    (each : ∀ i ∈ passed, (final (Pool.step (apply env)) (pool env s callers) turns).calls[i]? = some (.ret ()) ∧
      ∃ c, callers[i]? = some (.signup c) ∧ c.counterKey scope = key ∧ c.worker < workers) :
    passed.length ≤ (if env.failClosedActive then 1 else workers + 1) * env.limit scope := by
  obtain ⟨numbered, followed⟩ := run_kept env callers numbered turns
  have told : ∀ i ∈ passed, ∃ a ∈ (final (Pool.step (apply env)) (pool env s callers) turns).store.counters.answers,
      a.caller = i ∧ a.key ∈ (places env workers).map (·, key) ∧ a.count ≤ env.limit scope := by
    intro i mem
    obtain ⟨returned, c, found, rfl, served⟩ := each i mem
    obtain ⟨a, answered, own, placed, keyed, small⟩ := followed i _ returned c found scope
    refine ⟨a, answered, own, List.mem_map.mpr ⟨a.key.1, mem_places served placed, ?_⟩, small⟩
    rw [← keyed]
  have bound := numbered.length_le distinct told
  rwa [List.length_map, length_places] at bound

/-- A visitor on a deployed platform. -/
def sampleSignup : Signup where
  email := "anna@example.com"
  demoSessionId := "s1"
  remoteIp := some "10.0.0.1"
  worker := 0
  completedSignups := 0
  now _ := 0
  redisGate := .answered
  redisCounter _ := .answered

theorem length_passed_le_of_one :
    let env : Settings := { deployed := true }
    let s : Store := { counters := { counters := fun _ => 0 } }
    [0].length ≤ (if env.failClosedActive then 1 else 1 + 1) * env.limit .ip ∧
      (final (Pool.step (apply env)) (pool env s [.signup sampleSignup]) [0, 0, 0, 0, 0]).calls[0]? = some (.ret ()) :=
  have returned : (final (Pool.step (apply { deployed := true }))
      (pool { deployed := true } { counters := { counters := fun _ => 0 } } [.signup sampleSignup]) [0, 0, 0, 0, 0]).calls[0]? =
        some (.ret ()) := rfl
  ⟨length_passed_le [0, 0, 0, 0, 0] (List.nodup_singleton 0)
    ⟨List.Pairwise.nil, fun _ mem => absurd mem List.not_mem_nil⟩ fun i mem => by
      cases List.mem_singleton.mp mem
      exact ⟨returned, sampleSignup, rfl, rfl, Nat.one_pos⟩, returned⟩

/-! ### The gate -/

/-- The gate in Redis is shut. -/
def Shut (s : Store) : Prop := ∃ value, s.enabledKey = some value ∧ gateText value = false

theorem shut_apply {op : Op} (opens : ∀ worker redis, op ≠ .setDemoSignupEnabled true worker redis) (h : Shut s) :
    Shut (apply env op s) := by
  cases op with
  | isDemoSignupEnabled => exact h
  | bumpDailyCounter caller key worker redis =>
    have reached : Shut (s.reach key redis) := by
      unfold Store.reach
      split <;> exact h
    unfold apply
    dsimp only
    split <;> exact reached
  | setDemoSignupEnabled enabled worker redis =>
    cases enabled with
    | true => exact absurd rfl (opens worker redis)
    | false =>
      have off : gateText "0" = false := by decide
      have written : (apply env (.setDemoSignupEnabled false worker redis) s).enabledKey = s.enabledKey ∨
          (apply env (.setDemoSignupEnabled false worker redis) s).enabledKey = some "0" := by
        unfold apply
        dsimp only
        split <;> split <;> simp
      rcases written with same | zero
      · obtain ⟨value, there, off⟩ := h
        exact ⟨value, same.trans there, off⟩
      · exact ⟨"0", zero, off⟩

variable (env) in
/-- No one opens the gate, so that it stays shut. -/
def shutting : Rely (apply env) where
  le s t := Shut s → Shut t
  refl _ := id
  trans h h' := h' ∘ h
  finds op _ := ∀ worker redis, op ≠ .setDemoSignupEnabled true worker redis
  follows _ _ := shut_apply

/-- What an answer of the platform says of the gate, where it refuses rather than fall back. -/
theorem enabled_of_shut {worker : Nat} {redis : RedisCall} (strict : env.failClosedActive = true) (shut : Shut s) :
    s.enabled env worker redis = false := by
  obtain ⟨value, there, off⟩ := shut
  unfold Store.enabled place?
  cases redis with
  | answered => simp [there, off]
  | unavailable => simp [strict]
  | unanswered => simp [strict]

theorem outline_shut_bumpWithin {Q : List Op → Unit → Store → Prop} (h : ∀ ops s, Q ops () s) :
    (shutting env).Outline Q (bumpWithin env i c scope) ops s := by
  refine Rely.Outline.attempt_bind fun t _ => ⟨fun worker redis same => ?_, fun count _ => ?_⟩
  · cases same
  · split
    · trivial
    · exact h _ _

/-- A signup that finds the gate shut does not get through. -/
theorem outline_shut_enforceSignupLimits {P : Prop} (strict : env.failClosedActive = true) (shut : P → Shut s) :
    (shutting env).Outline (fun _ _ _ => ¬P) (enforceSignupLimits env i c) ops s := by
  refine Rely.Outline.ask_bind fun t le => ⟨fun worker redis same => (by cases same), ?_⟩
  by_cases p : P
  · rw [if_pos (enabled_of_shut strict (le (shut p)))]
    trivial
  · split
    · trivial
    · split
      · trivial
      · refine Rely.Outline.bind (outline_shut_bumpWithin fun _ _ => trivial) fun _ _ _ (_ : True) => ?_
        refine Rely.Outline.bind (outline_shut_bumpWithin fun _ _ => trivial) fun _ _ _ (_ : True) => ?_
        refine Rely.Outline.bind (outline_shut_bumpWithin fun _ _ => trivial) fun _ _ _ (_ : True) => ?_
        exact outline_shut_bumpWithin fun _ _ => p

theorem outline_setDemoSignupEnabled {worker : Nat} {redis : RedisCall} (strict : env.failClosedActive = true) :
    (shutting env).Outline (fun _ _ s => Shut s) (setDemoSignupEnabled env false worker redis) ops s := by
  intro t _
  refine ⟨fun worker redis same => (by cases same), ?_⟩
  have off : gateText "0" = false := by decide
  cases redis with
  | answered => exact ⟨"0", rfl, off⟩
  | unavailable => simp [place?, strict, Rely.Outline]
  | unanswered => simp [place?, strict, Rely.Outline]

/-- The callers that are not to open the gate. -/
def Closing (callers : List Caller) : Prop := ∀ worker redis, .setDemoSignupEnabled true worker redis ∉ callers

def SetShut (callers : List Caller) (i : Nat) (s : Store) : Prop :=
  ∀ enabled worker redis, callers[i]? = some (.setDemoSignupEnabled enabled worker redis) → Shut s

theorem followed_shutting (strict : env.failClosedActive = true) (closing : Closing callers) (turns : List Nat) :
    (shutting env).Followed (fun i _ _ s => SetShut callers i s) (final (Pool.step (apply env)) (pool env s callers) turns) := by
  refine final_kept (s := pool env s callers) (fun p => (shutting env).Followed (fun i _ _ s => SetShut callers i s) p) ?_
    fun p i followed => followed.step (fun _ _ _ _ _ le shut enabled worker redis same => le (shut enabled worker redis same)) i
  intro i m at_i
  obtain ⟨caller, found, rfl⟩ := getElem?_pool.mp at_i
  cases caller with
  | signup c =>
    have never : ¬False → ∀ s, SetShut callers i s := fun _ s enabled worker redis same => by cases found.symm.trans same
    exact (outline_shut_enforceSignupLimits strict False.elim).mono fun _ _ s p => never p s
  | setDemoSignupEnabled enabled worker redis =>
    cases enabled with
    | true => exact absurd (List.mem_of_getElem? found) (closing worker redis)
    | false => exact (outline_setDemoSignupEnabled strict).mono fun _ _ s shut _ _ _ _ => shut

/-- Once a call that shuts the gate of a deployed platform has returned, no signup that comes after it gets through, whatever
    becomes of the calls to Redis, as long as no one opens the gate. -/
theorem shut_gate {i j : Nat} {worker : Nat} {redis : RedisCall} {enabled : Bool} (turns later : List Nat)
    (strict : env.failClosedActive = true) (closing : Closing callers)
    (shuts : callers[i]? = some (.setDemoSignupEnabled enabled worker redis)) (comes : callers[j]? = some (.signup c))
    (waits : j ∉ turns)
    (returned : (final (Pool.step (apply env)) (pool env s callers) turns).calls[i]? = some (.ret ())) :
    (final (Pool.step (apply env)) (pool env s callers) (turns ++ later)).calls[j]? ≠ some (.ret ()) := by
  have followed := followed_shutting (s := s) strict closing turns
  have shut : Shut (final (Pool.step (apply env)) (pool env s callers) turns).store :=
    followed i _ returned enabled worker redis shuts
  rw [final_append]
  generalize reached : final (Pool.step (apply env)) (pool env s callers) turns = p at followed shut
  have fresh : p.calls[j]? = some (enforceSignupLimits env j c) := by
    rw [← reached, Pool.calls_of_not_mem (apply env) waits]
    exact getElem?_pool.mpr ⟨_, comes, rfl⟩
  have begun : (shutting env).Followed (fun k _ _ _ => k ≠ j) p := by
    intro k m at_k
    by_cases own : k = j
    · rw [own, fresh] at at_k
      cases at_k
      exact (outline_shut_enforceSignupLimits strict fun _ => shut).mono fun _ _ _ never => never
    · exact (followed k m at_k).mono fun _ _ _ _ => own
  have ended : (shutting env).Followed (fun k _ _ _ => k ≠ j) (final (Pool.step (apply env)) p later) :=
    final_kept (fun p => (shutting env).Followed (fun k _ _ _ => k ≠ j) p) begun fun p k followed =>
      followed.step (fun _ _ _ _ _ _ other => other) k
  intro passed
  exact ended j _ passed rfl

theorem shut_gate_refuses :
    (final (Pool.step (apply { deployed := true })) (pool { deployed := true } { counters := { counters := fun _ => 0 } }
      [.setDemoSignupEnabled false 0 .answered, .signup sampleSignup]) ([0] ++ [1, 1, 1, 1, 1])).calls[1]? ≠ some (.ret ()) :=
  shut_gate (i := 0) [0] [1, 1, 1, 1, 1] rfl (by simp [Closing]) rfl rfl (by decide) rfl

end NyzRating.Tenancy.AbuseControls
