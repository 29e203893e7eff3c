import NyzRating.Lib.FixedWindow
import Mathlib.Data.List.TakeWhile
import Mathlib.Logic.Function.Basic

/-!
# The fallback throttle

Some routes have no limiter of their own; `enforce_fallback_throttle` counts their requests, in Redis for a window that is
fixed on the clock of the wall, and where Redis does not answer, in the memory of the worker for a window that slides. The
back ends do not know of each other, so that what they let through adds up.
-/

namespace NyzRating.Auth.FallbackThrottle

open FixedWindow

/-! ### Requests -/

/-- What becomes of the calls to Redis. -/
inductive RedisCalls where
  /-- There is no client, or `incr` fails before it counts. -/
  | unavailable
  /-- `incr` counts, and its answer is lost. -/
  | unanswered
  | expireFails
  | answered
  deriving DecidableEq, Repr

/-- A request, the worker that serves it, and what `time.time()` and `time.monotonic()` give there. -/
structure Request where
  method : String
  path : String
  tenantSlug : Option String
  clientHost : Option String
  worker : Nat
  time : ℚ
  monotonic : ℚ
  redis : RedisCalls

def sensitiveRoutes : List (String × String) := [
  ("GET", "/api/auth/csrf-token"),
  ("POST", "/api/auth/authenticator/setup"),
  ("POST", "/api/auth/authenticator/confirm"),
  ("DELETE", "/api/auth/authenticator"),
  ("GET", "/api/platform-admin/auth/csrf-token"),
  ("GET", "/api/chat/ws-token")]

variable (upper : String → String)

/-- The key that the request is counted by, unless its route is not sensitive. -/
def Request.key? (r : Request) : Option String :=
  let method := upper r.method
  if (method, r.path) ∈ sensitiveRoutes then
    let remoteIp := (r.clientHost.filter (· ≠ "")).getD "unknown"
    some (r.tenantSlug.getD "" ++ ":" ++ remoteIp ++ ":" ++ method ++ ":" ++ r.path)
  else none

/-! ### Back ends -/

structure Counter where
  count : Nat
  expiresAt : Option ℚ := none

/-- The counters of Redis, by key and window, and the buckets of each worker. -/
structure Store where
  counters : String × Int → Option Counter := fun _ => none
  buckets : Nat × String → List ℚ := fun _ => []

namespace Store

variable (s : Store) (windowSec : ℚ) (maxRequests : Nat) (key : String) (r : Request)

/-- Counters that have expired are gone. -/
def pass (now : ℚ) : Store := { s with counters := fun at_ => (s.counters at_).filter fun c => c.expiresAt.all (now < ·) }

/-- `incr`; a counter that is not there starts from nothing. -/
def incr (at_ : String × Int) : Counter :=
  match s.counters at_ with
  | none => { count := 1 }
  | some c => { c with count := c.count + 1 }

def setCounter (at_ : String × Int) (c : Counter) : Store := { s with counters := Function.update s.counters at_ (some c) }

variable {s}

theorem setCounter_self {at_ : String × Int} {c : Counter} : (s.setCounter at_ c).counters at_ = some c := Function.update_self ..

theorem setCounter_of_ne {at_ other : String × Int} {c : Counter} (ne : other ≠ at_) :
    (s.setCounter at_ c).counters other = s.counters other :=
  Function.update_of_ne ne ..

variable (s)

def bucketAllowedRedis : Option Bool × Store :=
  let redisKey := (key, window windowSec r.time)
  let s := s.pass r.time
  let counted := s.incr redisKey
  match r.redis with
  | .unavailable => (none, s)
  | .unanswered => (none, s.setCounter redisKey counted)
  | .expireFails => (none, s.setCounter redisKey counted)
  | .answered =>
    (some (counted.count ≤ maxRequests), s.setCounter redisKey { counted with expiresAt := some (r.time + (windowSec + 3)) })

def bucketAllowedMemory : Bool × Store :=
  let bucket := (s.buckets (r.worker, key)).dropWhile fun first => windowSec < r.monotonic - first
  if maxRequests ≤ bucket.length then (false, { s with buckets := Function.update s.buckets (r.worker, key) bucket })
  else (true, { s with buckets := Function.update s.buckets (r.worker, key) (bucket ++ [r.monotonic]) })

end Store

/-! ### The throttle -/

/-- An answer, and which back end gave it. -/
inductive Answer where
  | unlimited
  | redis (allowed : Bool)
  | memory (allowed : Bool)
  deriving DecidableEq, Repr

def Answer.allowed : Answer → Bool
  | .unlimited => true
  | .redis allowed => allowed
  | .memory allowed => allowed

def Answer.message (a : Answer) : String := if a.allowed then "" else "Too many requests."

def windowSec : ℚ := 60

def maxRequests : Nat := 120

def enforceFallbackThrottle (s : Store) (r : Request) : Answer × Store :=
  match r.key? upper with
  | none => (.unlimited, s)
  | some key =>
    match s.bucketAllowedRedis windowSec maxRequests key r with
    | (some allowed, s) => (.redis allowed, s)
    | (none, s) =>
      let (allowed, s) := s.bucketAllowedMemory windowSec maxRequests key r
      (.memory allowed, s)

/-- The requests, one after another, with their answers. -/
def answered : Store → List Request → List (Request × Answer)
  | _, [] => []
  | s, r :: rs =>
    let (answer, s) := enforceFallbackThrottle upper s r
    (r, answer) :: answered s rs

/-! ### What was let through -/

/-- Redis let a request with the key through. -/
def byRedis (key : String) (e : Request × Answer) : Bool := e.1.key? upper = some key && e.2 = .redis true

/-- The memory of the worker let a request with the key through. -/
def byMemory (worker : Nat) (key : String) (e : Request × Answer) : Bool :=
  e.1.key? upper = some key && e.1.worker = worker && e.2 = .memory true

/-- No clock goes back. -/
def InOrder (rs : List Request) : Prop :=
  rs.Pairwise fun r r' => r.time ≤ r'.time ∧ (r.worker = r'.worker → r.monotonic ≤ r'.monotonic)

/-- Any two of the requests are so close that each back end counts them together. -/
def Near (within : Request → Bool) : Prop :=
  ∀ r r', within r → within r' → r'.time - r.time < windowSec ∧ (r.worker = r'.worker → r'.monotonic - r.monotonic ≤ windowSec)

variable {upper} {past : List (Request × Answer)} {s : Store} {key : String} {r : Request} {worker : Nat} {answer : Answer}

/-- How many Redis let through in a window. -/
def admitted (upper : String → String) (past : List (Request × Answer)) (key : String) (n : Int) : Nat :=
  past.countP fun e => byRedis upper key e && window windowSec e.1.time = n

/-- What Redis holds for a window that is not over is not less than what it let through, and stays until the window is over. -/
structure Counted (upper : String → String) (past : List (Request × Answer)) (s : Store) : Prop where
  bounded : ∀ key n, admitted upper past key n ≤ maxRequests
  counter : ∀ key n, (∀ e ∈ past, window windowSec e.1.time ≤ n) → 0 < admitted upper past key n →
    ∃ c, s.counters (key, n) = some c ∧ admitted upper past key n ≤ c.count ∧ ∀ x ∈ c.expiresAt, (n + 1) * windowSec ≤ x

/-- Of the requests that a worker let through, those that its bucket does not hold any more are too old. -/
structure Bucketed (upper : String → String) (past : List (Request × Answer)) (s : Store) : Prop where
  bounded : ∀ worker key within, Near within →
    past.countP (fun e => byMemory upper worker key e && within e.1) ≤ maxRequests
  bucket : ∀ worker key, ∃ gone live, past.filter (byMemory upper worker key) = gone ++ live ∧
    live.map (·.1.monotonic) = s.buckets (worker, key) ∧
    ∀ e ∈ gone, ∃ later ∈ past, later.1.worker = worker ∧ windowSec < later.1.monotonic - e.1.monotonic

/-! ### One request -/

theorem admitted_concat (e : Request × Answer) (key : String) (n : Int) :
    admitted upper (past ++ [e]) key n =
      admitted upper past key n + if byRedis upper key e && window windowSec e.1.time = n then 1 else 0 := by
  rw [admitted, List.countP_append, List.countP_singleton]
  rfl

/-- What a request can do: nothing, or ask Redis and perhaps the memory of its worker. -/
inductive Handled (upper : String → String) (s : Store) (r : Request) : Answer → Store → Prop
  | unlimited (free : r.key? upper = none) : Handled upper s r .unlimited s
  | redis {key : String} (keyed : r.key? upper = some key) (found : r.redis = .answered) :
      Handled upper s r (.redis (((s.pass r.time).incr (key, window windowSec r.time)).count ≤ maxRequests))
        ((s.pass r.time).setCounter (key, window windowSec r.time)
          { (s.pass r.time).incr (key, window windowSec r.time) with expiresAt := some (r.time + (windowSec + 3)) })
  | memory {key : String} {t : Store} (keyed : r.key? upper = some key) (missed : r.redis ≠ .answered)
      (asked : t = s.pass r.time ∨
        t = (s.pass r.time).setCounter (key, window windowSec r.time) ((s.pass r.time).incr (key, window windowSec r.time))) :
      Handled upper s r (.memory (t.bucketAllowedMemory windowSec maxRequests key r).1)
        (t.bucketAllowedMemory windowSec maxRequests key r).2

theorem handled (upper : String → String) (s : Store) (r : Request) :
    Handled upper s r (enforceFallbackThrottle upper s r).1 (enforceFallbackThrottle upper s r).2 := by
  unfold enforceFallbackThrottle
  cases keyed : r.key? upper with
  | none => exact .unlimited keyed
  | some key =>
    unfold Store.bucketAllowedRedis
    have missed {calls : RedisCalls} (fate : r.redis = calls) (other : calls ≠ .answered) : r.redis ≠ .answered := fate ▸ other
    cases fate : r.redis with
    | unavailable => exact .memory keyed (missed fate (by decide)) (.inl rfl)
    | unanswered => exact .memory keyed (missed fate (by decide)) (.inr rfl)
    | expireFails => exact .memory keyed (missed fate (by decide)) (.inr rfl)
    | answered => exact .redis keyed fate

theorem windowSec_pos : 0 < windowSec := by norm_num [windowSec]

theorem Counted.passed (h : Counted upper past s) {n : Int} (later : ∀ e ∈ past, window windowSec e.1.time ≤ n)
    (now : window windowSec r.time ≤ n) (some_admitted : 0 < admitted upper past key n) :
    ∃ c, (s.pass r.time).counters (key, n) = some c ∧ admitted upper past key n ≤ c.count ∧
      ∀ x ∈ c.expiresAt, (n + 1) * windowSec ≤ x := by
  obtain ⟨c, there, enough, stays⟩ := h.counter key n later some_admitted
  refine ⟨c, ?_, enough, stays⟩
  have inside : r.time < (n + 1) * windowSec := by
    have below := window_lt windowSec_pos r.time
    have wider : ((window windowSec r.time : ℚ) + 1) * windowSec ≤ (n + 1) * windowSec := by
      have cast : (window windowSec r.time : ℚ) ≤ n := by exact_mod_cast now
      have pos := windowSec_pos
      gcongr
    exact below.trans_le wider
  have alive : c.expiresAt.all (r.time < ·) = true := by
    cases expires : c.expiresAt with
    | none => rfl
    | some x => exact decide_eq_true (inside.trans_le (stays x expires))
  exact Option.filter_eq_some_iff.mpr ⟨there, alive⟩

variable (key) in
/-- The new count is more than what has been let through. -/
theorem Counted.lt_incr (h : Counted upper past s) (ordered : ∀ e ∈ past, e.1.time ≤ r.time) :
    admitted upper past key (window windowSec r.time) < ((s.pass r.time).incr (key, window windowSec r.time)).count := by
  have later : ∀ e ∈ past, window windowSec e.1.time ≤ window windowSec r.time := fun e mem =>
    window_mono windowSec_pos (ordered e mem)
  rcases Nat.eq_zero_or_pos (admitted upper past key (window windowSec r.time)) with none_admitted | some_admitted
  · rw [none_admitted, Store.incr]
    split
    · exact Nat.one_pos
    · exact Nat.succ_pos _
  · obtain ⟨c, there, enough, -⟩ := h.passed later (le_refl _) some_admitted
    rw [Store.incr, there]
    exact Nat.lt_succ_of_le enough

theorem byRedis_iff {e : Request × Answer} : byRedis upper key e = true ↔ e.1.key? upper = some key ∧ e.2 = .redis true := by
  simp [byRedis]

/-- Where Redis has not let the request through, its counts may have gone up only. -/
theorem Counted.kept (h : Counted upper past s) {t : Store}
    (refused : ∀ key, byRedis upper key (r, answer) = false)
    (more : ∀ key n c, (s.pass r.time).counters (key, n) = some c →
      ∃ c', t.counters (key, n) = some c' ∧ c.count ≤ c'.count ∧ c'.expiresAt = c.expiresAt) :
    Counted upper (past ++ [(r, answer)]) t := by
  have same (key : String) (n : Int) : admitted upper (past ++ [(r, answer)]) key n = admitted upper past key n := by
    rw [admitted_concat, refused key]
    rfl
  refine ⟨fun key n => same key n ▸ h.bounded key n, fun key n later some_admitted => ?_⟩
  rw [same] at some_admitted ⊢
  obtain ⟨c, there, enough, stays⟩ := h.passed (fun e mem => later e (List.mem_append_left _ mem))
    (later (r, answer) (List.mem_append_right _ (List.mem_singleton_self _))) some_admitted
  obtain ⟨c', there', more, expires⟩ := more key n c there
  exact ⟨c', there', enough.trans more, expires ▸ stays⟩

theorem Counted.step (h : Counted upper past s) (ordered : ∀ e ∈ past, e.1.time ≤ r.time) {t : Store}
    (turn : Handled upper s r answer t) : Counted upper (past ++ [(r, answer)]) t := by
  cases turn with
  | unlimited free =>
    refine h.kept (fun key => ?_) fun key n c there => ⟨c, (Option.filter_eq_some_iff.mp there).1, le_refl _, rfl⟩
    simp [byRedis]
  | @memory key t keyed missed asked =>
    have buckets_only : (t.bucketAllowedMemory windowSec maxRequests key r).2.counters = t.counters := by
      unfold Store.bucketAllowedMemory
      dsimp only
      split <;> rfl
    refine h.kept (fun key => by simp [byRedis]) fun other n c there => ?_
    rw [buckets_only]
    rcases asked with rfl | rfl
    · exact ⟨c, there, le_refl _, rfl⟩
    · by_cases same : (other, n) = (key, window windowSec r.time)
      · refine ⟨{ c with count := c.count + 1 }, ?_, Nat.le_succ _, rfl⟩
        rw [same] at there ⊢
        rw [Store.setCounter_self, Store.incr, there]
      · refine ⟨c, ?_, le_refl _, rfl⟩
        rw [Store.setCounter_of_ne same]
        exact there
  | @redis key keyed found =>
    have less := h.lt_incr key ordered
    generalize counted : (s.pass r.time).incr (key, window windowSec r.time) = c at less ⊢
    have here_iff (other : String) (n : Int) : (byRedis upper other (r, .redis (c.count ≤ maxRequests)) &&
        decide (window windowSec r.time = n)) = true ↔ (other, n) = (key, window windowSec r.time) ∧ c.count ≤ maxRequests := by
      simp only [byRedis, keyed, Bool.and_eq_true, decide_eq_true_eq, Option.some.injEq, Answer.redis.injEq, Prod.mk.injEq]
      constructor
      · rintro ⟨⟨same, within⟩, now⟩
        exact ⟨⟨same.symm, now.symm⟩, within⟩
      · rintro ⟨⟨same, now⟩, within⟩
        exact ⟨⟨same.symm, within⟩, now.symm⟩
    refine ⟨fun other n => ?_, fun other n later some_admitted => ?_⟩
    · rw [admitted_concat]
      split
      · next here =>
        obtain ⟨same, within⟩ := (here_iff other n).mp here
        cases same
        exact less.trans_le within
      · exact h.bounded other n
    · rw [admitted_concat] at some_admitted ⊢
      by_cases same : (other, n) = (key, window windowSec r.time)
      · cases same
        refine ⟨{ c with expiresAt := some (r.time + (windowSec + 3)) }, Store.setCounter_self, ?_, ?_⟩
        · split
          · exact less
          · exact less.le
        · rintro x ⟨⟩
          have begun := window_le windowSec_pos r.time
          linarith
      · rw [if_neg fun here => same ((here_iff other n).mp here).1] at some_admitted ⊢
        obtain ⟨c', there, enough, stays⟩ := h.passed (fun e mem => later e (List.mem_append_left _ mem))
          (later _ (List.mem_append_right _ (List.mem_singleton_self _))) some_admitted
        refine ⟨c', ?_, enough, stays⟩
        rw [Store.setCounter_of_ne same]
        exact there

/-! ### The buckets -/

/-- The request was not let through by the memory of a worker, and no bucket has changed. -/
theorem Bucketed.kept (h : Bucketed upper past s) {t : Store} (refused : ∀ worker key, byMemory upper worker key (r, answer) = false)
    (same : t.buckets = s.buckets) : Bucketed upper (past ++ [(r, answer)]) t := by
  refine ⟨fun worker key within near => ?_, fun worker key => ?_⟩
  · rw [List.countP_append, List.countP_singleton, refused]
    exact h.bounded worker key within near
  · obtain ⟨gone, live, parts, held, old⟩ := h.bucket worker key
    refine ⟨gone, live, ?_, same ▸ held, fun e mem => ?_⟩
    · rw [List.filter_append, List.filter_singleton, refused, ← parts]
      exact List.append_nil _
    · obtain ⟨later, mem', of_worker, far⟩ := old e mem
      exact ⟨later, List.mem_append_left _ mem', of_worker, far⟩

theorem Bucketed.of_buckets (h : Bucketed upper past s) {t : Store} (same : t.buckets = s.buckets) : Bucketed upper past t :=
  ⟨h.bounded, fun worker key => same ▸ h.bucket worker key⟩

/-- What the worker still counts, once it has dropped what is too old for the request. -/
theorem Bucketed.dropped (h : Bucketed upper past s) (key : String) : ∃ gone live,
    past.filter (byMemory upper r.worker key) = gone ++ live ∧
      live.map (·.1.monotonic) = (s.buckets (r.worker, key)).dropWhile (fun first => windowSec < r.monotonic - first) ∧
      ∀ e ∈ gone, (∃ later ∈ past, later.1.worker = r.worker ∧ windowSec < later.1.monotonic - e.1.monotonic) ∨
        windowSec < r.monotonic - e.1.monotonic := by
  obtain ⟨gone, live, parts, held, old⟩ := h.bucket r.worker key
  let tooOld (e : Request × Answer) : Bool := windowSec < r.monotonic - e.1.monotonic
  refine ⟨gone ++ live.takeWhile tooOld, live.dropWhile tooOld, ?_, ?_, fun e mem => ?_⟩
  · rw [parts, List.append_assoc, List.takeWhile_append_dropWhile]
  · rw [← held, List.dropWhile_map]
    rfl
  · rcases List.mem_append.mp mem with before | now
    · exact .inl (old e before)
    · have far : tooOld e = true := List.mem_takeWhile_imp now
      exact .inr (of_decide_eq_true far)

theorem byMemory_iff {e : Request × Answer} :
    byMemory upper worker key e = true ↔ (e.1.key? upper = some key ∧ e.1.worker = worker) ∧ e.2 = .memory true := by
  simp [byMemory]

/-- The memory of the worker answers; only its own bucket for the key changes. -/
theorem Bucketed.concat (h : Bucketed upper past s) {allowed : Bool} {own : List ℚ} {t : Store} (keyed : r.key? upper = some key)
    (same : t.buckets = Function.update s.buckets (r.worker, key) own)
    (room : allowed = true → ∀ within, Near within → within r = true →
      past.countP (fun e => byMemory upper r.worker key e && within e.1) < maxRequests)
    (bucket : ∃ gone live : List (Request × Answer), (past ++ [(r, Answer.memory allowed)]).filter (byMemory upper r.worker key) = gone ++ live ∧
      live.map (·.1.monotonic) = own ∧ ∀ e ∈ gone, windowSec < r.monotonic - e.1.monotonic) :
    Bucketed upper (past ++ [(r, .memory allowed)]) t := by
  have last : (r, Answer.memory allowed) ∈ past ++ [(r, .memory allowed)] := List.mem_append_right _ (List.mem_singleton_self _)
  refine ⟨fun worker other within near => ?_, fun worker other => ?_⟩
  · rw [List.countP_append, List.countP_singleton]
    split
    · next here =>
      obtain ⟨mine, inside⟩ := Bool.and_eq_true_iff.mp here
      obtain ⟨⟨keyed', rfl⟩, admitted⟩ := byMemory_iff.mp mine
      cases keyed.symm.trans keyed'
      exact room (Answer.memory.inj admitted) within near inside
    · exact h.bounded worker other within near
  · rw [same]
    by_cases mine : (worker, other) = (r.worker, key)
    · cases mine
      obtain ⟨gone, live, parts, held, far⟩ := bucket
      refine ⟨gone, live, parts, ?_, fun e mem => ⟨_, last, rfl, far e mem⟩⟩
      rw [held, Function.update_self]
    · have others : byMemory upper worker other (r, .memory allowed) = false := by
        refine Bool.eq_false_iff.mpr fun here => mine ?_
        obtain ⟨⟨keyed', rfl⟩, -⟩ := byMemory_iff.mp here
        cases keyed.symm.trans keyed'
        rfl
      obtain ⟨gone, live, parts, held, old⟩ := h.bucket worker other
      refine ⟨gone, live, ?_, ?_, fun e mem => ?_⟩
      · rw [List.filter_append, List.filter_singleton, others, ← parts]
        exact List.append_nil _
      · rw [held, Function.update_of_ne mine]
      · obtain ⟨later, mem', of_worker, far⟩ := old e mem
        exact ⟨later, List.mem_append_left _ mem', of_worker, far⟩

theorem Bucketed.step (h : Bucketed upper past s)
    (ordered : ∀ e ∈ past, e.1.worker = r.worker → e.1.monotonic ≤ r.monotonic) {t : Store} (turn : Handled upper s r answer t) :
    Bucketed upper (past ++ [(r, answer)]) t := by
  cases turn with
  | unlimited free => exact h.kept (fun worker key => by simp [byMemory]) rfl
  | redis keyed found => exact h.kept (fun worker key => by simp [byMemory]) rfl
  | @memory key t keyed missed asked =>
    have same : t.buckets = s.buckets := by rcases asked with rfl | rfl <;> rfl
    have h := h.of_buckets same
    obtain ⟨gone, live, parts, held, old⟩ := h.dropped (r := r) key
    have far : ∀ e ∈ gone, windowSec < r.monotonic - e.1.monotonic := by
      intro e mem
      rcases old e mem with ⟨later, mem', of_worker, far⟩ | far
      · have le := ordered later mem' of_worker
        linarith
      · exact far
    have asks (allowed : Bool) : byMemory upper r.worker key (r, .memory allowed) = allowed := by
      cases allowed <;> simp [byMemory, keyed]
    unfold Store.bucketAllowedMemory
    rw [← held]
    dsimp only
    rw [List.length_map]
    split
    · refine h.concat keyed rfl (fun refused => absurd refused Bool.false_ne_true) ⟨gone, live, ?_, rfl, far⟩
      rw [List.filter_append, List.filter_singleton, asks, parts]
      exact List.append_nil _
    · next room =>
      refine h.concat keyed rfl (fun _ within near inside => ?_) ⟨gone, live ++ [(r, .memory true)], ?_, ?_, far⟩
      · -- Those that are near the request are all among the live ones.
        have none_gone : gone.countP (fun e => within e.1) = 0 := by
          refine List.countP_eq_zero.mpr fun e mem inside' => ?_
          have mine := (byMemory_iff.mp (List.mem_filter.mp (parts ▸ List.mem_append_left live mem)).2).1.2
          exact absurd ((near e.1 r inside' inside).2 mine) (far e mem).not_ge
        have among : past.countP (fun e => byMemory upper r.worker key e && within e.1) =
            (past.filter (byMemory upper r.worker key)).countP fun e => within e.1 := by
          rw [List.countP_filter]
          exact List.countP_congr fun e _ => by rw [Bool.and_comm]
        rw [among, parts, List.countP_append, none_gone, Nat.zero_add]
        exact List.countP_le_length.trans_lt (Nat.lt_of_not_le room)
      · rw [List.filter_append, List.filter_singleton, asks, parts, List.append_assoc]
        rfl
      · rw [List.map_append, List.map_singleton]

/-! ### Runs -/

variable (upper) in
theorem map_fst_answered : ∀ (s : Store) (rs : List Request), (answered upper s rs).map Prod.fst = rs
  | _, [] => rfl
  | _, r :: rs => congrArg (r :: ·) (map_fst_answered _ rs)

theorem handled_of_mem {rs : List Request} (mem : (r, answer) ∈ answered upper s rs) : ∃ s t, Handled upper s r answer t := by
  induction rs generalizing s with
  | nil => cases mem
  | cons first rs ih =>
    rcases List.mem_cons.mp mem with same | mem
    · cases same
      exact ⟨s, _, handled upper s r⟩
    · exact ih mem

theorem kept_answered {rs : List Request} (counted : Counted upper past s) (bucketed : Bucketed upper past s)
    (ordered : InOrder (past.map Prod.fst ++ rs)) :
    ∃ t, Counted upper (past ++ answered upper s rs) t ∧ Bucketed upper (past ++ answered upper s rs) t := by
  induction rs generalizing past s with
  | nil =>
    rw [answered, List.append_nil]
    exact ⟨s, counted, bucketed⟩
  | cons r rs ih =>
    have before : ∀ e ∈ past, e.1.time ≤ r.time ∧ (e.1.worker = r.worker → e.1.monotonic ≤ r.monotonic) := fun e mem =>
      (List.pairwise_append.mp ordered).2.2 e.1 (List.mem_map_of_mem mem) r List.mem_cons_self
    have turn := handled upper s r
    have next := ih (counted.step (fun e mem => (before e mem).1) turn) (bucketed.step (fun e mem => (before e mem).2) turn)
    rw [List.map_append, List.append_assoc, List.append_assoc] at next
    exact next ordered

theorem counted_nil : Counted upper [] {} :=
  ⟨fun _ _ => Nat.zero_le _, fun _ _ _ some_admitted => absurd some_admitted (Nat.lt_irrefl 0)⟩

theorem bucketed_nil : Bucketed upper [] {} :=
  ⟨fun _ _ _ _ => Nat.zero_le _, fun _ _ => ⟨[], [], rfl, rfl, fun _ mem => absurd mem List.not_mem_nil⟩⟩

/-- How many requests with the key were let through, of those that are looked at. -/
def letThrough (upper : String → String) (rs : List Request) (key : String) (within : Request → Bool) : Nat :=
  (answered upper {} rs).countP fun e => (e.1.key? upper = some key && e.2.allowed) && within e.1

variable (upper) in
theorem answered_kept {rs : List Request} (ordered : InOrder rs) :
    ∃ t, Counted upper (answered upper {} rs) t ∧ Bucketed upper (answered upper {} rs) t :=
  kept_answered counted_nil bucketed_nil ordered

variable {rs : List Request} {within : Request → Bool}

variable (upper key) in
/-- Redis lets twice the limit through: the end of one window and the beginning of the next. -/
theorem byRedis_le (ordered : InOrder rs) (near : Near within) :
    (answered upper {} rs).countP (fun e => byRedis upper key e && within e.1) ≤ 2 * maxRequests := by
  obtain ⟨t, counted, -⟩ := answered_kept upper ordered
  have bounded : ∀ n, (answered upper {} rs).countP (fun e => byRedis upper key e && window windowSec e.1.time = n) ≤ maxRequests :=
    counted.bounded key
  exact countP_near_le windowSec_pos bounded fun e _ e' _ inside inside' => (near e.1 e'.1 inside inside').1

variable (upper key) in
theorem byMemory_le (ordered : InOrder rs) (near : Near within) (worker : Nat) :
    (answered upper {} rs).countP (fun e => byMemory upper worker key e && within e.1) ≤ maxRequests := by
  obtain ⟨t, -, bucketed⟩ := answered_kept upper ordered
  exact bucketed.bounded worker key within near

theorem countP_le_of_shares {α : Type} {p q : α → Bool} {share : Nat → α → Bool} {limit workers : Nat} {l : List α}
    (shared : ∀ a ∈ l, p a = true → q a = true ∨ ∃ w < workers, share w a = true) (bound : ∀ w, l.countP (share w) ≤ limit) :
    l.countP p ≤ l.countP q + limit * workers := by
  induction workers generalizing q with
  | zero =>
    refine List.countP_mono_left fun a mem admitted => ?_
    rcases shared a mem admitted with own | ⟨w, lt, -⟩
    · exact own
    · exact absurd lt (Nat.not_lt_zero w)
  | succ n ih =>
    have rest := @ih (fun a => q a || share n a) fun a mem admitted => by
      rcases shared a mem admitted with own | ⟨w, lt, mine⟩
      · exact .inl (by rw [own, Bool.true_or])
      · rcases Nat.lt_succ_iff_lt_or_eq.mp lt with lt | rfl
        · exact .inr ⟨w, lt, mine⟩
        · exact .inl (by rw [mine, Bool.or_true])
    have both := countP_or_le q (share n) l
    have last := bound n
    rw [Nat.mul_succ]
    omega

/-- A request with a key is let through by Redis, if that answers, and else by the memory of its worker. -/
theorem shares {e : Request × Answer} (mem : e ∈ answered upper {} rs) (keyed : e.1.key? upper = some key)
    (allowed : e.2.allowed = true) :
    (byRedis upper key e = true ∧ e.1.redis = .answered) ∨ (byMemory upper e.1.worker key e = true ∧ e.1.redis ≠ .answered) := by
  obtain ⟨r, answer⟩ := e
  obtain ⟨s, t, turn⟩ := handled_of_mem mem
  cases turn with
  | unlimited free =>
    rw [free] at keyed
    cases keyed
  | redis keyed' found => exact .inl ⟨byRedis_iff.mpr ⟨keyed, congrArg Answer.redis allowed⟩, found⟩
  | memory keyed' missed asked => exact .inr ⟨byMemory_iff.mpr ⟨⟨keyed, rfl⟩, congrArg Answer.memory allowed⟩, missed⟩

/-- What the back ends let through adds up, however the calls to Redis turn out: twice the limit by Redis, and the limit once
    more for every worker. -/
theorem letThrough_le {workers : Nat} (ordered : InOrder rs) (near : Near within) (served : ∀ r ∈ rs, r.worker < workers) :
    letThrough upper rs key within ≤ 2 * maxRequests + maxRequests * workers ∧
      ((∀ r ∈ rs, within r = true → r.redis = .answered) → letThrough upper rs key within ≤ 2 * maxRequests) ∧
      ((∀ r ∈ rs, within r = true → r.redis ≠ .answered) → letThrough upper rs key within ≤ maxRequests * workers) := by
  have redis := byRedis_le upper key ordered near
  have memory := byMemory_le upper key ordered near
  -- An entry that counts is one of Redis, or one of the memory of a worker.
  have split : ∀ e ∈ answered upper {} rs, ((e.1.key? upper = some key && e.2.allowed) && within e.1) = true →
      (e.1 ∈ rs ∧ within e.1 = true) ∧ (((byRedis upper key e && within e.1) = true ∧ e.1.redis = .answered) ∨
        ((byMemory upper e.1.worker key e && within e.1) = true ∧ e.1.redis ≠ .answered)) := by
    intro e mem counts
    simp only [Bool.and_eq_true, decide_eq_true_eq] at counts
    obtain ⟨⟨keyed, allowed⟩, inside⟩ := counts
    have among : e.1 ∈ rs := map_fst_answered upper {} rs ▸ List.mem_map_of_mem mem
    refine ⟨⟨among, inside⟩, ?_⟩
    rw [inside, Bool.and_true, Bool.and_true]
    exact shares mem keyed allowed
  refine ⟨?_, fun found => ?_, fun missed => ?_⟩
  · refine (countP_le_of_shares (fun e mem counts => ?_) memory).trans (Nat.add_le_add_right redis _)
    obtain ⟨⟨among, -⟩, ⟨own, -⟩ | ⟨own, -⟩⟩ := split e mem counts
    · exact .inl own
    · exact .inr ⟨e.1.worker, served e.1 among, own⟩
  · refine (List.countP_mono_left fun e mem counts => ?_).trans redis
    obtain ⟨⟨among, inside⟩, ⟨own, -⟩ | ⟨-, missed⟩⟩ := split e mem counts
    · exact own
    · exact absurd (found e.1 among inside) missed
  · have none_redis : (answered upper {} rs).countP (fun _ => false) = 0 := congrFun List.countP_false _
    rw [← Nat.zero_add (maxRequests * workers), ← none_redis]
    refine countP_le_of_shares (fun e mem counts => ?_) memory
    obtain ⟨⟨among, inside⟩, ⟨-, found⟩ | ⟨own, -⟩⟩ := split e mem counts
    · exact absurd found (missed e.1 among inside)
    · exact .inr ⟨e.1.worker, served e.1 among, own⟩

/-- Two workers, each of which serves one request while Redis is away. -/
theorem letThrough_le_of_two_workers :
    let request (worker : Nat) : Request :=
      { method := "GET", path := "/api/chat/ws-token", tenantSlug := some "acme", clientHost := none, worker, time := 90,
        monotonic := 7, redis := .unavailable }
    let within (r : Request) : Bool := r.time = 90 && r.monotonic = 7
    letThrough id [request 0, request 1] "acme:unknown:GET:/api/chat/ws-token" within ≤ 2 * maxRequests + maxRequests * 2 ∧
      ((∀ r ∈ [request 0, request 1], within r = true → r.redis = .answered) →
        letThrough id [request 0, request 1] "acme:unknown:GET:/api/chat/ws-token" within ≤ 2 * maxRequests) ∧
      ((∀ r ∈ [request 0, request 1], within r = true → r.redis ≠ .answered) →
        letThrough id [request 0, request 1] "acme:unknown:GET:/api/chat/ws-token" within ≤ maxRequests * 2) :=
  letThrough_le (by simp [InOrder]) (by
    intro r r' inside inside'
    simp only [Bool.and_eq_true, decide_eq_true_eq] at inside inside'
    rw [inside.1, inside'.1, inside.2, inside'.2]
    norm_num [windowSec]) (by simp)

end NyzRating.Auth.FallbackThrottle
