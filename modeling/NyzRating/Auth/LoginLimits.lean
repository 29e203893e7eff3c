import Mathlib.Tactic.NormNum
import NyzRating.Auth.RateLimit

/-!
# The login limits hold in both stores

Each store answers as the log of a sliding window does. In Redis this rests on members that never coincide: of the
attempts at one time the later one finds a greater count.
-/

namespace NyzRating.Auth.RateLimit

open SlidingWindow

/-! ### Keys -/

namespace Check

def tenantSlug : Check → Option String
  | .loginStep1Email _ tenantSlug | .loginStep2PendingToken _ tenantSlug | .loginBurst _ _ tenantSlug => tenantSlug

/-- What is limited; nothing is, where it is blank. -/
def subject : Check → String
  | .loginStep1Email text _ | .loginStep2PendingToken text _ | .loginBurst text _ _ => strip text

variable (env : Env)

def memKey : Check → Dict × String
  | .loginStep1Email email tenantSlug => (.email, env.emailMemKey tenantSlug email)
  | .loginStep2PendingToken pendingToken tenantSlug => (.pending, Env.pendingMemKey tenantSlug pendingToken)
  | .loginBurst email ip tenantSlug => (.burst, env.burstMemKey tenantSlug email (normalizedIp ip))

/-- The key in Redis without its head. -/
def redisKey : Check → Dict × String
  | .loginStep1Email email tenantSlug => (.email, strip (tenantSlug.getD "") ++ ":" ++ env.lower (strip email))
  | .loginStep2PendingToken pendingToken tenantSlug => (.pending, strip (tenantSlug.getD "") ++ ":" ++ strip pendingToken)
  | .loginBurst email ip tenantSlug => (.burst, env.burstMemKey tenantSlug email (normalizedIp ip))

end Check

/-- The attempt that a call is, where `keyOf` names its key. -/
def request (keyOf : Check → Dict × String) (call : Check × ℚ) : Attempt (Dict × String) ℚ where
  key := if call.1.subject = "" then none else some (keyOf call.1)
  time := call.2

def policy (env : Env) : Policy (Dict × String) ℚ where
  width k := k.1.window
  limit k := (k.1.threshold env).toNat

/-- The slug of a tenant has no spaces around it. -/
def Check.SlugStripped (c : Check) : Prop := strip (c.tenantSlug.getD "") = c.tenantSlug.getD ""

variable {env : Env} {call : Check × ℚ} {k : Dict × String} {now : ℚ}

theorem Check.redisKey_eq {c : Check} (stripped : c.SlugStripped) : c.redisKey env = c.memKey env := by
  unfold Check.SlugStripped Check.tenantSlug at stripped
  cases c with
  | loginStep1Email email slug => simp only [Check.redisKey, Check.memKey, Env.emailMemKey, stripped]
  | loginStep2PendingToken token slug => simp only [Check.redisKey, Check.memKey, Env.pendingMemKey, stripped]
  | loginBurst email ip slug => rfl

namespace Dict

def redisHead : Dict → String
  | .email => "rl:login_email:"
  | .pending => "rl:login_pending:"
  | .burst => "rl:login_burst:"

def slack : Dict → ℚ
  | .email => 60
  | .pending => 60
  | .burst => 20

theorem window_pos (d : Dict) : 0 < d.window := by
  cases d <;> norm_num [window, loginStep1WindowSec, loginStep2WindowSec, loginBurstWindowSec]

theorem slack_nonneg (d : Dict) : 0 ≤ d.slack := by cases d <;> norm_num [slack]

theorem threshold_pos (d : Dict) : 0 < d.threshold env := by
  cases d with
  | email => exact Int.lt_of_lt_of_le Int.zero_lt_one (Int.le_max_left ..)
  | pending => exact (by decide : (0 : Int) < 5)
  | burst => exact Int.lt_of_lt_of_le Int.zero_lt_one (Int.le_max_left ..)

end Dict

def redisName (k : Dict × String) : String := k.1.redisHead ++ k.2

theorem redisName_inj {j : Dict × String} (same : redisName j = redisName k) : j = k := by
  have chars : j.1.redisHead.toList ++ j.2.toList = k.1.redisHead.toList ++ k.2.toList := by
    rw [← String.toList_append, ← String.toList_append]
    exact congrArg String.toList same
  have heads : j.1.redisHead.toList.take 10 = k.1.redisHead.toList.take 10 := by
    have long : ∀ d : Dict, 10 ≤ d.redisHead.toList.length := fun d => by cases d <;> decide
    have taken := congrArg (List.take 10) chars
    rwa [List.take_append_of_le_length (long _), List.take_append_of_le_length (long _)] at taken
  have dict : j.1 = k.1 := by
    revert heads
    cases j.1 <;> cases k.1 <;> decide
  rw [dict] at chars
  exact Prod.ext dict (String.toList_inj.mp (List.append_cancel_left chars))

/-! ### In memory -/

theorem isWithinLimit_eq {n : Nat} {d : Dict} : isWithinLimit n (d.threshold env) = decide (n < (d.threshold env).toNat) := by
  have positive : 0 < d.threshold env := d.threshold_pos
  unfold isWithinLimit
  exact decide_eq_decide.mpr (by omega)

/-- One spec for the three checks. -/
theorem Memory.check_eq (m : Memory) : m.check env call =
    match (request (Check.memKey env) call).key with
    | none => (true, m)
    | some k => m.attempt call.2 k.1.window (k.1.threshold env) k := by
  obtain ⟨c, now⟩ := call
  unfold request Check.subject
  cases c with
  | loginStep1Email email slug =>
    dsimp only [check, checkLoginStep1Email]
    split <;> rfl
  | loginStep2PendingToken token slug =>
    dsimp only [check, checkLoginStep2PendingToken]
    split <;> rfl
  | loginBurst email ip slug =>
    dsimp only [check, checkLoginBurst]
    split <;> rfl

/-- From `last` on the same times are alive as in the log. -/
def Memory.Tracks (last : ℚ) (log : Dict × String → List ℚ) (m : Memory) : Prop :=
  ∀ k now, last ≤ now → live k.1.window now (m k) = live k.1.window now (log k)

theorem Memory.check_tracks {last : ℚ} {log : Dict × String → List ℚ} {m : Memory} (tracks : m.Tracks last log)
    (later : last ≤ call.2) :
    (m.check env call).1 = (policy env).admits log (request (Check.memKey env) call) ∧
      (m.check env call).2.Tracks call.2 ((policy env).record log (request (Check.memKey env) call)) := by
  rw [check_eq]
  cases keyed : (request (Check.memKey env) call).key with
  | none =>
    simp only [Policy.admits, Policy.record, keyed]
    exact ⟨trivial, fun j now le => tracks j now (later.trans le)⟩
  | some k =>
    have kept : pruneOldTimestamps (m k) k.1.window call.2 = live k.1.window call.2 (log k) := tracks k call.2 later
    have answer : isWithinLimit (live k.1.window call.2 (log k)).length (k.1.threshold env) =
        (policy env).admits log (request (Check.memKey env) call) := by
      rw [Policy.admits_some keyed, isWithinLimit_eq]
      rfl
    simp only [attempt, kept, answer]
    cases admitted : (policy env).admits log (request (Check.memKey env) call) with
    | true =>
      refine ⟨rfl, fun j now le => ?_⟩
      by_cases same : j = k
      · subst same
        rw [Policy.record_self keyed, admitted]
        simp only [if_true, Function.update_self, live_append]
        rw [live_live le]
        rfl
      · rw [Policy.record_of_ne fun other => same (Option.some.inj (other.symm.trans keyed))]
        simp only [if_true, Function.update_of_ne same]
        exact tracks j now (later.trans le)
    | false =>
      refine ⟨rfl, fun j now le => ?_⟩
      rw [Policy.record_refused admitted]
      by_cases same : j = k
      · subst same
        simp only [Bool.false_eq_true, if_false, Function.update_self]
        exact live_live le _
      · simp only [Bool.false_eq_true, if_false, Function.update_of_ne same]
        exact tracks j now (later.trans le)

theorem memory_faithful : Faithful (policy env) (request (Check.memKey env)) (Memory.check · env) fun _ => [] :=
  faithful_of_step Memory.Tracks (fun _ _ _ _ => rfl) fun _ _ _ _ => Memory.check_tracks

/-! ### In Redis -/

namespace SortedSet

def times (z : SortedSet) : List ℚ := z.members.map (·.2)

/-- What holds of the set of a key with a window, for a log of its times, after an attempt at `last`. -/
structure Tracks (width last : ℚ) (log : List ℚ) (z : SortedSet) : Prop where
  alive : ∀ now, last ≤ now → live width now z.times = live width now log
  score : ∀ e ∈ z.members, e.1.now = e.2 ∧ e.2 ≤ last
  /-- The counts at `last` are below the one that another attempt at `last` finds. -/
  count : ∀ e ∈ z.members, e.2 = last → e.1.n < (live width last z.times).length
  expiry : ∀ e ∈ z.members, ∀ at_, z.expiresAt = some at_ → e.2 + width ≤ at_

variable {width last : ℚ} {log : List ℚ} {z : SortedSet} {e : Member × ℚ}

theorem Tracks.later (h : z.Tracks width last log) (le : last ≤ now) : z.Tracks width now log where
  alive later' le' := h.alive later' (le.trans le')
  score e mem := ⟨(h.score e mem).1, (h.score e mem).2.trans le⟩
  count e mem at_now := by
    have same : now = last := le_antisymm (at_now ▸ (h.score e mem).2) le
    subst same
    exact h.count e mem at_now
  expiry := h.expiry

/-- What a command finds has the same times alive. -/
theorem Tracks.current (h : z.Tracks width now log) : (z.current now).Tracks width now log := by
  unfold SortedSet.current
  split
  · rename_i expired
    obtain ⟨at_, found, le⟩ := (Option.any_eq_true ..).mp expired
    refine ⟨fun later le' => ?_, fun e mem => (List.not_mem_nil mem).elim, fun e mem => (List.not_mem_nil mem).elim,
      fun e mem => (List.not_mem_nil mem).elim⟩
    rw [← h.alive later le']
    refine (live_eq_nil fun t mem => ?_).symm
    obtain ⟨e, member, rfl⟩ := List.mem_map.mp mem
    have dead : e.2 + width ≤ later := (h.expiry e member at_ found).trans ((of_decide_eq_true le).trans le')
    exact le_sub_iff_add_le'.mpr dead
  · exact h

theorem zremrangebyscore_members : (z.zremrangebyscore (now - width)).members = z.members.filter (now - width < ·.2) := by
  unfold zremrangebyscore
  dsimp only
  split
  · rename_i none
    exact none.symm
  · rfl

theorem times_zremrangebyscore : (z.zremrangebyscore (now - width)).times = live width now z.times := by
  rw [times, zremrangebyscore_members, live, times, List.filter_map]
  congr 1
  exact List.filter_congr fun e _ => decide_eq_decide.mpr sub_lt_comm

theorem zremrangebyscore_expiresAt {at_ : ℚ} (some_ : (z.zremrangebyscore (now - width)).expiresAt = some at_) :
    z.expiresAt = some at_ := by
  unfold zremrangebyscore at some_
  dsimp only at some_
  split at some_
  · cases some_
  · exact some_

theorem Tracks.zremrangebyscore (h : z.Tracks width now log) : (z.zremrangebyscore (now - width)).Tracks width now log where
  alive later le := by
    rw [times_zremrangebyscore, live_live le]
    exact h.alive later le
  score e mem := h.score e (List.mem_of_mem_filter (zremrangebyscore_members ▸ mem))
  count e mem at_now := by
    rw [times_zremrangebyscore, live_live (le_refl _)]
    exact h.count e (List.mem_of_mem_filter (zremrangebyscore_members ▸ mem)) at_now
  expiry e mem at_ expires :=
    h.expiry e (List.mem_of_mem_filter (zremrangebyscore_members ▸ mem)) at_ (zremrangebyscore_expiresAt expires)

/-- A member with the time and the count of the set is new. -/
theorem Tracks.zadd_eq (h : z.Tracks width now log) (alive : z.times = live width now z.times) :
    z.zadd { now, n := z.zcard } now = { z with members := z.members ++ [({ now, n := z.zcard }, now)] } := by
  unfold zadd
  refine if_neg fun there => ?_
  obtain ⟨e, mem, same⟩ := List.any_eq_true.mp there
  have same : e.1 = { now, n := z.zcard } := of_decide_eq_true same
  have fewer := h.count e mem ((h.score e mem).1.symm.trans (congrArg Member.now same))
  rw [← alive, same, times, List.length_map] at fewer
  exact Nat.lt_irrefl _ fewer

/-- The set with the attempt. -/
theorem Tracks.added {slack : ℚ} (h : z.Tracks width now log) (alive : z.times = live width now z.times) (positive : 0 < width)
    (nonneg : 0 ≤ slack) :
    ((z.zadd { now, n := z.zcard } now).expire (now + (width + slack))).Tracks width now (log ++ [now]) := by
  rw [h.zadd_eq alive]
  have times : ∀ at_, (SortedSet.expire { z with members := z.members ++ [({ now, n := z.zcard }, now)] } at_).times =
      z.times ++ [now] := fun _ => List.map_append
  have counted : (live width now (z.times ++ [now])).length = z.zcard + 1 := by
    have self : live width now [now] = [now] := by simp [live, positive]
    rw [live_append, ← alive, self, List.length_append, SortedSet.times, List.length_map]
    rfl
  refine ⟨fun later le => ?_, fun e mem => ?_, fun e mem at_now => ?_, fun e mem at_ expires => ?_⟩
  · rw [times, live_append, live_append, h.alive later le]
  · rcases List.mem_append.mp mem with old | new
    · exact h.score e old
    · rw [List.mem_singleton.mp new]
      exact ⟨rfl, le_refl _⟩
  · rw [times, counted]
    rcases List.mem_append.mp mem with old | new
    · have fewer := h.count e old at_now
      rw [← alive, SortedSet.times, List.length_map] at fewer
      exact fewer.trans (Nat.lt_succ_self _)
    · rw [List.mem_singleton.mp new]
      exact Nat.lt_succ_self _
  · have score : e.2 ≤ now := by
      rcases List.mem_append.mp mem with old | new
      · exact (h.score e old).2
      · rw [List.mem_singleton.mp new]
    rw [← Option.some.inj expires, ← add_assoc]
    exact (add_le_add_left score width).trans (le_add_of_nonneg_right nonneg)

end SortedSet

theorem append_tail {head slug rest : String} : head ++ slug ++ ":" ++ rest = head ++ (slug ++ ":" ++ rest) := by
  simp only [String.append_assoc]

theorem emailRedisKey_eq {email : String} {slug : Option String} :
    env.emailRedisKey slug email = redisName ((Check.loginStep1Email email slug).redisKey env) := append_tail

theorem pendingRedisKey_eq {token : String} {slug : Option String} :
    Env.pendingRedisKey slug token = redisName ((Check.loginStep2PendingToken token slug).redisKey env) := append_tail

theorem burstRedisKey_eq {email : String} {ip slug : Option String} :
    env.burstRedisKey slug email (normalizedIp ip) = redisName ((Check.loginBurst email ip slug).redisKey env) := by
  unfold Env.burstRedisKey redisName Check.redisKey Env.burstMemKey
  simp only [Dict.redisHead, String.append_assoc]

/-- One spec for the three checks. -/
theorem Redis.check_eq (r : Redis) : r.check env call =
    match (request (Check.redisKey env) call).key with
    | none => (true, r)
    | some k => r.attempt call.2 k.1.window k.1.slack (k.1.threshold env) (redisName k) := by
  obtain ⟨c, now⟩ := call
  unfold request Check.subject
  cases c with
  | loginStep1Email email slug =>
    dsimp only [check, checkLoginStep1Email]
    rw [emailRedisKey_eq]
    split <;> rfl
  | loginStep2PendingToken token slug =>
    dsimp only [check, checkLoginStep2PendingToken]
    rw [pendingRedisKey_eq]
    split <;> rfl
  | loginBurst email ip slug =>
    dsimp only [check, checkLoginBurst]
    rw [burstRedisKey_eq]
    split <;> rfl

def Redis.Tracks (last : ℚ) (log : Dict × String → List ℚ) (r : Redis) : Prop :=
  ∀ k, (r (redisName k)).Tracks k.1.window last (log k)

theorem Redis.check_tracks {last : ℚ} {log : Dict × String → List ℚ} {r : Redis} (tracks : r.Tracks last log)
    (later : last ≤ call.2) :
    (r.check env call).1 = (policy env).admits log (request (Check.redisKey env) call) ∧
      (r.check env call).2.Tracks call.2 ((policy env).record log (request (Check.redisKey env) call)) := by
  rw [check_eq]
  cases keyed : (request (Check.redisKey env) call).key with
  | none =>
    simp only [Policy.admits, Policy.record, keyed]
    exact ⟨trivial, fun j => (tracks j).later later⟩
  | some k =>
    have pruned := ((tracks k).later later).current.zremrangebyscore
    have alive : ∀ z : SortedSet, (z.zremrangebyscore (call.2 - k.1.window)).times =
        live k.1.window call.2 (z.zremrangebyscore (call.2 - k.1.window)).times := fun z => by
      rw [SortedSet.times_zremrangebyscore, live_live (le_refl _)]
    have count : (((r (redisName k)).current call.2).zremrangebyscore (call.2 - k.1.window)).zcard =
        (live k.1.window call.2 (log k)).length := by
      rw [← pruned.alive call.2 (le_refl _), ← alive, SortedSet.times, List.length_map]
      rfl
    have answer : isWithinLimit (((r (redisName k)).current call.2).zremrangebyscore (call.2 - k.1.window)).zcard
        (k.1.threshold env) = (policy env).admits log (request (Check.redisKey env) call) := by
      rw [count, Policy.admits_some keyed, isWithinLimit_eq]
      rfl
    simp only [attempt, answer]
    cases admitted : (policy env).admits log (request (Check.redisKey env) call) with
    | true =>
      refine ⟨rfl, fun j => ?_⟩
      by_cases same : j = k
      · subst same
        rw [Policy.record_self keyed, admitted]
        simp only [if_true, Function.update_self]
        exact pruned.added (alive _) j.1.window_pos j.1.slack_nonneg
      · rw [Policy.record_of_ne fun other => same (Option.some.inj (other.symm.trans keyed))]
        simp only [if_true, Function.update_of_ne fun name => same (redisName_inj name)]
        exact (tracks j).later later
    | false =>
      refine ⟨rfl, fun j => ?_⟩
      rw [Policy.record_refused admitted]
      by_cases same : j = k
      · subst same
        simp only [Bool.false_eq_true, if_false, Function.update_self]
        exact pruned
      · simp only [Bool.false_eq_true, if_false, Function.update_of_ne fun name => same (redisName_inj name)]
        exact (tracks j).later later

theorem redis_faithful : Faithful (policy env) (request (Check.redisKey env)) (Redis.check · env) fun _ => {} :=
  faithful_of_step Redis.Tracks
    (fun _ _ => ⟨fun _ _ => rfl, fun _ mem => (List.not_mem_nil mem).elim, fun _ mem => (List.not_mem_nil mem).elim,
      fun _ mem => (List.not_mem_nil mem).elim⟩)
    fun _ _ _ _ => Redis.check_tracks

/-! ### Runs -/

def memoryAnswers (env : Env) (calls : List (Check × ℚ)) : List Bool := answers (Memory.check · env) (fun _ => []) calls

def redisAnswers (env : Env) (calls : List (Check × ℚ)) : List Bool := answers (Redis.check · env) (fun _ => {}) calls

/-- What a store promises of calls one after another; `keyOf` names the key that it counts a call under. -/
structure StoreLimits (env : Env) (keyOf : Check → Dict × String) (answersOf : List (Check × ℚ) → List Bool)
    (calls : List (Check × ℚ)) : Prop where
  /-- At most the threshold of attempts is let through in a window of the length, whichever of its ends belongs to it. -/
  closedOpen : ∀ k start, allowedWithin (calls.map (request keyOf)) (answersOf calls) k
    (fun t => start ≤ t && t < start + k.1.window) ≤ k.1.threshold env
  openClosed : ∀ k start, allowedWithin (calls.map (request keyOf)) (answersOf calls) k
    (fun t => start < t && t ≤ start + k.1.window) ≤ k.1.threshold env
  /-- Without a refused call all others are answered as with it. -/
  forgets : ∀ before call after, calls = before ++ call :: after → (answersOf calls)[before.length]? = some false →
    answersOf (before ++ after) = (answersOf calls).eraseIdx before.length

structure LoginLimits (env : Env) (calls : List (Check × ℚ)) : Prop where
  memory : StoreLimits env (Check.memKey env) (memoryAnswers env) calls
  redis : StoreLimits env (Check.redisKey env) (redisAnswers env) calls
  agree : (∀ call ∈ calls, call.1.SlugStripped) → redisAnswers env calls = memoryAnswers env calls

variable {σ : Type} {keyOf : Check → Dict × String} {attempt : σ → Check × ℚ → Bool × σ} {start : σ} {calls : List (Check × ℚ)}

theorem storeLimits_of_faithful (faithful : Faithful (policy env) (request keyOf) attempt start)
    (ordered : calls.Pairwise fun a b => a.2 ≤ b.2) : StoreLimits env keyOf (answers attempt start) calls := by
  have bounded : ∀ (k : Dict × String) (within : ℚ → Bool), (∀ s t, within s → within t → t - s < k.1.window) →
      (allowedWithin (calls.map (request keyOf)) (answers attempt start calls) k within : Int) ≤ k.1.threshold env := by
    intro k within near
    have least : allowedWithin (calls.map (request keyOf)) (answers attempt start calls) k within ≤ (k.1.threshold env).toNat :=
      faithful.allowedWithin_le ordered near
    have positive : 0 < k.1.threshold env := k.1.threshold_pos
    omega
  refine ⟨fun k from_ => bounded k _ fun s t inside inside' => ?_, fun k from_ => bounded k _ fun s t inside inside' => ?_, ?_⟩
  · simp only [Bool.and_eq_true, decide_eq_true_eq] at inside inside'
    exact sub_lt_iff_lt_add'.mpr (inside'.2.trans_le (add_le_add_left inside.1 _))
  · simp only [Bool.and_eq_true, decide_eq_true_eq] at inside inside'
    exact sub_lt_iff_lt_add'.mpr (inside'.2.trans_lt (add_lt_add_left inside.1 _))
  · rintro before call after rfl refused
    exact faithful.forgets ordered refused

theorem login_limits (ordered : calls.Pairwise fun a b => a.2 ≤ b.2) : LoginLimits env calls where
  memory := storeLimits_of_faithful memory_faithful ordered
  redis := storeLimits_of_faithful redis_faithful ordered
  agree stripped := by
    have requests : calls.map (request (Check.redisKey env)) = calls.map (request (Check.memKey env)) := by
      refine List.map_congr_left fun call mem => ?_
      rw [request, request, Check.redisKey_eq (stripped call mem)]
    rw [redisAnswers, memoryAnswers, redis_faithful calls ordered, memory_faithful calls ordered, requests]

/-- Seven calls for one e-mail, six of them within ten seconds. -/
def sevenCalls : List (Check × ℚ) :=
  [0, 0, 1, 2, 3, 4, 10].map fun now => (.loginBurst " Anna@bolt.hu" (some "10.0.0.1") (some "bolt"), now)

def standardEnv : Env := { lower := fun text => String.ofList (Text.lower text.toList) }

theorem login_limits_seven : LoginLimits standardEnv sevenCalls :=
  login_limits (by norm_num [sevenCalls])

example : redisAnswers standardEnv sevenCalls = [true, true, true, true, true, false, true] := by decide +kernel

end NyzRating.Auth.RateLimit
