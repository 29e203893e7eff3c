import Mathlib.Data.List.Perm.Basic
import NyzRating.Auth.LoginLimits
import NyzRating.Lib.LateLock
import NyzRating.Lib.Run

/-!
# Bans of addresses

A login that the service does not accept is counted under its tenant, e-mail and address; the one that reaches the threshold
bans the address, for tenants and for the platform alike. A login asks for a ban when it comes, counts when it is refused and
writes the ban after that; other logins may come in between.
-/

namespace NyzRating.Auth.IpBans

open LateLock RateLimit Runs SlidingWindow

/-! ### Settings and keys -/

structure Settings where
  rateLimitLoginFailureBanThreshold : Int := 16
  rateLimitLoginFailureBanWindowSec : Int := 900
  rateLimitLoginFailureBanHours : Int := 2

structure Env extends RateLimit.Env where
  ban : Settings := {}

namespace Env

variable (env : Env)

def failureThreshold : Int := max 1 env.ban.rateLimitLoginFailureBanThreshold

def thresholdWindow : ℚ := (max 60 env.ban.rateLimitLoginFailureBanWindowSec : Int)

def expiresHours : Int := max 1 env.ban.rateLimitLoginFailureBanHours

def failureBanMemKey (tenantSlug : Option String) (email ip : String) : String :=
  strip (tenantSlug.getD "") ++ ":" ++ env.lower (strip email) ++ ":" ++ strip ip

def failureBanRedisKey (tenantSlug : Option String) (email ip : String) : String :=
  "rl:login_fail_ban:" ++ strip (tenantSlug.getD "") ++ ":" ++ env.lower (strip email) ++ ":" ++ strip ip

end Env

/-! ### Logins -/

/-- The two routes of a login. -/
inductive Portal where
  | tenant (slug : Option String)
  | platformAdmin
  deriving DecidableEq

namespace Portal

def tenantSlug : Portal → Option String
  | .tenant slug => slug
  | .platformAdmin => some "__platform_admin__"

def reason : Portal → String
  | .tenant _ => "auth_login_bruteforce_detected"
  | .platformAdmin => "platform_admin_login_bruteforce_detected"

end Portal

structure Login where
  email : Option String
  clientHost : Option String
  portal : Portal
  deriving DecidableEq

namespace Login

variable (l : Login)

/-- The address as the bans know it. -/
def address : String := strip (l.clientHost.getD "")

/-- The key that a refusal is counted under, unless the e-mail is blank. -/
def key? (env : Env) : Option String :=
  let email := l.email.getD ""
  if strip email = "" then none
  else some (env.failureBanMemKey l.portal.tenantSlug email (normalizedIp l.clientHost))

end Login

/-! ### Failures -/

/-- The dictionary `_failure_attempts`. -/
abbrev FailureAttempts := String → List ℚ

def FailureAttempts.registerFailedLoginAttempt (env : Env) (m : FailureAttempts) (now : ℚ) (email : String)
    (ip tenantSlug : Option String) : ℕ × FailureAttempts :=
  if strip email = "" then (0, m)
  else
    let memKey := env.failureBanMemKey tenantSlug email (normalizedIp ip)
    let attempts := pruneOldTimestamps (m memKey) env.thresholdWindow now ++ [now]
    (attempts.length, Function.update m memKey attempts)

def registerFailedLoginAttemptInRedis (env : Env) (r : Redis) (now : ℚ) (email : String) (ip tenantSlug : Option String) :
    ℕ × Redis :=
  if strip email = "" then (0, r)
  else
    let redisKey := env.failureBanRedisKey tenantSlug email (normalizedIp ip)
    let z := ((r redisKey).current now).zremrangebyscore (now - env.thresholdWindow)
    let n := z.zcard
    (n + 1, Function.update r redisKey ((z.zadd { now, n } now).expire (now + (env.thresholdWindow + 60))))

/-- What counts failures: for a log of their times, it answers with the number of those that are young. -/
structure Store (env : Env) (σ : Type) where
  start : σ
  registerFailedLoginAttempt : σ → ℚ → String → Option String → Option String → ℕ × σ
  Tracks : ℚ → (String → List ℚ) → σ → Prop
  init : ∀ last, Tracks last (fun _ => []) start
  later : ∀ {last now log s}, Tracks last log s → last ≤ now → Tracks now log s
  blank : ∀ {s now email ip slug}, strip email = "" → (registerFailedLoginAttempt s now email ip slug).2 = s
  count : ∀ {now log s email ip slug}, Tracks now log s → strip email ≠ "" →
    (registerFailedLoginAttempt s now email ip slug).1 =
      (live env.thresholdWindow now (log (env.failureBanMemKey slug email (normalizedIp ip)))).length + 1
  record : ∀ {now log s email ip slug}, Tracks now log s → strip email ≠ "" →
    let key := env.failureBanMemKey slug email (normalizedIp ip)
    Tracks now (Function.update log key (log key ++ [now])) (registerFailedLoginAttempt s now email ip slug).2

section
variable {env : Env}

theorem thresholdWindow_pos : 0 < env.thresholdWindow := by
  have positive : 0 < max 60 env.ban.rateLimitLoginFailureBanWindowSec := lt_max_of_lt_left (by decide)
  exact Int.cast_pos.mpr positive

variable (env) in
def memory : Store env FailureAttempts where
  start _ := []
  registerFailedLoginAttempt := FailureAttempts.registerFailedLoginAttempt env
  Tracks last log m := ∀ key now, last ≤ now → live env.thresholdWindow now (m key) = live env.thresholdWindow now (log key)
  init _ _ _ _ := rfl
  later tracks le key now le' := tracks key now (le.trans le')
  blank empty := by
    unfold FailureAttempts.registerFailedLoginAttempt
    rw [if_pos empty]
  count {now log m email ip slug} tracks some_email := by
    unfold FailureAttempts.registerFailedLoginAttempt
    rw [if_neg some_email]
    have kept := tracks (env.failureBanMemKey slug email (normalizedIp ip)) now (le_refl _)
    exact List.length_append.trans (congrArg (List.length · + 1) kept)
  record {now log m email ip slug} tracks some_email := by
    unfold FailureAttempts.registerFailedLoginAttempt
    rw [if_neg some_email]
    intro key other now' le
    by_cases same : other = key
    · subst same
      simp only [key, Function.update_self, live_append]
      rw [← tracks key now' le]
      exact congrArg (· ++ _) (live_live le _)
    · rw [Function.update_of_ne same]
      dsimp only
      rw [Function.update_of_ne same]
      exact tracks other now' le

def redisName (key : String) : String := "rl:login_fail_ban:" ++ key

theorem failureBanRedisKey_eq {email ip : String} {slug : Option String} :
    env.failureBanRedisKey slug email ip = redisName (env.failureBanMemKey slug email ip) := by
  unfold Env.failureBanRedisKey redisName Env.failureBanMemKey
  simp only [String.append_assoc]

theorem redisName_inj {j k : String} (same : redisName j = redisName k) : j = k := by
  have chars := congrArg String.toList same
  unfold redisName at chars
  rw [String.toList_append, String.toList_append] at chars
  exact String.toList_inj.mp (List.append_cancel_left chars)

variable (env) in
def redis : Store env Redis where
  start _ := {}
  registerFailedLoginAttempt := registerFailedLoginAttemptInRedis env
  Tracks last log r := ∀ key, (r (redisName key)).Tracks env.thresholdWindow last (log key)
  init _ _ := ⟨fun _ _ => rfl, fun _ mem => (List.not_mem_nil mem).elim, fun _ mem => (List.not_mem_nil mem).elim,
    fun _ mem => (List.not_mem_nil mem).elim⟩
  later tracks le key := (tracks key).later le
  blank empty := by
    unfold registerFailedLoginAttemptInRedis
    rw [if_pos empty]
  count {now log r email ip slug} tracks some_email := by
    unfold registerFailedLoginAttemptInRedis
    rw [if_neg some_email, failureBanRedisKey_eq]
    have pruned := (tracks (env.failureBanMemKey slug email (normalizedIp ip))).current.zremrangebyscore
    rw [← pruned.alive now (le_refl _), SortedSet.times_zremrangebyscore, live_live (le_refl _),
      ← SortedSet.times_zremrangebyscore, SortedSet.times, List.length_map]
    rfl
  record {now log r email ip slug} tracks some_email := by
    unfold registerFailedLoginAttemptInRedis
    rw [if_neg some_email, failureBanRedisKey_eq]
    intro key other
    by_cases same : other = key
    · subst same
      simp only [key, Function.update_self]
      refine (tracks key).current.zremrangebyscore.added ?_ thresholdWindow_pos (by norm_num)
      rw [SortedSet.times_zremrangebyscore, live_live (le_refl _)]
    · have other_name : redisName other ≠ redisName key := fun name => same (redisName_inj name)
      rw [Function.update_of_ne same]
      dsimp only
      rw [Function.update_of_ne other_name]
      exact tracks other

end

/-! ### Bans -/

/-- A row of `PlatformSecurityIpBanORM`. -/
structure IpBan where
  reason : Option String
  createdBy : Option Int
  createdAt : ℚ
  expiresAt : Option ℚ
  releasedAt : Option ℚ := none
  releasedBy : Option Int := none

/-- The rows, by their address. -/
abbrev Bans := String → Option IpBan

/-- Nothing, where the text is blank. -/
def stripped? (text : Option String) : Option String := (text.map strip).filter (· ≠ "")

def expiresAt (now : ℚ) (expiresHours : Option Int) : Option ℚ :=
  (expiresHours.filter (· ≠ 0)).map fun hours => now + hours * 3600

namespace Bans

variable (bans : Bans) (now : ℚ)

def isIpBanned (ip : Option String) : Bool :=
  let normalized := strip (ip.getD "")
  if normalized = "" then false
  else
    match bans normalized with
    | none => false
    | some row => row.releasedAt.isNone && row.expiresAt.all (now < ·)

def upsertIpBan (ip : String) (reason : Option String) (createdBy : Option Int) (expiresAt : Option ℚ) : Bans :=
  let normalized := strip ip
  match bans normalized with
  | none => Function.update bans normalized (some { reason := stripped? reason, createdBy, createdAt := now, expiresAt })
  | some row =>
    Function.update bans normalized
      (some { reason := (stripped? reason).or row.reason, createdBy, createdAt := now, expiresAt })

def banIp (ip : String) (reason : Option String) (expiresHours : Option Int) (adminUserId : Option Int) :
    Except String Bans :=
  let normalizedIp := strip ip
  if normalizedIp = "" then .error "invalid_ip"
  else .ok (bans.upsertIpBan now normalizedIp reason adminUserId (expiresAt now expiresHours))

def releaseIpBan (ip : String) (adminUserId : Option Int) : Except String Bans :=
  let normalized := strip ip
  match bans normalized with
  | none => .error "ip_not_found"
  | some row =>
    .ok (Function.update bans normalized (some { row with releasedAt := some now, releasedBy := adminUserId }))

end Bans

/-! ### Steps -/

/-- What is counted, the bans, the logins on their way, and the ones that were refused. -/
structure World (σ : Type) where
  failures : σ
  bans : Bans := fun _ => none
  /-- They have asked for a ban. -/
  checked : List Login := []
  /-- They have reached the threshold. -/
  banning : List Login := []
  refused : List (Login × ℚ) := []

inductive Op where
  /-- A login comes; where the lookup of a ban fails, it goes on. -/
  | arrive (login : Login) (lookupFails : Bool)
  /-- A login ends otherwise than by a refusal. -/
  | leave (i : ℕ)
  | refuse (i : ℕ)
  /-- A login that has reached the threshold bans its address; what the write raises is swallowed. -/
  | autoBan (i : ℕ) (writeFails : Bool)
  | banIp (ip : String) (reason : Option String) (expiresHours adminUserId : Option Int)
  | releaseIpBan (ip : String) (adminUserId : Option Int)

variable {σ : Type} {env : Env} (store : Store env σ)

def step (s : World σ) (label : Op × ℚ) : World σ :=
  let (op, now) := label
  match op with
  | .arrive login lookupFails =>
    if s.bans.isIpBanned now login.clientHost && !lookupFails then s else { s with checked := s.checked ++ [login] }
  | .leave i => { s with checked := s.checked.eraseIdx i }
  | .refuse i =>
    match s.checked[i]? with
    | none => s
    | some login =>
      let (failureCount, failures) :=
        store.registerFailedLoginAttempt s.failures now (login.email.getD "") login.clientHost login.portal.tenantSlug
      let reached := env.failureThreshold ≤ failureCount ∧ login.clientHost.getD "" ≠ ""
      { s with
        failures
        checked := s.checked.eraseIdx i
        banning := if reached then s.banning ++ [login] else s.banning
        refused := s.refused ++ [(login, now)] }
  | .autoBan i writeFails =>
    match s.banning[i]? with
    | none => s
    | some login =>
      let banned := s.bans.banIp now (login.clientHost.getD "") (some login.portal.reason) (some env.expiresHours) none
      { s with
        banning := s.banning.eraseIdx i
        bans := if writeFails then s.bans else banned.toOption.getD s.bans }
  | .banIp ip reason expiresHours adminUserId =>
    { s with bans := (s.bans.banIp now ip reason expiresHours adminUserId).toOption.getD s.bans }
  | .releaseIpBan ip adminUserId => { s with bans := (s.bans.releaseIpBan now ip adminUserId).toOption.getD s.bans }

/-- Nothing has been counted yet. -/
def begin (bans : Bans) : World σ := { failures := store.start, bans }

/-! ### What is bounded -/

/-- The login is counted under the key, and the bans of the address are about it. -/
def Login.of (env : Env) (key address : String) (l : Login) : Bool := l.key? env = some key && l.address = address

variable (env) in
/-- How many logins were refused at a time from `start` on that is before `stop`. -/
def refusals (key address : String) (start stop : ℚ) (s : World σ) : ℕ :=
  s.refused.countP fun (l, time) => l.of env key address && (start ≤ time && time < stop)

variable (env) in
def onTheirWay (key address : String) (s : World σ) : ℕ :=
  s.checked.countP (·.of env key address) + s.banning.countP (·.of env key address)

/-- What may open the address again: its release, a ban of it that is over before `stop`, and a lookup or a write for it that
    fails. -/
def opens (address : String) (start stop : ℚ) (s : World σ) (label : Op × ℚ) : Bool :=
  let (op, now) := label
  (start ≤ now && now < stop) &&
    match op with
    | .arrive login lookupFails => lookupFails && login.address = address
    | .leave _ => false
    | .refuse _ => false
    | .autoBan i writeFails => writeFails && (s.banning[i]?).any (·.address = address)
    | .banIp ip _ expiresHours _ => strip ip = address && (expiresAt now expiresHours).any (· < stop)
    | .releaseIpBan ip _ => strip ip = address

def openings (address : String) (start stop : ℚ) : World σ → List (Op × ℚ) → ℕ
  | _, [] => 0
  | s, label :: labels =>
    (opens address start stop s label).toNat + openings address start stop (step store s label) labels

/-! ### One step -/

variable {store} {key address : String} {start stop now : ℚ} {s : World σ} {bans : Bans}

/-- The row bans its address until `stop`. -/
def lockedUntil (stop : ℚ) (row : Option IpBan) : Bool :=
  row.any fun r => r.releasedAt.isNone && r.expiresAt.all (stop ≤ ·)

variable (env) in
/-- The state of the lock that the address is behind. -/
def view (key address : String) (start stop : ℚ) (s : World σ) : LateLock.State where
  failed := refusals env key address start stop s
  inside := s.checked.countP (·.of env key address)
  setting := s.banning.countP (·.of env key address)
  locked := lockedUntil stop (s.bans address)

theorem address_of {l : Login} (h : l.of env key address = true) : l.key? env = some key ∧ l.address = address := by
  unfold Login.of at h
  rw [Bool.and_eq_true, decide_eq_true_eq, decide_eq_true_eq] at h
  exact h

theorem isIpBanned_of_locked (named : address ≠ "") {ip : Option String} (own : strip (ip.getD "") = address)
    (early : now < stop) (locked : lockedUntil stop (bans address) = true) : bans.isIpBanned now ip = true := by
  unfold lockedUntil at locked
  obtain ⟨row, there, active⟩ := (Option.any_eq_true ..).mp locked
  obtain ⟨unreleased, late⟩ := (Bool.and_eq_true ..).mp active
  unfold Bans.isIpBanned
  dsimp only
  rw [own, if_neg named, there]
  dsimp only
  rw [unreleased, Bool.true_and]
  cases expires : row.expiresAt with
  | none => rfl
  | some at_ =>
    rw [expires] at late
    exact decide_eq_true (early.trans_le (of_decide_eq_true late))

theorem strip_strip (text : String) : strip (strip text) = strip text := by
  unfold strip
  rw [String.toList_ofList, Text.strip_strip]

/-- The bans after a call of `ban_ip`. -/
theorem ban_self (bans : Bans) (now : ℚ) {ip : String} (reason : Option String) (hours admin : Option Int)
    (named : address ≠ "") (own : strip ip = address) :
    ∃ row, (bans.banIp now ip reason hours admin).toOption.getD bans address = some row ∧
      row.releasedAt = none ∧ row.expiresAt = expiresAt now hours := by
  unfold Bans.banIp Bans.upsertIpBan
  dsimp only
  rw [own, if_neg named, show strip address = address by rw [← own, strip_strip]]
  cases bans address with
  | none => exact ⟨_, Function.update_self .., rfl, rfl⟩
  | some row => exact ⟨_, Function.update_self .., rfl, rfl⟩

theorem ban_of_ne {ip : String} {reason : Option String} {hours admin : Option Int} (other : strip ip ≠ address) :
    (bans.banIp now ip reason hours admin).toOption.getD bans address = bans address := by
  unfold Bans.banIp Bans.upsertIpBan
  dsimp only
  split
  · rfl
  · rw [strip_strip]
    dsimp only [Except.toOption, Option.getD]
    cases bans (strip ip) <;> exact Function.update_of_ne (Ne.symm other) ..

theorem release_of_ne {ip : String} {admin : Option Int} (other : strip ip ≠ address) :
    (bans.releaseIpBan now ip admin).toOption.getD bans address = bans address := by
  unfold Bans.releaseIpBan
  dsimp only
  split
  · rfl
  · exact Function.update_of_ne (Ne.symm other) ..

theorem release_unlocks {ip : String} {admin : Option Int} (own : strip ip = address) :
    lockedUntil stop ((bans.releaseIpBan now ip admin).toOption.getD bans address) = false := by
  unfold Bans.releaseIpBan
  dsimp only
  rw [own]
  cases there : bans address with
  | none =>
    dsimp only [Except.toOption, Option.getD]
    rw [there]
    rfl
  | some row =>
    dsimp only [Except.toOption, Option.getD]
    rw [Function.update_self]
    rfl

theorem countP_eraseIdx {α : Type} {l : List α} {i : ℕ} {a : α} (p : α → Bool) (at_i : l[i]? = some a) :
    l.countP p = (l.eraseIdx i).countP p + (p a).toNat := by
  obtain ⟨within, rfl⟩ := List.getElem?_eq_some_iff.mp at_i
  rw [← List.Perm.countP_eq p (List.getElem_cons_eraseIdx_perm within), List.countP_cons]
  cases p l[i] <;> rfl

/-- The times of the refusals, by their key. -/
def timesOf (env : Env) (refused : List (Login × ℚ)) (key : String) : List ℚ :=
  (refused.filter fun (l, _) => l.key? env = some key).map (·.2)

/-- The store has counted the refusals, none of which is later than `last`. -/
structure Counted (store : Store env σ) (last : ℚ) (s : World σ) : Prop where
  tracks : store.Tracks last (timesOf env s.refused) s.failures
  past : ∀ e ∈ s.refused, e.2 ≤ last

theorem timesOf_blank {refused : List (Login × ℚ)} {l : Login} (blank : strip (l.email.getD "") = "") :
    timesOf env (refused ++ [(l, now)]) = timesOf env refused := by
  funext key
  unfold timesOf
  have unkeyed : l.key? env = none := if_pos blank
  rw [List.filter_append, List.filter_cons_of_neg (by simp [unkeyed])]
  simp

theorem key?_of_email {l : Login} (some_email : strip (l.email.getD "") ≠ "") : l.key? env =
    some (env.failureBanMemKey l.portal.tenantSlug (l.email.getD "") (normalizedIp l.clientHost)) := if_neg some_email

theorem timesOf_keyed {refused : List (Login × ℚ)} {l : Login} {k : String} (keyed : l.key? env = some k) :
    timesOf env (refused ++ [(l, now)]) = Function.update (timesOf env refused) k (timesOf env refused k ++ [now]) := by
  funext other
  unfold timesOf
  rw [List.filter_append, List.map_append]
  by_cases same : other = k
  · rw [same, Function.update_self, List.filter_cons_of_pos (by simp [keyed])]
    rfl
  · rw [Function.update_of_ne same, List.filter_cons_of_neg (by simp [keyed, Ne.symm same])]
    exact List.append_nil _

theorem Counted.later (h : Counted store now s) {later : ℚ} (le : now ≤ later) : Counted store later s :=
  ⟨store.later h.tracks le, fun e mem => (h.past e mem).trans le⟩

theorem Counted.step {last : ℚ} (h : Counted store last s) (label : Op × ℚ) (le : last ≤ label.2) :
    Counted store label.2 (step store s label) := by
  obtain ⟨op, now⟩ := label
  have h : Counted store now s := h.later le
  cases op with
  | arrive login lookupFails =>
    unfold IpBans.step
    dsimp only
    split
    · exact h
    · exact ⟨h.tracks, h.past⟩
  | leave i => exact ⟨h.tracks, h.past⟩
  | autoBan i writeFails =>
    unfold IpBans.step
    dsimp only
    split
    · exact h
    · exact ⟨h.tracks, h.past⟩
  | banIp ip reason hours admin => exact ⟨h.tracks, h.past⟩
  | releaseIpBan ip admin => exact ⟨h.tracks, h.past⟩
  | refuse i =>
    unfold IpBans.step
    dsimp only
    split
    · exact h
    · next l at_i =>
      refine ⟨?_, fun e mem => ?_⟩
      · dsimp only
        by_cases blank : strip (l.email.getD "") = ""
        · rw [timesOf_blank blank, store.blank blank]
          exact h.tracks
        · rw [timesOf_keyed (key?_of_email blank)]
          exact store.record h.tracks blank
      · rcases List.mem_append.mp mem with old | new
        · exact h.past e old
        · rw [List.mem_singleton.mp new]

/-- A refusal finds all those of its key that are in the stretch. -/
theorem Counted.refusals_lt (h : Counted store now s) {l : Login} (own : l.of env key address = true)
    (short : stop - start ≤ env.thresholdWindow) (early : now < stop) :
    refusals env key address start stop s <
      (store.registerFailedLoginAttempt s.failures now (l.email.getD "") l.clientHost l.portal.tenantSlug).1 := by
  obtain ⟨keyed, -⟩ := address_of own
  have some_email : strip (l.email.getD "") ≠ "" := by
    intro blank
    rw [Login.key?, if_pos blank] at keyed
    cases keyed
  obtain rfl := Option.some.inj ((key?_of_email some_email).symm.trans keyed)
  rw [store.count h.tracks some_email]
  refine Nat.lt_succ_of_le ?_
  unfold refusals live timesOf
  rw [List.filter_map, List.length_map, ← List.countP_eq_length_filter, List.countP_filter]
  refine List.countP_mono_left fun e mem inside => ?_
  obtain ⟨own, time⟩ := (Bool.and_eq_true ..).mp inside
  obtain ⟨begun, -⟩ := (Bool.and_eq_true ..).mp time
  rw [Bool.and_eq_true, decide_eq_true_eq]
  refine ⟨decide_eq_true ?_, (address_of own).1⟩
  calc now - e.2 ≤ now - start := sub_le_sub_left (of_decide_eq_true begun) now
    _ < stop - start := sub_lt_sub_right early start
    _ ≤ env.thresholdWindow := short

/-! ### The lock of an address -/

/-- The stretch is short enough for the window of the count, and for a ban that is set in it. -/
structure Short (env : Env) (start stop : ℚ) : Prop where
  window : stop - start ≤ env.thresholdWindow
  ban : stop - start ≤ env.expiresHours * 3600

theorem Short.expires (short : Short env start stop) (begun : start ≤ now) :
    ∃ at_, expiresAt now (some env.expiresHours) = some at_ ∧ stop ≤ at_ := by
  have positive : 0 < env.expiresHours := lt_max_of_lt_left Int.zero_lt_one
  refine ⟨now + env.expiresHours * 3600, ?_, ?_⟩
  · unfold expiresAt
    rw [Option.filter_some, if_pos (decide_eq_true positive.ne')]
    rfl
  · calc stop = start + (stop - start) := (add_sub_cancel start stop).symm
      _ ≤ now + env.expiresHours * 3600 := add_le_add begun short.ban

section
variable {l : Login} (named : address ≠ "") (short : Short env start stop) (h : Counted store now s) (begun : start ≤ now)
  (early : now < stop)
include begun early

theorem inside_stretch : (decide (start ≤ now) && decide (now < stop)) = true := by simp [begun, early]

include named in
theorem step_arrive (lookupFails : Bool) : Step env.failureThreshold.toNat (view env key address start stop s)
    (opens address start stop s (.arrive l lookupFails, now))
    (view env key address start stop (step store s (.arrive l lookupFails, now))) := by
  unfold IpBans.step
  dsimp only
  split
  · exact .idle
  · next passes =>
    have checked : view env key address start stop { s with checked := s.checked ++ [l] } =
        { view env key address start stop s with
          inside := s.checked.countP (·.of env key address) + (l.of env key address).toNat } := by
      unfold view
      rw [List.countP_append, List.countP_singleton]
      cases l.of env key address <;> rfl
    rw [checked]
    cases own : l.of env key address with
    | false => exact .idle
    | true =>
      have address_eq : l.address = address := (address_of own).2
      unfold opens
      dsimp only
      rw [inside_stretch begun early, address_eq, decide_eq_true rfl, Bool.and_true, Bool.true_and]
      cases lookupFails with
      | true => exact .slip
      | false =>
        refine .enter (Bool.eq_false_iff.mpr fun locked => passes ?_)
        rw [isIpBanned_of_locked named address_eq early locked]
        rfl

omit begun early in
theorem step_leave (i : ℕ) : Step env.failureThreshold.toNat (view env key address start stop s) false
    (view env key address start stop (step store s (.leave i, now))) := by
  cases at_i : s.checked[i]? with
  | none =>
    have same : { s with checked := s.checked.eraseIdx i } = s := by
      rw [List.eraseIdx_eq_self.mpr (List.getElem?_eq_none_iff.mp at_i)]
    exact congrArg (view env key address start stop) same ▸ .idle
  | some l =>
    have fewer := countP_eraseIdx (·.of env key address) at_i
    have before : view env key address start stop s =
        { view env key address start stop (step store s (.leave i, now)) with
          inside := (s.checked.eraseIdx i).countP (·.of env key address) + (l.of env key address).toNat } :=
      congrArg (LateLock.State.mk _ · _ _) fewer
    rw [before]
    cases l.of env key address with
    | false => exact .idle
    | true => exact .leave

include named short h in
theorem step_refuse (i : ℕ) : Step env.failureThreshold.toNat (view env key address start stop s) false
    (view env key address start stop (step store s (.refuse i, now))) := by
  cases at_i : s.checked[i]? with
  | none =>
    have same : step store s (.refuse i, now) = s := by simp only [step, at_i]
    rw [same]
    exact .idle
  | some l =>
    have fewer := countP_eraseIdx (·.of env key address) at_i
    have more : refusals env key address start stop { s with refused := s.refused ++ [(l, now)] } =
        refusals env key address start stop s + (l.of env key address).toNat := by
      unfold refusals
      rw [List.countP_append, List.countP_singleton]
      simp only [inside_stretch begun early, Bool.and_true]
      cases l.of env key address <;> rfl
    let rest : LateLock.State :=
      { view env key address start stop s with inside := (s.checked.eraseIdx i).countP (·.of env key address) }
    have before : view env key address start stop s = { rest with inside := rest.inside + (l.of env key address).toNat } :=
      congrArg (LateLock.State.mk _ · _ _) fewer
    have banning : (step store s (.refuse i, now)).banning =
        if env.failureThreshold ≤ (store.registerFailedLoginAttempt s.failures now (l.email.getD "") l.clientHost
          l.portal.tenantSlug).1 ∧ l.clientHost.getD "" ≠ "" then s.banning ++ [l] else s.banning := by
      simp only [step, at_i]
    have after : view env key address start stop (step store s (.refuse i, now)) = { rest with
        failed := rest.failed + (l.of env key address).toNat
        setting := (step store s (.refuse i, now)).banning.countP (·.of env key address) } := by
      simp only [rest, view]
      rw [← more]
      simp only [step, at_i]
      rfl
    rw [after, before, banning]
    cases own : l.of env key address with
    | false =>
      have same : (if env.failureThreshold ≤ (store.registerFailedLoginAttempt s.failures now (l.email.getD "") l.clientHost
          l.portal.tenantSlug).1 ∧ l.clientHost.getD "" ≠ "" then s.banning ++ [l] else s.banning).countP
            (·.of env key address) = s.banning.countP (·.of env key address) := by
        split
        · rw [List.countP_append, List.countP_singleton, own]
          rfl
        · rfl
      rw [same]
      exact .idle
    | true =>
      have less := h.refusals_lt own short.window early
      split
      · rw [List.countP_append, List.countP_singleton, own]
        exact .reach (s := rest)
      · next few =>
        have host : l.clientHost.getD "" ≠ "" := by
          intro none_given
          refine named ?_
          rw [← (address_of own).2, Login.address, none_given]
          rfl
        refine .fail (s := rest) (Nat.lt_of_le_of_lt (Nat.succ_le_of_lt less) ?_)
        have below := not_le.mp fun reached => few ⟨reached, host⟩
        omega

include named short in
theorem step_autoBan (i : ℕ) (writeFails : Bool) : Step env.failureThreshold.toNat (view env key address start stop s)
    (opens address start stop s (.autoBan i writeFails, now))
    (view env key address start stop (step store s (.autoBan i writeFails, now))) := by
  cases at_i : s.banning[i]? with
  | none =>
    have same : step store s (.autoBan i writeFails, now) = s := by simp only [step, at_i]
    rw [same]
    exact .idle
  | some l =>
    have fewer := countP_eraseIdx (·.of env key address) at_i
    let rest : LateLock.State :=
      { view env key address start stop s with setting := (s.banning.eraseIdx i).countP (·.of env key address) }
    have before : view env key address start stop s = { rest with setting := rest.setting + (l.of env key address).toNat } :=
      congrArg (LateLock.State.mk _ _ · _) fewer
    have after : view env key address start stop (step store s (.autoBan i writeFails, now)) = { rest with
        locked := lockedUntil stop ((step store s (.autoBan i writeFails, now)).bans address) } := by
      simp only [step, at_i]
      rfl
    have bans : (step store s (.autoBan i writeFails, now)).bans = if writeFails then s.bans else
        (s.bans.banIp now (l.clientHost.getD "") (some l.portal.reason) (some env.expiresHours) none).toOption.getD s.bans := by
      simp only [step, at_i]
    rw [before, after, bans]
    cases writeFails with
    | true =>
      rw [if_pos rfl]
      cases own : l.of env key address with
      | false => exact .idle
      | true =>
        have opened : opens address start stop s (.autoBan i true, now) = true := by
          simp [opens, inside_stretch begun early, at_i, (address_of own).2]
        rw [opened]
        exact .miss
    | false =>
      have shut : opens address start stop s (.autoBan i false, now) = false := by simp [opens]
      rw [if_neg Bool.false_ne_true, shut]
      by_cases here : l.address = address
      · obtain ⟨row, there, unreleased, expiry⟩ := ban_self s.bans now (some l.portal.reason) (some env.expiresHours)
          none named here
        obtain ⟨at_, expires, late⟩ := short.expires begun
        have locked : lockedUntil stop (some row) = true := by
          rw [lockedUntil, Option.any_some, unreleased, expiry, expires]
          exact decide_eq_true late
        rw [there, locked]
        cases l.of env key address with
        | false => exact .lock
        | true => exact .set
      · have other : l.of env key address = false := by
          rw [Login.of, decide_eq_false here, Bool.and_false]
        rw [ban_of_ne here, other]
        exact .idle

include named in
theorem step_banIp (ip : String) (reason : Option String) (hours admin : Option Int) :
    Step env.failureThreshold.toNat (view env key address start stop s)
      (opens address start stop s (.banIp ip reason hours admin, now))
      (view env key address start stop (step store s (.banIp ip reason hours admin, now))) := by
  have after : view env key address start stop (step store s (.banIp ip reason hours admin, now)) =
      { view env key address start stop s with
        locked := lockedUntil stop ((s.bans.banIp now ip reason hours admin).toOption.getD s.bans address) } := rfl
  rw [after]
  by_cases here : strip ip = address
  · obtain ⟨row, there, unreleased, expiry⟩ := ban_self s.bans now reason hours admin named here
    have opens_iff : opens address start stop s (.banIp ip reason hours admin, now) = !lockedUntil stop (some row) := by
      rw [lockedUntil, Option.any_some, unreleased, expiry, opens, inside_stretch begun early, here]
      cases expiresAt now hours with
      | none => simp
      | some at_ => simp [← not_lt]
    rw [there, opens_iff]
    cases lockedUntil stop (some row) with
    | true => exact .lock
    | false => exact .unlock
  · rw [ban_of_ne here]
    exact .idle

theorem step_releaseIpBan (ip : String) (admin : Option Int) :
    Step env.failureThreshold.toNat (view env key address start stop s)
      (opens address start stop s (.releaseIpBan ip admin, now))
      (view env key address start stop (step store s (.releaseIpBan ip admin, now))) := by
  have after : view env key address start stop (step store s (.releaseIpBan ip admin, now)) =
      { view env key address start stop s with
        locked := lockedUntil stop ((s.bans.releaseIpBan now ip admin).toOption.getD s.bans address) } := rfl
  rw [after]
  by_cases here : strip ip = address
  · have opened : opens address start stop s (.releaseIpBan ip admin, now) = true := by
      simp [opens, inside_stretch begun early, here]
    rw [release_unlocks here, opened]
    exact .unlock
  · rw [release_of_ne here]
    exact .idle

include named short h in
/-- In the stretch, the address is behind a lock that is set late. -/
theorem step_view (op : Op) : Step env.failureThreshold.toNat (view env key address start stop s)
    (opens address start stop s (op, now)) (view env key address start stop (step store s (op, now))) := by
  cases op with
  | arrive l lookupFails => exact step_arrive named begun early lookupFails
  | leave i =>
    have shut : opens address start stop s (.leave i, now) = false := by simp [opens]
    rw [shut]
    exact step_leave i
  | refuse i =>
    have shut : opens address start stop s (.refuse i, now) = false := by simp [opens]
    rw [shut]
    exact step_refuse named short h begun early i
  | autoBan i writeFails => exact step_autoBan named short begun early i writeFails
  | banIp ip reason hours admin => exact step_banIp named begun early ip reason hours admin
  | releaseIpBan ip admin => exact step_releaseIpBan begun early ip admin

end

/-! ### Runs -/

theorem refusals_step (outside : ¬(start ≤ now ∧ now < stop)) (op : Op) :
    refusals env key address start stop (step store s (op, now)) = refusals env key address start stop s := by
  cases op with
  | refuse i =>
    cases at_i : s.checked[i]? with
    | none => simp only [step, at_i]
    | some l =>
      have later : (decide (start ≤ now) && decide (now < stop)) = false := by simpa using outside
      simp only [step, at_i, refusals]
      rw [List.countP_append, List.countP_singleton]
      simp only [later, Bool.and_false, Bool.false_eq_true, if_false, Nat.add_zero]
  | arrive l lookupFails =>
    unfold step
    dsimp only
    split <;> rfl
  | autoBan i writeFails =>
    unfold step
    dsimp only
    split <;> rfl
  | leave i => rfl
  | banIp ip reason hours admin => rfl
  | releaseIpBan ip admin => rfl

theorem Counted.refusals_eq_zero (h : Counted store now s) (before : now < start) :
    refusals env key address start stop s = 0 := by
  refine List.countP_eq_zero.mpr fun e mem inside => ?_
  obtain ⟨-, time⟩ := (Bool.and_eq_true ..).mp inside
  have begun : start ≤ e.2 := of_decide_eq_true ((Bool.and_eq_true ..).mp time).1
  exact absurd (begun.trans (h.past e mem)) (not_le.mpr before)

/-- What holds at `last`, after so many openings in the stretch. -/
structure Bounded (store : Store env σ) (key address : String) (start stop : ℚ) (width opened : ℕ) (last : ℚ)
    (s : World σ) : Prop where
  counted : Counted store last s
  within : last < stop → Within env.failureThreshold.toNat width opened (view env key address start stop s)
  refusals_lt : refusals env key address start stop s < env.failureThreshold.toNat + width * (opened + 1)

variable {width opened : ℕ} {last : ℚ}

theorem failureThreshold_pos : 0 < env.failureThreshold := lt_max_of_lt_left Int.zero_lt_one

theorem Bounded.step (h : Bounded store key address start stop width opened last s) (named : address ≠ "")
    (short : Short env start stop) {label : Op × ℚ} (le : last ≤ label.2) (before : onTheirWay env key address s ≤ width)
    (after : onTheirWay env key address (step store s label) ≤ width) :
    Bounded store key address start stop width (opened + (opens address start stop s label).toNat) label.2
      (step store s label) := by
  obtain ⟨op, now⟩ := label
  have counted := h.counted.step (op, now) le
  have positive : 0 < env.failureThreshold.toNat := by
    have positive : 0 < env.failureThreshold := failureThreshold_pos
    omega
  have grown : width * (opened + 1) ≤ width * (opened + (opens address start stop s (op, now)).toNat + 1) :=
    Nat.mul_le_mul_left width (Nat.add_le_add_right (Nat.le_add_right ..) 1)
  by_cases early : now < stop
  · have within : Within env.failureThreshold.toNat width (opened + (opens address start stop s (op, now)).toNat)
        (view env key address start stop (IpBans.step store s (op, now))) := by
      by_cases begun : start ≤ now
      · exact (h.within (le.trans_lt early)).step before after (step_view named short (h.counted.later le) begun early op)
      · exact within_of_failed_eq_zero positive after (counted.refusals_eq_zero (not_le.mp begun))
    exact ⟨counted, fun _ => within, within.failed_lt after⟩
  · refine ⟨counted, fun early' => absurd early' early, ?_⟩
    rw [refusals_step fun inside => early inside.2]
    exact h.refusals_lt.trans_le (Nat.add_le_add_left grown _)

theorem Bounded.run (named : address ≠ "") (short : Short env start stop) {labels : List (Op × ℚ)}
    (h : Bounded store key address start stop width opened last s) (later : ∀ label ∈ labels, last ≤ label.2)
    (ordered : labels.Pairwise fun a b => a.2 ≤ b.2)
    (narrow : ∀ n, onTheirWay env key address (final (IpBans.step store) s (labels.take n)) ≤ width) :
    refusals env key address start stop (final (IpBans.step store) s labels) <
      env.failureThreshold.toNat + width * (opened + openings store address start stop s labels + 1) := by
  induction labels generalizing s opened last with
  | nil => exact h.refusals_lt
  | cons label labels ih =>
    obtain ⟨first, rest⟩ := List.pairwise_cons.mp ordered
    have next := h.step named short (later label List.mem_cons_self) (narrow 0) (narrow 1)
    rw [openings, ← Nat.add_assoc]
    exact ih next first rest fun n => narrow (n + 1)

end NyzRating.Auth.IpBans
