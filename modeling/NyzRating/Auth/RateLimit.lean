import Mathlib.Algebra.Order.Group.Int
import Mathlib.Algebra.Order.Ring.Rat
import NyzRating.Lib.SlidingWindow
import NyzRating.Lib.Text

/-!
# Rate limits of a login

`check_login_step1_email`, `check_login_step2_pending_token` and `check_login_burst`, each on the two stores it may have: a
sorted set of Redis, whose members are the text of the time and of the count so far, and a list of times in memory. A time is
the exact value of a clock reading, in seconds.
-/

namespace NyzRating.Auth.RateLimit

open SlidingWindow

/-! ### `rate_limit_policy` -/

def loginStep1MaxPerEmail : Int := 10

def loginStep1WindowSec : ℚ := 3600

def loginStep2MaxPerToken : Int := 5

def loginStep2WindowSec : ℚ := 60

def loginBurstWindowSec : ℚ := 10

def pruneOldTimestamps (timestamps : List ℚ) (windowSec now : ℚ) : List ℚ := timestamps.filter (now - · < windowSec)

def isWithinLimit (currentCount : Nat) (maxCount : Int) : Bool := currentCount < maxCount

def strip (text : String) : String := String.ofList (Text.strip text.toList)

structure Settings where
  rateLimitLoginStep1PerEmailPerHour : Int := 25
  rateLimitLoginBurstPer10s : Int := 5

/-- The settings, and `str.lower`. -/
structure Env where
  settings : Settings := {}
  lower : String → String

namespace Env

variable (env : Env) (tenantSlug : Option String)

def emailMemKey (email : String) : String := tenantSlug.getD "" ++ ":" ++ env.lower (strip email)

def pendingMemKey (pendingToken : String) : String := tenantSlug.getD "" ++ ":" ++ strip pendingToken

def emailRedisKey (email : String) : String :=
  "rl:login_email:" ++ strip (tenantSlug.getD "") ++ ":" ++ env.lower (strip email)

def pendingRedisKey (pendingToken : String) : String :=
  "rl:login_pending:" ++ strip (tenantSlug.getD "") ++ ":" ++ strip pendingToken

def burstMemKey (email ip : String) : String :=
  strip (tenantSlug.getD "") ++ ":" ++ env.lower (strip email) ++ ":" ++ strip ip

def burstRedisKey (email ip : String) : String :=
  "rl:login_burst:" ++ strip (tenantSlug.getD "") ++ ":" ++ env.lower (strip email) ++ ":" ++ strip ip

def step1Threshold : Int :=
  let setting := env.settings.rateLimitLoginStep1PerEmailPerHour
  max 1 (if setting = 0 then loginStep1MaxPerEmail else setting)

def burstThreshold : Int := max 1 env.settings.rateLimitLoginBurstPer10s

end Env

def normalizedIp (ip : Option String) : String :=
  let ip := strip (ip.getD "")
  if ip = "" then "unknown" else ip

/-- A call of one of the checks. -/
inductive Check where
  | loginStep1Email (email : String) (tenantSlug : Option String)
  | loginStep2PendingToken (pendingToken : String) (tenantSlug : Option String)
  | loginBurst (email : String) (ip : Option String) (tenantSlug : Option String)

/-! ### In memory -/

/-- The dictionaries `_email_attempts`, `_pending_attempts` and `_burst_attempts`. -/
inductive Dict where
  | email
  | pending
  | burst
  deriving DecidableEq

namespace Dict

def window : Dict → ℚ
  | .email => loginStep1WindowSec
  | .pending => loginStep2WindowSec
  | .burst => loginBurstWindowSec

def threshold (env : Env) : Dict → Int
  | .email => env.step1Threshold
  | .pending => loginStep2MaxPerToken
  | .burst => env.burstThreshold

end Dict

/-- What the dictionaries hold. -/
abbrev Memory := Dict × String → List ℚ

namespace Memory

variable (m : Memory) (now : ℚ)

/-- The part that the checks share. -/
def attempt (windowSec : ℚ) (threshold : Int) (key : Dict × String) : Bool × Memory :=
  let kept := pruneOldTimestamps (m key) windowSec now
  if isWithinLimit kept.length threshold then (true, Function.update m key (kept ++ [now]))
  else (false, Function.update m key kept)

variable (env : Env)

def checkLoginStep1Email (email : String) (tenantSlug : Option String) : Bool × Memory :=
  if strip email = "" then (true, m)
  else m.attempt now loginStep1WindowSec env.step1Threshold (.email, env.emailMemKey tenantSlug email)

def checkLoginStep2PendingToken (pendingToken : String) (tenantSlug : Option String) : Bool × Memory :=
  if strip pendingToken = "" then (true, m)
  else m.attempt now loginStep2WindowSec loginStep2MaxPerToken (.pending, Env.pendingMemKey tenantSlug pendingToken)

def checkLoginBurst (email : String) (ip : Option String) (tenantSlug : Option String) : Bool × Memory :=
  if strip email = "" then (true, m)
  else m.attempt now loginBurstWindowSec env.burstThreshold (.burst, env.burstMemKey tenantSlug email (normalizedIp ip))

/-- A call of a check at a time. -/
def check (call : Check × ℚ) : Bool × Memory :=
  match call with
  | (.loginStep1Email email tenantSlug, now) => m.checkLoginStep1Email now env email tenantSlug
  | (.loginStep2PendingToken pendingToken tenantSlug, now) => m.checkLoginStep2PendingToken now pendingToken tenantSlug
  | (.loginBurst email ip tenantSlug, now) => m.checkLoginBurst now env email ip tenantSlug

end Memory

/-! ### In Redis -/

/-- The text `now:n`; no colon occurs in the text of a number, so that the two parts determine it. -/
structure Member where
  now : ℚ
  n : Nat
  deriving DecidableEq

/-- A sorted set with the scores of its members, and when it expires. -/
structure SortedSet where
  members : List (Member × ℚ) := []
  expiresAt : Option ℚ := none

namespace SortedSet

/-- What a command finds at the time. -/
def current (z : SortedSet) (now : ℚ) : SortedSet := if z.expiresAt.any (· ≤ now) then {} else z

/-- Members with scores up to `upTo` are removed; a set without members is gone. -/
def zremrangebyscore (z : SortedSet) (upTo : ℚ) : SortedSet :=
  let members := z.members.filter (upTo < ·.2)
  if members = [] then {} else { z with members }

def zcard (z : SortedSet) : Nat := z.members.length

/-- A member that is there gets the score. -/
def zadd (z : SortedSet) (member : Member) (score : ℚ) : SortedSet :=
  if z.members.any (·.1 = member) then
    { z with members := z.members.map fun e => if e.1 = member then (e.1, score) else e }
  else { z with members := z.members ++ [(member, score)] }

def expire (z : SortedSet) (at_ : ℚ) : SortedSet := { z with expiresAt := some at_ }

end SortedSet

abbrev Redis := String → SortedSet

namespace Redis

variable (r : Redis) (now : ℚ)

/-- The part that the checks share; a set expires `slack` seconds after its window. -/
def attempt (windowSec slack : ℚ) (threshold : Int) (key : String) : Bool × Redis :=
  let z := ((r key).current now).zremrangebyscore (now - windowSec)
  let n := z.zcard
  if isWithinLimit n threshold then
    (true, Function.update r key ((z.zadd { now, n } now).expire (now + (windowSec + slack))))
  else (false, Function.update r key z)

variable (env : Env)

def checkLoginStep1Email (email : String) (tenantSlug : Option String) : Bool × Redis :=
  if strip email = "" then (true, r)
  else r.attempt now loginStep1WindowSec 60 env.step1Threshold (env.emailRedisKey tenantSlug email)

def checkLoginStep2PendingToken (pendingToken : String) (tenantSlug : Option String) : Bool × Redis :=
  if strip pendingToken = "" then (true, r)
  else r.attempt now loginStep2WindowSec 60 loginStep2MaxPerToken (Env.pendingRedisKey tenantSlug pendingToken)

def checkLoginBurst (email : String) (ip : Option String) (tenantSlug : Option String) : Bool × Redis :=
  if strip email = "" then (true, r)
  else r.attempt now loginBurstWindowSec 20 env.burstThreshold (env.burstRedisKey tenantSlug email (normalizedIp ip))

def check (call : Check × ℚ) : Bool × Redis :=
  match call with
  | (.loginStep1Email email tenantSlug, now) => r.checkLoginStep1Email now env email tenantSlug
  | (.loginStep2PendingToken pendingToken tenantSlug, now) => r.checkLoginStep2PendingToken now pendingToken tenantSlug
  | (.loginBurst email ip tenantSlug, now) => r.checkLoginBurst now env email ip tenantSlug

end Redis

end NyzRating.Auth.RateLimit
