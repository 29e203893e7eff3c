import Mathlib.Data.Finset.Filter
import Mathlib.Data.Finset.Insert
import NyzRating.Lib.Run

/-!
# The allowlist of access tokens

The identifiers of the access tokens that are allowed are in Redis, or in a set of the process where Redis is not at hand.
A call writes or reads where it gets through; it does not look at what another call has left in the other place.
-/

namespace NyzRating.Auth.TokenAllowlist

open Runs

/-! ### Calls -/

/-- What a call finds of Redis. -/
inductive Redis where
  /-- `get_redis()` is none. -/
  | absent
  | up
  /-- The command raises. -/
  | down
  /-- The command is executed, and then the call raises. -/
  | lost
  deriving DecidableEq, Repr

/-- The process that makes a call, and what it finds. -/
structure Site where
  process : Nat := 0
  redis : Redis
  /-- `_fail_closed_active` -/
  failClosed : Bool := false
  deriving DecidableEq, Repr

/-- The sets in Redis by their keys, and `_store` of each process. -/
structure State where
  redis : Finset (String × String) := ∅
  store : Finset (Nat × (Option String × Nat) × String) := ∅
  deriving DecidableEq

def redisKey (tenantSlug : Option String) (userId : Nat) : String :=
  "allowlist:" ++ tenantSlug.getD "" ++ ":" ++ toString userId

/-- The command that the call sends to Redis is executed. -/
def Site.reaches (c : Site) : Bool := c.redis = .up || c.redis = .lost

/-- The call turns to the set of its process. -/
def Site.fallsBack (c : Site) : Bool := c.redis ≠ .up && !c.failClosed

def add (c : Site) (tenantSlug : Option String) (userId : Nat) (jti : String) (s : State) : State where
  redis := if c.reaches then insert (redisKey tenantSlug userId, jti) s.redis else s.redis
  store := if c.fallsBack then insert (c.process, (tenantSlug, userId), jti) s.store else s.store

/-- `TokenAllowlistUnavailableError` -/
def addRaises (c : Site) : Bool := c.redis ≠ .up && c.failClosed

def removeByUser (c : Site) (tenantSlug : Option String) (userId : Nat) (s : State) : State where
  redis := if c.reaches then s.redis.filter (·.1 ≠ redisKey tenantSlug userId) else s.redis
  store := if c.fallsBack then s.store.filter fun e => (e.1, e.2.1) ≠ (c.process, (tenantSlug, userId)) else s.store

def isAllowed (c : Site) (tenantSlug : Option String) (userId : Nat) (jti : String) (s : State) : Bool :=
  if c.redis = .up then (redisKey tenantSlug userId, jti) ∈ s.redis
  else c.fallsBack && (c.process, (tenantSlug, userId), jti) ∈ s.store

inductive Op where
  | add (c : Site) (tenantSlug : Option String) (userId : Nat) (jti : String)
  | removeByUser (c : Site) (tenantSlug : Option String) (userId : Nat)
  | isAllowed (c : Site) (tenantSlug : Option String) (userId : Nat) (jti : String)
  /-- Redis drops a key whose time is over. -/
  | expire (key : String)
  | restart (process : Nat)

def step (s : State) : Op → State
  | .add c tenantSlug userId jti => add c tenantSlug userId jti s
  | .removeByUser c tenantSlug userId => removeByUser c tenantSlug userId s
  | .isAllowed .. => s
  | .expire key => { s with redis := s.redis.filter (·.1 ≠ key) }
  | .restart process => { s with store := s.store.filter (·.1 ≠ process) }

/-! ### Keys -/

theorem colon_not_mem_digits (n : Nat) : ':' ∉ Nat.toDigits 10 n := by
  intro mem
  have digit := Nat.isDigit_of_mem_toDigits (by decide) (by decide) mem
  revert digit
  decide

theorem redisKey_inj {t t' : Option String} {u u' : Nat} :
    redisKey t u = redisKey t' u' ↔ t.getD "" = t'.getD "" ∧ u = u' := by
  refine ⟨fun same => ?_, fun ⟨slug, user⟩ => by simp [redisKey, slug, user]⟩
  -- The last colon is the one before the user.
  have last : ∀ {x x' d d' : List Char}, ':' ∉ d → ':' ∉ d' → x ++ ':' :: d = x' ++ ':' :: d' → x = x' ∧ d = d' := by
    intro x x' d d' hd hd' h
    rcases List.append_eq_append_iff.mp h with ⟨c, rfl, hc⟩ | ⟨c, rfl, hc⟩
    · cases c with
      | nil => exact ⟨(List.append_nil x).symm, (List.cons.inj hc).2⟩
      | cons _ c => exact absurd ((List.cons.inj hc).2 ▸ List.mem_append_right c List.mem_cons_self) hd
    · cases c with
      | nil => exact ⟨List.append_nil x', (List.cons.inj hc).2.symm⟩
      | cons _ c => exact absurd ((List.cons.inj hc).2 ▸ List.mem_append_right c List.mem_cons_self) hd'
  have same := congrArg String.toList same
  simp only [redisKey, String.toList_append, List.append_assoc, List.append_cancel_left_eq, Nat.toString_eq_repr,
    Nat.toList_repr] at same
  obtain ⟨slug, digits⟩ := last (colon_not_mem_digits u) (colon_not_mem_digits u') same
  refine ⟨String.toList_inj.mp slug, ?_⟩
  rw [← Nat.ofDigitChars_ten_toDigits (n := u), digits, Nat.ofDigitChars_ten_toDigits]

/-! ### Revocation -/

/-- The call puts the token back on the list of the user. -/
def Adds (t : Option String) (u : Nat) (jti : String) : Op → Prop
  | .add _ t' u' jti' => t'.getD "" = t.getD "" ∧ u' = u ∧ jti' = jti
  | _ => False

/-- After a removal no token of the user is allowed, whatever the later calls find, until it is added again. -/
def Durable (s : State) : Op → Prop
  | .removeByUser c t u => ∀ jti ops, (∀ op ∈ ops, ¬Adds t u jti op) → ∀ c',
      isAllowed c' t u jti (final step (removeByUser c t u s) ops) = false
  | _ => True

/-- A removal gets to every place that has tokens of the user. -/
def Clears (s : State) : Op → Prop
  | .removeByUser c t u => (∀ e ∈ s.redis, e.1 = redisKey t u → c.reaches = true) ∧
      ∀ e ∈ s.store, e.2.1 = (t, u) → c.fallsBack = true ∧ e.1 = c.process
  | _ => True

/-- The token is in no place under the user. -/
def Gone (t : Option String) (u : Nat) (jti : String) (s : State) : Prop :=
  (redisKey t u, jti) ∉ s.redis ∧ ∀ p, (p, (t, u), jti) ∉ s.store

section
variable {s : State} {t : Option String} {u : Nat} {jti : String} {op : Op}

/-- A token is in no place just when no call can find it. -/
theorem gone_iff : Gone t u jti s ↔ ∀ c, isAllowed c t u jti s = false := by
  refine ⟨fun ⟨redis, store⟩ c => ?_, fun h => ⟨fun mem => ?_, fun p mem => ?_⟩⟩
  · simp [isAllowed, redis, store]
  · have := h { redis := .up }
    simp [isAllowed, mem] at this
  · have := h { process := p, redis := .absent }
    simp [isAllowed, Site.fallsBack, mem] at this

theorem Gone.step (h : Gone t u jti s) (other : ¬Adds t u jti op) : Gone t u jti (step s op) := by
  obtain ⟨redis, store⟩ := h
  cases op with
  | add c t' u' jti' =>
    refine ⟨?_, fun p => ?_⟩
    · simp only [TokenAllowlist.step, add]
      split
      · rw [Finset.mem_insert, not_or, Prod.mk.injEq, redisKey_inj]
        refine ⟨?_, redis⟩
        rintro ⟨⟨slug, user⟩, same⟩
        exact other ⟨slug.symm, user.symm, same.symm⟩
      · exact redis
    · simp only [TokenAllowlist.step, add]
      split
      · rw [Finset.mem_insert, not_or]
        refine ⟨?_, store p⟩
        rintro ⟨⟩
        exact other ⟨rfl, rfl, rfl⟩
      · exact store p
  | removeByUser c t' u' =>
    refine ⟨?_, fun p => ?_⟩
    · simp only [TokenAllowlist.step, removeByUser]
      split
      · exact fun mem => redis (Finset.mem_filter.mp mem).1
      · exact redis
    · simp only [TokenAllowlist.step, removeByUser]
      split
      · exact fun mem => store p (Finset.mem_filter.mp mem).1
      · exact store p
  | isAllowed c t' u' jti' => exact ⟨redis, store⟩
  | expire key => exact ⟨fun mem => redis (Finset.mem_filter.mp mem).1, store⟩
  | restart process => exact ⟨redis, fun p mem => store p (Finset.mem_filter.mp mem).1⟩

theorem Gone.final {ops : List Op} (h : Gone t u jti s) (others : ∀ op ∈ ops, ¬Adds t u jti op) :
    Gone t u jti (Runs.final TokenAllowlist.step s ops) := by
  induction ops generalizing s with
  | nil => exact h
  | cons op ops ih => exact ih (h.step (others op List.mem_cons_self)) fun op' mem => others op' (List.mem_cons_of_mem _ mem)

theorem gone_removeByUser (c : Site) (clears : Clears s (.removeByUser c t u)) (jti : String) :
    Gone t u jti (removeByUser c t u s) := by
  obtain ⟨redis, store⟩ := clears
  refine ⟨fun mem => ?_, fun p mem => ?_⟩
  · simp only [removeByUser] at mem
    split at mem
    · simp at mem
    · next unreached => exact unreached (redis _ mem rfl)
  · simp only [removeByUser] at mem
    split at mem
    · next falls =>
      obtain ⟨mem, other⟩ := Finset.mem_filter.mp mem
      have own : p = c.process := (store _ mem rfl).2
      exact other (congrArg (·, (t, u)) own)
    · next stays => exact stays (store _ mem rfl).1

theorem durable_iff_clears : Durable s op ↔ Clears s op := by
  cases op with
  | removeByUser c t u =>
    constructor
    · intro durable
      have gone : ∀ jti, Gone t u jti (removeByUser c t u s) := fun jti => gone_iff.mpr (durable jti [] nofun)
      refine ⟨fun e mem key => ?_, fun e mem key => ?_⟩
      · by_contra unreached
        refine (gone e.2).1 ?_
        simp only [removeByUser, if_neg unreached, ← key]
        exact mem
      · by_contra missed
        refine (gone e.2.2).2 e.1 ?_
        simp only [removeByUser]
        rw [not_and_or] at missed
        rw [← key]
        split
        · next falls =>
          obtain stays | other := missed
          · exact absurd falls stays
          · refine Finset.mem_filter.mpr ⟨mem, fun same => other (Prod.ext_iff.mp same).1⟩
        · exact mem
    · intro clears jti ops others
      exact gone_iff.mp ((gone_removeByUser c clears jti).final others)
  | _ => exact Iff.rfl

/-- Revocation is durable in just the runs in which every removal clears the places that have tokens of its user. -/
theorem revocation_durable (s : State) (ops : List Op) : Always step Durable s ops ↔ Always step Clears s ops where
  mp h := h.mono fun _ _ => durable_iff_clears.mp
  mpr h := h.mono fun _ _ => durable_iff_clears.mpr

/-! ### Runs in which Redis does not come and go -/

/-- The call gets through to Redis, or there is none and it is made by the one process. -/
def Steady (up : Bool) (c : Site) : Prop :=
  if up then c.redis = .up else c.process = 0 ∧ c.failClosed = false ∧ (c.redis = .absent ∨ c.redis = .down)

def SteadyOp (up : Bool) : Op → Prop
  | .add c .. | .removeByUser c .. | .isAllowed c .. => Steady up c
  | .expire _ | .restart _ => True

/-- The tokens are all in the one place. -/
def OnePlace (up : Bool) (s : State) : Prop := if up then s.store = ∅ else s.redis = ∅ ∧ ∀ e ∈ s.store, e.1 = 0

theorem OnePlace.step {up : Bool} (h : OnePlace up s) (steady : SteadyOp up op) : OnePlace up (step s op) := by
  cases up with
  | true =>
    have store : s.store = ∅ := h
    cases op with
    | add c t' u' jti' =>
      have found : c.redis = .up := steady
      simp [OnePlace, TokenAllowlist.step, add, Site.fallsBack, found, store]
    | removeByUser c t' u' => simp [OnePlace, TokenAllowlist.step, removeByUser, store]
    | isAllowed c t' u' jti' => exact h
    | expire key => exact store
    | restart process => simp [OnePlace, TokenAllowlist.step, store]
  | false =>
    obtain ⟨redis, store⟩ : s.redis = ∅ ∧ ∀ e ∈ s.store, e.1 = 0 := h
    cases op with
    | add c t' u' jti' =>
      obtain ⟨process, open', found⟩ : c.process = 0 ∧ c.failClosed = false ∧ (c.redis = .absent ∨ c.redis = .down) := steady
      have unreached : c.reaches = false := by rcases found with found | found <;> simp [Site.reaches, found]
      refine ⟨by simp [TokenAllowlist.step, add, unreached, redis], fun e mem => ?_⟩
      simp only [TokenAllowlist.step, add] at mem
      split at mem
      · rcases Finset.mem_insert.mp mem with rfl | mem
        · exact process
        · exact store e mem
      · exact store e mem
    | removeByUser c t' u' =>
      refine ⟨by simp [TokenAllowlist.step, removeByUser, redis], fun e mem => ?_⟩
      simp only [TokenAllowlist.step, removeByUser] at mem
      split at mem
      · exact store e (Finset.mem_filter.mp mem).1
      · exact store e mem
    | isAllowed c t' u' jti' => exact ⟨redis, store⟩
    | expire key => exact ⟨by simp [TokenAllowlist.step, redis], store⟩
    | restart process => exact ⟨redis, fun e mem => store e (Finset.mem_filter.mp mem).1⟩

theorem OnePlace.clears {up : Bool} (h : OnePlace up s) (steady : SteadyOp up op) : Clears s op := by
  cases op with
  | removeByUser c t u =>
    cases up with
    | true =>
      have store : s.store = ∅ := h
      have found : c.redis = .up := steady
      exact ⟨fun _ _ _ => by simp [Site.reaches, found], by simp [store]⟩
    | false =>
      obtain ⟨redis, store⟩ : s.redis = ∅ ∧ ∀ e ∈ s.store, e.1 = 0 := h
      obtain ⟨process, open', found⟩ : c.process = 0 ∧ c.failClosed = false ∧ (c.redis = .absent ∨ c.redis = .down) := steady
      have falls : c.fallsBack = true := by rcases found with found | found <;> simp [Site.fallsBack, found, open']
      exact ⟨by simp [redis], fun e mem _ => ⟨falls, (store e mem).trans process.symm⟩⟩
  | _ => trivial

theorem durable_of_steady (up : Bool) (ops : List Op) (steady : ∀ op ∈ ops, SteadyOp up op) : Always step Durable {} ops := by
  refine (revocation_durable {} ops).mpr ?_
  have steady : Always step (fun _ => SteadyOp up) {} ops := .of_forall fun op mem _ => steady op mem
  refine steady.of_invariant (OnePlace up) ?_ (fun _ _ h steady => h.step steady) fun _ _ h steady => h.clears steady
  cases up with
  | true => rfl
  | false => exact ⟨rfl, nofun⟩

end

/-! ### Redis that fails for a moment -/

/-- A token of user 7 in Redis, and a removal while Redis is down: it returns, in a deployed environment too. -/
def outage (failClosed : Bool) : List Op :=
  [.add { redis := .up, failClosed } (some "acme") 7 "a1", .removeByUser { redis := .down, failClosed } (some "acme") 7]

theorem revocation_not_durable :
    ¬Always step Durable {} (outage false) ∧ ¬Always step Durable {} (outage true) := by
  have lost : ∀ failClosed, ¬Always step Durable {} (outage failClosed) := by
    intro failClosed h
    have cleared := (revocation_durable {} (outage failClosed)).mp h
    have reached := cleared.2.1.1 (redisKey (some "acme") 7, "a1") (by simp [step, add, Site.reaches]) rfl
    simp [Site.reaches] at reached
  exact ⟨lost false, lost true⟩

end NyzRating.Auth.TokenAllowlist
