import NyzRating.Lib.RowLock
import NyzRating.Traffic.Balance

/-!
# Concurrent reservations

`reserve_question` statement by statement. Its first statement locks the row of the subscription, so the reservations
of a tenant run one after another: each commits what it would do alone on the tables committed before it.
-/

namespace NyzRating.Traffic

open Billing RowLock Runs

/-! ### The statements of a reservation -/

inductive Write where
  | updateCarryover (dbNow carryover : Int)
  | insertTotal (key : MonthKey)
  | countForUser (userId : Nat) (key : MonthKey)
  | countInTotal (key : MonthKey)
  | insertEvent (event : QuestionEvent)
  deriving DecidableEq, Repr

def Write.apply : Write → Tables → Tables
  | updateCarryover dbNow carryover => Tables.updateCarryover dbNow carryover
  | insertTotal key => Tables.insertTotal key
  | countForUser userId key => Tables.countForUser userId key
  | countInTotal key => Tables.countInTotal key
  | insertEvent event => Tables.insertEvent event

inductive Outcome where
  | allowed
  | denied
  | failed
  deriving DecidableEq, Repr

/-- How far a reservation has come, with the values it has read. -/
inductive Phase where
  | start
  | locked (planCode : String) (carryover : Int)
  | newMonth (planCode : String) (carryover : Int)
  | deducting (rest : Int)
  | inserting (carryover : Int)
  | settled (carryover : Int)
  | planned (carryover monthlyIncluded : Int)
  | admitted
  | userCounted
  | totalCounted
  | recorded
  | ended (outcome : Outcome)
  deriving DecidableEq, Repr

/-- The statement after a phase. -/
def advance (plans : PlanCatalog) (r : ReservationRequest) (phase : Phase) (t : Tables) : Phase × List Write :=
  match phase with
  | .start => (.locked t.planCode t.carryover, [])
  | .locked planCode carryover =>
    (if (t.total? r.periodKey).isSome then .settled carryover else .newMonth planCode carryover, [])
  | .newMonth planCode carryover =>
    match t.previousTotal r.periodKey with
    | none => (.inserting carryover, [])
    | some previous =>
      let rest := remainingExtras carryover (monthlyIncludedForPlan plans planCode) previous
      (if rest = carryover then .inserting carryover else .deducting rest, [])
  | .deducting rest => (.inserting rest, [.updateCarryover r.dbNow rest])
  | .inserting carryover => (.settled carryover, [.insertTotal r.periodKey])
  | .settled carryover => (.planned carryover (loadMonthlyIncluded plans t), [])
  | .planned carryover monthlyIncluded =>
    (if (r.answer (t.usedTotal r.periodKey) (max 0 (monthlyIncluded + carryover))).allowed then .admitted
      else .ended .denied, [])
  | .admitted => (.userCounted, [.countForUser r.userId r.periodKey])
  | .userCounted => (.totalCounted, [.countInTotal r.periodKey])
  | .totalCounted => (.recorded, [.insertEvent ⟨r.userId, r.periodKey, r.requestContext⟩])
  | .recorded => (.ended .allowed, [])
  | .ended outcome => (.ended outcome, [])

def verdict : Phase → Option Bool
  | .ended outcome => some (outcome = .allowed)
  | _ => none

/-- Reservations lock the row of the subscription. -/
def reservations (plans : PlanCatalog) : Protocol Tables ReservationRequest Phase Write where
  apply := Write.apply
  lockable t := t.account.subscription.isSome
  start := .start
  advance := advance plans
  verdict := verdict
  failed := .ended .failed
  failed_verdict := rfl

/-! ### A reservation alone -/

section
variable {plans : PlanCatalog} {r : ReservationRequest} {t : Tables}

/-- What a reservation that started on `t` has read and written when it reaches a phase with tables `v`. -/
def Reached (plans : PlanCatalog) (r : ReservationRequest) (t : Tables) (phase : Phase) (v : Tables) : Prop :=
  let settlement := settleAddonCarryover plans r.dbNow r.periodKey t
  let allowed : Prop := (reserveQuestion plans r t).1.allowed = true
  match phase with
  | .start => v = t
  | .locked planCode carryover => v = t ∧ planCode = t.planCode ∧ carryover = t.carryover
  | .newMonth planCode carryover =>
    v = t ∧ planCode = t.planCode ∧ carryover = t.carryover ∧ t.total? r.periodKey = none
  | .deducting rest =>
    v = t ∧ t.total? r.periodKey = none ∧ rest = settledCarryover plans r.periodKey t ∧ rest ≠ t.carryover
  | .inserting carryover =>
    t.total? r.periodKey = none ∧ carryover = settledCarryover plans r.periodKey t ∧
      v = if carryover = t.carryover then t else t.updateCarryover r.dbNow carryover
  | .settled carryover => (carryover, v) = settlement
  | .planned carryover monthlyIncluded => (carryover, v) = settlement ∧ monthlyIncluded = loadMonthlyIncluded plans v
  | .admitted => allowed ∧ v = settlement.2
  | .userCounted => allowed ∧ v = settlement.2.countForUser r.userId r.periodKey
  | .totalCounted => allowed ∧ v = (settlement.2.countForUser r.userId r.periodKey).countInTotal r.periodKey
  | .recorded | .ended .allowed => allowed ∧ v = (reserveQuestion plans r t).2
  | .ended .denied | .ended .failed => True

theorem reached_advance {phase : Phase} {v : Tables} (h : Reached plans r t phase v) :
    Reached plans r t (advance plans r phase v).1 ((reservations plans).view (advance plans r phase v).2 v) := by
  cases phase with
  | start =>
    cases h
    exact ⟨rfl, rfl, rfl⟩
  | locked planCode carryover =>
    obtain ⟨rfl, rfl, rfl⟩ := h
    unfold advance
    simp only
    split
    · next touched => exact (settle_of_touched touched).symm
    · next untouched => exact ⟨rfl, rfl, rfl, by simpa using untouched⟩
  | newMonth planCode carryover =>
    obtain ⟨rfl, rfl, rfl, untouched⟩ := h
    unfold advance
    simp only
    split
    · next none =>
      have same : v.carryover = settledCarryover plans r.periodKey v := by simp [settledCarryover, none]
      exact ⟨untouched, same, by simp⟩
    · next previous found =>
      have rest : remainingExtras v.carryover (monthlyIncludedForPlan plans v.planCode) previous =
          settledCarryover plans r.periodKey v := by simp [settledCarryover, found, loadMonthlyIncluded]
      split
      · next same => exact ⟨untouched, same ▸ rest, by simp⟩
      · next changed => exact ⟨rfl, untouched, rest, changed⟩
  | deducting rest =>
    obtain ⟨rfl, untouched, left, changed⟩ := h
    exact ⟨untouched, left, (if_neg changed).symm⟩
  | inserting carryover =>
    obtain ⟨untouched, rfl, rfl⟩ := h
    exact (settle_of_untouched untouched).symm
  | settled carryover => exact ⟨h, rfl⟩
  | planned carryover monthlyIncluded =>
    obtain ⟨settlement, rfl⟩ := h
    unfold advance
    simp only
    split
    · next allowed =>
      refine ⟨?_, congrArg Prod.snd settlement⟩
      unfold reserveQuestion
      rw [← settlement]
      exact allowed
    · trivial
  | admitted =>
    obtain ⟨allowed, rfl⟩ := h
    exact ⟨allowed, rfl⟩
  | userCounted =>
    obtain ⟨allowed, rfl⟩ := h
    exact ⟨allowed, rfl⟩
  | totalCounted =>
    obtain ⟨allowed, rfl⟩ := h
    exact ⟨allowed, (reserveQuestion_of_allowed allowed).symm⟩
  | recorded => exact h
  | ended outcome => cases outcome <;> exact h

theorem reached_alone {phase : Phase} {v : Tables} (h : (reservations plans).Alone r t phase v) :
    Reached plans r t phase v := by
  induction h with
  | start => exact rfl
  | statement _ ih => exact reached_advance ih

theorem verdict_commit {phase : Phase} (h : verdict phase = some true) : phase = .ended .allowed := by
  cases phase with
  | ended outcome =>
    cases outcome with
    | allowed => rfl
    | denied => cases h
    | failed => cases h
  | _ => cases h

/-- The commit of a reservation is an allowed `reserve_question`. -/
theorem commits_reserveQuestion {u : Tables} (h : (reservations plans).Commits r t u) :
    (reserveQuestion plans r t).1.allowed = true ∧ u = (reserveQuestion plans r t).2 := by
  obtain ⟨phase, alone, committed⟩ := h
  have reached := reached_alone alone
  rw [verdict_commit committed] at reached
  exact reached

end

/-! ### Every interleaving -/

section
variable {plans : PlanCatalog}

/-- The questions of a month do not exceed the allowance of the plan and the extra questions. -/
def WithinQuota (plans : PlanCatalog) (key : MonthKey) (t : Tables) : Prop :=
  t.usedTotal key ≤ max 0 (loadMonthlyIncluded plans t + t.carryover)

instance (key : MonthKey) (t : Tables) : Decidable (WithinQuota plans key t) :=
  inferInstanceAs (Decidable (_ ≤ _))

theorem reservations_keeps : (reservations plans).Keeps := by
  intro r t u present commits
  obtain ⟨allowed, rfl⟩ := commits_reserveQuestion commits
  exact (reserveQuestion_present present).trans present

theorem withinQuota_of_allowed {r : ReservationRequest} {t : Tables} (present : t.account.subscription.isSome)
    (allowed : (reserveQuestion plans r t).1.allowed = true) :
    WithinQuota plans r.periodKey (reserveQuestion plans r t).2 := by
  have settlement := settled plans r.dbNow r.periodKey present
  obtain ⟨-, below⟩ := reserveQuestion_allowed_iff.mp allowed
  have used := usedTotal_record settlement.total?_isSome r.periodKey
  rw [Tables.unit, if_pos rfl] at used
  rw [reserveQuestion_of_allowed allowed, WithinQuota, used, record_carryover, settlement.carryover, loadMonthlyIncluded,
    record_planCode]
  exact Int.add_one_le_iff.mpr below

/-- The calls of `reserve_question` for one month, their statements in any order and failing anywhere: the counters
    of every month agree; after an allowed reservation the month is within its quota; and a call that is not allowed
    in the end changes no row with any of its statements. -/
theorem quota_safe (requests : Nat → ReservationRequest) (key : MonthKey) (one : ∀ i, (requests i).periodKey = key)
    (start : Tables) (present : start.account.subscription.isSome) (balanced : Balanced start) (run : List Event) :
    let step := (reservations plans).step requests
    let server := final step (Protocol.opened start) run
    Balanced server.committed ∧
      ((∃ i, server.status i = .ended (.ended .allowed)) → WithinQuota plans key server.committed) ∧
      Always step (fun s e => (step s e).committed = s.committed ∨
        server.status e.transaction = .ended (.ended .allowed)) (Protocol.opened start) run := by
  intro step server
  have serial : (reservations plans).Serial requests (Protocol.opened start) := Protocol.serial_opened present
  refine ⟨?_, ?_, ?_⟩
  · refine serial.committed reservations_keeps Balanced balanced (fun r t u ht bt commits => ?_) run
    obtain ⟨-, rfl⟩ := commits_reserveQuestion commits
    exact bt.reserve ht r
  · -- the last allowed reservation left the month within its quota, and nothing was committed since
    have invariant : (reservations plans).Serial requests server ∧
        ((∃ i, server.status i = .ended (.ended .allowed)) → WithinQuota plans key server.committed) := final_kept
      (fun s => (reservations plans).Serial requests s ∧
        ((∃ i, s.status i = .ended (.ended .allowed)) → WithinQuota plans key s.committed))
      ⟨serial, fun ⟨i, hi⟩ => nomatch hi⟩ fun s e hs => by
        refine ⟨hs.1.step reservations_keeps e, fun ⟨i, hi⟩ => ?_⟩
        obtain ⟨same, before⟩ | ⟨last, alone, committed, -⟩ := hs.1.step_cases e
        · rw [same]
          exact hs.2 ⟨i, before i _ rfl hi⟩
        · obtain ⟨allowed, after⟩ := commits_reserveQuestion ⟨last, alone, committed⟩
          rw [after, ← one e.transaction]
          exact withinQuota_of_allowed hs.1.lockable allowed
    exact invariant.2
  · refine (serial.always_committed reservations_keeps run).mono fun s e h => ?_
    obtain same | ⟨last, committed, ended⟩ := h
    · exact .inl same
    · exact .inr (verdict_commit committed ▸ ended)

end

def october : MonthKey := ⟨2024, 10⟩

def asking (i : Nat) : ReservationRequest := { userId := i, periodKey := october }

/-- The second of two reservations has to wait for the first. -/
def race : List Event :=
  [.execute 0, .execute 1] ++ List.replicate 9 (.execute 0) ++ List.replicate 6 (.execute 1)

/-- The tenant has one question left. -/
def raced : Server Tables Phase Write :=
  final ((reservations defaultPlans).step asking) (Protocol.opened (onStarter (-39) [])) race

theorem raced_status : raced.status 0 = .ended (.ended .allowed) ∧ raced.status 1 = .ended (.ended .denied) := by
  decide

theorem quota_safe_for_two : Balanced raced.committed ∧ WithinQuota defaultPlans october raced.committed :=
  have safe := quota_safe asking october (fun _ => rfl) (onStarter (-39) []) (by decide) (Balanced.empty rfl rfl rfl) race
  ⟨safe.1, safe.2.1 ⟨0, raced_status.1⟩⟩

end NyzRating.Traffic
