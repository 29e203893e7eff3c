import NyzRating.Lib.Iso
import NyzRating.Lib.Program
import NyzRating.Lib.Text
import NyzRating.Traffic.Balance

/-!
# SMS sends

`create_sms_send` takes one question from the quota, commits, and then inserts the row of the SMS in a transaction of its
own.
-/

namespace NyzRating.Traffic

open Billing Calendar Program

/-! ### Hungarian mobile numbers -/

namespace Phone

-- `\d` of a regular expression on text: the decimal digits of all scripts
variable (isdigit : Char → Bool)

def mobilePrefixes : List (List Char) := ["20", "30", "31", "50", "70"].map String.toList

local instance lawfulPrefixes : LawfulBEq (List Char) := inferInstance

def normalizeHuMobile (value : String) : List Char :=
  let raw := value.toList.filter fun c => !(Text.isSpace c || ['.', '/', '(', ')', '-'].contains c)
  let raw := if ['0', '0'].isPrefixOf raw then '+' :: raw.drop 2 else raw
  let digits :=
    match raw with
    | '+' :: rest => rest.filter isdigit
    | _ =>
      let digits := raw.filter isdigit
      if ['0', '6'].isPrefixOf digits then '3' :: '6' :: digits.drop 2
      else if ['6'].isPrefixOf digits ∧ digits.length = 10 then '3' :: digits
      else if digits.length = 9 ∧ digits.take 2 ∈ mobilePrefixes then '3' :: '6' :: digits
      else digits
  if ['3', '6'].isPrefixOf digits then '+' :: digits else []

/-- `\+36\d{9}`, with a known prefix. -/
def isValidHuMobile (value : String) : Bool :=
  match normalizeHuMobile isdigit value with
  | '+' :: '3' :: '6' :: subscriber =>
    subscriber.length = 9 && subscriber.all isdigit && mobilePrefixes.contains (subscriber.take 2)
  | _ => false

def huMobileValidationError (value : String) : String :=
  let digits := value.toList.filter isdigit
  let localLength :=
    if ['0', '6'].isPrefixOf digits ∨ ['3', '6'].isPrefixOf digits then (digits.length : Int) - 2 else digits.length
  if localLength ≠ 9 then
    "Érvénytelen magyar mobilszám. Formátum: 06 XX XXX XXXX (11 számjegy), pl. 06201234567."
  else "Érvénytelen magyar mobilszám. Csak 20/30/31/50/70-es előhívó fogadható el."

end Phone

/-! ### The request -/

/-- A `datetime`, with its offset from UTC in minutes where it has one. -/
structure ScheduledAt where
  wall : Iso.Timestamp
  offset : Option Int

namespace ScheduledAt

/-- A time without a time zone is one in UTC. -/
def inUtc (t : ScheduledAt) : ScheduledAt := { t with offset := some (t.offset.getD 0) }

def instant (t : ScheduledAt) : Int := t.wall.micros - t.offset.getD 0 * 60000000

def isoformat (t : ScheduledAt) : List Char :=
  match t.offset with
  | none => Iso.isoformat t.wall
  | some minutes =>
    Iso.isoformat t.wall ++ (if minutes < 0 then '-' else '+') ::
      (Decimal.pad 2 (minutes.natAbs / 60) ++ ':' :: Decimal.pad 2 (minutes.natAbs % 60))

end ScheduledAt

/-- A character in a text of `json.dumps(…, ensure_ascii=False)`. -/
def jsonChar (c : Char) : List Char :=
  if c = '"' then ['\\', '"'] else if c = '\\' then ['\\', '\\']
  else if c = '\n' then ['\\', 'n'] else if c = '\r' then ['\\', 'r'] else if c = '\t' then ['\\', 't']
  else if c.toNat = 8 then ['\\', 'b'] else if c.toNat = 12 then ['\\', 'f']
  else if c.toNat < 32 then ['\\', 'u', '0', '0', Nat.digitChar (c.toNat / 16), Nat.digitChar (c.toNat % 16)]
  else [c]

def jsonText (s : List Char) : List Char := '"' :: s.flatMap jsonChar ++ ['"']

def jsonObject (members : List (String × List Char)) : List Char :=
  '{' :: [',', ' '].intercalate (members.map fun m => jsonText m.1.toList ++ ':' :: ' ' :: jsonText m.2) ++ ['}']

structure SmsSendCreateRequest where
  recipientName : String
  phone : String
  scheduledAt : ScheduledAt

/-! ### The tables -/

structure SmsSend where
  id : Nat
  createdByUserId : Nat
  recipientName : List Char
  phone : List Char
  scheduledAt : Int
  status : String
  periodKey : MonthKey
  createdAt : Int
  deriving DecidableEq, Repr

structure SmsTables where
  quota : Tables
  sends : List SmsSend := []
  nextSendId : Nat := 1

inductive SmsError where
  | unprocessable (detail : String)
  | conflict (detail : String)
  | database
  deriving DecidableEq, Repr

structure SmsSendCreated where
  item : SmsSend
  remainingTotal : Int
  availableTotal : Int
  usedTotal : Int

/-! ### The call -/

/-- A call, the times of its clocks, and what goes wrong in its two transactions. -/
structure SmsCall where
  userId : Nat
  payload : SmsSendCreateRequest
  now : Int
  dbNow : Int
  reserving : Option Fault := none
  inserting : Option Fault := none

section
variable (isdigit : Char → Bool) (plans : PlanCatalog)

namespace SmsCall

def recipient (c : SmsCall) : List Char := Text.strip c.payload.recipientName.toList

def phone (c : SmsCall) : List Char := Phone.normalizeHuMobile isdigit c.payload.phone

def periodKey (c : SmsCall) : MonthKey := (currentMonthPeriod c.now).key

/-- The reservation that the call asks for. -/
def reservation (c : SmsCall) : ReservationRequest :=
  { userId := c.userId
    periodKey := c.periodKey
    requestContext := String.ofList (jsonObject
      [("source", "traffic_sms".toList), ("phone", c.phone isdigit), ("recipient_name", c.recipient),
        ("scheduled_at", c.payload.scheduledAt.inUtc.isoformat)])
    dbNow := c.dbNow }

end SmsCall

/-- `TrafficQuestionUsageRepository.reserve_question`, one transaction. -/
def reserveIn (r : ReservationRequest) (w : SmsTables) : ReservationResult × SmsTables :=
  let (result, quota) := reserveQuestion plans r w.quota
  (result, { w with quota })

/-- `TrafficSmsSendRepository.create`, another. -/
def insertSend (c : SmsCall) (periodKey : MonthKey) (w : SmsTables) : SmsSend × SmsTables :=
  let row : SmsSend :=
    { id := w.nextSendId
      createdByUserId := c.userId
      recipientName := c.recipient
      phone := c.phone isdigit
      scheduledAt := c.payload.scheduledAt.inUtc.instant
      status := "sent"
      periodKey
      createdAt := c.dbNow }
  (row, { w with sends := w.sends ++ [row], nextSendId := w.nextSendId + 1 })

/-- `create_sms_send`. -/
def createSmsSend (c : SmsCall) : EStateM SmsError SmsTables SmsSendCreated := do
  if c.recipient = [] then throw (.unprocessable "Az ügyfél neve kötelező.")
  if !Phone.isValidHuMobile isdigit c.payload.phone then
    throw (.unprocessable (Phone.huMobileValidationError isdigit c.payload.phone))
  let reservation ← attempt c.reserving .database (modifyGet (reserveIn plans (c.reservation isdigit)))
  if !reservation.allowed then
    throw (.conflict (orText reservation.reason "Nincs több SMS küldési keret."))
  let item ← attempt c.inserting .database (modifyGet (insertSend isdigit c reservation.periodKey))
  return { item, remainingTotal := reservation.remainingTotal, availableTotal := reservation.availableTotal
           usedTotal := reservation.usedTotal }

end

/-! ### Charged and recorded -/

namespace SmsSends

section
variable (isdigit : Char → Bool) (plans : PlanCatalog) (c : SmsCall)

/-- One SMS row, and one question more in the total, in the counter of the user and in the log. -/
structure Recorded (w w' : SmsTables) : Prop where
  row : ∃ row, w'.sends = w.sends ++ [row] ∧ row.createdByUserId = c.userId ∧ row.periodKey = c.periodKey ∧
    row.recipientName = c.recipient ∧ row.phone = c.phone isdigit ∧
    row.scheduledAt = c.payload.scheduledAt.inUtc.instant ∧ row.status = "sent"
  total : ∀ month, w'.quota.usedTotal month = w.quota.usedTotal month + Tables.unit c.periodKey month
  users : ∀ month, w'.quota.userTotal month = w.quota.userTotal month + Tables.unit c.periodKey month
  logged : ∃ event, w'.quota.events = w.quota.events ++ [event] ∧ event.userId = c.userId ∧ event.periodKey = c.periodKey

/-- The call has raised and changed nothing, or it has recorded the SMS and charged it. -/
def ChargedIffRecorded (w : SmsTables) : Prop :=
  match (createSmsSend isdigit plans c).run w with
  | .ok _ w' => Recorded isdigit c w w'
  | .error _ w' => w' = w ∨ Recorded isdigit c w w'

/-- The payload passes the validation. -/
def Accepted : Prop := c.recipient ≠ [] ∧ Phone.isValidHuMobile isdigit c.payload.phone = true

/-- Once the month is settled, its allowance and the extra questions are not used up. -/
def QuotaLeft (t : Tables) : Prop :=
  let available := loadMonthlyIncluded plans t + (settleAddonCarryover plans c.dbNow c.periodKey t).1
  0 < available ∧ t.usedTotal c.periodKey < available

/-- The reservation is not committed without the row: neither does the first transaction fail after its commit, nor the
    second before it. -/
def Undivided : Prop := c.reserving ≠ some .after ∧ (c.reserving = none → c.inserting ≠ some .before)

end

section
variable {isdigit : Char → Bool} {plans : PlanCatalog} {c : SmsCall} {w : SmsTables}

theorem allowed_iff {r : ReservationRequest} {t : Tables} (user : r = c.reservation isdigit) :
    (reserveQuestion plans r t).1.allowed = true ↔ QuotaLeft plans c t := by
  have settlement := settled_always plans r.periodKey t r.dbNow
  have allowed := @reserveQuestion_allowed_iff plans r t
  dsimp only at allowed
  rw [settlement.loadMonthlyIncluded, settlement.usedTotal] at allowed
  rw [allowed, user]
  unfold QuotaLeft
  dsimp only [SmsCall.reservation]
  omega

theorem reserveQuestion_periodKey (plans : PlanCatalog) (r : ReservationRequest) (t : Tables) :
    (reserveQuestion plans r t).1.periodKey = r.periodKey := by
  unfold reserveQuestion
  simp only [ReservationRequest.answer]
  split <;> rfl

/-- The tables after the reservation. -/
def reserved (isdigit : Char → Bool) (plans : PlanCatalog) (c : SmsCall) (w : SmsTables) : SmsTables :=
  (reserveIn plans (c.reservation isdigit) w).2

variable (isdigit) in
theorem reserved_denied (denied : ¬QuotaLeft plans c w.quota) : reserved isdigit plans c w = w := by
  have refused : (reserveQuestion plans (c.reservation isdigit) w.quota).1.allowed = false := by
    rw [← Bool.not_eq_true, allowed_iff rfl]
    exact denied
  simp only [reserved, reserveIn, reserveQuestion_of_denied refused]

variable (isdigit) in
theorem reserved_quota (left : QuotaLeft plans c w.quota) : (reserved isdigit plans c w).quota =
    (c.reservation isdigit).record (settleAddonCarryover plans c.dbNow c.periodKey w.quota).2 :=
  reserveQuestion_of_allowed ((allowed_iff rfl).mpr left)

variable (isdigit) in
/-- A reservation and a row are what is recorded. -/
theorem recorded (keys : (w.quota.usage.map fun row => (row.userId, row.periodKey)).Nodup)
    (left : QuotaLeft plans c w.quota) :
    Recorded isdigit c w (insertSend isdigit c c.periodKey (reserved isdigit plans c w)).2 := by
  have settlement := settled_always plans c.periodKey w.quota c.dbNow
  have quota := reserved_quota isdigit left
  refine ⟨⟨_, rfl, rfl, rfl, rfl, rfl, rfl, rfl⟩, fun month => ?_, fun month => ?_, ?_⟩
  · change (reserved isdigit plans c w).quota.usedTotal month = _
    rw [quota, usedTotal_record settlement.total?_isSome, settlement.usedTotal]
    rfl
  · change (reserved isdigit plans c w).quota.userTotal month = _
    rw [quota]
    have keys' : ((settleAddonCarryover plans c.dbNow c.periodKey w.quota).2.usage.map fun row =>
        (row.userId, row.periodKey)).Nodup := by
      rw [settlement.usage]
      exact keys
    have counted := @Tables.userTotal_countForUser _ c.periodKey keys' c.userId month
    refine Eq.trans ?_ (counted.trans ?_)
    · rfl
    · rw [Tables.userTotal, Tables.userTotal, settlement.usage]
  · change ∃ event, (reserved isdigit plans c w).quota.events = _ ∧ _
    rw [quota]
    refine ⟨⟨c.userId, c.periodKey, (c.reservation isdigit).requestContext⟩, ?_, rfl, rfl⟩
    simp only [ReservationRequest.record, Tables.insertEvent_events, Tables.countInTotal_events, Tables.countForUser_events,
      settlement.events]
    rfl

theorem not_recorded {w' : SmsTables} (same : w'.sends = w.sends) : ¬Recorded isdigit c w w' := by
  rintro ⟨⟨row, added, -⟩, -⟩
  rw [same] at added
  have length := congrArg List.length added
  simp at length

variable (isdigit) in
theorem reserved_changed (left : QuotaLeft plans c w.quota) : reserved isdigit plans c w ≠ w := by
  intro same
  have events := congrArg (fun w : SmsTables => w.quota.events.length) same
  simp only [reserved_quota isdigit left, ReservationRequest.record, Tables.insertEvent_events, Tables.countInTotal_events,
    Tables.countForUser_events, (settled_always plans c.periodKey w.quota c.dbNow).events, List.length_append] at events
  simp at events

/-! ### The call, by what goes wrong -/

theorem run_invalid (invalid : ¬Accepted isdigit c) : ∃ e, (createSmsSend isdigit plans c).run w = .error e w := by
  unfold createSmsSend
  by_cases named : c.recipient = []
  · exact ⟨_, by rw [if_pos named]; rfl⟩
  · have number : Phone.isValidHuMobile isdigit c.payload.phone = false := by
      rw [← Bool.not_eq_true]
      exact fun valid => invalid ⟨named, valid⟩
    rw [if_neg named, number]
    exact ⟨_, rfl⟩

theorem run_accepted (accepted : Accepted isdigit c) : (createSmsSend isdigit plans c).run w =
    match c.reserving with
    | some .before => .error .database w
    | some .after => .error .database (reserved isdigit plans c w)
    | none =>
      let reservation := (reserveQuestion plans (c.reservation isdigit) w.quota).1
      if reservation.allowed then
        let (item, inserted) := insertSend isdigit c c.periodKey (reserved isdigit plans c w)
        match c.inserting with
        | some .before => .error .database (reserved isdigit plans c w)
        | some .after => .error .database inserted
        | none => .ok { item, remainingTotal := reservation.remainingTotal, availableTotal := reservation.availableTotal
                        usedTotal := reservation.usedTotal } inserted
      else .error (.conflict (orText reservation.reason "Nincs több SMS küldési keret.")) (reserved isdigit plans c w) := by
  obtain ⟨named, valid⟩ := accepted
  unfold createSmsSend
  rw [if_neg named, valid]
  have key := reserveQuestion_periodKey plans (c.reservation isdigit) w.quota
  simp only [Bool.not_true, Bool.false_eq_true, if_false]
  match c.reserving with
  | some .before => rfl
  | some .after => rfl
  | none =>
    change ((modifyGet (reserveIn plans (c.reservation isdigit)) : EStateM SmsError SmsTables ReservationResult) >>= _).run w = _
    rw [EStateM.run_bind, EStateM.run_modifyGet]
    dsimp only
    change EStateM.run (if (!(reserveQuestion plans (c.reservation isdigit) w.quota).1.allowed) = true then _ else _)
      (reserved isdigit plans c w) = _
    cases (reserveQuestion plans (c.reservation isdigit) w.quota).1.allowed with
    | false => rfl
    | true =>
      simp only [Bool.not_true, Bool.false_eq_true, if_false, if_true]
      change ((attempt c.inserting .database (modifyGet (insertSend isdigit c
        (reserveQuestion plans (c.reservation isdigit) w.quota).1.periodKey)) : EStateM SmsError SmsTables SmsSend) >>= _).run _ = _
      rw [key]
      match c.inserting with
      | none | some .before | some .after => rfl

/-- An SMS is charged just when it is recorded, but for a valid call with quota left whose reservation is committed without
    the row. -/
theorem charged_iff_recorded (isdigit : Char → Bool) (plans : PlanCatalog) (c : SmsCall) (w : SmsTables)
    (keys : (w.quota.usage.map fun row => (row.userId, row.periodKey)).Nodup) :
    ChargedIffRecorded isdigit plans c w ↔ (Accepted isdigit c → QuotaLeft plans c w.quota → Undivided c) := by
  unfold ChargedIffRecorded
  by_cases accepted : Accepted isdigit c
  · rw [run_accepted accepted]
    unfold Undivided
    simp only [accepted, true_implies]
    by_cases left : QuotaLeft plans c w.quota
    · have allowed := (allowed_iff (r := c.reservation isdigit) rfl).mpr left
      have done := recorded isdigit keys left
      have changed := reserved_changed isdigit left
      have unrecorded : ¬Recorded isdigit c w (reserved isdigit plans c w) := not_recorded rfl
      simp only [left, true_implies]
      match c.reserving, c.inserting with
      | some .before, _ => simp
      | some .after, _ => simp [changed, unrecorded]
      | none, none => simpa [allowed] using done
      | none, some .after => simpa [allowed] using .inr done
      | none, some .before => simp [allowed, changed, unrecorded]
    · have denied : (reserveQuestion plans (c.reservation isdigit) w.quota).1.allowed = false := by
        rw [← Bool.not_eq_true, allowed_iff rfl]
        exact left
      have same := reserved_denied isdigit left
      match c.reserving with
      | none => simp [left, denied, same]
      | some .before => simp [left]
      | some .after => simp [left, same]
  · obtain ⟨e, run⟩ := @run_invalid isdigit plans c w accepted
    rw [run]
    simp [accepted]

end

/-! ### An insert that fails -/

/-- 2024-10-10, noon. -/
def noon : Iso.Timestamp := ⟨midnight 20006 + 43200000000, by decide, by decide⟩

def toAnna (inserting : Option Fault) : SmsCall :=
  { userId := 1
    payload := { recipientName := "Anna", phone := "06 20 123 4567", scheduledAt := { wall := noon, offset := some 120 } }
    now := midnight 20005, dbNow := midnight 20005, inserting }

def starter : SmsTables := { quota := onStarter 0 [] }

theorem charged_iff_recorded_toAnna : ChargedIffRecorded Char.isDigit defaultPlans (toAnna none) starter ∧
    QuotaLeft defaultPlans (toAnna none) starter.quota :=
  ⟨(charged_iff_recorded Char.isDigit defaultPlans (toAnna none) starter (by decide)).mpr
    fun _ _ => ⟨nofun, fun _ => nofun⟩, by unfold QuotaLeft; decide⟩

theorem charged_not_recorded : ¬ChargedIffRecorded Char.isDigit defaultPlans (toAnna (some .before)) starter := by
  intro h
  have valid : Accepted Char.isDigit (toAnna (some .before)) := by unfold Accepted; decide
  have left : QuotaLeft defaultPlans (toAnna (some .before)) starter.quota := by unfold QuotaLeft; decide
  rw [ChargedIffRecorded, run_accepted valid] at h
  have allowed : (reserveQuestion defaultPlans ((toAnna (some .before)).reservation Char.isDigit) starter.quota).1.allowed = true :=
    (allowed_iff rfl).mpr left
  simp only [toAnna] at h allowed
  simp only [allowed, if_true] at h
  exact h.elim (reserved_changed Char.isDigit left) (not_recorded rfl)

end SmsSends

end NyzRating.Traffic
