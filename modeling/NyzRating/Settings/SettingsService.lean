import Mathlib.Logic.Function.Basic
import NyzRating.Lib.Program
import NyzRating.Lib.Text
import NyzRating.Lib.Trail

/-!
# The settings of a tenant

One row for each key. Every write commits on its own, and the entry for the audit log compares what is read before and after.

Source: `core/modules/settings/service/settings_service.py`, `repository/settings_repository.py`.
-/

namespace NyzRating.Settings.Service

open Program

inductive Key where
  | twoFactorEnabled
  | timezone
  | dateFormat
  | timeFormat
  | billingCustomerType
  | billingFullName
  | billingCompanyName
  | billingTaxId
  | billingAddressLine
  | billingPostalCode
  | billingCity
  | billingRegion
  | billingCountry
  | googleReviewUrl
  deriving DecidableEq, Repr

/-- In the order of `get_settings_snapshot`. -/
def Key.all : List Key :=
  [.twoFactorEnabled, .timezone, .dateFormat, .timeFormat, .billingCustomerType, .billingFullName, .billingCompanyName,
    .billingTaxId, .billingAddressLine, .billingPostalCode, .billingCity, .billingRegion, .billingCountry, .googleReviewUrl]

/-- A field for each key of the billing profile. -/
@[ext] structure Billing (α : Type) where
  billingCustomerType : α
  billingFullName : α
  billingCompanyName : α
  billingTaxId : α
  billingAddressLine : α
  billingPostalCode : α
  billingCity : α
  billingRegion : α
  billingCountry : α
  googleReviewUrl : α
  deriving DecidableEq, Repr

/-- In the order in which they are written. -/
def Billing.toList {α : Type} (b : Billing α) : List (Key × α) :=
  [(.billingCustomerType, b.billingCustomerType), (.billingFullName, b.billingFullName),
    (.billingCompanyName, b.billingCompanyName),
    (.billingTaxId, b.billingTaxId), (.billingAddressLine, b.billingAddressLine), (.billingPostalCode, b.billingPostalCode),
    (.billingCity, b.billingCity), (.billingRegion, b.billingRegion), (.billingCountry, b.billingCountry),
    (.googleReviewUrl, b.googleReviewUrl)]

structure LocaleUpdate where
  timezone : Option String := none
  dateFormat : Option String := none
  timeFormat : Option String := none
  deriving DecidableEq, Repr

/-- A value of the snapshot. -/
inductive Value where
  | flag (enabled : Bool)
  | text (value : String)
  deriving DecidableEq, Repr

inductive Details where
  | flag (settingKey : Key) (oldValue newValue : Bool)
  | keys (changedKeys : List Key) (changedCount : ℕ)
  deriving DecidableEq, Repr

/-- An entry of the audit log under `settings_security_updated`. -/
structure AuditEntry where
  userId : Option ℕ
  targetType : Option String := none
  targetId : Option Key := none
  details : Details
  deriving DecidableEq, Repr

/-- The values of the rows. -/
abbrev Rows := Key → Option String

structure State where
  rows : Rows
  log : List AuditEntry := []

inductive SettingsError where
  | valueError (text : String)
  | http (statusCode : ℕ) (detail : String)
  deriving DecidableEq, Repr

abbrev ServiceM := EStateM SettingsError State

def allowedTimezones : List String :=
  ["UTC", "Europe/London", "Europe/Paris", "Europe/Berlin", "Europe/Madrid", "Europe/Rome", "Europe/Amsterdam", "Europe/Zurich",
    "Europe/Vienna", "Europe/Prague", "Europe/Warsaw", "Europe/Budapest",
      "Europe/Athens", "Europe/Bucharest", "Europe/Istanbul",
    "Asia/Dubai", "Asia/Kolkata", "Asia/Singapore", "Asia/Hong_Kong",
      "Asia/Shanghai", "Asia/Seoul", "Asia/Tokyo", "Australia/Sydney",
    "America/Toronto", "America/New_York", "America/Chicago", "America/Denver", "America/Los_Angeles", "America/Mexico_City",
    "America/Sao_Paulo", "Africa/Cairo", "Africa/Johannesburg"]

def allowedDateFormats : List String := ["YYYY-MM-DD", "DD.MM.YYYY", "DD/MM/YYYY", "MM/DD/YYYY"]

def allowedTimeFormats : List String := ["HH:mm", "HH:mm:ss", "hh:mm A"]

/-! ### Reading -/

section
variable (rows : Rows)

def isTwoFactorEnabled : Bool :=
  match rows .twoFactorEnabled with
  | none => false
  | some value => Text.lower value.toList = "true".toList

/-- The stored value where it is an allowed one. -/
def listed (allowed : List String) (fallback : String) (value : Option String) : String :=
  match value with
  | none => fallback
  | some v => if v ∈ allowed then v else fallback

def getTimezone : String := listed allowedTimezones "UTC" (rows .timezone)

def getDateFormat : String := listed allowedDateFormats "YYYY-MM-DD" (rows .dateFormat)

def getTimeFormat : String := listed allowedTimeFormats "HH:mm" (rows .timeFormat)

def getLocaleSettings : LocaleUpdate where
  timezone := some (getTimezone rows)
  dateFormat := some (getDateFormat rows)
  timeFormat := some (getTimeFormat rows)

def getTextSetting (key : Key) : String := (rows key).getD ""

def getBillingProfile : Billing String where
  billingCustomerType := if getTextSetting rows .billingCustomerType =
    "" then "company" else getTextSetting rows .billingCustomerType
  billingFullName := getTextSetting rows .billingFullName
  billingCompanyName := getTextSetting rows .billingCompanyName
  billingTaxId := getTextSetting rows .billingTaxId
  billingAddressLine := getTextSetting rows .billingAddressLine
  billingPostalCode := getTextSetting rows .billingPostalCode
  billingCity := getTextSetting rows .billingCity
  billingRegion := getTextSetting rows .billingRegion
  billingCountry := getTextSetting rows .billingCountry
  googleReviewUrl := getTextSetting rows .googleReviewUrl

/-- `get_settings_snapshot`, by its keys. -/
def snapshot : Key → Value
  | .twoFactorEnabled => .flag (isTwoFactorEnabled rows)
  | .timezone => .text (getTimezone rows)
  | .dateFormat => .text (getDateFormat rows)
  | .timeFormat => .text (getTimeFormat rows)
  | .billingCustomerType => .text (getBillingProfile rows).billingCustomerType
  | .billingFullName => .text (getBillingProfile rows).billingFullName
  | .billingCompanyName => .text (getBillingProfile rows).billingCompanyName
  | .billingTaxId => .text (getBillingProfile rows).billingTaxId
  | .billingAddressLine => .text (getBillingProfile rows).billingAddressLine
  | .billingPostalCode => .text (getBillingProfile rows).billingPostalCode
  | .billingCity => .text (getBillingProfile rows).billingCity
  | .billingRegion => .text (getBillingProfile rows).billingRegion
  | .billingCountry => .text (getBillingProfile rows).billingCountry
  | .googleReviewUrl => .text (getBillingProfile rows).googleReviewUrl

end

/-! ### Writing -/

/-- Updates the row of the key, or inserts one, and commits. -/
def setValue (key : Key) (value : String) : ServiceM Unit :=
  modify fun s => { s with rows := Function.update s.rows key (some value) }

def writeLog (entry : AuditEntry) : ServiceM Unit := modify fun s => { s with log := s.log ++ [entry] }

def setTwoFactorEnabled (enabled : Bool) (updatedBy : Option ℕ) : ServiceM Unit := do
  let previousValue := isTwoFactorEnabled (← get).rows
  setValue .twoFactorEnabled (if enabled then "true" else "false")
  if previousValue ≠ enabled then
    writeLog
      { userId := updatedBy, targetId := some .twoFactorEnabled, details := .flag .twoFactorEnabled previousValue enabled }

def updateTwoFactorSettings (twoFactorEnabled : Option Bool) (updatedBy : Option ℕ) : ServiceM Bool := do
  match twoFactorEnabled with
  | none => pure ()
  | some enabled => setTwoFactorEnabled enabled updatedBy
  return isTwoFactorEnabled (← get).rows

def stripped (value : String) : String := String.ofList (Text.strip value.toList)

def setListed (key : Key) (allowed : List String) (error value : String) : ServiceM Unit := do
  if stripped value ∈ allowed then setValue key (stripped value) else throw (.valueError error)

def setTimezone : String → ServiceM Unit := setListed .timezone allowedTimezones "invalid_timezone"

def setDateFormat : String → ServiceM Unit := setListed .dateFormat allowedDateFormats "invalid_date_format"

def setTimeFormat : String → ServiceM Unit := setListed .timeFormat allowedTimeFormats "invalid_time_format"

/-- `if value is not None`. -/
def given (value : Option String) (set : String → ServiceM Unit) : ServiceM Unit :=
  match value with
  | none => pure ()
  | some v => set v

/-- The keys that `_audit_settings_changed` lists. -/
def changedKeys (before after : Key → Value) : List Key := Key.all.filter fun k => k ≠ .twoFactorEnabled ∧ before k ≠ after k

def auditSettingsChanged (before after : Key → Value) (updatedBy : Option ℕ) : ServiceM Unit := do
  let changed := changedKeys before after
  if changed ≠ [] then
    writeLog { userId := updatedBy, targetType := some "tenant_settings", details := .keys changed changed.length }

def updateLocaleSettings (locale : LocaleUpdate) (updatedBy : Option ℕ) : ServiceM LocaleUpdate := do
  let before := snapshot (← get).rows
  given locale.timezone setTimezone
  given locale.dateFormat setDateFormat
  given locale.timeFormat setTimeFormat
  let after := snapshot (← get).rows
  auditSettingsChanged before after updatedBy
  return getLocaleSettings (← get).rows

/-- What is stored of a text. -/
def textSetting (value : String) : String := String.ofList ((Text.strip value.toList).take 500)

def setTextSetting (key : Key) (value : Option String) : ServiceM Unit := given value fun v => setValue key (textSetting v)

def updateBillingProfile (billing : Billing (Option String)) (updatedBy : Option ℕ) : ServiceM (Billing String) := do
  let before := snapshot (← get).rows
  forM billing.toList fun field => setTextSetting field.1 field.2
  let after := snapshot (← get).rows
  auditSettingsChanged before after updatedBy
  return getBillingProfile (← get).rows

def LocaleUpdate.isGiven (locale : LocaleUpdate) : Bool :=
  locale.timezone.isSome || locale.dateFormat.isSome || locale.timeFormat.isSome

def Billing.isGiven (billing : Billing (Option String)) : Bool := billing.toList.any (·.2.isSome)

/-- A call under a condition, whose value is not used. -/
def callIf {α : Type} (given : Bool) (call : ServiceM α) : ServiceM PUnit := do
  if given then let _ ← call

def updateSettings (twoFactorEnabled : Option Bool) (locale : LocaleUpdate) (billing : Billing (Option String))
    (updatedBy : Option ℕ) : ServiceM (Key → Value) := do
  callIf twoFactorEnabled.isSome (updateTwoFactorSettings twoFactorEnabled updatedBy)
  callIf locale.isGiven (updateLocaleSettings locale updatedBy)
  callIf billing.isGiven (updateBillingProfile billing updatedBy)
  return snapshot (← get).rows

/-! ### What an entry tells -/

/-- The keys that an entry names. -/
def AuditEntry.Names (e : AuditEntry) (key : Key) : Prop :=
  match e.details with
  | .flag settingKey _ _ => key = settingKey
  | .keys changedKeys _ => key ∈ changedKeys

/-- The values that an entry gives of the second factor. -/
def AuditEntry.values (e : AuditEntry) : Option (Bool × Bool) :=
  match e.details with
  | .flag _ oldValue newValue => some (oldValue, newValue)
  | .keys _ _ => none

/-- The entry names the settings that read differently, and there are some. -/
structure Tells (rows : Rows) (e : AuditEntry) (rows' : Rows) : Prop where
  names : ∀ key, e.Names key ↔ snapshot rows' key ≠ snapshot rows key
  some : ∃ key, e.Names key
  silent : e.values = none → isTwoFactorEnabled rows' = isTwoFactorEnabled rows
  values : ∀ c, e.values = .some c → c = (isTwoFactorEnabled rows, isTwoFactorEnabled rows') ∧
    isTwoFactorEnabled rows' ≠ isTwoFactorEnabled rows

/-- From `s` on, the log has got entries that tell all changes, each by one of whom `By` holds. -/
def Told (By : AuditEntry → Prop) (s t : State) : Prop :=
  ∃ new, t.log = s.log ++ new ∧ Trail.Accounts snapshot Tells s.rows new t.rows ∧ ∀ e ∈ new, By e

section
variable {By : AuditEntry → Prop} {s t u : State} {rows : Rows} {key : Key} {updatedBy : Option ℕ}

theorem Told.refl (s : State) : Told By s s := ⟨[], (List.append_nil _).symm, .refl _, fun _ mem => absurd mem List.not_mem_nil⟩

theorem Told.trans (first : Told By s t) (second : Told By t u) : Told By s u := by
  obtain ⟨new, log, accounts, by_all⟩ := first
  obtain ⟨new', log', accounts', by_all'⟩ := second
  refine ⟨new ++ new', by rw [log', log, List.append_assoc], accounts.append accounts', ?_⟩
  intro e mem
  rcases List.mem_append.mp mem with old | recent
  · exact by_all e old
  · exact by_all' e recent

theorem Told.mono {By' : AuditEntry → Prop} (h : Told By s t) (le : ∀ e, By e → By' e) : Told By' s t := by
  obtain ⟨new, log, accounts, by_all⟩ := h
  exact ⟨new, log, accounts, fun e mem => le e (by_all e mem)⟩

theorem Key.mem_all (key : Key) : key ∈ Key.all := by
  cases key <;> decide

/-- The rows of other keys are not read for a key. -/
theorem snapshot_congr {rows rows' : Rows} (same : rows' key = rows key) : snapshot rows' key = snapshot rows key := by
  have text : getTextSetting rows' key = getTextSetting rows key := by rw [getTextSetting, getTextSetting, same]
  cases key <;> simp only [snapshot, isTwoFactorEnabled, getTimezone,
    getDateFormat, getTimeFormat, getBillingProfile, same, text]

theorem snapshot_update_ne {value : String} {other : Key} (ne : other ≠ key) :
    snapshot (Function.update rows key (.some value)) other = snapshot rows other :=
  snapshot_congr (Function.update_of_ne ne ..)

theorem mem_changedKeys {before after : Key → Value} (flag : after .twoFactorEnabled = before .twoFactorEnabled) :
    key ∈ changedKeys before after ↔ after key ≠ before key := by
  unfold changedKeys
  rw [List.mem_filter, decide_eq_true_eq]
  constructor
  · rintro ⟨-, -, differ⟩
    exact differ.symm
  · intro differ
    refine ⟨Key.mem_all key, ?_, differ.symm⟩
    rintro rfl
    exact differ flag

/-- The state after `_audit_settings_changed`. -/
def State.audited (s : State) (before : Rows) (updatedBy : Option ℕ) : State :=
  match changedKeys (snapshot before) (snapshot s.rows) with
  | [] => s
  | k :: ks =>
    { s with
      log := s.log ++
        [{ userId := updatedBy, targetType := some "tenant_settings", details := .keys (k :: ks) (k :: ks).length }] }

theorem State.audited_rows (s : State) (before : Rows) : (s.audited before updatedBy).rows = s.rows := by
  unfold State.audited
  split <;> rfl

theorem State.audited_of_same (before : Rows) (same : ∀ key, snapshot s.rows key = snapshot before key) :
    s.audited before updatedBy = s := by
  have none : changedKeys (snapshot before) (snapshot s.rows) = [] := by
    refine List.filter_eq_nil_iff.mpr fun key _ => ?_
    simp [same key]
  unfold State.audited
  rw [none]

theorem run_auditSettingsChanged (before rows : Rows) (log : List AuditEntry) :
    (auditSettingsChanged (snapshot before) (snapshot rows) updatedBy).run ⟨rows, log⟩ =
      .ok () ((⟨rows, log⟩ : State).audited before updatedBy) := by
  unfold auditSettingsChanged State.audited
  cases changedKeys (snapshot before) (snapshot rows) <;> rfl

/-- The user's entry, which names none but the keys. -/
structure AuditEntry.Of (updatedBy : Option ℕ) (keys : List Key) (e : AuditEntry) : Prop where
  userId : e.userId = updatedBy
  names : ∀ key, e.Names key → key ∈ keys

theorem AuditEntry.Of.mono {keys keys' : List Key} {e : AuditEntry} (h : e.Of updatedBy keys) (sub : keys ⊆ keys') :
    e.Of updatedBy keys' :=
  ⟨h.userId, fun key named => sub (h.names key named)⟩

/-- The entry tells what was written to other keys than the second factor's. -/
theorem told_audited {keys : List Key} (flag : Key.twoFactorEnabled ∉ keys) (kept : ∀ k, k ∉ keys → rows k = s.rows k) :
    Told (·.Of updatedBy keys) s ({ s with rows }.audited s.rows updatedBy) := by
  have same : ∀ k, k ∉ keys → snapshot rows k = snapshot s.rows k := fun k other => snapshot_congr (kept k other)
  have mem : ∀ k, k ∈ changedKeys (snapshot s.rows) (snapshot rows) ↔ snapshot rows k ≠ snapshot s.rows k :=
    fun k => mem_changedKeys (same _ flag)
  unfold State.audited
  split
  · next none =>
    dsimp only at none
    have still : ∀ k, snapshot rows k = snapshot s.rows k := fun k => not_not.mp fun differ => by
      have named := (mem k).mpr differ
      rw [none] at named
      exact absurd named List.not_mem_nil
    exact ⟨[], (List.append_nil _).symm, .still still, fun _ gone => absurd gone List.not_mem_nil⟩
  · next k ks some =>
    dsimp only at some
    rw [some] at mem
    refine ⟨[_], rfl, .entry ⟨mem, ⟨k, List.mem_cons_self⟩, fun _ => Value.flag.inj (same _ flag), ?_⟩, ?_⟩
    · intro c given
      cases given
    · intro e only
      rw [List.mem_singleton.mp only]
      exact ⟨rfl, fun k' named => not_not.mp fun other => (mem k').mp named (same k' other)⟩

/-- The rows after a write of the flag. -/
def flagged (rows : Rows) (enabled : Bool) : Rows := Function.update rows .twoFactorEnabled
    (.some (if enabled then "true" else "false"))

theorem flagged_of_ne {enabled : Bool} (other : key ≠ .twoFactorEnabled) : flagged rows enabled key = rows key :=
  Function.update_of_ne other ..

theorem isTwoFactorEnabled_flagged (rows : Rows) (enabled : Bool) : isTwoFactorEnabled (flagged rows enabled) = enabled := by
  unfold isTwoFactorEnabled flagged
  rw [Function.update_self]
  cases enabled <;> decide

def flagEntry (updatedBy : Option ℕ) (oldValue newValue : Bool) : AuditEntry where
  userId := updatedBy
  targetId := some .twoFactorEnabled
  details := .flag .twoFactorEnabled oldValue newValue

theorem tells_flagEntry {enabled : Bool} (differ : isTwoFactorEnabled rows ≠ enabled) :
    Tells rows (flagEntry updatedBy (isTwoFactorEnabled rows) enabled) (flagged rows enabled) := by
  have read := isTwoFactorEnabled_flagged rows enabled
  refine ⟨fun k => ⟨?_, ?_⟩, ⟨_, rfl⟩, ?_, ?_⟩
  · rintro rfl unchanged
    exact differ ((Value.flag.inj unchanged).symm.trans read)
  · intro changed
    exact not_not.mp fun other => changed (snapshot_congr (flagged_of_ne other))
  · intro none
    cases none
  · intro c given
    obtain rfl := Option.some.inj given
    rw [read]
    exact ⟨rfl, differ.symm⟩

theorem run_setTwoFactorEnabled (enabled : Bool) : (setTwoFactorEnabled enabled updatedBy).run s =
    if isTwoFactorEnabled s.rows ≠ enabled then
      .ok () ⟨flagged s.rows enabled, s.log ++ [flagEntry updatedBy (isTwoFactorEnabled s.rows) enabled]⟩
    else .ok () ⟨flagged s.rows enabled, s.log⟩ := by
  have run : (setTwoFactorEnabled enabled updatedBy).run s =
      (if isTwoFactorEnabled s.rows ≠ enabled then writeLog (flagEntry updatedBy (isTwoFactorEnabled s.rows) enabled)
        else pure ()).run ⟨flagged s.rows enabled, s.log⟩ := rfl
  rw [run]
  split <;> rfl

theorem setTwoFactorEnabled_spec (s : State) (updatedBy : Option ℕ) (enabled : Bool) :
    ∃ t, (setTwoFactorEnabled enabled updatedBy).run s = .ok () t ∧
    t.rows = flagged s.rows enabled ∧ Told (·.Of updatedBy [.twoFactorEnabled]) s t := by
  rw [run_setTwoFactorEnabled]
  split
  · next differ =>
    refine ⟨_, rfl, rfl, [_], rfl, .entry (tells_flagEntry differ), fun e only => ?_⟩
    rw [List.mem_singleton.mp only]
    exact ⟨rfl, fun k named => List.mem_singleton.mpr named⟩
  · next same =>
    refine ⟨_, rfl, rfl, [], (List.append_nil _).symm, .still fun k => ?_, fun _ gone => absurd gone List.not_mem_nil⟩
    by_cases flag : k = .twoFactorEnabled
    · subst flag
      exact congrArg Value.flag ((isTwoFactorEnabled_flagged ..).trans (not_not.mp same).symm)
    · exact snapshot_congr (flagged_of_ne flag)

/-! ### The second factor -/

def flagOf (twoFactorEnabled : Option Bool) (rows : Rows) : Rows :=
  match twoFactorEnabled with
  | none => rows
  | .some enabled => flagged rows enabled

theorem flagOf_of_ne {flag : Option Bool} (other : key ≠ .twoFactorEnabled) : flagOf flag rows key = rows key := by
  cases flag with
  | none => rfl
  | some enabled => exact flagged_of_ne other

theorem updateTwoFactorSettings_spec (s : State) (updatedBy : Option ℕ) (flag : Option Bool) : ∃ t,
    (updateTwoFactorSettings flag updatedBy).run s = .ok (isTwoFactorEnabled t.rows) t ∧ t.rows = flagOf flag s.rows ∧
    Told (·.Of updatedBy [.twoFactorEnabled]) s t := by
  cases flag with
  | none => exact ⟨s, rfl, rfl, .refl s⟩
  | some enabled =>
    obtain ⟨t, run, rows, told⟩ := setTwoFactorEnabled_spec s updatedBy enabled
    refine ⟨t, ?_, rows, told⟩
    unfold updateTwoFactorSettings
    rw [EStateM.run_bind, run]
    rfl

/-! ### The billing profile -/

def Key.billing : List Key :=
  [.billingCustomerType, .billingFullName, .billingCompanyName,
    .billingTaxId, .billingAddressLine, .billingPostalCode, .billingCity,
    .billingRegion, .billingCountry, .googleReviewUrl]

def putText (rows : Rows) (field : Key × Option String) : Rows :=
  match field.2 with
  | none => rows
  | .some value => Function.update rows field.1 (.some (textSetting value))

/-- The rows after an update of the profile. -/
def Billing.written (billing : Billing (Option String)) (rows : Rows) : Rows := billing.toList.foldl putText rows

theorem run_forM_setTextSetting (fields : List (Key × Option String)) :
    (forM fields fun field => setTextSetting field.1 field.2 : ServiceM PUnit).run s =
      .ok ⟨⟩ { s with rows := fields.foldl putText s.rows } := by
  induction fields generalizing s with
  | nil => rfl
  | cons field fields ih =>
    have first : (setTextSetting field.1 field.2).run s = .ok ⟨⟩ { s with rows := putText s.rows field } := by
      unfold setTextSetting given putText
      cases field.2 <;> rfl
    rw [List.forM_cons, EStateM.run_bind, first]
    exact ih

theorem foldl_putText_of_notMem {fields : List (Key × Option String)} (other : key ∉ fields.map (·.1)) :
    fields.foldl putText rows key = rows key := by
  induction fields generalizing rows with
  | nil => rfl
  | cons field fields ih =>
    rw [List.map_cons, List.mem_cons, not_or] at other
    rw [List.foldl_cons, ih other.2]
    unfold putText
    cases field.2 with
    | none => rfl
    | some value => exact Function.update_of_ne other.1 ..

theorem foldl_putText_of_mem {fields : List (Key × Option String)} (distinct : (fields.map (·.1)).Nodup) {value : Option String}
    (mem : (key, value) ∈ fields) : fields.foldl putText rows key = (value.map textSetting).or (rows key) := by
  induction fields generalizing rows with
  | nil => cases mem
  | cons field fields ih =>
    rw [List.map_cons, List.nodup_cons] at distinct
    rw [List.foldl_cons]
    rcases List.mem_cons.mp mem with rfl | later
    · rw [foldl_putText_of_notMem distinct.1]
      unfold putText
      cases value with
      | none => rfl
      | some v => exact Function.update_self ..
    · have other : key ≠ field.1 := fun same => distinct.1 (same ▸ List.mem_map_of_mem (f := (·.1)) later)
      have kept : putText rows field key = rows key := by
        unfold putText
        cases field.2 with
        | none => rfl
        | some v => exact Function.update_of_ne other ..
      rw [ih distinct.2 later, kept]

theorem Billing.written_of_mem {billing : Billing (Option String)} {value :
    Option String} (mem : (key, value) ∈ billing.toList) :
    billing.written rows key = (value.map textSetting).or (rows key) := by
  have distinct : (billing.toList.map (·.1)).Nodup := (by decide : Key.billing.Nodup)
  exact foldl_putText_of_mem distinct mem

theorem Billing.written_of_notMem {billing : Billing (Option String)} (other : key ∉ Key.billing) :
    billing.written rows key = rows key :=
  foldl_putText_of_notMem other

theorem Billing.written_of_not_given {billing : Billing (Option String)} (empty : billing.isGiven = false) :
    billing.written rows = rows := by
  have none : ∀ fields : List (Key × Option String), fields.any (·.2.isSome) = false → fields.foldl putText rows = rows := by
    intro fields
    induction fields with
    | nil => exact fun _ => rfl
    | cons field fields ih =>
      intro absent
      rw [List.any_cons, Bool.or_eq_false_iff] at absent
      have same : putText rows field = rows := by
        unfold putText
        cases value : field.2 with
        | none => rfl
        | some v =>
          rw [value] at absent
          cases absent.1
      rw [List.foldl_cons, same, ih absent.2]
  exact none _ empty

theorem run_updateBillingProfile (s : State) (updatedBy : Option ℕ) (billing : Billing (Option String)) :
    (updateBillingProfile billing updatedBy).run s = .ok (getBillingProfile (billing.written s.rows))
      ({ s with rows := billing.written s.rows }.audited s.rows updatedBy) := by
  have fields : (forM billing.toList fun field => setTextSetting field.1 field.2 : ServiceM PUnit).run s =
      .ok ⟨⟩ { s with rows := billing.written s.rows } := run_forM_setTextSetting billing.toList
  unfold updateBillingProfile
  simp only [EStateM.run_bind, EStateM.run_get, fields, run_auditSettingsChanged, EStateM.run_pure, State.audited_rows]

theorem told_updateBillingProfile (billing : Billing (Option String)) :
    Told (·.Of updatedBy Key.billing) s ({ s with rows := billing.written s.rows }.audited s.rows updatedBy) :=
  told_audited (by decide) fun _ other => Billing.written_of_notMem other

/-! ### The locale -/

def Key.locale : List Key := [.timezone, .dateFormat, .timeFormat]

/-- The value passes, or there is none. -/
def passes (allowed : List String) (value : Option String) : Prop := ∀ v ∈ value, stripped v ∈ allowed

instance (allowed : List String) (value : Option String) : Decidable (passes allowed value) :=
  decidable_of_iff (value.all fun v => stripped v ∈ allowed) (by cases value <;> simp [passes])

theorem passes_none (allowed : List String) : passes allowed none := by
  intro v given
  cases given

def putListed (rows : Rows) (key : Key) (value : Option String) : Rows :=
  match value with
  | none => rows
  | .some v => Function.update rows key (.some (stripped v))

theorem putListed_of_ne {other : Key} {value : Option String} (ne : other ≠ key) :
    putListed rows key value other = rows other := by
  cases value with
  | none => rfl
  | some v => exact Function.update_of_ne ne ..

structure LocaleUpdate.Valid (locale : LocaleUpdate) : Prop where
  timezone : passes allowedTimezones locale.timezone
  dateFormat : passes allowedDateFormats locale.dateFormat
  timeFormat : passes allowedTimeFormats locale.timeFormat

/-- The rows after an update of the locale, which stops at the first value that does not pass. -/
def LocaleUpdate.written (locale : LocaleUpdate) (rows : Rows) : Rows :=
  if passes allowedTimezones locale.timezone then
    if passes allowedDateFormats locale.dateFormat then
      if passes allowedTimeFormats locale.timeFormat then
        putListed (putListed
          (putListed rows .timezone locale.timezone) .dateFormat locale.dateFormat) .timeFormat locale.timeFormat
      else putListed (putListed rows .timezone locale.timezone) .dateFormat locale.dateFormat
    else putListed rows .timezone locale.timezone
  else rows

theorem LocaleUpdate.written_of_notMem {locale : LocaleUpdate} (other : key ∉ Key.locale) :
    locale.written rows key = rows key := by
  have ne : key ≠ .timezone ∧ key ≠ .dateFormat ∧ key ≠ .timeFormat := by
    refine ⟨?_, ?_, ?_⟩ <;> rintro rfl <;> exact other (by decide)
  unfold LocaleUpdate.written
  split_ifs <;> simp only [putListed_of_ne ne.1, putListed_of_ne ne.2.1, putListed_of_ne ne.2.2]

theorem LocaleUpdate.written_of_not_given (locale : LocaleUpdate) (rows : Rows) (empty : locale.isGiven = false) :
    locale.Valid ∧ locale.written rows = rows := by
  obtain ⟨timezone, dateFormat, timeFormat⟩ := locale
  cases timezone <;> cases dateFormat <;> cases timeFormat <;> cases empty
  refine ⟨⟨passes_none _, passes_none _, passes_none _⟩, ?_⟩
  unfold LocaleUpdate.written
  rw [if_pos (passes_none _), if_pos (passes_none _), if_pos (passes_none _)]
  rfl

theorem run_given_setListed (allowed : List String) (error : String) (value : Option String) :
    (given value (setListed key allowed error)).run s =
      if passes allowed value then .ok () { s with rows := putListed s.rows key value } else .error (.valueError error) s := by
  cases value with
  | none => exact (if_pos (passes_none allowed)).symm
  | some v =>
    have same : passes allowed (.some v) ↔ stripped v ∈ allowed :=
      ⟨fun all => all v rfl, fun mem u given => Option.some.inj given ▸ mem⟩
    unfold given setListed
    rw [run_ite]
    simp only [same]
    rfl

theorem run_updateLocaleSettings (s : State) (updatedBy : Option ℕ) {locale : LocaleUpdate} (valid : locale.Valid) :
    (updateLocaleSettings locale updatedBy).run s = .ok (getLocaleSettings (locale.written s.rows))
      ({ s with rows := locale.written s.rows }.audited s.rows updatedBy) := by
  unfold updateLocaleSettings LocaleUpdate.written setTimezone setDateFormat setTimeFormat
  simp only [EStateM.run_bind, EStateM.run_get, run_given_setListed, if_pos valid.timezone, if_pos valid.dateFormat,
    if_pos valid.timeFormat, run_auditSettingsChanged, EStateM.run_pure, State.audited_rows]

/-- The values before the first one that does not pass stay written. -/
theorem run_updateLocaleSettings_invalid (s : State) (updatedBy : Option ℕ) {locale : LocaleUpdate} (invalid : ¬locale.Valid) :
    ∃ e, (updateLocaleSettings locale updatedBy).run s = .error e { s with rows := locale.written s.rows } := by
  unfold updateLocaleSettings LocaleUpdate.written setTimezone setDateFormat setTimeFormat
  simp only [EStateM.run_bind, EStateM.run_get, run_given_setListed]
  by_cases timezone : passes allowedTimezones locale.timezone
  · by_cases dateFormat : passes allowedDateFormats locale.dateFormat
    · have timeFormat : ¬passes allowedTimeFormats locale.timeFormat := fun passed => invalid ⟨timezone, dateFormat, passed⟩
      exact ⟨.valueError "invalid_time_format", by simp only [if_pos timezone, if_pos dateFormat, if_neg timeFormat]⟩
    · exact ⟨.valueError "invalid_date_format", by simp only [if_pos timezone, if_neg dateFormat]⟩
  · exact ⟨.valueError "invalid_timezone", by simp only [if_neg timezone]⟩

theorem told_updateLocaleSettings (locale : LocaleUpdate) :
    Told (·.Of updatedBy Key.locale) s ({ s with rows := locale.written s.rows }.audited s.rows updatedBy) :=
  told_audited (by decide) fun _ other => LocaleUpdate.written_of_notMem other

/-! ### The whole update -/

/-- The keys that an update may change. -/
def touched (billing : Billing (Option String)) : List Key :=
  .twoFactorEnabled :: Key.locale ++ if billing.isGiven then Key.billing else []

theorem callIf_spec {α : Type} {given : Bool} {m : ServiceM α} {write : Rows → Rows} {keys : List Key} {t : State} {a : α}
    (idle : given = false → write s.rows = s.rows) (run : m.run s = .ok a t) (rows : t.rows = write s.rows)
    (told : Told (·.Of updatedBy keys) s t) :
    ∃ t, (callIf given m).run s = .ok ⟨⟩ t ∧ t.rows = write s.rows ∧
      Told (·.Of updatedBy (if given then keys else [])) s t := by
  cases given with
  | false => exact ⟨s, rfl, (idle rfl).symm, .refl s⟩
  | true =>
    refine ⟨t, ?_, rows, told⟩
    unfold callIf
    rw [if_pos rfl, EStateM.run_bind, run]
    rfl

theorem updateSettings_spec (s : State) (updatedBy : Option ℕ) (flag : Option Bool) {locale : LocaleUpdate}
    (billing : Billing (Option String)) (valid : locale.Valid) :
    ∃ t, (updateSettings flag locale billing updatedBy).run s = .ok (snapshot t.rows) t ∧
      t.rows = billing.written (locale.written (flagOf flag s.rows)) ∧ Told (·.Of updatedBy (touched billing)) s t := by
  obtain ⟨s₀, run₀, rows₀, told₀⟩ := updateTwoFactorSettings_spec s updatedBy flag
  have idle : flag.isSome = false → flagOf flag s.rows = s.rows := by
    cases flag with
    | none => exact fun _ => rfl
    | some enabled => exact fun gone => Bool.noConfusion gone
  obtain ⟨s₁, run₁, rows₁, told₁⟩ := callIf_spec idle run₀ rows₀ told₀
  obtain ⟨s₂, run₂, rows₂, told₂⟩ := callIf_spec (fun empty => (LocaleUpdate.written_of_not_given locale _ empty).2)
    (run_updateLocaleSettings s₁ updatedBy valid) (State.audited_rows ..) (told_updateLocaleSettings locale)
  obtain ⟨s₃, run₃, rows₃, told₃⟩ := callIf_spec (fun empty => Billing.written_of_not_given empty)
    (run_updateBillingProfile s₂ updatedBy billing) (State.audited_rows ..) (told_updateBillingProfile billing)
  refine ⟨s₃, ?_, by rw [rows₃, rows₂, rows₁], ?_⟩
  · unfold updateSettings
    simp only [EStateM.run_bind, run₁, run₂, run₃]
    rfl
  · refine (told₁.mono fun e own => own.mono ?_).trans ((told₂.mono fun e own =>
    own.mono ?_).trans (told₃.mono fun e own => own.mono ?_))
    all_goals
      intro k mem
      unfold touched
      split at mem
    · exact List.mem_append_left _ (List.mem_singleton.mp mem ▸ List.mem_cons_self)
    · cases mem
    · exact List.mem_append_left _ (List.mem_cons_of_mem _ mem)
    · cases mem
    · next given =>
      rw [if_pos given]
      exact List.mem_append_right _ mem
    · cases mem

/-- An update whose locale does not pass stops there. -/
theorem updateSettings_invalid (s : State) (updatedBy : Option ℕ) (flag : Option Bool) {locale : LocaleUpdate}
    (billing : Billing (Option String)) (invalid : ¬locale.Valid) :
      ∃ e s₁, s₁.rows = flagOf flag s.rows ∧ Told (·.Of updatedBy [.twoFactorEnabled]) s s₁ ∧
      (updateSettings flag locale billing updatedBy).run s = .error e { s₁ with rows := locale.written s₁.rows } := by
  obtain ⟨s₀, run₀, rows₀, told₀⟩ := updateTwoFactorSettings_spec s updatedBy flag
  have idle : flag.isSome = false → flagOf flag s.rows = s.rows := by
    cases flag with
    | none => exact fun _ => rfl
    | some enabled => exact fun gone => Bool.noConfusion gone
  obtain ⟨s₁, run₁, rows₁, told₁⟩ := callIf_spec idle run₀ rows₀ told₀
  obtain ⟨e, run₂⟩ := run_updateLocaleSettings_invalid s₁ updatedBy invalid
  have given : locale.isGiven = true := by
    rw [← Bool.not_eq_false]
    exact fun empty => invalid (LocaleUpdate.written_of_not_given locale s.rows empty).1
  refine ⟨e, s₁, rows₁, told₁.mono fun e own => own.mono ?_, ?_⟩
  · split
    · exact List.Subset.refl _
    · exact List.nil_subset _
  · unfold updateSettings
    rw [EStateM.run_bind, run₁]
    dsimp only
    rw [EStateM.run_bind, callIf, if_pos given, EStateM.run_bind, run₂]

theorem LocaleUpdate.written_congr {locale : LocaleUpdate} {rows rows' : Rows} (same : rows' key = rows key) :
    locale.written rows' key = locale.written rows key := by
  have put : ∀ {r r' : Rows} (k : Key) (value : Option String), r' key =
    r key → putListed r' k value key = putListed r k value key := by
    intro r r' k value same
    cases value with
    | none => exact same
    | some v =>
      by_cases here : key = k
      · subst here
        simp only [putListed, Function.update_self]
      · rw [putListed_of_ne here, putListed_of_ne here, same]
  unfold LocaleUpdate.written
  split_ifs
  · exact put _ _ (put _ _ (put _ _ same))
  · exact put _ _ (put _ _ same)
  · exact put _ _ same
  · exact same

/-- What an update of the locale changes has nothing to do with the flag. -/
theorem LocaleUpdate.changes_flagOf (locale : LocaleUpdate) (flag : Option Bool) (rows : Rows) (key : Key) :
    snapshot (locale.written (flagOf flag rows)) key ≠ snapshot (flagOf flag rows) key ↔
      snapshot (locale.written rows) key ≠ snapshot rows key := by
  by_cases own : key ∈ Key.locale
  · have same : flagOf flag rows key = rows key := flagOf_of_ne fun flag => by subst flag; exact absurd own (by decide)
    rw [snapshot_congr same, snapshot_congr (written_congr same)]
  · rw [snapshot_congr (written_of_notMem own), snapshot_congr (written_of_notMem own)]
    exact iff_of_false (not_not.mpr rfl) (not_not.mpr rfl)

end

/-- The log tells what an update changed, unless a value of the locale is refused when one before it has changed its setting. -/
theorem told_updateSettings_iff (s : State) (flag : Option Bool) (locale : LocaleUpdate) (billing : Billing (Option String))
    (updatedBy : Option ℕ) :
    Told (·.userId = updatedBy) s (after (updateSettings flag locale billing updatedBy) s) ↔
      ¬(¬locale.Valid ∧ ∃ key, snapshot (locale.written s.rows) key ≠ snapshot s.rows key) := by
  by_cases valid : locale.Valid
  · obtain ⟨t, run, -, told⟩ := updateSettings_spec s updatedBy flag billing valid
    rw [after_of_ok run]
    exact iff_of_true (told.mono fun _ own => own.userId) fun cut => cut.1 valid
  · obtain ⟨e, s₁, rows, told, run⟩ := updateSettings_invalid s updatedBy flag billing valid
    rw [after_of_error run, rows]
    constructor
    · rintro ⟨new, log, accounts, -⟩ ⟨-, key, changed⟩
      obtain ⟨new', log', accounts', own⟩ := told
      obtain rfl : new' = new := List.append_cancel_left (log'.symm.trans log)
      have later := (LocaleUpdate.changes_flagOf locale flag s.rows key).mpr changed
      have here : key ∈ Key.locale := not_not.mp fun other => changed (snapshot_congr (LocaleUpdate.written_of_notMem other))
      have other : key ≠ .twoFactorEnabled := fun flag => by subst flag; exact absurd here (by decide)
      have differ : snapshot (locale.written (flagOf flag s.rows)) key ≠ snapshot s.rows key := by
        have same : flagOf flag s.rows key = s.rows key := flagOf_of_ne other
        rw [← snapshot_congr same]
        exact later
      obtain ⟨e, mem, named⟩ := accounts.named (fun k tells => (tells.names k).mpr) differ
      exact other (List.mem_singleton.mp ((own e mem).names key named))
    · intro kept
      refine (told.mono fun _ own => own.userId).trans
        ⟨[], (List.append_nil _).symm, .still fun key => ?_, fun _ gone => absurd gone List.not_mem_nil⟩
      rw [rows]
      refine not_not.mp fun changed => kept ⟨valid, key, ?_⟩
      exact (LocaleUpdate.changes_flagOf locale flag s.rows key).mp changed

end NyzRating.Settings.Service
