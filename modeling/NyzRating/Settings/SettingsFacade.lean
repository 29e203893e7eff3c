import NyzRating.Lib.Run
import NyzRating.Settings.SettingsService
import NyzRating.Settings.TaxId
import NyzRating.Tenancy.OneBusiness

/-!
# Requests for the settings

What the router and the facade let through to the settings service. A billing profile is checked as a whole before it is written.

Source: `apps/settings/api/router.py`, `api/schemas.py`, `service/settings_facade.py`, `service/billing_validator.py`,
`domain/google_review_url.py`; `_persist_signup_company_profile` of `tenant/signup/new_demo_signup.py`.
-/

namespace NyzRating.Settings.Facade

open Program Service TaxId Tenancy.Business

/-! ### Request bodies -/

/-- `Timezone` of `settings_state.py`. -/
def timezoneLiterals : List String :=
  ["UTC", "Europe/London", "Europe/Paris", "Europe/Berlin", "Europe/Madrid", "Europe/Rome", "Europe/Amsterdam", "Europe/Zurich",
    "Europe/Vienna", "Europe/Prague", "Europe/Warsaw", "Europe/Budapest",
      "Europe/Athens", "Europe/Bucharest", "Europe/Istanbul",
    "Asia/Dubai", "Asia/Kolkata", "Asia/Singapore", "Asia/Hong_Kong",
      "Asia/Shanghai", "Asia/Seoul", "Asia/Tokyo", "Australia/Sydney",
    "America/Toronto", "America/New_York", "America/Chicago", "America/Denver", "America/Los_Angeles", "America/Mexico_City",
    "America/Sao_Paulo", "Africa/Cairo", "Africa/Johannesburg"]

def dateFormatLiterals : List String := ["YYYY-MM-DD", "DD.MM.YYYY", "DD/MM/YYYY", "MM/DD/YYYY"]

def timeFormatLiterals : List String := ["HH:mm", "HH:mm:ss", "hh:mm A"]

/-- `LocaleSettingsUpdateRequest`, whose fields are of the literal types. -/
structure LocaleUpdateRequest extends LocaleUpdate where
  timezone_mem : ∀ v ∈ timezone, v ∈ timezoneLiterals
  dateFormat_mem : ∀ v ∈ dateFormat, v ∈ dateFormatLiterals
  timeFormat_mem : ∀ v ∈ timeFormat, v ∈ timeFormatLiterals

structure Caller where
  id : ℕ
  role : String
  deriving DecidableEq, Repr

def Caller.mayEditBilling (caller : Caller) : Bool := caller.role = "owner" || caller.role = "admin"

/-- The requests of users who have `settings.write`, and what a signup stores of its company. -/
inductive Request where
  | updateBillingSettings (caller : Caller) (body : Billing (Option String))
  | updateLocaleSettings (caller : Caller) (body : LocaleUpdateRequest)
  | updateTwoFactorSettings (caller : Caller) (twoFactorEnabled : Option Bool)
  | updateSettings (caller : Caller) (twoFactorEnabled : Option Bool) (locale :
    LocaleUpdateRequest) (billing : Billing (Option String))
  | persistSignupCompanyProfile (tenantName googleReviewUrl : String) (updatedBy : Option ℕ)

/-! ### The checks of a billing profile -/

def fixedBillingCountry : String := "HU"

/-- `(value or "").strip()`. -/
def strippedOr (value : Option String) : String := stripped (value.getD "")

def unprocessable (detail : String) : SettingsError := .http 422 detail

/-- The link as it is stored, or the error for one that is no link of a review. -/
def validateReviewUrl (raw : Option String) : Except SettingsError (Option String) :=
  match raw with
  | none => .ok none
  | some raw =>
    let url := normalizeGoogleReviewUrl raw
    if url ≠ "" ∧ isValidGoogleReviewUrl (normalizeGoogleReviewUrl url) = false then
      .error (unprocessable "Invalid Google review URL. Expected format: https://g.page/r/.../review")
    else .ok (some url)

/-- The profile that `validate` makes, with the link. -/
def normalized (payload : Billing (Option String)) (googleReviewUrl : Option String) : Billing (Option String) where
  billingCustomerType := some "company"
  billingFullName := some ""
  billingCompanyName := some (strippedOr payload.billingCompanyName)
  billingTaxId := some (String.ofList (normalizeHuTaxId (payload.billingTaxId.getD "")))
  billingAddressLine := some (strippedOr payload.billingAddressLine)
  billingPostalCode := some (strippedOr payload.billingPostalCode)
  billingCity := some (strippedOr payload.billingCity)
  billingRegion := some ""
  billingCountry := some fixedBillingCountry
  googleReviewUrl := googleReviewUrl

/-- The fields that must not be blank. -/
def required (payload : Billing (Option String)) : List String :=
  [strippedOr payload.billingCompanyName, strippedOr payload.billingTaxId, strippedOr payload.billingPostalCode,
    strippedOr payload.billingCity, strippedOr payload.billingAddressLine]

/-- `BillingSettingsValidator.validate`. -/
def validate (payload : Billing (Option String)) : Except SettingsError (Billing (Option String)) :=
  let customerType := if strippedOr payload.billingCustomerType = "" then "company" else strippedOr payload.billingCustomerType
  if customerType ≠ "company" then .error (unprocessable "Only company billing is supported.")
  else
    match validateReviewUrl payload.googleReviewUrl with
    | .error e => .error e
    | .ok googleReviewUrl =>
      if "" ∈ required payload then .error (unprocessable "All company billing fields are required.")
      else if isValidHuTaxId (payload.billingTaxId.getD "") = false then .error (unprocessable "Invalid Hungarian tax ID.")
      else .ok (normalized payload googleReviewUrl)

/-! ### The requests -/

def checked (billing : Billing (Option String)) : ServiceM (Billing (Option String)) :=
  match validate billing with
  | .ok valid => pure valid
  | .error e => throw e

/-- `SettingsFacade.update_billing_settings`. -/
def updateBillingSettings (payload : Billing (Option String)) (updatedBy : Option ℕ) : ServiceM (Billing String) := do
  let validPayload ← checked payload
  updateBillingProfile validPayload updatedBy

/-- `SettingsFacade.update_settings`. -/
def updateSettings (twoFactorEnabled : Option Bool) (locale : LocaleUpdate) (billing : Billing (Option String))
    (updatedBy : Option ℕ) : ServiceM (Key → Value) := do
  let billingPayload ← if billing.isGiven then checked billing else pure billing
  Service.updateSettings twoFactorEnabled locale billingPayload updatedBy

/-- A call whose answer is not looked at. -/
def discarded {α : Type} (call : ServiceM α) : ServiceM Unit := do
  let _ ← call

/-- `value or None`. -/
def orNone (value : String) : Option String := if value = "" then none else some value

/-- The profile that a signup knows. -/
def signupProfile (company reviewUrl : String) : Billing (Option String) where
  billingCustomerType := none
  billingFullName := none
  billingCompanyName := orNone company
  billingTaxId := none
  billingAddressLine := none
  billingPostalCode := none
  billingCity := none
  billingRegion := none
  billingCountry := none
  googleReviewUrl := orNone reviewUrl

def persistSignupCompanyProfile (tenantName googleReviewUrl : String) (updatedBy : Option ℕ) : ServiceM Unit :=
  let reviewUrl := normalizeGoogleReviewUrl googleReviewUrl
  let company := stripped tenantName
  if reviewUrl = "" ∧ company = "" then pure () else discarded
    (updateBillingProfile (signupProfile company reviewUrl) updatedBy)

def forbidden : SettingsError := .http 403 "Only owner or admin can update billing settings."

/-- The endpoints; the locale has one that writes nothing. -/
def serve : Request → ServiceM Unit
  | .updateBillingSettings caller body =>
    if caller.mayEditBilling = false then throw forbidden else discarded (updateBillingSettings body (some caller.id))
  | .updateLocaleSettings _ _ => pure ()
  | .updateTwoFactorSettings caller twoFactorEnabled => discarded (updateTwoFactorSettings twoFactorEnabled (some caller.id))
  | .updateSettings caller twoFactorEnabled locale billing =>
    if billing.isGiven ∧ caller.mayEditBilling = false then throw forbidden
    else discarded (updateSettings twoFactorEnabled locale.toLocaleUpdate billing (some caller.id))
  | .persistSignupCompanyProfile tenantName googleReviewUrl updatedBy =>
    persistSignupCompanyProfile tenantName googleReviewUrl updatedBy

/-- What a request leaves, whether it is answered or refused. -/
def step (s : State) (request : Request) : State := after (serve request) s

/-! ### The log of a run -/

theorem mem_allowed {literals allowed : List String} (same : literals.map stripped = allowed) {value : Option String}
    (mem : ∀ v ∈ value, v ∈ literals) : passes allowed value :=
  fun v given => same ▸ List.mem_map_of_mem (mem v given)

theorem LocaleUpdateRequest.valid (body : LocaleUpdateRequest) : body.toLocaleUpdate.Valid where
  timezone := mem_allowed (by rfl) body.timezone_mem
  dateFormat := mem_allowed (by rfl) body.dateFormat_mem
  timeFormat := mem_allowed (by rfl) body.timeFormat_mem

/-- Whose request it is. -/
def Request.updatedBy : Request → Option ℕ
  | .updateBillingSettings caller _ => some caller.id
  | .updateLocaleSettings caller _ => some caller.id
  | .updateTwoFactorSettings caller _ => some caller.id
  | .updateSettings caller _ _ _ => some caller.id
  | .persistSignupCompanyProfile _ _ updatedBy => updatedBy

/-- A user who may not edit the billing profile is none of its requests. -/
def Request.mayEditBilling : Request → Bool
  | .updateBillingSettings caller _ => caller.mayEditBilling
  | .updateLocaleSettings caller _ => caller.mayEditBilling
  | .updateTwoFactorSettings caller _ => caller.mayEditBilling
  | .updateSettings caller _ _ _ => caller.mayEditBilling
  | .persistSignupCompanyProfile _ _ _ => true

/-- An entry of the request's user; where it names a key of the billing profile, the user may edit that. -/
structure Request.Wrote (r : Request) (e : AuditEntry) : Prop where
  userId : e.userId = r.updatedBy
  billing : ∀ key ∈ Key.billing, e.Names key → r.mayEditBilling = true

section
variable {s t : State} {updatedBy : Option ℕ} {billing valid : Billing (Option String)}

theorem Told.of_notNames {keys : List Key} {r : Request} (told : Told (·.Of r.updatedBy keys) s t)
    (may : (∃ key ∈ Key.billing, key ∈ keys) → r.mayEditBilling = true) : Told r.Wrote s t :=
  told.mono fun _ own => ⟨own.userId, fun key mem named => may ⟨key, mem, own.names key named⟩⟩

theorem run_updateBillingSettings (checks : validate billing = .ok valid) : (updateBillingSettings billing updatedBy).run s =
    .ok (getBillingProfile (valid.written s.rows)) ({ s with rows := valid.written s.rows }.audited s.rows updatedBy) := by
  unfold updateBillingSettings checked
  rw [checks]
  exact run_updateBillingProfile s updatedBy valid

theorem run_updateBillingSettings_error {e : SettingsError} (checks : validate billing = .error e) :
    (updateBillingSettings billing updatedBy).run s = .error e s := by
  unfold updateBillingSettings checked
  rw [checks]
  rfl

/-- What `validate` is asked for. -/
def payloadOf (billing : Billing (Option String)) : Except SettingsError (Billing (Option String)) :=
  if billing.isGiven then validate billing else .ok billing

theorem run_updateSettings {flag : Option Bool} {locale : LocaleUpdate} (checks : payloadOf billing = .ok valid) :
    (updateSettings flag locale billing updatedBy).run s = (Service.updateSettings flag locale valid updatedBy).run s := by
  unfold payloadOf at checks
  unfold updateSettings
  split at checks
  · next given => rw [if_pos given, EStateM.run_bind, checked, checks]; rfl
  · next absent =>
    obtain rfl := Except.ok.inj checks
    rw [if_neg absent]
    rfl

theorem run_updateSettings_error {flag : Option Bool} {locale :
    LocaleUpdate} {e : SettingsError} (checks : payloadOf billing = .error e) :
    (updateSettings flag locale billing updatedBy).run s = .error e s := by
  unfold payloadOf at checks
  unfold updateSettings
  split at checks
  · next given => rw [if_pos given, EStateM.run_bind, checked, checks]; rfl
  · cases checks

/-! ### What a request writes -/

/-- The profile is empty, has been checked, or comes from a signup. -/
inductive Writable : Billing (Option String) → Prop
  | empty {billing : Billing (Option String)} (absent : billing.isGiven = false) : Writable billing
  | checked {body billing : Billing (Option String)} (checks : validate body = .ok billing) : Writable billing
  | signup (tenantName url : String) : Writable (signupProfile (stripped tenantName) (normalizeGoogleReviewUrl url))

/-- The flag, the locale and the profile that are written between two states, and that the log tells it. -/
def Serves (r : Request) (s t : State) : Prop :=
  ∃ (flag : Option Bool) (locale : LocaleUpdate) (billing : Billing (Option String)), locale.Valid ∧ Writable billing ∧
    t.rows = billing.written (locale.written (flagOf flag s.rows)) ∧ Told r.Wrote s t

theorem unchanged_rows (rows : Rows) : (signupProfile "" "").written ((({} : LocaleUpdate)).written rows) = rows := by
  rw [Billing.written_of_not_given rfl, (LocaleUpdate.written_of_not_given {} rows rfl).2]

theorem Serves.idle (r : Request) (s : State) : Serves r s s :=
  ⟨none, {}, signupProfile "" "", (LocaleUpdate.written_of_not_given {} s.rows rfl).1, .empty rfl, (unchanged_rows s.rows).symm,
    .refl s⟩

/-- Only the profile is written. -/
theorem Serves.profile {r : Request} (writable : Writable billing) (may : r.mayEditBilling = true) :
    Serves r s ({ s with rows := billing.written s.rows }.audited s.rows r.updatedBy) := by
  obtain ⟨valid, same⟩ := LocaleUpdate.written_of_not_given {} s.rows rfl
  refine ⟨none, {}, billing, valid, writable, ?_, Told.of_notNames (told_updateBillingProfile billing) fun _ => may⟩
  rw [State.audited_rows, flagOf, same]

theorem after_discarded {α : Type} (call : ServiceM α) (s : State) : after (discarded call) s = after call s := by
  unfold discarded
  cases run : call.run s with
  | ok a t =>
    rw [after_bind_of_ok run, after_of_ok run]
    rfl
  | error e t => rw [after_bind_of_error run, after_of_error run]

theorem serves_updateBillingSettings (caller : Caller) (body : Billing (Option String)) :
    Serves (.updateBillingSettings caller body) s (step s (.updateBillingSettings caller body)) := by
  unfold step serve
  dsimp only
  split
  · exact .idle _ s
  · next may =>
    rw [after_discarded]
    cases checks : validate body with
    | error e => exact after_of_error (run_updateBillingSettings_error checks) ▸ .idle _ s
    | ok valid =>
      rw [after_of_ok (run_updateBillingSettings checks)]
      exact Serves.profile (.checked checks) ((Bool.not_eq_false _).mp may)

theorem serves_updateTwoFactorSettings (caller : Caller) (flag : Option Bool) :
    Serves (.updateTwoFactorSettings caller flag) s (step s (.updateTwoFactorSettings caller flag)) := by
  obtain ⟨t, run, rows, told⟩ := updateTwoFactorSettings_spec s (some caller.id) flag
  unfold step serve
  dsimp only
  rw [after_discarded, after_of_ok run]
  obtain ⟨valid, same⟩ := LocaleUpdate.written_of_not_given {} (flagOf flag s.rows) rfl
  refine ⟨flag, {}, signupProfile "" "", valid, .empty rfl, ?_, Told.of_notNames told ?_⟩
  · rw [unchanged_rows, rows]
  · rintro ⟨key, billing, only⟩
    rw [List.mem_singleton.mp only] at billing
    exact absurd billing (by decide)

theorem serves_updateSettings (caller : Caller) (flag : Option Bool) (locale :
    LocaleUpdateRequest) (body : Billing (Option String)) :
    Serves (.updateSettings caller flag locale body) s (step s (.updateSettings caller flag locale body)) := by
  unfold step serve
  dsimp only
  split
  · exact .idle _ s
  · next allowed =>
    rw [after_discarded]
    cases checks : payloadOf body with
    | error e => exact after_of_error (run_updateSettings_error checks) ▸ .idle _ s
    | ok billing =>
      obtain ⟨t, run, rows, told⟩ := updateSettings_spec s (some caller.id) flag billing locale.valid
      rw [← run_updateSettings checks] at run
      rw [after_of_ok run]
      have source : Writable billing ∧ (billing.isGiven = true → body.isGiven = true) := by
        unfold payloadOf at checks
        split at checks
        · next given => exact ⟨.checked checks, fun _ => given⟩
        · next absent =>
          obtain rfl := Except.ok.inj checks
          exact ⟨.empty (Bool.not_eq_true _ ▸ absent), id⟩
      refine ⟨flag, locale.toLocaleUpdate, billing, locale.valid, source.1, rows, Told.of_notNames told ?_⟩
      rintro ⟨key, mem, named⟩
      have given : billing.isGiven = true := by
        rw [← Bool.not_eq_false]
        intro absent
        rw [touched, absent, if_neg Bool.false_ne_true, List.append_nil] at named
        revert key
        decide
      exact (Bool.not_eq_false _).mp fun may => allowed ⟨source.2 given, may⟩

theorem serves_persistSignupCompanyProfile (tenantName url : String) (user : Option ℕ) :
    Serves (.persistSignupCompanyProfile tenantName url user) s (step s (.persistSignupCompanyProfile tenantName url user)) :=
      by
  unfold step serve persistSignupCompanyProfile
  dsimp only
  split
  · exact .idle _ s
  · rw [after_discarded, after_of_ok (run_updateBillingProfile s user _)]
    exact Serves.profile (r := .persistSignupCompanyProfile tenantName url user) (.signup tenantName url) rfl

/-- Whatever a request changes, the log tells it. -/
theorem serves_step (s : State) (r : Request) : Serves r s (step s r) := by
  cases r with
  | updateBillingSettings caller body => exact serves_updateBillingSettings caller body
  | updateLocaleSettings caller body => exact .idle _ s
  | updateTwoFactorSettings caller flag => exact serves_updateTwoFactorSettings caller flag
  | updateSettings caller flag locale body => exact serves_updateSettings caller flag locale body
  | persistSignupCompanyProfile tenantName url user => exact serves_persistSignupCompanyProfile tenantName url user

theorem told_run (requests : List Request) (s : State) : Told
    (fun e => ∃ r ∈ requests, r.Wrote e) s (Runs.final step s requests) := by
  induction requests generalizing s with
  | nil => exact .refl s
  | cons r requests ih =>
    obtain ⟨-, -, -, -, -, -, told⟩ := serves_step s r
    exact (told.mono fun e wrote => ⟨r, List.mem_cons_self, wrote⟩).trans
      ((ih (step s r)).mono fun e ⟨r', mem, wrote⟩ => ⟨r', List.mem_cons_of_mem _ mem, wrote⟩)

end

/-- In every run of requests, each change of a setting is named by an entry of the log, each entry tells just what changed where it was
    written, those of the second factor give its values one after another,
      and billing keys are named for those only who may edit
    them. -/
theorem settings_trail (requests : List Request) (s : State) : ∃ new, (Runs.final step s requests).log = s.log ++ new ∧
    (∀ key, snapshot (Runs.final step s requests).rows key ≠ snapshot s.rows key → ∃ e ∈ new, e.Names key) ∧
    (∀ before e after, new = before ++ e :: after → ∃ rows rows', Trail.Accounts snapshot Tells s.rows before rows ∧
      Tells rows e rows' ∧ Trail.Accounts snapshot Tells rows' after (Runs.final step s requests).rows) ∧
    Trail.Linked (isTwoFactorEnabled s.rows) (new.filterMap AuditEntry.values)
      (isTwoFactorEnabled (Runs.final step s requests).rows) ∧
    ∀ e ∈ new, ∃ r ∈ requests, r.Wrote e := by
  obtain ⟨new, log, accounts, wrote⟩ := told_run requests s
  have flags : Trail.Accounts (fun rows (_ : Unit) => isTwoFactorEnabled rows) Tells s.rows new
    (Runs.final step s requests).rows :=
    accounts.mono fun same _ => Value.flag.inj (same .twoFactorEnabled)
  refine ⟨new, log, fun key => accounts.named fun k tells => (tells.names k).mpr, fun before e after =>
    accounts.split, ?_, wrote⟩
  refine flags.linked (k := ()) (fun tells none => tells.silent none) fun tells given => ?_
  obtain ⟨rfl, differ⟩ := tells.values _ given
  exact ⟨rfl, rfl, differ⟩

/-! ### What is stored -/

/-- What an invoice takes of a billing profile. -/
structure Invoiceable (profile : Billing String) : Prop where
  taxId : isValidHuTaxId profile.billingTaxId = true
  normal : String.ofList (normalizeHuTaxId profile.billingTaxId) = profile.billingTaxId
  companyName : profile.billingCompanyName ≠ ""
  addressLine : profile.billingAddressLine ≠ ""
  postalCode : profile.billingPostalCode ≠ ""
  city : profile.billingCity ≠ ""
  country : profile.billingCountry = "HU"

/-- Texts fit their column, the locale is an allowed one, and a profile with a tax id is complete. -/
structure Proper (rows : Rows) : Prop where
  fits : ∀ key value, rows key = some value → value.length ≤ 500
  timezone : ∀ v ∈ rows .timezone, v ∈ allowedTimezones
  dateFormat : ∀ v ∈ rows .dateFormat, v ∈ allowedDateFormats
  timeFormat : ∀ v ∈ rows .timeFormat, v ∈ allowedTimeFormats
  company : (getBillingProfile rows).billingCustomerType = "company"
  complete : (getBillingProfile rows).billingTaxId = "" ∨ Invoiceable (getBillingProfile rows)

section
variable {rows : Rows} {billing body : Billing (Option String)} {value : String}

theorem toList_stripped (value : String) : (stripped value).toList = Text.strip value.toList := String.toList_ofList

theorem stripped_stripped (value : String) : stripped (stripped value) = stripped value := by
  rw [stripped, toList_stripped, Text.strip_strip]
  rfl

theorem toList_textSetting (value : String) : (textSetting value).toList = (Text.strip value.toList).take 500 :=
    String.toList_ofList

theorem length_textSetting (value : String) : (textSetting value).length ≤ 500 := by
  rw [textSetting, String.length_ofList, List.length_take]
  exact Nat.min_le_left ..

theorem textSetting_of_short (plain : stripped value = value) (short : value.length ≤ 500) : textSetting value = value := by
  rw [textSetting, ← toList_stripped, plain, List.take_of_length_le (String.length_toList ▸ short), String.ofList_toList]

/-- What is not blank is stored as something. -/
theorem textSetting_ne (filled : stripped value ≠ "") : textSetting (stripped value) ≠ "" := by
  intro empty
  have none : (stripped value).toList.take 500 = [] := by
    have list := congrArg String.toList empty
    rw [toList_textSetting, toList_stripped, Text.strip_strip] at list
    rw [toList_stripped]
    exact list
  rcases List.take_eq_nil_iff.mp none with zero | nil
  · cases zero
  · exact filled (String.toList_injective nil)

/-- The stored form of a tax id is short and has no space. -/
theorem textSetting_normalizeHuTaxId (value : String) :
    textSetting (String.ofList (normalizeHuTaxId value)) = String.ofList (normalizeHuTaxId value) := by
  have decimals : ∀ c ∈ digitsOnly value, Text.isDecimal c = true := by
    rw [digitsOnly_eq]
    exact fun c mem => (List.mem_filter.mp (List.mem_of_mem_take mem)).2
  have few : (digitsOnly value).length ≤ 11 := by
    rw [digitsOnly_eq, List.length_take]
    exact Nat.min_le_left ..
  have chars : ∀ c ∈ normalizeHuTaxId value, c = '-' ∨ c ∈ digitsOnly value := by
    intro c mem
    unfold normalizeHuTaxId format at mem
    have taken : ∀ n m : ℕ, ((digitsOnly value).drop n).take m ⊆ digitsOnly value :=
      fun n m d mem => List.mem_of_mem_drop (List.mem_of_mem_take mem)
    grind
  have short : (normalizeHuTaxId value).length ≤ 500 := by
    unfold normalizeHuTaxId format
    grind
  refine textSetting_of_short ?_ (String.length_ofList ▸ short)
  rw [stripped, String.toList_ofList, Text.strip_of_forall]
  intro c mem
  rcases chars c mem with rfl | digit
  · decide
  · exact (space_of_isDecimal (decimals c digit)).1

theorem validate_ok (checks : validate body = .ok billing) :
    (strippedOr body.billingCustomerType = "" ∨ strippedOr body.billingCustomerType = "company") ∧
      (∃ url, validateReviewUrl body.googleReviewUrl = .ok url ∧ billing = normalized body url) ∧ "" ∉ required body ∧
      isValidHuTaxId (body.billingTaxId.getD "") = true := by
  unfold validate at checks
  by_cases company : (if strippedOr body.billingCustomerType = "" then "company" else strippedOr body.billingCustomerType) =
    "company"
  · rw [if_neg (not_not.mpr company)] at checks
    cases link : validateReviewUrl body.googleReviewUrl with
    | error e =>
      rw [link] at checks
      cases checks
    | ok url =>
      rw [link] at checks
      dsimp only at checks
      split_ifs at checks with blank taxId
      refine ⟨?_, ⟨url, rfl, (Except.ok.inj checks).symm⟩, blank, (Bool.not_eq_false _).mp taxId⟩
      split_ifs at company with none
      · exact .inl none
      · exact .inr company
  · rw [if_pos company] at checks
    cases checks

/-- What is read of a profile that has been checked. -/
theorem getBillingProfile_normalized (body : Billing (Option String)) (url : Option String) (rows : Rows) :
    getBillingProfile ((normalized body url).written rows) =
      { billingCustomerType := "company"
        billingFullName := ""
        billingCompanyName := textSetting (strippedOr body.billingCompanyName)
        billingTaxId := String.ofList (normalizeHuTaxId (body.billingTaxId.getD ""))
        billingAddressLine := textSetting (strippedOr body.billingAddressLine)
        billingPostalCode := textSetting (strippedOr body.billingPostalCode)
        billingCity := textSetting (strippedOr body.billingCity)
        billingRegion := ""
        billingCountry := "HU"
        googleReviewUrl := (url.map textSetting).getD (getTextSetting rows .googleReviewUrl) } := by
  have read : ∀ key given, (key, given) ∈ (normalized body url).toList →
      getTextSetting ((normalized body url).written rows) key = (given.map textSetting).getD (getTextSetting rows key) := by
    intro key given mem
    unfold getTextSetting
    rw [Billing.written_of_mem mem]
    cases given <;> rfl
  have written : ∀ key value, (key, some value) ∈ (normalized body url).toList →
      getTextSetting ((normalized body url).written rows) key = textSetting value :=
        fun key value mem => read key (some value) mem
  have constants : textSetting "company" = "company" ∧ textSetting "" = "" ∧ textSetting fixedBillingCountry = "HU" := by decide
  unfold getBillingProfile
  rw [written .billingCustomerType "company" (by simp [normalized, Billing.toList]),
    written .billingFullName "" (by simp [normalized, Billing.toList]),
    written .billingCompanyName (strippedOr body.billingCompanyName) (by simp [normalized, Billing.toList]),
    written .billingTaxId (String.ofList (normalizeHuTaxId (body.billingTaxId.getD ""))) (by simp [normalized, Billing.toList]),
    written .billingAddressLine (strippedOr body.billingAddressLine) (by simp [normalized, Billing.toList]),
    written .billingPostalCode (strippedOr body.billingPostalCode) (by simp [normalized, Billing.toList]),
    written .billingCity (strippedOr body.billingCity) (by simp [normalized, Billing.toList]),
    written .billingRegion "" (by simp [normalized, Billing.toList]),
    written .billingCountry fixedBillingCountry (by simp [normalized, Billing.toList]),
    read .googleReviewUrl url (by simp [normalized, Billing.toList]),
    constants.1, constants.2.1, constants.2.2, textSetting_normalizeHuTaxId, if_neg (by decide)]

theorem fits_putText (fits : ∀ key value, rows key = some value → value.length ≤ 500) (field : Key × Option String) :
    ∀ key value, putText rows field key = some value → value.length ≤ 500 := by
  intro key value stored
  cases given : field.2 with
  | none =>
    rw [putText, given] at stored
    exact fits key value stored
  | some v =>
    simp only [putText, given] at stored
    by_cases here : key = field.1
    · subst here
      rw [Function.update_self] at stored
      exact Option.some.inj stored ▸ length_textSetting v
    · rw [Function.update_of_ne here] at stored
      exact fits key value stored

theorem fits_written (fits : ∀ key value, rows key = some value → value.length ≤ 500) (billing : Billing (Option String)) :
    ∀ key value, billing.written rows key = some value → value.length ≤ 500 := by
  unfold Billing.written
  generalize billing.toList = fields
  induction fields generalizing rows with
  | nil => exact fits
  | cons field fields ih => exact ih (fits_putText fits field)

/-- A checked profile can stand on an invoice. -/
theorem invoiceable_written (checks : validate body = .ok billing) (rows : Rows) :
    (getBillingProfile (billing.written rows)).billingCustomerType = "company" ∧
      Invoiceable (getBillingProfile (billing.written rows)) := by
  obtain ⟨-, ⟨url, -, rfl⟩, filled, taxId⟩ := validate_ok checks
  unfold required at filled
  simp only [List.mem_cons, List.not_mem_nil, or_false, not_or, eq_comm (a := "")] at filled
  obtain ⟨companyName, -, postalCode, city, addressLine⟩ := filled
  have nonblank : ∀ {o : Option String}, strippedOr o ≠ "" → textSetting (strippedOr o) ≠ "" :=
    fun filled => textSetting_ne filled
  have same := digitsOnly_normalize (body.billingTaxId.getD "")
  rw [getBillingProfile_normalized]
  refine ⟨rfl, ?_, ?_, nonblank companyName, nonblank addressLine, nonblank postalCode, nonblank city, rfl⟩
  · rw [← taxId, isValidHuTaxId, isValidHuTaxId, same]
  · rw [normalizeHuTaxId, same]
    rfl

/-- A signup leaves the tax id, and names its company if it names one at all. -/
theorem complete_signup (complete : (getBillingProfile rows).billingTaxId = "" ∨ Invoiceable (getBillingProfile rows))
    (tenantName url : String) : (getBillingProfile ((signupProfile (stripped tenantName) url).written rows)).billingTaxId = "" ∨
      Invoiceable (getBillingProfile ((signupProfile (stripped tenantName) url).written rows)) := by
  have kept : ∀ key, (key, none) ∈ (signupProfile (stripped tenantName) url).toList →
      getTextSetting ((signupProfile (stripped tenantName) url).written rows) key = getTextSetting rows key := by
    intro key mem
    unfold getTextSetting
    rw [Billing.written_of_mem mem]
    rfl
  have name : getTextSetting rows .billingCompanyName ≠ "" →
      getTextSetting ((signupProfile (stripped tenantName) url).written rows) .billingCompanyName ≠ "" := by
    intro filled
    have mem : (.billingCompanyName, orNone (stripped tenantName)) ∈ (signupProfile (stripped tenantName) url).toList := by
      simp [signupProfile, Billing.toList]
    unfold getTextSetting
    rw [Billing.written_of_mem mem]
    unfold orNone
    split
    · exact filled
    · next given => exact textSetting_ne given
  unfold getBillingProfile at complete ⊢
  rw [kept .billingTaxId (by simp [signupProfile, Billing.toList]),
    kept .billingAddressLine (by simp [signupProfile, Billing.toList]),
    kept .billingPostalCode (by simp [signupProfile, Billing.toList]),
      kept .billingCity (by simp [signupProfile, Billing.toList]),
    kept .billingCountry (by simp [signupProfile, Billing.toList])]
  rcases complete with blank | invoiceable
  · exact .inl blank
  · exact .inr { invoiceable with companyName := name invoiceable.companyName }

theorem getBillingProfile_congr {rows rows' : Rows} (same : ∀ key ∈ Key.billing, rows' key = rows key) :
    getBillingProfile rows' = getBillingProfile rows := by
  have text : ∀ key ∈ Key.billing, getTextSetting rows' key = getTextSetting rows key := fun key mem => by
    rw [getTextSetting, getTextSetting, same key mem]
  unfold getBillingProfile
  rw [text .billingCustomerType (by decide), text .billingFullName (by decide), text .billingCompanyName (by decide),
    text .billingTaxId (by decide), text .billingAddressLine (by decide), text .billingPostalCode (by decide),
    text .billingCity (by decide), text .billingRegion (by decide), text .billingCountry (by decide),
    text .googleReviewUrl (by decide)]

theorem Proper.flagOf (proper : Proper rows) (flag : Option Bool) : Proper (flagOf flag rows) := by
  have kept : ∀ key, key ≠ .twoFactorEnabled → Service.flagOf flag rows key = rows key := fun key other => flagOf_of_ne other
  have profile := getBillingProfile_congr fun key mem => kept key fun flag => by subst flag; exact absurd mem (by decide)
  refine ⟨?_, ?_, ?_, ?_, profile ▸ proper.company, profile ▸ proper.complete⟩
  · intro key value stored
    by_cases own : key = .twoFactorEnabled
    · subst own
      cases flag with
      | none => exact proper.fits _ value stored
      | some enabled =>
        simp only [Service.flagOf, flagged, Function.update_self] at stored
        obtain rfl := Option.some.inj stored
        cases enabled <;> decide
    · exact proper.fits key value (kept key own ▸ stored)
  · exact kept .timezone (by decide) ▸ proper.timezone
  · exact kept .dateFormat (by decide) ▸ proper.dateFormat
  · exact kept .timeFormat (by decide) ▸ proper.timeFormat

theorem putListed_cases {key here : Key} {allowed : List String} {given : Option String} (passed : passes allowed given)
    (stored : putListed rows here given key = some value) : rows key = some value ∨ key = here ∧ value ∈ allowed := by
  cases given with
  | none => exact .inl stored
  | some v =>
    by_cases own : key = here
    · subst own
      simp only [putListed, Function.update_self] at stored
      exact .inr ⟨rfl, Option.some.inj stored ▸ passed v rfl⟩
    · exact .inl ((putListed_of_ne own).symm.trans stored)

theorem written_cases {locale : LocaleUpdate} (valid : locale.Valid) {key :
    Key} (stored : locale.written rows key = some value) :
    rows key = some value ∨ key = .timezone ∧ value ∈ allowedTimezones ∨ key = .dateFormat ∧ value ∈ allowedDateFormats ∨
      key = .timeFormat ∧ value ∈ allowedTimeFormats := by
  unfold LocaleUpdate.written at stored
  rw [if_pos valid.timezone, if_pos valid.dateFormat, if_pos valid.timeFormat] at stored
  rcases putListed_cases valid.timeFormat stored with stored | time
  · rcases putListed_cases valid.dateFormat stored with stored | date
    · rcases putListed_cases valid.timezone stored with stored | zone
      · exact .inl stored
      · exact .inr (.inl zone)
    · exact .inr (.inr (.inl date))
  · exact .inr (.inr (.inr time))

theorem Proper.locale (proper : Proper rows) {locale : LocaleUpdate} (valid : locale.Valid) : Proper (locale.written rows) := by
  have profile : getBillingProfile (locale.written rows) = getBillingProfile rows :=
    getBillingProfile_congr fun key mem => LocaleUpdate.written_of_notMem fun own => by
      revert key
      decide
  have short : ∀ v, v ∈ allowedTimezones ∨ v ∈ allowedDateFormats ∨ v ∈ allowedTimeFormats → v.length ≤ 500 := by
    have all : ∀ v ∈ allowedTimezones ++ allowedDateFormats ++ allowedTimeFormats, v.length ≤ 500 := by decide
    intro v listed
    exact all v (by simpa [or_assoc] using listed)
  refine ⟨?_, ?_, ?_, ?_, profile ▸ proper.company, profile ▸ proper.complete⟩
  · intro key value stored
    rcases written_cases valid stored with old | ⟨-, zone⟩ | ⟨-, date⟩ | ⟨-, time⟩
    · exact proper.fits key value old
    · exact short value (.inl zone)
    · exact short value (.inr (.inl date))
    · exact short value (.inr (.inr time))
  all_goals
    intro v stored
    rcases written_cases valid stored with old | ⟨own, listed⟩ | ⟨own, listed⟩ | ⟨own, listed⟩
  · exact proper.timezone v old
  · exact listed
  · cases own
  · cases own
  · exact proper.dateFormat v old
  · cases own
  · exact listed
  · cases own
  · exact proper.timeFormat v old
  · cases own
  · cases own
  · exact listed

theorem Proper.profile (proper : Proper rows) (writable : Writable billing) : Proper (billing.written rows) := by
  have kept : ∀ key, key ∉ Key.billing → billing.written rows key = rows key := fun key other => Billing.written_of_notMem other
  have profile : (getBillingProfile (billing.written rows)).billingCustomerType = "company" ∧
      ((getBillingProfile (billing.written rows)).billingTaxId = "" ∨ Invoiceable (getBillingProfile (billing.written rows))) :=
        by
    cases writable with
    | empty absent =>
      rw [Billing.written_of_not_given absent]
      exact ⟨proper.company, proper.complete⟩
    | checked checks => exact (invoiceable_written checks rows).imp_right .inr
    | signup tenantName url =>
      refine ⟨?_, complete_signup proper.complete tenantName _⟩
      have type : getTextSetting ((signupProfile (stripped tenantName) (normalizeGoogleReviewUrl url)).written rows)
          .billingCustomerType = getTextSetting rows .billingCustomerType := by
        have mem : (.billingCustomerType, none) ∈ (signupProfile (stripped tenantName) (normalizeGoogleReviewUrl url)).toList :=
          by
          simp [signupProfile, Billing.toList]
        unfold getTextSetting
        rw [Billing.written_of_mem mem]
        rfl
      have company := proper.company
      unfold getBillingProfile at company ⊢
      dsimp only at company ⊢
      rw [type]
      exact company
  exact {
    fits := fits_written proper.fits billing
    timezone := kept .timezone (by decide) ▸ proper.timezone
    dateFormat := kept .dateFormat (by decide) ▸ proper.dateFormat
    timeFormat := kept .timeFormat (by decide) ▸ proper.timeFormat
    company := profile.1
    complete := profile.2 }

theorem Proper.step {s : State} (proper : Proper s.rows) (r : Request) : Proper (step s r).rows := by
  obtain ⟨flag, locale, billing, valid, writable, rows, -⟩ := serves_step s r
  rw [rows]
  exact ((proper.flagOf flag).locale valid).profile writable

theorem proper_fresh : Proper fun _ => none := by
  refine ⟨?_, ?_, ?_, ?_, rfl, .inl rfl⟩
  all_goals
    intros
    contradiction

end

/-- In every run of requests from a tenant without settings, the texts fit their columns, the locale is an allowed one, and a
    billing profile that has a tax id at all has a valid one and all that an invoice needs. -/
theorem settings_proper (requests : List Request) (log : List AuditEntry) :
    Proper (Runs.final step { rows := fun _ => none, log } requests).rows :=
  Runs.final_kept (fun s : State => Proper s.rows) proper_fresh fun _ r proper => proper.step r

/-! ### Saving what is shown -/

/-- A profile with all its fields, as a request. -/
def whole (profile : Billing String) : Billing (Option String) where
  billingCustomerType := some profile.billingCustomerType
  billingFullName := some profile.billingFullName
  billingCompanyName := some profile.billingCompanyName
  billingTaxId := some profile.billingTaxId
  billingAddressLine := some profile.billingAddressLine
  billingPostalCode := some profile.billingPostalCode
  billingCity := some profile.billingCity
  billingRegion := some profile.billingRegion
  billingCountry := some profile.billingCountry
  googleReviewUrl := some profile.googleReviewUrl

/-- The texts that the user has typed begin and end without a space. -/
structure Trimmed (profile : Billing String) : Prop where
  companyName : stripped profile.billingCompanyName = profile.billingCompanyName
  addressLine : stripped profile.billingAddressLine = profile.billingAddressLine
  postalCode : stripped profile.billingPostalCode = profile.billingPostalCode
  city : stripped profile.billingCity = profile.billingCity

section
variable {rows : Rows} {body billing : Billing (Option String)} {value : String}

theorem length_stripped_le (value : String) : (stripped value).toList.length ≤ value.toList.length := by
  rw [toList_stripped]
  exact (Text.strip_sublist _).length_le

/-- A text that storing does not change. -/
theorem textSetting_eq_self : textSetting value = value ↔ stripped value = value ∧ value.length ≤ 500 := by
  constructor
  · intro same
    have list := congrArg String.toList same
    rw [toList_textSetting] at list
    have sub : ((Text.strip value.toList).take 500).Sublist (Text.strip value.toList) := List.take_sublist ..
    have long : (Text.strip value.toList).length ≤ ((Text.strip value.toList).take 500).length := by
      rw [list]
      exact (Text.strip_sublist _).length_le
    have whole := sub.eq_of_length_le long
    refine ⟨?_, same ▸ length_textSetting value⟩
    rw [stripped, ← whole, list, String.ofList_toList]
  · exact fun ⟨plain, short⟩ => textSetting_of_short plain short

theorem textSetting_stripped (value : String) : textSetting (stripped value) = textSetting value := by
  rw [textSetting, toList_stripped, Text.strip_strip]
  rfl

theorem normalizeGoogleReviewUrl_sublist (value : String) :
    (normalizeGoogleReviewUrl value).toList.Sublist (Text.strip value.toList) := by
  unfold normalizeGoogleReviewUrl rstripSlash
  rw [String.toList_ofList]
  have kept := (List.dropWhile_sublist (· = '/') (l := (Text.strip value.toList).reverse)).reverse
  rwa [List.reverse_reverse] at kept

/-- A link that normalising does not change has no space at its ends. -/
theorem stripped_of_normal (normal : normalizeGoogleReviewUrl value = value) : stripped value = value := by
  have sub := normalizeGoogleReviewUrl_sublist value
  rw [normal] at sub
  rw [stripped, ← sub.eq_of_length_le (Text.strip_sublist _).length_le, String.ofList_toList]

/-- A link that the whole way to the row does not change. -/
theorem textSetting_normalize_eq_self : textSetting (normalizeGoogleReviewUrl value) = value ↔
    normalizeGoogleReviewUrl value = value ∧ value.length ≤ 500 := by
  constructor
  · intro same
    have list := congrArg String.toList same
    rw [toList_textSetting] at list
    have sub : ((Text.strip (normalizeGoogleReviewUrl value).toList).take 500).Sublist
      (normalizeGoogleReviewUrl value).toList :=
      (List.take_sublist ..).trans (Text.strip_sublist _)
    have long : (normalizeGoogleReviewUrl value).toList.length ≤
        ((Text.strip (normalizeGoogleReviewUrl value).toList).take 500).length := by
      rw [list]
      exact ((normalizeGoogleReviewUrl_sublist value).trans (Text.strip_sublist _)).length_le
    exact ⟨String.toList_injective ((sub.eq_of_length_le long).symm.trans list), same ▸ length_textSetting _⟩
  · rintro ⟨normal, short⟩
    rw [normal]
    exact textSetting_of_short (stripped_of_normal normal) short

/-- What is stored of a text that is not blank is not blank. -/
theorem stripped_textSetting_ne (filled : stripped value ≠ "") : stripped (textSetting (stripped value)) ≠ "" := by
  intro blank
  have none := congrArg String.toList blank
  rw [toList_stripped, toList_textSetting, toList_stripped, Text.strip_strip] at none
  cases at_first : value.toList.dropWhile Text.isSpace with
  | nil =>
    refine filled ?_
    rw [stripped, Text.strip, at_first]
    rfl
  | cons x xs =>
    have stays : Text.isSpace x = false := by
      have head := List.head_dropWhile_not Text.isSpace (l := value.toList) (by simp [at_first])
      simpa only [at_first, List.head_cons, Bool.not_eq_true] using head
    rw [Text.strip_of_dropWhile at_first stays, List.take_cons (by decide), Text.strip_of_dropWhile
      (List.dropWhile_cons_of_neg (by simp [stays])) stays] at none
    cases none

/-- What a checked profile is after it was stored. -/
structure Saved (profile : Billing String) : Prop where
  type : profile.billingCustomerType = "company"
  fullName : profile.billingFullName = ""
  region : profile.billingRegion = ""
  country : profile.billingCountry = "HU"
  taxId : isValidHuTaxId profile.billingTaxId = true
  normal : String.ofList (normalizeHuTaxId profile.billingTaxId) = profile.billingTaxId
  filled : "" ∉ [stripped profile.billingCompanyName, stripped profile.billingTaxId, stripped profile.billingPostalCode,
    stripped profile.billingCity, stripped profile.billingAddressLine]
  short : ∀ v ∈ [profile.billingCompanyName, profile.billingAddressLine, profile.billingPostalCode, profile.billingCity],
    v.length ≤ 500

theorem saved_written (checks : validate body = .ok billing) (rows : Rows) :
    Saved (getBillingProfile (billing.written rows)) := by
  have invoiceable := (invoiceable_written checks rows).2
  obtain ⟨-, ⟨url, -, rfl⟩, filled, taxId⟩ := validate_ok checks
  unfold required at filled
  simp only [List.mem_cons, List.not_mem_nil, or_false, not_or, eq_comm (a := "")] at filled
  obtain ⟨companyName, taxIdFilled, postalCode, city, addressLine⟩ := filled
  have valid := invoiceable.taxId
  have normal := invoiceable.normal
  rw [getBillingProfile_normalized] at valid normal ⊢
  refine ⟨rfl, rfl, rfl, rfl, valid, normal, ?_, ?_⟩
  · have number : stripped (String.ofList (normalizeHuTaxId (body.billingTaxId.getD ""))) ≠ "" := by
      intro blank
      rw [(textSetting_eq_self.mp (textSetting_normalizeHuTaxId _)).1] at blank
      dsimp only at valid
      rw [blank] at valid
      exact absurd valid (by decide)
    simp only [List.mem_cons, List.not_mem_nil, or_false, not_or, eq_comm (a := "")]
    exact ⟨stripped_textSetting_ne companyName, number, stripped_textSetting_ne postalCode, stripped_textSetting_ne city,
      stripped_textSetting_ne addressLine⟩
  · intro v mem
    simp only [List.mem_cons, List.not_mem_nil, or_false] at mem
    rcases mem with rfl | rfl | rfl | rfl <;> exact length_textSetting _

theorem validate_whole {profile : Billing String} (saved : Saved profile) : validate (whole profile) =
    match validateReviewUrl (some profile.googleReviewUrl) with
    | .error e => .error e
    | .ok url => .ok (normalized (whole profile) url) := by
  have type : strippedOr (whole profile).billingCustomerType = "company" := by
    change stripped profile.billingCustomerType = "company"
    rw [saved.type]
    decide
  have filled : "" ∉ required (whole profile) := saved.filled
  have taxId : ¬isValidHuTaxId ((whole profile).billingTaxId.getD "") = false := (Bool.not_eq_false _).mpr saved.taxId
  have link : (whole profile).googleReviewUrl = some profile.googleReviewUrl := rfl
  unfold validate
  rw [type, link]
  dsimp only
  rw [if_neg (by decide : ¬(if "company" = "" then "company" else "company") ≠ "company")]
  cases validateReviewUrl (some profile.googleReviewUrl) with
  | error e => rfl
  | ok url =>
    dsimp only
    rw [if_neg filled, if_neg taxId]

/-- The profile that is read after the one that was shown has been stored. -/
theorem getBillingProfile_whole {profile : Billing String} (saved : Saved profile) (url : String) (rows : Rows) :
    getBillingProfile ((normalized (whole profile) (some url)).written rows) = profile ↔
      Trimmed profile ∧ textSetting url = profile.googleReviewUrl := by
  have self : ∀ v ∈ [profile.billingCompanyName, profile.billingAddressLine, profile.billingPostalCode, profile.billingCity],
      textSetting (strippedOr (some v)) = v ↔ stripped v = v := by
    intro v mem
    change textSetting (stripped v) = v ↔ _
    rw [textSetting_stripped, textSetting_eq_self, and_iff_left (saved.short v mem)]
  have name := self profile.billingCompanyName (by simp)
  have address := self profile.billingAddressLine (by simp)
  have postal := self profile.billingPostalCode (by simp)
  have city := self profile.billingCity (by simp)
  rw [getBillingProfile_normalized, Billing.ext_iff]
  constructor
  · rintro ⟨-, -, same₁, -, same₂, same₃, same₄, -, -, link⟩
    exact ⟨⟨name.mp same₁, address.mp same₂, postal.mp same₃, city.mp same₄⟩, link⟩
  · rintro ⟨trimmed, link⟩
    exact ⟨saved.type.symm, saved.fullName.symm, name.mpr trimmed.companyName, saved.normal, address.mpr trimmed.addressLine,
      postal.mpr trimmed.postalCode, city.mpr trimmed.city, saved.region.symm, saved.country.symm, link⟩

theorem snapshot_eq_iff {rows' : Rows} (kept : ∀ key, key ∉ Key.billing → rows' key = rows key) :
    (∀ key, snapshot rows' key = snapshot rows key) ↔ getBillingProfile rows' = getBillingProfile rows := by
  constructor
  · intro same
    rw [Billing.ext_iff]
    exact ⟨Value.text.inj (same .billingCustomerType), Value.text.inj (same .billingFullName),
      Value.text.inj (same .billingCompanyName), Value.text.inj (same .billingTaxId), Value.text.inj (same .billingAddressLine),
      Value.text.inj (same .billingPostalCode), Value.text.inj (same .billingCity), Value.text.inj (same .billingRegion),
      Value.text.inj (same .billingCountry), Value.text.inj (same .googleReviewUrl)⟩
  · intro same key
    by_cases billing : key ∈ Key.billing
    · cases key with
      | twoFactorEnabled => exact absurd billing (by decide)
      | timezone => exact absurd billing (by decide)
      | dateFormat => exact absurd billing (by decide)
      | timeFormat => exact absurd billing (by decide)
      | _ => simp only [snapshot, same]
    · exact snapshot_congr (kept key billing)

theorem run_discarded {α : Type} {call : ServiceM α} {s t : State} {a : α} (run : call.run s = .ok a t) :
    (discarded call).run s = .ok () t := by
  unfold discarded
  rw [EStateM.run_bind, run]
  rfl

theorem run_discarded_error {α : Type} {call : ServiceM α} {s t : State} {e : SettingsError} (run : call.run s = .error e t) :
    (discarded call).run s = .error e t := by
  unfold discarded
  rw [EStateM.run_bind, run]

/-- A profile that was let through has been checked. -/
theorem accepted_cases {s t : State} {caller : Caller}
    (accepted : (serve (.updateBillingSettings caller body)).run s = .ok () t) :
    caller.mayEditBilling = true ∧ ∃ billing, validate body = .ok billing ∧ t.rows = billing.written s.rows := by
  unfold serve at accepted
  dsimp only at accepted
  split at accepted
  · cases accepted
  · next may =>
    refine ⟨(Bool.not_eq_false _).mp may, ?_⟩
    cases checks : validate body with
    | error e =>
      rw [run_discarded_error (run_updateBillingSettings_error checks)] at accepted
      cases accepted
    | ok billing =>
      rw [run_discarded (run_updateBillingSettings checks)] at accepted
      obtain rfl : _ = t := EStateM.Result.ok.inj accepted |>.2
      exact ⟨billing, rfl, State.audited_rows ..⟩

theorem normalizeGoogleReviewUrl_empty : normalizeGoogleReviewUrl "" = "" := by
  decide

/-- The link passes again, and is stored as it is. -/
theorem link_settled_iff : (∃ url, validateReviewUrl (some value) = .ok (some url) ∧ textSetting url = value) ↔
    value = "" ∨ isValidGoogleReviewUrl value = true ∧ value.length ≤ 500 := by
  unfold validateReviewUrl
  dsimp only
  constructor
  · rintro ⟨url, passed, same⟩
    split_ifs at passed with refused
    obtain rfl := Option.some.inj (Except.ok.inj passed)
    obtain ⟨normal, short⟩ := textSetting_normalize_eq_self.mp same
    rw [normal, normal] at refused
    by_cases empty : value = ""
    · exact .inl empty
    · exact .inr ⟨(Bool.not_eq_false _).mp fun invalid => refused ⟨empty, invalid⟩, short⟩
  · intro settled
    have kept : normalizeGoogleReviewUrl value = value ∧ value.length ≤ 500 := by
      rcases settled with rfl | ⟨valid, short⟩
      · exact ⟨normalizeGoogleReviewUrl_empty, by decide⟩
      · exact ⟨normalize_valid valid, short⟩
    have passes : ¬(normalizeGoogleReviewUrl value ≠ "" ∧
        isValidGoogleReviewUrl (normalizeGoogleReviewUrl (normalizeGoogleReviewUrl value)) = false) := by
      rw [kept.1, kept.1]
      rintro ⟨given, invalid⟩
      rcases settled with empty | ⟨valid, -⟩
      · exact given empty
      · rw [valid] at invalid
        cases invalid
    exact ⟨normalizeGoogleReviewUrl value, if_neg passes, textSetting_normalize_eq_self.mpr kept⟩

end

/-- Once a billing profile was accepted, sending back what is shown is accepted and changes nothing, in the settings or in
    the log, just if no text was cut behind a space and the link is still one. -/
theorem resave_iff (s t : State) (caller : Caller) (body : Billing (Option String))
    (accepted : (serve (.updateBillingSettings caller body)).run s = .ok () t) :
    (∃ u, (serve (.updateBillingSettings caller (whole (getBillingProfile t.rows)))).run t = .ok () u ∧
        (∀ key, snapshot u.rows key = snapshot t.rows key) ∧ u.log = t.log) ↔
      Trimmed (getBillingProfile t.rows) ∧ ((getBillingProfile t.rows).googleReviewUrl = "" ∨
        isValidGoogleReviewUrl (getBillingProfile t.rows).googleReviewUrl = true ∧
          (getBillingProfile t.rows).googleReviewUrl.length ≤ 500) := by
  obtain ⟨may, billing, checks, rows⟩ := accepted_cases accepted
  have saved : Saved (getBillingProfile t.rows) := rows ▸ saved_written checks s.rows
  have again := validate_whole saved
  rw [← link_settled_iff]
  constructor
  · rintro ⟨u, second, same, -⟩
    obtain ⟨-, billing', checks', rows'⟩ := accepted_cases second
    rw [again] at checks'
    cases link : validateReviewUrl (some (getBillingProfile t.rows).googleReviewUrl) with
    | error e =>
      rw [link] at checks'
      cases checks'
    | ok given =>
      rw [link] at checks'
      obtain rfl := Except.ok.inj checks'
      obtain ⟨url, rfl⟩ : ∃ url, given = some url := by
        unfold validateReviewUrl at link
        dsimp only at link
        split_ifs at link
        exact ⟨_, (Except.ok.inj link).symm⟩
      have profile := (snapshot_eq_iff fun key other => rows' ▸ Billing.written_of_notMem other).mp same
      rw [rows'] at profile
      obtain ⟨trimmed, stored⟩ := (getBillingProfile_whole saved url t.rows).mp profile
      exact ⟨trimmed, url, rfl, stored⟩
  · rintro ⟨trimmed, url, link, stored⟩
    rw [link] at again
    have profile := (getBillingProfile_whole saved url t.rows).mpr ⟨trimmed, stored⟩
    have same := (snapshot_eq_iff fun key other => Billing.written_of_notMem other).mpr profile
    refine ⟨{ t with rows := (normalized (whole (getBillingProfile t.rows)) (some url)).written t.rows }, ?_, same, rfl⟩
    unfold serve
    dsimp only
    rw [if_neg ((Bool.not_eq_false _).mpr may), run_discarded (run_updateBillingSettings again),
      State.audited_of_same t.rows same]

def owner : Caller := ⟨1, "owner"⟩

/-- A profile with a link that ends in a slash. -/
def firstProfile : Billing (Option String) where
  billingCustomerType := none
  billingFullName := none
  billingCompanyName := some " Hotel Alfa "
  billingTaxId := some "HU12892312142"
  billingAddressLine := some "Fő utca 1."
  billingPostalCode := some "1011"
  billingCity := some "Budapest"
  billingRegion := none
  billingCountry := none
  googleReviewUrl := some "https://g.page/r/AbC_1/review/"

theorem resave_iff_of_first : ∃ t, (serve (.updateBillingSettings owner firstProfile)).run { rows := fun _ => none } =
    .ok () t ∧
    ((∃ u, (serve (.updateBillingSettings owner (whole (getBillingProfile t.rows)))).run t = .ok () u ∧
        (∀ key, snapshot u.rows key = snapshot t.rows key) ∧ u.log = t.log) ↔
      Trimmed (getBillingProfile t.rows) ∧ ((getBillingProfile t.rows).googleReviewUrl = "" ∨
        isValidGoogleReviewUrl (getBillingProfile t.rows).googleReviewUrl = true ∧
          (getBillingProfile t.rows).googleReviewUrl.length ≤ 500)) := by
  have checks : validate firstProfile = .ok (normalized firstProfile (some "https://g.page/r/AbC_1/review")) := by rfl
  have accepted : (serve (.updateBillingSettings owner firstProfile)).run { rows := fun _ => none } = .ok () _ :=
    run_discarded (run_updateBillingSettings checks)
  exact ⟨_, accepted, resave_iff _ _ owner firstProfile accepted⟩

end NyzRating.Settings.Facade
