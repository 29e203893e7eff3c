import Mathlib.Data.List.Nodup
import NyzRating.Events.Outbox

/-!
# The audit log

What a call of `AuditServiceProxy.log` puts into the outbox, and the row that the handler of the event writes for it.
-/

namespace NyzRating.Events

/-! ### Actions -/

inductive AuditLogAction where
  | brandUpdated
  | forgotPasswordLinkSent
  | emailConfirmed
  | inviteResent
  | login2faFailed
  | login2faRateLimited
  | login2faRequired
  | login2faSuccess
  | loginFailed
  | loginSuccess
  | logout
  | logoutError
  | logoutFailed
  | passwordChanged
  | passwordSetByInvite
  | refresh
  | refreshFailed
  | refreshSuspiciousFingerprint
  | settingsSecurityUpdated
  | tenantProvisioned
  | userCreated
  | userDeleted
  | userEmailChanged
  | userRoleChanged
  | userUpdated
  | platformAdminLoginSuccess
  | platformAdminLoginFailed
  | platformAdminMfaRequired
  | platformAdminMfaPassed
  | platformAdminMfaFailed
  | platformAdminRefresh
  | platformAdminRefreshFailed
  | platformAdminLogout
  | platformAdminProfileUpdated
  | platformAdminPasswordChanged
  | platformAdminStatsViewed
  | platformAdminTenantStatsViewed
  | platformAdminSecurityIpBanned
  | platformAdminSecurityIpUnbanned
  | platformAdminSecurityAlertAck
  | internalEndpointAccessed
  | adminAction
  | permissionDenied
  | knowledgePiiDepersonalized
  | knowledgeCreated
  | knowledgeDeleted
  | knowledgePermissionChanged
  | knowledgeSettingChanged
  | knowledgeTrainingStarted
  | knowledgeSourceDeleted
  | knowledgeUrlIngestRejected
  | knowledgeUploadRejected
  | apiCredentialCreated
  | apiCredentialRotated
  | apiCredentialRevoked
  | signedRequestRejected
  deriving DecidableEq, Repr

namespace AuditLogAction

def value : AuditLogAction → String
  | .brandUpdated => "brand_updated"
  | .forgotPasswordLinkSent => "forgot_password_link_sent"
  | .emailConfirmed => "email_confirmed"
  | .inviteResent => "invite_resent"
  | .login2faFailed => "login_2fa_failed"
  | .login2faRateLimited => "login_2fa_rate_limited"
  | .login2faRequired => "login_2fa_required"
  | .login2faSuccess => "login_2fa_success"
  | .loginFailed => "login_failed"
  | .loginSuccess => "login_success"
  | .logout => "logout"
  | .logoutError => "logout_error"
  | .logoutFailed => "logout_failed"
  | .passwordChanged => "password_changed"
  | .passwordSetByInvite => "password_set_by_invite"
  | .refresh => "refresh"
  | .refreshFailed => "refresh_failed"
  | .refreshSuspiciousFingerprint => "refresh_suspicious_fingerprint"
  | .settingsSecurityUpdated => "settings_security_updated"
  | .tenantProvisioned => "tenant_provisioned"
  | .userCreated => "user_created"
  | .userDeleted => "user_deleted"
  | .userEmailChanged => "user_email_changed"
  | .userRoleChanged => "user_role_changed"
  | .userUpdated => "user_updated"
  | .platformAdminLoginSuccess => "platform_admin_login_success"
  | .platformAdminLoginFailed => "platform_admin_login_failed"
  | .platformAdminMfaRequired => "platform_admin_mfa_required"
  | .platformAdminMfaPassed => "platform_admin_mfa_passed"
  | .platformAdminMfaFailed => "platform_admin_mfa_failed"
  | .platformAdminRefresh => "platform_admin_refresh"
  | .platformAdminRefreshFailed => "platform_admin_refresh_failed"
  | .platformAdminLogout => "platform_admin_logout"
  | .platformAdminProfileUpdated => "platform_admin_profile_updated"
  | .platformAdminPasswordChanged => "platform_admin_password_changed"
  | .platformAdminStatsViewed => "platform_admin_stats_viewed"
  | .platformAdminTenantStatsViewed => "platform_admin_tenant_stats_viewed"
  | .platformAdminSecurityIpBanned => "platform_admin_security_ip_banned"
  | .platformAdminSecurityIpUnbanned => "platform_admin_security_ip_unbanned"
  | .platformAdminSecurityAlertAck => "platform_admin_security_alert_ack"
  | .internalEndpointAccessed => "internal_endpoint_accessed"
  | .adminAction => "admin_action"
  | .permissionDenied => "permission_denied"
  | .knowledgePiiDepersonalized => "knowledge_pii_depersonalized"
  | .knowledgeCreated => "knowledge_created"
  | .knowledgeDeleted => "knowledge_deleted"
  | .knowledgePermissionChanged => "knowledge_permission_changed"
  | .knowledgeSettingChanged => "knowledge_setting_changed"
  | .knowledgeTrainingStarted => "knowledge_training_started"
  | .knowledgeSourceDeleted => "knowledge_source_deleted"
  | .knowledgeUrlIngestRejected => "knowledge_url_ingest_rejected"
  | .knowledgeUploadRejected => "knowledge_upload_rejected"
  | .apiCredentialCreated => "api_credential_created"
  | .apiCredentialRotated => "api_credential_rotated"
  | .apiCredentialRevoked => "api_credential_revoked"
  | .signedRequestRejected => "signed_request_rejected"

def all : List AuditLogAction :=
  [.brandUpdated, .forgotPasswordLinkSent, .emailConfirmed, .inviteResent, .login2faFailed, .login2faRateLimited,
    .login2faRequired, .login2faSuccess, .loginFailed, .loginSuccess, .logout, .logoutError, .logoutFailed,
    .passwordChanged, .passwordSetByInvite, .refresh, .refreshFailed, .refreshSuspiciousFingerprint,
    .settingsSecurityUpdated, .tenantProvisioned, .userCreated, .userDeleted, .userEmailChanged, .userRoleChanged,
    .userUpdated, .platformAdminLoginSuccess, .platformAdminLoginFailed, .platformAdminMfaRequired,
    .platformAdminMfaPassed, .platformAdminMfaFailed, .platformAdminRefresh, .platformAdminRefreshFailed,
    .platformAdminLogout, .platformAdminProfileUpdated, .platformAdminPasswordChanged, .platformAdminStatsViewed,
    .platformAdminTenantStatsViewed, .platformAdminSecurityIpBanned, .platformAdminSecurityIpUnbanned,
    .platformAdminSecurityAlertAck, .internalEndpointAccessed, .adminAction, .permissionDenied,
    .knowledgePiiDepersonalized, .knowledgeCreated, .knowledgeDeleted, .knowledgePermissionChanged,
    .knowledgeSettingChanged, .knowledgeTrainingStarted, .knowledgeSourceDeleted, .knowledgeUrlIngestRejected,
    .knowledgeUploadRejected, .apiCredentialCreated, .apiCredentialRotated, .apiCredentialRevoked,
    .signedRequestRejected]

/-- `AuditLogAction(value)`. -/
def ofValue (value : String) : Option AuditLogAction := all.find? (·.value = value)

theorem mem_all (a : AuditLogAction) : a ∈ all := by cases a <;> decide

theorem values_nodup : (all.map value).Nodup := by decide +kernel

theorem ofValue_value (a : AuditLogAction) : ofValue a.value = some a := by
  have found : (ofValue a.value).isSome = true := List.find?_isSome.mpr ⟨a, mem_all a, decide_eq_true rfl⟩
  obtain ⟨b, hb⟩ := Option.isSome_iff_exists.mp found
  have same : b.value = a.value := by simpa using List.find?_some (l := all) hb
  rw [hb, List.inj_on_of_nodup_map values_nodup (mem_all b) (mem_all a) same]

end AuditLogAction

/-! ### The call -/

/-- The keyword arguments of `log`, but for the details. -/
structure AuditArgs where
  userId : Option Int := none
  actorType : Option String := none
  eventName : Option String := none
  outcome : Option String := none
  targetType : Option String := none
  targetId : Option String := none
  correlationId : Option String := none
  ip : Option String := none
  userAgent : Option String := none
  deriving DecidableEq, Repr

/-- A call of `AuditServiceProxy.log`, and what its request has bound. -/
structure AuditCall extends AuditArgs where
  action : AuditLogAction
  tenantSlug : Option String := none
  currentTenantSchema : Option String := none
  contextCorrelationId : Option String := none
  contextTenantSlug : Option String := none
  deriving DecidableEq, Repr

structure EventMeta where
  correlationId : Option String
  tenantSlug : Option String
  deriving DecidableEq, Repr

structure AuditPayload extends AuditArgs where
  action : String
  tenantSlug : Option String
  eventMeta : EventMeta
  deriving DecidableEq, Repr

/-- `a or b`. -/
def textOr (a b : Option String) : Option String := if a.any (· ≠ "") then a else b

/-- The tenant of a call: the one that it gives, or else the one whose schema is current. -/
def AuditCall.tenant (c : AuditCall) : Option String := c.tenantSlug <|> c.currentTenantSchema

/-- The payload of `AuditServiceProxy.log`, enriched by `enrich_event_payload`. -/
def AuditCall.payload (c : AuditCall) : AuditPayload :=
  { c.toAuditArgs with
    action := c.action.value
    tenantSlug := c.tenant
    eventMeta :=
      { correlationId := c.contextCorrelationId
        tenantSlug := textOr c.contextTenantSlug c.currentTenantSchema } }

/-! ### The handler -/

structure AuditLogRow extends AuditArgs where
  action : String
  deriving DecidableEq, Repr

def defaultOutcome (action : AuditLogAction) : String :=
  if "_failed".toList.isSuffixOf action.value.toList || "_error".toList.isSuffixOf action.value.toList then "failure"
  else if action = .login2faRequired then "challenge_required"
  else if action = .login2faRateLimited then "rate_limited"
  else "success"

def defaultTargetType (action : AuditLogAction) (userId : Option Int) : Option String :=
  if userId.isSome then some "user"
  else if action = .settingsSecurityUpdated then some "platform_settings"
  else if action = .brandUpdated then some "platform_brand"
  else if action = .tenantProvisioned then some "tenant"
  else if "platform_admin_".toList.isPrefixOf action.value.toList then some "platform_admin"
  else none

/-- `AuditService.log`, up to its `append`. -/
def auditServiceLog (contextCorrelationId : Option String) (action : AuditLogAction) (a : AuditArgs) : AuditLogRow where
  action := action.value
  userId := a.userId
  actorType := textOr a.actorType (some (if a.userId.isSome then "user" else "system"))
  eventName := textOr a.eventName (some action.value)
  outcome := textOr a.outcome (some (defaultOutcome action))
  targetType := textOr a.targetType (defaultTargetType action a.userId)
  targetId := textOr a.targetId (a.userId.map toString)
  correlationId := textOr a.correlationId contextCorrelationId
  ip := a.ip
  userAgent := a.userAgent

/-- `handle_audit`: the tenant that it makes current, and the row that it appends there. -/
def handleAudit (p : AuditPayload) : Option (Option String × AuditLogRow) :=
  (AuditLogAction.ofValue p.action).map fun action =>
    (textOr p.tenantSlug p.eventMeta.tenantSlug,
      auditServiceLog p.eventMeta.correlationId action
        { p.toAuditArgs with correlationId := textOr p.correlationId p.eventMeta.correlationId })

/-! ### The table -/

/-- A text that a column of this width takes. -/
def within (width : Nat) (text : Option String) : Bool :=
  text.all fun t => t.toList.length ≤ width && !t.toList.contains (Char.ofNat 0)

def AuditLogRow.fits (r : AuditLogRow) : Bool :=
  within 32 r.actorType && within 64 (some r.action) && within 128 r.eventName && within 32 r.outcome &&
    within 64 r.targetType && within 128 r.targetId && within 128 r.correlationId && within 64 r.ip &&
    within 512 r.userAgent

/-- A schema with an `audit_log`, and the ids of its users. -/
structure TenantTables where
  schema : String
  users : List Int
  deriving DecidableEq, Repr

structure AuditEntry where
  schema : String
  row : AuditLogRow
  deriving DecidableEq, Repr

section
variable (isalnum : Char → Bool) (tenants : List TenantTables)

/-- The schema that `apply_search_path` sets. -/
def searchPath : Option String → String
  | none => "public"
  | some schema => if schema ≠ "" && schema.toList.all fun c => isalnum c || c = '_' || c = '-' then schema else "public"

/-- The insert finds the table and the user that the row refers to. -/
def Found (schema : String) (userId : Option Int) : Prop :=
  ∃ t ∈ tenants, t.schema = schema ∧ ∀ user ∈ userId, user ∈ t.users

instance (schema : String) (userId : Option Int) : Decidable (Found tenants schema userId) :=
  inferInstanceAs (Decidable (∃ t ∈ tenants, t.schema = schema ∧ ∀ user ∈ userId, user ∈ t.users))

/-- `AuditLogRepository.append`, under a current tenant schema. -/
def appendAudit (schema : Option String) (row : AuditLogRow) : Option AuditEntry :=
  if row.fits = true ∧ Found tenants (searchPath isalnum schema) row.userId then
    some { schema := searchPath isalnum schema, row }
  else none

/-- What the handler of an event leaves in the audit log. -/
def deliver (p : AuditPayload) : Option AuditEntry :=
  (handleAudit p).bind fun (schema, row) => appendAudit isalnum tenants schema row

end

/-! ### Calls that can be delivered -/

/-- The texts of the call fit the columns of the table. -/
def AuditCall.Fits (c : AuditCall) : Prop :=
  within 32 c.actorType = true ∧ within 128 c.eventName = true ∧ within 32 c.outcome = true ∧ within 64 c.targetType = true ∧
    within 128 (textOr c.targetId (c.userId.map toString)) = true ∧
    within 128 (textOr c.correlationId c.contextCorrelationId) = true ∧ within 64 c.ip = true ∧ within 512 c.userAgent = true

/-- The call names its tenant, or its request knows none. -/
def AuditCall.OfTenant (c : AuditCall) : Prop :=
  c.tenant.any (· ≠ "") = true ∨ (textOr c.contextTenantSlug c.currentTenantSchema).any (· ≠ "") = false

structure AuditCall.Deliverable (c : AuditCall) : Prop where
  fits : c.Fits
  outcome : c.outcome ≠ some ""
  tenant : c.OfTenant

instance (c : AuditCall) : Decidable c.Deliverable :=
  have : Decidable c.Fits := inferInstanceAs (Decidable (_ ∧ _))
  have : Decidable c.OfTenant := inferInstanceAs (Decidable (_ ∨ _))
  decidable_of_iff (c.Fits ∧ c.outcome ≠ some "" ∧ c.OfTenant)
    ⟨fun h => ⟨h.1, h.2.1, h.2.2⟩, fun h => ⟨h.fits, h.outcome, h.tenant⟩⟩

/-- The entry says what the call has said, in the schema that sessions under its tenant use. -/
structure Recorded (isalnum : Char → Bool) (c : AuditCall) (entry : AuditEntry) : Prop where
  schema : entry.schema = searchPath isalnum c.tenant
  action : entry.row.action = c.action.value
  userId : entry.row.userId = c.userId
  outcome : entry.row.outcome = some (c.outcome.getD (defaultOutcome c.action))
  ip : entry.row.ip = c.ip
  userAgent : entry.row.userAgent = c.userAgent

section
variable {isalnum : Char → Bool} {tenants : List TenantTables} {c : AuditCall} {entry : AuditEntry}

theorem textOr_self (a b : Option String) : textOr (textOr a b) b = textOr a b := by
  unfold textOr
  split
  · rfl
  · exact ite_self b

theorem within_textOr {width : Nat} {a b : Option String} (ha : within width a = true) (hb : within width b = true) :
    within width (textOr a b) = true := by
  unfold textOr
  split
  · exact ha
  · exact hb

theorem within_mono {width width' : Nat} {text : Option String} (h : within width text = true) (le : width ≤ width') :
    within width' text = true := by
  cases text with
  | none => rfl
  | some t =>
    simp only [within, Option.all_some, Bool.and_eq_true, decide_eq_true_eq] at h ⊢
    exact ⟨h.1.trans le, h.2⟩

theorem value_fits : ∀ action ∈ AuditLogAction.all, within 64 (some action.value) = true := by decide +kernel

/-- Every default fits its column. -/
theorem defaults_fit (action : AuditLogAction) (userId : Option Int) :
    within 64 (some action.value) = true ∧ within 32 (some (defaultOutcome action)) = true ∧
      within 64 (defaultTargetType action userId) = true ∧
      within 32 (some (if userId.isSome then "user" else "system")) = true := by
  refine ⟨value_fits action action.mem_all, ?_, ?_, ?_⟩
  · unfold defaultOutcome
    repeat' split
    all_goals rfl
  · unfold defaultTargetType
    repeat' split
    all_goals rfl
  · split
    · rfl
    · rfl

/-- The handler makes this of the call. -/
theorem handleAudit_payload (c : AuditCall) :
    handleAudit c.payload =
      some (textOr c.tenant (textOr c.contextTenantSlug c.currentTenantSchema),
        auditServiceLog c.contextCorrelationId c.action
          { c.toAuditArgs with correlationId := textOr c.correlationId c.contextCorrelationId }) := by
  unfold handleAudit
  rw [AuditCall.payload, AuditLogAction.ofValue_value, Option.map_some]

theorem searchPath_tenant (h : c.OfTenant) :
    searchPath isalnum (textOr c.tenant (textOr c.contextTenantSlug c.currentTenantSchema)) = searchPath isalnum c.tenant := by
  have blank : ∀ {t : Option String}, t.any (· ≠ "") = false → searchPath isalnum t = "public" := by
    intro t h
    cases t with
    | none => rfl
    | some t =>
      have empty : t = "" := by simpa using h
      subst empty
      rfl
  unfold textOr
  split
  · rfl
  · next unnamed =>
    obtain named | unknown := h
    · exact absurd named unnamed
    · have unnamed : c.tenant.any (· ≠ "") = false := Bool.eq_false_iff.mpr unnamed
      exact (blank unknown).trans (blank unnamed).symm

theorem Fits.row (h : c.Fits) :
    (auditServiceLog c.contextCorrelationId c.action
      { c.toAuditArgs with correlationId := textOr c.correlationId c.contextCorrelationId }).fits = true := by
  obtain ⟨actorType, eventName, outcome, targetType, targetId, correlationId, ip, userAgent⟩ := h
  obtain ⟨action, outcome', targetType', actorType'⟩ := defaults_fit c.action c.userId
  simp only [AuditLogRow.fits, auditServiceLog, Bool.and_eq_true]
  refine ⟨⟨⟨⟨⟨⟨⟨⟨within_textOr actorType actorType', action⟩, within_textOr eventName (within_mono action (by decide))⟩,
    within_textOr outcome outcome'⟩, within_textOr targetType targetType'⟩, targetId⟩, ?_⟩, ip⟩, userAgent⟩
  rw [textOr_self]
  exact correlationId

/-- What is delivered says what the call has said. -/
theorem recorded_of_deliver (h : c.Deliverable) (delivered : deliver isalnum tenants c.payload = some entry) :
    Recorded isalnum c entry := by
  simp only [deliver, handleAudit_payload, Option.bind_some, appendAudit, searchPath_tenant h.tenant,
    Option.ite_none_right_eq_some, Option.some.injEq] at delivered
  obtain ⟨-, rfl⟩ := delivered
  refine ⟨rfl, rfl, rfl, ?_, rfl, rfl⟩
  change textOr c.outcome _ = _
  cases given : c.outcome with
  | none => rfl
  | some outcome =>
    have named : outcome ≠ "" := fun same => h.outcome (given.trans (congrArg some same))
    simp [textOr, named]

/-- A call that can be delivered is, where its schema has an audit log and its user. -/
theorem deliver_of_found (h : c.Deliverable) (found : Found tenants (searchPath isalnum c.tenant) c.userId) :
    (deliver isalnum tenants c.payload).isSome = true := by
  simp only [deliver, handleAudit_payload, Option.bind_some, appendAudit, searchPath_tenant h.tenant]
  rw [if_pos ⟨Fits.row h.fits, found⟩]
  rfl

end

end NyzRating.Events
