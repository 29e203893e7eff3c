import NyzRating.Billing.Calculations

/-!
# Rows of the billing tables

The rows that belong to one tenant are gathered in an `Account`: every query of the billing repository
selects by tenant. Times of nullable columns are `Option`.
-/

namespace NyzRating.Billing

open Calendar

/-! ### Catalog -/

structure BillingPlan where
  code : String
  name : String
  priceCents : Int
  includedKbs : Int
  includedStorageGb : Int
  includedQuestionsMonthly : Int
  maxUsers : Option Int
  trialDays : Int
  includedTrainingChars : Int
  deriving DecidableEq, Repr

structure BillingAddon where
  code : String
  name : String
  priceCents : Int
  trainingChars : Option Int
  deriving DecidableEq, Repr

/-- The active plans by code. The free plan is always there: every lookup falls back to it. -/
structure PlanCatalog where
  plans : List BillingPlan
  hasFree : (plans.find? (·.code = "free")).isSome
  deriving Repr

namespace PlanCatalog

def find? (c : PlanCatalog) (code : String) : Option BillingPlan := c.plans.find? (·.code = code)

def free (c : PlanCatalog) : BillingPlan := (c.find? "free").get c.hasFree

/-- `plans.get(code) or plans["free"]`. -/
def getOrFree (c : PlanCatalog) (code : String) : BillingPlan := (c.find? code).getD c.free

end PlanCatalog

/-! ### Subscription -/

inductive SubscriptionStatus where
  | trial
  | active
  | restricted
  deriving DecidableEq, Repr

/-- `scheduled_change_effective_period`: a date, a month of the older format, or text that is neither. -/
inductive EffectivePeriod where
  | day (date : Int)
  | month (year month : Int)
  | unreadable
  deriving DecidableEq, Repr

/-- The columns of a subscription that `upsert_subscription` writes. -/
structure SubscriptionData where
  planCode : String
  billingPeriod : BillingPeriod
  status : SubscriptionStatus
  trialStartedAt : Option Int
  trialEndsAt : Option Int
  extraKbCount : Int := 0
  extraStorageGb : Int := 0
  carryoverAddonQuestions : Int := 0
  carryoverTrainingChars : Int := 0
  scheduledPlanCode : Option String := none
  scheduledBillingPeriod : Option BillingPeriod := none
  scheduledChangeEffectivePeriod : Option EffectivePeriod := none
  questionWarningPeriodKey : Option MonthKey := none
  questionWarningLevel : Int := 0
  deriving DecidableEq, Repr

structure Subscription extends SubscriptionData where
  createdAt : Int
  updatedAt : Int
  deriving DecidableEq, Repr

/-! ### Invoices -/

inductive InvoiceStatus where
  | issued
  | paymentFailed
  | paid
  | simulatedPaid
  | manualPaid
  deriving DecidableEq, Repr

/-- The statuses of a settled invoice. -/
def InvoiceStatus.isPaid : InvoiceStatus → Bool
  | .paid | .simulatedPaid | .manualPaid => true
  | .issued | .paymentFailed => false

inductive InvoiceType where
  | monthlySubscription
  | monthlySubscriptionFailed
  | planUpgrade
  | addon (code : String)
  deriving DecidableEq, Repr

/-- The three formats of an invoice's period key: `YYYY-MM-DD`, the time of issue cut to hundredths of a
    second, and `pe` with the number of a payment event. No text has two of these formats. -/
inductive PeriodKey where
  | date (day : Int)
  | stamp (hundredths : Int)
  | paymentEvent (id : Nat)
  deriving DecidableEq, Repr

/-- `f"{t:%Y%m%d%H%M%S%f}"[:16]`. -/
def PeriodKey.ofTime (t : Int) : PeriodKey := .stamp (t / 10000)

structure InvoiceLine where
  code : Option String := none
  name : String := ""
  targetPlanCode : Option String := none
  billingPeriod : Option BillingPeriod := none
  periodMultiplier : Option Int := none
  unitPriceCents : Option Int := none
  quantity : Option Int := none
  extraKbCount : Option Int := none
  extraStorageGb : Option Int := none
  totalCents : Option Int := none
  nextBillingDate : Option Int := none
  paidUntilIso : Option Int := none
  simulatedPayment : Bool := false
  paymentProvider : Option String := none
  paymentReference : Option String := none
  paymentRequest : Bool := false
  paymentFailed : Bool := false
  autoRetryDate : Option Int := none
  autoRetryEmailSent : Option Bool := none
  deriving DecidableEq, Repr

structure Invoice where
  id : Nat
  invoiceType : InvoiceType
  periodKey : PeriodKey
  status : InvoiceStatus
  totalCents : Int
  paymentMethod : String
  description : String
  lines : List InvoiceLine
  issuedAt : Int
  dueAt : Int
  deriving DecidableEq, Repr

/-! ### Cancellation requests -/

inductive CancellationStatus where
  | deactivationRequested
  | renewalRestored
  | restored
  deriving DecidableEq, Repr

structure CancellationRequest where
  id : Nat
  tenantSlug : String
  requestedByUserId : Option Nat
  reasonCode : String
  reasonText : String
  activeKbCount : Int
  status : CancellationStatus
  requestedAt : Int
  effectiveAt : Option Int
  noticeTwoDaysSentAt : Option Int := none
  noticeOneDaySentAt : Option Int := none
  noticeExpiredSentAt : Option Int := none
  deactivatedAt : Option Int
  cleanupCompletedAt : Option Int := none
  deriving DecidableEq, Repr

/-! ### Tenant and configuration -/

structure Tenant where
  id : Nat
  slug : String
  name : String
  createdAt : Int
  isActive : Bool
  deriving DecidableEq, Repr

structure FeatureFlags where
  demoMode : Bool := false
  demoExpiresAt : Option Int := none
  billingEnabled : Bool := false
  deriving DecidableEq, Repr

structure Limits where
  maxUsers : Option Int
  knowledgeBases : Int
  storageGb : Int
  questionsMonthly : Int
  addonQuestionsCarryover : Int
  trainingCharsAvailable : Int
  trialDays : Int
  deriving DecidableEq, Repr

structure TenantConfig where
  package : String
  featureFlags : FeatureFlags
  limits : Option Limits
  deriving DecidableEq, Repr

/-- What the tenant's own schema answers: the counts that billing reads there, and the owner's address. -/
structure Resources where
  knowledgeBases : Int := 0
  storageBytes : Int := 0
  ownerEmail : Option String := none
  deriving DecidableEq, Repr

/-- Questions a user asked in a month. -/
structure QuestionUsage where
  userId : Nat
  periodKey : MonthKey
  questionCount : Int
  deriving DecidableEq, Repr

/-- The rows of one tenant. `nextInvoiceId` and `nextCancellationId` are the sequences of its tables. -/
structure Account where
  tenant : Tenant
  config : Option TenantConfig := none
  subscription : Option Subscription := none
  invoices : List Invoice := []
  nextInvoiceId : Nat := 1
  cancellations : List CancellationRequest := []
  nextCancellationId : Nat := 1
  questionTotals : List (MonthKey × Int) := []
  questionUsage : List QuestionUsage := []
  resources : Resources := {}
  deriving DecidableEq, Repr

end NyzRating.Billing
