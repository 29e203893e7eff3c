import NyzRating.Lib.Cache
import NyzRating.Lib.CaseMap
import NyzRating.Lib.Base64
import NyzRating.Lib.Json
import NyzRating.Lib.Iso
import NyzRating.Lib.Keyset
import NyzRating.Lib.Calendar
import NyzRating.Lib.Fallible
import NyzRating.Lib.Lists
import NyzRating.Lib.Months
import NyzRating.Lib.Process
import NyzRating.Lib.Program
import NyzRating.Lib.RowLock
import NyzRating.Lib.Run
import NyzRating.Lib.SlidingWindow
import NyzRating.Lib.Text
import NyzRating.Lib.Transaction
import NyzRating.Lib.WriteBack
import NyzRating.Billing.Calculations
import NyzRating.Billing.Cancellation
import NyzRating.Billing.Catalog
import NyzRating.Billing.ChangeClass
import NyzRating.Billing.Completeness
import NyzRating.Billing.DebtOnce
import NyzRating.Billing.DeletionDelay
import NyzRating.Billing.DueCycle
import NyzRating.Billing.Effects
import NyzRating.Billing.FreeUpgrade
import NyzRating.Billing.GracePeriod
import NyzRating.Billing.ImmediateChange
import NyzRating.Billing.InvoiceTotals
import NyzRating.Billing.LiveTenant
import NyzRating.Billing.LostUpdate
import NyzRating.Billing.Models
import NyzRating.Billing.PaidUntil
import NyzRating.Billing.PaymentEvents
import NyzRating.Billing.PaymentOnce
import NyzRating.Billing.PlanChange
import NyzRating.Billing.Proration
import NyzRating.Billing.RenewalSafety
import NyzRating.Billing.Repositories
import NyzRating.Billing.RestrictionStable
import NyzRating.Billing.RowRules
import NyzRating.Billing.Settlement
import NyzRating.Billing.Subscription
import NyzRating.Tenancy.AllOrNothing
import NyzRating.Tenancy.CachedRouting
import NyzRating.Tenancy.DemoCleanup
import NyzRating.Tenancy.DomainVerification
import NyzRating.Tenancy.OneBusiness
import NyzRating.Tenancy.Resend
import NyzRating.Tenancy.Provisioner
import NyzRating.Tenancy.ProvisioningStops
import NyzRating.Tenancy.Registry
import NyzRating.Tenancy.Routing
import NyzRating.Tenancy.SchemaSafety
import NyzRating.Tenancy.Signup
import NyzRating.Tenancy.Slug
import NyzRating.Tenancy.SlugReservation
import NyzRating.Auth.LoginLimits
import NyzRating.Auth.LogoutFinal
import NyzRating.Auth.SecondFactor
import NyzRating.Auth.SecondFactorOnce
import NyzRating.Auth.TenantIsolation
import NyzRating.Events.Attempts
import NyzRating.Events.AuditLog
import NyzRating.Events.AuditOnce
import NyzRating.Events.RowConsistency
import NyzRating.Kernel.Atomicity
import NyzRating.Traffic.Balance
import NyzRating.Traffic.Conservation
import NyzRating.Traffic.PlanBoundary
import NyzRating.Traffic.QuotaSafety
import NyzRating.Traffic.Readers
import NyzRating.Admin.MfaLockout
import NyzRating.Admin.OneTime
import NyzRating.Admin.AuditTrail
import NyzRating.Admin.Deactivation
import NyzRating.Admin.PlatformAdminService
import NyzRating.Admin.Repository
import NyzRating.Admin.UserManagement
import NyzRating.Users.Accounts
import NyzRating.Users.CacheAgreement
import NyzRating.Users.Deactivation
import NyzRating.Users.EnabledSessions
import NyzRating.Users.OwnerSafety
import NyzRating.Users.PasswordChange
import NyzRating.Users.RefusalAudit
import NyzRating.Billing.UpgradeCredit
import NyzRating.Billing.DebtDelivery
import NyzRating.Billing.InvoicePdf
import NyzRating.Billing.NextInvoice
import NyzRating.Admin.AuditFilter
import NyzRating.Lib.Decimal
import NyzRating.Users.LinkSafety
import NyzRating.Users.Concurrent
import NyzRating.Users.Anonymised
import NyzRating.Users.SeatLimit
import NyzRating.Users.EmailUnique
import NyzRating.Kernel.SchemaRouting
import NyzRating.Billing.RenewalDates
import NyzRating.Billing.MonthWindows
import NyzRating.Admin.RevenueForecast
import NyzRating.Frontend.PackageUtils
import NyzRating.Frontend.TokenRefresh
import NyzRating.Frontend.AuthStore
import NyzRating.Billing.RetryOnce
import NyzRating.Billing.AddonInvoices
import NyzRating.Billing.AdminRestore
import NyzRating.Traffic.SmsSends
import NyzRating.Traffic.DebugQuota
import NyzRating.Events.PublishOnce
import NyzRating.Users.OwnerLink
import NyzRating.Tenancy.Confirmation
import NyzRating.Tenancy.ConfirmRecovery
import NyzRating.Lib.CharClass
import NyzRating.Settings.TaxId
import NyzRating.Traffic.MobileNumber
import NyzRating.Frontend.FormValidation
import NyzRating.Lib.Nested
import NyzRating.Kernel.LogRedaction
import NyzRating.Lib.Clusters
import NyzRating.Lib.Ordered
import NyzRating.Lib.Split
import NyzRating.Shared.Chunking
import NyzRating.Shared.PdfLines
import NyzRating.Shared.SpanUtils
import NyzRating.Auth.FallbackThrottle
import NyzRating.Kernel.Metrics
import NyzRating.Lib.Counters
import NyzRating.Lib.Ledger
import NyzRating.Tenancy.AbuseControls
import NyzRating.Tenancy.Migrations
import NyzRating.Lib.Exposition
import NyzRating.Kernel.Prometheus
import NyzRating.Auth.IpBans
import NyzRating.Lib.Blocks
import NyzRating.Shared.PdfLayout
import NyzRating.Lib.Trail
import NyzRating.Settings.SettingsFacade
