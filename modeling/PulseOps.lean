import PulseOps.Audit.Redaction
import PulseOps.Caching.CacheHits
import PulseOps.Caching.CachedReads
import PulseOps.Caching.CatalogueWrites
import PulseOps.Caching.DomainRows
import PulseOps.Caching.Statements
import PulseOps.Caching.TenantWrites
import PulseOps.Caching.Views
import PulseOps.Calendar.Gregorian
import PulseOps.CashDrawer.ClosedShifts
import PulseOps.CashDrawer.ExpectedCash
import PulseOps.CashDrawer.NonNegative
import PulseOps.CashDrawer.Shifts
import PulseOps.CashDrawer.Steps
import PulseOps.CashDrawer.Takings
import PulseOps.Catalogue.AttributeFilters
import PulseOps.Catalogue.AttributeTypes
import PulseOps.Catalogue.PrimaryImages
import PulseOps.Catalogue.RejectedChanges
import PulseOps.Categories.Hierarchy
import PulseOps.Categories.SerialRuns
import PulseOps.Categories.Tree
import PulseOps.Csv.Rfc4180
import PulseOps.Customers.Addresses
import PulseOps.Customers.TaxIdentity
import PulseOps.Idempotency.Claims
import PulseOps.Idempotency.OnceOnly
import PulseOps.Idempotency.Separation
import PulseOps.Integrations.Retries
import PulseOps.Invoices.Numbers
import PulseOps.Invoices.Rounding
import PulseOps.Invoices.Sequence
import PulseOps.Invoices.Totals
import PulseOps.Json.Paths
import PulseOps.Json.Text
import PulseOps.Json.Without
import PulseOps.Model.Accounts
import PulseOps.Model.Analytics
import PulseOps.Model.Attributes
import PulseOps.Model.Audit
import PulseOps.Model.Auth
import PulseOps.Model.Calendar
import PulseOps.Model.Cart
import PulseOps.Model.CartView
import PulseOps.Model.CashRegister
import PulseOps.Model.Catalog
import PulseOps.Model.CatalogueServices
import PulseOps.Model.Categories
import PulseOps.Model.Checkout
import PulseOps.Model.Customers
import PulseOps.Model.Domains
import PulseOps.Model.NotificationTemplates
import PulseOps.Model.Notifications
import PulseOps.Model.Orders
import PulseOps.Model.Payments
import PulseOps.Model.PeriodTexts
import PulseOps.Model.Permissions
import PulseOps.Model.PointOfSale
import PulseOps.Model.Products
import PulseOps.Model.ReportRetention
import PulseOps.Model.ReportRows
import PulseOps.Model.ReportSchedules
import PulseOps.Model.Reports
import PulseOps.Model.RevenueBuckets
import PulseOps.Model.Routes
import PulseOps.Model.S3Storage
import PulseOps.Model.SaleResult
import PulseOps.Model.Settings
import PulseOps.Model.ShopSearch
import PulseOps.Model.Storage
import PulseOps.Model.Storefront
import PulseOps.Model.Support
import PulseOps.Model.Tenants
import PulseOps.Model.Users
import PulseOps.Model.WebhookQueue
import PulseOps.Model.Workspace
import PulseOps.Notifications.Deduplication
import PulseOps.Notifications.Rendering
import PulseOps.Payments.CaptureProofs
import PulseOps.Payments.CapturedAmount
import PulseOps.Payments.CapturedOnce
import PulseOps.Payments.ChargeLedger
import PulseOps.Payments.Effects
import PulseOps.Payments.Facts
import PulseOps.Payments.MinorUnits
import PulseOps.Payments.NetRevenue
import PulseOps.Payments.OpenPayments
import PulseOps.Payments.Outcomes
import PulseOps.Payments.RefundBound
import PulseOps.Payments.RefundRecords
import PulseOps.Payments.Refundable
import PulseOps.Payments.Runs
import PulseOps.Payments.StatusAgreement
import PulseOps.Payments.StatusTransitions
import PulseOps.Payments.WebhookDuplicates
import PulseOps.ReadCommitted.CacheAside
import PulseOps.ReadCommitted.LockOrder
import PulseOps.ReadCommitted.Observation
import PulseOps.ReadCommitted.Serial
import PulseOps.ReadCommitted.Validation
import PulseOps.Realtime.Delivery
import PulseOps.Realtime.Payloads
import PulseOps.Reports.Completed
import PulseOps.Reports.CsvText
import PulseOps.Reports.Exports
import PulseOps.Reports.FailedSchedules
import PulseOps.Reports.PeriodTiles
import PulseOps.Reports.Periods
import PulseOps.Reports.Retention
import PulseOps.Reports.RevenueRows
import PulseOps.Sales.CounterSales
import PulseOps.Sales.FullyPaid
import PulseOps.Sales.Placing
import PulseOps.Sales.PlanLimit
import PulseOps.Sales.Receipts
import PulseOps.SignIn.OneTimeLinks
import PulseOps.SignIn.Revocation
import PulseOps.SignIn.Rotation
import PulseOps.SignIn.Sessions
import PulseOps.SignIn.SupportSessions
import PulseOps.SignIn.Tokens
import PulseOps.SignIn.Work
import PulseOps.Stock.Cancellation
import PulseOps.Stock.CancelledStatus
import PulseOps.Stock.Deadlock
import PulseOps.Stock.Effects
import PulseOps.Stock.Journal
import PulseOps.Stock.LockOrder
import PulseOps.Stock.NoLostUpdate
import PulseOps.Stock.OrderEffects
import PulseOps.Stock.Requests
import PulseOps.Stock.StatusHistory
import PulseOps.Stock.TwoTables
import PulseOps.Storage.FileNames
import PulseOps.Storage.LocalPaths
import PulseOps.Storage.SignedLinks
import PulseOps.Storage.SignedRequests
import PulseOps.Storefront.CartUnits
import PulseOps.Storefront.CartVerdict
import PulseOps.Storefront.CataloguePaths
import PulseOps.Storefront.CheckoutAnswers
import PulseOps.Storefront.LiteralSearch
import PulseOps.Storefront.SessionRules
import PulseOps.Storefront.Sessions
import PulseOps.Storefront.Work
import PulseOps.Tenancy.Isolation
import PulseOps.Texts.Characters
import PulseOps.Texts.CheckSums
import PulseOps.Users.Administrators
import PulseOps.Users.PermissionCache
import PulseOps.Workspace.Domains
import PulseOps.Workspace.Gstin
import PulseOps.Workspace.Settings
