import PulseOps.Model.Database
import PulseOps.ReadCommitted.TableSum

/-!
# Revenue figures

The money in `getOverview` and in the summary of `getRevenue` of
`analytics/analytics.repository.js`. Amounts are in cents, so `formatDecimal`, `parseFloat` and
`toFixed(2)` have nothing to do: an empty sum is zero. The dates of the filters, the buckets of
`groupBy` and the figures about other tables are left out.
-/

set_option autoImplicit false

namespace PulseOps.AnalyticsRepository

/-- `summary` of `getRevenue`. -/
structure RevenueSummary where
  grossRevenue : Cents
  totalRefunded : Cents
  netRevenue : Cents
  paymentCount : ℕ
  deriving DecidableEq, Repr

/-- `revenue` of `getOverview`. -/
structure OverviewRevenue where
  totalPayments : ℕ
  completedRevenue : Cents
  totalRefunded : Cents
  netRevenue : Cents
  deriving DecidableEq, Repr

/-- `payment.aggregate({ _sum: { amount: true } })` of the payments in one status. -/
def paymentSum (s : Db) (tenantId : Uuid) (status : PaymentStatus) : Cents :=
  s.payments.total fun _ row =>
    if row.tenantId = tenantId ∧ row.status = status then row.amount else 0

/-- `payment.count`. -/
def paymentCount (s : Db) (p : Payment → Bool) : ℕ := s.payments.entries.countP fun e => p e.2

/-- `refund.aggregate({ _sum: { amount: true } })` of the COMPLETED refunds. -/
def refundSum (s : Db) (tenantId : Uuid) : Cents :=
  ((s.refunds.filter fun r => r.tenantId = tenantId ∧ r.status = .completed).map (·.amount)).sum

/-- `getRevenue` with `filters.status` alone. -/
def getRevenue (s : Db) (tenantId : Uuid) (status : Option PaymentStatus) : RevenueSummary :=
  let status := status.getD .completed
  let grossRevenue := paymentSum s tenantId status
  let totalRefunded := refundSum s tenantId
  { grossRevenue
    totalRefunded
    netRevenue := grossRevenue - totalRefunded
    paymentCount := paymentCount s fun row => row.tenantId = tenantId ∧ row.status = status }

/-- `getOverview` without filters. -/
def getOverview (s : Db) (tenantId : Uuid) : OverviewRevenue :=
  let completedRevenue := paymentSum s tenantId .completed
  let totalRefunded := refundSum s tenantId
  { totalPayments := paymentCount s fun row => row.tenantId = tenantId
    completedRevenue
    totalRefunded
    netRevenue := completedRevenue - totalRefunded }

end PulseOps.AnalyticsRepository
