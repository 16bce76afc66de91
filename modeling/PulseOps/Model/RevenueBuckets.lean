import PulseOps.Model.Analytics
import PulseOps.Model.Calendar
import PulseOps.ReadCommitted.Groups
import PulseOps.ReadCommitted.Pages
import Mathlib.Data.PNat.Basic

/-!
# Revenue by day, week or month

`getRevenue` of `analytics/analytics.repository.js` with `groupBy`, the dates of its filters and
its pages. The payments and refunds carry the time they were made, in microseconds as the
database keeps it; the dates of JavaScript are in milliseconds. Sums are exact: `formatDecimal`
and `toFixed(2)` have nothing to do up to the fifteen digits that `parseFloat` keeps.
-/

set_option autoImplicit false

namespace PulseOps.AnalyticsRepository

open Calendar

/-- A row with its `created_at`. -/
structure Stamped (ρ : Type) where
  row : ρ
  createdAt : ℤ

/-- The two tables. `refunds_amount_non_negative` is a CHECK of the second one. -/
structure RevenueTables where
  payments : List (Stamped Payment)
  refunds : List (Stamped Refund)
  refunds_amount_non_negative : ∀ r ∈ refunds, 0 ≤ r.row.amount

/-- A date in the query: a day alone, a point in time, or a text that is neither. -/
inductive DateString where
  | day (day : ℤ)
  | time (millis : ℤ)
  | invalid

/-- `parseDateBound`: a day alone means its first or its last millisecond. -/
def parseDateBound (str : Option DateString) (isEnd : Bool) : Option ℤ :=
  match str with
  | none | some .invalid => none
  | some (.time millis) => some millis
  | some (.day day) =>
    some (day * millisPerDay + if isEnd then millisPerDay - 1 else 0)

inductive GroupBy where
  | day
  | week
  | month
  deriving DecidableEq, Repr

/-- The filters as the query schema lets them through. -/
structure RevenueFilters where
  page : Option ℕ+ := none
  limit : Option ℕ+ := none
  groupBy : Option GroupBy := none
  status : Option PaymentStatus := none
  fromDate : Option DateString := none
  toDate : Option DateString := none

/-- `date_trunc(trunc, created_at AT TIME ZONE 'UTC')`, as a point in time in milliseconds. -/
def dateTrunc (trunc : GroupBy) (createdAt : ℤ) : ℤ :=
  let day := dayOf (createdAt / 1000)
  millisPerDay *
    match trunc with
    | .day => day
    | .week => mondayOf day
    | .month => firstOfMonth (monthOf day)

/-- The conditions on `created_at`. -/
def RevenueFilters.InRange (filters : RevenueFilters) (createdAt : ℤ) : Prop :=
  (∀ d ∈ parseDateBound filters.fromDate false, d * 1000 ≤ createdAt) ∧
    ∀ d ∈ parseDateBound filters.toDate true, createdAt ≤ d * 1000

instance (filters : RevenueFilters) (createdAt : ℤ) : Decidable (filters.InRange createdAt) :=
  inferInstanceAs (Decidable (_ ∧ _))

/-- The payments in `baseWhere`. -/
def paymentsIn (t : RevenueTables) (tenantId : Uuid) (filters : RevenueFilters) :
    List (Stamped Payment) :=
  t.payments.filter fun p =>
    p.row.tenantId = tenantId ∧ p.row.status = filters.status.getD .completed ∧
      filters.InRange p.createdAt

/-- The COMPLETED refunds in the same range, whatever the status of the payments. -/
def refundsIn (t : RevenueTables) (tenantId : Uuid) (filters : RevenueFilters) :
    List (Stamped Refund) :=
  t.refunds.filter fun r =>
    r.row.tenantId = tenantId ∧ r.row.status = .completed ∧ filters.InRange r.createdAt

/-- An element of `data`. Without `groupBy` there is one, with no bucket. -/
structure RevenueRow where
  bucket : Option ℤ
  grossRevenue : Cents
  totalRefunded : Cents
  netRevenue : Cents
  paymentCount : ℕ
  deriving DecidableEq, Repr

/-- `meta`, which the controller answers as `pagination` too. -/
structure RevenuePagination where
  page : ℕ
  limit : ℕ
  total : ℕ
  totalPages : ℕ
  deriving DecidableEq, Repr

structure RevenueReport where
  summary : RevenueSummary
  data : List RevenueRow
  pagination : RevenuePagination
  deriving DecidableEq, Repr

/-- `summary`. -/
def revenueSummary (payments : List (Stamped Payment)) (refunds : List (Stamped Refund)) :
    RevenueSummary :=
  let grossRevenue := (payments.map (·.row.amount)).sum
  let totalRefunded := (refunds.map (·.row.amount)).sum
  { grossRevenue
    totalRefunded
    netRevenue := grossRevenue - totalRefunded
    paymentCount := payments.length }

/-- `refundedByBucket`: the refunds of each bucket that has one. -/
def refundedByBucket (trunc : GroupBy) (refunds : List (Stamped Refund)) : List (ℤ × Cents) :=
  (refunds.groupKeys fun r => dateTrunc trunc r.createdAt).map fun bucket =>
    (bucket, refunds.groupSum (fun r => dateTrunc trunc r.createdAt) (·.row.amount) bucket)

/-- A row of `dataRows` with what `refundedByBucket` has for it. -/
def revenueRow (trunc : GroupBy) (payments : List (Stamped Payment))
    (refunds : List (Stamped Refund)) (bucket : ℤ) : RevenueRow :=
  let gross := payments.groupSum (fun p => dateTrunc trunc p.createdAt) (·.row.amount) bucket
  let refunded := ((refundedByBucket trunc refunds).lookup bucket).getD 0
  { bucket := some bucket
    grossRevenue := gross
    totalRefunded := refunded
    netRevenue := gross - refunded
    paymentCount :=
      payments.groupSum (fun p => dateTrunc trunc p.createdAt) (fun _ => 1) bucket }

/-- `getRevenue`. -/
def getRevenueReport (t : RevenueTables) (tenantId : Uuid) (filters : RevenueFilters) :
    RevenueReport :=
  let page := filters.page.getD 1
  let limit := min (filters.limit.getD 20) 100
  let payments := paymentsIn t tenantId filters
  let refunds := refundsIn t tenantId filters
  let summary := revenueSummary payments refunds
  match filters.groupBy with
  | none =>
    { summary
      data := [⟨none, summary.grossRevenue, summary.totalRefunded, summary.netRevenue,
        summary.paymentCount⟩]
      pagination := ⟨1, 1, 1, 1⟩ }
  | some trunc =>
    let buckets := payments.groupKeys fun p => dateTrunc trunc p.createdAt
    { summary
      data := (buckets.page limit page.natPred).map (revenueRow trunc payments refunds)
      pagination :=
        { page
          limit
          total := buckets.length
          -- `Math.ceil(totalBuckets / limit)`
          totalPages := max 1 ((buckets.length + limit - 1) / limit) } }

end PulseOps.AnalyticsRepository
