import PulseOps.Model.RevenueBuckets

/-!
# Revenue, row by row

The rows of grouped revenue are the buckets of the payments, and each carries the refunds of its
own bucket. A refund made in a day, week or month without a payment has no row to be in, yet the
summary counts it. Where every refund that counts has a payment beside it, the rows of all pages
add up to the summary.

## Main definitions

* `allRows` — the rows of all pages.
* `AddsUp` — what the rows must add up to.

## Main results

* `rows_add_up_iff` — when they do.
* `refund_without_row` — a refund in a day of its own.
-/

set_option autoImplicit false

namespace PulseOps.AnalyticsRepository

variable {t : RevenueTables} {tenantId : Uuid} {filters : RevenueFilters} {trunc : GroupBy}
  {payments : List (Stamped Payment)} {refunds : List (Stamped Refund)}

/-- The rows of one page after the other, up to the last one. -/
def allRows (t : RevenueTables) (tenantId : Uuid) (filters : RevenueFilters) : List RevenueRow :=
  (List.range (getRevenueReport t tenantId filters).pagination.totalPages).flatMap fun n =>
    (getRevenueReport t tenantId { filters with page := some n.succPNat }).data

/-- The rows add up to the summary. -/
structure AddsUp (rows : List RevenueRow) (summary : RevenueSummary) : Prop where
  grossRevenue : (rows.map (·.grossRevenue)).sum = summary.grossRevenue
  totalRefunded : (rows.map (·.totalRefunded)).sum = summary.totalRefunded
  netRevenue : (rows.map (·.netRevenue)).sum = summary.netRevenue
  paymentCount : (rows.map (·.paymentCount)).sum = summary.paymentCount

/-! ### The pages -/

/-- The pages are numbered so that the last of them ends the list. -/
theorem length_le_totalPages (length : ℕ) (limit : ℕ+) :
    length ≤ max 1 ((length + limit - 1) / limit) * limit := by
  have hlimit : 0 < (limit : ℕ) := limit.pos
  calc length ≤ (length + limit - 1) / limit * limit := by
        have hmod := Nat.div_add_mod (length + limit - 1) limit
        have hlt := Nat.mod_lt (length + limit - 1) hlimit
        rw [mul_comm] at hmod
        omega
    _ ≤ max 1 ((length + limit - 1) / limit) * limit :=
        Nat.mul_le_mul_right _ (le_max_right _ _)

/-- Put together, the pages have a row for each bucket. -/
theorem allRows_eq (trunc : GroupBy) (hgroup : filters.groupBy = some trunc) :
    allRows t tenantId filters =
      ((paymentsIn t tenantId filters).groupKeys fun p => dateTrunc trunc p.createdAt).map
        (revenueRow trunc (paymentsIn t tenantId filters) (refundsIn t tenantId filters)) := by
  set buckets := (paymentsIn t tenantId filters).groupKeys fun p => dateTrunc trunc p.createdAt
    with hbuckets
  set limit := min (filters.limit.getD 20) 100 with hlimit
  have hpage (n : ℕ) : (getRevenueReport t tenantId { filters with page := some n.succPNat }).data =
      (buckets.page limit n).map
        (revenueRow trunc (paymentsIn t tenantId filters) (refundsIn t tenantId filters)) := by
    simp only [getRevenueReport, hgroup, Option.getD_some, Nat.natPred_succPNat]
    rfl
  have htotal : (getRevenueReport t tenantId filters).pagination.totalPages =
      max 1 ((buckets.length + limit - 1) / limit) := by
    simp only [getRevenueReport, hgroup]
    rfl
  rw [allRows, htotal]
  simp only [hpage]
  rw [← List.map_flatMap, List.flatMap_page]
  congr 1
  apply List.take_of_length_le
  exact length_le_totalPages _ _

/-! ### The columns -/

/-- A row has the refunds of its bucket, if there are any. -/
theorem revenueRow_totalRefunded (bucket : ℤ) :
    (revenueRow trunc payments refunds bucket).totalRefunded =
      refunds.groupSum (fun r => dateTrunc trunc r.createdAt) (·.row.amount) bucket :=
  List.lookup_groupSum _ _ _ _

theorem sum_grossRevenue :
    ((payments.groupKeys fun p => dateTrunc trunc p.createdAt).map
      fun bucket => (revenueRow trunc payments refunds bucket).grossRevenue).sum =
      (payments.map (·.row.amount)).sum :=
  List.sum_groupKeys _ _ _

theorem sum_paymentCount :
    ((payments.groupKeys fun p => dateTrunc trunc p.createdAt).map
      fun bucket => (revenueRow trunc payments refunds bucket).paymentCount).sum =
      payments.length := by
  have hones : (payments.map fun _ => 1).sum = payments.length := by simp
  rw [← hones]
  exact List.sum_groupKeys _ _ _

/-- The rows have the refunds that fall in the bucket of a payment. -/
theorem sum_totalRefunded :
    ((payments.groupKeys fun p => dateTrunc trunc p.createdAt).map
      fun bucket => (revenueRow trunc payments refunds bucket).totalRefunded).sum =
      ((refunds.filter fun r => dateTrunc trunc r.createdAt ∈
        payments.groupKeys fun p => dateTrunc trunc p.createdAt).map (·.row.amount)).sum := by
  simp only [revenueRow_totalRefunded]
  exact List.sum_groupSum (List.nodup_groupKeys _ _)

theorem sum_netRevenue (buckets : List ℤ) :
    (buckets.map fun bucket => (revenueRow trunc payments refunds bucket).netRevenue).sum =
      (buckets.map fun bucket => (revenueRow trunc payments refunds bucket).grossRevenue).sum -
        (buckets.map fun bucket =>
          (revenueRow trunc payments refunds bucket).totalRefunded).sum := by
  apply eq_sub_of_add_eq
  rw [← List.sum_map_add]
  congr 2
  funext bucket
  exact sub_add_cancel _ _

/-- The columns of payments always add up, and that of refunds decides about the net one. -/
theorem addsUp_iff_totalRefunded :
    AddsUp ((payments.groupKeys fun p => dateTrunc trunc p.createdAt).map
      (revenueRow trunc payments refunds)) (revenueSummary payments refunds) ↔
      ((payments.groupKeys fun p => dateTrunc trunc p.createdAt).map
        fun bucket => (revenueRow trunc payments refunds bucket).totalRefunded).sum =
          (refunds.map (·.row.amount)).sum := by
  constructor
  · intro h
    have hsum := h.totalRefunded
    rw [List.map_map] at hsum
    exact hsum
  · intro h
    constructor
    · rw [List.map_map]
      exact sum_grossRevenue
    · rw [List.map_map]
      exact h
    · rw [List.map_map]
      apply (sum_netRevenue _).trans
      rw [sum_grossRevenue, h]
      rfl
    · rw [List.map_map]
      exact sum_paymentCount

/-- The rows of all pages add up to the summary if and only if every completed refund of the
range, unless it is of nothing, falls in a bucket with a payment. -/
theorem rows_add_up_iff (t : RevenueTables) (tenantId : Uuid) (filters : RevenueFilters)
    (trunc : GroupBy) :
    AddsUp (allRows t tenantId { filters with groupBy := some trunc })
        (getRevenueReport t tenantId { filters with groupBy := some trunc }).summary ↔
      ∀ r ∈ refundsIn t tenantId filters, 0 < r.row.amount →
        ∃ p ∈ paymentsIn t tenantId filters,
          dateTrunc trunc p.createdAt = dateTrunc trunc r.createdAt := by
  have hnonneg : ∀ r ∈ refundsIn t tenantId filters, 0 ≤ r.row.amount := by
    intro r hr
    exact t.refunds_amount_non_negative r (List.mem_of_mem_filter hr)
  rw [allRows_eq trunc rfl]
  apply addsUp_iff_totalRefunded.trans
  rw [sum_totalRefunded]
  apply (List.sum_filter_eq_sum_iff hnonneg).trans
  simp only [decide_eq_true_eq, List.mem_groupKeys]
  rfl

/-- A payment on the first of January 1970 and its refund the day after. -/
def refundedNextDay : RevenueTables where
  payments := [⟨⟨"shop", "order", 10000, "INR", .completed, "mock", none, ∅, false⟩, 0⟩]
  refunds := [⟨⟨"shop", "payment", 4000, "INR", .completed, none, none, ∅⟩, 86400000000⟩]
  refunds_amount_non_negative := by simp

/-- The refund counts in the summary and is in no row. -/
theorem refund_without_row :
    ¬ AddsUp (allRows refundedNextDay "shop" { groupBy := some .day })
      (getRevenueReport refundedNextDay "shop" { groupBy := some .day }).summary := by
  intro h
  have hrows : ((allRows refundedNextDay "shop" { groupBy := some .day }).map
      (·.totalRefunded)).sum = 0 := by decide +kernel
  have hsummary : (getRevenueReport refundedNextDay "shop"
      { groupBy := some .day }).summary.totalRefunded = 4000 := by decide +kernel
  have hsame := h.totalRefunded
  rw [hrows, hsummary] at hsame
  cases hsame

/-- Within one month they are in the same row. -/
example : allRows refundedNextDay "shop" { groupBy := some .month } =
    [⟨some 0, 10000, 4000, 6000, 1⟩] := by decide +kernel

/-! ### The tables without their dates -/

/-- The tables of a database, given the times at which their rows were made. -/
def RevenueTables.ofDb (s : Db) (paidAt : Uuid → ℤ) (refundedAt : Refund → ℤ)
    (h : ∀ r ∈ s.refunds, 0 ≤ r.amount) : RevenueTables where
  payments := s.payments.entries.map fun e => ⟨e.2, paidAt e.1⟩
  refunds := s.refunds.map fun r => ⟨r, refundedAt r⟩
  refunds_amount_non_negative := by
    intro r hr
    obtain ⟨refund, hrefund, rfl⟩ := List.mem_map.mp hr
    exact h refund hrefund

/-- Without dates the summary is the one of all payments and refunds. -/
theorem summary_ofDb (s : Db) (paidAt : Uuid → ℤ) (refundedAt : Refund → ℤ)
    (h : ∀ r ∈ s.refunds, 0 ≤ r.amount) (tenantId : Uuid) (status : Option PaymentStatus)
    (groupBy : Option GroupBy) :
    (getRevenueReport (RevenueTables.ofDb s paidAt refundedAt h) tenantId
      { status, groupBy }).summary = getRevenue s tenantId status := by
  set t := RevenueTables.ofDb s paidAt refundedAt h with ht
  set filters : RevenueFilters := { status, groupBy } with hfilters
  have hrange (createdAt : ℤ) : filters.InRange createdAt := by
    constructor
    · intro d hd
      cases hd
    · intro d hd
      cases hd
  have hsummary : (getRevenueReport t tenantId filters).summary =
      revenueSummary (paymentsIn t tenantId filters) (refundsIn t tenantId filters) := by
    cases groupBy <;> rfl
  -- without dates the reports read all the rows of the tables
  have hpayments : (paymentsIn t tenantId filters).map (·.row) =
      (s.payments.entries.map (·.2)).filter fun p =>
        p.tenantId = tenantId ∧ p.status = status.getD .completed := by
    simp [paymentsIn, hrange, t, RevenueTables.ofDb, List.filter_map, Function.comp_def, filters]
  have hrefunds : (refundsIn t tenantId filters).map (·.row) =
      s.refunds.filter fun r => r.tenantId = tenantId ∧ r.status = .completed := by
    simp [refundsIn, hrange, t, RevenueTables.ofDb, List.filter_map, Function.comp_def]
  have hgross : ((paymentsIn t tenantId filters).map (·.row.amount)).sum =
      paymentSum s tenantId (status.getD .completed) := by
    have hamounts : (paymentsIn t tenantId filters).map (·.row.amount) =
        ((paymentsIn t tenantId filters).map (·.row)).map (·.amount) := by
      rw [List.map_map]
      rfl
    rw [hamounts, hpayments, List.sum_filter, List.map_map, paymentSum, AList.total]
    simp only [Function.comp_def, decide_eq_true_eq]
  have hrefunded : ((refundsIn t tenantId filters).map (·.row.amount)).sum =
      refundSum s tenantId := by
    rw [refundSum, ← hrefunds, List.map_map]
    rfl
  have hcount : (paymentsIn t tenantId filters).length = paymentCount s fun row =>
      row.tenantId = tenantId ∧ row.status = status.getD .completed := by
    rw [← List.length_map (·.row), hpayments, ← List.countP_eq_length_filter, List.countP_map]
    rfl
  rw [hsummary, revenueSummary, getRevenue, hgross, hrefunded, hcount]

end PulseOps.AnalyticsRepository
