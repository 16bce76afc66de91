import PulseOps.Payments.Runs

/-!
# Refunds stay within the payment

A refund computes what is left of the payment under its lock and writes its row before it
lets go. So however refunds, confirmations and provider events interleave, and whatever
Razorpay answers, the completed refunds of a payment never add up to more than its amount.

## Main results

* `PaymentEffect.refundsWithin` — every effect keeps the bound.
* `reaches_refundsWithin` — so does every run.
-/

set_option autoImplicit false

open ReadCommitted Program

namespace PulseOps

open PaymentService

variable {s s' s₀ : Db} {es : List Edit} {rs : List PaymentRequest} {c : Config sales Unit}
  {k : EffectKind} {id tenantId : Uuid} {refund : Refund}

/-- The completed refunds of the payment `id` are positive and within its amount. A refund
belongs to a payment that exists. -/
structure RefundsWithin (id : Uuid) (s : Db) : Prop where
  linked : s.payments.lookup id = none → refundsOf id s = []
  positive : ∀ r ∈ refundsOf id s, r.status = .completed → 0 < r.amount
  within : ∀ row, s.payments.lookup id = some row → refundedCents id row.tenantId s ≤ row.amount

theorem refundedCents_of_refundsOf_eq_nil (h : refundsOf id s = []) :
    refundedCents id tenantId s = 0 := by
  rw [refundedCents, completedRefunds_eq, h]
  rfl

/-- One completed refund more. -/
theorem refundedCents_append (h : refundsOf id s' = refundsOf id s ++ [refund])
    (htenant : refund.tenantId = tenantId) (hcompleted : refund.status = .completed) :
    refundedCents id tenantId s' = refundedCents id tenantId s + refund.amount := by
  rw [refundedCents, completedRefunds_eq, h, List.filter_append, ← completedRefunds_eq]
  simp [refundedCents, htenant, hcompleted]

/-- A step that leaves the refunds and the amount alone. -/
theorem RefundsWithin.of_same {row row' : Payment} (h : RefundsWithin id s)
    (hrow : s.payments.lookup id = some row) (hrow' : s'.payments.lookup id = some row')
    (hrefunds : refundsOf id s' = refundsOf id s) (hsame : row.Same row') :
    RefundsWithin id s' where
  linked hnone := by
    rw [hrow'] at hnone
    cases hnone
  positive := by
    rw [hrefunds]
    exact h.positive
  within row₁ h₁ := by
    obtain rfl := Option.some.inj (hrow'.symm.trans h₁)
    have hwithin := h.within row hrow
    rwa [hsame.tenantId, hsame.amount, ← refundedCents_congr row'.tenantId hrefunds] at hwithin

/-- A payment that was just created has no refunds. -/
theorem RefundsWithin.of_new {row : Payment} (h : RefundsWithin id s)
    (hnone : s.payments.lookup id = none) (hrow : s'.payments.lookup id = some row)
    (hrefunds : refundsOf id s' = refundsOf id s) (hamount : 0 ≤ row.amount) :
    RefundsWithin id s' := by
  have hempty : refundsOf id s' = [] := hrefunds.trans (h.linked hnone)
  refine ⟨fun _ => hempty, by simp [hempty], fun row' hrow' => ?_⟩
  obtain rfl := Option.some.inj (hrow.symm.trans hrow')
  rwa [refundedCents_of_refundsOf_eq_nil hempty]

/-- Every effect keeps the bound. -/
theorem PaymentEffect.refundsWithin (he : PaymentEffect s es k) (h : RefundsWithin id s) :
    RefundsWithin id (sales.replay es s) := by
  cases he.step id with
  | kept hrow hrefunds =>
    refine ⟨fun hnone => ?_, ?_, fun row hrow' => ?_⟩
    · rw [hrefunds]
      exact h.linked (hrow ▸ hnone)
    · rw [hrefunds]
      exact h.positive
    · rw [refundedCents_congr row.tenantId hrefunds]
      exact h.within row (hrow ▸ hrow')
  | settled hrow hrow' hrefunds hopen hsame hstatus => exact h.of_same hrow hrow' hrefunds hsame
  | refundEvent hrow hrow' hrefunds hstatus => exact h.of_same hrow hrow' hrefunds (.withStatus _ _)
  | cancelled hrow hrow' hrefunds => exact h.of_same hrow hrow' hrefunds (.withStatus _ _)
  | opened hrow hrow' hrefunds hstatus hpos => exact h.of_new hrow hrow' hrefunds hpos.le
  | sold hrow hrow' hrefunds hstatus hnonneg => exact h.of_new hrow hrow' hrefunds hnonneg
  | @refunded row refund hrow hrow' hrefunds hstatus hpos hle htenant hcompleted =>
    -- what was left under the lock pays for the new refund
    refine ⟨fun hnone => ?_, fun r hr hcompleted' => ?_, fun row' hrow'' => ?_⟩
    · rw [hrow'] at hnone
      cases hnone
    · rw [hrefunds] at hr
      rcases List.mem_append.mp hr with hr | hr
      · exact h.positive r hr hcompleted'
      · obtain rfl := List.mem_singleton.mp hr
        exact hpos
    · obtain rfl := Option.some.inj (hrow'.symm.trans hrow'')
      have hsum := refundedCents_append hrefunds htenant hcompleted
      change refundedCents id row.tenantId _ ≤ row.amount
      rw [hsum]
      exact le_sub_iff_add_le'.mp hle

/-- Refunds in any interleaving, among each other and among all other payment requests: the
completed refunds of a payment stay positive and within its amount. -/
theorem reaches_refundsWithin (hs : RefundsWithin id s₀)
    (h : Reaches (.free sales) (.start s₀ (rs.map PaymentRequest.program)) c) :
    ∀ s ∈ c.history s₀, RefundsWithin id s :=
  reaches_invariant hs (fun _ _ _ hI _ he _ => he.refundsWithin hI) h

namespace PaymentSample

theorem paidShop_refundsWithin : RefundsWithin "payment" paidShop := by
  refine ⟨fun _ => rfl, fun r hr => ?_, fun row hrow => ?_⟩
  · change r ∈ [] at hr
    cases hr
  · obtain rfl : captured = row := Option.some.inj hrow
    decide

/-- The second refund reads the balance before the first one commits, and waits for it. -/
def twoRefunds : List (Action sales) :=
  List.replicate 6 (.advance 0) ++ [.reply 0 (.refundAccepted "rfnd_1")] ++
    List.replicate 2 (.advance 1) ++ List.replicate 5 (.advance 0) ++
      List.replicate 4 (.advance 1)

end PaymentSample

open PaymentSample in
/-- Two refunds of sixty rupees of a hundred: the second one is refused. -/
theorem reaches_refundsWithin_sample :
    ∃ c : Config sales Unit,
      Reaches (.free sales)
        (.start paidShop ([refundOf 6000, refundOf 6000].map PaymentRequest.program)) c ∧
      refundedCents "payment" "shop" c.committed = 6000 ∧
      ∀ s ∈ c.history paidShop, RefundsWithin "payment" s := by
  have hrun : (play (.free sales) paidShop [refundOf 6000, refundOf 6000] twoRefunds).map
      (fun c => (decide c.Quiescent, refundedCents "payment" "shop" c.committed)) =
        some (true, 6000) := by decide +kernel
  obtain ⟨c, hc, hend⟩ := Option.map_eq_some_iff.mp hrun
  have hreach := reaches_play hc
  exact ⟨c, hreach, (Prod.mk.inj hend).2, reaches_refundsWithin paidShop_refundsWithin hreach⟩

end PulseOps
