import Mathlib.Tactic.Ring
import PulseOps.Payments.Runs

/-!
# Refunds at Razorpay and refunds on record

A refund of a Razorpay payment is sent to Razorpay in the middle of the transaction that
records it. What Razorpay has accepted stays accepted when the transaction is rolled back
afterwards, and then no row tells of it. Where every transaction whose refund was accepted
commits, with a readable answer and an amount in whole minor units, Razorpay's refunds and
the COMPLETED refunds agree.

## Main definitions

* `acceptedRefund` — a call to Razorpay that was carried out there.
* `acceptedMinor` — what a transaction gave back through Razorpay.
* `carriedThrough` — the discipline: accepted refunds are committed, and readable.

## Main results

* `WroteRefund.recorded` — what one request leaves behind.
* `reaches_refundsRecorded` — every run.
-/

set_option autoImplicit false

open ReadCommitted Program Contract

namespace PulseOps

open PaymentService

variable {s s' s₀ : Db} {t : Transaction sales} {rs : List PaymentRequest}
  {c : Config sales Unit} {id : Uuid} {row : Payment} {refund : Refund}

/-- A refund request. -/
def PaymentRequest.IsRefund : PaymentRequest → Prop
  | .refund .. => True
  | _ => False

/-- A refund that Razorpay has carried out: the payment it is for, the amount, and its id
there. -/
structure AcceptedRefund where
  paymentId : Uuid
  amountMinor : ℤ
  refundId : String

/-- The refund behind a call, if it was carried out. The answer may be unreadable, or may
never have arrived. -/
def acceptedRefund : Call × Reply → Option AcceptedRefund
  | (.refundPayment _ _ amountMinor paymentId _, .refundAccepted refundId) =>
    some ⟨paymentId, amountMinor, refundId⟩
  | (.refundPayment _ _ amountMinor paymentId _, .unreadable refundId) =>
    some ⟨paymentId, amountMinor, refundId⟩
  | (.refundPayment _ _ amountMinor paymentId _, .lost refundId) =>
    some ⟨paymentId, amountMinor, refundId⟩
  | _ => none

/-- What Razorpay carried out for a transaction. -/
def acceptedRefunds (t : Transaction sales) : List AcceptedRefund :=
  t.calls.filterMap acceptedRefund

/-- What a transaction gave back of the payment through Razorpay, in minor units. -/
def acceptedMinor (id : Uuid) (t : Transaction sales) : ℤ :=
  ((acceptedRefunds t).map fun r => if r.paymentId = id then r.amountMinor else 0).sum

/-- Whether the amount is a whole number of the minor units of its currency. -/
def wholeMinorUnits (amount : Cents) (currency : String) : Bool :=
  100 * Razorpay.toMinorUnits amount currency =
    10 ^ Razorpay.minorUnitDigits currency * amount

/-- A transaction is not rolled back once Razorpay has carried out its refund; the answer it
commits with was readable, and the amount is in whole minor units. -/
def carriedThrough : Discipline sales where
  commit _ t := (acceptedRefunds t).isEmpty || t.edits.all fun
    | .refundInsert refund =>
      refund.providerRefundId.isSome && wholeMinorUnits refund.amount refund.currency
    | _ => true
  rollback t := (acceptedRefunds t).isEmpty

/-! ### One request -/

/-- A transaction that sent nothing gave nothing back. -/
theorem acceptedMinor_of_isEmpty (h : (acceptedRefunds t).isEmpty = true) :
    acceptedMinor id t = 0 := by
  rw [acceptedMinor, List.isEmpty_iff.mp h]
  rfl

/-- What a refund transaction leaves behind: its row, and a refund at Razorpay of the same
amount, if the payment was taken there. -/
theorem PaymentService.WroteRefund.sent (h : WroteRefund t s) :
    ∃ row refund, s.payments.lookup refund.paymentId = some row ∧
      (t.view s).refunds = s.refunds ++ [refund] ∧ .refundInsert refund ∈ t.edits ∧
      refund.tenantId = row.tenantId ∧ refund.status = .completed ∧
      refund.currency = row.currency ∧
      ((row.provider ≠ razorpayProvider ∧ acceptedRefunds t = []) ∨
        ∃ rid, acceptedRefunds t = [⟨refund.paymentId,
            Razorpay.toMinorUnits refund.amount row.currency, rid⟩] ∧
          refund.providerRefundId.all fun ref => ref = rid) := by
  obtain ⟨row, refunded, refund, cs, x, hrecord, -, h⟩ := h
  obtain ⟨⟨⟨-, hrow⟩, -⟩, hcalls⟩ := h.fact
  have hcalls : t.calls = cs := hcalls
  have hmem : .refundInsert refund ∈ t.edits :=
    mem_of_mem_coreEdits (h.core ▸ List.mem_cons_self)
  refine ⟨row, refund, hrow, refunds_replay h.core, hmem, hrecord.tenantId, hrecord.completed,
    hrecord.currency, ?_⟩
  obtain ⟨hsent, -⟩ := hrecord
  generalize refund.providerRefundId = ref at hsent
  cases hsent with
  | internal hprovider =>
    refine .inl ⟨hprovider, ?_⟩
    rw [acceptedRefunds, hcalls]
    rfl
  | @accepted keyId razorpayPaymentId rid reason hprovider =>
    refine .inr ⟨rid, ?_, by simp⟩
    rw [acceptedRefunds, hcalls]
    rfl
  | @unreadable keyId razorpayPaymentId rid reason hprovider =>
    refine .inr ⟨rid, ?_, rfl⟩
    rw [acceptedRefunds, hcalls]
    rfl

/-- What a refund transaction that may commit leaves behind: the refund at Razorpay has the id
in the row. -/
theorem PaymentService.WroteRefund.recorded (h : WroteRefund t s)
    (hok : carriedThrough.commit s t = true) :
    ∃ row refund, s.payments.lookup refund.paymentId = some row ∧
      (t.view s).refunds = s.refunds ++ [refund] ∧ refund.tenantId = row.tenantId ∧
      refund.status = .completed ∧
      ((row.provider ≠ razorpayProvider ∧ acceptedRefunds t = []) ∨
        ∃ minor rid, acceptedRefunds t = [⟨refund.paymentId, minor, rid⟩] ∧
          refund.providerRefundId = some rid ∧
          100 * minor = 10 ^ Razorpay.minorUnitDigits row.currency * refund.amount) := by
  obtain ⟨row, refund, hrow, hrefunds, hmem, htenant, hcompleted, hcurrency, hsent⟩ := h.sent
  refine ⟨row, refund, hrow, hrefunds, htenant, hcompleted, ?_⟩
  rcases hsent with hother | ⟨rid, haccepted, href⟩
  · exact .inl hother
  · simp only [carriedThrough, haccepted, List.isEmpty_cons, Bool.false_or] at hok
    obtain ⟨hsome, hwhole⟩ := (Bool.and_eq_true _ _).mp (List.all_eq_true.mp hok _ hmem)
    obtain ⟨ref, hid⟩ := Option.isSome_iff_exists.mp hsome
    rw [hid] at href
    obtain rfl : ref = rid := of_decide_eq_true href
    rw [hcurrency] at hwhole
    exact .inr ⟨_, ref, haccepted, hid, of_decide_eq_true hwhole⟩

/-- A refund request meets its precondition when it starts. -/
theorem wp_refund {R : Discipline sales} {r : PaymentRequest} (hr : r.IsRefund) (s₀ : Db) :
    paymentContract.wp R (paymentContract.Commits R fun _ => WroteRefund) r.program {} s₀ := by
  have hstart : At (.calls []) [] {} s₀ := ⟨rfl, by simp [Covered], rfl⟩
  cases r with
  | refund =>
    exact wp_mono (triple_discard PaymentService.triple_refund WroteRefund.stable {} s₀ trivial
      hstart) fun _ _ _ h _ _ => ⟨h.settled.guarantee, h⟩
  | _ => exact hr.elim

/-! ### Runs -/

/-- Every refund that Razorpay carried out for a transaction that has ended is on record. -/
def Recorded (c : Config sales Unit) : Prop :=
  ∀ x ∈ c.sessions, x.ended = true → ∀ a ∈ acceptedRefunds x.transaction,
    ∃ r ∈ c.committed.refunds, r.paymentId = a.paymentId ∧ r.status = .completed ∧
      r.providerRefundId = some a.refundId

/-- The refunds at Razorpay since the start, and the refunds on record. -/
structure RefundBalance (id : Uuid) (row : Payment) (s₀ : Db) (c : Config sales Unit) : Prop where
  evolves : Evolves s₀ c.committed
  recorded : Recorded c
  sums : 100 * c.endedTotal (acceptedMinor id) = 10 ^ Razorpay.minorUnitDigits row.currency *
    (refundedCents id row.tenantId c.committed - refundedCents id row.tenantId s₀)

/-- The session of a step is replaced, and what the others did stays on record. -/
theorem Recorded.set {i : ℕ} {x : Session sales Unit} {c c' : Config sales Unit}
    (h : Recorded c) (hsessions : c'.sessions = c.sessions.set i x)
    (hrefunds : ∀ r ∈ c.committed.refunds, r ∈ c'.committed.refunds)
    (hx : x.ended = true → ∀ a ∈ acceptedRefunds x.transaction,
      ∃ r ∈ c'.committed.refunds, r.paymentId = a.paymentId ∧ r.status = .completed ∧
        r.providerRefundId = some a.refundId) : Recorded c' := by
  intro y hy hended a ha
  rw [hsessions] at hy
  rcases List.mem_or_eq_of_mem_set hy with hy | rfl
  · obtain ⟨r, hr, hrest⟩ := h y hy hended a ha
    exact ⟨r, hrefunds r hr, hrest⟩
  · exact hx hended a ha

/-- A refund of another payment, or of this one. -/
theorem refundedCents_of_append (id tenantId : Uuid) (h : s'.refunds = s.refunds ++ [refund])
    (htenant : refund.paymentId = id → refund.tenantId = tenantId)
    (hcompleted : refund.status = .completed) :
    refundedCents id tenantId s' =
      refundedCents id tenantId s + if refund.paymentId = id then refund.amount else 0 := by
  simp only [refundedCents, completedRefunds, h, List.filter_append, List.map_append,
    List.sum_append]
  by_cases hid : refund.paymentId = id
  · simp [hid, htenant hid, hcompleted]
  · simp [hid]

/-- In every run of refund requests in which no transaction fails once Razorpay has carried
out its refund, the refunds at Razorpay are on record under their ids, and what was given
back of a Razorpay payment there is what its COMPLETED refunds say. -/
theorem reaches_refundsRecorded (hrs : ∀ r ∈ rs, r.IsRefund)
    (hrow : s₀.payments.lookup id = some row) (hprovider : row.provider = razorpayProvider)
    (h : Reaches carriedThrough (.start s₀ (rs.map PaymentRequest.program)) c) :
    Recorded c ∧ 100 * c.endedTotal (acceptedMinor id) =
      10 ^ Razorpay.minorUnitDigits row.currency *
        (refundedCents id row.tenantId c.committed - refundedCents id row.tenantId s₀) := by
  have hbalance : RefundBalance id row s₀ c := by
    refine reaches_induction (L := paymentContract) (Q := fun _ => WroteRefund)
      (P := RefundBalance id row s₀) trivial (fun p hp => ?_) ⟨.refl s₀, fun x hx hended => ?_, ?_⟩
      (fun c i a t hP hi hok _ hg hwrote => ?_) (fun c i p t hP hi hok => ?_)
      (fun c i p p' t t' hP hi => ?_) h
    · -- every request is a refund, so it writes the refund it has sent
      obtain ⟨r, hr, rfl⟩ := List.mem_map.mp hp
      exact wp_refund (hrs r hr) s₀
    · -- nothing has been sent at the start
      obtain ⟨p, -, rfl⟩ := List.mem_map.mp hx
      cases hended
    · rw [Config.endedTotal_start]
      simp [Config.start]
    · -- a commit: the row that was found has the provider and the currency of the start
      obtain ⟨found, refund, hfound, hrefunds, htenant, hcompleted, hsent⟩ := hwrote.recorded hok
      have hsame (heq : refund.paymentId = id) : row.Same found := by
        obtain ⟨row', hrow', hsame⟩ := hP.evolves.payment id row hrow
        rw [heq] at hfound
        rwa [← Option.some.inj (hrow'.symm.trans hfound)]
      have hcents := refundedCents_of_append id row.tenantId hrefunds
        (fun heq => htenant.trans (hsame heq).tenantId.symm) hcompleted
      refine
        ⟨hP.evolves.trans hg.evolves, hP.recorded.set rfl (fun r hr => ?_) fun _ a ha => ?_, ?_⟩
      · change r ∈ (t.view c.committed).refunds
        rw [hrefunds]
        exact List.mem_append_left _ hr
      · refine ⟨refund, ?_, ?_⟩
        · change refund ∈ (t.view c.committed).refunds
          rw [hrefunds]
          exact List.mem_append_right _ List.mem_cons_self
        · change a ∈ acceptedRefunds t at ha
          rcases hsent with ⟨-, hnone⟩ | ⟨minor, rid, haccepted, href, -⟩
          · rw [hnone] at ha
            cases ha
          · rw [haccepted] at ha
            obtain rfl := List.mem_singleton.mp ha
            exact ⟨rfl, hcompleted, href⟩
      · have hminor : 100 * acceptedMinor id t = 10 ^ Razorpay.minorUnitDigits row.currency *
            if refund.paymentId = id then refund.amount else 0 := by
          rcases hsent with ⟨hother, hnone⟩ | ⟨minor, rid, haccepted, -, hwhole⟩
          · have hne : refund.paymentId ≠ id := fun heq =>
              hother ((hsame heq).provider.symm.trans hprovider)
            simp [acceptedMinor, hnone, hne]
          · by_cases heq : refund.paymentId = id
            · rw [← (hsame heq).currency] at hwhole
              simp [acceptedMinor, haccepted, heq, hwhole]
            · simp [acceptedMinor, haccepted, heq]
        rw [Config.endedTotal_commit _ hi]
        change _ = _ * (refundedCents id row.tenantId (t.view c.committed) - _)
        rw [hcents, mul_add, hP.sums, hminor]
        ring
    · -- an abort: Razorpay has not accepted a refund of this transaction
      refine ⟨hP.evolves, hP.recorded.set rfl (fun r hr => hr) fun _ a ha => ?_, ?_⟩
      · change a ∈ acceptedRefunds t at ha
        rw [List.isEmpty_iff.mp hok] at ha
        cases ha
      · rw [Config.endedTotal_abort _ hi, acceptedMinor_of_isEmpty hok, add_zero]
        exact hP.sums
    · -- any other step: the transaction goes on, and counts when it has ended
      refine ⟨hP.evolves, hP.recorded.set rfl (fun r hr => hr) fun hended => ?_, ?_⟩
      · cases hended
      · rw [Config.endedTotal_run _ hi]
        exact hP.sums
  exact ⟨hbalance.recorded, hbalance.sums⟩

/-! ### A refund that is sent twice -/

namespace PaymentSample

/-- Up to the call to Razorpay, which accepts the refund. -/
def sendRefundOf (i : ℕ) (refundId : String) : List (Action sales) :=
  List.replicate 6 (.advance i) ++ [.reply i (.refundAccepted refundId)]

/-- The writes of a refund, and the commit. -/
def writeRefundOf (i : ℕ) : List (Action sales) := List.replicate 5 (.advance i)

/-- What Razorpay gave back of the payment, and what the refunds say. -/
def givenBack (c : Config sales Unit) : ℤ × Cents :=
  (c.endedTotal (acceptedMinor "payment"), refundedCents "payment" "shop" c.committed)

end PaymentSample

open PaymentSample in
/-- Two refunds that go through. -/
theorem reaches_refundsRecorded_sample :
    ∃ c : Config sales Unit,
      Reaches carriedThrough
        (.start paidShop ([refundOf 6000, refundOf 4000].map PaymentRequest.program)) c ∧
      c.Quiescent ∧ givenBack c = (10000, 10000) ∧ Recorded c := by
  have hrun : (play carriedThrough paidShop [refundOf 6000, refundOf 4000]
      (sendRefundOf 0 "rfnd_1" ++ writeRefundOf 0 ++ sendRefundOf 1 "rfnd_2" ++
        writeRefundOf 1)).map (fun c => (decide c.Quiescent, givenBack c)) =
        some (true, 10000, 10000) := by decide +kernel
  obtain ⟨c, hc, hend⟩ := Option.map_eq_some_iff.mp hrun
  obtain ⟨hquiescent, hgiven⟩ := Prod.mk.inj hend
  have hreach := reaches_play hc
  refine ⟨c, hreach, of_decide_eq_true hquiescent, hgiven, ?_⟩
  have hrs : ∀ r ∈ [refundOf 6000, refundOf 4000], r.IsRefund := by
    intro r hr
    rcases List.mem_pair.mp hr with rfl | rfl <;> trivial
  have hrow : paidShop.payments.lookup "payment" = some captured := rfl
  exact (reaches_refundsRecorded hrs hrow rfl hreach).1

open PaymentSample in
/-- The first request times out after Razorpay has accepted its refund, and is repeated:
Razorpay gives back twice what is on record. -/
theorem rolledBack_not_recorded :
    ∃ c : Config sales Unit,
      Reaches (.free sales)
        (.start paidShop ([refundOf 3000, refundOf 3000].map PaymentRequest.program)) c ∧
      c.Quiescent ∧ givenBack c = (6000, 3000) ∧ ¬ Recorded c := by
  have hrun : (play (.free sales) paidShop [refundOf 3000, refundOf 3000]
      (sendRefundOf 0 "rfnd_1" ++ [.rollback 0] ++ sendRefundOf 1 "rfnd_2" ++
        writeRefundOf 1)).map (fun c => (decide c.Quiescent, givenBack c,
          c.committed.refunds.map (·.providerRefundId),
          (c.sessions.flatMap fun x => acceptedRefunds x.transaction).map (·.refundId))) =
        some (true, (6000, 3000), [some "rfnd_2"], ["rfnd_1", "rfnd_2"]) := by decide +kernel
  obtain ⟨c, hc, hend⟩ := Option.map_eq_some_iff.mp hrun
  obtain ⟨hquiescent, hend⟩ := Prod.mk.inj hend
  obtain ⟨hgiven, hend⟩ := Prod.mk.inj hend
  obtain ⟨hrefunds, haccepted⟩ := Prod.mk.inj hend
  have hquiescent := of_decide_eq_true hquiescent
  refine ⟨c, reaches_play hc, hquiescent, hgiven, fun hrecorded => ?_⟩
  have hfirst : "rfnd_1" ∈
      (c.sessions.flatMap fun x => acceptedRefunds x.transaction).map (·.refundId) := by
    rw [haccepted]
    simp
  obtain ⟨a, ha, hid⟩ := List.mem_map.mp hfirst
  obtain ⟨x, hx, ha⟩ := List.mem_flatMap.mp ha
  obtain ⟨r, hr, -, -, href⟩ := hrecorded x hx (hquiescent x hx) a ha
  have hmem : some a.refundId ∈ c.committed.refunds.map (·.providerRefundId) :=
    List.mem_map.mpr ⟨r, hr, href⟩
  rw [hrefunds, hid] at hmem
  exact absurd hmem (by decide)

end PulseOps
