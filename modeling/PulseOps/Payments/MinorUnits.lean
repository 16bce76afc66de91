import Mathlib.Tactic.Linarith
import PulseOps.Invoices.Rounding
import PulseOps.Payments.RefundBound
import PulseOps.Payments.RefundRecords
import PulseOps.ReadCommitted.Attempts

/-!
# Refunds in minor units

Amounts are kept in hundredths and sent to Razorpay in the minor units of the currency, each
rounded by itself. With two or three decimals nothing is lost. Without decimals an amount with
hundredths is rounded, so that the parts of a refund can come to more than the whole that was
charged. The conversions of a payment are exact in all states of a run if and only if its order
total and every refund are whole numbers of minor units.

## Main definitions

* `Razorpay.WholeUnits` — an amount that is a whole number of minor units.
* `sentMinor` — what the accepted refund requests have sent for a payment.
* `ConvertsExactly` — nothing is gained or lost in the conversions of a payment.

## Main results

* `Razorpay.toMinorUnits_exact_iff` — when one conversion is exact.
* `ends_start` — what an online payment is started with.
* `reaches_refundsSent` — what was sent, refund by refund.
* `converts_exactly_iff` — the conversions of a run.
-/

set_option autoImplicit false

open ReadCommitted Program Contract

namespace PulseOps

open PaymentService

/-! ### One conversion -/

namespace Razorpay

variable {amount : Cents} {currency : String}

/-- The amount is a whole number of the minor units of its currency. -/
def WholeUnits (amount : Cents) (currency : String) : Prop :=
  (100 : ℤ) ∣ amount * 10 ^ minorUnitDigits currency

instance (amount : Cents) (currency : String) : Decidable (WholeUnits amount currency) :=
  inferInstanceAs (Decidable ((100 : ℤ) ∣ _))

/-- With two or three decimals every amount is. -/
theorem wholeUnits_of_two_le (h : 2 ≤ minorUnitDigits currency) : WholeUnits amount currency := by
  have hpow : (10 : ℤ) ^ 2 ∣ 10 ^ minorUnitDigits currency := pow_dvd_pow 10 h
  exact dvd_mul_of_dvd_right hpow amount

/-- Nothing is lost in the conversion of whole amounts, and only in theirs. -/
theorem toMinorUnits_exact_iff :
    100 * toMinorUnits amount currency = 10 ^ minorUnitDigits currency * amount ↔
      WholeUnits amount currency := by
  rw [toMinorUnits, WholeUnits, mul_comm (10 ^ _)]
  constructor
  · intro h
    exact ⟨_, h.symm⟩
  · rintro ⟨q, hq⟩
    have hround : Gst.roundDiv (amount * 10 ^ minorUnitDigits currency) 100 = q := by
      rw [Gst.roundDiv_eq_iff (by decide), hq]
      constructor <;> linarith
    rw [hround, hq]

end Razorpay

variable {s s' s₀ : Db} {es : List Edit} {rs : List PaymentRequest} {c c' : Config sales Unit}
  {R : Discipline sales} {t : Transaction sales} {id tenantId orderId : Uuid} {row : Payment}
  {i : ℕ} {minor : ℤ}

/-! ### Starting a payment -/

/-- The calls and the payment of a transaction that starts a payment: it resumes one that is
there, or it asks Razorpay for what its new row says. -/
def StartsWith (tenantId orderId paymentId : Uuid) (es : List Edit) (cs : List Call) : Prop :=
  cs = [] ∨ ∃ row keyId, .paymentInsert paymentId row ∈ es ∧ row.tenantId = tenantId ∧
    row.orderId = orderId ∧ row.provider = razorpayProvider ∧
    cs = [.createOrder keyId (Razorpay.toMinorUnits row.amount row.currency) row.currency orderId
      tenantId orderId]

theorem ends_createOrder (credentials : Razorpay.Credentials) (amountMinor : ℤ)
    (currency receipt : String) (tenantId orderId : Uuid) :
    (Razorpay.createOrder credentials amountMinor currency receipt tenantId orderId).Ends
      (fun es' cs _ => es' = es ∧
        cs = [.createOrder credentials.keyId amountMinor currency receipt tenantId orderId])
      es [] := by
  intro r
  cases r with
  | orderCreated rzpOrderId => exact ⟨rfl, rfl⟩
  | unreadable rzpOrderId => exact ⟨rfl, rfl⟩
  | _ => trivial

theorem ends_openPayment {paymentId : Uuid} {order : Order} {currency : String}
    {credentials : Razorpay.Credentials} {userId : Option Uuid} :
    (RazorpayPaymentsService.openPayment tenantId orderId paymentId order currency
      (Razorpay.toMinorUnits order.total currency) credentials userId).Ends
      (fun es cs _ => StartsWith tenantId orderId paymentId es cs) es [] := by
  apply (ends_createOrder _ _ _ _ _ _).bind
  rintro es' cs rzpOrderId ⟨-, rfl⟩
  apply ends_perform_bind
  intro s e he
  obtain ⟨-, -, hcreated⟩ := Statement.insertPayment_eq_ok he
  have hmem := List.mem_append_right es' (List.mem_singleton.mpr hcreated.symm)
  apply ends_perform_bind
  intro s' e' he'
  exact .inr ⟨_, _, List.mem_append_left _ hmem, rfl, rfl, rfl, rfl⟩

/-- A started payment is charged at Razorpay as its row says. -/
theorem ends_start {paymentId : Uuid} {userId : Option Uuid} :
    (RazorpayPaymentsService.start tenantId orderId paymentId userId).Ends
      (fun es cs _ => StartsWith tenantId orderId paymentId es cs) [] [] := by
  apply ends_query_bind
  intro account
  apply ends_orRaise_bind
  intro credentials _
  apply ends_lockRow_bind
  apply ends_query_bind
  intro found
  apply ends_orRaise_bind
  intro order _
  apply ends_require_bind
  intro _
  apply ends_query_bind
  intro paid
  apply ends_require_bind
  intro _
  apply ends_require_bind
  intro _
  apply ends_query_bind
  intro active
  split
  · exact ends_openPayment
  -- an open attempt is taken up again, or cancelled when it is stale
  rename_i attempt
  split
  · exact .inl rfl
  · apply ends_perform_bind
    intro s e he
    exact ends_openPayment

/-- The payment that a start has inserted: it is new, and its amount is the total of its
order. -/
theorem PaymentEffect.started {k : EffectKind} {tenantId orderId paymentId : Uuid}
    {userId : Option Uuid} (h : PaymentEffect s es k)
    (hk : k ∈ (PaymentRequest.start tenantId orderId paymentId userId).kinds)
    (hmem : .paymentInsert id row ∈ es) :
    s.payments.lookup id = none ∧ (sales.replay es s).payments.lookup id = some row ∧
      ∃ order, s.orders.lookup row.orderId = some order ∧ row.amount = order.total ∧
        0 < order.total := by
  have hcoreMem : .paymentInsert id row ∈ coreEdits es := List.mem_filter.mpr ⟨hmem, rfl⟩
  cases h with
  | note hcore =>
    rw [hcore] at hcoreMem
    cases hcoreMem
  | late hcore htype hnoted =>
    rw [hcore] at hcoreMem
    cases List.mem_singleton.mp hcoreMem
  | @opened stale p order hcore hstale hfresh horder hamount hpos hstatus =>
    rw [hcore] at hcoreMem
    obtain ⟨rfl, rfl⟩ : id = p.id ∧ row = p.row := by
      simpa [NewPayment.edits, chargeEdit, cancelEdit] using hcoreMem
    refine ⟨hfresh, ?_, order, horder, hamount, hpos⟩
    rw [payments_replay hcore, Database.replay_append]
    exact AList.lookup_insert _
  | _ => simp [PaymentRequest.kinds] at hk

/-! ### The sums of a run -/

/-- What the transaction of the request `i` has sent for the payment, if it is a refund. -/
def refundMinor (rs : List PaymentRequest) (id : Uuid) (i : ℕ) (t : Transaction sales) : ℤ :=
  match rs[i]? with
  | some (.refund ..) => acceptedMinor id t
  | _ => 0

/-- What the accepted refund requests have sent for the payment. -/
def sentMinor (rs : List PaymentRequest) (id : Uuid) (c : Config sales Unit) : ℤ :=
  c.committedTotal (refundMinor rs id)

/-- Once the payment is there, its refunds are COMPLETED ones of its tenant, and what was sent
for each of them is its amount, converted by itself. -/
structure RefundsSent (rs : List PaymentRequest) (id : Uuid) (c : Config sales Unit) : Prop where
  missing : c.committed.payments.lookup id = none →
    refundsOf id c.committed = [] ∧ sentMinor rs id c = 0
  refunds : ∀ row, c.committed.payments.lookup id = some row → ∀ r ∈ refundsOf id c.committed,
    r.tenantId = row.tenantId ∧ r.status = .completed
  sent : ∀ row, c.committed.payments.lookup id = some row → row.provider = razorpayProvider →
    sentMinor rs id c = ((refundsOf id c.committed).map fun r =>
      Razorpay.toMinorUnits r.amount row.currency).sum

/-- Some refunds more, and what was sent for them. -/
theorem RefundsSent.step {news : List Refund} {m : ℤ} (h : RefundsSent rs id c)
    (hevolves : Evolves c.committed c'.committed)
    (hrefunds : refundsOf id c'.committed = refundsOf id c.committed ++ news)
    (hsent : sentMinor rs id c' = sentMinor rs id c + m)
    (hmissing : c.committed.payments.lookup id = none → news = [] ∧ m = 0)
    (hnews : ∀ row, c.committed.payments.lookup id = some row →
      (∀ r ∈ news, r.tenantId = row.tenantId ∧ r.status = .completed) ∧
        (row.provider = razorpayProvider →
          m = (news.map fun r => Razorpay.toMinorUnits r.amount row.currency).sum)) :
    RefundsSent rs id c' := by
  cases hrow : c.committed.payments.lookup id with
  | none =>
    -- the payment may just have been created, without refunds
    obtain ⟨hnone, hzero⟩ := h.missing hrow
    obtain ⟨rfl, rfl⟩ := hmissing hrow
    rw [hnone] at hrefunds
    rw [hzero, add_zero] at hsent
    refine ⟨fun _ => ⟨hrefunds, hsent⟩, fun row' _ r hr => ?_, fun row' _ _ => ?_⟩
    · rw [hrefunds] at hr
      cases hr
    · rw [hrefunds, hsent]
      rfl
  | some row =>
    obtain ⟨row', hrow', hsame⟩ := hevolves.payment id row hrow
    obtain ⟨hgood, hminor⟩ := hnews row hrow
    refine ⟨fun hnone => ?_, fun row'' hrow'' r hr => ?_, fun row'' hrow'' hprovider => ?_⟩
    · rw [hrow'] at hnone
      cases hnone
    · obtain rfl := Option.some.inj (hrow'.symm.trans hrow'')
      rw [← hsame.tenantId]
      rw [hrefunds] at hr
      rcases List.mem_append.mp hr with hr | hr
      · exact h.refunds row hrow r hr
      · exact hgood r hr
    · obtain rfl := Option.some.inj (hrow'.symm.trans hrow'')
      rw [← hsame.provider] at hprovider
      rw [← hsame.currency, hrefunds, List.map_append, List.sum_append, hsent,
        h.sent row hrow hprovider, hminor hprovider]

/-- Only refund requests send refunds. -/
theorem refundMinor_eq_zero {r : PaymentRequest} (hr : rs[i]? = some r) (hnot : ¬ r.IsRefund) :
    refundMinor rs id i t = 0 := by
  rw [refundMinor, hr]
  cases r with
  | refund => exact absurd trivial hnot
  | _ => rfl

theorem refundMinor_eq {r : PaymentRequest} (hr : rs[i]? = some r) (hrefund : r.IsRefund) :
    refundMinor rs id i t = acceptedMinor id t := by
  rw [refundMinor, hr]
  cases r with
  | refund => rfl
  | _ => exact hrefund.elim

/-- The request `i` has started the payment with this row. -/
structure StartedBy (rs : List PaymentRequest) (id : Uuid) (c : Config sales Unit) (i : ℕ)
    (t : Transaction sales) (row : Payment) : Prop where
  request : ∃ tenantId orderId userId, rs[i]? = some (.start tenantId orderId id userId)
  committed : c.sessions[i]? = some (.committed () t)
  inserted : .paymentInsert id row ∈ t.edits

/-- What is known of the payment in a run: how it was started, and what was sent for it. -/
structure Trail (rs : List PaymentRequest) (id : Uuid) (s₀ : Db) (c : Config sales Unit) :
    Prop where
  evolves : Evolves s₀ c.committed
  started : ∀ i t row, StartedBy rs id c i t row → s₀.payments.lookup id = none ∧
    (∃ row', c.committed.payments.lookup id = some row' ∧ row.Same row') ∧
    ∃ order, c.committed.orders.lookup row.orderId = some order ∧ row.amount = order.total ∧
      0 < order.total
  sent : s₀.payments.lookup id = none → RefundsSent rs id c

/-- A session that has not committed has started nothing, and the others stay. -/
theorem Trail.set {x : Session sales Unit} (h : Trail rs id s₀ c)
    (hx : ∀ t, x ≠ .committed () t)
    (hsent : sentMinor rs id (c.setSession i x) = sentMinor rs id c) :
    Trail rs id s₀ (c.setSession i x) where
  evolves := h.evolves
  started j t row hstarted := by
    obtain ⟨hrequest, hsession, hinserted⟩ := hstarted
    rcases getElem?_setSession hsession with ⟨-, heq⟩ | ⟨-, hsession⟩
    · exact absurd heq.symm (hx t)
    · exact h.started j t row ⟨hrequest, hsession, hinserted⟩
  sent hnone := by
    obtain ⟨hmissing, hrefunds, hminor⟩ := h.sent hnone
    rw [← hsent] at hmissing hminor
    exact ⟨hmissing, hrefunds, hminor⟩

/-- What the commit of a request sends for the payment. -/
theorem RefundsSent.commit {r : PaymentRequest} (h : RefundsSent rs id c)
    (hi : c.sessions[i]? = some (.running (.ret ()) t)) (hr : rs[i]? = some r)
    (hevolves : Evolves c.committed (t.view c.committed))
    (hsettled : Settled r.kinds t c.committed)
    (hwrote : r.IsRefund → WroteRefund t c.committed) : RefundsSent rs id (c.commit i () t) := by
  have hsent : sentMinor rs id (c.commit i () t) = sentMinor rs id c + refundMinor rs id i t :=
    Config.committedTotal_commit _ hi
  by_cases hrefund : r.IsRefund
  · obtain ⟨row, refund, hrow, hrefunds, -, htenant, hcompleted, -, hcalls⟩ :=
      (hwrote hrefund).sent
    have hnews : refundsOf id (t.view c.committed) =
        refundsOf id c.committed ++ [refund].filter (·.paymentId = id) := by
      rw [refundsOf, hrefunds, List.filter_append]
      rfl
    rw [refundMinor_eq hr hrefund] at hsent
    -- a refund of this payment counts in both sums, one of another payment in neither
    by_cases hid : refund.paymentId = id
    · subst hid
      have hlast : [refund].filter (·.paymentId = refund.paymentId) = [refund] := by simp
      rw [hlast] at hnews
      refine h.step hevolves hnews hsent (fun hnone => ?_) fun row' hrow' => ?_
      · rw [hrow] at hnone
        cases hnone
      obtain rfl := Option.some.inj (hrow.symm.trans hrow')
      refine ⟨fun r hr => ?_, fun hprovider => ?_⟩
      · obtain rfl := List.mem_singleton.mp hr
        exact ⟨htenant, hcompleted⟩
      · rcases hcalls with ⟨hother, -⟩ | ⟨rid, haccepted, -⟩
        · exact absurd hprovider hother
        · simp [acceptedMinor, haccepted]
    · have hnone : [refund].filter (·.paymentId = id) = [] := by simp [hid]
      have hzero : acceptedMinor id t = 0 := by
        rcases hcalls with ⟨-, hcalls⟩ | ⟨rid, hcalls, -⟩
        · simp [acceptedMinor, hcalls]
        · simp [acceptedMinor, hcalls, hid]
      rw [hnone] at hnews
      exact h.step hevolves hnews hsent (fun _ => ⟨rfl, hzero⟩) fun _ _ =>
        ⟨fun _ hr => absurd hr List.not_mem_nil, fun _ => hzero⟩
  · -- the other requests give nothing back
    obtain ⟨-, k, hk, heffect⟩ := hsettled
    have hkind : k ≠ .refund := by
      rintro rfl
      cases r with
      | refund => exact hrefund trivial
      | _ => simp [PaymentRequest.kinds] at hk
    have hnews : refundsOf id (t.view c.committed) = refundsOf id c.committed ++ [] :=
      (heffect.refundsOf_eq hkind).trans (List.append_nil _).symm
    have hzero : refundMinor rs id i t = 0 := refundMinor_eq_zero hr hrefund
    exact h.step hevolves hnews hsent (fun _ => ⟨rfl, hzero⟩) fun _ _ =>
      ⟨fun _ hr => absurd hr List.not_mem_nil, fun _ => hzero⟩

theorem Trail.commit {r : PaymentRequest} (h : Trail rs id s₀ c)
    (hi : c.sessions[i]? = some (.running (.ret ()) t)) (hr : rs[i]? = some r)
    (hevolves : Evolves c.committed (t.view c.committed))
    (hsettled : Settled r.kinds t c.committed)
    (hwrote : r.IsRefund → WroteRefund t c.committed) : Trail rs id s₀ (c.commit i () t) where
  evolves := h.evolves.trans hevolves
  started j t' row hstarted := by
    obtain ⟨hrequest, hsession, hinserted⟩ := hstarted
    rcases getElem?_setSession hsession with ⟨rfl, heq⟩ | ⟨hne, hsession⟩
    · -- the payment is new at this commit, so it was not there at the start either
      cases heq
      obtain ⟨tenantId, orderId, userId, hstart⟩ := hrequest
      obtain rfl := Option.some.inj (hr.symm.trans hstart)
      obtain ⟨-, k, hk, heffect⟩ := hsettled
      obtain ⟨hnone, hrow, order, horder, hamount⟩ := heffect.started hk hinserted
      refine ⟨?_, ⟨row, hrow, .refl row⟩, order, hevolves.order _ _ horder, hamount⟩
      cases hrow₀ : s₀.payments.lookup id with
      | none => rfl
      | some row₀ =>
        obtain ⟨row', hrow', -⟩ := h.evolves.payment id row₀ hrow₀
        rw [hnone] at hrow'
        cases hrow'
    · obtain ⟨hnone, ⟨row', hrow', hsame⟩, order, horder, hamount⟩ :=
        h.started j t' row ⟨hrequest, hsession, hinserted⟩
      obtain ⟨row'', hrow'', hsame'⟩ := hevolves.payment id row' hrow'
      exact ⟨hnone, ⟨row'', hrow'', hsame.trans hsame'⟩, order, hevolves.order _ _ horder, hamount⟩
  sent hnone := (h.sent hnone).commit hi hr hevolves hsettled hwrote

/-- Every run leaves such a trail. A refund belongs to a payment that exists. -/
theorem reaches_trail (hlinked : s₀.payments.lookup id = none → refundsOf id s₀ = [])
    (h : Reaches R (.start s₀ (rs.map PaymentRequest.program)) c) : Trail rs id s₀ c := by
  refine reaches_induction_indexed (L := paymentContract) (P := Trail rs id s₀)
    (Q := fun i _ t s => ∃ r, rs[i]? = some r ∧ Settled r.kinds t s ∧
      (r.IsRefund → WroteRefund t s)) trivial (fun i p hp => ?_) ?_
    (fun c i a t hP hi hok _ hg hQ => ?_) (fun c i p t hP hi hok => ?_)
    (fun c i p p' t t' hP hi => ?_) h
  · rw [List.getElem?_map, Option.map_eq_some_iff] at hp
    obtain ⟨r, hr, rfl⟩ := hp
    -- only a refund promises what it has sent
    by_cases hrefund : r.IsRefund
    · refine wp_mono (wp_refund hrefund s₀) fun _ t s h hs hok => ?_
      obtain ⟨hg, hwrote⟩ := h hs hok
      refine ⟨hg, r, hr, ?_, fun _ => hwrote⟩
      cases r with
      | refund => exact hwrote.settled
      | _ => exact hrefund.elim
    · refine wp_mono (wp_program r s₀) fun _ t s h hs hok => ?_
      obtain ⟨hg, hsettled⟩ := h hs hok
      exact ⟨hg, r, hr, hsettled, fun h => absurd h hrefund⟩
  · refine ⟨.refl s₀, fun i t row hstarted => ?_, fun hnone => ?_⟩
    · have hsession := hstarted.committed
      simp [Config.start] at hsession
    · have hzero : sentMinor rs id (.start s₀ (rs.map PaymentRequest.program)) = 0 :=
        Config.committedTotal_start _ _ _
      refine ⟨fun _ => ⟨hlinked hnone, hzero⟩, fun row hrow => ?_, fun row hrow => ?_⟩
      · cases hnone.symm.trans hrow
      · cases hnone.symm.trans hrow
  · -- a commit; nothing else changes what is committed
    obtain ⟨r, hr, hsettled, hwrote⟩ := hQ
    exact hP.commit hi hr hg.evolves hsettled hwrote
  · exact hP.set (fun t h => by cases h) (Config.committedTotal_abort _ hi)
  · exact hP.set (fun t h => by cases h) (Config.committedTotal_run _ hi)

/-! ### Exact conversions -/

/-- What the conversion of a refund loses or gains, in hundredths of minor units. -/
def conversionError (currency : String) (r : Refund) : ℤ :=
  100 * Razorpay.toMinorUnits r.amount currency -
    10 ^ Razorpay.minorUnitDigits currency * r.amount

theorem conversionError_eq_zero {currency : String} {r : Refund} :
    conversionError currency r = 0 ↔ Razorpay.WholeUnits r.amount currency := by
  rw [conversionError, sub_eq_zero, Razorpay.toMinorUnits_exact_iff]

/-- The errors add up: nothing makes up for them but each other. -/
theorem sum_conversionError (currency : String) (refunds : List Refund) :
    (refunds.map (conversionError currency)).sum =
      100 * (refunds.map fun r => Razorpay.toMinorUnits r.amount currency).sum -
        10 ^ Razorpay.minorUnitDigits currency * (refunds.map (·.amount)).sum := by
  induction refunds with
  | nil => rfl
  | cons r refunds ih =>
    simp only [List.map_cons, List.sum_cons, ih, conversionError]
    ring

/-- The conversions of a payment over `total`, for which `minor` was charged: nothing is gained
or lost, and no more is given back than was charged. -/
structure ConvertsExactly (rs : List PaymentRequest) (id tenantId : Uuid) (currency : String)
    (total : Cents) (minor : ℤ) (c : Config sales Unit) : Prop where
  charged : 100 * minor = 10 ^ Razorpay.minorUnitDigits currency * total
  refunded : 100 * sentMinor rs id c =
    10 ^ Razorpay.minorUnitDigits currency * refundedCents id tenantId c.committed
  within : sentMinor rs id c ≤ minor

/-- What was sent differs from what is on record by the errors of the refunds. -/
theorem RefundsSent.errors (h : RefundsSent rs id c) (row : Payment)
    (hprovider : row.provider = razorpayProvider)
    (hrow : ∀ row', c.committed.payments.lookup id = some row' → row'.Same row) :
    100 * sentMinor rs id c - 10 ^ Razorpay.minorUnitDigits row.currency *
        refundedCents id row.tenantId c.committed =
      ((refundsOf id c.committed).map (conversionError row.currency)).sum := by
  cases hrow' : c.committed.payments.lookup id with
  | none =>
    obtain ⟨hnone, hzero⟩ := h.missing hrow'
    rw [hzero, refundedCents_of_refundsOf_eq_nil hnone, hnone]
    simp
  | some row' =>
    have hsame := hrow row' hrow'
    have hall : completedRefunds id row.tenantId c.committed = refundsOf id c.committed := by
      rw [completedRefunds_eq]
      apply List.filter_eq_self.mpr
      intro r hr
      obtain ⟨htenant, hcompleted⟩ := h.refunds row' hrow' r hr
      exact decide_eq_true ⟨htenant.trans hsame.tenantId, hcompleted⟩
    rw [sum_conversionError, h.sent row' hrow' (hsame.provider.trans hprovider), hsame.currency,
      refundedCents, hall]

/-- In a run each state has at most one refund more than the one before. -/
theorem reaches_refundsChain
    (h : Reaches R (.start s₀ (rs.map PaymentRequest.program)) c) (id : Uuid) :
    (c.history s₀).IsChain fun s' s =>
      ∃ news, refundsOf id s' = refundsOf id s ++ news ∧ news.length ≤ 1 := by
  refine (reaches_effects (I := fun _ => True) (E := fun s s' =>
    ∃ news, refundsOf id s' = refundsOf id s ++ news ∧ news.length ≤ 1) trivial
    (fun s t k _ _ he _ => ⟨trivial, ?_⟩) h).2
  have hkept (hrefunds : refundsOf id (sales.replay t.edits s) = refundsOf id s) :
      ∃ news, refundsOf id (t.view s) = refundsOf id s ++ news ∧ news.length ≤ 1 :=
    ⟨[], hrefunds.trans (List.append_nil _).symm, by simp⟩
  cases he.step id with
  | refunded _ _ hrefunds _ _ _ _ _ => exact ⟨_, hrefunds, by simp⟩
  | kept _ hrefunds => exact hkept hrefunds
  | settled _ _ hrefunds _ _ _ => exact hkept hrefunds
  | refundEvent _ _ hrefunds _ => exact hkept hrefunds
  | cancelled _ _ hrefunds => exact hkept hrefunds
  | opened _ _ hrefunds _ _ => exact hkept hrefunds
  | sold _ _ hrefunds _ _ => exact hkept hrefunds

/-- Refunds stay on record. -/
theorem reaches_refundsOf (h : Reaches R (.start s₀ (rs.map PaymentRequest.program)) c) :
    ∀ s ∈ c.history s₀, refundsOf id s <+: refundsOf id c.committed := by
  obtain ⟨older, hlatest⟩ := h.exists_history
  have hchain := reaches_refundsChain h id
  rw [hlatest] at hchain ⊢
  refine rel_of_isChain (T := fun s s' => refundsOf id s <+: refundsOf id s')
    (fun s => List.prefix_rfl) (fun _ _ _ => List.IsPrefix.trans) (hchain.imp ?_)
  rintro s' s ⟨news, hnews, -⟩
  exact ⟨news, hnews.symm⟩

/-- Where the errors add up to nothing in every state, there are none. -/
theorem errors_eq_zero {currency : String} {older : List Db}
    (hchain : (older ++ [s₀]).IsChain fun s' s =>
      ∃ news, refundsOf id s' = refundsOf id s ++ news ∧ news.length ≤ 1)
    (hstart : refundsOf id s₀ = [])
    (hsum : ∀ s ∈ older ++ [s₀],
      ((refundsOf id s).map (conversionError currency)).sum = 0) :
    ∀ s ∈ older ++ [s₀], ∀ r ∈ refundsOf id s, conversionError currency r = 0 := by
  induction older with
  | nil =>
    intro s hs r hr
    obtain rfl := List.mem_singleton.mp hs
    rw [hstart] at hr
    cases hr
  | cons s older ih =>
    rw [List.cons_append] at hchain hsum ⊢
    rw [List.isChain_cons] at hchain
    obtain ⟨hhead, hchain⟩ := hchain
    have hrest := ih hchain fun s hs => hsum s (List.mem_cons_of_mem _ hs)
    intro s₁ hs₁ r hr
    rcases List.mem_cons.mp hs₁ with rfl | hs₁
    · obtain ⟨s₂, hs₂⟩ : ∃ s₂, (older ++ [s₀]).head? = some s₂ := by
        cases older with
        | nil => exact ⟨s₀, rfl⟩
        | cons s₂ older => exact ⟨s₂, rfl⟩
      have hmem := List.mem_of_mem_head? hs₂
      -- between two states at most one refund is added, and its error is the difference
      obtain ⟨news, hnews, hlength⟩ := hhead s₂ hs₂
      have hbefore := hsum s₂ (List.mem_cons_of_mem _ hmem)
      have hafter := hsum s₁ List.mem_cons_self
      rw [hnews, List.map_append, List.sum_append, hbefore, zero_add] at hafter
      rw [hnews] at hr
      rcases List.mem_append.mp hr with hr | hr
      · exact hrest s₂ hmem r hr
      · match news, hlength with
        | [r'], _ =>
          obtain rfl := List.mem_singleton.mp hr
          simpa using hafter
    · exact hrest s₁ hs₁ r hr

theorem refundsWithin_of_missing (hnone : s.payments.lookup id = none)
    (hrefunds : refundsOf id s = []) : RefundsWithin id s := by
  refine ⟨fun _ => hrefunds, ?_, fun row hrow => ?_⟩
  · rw [hrefunds]
    exact fun r hr => absurd hr List.not_mem_nil
  · cases hnone.symm.trans hrow

/-- What is refunded of a payment, whether it is there already or not. -/
theorem RefundsWithin.refundedCents_le (h : RefundsWithin id s)
    (hsame : ∀ row', s.payments.lookup id = some row' → row'.Same row) (hamount : 0 ≤ row.amount) :
    refundedCents id row.tenantId s ≤ row.amount := by
  cases hrow' : s.payments.lookup id with
  | none => rwa [refundedCents_of_refundsOf_eq_nil (h.linked hrow')]
  | some row' =>
    have hwithin := h.within row' hrow'
    rwa [(hsame row' hrow').tenantId, (hsame row' hrow').amount] at hwithin

/-- The conversions of a payment that was started in a run are exact in every state up to the
last one, if and only if the total of the order and every refund on record are whole numbers of
minor units. -/
theorem converts_exactly_iff {keyId currency : String} {userId : Option Uuid} {reply : Reply}
    (hlinked : s₀.payments.lookup id = none → refundsOf id s₀ = [])
    (h : Reaches (.free sales) (.start s₀ (rs.map PaymentRequest.program)) c)
    (hstart : rs[i]? = some (.start tenantId orderId id userId))
    (hcommitted : c.sessions[i]? = some (.committed () t))
    (hcharge : (.createOrder keyId minor currency orderId tenantId orderId, reply) ∈ t.calls) :
    ∃ order, c.committed.orders.lookup orderId = some order ∧
      ((∀ c', Reaches (.free sales) (.start s₀ (rs.map PaymentRequest.program)) c' →
          Reaches (.free sales) c' c →
          ConvertsExactly rs id tenantId currency order.total minor c') ↔
        Razorpay.WholeUnits order.total currency ∧
          ∀ r ∈ refundsOf id c.committed, Razorpay.WholeUnits r.amount currency) := by
  -- what the start has asked for, and what is left of it
  have hstarted : ∃ row, .paymentInsert id row ∈ t.edits ∧ row.tenantId = tenantId ∧
      row.orderId = orderId ∧ row.provider = razorpayProvider ∧ row.currency = currency ∧
      minor = Razorpay.toMinorUnits row.amount row.currency := by
    obtain ⟨p, hp, hattempt⟩ := isAttempt_of_reaches h hcommitted
    rw [List.getElem?_map, hstart] at hp
    obtain rfl := Option.some.inj hp
    have hends : (PaymentRequest.start tenantId orderId id userId).program.Ends
        (fun es cs _ => StartsWith tenantId orderId id es cs) [] [] :=
      ends_start.bind fun _ _ _ hstarts => hstarts
    have hmem : .createOrder keyId minor currency orderId tenantId orderId ∈
        t.calls.map Prod.fst := List.mem_map_of_mem hcharge
    rcases Partway.ends hattempt rfl hends with hnone | ⟨row, keyId', hinserted, htenant, horder,
      hprovider, hcalls⟩
    · rw [List.nil_append] at hnone
      rw [hnone] at hmem
      cases hmem
    · rw [List.nil_append] at hcalls
      rw [hcalls] at hmem
      obtain ⟨-, hminor, hcurrency, -⟩ := Call.createOrder.inj (List.mem_singleton.mp hmem)
      exact ⟨row, hinserted, htenant, horder, hprovider, hcurrency.symm, hminor⟩
  obtain ⟨row, hinserted, rfl, rfl, hprovider, rfl, rfl⟩ := hstarted
  have htrail : Trail rs id s₀ c := reaches_trail hlinked h
  obtain ⟨hnone, ⟨row', hrow', hsame'⟩, order, horder, hamount, hpos⟩ :=
    htrail.started i t row ⟨⟨_, _, _, hstart⟩, hcommitted, hinserted⟩
  refine ⟨order, horder, ?_⟩
  rw [← hamount]
  -- the errors in the states on the way
  have hhistory := reaches_history (I := fun _ => True) (T := Evolves) Evolves.refl
    (fun _ _ _ => Evolves.trans) trivial (fun s t k _ _ he _ => ⟨trivial, he.evolves⟩) h
  have hsame (c' : Config sales Unit)
      (h' : Reaches (.free sales) (.start s₀ (rs.map PaymentRequest.program)) c')
      (hrest : Reaches (.free sales) c' c) (row₁ : Payment)
      (hrow₁ : c'.committed.payments.lookup id = some row₁) : row₁.Same row := by
    have hevolves := (hhistory _ (h'.committed_mem_history hrest)).2
    obtain ⟨row₂, hrow₂, hsame₂⟩ := hevolves.payment id row₁ hrow₁
    obtain rfl := Option.some.inj (hrow'.symm.trans hrow₂)
    exact hsame₂.trans hsame'.symm
  have herrors (c' : Config sales Unit)
      (h' : Reaches (.free sales) (.start s₀ (rs.map PaymentRequest.program)) c')
      (hrest : Reaches (.free sales) c' c) :=
    ((reaches_trail hlinked h').sent hnone).errors row hprovider (hsame c' h' hrest)
  constructor
  · intro hexact
    have hlast := hexact c h .refl
    refine ⟨Razorpay.toMinorUnits_exact_iff.mp hlast.charged, fun r hr => ?_⟩
    apply conversionError_eq_zero.mp
    obtain ⟨older, hlatest⟩ := h.exists_history
    refine errors_eq_zero (reaches_refundsChain h id) (hlinked hnone) (fun s hs => ?_) c.committed
      ?_ r hr
    · obtain ⟨c', h', hrest, rfl⟩ := h.exists_of_mem_history hs
      rw [← herrors c' h' hrest, (hexact c' h' hrest).refunded, sub_self]
    · exact h.committed_mem_history .refl
  · rintro ⟨htotal, hwhole⟩ c' h' hrest
    have hcharged := Razorpay.toMinorUnits_exact_iff.mpr htotal
    have hrefunded : 100 * sentMinor rs id c' = 10 ^ Razorpay.minorUnitDigits row.currency *
        refundedCents id row.tenantId c'.committed := by
      apply sub_eq_zero.mp
      rw [herrors c' h' hrest]
      apply List.sum_eq_zero
      intro x hx
      obtain ⟨r, hr, rfl⟩ := List.mem_map.mp hx
      apply conversionError_eq_zero.mpr
      apply hwhole
      exact (reaches_refundsOf h _ (h'.committed_mem_history hrest)).subset hr
    refine ⟨hcharged, hrefunded, ?_⟩
    have hbound : RefundsWithin id c'.committed :=
      reaches_invariant (refundsWithin_of_missing hnone (hlinked hnone))
        (fun _ _ _ hI _ he _ => he.refundsWithin hI) h' _ (h'.committed_mem_history .refl)
    have hwithin := hbound.refundedCents_le (hsame c' h' hrest) (hamount.symm ▸ hpos.le)
    have hscaled : 10 ^ Razorpay.minorUnitDigits row.currency *
        refundedCents id row.tenantId c'.committed ≤
          10 ^ Razorpay.minorUnitDigits row.currency * row.amount :=
      mul_le_mul_of_nonneg_left hwithin (pow_nonneg (by decide) _)
    rw [← hrefunded, ← hcharged] at hscaled
    exact le_of_mul_le_mul_left hscaled (by decide)

/-! ### Yen and rupees -/

namespace PaymentSample

/-- A shop whose order is over a hundred hundredths of its currency. -/
def shopOf (currency : String) : Db :=
  { openShop with
    orders := (∅ : Table Uuid Order).insert "order" { order with total := 100, currency } }

/-- The order is paid online and refunded in two halves. -/
def twoHalves : List PaymentRequest :=
  [.start "shop" "order" "payment" none,
    .verify { hmacSha256 := fun _ _ => "4f8a" } "shop" "payment" ⟨"order_1", "pay_1", some "4f8a"⟩
      none none,
    refundOf 50, refundOf 50]

/-- One request after the other. -/
def payAndRefund : List (Action sales) :=
  List.replicate 5 (.advance 0) ++ [.reply 0 (.orderCreated "order_1")] ++
    List.replicate 3 (.advance 0) ++ List.replicate 8 (.advance 1) ++
      sendRefundOf 2 "rfnd_1" ++ writeRefundOf 2 ++ sendRefundOf 3 "rfnd_2" ++ writeRefundOf 3

/-- What a session that has committed asked for. -/
def callsOf (c : Config sales Unit) (i : ℕ) : Option (List Call) :=
  c.sessions[i]?.bind fun
    | .committed _ t => some (t.calls.map Prod.fst)
    | _ => none

theorem exists_call_of_callsOf {c : Config sales Unit} {i : ℕ} {q : Call}
    (h : callsOf c i = some [q]) :
    ∃ t reply, c.sessions[i]? = some (.committed () t) ∧ (q, reply) ∈ t.calls := by
  obtain ⟨x, hx, hcalls⟩ := Option.bind_eq_some_iff.mp h
  cases x with
  | committed a t =>
    have hmem : q ∈ t.calls.map Prod.fst := by
      rw [Option.some.inj hcalls]
      exact List.mem_cons_self
    obtain ⟨⟨q', reply⟩, hcall, rfl⟩ := List.mem_map.mp hmem
    exact ⟨t, reply, hx, hcall⟩
  | _ => cases hcalls

/-- Nobody has paid the order yet, so nothing was refunded. -/
theorem linked_shopOf (currency : String) :
    (shopOf currency).payments.lookup "payment" = none →
      refundsOf "payment" (shopOf currency) = [] := fun _ => rfl

end PaymentSample

open PaymentSample in
/-- A rupee, refunded in two halves. -/
theorem converts_exactly_rupee :
    ∃ c : Config sales Unit,
      Reaches (.free sales) (.start (shopOf "INR") (twoHalves.map PaymentRequest.program)) c ∧
      sentMinor twoHalves "payment" c = 100 ∧
      ConvertsExactly twoHalves "payment" "shop" "INR" 100 100 c := by
  have hrun : (play (.free sales) (shopOf "INR") twoHalves payAndRefund).map
      (fun c => (sentMinor twoHalves "payment" c, callsOf c 0,
        (c.committed.orders.lookup "order").map (·.total))) =
        some (100, some [.createOrder "rzp_test_1" 100 "INR" "order" "shop" "order"],
          some 100) := by decide +kernel
  obtain ⟨c, hc, hend⟩ := Option.map_eq_some_iff.mp hrun
  obtain ⟨hsent, hend⟩ := Prod.mk.inj hend
  obtain ⟨hcalls, htotal⟩ := Prod.mk.inj hend
  obtain ⟨t, reply, hcommitted, hcharge⟩ := exists_call_of_callsOf hcalls
  have hreach := reaches_play hc
  obtain ⟨order, horder, hiff⟩ :=
    converts_exactly_iff (linked_shopOf "INR") hreach rfl hcommitted hcharge
  rw [horder] at htotal
  have htotal : order.total = 100 := Option.some.inj htotal
  rw [htotal] at hiff
  refine ⟨c, hreach, hsent, hiff.mpr ⟨?_, fun r _ => ?_⟩ c hreach .refl⟩
  · exact Razorpay.wholeUnits_of_two_le (by decide)
  · exact Razorpay.wholeUnits_of_two_le (by decide)

open PaymentSample in
/-- A yen, refunded in two halves: each of them is rounded up to a yen. -/
theorem halves_of_a_yen :
    ∃ (c : Config sales Unit) (t : Transaction sales) (reply : Reply),
      Reaches (.free sales) (.start (shopOf "JPY") (twoHalves.map PaymentRequest.program)) c ∧
      c.sessions[0]? = some (.committed () t) ∧
      (.createOrder "rzp_test_1" 1 "JPY" "order" "shop" "order", reply) ∈ t.calls ∧
      sentMinor twoHalves "payment" c = 2 ∧ refundedCents "payment" "shop" c.committed = 100 ∧
      ¬ ConvertsExactly twoHalves "payment" "shop" "JPY" 100 1 c := by
  have hrun : (play (.free sales) (shopOf "JPY") twoHalves payAndRefund).map
      (fun c => (sentMinor twoHalves "payment" c, callsOf c 0,
        refundedCents "payment" "shop" c.committed)) =
        some (2, some [.createOrder "rzp_test_1" 1 "JPY" "order" "shop" "order"], 100) := by
    decide +kernel
  obtain ⟨c, hc, hend⟩ := Option.map_eq_some_iff.mp hrun
  obtain ⟨hsent, hend⟩ := Prod.mk.inj hend
  obtain ⟨hcalls, hrefunded⟩ := Prod.mk.inj hend
  obtain ⟨t, reply, hcommitted, hcharge⟩ := exists_call_of_callsOf hcalls
  refine ⟨c, t, reply, reaches_play hc, hcommitted, hcharge, hsent, hrefunded, fun hexact => ?_⟩
  have hwithin := hexact.within
  rw [hsent] at hwithin
  exact absurd hwithin (by decide)

end PulseOps
