import PulseOps.Payments.Facts
import PulseOps.Stock.OrderEffects

/-!
# What every payment request comes to

One triple for each service: run among others, it ends with one of the effects of its
request, or not at all. The checks a service makes before it holds a lock may be stale when
it commits; what remains of them is what the facts of the locked rows say.

## Main definitions

* `SentRefund` — what was asked of Razorpay for a refund, and what came of it.

## Main results

* `PaymentRequest.triple` — every request ends settled.
-/

set_option autoImplicit false

open ReadCommitted Program Contract

namespace PulseOps

variable {s s' : Db} {t : Transaction sales} {es : List Edit} {id tenantId userId : Uuid}
  {F G : Fact} {R : Discipline sales} {α β : Type} {Q : β → Transaction sales → Db → Prop}

/-! ### Statements -/

/-- `payment.create` of a payment that is new. -/
theorem triple_insertPayment {row : Payment} :
    paymentContract.Triple R (At F es) (perform (Statement.insertPayment id row))
      fun _ => At ((F.and (.payment id none)).and
        (.pure (0 ≤ row.amount ∧ ∀ row', .paymentInsert id row' ∉ es)))
        (es ++ [.paymentInsert id row]) := by
  refine triple_core rfl fun t s v hF hv e he => ?_
  obtain ⟨hamount, hnone, rfl⟩ := Statement.insertPayment_eq_ok he
  have hreplay : (sales.replay es s).payments.lookup id = none := by
    rw [← hnone]
    exact congrArg (AList.lookup id) (payments_of_books hv).symm
  obtain ⟨hfresh, hnew⟩ := lookup_payments_eq_none hreplay
  have hheld : Key.payment id ∈ (t.write (.paymentInsert id row)).held := by
    simp [Edit.footprint]
  exact ⟨rfl, ⟨F.write _ hF, hheld, hfresh⟩, hamount, hnew⟩

/-- `payment.update` of a row under its lock, not written before. -/
theorem triple_updatePayment {row : Payment} {change : Payment → Payment}
    (hes : ∀ e ∈ es, Key.payment id ∉ e.footprint)
    (hF : ∀ t s, F.holds t s → s.payments.lookup id = some row) :
    paymentContract.Triple R (At F es) (perform (Statement.updatePayment id change))
      fun _ => At F (es ++ [.paymentUpdate id (change row)]) := by
  refine triple_core rfl fun t s v hfact hv e he => ?_
  obtain ⟨row', hrow', rfl⟩ := Statement.updatePayment_eq_ok he
  have hlookup : v.payments.lookup id = some row := by
    rw [← hF t s hfact, ← lookup_payments_frame hes s]
    exact congrArg (AList.lookup id) (payments_of_books hv)
  obtain rfl := Option.some.inj (hrow'.symm.trans hlookup)
  exact ⟨rfl, F.write _ hfact⟩

theorem triple_insertPaymentTransaction {row : PaymentTransaction} :
    paymentContract.Triple R (At F es) (perform (Statement.insertPaymentTransaction row))
      fun _ => At F (es ++ [chargeEdit row]) :=
  triple_core rfl fun _ _ _ hF _ _ he =>
    ⟨Statement.insertPaymentTransaction_eq_ok he, F.write _ hF⟩

theorem triple_insertRefund {row : Refund} :
    paymentContract.Triple R (At F es) (perform (Statement.insertRefund row))
      fun _ => At F (es ++ [.refundInsert row]) :=
  triple_core rfl fun _ _ _ hF _ _ he => ⟨Statement.insertRefund_eq_ok he, F.write _ hF⟩

/-- The event is on record from here on. -/
theorem triple_insertPaymentWebhookEvent {row : PaymentWebhookEvent} :
    paymentContract.Triple R (At F es) (perform (Statement.insertPaymentWebhookEvent row))
      fun _ => At (F.and (.wrote (.paymentWebhookEventInsert row))) es := by
  refine Triple.perform At.stable At.stable fun t s e _ ht he _ => ?_
  obtain rfl := Statement.insertPaymentWebhookEvent_eq_ok he
  have hmem :
      .paymentWebhookEventInsert row ∈ (t.write (.paymentWebhookEventInsert row)).edits := by
    simp
  exact (ht.aside rfl).mono fun hF => ⟨hF, hmem⟩

/-- Reading a payment. -/
theorem triple_findById {f : Option Payment → Sql β}
    (hf : ∀ found, paymentContract.Triple R
      (At (F.and (.ofOption (fun row => (Fact.known id row).and (.pure (row.tenantId = tenantId)))
        found)) []) (f found) Q) :
    paymentContract.Triple R (At F [])
      (query (PaymentRepository.findById id tenantId) >>= f) Q := by
  refine triple_read (G := fun found => F.and (.ofOption
    (fun row => (Fact.known id row).and (.pure (row.tenantId = tenantId))) found))
    (fun t s v hF hv => ⟨hF, Fact.ofOption_holds fun row hrow => ?_⟩) hf
  obtain ⟨hlookup, htenant⟩ := PaymentRepository.findById_eq_some.mp hrow
  have hpayments : v.payments = s.payments := payments_of_books hv
  rw [hpayments] at hlookup
  exact ⟨⟨row, hlookup, .refl row⟩, htenant⟩

/-- Reading an order. -/
theorem triple_findOrder {orderId : Uuid} {f : Option Order → Sql β}
    (hf : ∀ found, paymentContract.Triple R
      (At (F.and (.ofOption (.order orderId) found)) []) (f found) Q) :
    paymentContract.Triple R (At F [])
      (query (fun s => (s.orders.lookup orderId).filter (·.tenantId = tenantId)) >>= f) Q := by
  refine triple_read (G := fun found => F.and (.ofOption (.order orderId) found))
    (fun t s v hF hv => ⟨hF, Fact.ofOption_holds fun order horder => ?_⟩) hf
  have horders : v.orders = s.orders := orders_of_books hv
  rw [horders] at horder
  exact (Option.filter_eq_some_iff.mp horder).1

/-- Looking for a payment: what was found is one, and no more is known of it. -/
theorem triple_findPayment {q : Db → Option (Uuid × Payment)} {C : Uuid × Payment → Prop}
    {f : Option (Uuid × Payment) → Sql β}
    (hq : ∀ s p, q s = some p → s.payments.lookup p.1 = some p.2 ∧ C p)
    (hf : ∀ found, paymentContract.Triple R (At (F.and
      (.ofOption (fun p => (Fact.known p.1 p.2).and (.pure (C p))) found)) []) (f found) Q) :
    paymentContract.Triple R (At F []) (query q >>= f) Q := by
  refine triple_read (G := fun found => F.and
      (.ofOption (fun p => (Fact.known p.1 p.2).and (.pure (C p))) found))
    (fun t s v hF hv => ⟨hF, Fact.ofOption_holds fun p hp => ?_⟩) hf
  obtain ⟨hlookup, hC⟩ := hq v p hp
  have hpayments : v.payments = s.payments := payments_of_books hv
  rw [hpayments] at hlookup
  exact ⟨⟨p.2, hlookup, .refl p.2⟩, hC⟩

/-- `F`, and the row of a payment that was read again under its lock. -/
def Fact.reread (F : Fact) (id tenantId : Uuid) (found : Option Payment) : Fact :=
  (F.and (.locked (.payment id))).and (.ofOption (fun row =>
    (Fact.payment id (some row)).and (.pure (row.tenantId = tenantId))) found)

/-- Reading a payment again, under its lock. -/
theorem triple_reread {f : Option Payment → Sql β}
    (hf : ∀ found, paymentContract.Triple R (At (F.reread id tenantId found) []) (f found) Q) :
    paymentContract.Triple R (At (F.and (.locked (.payment id))) [])
      (query (PaymentRepository.findById id tenantId) >>= f) Q := by
  refine triple_read (G := fun found => F.reread id tenantId found)
    (fun t s v hF hv => ⟨hF, Fact.ofOption_holds fun row hrow => ?_⟩) hf
  obtain ⟨hlookup, htenant⟩ := PaymentRepository.findById_eq_some.mp hrow
  have hpayments : v.payments = s.payments := payments_of_books hv
  rw [hpayments] at hlookup
  exact ⟨⟨hF.2, hlookup⟩, htenant⟩

/-- The result of a service is dropped. -/
theorem triple_discard {p : Sql α} {P Q : Transaction sales → Db → Prop}
    (hp : paymentContract.Triple R P p fun _ => Q) (hQ : paymentContract.Stable Q) :
    paymentContract.Triple R P (do let _ ← p) fun _ => Q :=
  hp.bind fun _ => Triple.ret (Q := fun _ => Q) hQ

/-- What opening a payment comes to. -/
theorem settled_opened (stale : Option (Uuid × Payment)) {row : Payment} {x : PaymentTransaction}
    {order : Order}
    (hcore : coreEdits es =
      stale.toList.map cancelEdit ++ [.paymentInsert id row] ++ [chargeEdit x])
    (hstale : ∀ q ∈ stale, s.payments.lookup q.1 = some q.2 ∧ q.2.orderId = row.orderId)
    (hcharge : x.IsChargeOf id row) (hfresh : s.payments.lookup id = none)
    (horder : s.orders.lookup row.orderId = some order) (hamount : row.amount = order.total)
    (hpos : 0 < order.total) (hstatus : row.status = .pending) :
    PaymentEffect s es (.opened stale.isSome) := by
  rw [List.append_assoc] at hcore
  exact .opened (p := ⟨id, row, x, hcharge⟩) hcore hstale hfresh horder hamount hpos hstatus

/-! ### The providers -/

theorem charge_emits (env : Environment) (amount : Cents) (currency : String)
    (orderId tenantId : Uuid) {P : Edit → Prop} :
    (PaymentProvider.charge env amount currency orderId tenantId).Emits P := by
  unfold PaymentProvider.charge
  split
  · trivial
  · intro r
    cases r <;> trivial

theorem createOrder_emits (credentials : Razorpay.Credentials) (amountMinor : ℤ)
    (currency receipt : String) (tenantId orderId : Uuid) {P : Edit → Prop} :
    (Razorpay.createOrder credentials amountMinor currency receipt tenantId orderId).Emits P := by
  intro r
  cases r <;> trivial

theorem confirmUpi_emits (tenantId : Uuid) (p : PosService.SalePayment) {P : Edit → Prop} :
    (PosService.confirmUpi tenantId p).Emits P := by
  unfold PosService.confirmUpi
  split
  · refine Emits.bind ?_ fun _ => trivial
    refine (ReadsOnly.query _).emits.bind fun _ => (ReadsOnly.orRaise _ _).emits.bind fun _ => ?_
    refine Emits.bind (fun r => ?_) fun received => ?_
    · cases r <;> trivial
    · refine (ReadsOnly.orRaise _ _).emits.bind fun _ => (ReadsOnly.query _).emits.bind fun _ => ?_
      exact (ReadsOnly.require _ _).emits.bind fun _ => trivial
  · trivial

namespace PaymentService

/-! ### Creating a payment -/

theorem triple_create {env : Environment} {ids : DrawnIds} {body : CreatePaymentBody} :
    paymentContract.Triple R (At .none []) (create env tenantId userId ids body)
      fun _ => Settled [.opened false] := by
  refine triple_findOrder fun found => Triple.orRaise_bind ?_
  rintro order rfl
  have hdeaf : (Fact.none.and (.order body.orderId order)).Deaf := fun _ _ _ _ h => h
  refine Triple.require_bind fun _ => triple_read_any fun existing => ?_
  refine Triple.require_bind fun _ => Triple.require_bind fun hpos => ?_
  refine (triple_emits hdeaf (charge_emits _ _ _ _ _)).bind fun charged => ?_
  refine triple_insertPayment.bind fun _ => triple_insertPaymentTransaction.bind fun _ => ?_
  refine (triple_readsOnly_at (.query _)).post fun _ t s h => ?_
  obtain ⟨⟨⟨-, horder⟩, -, hfresh⟩, -, -⟩ := h.fact
  exact h.settled (by simp) (settled_opened none h.core (by simp) ⟨rfl, rfl, rfl, rfl, rfl, rfl⟩
    hfresh horder rfl hpos rfl)

/-! ### Confirming a payment -/

theorem lookup_of_findToConfirm {body : ConfirmPaymentBody} {found : Uuid × Payment}
    (h : findToConfirm tenantId body s = some found) :
    s.payments.lookup found.1 = some found.2 := by
  unfold findToConfirm at h
  split at h
  · obtain ⟨row, hrow, rfl⟩ := Option.map_eq_some_iff.mp h
    exact (PaymentRepository.findById_eq_some.mp hrow).1
  · exact (PaymentRepository.findFirst_eq_some h).1
  · cases h

theorem triple_confirm {env : Environment} {transaction : String} {body : ConfirmPaymentBody} :
    paymentContract.Triple R (At .none []) (confirm env tenantId userId transaction body)
      fun _ => Settled [.confirm] := by
  refine triple_findPayment (C := fun _ => True)
    (fun s p hp => ⟨lookup_of_findToConfirm hp, trivial⟩) fun found => Triple.orRaise_bind ?_
  rintro payment rfl
  refine Triple.require_bind fun _ => Triple.require_bind fun _ => ?_
  refine triple_lockPayment (fun t s h => h.2.1) (triple_reread fun reread => ?_)
  refine Triple.orRaise_bind fun fresh hfresh => ?_
  obtain ⟨rfl, hopen⟩ := Option.filter_eq_some_iff.mp hfresh
  refine Triple.bind (triple_updatePayment (by simp) fun t s h => h.2.1.2) fun _ => ?_
  refine triple_insertPaymentTransaction.bind fun _ => ?_
  refine (triple_readsOnly_at (.query _)).post fun _ t s h => ?_
  obtain ⟨-, ⟨-, hrow⟩, htenant⟩ := h.fact
  refine h.settled (by simp) (.confirm h.core hrow hopen ?_
    ⟨Eq.symm htenant, rfl, rfl, rfl, rfl, rfl⟩ rfl)
  by_cases hfail : body.simulateFailure <;> simp [hfail]

/-! ### Refunds -/

/-- What was asked of Razorpay for a refund of `amount`, and the refund id that came back. -/
inductive SentRefund (paymentId : Uuid) (payment : Payment) (amount : Cents) :
    Option String → List (Call × Reply) → Prop
  | internal {ref : Option String} (hprovider : payment.provider ≠ razorpayProvider) :
      SentRefund paymentId payment amount ref []
  | accepted {keyId razorpayPaymentId rid : String} {reason : Option String}
      (hprovider : payment.provider = razorpayProvider) :
      SentRefund paymentId payment amount (some rid)
        [(.refundPayment keyId razorpayPaymentId (Razorpay.toMinorUnits amount payment.currency)
          paymentId reason, .refundAccepted rid)]
  | unreadable {keyId razorpayPaymentId rid : String} {reason : Option String}
      (hprovider : payment.provider = razorpayProvider) :
      SentRefund paymentId payment amount none
        [(.refundPayment keyId razorpayPaymentId (Razorpay.toMinorUnits amount payment.currency)
          paymentId reason, .unreadable rid)]

/-- A refund that was sent and is about to be written: the payment it found under the lock,
what had been given back before, and the new row. -/
structure RefundRecord (row : Payment) (refunded : Cents) (refund : Refund)
    (cs : List (Call × Reply)) : Prop where
  sent : SentRefund refund.paymentId row refund.amount refund.providerRefundId cs
  refundable : row.status = .completed ∨ row.status = .partiallyRefunded
  positive : 0 < refund.amount
  covered : refund.amount ≤ row.amount - refunded
  tenantId : refund.tenantId = row.tenantId
  currency : refund.currency = row.currency
  completed : refund.status = .completed

/-- The writes of a refund. -/
def refundEdits (row : Payment) (refunded : Cents) (refund : Refund) (x : PaymentTransaction) :
    List Edit :=
  [.refundInsert refund, chargeEdit x, .paymentUpdate refund.paymentId
    { row with status := refundStatus row.amount (refunded + refund.amount) }]

/-- What a refund still knows when it commits. -/
def refundFact (row : Payment) (refunded : Cents) (refund : Refund)
    (cs : List (Call × Reply)) : Fact :=
  ((Fact.payment refund.paymentId (some row)).and
    (.refunded refund.paymentId row.tenantId refunded)).and (.calls cs)

/-- The transaction has sent and written one refund. -/
def WroteRefund (t : Transaction sales) (s : Db) : Prop :=
  ∃ row refunded refund cs x, RefundRecord row refunded refund cs ∧ x.type = .refund ∧
    At (refundFact row refunded refund cs) (refundEdits row refunded refund x) t s

theorem WroteRefund.stable : paymentContract.Stable WroteRefund := by
  rintro t s s' hs ⟨row, refunded, refund, cs, x, hrecord, htype, h⟩ hr
  exact ⟨row, refunded, refund, cs, x, hrecord, htype, At.stable t s s' hs h hr⟩

theorem WroteRefund.settled (h : WroteRefund t s) : Settled [.refund] t s := by
  obtain ⟨row, refunded, refund, cs, x, hrecord, htype, h⟩ := h
  obtain ⟨⟨⟨-, hrow⟩, -, rfl⟩, -⟩ := h.fact
  exact h.settled (by simp) (.refund h.core hrow hrecord.refundable hrecord.positive
    hrecord.covered rfl hrecord.tenantId hrecord.completed htype)

/-- The refund has been sent, and `F` is still known. -/
def AfterSend (F : Fact) (paymentId : Uuid) (payment : Payment) (amount : Cents)
    (rid : Option String) (t : Transaction sales) (s : Db) : Prop :=
  ∃ cs, SentRefund paymentId payment amount rid cs ∧ At (F.and (.calls cs)) [] t s

theorem AfterSend.stable {paymentId : Uuid} {payment : Payment} {amount : Cents}
    {rid : Option String} : paymentContract.Stable (AfterSend F paymentId payment amount rid) := by
  rintro t s s' hs ⟨cs, hsent, h⟩ hr
  exact ⟨cs, hsent, At.stable t s s' hs h hr⟩

theorem triple_sendRefund {paymentId : Uuid} {payment : Payment} {amount : Cents}
    {reason : Option String} {randomRef : String} (hF : F.Deaf) :
    paymentContract.Triple R (At (F.and (.calls [])) [])
      (sendRefund paymentId payment amount reason randomRef)
      (AfterSend F paymentId payment amount) := by
  have hret {rid : Option String} {cs : List (Call × Reply)}
      (hsent : SentRefund paymentId payment amount rid cs) :
      paymentContract.Triple R (At (F.and (.calls cs)) []) (.ret rid : Sql (Option String))
        (AfterSend F paymentId payment amount) :=
    (Triple.ret AfterSend.stable).pre fun t s _ h => ⟨cs, hsent, h⟩
  unfold sendRefund
  split
  · rename_i hprovider
    refine Triple.orRaise_bind fun razorpayPaymentId _ => triple_read_any fun found => ?_
    refine Triple.orRaise_bind fun credentials _ => ?_
    -- Razorpay may accept the refund, refuse it, or not be heard of again
    refine triple_ask hF fun r => ?_
    cases r with
    | refundAccepted rid => exact hret (.accepted hprovider)
    | unreadable rid => exact hret (.unreadable hprovider)
    | _ => exact Triple.raise
  · rename_i hprovider
    exact hret (.internal hprovider)

theorem triple_refund {paymentId refundId : Uuid} {randomRef : String} {body : RefundBody} :
    paymentContract.Triple R (At (.calls []) [])
      (refund tenantId userId paymentId refundId randomRef body) fun _ => WroteRefund := by
  refine triple_findById fun found => Triple.orRaise_bind ?_
  rintro payment rfl
  refine Triple.require_bind fun _ => Triple.require_bind fun hpos => ?_
  refine triple_read_any fun _ => Triple.require_bind fun _ => ?_
  -- the payment and its refunds are read again under the lock
  refine triple_lockPayment (fun t s h => h.2.1) (triple_reread fun reread => ?_)
  refine triple_read (G := fun cents => Fact.and
      ((Fact.known paymentId payment).and (.ofOption (fun row =>
        (Fact.payment paymentId (some row)).and (.pure (row.tenantId = tenantId))) reread))
      ((Fact.refunded paymentId tenantId cents).and (.calls [])))
    (fun t s v hF hv => ?_) fun freshRefunded => ?_
  · have hrefunds : v.refunds = s.refunds := refunds_of_books hv
    have hcents : refundedCents paymentId tenantId s = refundedCents paymentId tenantId v :=
      refundedCents_congr tenantId (refundsOf_congr hrefunds.symm)
    exact ⟨⟨hF.1.1.2.1, hF.2⟩, ⟨hF.1.2, hcents⟩, hF.1.1.1⟩
  refine Triple.orRaise_bind ?_
  rintro fresh rfl
  refine Triple.require_bind fun hle => Triple.require_bind fun hstatus => ?_
  refine triple_weaken (G := Fact.and (((Fact.known paymentId payment).and
      ((Fact.payment paymentId (some fresh)).and (.pure (fresh.tenantId = tenantId)))).and
        (.refunded paymentId tenantId freshRefunded)) (.calls []))
    (fun t s h => ⟨⟨h.1, h.2.1⟩, h.2.2⟩) ?_
  refine Triple.bind (triple_sendRefund fun _ _ _ _ h => h) fun rid => ?_
  refine Triple.of_exists fun cs => Triple.of_and fun hsent => ?_
  -- the provider has answered; the refund, its transaction and the status are written
  refine triple_insertRefund.bind fun _ => triple_insertPaymentTransaction.bind fun _ => ?_
  refine Triple.require_bind fun _ => ?_
  refine Triple.bind (triple_updatePayment (by simp [chargeEdit, Edit.footprint])
    fun t s h => h.1.1.2.1.2) fun _ => ?_
  refine (triple_readsOnly_at (.query _)).post fun _ t s h => ?_
  obtain ⟨⟨⟨⟨row, hrow, hsame⟩, hpayment, htenant⟩, hrefunded⟩, hcalls⟩ := h.fact
  obtain rfl := Option.some.inj (hrow.symm.trans hpayment.2)
  obtain rfl : row.tenantId = tenantId := htenant
  rw [hsame.amount] at h
  exact ⟨row, freshRefunded, _, cs, _, ⟨hsent, hstatus, hpos, hle, rfl, rfl, rfl⟩, rfl, h.core,
    h.covered, ⟨hpayment, hrefunded⟩, hcalls⟩

/-! ### Provider events -/

theorem lookup_of_findForWebhook {payload : WebhookPayload} {found : Uuid × Payment}
    (h : findForWebhook payload s = some found) : s.payments.lookup found.1 = some found.2 := by
  unfold findForWebhook at h
  split at h
  · obtain ⟨row, hrow, rfl⟩ := Option.map_eq_some_iff.mp h
    exact (PaymentRepository.findById_eq_some.mp hrow).1
  · obtain ⟨row, hrow, rfl⟩ := Option.map_eq_some_iff.mp h
    exact hrow
  · exact (PaymentRepository.findFirst_eq_some h).1
  · exact (PaymentRepository.findFirst_eq_some h).1
  · cases h

/-- Only an open payment can be completed or fail. -/
theorem isOpen_of_isValidTransition {a b : PaymentStatus} (h : isValidTransition a b = true)
    (hb : b = .completed ∨ b = .failed) : a.isOpen = true := by
  revert h
  rcases hb with rfl | rfl <;> cases a <;> decide

/-- Only a captured payment can be refunded. -/
theorem captured_of_isValidTransition {a : PaymentStatus}
    (h : isValidTransition a .refunded = true) : a = .completed ∨ a = .partiallyRefunded := by
  revert h
  cases a <;> decide

/-- What an event asks for, by its type. -/
theorem targetStatus_cases {type : WebhookType} {status : PaymentStatus}
    (h : type.targetStatus = some status) :
    ((status = .completed ∨ status = .failed) ∧ type ≠ .paymentRefunded) ∨
      type = .paymentRefunded ∧ status = .refunded := by
  cases type <;> simp_all [WebhookType.targetStatus, eq_comm]

theorem triple_applyWebhook {paymentId : Uuid} {payment : Payment} {eventId : String}
    {payload : WebhookPayload} {event : PaymentWebhookEvent}
    (htype : event.type = payload.type.text) (htenant : event.tenantId = tenantId)
    (hpayload : event.payload = some
      { providerTransactionId := truthy payload.providerTransactionId, amount := payload.amount })
    (hF : ∀ t s, F.holds t s → (Fact.known paymentId payment).holds t s ∧
      (Fact.wrote (.paymentWebhookEventInsert event)).holds t s) :
    paymentContract.Triple R (At F []) (applyWebhook tenantId paymentId payment eventId payload)
      fun _ => Settled [.note, .event, .refundEvent] := by
  have hnote {G : Fact} : paymentContract.Triple R (At G []) (.ret () : Sql Unit)
      fun _ => Settled [.note, .event, .refundEvent] :=
    (triple_readsOnly_at (.ret ())).post fun _ t s h => h.settled (by simp) (.note h.core)
  unfold applyWebhook
  split
  · exact hnote
  rename_i targetStatus htarget
  split
  swap
  · exact hnote
  refine triple_lockPayment (fun t s h => (hF t s h).1) (triple_reread fun reread => ?_)
  split
  · exact hnote
  rename_i fresh hfresh
  obtain ⟨rfl, hvalid⟩ := Option.filter_eq_some_iff.mp hfresh
  refine Triple.bind (triple_updatePayment (by simp) fun t s h => h.2.1.2) fun _ => ?_
  -- a transaction with this id, which nobody takes away again
  let Duplicate (x : PaymentTransaction) : Prop := x.tenantId = tenantId ∧
    x.providerTransactionId = truthy payload.providerTransactionId
  refine triple_read (G := fun duplicate => (F.reread paymentId tenantId (some fresh)).and
    (if duplicate = true then .recorded Duplicate else .none)) (fun t s v hfact hv => ?_)
    fun duplicate => ?_
  · refine ⟨hfact, ?_⟩
    split_ifs with hduplicate
    · obtain ⟨x, hx, hC⟩ := List.any_eq_true.mp hduplicate
      have htransactions : v.paymentTransactions = s.paymentTransactions :=
        (transactions_of_books hv).trans rfl
      rw [htransactions] at hx
      exact ⟨x, hx, of_decide_eq_true hC⟩
    · trivial
  have hsettled (xs : List PaymentTransaction) {G : Fact} {t : Transaction sales} {s : Db}
      (hlength : xs.length ≤ 1) (hcharge : payload.type ≠ .paymentRefunded → ∀ x ∈ xs,
        x.IsEventCharge paymentId targetStatus (payload.amount.getD fresh.amount))
      (hrefund : payload.type = .paymentRefunded → ∀ x ∈ xs, x.type = .refund)
      (hskip : xs = [] → ∃ x ∈ s.paymentTransactions, Duplicate x)
      (h : At ((F.reread paymentId tenantId (some fresh)).and G)
        (.paymentUpdate paymentId { fresh with status := targetStatus } :: xs.map chargeEdit) t s) :
      Settled [.note, .event, .refundEvent] t s := by
    obtain ⟨⟨⟨hfact, -⟩, ⟨-, hrow⟩, -⟩, -⟩ := h.fact
    have hevent := (hF t s hfact).2
    rcases targetStatus_cases htarget with ⟨hstatus, hne⟩ | ⟨hrefunded, rfl⟩
    · refine h.settled (by simp) (.event h.core hrow
        (isOpen_of_isValidTransition hvalid hstatus) hstatus hlength (hcharge hne) hevent hpayload
        fun hnone => ?_)
      rw [htenant]
      exact hskip hnone
    · refine h.settled (by simp) (.refundEvent h.core hrow (captured_of_isValidTransition hvalid)
        (hrefund hrefunded) hevent ?_)
      rw [htype, hrefunded]
  split
  · exact (triple_readsOnly_at (.ret ())).post fun _ _ _ h => hsettled [] (by simp) (by simp)
      (by simp) (fun _ => h.fact.2) h
  · refine triple_insertPaymentTransaction.post fun _ _ _ h => hsettled [_] (by simp)
      (fun hne x hx => ?_) (fun heq x hx => ?_) (by simp) h
    · obtain rfl := List.mem_singleton.mp hx
      exact ⟨rfl, if_neg hne, rfl, rfl, rfl, rfl⟩
    · obtain rfl := List.mem_singleton.mp hx
      exact if_pos heq

theorem triple_handleWebhook {env : Environment} {rawBody : String} {payload : WebhookPayload}
    {signature : Option String} :
    paymentContract.Triple R (At .none []) (handleWebhook env rawBody payload signature)
      fun _ => Settled [.note, .event, .refundEvent] := by
  refine Triple.orRaise_bind fun eventId _ => Triple.require_bind fun _ => ?_
  refine triple_findPayment (C := fun _ => True)
    (fun s p hp => ⟨lookup_of_findForWebhook hp, trivial⟩) fun found => ?_
  refine Triple.orRaise_bind fun tenantId _ => Triple.orRaise_bind ?_
  rintro payment rfl
  refine triple_insertPaymentWebhookEvent.bind fun _ => ?_
  refine Triple.bind (triple_applyWebhook rfl rfl rfl fun t s h => ⟨h.1.2.1, h.2⟩) fun _ => ?_
  exact Triple.readsOnly (.query _) Settled.stable

end PaymentService

namespace RazorpayPaymentsService

/-! ### Razorpay payments -/

theorem roundDiv_nonpos {n : ℤ} (hn : n ≤ 0) : Gst.roundDiv n 100 ≤ 0 := by
  unfold Gst.roundDiv
  omega

/-- What Razorpay is asked for is positive only for a positive amount. -/
theorem pos_of_toMinorUnits {amount : Cents} {currency : String}
    (h : 0 < Razorpay.toMinorUnits amount currency) : 0 < amount := by
  by_contra hamount
  have hscaled : amount * 10 ^ Razorpay.minorUnitDigits currency ≤ 0 :=
    Int.mul_nonpos_of_nonpos_of_nonneg (not_lt.mp hamount) (Int.pow_nonneg (by decide))
  exact absurd h (not_lt.mpr (roundDiv_nonpos hscaled))

/-- The attempt that is given up may have moved on since it was read. -/
theorem triple_cancelAttempt {attempt : Uuid × Payment}
    (hF : ∀ t s, F.holds t s → (Fact.known attempt.1 attempt.2).holds t s) :
    paymentContract.Triple R (At F [])
      (perform (Statement.updatePayment attempt.1 fun row => { row with status := .cancelled }))
      fun _ t s => ∃ row, attempt.2.Same row ∧
        At (F.and (.payment attempt.1 (some row))) [cancelEdit (attempt.1, row)] t s := by
  refine Triple.perform At.stable
    (fun t s s' hs ⟨row, hsame, h⟩ hr => ⟨row, hsame, At.stable t s s' hs h hr⟩)
    fun t s e _ ht he _ => ?_
  obtain ⟨row, hrow, rfl⟩ := Statement.updatePayment_eq_ok he
  have hview : (t.view s).payments = s.payments := payments_of_books ht.books_view
  rw [hview] at hrow
  obtain ⟨row', hrow', hsame⟩ := hF t s ht.fact
  obtain rfl := Option.some.inj (hrow.symm.trans hrow')
  have hheld : Key.payment attempt.1 ∈ (t.write (cancelEdit (attempt.1, row))).held := by
    simp [cancelEdit, Edit.footprint]
  exact ⟨row, hsame, (ht.edit (e := cancelEdit (attempt.1, row)) rfl).mono fun hfact =>
    ⟨hfact, hheld, hrow⟩⟩

theorem triple_openPayment {orderId paymentId : Uuid} {order : Order} {currency : String}
    {amountMinor : ℤ} {credentials : Razorpay.Credentials} {user : Option Uuid}
    (stale : Option (Uuid × Payment)) (hdeaf : F.Deaf) (hpos : 0 < order.total)
    (horder : ∀ t s, F.holds t s → s.orders.lookup orderId = some order)
    (hstale : ∀ t s, F.holds t s → ∀ p ∈ stale,
      s.payments.lookup p.1 = some p.2 ∧ p.2.orderId = orderId) :
    paymentContract.Triple R (At F (stale.toList.map cancelEdit))
      (openPayment tenantId orderId paymentId order currency amountMinor credentials user)
      fun _ => Settled [.note, .opened false, .opened true] := by
  refine (triple_emits hdeaf (createOrder_emits _ _ _ _ _ _)).bind fun rzpOrderId => ?_
  refine triple_insertPayment.bind fun _ => triple_insertPaymentTransaction.bind fun _ => ?_
  refine (triple_readsOnly_at (.ret _)).post fun _ t s h => ?_
  obtain ⟨⟨hF, -, hfresh⟩, -, -⟩ := h.fact
  have hkind : EffectKind.opened stale.isSome ∈ [.note, .opened false, .opened true] := by
    cases stale <;> simp
  refine h.settled hkind (settled_opened stale h.core (hstale t s hF)
    ⟨rfl, rfl, rfl, rfl, rfl, ?_⟩ hfresh (horder t s hF) rfl hpos rfl)
  cases rzpOrderId <;> rfl

theorem triple_start {orderId paymentId : Uuid} {user : Option Uuid} :
    paymentContract.Triple R (At .none []) (start tenantId orderId paymentId user)
      fun _ => Settled [.note, .opened false, .opened true] := by
  refine triple_read_any fun account => Triple.orRaise_bind fun credentials _ => ?_
  refine triple_lock (triple_findOrder fun found => Triple.orRaise_bind ?_)
  rintro order rfl
  refine Triple.require_bind fun _ => triple_read_any fun paid => ?_
  refine Triple.require_bind fun _ => Triple.require_bind fun hminor => ?_
  have hpos := pos_of_toMinorUnits hminor
  refine triple_findPayment (C := fun p => p.2.orderId = orderId) (fun s p hp => ?_)
    fun active => ?_
  · obtain ⟨hlookup, hrow⟩ := PaymentRepository.findFirst_eq_some hp
    exact ⟨hlookup, by simp_all⟩
  split
  · refine triple_openPayment none (fun _ _ _ _ h => h) hpos (fun t s h => h.1.2) ?_
    simp
  rename_i attempt
  split
  · exact (triple_readsOnly_at (.ret _)).post fun _ t s h => h.settled (by simp) (.note h.core)
  refine Triple.bind (triple_cancelAttempt fun t s h => h.2.1) fun _ => ?_
  refine Triple.of_exists fun row => Triple.of_and fun hsame => ?_
  refine triple_openPayment (some (attempt.1, row)) (fun _ _ _ _ h => h) hpos
    (fun t s h => h.1.1.2) ?_
  rintro t s ⟨⟨-, -, horderId⟩, -, hrow⟩ p hp
  obtain rfl := Option.some.inj hp
  exact ⟨hrow, hsame.orderId.symm.trans horderId⟩

/-! ### Completing a Razorpay payment -/

theorem triple_capture {paymentId : Uuid} {razorpayPaymentId : Option String} {via : String}
    {user : Option Uuid} {fresh : Payment} :
    paymentContract.Triple R (At (F.reread paymentId tenantId (some fresh)) [])
      (capture tenantId paymentId razorpayPaymentId via user fresh)
      fun _ => Settled [.note, .capture] := by
  unfold capture
  split
  · rename_i hopen
    refine Triple.bind (triple_updatePayment (by simp) fun t s h => h.2.1.2) fun _ => ?_
    refine triple_insertPaymentTransaction.post fun _ t s h => ?_
    obtain ⟨-, ⟨-, hrow⟩, htenant⟩ := h.fact
    exact h.settled (by simp) (.capture h.core hrow hopen
      ⟨Eq.symm htenant, rfl, rfl, rfl, rfl, rfl⟩ rfl)
  split
  · -- money for a payment that is closed: a charge on record, the books as they were
    exact triple_insertPaymentTransaction.post fun _ t s h =>
      h.settled (by simp) (.late h.core rfl rfl)
  · exact (triple_readsOnly_at (.ret ())).post fun _ t s h => h.settled (by simp) (.note h.core)

theorem triple_markPaid {paymentId : Uuid} {payment : Payment}
    {razorpayPaymentId : Option String} {via : String} {user : Option Uuid} {inTx : Sql Unit}
    (hinTx : ∀ F, paymentContract.Triple R (At F []) inTx fun _ => At F [])
    (hF : ∀ t s, F.holds t s → (Fact.known paymentId payment).holds t s) :
    paymentContract.Triple R (At F []) (markPaid tenantId paymentId razorpayPaymentId via user inTx)
      fun _ => Settled [.note, .capture] := by
  refine triple_lockPayment hF ((hinTx _).bind fun _ => triple_reread fun found => ?_)
  refine Triple.orRaise_bind ?_
  rintro fresh rfl
  exact triple_capture.bind fun _ => Triple.readsOnly (.query _) Settled.stable

theorem triple_verify {env : Environment} {paymentId : Uuid} {result : CheckoutResult}
    {customerId user : Option Uuid} :
    paymentContract.Triple R (At .none []) (verify env tenantId paymentId result customerId user)
      fun _ => Settled [.note, .capture] := by
  refine triple_read (G := fun found => .ofOption (.known paymentId) found)
    (fun t s v _ hv => Fact.ofOption_holds fun row hrow => ?_) fun found => Triple.orRaise_bind ?_
  · have hlookup := PaymentRepository.findById_eq_some.mp (Option.filter_eq_some_iff.mp hrow).1
    have hpayments : v.payments = s.payments := payments_of_books hv
    rw [hpayments] at hlookup
    exact ⟨row, hlookup.1, .refl row⟩
  rintro payment rfl
  refine triple_read_any fun account => Triple.orRaise_bind fun credentials _ => ?_
  refine Triple.require_bind fun _ => ?_
  exact triple_markPaid (fun F => triple_readsOnly_at (.ret ())) fun t s h => h

theorem triple_handleWebhook {env : Environment} {rawBody : String}
    {parsed : Option RazorpayEvent} {signature eventIdHeader : Option String} :
    paymentContract.Triple R (At .none [])
      (handleWebhook env tenantId rawBody parsed signature eventIdHeader)
      fun _ => Settled [.note, .capture] := by
  refine triple_read_any fun account => Triple.require_bind fun _ => ?_
  refine Triple.orRaise_bind fun event _ => ?_
  refine triple_findPayment (C := fun _ => True) (fun s p hp => ?_) fun found => ?_
  · obtain ⟨id, -, hfound⟩ := Option.bind_eq_some_iff.mp hp
    exact ⟨(PaymentRepository.findFirst_eq_some hfound).1, trivial⟩
  have hrecord {row : PaymentWebhookEvent} (F : Fact) : paymentContract.Triple R (At F [])
      (perform (Statement.insertPaymentWebhookEvent row)) fun _ => At F [] :=
    triple_insertPaymentWebhookEvent.post fun _ t s h => h.mono fun hF => hF.1
  have hnote {row : PaymentWebhookEvent} (F : Fact) : paymentContract.Triple R (At F [])
      (do
        perform (Statement.insertPaymentWebhookEvent row)
        return (none : Option Payment)) fun _ => Settled [.note, .capture] :=
    (hrecord F).bind fun _ => (triple_readsOnly_at (.ret _)).post
      fun _ t s h => h.settled (by simp) (.note h.core)
  split
  · split
    · exact triple_markPaid hrecord fun t s h => h.2.1
    · exact hnote _
  · exact hnote _

end RazorpayPaymentsService

namespace PosService

open OrderService

/-! ### Counter sales -/

variable {orderId : Uuid} {order : Order}

/-- One payment of a sale, with its charge. -/
def soldPayment (tenantId userId orderId : Uuid) (order : Order)
    (x : SalePayment × Option ConfirmedUpi) : NewPayment :=
  let row := paymentRow tenantId orderId order x.1 x.2
  { id := x.1.ids.payment
    row := row
    charge :=
      { tenantId := tenantId
        paymentId := x.1.ids.payment
        type := .charge
        amount := row.amount
        currency := row.currency
        status := .completed
        providerTransactionId := some ("txn_" ++ x.1.ids.transaction)
        metadata := .ofList [("initiatedBy", .str userId), ("channel", .str "POS")] }
    charged := ⟨rfl, rfl, rfl, rfl, rfl, rfl⟩ }

/-- The edits of a sale when the payments `paid` have been taken. -/
def saleEdits (orderId : Uuid) (order : Order) (paid : List NewPayment) : List Edit :=
  .orderInsert orderId order :: paid.flatMap NewPayment.edits

/-- A sale knows that its order and its payments are new. -/
def saleFact (orderId : Uuid) (paid : List NewPayment) : Fact :=
  ((Fact.freshOrder orderId).and (.all (fun p => .payment p.id none) paid)).and
    (.pure ((paid.map (·.id)).Nodup ∧ ∀ p ∈ paid, 0 ≤ p.row.amount))

theorem isCore_of_isStock {e : Edit} (he : e.IsStock) : e.isCore = false := by
  cases e <;> simp_all [Edit.IsStock, Edit.isCore]

theorem nextInvoiceNumber_emits {tenantId : Uuid} {financialYear : String} {P : Edit → Prop}
    (hP : ∀ n, P (.invoiceSequenceUpsert tenantId financialYear n)) :
    (nextInvoiceNumber tenantId financialYear).Emits P := by
  intro s e he
  obtain rfl := Except.ok.inj he
  exact ⟨hP _, trivial⟩

/-- `order.create` of an order that is new. -/
theorem triple_insertOrder :
    paymentContract.Triple R (At .none []) (perform (Statement.insertOrder orderId order))
      fun _ => At (saleFact orderId []) (saleEdits orderId order []) := by
  refine triple_core rfl fun t s v _ hv e he => ?_
  obtain ⟨hnone, rfl⟩ := Statement.insertOrder_eq_ok he
  have horders : v.orders = s.orders := orders_of_books hv
  rw [horders] at hnone
  have hheld : Key.order orderId ∈ (t.write (.orderInsert orderId order)).held := by
    simp [Edit.footprint]
  exact ⟨rfl, ⟨⟨hheld, hnone⟩, by simp [Fact.all]⟩, by simp, by simp⟩

/-- One payment more. -/
theorem triple_takePayment {session : Option Uuid} {paid : List NewPayment}
    {x : SalePayment × Option ConfirmedUpi} :
    paymentContract.Triple R (At (saleFact orderId paid) (saleEdits orderId order paid))
      (takePayment tenantId userId orderId session order x)
      fun _ => At (saleFact orderId (paid ++ [soldPayment tenantId userId orderId order x]))
        (saleEdits orderId order (paid ++ [soldPayment tenantId userId orderId order x])) := by
  refine Triple.require_bind fun _ => triple_insertPayment.bind fun _ => ?_
  refine triple_insertPaymentTransaction.bind fun _ => ?_
  have hdone {t : Transaction sales} {s : Db}
      (h : At (((saleFact orderId paid).and (.payment x.1.ids.payment none)).and
          (.pure (0 ≤ (paymentRow tenantId orderId order x.1 x.2).amount ∧
            ∀ row, .paymentInsert x.1.ids.payment row ∉ saleEdits orderId order paid)))
        (saleEdits orderId order paid ++
          [.paymentInsert x.1.ids.payment (paymentRow tenantId orderId order x.1 x.2)] ++
            [chargeEdit (soldPayment tenantId userId orderId order x).charge]) t s) :
      At (saleFact orderId (paid ++ [soldPayment tenantId userId orderId order x]))
        (saleEdits orderId order (paid ++ [soldPayment tenantId userId orderId order x])) t s := by
    obtain ⟨⟨⟨⟨horder, hpaid⟩, hnodup, hnonneg⟩, hnone⟩, hamount, hnew⟩ := h.fact
    have hid : x.1.ids.payment ∉ paid.map (·.id) := by
      intro hmem
      obtain ⟨p, hp, hid⟩ := List.mem_map.mp hmem
      rw [← hid] at hnew
      exact hnew p.row (List.mem_cons_of_mem _ (List.mem_flatMap.mpr ⟨p, hp, List.mem_cons_self⟩))
    have hedits : saleEdits orderId order (paid ++ [soldPayment tenantId userId orderId order x]) =
        saleEdits orderId order paid ++
          [.paymentInsert x.1.ids.payment (paymentRow tenantId orderId order x.1 x.2)] ++
            [chargeEdit (soldPayment tenantId userId orderId order x).charge] := by
      simp [saleEdits, NewPayment.edits, soldPayment]
    rw [hedits]
    refine ⟨h.core, h.covered, ⟨horder, fun p hp => ?_⟩, ?_, fun p hp => ?_⟩
    · rcases List.mem_append.mp hp with hp | hp
      · exact hpaid p hp
      · obtain rfl := List.mem_singleton.mp hp
        exact hnone
    · rw [List.map_append, List.nodup_append]
      refine ⟨hnodup, by simp, fun a ha b hb hab => hid ?_⟩
      obtain rfl : b = x.1.ids.payment := by simpa [soldPayment] using hb
      exact hab ▸ ha
    · rcases List.mem_append.mp hp with hp | hp
      · exact hnonneg p hp
      · obtain rfl := List.mem_singleton.mp hp
        exact hamount
  -- cash goes into the drawer too, which is no matter of the payments
  split
  · refine Triple.orRaise_bind fun sessionId _ => ?_
    refine (triple_aside fun s e he => ?_).post fun _ _ _ => hdone
    unfold Statement.insertCashMovement at he
    split_ifs at he
    obtain rfl := Except.ok.inj he
    rfl
  · exact (triple_readsOnly_at (.ret ())).post fun _ _ _ => hdone

/-- All of them, one after the other. -/
theorem triple_takePayments {session : Option Uuid}
    {payments : List (SalePayment × Option ConfirmedUpi)} :
    paymentContract.Triple R (At (saleFact orderId []) (saleEdits orderId order []))
      (forM payments (takePayment tenantId userId orderId session order))
      fun _ => At (saleFact orderId (payments.map (soldPayment tenantId userId orderId order)))
        (saleEdits orderId order (payments.map (soldPayment tenantId userId orderId order))) := by
  -- the payments that are left say which have been taken
  refine ((Triple.forM (I := fun rest t s => ∃ paid,
      paid ++ rest.map (soldPayment tenantId userId orderId order) =
        payments.map (soldPayment tenantId userId orderId order) ∧
      At (saleFact orderId paid) (saleEdits orderId order paid) t s)
    (fun t s s' hs ⟨paid, hpaid, h⟩ hr => ⟨paid, hpaid, At.stable t s s' hs h hr⟩)
    fun x rest => ?_).pre fun t s _ h => ⟨[], by simp, h⟩).post fun _ t s h => ?_
  · refine Triple.of_exists fun paid => Triple.of_and fun hpaid => ?_
    exact triple_takePayment.post fun _ t s h => ⟨_, by simpa using hpaid, h⟩
  · obtain ⟨paid, hpaid, h⟩ := h
    rw [List.map_nil, List.append_nil] at hpaid
    rwa [hpaid] at h

theorem lookup_orders_saleEdits (paid : List NewPayment) (s : Db) :
    (sales.replay (saleEdits orderId order paid) s).orders.lookup orderId = some order := by
  rw [saleEdits, Database.replay_cons, lookup_orders_frame]
  · exact AList.lookup_insert _
  · intro e he
    obtain ⟨p, -, hmem⟩ := List.mem_flatMap.mp he
    rcases List.mem_pair.mp hmem with rfl | rfl <;> simp [chargeEdit, Edit.footprint]

/-- Paid and handed over. -/
theorem triple_settle {session : Option Uuid}
    {payments : List (SalePayment × Option ConfirmedUpi)} :
    paymentContract.Triple R (At (saleFact orderId []) (saleEdits orderId order []))
      (settle tenantId userId session payments orderId order) fun _ => Settled [.sale] := by
  refine Triple.require_bind fun htotal => triple_takePayments.bind fun _ => ?_
  refine Triple.bind (triple_core (G := saleFact orderId
      (payments.map (soldPayment tenantId userId orderId order)))
    (e := .orderUpdate orderId { order with status := .delivered }) rfl
    fun t s v hF hv e he => ?_) fun _ => ?_
  · obtain ⟨row, hrow, rfl⟩ := Statement.updateOrderStatus_eq_ok.mp he
    have hlookup : v.orders.lookup orderId = some order := by
      rw [← lookup_orders_saleEdits (payments.map (soldPayment tenantId userId orderId order)) s]
      exact congrArg (AList.lookup orderId) (orders_of_books hv)
    obtain rfl := Option.some.inj (hrow.symm.trans hlookup)
    exact ⟨rfl, Fact.write _ _ hF⟩
  refine (triple_aside fun s e he => ?_).post fun _ t s h => ?_
  · obtain rfl := Except.ok.inj he
    rfl
  obtain ⟨⟨⟨-, hfresh⟩, hnew⟩, hnodup, hnonneg⟩ := h.fact
  refine h.settled (by simp) (.sale h.core hfresh (fun p hp => (hnew p hp).2) hnodup
    (fun p hp => ⟨?_, ?_, hnonneg p hp⟩) ?_)
  · obtain ⟨x, -, rfl⟩ := List.mem_map.mp hp
    rfl
  · obtain ⟨x, -, rfl⟩ := List.mem_map.mp hp
    rfl
  · rw [← htotal, List.map_map]
    rfl

theorem triple_place {env : Environment} {d : OrderDraft} {session : Option Uuid}
    {payments : List (SalePayment × Option ConfirmedUpi)} :
    paymentContract.Triple R (At .none [])
      (place env tenantId userId orderId d (settle tenantId userId session payments))
      fun _ => Settled [.sale] := by
  have hdeaf (paid : List NewPayment) : (saleFact orderId paid).Deaf := fun _ _ _ _ h => h
  refine (triple_emits (fun _ _ _ _ h => h) (.forM fun _ _ => emits_lockRow _)).bind fun _ => ?_
  refine (triple_emits (fun _ _ _ _ h => h) (.forM fun it _ =>
    (reserveItem_emits tenantId it).mono fun _ => isCore_of_isStock)).bind fun _ => ?_
  refine (triple_emits (fun _ _ _ _ h => h) (nextInvoiceNumber_emits fun _ => rfl)).bind fun n => ?_
  refine triple_insertOrder.bind fun _ => ?_
  refine (triple_emits (hdeaf []) (.forM fun it _ => emits_perform fun s e he => ?_)).bind
    fun _ => ?_
  · obtain rfl := Except.ok.inj he
    rfl
  refine (triple_emits (hdeaf []) (.forM fun it _ =>
    (recordReservation_emits tenantId userId orderId it).mono fun _ => isCore_of_isStock)).bind
      fun _ => ?_
  refine (triple_aside fun s e he => ?_).bind fun _ => ?_
  · obtain rfl := Except.ok.inj he
    rfl
  exact triple_settle.bind fun _ => Triple.readsOnly (.query _) Settled.stable

theorem sessionForCash_readsOnly (tenantId defaultRegister : Uuid) (body : SaleBody) :
    (sessionForCash tenantId defaultRegister body).ReadsOnly := by
  simp only [sessionForCash]
  split
  · exact (ReadsOnly.query _).bind fun _ => (ReadsOnly.orRaise _ _).bind fun _ => .ret _
  · exact .ret _

theorem triple_sale {env : Environment} {walkIn defaultRegister : Uuid} {body : SaleBody} :
    paymentContract.Triple R (At .none [])
      (sale env tenantId userId orderId walkIn defaultRegister body)
      fun _ => Settled [.sale] := by
  refine triple_read_any fun fallback => Triple.orRaise_bind fun warehouseId _ => ?_
  refine (triple_readsOnly_at (sessionForCash_readsOnly _ _ _)).bind fun session => ?_
  refine (Triple.mapM_const At.stable fun p =>
    triple_emits (fun _ _ _ _ h => h) (confirmUpi_emits tenantId p)).bind fun payments => ?_
  exact (triple_readsOnly_at (prepare_readsOnly _ _ _)).bind fun d => triple_place

theorem triple_walkInCustomer {customerId : Uuid} :
    paymentContract.Triple R (At .none []) (walkInCustomer tenantId customerId)
      fun _ => Settled [.note] := by
  refine Triple.post (Q := fun _ => At .none []) ?_ fun _ t s h =>
    h.settled (by simp) (.note h.core)
  refine triple_read_any fun existing => ?_
  split
  · exact triple_readsOnly_at (.ret _)
  refine (triple_aside fun s e he => ?_).bind fun _ => triple_readsOnly_at (.query _)
  unfold Statement.insertCustomer at he
  split_ifs at he <;> (obtain rfl := Except.ok.inj he; rfl)

end PosService

theorem CashRegisterService.triple_ensureDefault {registerId : Uuid} :
    paymentContract.Triple R (At .none []) (ensureDefault tenantId registerId)
      fun _ => Settled [.note] := by
  refine Triple.post (Q := fun _ => At .none []) ?_ fun _ t s h =>
    h.settled (by simp) (.note h.core)
  refine triple_read_any fun existing => ?_
  split
  · exact triple_readsOnly_at (.ret _)
  refine (triple_aside fun s e he => ?_).bind fun _ => triple_readsOnly_at (.query _)
  unfold Statement.insertCashRegister at he
  split_ifs at he <;> (obtain rfl := Except.ok.inj he; rfl)

/-! ### All requests -/

/-- Every request ends with one of its effects. -/
theorem PaymentRequest.triple (r : PaymentRequest) :
    paymentContract.Triple R (At (.calls []) []) r.program fun _ => Settled r.kinds := by
  have hstart {p : Sql Unit} (hp : paymentContract.Triple R (At .none []) p
      fun _ => Settled r.kinds) : paymentContract.Triple R (At (.calls []) []) p
      fun _ => Settled r.kinds := triple_weaken (fun _ _ _ => trivial) hp
  cases r with
  | create => exact hstart (triple_discard PaymentService.triple_create Settled.stable)
  | confirm => exact hstart (triple_discard PaymentService.triple_confirm Settled.stable)
  | refund =>
    refine (triple_discard PaymentService.triple_refund PaymentService.WroteRefund.stable).post
      fun _ t s h => h.settled
  | webhook => exact hstart (triple_discard PaymentService.triple_handleWebhook Settled.stable)
  | start => exact hstart (triple_discard RazorpayPaymentsService.triple_start Settled.stable)
  | verify => exact hstart (triple_discard RazorpayPaymentsService.triple_verify Settled.stable)
  | razorpayWebhook =>
    exact hstart (triple_discard RazorpayPaymentsService.triple_handleWebhook Settled.stable)
  | walkInCustomer =>
    exact hstart (triple_discard PosService.triple_walkInCustomer Settled.stable)
  | ensureDefault =>
    exact hstart (triple_discard CashRegisterService.triple_ensureDefault Settled.stable)
  | sale => exact hstart (triple_discard PosService.triple_sale Settled.stable)

end PulseOps
