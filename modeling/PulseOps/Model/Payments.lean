import PulseOps.Model.Orders
import PulseOps.Model.Razorpay

/-!
# Payments

`payments/payments.service.js` and `payments/razorpay-payments.service.js`: creating,
confirming and refunding a payment, the generic webhook, and online payment through the
shop's Razorpay account.

Identifiers and random texts the services draw are arguments. A repeated webhook event
fails on its unique index and is rolled back; the answer it gets is left out.
-/

set_option autoImplicit false

open ReadCommitted Program

namespace PulseOps

/-! ### Writing statements and their constraints -/

namespace Statement

/-- `payment.create`: an amount that is not negative, a fresh id, an unused provider id and
an order of the same tenant. -/
def insertPayment (id : Uuid) (row : Payment) (s : Db) : Except Failure Edit :=
  if row.amount < 0 then .error (.database .checkViolation)
  else if (s.payments.lookup id).isSome ∨ s.payments.entries.any fun p =>
      row.providerPaymentId.isSome ∧ p.2.tenantId = row.tenantId ∧
        p.2.providerPaymentId = row.providerPaymentId then
    .error (.database .uniqueViolation)
  else if (s.orders.lookup row.orderId).any fun o => o.tenantId = row.tenantId then
    .ok (.paymentInsert id row)
  else .error (.database .foreignKeyViolation)

/-- `payment.update`: the row must exist and keep its provider id to itself. -/
def updatePayment (id : Uuid) (change : Payment → Payment) (s : Db) : Except Failure Edit :=
  match s.payments.lookup id with
  | none => .error (.database .recordNotFound)
  | some row =>
    if s.payments.entries.any fun p => p.1 ≠ id ∧ (change row).providerPaymentId.isSome ∧
        p.2.tenantId = row.tenantId ∧
          p.2.providerPaymentId = (change row).providerPaymentId then
      .error (.database .uniqueViolation)
    else .ok (.paymentUpdate id (change row))

/-- Whether a payment of the tenant has this id. -/
def paymentExists (id tenantId : Uuid) (s : Db) : Bool :=
  (s.payments.lookup id).any fun p => p.tenantId = tenantId

/-- `paymentTransaction.create`. -/
def insertPaymentTransaction (row : PaymentTransaction) (s : Db) : Except Failure Edit :=
  if row.amount < 0 then .error (.database .checkViolation)
  else if s.paymentTransactions.any fun t => row.providerTransactionId.isSome ∧
      t.tenantId = row.tenantId ∧ t.providerTransactionId = row.providerTransactionId then
    .error (.database .uniqueViolation)
  else if paymentExists row.paymentId row.tenantId s then .ok (.paymentTransactionInsert row)
  else .error (.database .foreignKeyViolation)

/-- `refund.create`. -/
def insertRefund (row : Refund) (s : Db) : Except Failure Edit :=
  if row.amount < 0 then .error (.database .checkViolation)
  else if s.refunds.any fun r => row.providerRefundId.isSome ∧ r.tenantId = row.tenantId ∧
      r.providerRefundId = row.providerRefundId then
    .error (.database .uniqueViolation)
  else if paymentExists row.paymentId row.tenantId s then .ok (.refundInsert row)
  else .error (.database .foreignKeyViolation)

/-- `paymentWebhookEvent.create`: one row an event. -/
def insertPaymentWebhookEvent (row : PaymentWebhookEvent) (s : Db) : Except Failure Edit :=
  if s.paymentWebhookEvents.any fun e => e.eventId = row.eventId then
    .error (.database .uniqueViolation)
  else if row.paymentId.all fun id => paymentExists id row.tenantId s then
    .ok (.paymentWebhookEventInsert row)
  else .error (.database .foreignKeyViolation)

variable {id : Uuid} {s : Db} {e : Edit}

theorem insertPayment_eq_ok {row : Payment} (h : insertPayment id row s = .ok e) :
    0 ≤ row.amount ∧ s.payments.lookup id = none ∧ e = .paymentInsert id row := by
  unfold insertPayment at h
  split_ifs at h with hamount hunique horder
  rw [not_or] at hunique
  exact ⟨not_lt.mp hamount, by simpa using hunique.1, (Except.ok.inj h).symm⟩

theorem updatePayment_eq_ok {change : Payment → Payment}
    (h : updatePayment id change s = .ok e) :
    ∃ row, s.payments.lookup id = some row ∧ e = .paymentUpdate id (change row) := by
  unfold updatePayment at h
  split at h
  · cases h
  · rename_i row hrow
    split_ifs at h
    exact ⟨row, hrow, (Except.ok.inj h).symm⟩

theorem insertPaymentTransaction_eq_ok {row : PaymentTransaction}
    (h : insertPaymentTransaction row s = .ok e) : e = .paymentTransactionInsert row := by
  unfold insertPaymentTransaction at h
  split_ifs at h
  exact (Except.ok.inj h).symm

theorem insertRefund_eq_ok {row : Refund} (h : insertRefund row s = .ok e) :
    e = .refundInsert row := by
  unfold insertRefund at h
  split_ifs at h
  exact (Except.ok.inj h).symm

theorem insertPaymentWebhookEvent_eq_ok {row : PaymentWebhookEvent}
    (h : insertPaymentWebhookEvent row s = .ok e) : e = .paymentWebhookEventInsert row := by
  unfold insertPaymentWebhookEvent at h
  split_ifs at h
  exact (Except.ok.inj h).symm

end Statement

/-! ### Payment states -/

def PaymentStatus.text : PaymentStatus → String
  | .pending => "PENDING"
  | .processing => "PROCESSING"
  | .completed => "COMPLETED"
  | .failed => "FAILED"
  | .refunded => "REFUNDED"
  | .partiallyRefunded => "PARTIALLY_REFUNDED"
  | .cancelled => "CANCELLED"

/-- PENDING or PROCESSING. -/
def PaymentStatus.isOpen : PaymentStatus → Bool
  | .pending => true
  | .processing => true
  | _ => false

namespace PaymentRepository

def findById (id tenantId : Uuid) (s : Db) : Option Payment :=
  (s.payments.lookup id).filter (·.tenantId = tenantId)

/-- The first payment the database happens to return among those that satisfy `p`. -/
def findFirst (p : Payment → Bool) (s : Db) : Option (Uuid × Payment) :=
  (s.payments.entries.find? fun e => p e.2).map fun e => (e.1, e.2)

variable {id tenantId : Uuid} {s : Db}

theorem findById_eq_some {row : Payment} :
    findById id tenantId s = some row ↔
      s.payments.lookup id = some row ∧ row.tenantId = tenantId := by
  simp [findById, Option.filter_eq_some_iff]

theorem findFirst_eq_some {p : Payment → Bool} {found : Uuid × Payment}
    (h : findFirst p s = some found) :
    s.payments.lookup found.1 = some found.2 ∧ p found.2 = true := by
  unfold findFirst at h
  obtain ⟨e, he, rfl⟩ := Option.map_eq_some_iff.mp h
  have hp : p e.2 = true := by simpa using List.find?_some he
  exact ⟨AList.mem_lookup_iff.mpr (List.mem_of_find?_eq_some he), hp⟩

def findByProviderPaymentId (providerPaymentId : String) (tenantId : Uuid) :
    Db → Option (Uuid × Payment) :=
  findFirst fun row => row.providerPaymentId = some providerPaymentId ∧ row.tenantId = tenantId

def findActiveForOrder (orderId tenantId : Uuid) : Db → Option (Uuid × Payment) :=
  findFirst fun row => row.orderId = orderId ∧ row.tenantId = tenantId ∧ row.status.isOpen

end PaymentRepository

/-- The COMPLETED refunds of a payment. -/
def completedRefunds (paymentId tenantId : Uuid) (s : Db) : List Refund :=
  s.refunds.filter fun r =>
    r.paymentId = paymentId ∧ r.tenantId = tenantId ∧ r.status = .completed

/-- What was refunded of a payment so far. -/
def refundedCents (paymentId tenantId : Uuid) (s : Db) : Cents :=
  ((completedRefunds paymentId tenantId s).map (·.amount)).sum

/-- The provider of payments taken through the shop's Razorpay account. -/
def razorpayProvider : String := "razorpay"

/-- Orders in these states can be paid. -/
def orderEligibleStatuses : List OrderStatus := [.pending, .confirmed, .processing, .draft]

namespace PaymentService

/-- `PAYMENT_TRANSITIONS`. -/
def paymentTransitions : PaymentStatus → List PaymentStatus
  | .pending => [.processing, .completed, .failed, .cancelled]
  | .processing => [.completed, .failed, .cancelled]
  | .completed => [.refunded, .partiallyRefunded]
  | .partiallyRefunded => [.refunded, .partiallyRefunded]
  | .failed => []
  | .cancelled => []
  | .refunded => []

def isValidTransition (fromStatus toStatus : PaymentStatus) : Bool :=
  fromStatus ≠ toStatus ∧ toStatus ∈ paymentTransitions fromStatus

/-! ### Creating a payment -/

/-- The id and the random texts drawn for a new payment. -/
structure DrawnIds where
  payment : Uuid
  charge : String
  transaction : String

structure CreatePaymentBody where
  orderId : Uuid
  provider : Option String := none
  currency : Option String := none
  metadata : Metadata := ∅

/-- Open a payment of an order over its total. -/
def create (env : Environment) (tenantId userId : Uuid) (ids : DrawnIds)
    (body : CreatePaymentBody) : Sql (Option Payment) := do
  let configured := (truthy (some env.paymentProvider)).getD "mock"
  let provider := (truthy body.provider).getD configured
  let found ← query fun s => (s.orders.lookup body.orderId).filter (·.tenantId = tenantId)
  let order ← orThrow found "Order not found" 404 "ORDER_NOT_FOUND"
  ensure (order.status ∈ orderEligibleStatuses)
    ("Order not eligible for payment (status " ++ OrderService.statusText order.status ++ ")")
    409 "ORDER_NOT_ELIGIBLE"
  -- prevent duplicate active payment for same order
  let existing ← query (PaymentRepository.findActiveForOrder body.orderId tenantId)
  ensure existing.isNone "Order already has a pending payment" 409 "PAYMENT_ALREADY_PENDING"
  let currency :=
    (truthy (some order.currency) <|> truthy body.currency).getD Gst.defaultCurrency
  ensure (0 < order.total) "Order total must be positive" 400 "INVALID_AMOUNT"
  let externalProviderId ←
    PaymentProvider.charge env order.total currency body.orderId tenantId
  perform (Statement.insertPayment ids.payment
    { tenantId := tenantId
      orderId := body.orderId
      amount := order.total
      currency := currency
      status := .pending
      provider := provider
      providerPaymentId := some (externalProviderId.getD ("pay_" ++ ids.charge))
      metadata := body.metadata })
  perform (Statement.insertPaymentTransaction
    { tenantId := tenantId
      paymentId := ids.payment
      type := .charge
      amount := order.total
      currency := currency
      status := .pending
      providerTransactionId := some ("txn_" ++ ids.transaction)
      metadata := .ofList [("initiatedBy", .str userId)] })
  query (PaymentRepository.findById ids.payment tenantId)

/-! ### Confirming a payment -/

structure ConfirmPaymentBody where
  paymentId : Option Uuid := none
  providerPaymentId : Option String := none
  simulateFailure : Bool := false

/-- The payment a confirmation is about. -/
def findToConfirm (tenantId : Uuid) (body : ConfirmPaymentBody) (s : Db) :
    Option (Uuid × Payment) :=
  match truthy body.paymentId, truthy body.providerPaymentId with
  | some id, _ => (PaymentRepository.findById id tenantId s).map fun row => (id, row)
  | none, some providerPaymentId =>
    PaymentRepository.findByProviderPaymentId providerPaymentId tenantId s
  | none, none => none

/-- Complete an open payment, or fail it. -/
def confirm (env : Environment) (tenantId userId : Uuid) (transaction : String)
    (body : ConfirmPaymentBody) : Sql (Option Payment) := do
  let found ← query (findToConfirm tenantId body)
  let payment ← orThrow found "Payment not found" 404 "PAYMENT_NOT_FOUND"
  ensure payment.2.status.isOpen
    ("Invalid payment state for confirmation: " ++ payment.2.status.text) 409
    "INVALID_STATE_TRANSITION"
  let targetStatus : PaymentStatus := if body.simulateFailure then .failed else .completed
  ensure (isValidTransition payment.2.status targetStatus)
    ("Invalid state transition from " ++ payment.2.status.text ++ " to " ++ targetStatus.text)
    409 "INVALID_STATE_TRANSITION"
  lockRow (.payment payment.1)
  let reread ← query (PaymentRepository.findById payment.1 tenantId)
  let freshStatus := (reread.map (·.status.text)).getD "undefined"
  let fresh ← orThrow (reread.filter (·.status.isOpen))
    ("Invalid payment state for confirmation: " ++ freshStatus) 409 "INVALID_STATE_TRANSITION"
  let providerPaymentId := truthy body.providerPaymentId
  perform (Statement.updatePayment payment.1 fun row =>
    { row with
      status := targetStatus
      providerPaymentId := providerPaymentId <|> fresh.providerPaymentId })
  perform (Statement.insertPaymentTransaction
    { tenantId := tenantId
      paymentId := payment.1
      type := .charge
      amount := fresh.amount
      currency := fresh.currency
      status := targetStatus
      providerTransactionId := some (match providerPaymentId with
        | some id => "txn_" ++ String.ofList (id.toList.take 12) ++ "_" ++ toString env.now
        | none => "txn_" ++ transaction)
      metadata := .ofList [("confirmedBy", .str userId),
        ("simulateFailure", .bool body.simulateFailure)] })
  query (PaymentRepository.findById payment.1 tenantId)

/-! ### Refunds -/

structure RefundBody where
  amount : Cents
  reason : Option String := none
  metadata : Metadata := ∅

/-- `refundAtProvider` of the Razorpay service: send a refund to Razorpay; Razorpay's refund
id. Called with the payment row locked. -/
def refundAtProvider (paymentId : Uuid) (payment : Payment) (amount : Cents)
    (reason : Option String) : Sql (Option String) := do
  let razorpayPaymentId ← orThrow (truthy (payment.metadata.str? "razorpayPaymentId"))
    "This Razorpay payment has no captured payment to refund" 409 "INVALID_REFUND_STATE"
  let found ← query (Razorpay.credentialsFor payment.tenantId true)
  let credentials ← orThrow found "Reconnect Razorpay to refund this payment" 409
    "PAYMENT_GATEWAY_NOT_CONFIGURED"
  Razorpay.refundPayment credentials razorpayPaymentId
    (Razorpay.toMinorUnits amount payment.currency) paymentId
    (reason.map fun text => String.ofList (text.toList.take 200))

/-- Money taken through the shop's Razorpay goes back through it; any other refund only gets
an id. -/
def sendRefund (paymentId : Uuid) (payment : Payment) (amount : Cents)
    (reason : Option String) (randomRef : String) : Sql (Option String) :=
  if payment.provider = razorpayProvider then
    refundAtProvider paymentId payment amount reason
  else return some ("ref_" ++ randomRef)

/-- The status of a payment of `paymentCents` of which `totalAfter` was given back. -/
def refundStatus (paymentCents totalAfter : Cents) : PaymentStatus :=
  if paymentCents ≤ totalAfter then .refunded else .partiallyRefunded

/-- Refund a payment in part or in full, through Razorpay when it was taken through it. -/
def refund (tenantId userId paymentId refundId : Uuid) (randomRef : String)
    (body : RefundBody) : Sql (Option Payment) := do
  let reason := truthy body.reason
  let found ← query (PaymentRepository.findById paymentId tenantId)
  let payment ← orThrow found "Payment not found" 404 "PAYMENT_NOT_FOUND"
  ensure (payment.status = .completed ∨ payment.status = .partiallyRefunded)
    ("Refund not allowed in payment status " ++ payment.status.text) 409
    "INVALID_REFUND_STATE"
  ensure (0 < body.amount) "Refund amount must be positive" 400 "INVALID_REFUND_AMOUNT"
  let refunded ← query (refundedCents paymentId tenantId)
  let refundable := payment.amount - refunded
  ensure (body.amount ≤ refundable)
    ("Refund amount exceeds refundable amount: requested " ++ fromCents body.amount ++
      ", refundable " ++ fromCents refundable) 409 "EXCESSIVE_REFUND"
  lockRow (.payment paymentId)
  let reread ← query (PaymentRepository.findById paymentId tenantId)
  -- recompute refundable inside the transaction
  let freshRefunded ← query (refundedCents paymentId tenantId)
  let fresh ← orRaise reread .typeError
  ensure (body.amount ≤ fresh.amount - freshRefunded) "Refund amount exceeds refundable amount"
    409 "EXCESSIVE_REFUND"
  ensure (fresh.status = .completed ∨ fresh.status = .partiallyRefunded)
    ("Refund not allowed in payment status " ++ fresh.status.text) 409 "INVALID_REFUND_STATE"
  let providerRefundId ← sendRefund paymentId fresh body.amount reason randomRef
  perform (Statement.insertRefund
    { tenantId := tenantId
      paymentId := paymentId
      amount := body.amount
      currency := fresh.currency
      status := .completed
      reason := reason
      providerRefundId := providerRefundId
      metadata := body.metadata })
  perform (Statement.insertPaymentTransaction
    { tenantId := tenantId
      paymentId := paymentId
      type := .refund
      amount := body.amount
      currency := fresh.currency
      status := .completed
      providerTransactionId := some ("txn_ref_" ++ providerRefundId.getD "undefined")
      metadata := .ofList [("refundId", .str refundId), ("refundedBy", .str userId)] })
  let newStatus := refundStatus payment.amount (freshRefunded + body.amount)
  ensure (isValidTransition fresh.status newStatus ∨ fresh.status = newStatus)
    ("Invalid refund state transition from " ++ fresh.status.text ++ " to " ++ newStatus.text)
    409 "INVALID_STATE_TRANSITION"
  perform (Statement.updatePayment paymentId fun row => { row with status := newStatus })
  query (PaymentRepository.findById paymentId tenantId)

/-! ### Provider events -/

inductive WebhookType where
  | paymentSucceeded
  | paymentFailed
  | paymentRefunded
  | chargeSucceeded
  | chargeFailed
  | other (text : String)
  deriving DecidableEq, Repr

def WebhookType.text : WebhookType → String
  | paymentSucceeded => "payment.succeeded"
  | paymentFailed => "payment.failed"
  | paymentRefunded => "payment.refunded"
  | chargeSucceeded => "charge.succeeded"
  | chargeFailed => "charge.failed"
  | other text => text

/-- The status an event asks for. -/
def WebhookType.targetStatus : WebhookType → Option PaymentStatus
  | paymentSucceeded => some .completed
  | chargeSucceeded => some .completed
  | paymentFailed => some .failed
  | chargeFailed => some .failed
  | paymentRefunded => some .refunded
  | other _ => none

structure WebhookPayload where
  eventId : Option String
  type : WebhookType
  paymentId : Option Uuid := none
  providerPaymentId : Option String := none
  providerTransactionId : Option String := none
  amount : Option Cents := none
  tenantId : Option Uuid := none

/-- The payment an event is about. -/
def findForWebhook (payload : WebhookPayload) (s : Db) : Option (Uuid × Payment) :=
  match truthy payload.paymentId, truthy payload.providerPaymentId, truthy payload.tenantId with
  | some id, _, some tenantId => (PaymentRepository.findById id tenantId s).map fun row => (id, row)
  | some id, _, none => (s.payments.lookup id).map fun row => (id, row)
  | none, some providerPaymentId, some tenantId =>
    PaymentRepository.findByProviderPaymentId providerPaymentId tenantId s
  | none, some providerPaymentId, none =>
    PaymentRepository.findFirst (fun row => row.providerPaymentId = some providerPaymentId) s
  | none, none, _ => none

/-- Move the payment to the status the event asks for, when it is a step of
`PAYMENT_TRANSITIONS`. -/
def applyWebhook (tenantId paymentId : Uuid) (payment : Payment) (eventId : String)
    (payload : WebhookPayload) : Sql Unit :=
  match payload.type.targetStatus with
  | none => return ()
  | some targetStatus =>
    if isValidTransition payment.status targetStatus then do
      lockRow (.payment paymentId)
      let reread ← query (PaymentRepository.findById paymentId tenantId)
      match reread.filter fun fresh => isValidTransition fresh.status targetStatus with
      | none => return ()
      | some fresh =>
        perform (Statement.updatePayment paymentId fun row => { row with status := targetStatus })
        -- create transaction if not duplicate
        let providerTransactionId := truthy payload.providerTransactionId
        let duplicate ← query fun s => s.paymentTransactions.any fun t =>
          t.tenantId = tenantId ∧ t.providerTransactionId = providerTransactionId
        if duplicate then return ()
        else perform (Statement.insertPaymentTransaction
          { tenantId := tenantId
            paymentId := paymentId
            type := if payload.type = .paymentRefunded then .refund else .charge
            amount := payload.amount.getD fresh.amount
            currency := fresh.currency
            status := targetStatus
            providerTransactionId := some (providerTransactionId.getD ("wh_" ++ eventId))
            metadata := .ofList [("webhookEventId", .str eventId),
              ("webhookType", .str payload.type.text)] })
    else return ()

/-- An event of the generic provider. -/
def handleWebhook (env : Environment) (rawBody : String) (payload : WebhookPayload)
    (signature : Option String) : Sql (Option Payment) := do
  let eventId ← orThrow (truthy payload.eventId) "eventId is required" 400 "INVALID_WEBHOOK"
  ensure (verifyWebhookSignature env rawBody signature) "Invalid webhook signature" 401
    "INVALID_WEBHOOK_SIGNATURE"
  let found ← query (findForWebhook payload)
  let tenantId ← orThrow (truthy payload.tenantId <|> found.map (·.2.tenantId))
    "Cannot resolve tenant for webhook" 400 "INVALID_WEBHOOK"
  let payment ← orThrow found "Payment not found for webhook" 404 "PAYMENT_NOT_FOUND"
  perform (Statement.insertPaymentWebhookEvent
    { tenantId := tenantId
      paymentId := some payment.1
      eventId := eventId
      providerEventId := some eventId
      providerPaymentId := truthy payload.providerPaymentId <|> payment.2.providerPaymentId
      type := payload.type.text
      payload := some
        { providerTransactionId := truthy payload.providerTransactionId
          amount := payload.amount } })
  applyWebhook tenantId payment.1 payment.2 eventId payload
  query (PaymentRepository.findById payment.1 tenantId)

end PaymentService

namespace RazorpayPaymentsService

open PaymentService

/-- `PAID_EVENTS`. -/
def paidEvents : List String := ["payment.captured", "order.paid"]

/-! ### Starting a payment -/

/-- What Razorpay's web checkout needs. -/
structure Checkout where
  provider : String
  keyId : String
  orderId : Option String
  amount : Option ℤ
  currency : String
  deriving DecidableEq, Repr

/-- The amount Razorpay was asked for, `Number(…)` of what the metadata holds. -/
def expectedMinor (payment : Payment) : Option ℤ :=
  match payment.metadata.lookup "amountMinor" with
  | none => some (Razorpay.toMinorUnits payment.amount payment.currency)
  | some .null => some (Razorpay.toMinorUnits payment.amount payment.currency)
  | some (.num n) => some n
  | some (.bool b) => some (if b then 1 else 0)
  | some (.str text) => text.toInt?
  | some (.text _) => none

def checkoutFor (payment : Payment) (credentials : Razorpay.Credentials) : Checkout :=
  { provider := razorpayProvider
    keyId := credentials.keyId
    orderId := payment.providerPaymentId
    amount := expectedMinor payment
    currency := payment.currency }

/-- A payment in progress that the shopper can go on with. -/
def reusable (credentials : Razorpay.Credentials) (amountMinor : ℤ) (active : Payment) : Bool :=
  active.provider = razorpayProvider ∧
    active.metadata.lookup "amountMinor" = some (.num amountMinor) ∧
    active.metadata.lookup "keyId" = some (.str credentials.keyId)

/-- Create a Razorpay order and a payment for it. -/
def openPayment (tenantId orderId paymentId : Uuid) (order : Order) (currency : String)
    (amountMinor : ℤ) (credentials : Razorpay.Credentials) (userId : Option Uuid) :
    Sql Checkout := do
  let rzpOrderId ← Razorpay.createOrder credentials amountMinor currency orderId tenantId orderId
  let created : Payment :=
    { tenantId := tenantId
      orderId := orderId
      amount := order.total
      currency := currency
      status := .pending
      provider := razorpayProvider
      providerPaymentId := rzpOrderId
      metadata := (Metadata.ofList [("amountMinor", .num amountMinor),
        ("keyId", .str credentials.keyId),
        ("mode", .str (Razorpay.modeOf credentials.keyId))]).set "razorpayOrderId" rzpOrderId }
  perform (Statement.insertPayment paymentId created)
  perform (Statement.insertPaymentTransaction
    { tenantId := tenantId
      paymentId := paymentId
      type := .charge
      amount := created.amount
      currency := currency
      status := .pending
      providerTransactionId := rzpOrderId
      metadata := (Metadata.ofList [("initiatedBy", .ofOption userId)]).set "razorpayOrderId"
        rzpOrderId })
  return checkoutFor created credentials

/-- Start online payment of an order, or resume one of the same amount. The order row is
locked: one payer at a time per order. -/
def start (tenantId orderId paymentId : Uuid) (userId : Option Uuid) : Sql Checkout := do
  let account ← query (Razorpay.credentialsFor tenantId false)
  let credentials ← orThrow account "This shop does not take online payment yet" 409
    "PAYMENT_GATEWAY_NOT_CONFIGURED"
  lockRow (.order orderId)
  let found ← query fun s => (s.orders.lookup orderId).filter (·.tenantId = tenantId)
  let order ← orThrow found "Order not found" 404 "ORDER_NOT_FOUND"
  ensure (order.status ∈ orderEligibleStatuses)
    ("Order not eligible for payment (status " ++ OrderService.statusText order.status ++ ")")
    409 "ORDER_NOT_ELIGIBLE"
  let paid ← query (PaymentRepository.findFirst fun row => row.orderId = orderId ∧
    row.tenantId = tenantId ∧ row.status = .completed ∧ row.deleted = false)
  ensure paid.isNone "This order is already paid" 409 "ORDER_ALREADY_PAID"
  let currency := (truthy (some order.currency)).getD "INR"
  let amountMinor := Razorpay.toMinorUnits order.total currency
  ensure (0 < amountMinor) "Order total must be positive" 400 "INVALID_AMOUNT"
  let active ← query (PaymentRepository.findFirst fun row => row.orderId = orderId ∧
    row.tenantId = tenantId ∧ row.status.isOpen ∧ row.deleted = false)
  match active with
  | none => openPayment tenantId orderId paymentId order currency amountMinor credentials userId
  | some attempt =>
    if reusable credentials amountMinor attempt.2 then
      return checkoutFor attempt.2 credentials
    else do
      -- a stale attempt gives way to the new one
      perform (Statement.updatePayment attempt.1 fun row => { row with status := .cancelled })
      openPayment tenantId orderId paymentId order currency amountMinor credentials userId

/-! ### Completing a payment -/

/-- Complete the payment read under its lock; or, when money was taken for one that is no
longer open, note that the shop must refund it. -/
def capture (tenantId paymentId : Uuid) (razorpayPaymentId : Option String) (via : String)
    (userId : Option Uuid) (fresh : Payment) : Sql Unit :=
  let charge (details : List (String × JsonValue)) : PaymentTransaction :=
    { tenantId := tenantId
      paymentId := paymentId
      type := .charge
      amount := fresh.amount
      currency := fresh.currency
      status := .completed
      providerTransactionId := razorpayPaymentId
      metadata := .ofList
        (("razorpayOrderId", .ofOption fresh.providerPaymentId) :: ("via", .str via) :: details) }
  if fresh.status.isOpen then do
    perform (Statement.updatePayment paymentId fun row =>
      { row with
        status := .completed
        metadata := (fresh.metadata.set "razorpayPaymentId" razorpayPaymentId).insert "paidVia"
          (.str via) })
    perform (Statement.insertPaymentTransaction (charge [("confirmedBy", .ofOption userId)]))
  else if fresh.metadata.lookup "razorpayPaymentId" ≠ razorpayPaymentId.map .str then
    perform (Statement.insertPaymentTransaction (charge
      [("note", .str "Captured after the payment was closed; refund needed")]))
  else return ()

/-- Mark a payment paid, once. `inTx` runs inside the same transaction. -/
def markPaid (tenantId paymentId : Uuid) (razorpayPaymentId : Option String) (via : String)
    (userId : Option Uuid) (inTx : Sql Unit) : Sql (Option Payment) := do
  lockRow (.payment paymentId)
  inTx
  let reread ← query (PaymentRepository.findById paymentId tenantId)
  let fresh ← orRaise reread .typeError
  capture tenantId paymentId razorpayPaymentId via userId fresh
  query (PaymentRepository.findById paymentId tenantId)

/-- What the browser hands over after the payment window has closed. -/
structure CheckoutResult where
  razorpayOrderId : String
  razorpayPaymentId : String
  razorpaySignature : Option String

/-- Complete a payment on the browser's word, after checking Razorpay's signature.
`customerId` scopes the lookup to the orders of one customer. -/
def verify (env : Environment) (tenantId paymentId : Uuid) (result : CheckoutResult)
    (customerId userId : Option Uuid) : Sql (Option Payment) := do
  let found ← query fun s => (PaymentRepository.findById paymentId tenantId s).filter fun row =>
    row.provider = razorpayProvider ∧ row.deleted = false ∧
      customerId.all fun id => (s.orders.lookup row.orderId).any fun o => o.customerId = id
  let payment ← orThrow found "Payment not found" 404 "PAYMENT_NOT_FOUND"
  let account ← query (Razorpay.credentialsFor tenantId true)
  let credentials ← orThrow account "This shop does not take online payment yet" 409
    "PAYMENT_GATEWAY_NOT_CONFIGURED"
  ensure (payment.providerPaymentId = some result.razorpayOrderId ∧
      Razorpay.checkoutSignatureValid env credentials.keySecret result.razorpayOrderId
        result.razorpayPaymentId result.razorpaySignature)
    ("We could not confirm this payment. If money was taken, it will be confirmed " ++
      "automatically or refunded.") 400 "INVALID_PAYMENT_SIGNATURE"
  markPaid tenantId paymentId (some result.razorpayPaymentId) "checkout" userId (return ())

/-- `payload.payment.entity` of a Razorpay event. -/
structure RazorpayEntity where
  id : Option String
  orderId : Option String
  amount : Option ℤ

structure RazorpayEvent where
  event : Option String
  entity : Option RazorpayEntity

/-- An event from Razorpay, signed with the shop's webhook secret. `parsed` is what
`JSON.parse` makes of the body. -/
def handleWebhook (env : Environment) (tenantId : Uuid) (rawBody : String)
    (parsed : Option RazorpayEvent) (signature eventIdHeader : Option String) :
    Sql (Option Payment) := do
  let account ← query (Razorpay.credentialsFor tenantId true)
  ensure (rawBody ≠ "" ∧ account.any fun credentials =>
      (truthy credentials.webhookSecret).any fun secret =>
        Razorpay.webhookSignatureValid env secret rawBody signature)
    "Invalid webhook signature" 401 "INVALID_WEBHOOK_SIGNATURE"
  let event ← orThrow parsed "Webhook body is not JSON" 400 "INVALID_WEBHOOK"
  let razorpayOrderId := truthy (event.entity.bind (·.orderId))
  let record (paymentId : Option Uuid) : Sql Unit :=
    perform (Statement.insertPaymentWebhookEvent
      { tenantId := tenantId
        paymentId := paymentId
        eventId := "razorpay:" ++ (truthy eventIdHeader).getD (env.sha256 rawBody)
        providerEventId := truthy eventIdHeader
        providerPaymentId := razorpayOrderId
        type := (truthy event.event).getD "unknown" })
  let found ← query fun s => razorpayOrderId.bind fun id => PaymentRepository.findFirst (fun row =>
    row.tenantId = tenantId ∧ row.provider = razorpayProvider ∧
      row.providerPaymentId = some id) s
  match found, event.entity with
  | some payment, some entity =>
    if (event.event.any fun name => name ∈ paidEvents) ∧
        entity.amount.isSome ∧ entity.amount = expectedMinor payment.2 then
      markPaid tenantId payment.1 entity.id "webhook" none (record (some payment.1))
    else do
      -- other events, and amounts that do not match, are kept for the record only
      record (some payment.1)
      return none
  | _, _ => do
    record (found.map (·.1))
    return none

end RazorpayPaymentsService

end PulseOps
