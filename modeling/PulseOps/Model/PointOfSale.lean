import PulseOps.Model.Payments

/-!
# Selling at the shop counter

`pos/pos.service.js` with the parts of `pos/cash-register.service.js` it uses. A counter
sale is an order that is paid and handed over on the spot: the order, its stock, its
payments and the cash drawer entry are written in one transaction.

The walk-in customer and the default register are created in statements of their own, which
commit before the sale starts. They are requests of their own here, and a sale takes the
identifiers they return.
-/

set_option autoImplicit false

open ReadCommitted Program

namespace PulseOps

namespace Statement

/-- `customer.create`, whose unique violation the service answers by reading the row that
is there. -/
def insertCustomer (id : Uuid) (row : Customer) (s : Db) : Except Failure Edit :=
  if s.customers.entries.any fun c =>
      c.2.tenantId = row.tenantId ∧ c.2.email = row.email ∧ c.2.deleted = false then
    .ok .nothing
  else .ok (.customerInsert id row)

/-- `cashRegister.create`, likewise. -/
def insertCashRegister (id : Uuid) (row : CashRegister) (s : Db) : Except Failure Edit :=
  if s.cashRegisters.entries.any fun r =>
      r.2.tenantId = row.tenantId ∧ r.2.name = row.name then .ok .nothing
  else .ok (.cashRegisterInsert id row)

/-- `cashMovement.create`: the session must exist. -/
def insertCashMovement (row : CashMovement) (s : Db) : Except Failure Edit :=
  if (s.cashSessions.lookup row.sessionId).isSome then .ok (.cashMovementInsert row)
  else .error (.database .foreignKeyViolation)

end Statement

namespace CashRegisterService

/-- `DEFAULT_REGISTER`. -/
def defaultRegister : String := "Main counter"

/-- The first register that satisfies `p`, in the order the database returns them. -/
def findFirst (p : CashRegister → Bool) (s : Db) : Option Uuid :=
  (s.cashRegisters.entries.find? fun e => p e.2).map (·.1)

/-- Every business has at least one counter, created on first use. -/
def ensureDefault (tenantId registerId : Uuid) : Sql (Option Uuid) := do
  let existing ← query (findFirst fun r => r.tenantId = tenantId ∧ r.isActive)
  match existing with
  | some id => return some id
  | none => do
    perform (Statement.insertCashRegister registerId
      { tenantId := tenantId, name := defaultRegister })
    query (findFirst fun r => r.tenantId = tenantId ∧ r.name = defaultRegister)

/-- The open shift of a register. -/
def openSessionFor (tenantId registerId : Uuid) (s : Db) : Option (Uuid × CashSession) :=
  (s.cashSessions.entries.find? fun e =>
    e.2.tenantId = tenantId ∧ e.2.registerId = registerId ∧ e.2.status = .open).map
      fun e => (e.1, e.2)

/-- A cash sale lands in the open shift, inside the sale's transaction. -/
def recordSale (tenantId sessionId : Uuid) (amount : Cents) (orderId paymentId userId : Uuid) :
    Sql Unit :=
  perform (Statement.insertCashMovement
    { tenantId := tenantId
      sessionId := sessionId
      type := .sale
      amount := amount
      orderId := some orderId
      paymentId := some paymentId
      createdBy := some userId })

end CashRegisterService

namespace PosService

/-! ### The sale's surroundings -/

def walkInEmail (tenantId : Uuid) : String :=
  "walk-in." ++ String.ofList (tenantId.toList.take 8) ++ "@counter.pulseops.invalid"

def findWalkIn (tenantId : Uuid) (s : Db) : Option Uuid :=
  (s.customers.entries.find? fun e => e.2.tenantId = tenantId ∧
    e.2.email = walkInEmail tenantId ∧ e.2.deleted = false).map (·.1)

/-- The anonymous customer for quick counter sales, one per business. -/
def walkInCustomer (tenantId customerId : Uuid) : Sql (Option Uuid) := do
  let existing ← query (findWalkIn tenantId)
  match existing with
  | some id => return some id
  | none => do
    perform (Statement.insertCustomer customerId
      { tenantId := tenantId
        email := walkInEmail tenantId
        firstName := "Walk-in"
        lastName := "Customer" })
    query (findWalkIn tenantId)

/-- The default warehouse of the business, else its first active one. -/
def defaultWarehouse (tenantId : Uuid) (s : Db) : Option Uuid :=
  let active := s.warehouses.entries.filter fun e => e.2.tenantId = tenantId ∧ e.2.isActive
  ((active.find? fun e => e.2.isDefault) <|> active.head?).map (·.1)

/-! ### The sale -/

inductive PaymentMethod where
  | cash
  | upi
  | card
  | bank
  | cheque
  deriving DecidableEq, Repr

def PaymentMethod.text : PaymentMethod → String
  | cash => "CASH"
  | upi => "UPI"
  | card => "CARD"
  | bank => "BANK"
  | cheque => "CHEQUE"

/-- `method.toLowerCase()`. -/
def PaymentMethod.provider : PaymentMethod → String
  | cash => "cash"
  | upi => "upi"
  | card => "card"
  | bank => "bank"
  | cheque => "cheque"

/-- One payment of the sale, with the id and the random texts drawn for it. -/
structure SalePayment where
  method : PaymentMethod
  amount : Cents
  tendered : Option Cents := none
  reference : Option String := none
  razorpayQrId : Option String := none
  ids : PaymentService.DrawnIds

structure SaleItem where
  variantId : Uuid
  quantity : ℤ
  discount : Option Cents := none

structure SaleBody where
  customerId : Option Uuid := none
  warehouseId : Option Uuid := none
  registerId : Option Uuid := none
  items : List SaleItem
  payments : List SalePayment
  note : Option String := none

/-- What Razorpay confirmed of a UPI payment. -/
structure ConfirmedUpi where
  razorpayPaymentId : String
  vpa : Option String

/-- Check that a Razorpay UPI QR really received this amount and that the money isn't
already used by another sale. -/
def verifyRazorpayUpi (tenantId : Uuid) (qrId : String) (amountCents : Cents) :
    Sql ConfirmedUpi := do
  let account ← query (Razorpay.credentialsFor tenantId false)
  let credentials ← orThrow account "Razorpay is not connected" 409
    "PAYMENT_GATEWAY_NOT_CONFIGURED"
  let received ← Razorpay.qrPayments credentials qrId
  let paid ← orThrow (received.find? fun p => p.captured ∧ p.amount = amountCents)
    "The UPI payment for this amount has not been received yet" 409 "UPI_PAYMENT_NOT_RECEIVED"
  let used ← query (PaymentRepository.findFirst fun row => row.tenantId = tenantId ∧
    row.provider = razorpayProvider ∧ row.providerPaymentId = some paid.id)
  ensure used.isNone "This UPI payment was already used for another sale" 409
    "UPI_PAYMENT_ALREADY_USED"
  return { razorpayPaymentId := paid.id, vpa := paid.vpa }

/-- Confirm a payment with Razorpay, when it came through a Razorpay QR. -/
def confirmUpi (tenantId : Uuid) (p : SalePayment) :
    Sql (SalePayment × Option ConfirmedUpi) :=
  match p.method, truthy p.razorpayQrId with
  | .upi, some qrId => do
    let confirmed ← verifyRazorpayUpi tenantId qrId p.amount
    return (p, some confirmed)
  | _, _ => return (p, none)

/-- The cash handed over, for a cash payment. -/
def tenderedCents (p : SalePayment) : Option Cents :=
  if p.method = .cash then p.tendered else none

/-- The payment row of one payment of the sale. -/
def paymentRow (tenantId orderId : Uuid) (order : Order) (p : SalePayment)
    (confirmed : Option ConfirmedUpi) : Payment :=
  { tenantId := tenantId
    orderId := orderId
    amount := p.amount
    currency := order.currency
    status := .completed
    provider := if confirmed.isSome then razorpayProvider else p.method.provider
    providerPaymentId := some ((confirmed.map (·.razorpayPaymentId)).getD
      ("pos_" ++ p.ids.charge))
    metadata := .ofList ([("channel", .str "POS"), ("method", .str p.method.text),
        ("reference", .ofOption p.reference)] ++
      ((tenderedCents p).toList.flatMap fun tendered =>
        [("tendered", .str (fromCents tendered)),
          ("change", .str (fromCents (tendered - p.amount)))]) ++
      (confirmed.toList.flatMap fun upi =>
        [("razorpayQrId", .ofOption p.razorpayQrId), ("vpa", .ofOption upi.vpa)])) }

/-- Write one payment of the sale. -/
def takePayment (tenantId userId orderId : Uuid) (session : Option Uuid) (order : Order)
    (x : SalePayment × Option ConfirmedUpi) : Sql Unit := do
  let p := x.1
  ensure ((tenderedCents p).all fun tendered => p.amount ≤ tendered)
    "Cash given is less than the cash amount" 400 "CASH_SHORT"
  let payment := paymentRow tenantId orderId order p x.2
  perform (Statement.insertPayment p.ids.payment payment)
  perform (Statement.insertPaymentTransaction
    { tenantId := tenantId
      paymentId := p.ids.payment
      type := .charge
      amount := payment.amount
      currency := payment.currency
      status := .completed
      providerTransactionId := some ("txn_" ++ p.ids.transaction)
      metadata := .ofList [("initiatedBy", .str userId), ("channel", .str "POS")] })
  if p.method = .cash then do
    let sessionId ← orRaise session .typeError
    CashRegisterService.recordSale tenantId sessionId payment.amount orderId p.ids.payment userId
  else return ()

/-- What runs inside the transaction of the order: the payments, which must add up to the
bill, and the hand-over. -/
def settle (tenantId userId : Uuid) (session : Option Uuid)
    (payments : List (SalePayment × Option ConfirmedUpi)) (orderId : Uuid) (order : Order) :
    Sql Unit := do
  let paidCents := (payments.map (·.1.amount)).sum
  ensure (paidCents = order.total)
    ("Payments add up to ₹" ++ fromCents paidCents ++ " but the bill is ₹" ++
      fromCents order.total) 400 "PAYMENT_TOTAL_MISMATCH"
  forM payments (takePayment tenantId userId orderId session order)
  -- paid and handed over at the counter
  perform (Statement.updateOrderStatus orderId .delivered)
  record (.orderStatusHistoryInsert (OrderService.historyRow tenantId orderId userId
    (some .pending) .delivered (some "Counter sale")))

/-- The open shift a sale with cash needs. -/
def sessionForCash (tenantId : Uuid) (defaultRegister : Uuid) (body : SaleBody) :
    Sql (Option (Uuid × Uuid)) :=
  let cashCents := ((body.payments.filter (·.method = .cash)).map (·.amount)).sum
  if 0 < cashCents then do
    let registerId := body.registerId.getD defaultRegister
    let found ← query (CashRegisterService.openSessionFor tenantId registerId)
    let session ← orThrow found "Open the cash register before taking cash" 409
      "REGISTER_CLOSED"
    return some (session.1, registerId)
  else return none

/-- `metadata.pos` of a counter sale, as text. -/
def posMetadata (session : Option (Uuid × Uuid)) : String :=
  let field (id : Option Uuid) : String := (id.map fun x => "\"" ++ x ++ "\"").getD "null"
  "\x7b\"registerId\":" ++ field (session.map (·.2)) ++ ",\"sessionId\":" ++
    field (session.map (·.1)) ++ "\x7d"

/-- The order of a counter sale. -/
def orderBody (customerId warehouseId : Uuid) (session : Option (Uuid × Uuid))
    (body : SaleBody) : OrderService.CreateBody :=
  { customerId := customerId
    items := body.items.map fun i =>
      { productVariantId := i.variantId, warehouseId, quantity := i.quantity
        discount := i.discount }
    channel := some .pos
    metadata := .ofList (("pos", .text (posMetadata session)) ::
      (truthy body.note).toList.map fun note => ("note", .str note)) }

/-- Sell at the counter. `walkIn` and `defaultRegister` are what `walkInCustomer` and
`ensureDefault` returned. -/
def sale (env : Environment) (tenantId userId orderId walkIn defaultRegister : Uuid)
    (body : SaleBody) : Sql (Option Order) := do
  let customerId := body.customerId.getD walkIn
  let fallback ← query (defaultWarehouse tenantId)
  let warehouseId ← orThrow (body.warehouseId <|> fallback) "Add a warehouse before selling" 409
    "NO_WAREHOUSE"
  let session ← sessionForCash tenantId defaultRegister body
  -- Razorpay UPI: confirm with Razorpay before anything is written
  let payments ← body.payments.mapM (confirmUpi tenantId)
  OrderService.create env tenantId userId orderId
    (orderBody customerId warehouseId session body)
    (settle tenantId userId (session.map (·.1)) payments)

end PosService

end PulseOps
