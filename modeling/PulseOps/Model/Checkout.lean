import PulseOps.Model.Cart
import PulseOps.Model.Idempotency
import PulseOps.Model.Payments

/-!
# The checkout of a store

`POST /checkout` of `storefront/storefront.routes.js` behind `idempotent((req) => req.store?.id)`,
and `checkout` of `storefront/storefront.shop.js` over the tables that all shoppers of a store
share: it reads the cart with the stock, lets `orderService.create` prepare and place the order,
empties the cart, starts a payment, and reads the order again for its answer.

Each of these is one step of the handler. The ids that the database draws, the server's
environment and what the payment provider answers come with the request. Nobody of the staff is
involved: where the source writes `null` for the user, the rows have the empty text, which no
answer shows. Times of rows are left out of the answers, and amounts are in cents there.
-/

set_option autoImplicit false

open ReadCommitted Program

namespace PulseOps.Checkout

open Idempotency

/-! ### Carts -/

structure CartItem where
  tenantId : Uuid
  quantity : ℕ
  deriving DecidableEq, Repr

/-- What all requests share: the sales tables, the carts, and the variants that cannot be sold
because they are deleted, or because their product is deleted or not active. -/
structure Store where
  db : Db := {}
  cartItems : Table Cart.ItemKey CartItem := ∅
  delisted : List Uuid := []

/-- A variant as `cartInclude` reads it, with `isSellable`. -/
def catalogVariant (s : Store) (id : Uuid) : Cart.Variant where
  sellable := (s.db.productVariants.lookup id).any fun v => v.status = .active ∧ id ∉ s.delisted
  inventory := (s.db.inventory.entries.filter (·.1.productVariantId = id)).map fun i =>
    { warehouseId := i.1.warehouseId
      quantity := i.2.toNat
      isActive := (s.db.warehouses.lookup i.1.warehouseId).any (·.isActive)
      isDefault := (s.db.warehouses.lookup i.1.warehouseId).any (·.isDefault) }

/-- `cartItem.findMany` of a customer. -/
def findItems (storeId customerId : Uuid) (s : Store) : List (Cart.ItemKey × CartItem) :=
  (s.cartItems.entries.filter fun x => x.1.1 = customerId ∧ x.2.tenantId = storeId).map
    fun x => (x.1, x.2)

/-- The line of an order that a row of the cart becomes. -/
def orderLine (s : Store) (x : Cart.ItemKey × CartItem) : Option OrderService.ItemInput :=
  let v := catalogVariant s x.1.2
  (if v.sellable then Cart.pickWarehouse v x.2.quantity else none).map fun warehouseId =>
    { productVariantId := x.1.2, warehouseId, quantity := x.2.quantity }

/-- `checkout` up to the order: the lines of the cart. -/
def readCart (storeId customerId : Uuid) (s : Store) :
    Except AppError (List OrderService.ItemInput) :=
  let items := findItems storeId customerId s
  if items = [] then .error Cart.cartEmpty
  else
    match items.mapM (orderLine s) with
    | none => .error Cart.cartNotReady
    | some lines => .ok lines

/-- `cartItem.deleteMany` of a customer. -/
def deleteItems (storeId customerId : Uuid) (s : Store) : Store :=
  { s with
    cartItems := ((findItems storeId customerId s).map (·.1)).foldl (fun t key => t.erase key)
      s.cartItems }

/-! ### Answers -/

/-- A line as `toCustomerOrder` shows it. -/
structure CustomerItem where
  productName : String
  variantName : String
  sku : String
  unitPrice : Cents
  quantity : ℤ
  lineTotal : Cents
  hsnCode : Option String
  gstRatePercent : ℤ
  deriving DecidableEq, Repr

/-- A payment as `toCustomerOrder` shows it. -/
structure OrderPayment where
  id : Uuid
  status : PaymentStatus
  amount : Cents
  currency : String
  deriving DecidableEq, Repr

/-- What `toCustomerOrder` shows of an order. -/
structure CustomerOrder where
  id : Uuid
  number : String
  status : OrderStatus
  currency : String
  subtotal : Cents
  discountTotal : Cents
  taxTotal : Cents
  shippingTotal : Cents
  total : Cents
  invoiceNumber : String
  supplyType : SupplyType
  cgstTotal : Cents
  sgstTotal : Cents
  igstTotal : Cents
  items : List CustomerItem
  shippingAddress : Option AddressSnapshot
  billingAddress : Option AddressSnapshot
  timeline : List OrderStatus
  payments : List OrderPayment
  deriving DecidableEq, Repr

/-- What `toPayment` shows of a payment. -/
structure CustomerPayment where
  id : Uuid
  status : PaymentStatus
  amount : Cents
  currency : String
  provider : String
  providerPaymentId : Option String
  checkout : Option RazorpayPaymentsService.Checkout
  deriving DecidableEq

/-- The body of an answer. -/
inductive Body where
  | error (e : AppError)
  | placed (order : CustomerOrder) (payment : Option CustomerPayment)
  deriving DecidableEq

def orderNotFound : AppError := ⟨"Order not found", 404, "ORDER_NOT_FOUND"⟩

/-- The answer to an error without a status. -/
def internalError : AppError := ⟨"An unexpected error occurred", 500, "INTERNAL_ERROR"⟩

def errorResponse (e : AppError) : Response Body := ⟨e.statusCode, .error e⟩

/-- The error handler. -/
def failureResponse : Failure → Response Body
  | .app e => errorResponse e
  | _ => errorResponse internalError

instance : Inhabited (Response Body) := ⟨errorResponse internalError⟩

/-- `findOwnOrder`. -/
def findOwnOrder (storeId customerId orderId : Uuid) (s : Db) : Option Order :=
  (s.orders.lookup orderId).filter fun row => row.tenantId = storeId ∧ row.customerId = customerId

/-- `toCustomerOrder`, with the rows that `orderInclude` reads. -/
def toCustomerOrder (id : Uuid) (o : Order) (s : Db) : CustomerOrder where
  id := id
  number := String.ofList ((id.toList.take 8).map Char.toUpper)
  status := o.status
  currency := o.currency
  subtotal := o.subtotal
  discountTotal := o.discountTotal
  taxTotal := o.taxTotal
  shippingTotal := o.shippingTotal
  total := o.total
  invoiceNumber := o.invoiceNumber
  supplyType := o.supplyType
  cgstTotal := o.cgstTotal
  sgstTotal := o.sgstTotal
  igstTotal := o.igstTotal
  items := (s.orderItems.filter (·.orderId = id)).map fun i =>
    { productName := i.productNameSnapshot
      variantName := i.variantNameSnapshot
      sku := i.skuSnapshot
      unitPrice := i.unitPrice
      quantity := i.quantity
      lineTotal := i.lineTotal
      hsnCode := i.hsnCode
      gstRatePercent := i.gstRatePercent }
  shippingAddress := o.shippingAddress
  billingAddress := o.billingAddress
  timeline := (s.orderStatusHistory.filter (·.orderId = id)).map (·.toStatus)
  payments := (s.payments.entries.filter fun x => x.2.orderId = id ∧ x.2.deleted = false).map
    fun x => ⟨x.1, x.2.status, x.2.amount, x.2.currency⟩

/-- `toPayment`. -/
def toPayment (id : Uuid) (p : Payment) (checkout : Option RazorpayPaymentsService.Checkout) :
    CustomerPayment :=
  ⟨id, p.status, p.amount, p.currency, p.provider, p.providerPaymentId, checkout⟩

/-! ### Requests -/

/-- Who checks out, with the addresses the body names, the ids that are drawn, and the
surroundings. -/
structure Shopper where
  storeId : Uuid
  customerId : Uuid
  currency : String := "INR"
  shippingAddressId : Option Uuid := none
  billingAddressId : Option Uuid := none
  orderId : Uuid
  ids : PaymentService.DrawnIds
  env : Environment := {}
  answer : Call → Reply

/-- A request to the route. -/
def checkoutRequest (baseUrl : String) (idempotencyKey : Option String) (body : String)
    (shopper : Shopper) : Request Shopper where
  method := "POST"
  baseUrl := baseUrl
  path := "/checkout"
  idempotencyKey := idempotencyKey
  scopeId := some shopper.storeId
  body := body
  context := shopper

/-- What `checkout` passes to `orderService.create`. -/
def createBody (shopper : Shopper) (lines : List OrderService.ItemInput) :
    OrderService.CreateBody where
  customerId := shopper.customerId
  items := lines
  currency := some shopper.currency
  metadata := .ofList [("source", .str "storefront")]
  shippingAddressId := shopper.shippingAddressId
  billingAddressId := shopper.billingAddressId
  channel := some .storefront

/-- The payment of the order that a started payment goes by: the one that was created, or the
one that was resumed. -/
def startedPayment (storeId orderId paymentId : Uuid) (s : Db) : Option (Uuid × Payment) :=
  (((s.payments.lookup paymentId).filter (·.orderId = orderId)).map fun row =>
    (paymentId, row)).or
    (PaymentRepository.findFirst (fun row => row.orderId = orderId ∧ row.tenantId = storeId ∧
      row.status.isOpen ∧ row.deleted = false) s)

/-- `startPayment`. -/
def startPayment (shopper : Shopper) : Sql CustomerPayment := do
  let credentials ← query (Razorpay.credentialsFor shopper.storeId false)
  match credentials with
  | none => do
    let _ ← PaymentService.create shopper.env shopper.storeId "" shopper.ids
      { orderId := shopper.orderId }
    let found ← query (startedPayment shopper.storeId shopper.orderId shopper.ids.payment)
    let payment ← orRaise found .typeError
    return toPayment payment.1 payment.2 none
  | some _ => do
    let checkout ← RazorpayPaymentsService.start shopper.storeId shopper.orderId
      shopper.ids.payment none
    let found ← query (startedPayment shopper.storeId shopper.orderId shopper.ids.payment)
    let payment ← orRaise found .typeError
    return toPayment payment.1 payment.2 (some checkout)

/-- How far a checkout is. -/
inductive Stage where
  | reading
  | preparing (lines : List OrderService.ItemInput)
  | placing (draft : OrderService.OrderDraft)
  | clearing
  | paying
  | showing (payment : Option CustomerPayment)
  | answering (r : Response Body)

/-- The next statement of `checkout`. -/
def statement (shopper : Shopper) : Stage → Store → Store × Stage
  | .reading, s =>
    match readCart shopper.storeId shopper.customerId s with
    | .error e => (s, .answering (errorResponse e))
    | .ok lines => (s, .preparing lines)
  | .preparing lines, s =>
    let prepare := OrderService.prepare shopper.env shopper.storeId (createBody shopper lines)
    match prepare.run shopper.answer s.db with
    | .error e => (s, .answering (failureResponse e))
    | .ok (draft, _) => (s, .placing draft)
  | .placing draft, s =>
    let place := OrderService.place shopper.env shopper.storeId "" shopper.orderId draft
      fun _ _ => return ()
    match place.run shopper.answer s.db with
    | .error e => (s, .answering (failureResponse e))
    | .ok (_, es) => ({ s with db := sales.replay es s.db }, .clearing)
  | .clearing, s => (deleteItems shopper.storeId shopper.customerId s, .paying)
  | .paying, s =>
    -- a payment that cannot be started is only logged
    match (startPayment shopper).run shopper.answer s.db with
    | .error _ => (s, .showing none)
    | .ok (payment, es) => ({ s with db := sales.replay es s.db }, .showing (some payment))
  | .showing payment, s =>
    match findOwnOrder shopper.storeId shopper.customerId shopper.orderId s.db with
    | none => (s, .answering (errorResponse orderNotFound))
    | some own =>
      (s, .answering ⟨201, .placed (toCustomerOrder shopper.orderId own s.db) payment⟩)
  | .answering r, s => (s, .answering r)

/-- The answer of a checkout that has come to it. -/
def Stage.answer : Stage → Option (Response Body)
  | .answering r => some r
  | _ => none

/-- `checkout`, as the handler of the route. -/
def checkout : Statements Shopper Body Store Stage where
  first := .reading
  statement := statement
  answer := Stage.answer

end PulseOps.Checkout
