import Mathlib.Algebra.Order.Group.Abs
import Mathlib.Algebra.Order.Group.Int
import Mathlib.Data.List.Sort
import PulseOps.Model.Gst
import PulseOps.Model.Inventory

/-!
# Orders

`orders/orders.service.js`: pricing and placing an order, its status transitions, and its
cancellation. `create` reserves stock row by row and writes one reservation movement a
line; `cancel` walks the lines of the order and the reservation movements of each.

The identifiers the database draws for new rows are arguments. Retries of a transaction
are further requests.
-/

set_option autoImplicit false

open ReadCommitted Program

namespace PulseOps

/-- `plans.service.js`: creating one more order must stay within the tenant's plan. -/
def assertWithinPlan (env : Environment) (tenantId : Uuid) : Sql Unit := do
  let plan ← query fun s =>
    (s.tenants.lookup tenantId).bind fun t => s.plans.lookup t.plan
  match plan.bind fun p => p.ordersPerMonth.map fun limit => (p.name, limit) with
  | none => return ()
  | some (name, limit) =>
    let used ← query fun s => (s.orders.entries.filter fun o =>
      o.2.tenantId = tenantId ∧ env.startOfMonthUtc ≤ o.2.createdAt).length
    ensure (used < limit)
      ("Your " ++ name ++ " plan allows " ++ toString limit ++ " orders per month") 403
      "PLAN_LIMIT_REACHED"

def AddressType.text : AddressType → String
  | .shipping => "SHIPPING"
  | .billing => "BILLING"

/-- `resolveOrderAddress` and `toAddressSnapshot` of `customers.service.js`: the given
address, which must belong to the customer and match the type, else the customer's default
of that type, else none. -/
def resolveOrderAddress (customerId tenantId : Uuid) (type : AddressType)
    (addressId : Option Uuid) : Sql (Option AddressSnapshot) :=
  match truthy addressId with
  | none => query fun s =>
    (s.customerAddresses.entries.find? fun a => a.2.tenantId = tenantId ∧
      a.2.customerId = customerId ∧ a.2.type = type ∧ a.2.isDefault).map
        fun a => ⟨a.1, a.2⟩
  | some id => do
    let found ← query fun s => (s.customerAddresses.lookup id).filter fun a =>
      a.customerId = customerId ∧ a.tenantId = tenantId
    let address ← orThrow found "Address not found" 404 "ADDRESS_NOT_FOUND"
    ensure (address.type = type)
      ("Address " ++ id ++ " is a " ++ address.type.text ++ " address, expected " ++
        type.text) 400 "ADDRESS_TYPE_MISMATCH"
    return some ⟨id, address⟩

namespace OrderService

/-! ### Status transitions -/

/-- `ORDER_STATUS_TRANSITIONS`. -/
def orderStatusTransitions : OrderStatus → List OrderStatus
  | .draft => [.pending, .cancelled]
  | .pending => [.confirmed, .cancelled]
  | .confirmed => [.processing, .cancelled]
  | .processing => [.shipped, .cancelled]
  | .shipped => [.delivered]
  | .delivered => [.refunded, .partiallyRefunded]
  | .cancelled => []
  | .refunded => []
  | .partiallyRefunded => [.refunded]

/-- `CANCELLABLE_STATUSES`. -/
def cancellableStatuses : List OrderStatus := [.draft, .pending, .confirmed, .processing]

/-- The status column is never null, so the case without a status does not arise. -/
def isValidTransition (fromStatus toStatus : OrderStatus) : Bool :=
  fromStatus ≠ toStatus ∧ toStatus ∈ orderStatusTransitions fromStatus

def statusText : OrderStatus → String
  | .draft => "DRAFT"
  | .pending => "PENDING"
  | .confirmed => "CONFIRMED"
  | .processing => "PROCESSING"
  | .shipped => "SHIPPED"
  | .delivered => "DELIVERED"
  | .cancelled => "CANCELLED"
  | .refunded => "REFUNDED"
  | .partiallyRefunded => "PARTIALLY_REFUNDED"

/-! ### Pricing -/

/-- One line of the request, with amounts in cents. -/
structure ItemInput where
  productVariantId : Uuid
  variantId : Option Uuid := none
  warehouseId : Uuid
  quantity : ℤ
  discount : Option Cents := none
  tax : Option Cents := none
  deriving DecidableEq, Repr

structure CreateBody where
  customerId : Uuid
  items : List ItemInput
  shippingTotal : Option Cents := none
  currency : Option String := none
  metadata : Metadata := ∅
  shippingAddressId : Option Uuid := none
  billingAddressId : Option Uuid := none
  channel : Option Channel := none

/-- A line as it is sold. -/
structure ItemCalculation where
  productVariantId : Uuid
  warehouseId : Uuid
  quantity : ℤ
  unitPrice : Cents
  discount : Cents
  tax : Cents
  lineTotal : Cents
  rate : ℤ
  taxable : Cents
  split : Gst.TaxSplit
  variant : ProductVariant
  deriving DecidableEq, Repr

def ItemCalculation.stockKey (it : ItemCalculation) (tenantId : Uuid) : StockKey :=
  ⟨tenantId, it.productVariantId, it.warehouseId⟩

/-- What `create` has worked out before its transaction starts. -/
structure OrderDraft where
  customerId : Uuid
  currency : String
  metadata : Metadata
  shippingAddress : Option AddressSnapshot
  billingAddress : Option AddressSnapshot
  sellerState : Option String
  supplyState : Option String
  intraState : Bool
  shippingCents : Cents
  items : List ItemCalculation
  sellerSnapshot : SellerSnapshot
  buyerSnapshot : BuyerSnapshot
  invoicePrefix : String
  channel : Channel

namespace OrderDraft

def subtotalCents (d : OrderDraft) : Cents :=
  (d.items.map fun it => it.taxable + it.discount).sum

def discountTotalCents (d : OrderDraft) : Cents := (d.items.map (·.discount)).sum

def taxTotalCents (d : OrderDraft) : Cents := (d.items.map (·.tax)).sum

def totalCents (d : OrderDraft) : Cents :=
  d.subtotalCents - d.discountTotalCents + d.taxTotalCents + d.shippingCents

end OrderDraft

/-- `it.productVariantId || it.variantId`. -/
def ItemInput.resolvedVariantId (it : ItemInput) : Uuid :=
  if it.productVariantId ≠ "" then it.productVariantId else it.variantId.getD ""

def variantStatusText : VariantStatus → String
  | .active => "ACTIVE"
  | .inactive => "INACTIVE"
  | .draft => "DRAFT"

/-- Price and tax one line. -/
def calculateItem (chargesGst inclusive intraState : Bool) (gstRatePercent : ℤ)
    (variant : ProductVariant) (item : ItemInput) : Sql ItemCalculation := do
  ensure (0 < item.quantity) "Quantity must be positive" 400 "INVALID_QUANTITY"
  let discountCents := item.discount.getD 0
  ensure (0 ≤ discountCents) "Discount/tax cannot be negative" 400 "INVALID_MONEY"
  ensure (0 ≤ item.tax.getD 0) "Discount/tax cannot be negative" 400 "INVALID_MONEY"
  let grossCents := variant.price * item.quantity - discountCents
  ensure (0 ≤ grossCents) "Line total cannot be negative" 400 "INVALID_LINE_TOTAL"
  let rate := if chargesGst then Gst.lineRate variant.product gstRatePercent else 0
  let tax := Gst.lineTax grossCents rate inclusive item.tax
  return {
    productVariantId := item.resolvedVariantId
    warehouseId := item.warehouseId
    quantity := item.quantity
    unitPrice := variant.price
    discount := discountCents
    tax := tax.taxCents
    lineTotal := tax.taxableCents + tax.taxCents
    rate := rate
    taxable := tax.taxableCents
    split := Gst.splitTax tax.taxCents intraState
    variant := variant }

/-- The shop as printed on the invoice. -/
def sellerOf (tenant : Option Tenant) (profile : TaxProfile) : SellerSnapshot :=
  { name := truthy profile.legalName <|> truthy (tenant.map (·.name))
    tradeName := truthy profile.tradeName
    gstin := truthy profile.gstin
    pan := truthy profile.pan
    registrationType := profile.registrationType
    stateCode := truthy profile.stateCode
    stateName := (truthy profile.stateCode).bind Gst.stateName
    address := truthy profile.address
    phone := truthy profile.phone
    email := truthy profile.email
    bank := (truthy profile.bankName).map fun name =>
      (name, truthy profile.accountNumber, truthy profile.ifsc)
    upiId := truthy profile.upiId
    signatory := truthy profile.signatory
    terms := truthy profile.invoiceTerms }

/-- The buyer as printed on the invoice: a business by company name and GSTIN, a consumer
by name. -/
def buyerOf (customer : Customer) : BuyerSnapshot :=
  let person := " ".intercalate ([customer.firstName, customer.lastName].filter (· ≠ ""))
  let business := customer.customerType = .business
  { type := if business then .business else .consumer
    name := if business then (truthy customer.companyName).getD person else person
    contactName := if business then some person else none
    gstin := if business then customer.gstin else none
    pan := if business then customer.pan else none
    stateCode := customer.stateCode <|>
      (truthy customer.gstin).map fun g => String.ofList (g.toList.take 2)
    email := customer.email
    phone := customer.phone }

/-- The reads, checks and computations of `create` before its transaction. -/
def prepare (env : Environment) (tenantId : Uuid) (body : CreateBody) : Sql OrderDraft := do
  let defaults ← query (Gst.resolveOrderDefaults env tenantId)
  let taxProfile := defaults.taxProfile
  -- composition dealers and unregistered shops charge no GST
  let chargesGst := taxProfile.registrationType ≠ some .composition ∧
    taxProfile.registrationType ≠ some .unregistered
  let gstRatePercent := if chargesGst then defaults.gstRatePercent else 0
  let inclusive := taxProfile.pricesIncludeTax.getD false
  let found ← query fun s => (s.customers.lookup body.customerId).filter fun c =>
    c.tenantId = tenantId ∧ c.deleted = false
  let customer ← orThrow found "Customer not found" 404 "CUSTOMER_NOT_FOUND"
  assertWithinPlan env tenantId
  let shippingAddress ← resolveOrderAddress body.customerId tenantId .shipping
    body.shippingAddressId
  let billingAddress ← resolveOrderAddress body.customerId tenantId .billing
    body.billingAddressId
  let supplyState := Gst.placeOfSupply shippingAddress billingAddress customer
  let intraState := Gst.isIntraState taxProfile.stateCode supplyState
  let variants ← query fun s id => findVariant id tenantId s
  let sold ← body.items.mapM fun item => do
    let id := item.resolvedVariantId
    let variant ← orThrow (variants id) ("Variant " ++ id ++ " not found") 404
      "VARIANT_NOT_FOUND"
    ensure (variant.status = .active)
      ("Variant " ++ id ++ " is not sellable (status " ++
        variantStatusText variant.status ++ ")") 409 "VARIANT_NOT_SELLABLE"
    return (variant, item)
  let warehouses ← query fun s id => findWarehouse id tenantId s
  forM body.items fun item => ensure (warehouses item.warehouseId).isSome
    ("Warehouse " ++ item.warehouseId ++ " not found") 404 "WAREHOUSE_NOT_FOUND"
  let items ← sold.mapM fun x =>
    calculateItem chargesGst inclusive intraState gstRatePercent x.1 x.2
  let tenant ← query fun s => s.tenants.lookup tenantId
  return {
    customerId := body.customerId
    currency := (truthy body.currency).getD defaults.currency
    metadata := (body.metadata.insert "gstRatePercent" (.num gstRatePercent)).insert
      "pricesIncludeTax" (.bool inclusive)
    shippingAddress := shippingAddress
    billingAddress := billingAddress
    sellerState := taxProfile.stateCode
    supplyState := supplyState
    intraState := intraState
    shippingCents := body.shippingTotal.getD 0
    items := items
    sellerSnapshot := sellerOf tenant taxProfile
    buyerSnapshot := buyerOf customer
    invoicePrefix := Gst.invoicePrefix taxProfile (tenant.map (·.slug))
    channel := body.channel.getD .staff }

/-! ### Placing the order -/

/-- Validate availability and deduct one line. -/
def reserveItem (tenantId : Uuid) (it : ItemCalculation) : Sql Unit := do
  let k := it.stockKey tenantId
  let rows ← query fun s => s.inventory.lookup k
  let currentQty := rows.getD 0
  let insufficient := "Insufficient stock for variant " ++ it.productVariantId ++
    " in warehouse " ++ it.warehouseId
  ensure (it.quantity ≤ currentQty)
    (insufficient ++ ": available " ++ toString currentQty ++ ", requested " ++
      toString it.quantity) 409 "INSUFFICIENT_STOCK"
  ensure rows.isSome insufficient 409 "INSUFFICIENT_STOCK"
  updateStock k (currentQty - it.quantity)

/-- The invoice counter of the financial year, one up. -/
def nextInvoiceNumber (tenantId : Uuid) (financialYear : String) : Sql ℕ :=
  .write (fun s => .ok (.invoiceSequenceUpsert tenantId financialYear
      ((s.invoiceSequences.lookup (tenantId, financialYear)).getD 0 + 1)))
    fun e => match e with
      | .invoiceSequenceUpsert _ _ n => .ret n
      | _ => .raise .typeError

/-- The order row. -/
def orderRow (env : Environment) (tenantId : Uuid) (d : OrderDraft) (invoiceSeq : ℕ) :
    Order :=
  { tenantId := tenantId
    customerId := d.customerId
    status := .pending
    subtotal := d.subtotalCents
    discountTotal := d.discountTotalCents
    taxTotal := d.taxTotalCents
    shippingTotal := d.shippingCents
    total := d.totalCents
    currency := d.currency
    metadata := d.metadata
    shippingAddress := d.shippingAddress
    billingAddress := d.billingAddress
    invoiceNumber := Gst.formatInvoiceNumber d.invoicePrefix env.financialYear invoiceSeq
    placeOfSupply := d.supplyState <|> d.sellerState
    supplyType := if d.intraState then .intra else .inter
    cgstTotal := (d.items.map (·.split.cgst)).sum
    sgstTotal := (d.items.map (·.split.sgst)).sum
    igstTotal := (d.items.map (·.split.igst)).sum
    buyerSnapshot := d.buyerSnapshot
    sellerSnapshot := d.sellerSnapshot
    channel := d.channel
    createdAt := env.now }

/-- An order line, with the names it was sold under. -/
def orderItemRow (tenantId orderId : Uuid) (it : ItemCalculation) : OrderItem :=
  let parts := it.variant.attributes.map fun a => a.name ++ "=" ++ a.value
  { tenantId := tenantId
    orderId := orderId
    productVariantId := it.productVariantId
    productNameSnapshot := it.variant.product.name
    variantNameSnapshot := if parts.isEmpty then it.variant.sku else ", ".intercalate parts
    attributeSnapshot := it.variant.attributes.map fun a => (a.code, a.value)
    skuSnapshot := it.variant.sku
    unitPrice := it.unitPrice
    quantity := it.quantity
    discount := it.discount
    tax := it.tax
    lineTotal := it.lineTotal
    hsnCode := it.variant.product.hsnCode
    gstRatePercent := it.rate
    taxableValue := it.taxable
    cgst := it.split.cgst
    sgst := it.split.sgst
    igst := it.split.igst }

/-- The reservation movement of a line, from the quantity found after the whole order was
deducted. -/
def reservationRow (tenantId userId orderId : Uuid) (it : ItemCalculation) (afterQty : ℤ) :
    InventoryMovement :=
  { tenantId := tenantId
    productVariantId := it.productVariantId
    warehouseId := it.warehouseId
    type := .orderReservation
    quantityBefore := afterQty + it.quantity
    quantityChanged := -it.quantity
    quantityAfter := afterQty
    reason := some "ORDER_CREATED"
    referenceType := some "ORDER"
    referenceId := some orderId
    createdBy := some userId }

def recordReservation (tenantId userId orderId : Uuid) (it : ItemCalculation) : Sql Unit := do
  let rowsAfter ← query fun s => s.inventory.lookup (it.stockKey tenantId)
  let afterQty ← orRaise rowsAfter .typeError
  recordMovement (reservationRow tenantId userId orderId it afterQty)

def historyRow (tenantId orderId userId : Uuid) (fromStatus : Option OrderStatus)
    (toStatus : OrderStatus) (reason : Option String) : OrderStatusHistory :=
  { tenantId, orderId, fromStatus, toStatus, reason, createdBy := some userId }

/-- The transaction of `create`. Rows are locked in one fixed order, then deducted in the
order of the lines. -/
def place (env : Environment) (tenantId userId orderId : Uuid) (d : OrderDraft)
    (inTx : Uuid → Order → Sql Unit) : Sql (Option Order) := do
  let lockKeys := d.items.insertionSort fun a b =>
    a.productVariantId ++ "-" ++ a.warehouseId ≤ b.productVariantId ++ "-" ++ b.warehouseId
  forM lockKeys fun it => lockRow (.inventory (it.stockKey tenantId))
  forM d.items (reserveItem tenantId)
  let invoiceSeq ← nextInvoiceNumber tenantId env.financialYear
  let order := orderRow env tenantId d invoiceSeq
  perform (Statement.insertOrder orderId order)
  forM d.items fun it => record (.orderItemInsert (orderItemRow tenantId orderId it))
  forM d.items (recordReservation tenantId userId orderId)
  record (.orderStatusHistoryInsert
    (historyRow tenantId orderId userId none .pending (some "Order created")))
  inTx orderId order
  query fun s => s.orders.lookup orderId

/-- Price, reserve and store an order. `inTx` runs inside the same transaction once the
order and its lines exist. -/
def create (env : Environment) (tenantId userId orderId : Uuid) (body : CreateBody)
    (inTx : Uuid → Order → Sql Unit := fun _ _ => return ()) : Sql (Option Order) := do
  let draft ← prepare env tenantId body
  place env tenantId userId orderId draft inTx

/-! ### Status changes -/

/-- An order with its lines. -/
structure OrderWithItems where
  row : Order
  items : List OrderItem

/-- `findById`, with `include: { items }`. -/
def findById (id tenantId : Uuid) (s : Db) : Option OrderWithItems :=
  ((s.orders.lookup id).filter (·.tenantId = tenantId)).map fun row =>
    ⟨row, s.orderItems.filter (·.orderId = id)⟩

def getById (id tenantId : Uuid) : Sql OrderWithItems := do
  let order ← query (findById id tenantId)
  orThrow order "Order not found" 404 "ORDER_NOT_FOUND"

/-- Move an order along `ORDER_STATUS_TRANSITIONS`. -/
def updateStatus (id tenantId userId : Uuid) (status : OrderStatus)
    (reason : Option String) : Sql (Option OrderWithItems) := do
  let order ← getById id tenantId
  ensure (isValidTransition order.row.status status)
    ("Invalid status transition from " ++ statusText order.row.status ++ " to " ++
      statusText status) 409 "INVALID_STATUS_TRANSITION"
  perform (Statement.updateOrderStatus id status)
  record (.orderStatusHistoryInsert
    (historyRow tenantId id userId (some order.row.status) status (truthy reason)))
  query (findById id tenantId)

/-! ### Cancellation -/

/-- The reservation movements of one variant of an order. -/
def reservations (tenantId orderId productVariantId : Uuid) (s : Db) :
    List InventoryMovement :=
  s.inventoryMovements.filter fun m => m.tenantId = tenantId ∧
    m.productVariantId = productVariantId ∧ m.referenceType = some "ORDER" ∧
    m.referenceId = some orderId ∧ m.type = .orderReservation

/-- The release movement of a restored quantity. -/
def releaseRow (k : StockKey) (userId orderId : Uuid) (reason : Option String)
    (beforeQty restoreQty : ℤ) : InventoryMovement :=
  { tenantId := k.tenantId
    productVariantId := k.productVariantId
    warehouseId := k.warehouseId
    type := .orderRelease
    quantityBefore := beforeQty
    quantityChanged := restoreQty
    quantityAfter := beforeQty + restoreQty
    reason := some ((truthy reason).getD "ORDER_CANCELLED")
    referenceType := some "ORDER"
    referenceId := some orderId
    createdBy := some userId }

/-- Restore the quantity of one reservation movement. -/
def releaseMovement (tenantId userId orderId : Uuid) (reason : Option String)
    (item : OrderItem) (mov : InventoryMovement) : Sql Unit := do
  let k : StockKey := ⟨tenantId, item.productVariantId, mov.warehouseId⟩
  lockRow (.inventory k)
  let rows ← query fun s => s.inventory.lookup k
  let beforeQty := rows.getD 0
  let restoreQty := |mov.quantityChanged|
  let afterQty := beforeQty + restoreQty
  (if rows.isSome then updateStock k afterQty
    else do
      perform (Statement.insertInventory k afterQty)
      perform (Statement.insertWarehouseInventory k afterQty))
  recordMovement (releaseRow k userId orderId reason beforeQty restoreQty)

/-- The stock rows of a variant, in the order the database happens to return them. -/
def inventoriesOf (tenantId productVariantId : Uuid) (s : Db) : List (StockKey × ℤ) :=
  (s.inventory.entries.map fun r => (r.1, r.2)).filter fun r =>
    r.1.tenantId = tenantId ∧ r.1.productVariantId = productVariantId

/-- Restore a line that has no reservation movement: into any stock row of the variant, and
only into `inventory`. -/
def releaseFallback (tenantId userId orderId : Uuid) (reason : Option String)
    (item : OrderItem) : Sql Unit := do
  let inventories ← query (inventoriesOf tenantId item.productVariantId)
  match inventories with
  | [] => return ()
  | (k, beforeQty) :: _ =>
    perform (Statement.updateInventory k (beforeQty + item.quantity))
    recordMovement (releaseRow k userId orderId reason beforeQty item.quantity)

/-- Restore the stock of one line. -/
def releaseItem (tenantId userId orderId : Uuid) (reason : Option String)
    (item : OrderItem) : Sql Unit := do
  let movements ← query (reservations tenantId orderId item.productVariantId)
  if movements ≠ [] then forM movements (releaseMovement tenantId userId orderId reason item)
  else releaseFallback tenantId userId orderId reason item

/-- Cancel an order and restore its stock. -/
def cancel (id tenantId userId : Uuid) (reason : Option String) :
    Sql (Option OrderWithItems) := do
  let order ← getById id tenantId
  ensure (order.row.status ∈ cancellableStatuses)
    ("Cannot cancel order in status " ++ statusText order.row.status) 409
    "CANCELLATION_NOT_ALLOWED"
  ensure (order.row.status ≠ .cancelled) "Order already cancelled" 409 "ALREADY_CANCELLED"
  forM order.items (releaseItem tenantId userId id reason)
  perform (Statement.updateOrderStatus id .cancelled)
  record (.orderStatusHistoryInsert
    (historyRow tenantId id userId (some order.row.status) .cancelled
      (some ((truthy reason).getD "Order cancelled"))))
  query (findById id tenantId)

end OrderService

end PulseOps
