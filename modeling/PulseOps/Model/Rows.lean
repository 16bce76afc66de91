import Mathlib.Algebra.Order.Ring.Int
import Mathlib.Data.List.AList

/-!
# The rows of the sales core

The tables the order, stock, payment and counter-sale services read and write, one
structure a table. Identifiers are the UUID texts the database stores. Money is in
cents: every amount column is `Decimal(12, 2)`, and the services compute in integer
cents. GST rates are in hundredths of a percent, for the same reason.

Time stamps, display texts of related rows and the audit log are left out: no service
modelled here reads them back.
-/

set_option autoImplicit false

namespace PulseOps

abbrev Uuid := String

/-- An amount of money in cents. -/
abbrev Cents := ℤ

/-- A table with the key column `κ`. -/
abbrev Table (κ ρ : Type) := AList fun _ : κ => ρ

/-- The first page of a list. -/
instance neZeroPage : NeZero 1 := inferInstance

/-- The size of a page that is not given. -/
instance neZeroPageSize : NeZero 20 := inferInstance

/-! ### Errors -/

/-- `AppError` of `common/errors/app-error.js`. -/
structure AppError where
  message : String
  statusCode : ℕ
  code : String
  deriving DecidableEq, Repr

/-- What the database answers instead of a result. -/
inductive DatabaseError where
  /-- Prisma `P2002` -/
  | uniqueViolation
  | checkViolation
  | foreignKeyViolation
  /-- Prisma `P2025`: an update whose row is gone -/
  | recordNotFound
  deriving DecidableEq, Repr

inductive Failure where
  | app (e : AppError)
  | database (e : DatabaseError)
  | integration (message : String)
  /-- reading a property of a row that is not there -/
  | typeError
  deriving DecidableEq, Repr

/-! ### JSON columns -/

/-- A value of a JSON column. Arrays and objects are kept as text: nothing here looks
inside them. -/
inductive JsonValue where
  | null
  | bool (b : Bool)
  | num (n : ℤ)
  | str (s : String)
  | text (raw : String)
  deriving DecidableEq, Repr

/-- A string, or `null`. -/
def JsonValue.ofOption (x : Option String) : JsonValue := (x.map .str).getD .null

abbrev Metadata := Table String JsonValue

namespace Metadata

/-- An object with the given properties. -/
def ofList (properties : List (String × JsonValue)) : Metadata :=
  properties.foldl (fun m p => m.insert p.1 p.2) ∅

/-- Set a string property; `undefined` leaves none. -/
def set (m : Metadata) (name : String) (value : Option String) : Metadata :=
  match value with
  | some s => m.insert name (.str s)
  | none => m.erase name

/-- A string property, when there is one. -/
def str? (m : Metadata) (name : String) : Option String :=
  match m.lookup name with
  | some (.str s) => some s
  | _ => none

end Metadata

/-- `x || none` on strings: the empty string counts as missing. -/
def truthy (x : Option String) : Option String := x.filter (· ≠ "")

/-! ### Tenants and their settings -/

structure Plan where
  name : String
  /-- `limits.ordersPerMonth`; `none` is unlimited -/
  ordersPerMonth : Option ℕ
  deriving DecidableEq, Repr

structure Tenant where
  name : String
  slug : String
  plan : String
  deriving DecidableEq, Repr

inductive RegistrationType where
  | regular
  | composition
  | unregistered
  deriving DecidableEq, Repr

/-- `TenantSettings.metadata.taxProfile`. -/
structure TaxProfile where
  legalName : Option String := none
  tradeName : Option String := none
  registrationType : Option RegistrationType := none
  gstin : Option String := none
  pan : Option String := none
  stateCode : Option String := none
  address : Option String := none
  phone : Option String := none
  email : Option String := none
  bankName : Option String := none
  accountNumber : Option String := none
  ifsc : Option String := none
  upiId : Option String := none
  signatory : Option String := none
  invoicePrefix : Option String := none
  invoiceTerms : Option String := none
  pricesIncludeTax : Option Bool := none
  deriving DecidableEq, Repr

/-- `TenantSettings.metadata`. -/
structure TenantSettings where
  gstRatePercent : Option ℤ := none
  currency : Option String := none
  taxProfile : TaxProfile := {}
  deriving DecidableEq, Repr

/-- `TenantPaymentGateway`: the shop's own Razorpay account. The secrets are stored
encrypted; one that cannot be decrypted is none. -/
structure PaymentGateway where
  keyId : String
  keySecret : Option String
  webhookSecret : Option String := none
  enabled : Bool := true
  deriving DecidableEq, Repr

/-! ### Customers -/

inductive CustomerType where
  | consumer
  | business
  deriving DecidableEq, Repr

structure Customer where
  tenantId : Uuid
  email : String
  firstName : String
  lastName : String
  phone : Option String := none
  customerType : CustomerType := .consumer
  companyName : Option String := none
  gstin : Option String := none
  pan : Option String := none
  stateCode : Option String := none
  deleted : Bool := false
  deriving DecidableEq, Repr

inductive AddressType where
  | shipping
  | billing
  deriving DecidableEq, Repr

structure CustomerAddress where
  tenantId : Uuid
  customerId : Uuid
  type : AddressType
  label : Option String := none
  firstName : Option String := none
  lastName : Option String := none
  company : Option String := none
  line1 : String
  line2 : Option String := none
  city : String
  state : Option String := none
  postalCode : Option String := none
  country : String
  phone : Option String := none
  isDefault : Bool := false
  deriving DecidableEq, Repr

/-- `toAddressSnapshot`: the address as an order keeps it. -/
structure AddressSnapshot where
  addressId : Uuid
  address : CustomerAddress
  deriving DecidableEq, Repr

/-! ### Catalogue and warehouses -/

inductive GstTaxability where
  | taxable
  | nilRated
  | exempt
  | nonGst
  deriving DecidableEq, Repr

structure Product where
  name : String
  hsnCode : Option String := none
  gstRatePercent : Option ℤ := none
  gstTaxability : GstTaxability := .taxable
  deriving DecidableEq, Repr

inductive VariantStatus where
  | active
  | inactive
  | draft
  deriving DecidableEq, Repr

/-- An attribute value of a variant, with its definition. -/
structure VariantAttribute where
  name : String
  code : String
  value : String
  deriving DecidableEq, Repr

/-- A variant with the product and the attributes it is read with. -/
structure ProductVariant where
  tenantId : Uuid
  sku : String
  price : Cents
  status : VariantStatus
  product : Product
  attributes : List VariantAttribute := []
  deriving DecidableEq, Repr

structure Warehouse where
  tenantId : Uuid
  isActive : Bool := true
  isDefault : Bool := false
  deriving DecidableEq, Repr

/-! ### Stock -/

/-- The unique key of both stock tables. -/
structure StockKey where
  tenantId : Uuid
  productVariantId : Uuid
  warehouseId : Uuid
  deriving DecidableEq, Repr

inductive InventoryMovementType where
  | adjustment
  | transfer
  | orderReservation
  | orderRelease
  | orderFulfillment
  | return
  | damaged
  | lost
  | count
  deriving DecidableEq, Repr

structure InventoryMovement where
  tenantId : Uuid
  productVariantId : Uuid
  warehouseId : Uuid
  type : InventoryMovementType
  quantityBefore : ℤ
  quantityChanged : ℤ
  quantityAfter : ℤ
  reason : Option String
  referenceType : Option String
  referenceId : Option String
  createdBy : Option Uuid
  deriving DecidableEq, Repr

/-- The stock row a movement is about. -/
def InventoryMovement.stockKey (m : InventoryMovement) : StockKey :=
  ⟨m.tenantId, m.productVariantId, m.warehouseId⟩

/-! ### Orders -/

inductive OrderStatus where
  | draft
  | pending
  | confirmed
  | processing
  | shipped
  | delivered
  | cancelled
  | refunded
  | partiallyRefunded
  deriving DecidableEq, Repr

inductive Channel where
  | staff
  | storefront
  | pos
  deriving DecidableEq, Repr

inductive SupplyType where
  | intra
  | inter
  deriving DecidableEq, Repr

/-- The shop as printed on the invoice. -/
structure SellerSnapshot where
  name : Option String
  tradeName : Option String
  gstin : Option String
  pan : Option String
  registrationType : Option RegistrationType
  stateCode : Option String
  stateName : Option String
  address : Option String
  phone : Option String
  email : Option String
  bank : Option (String × Option String × Option String)
  upiId : Option String
  signatory : Option String
  terms : Option String
  deriving DecidableEq, Repr

/-- The buyer as printed on the invoice. -/
structure BuyerSnapshot where
  type : CustomerType
  name : String
  contactName : Option String
  gstin : Option String
  pan : Option String
  stateCode : Option String
  email : String
  phone : Option String
  deriving DecidableEq, Repr

structure Order where
  tenantId : Uuid
  customerId : Uuid
  status : OrderStatus
  subtotal : Cents
  discountTotal : Cents
  taxTotal : Cents
  shippingTotal : Cents
  total : Cents
  currency : String
  metadata : Metadata
  shippingAddress : Option AddressSnapshot
  billingAddress : Option AddressSnapshot
  invoiceNumber : String
  placeOfSupply : Option String
  supplyType : SupplyType
  cgstTotal : Cents
  sgstTotal : Cents
  igstTotal : Cents
  buyerSnapshot : BuyerSnapshot
  sellerSnapshot : SellerSnapshot
  channel : Channel
  createdAt : ℕ
  deriving DecidableEq

structure OrderItem where
  tenantId : Uuid
  orderId : Uuid
  productVariantId : Uuid
  productNameSnapshot : String
  variantNameSnapshot : String
  attributeSnapshot : List (String × String)
  skuSnapshot : String
  unitPrice : Cents
  quantity : ℤ
  discount : Cents
  tax : Cents
  lineTotal : Cents
  hsnCode : Option String
  gstRatePercent : ℤ
  taxableValue : Cents
  cgst : Cents
  sgst : Cents
  igst : Cents
  deriving DecidableEq, Repr

structure OrderStatusHistory where
  tenantId : Uuid
  orderId : Uuid
  fromStatus : Option OrderStatus
  toStatus : OrderStatus
  reason : Option String
  createdBy : Option Uuid
  deriving DecidableEq, Repr

/-! ### Payments -/

inductive PaymentStatus where
  | pending
  | processing
  | completed
  | failed
  | refunded
  | partiallyRefunded
  | cancelled
  deriving DecidableEq, Repr

structure Payment where
  tenantId : Uuid
  orderId : Uuid
  amount : Cents
  currency : String
  status : PaymentStatus
  provider : String
  providerPaymentId : Option String
  metadata : Metadata
  deleted : Bool := false
  deriving DecidableEq

inductive PaymentTransactionType where
  | charge
  | refund
  deriving DecidableEq, Repr

structure PaymentTransaction where
  tenantId : Uuid
  paymentId : Uuid
  type : PaymentTransactionType
  amount : Cents
  currency : String
  status : PaymentStatus
  providerTransactionId : Option String
  metadata : Metadata
  deriving DecidableEq

inductive RefundStatus where
  | pending
  | processing
  | completed
  | failed
  deriving DecidableEq, Repr

structure Refund where
  tenantId : Uuid
  paymentId : Uuid
  amount : Cents
  currency : String
  status : RefundStatus
  reason : Option String
  providerRefundId : Option String
  metadata : Metadata
  deriving DecidableEq

/-- What the payload of a generic event says of its transaction. -/
structure WebhookDetails where
  providerTransactionId : Option String
  amount : Option Cents
  deriving DecidableEq, Repr

structure PaymentWebhookEvent where
  tenantId : Uuid
  paymentId : Option Uuid
  eventId : String
  providerEventId : Option String
  providerPaymentId : Option String
  type : String
  /-- `payload`; nothing here looks inside the one of a Razorpay event -/
  payload : Option WebhookDetails := none
  deriving DecidableEq, Repr

/-! ### Cash registers -/

structure CashRegister where
  tenantId : Uuid
  name : String
  isActive : Bool := true
  deriving DecidableEq, Repr

inductive CashSessionStatus where
  | open
  | closed
  deriving DecidableEq, Repr

structure CashSession where
  tenantId : Uuid
  registerId : Uuid
  status : CashSessionStatus
  openingFloat : Cents
  expectedCash : Option Cents := none
  countedCash : Option Cents := none
  variance : Option Cents := none
  openedBy : Option Uuid := none
  closedBy : Option Uuid := none
  note : Option String := none
  deriving DecidableEq, Repr

inductive CashMovementType where
  | sale
  | refund
  | cashIn
  | cashOut
  deriving DecidableEq, Repr

structure CashMovement where
  tenantId : Uuid
  sessionId : Uuid
  type : CashMovementType
  amount : Cents
  reason : Option String := none
  orderId : Option Uuid
  paymentId : Option Uuid
  createdBy : Option Uuid
  deriving DecidableEq, Repr

end PulseOps
