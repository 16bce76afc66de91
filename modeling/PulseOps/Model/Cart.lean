import PulseOps.Model.Rows
import PulseOps.ReadCommitted.Observation
import PulseOps.ReadCommitted.Requests

/-!
# The cart of a shopper

`setCartItem`, `clearCart` and `checkout` of `storefront/storefront.shop.js`, over the two
tables they write. None of them opens a transaction around what it does: a checkout reads the
cart, lets `orderService.create` place the order in a transaction of its own, and deletes the
cart afterwards.

To tell the units of a cart apart, a row also holds the number of the request that has put
them there, and so does a line of an order; a deletion that follows an order names the order.
These are no columns of the tables, and no request looks at them.

What the catalog says of a variant when a request asks is given with the request. Placing an
order is one insertion here, which may fail: a session can be rolled back at any moment. What
the requests answer and the payment of an order are left out.
-/

set_option autoImplicit false

open ReadCommitted Program

namespace PulseOps.Cart

/-! ### Rows and edits -/

structure CartItem where
  tenantId : Uuid
  quantity : ℕ
  /-- the request that has put the units there -/
  put : ℕ
  deriving DecidableEq, Repr

structure OrderLine where
  productVariantId : Uuid
  warehouseId : Uuid
  quantity : ℕ
  put : ℕ
  deriving DecidableEq, Repr

structure Order where
  tenantId : Uuid
  customerId : Uuid
  lines : List OrderLine
  deriving DecidableEq, Repr

/-- The unique index of the cart: the customer and the variant. -/
abbrev ItemKey := Uuid × Uuid

structure Db where
  cartItems : Table ItemKey CartItem := ∅
  orders : Table Uuid Order := ∅

/-- What one writing statement does. -/
inductive Edit where
  /-- a `DELETE` of no rows -/
  | nothing
  | cartItemSet (key : ItemKey) (row : CartItem)
  /-- the deletion of rows, and the order it follows -/
  | cartItemsDelete (keys : List ItemKey) (orderId : Option Uuid)
  | orderInsert (id : Uuid) (row : Order)
  deriving DecidableEq

/-- Lockable rows. -/
inductive Key where
  | cartItem (key : ItemKey)
  | order (id : Uuid)
  deriving DecidableEq, Repr

/-- The requests ask nobody outside. -/
inductive Call where
  deriving DecidableEq

/-- The state after one edit. -/
@[simp] def Db.apply (s : Db) : Edit → Db
  | .nothing => s
  | .cartItemSet key row => { s with cartItems := s.cartItems.insert key row }
  | .cartItemsDelete keys _ =>
    { s with cartItems := keys.foldl (fun t key => t.erase key) s.cartItems }
  | .orderInsert id row => { s with orders := s.orders.insert id row }

/-- The rows an edit takes. -/
def Edit.footprint : Edit → List Key
  | .nothing => []
  | .cartItemSet key _ => [.cartItem key]
  | .cartItemsDelete keys _ => keys.map .cartItem
  | .orderInsert id _ => [.order id]

/-- Whether a lockable row exists. -/
def Db.present (s : Db) : Key → Bool
  | .cartItem key => (s.cartItems.lookup key).isSome
  | .order id => (s.orders.lookup id).isSome

/-- The two tables as a database. -/
def carts : Database Db Key Edit Call Unit Failure where
  apply := Db.apply
  footprint := Edit.footprint
  present := Db.present

/-- Programs over the two tables. -/
abbrev Sql (α : Type) := Program carts α

@[simp] theorem carts_apply (s : Db) (e : Edit) : carts.apply s e = s.apply e := rfl

@[simp] theorem carts_footprint (e : Edit) : carts.footprint e = e.footprint := rfl

/-- Stop with an `AppError` unless `P` holds. -/
def ensure (P : Prop) [Decidable P] (e : AppError) : Sql Unit := .require P (.app e)

/-- The value, or stop with an `AppError`. -/
def orThrow {α : Type} (x : Option α) (e : AppError) : Sql α := .orRaise x (.app e)

/-! ### The catalog -/

/-- The stock of a variant in one warehouse. -/
structure Stock where
  warehouseId : Uuid
  quantity : ℕ
  isActive : Bool
  isDefault : Bool
  deriving DecidableEq, Repr

/-- What the catalog says of a variant: whether it and its product are active and not
deleted, and its stock. -/
structure Variant where
  sellable : Bool
  inventory : List Stock
  deriving DecidableEq, Repr

/-- `stockOf`. -/
def stockOf (v : Variant) : ℕ := (v.inventory.map Stock.quantity).sum

/-- The order of `candidates.sort`: the default warehouse first, then the most stock. -/
def preferred (a b : Stock) : Bool :=
  if a.isDefault = b.isDefault then b.quantity ≤ a.quantity else a.isDefault

/-- `pickWarehouse`. -/
def pickWarehouse (v : Variant) (quantity : ℕ) : Option Uuid :=
  ((v.inventory.filter fun i => i.isActive && quantity ≤ i.quantity).mergeSort
    preferred).head?.map Stock.warehouseId

/-! ### Requests -/

structure SetCartItemRequest where
  storeId : Uuid
  customerId : Uuid
  variantId : Uuid
  quantity : ℕ
  catalog : Uuid → Variant

structure ClearCartRequest where
  storeId : Uuid
  customerId : Uuid

/-- A checkout, with the id of the order it places. -/
structure CheckoutRequest where
  storeId : Uuid
  customerId : Uuid
  orderId : Uuid
  catalog : Uuid → Variant

inductive CartRequest where
  | setCartItem (r : SetCartItemRequest)
  | clearCart (r : ClearCartRequest)
  | checkout (r : CheckoutRequest)

/-- Where a request is between two transactions. -/
inductive CartPoint where
  /-- the request with its number -/
  | request (put : ℕ) (q : CartRequest)
  /-- the checkout has read the cart -/
  | place (r : CheckoutRequest) (lines : List OrderLine)
  /-- the checkout has placed its order -/
  | clear (r : CheckoutRequest)
  | done

/-! ### Statements -/

namespace Statement

/-- `cartItem.upsert`. -/
def upsertCartItem (r : SetCartItemRequest) (put : ℕ) (s : Db) : Except Failure Edit :=
  .ok (.cartItemSet (r.customerId, r.variantId)
    (match s.cartItems.lookup (r.customerId, r.variantId) with
      | none => { tenantId := r.storeId, quantity := r.quantity, put }
      | some row => { row with quantity := r.quantity, put }))

/-- `cartItem.deleteMany` of one variant. -/
def deleteCartItem (r : SetCartItemRequest) (s : Db) : Except Failure Edit :=
  match (s.cartItems.lookup (r.customerId, r.variantId)).filter (·.tenantId = r.storeId) with
  | none => .ok .nothing
  | some _ => .ok (.cartItemsDelete [(r.customerId, r.variantId)] none)

/-- The second half of `cartItem.deleteMany` of a cart: of the rows it has found, those that
are still the store's. -/
def deleteCartItems (storeId : Uuid) (found : List ItemKey) (orderId : Option Uuid) (s : Db) :
    Except Failure Edit :=
  .ok (.cartItemsDelete
    (found.filter fun key => (s.cartItems.lookup key).any (·.tenantId = storeId)) orderId)

/-- `order.create`. -/
def insertOrder (id : Uuid) (row : Order) (s : Db) : Except Failure Edit :=
  if (s.orders.lookup id).isSome then .error (.database .uniqueViolation)
  else .ok (.orderInsert id row)

end Statement

/-! ### Service -/

def productNotAvailable : AppError :=
  ⟨"This product is not available", 404, "PRODUCT_NOT_AVAILABLE"⟩

def insufficientStock : AppError :=
  ⟨"Not enough stock for that quantity", 409, "INSUFFICIENT_STOCK"⟩

def cartEmpty : AppError := ⟨"Your cart is empty", 409, "CART_EMPTY"⟩

def cartNotReady : AppError :=
  ⟨"Some items in your cart are no longer available in that quantity", 409, "CART_NOT_READY"⟩

/-- `cartItem.findMany` of a customer. -/
def findItems (storeId customerId : Uuid) (s : Db) : List (ItemKey × CartItem) :=
  (s.cartItems.entries.filter fun x => x.1.1 = customerId ∧ x.2.tenantId = storeId).map
    fun x => (x.1, x.2)

/-- `cartItem.deleteMany` of a customer. -/
def deleteItems (storeId customerId : Uuid) (orderId : Option Uuid) : Sql Unit := do
  let found ← query fun s => (findItems storeId customerId s).map (·.1)
  perform (Statement.deleteCartItems storeId found orderId)

/-- `setCartItem`. -/
def setCartItem (r : SetCartItemRequest) (put : ℕ) : Sql CartPoint :=
  if r.quantity = 0 then do
    perform (Statement.deleteCartItem r)
    return .done
  else do
    let variant ← orThrow (some (r.catalog r.variantId) |>.filter (·.sellable)) productNotAvailable
    ensure (r.quantity ≤ stockOf variant) insufficientStock
    perform (Statement.upsertCartItem r put)
    return .done

/-- `clearCart`. -/
def clearCart (r : ClearCartRequest) : Sql CartPoint := do
  deleteItems r.storeId r.customerId none
  return .done

/-- The line of an order that a row of the cart becomes. -/
def orderLine (catalog : Uuid → Variant) (x : ItemKey × CartItem) : Option OrderLine :=
  let v := catalog x.1.2
  (if v.sellable then pickWarehouse v x.2.quantity else none).map fun warehouseId =>
    ⟨x.1.2, warehouseId, x.2.quantity, x.2.put⟩

/-- `checkout` up to the order: reads the cart and makes its lines. -/
def readCart (r : CheckoutRequest) : Sql CartPoint := do
  let items ← query (findItems r.storeId r.customerId)
  ensure (items ≠ []) cartEmpty
  let lines ← orThrow (items.mapM (orderLine r.catalog)) cartNotReady
  return .place r lines

/-- `orderService.create`, as far as the cart is concerned. -/
def placeOrder (r : CheckoutRequest) (lines : List OrderLine) : Sql CartPoint := do
  perform (Statement.insertOrder r.orderId ⟨r.storeId, r.customerId, lines⟩)
  return .clear r

/-- The `deleteMany` at the end of `checkout`. -/
def clearOrdered (r : CheckoutRequest) : Sql CartPoint := do
  deleteItems r.storeId r.customerId (some r.orderId)
  return .done

/-- The transaction of each point. -/
def code : CartPoint → Option (Sql CartPoint)
  | .request put (.setCartItem r) => some (setCartItem r put)
  | .request _ (.clearCart r) => some (clearCart r)
  | .request _ (.checkout r) => some (readCart r)
  | .place r lines => some (placeOrder r lines)
  | .clear r => some (clearOrdered r)
  | .done => none

/-- The requests wait to be looked at. -/
def waiting (requests : List CartRequest) : List CartPoint :=
  requests.zipIdx.map fun x => .request x.2 x.1

end PulseOps.Cart
