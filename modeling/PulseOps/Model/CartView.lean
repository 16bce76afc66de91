import PulseOps.Model.Cart
import PulseOps.Model.Catalog
import PulseOps.Model.Razorpay

/-!
# What a shopper sees of the cart

`getCart` of `storefront/storefront.shop.js`: the rows of the cart with the prices of the
catalog, whether each can be bought, and whether the cart is ready for checkout. The lines come
in the order of the table.
-/

set_option autoImplicit false

namespace PulseOps.Cart

/-- A variant as `cartInclude` reads it: with its product, its stock and its attributes. -/
structure CatalogVariant where
  status : VariantStatus
  deleted : Bool := false
  productId : Uuid
  productName : String
  productStatus : Catalog.ProductStatus
  productDeleted : Bool := false
  sku : String
  price : Cents
  /-- the codes of the attributes and their values -/
  attributes : List (String × String) := []
  inventory : List Stock := []

def isSellable (v : CatalogVariant) : Bool :=
  v.status = .active ∧ v.deleted = false ∧ v.productStatus = .active ∧ v.productDeleted = false

/-- What the other requests ask of a variant. -/
def CatalogVariant.variant (v : CatalogVariant) : Variant := ⟨isSellable v, v.inventory⟩

/-- `attributesOf`: the values by their codes. -/
def attributesOf (v : CatalogVariant) : Table String String :=
  v.attributes.foldl (fun t a => t.insert a.1 a.2) ∅

inductive Issue where
  | unavailable
  | insufficientStock
  deriving DecidableEq, Repr

/-- Why a line cannot be bought. -/
def issueOf (v : CatalogVariant) (quantity : ℕ) : Option Issue :=
  if isSellable v = false then some .unavailable
  else if stockOf v.variant < quantity then some .insufficientStock
  else none

structure CartLine where
  variantId : Uuid
  productId : Uuid
  productName : String
  sku : String
  attributes : Table String String
  unitPrice : String
  quantity : ℕ
  lineTotal : String
  available : Bool
  issue : Option Issue

structure CartView where
  items : List CartLine
  itemCount : ℕ
  subtotal : String
  currency : String
  readyForCheckout : Bool

def cartLine (catalog : Uuid → CatalogVariant) (x : ItemKey × CartItem) : CartLine :=
  let v := catalog x.1.2
  let issue := issueOf v x.2.quantity
  { variantId := x.1.2
    productId := v.productId
    productName := v.productName
    sku := v.sku
    attributes := attributesOf v
    unitPrice := fromCents v.price
    quantity := x.2.quantity
    lineTotal := fromCents (v.price * x.2.quantity)
    available := issue.isNone
    issue := issue }

/-- The price of what can be bought. -/
def subtotalCents (catalog : Uuid → CatalogVariant) (items : List (ItemKey × CartItem)) : Cents :=
  (items.map fun x => if (issueOf (catalog x.1.2) x.2.quantity).isNone then
    (catalog x.1.2).price * x.2.quantity else 0).sum

/-- `getCart`: current prices, whether each line can be bought, and the subtotal of those that
can. -/
def getCart (store : Catalog.Store) (customerId : Uuid) (catalog : Uuid → CatalogVariant)
    (s : Db) : CartView :=
  let items := findItems store.id customerId s
  let lines := items.map (cartLine catalog)
  { items := lines
    itemCount := (lines.map CartLine.quantity).sum
    subtotal := fromCents (subtotalCents catalog items)
    currency := store.currency
    readyForCheckout := !lines.isEmpty && lines.all CartLine.available }

end PulseOps.Cart
