import Mathlib.Data.List.Sort
import Mathlib.Data.PNat.Basic
import PulseOps.Model.Rows
import PulseOps.ReadCommitted.Pages

/-!
# The public catalogue

`listProducts` and `getProduct` of `storefront/storefront.catalog.js`. Prices are in cents. The
first page has the number one, and pages and limits are positive, as `listProductsSchema`
demands; a row offset is an unbounded number.

Images, attributes and categories are left out, and of the filters it is only said which rows
they leave: `search` and `category` those of products, the prices and `inStock` groups.
-/

set_option autoImplicit false

namespace PulseOps.Catalog

/-! ### Rows -/

inductive ProductStatus where
  | active
  | inactive
  | draft
  | archived
  deriving DecidableEq, Repr

structure ProductRow where
  tenantId : Uuid
  name : String
  brand : Option String := none
  description : Option String := none
  status : ProductStatus
  createdAt : ℤ
  deleted : Bool := false
  deriving DecidableEq, Repr

structure VariantRow where
  tenantId : Uuid
  productId : Uuid
  sku : String
  price : Cents
  status : VariantStatus
  deleted : Bool := false
  deriving DecidableEq, Repr

structure InventoryRow where
  tenantId : Uuid
  productVariantId : Uuid
  warehouseId : Uuid
  quantity : ℤ
  deriving DecidableEq, Repr

structure Db where
  products : Table Uuid ProductRow := ∅
  variants : Table Uuid VariantRow := ∅
  inventory : Table Uuid InventoryRow := ∅
  /-- the trigger `inventory_product_variant_id_same_tenant` -/
  inventory_sameTenant : ∀ e ∈ inventory.entries, ∀ variant,
    variants.lookup e.2.productVariantId = some variant → e.2.tenantId = variant.tenantId

/-- The shop, as `resolveStore` finds it. -/
structure Store where
  id : Uuid
  currency : String
  deriving DecidableEq, Repr

/-- `sellableVariant` -/
def sellableVariant (tenantId : Uuid) (variant : VariantRow) : Bool :=
  variant.tenantId = tenantId ∧ variant.status = .active ∧ variant.deleted = false

/-! ### `listProducts` -/

/-- A row of the common table expression `v`. -/
structure SellableRow where
  productId : Uuid
  price : Cents
  stock : ℤ
  deriving DecidableEq, Repr

/-- A row of the common table expression `ranked`. -/
structure Ranked where
  id : Uuid
  name : String
  brand : Option String
  createdAt : ℤ
  minPrice : Cents
  maxPrice : Cents
  inStock : Bool
  deriving DecidableEq, Repr

/-- What the filters leave: `WHERE` on a product, `HAVING` on the variants of one. -/
structure Filters where
  products : Uuid → ProductRow → Bool := fun _ _ => true
  having : List SellableRow → Bool := fun _ => true

/-- The keys of `ORDER_BY`. -/
inductive SortBy where
  | newest
  | priceAsc
  | priceDesc
  | name
  deriving DecidableEq, Repr

namespace Db

/-- `COALESCE((SELECT SUM(i.quantity) …), 0)` -/
def stockInTenant (s : Db) (tenantId variantId : Uuid) : ℤ :=
  ((s.inventory.entries.filter fun e =>
    e.2.tenantId = tenantId ∧ e.2.productVariantId = variantId).map (·.2.quantity)).sum

/-- The common table expression `v`. -/
def sellable (s : Db) (tenantId : Uuid) : List SellableRow :=
  s.variants.entries.filterMap fun e =>
    if e.2.tenantId = tenantId ∧ e.2.status = .active ∧ e.2.deleted = false then
      some ⟨e.2.productId, e.2.price, s.stockInTenant e.2.tenantId e.1⟩
    else none

/-- The group of one product, if it is listed and has a row to join with. -/
def rank (s : Db) (tenantId : Uuid) (filters : Filters) (id : Uuid) (p : ProductRow) :
    Option Ranked :=
  if p.tenantId = tenantId ∧ p.status = .active ∧ p.deleted = false ∧ filters.products id p then
    let group := (s.sellable tenantId).filter (·.productId = id)
    match (group.map (·.price)).min?, (group.map (·.price)).max? with
    | some minPrice, some maxPrice =>
      if filters.having group then
        some { id, name := p.name, brand := p.brand, createdAt := p.createdAt, minPrice, maxPrice
               inStock := group.any fun v => 0 < v.stock }
      else none
    | _, _ => none
  else none

/-- The common table expression `ranked`, in no order. -/
def ranked (s : Db) (tenantId : Uuid) (filters : Filters) : List Ranked :=
  s.products.entries.filterMap fun e => s.rank tenantId filters e.1 e.2

end Db

/-- By a key first, and by the identifier among equals. -/
def orderedBy {β : Type} (order : LinearOrder β) (collation : LinearOrder Uuid)
    (key : Ranked → β) (a b : Ranked) : Bool :=
  order.lt (key a) (key b) ∨ (key a = key b ∧ collation.le a.id b.id)

/-- The fragments of `ORDER_BY`. Texts are compared in the collation of the database. -/
def orderBy (collation : LinearOrder String) : SortBy → Ranked → Ranked → Bool
  | .newest => orderedBy inferInstance collation fun a => -a.createdAt
  | .priceAsc => orderedBy inferInstance collation fun a => a.minPrice
  | .priceDesc => orderedBy inferInstance collation fun a => -a.maxPrice
  | .name => orderedBy collation collation fun a => a.name

/-- A product card, without its image. -/
structure ProductCard where
  id : Uuid
  name : String
  brand : Option String
  priceFrom : Cents
  priceTo : Cents
  currency : String
  inStock : Bool
  deriving DecidableEq, Repr

structure Meta where
  page : ℕ
  limit : ℕ
  total : ℕ
  totalPages : ℕ
  deriving DecidableEq, Repr

structure ProductPage where
  data : List ProductCard
  pageMeta : Meta
  deriving DecidableEq, Repr

/-- The query: the rows of a page, each with `COUNT(*) OVER ()`. -/
def queryPage (s : Db) (collation : LinearOrder String) (tenantId : Uuid) (filters : Filters)
    (sort : SortBy) (page limit : ℕ+) : List (Ranked × ℕ) :=
  let ranked := s.ranked tenantId filters
  ((ranked.mergeSort (orderBy collation sort)).page limit page.natPred).map (·, ranked.length)

/-- `rows.length ? Number(rows[0].total) : 0` -/
def windowTotal (rows : List (Ranked × ℕ)) : ℕ := (rows.head?.map (·.2)).getD 0

def productCard (store : Store) (r : Ranked) : ProductCard where
  id := r.id
  name := r.name
  brand := r.brand
  priceFrom := r.minPrice
  priceTo := r.maxPrice
  currency := store.currency
  inStock := r.inStock

def listProducts (s : Db) (collation : LinearOrder String) (store : Store) (filters : Filters)
    (sort : SortBy) (page limit : ℕ+) : ProductPage :=
  let rows := queryPage s collation store.id filters sort page limit
  let total :=
    -- past the last page the window count is not there
    if rows.isEmpty ∧ 1 < page then
      windowTotal (queryPage s collation store.id filters sort 1 1)
    else windowTotal rows
  { data := rows.map fun r => productCard store r.1
    pageMeta := ⟨page, limit, total, (total + limit - 1) / limit⟩ }

/-! ### `getProduct` -/

structure ProductVariantView where
  id : Uuid
  sku : String
  price : Cents
  inStock : Bool
  deriving DecidableEq, Repr

structure ProductView where
  id : Uuid
  name : String
  brand : Option String
  description : Option String
  currency : String
  variants : List ProductVariantView
  deriving DecidableEq, Repr

def productNotFound : AppError := ⟨"Product not found", 404, "PRODUCT_NOT_FOUND"⟩

namespace Db

/-- `stockOf`, of the inventory that the variant is read with. -/
def stockOf (s : Db) (variantId : Uuid) : ℤ :=
  ((s.inventory.entries.filter fun e => e.2.productVariantId = variantId).map
    (·.2.quantity)).sum

/-- The sellable variants of a product. -/
def sellableVariants (s : Db) (tenantId productId : Uuid) :
    List (Sigma fun _ : Uuid => VariantRow) :=
  s.variants.entries.filter fun e =>
    e.2.productId = productId ∧ sellableVariant tenantId e.2

end Db

def getProduct (s : Db) (store : Store) (productId : Uuid) : Except AppError ProductView :=
  match s.products.lookup productId with
  | none => .error productNotFound
  | some product =>
    let variants := s.sellableVariants store.id productId
    -- `sellableProduct`
    if product.tenantId = store.id ∧ product.status = .active ∧ product.deleted = false ∧
        variants ≠ [] then
      .ok {
        id := productId
        name := product.name
        brand := product.brand
        description := product.description
        currency := store.currency
        variants := (variants.mergeSort fun a b => a.2.price ≤ b.2.price).map fun e =>
          { id := e.1, sku := e.2.sku, price := e.2.price, inStock := 0 < s.stockOf e.1 } }
    else .error productNotFound

end PulseOps.Catalog
