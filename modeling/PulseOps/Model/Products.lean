import Mathlib.Algebra.Order.Ring.Rat
import PulseOps.Model.Catalog

/-!
# The list of products

`ProductRepository.list` of `products/products.repository.js` over the tables of the catalogue,
and the key under which `productListKey` of `common/cache/cache.keys.js` has the list of some
options in the cache. Prices are in cents and GST rates in hundredths of a percent.

Options are such as `listProductsQuerySchema` passes them: each is absent or of its type, pages
and limits are positive. What PostgreSQL finds with `ILIKE` and how it sorts texts is given, and
rows that an order leaves equal stand in the order of their table. Rows of
`product_categories` are without their identifiers, and time stamps by which nothing is sorted
are left out.
-/

set_option autoImplicit false

namespace PulseOps.Products

open Catalog (ProductStatus)

/-! ### Rows -/

structure ProductRow where
  tenantId : Uuid
  name : String
  description : Option String := none
  brand : Option String := none
  status : ProductStatus := .draft
  basePrice : Option Cents := none
  hsnCode : Option String := none
  gstRatePercent : Option ℤ := none
  gstTaxability : GstTaxability := .taxable
  unit : Option String := none
  createdAt : ℤ
  updatedAt : ℤ
  deletedAt : Option ℤ := none
  deriving DecidableEq, Repr

structure VariantRow where
  tenantId : Uuid
  productId : Uuid
  sku : String
  barcode : Option String := none
  price : Cents
  costPrice : Option Cents := none
  mrp : Option Cents := none
  status : VariantStatus := .draft
  createdAt : ℤ
  deriving DecidableEq, Repr

structure ImageRow where
  tenantId : Uuid
  productId : Uuid
  variantId : Option Uuid
  storageKey : String
  url : Option String
  altText : Option String
  sortOrder : ℤ
  isPrimary : Bool
  deriving DecidableEq, Repr

structure CategoryRow where
  tenantId : Uuid
  name : String
  slug : String
  deriving DecidableEq, Repr

/-- A row of `product_categories`. -/
structure ProductCategory where
  tenantId : Uuid
  productId : Uuid
  categoryId : Uuid
  isPrimary : Bool
  deriving DecidableEq, Repr

inductive AttributeDataType where
  | text
  | number
  | boolean
  | option
  deriving DecidableEq, Repr

structure AttributeDefinition where
  tenantId : Uuid
  name : String
  code : String
  dataType : AttributeDataType
  isRequired : Bool := false
  description : Option String := none
  deriving DecidableEq, Repr

/-- A row of `product_variant_attributes`. -/
structure VariantAttribute where
  id : Uuid
  tenantId : Uuid
  variantId : Uuid
  attributeDefinitionId : Uuid
  value : String
  deriving DecidableEq, Repr

/-- The tables of the catalogue. -/
structure Catalogue where
  products : Table Uuid ProductRow := ∅
  variants : Table Uuid VariantRow := ∅
  images : Table Uuid ImageRow := ∅
  categories : Table Uuid CategoryRow := ∅
  attributeDefinitions : Table Uuid AttributeDefinition := ∅
  productCategories : List ProductCategory := []
  variantAttributes : List VariantAttribute := []

/-! ### What is listed -/

/-- A category as a product includes it. -/
structure CategoryLink where
  link : ProductCategory
  category : Option (Uuid × String × String)
  deriving DecidableEq, Repr

/-- An attribute with the fields of its definition. -/
structure AttributeView where
  value : VariantAttribute
  definition : Option (String × String × AttributeDataType)
  deriving DecidableEq, Repr

structure VariantView where
  id : Uuid
  variant : VariantRow
  attributes : List AttributeView
  images : List (Uuid × ImageRow)
  deriving DecidableEq, Repr

structure ProductView where
  id : Uuid
  product : ProductRow
  categories : List CategoryLink
  variants : List VariantView
  images : List (Uuid × ImageRow)
  /-- `_count.variants` -/
  variantCount : ℕ
  deriving DecidableEq, Repr

structure ProductPage where
  data : List ProductView
  pageMeta : Catalog.Meta
  deriving DecidableEq, Repr

/-! ### Options -/

structure ListOptions where
  page : Option ℕ+ := none
  limit : Option ℕ+ := none
  search : Option String := none
  status : Option ProductStatus := none
  categoryId : Option Uuid := none
  minPrice : Option ℚ := none
  maxPrice : Option ℚ := none
  sku : Option String := none
  barcode : Option String := none
  attributeFilters : Option (Table String String) := none
  sortBy : Option String := none
  sortOrder : Option String := none

/-- What PostgreSQL does with texts. -/
structure Texts where
  /-- whether a text contains another one, in any case of their letters -/
  contains : String → String → Bool
  collation : LinearOrder String

/-- The fields of `allowedSortFields`. -/
inductive SortField where
  | name
  | brand
  | status
  | basePrice
  | createdAt
  | updatedAt
  deriving DecidableEq, Repr

/-- `safeSortBy`. -/
def safeSortBy : String → SortField
  | "name" => .name
  | "brand" => .brand
  | "status" => .status
  | "basePrice" => .basePrice
  | "updatedAt" => .updatedAt
  | _ => .createdAt

/-- `safeSortOrder`: whether it is `'asc'`. -/
def ascending (sortOrder : String) : Bool := sortOrder.toLower = "asc"

/-- The order in which the type is declared. -/
def statusRank : ProductStatus → ℕ
  | .active => 0
  | .inactive => 1
  | .draft => 2
  | .archived => 3

/-- PostgreSQL puts `NULL` after all values. -/
def nullsLast {α : Type} (le : α → α → Bool) : Option α → Option α → Bool
  | _, none => true
  | none, some _ => false
  | some a, some b => le a b

/-- The order of texts in the collation of the database. -/
def Texts.le (texts : Texts) (x y : String) : Bool :=
  @decide _ (texts.collation.toDecidableLE x y)

/-- The ascending order by a field. -/
def ProductRow.le (texts : Texts) (a b : ProductRow) : SortField → Bool
  | .name => texts.le a.name b.name
  | .brand => nullsLast texts.le a.brand b.brand
  | .status => statusRank a.status ≤ statusRank b.status
  | .basePrice => nullsLast (fun x y : ℤ => decide (x ≤ y)) a.basePrice b.basePrice
  | .createdAt => a.createdAt ≤ b.createdAt
  | .updatedAt => a.updatedAt ≤ b.updatedAt

/-- `orderBy`. -/
def orderBy (texts : Texts) (options : ListOptions) (a b : ProductRow) : Bool :=
  let field := safeSortBy (options.sortBy.getD "createdAt")
  if ascending (options.sortOrder.getD "desc") then a.le texts b field else b.le texts a field

/-! ### The conditions of the query -/

namespace Catalogue

variable (texts : Texts) (s : Catalogue) (tenantId : Uuid) (options : ListOptions)

/-- The conditions on an attribute, all of them on one row. -/
def attributesMatch (variantId : Uuid) (filters : Table String String) : Bool :=
  s.variantAttributes.any fun a => a.variantId = variantId ∧
    filters.entries.all fun f =>
      (s.attributeDefinitions.lookup a.attributeDefinitionId).any
        (fun d => d.code = f.1 ∧ d.tenantId = tenantId) ∧ a.value = f.2

/-- Whether a text that may be missing contains what is asked for. -/
def contained (text : Option String) (needle : String) : Bool :=
  text.any fun t => texts.contains t needle

/-- `attributeFilters`, when it has any keys. -/
def attributeFilters : Option (Table String String) :=
  options.attributeFilters.filter fun filters => ¬ filters.entries.isEmpty

/-- `variantFilters.length > 0`. -/
def hasVariantFilters : Bool :=
  (truthy options.sku).isSome ∨ (truthy options.barcode).isSome ∨ options.minPrice.isSome ∨
    options.maxPrice.isSome ∨ (attributeFilters options).isSome

/-- The conditions on a variant of the product. A price is in cents, a bound in units. -/
def variantMatches (productId id : Uuid) (v : VariantRow) : Bool :=
  v.productId = productId ∧ v.tenantId = tenantId ∧
    (truthy options.sku).all (contained texts (some v.sku)) ∧
    (truthy options.barcode).all (contained texts v.barcode) ∧
    options.minPrice.all (fun price => price * 100 ≤ ((v.price : ℤ) : ℚ)) ∧
    options.maxPrice.all (fun price => ((v.price : ℤ) : ℚ) ≤ price * 100) ∧
    (attributeFilters options).all (s.attributesMatch tenantId id)

/-- `where`. -/
def productMatches (id : Uuid) (p : ProductRow) : Bool :=
  p.tenantId = tenantId ∧
    (truthy options.search).all (fun search => contained texts (some p.name) search ∨
      contained texts p.description search ∨ contained texts p.brand search) ∧
    options.status.all (fun status => p.status = status) ∧
    (truthy options.categoryId).all (fun categoryId => s.productCategories.any fun l =>
      l.productId = id ∧ l.categoryId = categoryId ∧ l.tenantId = tenantId) ∧
    (hasVariantFilters options → s.variants.entries.any fun v =>
      variantMatches texts s tenantId options id v.1 v.2)

/-! ### Relations -/

/-- `images: { where: { isPrimary: true }, take: 1 }`. -/
def primaryImage (belongs : ImageRow → Bool) : List (Uuid × ImageRow) :=
  ((s.images.entries.filter fun i => belongs i.2 ∧ i.2.isPrimary = true).map
    fun i => (i.1, i.2)).take 1

def categoriesOf (productId : Uuid) : List CategoryLink :=
  (s.productCategories.filter (·.productId = productId)).map fun l =>
    ⟨l, (s.categories.lookup l.categoryId).map fun c => (l.categoryId, c.name, c.slug)⟩

def attributesOf (variantId : Uuid) : List AttributeView :=
  (s.variantAttributes.filter (·.variantId = variantId)).map fun a =>
    ⟨a, (s.attributeDefinitions.lookup a.attributeDefinitionId).map fun d =>
      (d.name, d.code, d.dataType)⟩

/-- The variants of a product. -/
def variantEntries (productId : Uuid) : List (Sigma fun _ : Uuid => VariantRow) :=
  s.variants.entries.filter fun v => v.2.productId = productId

def variantView (id : Uuid) (v : VariantRow) : VariantView where
  id := id
  variant := v
  attributes := s.attributesOf id
  images := s.primaryImage fun i => i.variantId = some id

/-- The first ten variants that are no drafts. -/
def variantsOf (productId : Uuid) : List VariantView :=
  ((((s.variantEntries productId).filter fun v => v.2.status ≠ .draft).mergeSort
    fun v w => v.2.createdAt ≤ w.2.createdAt).take 10).map fun v => s.variantView v.1 v.2

/-- A product with what it includes. -/
def productView (id : Uuid) (p : ProductRow) : ProductView where
  id := id
  product := p
  categories := s.categoriesOf id
  variants := s.variantsOf id
  images := s.primaryImage fun i => i.productId = id
  variantCount := (s.variantEntries id).length

end Catalogue

/-- `ProductRepository.list`. Of a limit over a hundred the page number still counts all. -/
def ProductRepository.list (texts : Texts) (s : Catalogue) (tenantId : Uuid)
    (options : ListOptions) : ProductPage :=
  let page : ℕ := options.page.getD 1
  let limit : ℕ := options.limit.getD 20
  let take := min limit 100
  let found := s.products.entries.filter fun e =>
    s.productMatches texts tenantId options e.1 e.2
  let products := ((found.mergeSort fun a b => orderBy texts options a.2 b.2).drop
    ((page - 1) * limit)).take take
  { data := products.map fun e => s.productView e.1 e.2
    pageMeta := ⟨page, take, found.length, (found.length + take - 1) / take⟩ }

/-! ### The key of a list -/

/-- What the key of a list is a hash of, with the attribute filters in the order of their
keys. -/
structure ListPayload where
  page : ℕ+
  limit : ℕ+
  search : String
  status : Option ProductStatus
  categoryId : Uuid
  minPrice : Option ℚ
  maxPrice : Option ℚ
  sku : String
  barcode : String
  sortBy : String
  sortOrder : String
  attributeFilters : List (Sigma fun _ : String => String)
  deriving DecidableEq

/-- `payload` of `productListKey`. -/
def ListOptions.payload (options : ListOptions) : ListPayload where
  page := options.page.getD 1
  limit := options.limit.getD 20
  search := options.search.getD ""
  status := options.status
  categoryId := options.categoryId.getD ""
  minPrice := options.minPrice
  maxPrice := options.maxPrice
  sku := options.sku.getD ""
  barcode := options.barcode.getD ""
  sortBy := options.sortBy.getD "createdAt"
  sortOrder := options.sortOrder.getD "desc"
  attributeFilters := (options.attributeFilters.getD ∅).entries.mergeSort fun a b => a.1 ≤ b.1

end PulseOps.Products
