import PulseOps.Model.Tenants

/-!
# The services of the catalogue

`ProductService` of `products/products.service.js` with its cache of lists, `VariantService` of
`variants/variants.service.js` and `ProductImageService` of
`product-images/product-images.service.js`, over their repositories. Only the first of them
deletes lists from the cache.

References keep to one tenant, as the triggers of `phase34_data_integrity` check, and the rows
that belong to a deleted one go with it. An amount that does not fit into `Decimal(12, 2)` is
answered like a violated check. New ids, the time, what the file storage answers and whether
`Number` makes a number of a text are given with the requests.
-/

set_option autoImplicit false

open ReadCommitted

namespace PulseOps.Products

open Autocommit
open Catalog (ProductStatus)
open Tenants (Service inDb)

/-! ### Statements -/

/-- `Decimal(12, 2)`. -/
def fits (amount : Option Cents) : Bool := amount.all fun cents => cents.natAbs < 10 ^ 12

/-- A foreign key with its trigger: the row it points at has an owner, which is the tenant. -/
def checkOwner (owner : Option Uuid) (tenantId : Uuid) : Except Failure Unit :=
  match owner with
  | none => .error (.database .foreignKeyViolation)
  | some t => if t = tenantId then .ok () else .error (.database .checkViolation)

/-- The fields a product is created with. -/
structure ProductData where
  name : String
  description : Option String := none
  brand : Option String := none
  status : Option ProductStatus := none
  basePrice : Option Cents := none
  hsnCode : Option String := none
  gstRatePercent : Option ℤ := none
  gstTaxability : Option GstTaxability := none
  unit : Option String := none
  categories : List Uuid := []
  primaryCategoryId : Option Uuid := none
  deriving DecidableEq, Repr

/-- The fields that are given for a product; some of them may be cleared by `null`. -/
structure ProductChanges where
  name : Option String := none
  description : Option String := none
  brand : Option String := none
  status : Option ProductStatus := none
  basePrice : Option Cents := none
  hsnCode : Option (Option String) := none
  gstRatePercent : Option (Option ℤ) := none
  gstTaxability : Option GstTaxability := none
  unit : Option (Option String) := none
  deriving DecidableEq, Repr

/-- The given fields are set. -/
def ProductChanges.merge (changes : ProductChanges) (row : ProductRow) (now : ℤ) : ProductRow :=
  { row with
    name := changes.name.getD row.name
    description := changes.description <|> row.description
    brand := changes.brand <|> row.brand
    status := changes.status.getD row.status
    basePrice := changes.basePrice <|> row.basePrice
    hsnCode := changes.hsnCode.getD row.hsnCode
    gstRatePercent := changes.gstRatePercent.getD row.gstRatePercent
    gstTaxability := changes.gstTaxability.getD row.gstTaxability
    unit := changes.unit.getD row.unit
    updatedAt := now }

/-- An attribute that is given for a variant, with the id that its row gets. -/
structure AttributeInput where
  id : Uuid
  attributeDefinitionId : Uuid
  value : String
  deriving DecidableEq, Repr

/-- The fields a variant is created with. -/
structure VariantData where
  sku : String
  barcode : Option String := none
  price : Cents
  costPrice : Option Cents := none
  mrp : Option Cents := none
  status : Option VariantStatus := none
  attributes : List AttributeInput := []
  deriving DecidableEq, Repr

/-- The fields that are given for a variant; some of them may be cleared by `null`. -/
structure VariantChanges where
  sku : Option String := none
  barcode : Option (Option String) := none
  price : Option Cents := none
  costPrice : Option (Option Cents) := none
  mrp : Option (Option Cents) := none
  status : Option VariantStatus := none
  deriving DecidableEq, Repr

/-- The given fields are set. -/
def VariantChanges.merge (changes : VariantChanges) (row : VariantRow) : VariantRow :=
  { row with
    sku := changes.sku.getD row.sku
    barcode := changes.barcode.getD row.barcode
    price := changes.price.getD row.price
    costPrice := changes.costPrice.getD row.costPrice
    mrp := changes.mrp.getD row.mrp
    status := changes.status.getD row.status }

/-- The amounts of a variant fit into their columns. -/
def VariantRow.fits (row : VariantRow) : Bool :=
  Products.fits (some row.price) ∧ Products.fits row.costPrice ∧ Products.fits row.mrp

/-- The fields an image is created with, besides what the storage answers. -/
structure ImageData where
  altText : Option String := none
  sortOrder : Option ℤ := none
  isPrimary : Option Bool := none
  deriving DecidableEq, Repr

/-- `validateAttributeValue`. -/
def validateAttributeValue (isNumber : String → Bool) (dataType : AttributeDataType)
    (value : String) : Bool :=
  match dataType with
  | .number => isNumber value
  | .boolean => value = "true" ∨ value = "false"
  | .option | .text => true

def AttributeDataType.name : AttributeDataType → String
  | .text => "TEXT"
  | .number => "NUMBER"
  | .boolean => "BOOLEAN"
  | .option => "OPTION"

def attributeNotFound (id : Uuid) : AppError :=
  ⟨"Attribute definition " ++ id ++ " not found", 404, "ATTRIBUTE_NOT_FOUND"⟩

def invalidAttributeValue (id : Uuid) (dataType : AttributeDataType) : AppError :=
  ⟨"Invalid value for attribute " ++ id ++ ": expected " ++ dataType.name, 400,
    "INVALID_ATTRIBUTE_VALUE"⟩

namespace Catalogue

variable (c : Catalogue)

/-- `product.findFirst({ where: { id, tenantId } })`. -/
def findProduct (id tenantId : Uuid) : Option ProductRow :=
  (c.products.lookup id).filter fun row => row.tenantId = tenantId

/-- `productVariant.findFirst({ where: { id, tenantId } })`. -/
def findVariant (id tenantId : Uuid) : Option VariantRow :=
  (c.variants.lookup id).filter fun row => row.tenantId = tenantId

/-- `productImage.findFirst({ where: { id, tenantId } })`. -/
def findImage (id tenantId : Uuid) : Option ImageRow :=
  (c.images.lookup id).filter fun row => row.tenantId = tenantId

/-- `category.findFirst({ where: { id, tenantId } })`. -/
def findCategory (id tenantId : Uuid) : Option CategoryRow :=
  (c.categories.lookup id).filter fun row => row.tenantId = tenantId

/-- Whether another variant of the tenant has the SKU. -/
def skuFree (id tenantId : Uuid) (sku : String) : Bool :=
  c.variants.entries.all fun e => e.2.tenantId = tenantId ∧ e.2.sku = sku → e.1 = id

/-- The catalogue without a variant, and without what belongs to it. -/
def withoutVariant (id : Uuid) : Catalogue :=
  { c with
    variants := c.variants.keep fun k _ => k ≠ id
    images := c.images.keep fun _ row => row.variantId ≠ some id
    variantAttributes := c.variantAttributes.filter (·.variantId ≠ id) }

/-- The variant is one of a product. -/
def variantOf (productId id : Uuid) : Bool :=
  (c.variants.lookup id).any fun row => row.productId = productId

/-- The catalogue without a product, and without what belongs to it or to its variants. -/
def withoutProduct (id : Uuid) : Catalogue :=
  { c with
    products := c.products.keep fun k _ => k ≠ id
    variants := c.variants.keep fun _ row => row.productId ≠ id
    images := c.images.keep fun _ row =>
      row.productId ≠ id ∧ ¬ row.variantId.any (c.variantOf id)
    productCategories := c.productCategories.filter (·.productId ≠ id)
    variantAttributes := c.variantAttributes.filter fun a => ¬ c.variantOf id a.variantId }

end Catalogue

namespace ProductRepository

/-- `create`, for a tenant that exists or not. -/
def create (id tenantId : Uuid) (data : ProductData) (now : ℤ) (tenantExists : Bool)
    (c : Catalogue) : Except Failure Catalogue :=
  if ¬ fits data.basePrice then .error (.database .checkViolation)
  else if (c.products.lookup id).isSome then .error (.database .uniqueViolation)
  else if ¬ tenantExists then .error (.database .foreignKeyViolation)
  else .ok { c with
    products := c.products.insert id
      { tenantId
        name := data.name
        description := data.description
        brand := data.brand
        status := data.status.getD .draft
        basePrice := data.basePrice
        hsnCode := data.hsnCode
        gstRatePercent := data.gstRatePercent
        gstTaxability := data.gstTaxability.getD .taxable
        unit := data.unit
        createdAt := now
        updatedAt := now } }

/-- `update`. -/
def update (id : Uuid) (changes : ProductChanges) (now : ℤ) (c : Catalogue) :
    Except Failure Catalogue :=
  match c.products.lookup id with
  | none => .error (.database .recordNotFound)
  | some row =>
    if fits changes.basePrice then
      .ok { c with products := c.products.insert id (changes.merge row now) }
    else .error (.database .checkViolation)

/-- `delete`. -/
def delete (id : Uuid) (c : Catalogue) : Except Failure Catalogue :=
  if (c.products.lookup id).isNone then .error (.database .recordNotFound)
  else .ok (c.withoutProduct id)

/-- The foreign keys of new links. -/
def checkLinks (productId tenantId : Uuid) (categoryIds : List Uuid) (c : Catalogue) :
    Except Failure Unit :=
  forM categoryIds fun categoryId => do
    checkOwner ((c.products.lookup productId).map (·.tenantId)) tenantId
    checkOwner ((c.categories.lookup categoryId).map (·.tenantId)) tenantId

/-- The links of a product; the first category is the primary one if none is given. -/
def linksTo (productId tenantId : Uuid) (categoryIds : List Uuid)
    (primaryCategoryId : Option Uuid) : List ProductCategory :=
  categoryIds.eraseDups.map fun categoryId =>
    ⟨tenantId, productId, categoryId,
      some categoryId = (primaryCategoryId <|> categoryIds.head?)⟩

/-- `setCategories`: the links of the product are replaced. -/
def setCategories (productId tenantId : Uuid) (categoryIds : List Uuid)
    (primaryCategoryId : Option Uuid) (c : Catalogue) : Except Failure Catalogue := do
  checkLinks productId tenantId categoryIds c
  .ok { c with
    productCategories := c.productCategories.filter
      (fun l => ¬ decide (l.productId = productId ∧ l.tenantId = tenantId)) ++
        linksTo productId tenantId categoryIds primaryCategoryId }

end ProductRepository

namespace VariantRepository

/-- `create`. -/
def create (id tenantId productId : Uuid) (data : VariantData) (now : ℤ) (c : Catalogue) :
    Except Failure Catalogue := do
  checkOwner ((c.products.lookup productId).map (·.tenantId)) tenantId
  let row : VariantRow :=
    { tenantId, productId
      sku := data.sku
      barcode := data.barcode
      price := data.price
      costPrice := data.costPrice
      mrp := data.mrp
      status := data.status.getD .draft
      createdAt := now }
  if ¬ row.fits then .error (.database .checkViolation)
  else if (c.variants.lookup id).isSome ∨ ¬ c.skuFree id tenantId data.sku then
    .error (.database .uniqueViolation)
  else .ok { c with variants := c.variants.insert id row }

/-- `update`. -/
def update (id : Uuid) (changes : VariantChanges) (c : Catalogue) : Except Failure Catalogue :=
  match c.variants.lookup id with
  | none => .error (.database .recordNotFound)
  | some row =>
    if ¬ (changes.merge row).fits then .error (.database .checkViolation)
    else if ¬ c.skuFree id row.tenantId (changes.merge row).sku then
      .error (.database .uniqueViolation)
    else .ok { c with variants := c.variants.insert id (changes.merge row) }

/-- `delete`. Order items keep a variant from being deleted. -/
def delete (id : Uuid) (ordered : Bool) (c : Catalogue) : Except Failure Catalogue :=
  if (c.variants.lookup id).isNone then .error (.database .recordNotFound)
  else if ordered then .error (.database .foreignKeyViolation)
  else .ok (c.withoutVariant id)

/-- The definitions of new attributes, and whether the values are of their types. -/
def checkValues (isNumber : String → Bool) (tenantId : Uuid) (attributes : List AttributeInput)
    (c : Catalogue) : Except Failure Unit :=
  forM attributes fun a =>
    match (c.attributeDefinitions.lookup a.attributeDefinitionId).filter
      (·.tenantId = tenantId) with
    | none => .error (.app (attributeNotFound a.attributeDefinitionId))
    | some d =>
      if validateAttributeValue isNumber d.dataType a.value then .ok ()
      else .error (.app (invalidAttributeValue a.attributeDefinitionId d.dataType))

/-- `setAttributes`: the attributes of the variant are replaced. -/
def setAttributes (isNumber : String → Bool) (variantId tenantId : Uuid)
    (attributes : List AttributeInput) (c : Catalogue) : Except Failure Catalogue := do
  checkValues isNumber tenantId attributes c
  forM attributes fun _ => checkOwner ((c.variants.lookup variantId).map (·.tenantId)) tenantId
  .ok { c with
    variantAttributes := c.variantAttributes.filter
      (fun a => ¬ decide (a.variantId = variantId ∧ a.tenantId = tenantId)) ++
        attributes.map fun a =>
          ⟨a.id, tenantId, variantId, a.attributeDefinitionId, a.value⟩ }

end VariantRepository

namespace ProductImageRepository

/-- `productImage.updateMany`: the images of a product, or of a variant, are not primary. -/
def clearPrimary (productId tenantId : Uuid) (variantId : Option Uuid) (c : Catalogue) :
    Catalogue :=
  { c with
    images := c.images.mapRows fun _ row =>
      if row.productId = productId ∧ row.tenantId = tenantId ∧ row.variantId = variantId then
        { row with isPrimary := false }
      else row }

/-- The foreign key of a variant, if there is one. -/
def checkVariant (tenantId : Uuid) (variantId : Option Uuid) (c : Catalogue) :
    Except Failure Unit :=
  match variantId with
  | some v => checkOwner ((c.variants.lookup v).map (·.tenantId)) tenantId
  | none => .ok ()

/-- `create`. -/
def create (id tenantId productId : Uuid) (variantId : Option Uuid) (storageKey url : String)
    (data : ImageData) (c : Catalogue) : Except Failure Catalogue := do
  checkOwner ((c.products.lookup productId).map (·.tenantId)) tenantId
  checkVariant tenantId variantId c
  if (c.images.lookup id).isSome then .error (.database .uniqueViolation)
  else .ok { c with
    images := c.images.insert id
      { tenantId, productId, variantId, storageKey
        url := some url
        altText := data.altText
        sortOrder := data.sortOrder.getD 0
        isPrimary := data.isPrimary.getD false } }

/-- `productImage.update`. -/
def updateRow (id : Uuid) (change : ImageRow → ImageRow) (c : Catalogue) :
    Except Failure Catalogue :=
  match c.images.lookup id with
  | none => .error (.database .recordNotFound)
  | some row => .ok { c with images := c.images.insert id (change row) }

/-- `setPrimary`. -/
def setPrimary (id tenantId productId : Uuid) (variantId : Option Uuid) (c : Catalogue) :
    Except Failure Catalogue :=
  updateRow id (fun row => { row with isPrimary := true })
    (clearPrimary productId tenantId variantId c)

/-- `update`: the given fields are set. -/
def update (id : Uuid) (data : ImageData) : Catalogue → Except Failure Catalogue :=
  updateRow id fun row =>
    { row with
      altText := data.altText <|> row.altText
      sortOrder := data.sortOrder.getD row.sortOrder
      isPrimary := data.isPrimary.getD row.isPrimary }

/-- `delete`. -/
def delete (id : Uuid) (c : Catalogue) : Except Failure Catalogue :=
  if (c.images.lookup id).isNone then .error (.database .recordNotFound)
  else .ok { c with images := c.images.keep fun k _ => k ≠ id }

end ProductImageRepository

/-- A writing statement of the catalogue. -/
def inCatalogue (f : Catalogue → Except Failure Catalogue) : Service Unit :=
  inDb fun db => (f db.catalogue).map fun catalogue => { db with catalogue }

/-! ### `ProductService` -/

def productNotFound : AppError := ⟨"Product not found", 404, "PRODUCT_NOT_FOUND"⟩

def categoryNotFound (id : Uuid) : AppError :=
  ⟨"Category " ++ id ++ " not found", 404, "CATEGORY_NOT_FOUND"⟩

def productHasVariants : AppError :=
  ⟨"Cannot delete product with existing variants. Delete variants first.", 409,
    "PRODUCT_HAS_VARIANTS"⟩

def planLimitReached (plan : String) (limit : ℕ) : AppError :=
  ⟨"Your " ++ plan ++ " plan allows " ++ toString limit ++ " products", 403, "PLAN_LIMIT_REACHED"⟩

/-- The plan of a tenant, if it limits the products. -/
def productLimit (db : Tenants.Db) (tenantId : Uuid) : Option (String × ℕ) := do
  let tenant ← db.tenants.lookup tenantId
  let plan ← db.plans.lookup tenant.plan
  let limit ← plan.products
  return (plan.name, limit)

/-- `COUNTERS.products`. -/
def productCount (c : Catalogue) (tenantId : Uuid) : ℕ :=
  (c.products.entries.filter fun e => e.2.tenantId = tenantId ∧ e.2.deletedAt = none).length

/-- `assertWithinPlan(tenantId, 'products')`. -/
def assertWithinPlan (tenantId : Uuid) : Service Unit :=
  check fun s => match productLimit s.db tenantId with
    | none => .ok ()
    | some (plan, limit) =>
      if limit ≤ productCount s.db.catalogue tenantId then
        .error (.app (planLimitReached plan limit))
      else .ok ()

/-- The categories are those of the tenant. -/
def checkCategories (tenantId : Uuid) (categoryIds : List Uuid) : Service Unit :=
  check fun s => forM categoryIds fun catId =>
    if (s.db.catalogue.findCategory catId tenantId).isSome then .ok ()
    else .error (.app (categoryNotFound catId))

namespace ProductService

/-- `invalidateProductListCache`. -/
def invalidateProductListCache (tenantId : Uuid) : Service Unit :=
  Autocommit.update (Tenants.CacheService.delProductLists tenantId)

/-- `create`. -/
def create (tenantId : Uuid) (data : ProductData) (id : Uuid) (now : ℤ) : Service Unit := do
  assertWithinPlan tenantId
  checkCategories tenantId data.categories
  let tenantExists ← find fun s => (s.db.tenants.lookup tenantId).isSome
  inCatalogue (ProductRepository.create id tenantId data now tenantExists)
  onlyIf (data.categories ≠ []) <|
    inCatalogue (ProductRepository.setCategories id tenantId data.categories
      data.primaryCategoryId)
  invalidateProductListCache tenantId

/-- `getById`. -/
def getById (id tenantId : Uuid) : Service ProductRow := do
  let product ← find fun s => s.db.catalogue.findProduct id tenantId
  orFail product (.app productNotFound)

/-- `list`. `hash` is the digest of the text that `JSON.stringify` makes of the payload, cut to
sixteen digits. -/
def list (texts : Texts) (hash : ListPayload → String) (tenantId : Uuid)
    (options : ListOptions) : Service ProductPage := do
  let key := (tenantId, hash options.payload)
  let cached ← find fun s => s.cache.productLists.lookup key
  match cached with
  | some page => return page
  | none =>
    let result ← find fun s => ProductRepository.list texts s.db.catalogue tenantId options
    Autocommit.update (Tenants.CacheService.setProductList key result)
    return result

/-- `update`. The categories are set before the fields. -/
def update (id tenantId : Uuid) (categories : List Uuid) (primaryCategoryId : Option Uuid)
    (changes : ProductChanges) (now : ℤ) : Service Unit := do
  let _ ← getById id tenantId
  onlyIf (categories ≠ []) do
    checkCategories tenantId categories
    inCatalogue (ProductRepository.setCategories id tenantId categories primaryCategoryId)
  onlyIf (changes ≠ {}) <|
    inCatalogue (ProductRepository.update id changes now)
  invalidateProductListCache tenantId

/-- `delete`. -/
def delete (id tenantId : Uuid) : Service Unit := do
  let _ ← getById id tenantId
  let variantCount ← find fun s => (s.db.catalogue.variants.entries.filter fun e =>
    e.2.productId = id ∧ e.2.tenantId = tenantId).length
  demand (variantCount = 0) (.app productHasVariants)
  inCatalogue (ProductRepository.delete id)
  invalidateProductListCache tenantId

/-- `setCategories`. -/
def setCategories (productId tenantId : Uuid) (categoryIds : List Uuid)
    (primaryCategoryId : Option Uuid) : Service Unit := do
  let _ ← getById productId tenantId
  checkCategories tenantId categoryIds
  inCatalogue (ProductRepository.setCategories productId tenantId categoryIds primaryCategoryId)
  invalidateProductListCache tenantId

end ProductService

/-! ### `VariantService` -/

def skuExists : AppError := ⟨"SKU already exists", 409, "SKU_EXISTS"⟩

def barcodeExists : AppError := ⟨"Barcode already exists", 409, "BARCODE_EXISTS"⟩

def variantNotFound : AppError := ⟨"Variant not found", 404, "VARIANT_NOT_FOUND"⟩

def variantOfOtherProduct : AppError :=
  ⟨"Variant not found or does not belong to product", 404, "VARIANT_NOT_FOUND"⟩

namespace VariantService

/-- Whether a variant of the tenant has the SKU. -/
def skuTaken (tenantId : Uuid) (sku : Option String) (s : Tenants.Store) : Bool :=
  sku.any fun sku => s.db.catalogue.variants.entries.any fun e =>
    e.2.tenantId = tenantId ∧ e.2.sku = sku

/-- Whether a variant of the tenant has the barcode. -/
def barcodeTaken (tenantId : Uuid) (barcode : Option String) (s : Tenants.Store) : Bool :=
  barcode.any fun barcode => s.db.catalogue.variants.entries.any fun e =>
    e.2.tenantId = tenantId ∧ e.2.barcode = some barcode

/-- `getById`. -/
def getById (variantId tenantId : Uuid) (productId : Option Uuid) : Service VariantRow := do
  let found ← find fun s => s.db.catalogue.findVariant variantId tenantId
  let variant ← orFail found (.app variantNotFound)
  demand ((truthy productId).all fun p => variant.productId = p) (.app variantOfOtherProduct)
  return variant

/-- `create`. -/
def create (isNumber : String → Bool) (productId tenantId : Uuid) (data : VariantData)
    (id : Uuid) (now : ℤ) : Service Unit := do
  let product ← find fun s => s.db.catalogue.findProduct productId tenantId
  let _ ← orFail product (.app productNotFound)
  let existingSku ← find (skuTaken tenantId (some data.sku))
  demand (existingSku = false) (.app skuExists)
  let existingBarcode ← find (barcodeTaken tenantId (truthy data.barcode))
  demand (existingBarcode = false) (.app barcodeExists)
  inCatalogue (VariantRepository.create id tenantId productId data now)
  onlyIf (data.attributes ≠ []) <|
    inCatalogue (VariantRepository.setAttributes isNumber id tenantId data.attributes)

/-- `update`. The attributes are set before the fields. -/
def update (isNumber : String → Bool) (variantId tenantId : Uuid) (changes : VariantChanges)
    (attributes : Option (List AttributeInput)) (productId : Option Uuid) : Service Unit := do
  let variant ← getById variantId tenantId productId
  let existingSku ← find (skuTaken tenantId ((truthy changes.sku).filter (· ≠ variant.sku)))
  demand (existingSku = false) (.app skuExists)
  let existingBarcode ← find (barcodeTaken tenantId
    ((truthy changes.barcode.join).filter fun b => some b ≠ variant.barcode))
  demand (existingBarcode = false) (.app barcodeExists)
  forSome attributes fun attributes =>
    inCatalogue (VariantRepository.setAttributes isNumber variantId tenantId attributes)
  onlyIf (changes ≠ {}) <|
    inCatalogue (VariantRepository.update variantId changes)

/-- `delete`. -/
def delete (variantId tenantId : Uuid) (productId : Option Uuid) (ordered : Bool) :
    Service Unit := do
  let _ ← getById variantId tenantId productId
  inCatalogue (VariantRepository.delete variantId ordered)

/-- `setAttributes`. -/
def setAttributes (isNumber : String → Bool) (variantId tenantId : Uuid)
    (attributes : List AttributeInput) (productId : Option Uuid) : Service Unit := do
  let _ ← getById variantId tenantId productId
  inCatalogue (VariantRepository.setAttributes isNumber variantId tenantId attributes)

end VariantService

/-! ### `ProductImageService` -/

def imageNotFound : AppError := ⟨"Image not found", 404, "IMAGE_NOT_FOUND"⟩

namespace ProductImageService

/-- The image of a product or of a variant, once these are found. `upload` is what the checks of
the file and the storage answer. -/
def addImage (productId tenantId : Uuid) (variantId : Option Uuid)
    (upload : Except Failure (String × String)) (data : ImageData) (id : Uuid) :
    Service Unit := do
  check fun _ => upload.map fun _ => ()
  onlyIf (data.isPrimary = some true) <|
    inCatalogue fun c => .ok
      (ProductImageRepository.clearPrimary productId tenantId variantId c)
  inCatalogue fun c => upload.bind fun (storageKey, url) =>
    ProductImageRepository.create id tenantId productId variantId storageKey url data c

/-- `createProductImage`. -/
def createProductImage (productId tenantId : Uuid) (upload : Except Failure (String × String))
    (data : ImageData) (id : Uuid) : Service Unit := do
  let product ← find fun s => s.db.catalogue.findProduct productId tenantId
  let _ ← orFail product (.app productNotFound)
  addImage productId tenantId none upload data id

/-- `createVariantImage`. -/
def createVariantImage (productId variantId tenantId : Uuid)
    (upload : Except Failure (String × String)) (data : ImageData) (id : Uuid) :
    Service Unit := do
  let product ← find fun s => s.db.catalogue.findProduct productId tenantId
  let _ ← orFail product (.app productNotFound)
  let variant ← find fun s => (s.db.catalogue.findVariant variantId tenantId).filter
    (·.productId = productId)
  let _ ← orFail variant (.app variantOfOtherProduct)
  addImage productId tenantId (some variantId) upload data id

/-- `getImage`. -/
def getImage (id tenantId : Uuid) (productId : Option Uuid) : Service ImageRow := do
  let found ← find fun s => s.db.catalogue.findImage id tenantId
  let image ← orFail found (.app imageNotFound)
  demand ((truthy productId).all fun p => image.productId = p) (.app imageNotFound)
  return image

/-- `updateImage`. -/
def updateImage (id tenantId : Uuid) (data : ImageData) (productId : Option Uuid) :
    Service Unit := do
  let image ← getImage id tenantId productId
  onlyIf (data.isPrimary = some true) <|
    inCatalogue (ProductImageRepository.setPrimary id tenantId image.productId image.variantId)
  inCatalogue (ProductImageRepository.update id data)

/-- `deleteImage`. The file goes first. -/
def deleteImage (id tenantId : Uuid) (productId : Option Uuid)
    (fileDeleted : Except Failure Unit) : Service Unit := do
  let _ ← getImage id tenantId productId
  check fun _ => fileDeleted
  inCatalogue (ProductImageRepository.delete id)

end ProductImageService

end PulseOps.Products
