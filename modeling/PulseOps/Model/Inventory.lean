import PulseOps.Model.Database

/-!
# Inventory adjustments, transfers and warehouse deletion

`inventory/inventory.service.js` and the deletion of `warehouses.repository.js`. The
quantity of a variant in a warehouse is stored twice, in `inventory` and in
`warehouse_inventory`, and every change of it is written to the movement journal.
-/

set_option autoImplicit false

open ReadCommitted Program

namespace PulseOps

/-- `productVariant.findFirst({ where: { id, tenantId } })`. -/
def findVariant (id tenantId : Uuid) (s : Db) : Option ProductVariant :=
  (s.productVariants.lookup id).filter (·.tenantId = tenantId)

/-- `warehouse.findFirst({ where: { id, tenantId } })`. -/
def findWarehouse (id tenantId : Uuid) (s : Db) : Option Warehouse :=
  (s.warehouses.lookup id).filter (·.tenantId = tenantId)

/-- Write the quantity of an existing stock row to both tables. -/
def updateStock (k : StockKey) (quantity : ℤ) : Sql Unit := do
  perform (Statement.updateInventory k quantity)
  perform (Statement.upsertWarehouseInventory k quantity)

/-- Create the stock row, in both tables. -/
def createStock (k : StockKey) (quantity : ℤ) : Sql Unit := do
  perform (Statement.insertInventory k quantity)
  perform (Statement.upsertWarehouseInventory k quantity)

/-- `inventoryMovement.create`. -/
def recordMovement (m : InventoryMovement) : Sql Unit :=
  perform (Statement.insertInventoryMovement m)

namespace InventoryService

/-- `body.variantId || body.productVariantId`. -/
def resolveVariantId (variantId productVariantId : Option Uuid) : Option Uuid :=
  truthy variantId <|> truthy productVariantId

structure AdjustBody where
  variantId : Option Uuid
  productVariantId : Option Uuid := none
  warehouseId : Uuid
  quantityChanged : ℤ
  reason : Option String := none
  referenceType : Option String := none
  referenceId : Option String := none

structure AdjustResult where
  quantityBefore : ℤ
  quantityAfter : ℤ
  movement : InventoryMovement

/-- The transaction of `adjust`, on the row `k`. -/
def adjustRow (userId : Uuid) (k : StockKey) (body : AdjustBody) : Sql AdjustResult := do
  let locked ← lockAndRead (.inventory k) fun s => s.inventory.lookup k
  let before := locked.getD 0
  let after := before + body.quantityChanged
  ensure (0 ≤ after)
    ("Insufficient stock: current " ++ toString before ++ ", change " ++
      toString body.quantityChanged) 409 "INSUFFICIENT_STOCK"
  (if locked.isSome then updateStock k after else createStock k after)
  let movement : InventoryMovement :=
    { tenantId := k.tenantId
      productVariantId := k.productVariantId
      warehouseId := k.warehouseId
      type := .adjustment
      quantityBefore := before
      quantityChanged := body.quantityChanged
      quantityAfter := after
      reason := some ((truthy body.reason).getD "ADJUSTMENT")
      referenceType := truthy body.referenceType
      referenceId := truthy body.referenceId
      createdBy := some userId }
  recordMovement movement
  return ⟨before, after, movement⟩

/-- Change the quantity of one variant in one warehouse. -/
def adjust (tenantId userId : Uuid) (body : AdjustBody) : Sql AdjustResult := do
  let variantId ← orThrow (resolveVariantId body.variantId body.productVariantId)
    "variantId and warehouseId are required" 400 "VALIDATION_ERROR"
  ensure (body.warehouseId ≠ "") "variantId and warehouseId are required" 400
    "VALIDATION_ERROR"
  ensure (body.quantityChanged ≠ 0) "quantityChanged must be non-zero" 400
    "INVALID_QUANTITY"
  let variant ← query (findVariant variantId tenantId)
  ensure variant.isSome "Variant not found" 404 "VARIANT_NOT_FOUND"
  let warehouse ← query (findWarehouse body.warehouseId tenantId)
  ensure warehouse.isSome "Warehouse not found" 404 "WAREHOUSE_NOT_FOUND"
  adjustRow userId ⟨tenantId, variantId, body.warehouseId⟩ body

structure TransferBody where
  variantId : Option Uuid
  productVariantId : Option Uuid := none
  sourceWarehouseId : Option Uuid
  warehouseId : Option Uuid := none
  destinationWarehouseId : Option Uuid
  destWarehouseId : Option Uuid := none
  quantity : ℤ
  reason : Option String := none
  referenceType : Option String := none
  referenceId : Option String := none
  /-- `${Date.now()}-${Math.random()…}`, drawn when there is no `referenceId` -/
  drawnReferenceId : String := ""

structure TransferResult where
  sourceBefore : ℤ
  sourceAfter : ℤ
  destBefore : ℤ
  destAfter : ℤ

/-- One of the two movements of a transfer. -/
def transferMovement (userId : Uuid) (k : StockKey) (before changed after : ℤ)
    (body : TransferBody) : InventoryMovement :=
  { tenantId := k.tenantId
    productVariantId := k.productVariantId
    warehouseId := k.warehouseId
    type := .transfer
    quantityBefore := before
    quantityChanged := changed
    quantityAfter := after
    reason := some ((truthy body.reason).getD "TRANSFER")
    referenceType := some ((truthy body.referenceType).getD "TRANSFER")
    referenceId := some ((truthy body.referenceId).getD body.drawnReferenceId)
    createdBy := some userId }

/-- The transaction of `transfer`, from the row `source` to the row `dest`. -/
def transferRows (userId : Uuid) (source dest : StockKey) (body : TransferBody) :
    Sql TransferResult := do
  -- `[sourceWarehouseId, destinationWarehouseId].sort()`
  let idsSorted := if source.warehouseId ≤ dest.warehouseId then [source, dest]
    else [dest, source]
  forM idsSorted fun k => lockRow (.inventory k)
  let sourceRows ← query fun s => s.inventory.lookup source
  let destRows ← query fun s => s.inventory.lookup dest
  let sourceBefore := sourceRows.getD 0
  let destBefore := destRows.getD 0
  ensure (body.quantity ≤ sourceBefore)
    ("Insufficient stock in source warehouse: current " ++ toString sourceBefore ++
      ", required " ++ toString body.quantity) 409 "INSUFFICIENT_STOCK"
  let sourceAfter := sourceBefore - body.quantity
  let destAfter := destBefore + body.quantity
  (if sourceRows.isSome then updateStock source sourceAfter
    else perform (Statement.insertInventory source sourceAfter))
  (if destRows.isSome then updateStock dest destAfter else createStock dest destAfter)
  recordMovement (transferMovement userId source sourceBefore (-body.quantity) sourceAfter body)
  recordMovement (transferMovement userId dest destBefore body.quantity destAfter body)
  return ⟨sourceBefore, sourceAfter, destBefore, destAfter⟩

/-- Move stock of one variant from one warehouse to another. -/
def transfer (tenantId userId : Uuid) (body : TransferBody) : Sql TransferResult := do
  let required := "variantId, sourceWarehouseId and destinationWarehouseId are required"
  let variantId ← orThrow (resolveVariantId body.variantId body.productVariantId)
    required 400 "VALIDATION_ERROR"
  let sourceWarehouseId ← orThrow (truthy body.sourceWarehouseId <|> truthy body.warehouseId)
    required 400 "VALIDATION_ERROR"
  let destinationWarehouseId ← orThrow
    (truthy body.destinationWarehouseId <|> truthy body.destWarehouseId)
    required 400 "VALIDATION_ERROR"
  ensure (sourceWarehouseId ≠ destinationWarehouseId)
    "Source and destination warehouses must be different" 400 "SAME_WAREHOUSE"
  ensure (0 < body.quantity) "Quantity must be positive" 400 "INVALID_QUANTITY"
  let variant ← query (findVariant variantId tenantId)
  ensure variant.isSome "Variant not found" 404 "VARIANT_NOT_FOUND"
  let sourceWarehouse ← query (findWarehouse sourceWarehouseId tenantId)
  ensure sourceWarehouse.isSome "Source warehouse not found" 404 "WAREHOUSE_NOT_FOUND"
  let destWarehouse ← query (findWarehouse destinationWarehouseId tenantId)
  ensure destWarehouse.isSome "Destination warehouse not found" 404 "WAREHOUSE_NOT_FOUND"
  transferRows userId ⟨tenantId, variantId, sourceWarehouseId⟩
    ⟨tenantId, variantId, destinationWarehouseId⟩ body

end InventoryService

namespace WarehouseService

/-- Delete a warehouse, and with it its stock rows and its movements. -/
def delete (id tenantId : Uuid) : Sql Unit := do
  let warehouse ← query (findWarehouse id tenantId)
  ensure warehouse.isSome "Warehouse not found" 404 "WAREHOUSE_NOT_FOUND"
  perform (Statement.deleteWarehouse id)

end WarehouseService

end PulseOps
