import PulseOps.Model.Rows
import PulseOps.ReadCommitted.RelyGuarantee

/-!
# The database of the sales core

The tables, the edits the services make to them, the rows and unique index entries that
can be locked, and the calls to the payment providers: an instance of
`ReadCommitted.Database`. Below it come the writing statements with the constraints the
migrations put on them.

Two things are left out on purpose. The `KEY SHARE` lock a foreign key takes on the
parent row only makes statements wait longer. The `int4` range of a quantity only makes
statements fail, like any other lost request.
-/

set_option autoImplicit false

open ReadCommitted

namespace PulseOps

/-- The tables of the sales core. Tables that are only ever appended to are lists, oldest
row first. -/
structure Db where
  plans : Table String Plan := ∅
  tenants : Table Uuid Tenant := ∅
  tenantSettings : Table Uuid TenantSettings := ∅
  paymentGateways : Table Uuid PaymentGateway := ∅
  customers : Table Uuid Customer := ∅
  customerAddresses : Table Uuid CustomerAddress := ∅
  productVariants : Table Uuid ProductVariant := ∅
  warehouses : Table Uuid Warehouse := ∅
  inventory : Table StockKey ℤ := ∅
  warehouseInventory : Table StockKey ℤ := ∅
  inventoryMovements : List InventoryMovement := []
  invoiceSequences : Table (Uuid × String) ℕ := ∅
  orders : Table Uuid Order := ∅
  orderItems : List OrderItem := []
  orderStatusHistory : List OrderStatusHistory := []
  payments : Table Uuid Payment := ∅
  paymentTransactions : List PaymentTransaction := []
  refunds : List Refund := []
  paymentWebhookEvents : List PaymentWebhookEvent := []
  cashRegisters : Table Uuid CashRegister := ∅
  cashSessions : Table Uuid CashSession := ∅
  cashMovements : List CashMovement := []

/-- What one writing statement does. -/
inductive Edit where
  /-- an `UPDATE` that matched no row -/
  | nothing
  | tenantSettingsUpsert (tenantId : Uuid) (row : TenantSettings)
  | customerInsert (id : Uuid) (row : Customer)
  | warehouseDelete (id : Uuid)
  | inventoryInsert (k : StockKey) (quantity : ℤ)
  | inventoryUpdate (k : StockKey) (quantity : ℤ)
  | warehouseInventoryInsert (k : StockKey) (quantity : ℤ)
  | warehouseInventoryUpsert (k : StockKey) (quantity : ℤ)
  | inventoryMovementInsert (row : InventoryMovement)
  | invoiceSequenceUpsert (tenantId : Uuid) (financialYear : String) (lastNumber : ℕ)
  | orderInsert (id : Uuid) (row : Order)
  | orderItemInsert (row : OrderItem)
  | orderUpdate (id : Uuid) (row : Order)
  | orderStatusHistoryInsert (row : OrderStatusHistory)
  | paymentInsert (id : Uuid) (row : Payment)
  | paymentUpdate (id : Uuid) (row : Payment)
  | paymentTransactionInsert (row : PaymentTransaction)
  | refundInsert (row : Refund)
  | paymentWebhookEventInsert (row : PaymentWebhookEvent)
  | cashRegisterInsert (id : Uuid) (row : CashRegister)
  | cashSessionInsert (id : Uuid) (row : CashSession)
  | cashSessionUpdate (id : Uuid) (row : CashSession)
  | cashMovementInsert (row : CashMovement)
  deriving DecidableEq

/-- Lockable rows and unique index entries. -/
inductive Key where
  | tenantSettings (tenantId : Uuid)
  | customerEmail (tenantId : Uuid) (email : String)
  | warehouse (id : Uuid)
  | inventory (k : StockKey)
  | warehouseInventory (k : StockKey)
  | invoiceSequence (tenantId : Uuid) (financialYear : String)
  | order (id : Uuid)
  | invoiceNumber (tenantId : Uuid) (number : String)
  | payment (id : Uuid)
  | providerPaymentId (tenantId : Uuid) (id : String)
  | providerTransactionId (tenantId : Uuid) (id : String)
  | providerRefundId (tenantId : Uuid) (id : String)
  | webhookEvent (eventId : String)
  | registerName (tenantId : Uuid) (name : String)
  | cashSession (id : Uuid)
  | openCashSession (registerId : Uuid)
  deriving DecidableEq, Repr

/-- A payment as Razorpay reports it on a QR code. -/
structure QrPayment where
  id : String
  captured : Bool
  amount : ℤ
  vpa : Option String := none
  deriving DecidableEq, Repr

/-- Calls to the payment providers. -/
inductive Call where
  | charge (amount : Cents) (currency : String) (orderId tenantId : Uuid)
      (idempotencyKey : String)
  | createOrder (keyId : String) (amountMinor : ℤ) (currency : String) (receipt : String)
      (tenantId orderId : Uuid)
  /-- the last two are the notes, which name our own payment -/
  | refundPayment (keyId : String) (razorpayPaymentId : String) (amountMinor : ℤ)
      (paymentId : Uuid) (reason : Option String)
  | qrPayments (keyId : String) (qrId : String)
  deriving DecidableEq, Repr

/-- What comes back. `unreadable` is a request that was carried out there and answered 200,
with a body that could not be read; `lost` is one that was carried out there but whose
answer never arrived here (a timeout). -/
inductive Reply where
  | charged (providerPaymentId : Option String)
  | orderCreated (id : String)
  | refundAccepted (id : String)
  | qrReceived (items : List QrPayment)
  | rejected (e : AppError)
  | unreadable (id : String)
  | lost (id : String)
  deriving DecidableEq, Repr

namespace Db

/-- Deleting a warehouse deletes its stock rows and its movements (`ON DELETE CASCADE`). -/
def deleteWarehouse (s : Db) (id : Uuid) : Db :=
  { s with
    warehouses := s.warehouses.erase id
    inventory := (s.inventory.keys.filter (·.warehouseId = id)).foldl
      (fun t k => t.erase k) s.inventory
    warehouseInventory := (s.warehouseInventory.keys.filter (·.warehouseId = id)).foldl
      (fun t k => t.erase k) s.warehouseInventory
    inventoryMovements := s.inventoryMovements.filter (·.warehouseId ≠ id) }

/-- The state after one edit. -/
@[simp] def apply (s : Db) : Edit → Db
  | .nothing => s
  | .tenantSettingsUpsert tenantId row =>
    { s with tenantSettings := s.tenantSettings.insert tenantId row }
  | .customerInsert id row => { s with customers := s.customers.insert id row }
  | .warehouseDelete id => s.deleteWarehouse id
  | .inventoryInsert k q => { s with inventory := s.inventory.insert k q }
  | .inventoryUpdate k q => { s with inventory := s.inventory.insert k q }
  | .warehouseInventoryInsert k q =>
    { s with warehouseInventory := s.warehouseInventory.insert k q }
  | .warehouseInventoryUpsert k q =>
    { s with warehouseInventory := s.warehouseInventory.insert k q }
  | .inventoryMovementInsert m =>
    { s with inventoryMovements := s.inventoryMovements ++ [m] }
  | .invoiceSequenceUpsert tenantId fy n =>
    { s with invoiceSequences := s.invoiceSequences.insert (tenantId, fy) n }
  | .orderInsert id row => { s with orders := s.orders.insert id row }
  | .orderItemInsert row => { s with orderItems := s.orderItems ++ [row] }
  | .orderUpdate id row => { s with orders := s.orders.insert id row }
  | .orderStatusHistoryInsert row =>
    { s with orderStatusHistory := s.orderStatusHistory ++ [row] }
  | .paymentInsert id row => { s with payments := s.payments.insert id row }
  | .paymentUpdate id row => { s with payments := s.payments.insert id row }
  | .paymentTransactionInsert row =>
    { s with paymentTransactions := s.paymentTransactions ++ [row] }
  | .refundInsert row => { s with refunds := s.refunds ++ [row] }
  | .paymentWebhookEventInsert row =>
    { s with paymentWebhookEvents := s.paymentWebhookEvents ++ [row] }
  | .cashRegisterInsert id row => { s with cashRegisters := s.cashRegisters.insert id row }
  | .cashSessionInsert id row => { s with cashSessions := s.cashSessions.insert id row }
  | .cashSessionUpdate id row => { s with cashSessions := s.cashSessions.insert id row }
  | .cashMovementInsert row => { s with cashMovements := s.cashMovements ++ [row] }

/-- Whether a lockable row exists. -/
def present (s : Db) : Key → Bool
  | .inventory k => (s.inventory.lookup k).isSome
  | .warehouseInventory k => (s.warehouseInventory.lookup k).isSome
  | .invoiceSequence tenantId fy => (s.invoiceSequences.lookup (tenantId, fy)).isSome
  | .order id => (s.orders.lookup id).isSome
  | .payment id => (s.payments.lookup id).isSome
  | .cashSession id => (s.cashSessions.lookup id).isSome
  | .warehouse id => (s.warehouses.lookup id).isSome
  | _ => false

end Db

/-- The entry of a shift in the index that allows one open shift a register. -/
def CashSession.openKeys (row : CashSession) : List Key :=
  if row.status = .open then [.openCashSession row.registerId] else []

@[simp] theorem CashSession.mem_openKeys {row : CashSession} {k : Key} :
    k ∈ row.openKeys ↔ row.status = .open ∧ k = .openCashSession row.registerId := by
  unfold openKeys
  split_ifs with hopen <;> simp [hopen]

/-- The rows and unique index entries an edit takes. -/
def Edit.footprint : Edit → List Key
  | .nothing => []
  | .tenantSettingsUpsert tenantId _ => [.tenantSettings tenantId]
  | .customerInsert _ row => [.customerEmail row.tenantId row.email]
  | .warehouseDelete id => [.warehouse id]
  | .inventoryInsert k _ => [.inventory k]
  | .inventoryUpdate k _ => [.inventory k]
  | .warehouseInventoryInsert k _ => [.warehouseInventory k]
  | .warehouseInventoryUpsert k _ => [.warehouseInventory k]
  | .inventoryMovementInsert _ => []
  | .invoiceSequenceUpsert tenantId fy _ => [.invoiceSequence tenantId fy]
  | .orderInsert id row => [.order id, .invoiceNumber row.tenantId row.invoiceNumber]
  | .orderItemInsert _ => []
  | .orderUpdate id _ => [.order id]
  | .orderStatusHistoryInsert _ => []
  | .paymentInsert id row =>
    .payment id :: row.providerPaymentId.toList.map (.providerPaymentId row.tenantId)
  | .paymentUpdate id row =>
    .payment id :: row.providerPaymentId.toList.map (.providerPaymentId row.tenantId)
  | .paymentTransactionInsert row =>
    row.providerTransactionId.toList.map (.providerTransactionId row.tenantId)
  | .refundInsert row => row.providerRefundId.toList.map (.providerRefundId row.tenantId)
  | .paymentWebhookEventInsert row => [.webhookEvent row.eventId]
  | .cashRegisterInsert _ row => [.registerName row.tenantId row.name]
  | .cashSessionInsert id row => .cashSession id :: row.openKeys
  | .cashSessionUpdate id row => .cashSession id :: row.openKeys
  | .cashMovementInsert _ => []

/-- The sales core as a database. -/
def sales : Database Db Key Edit Call Reply Failure where
  apply := Db.apply
  footprint := Edit.footprint
  present := Db.present

/-- Programs over the sales database. -/
abbrev Sql (α : Type) := Program sales α

@[simp] theorem sales_apply (s : Db) (e : Edit) : sales.apply s e = s.apply e := rfl

@[simp] theorem sales_present (s : Db) (k : Key) : sales.present s k = s.present k := rfl

@[simp] theorem sales_footprint (e : Edit) : sales.footprint e = e.footprint := rfl

/-- Stop with an `AppError` unless `P` holds. -/
def ensure (P : Prop) [Decidable P] (message : String) (statusCode : ℕ) (code : String) :
    Sql Unit :=
  .require P (.app ⟨message, statusCode, code⟩)

/-- The value, or stop with an `AppError`. -/
def orThrow {α : Type} (x : Option α) (message : String) (statusCode : ℕ) (code : String) :
    Sql α :=
  .orRaise x (.app ⟨message, statusCode, code⟩)

/-! ### Writing statements and their constraints -/

namespace Statement

/-- `inventory.create`. -/
def insertInventory (k : StockKey) (quantity : ℤ) (s : Db) : Except Failure Edit :=
  if quantity < 0 then .error (.database .checkViolation)
  else if (s.inventory.lookup k).isSome then .error (.database .uniqueViolation)
  else .ok (.inventoryInsert k quantity)

/-- `UPDATE "inventory" SET "quantity" = …`. -/
def updateInventory (k : StockKey) (quantity : ℤ) (s : Db) : Except Failure Edit :=
  if (s.inventory.lookup k).isSome then
    if quantity < 0 then .error (.database .checkViolation)
    else .ok (.inventoryUpdate k quantity)
  else .ok .nothing

/-- `warehouseInventory.create`. -/
def insertWarehouseInventory (k : StockKey) (quantity : ℤ) (s : Db) : Except Failure Edit :=
  if quantity < 0 then .error (.database .checkViolation)
  else if (s.warehouseInventory.lookup k).isSome then .error (.database .uniqueViolation)
  else .ok (.warehouseInventoryInsert k quantity)

/-- `INSERT INTO "warehouse_inventory" … ON CONFLICT … DO UPDATE`. -/
def upsertWarehouseInventory (k : StockKey) (quantity : ℤ) (_ : Db) : Except Failure Edit :=
  if quantity < 0 then .error (.database .checkViolation)
  else .ok (.warehouseInventoryUpsert k quantity)

/-- `inventoryMovement.create`: the quantities must add up and the stock row must exist. -/
def insertInventoryMovement (m : InventoryMovement) (s : Db) : Except Failure Edit :=
  if m.quantityAfter ≠ m.quantityBefore + m.quantityChanged then
    .error (.database .checkViolation)
  else if (s.inventory.lookup m.stockKey).isNone then .error (.database .foreignKeyViolation)
  else .ok (.inventoryMovementInsert m)

/-- `order.create`: a fresh id and a fresh invoice number. -/
def insertOrder (id : Uuid) (row : Order) (s : Db) : Except Failure Edit :=
  if (s.orders.lookup id).isSome ∨
      s.orders.entries.any fun o =>
        o.2.tenantId = row.tenantId ∧ o.2.invoiceNumber = row.invoiceNumber then
    .error (.database .uniqueViolation)
  else .ok (.orderInsert id row)

/-- `order.update` of the status. -/
def updateOrderStatus (id : Uuid) (status : OrderStatus) (s : Db) : Except Failure Edit :=
  match s.orders.lookup id with
  | none => .error (.database .recordNotFound)
  | some row => .ok (.orderUpdate id { row with status })

/-- `warehouse.delete`. -/
def deleteWarehouse (id : Uuid) (s : Db) : Except Failure Edit :=
  if (s.warehouses.lookup id).isSome then .ok (.warehouseDelete id)
  else .error (.database .recordNotFound)

variable {k : StockKey} {q : ℤ} {s : Db} {e : Edit} {id : Uuid}

@[simp] theorem insertInventory_eq_ok :
    insertInventory k q s = .ok e ↔
      0 ≤ q ∧ s.inventory.lookup k = none ∧ e = .inventoryInsert k q := by
  unfold insertInventory
  split_ifs with hq hk
  · simp; omega
  · simp only [false_iff]
    rintro ⟨-, hnone, -⟩
    simp [hnone] at hk
  · simp only [Except.ok.injEq]
    have hnone : s.inventory.lookup k = none := by simpa using hk
    exact ⟨fun h => ⟨by omega, hnone, h.symm⟩, fun h => h.2.2.symm⟩

/-- An update of a row that is there. -/
theorem updateInventory_eq_ok (hk : (s.inventory.lookup k).isSome) :
    updateInventory k q s = .ok e ↔ 0 ≤ q ∧ e = .inventoryUpdate k q := by
  unfold updateInventory
  rw [if_pos hk]
  split_ifs with hq
  · simp; omega
  · simp only [Except.ok.injEq]
    exact ⟨fun h => ⟨by omega, h.symm⟩, fun h => h.2.symm⟩

/-- An update writes its row or nothing. -/
theorem eq_of_updateInventory (h : updateInventory k q s = .ok e) :
    e = .inventoryUpdate k q ∨ e = .nothing := by
  unfold updateInventory at h
  split_ifs at h
  · exact .inl (Except.ok.inj h).symm
  · exact .inr (Except.ok.inj h).symm

@[simp] theorem insertWarehouseInventory_eq_ok :
    insertWarehouseInventory k q s = .ok e ↔
      0 ≤ q ∧ s.warehouseInventory.lookup k = none ∧ e = .warehouseInventoryInsert k q := by
  unfold insertWarehouseInventory
  split_ifs with hq hk
  · simp; omega
  · simp only [false_iff]
    rintro ⟨-, hnone, -⟩
    simp [hnone] at hk
  · simp only [Except.ok.injEq]
    have hnone : s.warehouseInventory.lookup k = none := by simpa using hk
    exact ⟨fun h => ⟨by omega, hnone, h.symm⟩, fun h => h.2.2.symm⟩

@[simp] theorem upsertWarehouseInventory_eq_ok :
    upsertWarehouseInventory k q s = .ok e ↔
      0 ≤ q ∧ e = .warehouseInventoryUpsert k q := by
  unfold upsertWarehouseInventory
  split_ifs with hq
  · simp; omega
  · simp only [Except.ok.injEq]
    exact ⟨fun h => ⟨by omega, h.symm⟩, fun h => h.2.symm⟩

@[simp] theorem insertInventoryMovement_eq_ok {m : InventoryMovement} :
    insertInventoryMovement m s = .ok e ↔
      m.quantityAfter = m.quantityBefore + m.quantityChanged ∧
        (s.inventory.lookup m.stockKey).isSome ∧ e = .inventoryMovementInsert m := by
  unfold insertInventoryMovement
  split_ifs with hsum hrow
  · simp [hsum]
  · simp only [false_iff]
    rintro ⟨-, hsome, -⟩
    simp [Option.isNone_iff_eq_none.mp hrow] at hsome
  · simp only [Except.ok.injEq]
    have hsome : (s.inventory.lookup m.stockKey).isSome := by
      simpa [Option.isSome_iff_ne_none, Option.isNone_iff_eq_none] using hrow
    exact ⟨fun h => ⟨not_not.mp hsum, hsome, h.symm⟩, fun h => h.2.2.symm⟩

theorem insertOrder_eq_ok {row : Order} (h : insertOrder id row s = .ok e) :
    s.orders.lookup id = none ∧ e = .orderInsert id row := by
  unfold insertOrder at h
  split_ifs at h with hfresh
  rw [not_or] at hfresh
  exact ⟨by simpa using hfresh.1, (Except.ok.inj h).symm⟩

@[simp] theorem updateOrderStatus_eq_ok {status : OrderStatus} :
    updateOrderStatus id status s = .ok e ↔
      ∃ row, s.orders.lookup id = some row ∧ e = .orderUpdate id { row with status } := by
  unfold updateOrderStatus
  split
  · simp_all
  · rename_i row hrow
    simp [hrow, eq_comm]

@[simp] theorem deleteWarehouse_eq_ok :
    deleteWarehouse id s = .ok e ↔
      (s.warehouses.lookup id).isSome ∧ e = .warehouseDelete id := by
  unfold deleteWarehouse
  split_ifs with hid
  · simp [hid, eq_comm]
  · simp [hid]

end Statement

end PulseOps
