import PulseOps.Model.Calendar
import PulseOps.Model.Orders
import PulseOps.Model.Reports
import PulseOps.ReadCommitted.CursorPages
import Mathlib.Data.String.Basic

/-!
# The rows of a report

`reports/reports.builders.js`: a report reads one table in batches in the order of the
identifiers, and makes a line of each row. The tables may change between the statements. Each
row comes with the columns of other tables that it is read with.

The days of `from` and `to` are kept as numbers.
-/

set_option autoImplicit false

namespace PulseOps.ReportRows

open Calendar
open OrderService (statusText variantStatusText)
open Reports (ReportType)

/-! ### Tables -/

/-- An order with its customer and the number of its items. -/
structure OrderRow where
  tenantId : Uuid
  customerId : Uuid
  createdAt : ℤ
  status : OrderStatus
  customerEmail : String
  customerFirstName : String
  customerLastName : String
  itemCount : ℤ
  subtotal : Cents
  discountTotal : Cents
  taxTotal : Cents
  shippingTotal : Cents
  total : Cents
  currency : String

/-- Stock with its variant, product and warehouse. -/
structure InventoryRow where
  tenantId : Uuid
  warehouseId : Uuid
  sku : String
  productName : String
  variantStatus : VariantStatus
  warehouseCode : String
  warehouseName : String
  quantity : ℤ
  updatedAt : ℤ

structure CustomerRow where
  tenantId : Uuid
  email : String
  firstName : String
  lastName : String
  phone : Option String
  createdAt : ℤ
  deletedAt : Option ℤ

structure Db where
  orders : Table Uuid OrderRow := ∅
  inventory : Table Uuid InventoryRow := ∅
  customers : Table Uuid CustomerRow := ∅

/-! ### Filters -/

structure Filters where
  fromDay : Option ℤ := none
  toDay : Option ℤ := none
  status : Option OrderStatus := none
  warehouseId : Option Uuid := none

/-- `dateRange`, and whether a time lies in it. -/
def inDateRange (filters : Filters) (createdAt : ℤ) : Bool :=
  filters.fromDay.all (fun day => day * millisPerDay ≤ createdAt) &&
    filters.toDay.all fun day => createdAt ≤ day * millisPerDay + millisPerDay - 1

/-! ### Lines -/

/-- What `csvCell` gets. -/
inductive Cell where
  | missing
  | text (value : String)
  | number (value : ℤ)
  /-- the text of a decimal -/
  | amount (value : Cents)
  | date (value : ℤ)
  deriving DecidableEq, Repr

/-- `money`. -/
def money : Option Cents → Cell
  | none => .text ""
  | some c => .amount c

def orderLine (id : Uuid) (o : OrderRow) : List Cell :=
  [.text id, .date o.createdAt, .text (statusText o.status), .text o.customerEmail,
    .text (o.customerFirstName ++ " " ++ o.customerLastName), .number o.itemCount,
    money o.subtotal, money o.discountTotal, money o.taxTotal, money o.shippingTotal,
    money o.total, .text o.currency]

def inventoryLine (i : InventoryRow) : List Cell :=
  [.text i.sku, .text i.productName, .text (variantStatusText i.variantStatus),
    .text i.warehouseCode, .text i.warehouseName, .number i.quantity, .date i.updatedAt]

/-- The orders that count for a customer. -/
def countedOrders (db : Db) (tenantId customerId : Uuid) : List OrderRow :=
  (db.orders.entries.map (·.2)).filter fun o =>
    o.tenantId = tenantId ∧ o.customerId = customerId ∧ o.status ∉ [.cancelled, .refunded]

def customerLine (totals : Db) (tenantId id : Uuid) (c : CustomerRow) : List Cell :=
  let counted := countedOrders totals tenantId id
  [.text id, .text c.email, .text c.firstName, .text c.lastName,
    c.phone.elim .missing .text, .date c.createdAt, .number counted.length,
    -- a customer without orders is in no group
    if counted = [] then .text "0.00" else money (some (counted.map (·.total)).sum)]

/-! ### `REPORT_DEFINITIONS` -/

def RowOf : ReportType → Type
  | .orders => OrderRow
  | .inventory => InventoryRow
  | .customers => CustomerRow

def tableOf (db : Db) : (type : ReportType) → Table Uuid (RowOf type)
  | .orders => db.orders
  | .inventory => db.inventory
  | .customers => db.customers

/-- The `where` of a report. -/
def whereOf (tenantId : Uuid) (filters : Filters) : (type : ReportType) → RowOf type → Bool
  | .orders => fun (o : OrderRow) =>
    o.tenantId = tenantId && filters.status.all (o.status = ·) && inDateRange filters o.createdAt
  | .inventory => fun (i : InventoryRow) =>
    i.tenantId = tenantId && filters.warehouseId.all (i.warehouseId = ·)
  | .customers => fun (c : CustomerRow) =>
    c.tenantId = tenantId && c.deletedAt.isNone && inDateRange filters c.createdAt

def lineOf (totals : Db) (tenantId : Uuid) : (type : ReportType) → Uuid → RowOf type → List Cell
  | .orders => fun id o => orderLine id o
  | .inventory => fun _ i => inventoryLine i
  | .customers => fun id c => customerLine totals tenantId id c

/-! ### The export -/

/-- `BATCH`. -/
def batch : ℕ := 1000

/-- The tables when a batch is read, and when the orders of its customers are counted. -/
structure Visit where
  found : Db
  totals : Db

def Visit.query (tenantId : Uuid) (type : ReportType) (visit : Visit) :
    CursorPages.Query Uuid (RowOf type) (List Cell) where
  table := tableOf visit.found type
  read := lineOf visit.totals tenantId type

/-- `rows` and `batches`: the lines of a report, each with the identifier of its row. -/
def rows (strict : Bool) (type : ReportType) (tenantId : Uuid) (filters : Filters)
    (visits : List Visit) : CursorPages.Export Uuid (List Cell) :=
  CursorPages.run strict (whereOf tenantId filters type) batch {}
    (visits.map (Visit.query tenantId type))

end PulseOps.ReportRows
