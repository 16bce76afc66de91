import PulseOps.Stock.OrderEffects

/-!
# Requests that touch stock

The requests of a serial run on stock and orders, what each of them can write, and the
state they leave. Proofs about runs split on `StockEffect`, never on the services.

## Main definitions

* `StockRequest` — a request with its arguments, and the program that serves it.
* `StockEffect` — everything a request can write.

## Main results

* `StockRequest.effect` — a request that succeeds had one of these effects.
-/

set_option autoImplicit false

open ReadCommitted Program

namespace PulseOps

open OrderService InventoryService

inductive StockRequest where
  | create (env : Environment) (tenantId userId orderId : Uuid) (body : CreateBody)
  | updateStatus (id tenantId userId : Uuid) (status : OrderStatus) (reason : Option String)
  | cancel (id tenantId userId : Uuid) (reason : Option String)
  | adjust (tenantId userId : Uuid) (body : AdjustBody)
  | transfer (tenantId userId : Uuid) (body : TransferBody)
  | deleteWarehouse (id tenantId : Uuid)

namespace StockRequest

/-- The service call behind a request, without its result. -/
def program : StockRequest → Sql Unit
  | create env tenantId userId orderId body => do
    let _ ← OrderService.create env tenantId userId orderId body
  | updateStatus id tenantId userId status reason => do
    let _ ← OrderService.updateStatus id tenantId userId status reason
  | cancel id tenantId userId reason => do
    let _ ← OrderService.cancel id tenantId userId reason
  | adjust tenantId userId body => do
    let _ ← InventoryService.adjust tenantId userId body
  | transfer tenantId userId body => do
    let _ ← InventoryService.transfer tenantId userId body
  | deleteWarehouse id tenantId => WarehouseService.delete id tenantId

end StockRequest

/-- Everything a successful request can write. -/
inductive StockEffect (s : Db) : StockRequest → List Edit → Prop
  | create {env : Environment} {tenantId userId orderId : Uuid} {body : CreateBody}
      {d : OrderDraft} {n : ℕ} {ws : List Edit}
      (hpriced : Priced body.items d.items) (hws : ReservesStock tenantId s d.items ws)
      (hfresh : s.orders.lookup orderId = none) :
      StockEffect s (.create env tenantId userId orderId body)
        (placedEdits env tenantId userId orderId d n ws s)
  | updateStatus {id tenantId userId : Uuid} {status : OrderStatus} {reason : Option String}
      {order : OrderWithItems} (horder : findById id tenantId s = some order)
      (hvalid : isValidTransition order.row.status status = true) :
      StockEffect s (.updateStatus id tenantId userId status reason)
        (statusEdits id tenantId userId order.row status (truthy reason))
  | cancel {id tenantId userId : Uuid} {reason : Option String} {order : OrderWithItems}
      {rss : List (List Release)} {es : List Edit}
      (horder : findById id tenantId s = some order)
      (hstatus : order.row.status ∈ cancellableStatuses)
      (hitems : List.Forall₂ (ItemReleases tenantId id s) order.items rss)
      (hrss : Releases userId id reason s rss.flatten es) :
      StockEffect s (.cancel id tenantId userId reason)
        (es ++ statusEdits id tenantId userId order.row .cancelled
          (some ((truthy reason).getD "Order cancelled")))
  | adjust {tenantId userId : Uuid} {body : AdjustBody} {k : StockKey} {ws : List Edit}
      (hnonneg : 0 ≤ s.quantity k + body.quantityChanged)
      (hws : WritesStock s k (s.quantity k + body.quantityChanged) ws) :
      StockEffect s (.adjust tenantId userId body)
        (ws ++ [.inventoryMovementInsert (adjustmentRow userId k (s.quantity k) body)])
  | transfer {tenantId userId : Uuid} {body : TransferBody} {source dest : StockKey}
      {ws ws' : List Edit} (hne : source ≠ dest) (hpos : 0 < body.quantity)
      (hle : body.quantity ≤ s.quantity source)
      (hws : WritesStock s source (s.quantity source - body.quantity) ws)
      (hws' : WritesStock (s.setStock source (s.quantity source - body.quantity)) dest
        (s.quantity dest + body.quantity) ws')
      (hnonneg : 0 ≤ s.quantity dest + body.quantity) :
      StockEffect s (.transfer tenantId userId body)
        (ws ++ ws' ++
          [.inventoryMovementInsert (transferMovement userId source (s.quantity source)
              (-body.quantity) (s.quantity source - body.quantity) body),
            .inventoryMovementInsert (transferMovement userId dest (s.quantity dest)
              body.quantity (s.quantity dest + body.quantity) body)])
  | deleteWarehouse {id tenantId : Uuid} :
      StockEffect s (.deleteWarehouse id tenantId) [.warehouseDelete id]

variable {answer : Call → Reply} {s : Db} {es : List Edit}

private theorem runs_discard {α : Type} {p : Sql α} {u : Unit} :
    Runs answer (do let _ ← p) s u es ↔ ∃ a, Runs answer p s a es := by
  rw [run_bind]
  constructor
  · rintro ⟨a, es₁, es₂, h, hret, rfl⟩
    obtain ⟨-, rfl⟩ := runs_ret.mp hret
    exact ⟨a, by simpa using h⟩
  · rintro ⟨a, h⟩
    exact ⟨a, es, [], h, by simp, by simp⟩

/-- A request that succeeds had one of the effects. -/
theorem StockRequest.effect {r : StockRequest} {u : Unit}
    (h : Runs answer r.program s u es) : StockEffect s r es := by
  cases r with
  | create env tenantId userId orderId body =>
    obtain ⟨r, h⟩ := runs_discard.mp h
    obtain ⟨d, n, ws, es', u, hpriced, hws, hfresh, hin, rfl⟩ := runs_create h
    obtain ⟨-, rfl⟩ := runs_ret.mp hin
    rw [List.append_nil]
    exact .create hpriced hws hfresh
  | updateStatus id tenantId userId status reason =>
    obtain ⟨r, h⟩ := runs_discard.mp h
    obtain ⟨order, horder, hvalid, rfl, -⟩ := runs_updateStatus.mp h
    exact .updateStatus horder hvalid
  | cancel id tenantId userId reason =>
    obtain ⟨r, h⟩ := runs_discard.mp h
    obtain ⟨order, rss, es₁, horder, hstatus, hitems, hrss, rfl⟩ := runs_cancel h
    exact .cancel horder hstatus hitems hrss
  | adjust tenantId userId body =>
    obtain ⟨r, h⟩ := runs_discard.mp h
    obtain ⟨k, ws, hnonneg, hws, rfl⟩ := runs_adjust h
    exact .adjust hnonneg hws
  | transfer tenantId userId body =>
    obtain ⟨r, h⟩ := runs_discard.mp h
    obtain ⟨source, dest, ws, ws', hne, hpos, hle, hws, hws', hnonneg, rfl⟩ := runs_transfer h
    exact .transfer hne hpos hle hws hws' hnonneg
  | deleteWarehouse id tenantId =>
    obtain ⟨-, h⟩ := runs_ensure_bind.mp h
    obtain ⟨_, hdelete, rfl⟩ := runs_perform.mp h
    obtain ⟨-, rfl⟩ := Statement.deleteWarehouse_eq_ok.mp hdelete
    exact .deleteWarehouse

/-! ### A small shop -/

namespace Sample

/-- One variant in the north warehouse. -/
def row : StockKey := ⟨"shop", "shirt", "north"⟩

/-- The same variant in the south warehouse. -/
def southRow : StockKey := ⟨"shop", "shirt", "south"⟩

/-- Before any goods have arrived. -/
def emptyShop : Db :=
  { customers := (∅ : Table Uuid Customer).insert "customer"
      { tenantId := "shop", email := "", firstName := "", lastName := "" }
    productVariants := (∅ : Table Uuid ProductVariant).insert "shirt"
      { tenantId := "shop", sku := "S", price := 100, status := .active
        product := { name := "Shirt" } }
    warehouses := ((∅ : Table Uuid Warehouse).insert "north" { tenantId := "shop" }).insert
      "south" { tenantId := "shop" } }

/-- Twenty pieces in stock. -/
def shop : Db :=
  { emptyShop with
    inventory := (∅ : Table StockKey ℤ).insert row 20
    warehouseInventory := (∅ : Table StockKey ℤ).insert row 20 }

/-- A line of `quantity` pieces from the warehouse `warehouseId`. -/
def line (warehouseId : Uuid) (quantity : ℤ) : ItemInput :=
  { productVariantId := "shirt", warehouseId, quantity }

/-- An order of the given lines. -/
def body (items : List ItemInput) : CreateBody := { customerId := "customer", items }

/-- The shop also sells mugs: eight are in the south and four in the north. -/
def twoBranches : Db :=
  let s := ((shop.setStock ⟨"shop", "mug", "south"⟩ 8).setStock ⟨"shop", "mug", "north"⟩ 4)
  { s with
    productVariants := s.productVariants.insert "mug"
      { tenantId := "shop", sku := "M", price := 40, status := .active
        product := { name := "Mug" } } }

/-- A line of `quantity` mugs from the south. -/
def mugs (quantity : ℤ) : ItemInput :=
  { productVariantId := "mug", warehouseId := "south", quantity }

/-- None of the stock operations calls a provider. -/
def noAnswer : Call → Reply := fun _ => .rejected ⟨"unreachable", 503, "UNREACHABLE"⟩

end Sample

/-! ### The states they leave -/

theorem replay_movements {β : Type} (f : β → InventoryMovement) (xs : List β) (s : Db) :
    sales.replay (xs.map fun x => .inventoryMovementInsert (f x)) s =
      { s with inventoryMovements := s.inventoryMovements ++ xs.map f } := by
  induction xs generalizing s with
  | nil => simp
  | cons x xs ih => simp [ih]

/-- A placed order: stock, counter, order, lines, journal and history. -/
theorem replay_placedEdits {env : Environment} {tenantId userId orderId : Uuid}
    {d : OrderDraft} {n : ℕ} {ws : List Edit} (hws : ReservesStock tenantId s d.items ws) :
    sales.replay (placedEdits env tenantId userId orderId d n ws s) s = { s with
      inventory := (sales.replay ws s).inventory
      warehouseInventory := (sales.replay ws s).warehouseInventory
      invoiceSequences := s.invoiceSequences.insert (tenantId, env.financialYear) n
      orders := s.orders.insert orderId (orderRow env tenantId d n)
      orderItems := s.orderItems ++ d.items.map (orderItemRow tenantId orderId)
      inventoryMovements := s.inventoryMovements ++ d.items.map fun it =>
        reservationRow tenantId userId orderId it
          ((sales.replay ws s).quantity (it.stockKey tenantId))
      orderStatusHistory := s.orderStatusHistory ++
        [historyRow tenantId orderId userId none .pending (some "Order created")] } := by
  obtain ⟨inventory, warehouseInventory, hstock⟩ := hws.replay
  simp [placedEdits, reservationEdits, hstock, replay_orderItems, replay_movements]

end PulseOps
