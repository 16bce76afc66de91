import PulseOps.Tenancy.CounterPrograms

/-!
# No shop notices the others

Requests of any shops run at once on one database, statement by statement. Take the steps of
the requests of one shop alone, and leave the others out altogether: they are a run from the
rows of that shop, with the same answers, the same writes and the same calls to the providers,
and they end in what the shop sees of the last state. So no request of another shop, with
whatever ids in it and in whatever order, changes a row of the shop, an answer the shop gets, or
a call that is made for it.

What is assumed is that the rows of the first state belong to the shops of their parents, and
that an id that is drawn for one shop is not drawn for another.

## Main definitions

* `SalesRequest` — a request to the order, stock, payment, counter-sale or cash-register
  services.
* `SalesRequest.drawn` — the ids drawn for the rows it adds.

## Main results

* `SalesRequest.confined` — every request is confined to its shop.
* `shops_isolated` — no shop notices the others.
-/

set_option autoImplicit false

open ReadCommitted Program Parties

namespace PulseOps

open OrderService InventoryService PaymentService CashRegisterService PosService

/-- The requests that write to the sales core, with their arguments. -/
inductive SalesRequest where
  | createOrder (env : Environment) (tenantId userId orderId : Uuid) (body : CreateBody)
  | updateStatus (id tenantId userId : Uuid) (status : OrderStatus) (reason : Option String)
  | cancelOrder (id tenantId userId : Uuid) (reason : Option String)
  | adjust (tenantId userId : Uuid) (body : AdjustBody)
  | transfer (tenantId userId : Uuid) (body : TransferBody)
  | deleteWarehouse (id tenantId : Uuid)
  | createPayment (env : Environment) (tenantId userId : Uuid) (ids : DrawnIds)
      (body : CreatePaymentBody)
  | confirmPayment (env : Environment) (tenantId userId : Uuid) (transaction : String)
      (body : ConfirmPaymentBody)
  | refund (tenantId userId paymentId refundId : Uuid) (randomRef : String) (body : RefundBody)
  | startRazorpay (tenantId orderId paymentId : Uuid) (userId : Option Uuid)
  | verifyRazorpay (env : Environment) (tenantId paymentId : Uuid)
      (result : RazorpayPaymentsService.CheckoutResult) (customerId userId : Option Uuid)
  | walkInCustomer (tenantId customerId : Uuid)
  | ensureDefault (tenantId registerId : Uuid)
  | sale (env : Environment) (tenantId userId orderId walkIn defaultRegister : Uuid)
      (body : SaleBody)
  | openRegister (tenantId userId registerId sessionId : Uuid) (body : OpenBody)
  | addMovement (tenantId userId sessionId : Uuid) (body : MovementBody)
  | closeSession (tenantId userId sessionId : Uuid) (body : CloseBody)

/-- What a request is answered. -/
inductive SalesAnswer where
  | order (row : Option Order)
  | orderWithItems (order : Option OrderWithItems)
  | adjusted (result : AdjustResult)
  | transferred (result : TransferResult)
  | deleted
  | payment (row : Option Payment)
  | checkout (checkout : RazorpayPaymentsService.Checkout)
  | id (id : Option Uuid)
  | session (view : Option SessionView)

namespace SalesRequest

/-- The shop a request is made for. -/
def tenantId : SalesRequest → Uuid
  | createOrder _ tenantId _ _ _ => tenantId
  | updateStatus _ tenantId _ _ _ => tenantId
  | cancelOrder _ tenantId _ _ => tenantId
  | adjust tenantId _ _ => tenantId
  | transfer tenantId _ _ => tenantId
  | deleteWarehouse _ tenantId => tenantId
  | createPayment _ tenantId _ _ _ => tenantId
  | confirmPayment _ tenantId _ _ _ => tenantId
  | refund tenantId _ _ _ _ _ => tenantId
  | startRazorpay tenantId _ _ _ => tenantId
  | verifyRazorpay _ tenantId _ _ _ _ => tenantId
  | walkInCustomer tenantId _ => tenantId
  | ensureDefault tenantId _ => tenantId
  | sale _ tenantId _ _ _ _ _ => tenantId
  | openRegister tenantId _ _ _ _ => tenantId
  | addMovement tenantId _ _ _ => tenantId
  | closeSession tenantId _ _ _ => tenantId

/-- The ids the database draws for the rows a request may add. -/
def drawn : SalesRequest → List Uuid
  | createOrder _ _ _ orderId _ => [orderId]
  | createPayment _ _ _ ids _ => [ids.payment]
  | startRazorpay _ _ paymentId _ => [paymentId]
  | walkInCustomer _ customerId => [customerId]
  | ensureDefault _ registerId => [registerId]
  | sale _ _ _ orderId _ _ body => orderId :: body.payments.map (·.ids.payment)
  | openRegister _ _ _ sessionId _ => [sessionId]
  | _ => []

/-- The service call behind a request. -/
def program : SalesRequest → Sql SalesAnswer
  | createOrder env tenantId userId orderId body => do
    let row ← OrderService.create env tenantId userId orderId body
    return .order row
  | updateStatus id tenantId userId status reason => do
    let order ← OrderService.updateStatus id tenantId userId status reason
    return .orderWithItems order
  | cancelOrder id tenantId userId reason => do
    let order ← OrderService.cancel id tenantId userId reason
    return .orderWithItems order
  | adjust tenantId userId body => do
    let result ← InventoryService.adjust tenantId userId body
    return .adjusted result
  | transfer tenantId userId body => do
    let result ← InventoryService.transfer tenantId userId body
    return .transferred result
  | deleteWarehouse id tenantId => do
    WarehouseService.delete id tenantId
    return .deleted
  | createPayment env tenantId userId ids body => do
    let row ← PaymentService.create env tenantId userId ids body
    return .payment row
  | confirmPayment env tenantId userId transaction body => do
    let row ← PaymentService.confirm env tenantId userId transaction body
    return .payment row
  | refund tenantId userId paymentId refundId randomRef body => do
    let row ← PaymentService.refund tenantId userId paymentId refundId randomRef body
    return .payment row
  | startRazorpay tenantId orderId paymentId userId => do
    let checkout ← RazorpayPaymentsService.start tenantId orderId paymentId userId
    return .checkout checkout
  | verifyRazorpay env tenantId paymentId result customerId userId => do
    let row ← RazorpayPaymentsService.verify env tenantId paymentId result customerId userId
    return .payment row
  | walkInCustomer tenantId customerId => do
    let id ← PosService.walkInCustomer tenantId customerId
    return .id id
  | ensureDefault tenantId registerId => do
    let id ← CashRegisterService.ensureDefault tenantId registerId
    return .id id
  | sale env tenantId userId orderId walkIn defaultRegister body => do
    let row ← PosService.sale env tenantId userId orderId walkIn defaultRegister body
    return .order row
  | openRegister tenantId userId registerId sessionId body => do
    let view ← CashRegisterService.openRegister tenantId userId registerId sessionId body
    return .session view
  | addMovement tenantId userId sessionId body => do
    let view ← CashRegisterService.addMovement tenantId userId sessionId body
    return .session view
  | closeSession tenantId userId sessionId body => do
    let view ← CashRegisterService.close tenantId userId sessionId body
    return .session view

variable {owner : Uuid → Uuid}

private theorem confined_answer {α : Type} {tenantId : Uuid} {p : Sql α} {f : α → SalesAnswer}
    (h : (shops owner).Confined tenantId (fun _ => True) p) :
    (shops owner).Confined tenantId (fun _ => True) (p >>= fun a => return f a) :=
  h.bind fun _ _ => confined_ret trivial

/-- Every request reads and writes the rows of its shop only. -/
theorem confined {r : SalesRequest} (hdrawn : ∀ id ∈ r.drawn, owner id = r.tenantId) :
    (shops owner).Confined r.tenantId (fun _ => True) r.program := by
  cases r with
  | createOrder env tenantId userId orderId body =>
    exact confined_answer (OrderService.confined_create (hdrawn orderId (by simp [drawn]))
      fun _ => confined_ret trivial)
  | updateStatus id tenantId userId status reason =>
    exact confined_answer OrderService.confined_updateStatus
  | cancelOrder id tenantId userId reason => exact confined_answer OrderService.confined_cancel
  | adjust tenantId userId body => exact confined_answer InventoryService.confined_adjust
  | transfer tenantId userId body => exact confined_answer InventoryService.confined_transfer
  | deleteWarehouse id tenantId => exact confined_answer WarehouseService.confined_delete
  | createPayment env tenantId userId ids body =>
    exact confined_answer (PaymentService.confined_create (hdrawn ids.payment (by simp [drawn])))
  | confirmPayment env tenantId userId transaction body =>
    exact confined_answer PaymentService.confined_confirm
  | refund tenantId userId paymentId refundId randomRef body =>
    exact confined_answer PaymentService.confined_refund
  | startRazorpay tenantId orderId paymentId userId =>
    exact confined_answer
      (RazorpayPaymentsService.confined_start (hdrawn paymentId (by simp [drawn])))
  | verifyRazorpay env tenantId paymentId result customerId userId =>
    exact confined_answer RazorpayPaymentsService.confined_verify
  | walkInCustomer tenantId customerId =>
    exact confined_answer
      (PosService.confined_walkInCustomer (hdrawn customerId (by simp [drawn])))
  | ensureDefault tenantId registerId =>
    exact confined_answer
      (CashRegisterService.confined_ensureDefault (hdrawn registerId (by simp [drawn])))
  | sale env tenantId userId orderId walkIn defaultRegister body =>
    apply confined_answer
    apply PosService.confined_sale (hdrawn orderId (by simp [drawn]))
    -- the ids of its payments are drawn too
    intro p hp
    exact hdrawn p.ids.payment (List.mem_cons_of_mem _ (List.mem_map_of_mem hp))
  | openRegister tenantId userId registerId sessionId body =>
    exact confined_answer
      (CashRegisterService.confined_openRegister (hdrawn sessionId (by simp [drawn])))
  | addMovement tenantId userId sessionId body =>
    exact confined_answer CashRegisterService.confined_addMovement
  | closeSession tenantId userId sessionId body =>
    exact confined_answer CashRegisterService.confined_close

end SalesRequest

/-- The shop that made the request `n`. -/
def shopOf (requests : List SalesRequest) (n : ℕ) : Uuid :=
  (requests[n]?.map (·.tenantId)).getD ""

variable {owner : Uuid → Uuid} {s : Db} {requests : List SalesRequest}

private theorem confined_requests
    (hdrawn : ∀ r ∈ requests, ∀ id ∈ r.drawn, owner id = r.tenantId) (n : ℕ)
    (p : Sql SalesAnswer) (hp : (requests.map (·.program))[n]? = some p) :
    (shops owner).Confined (shopOf requests n) (fun _ => True) p := by
  rw [List.getElem?_map, Option.map_eq_some_iff] at hp
  obtain ⟨r, hr, rfl⟩ := hp
  have hshop : shopOf requests n = r.tenantId := by
    simp [shopOf, hr]
  rw [hshop]
  exact SalesRequest.confined (hdrawn r (List.mem_of_getElem? hr))

/-- In any interleaving of any requests, the steps of the requests of one shop are a run of
their own from the rows of the shop. Its sessions come to the same places, with the same
answers, writes and calls, and it ends in the rows the shop has at the end of the shared run. -/
theorem shops_isolated {xs : List (Action sales)} {c : Config sales SalesAnswer}
    (hs : Coherent owner s)
    (hdrawn : ∀ r ∈ requests, ∀ id ∈ r.drawn, owner id = r.tenantId)
    (hrun : (Config.start s (requests.map (·.program))).run (.free sales) xs = some c)
    (tenantId : Uuid) :
    ∃ c', (Config.start (s.view tenantId) (requests.map (·.program))).run (.free sales)
        (xs.filter fun x => shopOf requests x.session = tenantId) = some c' ∧
      c'.committed = c.committed.view tenantId ∧
      ∀ n, shopOf requests n = tenantId →
        Option.Rel Session.Mirrors c.sessions[n]? c'.sessions[n]? := by
  obtain ⟨c', hrun', hmirrors⟩ := run_alone (P := shops owner) hs (confined_requests hdrawn) hrun
    tenantId
  exact ⟨c', hrun', hmirrors.committed, hmirrors.mine⟩

/-! ### References -/

/-- Order lines and payments are of the shop of their order, stock rows and stock movements of the
shop of their warehouse, cash sessions of the shop of their register, and cash movements of the
shop of their session. -/
structure SameShop (s : Db) : Prop where
  orderItems : ∀ it ∈ s.orderItems, ∀ order, s.orders.lookup it.orderId = some order →
    it.tenantId = order.tenantId
  payments : AllRows (fun _ p => ∀ order, s.orders.lookup p.orderId = some order →
    p.tenantId = order.tenantId) s.payments
  inventory : AllRows (fun k _ => ∀ w, s.warehouses.lookup k.warehouseId = some w →
    k.tenantId = w.tenantId) s.inventory
  warehouseInventory : AllRows (fun k _ => ∀ w, s.warehouses.lookup k.warehouseId = some w →
    k.tenantId = w.tenantId) s.warehouseInventory
  inventoryMovements : ∀ m ∈ s.inventoryMovements, ∀ w,
    s.warehouses.lookup m.warehouseId = some w → m.tenantId = w.tenantId
  cashSessions : AllRows (fun _ session => ∀ r, s.cashRegisters.lookup session.registerId = some r →
    session.tenantId = r.tenantId) s.cashSessions
  cashMovements : ∀ m ∈ s.cashMovements, ∀ session,
    s.cashSessions.lookup m.sessionId = some session → m.tenantId = session.tenantId

theorem Coherent.sameShop (hs : Coherent owner s) : SameShop s where
  orderItems it hit order horder := (hs.orderItems it hit).trans (hs.orders _ order horder).symm
  payments id p hp order horder := (hs.payments id p hp).2.trans (hs.orders _ order horder).symm
  inventory k q hk w hw := (hs.inventory k q hk).trans (hs.warehouses _ w hw).symm
  warehouseInventory k q hk w hw :=
    (hs.warehouseInventory k q hk).trans (hs.warehouses _ w hw).symm
  inventoryMovements m hm w hw :=
    (hs.inventoryMovements m hm).trans (hs.warehouses _ w hw).symm
  cashSessions id session hsession r hr :=
    (hs.cashSessions id session hsession).2.trans (hs.cashRegisters _ r hr).symm
  cashMovements m hm session hsession :=
    (hs.cashMovements m hm).trans (hs.cashSessions _ session hsession).1.symm

/-- Whatever ids the requests name, no order line, payment, stock row, stock movement, cash session
or cash movement ever comes to refer to an order, warehouse, register or session of another
shop. -/
theorem references_in_shop {c : Config sales SalesAnswer} (hs : Coherent owner s)
    (hdrawn : ∀ r ∈ requests, ∀ id ∈ r.drawn, owner id = r.tenantId)
    (hrun : Reaches (.free sales) (.start s (requests.map (·.program))) c) :
    SameShop c.committed :=
  (inv_of_reaches (P := shops owner) hs (confined_requests hdrawn) hrun).sameShop

/-! ### Two shops -/

namespace Sample

/-- Ids of the shop in the south begin with an `s`. -/
def ownerOf (id : Uuid) : Uuid := if id.toList.head? = some 's' then "south" else "north"

def mugOf (tenantId : Uuid) : ProductVariant :=
  { tenantId, sku := "M", price := 40, status := .active, product := { name := "Mug" } }

def customerOf (tenantId : Uuid) : Customer :=
  { tenantId, email := "", firstName := "", lastName := "" }

def northStore : StockKey := ⟨"north", "n-mug", "n-store"⟩

def southStore : StockKey := ⟨"south", "s-mug", "s-store"⟩

def southDepot : StockKey := ⟨"south", "s-mug", "s-depot"⟩

/-- Two shops with eight mugs each; the south also has an empty depot. -/
def twoShops : Db :=
  { customers := ((∅ : Table Uuid Customer).insert "n-buyer" (customerOf "north")).insert "s-buyer"
      (customerOf "south")
    productVariants := ((∅ : Table Uuid ProductVariant).insert "n-mug" (mugOf "north")).insert
      "s-mug" (mugOf "south")
    warehouses := (((∅ : Table Uuid Warehouse).insert "n-store" { tenantId := "north" }).insert
      "s-store" { tenantId := "south" }).insert "s-depot" { tenantId := "south" }
    inventory := ((∅ : Table StockKey ℤ).insert northStore 8).insert southStore 8
    warehouseInventory := ((∅ : Table StockKey ℤ).insert northStore 8).insert southStore 8 }

/-- An order of so many mugs from a stock row. -/
def mugOrder (customerId : Uuid) (k : StockKey) (quantity : ℤ) : CreateBody :=
  { customerId
    items := [{ productVariantId := k.productVariantId, warehouseId := k.warehouseId, quantity }] }

/-- Both shops place an order. The south moves four mugs to its depot, while the north tries to
cancel the order of the south. -/
def twoRequests : List SalesRequest :=
  [.createOrder {} "north" "clerk" "n-order" (mugOrder "n-buyer" northStore 2),
    .createOrder {} "south" "keeper" "s-order" (mugOrder "s-buyer" southStore 3),
    .transfer "south" "keeper"
      { variantId := some "s-mug", sourceWarehouseId := some "s-store"
        destinationWarehouseId := some "s-depot", quantity := 4 },
    .cancelOrder "s-order" "north" "clerk" none]

/-- The statements of the two orders in turn, and then those of the other two requests. -/
def inTurn : List (Action sales) :=
  (List.replicate 20 [.advance 0, .advance 1]).flatten ++
    (List.replicate 2 [.advance 2, .advance 3]).flatten ++ List.replicate 12 (.advance 2)

theorem coherent_twoShops : Coherent ownerOf twoShops where
  customers := (AllRows.empty.insert (by decide +kernel)).insert (by decide +kernel)
  warehouses := ((AllRows.empty.insert (by decide +kernel)).insert (by decide +kernel)).insert
    (by decide +kernel)
  inventory := (AllRows.empty.insert (by decide +kernel)).insert (by decide +kernel)
  warehouseInventory := (AllRows.empty.insert (by decide +kernel)).insert (by decide +kernel)
  inventoryMovements := by simp [twoShops]
  orders := .empty
  orderItems := by simp [twoShops]
  payments := .empty
  cashRegisters := .empty
  cashSessions := .empty
  cashMovements := by simp [twoShops]

/-- What the stock rows of the two shops hold in the end, and the orders there are. -/
def outcome (c : Config sales SalesAnswer) : List (Option ℤ) × List Uuid :=
  ([northStore, southStore, southDepot].map c.committed.inventory.lookup, c.committed.orders.keys)

theorem outcome_inTurn : ((Config.start twoShops (twoRequests.map (·.program))).run
    (.free sales) inTurn).map outcome =
      some ([some 6, some 1, some 4], ["s-order", "n-order"]) := by
  decide +kernel

end Sample

open Sample in
theorem shops_isolated_two : ∃ c, (Config.start twoShops (twoRequests.map (·.program))).run
      (.free sales) inTurn = some c ∧
      outcome c = ([some 6, some 1, some 4], ["s-order", "n-order"]) ∧
    ∃ c', (Config.start (twoShops.view "south") (twoRequests.map (·.program))).run (.free sales)
        (inTurn.filter fun x => shopOf twoRequests x.session = "south") = some c' ∧
      c'.committed = c.committed.view "south" ∧
      ∀ n, shopOf twoRequests n = "south" →
        Option.Rel Session.Mirrors c.sessions[n]? c'.sessions[n]? := by
  obtain ⟨c, hc, houtcome⟩ := Option.map_eq_some_iff.mp outcome_inTurn
  exact ⟨c, hc, houtcome, shops_isolated coherent_twoShops (by decide +kernel) hc "south"⟩

open Sample in
theorem references_in_shop_two : ∃ c, Reaches (.free sales)
      (.start twoShops (twoRequests.map (·.program))) c ∧
    outcome c = ([some 6, some 1, some 4], ["s-order", "n-order"]) ∧ SameShop c.committed := by
  obtain ⟨c, hc, houtcome⟩ := Option.map_eq_some_iff.mp outcome_inTurn
  have hreaches := reaches_of_run .refl hc
  exact ⟨c, hreaches, houtcome,
    references_in_shop coherent_twoShops (by decide +kernel) hreaches⟩

end PulseOps
