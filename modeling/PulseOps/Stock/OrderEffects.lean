import PulseOps.Stock.Effects

/-!
# What the order operations write

The specifications of `create`, `updateStatus` and `cancel`, alone on a state. An order
is placed by lowering the stock of its lines one after the other and journalling them
afterwards; it is cancelled by a sequence of releases, each journalled at once.

## Main definitions

* `Priced` — the lines of a draft are the lines of the request.
* `Drafted` — what `prepare` makes of a request.
* `ReservesStock` — the deductions of an order, line by line.
* `Releases` — the restorations of a cancellation, one by one.

## Main results

* `runs_create`, `runs_updateStatus`, `runs_cancel` — the specifications.
-/

set_option autoImplicit false

open ReadCommitted Program

namespace PulseOps.OrderService

variable {answer : Call → Reply} {s : Db} {es : List Edit}

/-! ### Preparation -/

/-- A priced line sells what the request asked for. -/
structure PricedItem (item : ItemInput) (it : ItemCalculation) : Prop where
  variant : it.productVariantId = item.resolvedVariantId
  warehouse : it.warehouseId = item.warehouseId
  quantity : it.quantity = item.quantity
  positive : 0 < it.quantity

/-- The lines of a draft are the lines of the request. -/
abbrev Priced (items : List ItemInput) (calculations : List ItemCalculation) : Prop :=
  List.Forall₂ PricedItem items calculations

/-- A line with its discount and its tax worked out. -/
structure TaxedItem (inclusive intraState : Bool) (item : ItemInput) (it : ItemCalculation) :
    Prop extends PricedItem item it where
  discount : it.discount = item.discount.getD 0
  explicitTax : 0 ≤ item.tax.getD 0
  tax : Gst.lineTax (it.unitPrice * it.quantity - it.discount) it.rate inclusive item.tax =
    ⟨it.taxable, it.tax⟩
  lineTotal : it.lineTotal = it.taxable + it.tax
  split : it.split = Gst.splitTax it.tax intraState

/-- What `prepare` makes of a request under the order defaults of the workspace. -/
structure Drafted (defaults : Gst.OrderDefaults) (body : CreateBody) (d : OrderDraft) :
    Prop where
  items : List.Forall₂
    (TaxedItem (defaults.taxProfile.pricesIncludeTax.getD false) d.intraState) body.items d.items
  shipping : d.shippingCents = body.shippingTotal.getD 0
  metadata : ∃ rate, d.metadata = (body.metadata.insert "gstRatePercent" (.num rate)).insert
    "pricesIncludeTax" (.bool (defaults.taxProfile.pricesIncludeTax.getD false))

theorem Drafted.priced {defaults : Gst.OrderDefaults} {body : CreateBody} {d : OrderDraft}
    (h : Drafted defaults body d) : Priced body.items d.items :=
  h.items.imp fun _ _ hitem => hitem.toPricedItem

theorem calculateItem_returns {chargesGst inclusive intraState : Bool} {rate : ℤ}
    {variant : ProductVariant} {item : ItemInput} :
    (calculateItem chargesGst inclusive intraState rate variant item).Returns
      (TaxedItem inclusive intraState item) := by
  refine (Returns.require _).bind fun _ hpos => .bind_any fun _ => ?_
  refine (Returns.require _).bind fun _ htax => .bind_any fun _ => ?_
  exact { variant := rfl, warehouse := rfl, quantity := rfl, positive := hpos, discount := rfl
          explicitTax := htax, tax := rfl, lineTotal := rfl, split := rfl }

theorem calculateItem_readsOnly {chargesGst inclusive intraState : Bool} {rate : ℤ}
    {variant : ProductVariant} {item : ItemInput} :
    (calculateItem chargesGst inclusive intraState rate variant item).ReadsOnly := by
  refine (ReadsOnly.require _ _).bind fun _ => (ReadsOnly.require _ _).bind fun _ => ?_
  refine (ReadsOnly.require _ _).bind fun _ => (ReadsOnly.require _ _).bind fun _ => ?_
  exact .ret _

private theorem forall₂_of_sold {R : ItemInput → ItemCalculation → Prop}
    {items : List ItemInput} {sold : List (ProductVariant × ItemInput)}
    {calculations : List ItemCalculation}
    (hsold : List.Forall₂ (fun item x => Prod.snd x = item) items sold)
    (hcalc : List.Forall₂ (fun x it => R (Prod.snd x) it) sold calculations) :
    List.Forall₂ R items calculations := by
  induction hsold generalizing calculations with
  | nil =>
    cases hcalc
    exact .nil
  | cons hx _ ih =>
    cases hcalc with
    | cons hy hrest =>
      subst hx
      exact .cons hy (ih hrest)

/-- `prepare` reads the order defaults first, and drafts the order under them. -/
theorem prepare_eq (env : Environment) (tenantId : Uuid) (body : CreateBody) :
    ∃ rest, prepare env tenantId body = query (Gst.resolveOrderDefaults env tenantId) >>= rest ∧
      ∀ defaults, (rest defaults).Returns (Drafted defaults body) := by
  refine ⟨_, rfl, fun defaults => ?_⟩
  refine .bind_any fun found => .bind_any fun customer => .bind_any fun _ => ?_
  refine .bind_any fun shipping => .bind_any fun billing => .bind_any fun variants => ?_
  refine (Returns.mapM (P := fun item x => Prod.snd x = item) fun item _ => ?_).bind
    fun sold hsold => ?_
  · exact .bind_any fun variant => .bind_any fun _ => rfl
  refine .bind_any fun warehouses => .bind_any fun _ => ?_
  refine (Returns.mapM fun x _ => calculateItem_returns).bind fun items hitems => ?_
  exact .bind_any fun tenant => ⟨forall₂_of_sold hsold hitems, rfl, _, rfl⟩

theorem prepare_returns (env : Environment) (tenantId : Uuid) (body : CreateBody) :
    (prepare env tenantId body).Returns fun d => ∃ defaults, Drafted defaults body d := by
  obtain ⟨rest, heq, hrest⟩ := prepare_eq env tenantId body
  rw [heq]
  exact .bind_any fun defaults => (hrest defaults).mono fun d hd => ⟨defaults, hd⟩

/-- Alone on a state, the order is drafted under the defaults stored there. -/
theorem runs_prepare {env : Environment} {tenantId : Uuid} {body : CreateBody} {d : OrderDraft}
    (h : Runs answer (prepare env tenantId body) s d es) :
    Drafted (Gst.resolveOrderDefaults env tenantId s) body d := by
  obtain ⟨rest, heq, hrest⟩ := prepare_eq env tenantId body
  rw [heq, runs_query_bind] at h
  exact (hrest _).of_runs h

theorem assertWithinPlan_readsOnly (env : Environment) (tenantId : Uuid) :
    (assertWithinPlan env tenantId).ReadsOnly := by
  refine (ReadsOnly.query _).bind fun plan => ?_
  split
  · exact .ret ()
  · exact (ReadsOnly.query _).bind fun _ => .require _ _

theorem resolveOrderAddress_readsOnly (customerId tenantId : Uuid) (type : AddressType)
    (addressId : Option Uuid) :
    (resolveOrderAddress customerId tenantId type addressId).ReadsOnly := by
  unfold resolveOrderAddress
  split
  · exact .query _
  · refine (ReadsOnly.query _).bind fun _ => (ReadsOnly.orRaise _ _).bind fun _ => ?_
    exact (ReadsOnly.require _ _).bind fun _ => .ret _

theorem prepare_readsOnly (env : Environment) (tenantId : Uuid) (body : CreateBody) :
    (prepare env tenantId body).ReadsOnly := by
  unfold prepare
  refine (ReadsOnly.query _).bind fun defaults => (ReadsOnly.query _).bind fun found => ?_
  refine (ReadsOnly.orRaise _ _).bind fun customer => ?_
  refine (assertWithinPlan_readsOnly _ _).bind fun _ => ?_
  refine (resolveOrderAddress_readsOnly _ _ _ _).bind fun shipping => ?_
  refine (resolveOrderAddress_readsOnly _ _ _ _).bind fun billing => ?_
  refine (ReadsOnly.query _).bind fun variants => ?_
  refine (ReadsOnly.mapM fun item _ => ?_).bind fun sold => ?_
  · exact (ReadsOnly.orRaise _ _).bind fun _ => (ReadsOnly.require _ _).bind fun _ => .ret _
  refine (ReadsOnly.query _).bind fun warehouses => ?_
  refine (ReadsOnly.forM fun item _ => .require _ _).bind fun _ => ?_
  refine (ReadsOnly.mapM fun x _ => calculateItem_readsOnly).bind fun items => ?_
  exact (ReadsOnly.query _).bind fun tenant => .ret _

/-! ### Reservations -/

/-- The deductions of an order: each line lowers the stock it finds. -/
inductive ReservesStock (tenantId : Uuid) : Db → List ItemCalculation → List Edit → Prop
  | nil {s : Db} : ReservesStock tenantId s [] []
  | cons {s : Db} {it : ItemCalculation} {items : List ItemCalculation} {ws es : List Edit}
      (hle : it.quantity ≤ s.quantity (it.stockKey tenantId))
      (hws : WritesStock s (it.stockKey tenantId)
        (s.quantity (it.stockKey tenantId) - it.quantity) ws)
      (hrest : ReservesStock tenantId (s.setStock (it.stockKey tenantId)
        (s.quantity (it.stockKey tenantId) - it.quantity)) items es) :
      ReservesStock tenantId s (it :: items) (ws ++ es)

theorem runs_reserveItem {tenantId : Uuid} {it : ItemCalculation} {u : Unit}
    (h : Runs answer (reserveItem tenantId it) s u es) :
    it.quantity ≤ s.quantity (it.stockKey tenantId) ∧
      WritesStock s (it.stockKey tenantId)
        (s.quantity (it.stockKey tenantId) - it.quantity) es := by
  simp only [reserveItem, runs_query_bind, runs_ensure_bind] at h
  obtain ⟨hle, hk, h⟩ := h
  obtain ⟨-, rfl⟩ := (runs_updateStock hk).mp h
  exact ⟨hle, .update hk⟩

theorem runs_reserveItems {tenantId : Uuid} {items : List ItemCalculation} {u : Unit}
    (h : Runs answer (forM items (reserveItem tenantId)) s u es) :
    ReservesStock tenantId s items es := by
  induction items generalizing s es with
  | nil =>
    obtain rfl := runs_forM_nil.mp h
    exact .nil
  | cons it items ih =>
    obtain ⟨ws, es', hws, hrest, rfl⟩ := runs_forM_cons.mp h
    obtain ⟨hle, hws⟩ := runs_reserveItem hws
    rw [hws.replay] at hrest
    exact .cons hle hws (ih hrest)

/-- The journal rows of an order, from the quantities after all its deductions. -/
def reservationEdits (tenantId userId orderId : Uuid) (items : List ItemCalculation)
    (s : Db) : List Edit :=
  items.map fun it => .inventoryMovementInsert
    (reservationRow tenantId userId orderId it (s.quantity (it.stockKey tenantId)))

theorem reservationEdits_congr {tenantId userId orderId : Uuid}
    {items : List ItemCalculation} {s s' : Db} (h : s.inventory = s'.inventory) :
    reservationEdits tenantId userId orderId items s =
      reservationEdits tenantId userId orderId items s' := by
  simp only [reservationEdits, Db.quantity, h]

theorem runs_recordReservation {tenantId userId orderId : Uuid} {it : ItemCalculation}
    {u : Unit} (h : Runs answer (recordReservation tenantId userId orderId it) s u es) :
    es = [.inventoryMovementInsert
      (reservationRow tenantId userId orderId it (s.quantity (it.stockKey tenantId)))] := by
  simp only [recordReservation, runs_query_bind, runs_orRaise_bind] at h
  obtain ⟨q, hq, h⟩ := h
  obtain ⟨-, -, rfl⟩ := runs_recordMovement.mp h
  simp [Db.quantity, hq]

theorem runs_recordReservations {tenantId userId orderId : Uuid}
    {items : List ItemCalculation} {u : Unit}
    (h : Runs answer (forM items (recordReservation tenantId userId orderId)) s u es) :
    es = reservationEdits tenantId userId orderId items s := by
  induction items generalizing s es with
  | nil => exact runs_forM_nil.mp h
  | cons it items ih =>
    obtain ⟨es₁, es₂, h₁, h₂, rfl⟩ := runs_forM_cons.mp h
    rw [runs_recordReservation h₁] at h₂ ⊢
    rw [ih h₂]
    rfl

/-- Deductions change the stock tables and nothing else. -/
theorem ReservesStock.replay {tenantId : Uuid} {items : List ItemCalculation}
    (h : ReservesStock tenantId s items es) :
    ∃ inventory warehouseInventory,
      sales.replay es s = { s with inventory, warehouseInventory } := by
  induction h with
  | nil => exact ⟨_, _, rfl⟩
  | cons _ hws _ ih =>
    rw [Database.replay_append, hws.replay]
    exact ih

/-! ### Creation -/

theorem runs_nextInvoiceNumber {tenantId : Uuid} {financialYear : String} {n : ℕ}
    (h : Runs answer (nextInvoiceNumber tenantId financialYear) s n es) :
    es = [.invoiceSequenceUpsert tenantId financialYear n] := by
  obtain ⟨_, _, heq, hn, rfl⟩ := runs_write.mp h
  obtain rfl := Except.ok.inj heq
  obtain ⟨rfl, rfl⟩ := runs_ret.mp hn
  rfl

/-- Everything `create` writes up to the callback, once the deductions `ws` are made. -/
def placedEdits (env : Environment) (tenantId userId orderId : Uuid) (d : OrderDraft)
    (n : ℕ) (ws : List Edit) (s : Db) : List Edit :=
  ws ++ .invoiceSequenceUpsert tenantId env.financialYear n ::
    .orderInsert orderId (orderRow env tenantId d n) ::
    ((d.items.map fun it => .orderItemInsert (orderItemRow tenantId orderId it)) ++
      (reservationEdits tenantId userId orderId d.items (sales.replay ws s) ++
        [.orderStatusHistoryInsert (historyRow tenantId orderId userId none .pending
          (some "Order created"))]))

theorem replay_orderItems {β : Type} (f : β → OrderItem) (xs : List β) (s : Db) :
    sales.replay (xs.map fun x => .orderItemInsert (f x)) s =
      { s with orderItems := s.orderItems ++ xs.map f } := by
  induction xs generalizing s with
  | nil => simp
  | cons x xs ih => simp [ih]

theorem runs_place {env : Environment} {tenantId userId orderId : Uuid} {d : OrderDraft}
    {inTx : Uuid → Order → Sql Unit} {r : Option Order}
    (h : Runs answer (place env tenantId userId orderId d inTx) s r es) :
    ∃ (n : ℕ) (ws es' : List Edit) (u : Unit),
      ReservesStock tenantId s d.items ws ∧ s.orders.lookup orderId = none ∧
      Runs answer (inTx orderId (orderRow env tenantId d n))
        (sales.replay (placedEdits env tenantId userId orderId d n ws s) s) u es' ∧
      es = placedEdits env tenantId userId orderId d n ws s ++ es' := by
  obtain ⟨_, es₁, _, hlock, h₁, rfl⟩ := run_bind.mp h
  obtain rfl := runs_forM_lockRow.mp hlock
  obtain ⟨_, ws, _, hws, h₂, rfl⟩ := run_bind.mp h₁
  have hws : ReservesStock tenantId s d.items ws := runs_reserveItems hws
  -- the deductions touch the stock only, so the later statements find the rest as it was
  obtain ⟨inventory, warehouseInventory, hstock⟩ := hws.replay
  obtain ⟨n, es₂, _, hn, h₃, rfl⟩ := run_bind.mp h₂
  obtain rfl := runs_nextInvoiceNumber hn
  obtain ⟨_, es₃, horder, h₄, rfl⟩ := runs_perform_bind.mp h₃
  obtain ⟨hfresh, rfl⟩ := Statement.insertOrder_eq_ok horder
  obtain ⟨_, es₄, _, hitems, h₅, rfl⟩ := run_bind.mp h₄
  obtain rfl := runs_forM_record.mp hitems
  obtain ⟨_, es₅, _, hres, h₆, rfl⟩ := run_bind.mp h₅
  have hres : es₅ = reservationEdits tenantId userId orderId d.items (sales.replay ws s) := by
    rw [runs_recordReservations hres, replay_orderItems]
    exact reservationEdits_congr rfl
  subst hres
  obtain ⟨es₆, h₇, rfl⟩ := runs_record_bind.mp h₆
  obtain ⟨u, es₇, _, hin, hquery, rfl⟩ := run_bind.mp h₇
  obtain ⟨-, rfl⟩ := runs_query.mp hquery
  refine ⟨n, ws, es₇, u, hws, ?_, ?_, ?_⟩
  · simpa [hstock] using hfresh
  · simpa [placedEdits] using hin
  · simp [placedEdits]

theorem runs_create {env : Environment} {tenantId userId orderId : Uuid}
    {body : CreateBody} {inTx : Uuid → Order → Sql Unit} {r : Option Order}
    (h : Runs answer (create env tenantId userId orderId body inTx) s r es) :
    ∃ (d : OrderDraft) (n : ℕ) (ws es' : List Edit) (u : Unit),
      Priced body.items d.items ∧ ReservesStock tenantId s d.items ws ∧
      s.orders.lookup orderId = none ∧
      Runs answer (inTx orderId (orderRow env tenantId d n))
        (sales.replay (placedEdits env tenantId userId orderId d n ws s) s) u es' ∧
      es = placedEdits env tenantId userId orderId d n ws s ++ es' := by
  obtain ⟨d, es₀, _, hd, hplace, rfl⟩ := run_bind.mp h
  have hdrafted := runs_prepare hd
  obtain rfl := (prepare_readsOnly env tenantId body).run_edits hd
  obtain ⟨n, ws, es', u, hplaced⟩ := runs_place hplace
  exact ⟨d, n, ws, es', u, hdrafted.priced, hplaced⟩

/-! ### Status changes -/

theorem runs_getById_bind {β : Type} {id tenantId : Uuid} {f : OrderWithItems → Sql β}
    {b : β} :
    Runs answer (getById id tenantId >>= f) s b es ↔
      ∃ order, findById id tenantId s = some order ∧ Runs answer (f order) s b es := by
  unfold getById
  rw [bind_assoc, runs_query_bind, runs_orThrow_bind]

theorem findById_eq_some {id tenantId : Uuid} {order : OrderWithItems} :
    findById id tenantId s = some order ↔
      s.orders.lookup id = some order.row ∧ order.row.tenantId = tenantId ∧
        order.items = s.orderItems.filter (·.orderId = id) := by
  obtain ⟨row, items⟩ := order
  simp only [findById, Option.map_eq_some_iff, Option.filter_eq_some_iff,
    OrderWithItems.mk.injEq, decide_eq_true_eq]
  constructor
  · rintro ⟨row', ⟨hrow, htenant⟩, rfl, rfl⟩
    exact ⟨hrow, htenant, rfl⟩
  · rintro ⟨hrow, htenant, rfl⟩
    exact ⟨row, ⟨hrow, htenant⟩, rfl, rfl⟩

/-- The two edits of a status change. -/
def statusEdits (id tenantId userId : Uuid) (row : Order) (status : OrderStatus)
    (reason : Option String) : List Edit :=
  [.orderUpdate id { row with status },
    .orderStatusHistoryInsert
      (historyRow tenantId id userId (some row.status) status reason)]

theorem runs_updateStatus {id tenantId userId : Uuid} {status : OrderStatus}
    {reason : Option String} {r : Option OrderWithItems} :
    Runs answer (updateStatus id tenantId userId status reason) s r es ↔
      ∃ order, findById id tenantId s = some order ∧
        isValidTransition order.row.status status = true ∧
        es = statusEdits id tenantId userId order.row status (truthy reason) ∧
        r = findById id tenantId (sales.replay es s) := by
  simp only [updateStatus, runs_getById_bind, runs_ensure_bind, runs_perform_bind,
    runs_record_bind, runs_query, Statement.updateOrderStatus_eq_ok]
  constructor
  · rintro ⟨order, horder, hvalid, _, _, ⟨row, hrow, rfl⟩, ⟨_, ⟨rfl, rfl⟩, rfl⟩, rfl⟩
    obtain rfl : order.row = row := by
      rw [(findById_eq_some.mp horder).1] at hrow
      exact Option.some.inj hrow
    exact ⟨order, horder, hvalid, rfl, rfl⟩
  · rintro ⟨order, horder, hvalid, rfl, rfl⟩
    exact ⟨order, horder, hvalid, _, _,
      ⟨order.row, (findById_eq_some.mp horder).1, rfl⟩, ⟨_, ⟨rfl, rfl⟩, rfl⟩, rfl⟩

/-! ### Releases -/

/-- One restored quantity. `both` is false for the fallback, which leaves
`warehouse_inventory` alone. -/
structure Release where
  key : StockKey
  quantity : ℤ
  both : Bool

/-- The restorations of a cancellation: each raises the stock it finds and is journalled at
once. -/
inductive Releases (userId orderId : Uuid) (reason : Option String) :
    Db → List Release → List Edit → Prop
  | nil {s : Db} : Releases userId orderId reason s [] []
  | both {s : Db} {k : StockKey} {n : ℤ} {ws es : List Edit} {rs : List Release}
      (hnonneg : 0 ≤ s.quantity k + n) (hws : WritesStock s k (s.quantity k + n) ws)
      (hrest : Releases userId orderId reason ((s.setStock k (s.quantity k + n)).addMovement
        (releaseRow k userId orderId reason (s.quantity k) n)) rs es) :
      Releases userId orderId reason s (⟨k, n, true⟩ :: rs)
        (ws ++ .inventoryMovementInsert
          (releaseRow k userId orderId reason (s.quantity k) n) :: es)
  | inventoryOnly {s : Db} {k : StockKey} {n : ℤ} {es : List Edit} {rs : List Release}
      (hk : (s.inventory.lookup k).isSome) (hnonneg : 0 ≤ s.quantity k + n)
      (hrest : Releases userId orderId reason
        ((s.setInventory k (s.quantity k + n)).addMovement
          (releaseRow k userId orderId reason (s.quantity k) n)) rs es) :
      Releases userId orderId reason s (⟨k, n, false⟩ :: rs)
        (.inventoryUpdate k (s.quantity k + n) :: .inventoryMovementInsert
          (releaseRow k userId orderId reason (s.quantity k) n) :: es)

variable {userId orderId tenantId : Uuid} {reason : Option String} {rs : List Release}

theorem Releases.append {rs' : List Release} {es' : List Edit}
    (h : Releases userId orderId reason s rs es)
    (h' : Releases userId orderId reason (sales.replay es s) rs' es') :
    Releases userId orderId reason s (rs ++ rs') (es ++ es') := by
  induction h with
  | nil => exact h'
  | both hnonneg hws _ ih =>
    rw [Database.replay_append, hws.replay] at h'
    rw [List.append_assoc]
    exact .both hnonneg hws (ih h')
  | inventoryOnly hk hnonneg _ ih => exact .inventoryOnly hk hnonneg (ih h')

/-- Releases change the stock tables and append their rows to the journal. -/
theorem Releases.replay (h : Releases userId orderId reason s rs es) :
    ∃ inventory warehouseInventory rows,
      sales.replay es s = { s with
        inventory, warehouseInventory, inventoryMovements := s.inventoryMovements ++ rows } ∧
      rows.map (fun m => (m.stockKey, m.quantityChanged)) =
        rs.map (fun r => (r.key, r.quantity)) ∧
      ∀ m ∈ rows, m.type = .orderRelease ∧ m.referenceType = some "ORDER" ∧
        m.referenceId = some orderId := by
  induction h with
  | @nil s => exact ⟨s.inventory, s.warehouseInventory, [], by simp, rfl, by simp⟩
  | @both s k n ws es rs _ hws _ ih =>
    obtain ⟨inventory, warehouseInventory, rows, hrows, hkeys, htype⟩ := ih
    refine ⟨inventory, warehouseInventory,
      releaseRow k userId orderId reason (s.quantity k) n :: rows, ?_, ?_, ?_⟩
    · rw [Database.replay_append, hws.replay, Database.replay_cons]
      exact hrows.trans (by simp [Db.addMovement, Db.setStock])
    · rw [List.map_cons, List.map_cons, hkeys]
      rfl
    · simpa [releaseRow] using htype
  | @inventoryOnly s k n es rs _ _ _ ih =>
    obtain ⟨inventory, warehouseInventory, rows, hrows, hkeys, htype⟩ := ih
    refine ⟨inventory, warehouseInventory,
      releaseRow k userId orderId reason (s.quantity k) n :: rows, ?_, ?_, ?_⟩
    · rw [Database.replay_cons, Database.replay_cons]
      exact hrows.trans (by simp [Db.addMovement, Db.setInventory])
    · rw [List.map_cons, List.map_cons, hkeys]
      rfl
    · simpa [releaseRow] using htype

/-- Releases leave the reservation movements as they are. -/
theorem Releases.reservations_eq (h : Releases userId orderId reason s rs es)
    (tenantId productVariantId : Uuid) :
    reservations tenantId orderId productVariantId (sales.replay es s) =
      reservations tenantId orderId productVariantId s := by
  obtain ⟨_, _, rows, hrows, -, htype⟩ := h.replay
  have hnone : rows.filter (fun m => m.tenantId = tenantId ∧
      m.productVariantId = productVariantId ∧ m.referenceType = some "ORDER" ∧
      m.referenceId = some orderId ∧ m.type = .orderReservation) = [] := by
    rw [List.filter_eq_nil_iff]
    intro m hm
    simp [(htype m hm).1]
  simp only [reservations, hrows, List.filter_append, hnone, List.append_nil]

/-- The fallback creates no rows. -/
theorem Releases.isSome_lookup {k : StockKey} (h : Releases userId orderId reason s rs es)
    (hk : ∀ r ∈ rs, r.key = k → r.both = false) :
    ((sales.replay es s).inventory.lookup k).isSome = (s.inventory.lookup k).isSome := by
  induction h with
  | nil => rfl
  | @both s k' n ws es rs _ hws _ ih =>
    have hne : k ≠ k' := by
      rintro rfl
      simpa using hk _ (List.mem_cons_self ..) rfl
    rw [Database.replay_append, hws.replay, Database.replay_cons]
    refine (ih fun r hr => hk r (by simp [hr])).trans ?_
    rw [Db.addMovement, lookup_setStock_ne hne]
  | @inventoryOnly s k' n es rs hk' _ _ ih =>
    rw [Database.replay_cons, Database.replay_cons]
    refine (ih fun r hr => hk r (by simp [hr])).trans ?_
    by_cases hkk : k = k'
    · subst hkk
      simp [Db.addMovement, Db.setInventory, hk']
    · simp [Db.addMovement, Db.setInventory, hkk]

/-- The releases of a line with reservation movements: one for each of them. -/
def releasesOf (tenantId orderId : Uuid) (s : Db) (item : OrderItem) : List Release :=
  (reservations tenantId orderId item.productVariantId s).map fun m =>
    ⟨⟨tenantId, item.productVariantId, m.warehouseId⟩, |m.quantityChanged|, true⟩

/-- Some stock row of the variant exists. -/
def HasStock (tenantId productVariantId : Uuid) (s : Db) : Prop :=
  ∃ k : StockKey, k.tenantId = tenantId ∧ k.productVariantId = productVariantId ∧
    (s.inventory.lookup k).isSome

/-- What cancelling restores for one line, judged by the state before the cancellation. -/
inductive ItemReleases (tenantId orderId : Uuid) (s : Db) (item : OrderItem) :
    List Release → Prop
  | reserved (h : reservations tenantId orderId item.productVariantId s ≠ []) :
      ItemReleases tenantId orderId s item (releasesOf tenantId orderId s item)
  | nowhere (h : reservations tenantId orderId item.productVariantId s = [])
      (hno : ¬ HasStock tenantId item.productVariantId s) :
      ItemReleases tenantId orderId s item []
  | fallback {k : StockKey} (h : reservations tenantId orderId item.productVariantId s = [])
      (htenant : k.tenantId = tenantId) (hvariant : k.productVariantId = item.productVariantId)
      (hk : (s.inventory.lookup k).isSome) :
      ItemReleases tenantId orderId s item [⟨k, item.quantity, false⟩]

theorem ItemReleases.key {item : OrderItem} (h : ItemReleases tenantId orderId s item rs)
    {r : Release} (hr : r ∈ rs) :
    r.key.tenantId = tenantId ∧ r.key.productVariantId = item.productVariantId := by
  cases h with
  | reserved _ =>
    obtain ⟨m, -, rfl⟩ := List.mem_map.mp hr
    exact ⟨rfl, rfl⟩
  | nowhere _ _ => simp at hr
  | fallback _ htenant hvariant _ =>
    obtain rfl := List.mem_singleton.mp hr
    exact ⟨htenant, hvariant⟩

theorem mem_inventoriesOf {tenantId productVariantId : Uuid} {k : StockKey} {q : ℤ} :
    (k, q) ∈ inventoriesOf tenantId productVariantId s ↔
      s.inventory.lookup k = some q ∧ k.tenantId = tenantId ∧
        k.productVariantId = productVariantId := by
  simp only [inventoriesOf, List.mem_filter, List.mem_map, Prod.mk.injEq, decide_eq_true_eq]
  rw [← Option.mem_def, AList.mem_lookup_iff]
  constructor
  · rintro ⟨⟨⟨k', q'⟩, hmem, rfl, rfl⟩, hkeys⟩
    exact ⟨hmem, hkeys⟩
  · rintro ⟨hmem, hkeys⟩
    exact ⟨⟨⟨k, q⟩, hmem, rfl, rfl⟩, hkeys⟩

theorem inventoriesOf_eq_nil {tenantId productVariantId : Uuid} :
    inventoriesOf tenantId productVariantId s = [] ↔
      ¬ HasStock tenantId productVariantId s := by
  rw [List.eq_nil_iff_forall_not_mem]
  constructor
  · rintro h ⟨k, htenant, hvariant, hk⟩
    obtain ⟨q, hq⟩ := Option.isSome_iff_exists.mp hk
    exact h (k, q) (mem_inventoriesOf.mpr ⟨hq, htenant, hvariant⟩)
  · rintro h ⟨k, q⟩ hmem
    obtain ⟨hq, htenant, hvariant⟩ := mem_inventoriesOf.mp hmem
    exact h ⟨k, htenant, hvariant, by simp [hq]⟩

instance (tenantId productVariantId : Uuid) (s : Db) :
    Decidable (HasStock tenantId productVariantId s) :=
  decidable_of_iff (inventoriesOf tenantId productVariantId s ≠ [])
    (inventoriesOf_eq_nil.not.trans not_not)

/-- Releasing one line does not change what the others will restore. -/
theorem ItemReleases.of_replay {item item' : OrderItem} {rs' : List Release}
    (hitem : ItemReleases tenantId orderId s item rs)
    (h : Releases userId orderId reason s rs es)
    (h' : ItemReleases tenantId orderId (sales.replay es s) item' rs') :
    ItemReleases tenantId orderId s item' rs' := by
  have hres := h.reservations_eq tenantId item'.productVariantId
  -- a release creates no row of a variant without reservations
  have hstock (hnone : reservations tenantId orderId item'.productVariantId s = [])
      (k : StockKey) (hvariant : k.productVariantId = item'.productVariantId) :
      ((sales.replay es s).inventory.lookup k).isSome = (s.inventory.lookup k).isSome := by
    refine h.isSome_lookup fun r hr hrk => ?_
    cases hitem with
    | reserved hsome =>
      obtain ⟨m, -, rfl⟩ := List.mem_map.mp hr
      refine absurd hnone ?_
      rwa [← hvariant, ← hrk]
    | nowhere _ _ => simp at hr
    | fallback _ _ _ _ => rw [List.mem_singleton.mp hr]
  cases h' with
  | reserved hsome =>
    rw [hres] at hsome
    have heq : releasesOf tenantId orderId (sales.replay es s) item' =
        releasesOf tenantId orderId s item' := by rw [releasesOf, hres, releasesOf]
    rw [heq]
    exact .reserved hsome
  | nowhere hnone hno =>
    rw [hres] at hnone
    refine .nowhere hnone ?_
    rintro ⟨k, htenant, hvariant, hk⟩
    exact hno ⟨k, htenant, hvariant, by rwa [hstock hnone k hvariant]⟩
  | fallback hnone htenant hvariant hk =>
    rw [hres] at hnone
    exact .fallback hnone htenant hvariant (by rwa [← hstock hnone _ hvariant])

theorem runs_releaseMovement {item : OrderItem} {mov : InventoryMovement} {u : Unit}
    (h : Runs answer (releaseMovement tenantId userId orderId reason item mov) s u es) :
    Releases userId orderId reason s
      [⟨⟨tenantId, item.productVariantId, mov.warehouseId⟩, |mov.quantityChanged|, true⟩]
      es := by
  simp only [releaseMovement, runs_lockRow_bind, runs_query_bind] at h
  simp only [InventoryService.getD_lookup] at h
  obtain ⟨_, ws, _, hws, hm, rfl⟩ := run_bind.mp h
  obtain ⟨-, -, rfl⟩ := runs_recordMovement.mp hm
  split at hws
  · rename_i hk
    obtain ⟨hnonneg, rfl⟩ := (runs_updateStock hk).mp hws
    exact .both hnonneg (.update hk) .nil
  · rename_i hk
    obtain ⟨_, _, hins, hwi, rfl⟩ := runs_perform_bind.mp hws
    obtain ⟨hnonneg, hk, rfl⟩ := Statement.insertInventory_eq_ok.mp hins
    obtain ⟨_, hins', rfl⟩ := runs_perform.mp hwi
    obtain ⟨-, hw, rfl⟩ := Statement.insertWarehouseInventory_eq_ok.mp hins'
    exact .both hnonneg (.restore hk hw) .nil

theorem runs_releaseMovements {item : OrderItem} {movements : List InventoryMovement}
    {u : Unit}
    (h : Runs answer
      (forM movements (releaseMovement tenantId userId orderId reason item)) s u es) :
    Releases userId orderId reason s (movements.map fun m =>
      ⟨⟨tenantId, item.productVariantId, m.warehouseId⟩, |m.quantityChanged|, true⟩) es := by
  induction movements generalizing s es with
  | nil =>
    obtain rfl := runs_forM_nil.mp h
    exact .nil
  | cons m movements ih =>
    obtain ⟨es₁, es₂, h₁, h₂, rfl⟩ := runs_forM_cons.mp h
    exact (runs_releaseMovement h₁).append (ih h₂)

theorem runs_releaseFallback {item : OrderItem} {u : Unit}
    (hnone : reservations tenantId orderId item.productVariantId s = [])
    (h : Runs answer (releaseFallback tenantId userId orderId reason item) s u es) :
    ∃ rs, ItemReleases tenantId orderId s item rs ∧
      Releases userId orderId reason s rs es := by
  rw [releaseFallback, runs_query_bind] at h
  split at h
  · rename_i hnil
    obtain ⟨-, rfl⟩ := runs_ret.mp h
    exact ⟨[], .nowhere hnone (inventoriesOf_eq_nil.mp hnil), .nil⟩
  · rename_i k q rest hcons
    have hmem : (k, q) ∈ inventoriesOf tenantId item.productVariantId s := by simp [hcons]
    obtain ⟨hq, htenant, hvariant⟩ := mem_inventoriesOf.mp hmem
    have hk : (s.inventory.lookup k).isSome := by simp [hq]
    obtain rfl : s.quantity k = q := by simp [Db.quantity, hq]
    obtain ⟨_, es', hupdate, hm, rfl⟩ := runs_perform_bind.mp h
    obtain ⟨hnonneg, rfl⟩ := (Statement.updateInventory_eq_ok hk).mp hupdate
    obtain ⟨-, -, rfl⟩ := runs_recordMovement.mp hm
    exact ⟨_, .fallback hnone htenant hvariant hk, .inventoryOnly hk hnonneg .nil⟩

theorem runs_releaseItem {item : OrderItem} {u : Unit}
    (h : Runs answer (releaseItem tenantId userId orderId reason item) s u es) :
    ∃ rs, ItemReleases tenantId orderId s item rs ∧
      Releases userId orderId reason s rs es := by
  rw [releaseItem, runs_query_bind] at h
  split at h
  · rename_i hsome
    exact ⟨_, .reserved hsome, runs_releaseMovements h⟩
  · rename_i hnone
    exact runs_releaseFallback (not_not.mp hnone) h

theorem runs_releaseItems {items : List OrderItem} {u : Unit}
    (h : Runs answer (forM items (releaseItem tenantId userId orderId reason)) s u es) :
    ∃ rss, List.Forall₂ (ItemReleases tenantId orderId s) items rss ∧
      Releases userId orderId reason s rss.flatten es := by
  induction items generalizing s es with
  | nil =>
    obtain rfl := runs_forM_nil.mp h
    exact ⟨[], .nil, .nil⟩
  | cons item items ih =>
    obtain ⟨es₁, es₂, h₁, h₂, rfl⟩ := runs_forM_cons.mp h
    obtain ⟨rs, hitem, hrs⟩ := runs_releaseItem h₁
    obtain ⟨rss, hitems, hrss⟩ := ih h₂
    exact ⟨rs :: rss, .cons hitem (hitems.imp fun _ _ h => hitem.of_replay hrs h),
      hrs.append hrss⟩

theorem runs_cancel {id : Uuid} {r : Option OrderWithItems}
    (h : Runs answer (cancel id tenantId userId reason) s r es) :
    ∃ (order : OrderWithItems) (rss : List (List Release)) (es₁ : List Edit),
      findById id tenantId s = some order ∧ order.row.status ∈ cancellableStatuses ∧
      List.Forall₂ (ItemReleases tenantId id s) order.items rss ∧
      Releases userId id reason s rss.flatten es₁ ∧
      es = es₁ ++ statusEdits id tenantId userId order.row .cancelled
        (some ((truthy reason).getD "Order cancelled")) := by
  simp only [cancel, runs_getById_bind, runs_ensure_bind] at h
  obtain ⟨order, horder, hstatus, -, h⟩ := h
  obtain ⟨_, es₁, es₂, hrel, h₂, rfl⟩ := run_bind.mp h
  obtain ⟨rss, hitems, hrss⟩ := runs_releaseItems hrel
  obtain ⟨_, _, _, hstate, -⟩ := hrss.replay
  simp only [runs_perform_bind, runs_record_bind, runs_query,
    Statement.updateOrderStatus_eq_ok] at h₂
  obtain ⟨_, _, ⟨row, hrow, rfl⟩, ⟨_, ⟨-, rfl⟩, rfl⟩, rfl⟩ := h₂
  rw [hstate] at hrow
  obtain rfl : order.row = row := by
    have := (findById_eq_some.mp horder).1.symm.trans hrow
    exact Option.some.inj this
  exact ⟨order, rss, es₁, horder, hstatus, hitems, hrss, rfl⟩

/-! ### What an order writes besides its own rows -/

theorem reserveItem_emits (tenantId : Uuid) (it : ItemCalculation) :
    (reserveItem tenantId it).Emits Edit.IsStock := by
  refine (ReadsOnly.query _).emits.bind fun rows => ?_
  refine (ReadsOnly.require _ _).emits.bind fun _ => ?_
  exact (ReadsOnly.require _ _).emits.bind fun _ => emits_updateStock

theorem recordReservation_emits (tenantId userId orderId : Uuid) (it : ItemCalculation) :
    (recordReservation tenantId userId orderId it).Emits Edit.IsStock := by
  refine (ReadsOnly.query _).emits.bind fun rows => ?_
  exact (ReadsOnly.orRaise _ _).emits.bind fun _ => emits_recordMovement

end PulseOps.OrderService
