import Mathlib.Tactic.Ring
import PulseOps.ReadCommitted.Groups
import PulseOps.ReadCommitted.Tables
import PulseOps.Stock.Requests

/-!
# Consistent databases

What the stock and order tables satisfy in every state the services can reach: the two
stock tables have the same rows, no quantity is negative, and every reservation movement
belongs to a line of an order.

## Main definitions

* `Db.Consistent` — the invariant.
* `restored` — what a list of releases adds to one stock row.

## Main results

* `Consistent.effect` — every request keeps a database consistent.
* `Releases.quantity` — the stock after a list of releases.
-/

set_option autoImplicit false

open ReadCommitted Program

namespace PulseOps

open OrderService InventoryService

variable {s : Db} {es : List Edit} {k : StockKey} {q : ℤ} {answer : Call → Reply}

/-! ### Stock rows -/

/-- The two stock tables have the same rows, and no quantity is negative. -/
structure Db.StockSound (s : Db) : Prop where
  sameRows : ∀ k, (s.inventory.lookup k).isSome = (s.warehouseInventory.lookup k).isSome
  nonneg : ∀ k, 0 ≤ s.quantity k

theorem Db.StockSound.setStock (hs : s.StockSound) (hq : 0 ≤ q) :
    (s.setStock k q).StockSound where
  sameRows k' := by
    by_cases hk : k' = k
    · subst hk
      simp [Db.setStock]
    · simpa [Db.setStock, AList.lookup_insert_ne hk] using hs.sameRows k'
  nonneg k' := by
    by_cases hk : k' = k
    · subst hk
      rwa [quantity_setStock_self]
    · rw [quantity_setStock_ne hk]
      exact hs.nonneg k'

theorem quantity_setInventory_self : (s.setInventory k q).quantity k = q := by
  simp [Db.quantity, Db.setInventory]

theorem quantity_setInventory_ne {k' : StockKey} (h : k' ≠ k) :
    (s.setInventory k q).quantity k' = s.quantity k' := by
  simp [Db.quantity, Db.setInventory, AList.lookup_insert_ne h]

theorem Db.StockSound.setInventory (hs : s.StockSound) (hk : (s.inventory.lookup k).isSome)
    (hq : 0 ≤ q) : (s.setInventory k q).StockSound where
  sameRows k' := by
    by_cases hkk : k' = k
    · subst hkk
      have h := hs.sameRows k'
      rw [hk] at h
      simp [Db.setInventory, ← h]
    · simpa [Db.setInventory, AList.lookup_insert_ne hkk] using hs.sameRows k'
  nonneg k' := by
    by_cases hkk : k' = k
    · subst hkk
      rwa [quantity_setInventory_self]
    · rw [quantity_setInventory_ne hkk]
      exact hs.nonneg k'

/-- The stock tables are all that matters. -/
theorem Db.StockSound.congr {s' : Db} (hs : s.StockSound) (hi : s'.inventory = s.inventory)
    (hw : s'.warehouseInventory = s.warehouseInventory) : s'.StockSound where
  sameRows k := by rw [hi, hw, hs.sameRows k]
  nonneg k := by
    have h : s'.quantity k = s.quantity k := by rw [Db.quantity, hi, Db.quantity]
    rw [h]
    exact hs.nonneg k

theorem Db.StockSound.reservesStock {tenantId : Uuid} {items : List ItemCalculation}
    (hs : s.StockSound) (h : ReservesStock tenantId s items es) :
    (sales.replay es s).StockSound := by
  induction h with
  | nil => exact hs
  | cons hle hws _ ih =>
    rw [Database.replay_append, hws.replay]
    exact ih (hs.setStock (by omega))

theorem Db.StockSound.releases {userId orderId : Uuid} {reason : Option String}
    {rs : List Release} (hs : s.StockSound) (h : Releases userId orderId reason s rs es) :
    (sales.replay es s).StockSound := by
  induction h with
  | nil => exact hs
  | both hnonneg hws _ ih =>
    rw [Database.replay_append, hws.replay]
    exact ih ((hs.setStock hnonneg).congr rfl rfl)
  | inventoryOnly hk hnonneg _ ih => exact ih ((hs.setInventory hk hnonneg).congr rfl rfl)

/-! ### Deleting a warehouse -/

private theorem lookup_eraseKeys {ρ : Type} (t : Table StockKey ρ) (id : Uuid)
    (k : StockKey) :
    ((t.keys.filter (·.warehouseId = id)).foldl (fun t k => t.erase k) t).lookup k =
      if k.warehouseId = id then none else t.lookup k := by
  rw [AList.lookup_foldl_erase]
  by_cases hk : k.warehouseId = id
  · by_cases hmem : k ∈ t.keys
    · simp [hk, hmem]
    · have hnone : t.lookup k = none := AList.lookup_eq_none.mpr hmem
      simp [hk, hnone]
  · simp [hk]

@[simp] theorem lookup_inventory_deleteWarehouse (s : Db) (id : Uuid) (k : StockKey) :
    (s.deleteWarehouse id).inventory.lookup k =
      if k.warehouseId = id then none else s.inventory.lookup k :=
  lookup_eraseKeys _ _ _

@[simp] theorem lookup_warehouseInventory_deleteWarehouse (s : Db) (id : Uuid)
    (k : StockKey) :
    (s.deleteWarehouse id).warehouseInventory.lookup k =
      if k.warehouseId = id then none else s.warehouseInventory.lookup k :=
  lookup_eraseKeys _ _ _

theorem Db.StockSound.deleteWarehouse (hs : s.StockSound) (id : Uuid) :
    (s.deleteWarehouse id).StockSound where
  sameRows k := by
    rw [lookup_inventory_deleteWarehouse, lookup_warehouseInventory_deleteWarehouse]
    split
    · rfl
    · exact hs.sameRows k
  nonneg k := by
    rw [Db.quantity, lookup_inventory_deleteWarehouse]
    split
    · simp
    · exact hs.nonneg k

/-! ### Orders and their reservations -/

/-- A reservation movement takes stock for a line of an order of its tenant. -/
def Db.Reserves (s : Db) (m : InventoryMovement) : Prop :=
  m.quantityChanged < 0 ∧ m.referenceType = some "ORDER" ∧
    ∃ id row, m.referenceId = some id ∧ s.orders.lookup id = some row ∧
      row.tenantId = m.tenantId ∧
      ∃ it ∈ s.orderItems, it.orderId = id ∧ it.productVariantId = m.productVariantId

/-- Lines belong to orders, reservations belong to lines, and releases give back. -/
structure Db.OrdersSound (s : Db) : Prop where
  line : ∀ it ∈ s.orderItems, 0 < it.quantity ∧ (s.orders.lookup it.orderId).isSome
  reservation : ∀ m ∈ s.inventoryMovements, m.type = .orderReservation → s.Reserves m
  release : ∀ m ∈ s.inventoryMovements, m.type = .orderRelease → 0 ≤ m.quantityChanged

/-- The order, line and movement tables are all that matters. -/
theorem Db.OrdersSound.congr {s' : Db} (hs : s.OrdersSound) (ho : s'.orders = s.orders)
    (hi : s'.orderItems = s.orderItems)
    (hm : s'.inventoryMovements = s.inventoryMovements) : s'.OrdersSound where
  line it hit := by
    rw [hi] at hit
    rw [ho]
    exact hs.line it hit
  reservation m hmem htype := by
    rw [hm] at hmem
    have h := hs.reservation m hmem htype
    rwa [Db.Reserves, ← ho, ← hi] at h
  release m hmem htype := by
    rw [hm] at hmem
    exact hs.release m hmem htype

/-- Journalling movements that are no reservations. -/
theorem Db.OrdersSound.addMovements (hs : s.OrdersSound) (rows : List InventoryMovement)
    (hrows : ∀ m ∈ rows, m.type ≠ .orderReservation ∧
      (m.type = .orderRelease → 0 ≤ m.quantityChanged)) :
    ({ s with inventoryMovements := s.inventoryMovements ++ rows } : Db).OrdersSound where
  line := hs.line
  reservation m hm htype := by
    rcases List.mem_append.mp hm with hm | hm
    · exact hs.reservation m hm htype
    · exact absurd htype (hrows m hm).1
  release m hm htype := by
    rcases List.mem_append.mp hm with hm | hm
    · exact hs.release m hm htype
    · exact (hrows m hm).2 htype

theorem Db.OrdersSound.addMovement {m : InventoryMovement} (hs : s.OrdersSound)
    (h : m.type ≠ .orderReservation) (h' : m.type ≠ .orderRelease) :
    (s.addMovement m).OrdersSound :=
  hs.addMovements [m] (by simp [h, h'])

/-- Writing an order: a new one, or one that keeps its tenant. -/
theorem Db.OrdersSound.insertOrder (hs : s.OrdersSound) (id : Uuid) (row : Order)
    (h : ∀ old, s.orders.lookup id = some old → row.tenantId = old.tenantId) :
    ({ s with orders := s.orders.insert id row } : Db).OrdersSound where
  line it hit := by
    obtain ⟨hpos, hsome⟩ := hs.line it hit
    refine ⟨hpos, ?_⟩
    by_cases hid : it.orderId = id
    · rw [hid]
      simp
    · simpa [AList.lookup_insert_ne hid] using hsome
  reservation m hm htype := by
    obtain ⟨hneg, href, id', row', hid', hrow', htenant, it, hit⟩ := hs.reservation m hm htype
    refine ⟨hneg, href, id', ?_⟩
    by_cases hid : id' = id
    · subst hid
      refine ⟨row, hid', by simp, ?_, it, hit⟩
      rw [h row' hrow', htenant]
    · exact ⟨row', hid', by simpa [AList.lookup_insert_ne hid] using hrow', htenant, it, hit⟩
  release := hs.release

theorem Db.OrdersSound.deleteWarehouse (hs : s.OrdersSound) (id : Uuid) :
    (s.deleteWarehouse id).OrdersSound where
  line := hs.line
  reservation m hm htype := hs.reservation m (List.mem_of_mem_filter hm) htype
  release m hm htype := hs.release m (List.mem_of_mem_filter hm) htype

theorem priced_positive {items : List ItemInput} {calculations : List ItemCalculation}
    (h : Priced items calculations) : ∀ it ∈ calculations, 0 < it.quantity := by
  induction h with
  | nil => simp
  | cons hx _ ih =>
    intro it hit
    rcases List.mem_cons.mp hit with rfl | hit
    · exact hx.positive
    · exact ih it hit

/-- Placing an order with its lines and their reservations. -/
theorem Db.OrdersSound.place {tenantId userId orderId : Uuid} {row : Order}
    {items : List ItemCalculation} {after : ItemCalculation → ℤ} (hs : s.OrdersSound)
    (hfresh : s.orders.lookup orderId = none) (htenant : row.tenantId = tenantId)
    (hpos : ∀ it ∈ items, 0 < it.quantity) :
    ({ s with
      orders := s.orders.insert orderId row
      orderItems := s.orderItems ++ items.map (orderItemRow tenantId orderId)
      inventoryMovements := s.inventoryMovements ++ items.map fun it =>
        reservationRow tenantId userId orderId it (after it) } : Db).OrdersSound where
  line it hit := by
    rcases List.mem_append.mp hit with hit | hit
    · have hne : it.orderId ≠ orderId := by
        intro heq
        have hsome := (hs.line it hit).2
        rw [heq, hfresh] at hsome
        exact absurd hsome (by simp)
      simpa [AList.lookup_insert_ne hne] using hs.line it hit
    · obtain ⟨it', hit', rfl⟩ := List.mem_map.mp hit
      exact ⟨hpos it' hit', by simp [orderItemRow]⟩
  reservation m hm htype := by
    rcases List.mem_append.mp hm with hm | hm
    · obtain ⟨hneg, href, id', row', hid', hrow', htenant', it, hit, hits⟩ :=
        hs.reservation m hm htype
      have hne : id' ≠ orderId := by
        rintro rfl
        simp [hfresh] at hrow'
      exact ⟨hneg, href, id', row', hid', by simpa [AList.lookup_insert_ne hne] using hrow',
        htenant', it, List.mem_append_left _ hit, hits⟩
    · obtain ⟨it, hit, rfl⟩ := List.mem_map.mp hm
      have hq := hpos it hit
      refine ⟨by simpa [reservationRow] using hq, rfl, orderId, row, rfl, by simp, htenant,
        orderItemRow tenantId orderId it, ?_, rfl, rfl⟩
      exact List.mem_append_right _ (List.mem_map_of_mem hit)
  release m hm htype := by
    rcases List.mem_append.mp hm with hm | hm
    · exact hs.release m hm htype
    · obtain ⟨it, -, rfl⟩ := List.mem_map.mp hm
      simp [reservationRow] at htype

/-! ### Consistent databases -/

/-- What every state the services can reach satisfies. -/
structure Db.Consistent (s : Db) : Prop where
  stock : s.StockSound
  orders : s.OrdersSound

/-- A new shop. -/
theorem consistent_of_empty (hi : s.inventory = ∅) (hw : s.warehouseInventory = ∅)
    (hitems : s.orderItems = []) (hm : s.inventoryMovements = []) : s.Consistent where
  stock :=
    { sameRows := fun k => by simp [hi, hw]
      nonneg := fun k => by simp [Db.quantity, hi] }
  orders :=
    { line := by simp [hitems]
      reservation := by simp [hm]
      release := by simp [hm] }

theorem Sample.shop_consistent : Sample.shop.Consistent := by
  have hempty : Sample.emptyShop.Consistent := consistent_of_empty rfl rfl rfl rfl
  exact ⟨hempty.stock.setStock (k := Sample.row) (q := 20) (by decide),
    hempty.orders.congr rfl rfl rfl⟩

theorem Sample.twoBranches_consistent : Sample.twoBranches.Consistent := by
  have hstock := (Sample.shop_consistent.stock.setStock (k := ⟨"shop", "mug", "south"⟩)
    (q := 8) (by decide)).setStock (k := ⟨"shop", "mug", "north"⟩) (q := 4) (by decide)
  exact ⟨hstock.congr rfl rfl, Sample.shop_consistent.orders.congr rfl rfl rfl⟩

variable {userId orderId : Uuid} {reason : Option String} {rs : List Release}

/-- The quantities of the releases of a line. -/
theorem OrderService.ItemReleases.nonneg {tenantId : Uuid} {item : OrderItem}
    (h : ItemReleases tenantId orderId s item rs) (hq : 0 ≤ item.quantity) :
    ∀ r ∈ rs, 0 ≤ r.quantity := by
  intro r hr
  cases h with
  | reserved _ =>
    obtain ⟨m, -, rfl⟩ := List.mem_map.mp hr
    exact abs_nonneg _
  | nowhere _ _ => simp at hr
  | fallback _ _ _ _ =>
    obtain rfl := List.mem_singleton.mp hr
    exact hq

/-- Everything a cancellation releases, from what it releases for each line. -/
theorem forall_mem_flatten {tenantId : Uuid} {items : List OrderItem}
    {rss : List (List Release)} {P : Release → Prop}
    (hitems : List.Forall₂ (ItemReleases tenantId orderId s) items rss)
    (h : ∀ item ∈ items, ∀ rs, ItemReleases tenantId orderId s item rs → ∀ r ∈ rs, P r) :
    ∀ r ∈ rss.flatten, P r := by
  induction hitems with
  | nil => simp
  | cons hx _ ih =>
    intro r hr
    rw [List.flatten_cons, List.mem_append] at hr
    rcases hr with hr | hr
    · exact h _ (by simp) _ hx r hr
    · exact ih (fun item hitem => h item (by simp [hitem])) r hr

theorem OrderService.Releases.ordersSound (hs : s.OrdersSound)
    (h : Releases userId orderId reason s rs es) (hn : ∀ r ∈ rs, 0 ≤ r.quantity) :
    (sales.replay es s).OrdersSound := by
  obtain ⟨inventory, warehouseInventory, rows, hrows, hkeys, htype⟩ := h.replay
  rw [hrows]
  refine (hs.addMovements rows fun m hm => ⟨?_, fun _ => ?_⟩).congr rfl rfl rfl
  · simp [(htype m hm).1]
  · have hmem : (m.stockKey, m.quantityChanged) ∈ rs.map fun r => (r.key, r.quantity) := by
      rw [← hkeys]
      exact List.mem_map_of_mem (f := fun m : InventoryMovement =>
        (m.stockKey, m.quantityChanged)) hm
    obtain ⟨r, hr, heq⟩ := List.mem_map.mp hmem
    rw [← (Prod.mk.inj heq).2]
    exact hn r hr

theorem Db.OrdersSound.statusEdits {id tenantId : Uuid} {order : OrderWithItems}
    {status : OrderStatus} (hs : s.OrdersSound)
    (hrow : s.orders.lookup id = some order.row) :
    (sales.replay (statusEdits id tenantId userId order.row status reason) s).OrdersSound := by
  refine (hs.insertOrder id { order.row with status } ?_).congr rfl rfl rfl
  intro old hold
  rw [hrow] at hold
  rw [← Option.some.inj hold]

/-- Every request keeps a database consistent. -/
theorem Db.Consistent.effect {r : StockRequest} (hs : s.Consistent) (h : StockEffect s r es) :
    (sales.replay es s).Consistent := by
  cases h with
  | create hpriced hws hfresh =>
    rw [replay_placedEdits hws]
    constructor
    · exact (hs.stock.reservesStock hws).congr rfl rfl
    · exact (hs.orders.place hfresh rfl (priced_positive hpriced)).congr rfl rfl rfl
  | updateStatus horder hvalid =>
    have hrow := (findById_eq_some.mp horder).1
    exact ⟨hs.stock.congr rfl rfl, hs.orders.statusEdits hrow⟩
  | @cancel id tenantId userId reason order rss es₁ horder hstatus hitems hrss =>
    obtain ⟨hrow, -, hlines⟩ := findById_eq_some.mp horder
    -- what is released was reserved by a line of the order, and is positive
    have hn : ∀ r ∈ rss.flatten, 0 ≤ r.quantity := by
      refine forall_mem_flatten hitems fun item hitem rs hrs => hrs.nonneg ?_
      rw [hlines] at hitem
      exact (hs.orders.line item (List.mem_of_mem_filter hitem)).1.le
    rw [Database.replay_append]
    refine ⟨(hs.stock.releases hrss).congr rfl rfl, ?_⟩
    refine (hrss.ordersSound hs.orders hn).statusEdits ?_
    obtain ⟨_, _, _, hstate, -⟩ := hrss.replay
    rw [hstate]
    exact hrow
  | adjust hnonneg hws =>
    rw [Database.replay_append, hws.replay]
    constructor
    · exact (hs.stock.setStock hnonneg).congr rfl rfl
    · exact (hs.orders.addMovement (by simp [adjustmentRow])
        (by simp [adjustmentRow])).congr rfl rfl rfl
  | transfer hne hpos hle hws hws' hnonneg =>
    rw [Database.replay_append, Database.replay_append, hws.replay, hws'.replay]
    constructor
    · exact ((hs.stock.setStock (by omega)).setStock hnonneg).congr rfl rfl
    · exact ((hs.orders.addMovement (by simp [transferMovement])
        (by simp [transferMovement])).addMovement (by simp [transferMovement])
        (by simp [transferMovement])).congr rfl rfl rfl
  | deleteWarehouse => exact ⟨hs.stock.deleteWarehouse _, hs.orders.deleteWarehouse _⟩

/-- Every serial run keeps a database consistent. -/
theorem Db.Consistent.serialRun {ok : Db → StockRequest → Prop} {s₀ : Db}
    (hs : s₀.Consistent) (h : SerialRun answer StockRequest.program ok s₀ es s) :
    s.Consistent :=
  h.invariant hs fun _ _ _ _ hc _ hrun => hc.effect (StockRequest.effect hrun)

/-! ### The stock after releases -/

/-- What releases add to the row `k`. -/
def restored (rs : List Release) (k : StockKey) : ℤ :=
  ((rs.filter (·.key = k)).map (·.quantity)).sum

@[simp] theorem restored_nil : restored [] k = 0 := rfl

theorem restored_cons (r : Release) :
    restored (r :: rs) k = (if r.key = k then r.quantity else 0) + restored rs k :=
  List.groupSum_cons r

theorem restored_append (rs' : List Release) :
    restored (rs ++ rs') k = restored rs k + restored rs' k := by
  simp [restored]

/-- Releases add up. -/
theorem OrderService.Releases.quantity (h : Releases userId orderId reason s rs es) (k : StockKey) :
    (sales.replay es s).quantity k = s.quantity k + restored rs k := by
  induction h with
  | nil => simp
  | @both s k' n ws es rs _ hws _ ih =>
    rw [Database.replay_append, hws.replay, Database.replay_cons, restored_cons]
    refine Eq.trans ih ?_
    by_cases hk : k = k'
    · subst hk
      simp only [Db.addMovement, ↓reduceIte]
      rw [← add_assoc]
      congr 1
      exact quantity_setStock_self
    · have h' : (s.setStock k' (s.quantity k' + n)).quantity k = s.quantity k :=
        quantity_setStock_ne hk
      rw [if_neg (fun h => hk h.symm), zero_add, ← h']
      rfl
  | @inventoryOnly s k' n es rs _ _ _ ih =>
    rw [Database.replay_cons, Database.replay_cons, restored_cons]
    refine Eq.trans ih ?_
    by_cases hk : k = k'
    · subst hk
      simp only [↓reduceIte]
      rw [← add_assoc]
      congr 1
      exact quantity_setInventory_self
    · have h' : (s.setInventory k' (s.quantity k' + n)).quantity k = s.quantity k :=
        quantity_setInventory_ne hk
      rw [if_neg (fun h => hk h.symm), zero_add, ← h']
      rfl

/-- Releases touch no other row. -/
theorem OrderService.Releases.lookup_eq (h : Releases userId orderId reason s rs es) {k : StockKey}
    (hk : ∀ r ∈ rs, r.key ≠ k) :
    (sales.replay es s).inventory.lookup k = s.inventory.lookup k := by
  induction h with
  | nil => rfl
  | @both s k' n ws es rs _ hws _ ih =>
    rw [Database.replay_append, hws.replay, Database.replay_cons]
    refine (ih fun r hr => hk r (by simp [hr])).trans ?_
    exact lookup_setStock_ne (hk _ List.mem_cons_self).symm
  | @inventoryOnly s k' n es rs _ _ _ ih =>
    rw [Database.replay_cons, Database.replay_cons]
    refine (ih fun r hr => hk r (by simp [hr])).trans ?_
    exact AList.lookup_insert_ne (hk _ List.mem_cons_self).symm

end PulseOps
