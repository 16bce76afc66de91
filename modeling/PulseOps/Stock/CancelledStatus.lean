import Mathlib.Algebra.Order.BigOperators.Group.List
import PulseOps.Stock.Cancellation

/-!
# Two ways to CANCELLED

`cancel` restores the stock of an order before it writes the status CANCELLED.
`updateStatus` writes the same status and restores nothing. The two agree exactly when
there is nothing to restore.

## Main definitions

* `NothingToRelease` — no line of the order has a reservation movement or a stock row to
  fall back on.
* `SameStock` — two states with the same quantities and the same movements.
* `heldFor` — what an order still holds of one stock row.
* `CancelledHoldNothing` — no cancelled order holds stock.

## Main results

* `exists_runs_cancel` — a cancellation that is allowed goes through.
* `CancelledHoldNothing.effect` — every request but an update to CANCELLED keeps it.
-/

set_option autoImplicit false

open ReadCommitted Program

namespace PulseOps

open OrderService InventoryService

variable {s s' : Db} {es : List Edit} {k : StockKey} {answer : Call → Reply}
  {id tenantId userId orderId : Uuid} {reason : Option String}

/-! ### A cancellation that is allowed goes through -/

theorem exists_runs_releaseMovement (hs : s.StockSound) (item : OrderItem)
    (mov : InventoryMovement) :
    ∃ es, Runs answer (releaseMovement tenantId userId orderId reason item mov) s () es := by
  simp only [releaseMovement, runs_lockRow_bind, runs_query_bind]
  simp only [getD_lookup]
  set k : StockKey := ⟨tenantId, item.productVariantId, mov.warehouseId⟩
  have hq : 0 ≤ s.quantity k + |mov.quantityChanged| :=
    add_nonneg (hs.nonneg k) (abs_nonneg _)
  have hmovement (s' : Db) (hk : (s'.inventory.lookup k).isSome) :
      Runs answer (recordMovement
        (releaseRow k userId orderId reason (s.quantity k) |mov.quantityChanged|)) s' () _ :=
    runs_recordMovement.mpr ⟨rfl, hk, rfl⟩
  by_cases hk : (s.inventory.lookup k).isSome
  · rw [if_pos hk]
    have hupdate : Runs answer (updateStock k _) s () _ := (runs_updateStock hk).mpr ⟨hq, rfl⟩
    exact ⟨_, hupdate.bind (hmovement _ (by simp))⟩
  · -- neither table has the row, and both inserts are admitted
    have hnone : s.inventory.lookup k = none := by simpa using hk
    have hwnone : s.warehouseInventory.lookup k = none := by
      have h := hs.sameRows k
      rw [hnone] at h
      simpa using h.symm
    rw [if_neg hk]
    have hcreate : Runs answer (perform (Statement.insertInventory k _) : Sql Unit) s () _ :=
      runs_perform.mpr ⟨_, Statement.insertInventory_eq_ok.mpr ⟨hq, hnone, rfl⟩, rfl⟩
    have hcreate' : Runs answer
        (perform (Statement.insertWarehouseInventory k (s.quantity k + |mov.quantityChanged|)) :
          Sql Unit) (sales.replay [.inventoryInsert k (s.quantity k + |mov.quantityChanged|)] s)
        () _ :=
      runs_perform.mpr
        ⟨_, Statement.insertWarehouseInventory_eq_ok.mpr ⟨hq, hwnone, rfl⟩, rfl⟩
    exact ⟨_, (hcreate.bind hcreate').bind (hmovement _ (by simp))⟩

theorem exists_runs_releaseMovements (hs : s.StockSound) (item : OrderItem)
    (movements : List InventoryMovement) :
    ∃ es, Runs answer
      (forM movements (releaseMovement tenantId userId orderId reason item)) s () es := by
  induction movements generalizing s with
  | nil => exact ⟨[], runs_forM_nil.mpr rfl⟩
  | cons m movements ih =>
    obtain ⟨es₁, h₁⟩ := exists_runs_releaseMovement hs item m
    obtain ⟨es₂, h₂⟩ := ih (hs.releases (runs_releaseMovement h₁))
    exact ⟨es₁ ++ es₂, runs_forM_cons.mpr ⟨es₁, es₂, h₁, h₂, rfl⟩⟩

theorem exists_runs_releaseFallback (hs : s.StockSound) {item : OrderItem}
    (hq : 0 ≤ item.quantity) :
    ∃ es, Runs answer (releaseFallback tenantId userId orderId reason item) s () es := by
  rw [releaseFallback]
  simp only [runs_query_bind]
  split
  · exact ⟨[], runs_ret.mpr ⟨rfl, rfl⟩⟩
  · rename_i k q rest hcons
    have hmem : (k, q) ∈ inventoriesOf tenantId item.productVariantId s := by simp [hcons]
    obtain ⟨hlookup, -⟩ := mem_inventoriesOf.mp hmem
    have hk : (s.inventory.lookup k).isSome := by simp [hlookup]
    have hnonneg : 0 ≤ q := by simpa [Db.quantity, hlookup] using hs.nonneg k
    have hupdate : Runs answer (perform (Statement.updateInventory k _) : Sql Unit) s () _ :=
      runs_perform.mpr ⟨_, (Statement.updateInventory_eq_ok hk).mpr
        ⟨add_nonneg hnonneg hq, rfl⟩, rfl⟩
    exact ⟨_, hupdate.bind (runs_recordMovement.mpr
      ⟨rfl, by simp [releaseRow, InventoryMovement.stockKey], rfl⟩)⟩

theorem exists_runs_releaseItems (answer : Call → Reply) (tenantId userId orderId : Uuid)
    (reason : Option String) (hs : s.StockSound) (items : List OrderItem)
    (hq : ∀ item ∈ items, 0 ≤ item.quantity) :
    ∃ es, Runs answer (forM items (releaseItem tenantId userId orderId reason)) s () es := by
  induction items generalizing s with
  | nil => exact ⟨[], runs_forM_nil.mpr rfl⟩
  | cons item items ih =>
    have h₁ : ∃ es, Runs answer (releaseItem tenantId userId orderId reason item) s () es := by
      rw [releaseItem]
      simp only [runs_query_bind]
      split
      · exact exists_runs_releaseMovements hs item _
      · exact exists_runs_releaseFallback hs (hq item (by simp))
    obtain ⟨es₁, h₁⟩ := h₁
    obtain ⟨rs, -, hrs⟩ := runs_releaseItem h₁
    obtain ⟨es₂, h₂⟩ := ih (hs.releases hrs) fun x hx => hq x (by simp [hx])
    exact ⟨es₁ ++ es₂, runs_forM_cons.mpr ⟨es₁, es₂, h₁, h₂, rfl⟩⟩

theorem mem_cancellableStatuses {status : OrderStatus} :
    status ∈ cancellableStatuses ↔ isValidTransition status .cancelled = true := by
  cases status <;> decide

theorem exists_runs_cancel (answer : Call → Reply) (userId : Uuid) (reason : Option String)
    (hs : s.Consistent) {order : OrderWithItems}
    (horder : findById id tenantId s = some order)
    (hstatus : order.row.status ∈ cancellableStatuses) :
    ∃ r es, Runs answer (cancel id tenantId userId reason) s r es := by
  obtain ⟨hrow, -, hlines⟩ := findById_eq_some.mp horder
  have hq : ∀ item ∈ order.items, 0 ≤ item.quantity := by
    intro item hitem
    rw [hlines] at hitem
    exact (hs.orders.line item (List.mem_of_mem_filter hitem)).1.le
  obtain ⟨es₁, h₁⟩ := exists_runs_releaseItems answer tenantId userId id reason hs.stock
    order.items hq
  obtain ⟨rss, -, hrss⟩ := runs_releaseItems h₁
  obtain ⟨_, _, _, hstate, -⟩ := hrss.replay
  have hne : order.row.status ≠ .cancelled := by
    intro h
    rw [h] at hstatus
    exact absurd hstatus (by decide)
  have hlookup : (sales.replay es₁ s).orders.lookup id = some order.row := by
    rw [hstate]
    exact hrow
  have hupdate : Runs answer (perform (Statement.updateOrderStatus id .cancelled) : Sql Unit)
      (sales.replay es₁ s) () _ :=
    runs_perform.mpr ⟨_, Statement.updateOrderStatus_eq_ok.mpr ⟨order.row, hlookup, rfl⟩, rfl⟩
  have hrecord (e : Edit) (s : Db) : Runs answer (record e : Sql Unit) s () [e] :=
    runs_record.mpr rfl
  simp only [cancel, runs_getById_bind, runs_ensure_bind]
  exact ⟨_, _, order, horder, hstatus, hne,
    h₁.bind (hupdate.bind ((hrecord _ _).bind (runs_query.mpr ⟨rfl, rfl⟩)))⟩

/-! ### The two operations compared -/

/-- No line of the order has a reservation movement, nor any stock row of its variant. -/
def NothingToRelease (id tenantId : Uuid) (s : Db) : Prop :=
  ∀ item ∈ s.orderItems, item.orderId = id →
    reservations tenantId id item.productVariantId s = [] ∧
      ¬ HasStock tenantId item.productVariantId s

/-- The same quantities and the same movements. -/
def SameStock (s s' : Db) : Prop :=
  (∀ k, s.inventory.lookup k = s'.inventory.lookup k) ∧
    s.inventoryMovements.Perm s'.inventoryMovements

theorem OrderService.ItemReleases.eq_nil_iff {item : OrderItem} {rs : List Release}
    (h : ItemReleases tenantId id s item rs) :
    rs = [] ↔ reservations tenantId id item.productVariantId s = [] ∧
      ¬ HasStock tenantId item.productVariantId s := by
  cases h with
  | reserved hsome => simp [releasesOf, hsome]
  | nowhere hnone hno => simp [hnone, hno]
  | @fallback k hnone htenant hvariant hk =>
    have hstock : HasStock tenantId item.productVariantId s := ⟨k, htenant, hvariant, hk⟩
    simp [hstock]

/-- A cancellation restores nothing exactly when there is nothing to restore. -/
theorem flatten_eq_nil_iff {items : List OrderItem} {rss : List (List Release)}
    (h : List.Forall₂ (ItemReleases tenantId id s) items rss) :
    rss.flatten = [] ↔ ∀ item ∈ items,
      reservations tenantId id item.productVariantId s = [] ∧
        ¬ HasStock tenantId item.productVariantId s := by
  induction h with
  | nil => simp
  | cons hx _ ih =>
    rw [List.flatten_cons, List.append_eq_nil_iff, hx.eq_nil_iff, ih, List.forall_mem_cons]

/-- Releases that leave the journal as it was are none. -/
theorem OrderService.Releases.eq_nil_of_perm {rs : List Release}
    (h : Releases userId id reason s rs es)
    (hperm : s.inventoryMovements.Perm (sales.replay es s).inventoryMovements) : rs = [] := by
  obtain ⟨_, _, rows, hstate, hkeys, -⟩ := h.replay
  rw [hstate] at hperm
  have hlength := hperm.length_eq
  rw [List.length_append] at hlength
  have hrows : rows = [] := List.eq_nil_of_length_eq_zero (by omega)
  rw [hrows, List.map_nil, eq_comm, List.map_eq_nil_iff] at hkeys
  exact hkeys

theorem sameStock_cancelled_iff (hs : s.Consistent) {order : OrderWithItems}
    (horder : findById id tenantId s = some order)
    (hvalid : isValidTransition order.row.status .cancelled = true)
    (userId' : Uuid) (reason' : Option String) :
    SameStock ((updateStatus id tenantId userId .cancelled reason).after answer s)
        ((cancel id tenantId userId' reason').after answer s) ↔
      NothingToRelease id tenantId s := by
  obtain ⟨r, es', hcancel⟩ :=
    exists_runs_cancel answer userId' reason' hs horder (mem_cancellableStatuses.mpr hvalid)
  have hupdate : Runs answer (updateStatus id tenantId userId .cancelled reason) s _ _ :=
    runs_updateStatus.mpr ⟨order, horder, hvalid, rfl, rfl⟩
  rw [hupdate.after_eq, hcancel.after_eq]
  obtain ⟨order', rss, es₁, horder', -, hitems, hrss, rfl⟩ := runs_cancel hcancel
  obtain rfl : order = order' := Option.some.inj (horder.symm.trans horder')
  have hnothing : NothingToRelease id tenantId s ↔ rss.flatten = [] := by
    rw [flatten_eq_nil_iff hitems, (findById_eq_some.mp horder).2.2]
    simp only [NothingToRelease, List.mem_filter, decide_eq_true_eq, and_imp]
  rw [hnothing, Database.replay_append]
  constructor
  · rintro ⟨-, hperm⟩
    exact hrss.eq_nil_of_perm hperm
  · intro hnil
    rw [hnil] at hrss
    cases hrss
    exact ⟨fun k => rfl, .refl _⟩

/-! ### Stock held by cancelled orders -/

/-- The reservation and release movements of an order on one stock row. -/
def orderMovements (id : Uuid) (k : StockKey) (rows : List InventoryMovement) :
    List InventoryMovement :=
  rows.filter fun m => m.stockKey = k ∧ m.referenceType = some "ORDER" ∧
    m.referenceId = some id ∧ (m.type = .orderReservation ∨ m.type = .orderRelease)

/-- What an order still holds of one stock row: reserved and not released. -/
def heldFor (id : Uuid) (s : Db) (k : StockKey) : ℤ :=
  -((orderMovements id k s.inventoryMovements).map (·.quantityChanged)).sum

/-- No cancelled order holds stock. -/
def CancelledHoldNothing (s : Db) : Prop :=
  ∀ id row, s.orders.lookup id = some row → row.status = .cancelled →
    ∀ k, heldFor id s k ≤ 0

theorem heldFor_append {rows : List InventoryMovement}
    (h : s'.inventoryMovements = s.inventoryMovements ++ rows) :
    heldFor id s' k = heldFor id s k -
      ((orderMovements id k rows).map (·.quantityChanged)).sum := by
  simp only [heldFor, orderMovements, h, List.filter_append, List.map_append, List.sum_append]
  ring

/-- Movements of other orders, or of other types, do not count. -/
theorem heldFor_append_other {rows : List InventoryMovement}
    (h : s'.inventoryMovements = s.inventoryMovements ++ rows)
    (hrows : ∀ m ∈ rows, m.referenceId ≠ some id ∨
      m.type ≠ .orderReservation ∧ m.type ≠ .orderRelease) :
    heldFor id s' k = heldFor id s k := by
  have hnil : orderMovements id k rows = [] := by
    rw [orderMovements, List.filter_eq_nil_iff]
    intro m hm hres
    simp only [decide_eq_true_eq] at hres
    rcases hrows m hm with hid | ⟨hreserve, hrelease⟩
    · exact hid hres.2.2.1
    · rcases hres.2.2.2 with htype | htype
      · exact hreserve htype
      · exact hrelease htype
  rw [heldFor_append h, hnil]
  simp

/-- Without reservation movements an order holds nothing. -/
theorem heldFor_nonpos (hs : s.OrdersSound)
    (h : ∀ m ∈ s.inventoryMovements, m.type = .orderReservation → m.referenceId = some id →
      m.stockKey ≠ k) : heldFor id s k ≤ 0 := by
  rw [heldFor, neg_nonpos]
  refine List.sum_nonneg fun x hx => ?_
  obtain ⟨m, hm, rfl⟩ := List.mem_map.mp hx
  obtain ⟨hmem, hm⟩ := List.mem_filter.mp hm
  simp only [decide_eq_true_eq] at hm
  obtain ⟨hkey, -, hid, htype⟩ := hm
  rcases htype with htype | htype
  · exact absurd hkey (h m hmem htype hid)
  · exact hs.release m hmem htype

/-- An order holds at most what it reserved. -/
theorem heldFor_le (hs : s.OrdersSound) (id : Uuid) (k : StockKey) :
    heldFor id s k ≤ restored ((reservations k.tenantId id k.productVariantId s).map fun m =>
      ⟨⟨k.tenantId, k.productVariantId, m.warehouseId⟩, |m.quantityChanged|, true⟩) k := by
  rw [heldFor, orderMovements, restored, reservations, List.sum_filter, List.sum_filter,
    List.map_map, List.sum_filter, neg_le_iff_add_nonneg, ← List.sum_map_add]
  refine List.sum_nonneg fun x hx => ?_
  obtain ⟨m, hm, rfl⟩ := List.mem_map.mp hx
  simp only [decide_eq_true_eq, Function.comp_apply]
  have habs := neg_abs_le m.quantityChanged
  have habs' := abs_nonneg m.quantityChanged
  by_cases hres : m.type = .orderReservation
  · -- a reservation of this row counts on both sides
    by_cases hkey : m.stockKey = k
    · subst hkey
      simp only [InventoryMovement.stockKey, hres, true_and, and_true, true_or, if_true]
      split <;> omega
    · rw [if_neg (c := m.stockKey = k ∧ _) (by simp [hkey])]
      split_ifs <;> omega
  · -- any other movement counts on the left only, as a release
    rw [if_neg (c := m.tenantId = _ ∧ _) (by simp [hres])]
    split
    · rename_i hrelease
      have := hs.release m hm (hrelease.2.2.2.resolve_left hres)
      omega
    · omega

theorem restored_nonneg {rs : List Release} (h : ∀ r ∈ rs, 0 ≤ r.quantity) :
    0 ≤ restored rs k := by
  refine List.sum_nonneg fun x hx => ?_
  obtain ⟨r, hr, rfl⟩ := List.mem_map.mp hx
  exact h r (List.mem_of_mem_filter hr)

/-- What is restored for one line is part of what is restored for all. -/
theorem exists_restored_le {items : List OrderItem} {rss : List (List Release)}
    (h : List.Forall₂ (ItemReleases tenantId id s) items rss)
    (hn : ∀ r ∈ rss.flatten, 0 ≤ r.quantity) {item : OrderItem} (hitem : item ∈ items)
    (k : StockKey) :
    ∃ rs, ItemReleases tenantId id s item rs ∧ restored rs k ≤ restored rss.flatten k := by
  induction h with
  | nil => simp at hitem
  | @cons x rs _ rss hx _ ih =>
    rw [List.flatten_cons] at hn ⊢
    have hrs : 0 ≤ restored rs k :=
      restored_nonneg fun r hr => hn r (List.mem_append_left _ hr)
    have hrest : ∀ r ∈ rss.flatten, 0 ≤ r.quantity :=
      fun r hr => hn r (List.mem_append_right _ hr)
    have hrss : 0 ≤ restored rss.flatten k := restored_nonneg hrest
    rw [restored_append]
    rcases List.mem_cons.mp hitem with rfl | hitem
    · exact ⟨rs, hx, by omega⟩
    · obtain ⟨rs', hitem', hle⟩ := ih hrest hitem
      exact ⟨rs', hitem', by omega⟩

/-- A cancellation restores at least what the order holds. -/
theorem heldFor_le_restored (hs : s.OrdersSound) {order : OrderWithItems}
    (horder : findById id tenantId s = some order) {rss : List (List Release)}
    (hitems : List.Forall₂ (ItemReleases tenantId id s) order.items rss)
    (hn : ∀ r ∈ rss.flatten, 0 ≤ r.quantity) (k : StockKey) :
    heldFor id s k ≤ restored rss.flatten k := by
  obtain ⟨hrow, htenant, hlines⟩ := findById_eq_some.mp horder
  by_cases hres : ∃ m ∈ s.inventoryMovements, m.type = .orderReservation ∧
      m.referenceId = some id ∧ m.stockKey = k
  · obtain ⟨m, hm, htype, hid, rfl⟩ := hres
    -- the movement belongs to a line of the order, which releases it
    obtain ⟨-, href, id', row, hid', hrow', htenant', it, hit, hitid, hvariant⟩ :=
      hs.reservation m hm htype
    obtain rfl : id = id' := Option.some.inj (hid.symm.trans hid')
    obtain rfl : order.row = row := Option.some.inj (hrow.symm.trans hrow')
    have hmem : it ∈ order.items := by
      rw [hlines]
      exact List.mem_filter.mpr ⟨hit, by simpa using hitid⟩
    obtain ⟨rs, hrs, hle⟩ := exists_restored_le hitems hn hmem m.stockKey
    have htenantm : tenantId = m.tenantId := htenant.symm.trans htenant'
    have hsome : reservations tenantId id it.productVariantId s ≠ [] := by
      refine List.ne_nil_of_mem (a := m) (List.mem_filter.mpr ⟨hm, ?_⟩)
      simp [htenantm, hvariant, href, hid, htype]
    have hrs : rs = releasesOf tenantId id s it := by
      cases hrs with
      | reserved _ => rfl
      | nowhere hnone _ => exact absurd hnone hsome
      | fallback hnone _ _ _ => exact absurd hnone hsome
    rw [hrs, releasesOf, hvariant, htenantm] at hle
    exact (heldFor_le hs id m.stockKey).trans hle
  · -- without a reservation the order holds nothing there
    have hheld : heldFor id s k ≤ 0 :=
      heldFor_nonpos hs fun m hm htype hid hkey => hres ⟨m, hm, htype, hid, hkey⟩
    exact hheld.trans (restored_nonneg hn)

/-- An update to CANCELLED only where there is nothing to release. -/
def StockRequest.ReleasesFirst (s : Db) : StockRequest → Prop
  | .updateStatus id tenantId _ .cancelled _ => NothingToRelease id tenantId s
  | _ => True

instance (id tenantId : Uuid) (s : Db) : Decidable (NothingToRelease id tenantId s) :=
  inferInstanceAs (Decidable (∀ item ∈ s.orderItems, _ → _))

instance (s : Db) (r : StockRequest) : Decidable (r.ReleasesFirst s) :=
  match r with
  | .updateStatus id tenantId _ status _ =>
    decidable_of_iff (status = .cancelled → NothingToRelease id tenantId s)
      (by cases status <;> simp [StockRequest.ReleasesFirst])
  | .create .. | .cancel .. | .adjust .. | .transfer .. | .deleteWarehouse .. => isTrue trivial

/-- An order without reservation movements holds nothing. -/
theorem NothingToRelease.heldFor_nonpos (hs : s.OrdersSound) {order : OrderWithItems}
    (horder : findById id tenantId s = some order) (h : NothingToRelease id tenantId s)
    (k : StockKey) : heldFor id s k ≤ 0 := by
  obtain ⟨hrow, htenant, -⟩ := findById_eq_some.mp horder
  refine PulseOps.heldFor_nonpos hs fun m hm htype hid _ => ?_
  obtain ⟨-, href, id', row, hid', hrow', htenant', it, hit, hitid, hvariant⟩ :=
    hs.reservation m hm htype
  obtain rfl : id = id' := Option.some.inj (hid.symm.trans hid')
  obtain rfl : order.row = row := Option.some.inj (hrow.symm.trans hrow')
  have hnone := (h it hit hitid).1
  rw [reservations, List.filter_eq_nil_iff] at hnone
  refine hnone m hm ?_
  simp [← htenant', htenant, hvariant, href, hid, htype]

/-- A change of status: what other orders hold does not matter. -/
private theorem CancelledHoldNothing.statusEdits {order : OrderWithItems}
    {status : OrderStatus} (hc : CancelledHoldNothing s)
    (hother : ∀ id' k, id' ≠ id → heldFor id' s' k = heldFor id' s k)
    (horders : s'.orders = s.orders)
    (hself : status = .cancelled → ∀ k, heldFor id s' k ≤ 0) :
    CancelledHoldNothing
      (sales.replay (statusEdits id tenantId userId order.row status reason) s') := by
  intro id' row hrow hcancelled k
  by_cases hid : id' = id
  · subst hid
    have hrow : (s'.orders.insert id' { order.row with status }).lookup id' = some row := hrow
    rw [AList.lookup_insert] at hrow
    obtain rfl := Option.some.inj hrow
    exact hself hcancelled k
  · have hrow : (s'.orders.insert id { order.row with status }).lookup id' = some row := hrow
    rw [AList.lookup_insert_ne hid, horders] at hrow
    exact (hother id' k hid).trans_le (hc id' row hrow hcancelled k)

/-- Every request but an update to CANCELLED keeps cancelled orders from holding stock, and
that one keeps it where there is nothing to release. -/
theorem CancelledHoldNothing.effect {r : StockRequest} (hc : CancelledHoldNothing s)
    (hs : s.OrdersSound) (h : StockEffect s r es) (hr : r.ReleasesFirst s) :
    CancelledHoldNothing (sales.replay es s) := by
  cases h with
  | @create env tenantId userId orderId body d n ws hpriced hws hfresh =>
    rw [replay_placedEdits hws]
    intro id row hrow hcancelled k
    by_cases hid : id = orderId
    · subst hid
      rw [AList.lookup_insert] at hrow
      obtain rfl := Option.some.inj hrow
      simp [orderRow] at hcancelled
    · rw [AList.lookup_insert_ne hid] at hrow
      refine (heldFor_append_other rfl fun m hm => ?_).trans_le (hc id row hrow hcancelled k)
      obtain ⟨it, -, rfl⟩ := List.mem_map.mp hm
      exact .inl (by simpa [reservationRow] using Ne.symm hid)
  | @updateStatus id tenantId userId status reason order horder hvalid =>
    refine hc.statusEdits (fun _ _ _ => rfl) rfl fun hcancelled => ?_
    subst hcancelled
    exact hr.heldFor_nonpos hs horder
  | @cancel id tenantId userId reason order rss es₁ horder hstatus hitems hrss =>
    obtain ⟨_, _, rows, hstate, hkeys, htype⟩ := hrss.replay
    obtain ⟨-, -, hlines⟩ := findById_eq_some.mp horder
    have hn : ∀ r ∈ rss.flatten, 0 ≤ r.quantity := by
      refine forall_mem_flatten hitems fun item hitem rs hrs => hrs.nonneg ?_
      rw [hlines] at hitem
      exact (hs.line item (List.mem_of_mem_filter hitem)).1.le
    rw [Database.replay_append, hstate]
    refine hc.statusEdits (fun id' k hid => ?_) rfl fun _ k => ?_
    · refine heldFor_append_other rfl fun m hm => .inl ?_
      rw [(htype m hm).2.2]
      simpa using hid.symm
    · -- the cancellation releases at least what the order holds
      have hrows : ((orderMovements id k rows).map (·.quantityChanged)).sum =
          restored rss.flatten k := by
        have hall : orderMovements id k rows = rows.filter (·.stockKey = k) := by
          refine List.filter_congr fun m hm => ?_
          simp [htype m hm]
        rw [hall, restored, List.sum_filter, List.sum_filter]
        have hmap := congrArg (List.map fun x : StockKey × ℤ => if x.1 = k then x.2 else 0)
          hkeys
        rw [List.map_map, List.map_map] at hmap
        simpa [Function.comp_def] using congrArg List.sum hmap
      have hle := heldFor_le_restored hs horder hitems hn k
      rw [heldFor_append rfl, hrows]
      have hheld : heldFor id s k ≤ restored rss.flatten k := hle
      exact sub_nonpos.mpr hheld
  | adjust hnonneg hws =>
    rw [Database.replay_append, hws.replay]
    intro id row hrow hcancelled k
    refine (heldFor_append_other rfl fun m hm => .inr ?_).trans_le (hc id row hrow hcancelled k)
    obtain rfl := List.mem_singleton.mp hm
    simp [adjustmentRow]
  | transfer hne hpos hle hws hws' hnonneg =>
    rw [Database.replay_append, Database.replay_append, hws.replay, hws'.replay]
    intro id row hrow hcancelled k
    refine (heldFor_append_other (List.append_assoc _ _ _) fun m hm => .inr ?_).trans_le
      (hc id row hrow hcancelled k)
    rcases List.mem_append.mp hm with hm | hm
    · obtain rfl := List.mem_singleton.mp hm
      simp [transferMovement]
    · obtain rfl := List.mem_singleton.mp hm
      simp [transferMovement]
  | @deleteWarehouse wid tenantId =>
    intro id row hrow hcancelled k
    have hheld := hc id row hrow hcancelled k
    have hrows : (sales.replay [.warehouseDelete wid] s).inventoryMovements =
        s.inventoryMovements.filter (·.warehouseId ≠ wid) := rfl
    rw [heldFor, orderMovements, hrows, List.filter_filter]
    by_cases hk : k.warehouseId = wid
    · -- the movements in the warehouse go with it
      have hnil : s.inventoryMovements.filter (fun m => decide (m.stockKey = k ∧
          m.referenceType = some "ORDER" ∧ m.referenceId = some id ∧
          (m.type = .orderReservation ∨ m.type = .orderRelease)) &&
            decide (m.warehouseId ≠ wid)) = [] := by
        rw [List.filter_eq_nil_iff]
        intro m _ hm
        simp only [Bool.and_eq_true, decide_eq_true_eq] at hm
        obtain ⟨⟨hkey, -⟩, hw⟩ := hm
        exact hw ((congrArg StockKey.warehouseId hkey).trans hk)
      rw [hnil]
      simp
    · -- those in the other warehouses stay
      refine Eq.trans_le ?_ hheld
      rw [heldFor, orderMovements]
      congr 3
      refine List.filter_congr fun m _ => ?_
      by_cases hkey : m.stockKey = k
      · have hw : m.warehouseId ≠ wid := by
          intro h
          exact hk ((congrArg StockKey.warehouseId hkey).symm.trans h)
        simp [hw]
      · simp [hkey]

/-- Setting the status CANCELLED by an update leaves the stock as a cancellation would
exactly when there is nothing to release; and as long as it is set only then, no cancelled
order holds stock in any state reached. -/
theorem updateStatus_cancelled_iff :
    (∀ (s : Db) (id tenantId userId userId' : Uuid) (reason reason' : Option String)
        (order : OrderWithItems), s.Consistent → findById id tenantId s = some order →
        isValidTransition order.row.status .cancelled = true →
        (SameStock ((updateStatus id tenantId userId .cancelled reason).after answer s)
            ((cancel id tenantId userId' reason').after answer s) ↔
          NothingToRelease id tenantId s)) ∧
      ∀ (s₀ s : Db) (es : List Edit), s₀.Consistent → CancelledHoldNothing s₀ →
        SerialRun answer StockRequest.program (fun s r => r.ReleasesFirst s) s₀ es s →
        CancelledHoldNothing s := by
  constructor
  · intro s id tenantId userId userId' reason reason' order hs horder hvalid
    exact sameStock_cancelled_iff hs horder hvalid userId' reason'
  · intro s₀ s es hs hc hrun
    have h := hrun.invariant (I := fun s => s.Consistent ∧ CancelledHoldNothing s) ⟨hs, hc⟩
      fun s r a es' hinv hr hruns => by
        have heffect := StockRequest.effect hruns
        exact ⟨hinv.1.effect heffect, hinv.2.effect hinv.1.orders heffect hr⟩
    exact h.2

/-- Orders of shirts and of mugs; then the north, which had all the shirts, is closed. -/
def Sample.closing : List StockRequest :=
  [.create {} "shop" "clerk" "order" (body [line "north" 2]),
    .create {} "shop" "clerk" "second" (body [mugs 3]),
    .deleteWarehouse "north" "shop"]

/-- The order of shirts is set to CANCELLED, the one of mugs is cancelled. -/
def Sample.cancelling : List StockRequest :=
  [.updateStatus "order" "shop" "clerk" .cancelled none, .cancel "second" "shop" "clerk" none]

open Sample in
/-- With the north everything went that the order of shirts could release: setting its status
does what cancelling it does, and afterwards no cancelled order holds anything. -/
theorem updateStatus_cancelled_iff_sample :
    let s := afterAll noAnswer StockRequest.program twoBranches closing
    SameStock ((updateStatus "order" "shop" "clerk" .cancelled none).after noAnswer s)
        ((cancel "order" "shop" "clerk" none).after noAnswer s) ∧
      CancelledHoldNothing
        (afterAll noAnswer StockRequest.program twoBranches (closing ++ cancelling)) := by
  intro s
  have hnone : CancelledHoldNothing twoBranches := by
    intro id row hrow
    simp [twoBranches, shop, emptyShop, Db.setStock] at hrow
  have hs : s.Consistent := by
    obtain ⟨es, hrun⟩ : ∃ es, SerialRun noAnswer StockRequest.program (fun _ _ => True)
        twoBranches es s := SerialRun.exists_afterAll closing fun _ _ _ _ => trivial
    exact twoBranches_consistent.serialRun hrun
  have horder : ∃ order, findById "order" "shop" s = some order ∧
      isValidTransition order.row.status .cancelled = true := by
    rw [← Option.map_eq_some_iff]
    decide +kernel
  obtain ⟨order, horder, hvalid⟩ := horder
  obtain ⟨es, hrun⟩ : ∃ es, SerialRun noAnswer StockRequest.program
      (fun s r => r.ReleasesFirst s) twoBranches es
      (afterAll noAnswer StockRequest.program twoBranches (closing ++ cancelling)) :=
    SerialRun.exists_afterAll (closing ++ cancelling) (by decide +kernel)
  exact ⟨(updateStatus_cancelled_iff.1 s _ _ _ _ none none order hs horder hvalid).mpr
      (by decide +kernel),
    updateStatus_cancelled_iff.2 twoBranches _ es twoBranches_consistent hnone hrun⟩

open Sample in
/-- A placed order of two pieces, set to CANCELLED by an update: it still holds them, where a
cancellation would have put them back. -/
theorem updateStatus_cancelled_holds :
    let p := create {} "shop" "clerk" "order" (body [line "north" 2])
    let s := p.after noAnswer shop
    let s' := (updateStatus "order" "shop" "clerk" .cancelled none).after noAnswer s
    (p.run noAnswer shop).isOk = true ∧
      ((updateStatus "order" "shop" "clerk" .cancelled none).run noAnswer s).isOk = true ∧
      ¬ SameStock s' ((cancel "order" "shop" "clerk" none).after noAnswer s) ∧
      ¬ CancelledHoldNothing s' := by
  refine ⟨by decide +kernel, by decide +kernel, fun h => ?_, fun h => ?_⟩
  · have hrow := h.1 row
    revert hrow
    decide +kernel
  · have hstatus : ∃ order, ((updateStatus "order" "shop" "clerk" .cancelled none).after
        noAnswer ((create {} "shop" "clerk" "order" (body [line "north" 2])).after noAnswer
          shop)).orders.lookup "order" = some order ∧ order.status = .cancelled := by
      rw [← Option.map_eq_some_iff]
      decide +kernel
    obtain ⟨order, horder, hcancelled⟩ := hstatus
    have hrow := h "order" order horder hcancelled row
    revert hrow
    decide +kernel

end PulseOps
