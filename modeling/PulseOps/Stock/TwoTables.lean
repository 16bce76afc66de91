import PulseOps.Stock.Consistency

/-!
# The two stock tables

A quantity is stored in `inventory` and in `warehouse_inventory`. All operations write both
tables, except for the fallback of `cancel`: a line whose reservation movements are gone is
restored to some other stock row of its variant, in `inventory` alone.

## Main definitions

* `TablesAgree` — the two tables tell the same quantities.
* `StockRequest.AvoidsFallback` — a cancellation that never falls back.

## Main results

* `TablesAgree.effect` — a request that avoids the fallback keeps the tables in agreement.
-/

set_option autoImplicit false

open ReadCommitted Program

namespace PulseOps

open OrderService InventoryService

variable {s : Db} {es : List Edit} {k : StockKey} {q : ℤ} {answer : Call → Reply}
  {tenantId userId orderId : Uuid}

/-- Where a stock row is in both tables the quantities are equal, and a row with stock is in
both tables. -/
structure TablesAgree (s : Db) : Prop where
  equal : ∀ k q w, s.inventory.lookup k = some q → s.warehouseInventory.lookup k = some w → q = w
  stocked : ∀ k q, s.inventory.lookup k = some q → q ≠ 0 →
    (s.warehouseInventory.lookup k).isSome
  warehouseStocked : ∀ k w, s.warehouseInventory.lookup k = some w → w ≠ 0 →
    (s.inventory.lookup k).isSome

/-- With missing rows counted as zero the tables are the same. -/
theorem tablesAgree_iff :
    TablesAgree s ↔ ∀ k, s.quantity k = (s.warehouseInventory.lookup k).getD 0 := by
  constructor
  · rintro ⟨hequal, hstocked, hwarehouse⟩ k
    rw [Db.quantity]
    cases hi : s.inventory.lookup k with
    | none =>
      cases hw : s.warehouseInventory.lookup k with
      | none => rfl
      | some w =>
        by_contra hne
        have hsome := hwarehouse k w hw (Ne.symm hne)
        simp [hi] at hsome
    | some q =>
      cases hw : s.warehouseInventory.lookup k with
      | none =>
        by_contra hne
        have hsome := hstocked k q hi hne
        simp [hw] at hsome
      | some w => exact hequal k q w hi hw
  · intro h
    refine ⟨fun k q w hi hw => ?_, fun k q hi hq => ?_, fun k w hw hq => ?_⟩
    · simpa [Db.quantity, hi, hw] using h k
    · have hk := h k
      cases hw : s.warehouseInventory.lookup k with
      | none => simp_all [Db.quantity]
      | some w => rfl
    · have hk := h k
      cases hi : s.inventory.lookup k with
      | none => simp_all [Db.quantity]
      | some q => rfl

/-! ### What the operations do to the tables -/

theorem TablesAgree.setStock (hs : TablesAgree s) : TablesAgree (s.setStock k q) := by
  rw [tablesAgree_iff] at hs ⊢
  intro k'
  by_cases hk : k' = k
  · subst hk
    simp [Db.quantity, Db.setStock]
  · rw [quantity_setStock_ne hk, hs k']
    simp [Db.setStock, AList.lookup_insert_ne hk]

/-- The stock tables are all that matters. -/
theorem TablesAgree.congr {s' : Db} (hs : TablesAgree s) (hi : s'.inventory = s.inventory)
    (hw : s'.warehouseInventory = s.warehouseInventory) : TablesAgree s' where
  equal := by
    rw [hi, hw]
    exact hs.equal
  stocked := by
    rw [hi, hw]
    exact hs.stocked
  warehouseStocked := by
    rw [hi, hw]
    exact hs.warehouseStocked

theorem TablesAgree.deleteWarehouse (hs : TablesAgree s) (id : Uuid) :
    TablesAgree (s.deleteWarehouse id) := by
  rw [tablesAgree_iff] at hs ⊢
  intro k
  rw [Db.quantity, lookup_inventory_deleteWarehouse, lookup_warehouseInventory_deleteWarehouse]
  split
  · rfl
  · exact hs k

theorem TablesAgree.reservesStock {items : List ItemCalculation} (hs : TablesAgree s)
    (h : ReservesStock tenantId s items es) : TablesAgree (sales.replay es s) := by
  induction h with
  | nil => exact hs
  | cons _ hws _ ih =>
    rw [Database.replay_append, hws.replay]
    exact ih hs.setStock

/-- Releases that never fall back. -/
theorem TablesAgree.releases {reason : Option String} {rs : List Release}
    (hs : TablesAgree s) (h : Releases userId orderId reason s rs es)
    (hboth : ∀ r ∈ rs, r.both = true) : TablesAgree (sales.replay es s) := by
  induction h with
  | nil => exact hs
  | both _ hws _ ih =>
    rw [Database.replay_append, hws.replay]
    exact ih (hs.setStock.congr rfl rfl) fun r hr => hboth r (by simp [hr])
  | inventoryOnly _ _ _ _ =>
    have hfalse := hboth _ List.mem_cons_self
    simp at hfalse

/-- A cancellation all of whose lines have a reservation movement, or no stock row to fall
back on. -/
def StockRequest.AvoidsFallback (s : Db) : StockRequest → Prop
  | .cancel id tenantId _ _ => ∀ item ∈ s.orderItems, item.orderId = id →
      reservations tenantId id item.productVariantId s ≠ [] ∨
        ¬ HasStock tenantId item.productVariantId s
  | _ => True

instance (s : Db) (r : StockRequest) : Decidable (r.AvoidsFallback s) :=
  match r with
  | .cancel id tenantId _ _ =>
    inferInstanceAs (Decidable (∀ item ∈ s.orderItems, item.orderId = id →
      reservations tenantId id item.productVariantId s ≠ [] ∨
        ¬ HasStock tenantId item.productVariantId s))
  | .create .. | .updateStatus .. | .adjust .. | .transfer .. | .deleteWarehouse .. =>
    isTrue trivial

/-- A request that avoids the fallback keeps the tables in agreement. -/
theorem TablesAgree.effect {r : StockRequest} (hs : TablesAgree s) (h : StockEffect s r es)
    (hr : r.AvoidsFallback s) : TablesAgree (sales.replay es s) := by
  cases h with
  | create hpriced hws hfresh =>
    rw [replay_placedEdits hws]
    exact (hs.reservesStock hws).congr rfl rfl
  | updateStatus horder hvalid => exact hs.congr rfl rfl
  | @cancel id tenantId userId reason order rss es₁ horder hstatus hitems hrss =>
    -- every release writes both tables, since the fallback is avoided
    have hboth : ∀ r ∈ rss.flatten, r.both = true := by
      refine forall_mem_flatten hitems fun item hitem rs hrs r hmem => ?_
      rw [(findById_eq_some.mp horder).2.2] at hitem
      obtain ⟨hitem, hid⟩ := List.mem_filter.mp hitem
      cases hrs with
      | reserved _ =>
        obtain ⟨m, -, rfl⟩ := List.mem_map.mp hmem
        rfl
      | nowhere _ _ => simp at hmem
      | @fallback k hnone htenant hvariant hk =>
        rcases hr item hitem (of_decide_eq_true hid) with hsome | hno
        · exact absurd hnone hsome
        · exact absurd ⟨k, htenant, hvariant, hk⟩ hno
    rw [Database.replay_append]
    exact (hs.releases hrss hboth).congr rfl rfl
  | adjust hnonneg hws =>
    rw [Database.replay_append, hws.replay]
    exact hs.setStock.congr rfl rfl
  | transfer hne hpos hle hws hws' hnonneg =>
    rw [Database.replay_append, Database.replay_append, hws.replay, hws'.replay]
    exact hs.setStock.setStock.congr rfl rfl
  | deleteWarehouse => exact hs.deleteWarehouse _

/-- In a run whose cancellations avoid the fallback the two tables agree in every state
reached. -/
theorem serialRun_tablesAgree {s₀ : Db} (hs : TablesAgree s₀)
    (h : SerialRun answer StockRequest.program (fun s r => r.AvoidsFallback s) s₀ es s) :
    TablesAgree s :=
  h.invariant hs fun _ _ _ _ hagree hr hruns => hagree.effect (StockRequest.effect hruns) hr

/-- Shirts and mugs are ordered from two warehouses; mugs move, and the order is cancelled. -/
def Sample.ordering : List StockRequest :=
  [.adjust "shop" "clerk"
      { variantId := some "shirt", warehouseId := "south", quantityChanged := 5 },
    .create {} "shop" "clerk" "order" (body [line "north" 2, mugs 3]),
    .transfer "shop" "clerk"
      { variantId := some "mug", sourceWarehouseId := some "south"
        destinationWarehouseId := some "north", quantity := 2 },
    .cancel "order" "shop" "clerk" none]

open Sample in
/-- The cancellation finds the reservations of both lines. -/
theorem serialRun_tablesAgree_sample :
    let s := afterAll noAnswer StockRequest.program twoBranches ordering
    s.quantity row = 20 ∧ s.quantity southRow = 5 ∧ TablesAgree s := by
  intro s
  have hempty : TablesAgree emptyShop := tablesAgree_iff.mpr fun k => rfl
  have hstart : TablesAgree twoBranches := by
    have hshop : TablesAgree shop := hempty.setStock
    exact hshop.setStock.setStock.congr rfl rfl
  obtain ⟨es, hrun⟩ : ∃ es, SerialRun noAnswer StockRequest.program
      (fun s r => r.AvoidsFallback s) twoBranches es s :=
    SerialRun.exists_afterAll ordering (by decide +kernel)
  exact ⟨by decide +kernel, by decide +kernel, serialRun_tablesAgree hstart hrun⟩

open Sample in
/-- Five pieces in the south; an order of two from the north; the north is closed and the
order cancelled. The south then has seven pieces in one table and five in the other. -/
theorem serialRun_not_tablesAgree :
    let placed := (StockRequest.create {} "shop" "clerk" "order" (body [line "north" 2])).program
    let closed := (StockRequest.deleteWarehouse "north" "shop").program
    let cancelled := (StockRequest.cancel "order" "shop" "clerk" none).program
    let s₀ := shop.setStock southRow 5
    let s₁ := placed.after noAnswer s₀
    let s₂ := closed.after noAnswer s₁
    TablesAgree s₀ ∧ (placed.run noAnswer s₀).isOk = true ∧
      (closed.run noAnswer s₁).isOk = true ∧ (cancelled.run noAnswer s₂).isOk = true ∧
      ¬ TablesAgree (cancelled.after noAnswer s₂) := by
  have hshop : TablesAgree shop := by
    have hempty : TablesAgree emptyShop := tablesAgree_iff.mpr fun k => rfl
    exact hempty.setStock
  refine ⟨hshop.setStock, by decide +kernel, by decide +kernel, by decide +kernel, fun h => ?_⟩
  have hrow := tablesAgree_iff.mp h southRow
  revert hrow
  decide +kernel

end PulseOps
