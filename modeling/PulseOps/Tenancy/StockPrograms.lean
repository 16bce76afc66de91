import PulseOps.Model.Orders
import PulseOps.Tenancy.Ownership

/-!
# Orders and stock stay inside the shop

The programs of the order, stock and warehouse services, called for one shop with any other
arguments, read and write the rows of that shop only. Their arguments may name rows of other
shops: such a row is not found.

## Main results

* `confined_create`, `confined_updateStatus`, `confined_cancel` — orders.
* `confined_adjust`, `confined_transfer`, `confined_deleteWarehouse` — stock.
-/

set_option autoImplicit false

open ReadCommitted Program Parties

namespace PulseOps

variable {owner : Uuid → Uuid} {tenantId : Uuid} {s : Db} {id : Uuid} {k : StockKey}

/-! ### Reads -/

section Reads

variable {κ ρ : Type} [DecidableEq κ] {t : Table κ ρ} {p : κ → ρ → Bool} {q : ρ → Bool}
  {key : κ}

/-- A row that the shop would own is read off its own rows. -/
theorem lookup_keep_own (h : ∀ r, t.lookup key = some r → p key r = true) :
    (t.keep p).lookup key = t.lookup key := by
  ext r
  rw [AList.lookup_keep_eq_some]
  exact and_iff_left_of_imp (h r)

/-- A lookup that asks for a row of the shop. -/
theorem filter_lookup_keep (h : ∀ r, q r = true → p key r = true) :
    ((t.keep p).lookup key).filter q = (t.lookup key).filter q := by
  ext r
  rw [Option.filter_eq_some_iff, Option.filter_eq_some_iff, AList.lookup_keep_eq_some, and_assoc]
  exact and_congr_right fun _ => and_iff_right_of_imp (h r)

end Reads

theorem findVariant_view :
    findVariant id tenantId (s.view tenantId) = findVariant id tenantId s := by
  unfold findVariant
  exact filter_lookup_keep fun _ hshop => hshop

theorem findWarehouse_view :
    findWarehouse id tenantId (s.view tenantId) = findWarehouse id tenantId s := by
  unfold findWarehouse
  exact filter_lookup_keep fun _ hshop => hshop

/-- A warehouse the shop finds is one of its own. -/
theorem owner_of_findWarehouse (hs : Coherent owner s)
    (h : (findWarehouse id tenantId s).isSome = true) : owner id = tenantId := by
  obtain ⟨w, hw⟩ := Option.isSome_iff_exists.mp h
  obtain ⟨hrow, hshop⟩ := Option.filter_eq_some_iff.mp hw
  rw [← hs.warehouses id w hrow]
  exact of_decide_eq_true hshop

theorem inventory_view (hk : k.tenantId = tenantId) :
    (s.view tenantId).inventory.lookup k = s.inventory.lookup k :=
  lookup_keep_own fun _ _ => decide_eq_true hk

theorem warehouseInventory_view (hk : k.tenantId = tenantId) :
    (s.view tenantId).warehouseInventory.lookup k = s.warehouseInventory.lookup k :=
  lookup_keep_own fun _ _ => decide_eq_true hk

theorem orders_view (hs : Coherent owner s) (hid : owner id = tenantId) :
    (s.view tenantId).orders.lookup id = s.orders.lookup id :=
  lookup_keep_own fun row hrow => decide_eq_true ((hs.orders id row hrow).trans hid)

/-! ### Stock -/

section Stock

variable (hk : k.tenantId = tenantId ∧ owner k.warehouseId = tenantId) {q : ℤ}
include hk

theorem confined_insertInventory : (shops owner).Confined tenantId (fun _ => True)
    (perform (Statement.insertInventory k q)) := by
  apply confined_perform
  · intro s hs
    change Statement.insertInventory k q (s.view tenantId) = _
    rw [Statement.insertInventory, inventory_view hk.1, Statement.insertInventory]
  · intro s e _ he
    obtain ⟨-, -, rfl⟩ := Statement.insertInventory_eq_ok.mp he
    exact hk

theorem confined_insertWarehouseInventory : (shops owner).Confined tenantId (fun _ => True)
    (perform (Statement.insertWarehouseInventory k q)) := by
  apply confined_perform
  · intro s hs
    change Statement.insertWarehouseInventory k q (s.view tenantId) = _
    rw [Statement.insertWarehouseInventory, warehouseInventory_view hk.1,
      Statement.insertWarehouseInventory]
  · intro s e _ he
    obtain ⟨-, -, rfl⟩ := Statement.insertWarehouseInventory_eq_ok.mp he
    exact hk

theorem confined_updateInventory : (shops owner).Confined tenantId (fun _ => True)
    (perform (Statement.updateInventory k q)) := by
  apply confined_perform
  · intro s hs
    change Statement.updateInventory k q (s.view tenantId) = _
    rw [Statement.updateInventory, inventory_view hk.1, Statement.updateInventory]
  · intro s e _ he
    rcases Statement.eq_of_updateInventory he with rfl | rfl
    · exact hk
    · trivial

theorem confined_upsertWarehouseInventory : (shops owner).Confined tenantId (fun _ => True)
    (perform (Statement.upsertWarehouseInventory k q)) := by
  apply confined_perform (fun _ _ => rfl)
  intro s e _ he
  obtain ⟨-, rfl⟩ := Statement.upsertWarehouseInventory_eq_ok.mp he
  exact hk

theorem confined_updateStock :
    (shops owner).Confined tenantId (fun _ => True) (updateStock k q) :=
  (confined_updateInventory hk).bind fun _ _ => confined_upsertWarehouseInventory hk

theorem confined_createStock :
    (shops owner).Confined tenantId (fun _ => True) (createStock k q) :=
  (confined_insertInventory hk).bind fun _ _ => confined_upsertWarehouseInventory hk

end Stock

theorem confined_recordMovement {m : InventoryMovement}
    (hm : m.tenantId = tenantId ∧ owner m.warehouseId = tenantId) :
    (shops owner).Confined tenantId (fun _ => True) (recordMovement m) := by
  apply confined_perform
  · intro s hs
    change Statement.insertInventoryMovement m (s.view tenantId) = _
    rw [Statement.insertInventoryMovement, inventory_view (k := m.stockKey) hm.1,
      Statement.insertInventoryMovement]
  · intro s e _ he
    obtain ⟨-, -, rfl⟩ := Statement.insertInventoryMovement_eq_ok.mp he
    exact hm

namespace InventoryService

theorem confined_adjustRow {userId : Uuid} {body : AdjustBody}
    (hk : k.tenantId = tenantId ∧ owner k.warehouseId = tenantId) :
    (shops owner).Confined tenantId (fun _ => True) (adjustRow userId k body) := by
  apply confined_lockAndRead_bind (fun s _ => inventory_view hk.1)
  intro s _
  apply confined_require_bind
  intro _
  have hwrite : (shops owner).Confined tenantId (fun _ => True)
      (if (s.inventory.lookup k).isSome then
          updateStock k ((s.inventory.lookup k).getD 0 + body.quantityChanged)
        else createStock k ((s.inventory.lookup k).getD 0 + body.quantityChanged)) := by
    split
    · exact confined_updateStock hk
    · exact confined_createStock hk
  apply hwrite.bind
  intro _ _
  exact (confined_recordMovement hk).bind fun _ _ => confined_ret trivial

theorem confined_adjust {userId : Uuid} {body : AdjustBody} :
    (shops owner).Confined tenantId (fun _ => True) (adjust tenantId userId body) := by
  apply confined_orRaise_bind
  intro variantId _
  apply confined_require_bind
  intro _
  apply confined_require_bind
  intro _
  apply confined_query_bind (fun s _ => findVariant_view)
  intro _ _
  apply confined_require_bind
  intro _
  apply confined_query_bind (fun s _ => findWarehouse_view)
  intro s hs
  apply confined_require_bind
  intro hwarehouse
  exact confined_adjustRow ⟨rfl, owner_of_findWarehouse hs hwarehouse⟩

theorem confined_transferRows {userId : Uuid} {source dest : StockKey} {body : TransferBody}
    (hsource : source.tenantId = tenantId ∧ owner source.warehouseId = tenantId)
    (hdest : dest.tenantId = tenantId ∧ owner dest.warehouseId = tenantId) :
    (shops owner).Confined tenantId (fun _ => True)
      (transferRows userId source dest body) := by
  apply (confined_forM_const fun _ _ => confined_lockRow).bind
  intro _ _
  apply confined_query_bind (fun s _ => inventory_view hsource.1)
  intro s₁ _
  apply confined_query_bind (fun s _ => inventory_view hdest.1)
  intro s₂ _
  apply confined_require_bind
  intro _
  -- a row that is missing is created
  have htake : (shops owner).Confined tenantId (fun _ => True)
      (if (s₁.inventory.lookup source).isSome then
          updateStock source ((s₁.inventory.lookup source).getD 0 - body.quantity)
        else perform (Statement.insertInventory source
          ((s₁.inventory.lookup source).getD 0 - body.quantity))) := by
    split
    · exact confined_updateStock hsource
    · exact confined_insertInventory hsource
  have hput : (shops owner).Confined tenantId (fun _ => True)
      (if (s₂.inventory.lookup dest).isSome then
          updateStock dest ((s₂.inventory.lookup dest).getD 0 + body.quantity)
        else createStock dest ((s₂.inventory.lookup dest).getD 0 + body.quantity)) := by
    split
    · exact confined_updateStock hdest
    · exact confined_createStock hdest
  apply htake.bind
  intro _ _
  apply hput.bind
  intro _ _
  apply (confined_recordMovement hsource).bind
  intro _ _
  exact (confined_recordMovement hdest).bind fun _ _ => confined_ret trivial

theorem confined_transfer {userId : Uuid} {body : TransferBody} :
    (shops owner).Confined tenantId (fun _ => True) (transfer tenantId userId body) := by
  apply confined_orRaise_bind
  intro variantId _
  apply confined_orRaise_bind
  intro sourceWarehouseId _
  apply confined_orRaise_bind
  intro destinationWarehouseId _
  apply confined_require_bind
  intro _
  apply confined_require_bind
  intro _
  apply confined_query_bind (fun s _ => findVariant_view)
  intro _ _
  apply confined_require_bind
  intro _
  apply confined_query_bind (fun s _ => findWarehouse_view)
  intro s₁ hs₁
  apply confined_require_bind
  intro hsource
  apply confined_query_bind (fun s _ => findWarehouse_view)
  intro s₂ hs₂
  apply confined_require_bind
  intro hdest
  exact confined_transferRows ⟨rfl, owner_of_findWarehouse hs₁ hsource⟩
    ⟨rfl, owner_of_findWarehouse hs₂ hdest⟩

end InventoryService

/-- Deleting a warehouse: the stock rows and movements that go with it are the shop's. -/
theorem WarehouseService.confined_delete :
    (shops owner).Confined tenantId (fun _ => True) (WarehouseService.delete id tenantId) := by
  apply confined_query_bind (fun s _ => findWarehouse_view)
  intro s hs
  apply confined_require_bind
  intro hwarehouse
  have hid := owner_of_findWarehouse hs hwarehouse
  apply confined_perform
  · intro s' hs'
    have hrow : (s'.view tenantId).warehouses.lookup id = s'.warehouses.lookup id :=
      lookup_keep_own fun row hrow => decide_eq_true ((hs'.warehouses id row hrow).trans hid)
    change Statement.deleteWarehouse id (s'.view tenantId) = _
    rw [Statement.deleteWarehouse, hrow, Statement.deleteWarehouse]
  · intro s' e _ he
    obtain ⟨-, rfl⟩ := Statement.deleteWarehouse_eq_ok.mp he
    exact hid

/-! ### Placing an order -/

theorem confined_assertWithinPlan {env : Environment} :
    (shops owner).Confined tenantId (fun _ => True) (assertWithinPlan env tenantId) := by
  apply confined_query_bind
  · intro s _
    change ((s.view tenantId).tenants.lookup tenantId).bind _ = _
    rw [show (s.view tenantId).tenants.lookup tenantId = s.tenants.lookup tenantId from
      lookup_keep_own fun _ _ => decide_eq_true rfl]
    rfl
  · intro s _
    split
    · exact confined_ret trivial
    · apply confined_query_bind
      · intro s' _
        apply congrArg List.length
        apply AList.filter_keep
        intro e he
        exact decide_eq_true (of_decide_eq_true he).1
      · intro s' _
        exact confined_require.mono fun _ _ => trivial

/-- Addresses of other shops are not found. -/
theorem confined_resolveOrderAddress {customerId : Uuid} {type : AddressType}
    {addressId : Option Uuid} :
    (shops owner).Confined tenantId (fun _ => True)
      (resolveOrderAddress customerId tenantId type addressId) := by
  unfold resolveOrderAddress
  split
  · apply confined_query
    · intro s _
      apply congrArg (Option.map _)
      apply AList.find?_keep
      intro e he
      exact decide_eq_true (of_decide_eq_true he).1
    · exact fun _ _ => trivial
  · apply confined_query_bind
    · intro s _
      apply filter_lookup_keep
      intro a ha
      exact decide_eq_true (of_decide_eq_true ha).2
    · intro s _
      apply confined_orRaise_bind
      intro address _
      exact confined_require_bind fun _ => confined_ret trivial

namespace OrderService

theorem confined_calculateItem {chargesGst inclusive intraState : Bool} {gstRatePercent : ℤ}
    {variant : ProductVariant} {item : ItemInput} :
    (shops owner).Confined tenantId (fun it => it.warehouseId = item.warehouseId)
      (calculateItem chargesGst inclusive intraState gstRatePercent variant item) := by
  apply confined_require_bind
  intro _
  apply confined_require_bind
  intro _
  apply confined_require_bind
  intro _
  apply confined_require_bind
  intro _
  exact confined_ret rfl

/-- The lines of a priced order are taken from warehouses of the shop. -/
def FromOwnWarehouses (owner : Uuid → Uuid) (tenantId : Uuid) (d : OrderDraft) : Prop :=
  ∀ it ∈ d.items, owner it.warehouseId = tenantId

theorem confined_prepare {env : Environment} {body : CreateBody} :
    (shops owner).Confined tenantId (FromOwnWarehouses owner tenantId)
      (prepare env tenantId body) := by
  apply confined_query_bind
  · intro s _
    change Gst.resolveOrderDefaults env tenantId (s.view tenantId) = _
    unfold Gst.resolveOrderDefaults
    rw [show (s.view tenantId).tenantSettings.lookup tenantId = s.tenantSettings.lookup tenantId
      from lookup_keep_own fun _ _ => decide_eq_true rfl]
  intro s₀ _
  apply confined_query_bind
  · intro s _
    apply filter_lookup_keep
    intro c hc
    exact decide_eq_true (of_decide_eq_true hc).1
  intro s₁ _
  apply confined_orRaise_bind
  intro customer _
  apply confined_assertWithinPlan.bind
  intro _ _
  apply confined_resolveOrderAddress.bind
  intro shippingAddress _
  apply confined_resolveOrderAddress.bind
  intro billingAddress _
  apply confined_query_bind
  · intro s _
    funext id
    exact findVariant_view
  intro s₂ _
  -- the variants were read once, before the loop over the lines
  have hsold : (shops owner).Confined tenantId (fun sold => ∀ x ∈ sold, x.2 ∈ body.items)
      (body.items.mapM fun item => do
        let id := item.resolvedVariantId
        let variant ← orThrow (findVariant id tenantId s₂) ("Variant " ++ id ++ " not found") 404
          "VARIANT_NOT_FOUND"
        ensure (variant.status = .active)
          ("Variant " ++ id ++ " is not sellable (status " ++
            variantStatusText variant.status ++ ")") 409 "VARIANT_NOT_SELLABLE"
        return (variant, item)) := by
    apply confined_mapM
    intro item hitem
    apply confined_orRaise_bind
    intro variant _
    exact confined_require_bind fun _ => confined_ret hitem
  apply hsold.bind
  intro sold hsold
  apply confined_query_bind
  · intro s _
    funext id
    exact findWarehouse_view
  intro s₃ hs₃
  -- a warehouse that is found is one of the shop: from here on the lines are known to be in place
  have hwarehouses : (shops owner).Confined tenantId
      (fun _ => ∀ item ∈ body.items, owner item.warehouseId = tenantId)
      (forM body.items fun item => ensure (findWarehouse item.warehouseId tenantId s₃).isSome
        ("Warehouse " ++ item.warehouseId ++ " not found") 404 "WAREHOUSE_NOT_FOUND") := by
    apply confined_forM
    intro item _
    exact confined_require.mono fun _ hfound => owner_of_findWarehouse hs₃ hfound
  apply hwarehouses.bind
  intro _ howner
  have hpriced : ∀ (chargesGst inclusive intraState : Bool) (gstRatePercent : ℤ),
      (shops owner).Confined tenantId (fun items => ∀ it ∈ items, owner it.warehouseId = tenantId)
        (sold.mapM fun x =>
          calculateItem chargesGst inclusive intraState gstRatePercent x.1 x.2) := by
    intro chargesGst inclusive intraState gstRatePercent
    apply confined_mapM
    intro x hx
    apply confined_calculateItem.mono
    intro it hit
    rw [hit]
    exact howner _ (hsold x hx)
  apply (hpriced _ _ _ _).bind
  intro items hitems
  apply confined_query_bind
  · intro s _
    exact lookup_keep_own fun _ _ => decide_eq_true rfl
  intro s₄ _
  exact confined_ret hitems

variable {env : Environment} {userId orderId : Uuid} {reason : Option String}

theorem confined_reserveItem {it : ItemCalculation} (hit : owner it.warehouseId = tenantId) :
    (shops owner).Confined tenantId (fun _ => True) (reserveItem tenantId it) := by
  apply confined_query_bind (fun s _ => inventory_view rfl)
  intro s _
  apply confined_require_bind
  intro _
  apply confined_require_bind
  intro _
  exact confined_updateStock ⟨rfl, hit⟩

theorem confined_nextInvoiceNumber {financialYear : String} :
    (shops owner).Confined tenantId (fun _ => True)
      (nextInvoiceNumber tenantId financialYear) := by
  intro s _
  constructor
  · have hcounter : (s.view tenantId).invoiceSequences.lookup (tenantId, financialYear) =
        s.invoiceSequences.lookup (tenantId, financialYear) :=
      lookup_keep_own fun _ _ => decide_eq_true rfl
    change Except.ok (Edit.invoiceSequenceUpsert tenantId financialYear
      (((s.view tenantId).invoiceSequences.lookup (tenantId, financialYear)).getD 0 + 1)) = _
    rw [hcounter]
  · rintro e ⟨⟩
    exact ⟨rfl, trivial⟩

theorem confined_insertOrder {row : Order} (hrow : row.tenantId = tenantId)
    (hid : owner id = tenantId) : (shops owner).Confined tenantId (fun _ => True)
      (perform (Statement.insertOrder id row)) := by
  apply confined_perform
  · intro s hs
    have hnumber : ((s.view tenantId).orders.entries.any fun o =>
          o.2.tenantId = row.tenantId ∧ o.2.invoiceNumber = row.invoiceNumber) =
        s.orders.entries.any fun o =>
          o.2.tenantId = row.tenantId ∧ o.2.invoiceNumber = row.invoiceNumber := by
      apply AList.any_keep
      intro o _ ho
      exact decide_eq_true ((of_decide_eq_true ho).1.trans hrow)
    change Statement.insertOrder id row (s.view tenantId) = _
    simp only [Statement.insertOrder, hnumber, orders_view hs hid]
  · intro s e _ he
    obtain ⟨-, rfl⟩ := Statement.insertOrder_eq_ok he
    exact ⟨hrow, hid⟩

theorem confined_updateOrderStatus {status : OrderStatus} (hid : owner id = tenantId) :
    (shops owner).Confined tenantId (fun _ => True)
      (perform (Statement.updateOrderStatus id status)) := by
  apply confined_perform
  · intro s hs
    change Statement.updateOrderStatus id status (s.view tenantId) = _
    rw [Statement.updateOrderStatus, orders_view hs hid, Statement.updateOrderStatus]
  · intro s e hs he
    obtain ⟨row, hrow, rfl⟩ := Statement.updateOrderStatus_eq_ok.mp he
    exact ⟨(hs.orders id row hrow).trans hid, hid⟩

theorem confined_insertOrderItem {row : OrderItem} (hrow : row.tenantId = tenantId)
    (horder : owner row.orderId = tenantId) :
    (shops owner).Confined tenantId (fun _ => True) (record (.orderItemInsert row)) :=
  confined_record (show Edit.Belongs owner tenantId (.orderItemInsert row) from ⟨hrow, horder⟩)

theorem confined_insertHistory {row : OrderStatusHistory} (hrow : row.tenantId = tenantId) :
    (shops owner).Confined tenantId (fun _ => True) (record (.orderStatusHistoryInsert row)) :=
  confined_record (show Edit.Belongs owner tenantId (.orderStatusHistoryInsert row) from hrow)

/-- `inTx` may use that the order is there, as one of the shop's. -/
theorem confined_place {d : OrderDraft} {inTx : Uuid → Order → Sql Unit}
    (hd : FromOwnWarehouses owner tenantId d) (hid : owner orderId = tenantId)
    (hinTx : ∀ order, (shops owner).Confined tenantId (fun _ => True) (inTx orderId order)) :
    (shops owner).Confined tenantId (fun _ => True)
      (place env tenantId userId orderId d inTx) := by
  -- the locks, the deductions and the invoice number
  apply (confined_forM_const fun _ _ => confined_lockRow).bind
  intro _ _
  apply (confined_forM_const fun it hit => confined_reserveItem (hd it hit)).bind
  intro _ _
  apply confined_nextInvoiceNumber.bind
  intro invoiceSeq _
  -- the order, its lines, its reservations and its history
  have horder : (shops owner).Confined tenantId (fun _ => True)
      (perform (Statement.insertOrder orderId (orderRow env tenantId d invoiceSeq))) :=
    confined_insertOrder rfl hid
  apply horder.bind
  intro _ _
  have hitems : (shops owner).Confined tenantId (fun _ => True)
      (forM d.items fun it => record (.orderItemInsert (orderItemRow tenantId orderId it))) :=
    confined_forM_const fun _ _ => confined_insertOrderItem rfl hid
  apply hitems.bind
  intro _ _
  have hreservations : (shops owner).Confined tenantId (fun _ => True)
      (forM d.items (recordReservation tenantId userId orderId)) := by
    apply confined_forM_const
    intro it hit
    apply confined_query_bind (fun s _ => inventory_view rfl)
    intro s _
    apply confined_orRaise_bind
    intro afterQty _
    exact confined_recordMovement ⟨rfl, hd it hit⟩
  apply hreservations.bind
  intro _ _
  apply (confined_insertHistory rfl).bind
  intro _ _
  apply (hinTx _).bind
  intro _ _
  exact confined_query (fun s hs => orders_view hs hid) fun _ _ => trivial

theorem confined_create {body : CreateBody} {inTx : Uuid → Order → Sql Unit}
    (hid : owner orderId = tenantId)
    (hinTx : ∀ order, (shops owner).Confined tenantId (fun _ => True) (inTx orderId order)) :
    (shops owner).Confined tenantId (fun _ => True)
      (create env tenantId userId orderId body inTx) :=
  confined_prepare.bind fun _ hd => confined_place hd hid hinTx

/-! ### Status changes and cancellation -/

theorem findById_view (hs : Coherent owner s) :
    findById id tenantId (s.view tenantId) = findById id tenantId s := by
  have hrow : ((s.view tenantId).orders.lookup id).filter (·.tenantId = tenantId) =
      (s.orders.lookup id).filter (·.tenantId = tenantId) :=
    filter_lookup_keep fun _ hshop => hshop
  unfold findById
  rw [hrow]
  cases hfound : (s.orders.lookup id).filter (·.tenantId = tenantId) with
  | none => rfl
  | some row =>
    obtain ⟨hlookup, hshop⟩ := Option.filter_eq_some_iff.mp hfound
    have hid : tenantId = owner id :=
      (of_decide_eq_true hshop).symm.trans (hs.orders id row hlookup)
    -- the lines of an order of the shop are the shop's
    have hitems : (s.view tenantId).orderItems.filter (·.orderId = id) =
        s.orderItems.filter (·.orderId = id) := by
      simp only [Db.view, List.filter_filter]
      apply List.filter_congr
      intro it hit
      by_cases horder : it.orderId = id
      · have hline : it.tenantId = tenantId := by rw [hs.orderItems it hit, horder, hid]
        simp [horder, hline]
      · simp [horder]
    rw [Option.map_some, Option.map_some, hitems]

theorem owner_of_findById (hs : Coherent owner s) {order : OrderWithItems}
    (h : findById id tenantId s = some order) : owner id = tenantId := by
  obtain ⟨row, hrow, -⟩ := Option.map_eq_some_iff.mp h
  obtain ⟨hlookup, hshop⟩ := Option.filter_eq_some_iff.mp hrow
  exact (hs.orders id row hlookup).symm.trans (of_decide_eq_true hshop)

theorem confined_getById :
    (shops owner).Confined tenantId (fun _ => owner id = tenantId) (getById id tenantId) := by
  apply confined_query_bind (fun s hs => findById_view hs)
  intro s hs
  unfold orThrow orRaise
  cases horder : findById id tenantId s with
  | none => exact confined_raise
  | some order => exact confined_ret (owner_of_findById hs horder)

theorem confined_updateStatus {status : OrderStatus} :
    (shops owner).Confined tenantId (fun _ => True)
      (updateStatus id tenantId userId status reason) := by
  apply confined_getById.bind
  intro order hid
  apply confined_require_bind
  intro _
  apply (confined_updateOrderStatus hid).bind
  intro _ _
  apply (confined_insertHistory rfl).bind
  intro _ _
  exact confined_query (fun s hs => findById_view hs) fun _ _ => trivial

theorem confined_releaseMovement {item : OrderItem} {mov : InventoryMovement}
    (hmov : owner mov.warehouseId = tenantId) :
    (shops owner).Confined tenantId (fun _ => True)
      (releaseMovement tenantId userId orderId reason item mov) := by
  have hk : (StockKey.mk tenantId item.productVariantId mov.warehouseId).tenantId = tenantId ∧
      owner (StockKey.mk tenantId item.productVariantId mov.warehouseId).warehouseId = tenantId :=
    ⟨rfl, hmov⟩
  apply confined_lockRow_bind
  apply confined_query_bind (fun s _ => inventory_view hk.1)
  intro s _
  have hrestore : ∀ afterQty, (shops owner).Confined tenantId (fun _ => True)
      (if (s.inventory.lookup ⟨tenantId, item.productVariantId, mov.warehouseId⟩).isSome then
          updateStock ⟨tenantId, item.productVariantId, mov.warehouseId⟩ afterQty
        else do
          perform (Statement.insertInventory
            ⟨tenantId, item.productVariantId, mov.warehouseId⟩ afterQty)
          perform (Statement.insertWarehouseInventory
            ⟨tenantId, item.productVariantId, mov.warehouseId⟩ afterQty)) := by
    intro afterQty
    split
    · exact confined_updateStock hk
    · exact (confined_insertInventory hk).bind fun _ _ => confined_insertWarehouseInventory hk
  apply (hrestore _).bind
  intro _ _
  exact confined_recordMovement hk

theorem confined_releaseFallback {item : OrderItem} :
    (shops owner).Confined tenantId (fun _ => True)
      (releaseFallback tenantId userId orderId reason item) := by
  apply confined_query_bind
  · intro s _
    change inventoriesOf tenantId item.productVariantId (s.view tenantId) = _
    have hrows : ((s.view tenantId).inventory.entries.filter fun e =>
          e.1.tenantId = tenantId ∧ e.1.productVariantId = item.productVariantId) =
        s.inventory.entries.filter fun e =>
          e.1.tenantId = tenantId ∧ e.1.productVariantId = item.productVariantId := by
      apply AList.filter_keep
      intro e he
      exact decide_eq_true (of_decide_eq_true he).1
    simp only [inventoriesOf, List.filter_map]
    exact congrArg _ hrows
  · intro s hs
    cases hrows : inventoriesOf tenantId item.productVariantId s with
    | nil => exact confined_ret trivial
    | cons r rest =>
      have hr : r ∈ inventoriesOf tenantId item.productVariantId s := by simp [hrows]
      obtain ⟨hmem, hshop⟩ := List.mem_filter.mp hr
      obtain ⟨e, he, rfl⟩ := List.mem_map.mp hmem
      have hk : e.1.tenantId = tenantId ∧ owner e.1.warehouseId = tenantId := by
        have htenant : e.1.tenantId = tenantId := (of_decide_eq_true hshop).1
        exact ⟨htenant,
          (hs.inventory e.1 e.2 (AList.mem_lookup_iff.mpr he)).symm.trans htenant⟩
      exact (confined_updateInventory hk).bind fun _ _ => confined_recordMovement hk

theorem confined_releaseItem {item : OrderItem} :
    (shops owner).Confined tenantId (fun _ => True)
      (releaseItem tenantId userId orderId reason item) := by
  apply confined_query_bind
  · intro s _
    change reservations tenantId orderId item.productVariantId (s.view tenantId) = _
    simp only [reservations, Db.view, List.filter_filter]
    apply List.filter_congr
    intro m _
    by_cases hshop : m.tenantId = tenantId <;> simp [hshop]
  · intro s hs
    split
    · apply confined_forM_const
      intro m hm
      obtain ⟨hmem, hmine⟩ := List.mem_filter.mp hm
      exact confined_releaseMovement
        ((hs.inventoryMovements m hmem).symm.trans (of_decide_eq_true hmine).1)
    · exact confined_releaseFallback

theorem confined_cancel :
    (shops owner).Confined tenantId (fun _ => True) (cancel id tenantId userId reason) := by
  apply confined_getById.bind
  intro order hid
  apply confined_require_bind
  intro _
  apply confined_require_bind
  intro _
  apply (confined_forM_const fun item _ => confined_releaseItem).bind
  intro _ _
  apply (confined_updateOrderStatus hid).bind
  intro _ _
  apply (confined_insertHistory rfl).bind
  intro _ _
  exact confined_query (fun s hs => findById_view hs) fun _ _ => trivial

end OrderService

end PulseOps
