import PulseOps.Model.Database
import PulseOps.ReadCommitted.Parties
import PulseOps.ReadCommitted.Tables

/-!
# Which shop a row belongs to

All shops share the tables, and nothing but the code keeps them apart. Every row carries the
id of its shop. Rows are found by that id, or by an id of their own or of their parent alone:
the lines of an order, the movements of a shift, the stock of a warehouse. Such a lookup stays
inside the shop because a row belongs to the shop of every row it refers to, and because an id
that one shop has drawn is not drawn by another. `owner` says which shop an id was drawn by.

The columns `order_items.order_id`, `payments.order_id`, `inventory.warehouse_id` and so on are
kept to rows of the same shop by triggers of the migrations; `cash_sessions.register_id` and
`cash_movements.session_id` by the services.

## Main definitions

* `Db.view` — the rows of one shop, with the plans all shops share.
* `Coherent` — every row belongs to the shop that drew its id and the ids of its parents.
* `Edit.Belongs` — the edits of one shop.
* `shops` — the shops as parties to the database.

## Main results

* `Coherent.apply` — the edits of a shop keep rows with their owners.
* `Coherent.view_apply`, `Coherent.view_apply_other` — they change its own rows, and no others.
-/

set_option autoImplicit false

open ReadCommitted

namespace PulseOps

variable {owner : Uuid → Uuid} {tenantId other : Uuid} {s : Db} {e : Edit}

/-- What a shop sees: its own rows, and the plans. -/
def Db.view (tenantId : Uuid) (s : Db) : Db where
  plans := s.plans
  tenants := s.tenants.keep fun id _ => id = tenantId
  tenantSettings := s.tenantSettings.keep fun id _ => id = tenantId
  paymentGateways := s.paymentGateways.keep fun id _ => id = tenantId
  customers := s.customers.keep fun _ row => row.tenantId = tenantId
  customerAddresses := s.customerAddresses.keep fun _ row => row.tenantId = tenantId
  productVariants := s.productVariants.keep fun _ row => row.tenantId = tenantId
  warehouses := s.warehouses.keep fun _ row => row.tenantId = tenantId
  inventory := s.inventory.keep fun k _ => k.tenantId = tenantId
  warehouseInventory := s.warehouseInventory.keep fun k _ => k.tenantId = tenantId
  inventoryMovements := s.inventoryMovements.filter (·.tenantId = tenantId)
  invoiceSequences := s.invoiceSequences.keep fun k _ => k.1 = tenantId
  orders := s.orders.keep fun _ row => row.tenantId = tenantId
  orderItems := s.orderItems.filter (·.tenantId = tenantId)
  orderStatusHistory := s.orderStatusHistory.filter (·.tenantId = tenantId)
  payments := s.payments.keep fun _ row => row.tenantId = tenantId
  paymentTransactions := s.paymentTransactions.filter (·.tenantId = tenantId)
  refunds := s.refunds.filter (·.tenantId = tenantId)
  paymentWebhookEvents := s.paymentWebhookEvents.filter (·.tenantId = tenantId)
  cashRegisters := s.cashRegisters.keep fun _ row => row.tenantId = tenantId
  cashSessions := s.cashSessions.keep fun _ row => row.tenantId = tenantId
  cashMovements := s.cashMovements.filter (·.tenantId = tenantId)

/-- Every row of a table satisfies `p`. -/
def AllRows {κ ρ : Type} [DecidableEq κ] (p : κ → ρ → Prop) (t : Table κ ρ) : Prop :=
  ∀ k r, t.lookup k = some r → p k r

/-- Every row belongs to the shop that drew its id and the ids of the rows it refers to. -/
structure Coherent (owner : Uuid → Uuid) (s : Db) : Prop where
  customers : AllRows (fun id row => row.tenantId = owner id) s.customers
  warehouses : AllRows (fun id row => row.tenantId = owner id) s.warehouses
  inventory : AllRows (fun k _ => k.tenantId = owner k.warehouseId) s.inventory
  warehouseInventory : AllRows (fun k _ => k.tenantId = owner k.warehouseId) s.warehouseInventory
  inventoryMovements : ∀ m ∈ s.inventoryMovements, m.tenantId = owner m.warehouseId
  orders : AllRows (fun id row => row.tenantId = owner id) s.orders
  orderItems : ∀ it ∈ s.orderItems, it.tenantId = owner it.orderId
  payments : AllRows (fun id row => row.tenantId = owner id ∧ row.tenantId = owner row.orderId)
    s.payments
  cashRegisters : AllRows (fun id row => row.tenantId = owner id) s.cashRegisters
  cashSessions : AllRows (fun id row =>
    row.tenantId = owner id ∧ row.tenantId = owner row.registerId) s.cashSessions
  cashMovements : ∀ m ∈ s.cashMovements, m.tenantId = owner m.sessionId

/-- The edits of a shop: rows of its own, under ids it has drawn, that refer to rows of its
own. -/
def Edit.Belongs (owner : Uuid → Uuid) (tenantId : Uuid) : Edit → Prop
  | .nothing => True
  | .tenantSettingsUpsert id _ => id = tenantId
  | .customerInsert id row => row.tenantId = tenantId ∧ owner id = tenantId
  | .warehouseDelete id => owner id = tenantId
  | .inventoryInsert k _ => k.tenantId = tenantId ∧ owner k.warehouseId = tenantId
  | .inventoryUpdate k _ => k.tenantId = tenantId ∧ owner k.warehouseId = tenantId
  | .warehouseInventoryInsert k _ => k.tenantId = tenantId ∧ owner k.warehouseId = tenantId
  | .warehouseInventoryUpsert k _ => k.tenantId = tenantId ∧ owner k.warehouseId = tenantId
  | .inventoryMovementInsert m => m.tenantId = tenantId ∧ owner m.warehouseId = tenantId
  | .invoiceSequenceUpsert id _ _ => id = tenantId
  | .orderInsert id row => row.tenantId = tenantId ∧ owner id = tenantId
  | .orderItemInsert row => row.tenantId = tenantId ∧ owner row.orderId = tenantId
  | .orderUpdate id row => row.tenantId = tenantId ∧ owner id = tenantId
  | .orderStatusHistoryInsert row => row.tenantId = tenantId
  | .paymentInsert id row =>
    row.tenantId = tenantId ∧ owner id = tenantId ∧ owner row.orderId = tenantId
  | .paymentUpdate id row =>
    row.tenantId = tenantId ∧ owner id = tenantId ∧ owner row.orderId = tenantId
  | .paymentTransactionInsert row => row.tenantId = tenantId
  | .refundInsert row => row.tenantId = tenantId
  | .paymentWebhookEventInsert row => row.tenantId = tenantId
  | .cashRegisterInsert id row => row.tenantId = tenantId ∧ owner id = tenantId
  | .cashSessionInsert id row =>
    row.tenantId = tenantId ∧ owner id = tenantId ∧ owner row.registerId = tenantId
  | .cashSessionUpdate id row =>
    row.tenantId = tenantId ∧ owner id = tenantId ∧ owner row.registerId = tenantId
  | .cashMovementInsert row => row.tenantId = tenantId ∧ owner row.sessionId = tenantId

/-! ### Rows stay with their owners -/

section AllRows

variable {κ ρ : Type} [DecidableEq κ] {p : κ → ρ → Prop} {t : Table κ ρ} {k : κ} {r : ρ}

theorem AllRows.empty : AllRows p ∅ := by
  intro k' r' hk'
  rw [AList.lookup_empty] at hk'
  cases hk'

theorem AllRows.insert (h : AllRows p t) (hr : p k r) : AllRows p (t.insert k r) := by
  intro k' r' hk'
  rcases AList.lookup_insert_eq_some.mp hk' with ⟨rfl, rfl⟩ | ⟨-, hold⟩
  · exact hr
  · exact h k' r' hold

theorem AllRows.erase (h : AllRows p t) : AllRows p (t.erase k) :=
  fun k' r' hk' => h k' r' (AList.lookup_erase_eq_some.mp hk').2

theorem AllRows.foldl_erase (h : AllRows p t) (ks : List κ) :
    AllRows p (ks.foldl (fun t k => t.erase k) t) := by
  induction ks generalizing t with
  | nil => exact h
  | cons k ks ih => exact ih h.erase

end AllRows

private theorem forall_mem_append_singleton {α : Type} {p : α → Prop} {xs : List α} {x : α}
    (hxs : ∀ y ∈ xs, p y) (hx : p x) : ∀ y ∈ xs ++ [x], p y := by
  intro y hy
  rcases List.mem_append.mp hy with hy | hy
  · exact hxs y hy
  · rw [List.mem_singleton.mp hy]
    exact hx

/-- What a shop writes keeps the rows with their owners. -/
theorem Coherent.apply (hs : Coherent owner s) (he : e.Belongs owner tenantId) :
    Coherent owner (s.apply e) := by
  cases e with
  | customerInsert id row =>
    exact { hs with customers := hs.customers.insert (he.1.trans he.2.symm) }
  | warehouseDelete id =>
    exact { hs with
      warehouses := hs.warehouses.erase
      inventory := hs.inventory.foldl_erase _
      warehouseInventory := hs.warehouseInventory.foldl_erase _
      inventoryMovements := fun m hm => hs.inventoryMovements m (List.mem_filter.mp hm).1 }
  | inventoryInsert k q =>
    exact { hs with inventory := hs.inventory.insert (he.1.trans he.2.symm) }
  | inventoryUpdate k q =>
    exact { hs with inventory := hs.inventory.insert (he.1.trans he.2.symm) }
  | warehouseInventoryInsert k q =>
    exact { hs with warehouseInventory := hs.warehouseInventory.insert (he.1.trans he.2.symm) }
  | warehouseInventoryUpsert k q =>
    exact { hs with warehouseInventory := hs.warehouseInventory.insert (he.1.trans he.2.symm) }
  | inventoryMovementInsert m =>
    exact { hs with
      inventoryMovements :=
        forall_mem_append_singleton hs.inventoryMovements (he.1.trans he.2.symm) }
  | orderInsert id row =>
    exact { hs with orders := hs.orders.insert (he.1.trans he.2.symm) }
  | orderItemInsert row =>
    exact { hs with
      orderItems := forall_mem_append_singleton hs.orderItems (he.1.trans he.2.symm) }
  | orderUpdate id row =>
    exact { hs with orders := hs.orders.insert (he.1.trans he.2.symm) }
  | paymentInsert id row =>
    exact { hs with
      payments := hs.payments.insert ⟨he.1.trans he.2.1.symm, he.1.trans he.2.2.symm⟩ }
  | paymentUpdate id row =>
    exact { hs with
      payments := hs.payments.insert ⟨he.1.trans he.2.1.symm, he.1.trans he.2.2.symm⟩ }
  | cashRegisterInsert id row =>
    exact { hs with cashRegisters := hs.cashRegisters.insert (he.1.trans he.2.symm) }
  | cashSessionInsert id row =>
    exact { hs with
      cashSessions := hs.cashSessions.insert ⟨he.1.trans he.2.1.symm, he.1.trans he.2.2.symm⟩ }
  | cashSessionUpdate id row =>
    exact { hs with
      cashSessions := hs.cashSessions.insert ⟨he.1.trans he.2.1.symm, he.1.trans he.2.2.symm⟩ }
  | cashMovementInsert row =>
    exact { hs with
      cashMovements := forall_mem_append_singleton hs.cashMovements (he.1.trans he.2.symm) }
  -- the other edits write tables without ids of rows
  | _ => exact { hs with }

/-! ### Views -/

section Stock

variable {ρ : Type} {t : Table StockKey ρ} {id : Uuid}

/-- The stock rows of a warehouse of the shop, all of which are the shop's. -/
private theorem keys_keep (ht : AllRows (fun k _ => k.tenantId = owner k.warehouseId) t)
    (hid : owner id = tenantId) :
    ((t.keep fun k _ => k.tenantId = tenantId).keys.filter (·.warehouseId = id)) =
      t.keys.filter (·.warehouseId = id) := by
  change ((t.entries.filter fun e => decide (e.1.tenantId = tenantId)).map Sigma.fst).filter
    (fun k => decide (k.warehouseId = id)) =
      (t.entries.map Sigma.fst).filter fun k => decide (k.warehouseId = id)
  rw [List.filter_map, List.filter_map, List.filter_filter]
  congr 1
  apply List.filter_congr
  intro e he
  by_cases hwarehouse : e.1.warehouseId = id
  · have hshop : e.1.tenantId = tenantId := by
      rw [ht e.1 e.2 (AList.mem_lookup_iff.mpr he), hwarehouse, hid]
    simp [hshop, hwarehouse]
  · simp [hwarehouse]

private theorem keep_eraseWarehouse
    (ht : AllRows (fun k _ => k.tenantId = owner k.warehouseId) t) (hid : owner id = tenantId) :
    ((t.keys.filter (·.warehouseId = id)).foldl (fun t k => t.erase k) t).keep
        (fun k _ => k.tenantId = tenantId) =
      ((t.keep fun k _ => k.tenantId = tenantId).keys.filter (·.warehouseId = id)).foldl
        (fun t k => t.erase k) (t.keep fun k _ => k.tenantId = tenantId) := by
  rw [keys_keep ht hid]
  generalize t.keys.filter (·.warehouseId = id) = ks
  clear ht
  induction ks generalizing t with
  | nil => rfl
  | cons k ks ih => rw [List.foldl_cons, List.foldl_cons, ih, AList.keep_erase]

private theorem keep_eraseWarehouse_other
    (ht : AllRows (fun k _ => k.tenantId = owner k.warehouseId) t) (hid : owner id ≠ other) :
    ((t.keys.filter (·.warehouseId = id)).foldl (fun t k => t.erase k) t).keep
        (fun k _ => k.tenantId = other) = t.keep fun k _ => k.tenantId = other := by
  apply AList.keep_foldl_erase_out
  intro k hk r hr
  have hwarehouse : k.warehouseId = id := by simpa using (List.mem_filter.mp hk).2
  rw [ht k r hr, hwarehouse]
  exact decide_eq_false hid

end Stock

/-- On its own rows an edit of the shop does what it does to the whole database. -/
theorem Coherent.view_apply (hs : Coherent owner s) (he : e.Belongs owner tenantId) :
    (s.apply e).view tenantId = (s.view tenantId).apply e := by
  cases e with
  | nothing => rfl
  -- a warehouse takes its stock with it, which is all of the same shop
  | warehouseDelete id =>
    simp only [Edit.Belongs] at he
    simp only [Db.view, Db.apply, Db.deleteWarehouse, keep_eraseWarehouse hs.inventory he,
      keep_eraseWarehouse hs.warehouseInventory he, AList.keep_erase, List.filter_filter,
      Bool.and_comm]
  | tenantSettingsUpsert id row =>
    simp only [Edit.Belongs] at he
    simp [Db.view, AList.keep_insert, he]
  | invoiceSequenceUpsert id fy n =>
    simp only [Edit.Belongs] at he
    simp [Db.view, AList.keep_insert, he]
  | orderStatusHistoryInsert row =>
    simp only [Edit.Belongs] at he
    simp [Db.view, List.filter_append, he]
  | paymentTransactionInsert row =>
    simp only [Edit.Belongs] at he
    simp [Db.view, List.filter_append, he]
  | refundInsert row =>
    simp only [Edit.Belongs] at he
    simp [Db.view, List.filter_append, he]
  | paymentWebhookEventInsert row =>
    simp only [Edit.Belongs] at he
    simp [Db.view, List.filter_append, he]
  | inventoryMovementInsert row => simp [Db.view, List.filter_append, he.1]
  | orderItemInsert row => simp [Db.view, List.filter_append, he.1]
  | cashMovementInsert row => simp [Db.view, List.filter_append, he.1]
  | _ => simp [Db.view, AList.keep_insert, he.1]

/-- A row written under an id of one shop does not show in the rows of another. -/
private theorem AllRows.keep_insert_other {ρ : Type} {p : Uuid → ρ → Prop} {t : Table Uuid ρ}
    {id : Uuid} {row : ρ} {shopOf : ρ → Uuid} (ht : AllRows p t)
    (hp : ∀ r, p id r → shopOf r = owner id) (hid : owner id = tenantId)
    (hrow : shopOf row = tenantId) (hother : other ≠ tenantId) :
    (t.insert id row).keep (fun _ r => shopOf r = other) =
      t.keep fun _ r => shopOf r = other := by
  apply AList.keep_insert_out
  · rw [hrow]
    exact decide_eq_false hother.symm
  · intro r hr
    rw [hp r (ht id r hr), hid]
    exact decide_eq_false hother.symm

/-- The rows of the other shops stay as they are. -/
theorem Coherent.view_apply_other (hs : Coherent owner s) (he : e.Belongs owner tenantId)
    (hother : other ≠ tenantId) : (s.apply e).view other = s.view other := by
  have hne : tenantId ≠ other := hother.symm
  cases e with
  | nothing => rfl
  | tenantSettingsUpsert id row =>
    simp only [Edit.Belongs] at he
    simp [Db.view, AList.keep_insert_out, he, hne]
  | customerInsert id row =>
    simp [Db.view, hs.customers.keep_insert_other (fun _ h => h) he.2 he.1 hother]
  -- what goes with the warehouse was never in the view of another shop
  | warehouseDelete id =>
    simp only [Edit.Belongs] at he
    have hid : owner id ≠ other := he ▸ hne
    have hwarehouses : (s.warehouses.erase id).keep (fun _ row => row.tenantId = other) =
        s.warehouses.keep fun _ row => row.tenantId = other := by
      change ([id].foldl (fun t k => t.erase k) s.warehouses).keep _ = _
      apply AList.keep_foldl_erase_out
      intro k hk row hrow
      rw [hs.warehouses k row hrow, List.mem_singleton.mp hk]
      exact decide_eq_false hid
    have hmovements : (s.inventoryMovements.filter (·.warehouseId ≠ id)).filter
        (·.tenantId = other) = s.inventoryMovements.filter (·.tenantId = other) := by
      rw [List.filter_filter]
      apply List.filter_congr
      intro m hm
      by_cases hshop : m.tenantId = other
      · have hwarehouse : m.warehouseId ≠ id := by
          rintro rfl
          exact hid ((hs.inventoryMovements m hm).symm.trans hshop)
        simp [hshop, hwarehouse]
      · simp [hshop]
    simp only [Db.view, Db.apply, Db.deleteWarehouse, hwarehouses, hmovements,
      keep_eraseWarehouse_other hs.inventory hid,
      keep_eraseWarehouse_other hs.warehouseInventory hid]
  | inventoryInsert k q => simp [Db.view, AList.keep_insert_out, he.1, hne]
  | inventoryUpdate k q => simp [Db.view, AList.keep_insert_out, he.1, hne]
  | warehouseInventoryInsert k q => simp [Db.view, AList.keep_insert_out, he.1, hne]
  | warehouseInventoryUpsert k q => simp [Db.view, AList.keep_insert_out, he.1, hne]
  | inventoryMovementInsert m => simp [Db.view, List.filter_append, he.1, hne]
  | invoiceSequenceUpsert id fy n =>
    simp only [Edit.Belongs] at he
    simp [Db.view, AList.keep_insert_out, he, hne]
  | orderInsert id row =>
    simp [Db.view, hs.orders.keep_insert_other (fun _ h => h) he.2 he.1 hother]
  | orderItemInsert row => simp [Db.view, List.filter_append, he.1, hne]
  | orderUpdate id row =>
    simp [Db.view, hs.orders.keep_insert_other (fun _ h => h) he.2 he.1 hother]
  | orderStatusHistoryInsert row =>
    simp only [Edit.Belongs] at he
    simp [Db.view, List.filter_append, he, hne]
  | paymentInsert id row =>
    simp [Db.view, hs.payments.keep_insert_other (fun _ h => h.1) he.2.1 he.1 hother]
  | paymentUpdate id row =>
    simp [Db.view, hs.payments.keep_insert_other (fun _ h => h.1) he.2.1 he.1 hother]
  | paymentTransactionInsert row =>
    simp only [Edit.Belongs] at he
    simp [Db.view, List.filter_append, he, hne]
  | refundInsert row =>
    simp only [Edit.Belongs] at he
    simp [Db.view, List.filter_append, he, hne]
  | paymentWebhookEventInsert row =>
    simp only [Edit.Belongs] at he
    simp [Db.view, List.filter_append, he, hne]
  | cashRegisterInsert id row =>
    simp [Db.view, hs.cashRegisters.keep_insert_other (fun _ h => h) he.2 he.1 hother]
  | cashSessionInsert id row =>
    simp [Db.view, hs.cashSessions.keep_insert_other (fun _ h => h.1) he.2.1 he.1 hother]
  | cashSessionUpdate id row =>
    simp [Db.view, hs.cashSessions.keep_insert_other (fun _ h => h.1) he.2.1 he.1 hother]
  | cashMovementInsert row => simp [Db.view, List.filter_append, he.1, hne]

/-- A row of the shop is a row. -/
theorem Db.present_of_view {k : Key} (h : (s.view tenantId).present k = true) :
    s.present k = true := by
  have hrow : ∀ {κ ρ : Type} [DecidableEq κ] {t : Table κ ρ} {p : κ → ρ → Bool} {id : κ},
      ((t.keep p).lookup id).isSome = true → (t.lookup id).isSome = true := by
    intro κ ρ _ t p id hsome
    obtain ⟨r, hr⟩ := Option.isSome_iff_exists.mp hsome
    exact Option.isSome_of_eq_some (AList.lookup_keep_eq_some.mp hr).1
  cases k with
  | inventory k => exact hrow h
  | warehouseInventory k => exact hrow h
  | invoiceSequence tenantId fy => exact hrow h
  | order id => exact hrow h
  | payment id => exact hrow h
  | cashSession id => exact hrow h
  | warehouse id => exact hrow h
  | _ => exact h

/-- The shops as the parties to their database. -/
def shops (owner : Uuid → Uuid) : Parties sales Uuid where
  Inv := Coherent owner
  view := Db.view
  Admits := Edit.Belongs owner
  inv_apply := Coherent.apply
  view_apply := Coherent.view_apply
  view_apply_other := Coherent.view_apply_other
  present_of_view := Db.present_of_view

end PulseOps
