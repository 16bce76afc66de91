import Mathlib.Tactic.Common
import PulseOps.Model.Orders
import PulseOps.ReadCommitted.Serial

/-!
# What the stock operations write

One specification for each operation of the order and inventory services: what it found
and everything it wrote, when it runs alone and succeeds. The proofs about runs use these
and never unfold a service again.

## Main definitions

* `WritesStock` — both stock tables get a quantity.

## Main results

* `runs_create`, `runs_updateStatus`, `runs_cancel`, `runs_adjust`, `runs_transfer`,
  `runs_deleteWarehouse` — the specifications.
-/

set_option autoImplicit false

open ReadCommitted Program

namespace PulseOps

variable {answer : Call → Reply} {s : Db} {es : List Edit} {k : StockKey} {q : ℤ}

/-- The quantity in stock; a missing row counts as zero. -/
def Db.quantity (s : Db) (k : StockKey) : ℤ := (s.inventory.lookup k).getD 0

/-- Both stock tables with the quantity `q` at `k`. -/
def Db.setStock (s : Db) (k : StockKey) (q : ℤ) : Db :=
  { s with
    inventory := s.inventory.insert k q
    warehouseInventory := s.warehouseInventory.insert k q }

/-- `inventory` alone with the quantity `q` at `k`. -/
def Db.setInventory (s : Db) (k : StockKey) (q : ℤ) : Db :=
  { s with inventory := s.inventory.insert k q }

/-- After a movement was journalled. -/
def Db.addMovement (s : Db) (m : InventoryMovement) : Db :=
  { s with inventoryMovements := s.inventoryMovements ++ [m] }

/-- The edits `es` write the quantity `q` of `k` to both stock tables, creating the rows
that are missing. -/
inductive WritesStock (s : Db) (k : StockKey) (q : ℤ) : List Edit → Prop
  | update (hk : (s.inventory.lookup k).isSome) :
      WritesStock s k q [.inventoryUpdate k q, .warehouseInventoryUpsert k q]
  | create (hk : s.inventory.lookup k = none) :
      WritesStock s k q [.inventoryInsert k q, .warehouseInventoryUpsert k q]
  | restore (hk : s.inventory.lookup k = none) (hw : s.warehouseInventory.lookup k = none) :
      WritesStock s k q [.inventoryInsert k q, .warehouseInventoryInsert k q]

theorem isSome_of_quantity_pos (h : 0 < s.quantity k) : (s.inventory.lookup k).isSome := by
  cases hk : s.inventory.lookup k with
  | none => simp [Db.quantity, hk] at h
  | some q => rfl

@[simp] theorem lookup_setStock_self :
    (s.setStock k q).inventory.lookup k = some q := AList.lookup_insert _

theorem lookup_setStock_ne {k' : StockKey} (h : k' ≠ k) :
    (s.setStock k q).inventory.lookup k' = s.inventory.lookup k' := AList.lookup_insert_ne h

@[simp] theorem quantity_setStock_self : (s.setStock k q).quantity k = q := by
  simp [Db.quantity]

theorem quantity_setStock_ne {k' : StockKey} (h : k' ≠ k) :
    (s.setStock k q).quantity k' = s.quantity k' := by
  simp [Db.quantity, lookup_setStock_ne h]

theorem WritesStock.replay (h : WritesStock s k q es) : sales.replay es s = s.setStock k q := by
  cases h <;> rfl

/-! ### Statements -/

theorem runs_updateStock (hk : (s.inventory.lookup k).isSome) {u : Unit} :
    Runs answer (updateStock k q) s u es ↔
      0 ≤ q ∧ es = [.inventoryUpdate k q, .warehouseInventoryUpsert k q] := by
  simp only [updateStock, run_bind, runs_perform, Statement.updateInventory_eq_ok hk,
    Statement.upsertWarehouseInventory_eq_ok]
  constructor
  · rintro ⟨_, _, _, ⟨_, ⟨hq, rfl⟩, rfl⟩, ⟨_, ⟨_, rfl⟩, rfl⟩, rfl⟩
    exact ⟨hq, rfl⟩
  · rintro ⟨hq, rfl⟩
    exact ⟨(), _, _, ⟨_, ⟨hq, rfl⟩, rfl⟩, ⟨_, ⟨hq, rfl⟩, rfl⟩, rfl⟩

theorem runs_createStock {u : Unit} :
    Runs answer (createStock k q) s u es ↔
      0 ≤ q ∧ s.inventory.lookup k = none ∧
        es = [.inventoryInsert k q, .warehouseInventoryUpsert k q] := by
  simp only [createStock, run_bind, runs_perform, Statement.insertInventory_eq_ok,
    Statement.upsertWarehouseInventory_eq_ok]
  constructor
  · rintro ⟨_, _, _, ⟨_, ⟨hq, hk, rfl⟩, rfl⟩, ⟨_, ⟨_, rfl⟩, rfl⟩, rfl⟩
    exact ⟨hq, hk, rfl⟩
  · rintro ⟨hq, hk, rfl⟩
    exact ⟨(), _, _, ⟨_, ⟨hq, hk, rfl⟩, rfl⟩, ⟨_, ⟨hq, rfl⟩, rfl⟩, rfl⟩

/-- `if exists … else create`, after the row was read. -/
theorem runs_writeStock {u : Unit} :
    Runs answer (if (s.inventory.lookup k).isSome then updateStock k q
      else createStock k q) s u es →
      0 ≤ q ∧ WritesStock s k q es := by
  split
  · rename_i hk
    intro h
    obtain ⟨hq, rfl⟩ := (runs_updateStock hk).mp h
    exact ⟨hq, .update hk⟩
  · intro h
    obtain ⟨hq, hk, rfl⟩ := runs_createStock.mp h
    exact ⟨hq, .create hk⟩

theorem runs_recordMovement {m : InventoryMovement} {u : Unit} :
    Runs answer (recordMovement m) s u es ↔
      m.quantityAfter = m.quantityBefore + m.quantityChanged ∧
        (s.inventory.lookup m.stockKey).isSome ∧ es = [.inventoryMovementInsert m] := by
  simp only [recordMovement, runs_perform, Statement.insertInventoryMovement_eq_ok]
  constructor
  · rintro ⟨_, ⟨hsum, hk, rfl⟩, rfl⟩
    exact ⟨hsum, hk, rfl⟩
  · rintro ⟨hsum, hk, rfl⟩
    exact ⟨_, ⟨hsum, hk, rfl⟩, rfl⟩

@[simp] theorem runs_ensure {P : Prop} [Decidable P] {message code : String}
    {statusCode : ℕ} {u : Unit} :
    Runs answer (ensure P message statusCode code) s u es ↔ P ∧ es = [] :=
  runs_require

@[simp] theorem runs_orThrow {α : Type} {x : Option α} {message code : String}
    {statusCode : ℕ} {a : α} :
    Runs answer (orThrow x message statusCode code) s a es ↔ x = some a ∧ es = [] :=
  runs_orRaise

@[simp] theorem runs_ensure_bind {P : Prop} [Decidable P] {message code : String}
    {statusCode : ℕ} {β : Type} {f : Unit → Sql β} {b : β} :
    Runs answer (ensure P message statusCode code >>= f) s b es ↔
      P ∧ Runs answer (f ()) s b es :=
  runs_require_bind

@[simp] theorem runs_orThrow_bind {α β : Type} {x : Option α} {message code : String}
    {statusCode : ℕ} {f : α → Sql β} {b : β} :
    Runs answer (orThrow x message statusCode code >>= f) s b es ↔
      ∃ a, x = some a ∧ Runs answer (f a) s b es :=
  runs_orRaise_bind

/-! ### What the statements write, wherever they run -/

/-- Edits of the stock tables and of the journal. -/
def Edit.IsStock : Edit → Prop
  | .nothing => True
  | .inventoryInsert _ _ => True
  | .inventoryUpdate _ _ => True
  | .warehouseInventoryInsert _ _ => True
  | .warehouseInventoryUpsert _ _ => True
  | .inventoryMovementInsert _ => True
  | _ => False

theorem emits_updateInventory :
    (perform (Statement.updateInventory k q) : Sql Unit).Emits Edit.IsStock := by
  refine emits_perform fun s e he => ?_
  rcases Statement.eq_of_updateInventory he with rfl | rfl <;> trivial

theorem emits_upsertWarehouseInventory :
    (perform (Statement.upsertWarehouseInventory k q) : Sql Unit).Emits Edit.IsStock := by
  refine emits_perform fun s e he => ?_
  rw [(Statement.upsertWarehouseInventory_eq_ok.mp he).2]
  trivial

theorem emits_insertInventory :
    (perform (Statement.insertInventory k q) : Sql Unit).Emits Edit.IsStock := by
  refine emits_perform fun s e he => ?_
  rw [(Statement.insertInventory_eq_ok.mp he).2.2]
  trivial

theorem emits_insertWarehouseInventory :
    (perform (Statement.insertWarehouseInventory k q) : Sql Unit).Emits Edit.IsStock := by
  refine emits_perform fun s e he => ?_
  rw [(Statement.insertWarehouseInventory_eq_ok.mp he).2.2]
  trivial

theorem emits_recordMovement {m : InventoryMovement} :
    (recordMovement m).Emits Edit.IsStock := by
  refine emits_perform fun s e he => ?_
  rw [(Statement.insertInventoryMovement_eq_ok.mp he).2.2]
  trivial

theorem emits_updateStock : (updateStock k q).Emits Edit.IsStock :=
  emits_updateInventory.bind fun _ => emits_upsertWarehouseInventory

/-! ### Adjustments and transfers -/

namespace InventoryService

/-- The movement an adjustment records. -/
def adjustmentRow (userId : Uuid) (k : StockKey) (before : ℤ) (body : AdjustBody) :
    InventoryMovement :=
  { tenantId := k.tenantId
    productVariantId := k.productVariantId
    warehouseId := k.warehouseId
    type := .adjustment
    quantityBefore := before
    quantityChanged := body.quantityChanged
    quantityAfter := before + body.quantityChanged
    reason := some ((truthy body.reason).getD "ADJUSTMENT")
    referenceType := truthy body.referenceType
    referenceId := truthy body.referenceId
    createdBy := some userId }

theorem runs_adjust {tenantId userId : Uuid} {body : AdjustBody} {r : AdjustResult}
    (h : Runs answer (adjust tenantId userId body) s r es) :
    ∃ (k : StockKey) (ws : List Edit),
      0 ≤ s.quantity k + body.quantityChanged ∧
      WritesStock s k (s.quantity k + body.quantityChanged) ws ∧
      es = ws ++ [.inventoryMovementInsert
        (adjustmentRow userId k (s.quantity k) body)] := by
  simp only [adjust, adjustRow, runs_orThrow_bind, runs_ensure_bind, runs_query_bind,
    runs_lockAndRead_bind] at h
  obtain ⟨variantId, -, -, -, -, -, hq, h⟩ := h
  obtain ⟨_, ws, _, hws, hrest, rfl⟩ := run_bind.mp h
  obtain ⟨-, hws⟩ := runs_writeStock hws
  obtain ⟨_, ms, _, hms, hret, rfl⟩ := run_bind.mp hrest
  obtain ⟨-, -, rfl⟩ := runs_recordMovement.mp hms
  obtain ⟨-, rfl⟩ := runs_ret.mp hret
  exact ⟨⟨tenantId, variantId, body.warehouseId⟩, ws, hq, hws, rfl⟩

/-- A stock quantity is read with a default of zero. -/
theorem getD_lookup (s : Db) (k : StockKey) : (s.inventory.lookup k).getD 0 = s.quantity k :=
  rfl

theorem runs_transfer {tenantId userId : Uuid} {body : TransferBody} {r : TransferResult}
    (h : Runs answer (transfer tenantId userId body) s r es) :
    ∃ (source dest : StockKey) (ws ws' : List Edit),
      source ≠ dest ∧ 0 < body.quantity ∧ body.quantity ≤ s.quantity source ∧
      WritesStock s source (s.quantity source - body.quantity) ws ∧
      WritesStock (s.setStock source (s.quantity source - body.quantity)) dest
        (s.quantity dest + body.quantity) ws' ∧
      0 ≤ s.quantity dest + body.quantity ∧
      es = ws ++ ws' ++
        [.inventoryMovementInsert (transferMovement userId source (s.quantity source)
            (-body.quantity) (s.quantity source - body.quantity) body),
          .inventoryMovementInsert (transferMovement userId dest (s.quantity dest)
            body.quantity (s.quantity dest + body.quantity) body)] := by
  simp only [transfer, transferRows, runs_orThrow_bind, runs_ensure_bind, runs_query_bind]
    at h
  obtain ⟨variantId, -, sourceId, -, destId, -, hne, hpos, -, -, -, h⟩ := h
  obtain ⟨_, ls, _, hls, hrest, rfl⟩ := run_bind.mp h
  obtain rfl := runs_forM_lockRow.mp hls
  simp only [Database.replay_nil, runs_query_bind, runs_ensure_bind] at hrest
  simp only [getD_lookup] at hrest
  obtain ⟨hle, hrest⟩ := hrest
  -- the source has at least what is moved, so its row is there
  have hsource := isSome_of_quantity_pos (lt_of_lt_of_le hpos hle)
  have hdest : (⟨tenantId, variantId, destId⟩ : StockKey) ≠ ⟨tenantId, variantId, sourceId⟩ := by
    simpa using fun h => hne h.symm
  obtain ⟨_, ws, _, hws, hrest₁, rfl⟩ := run_bind.mp hrest
  rw [if_pos hsource, runs_updateStock hsource] at hws
  obtain ⟨-, rfl⟩ := hws
  obtain ⟨_, ws', _, hws', hrest₂, rfl⟩ := run_bind.mp hrest₁
  rw [(WritesStock.update hsource).replay] at hws'
  obtain ⟨hnonneg, hws'⟩ := runs_writeStock (by rwa [lookup_setStock_ne hdest])
  obtain ⟨_, ms, _, hms, hrest₃, rfl⟩ := run_bind.mp hrest₂
  obtain ⟨_, ms', _, hms', hret, rfl⟩ := run_bind.mp hrest₃
  obtain ⟨-, -, rfl⟩ := runs_recordMovement.mp hms
  obtain ⟨-, -, rfl⟩ := runs_recordMovement.mp hms'
  obtain ⟨-, rfl⟩ := runs_ret.mp hret
  exact ⟨_, _, _, ws', hdest.symm, hpos, hle, .update hsource, hws', hnonneg, rfl⟩

end InventoryService

end PulseOps
