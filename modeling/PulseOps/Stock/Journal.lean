import Mathlib.Data.List.Chain
import PulseOps.Stock.Cancellation

/-!
# The movement journal

Every change of a stock row is to be journalled with the quantities before and after it.
`cancel`, `adjust` and `transfer` journal what they read. `create` deducts all lines first
and reads the quantities for the journal afterwards, which is right as long as no two
lines share a stock row.

## Main definitions

* `stockChanges` — the quantities before and after each write to a stock row.
* `journal` — the movements a run records.
* `ExactLedger` — the journal tells the changes.

## Main results

* `StockEffect.records` — what each request journals of a stock row.
* `ExactLedger.of_records` — the journal of a run forms a chain.
-/

set_option autoImplicit false

open ReadCommitted Program

namespace PulseOps

open OrderService InventoryService

variable {s : Db} {es : List Edit} {k : StockKey} {q : ℤ} {answer : Call → Reply}

/-! ### Changes and movements -/

/-- The quantity an edit writes to a row of `inventory`. -/
def Edit.stock? : Edit → Option (StockKey × ℤ)
  | .inventoryInsert k q => some (k, q)
  | .inventoryUpdate k q => some (k, q)
  | _ => none

/-- The movement an edit records. -/
def Edit.movement? : Edit → Option InventoryMovement
  | .inventoryMovementInsert m => some m
  | _ => none

/-- The edit deletes no stock rows. -/
def Edit.KeepsRows : Edit → Prop
  | .warehouseDelete _ => False
  | _ => True

/-- The edit deletes no warehouse, and a movement it records adds up. -/
def Edit.AddsUp : Edit → Prop
  | .warehouseDelete _ => False
  | .inventoryMovementInsert m => m.quantityAfter = m.quantityBefore + m.quantityChanged
  | _ => True

/-- The quantities of the row `k` before and after each write to it, oldest first. -/
def stockChanges (k : StockKey) : Db → List Edit → List (ℤ × ℤ)
  | _, [] => []
  | s, e :: es =>
    match e.stock? with
    | some (k', q) =>
      if k' = k then (s.quantity k, q) :: stockChanges k (s.apply e) es
      else stockChanges k (s.apply e) es
    | none => stockChanges k (s.apply e) es

/-- The movements recorded by a list of edits, oldest first. -/
def journal (es : List Edit) : List InventoryMovement := es.filterMap Edit.movement?

/-- The journal of one stock row. -/
def journalOf (k : StockKey) (es : List Edit) : List InventoryMovement :=
  (journal es).filter (·.stockKey = k)

/-- The quantities before and after that the journal of the row `k` gives. -/
def recordedChanges (k : StockKey) (es : List Edit) : List (ℤ × ℤ) :=
  (journalOf k es).map fun m => (m.quantityBefore, m.quantityAfter)

/-- The journal tells, row by row, the quantities before and after each change, its amounts
add up, and each movement of a row starts where the one before it ended. -/
structure ExactLedger (s : Db) (es : List Edit) : Prop where
  sums : ∀ m ∈ journal es, m.quantityAfter = m.quantityBefore + m.quantityChanged
  recorded : ∀ k, recordedChanges k es = stockChanges k s es
  chained : ∀ k, (journalOf k es).IsChain fun m m' => m.quantityAfter = m'.quantityBefore

@[simp] theorem journal_nil : journal [] = [] := rfl

@[simp] theorem journal_cons (e : Edit) (es : List Edit) :
    journal (e :: es) = e.movement?.toList ++ journal es := by
  cases h : e.movement? with
  | none => simp [journal, h]
  | some m => simp [journal, h]

@[simp] theorem journal_append (es es' : List Edit) :
    journal (es ++ es') = journal es ++ journal es' := List.filterMap_append

theorem recordedChanges_append (es es' : List Edit) :
    recordedChanges k (es ++ es') = recordedChanges k es ++ recordedChanges k es' := by
  simp [recordedChanges, journalOf]

theorem stockChanges_append (s : Db) (es es' : List Edit) :
    stockChanges k s (es ++ es') =
      stockChanges k s es ++ stockChanges k (sales.replay es s) es' := by
  induction es generalizing s with
  | nil => rfl
  | cons e es ih =>
    simp only [List.cons_append, stockChanges, Database.replay_cons, sales_apply, ih]
    split
    · split <;> simp
    · rfl

/-- Edits that write no row of `inventory` make no change. -/
theorem stockChanges_eq_nil (k : StockKey) (s : Db) (h : ∀ e ∈ es, e.stock? = none) :
    stockChanges k s es = [] := by
  induction es generalizing s with
  | nil => rfl
  | cons e es ih =>
    rw [stockChanges, h e (by simp)]
    exact ih _ fun e' he' => h e' (by simp [he'])

/-- The journal ends up in the movement table. -/
theorem inventoryMovements_replay (hes : ∀ e ∈ es, e.KeepsRows) :
    (sales.replay es s).inventoryMovements = s.inventoryMovements ++ journal es := by
  induction es generalizing s with
  | nil => simp [journal]
  | cons e es ih =>
    rw [Database.replay_cons, ih fun e' he' => hes e' (by simp [he'])]
    have he := hes e (by simp)
    cases e with
    | warehouseDelete id => exact he.elim
    | inventoryMovementInsert m => simp [Edit.movement?]
    | _ => simp [Edit.movement?]

/-- Each change starts at the quantity the one before it left. -/
theorem stockChanges_isChain (hes : ∀ e ∈ es, e.AddsUp) :
    (stockChanges k s es).IsChain (fun x y => x.2 = y.1) ∧
      ∀ x ∈ (stockChanges k s es).head?, x.1 = s.quantity k := by
  induction es generalizing s with
  | nil => exact ⟨.nil, by simp [stockChanges]⟩
  | cons e es ih =>
    obtain ⟨hchain, hhead⟩ := ih (s := s.apply e) fun e' he' => hes e' (by simp [he'])
    have he := hes e (by simp)
    rw [stockChanges]
    split
    · -- the statement sets the quantity of `k'`
      rename_i k' q hstock
      have happly : (s.apply e).inventory = s.inventory.insert k' q := by
        cases e <;> simp_all [Edit.stock?]
      by_cases hk : k' = k
      · subst hk
        have hq : (s.apply e).quantity k' = q := by
          rw [Db.quantity, happly, AList.lookup_insert, Option.getD_some]
        rw [if_pos rfl]
        rw [hq] at hhead
        exact ⟨List.isChain_cons.mpr ⟨fun y hy => (hhead y hy).symm, hchain⟩, by simp⟩
      · have hq : (s.apply e).quantity k = s.quantity k := by
          rw [Db.quantity, happly, AList.lookup_insert_ne (Ne.symm hk), Db.quantity]
        rw [if_neg hk]
        rw [hq] at hhead
        exact ⟨hchain, hhead⟩
    · -- the statement sets no quantity
      rename_i hstock
      have hq : (s.apply e).quantity k = s.quantity k := by
        cases e with
        | warehouseDelete id => exact he.elim
        | _ => simp_all [Edit.stock?, Db.quantity]
      rw [hq] at hhead
      exact ⟨hchain, hhead⟩

theorem Edit.AddsUp.keepsRows {e : Edit} (he : e.AddsUp) : e.KeepsRows := by
  cases e with
  | warehouseDelete id => exact he.elim
  | _ => trivial

theorem mem_journal {m : InventoryMovement} :
    m ∈ journal es ↔ Edit.inventoryMovementInsert m ∈ es := by
  rw [journal, List.mem_filterMap]
  constructor
  · rintro ⟨e, he, hm⟩
    cases e <;> simp_all [Edit.movement?]
  · exact fun h => ⟨_, h, rfl⟩

/-- What a journal that adds up and tells every change amounts to. -/
theorem ExactLedger.of_records (hes : ∀ e ∈ es, e.AddsUp)
    (hrecorded : ∀ k, recordedChanges k es = stockChanges k s es) : ExactLedger s es where
  sums m hm := hes _ (mem_journal.mp hm)
  recorded := hrecorded
  chained k := by
    have hchain := (stockChanges_isChain (k := k) (s := s) hes).1
    rw [← hrecorded k, recordedChanges, List.isChain_map] at hchain
    exact hchain

/-! ### What the requests journal -/

theorem WritesStock.stockChanges_eq {k' : StockKey} (h : WritesStock s k q es) :
    stockChanges k' s es = if k = k' then [(s.quantity k, q)] else [] := by
  have hif (hk : k = k') : s.quantity k' = s.quantity k := by rw [hk]
  cases h <;> by_cases hk : k = k' <;> simp [stockChanges, Edit.stock?, hk]

theorem WritesStock.journal_eq (h : WritesStock s k q es) : journal es = [] := by
  cases h <;> rfl

variable {tenantId userId orderId : Uuid} {items : List ItemCalculation}

/-- Rows that no line sells from keep their quantity. -/
theorem OrderService.ReservesStock.quantity_ne (h : ReservesStock tenantId s items es)
    (hk : ∀ it ∈ items, it.stockKey tenantId ≠ k) :
    (sales.replay es s).quantity k = s.quantity k := by
  induction h with
  | nil => rfl
  | cons _ hws _ ih =>
    rw [Database.replay_append, hws.replay, ih fun it hit => hk it (by simp [hit])]
    exact quantity_setStock_ne (hk _ (by simp)).symm

/-- A row that one line sells from loses the quantity of that line. -/
theorem OrderService.ReservesStock.quantity_eq (h : ReservesStock tenantId s items es)
    (hnodup : (items.map (·.stockKey tenantId)).Nodup) {it : ItemCalculation}
    (hit : it ∈ items) :
    (sales.replay es s).quantity (it.stockKey tenantId) =
      s.quantity (it.stockKey tenantId) - it.quantity := by
  induction h with
  | nil => simp at hit
  | cons _ hws hrest ih =>
    rw [List.map_cons, List.nodup_cons] at hnodup
    obtain ⟨hnew, hnodup⟩ := hnodup
    rw [Database.replay_append, hws.replay]
    rcases List.mem_cons.mp hit with rfl | hit
    · rw [hrest.quantity_ne fun it' hit' heq => hnew (List.mem_map.mpr ⟨it', hit', heq⟩)]
      exact quantity_setStock_self
    · rw [ih hnodup hit, quantity_setStock_ne]
      exact fun heq => hnew (List.mem_map.mpr ⟨it, hit, heq⟩)

/-- One change a line, when no two lines share a row. -/
theorem OrderService.ReservesStock.stockChanges_eq (h : ReservesStock tenantId s items es)
    (hnodup : (items.map (·.stockKey tenantId)).Nodup) (k : StockKey) :
    stockChanges k s es = (items.filter (·.stockKey tenantId = k)).map
      fun it => (s.quantity k, s.quantity k - it.quantity) := by
  induction h with
  | nil => rfl
  | @cons s it items ws es _ hws _ ih =>
    rw [List.map_cons, List.nodup_cons] at hnodup
    obtain ⟨hnew, hnodup⟩ := hnodup
    rw [stockChanges_append, hws.stockChanges_eq, hws.replay, ih hnodup]
    by_cases hk : it.stockKey tenantId = k
    · subst hk
      have hnil : items.filter (·.stockKey tenantId = it.stockKey tenantId) = [] := by
        rw [List.filter_eq_nil_iff]
        intro it' hit' heq
        exact hnew (List.mem_map.mpr ⟨it', hit', of_decide_eq_true heq⟩)
      simp [hnil]
    · simp [hk, quantity_setStock_ne (Ne.symm hk)]

theorem OrderService.ReservesStock.journal_eq (h : ReservesStock tenantId s items es) :
    journal es = [] := by
  induction h with
  | nil => rfl
  | cons _ hws _ ih => rw [journal_append, hws.journal_eq, ih, List.append_nil]

/-- Releases journal what they do. -/
theorem OrderService.Releases.records {reason : Option String} {rs : List Release}
    (h : Releases userId orderId reason s rs es) (k : StockKey) :
    recordedChanges k es = stockChanges k s es := by
  induction h with
  | nil => rfl
  | @both s k' n ws es rs _ hws _ ih =>
    -- the row of each item is written in both tables, and journaled after them
    rw [recordedChanges_append, stockChanges_append, hws.stockChanges_eq, hws.replay]
    have hnone : recordedChanges k ws = [] := by
      simp [recordedChanges, journalOf, hws.journal_eq]
    rw [hnone, List.nil_append]
    have hcons : recordedChanges k (.inventoryMovementInsert
        (releaseRow k' userId orderId reason (s.quantity k') n) :: es) =
          (if k' = k then [(s.quantity k', s.quantity k' + n)] else []) ++
            recordedChanges k es := by
      by_cases hk : k' = k
      · simp [recordedChanges, journalOf, Edit.movement?, releaseRow,
          InventoryMovement.stockKey, hk]
      · have hne : (releaseRow k' userId orderId reason (s.quantity k') n).stockKey ≠ k := hk
        simp [recordedChanges, journalOf, Edit.movement?, hk, hne]
    rw [hcons, ih]
    rfl
  | @inventoryOnly s k' n es rs _ _ _ ih =>
    -- the fallback writes `inventory` alone, and journals the same
    by_cases hk : k' = k
    · subst hk
      have hcons : recordedChanges k' (.inventoryUpdate k' (s.quantity k' + n) ::
          .inventoryMovementInsert
            (releaseRow k' userId orderId reason (s.quantity k') n) :: es) =
          (s.quantity k', s.quantity k' + n) :: recordedChanges k' es := by
        simp [recordedChanges, journalOf, Edit.movement?, releaseRow,
          InventoryMovement.stockKey]
      rw [hcons, ih]
      simp [stockChanges, Edit.stock?]
      rfl
    · have hne : (releaseRow k' userId orderId reason (s.quantity k') n).stockKey ≠ k := hk
      have hcons : recordedChanges k (.inventoryUpdate k' (s.quantity k' + n) ::
          .inventoryMovementInsert
            (releaseRow k' userId orderId reason (s.quantity k') n) :: es) =
          recordedChanges k es := by
        simp [recordedChanges, journalOf, Edit.movement?, hne]
      rw [hcons, ih]
      simp [stockChanges, Edit.stock?, hk]
      rfl

/-- Requests after which the journal still tells the changes: no order has two lines on one
stock row, and no warehouse is deleted. -/
def StockRequest.DistinctRows : StockRequest → Prop
  | .create _ tenantId _ _ body => (body.items.map (·.stockKey tenantId)).Nodup
  | .deleteWarehouse _ _ => False
  | _ => True

theorem priced_stockKeys {inputs : List ItemInput} (h : Priced inputs items) :
    items.map (·.stockKey tenantId) = inputs.map (·.stockKey tenantId) := by
  induction h with
  | nil => rfl
  | cons hx _ ih =>
    rw [List.map_cons, List.map_cons, ih, ItemCalculation.stockKey, ItemInput.stockKey,
      hx.variant, hx.warehouse]

/-- The journal rows of a placed order, read after all its lines were deducted. -/
theorem recordedChanges_reservationEdits (userId orderId : Uuid) {ws : List Edit}
    (h : ReservesStock tenantId s items ws)
    (hnodup : (items.map (·.stockKey tenantId)).Nodup) (k : StockKey) :
    recordedChanges k (reservationEdits tenantId userId orderId items (sales.replay ws s)) =
      stockChanges k s ws := by
  rw [h.stockChanges_eq hnodup]
  have hjournal : journal (reservationEdits tenantId userId orderId items
      (sales.replay ws s)) = items.map fun it => reservationRow tenantId userId orderId it
        (s.quantity (it.stockKey tenantId) - it.quantity) := by
    rw [reservationEdits, journal, List.filterMap_map]
    refine List.filterMap_eq_map_iff_forall_eq_some.mpr fun it hit => ?_
    simp [Edit.movement?, h.quantity_eq hnodup hit]
  rw [recordedChanges, journalOf, hjournal, List.filter_map, List.map_map]
  have hfilter : items.filter ((fun m : InventoryMovement => decide (m.stockKey = k)) ∘
      fun it => reservationRow tenantId userId orderId it
        (s.quantity (it.stockKey tenantId) - it.quantity)) =
      items.filter (·.stockKey tenantId = k) := List.filter_congr fun it _ => rfl
  rw [hfilter]
  refine List.map_congr_left fun it hit => ?_
  have hkey : it.stockKey tenantId = k := by simpa using (List.mem_filter.mp hit).2
  simp [reservationRow, hkey]

/-- A journal entry for a row that was read just before it was written. -/
private theorem recordedChanges_writesStock {ws : List Edit} {m : InventoryMovement}
    (hws : WritesStock s k q ws) (hkey : m.stockKey = k) (hbefore : m.quantityBefore = s.quantity k)
    (hafter : m.quantityAfter = q) (k' : StockKey) :
    recordedChanges k' (ws ++ [.inventoryMovementInsert m]) =
      stockChanges k' s (ws ++ [.inventoryMovementInsert m]) := by
  rw [stockChanges_append, hws.stockChanges_eq, stockChanges_eq_nil _ _ (by simp [Edit.stock?])]
  by_cases hk : k = k'
  · simp [recordedChanges, journalOf, hws.journal_eq, Edit.movement?, hkey, hbefore, hafter, hk]
  · simp [recordedChanges, journalOf, hws.journal_eq, Edit.movement?, hkey, hk]

/-- What each request journals of a stock row is what it changed there. -/
theorem StockEffect.records {r : StockRequest} (h : StockEffect s r es)
    (hr : r.DistinctRows) (k : StockKey) : recordedChanges k es = stockChanges k s es := by
  cases h with
  | @create env tenantId userId orderId body d n ws hpriced hws hfresh =>
    have hnodup : (d.items.map (·.stockKey tenantId)).Nodup := by
      rw [priced_stockKeys hpriced]
      exact hr
    -- after the deductions an order writes no stock
    rw [placedEdits, stockChanges_append, stockChanges_eq_nil k (sales.replay ws s) ?_,
      ← recordedChanges_reservationEdits userId orderId hws hnodup]
    · have hitems : journal (d.items.map fun it =>
          .orderItemInsert (orderItemRow tenantId orderId it)) = [] := by
        rw [journal, List.filterMap_eq_nil_iff]
        intro e he
        obtain ⟨it, -, rfl⟩ := List.mem_map.mp he
        rfl
      simp [recordedChanges, journalOf, hws.journal_eq, Edit.movement?, hitems]
    · intro e he
      simp only [reservationEdits, List.mem_cons, List.mem_append, List.mem_map,
        List.not_mem_nil, or_false] at he
      rcases he with rfl | rfl | ⟨it, -, rfl⟩ | ⟨it, -, rfl⟩ | rfl <;> rfl
  | updateStatus horder hvalid => rfl
  | cancel horder hstatus hitems hrss =>
    rw [recordedChanges_append, stockChanges_append, hrss.records]
    rfl
  | adjust hnonneg hws => exact recordedChanges_writesStock hws rfl rfl rfl k
  | @transfer tenantId userId body source dest ws ws' hne hpos hle hws hws' hnonneg =>
    -- the rows differ, so the first write leaves the second row as it was
    have hdest : s.quantity dest = (s.setStock source
        (s.quantity source - body.quantity)).quantity dest :=
      (quantity_setStock_ne hne.symm).symm
    rw [stockChanges_append, stockChanges_append, hws.stockChanges_eq, hws.replay,
      hws'.stockChanges_eq, ← hdest, stockChanges_eq_nil _ _ (by simp [Edit.stock?])]
    have hsourceKey (b c a : ℤ) : (transferMovement userId source b c a body).stockKey = source :=
      rfl
    have hdestKey (b c a : ℤ) : (transferMovement userId dest b c a body).stockKey = dest := rfl
    by_cases hk : source = k
    · subst hk
      simp [recordedChanges, journalOf, hws.journal_eq, hws'.journal_eq, Edit.movement?,
        hsourceKey, hdestKey, hne.symm]
      simp [transferMovement]
    · by_cases hk' : dest = k
      · subst hk'
        simp [recordedChanges, journalOf, hws.journal_eq, hws'.journal_eq, Edit.movement?,
          hsourceKey, hdestKey, hne]
        simp [transferMovement]
      · simp [recordedChanges, journalOf, hws.journal_eq, hws'.journal_eq, Edit.movement?,
          hsourceKey, hdestKey, hk, hk']
  | deleteWarehouse => exact hr.elim

/-! ### Runs -/

theorem WritesStock.addsUp (h : WritesStock s k q es) : ∀ e ∈ es, e.AddsUp := by
  cases h <;> simp [Edit.AddsUp]

theorem OrderService.ReservesStock.addsUp (h : ReservesStock tenantId s items es) :
    ∀ e ∈ es, e.AddsUp := by
  induction h with
  | nil => simp
  | cons _ hws _ ih => exact List.forall_mem_append.mpr ⟨hws.addsUp, ih⟩

theorem OrderService.Releases.addsUp {reason : Option String} {rs : List Release}
    (h : Releases userId orderId reason s rs es) : ∀ e ∈ es, e.AddsUp := by
  induction h with
  | nil => simp
  | both _ hws _ ih =>
    exact List.forall_mem_append.mpr ⟨hws.addsUp, List.forall_mem_cons.mpr ⟨rfl, ih⟩⟩
  | inventoryOnly _ _ _ ih =>
    exact List.forall_mem_cons.mpr ⟨trivial, List.forall_mem_cons.mpr ⟨rfl, ih⟩⟩

/-- The edits of a request that keeps its warehouses. -/
theorem StockEffect.addsUp {r : StockRequest} (h : StockEffect s r es)
    (hr : r.DistinctRows) : ∀ e ∈ es, e.AddsUp := by
  cases h with
  | create hpriced hws hfresh =>
    intro e he
    simp only [placedEdits, reservationEdits, List.mem_cons, List.mem_append, List.mem_map,
      List.not_mem_nil, or_false] at he
    rcases he with he | rfl | rfl | ⟨it, -, rfl⟩ | ⟨it, -, rfl⟩ | rfl
    · exact hws.addsUp e he
    · trivial
    · trivial
    · trivial
    · simp [Edit.AddsUp, reservationRow]
    · trivial
  | updateStatus horder hvalid => simp [statusEdits, Edit.AddsUp]
  | cancel horder hstatus hitems hrss =>
    exact List.forall_mem_append.mpr ⟨hrss.addsUp, by simp [statusEdits, Edit.AddsUp]⟩
  | adjust hnonneg hws =>
    exact List.forall_mem_append.mpr ⟨hws.addsUp, by simp [adjustmentRow, Edit.AddsUp]⟩
  | transfer hne hpos hle hws hws' hnonneg =>
    refine List.forall_mem_append.mpr
      ⟨List.forall_mem_append.mpr ⟨hws.addsUp, hws'.addsUp⟩, ?_⟩
    simp [transferMovement, Edit.AddsUp, sub_eq_add_neg]
  | deleteWarehouse => exact hr.elim

/-- In a run in which no order has two lines on one stock row, the journal is an exact
ledger. -/
theorem serialRun_exactLedger {s₀ : Db}
    (h : SerialRun answer StockRequest.program (fun _ r => r.DistinctRows) s₀ es s) :
    s.inventoryMovements = s₀.inventoryMovements ++ journal es ∧ ExactLedger s₀ es := by
  have hrun : (∀ e ∈ es, e.AddsUp) ∧ ∀ k, recordedChanges k es = stockChanges k s₀ es := by
    induction h with
    | refl => exact ⟨by simp, fun k => rfl⟩
    | @commit es es' s r a hprev hr hruns ih =>
      have heffect := StockRequest.effect hruns
      refine ⟨List.forall_mem_append.mpr ⟨ih.1, heffect.addsUp hr⟩, fun k => ?_⟩
      rw [recordedChanges_append, stockChanges_append, ih.2 k, hprev.replay_eq,
        heffect.records hr k]
    | fail _ _ _ ih => exact ih
  refine ⟨?_, .of_records hrun.1 hrun.2⟩
  rw [← h.replay_eq, inventoryMovements_replay fun e he => (hrun.1 e he).keepsRows]

open Sample in
/-- An order of two lines from different warehouses, after the second got its stock. -/
theorem serialRun_exactLedger_sample :
    let s := shop.setStock southRow 5
    let r := StockRequest.create {} "shop" "clerk" "order"
      (body [line "north" 2, line "south" 3])
    ExactLedger s (r.program.edits noAnswer s) := by
  intro s r
  obtain ⟨u, es, hcreate⟩ := exists_runs noAnswer r.program s (by decide +kernel)
  have hr : r.DistinctRows := by
    simp only [r, StockRequest.DistinctRows]
    decide
  rw [hcreate.edits_eq]
  exact (serialRun_exactLedger (SerialRun.commit .refl hr hcreate)).2

open Sample in
/-- Two lines of two and three pieces on one row: 20 becomes 18 and 15, but the journal says
17 to 15 and 18 to 15. -/
theorem create_not_exactLedger :
    let p := (StockRequest.create {} "shop" "clerk" "order"
      (body [line "north" 2, line "north" 3])).program
    (p.run noAnswer shop).isOk = true ∧ ¬ ExactLedger shop (p.edits noAnswer shop) := by
  refine ⟨by decide +kernel, fun h => ?_⟩
  have hrow := h.recorded row
  revert hrow
  decide +kernel

end PulseOps
