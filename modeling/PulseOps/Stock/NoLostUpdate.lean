import Mathlib.Algebra.Group.Pi.Lemmas
import Mathlib.Tactic.Abel
import PulseOps.Stock.Cancellation
import PulseOps.Stock.Journal

/-!
# No lost update under concurrent requests

Creations, cancellations, adjustments and transfers read a stock row, compute, and write it
in a later statement. A request that updates only rows it has locked finds them as it read
them, so in any interleaving of such requests the stock is what it was at the start plus
everything the journal says, and never negative.

## Main definitions

* `Balanced` — the stock is the old stock plus the journal.
* `stockContract` — what the requests agree on.
* `Owes` — an open transaction, with the changes it has not journalled yet.
* `locksUpdates` — the discipline: an update of a stock row follows its lock.

## Main results

* `triple_program` — every request owes nothing at its end.
-/

set_option autoImplicit false

open ReadCommitted Program Contract

namespace PulseOps

open OrderService InventoryService

variable {s s' s₀ : Db} {es : List Edit} {k : StockKey} {q : ℤ} {t : Transaction sales}

/-! ### Balanced stock -/

/-- What the movements `rows` changed at the row `k`. -/
def changed (rows : List InventoryMovement) (k : StockKey) : ℤ :=
  ((rows.filter (·.stockKey = k)).map (·.quantityChanged)).sum

@[simp] theorem changed_nil : changed [] k = 0 := rfl

@[simp] theorem changed_append (rows rows' : List InventoryMovement) :
    changed (rows ++ rows') k = changed rows k + changed rows' k := by
  simp [changed]

theorem changed_singleton (m : InventoryMovement) :
    changed [m] k = (Pi.single m.stockKey m.quantityChanged : StockKey → ℤ) k := by
  by_cases hk : m.stockKey = k
  · subst hk
    simp [changed]
  · simp [changed, hk]

/-- Since `s₀` every row changed by what was journalled, and none is negative. -/
def Balanced (s₀ s : Db) : Prop :=
  ∃ rows, s.inventoryMovements = s₀.inventoryMovements ++ rows ∧
    ∀ k, s.quantity k = s₀.quantity k + changed rows k ∧ 0 ≤ s.quantity k

/-- Stock stays balanced, rows do not vanish, and a lock on a row keeps its quantity. -/
def stockContract (s₀ : Db) : Contract sales where
  inv := Balanced s₀
  evolves s s' := ∀ k, (s.inventory.lookup k).isSome → (s'.inventory.lookup k).isSome
  agree key s s' := ∀ k, key = .inventory k → s.inventory.lookup k = s'.inventory.lookup k
  evolves_refl _ _ h := h
  evolves_trans h h' k hk := h' k (h k hk)
  agree_refl _ _ _ _ := rfl
  agree_trans h h' k hk := (h k hk).trans (h' k hk)

/-- An update of a row of `inventory` comes after its lock. -/
def locksUpdates : Discipline sales where
  write _ t e :=
    match e with
    | .inventoryUpdate k _ => Key.inventory k ∈ t.held
    | _ => true

/-! ### The rows a transaction sees -/

theorem lookup_apply {e : Edit} (he : e.KeepsRows) (k : StockKey) :
    (s.apply e).inventory.lookup k =
      match e.stock? with
      | some (k', q) => if k = k' then some q else s.inventory.lookup k
      | none => s.inventory.lookup k := by
  cases e with
  | warehouseDelete id => exact he.elim
  | inventoryInsert k' q =>
    by_cases hk : k = k'
    · subst hk
      simp [Edit.stock?]
    · simp [Edit.stock?, hk, AList.lookup_insert_ne hk]
  | inventoryUpdate k' q =>
    by_cases hk : k = k'
    · subst hk
      simp [Edit.stock?]
    · simp [Edit.stock?, hk, AList.lookup_insert_ne hk]
  | _ => rfl

/-- A list of edits either writes a row, with the same result on any state, or leaves it
alone. -/
theorem lookup_replay (hes : ∀ e ∈ es, e.KeepsRows) (k : StockKey) :
    (∃ q, (∃ e ∈ es, ∃ q', e.stock? = some (k, q')) ∧
        ∀ s : Db, (sales.replay es s).inventory.lookup k = some q) ∨
      ∀ s : Db, (sales.replay es s).inventory.lookup k = s.inventory.lookup k := by
  induction es with
  | nil => exact .inr fun s => rfl
  | cons e es ih =>
    have he := hes e (by simp)
    rcases ih fun e' he' => hes e' (by simp [he']) with ⟨q, ⟨e', he', hq'⟩, hq⟩ | hsame
    · exact .inl ⟨q, ⟨e', by simp [he'], hq'⟩, fun s => hq _⟩
    · by_cases hstock : ∃ q, e.stock? = some (k, q)
      · obtain ⟨q, hq⟩ := hstock
        refine .inl ⟨q, ⟨e, by simp, q, hq⟩, fun s => ?_⟩
        rw [Database.replay_cons, hsame, sales_apply, lookup_apply he, hq]
        simp
      · refine .inr fun s => ?_
        rw [Database.replay_cons, hsame, sales_apply, lookup_apply he]
        split
        · rename_i k' q hq
          rw [if_neg]
          rintro rfl
          exact hstock ⟨q, hq⟩
        · rfl

/-- An open transaction: it has written only rows it holds, and `debt` is what it changed
and has not journalled. What it read of the rows in `reads` still stands where it holds the
lock, and a row it found is still there. -/
structure Owes (debt : StockKey → ℤ) (reads : List (StockKey × Option ℤ))
    (t : Transaction sales) (s : Db) : Prop where
  keepsRows : ∀ e ∈ t.edits, e.KeepsRows
  held : ∀ e ∈ t.edits, ∀ k q, e.stock? = some (k, q) → Key.inventory k ∈ t.held
  settled : ∀ k, (t.view s).quantity k = s.quantity k + changed (journal t.edits) k + debt k
  nonneg : ∀ k, 0 ≤ (t.view s).quantity k
  read : ∀ r ∈ reads, Key.inventory r.1 ∈ t.held → (t.view s).inventory.lookup r.1 = r.2
  present : ∀ r ∈ reads, r.2.isSome → ((t.view s).inventory.lookup r.1).isSome

variable {debt : StockKey → ℤ} {reads : List (StockKey × Option ℤ)} {rows : Option ℤ}

/-- The others cannot disturb what the transaction wrote and holds. -/
theorem Owes.stable : (stockContract s₀).Stable (Owes debt reads) := by
  intro t s s' hs h hr
  -- a row has been written by the transaction, which holds it, or is seen as it is committed
  have hrow (k : StockKey) : ((t.view s').inventory.lookup k = (t.view s).inventory.lookup k ∧
      s'.inventory.lookup k = s.inventory.lookup k) ∨
      ((t.view s').inventory.lookup k = s'.inventory.lookup k ∧
        (t.view s).inventory.lookup k = s.inventory.lookup k) := by
    rcases lookup_replay h.keepsRows k with ⟨q, ⟨e, he, q', hq'⟩, hq⟩ | hsame
    · have hheld := h.held e he k q' hq'
      exact .inl ⟨(hq s').trans (hq s).symm, (hr.agree _ hheld k rfl).symm⟩
    · exact .inr ⟨hsame s', hsame s⟩
  refine ⟨h.keepsRows, h.held, fun k => ?_, fun k => ?_, fun r hr' hheld => ?_,
    fun r hr' hsome => ?_⟩
  · have hsettled := h.settled k
    rcases hrow k with ⟨hview, hs'⟩ | ⟨hview', hview⟩
    · rw [Db.quantity, hview]
      rw [Db.quantity, Db.quantity] at hsettled
      rw [hsettled, Db.quantity, hs']
    · rw [Db.quantity, hview', Db.quantity]
      rw [Db.quantity, hview, Db.quantity] at hsettled
      omega
  · rcases hrow k with ⟨hview, -⟩ | ⟨hview', -⟩
    · rw [Db.quantity, hview]
      exact h.nonneg k
    · obtain ⟨_, -, hbalanced⟩ := hr.inv
      rw [Db.quantity, hview']
      exact (hbalanced k).2
  · rcases hrow r.1 with ⟨hview, -⟩ | ⟨hview', hview⟩
    · rw [hview]
      exact h.read r hr' hheld
    · rw [hview', ← hr.agree _ hheld r.1 rfl, ← hview]
      exact h.read r hr' hheld
  · have hpresent := h.present r hr' hsome
    rcases hrow r.1 with ⟨hview, -⟩ | ⟨hview', hview⟩
    · rwa [hview]
    · rw [hview] at hpresent
      rw [hview']
      exact hr.evolves r.1 hpresent

theorem Owes.mono {reads' : List (StockKey × Option ℤ)} (h : Owes debt reads t s)
    (hsub : reads' ⊆ reads) : Owes debt reads' t s :=
  ⟨h.keepsRows, h.held, h.settled, h.nonneg, fun r hr => h.read r (hsub hr),
    fun r hr => h.present r (hsub hr)⟩

/-- Reading a row. -/
theorem Owes.readRow (h : Owes debt reads t s) (k : StockKey) :
    Owes debt ((k, (t.view s).inventory.lookup k) :: reads) t s where
  keepsRows := h.keepsRows
  held := h.held
  settled := h.settled
  nonneg := h.nonneg
  read r hr hheld := by
    rcases List.mem_cons.mp hr with rfl | hr
    · rfl
    · exact h.read r hr hheld
  present r hr hsome := by
    rcases List.mem_cons.mp hr with rfl | hr
    · exact hsome
    · exact h.present r hr hsome

/-- Locking a row after reading none. -/
theorem Owes.lock (h : Owes debt [] t s) (key : Key) : Owes debt [] (t.lock key) s :=
  ⟨h.keepsRows, fun e he k q hq => List.mem_cons_of_mem _ (h.held e he k q hq), h.settled,
    h.nonneg, by simp, by simp⟩

/-- An edit of neither the stock rows nor the journal. -/
def Edit.Neutral : Edit → Prop
  | .warehouseDelete _ => False
  | .inventoryInsert _ _ => False
  | .inventoryUpdate _ _ => False
  | .inventoryMovementInsert _ => False
  | _ => True

theorem Edit.Neutral.keepsRows {e : Edit} (he : e.Neutral) : e.KeepsRows := by
  cases e <;> simp_all [Edit.Neutral, Edit.KeepsRows]

theorem Edit.Neutral.stock {e : Edit} (he : e.Neutral) : e.stock? = none := by
  cases e <;> simp_all [Edit.Neutral, Edit.stock?]

theorem Edit.Neutral.movement {e : Edit} (he : e.Neutral) : e.movement? = none := by
  cases e <;> simp_all [Edit.Neutral, Edit.movement?]

theorem Edit.Neutral.footprint {e : Edit} (he : e.Neutral) (k : StockKey) :
    Key.inventory k ∉ e.footprint := by
  cases e <;> simp_all [Edit.Neutral, Edit.footprint]

theorem Owes.write_neutral {e : Edit} (h : Owes debt reads t s) (he : e.Neutral) :
    Owes debt reads (t.write e) s := by
  have hlookup (k : StockKey) : ((t.write e).view s).inventory.lookup k =
      (t.view s).inventory.lookup k := by
    rw [Transaction.view_write, sales_apply, lookup_apply he.keepsRows, he.stock]
  have hquantity (k : StockKey) : ((t.write e).view s).quantity k = (t.view s).quantity k := by
    rw [Db.quantity, hlookup, Db.quantity]
  refine ⟨?_, ?_, fun k => ?_, fun k => ?_, fun r hr hheld => ?_, fun r hr hsome => ?_⟩
  · exact List.forall_mem_append.mpr ⟨h.keepsRows, by simpa using he.keepsRows⟩
  · intro e' he' k q hq
    rcases List.mem_append.mp he' with he' | he'
    · exact List.mem_append_right _ (h.held e' he' k q hq)
    · rw [List.mem_singleton.mp he', he.stock] at hq
      cases hq
  · rw [hquantity, h.settled k]
    simp [he.movement]
  · rw [hquantity]
    exact h.nonneg k
  · rw [hlookup]
    rcases List.mem_append.mp hheld with hfoot | hheld
    · exact absurd hfoot (he.footprint r.1)
    · exact h.read r hr hheld
  · rw [hlookup]
    exact h.present r hr hsome

/-- Journalling a movement settles what it says. -/
theorem Owes.write_movement {m : InventoryMovement} (h : Owes debt reads t s) :
    Owes (debt - Pi.single m.stockKey m.quantityChanged) reads
      (t.write (.inventoryMovementInsert m)) s := by
  have hquantity (k : StockKey) :
      ((t.write (.inventoryMovementInsert m)).view s).quantity k = (t.view s).quantity k := by
    rw [Transaction.view_write]
    rfl
  refine ⟨?_, ?_, fun k => ?_, fun k => ?_, fun r hr hheld => ?_, fun r hr hsome => ?_⟩
  · exact List.forall_mem_append.mpr ⟨h.keepsRows, by simp [Edit.KeepsRows]⟩
  · intro e' he' k q hq
    rcases List.mem_append.mp he' with he' | he'
    · exact List.mem_append_right _ (h.held e' he' k q hq)
    · rw [List.mem_singleton.mp he'] at hq
      cases hq
  · rw [hquantity, h.settled k, Transaction.edits_write, journal_append, changed_append,
      Pi.sub_apply]
    have hm : journal [.inventoryMovementInsert m] = [m] := rfl
    rw [hm, changed_singleton]
    ring
  · rw [hquantity]
    exact h.nonneg k
  · rw [Transaction.view_write]
    exact h.read r hr (by simpa [Edit.footprint] using hheld)
  · rw [Transaction.view_write]
    exact h.present r hr hsome

/-- Writing a stock row owes the difference. -/
theorem Owes.write_stock {e : Edit} (h : Owes debt reads t s) (he : e.stock? = some (k, q))
    (hq : 0 ≤ q) (hne : ∀ r ∈ reads, r.1 ≠ k) :
    Owes (debt + Pi.single k (q - (t.view s).quantity k)) reads (t.write e) s := by
  have hkeeps : e.KeepsRows := by
    cases e <;> simp_all [Edit.stock?, Edit.KeepsRows]
  have hmovement : e.movement? = none := by
    cases e <;> simp_all [Edit.stock?, Edit.movement?]
  have hfoot : e.footprint = [.inventory k] := by
    cases e <;> simp_all [Edit.stock?, Edit.footprint]
  have hself : ((t.write e).view s).inventory.lookup k = some q := by
    rw [Transaction.view_write, sales_apply, lookup_apply hkeeps, he]
    simp
  have hother (k' : StockKey) (hk : k' ≠ k) : ((t.write e).view s).inventory.lookup k' =
      (t.view s).inventory.lookup k' := by
    rw [Transaction.view_write, sales_apply, lookup_apply hkeeps, he]
    simp [hk]
  refine ⟨?_, ?_, fun k' => ?_, fun k' => ?_, fun r hr hheld => ?_, fun r hr hsome => ?_⟩
  · exact List.forall_mem_append.mpr ⟨h.keepsRows, by simpa using hkeeps⟩
  · intro e' he' k' q' hq'
    rcases List.mem_append.mp he' with he' | he'
    · exact List.mem_append_right _ (h.held e' he' k' q' hq')
    · rw [List.mem_singleton.mp he', he] at hq'
      obtain ⟨rfl, -⟩ := Prod.mk.inj (Option.some.inj hq')
      simp [hfoot]
  · -- the quantity of `k` goes to `q` without a movement, and the difference is owed
    rw [Transaction.edits_write, journal_append, changed_append, journal_cons, hmovement,
      Pi.add_apply]
    by_cases hk : k' = k
    · subst hk
      have hsettled := h.settled k'
      rw [Db.quantity, hself, Pi.single_eq_same]
      simp only [Option.getD_some, Option.toList_none, journal_nil, List.nil_append,
        changed_nil]
      omega
    · rw [Db.quantity, hother k' hk, Pi.single_eq_of_ne hk]
      have hsettled := h.settled k'
      rw [Db.quantity] at hsettled
      simpa using hsettled
  · by_cases hk : k' = k
    · subst hk
      rw [Db.quantity, hself]
      exact hq
    · rw [Db.quantity, hother k' hk]
      exact h.nonneg k'
  · rw [hother r.1 (hne r hr)]
    refine h.read r hr ?_
    have hkey := hne r hr
    simpa [hfoot, hkey] using hheld
  · rw [hother r.1 (hne r hr)]
    exact h.present r hr hsome

/-! ### Statements -/

/-- What a transaction owes is kept by reads. -/
theorem triple_readsOnly {α : Type} {p : Sql α} (hp : p.ReadsOnly) :
    (stockContract s₀).Triple locksUpdates (Owes debt reads) p fun _ => Owes debt reads :=
  Triple.readsOnly hp Owes.stable

theorem triple_neutral {edit : Db → Except Failure Edit}
    (h : ∀ s e, edit s = .ok e → e.Neutral) :
    (stockContract s₀).Triple locksUpdates (Owes debt reads) (perform edit)
      fun _ => Owes debt reads :=
  Triple.perform Owes.stable Owes.stable fun _ _ e _ ht he _ => ht.write_neutral (h _ e he)

theorem triple_record {e : Edit} (he : e.Neutral) :
    (stockContract s₀).Triple locksUpdates (Owes debt reads) (record e)
      fun _ => Owes debt reads :=
  triple_neutral fun s e' he' => by
    obtain rfl := Except.ok.inj he'
    exact he

theorem triple_history {row : OrderStatusHistory} :
    (stockContract s₀).Triple locksUpdates (Owes debt reads)
      (record (.orderStatusHistoryInsert row)) fun _ => Owes debt reads := triple_record trivial

theorem triple_upsertWarehouseInventory :
    (stockContract s₀).Triple locksUpdates (Owes debt reads)
      (perform (Statement.upsertWarehouseInventory k q)) fun _ => Owes debt reads := by
  refine triple_neutral fun s e he => ?_
  rw [(Statement.upsertWarehouseInventory_eq_ok.mp he).2]
  trivial

theorem triple_insertWarehouseInventory :
    (stockContract s₀).Triple locksUpdates (Owes debt reads)
      (perform (Statement.insertWarehouseInventory k q)) fun _ => Owes debt reads := by
  refine triple_neutral fun s e he => ?_
  rw [(Statement.insertWarehouseInventory_eq_ok.mp he).2.2]
  trivial

/-- An update of a row that was read: it is locked, so it still is as it was read. -/
theorem triple_updateInventory (hrows : rows.isSome) (hne : ∀ r ∈ reads, r.1 ≠ k) :
    (stockContract s₀).Triple locksUpdates (Owes debt ((k, rows) :: reads))
      (perform (Statement.updateInventory k q))
      fun _ => Owes (debt + Pi.single k (q - rows.getD 0)) reads := by
  refine Triple.perform Owes.stable Owes.stable fun t s e _ ht he hok => ?_
  have hsome := ht.present (k, rows) (by simp) hrows
  obtain ⟨hq, rfl⟩ := (Statement.updateInventory_eq_ok hsome).mp he
  have hheld : Key.inventory k ∈ t.held := of_decide_eq_true hok
  have hread : (t.view s).inventory.lookup k = rows := ht.read (k, rows) (by simp) hheld
  have hreads : Owes debt reads t s := ht.mono (List.subset_cons_self _ _)
  have hwrite := hreads.write_stock (e := .inventoryUpdate k q) rfl hq hne
  rwa [Db.quantity, hread] at hwrite

/-- Creating a row: there was none, so its quantity was zero. -/
theorem triple_insertInventory (hne : ∀ r ∈ reads, r.1 ≠ k) :
    (stockContract s₀).Triple locksUpdates (Owes debt ((k, rows) :: reads))
      (perform (Statement.insertInventory k q)) fun _ => Owes (debt + Pi.single k q) reads := by
  refine Triple.perform Owes.stable Owes.stable fun t s e _ ht he _ => ?_
  obtain ⟨hq, hnone, rfl⟩ := Statement.insertInventory_eq_ok.mp he
  have hreads : Owes debt reads t s := ht.mono (List.subset_cons_self _ _)
  have hwrite := hreads.write_stock (e := .inventoryInsert k q) rfl hq hne
  rwa [Db.quantity, hnone, Option.getD_none, sub_zero] at hwrite

theorem triple_updateStock (hrows : rows.isSome) (hne : ∀ r ∈ reads, r.1 ≠ k) :
    (stockContract s₀).Triple locksUpdates (Owes debt ((k, rows) :: reads)) (updateStock k q)
      fun _ => Owes (debt + Pi.single k (q - rows.getD 0)) reads :=
  (triple_updateInventory hrows hne).bind fun _ => triple_upsertWarehouseInventory

theorem triple_createStock (hne : ∀ r ∈ reads, r.1 ≠ k) :
    (stockContract s₀).Triple locksUpdates (Owes debt ((k, rows) :: reads)) (createStock k q)
      fun _ => Owes (debt + Pi.single k q) reads :=
  (triple_insertInventory hne).bind fun _ => triple_upsertWarehouseInventory

/-- `if exists … else create`, after the row was read. -/
theorem triple_writeStock (hne : ∀ r ∈ reads, r.1 ≠ k) :
    (stockContract s₀).Triple locksUpdates (Owes debt ((k, rows) :: reads))
      (if rows.isSome then updateStock k q else createStock k q)
      fun _ => Owes (debt + Pi.single k (q - rows.getD 0)) reads := by
  split
  · rename_i hrows
    exact triple_updateStock hrows hne
  · rename_i hrows
    obtain rfl : rows = none := by simpa using hrows
    simpa using triple_createStock hne

/-- The source of a transfer: only its `inventory` row is created when it is missing. -/
theorem triple_writeSource (hne : ∀ r ∈ reads, r.1 ≠ k) :
    (stockContract s₀).Triple locksUpdates (Owes debt ((k, rows) :: reads))
      (if rows.isSome then updateStock k q else perform (Statement.insertInventory k q))
      fun _ => Owes (debt + Pi.single k (q - rows.getD 0)) reads := by
  split
  · rename_i hrows
    exact triple_updateStock hrows hne
  · rename_i hrows
    obtain rfl : rows = none := by simpa using hrows
    simpa using triple_insertInventory hne

theorem triple_recordMovement {m : InventoryMovement} :
    (stockContract s₀).Triple locksUpdates (Owes debt reads) (recordMovement m)
      fun _ => Owes (debt - Pi.single m.stockKey m.quantityChanged) reads := by
  refine Triple.perform Owes.stable Owes.stable fun t s e _ ht he _ => ?_
  obtain ⟨-, -, rfl⟩ := Statement.insertInventoryMovement_eq_ok.mp he
  exact ht.write_movement

theorem triple_queryRow {α : Type} {Q : α → Transaction sales → Db → Prop}
    {f : Option ℤ → Sql α} (k : StockKey)
    (hf : ∀ rows, (stockContract s₀).Triple locksUpdates (Owes debt ((k, rows) :: reads))
      (f rows) Q) :
    (stockContract s₀).Triple locksUpdates (Owes debt reads)
      (query (fun s => s.inventory.lookup k) >>= f) Q :=
  Triple.query_bind Owes.stable (fun _ _ _ ht => ht.readRow k) hf

theorem triple_lockRow_bind {α : Type} {Q : α → Transaction sales → Db → Prop}
    {f : Unit → Sql α} {key : Key}
    (hf : (stockContract s₀).Triple locksUpdates (Owes debt []) (f ()) Q) :
    (stockContract s₀).Triple locksUpdates (Owes debt []) (lockRow key >>= f) Q :=
  Triple.lockRow_bind Owes.stable (fun _ _ ht => ht.lock key) hf

theorem triple_lockRows {α : Type} {xs : List α} {f : α → Key} :
    (stockContract s₀).Triple locksUpdates (Owes debt [])
      (forM xs fun x => lockRow (f x)) fun _ => Owes debt [] :=
  Triple.forM_const Owes.stable fun _ t s hs ht s' hr =>
    have ht' := Owes.stable t s s' hs ht hr
    ⟨fun _ _ hr' => Owes.stable _ _ _ hr.inv (ht'.lock _) hr',
      fun _ _ hr' => Owes.stable _ _ _ hr.inv ht' hr'⟩

/-! ### Requests -/

/-- What the lines of an order take, row by row. -/
def taken (tenantId : Uuid) (items : List ItemCalculation) : StockKey → ℤ :=
  (items.map fun it => Pi.single (it.stockKey tenantId) it.quantity).sum

theorem taken_cons (tenantId : Uuid) (it : ItemCalculation) (items : List ItemCalculation) :
    taken tenantId (it :: items) =
      Pi.single (it.stockKey tenantId) it.quantity + taken tenantId items := by
  simp [taken]

variable {tenantId userId orderId : Uuid} {reason : Option String}

theorem triple_reserveItem (it : ItemCalculation) :
    (stockContract s₀).Triple locksUpdates (Owes debt []) (reserveItem tenantId it)
      fun _ => Owes (debt - Pi.single (it.stockKey tenantId) it.quantity) [] := by
  refine triple_queryRow (it.stockKey tenantId) fun rows => ?_
  refine Triple.require_bind fun _ => Triple.require_bind fun hrows => ?_
  refine (triple_updateStock hrows (by simp)).post fun _ t s h => ?_
  have hdebt : rows.getD 0 - it.quantity - rows.getD 0 = -it.quantity := by ring
  rwa [hdebt, Pi.single_neg, ← sub_eq_add_neg] at h

theorem triple_recordReservation (it : ItemCalculation) :
    (stockContract s₀).Triple locksUpdates (Owes debt [])
      (recordReservation tenantId userId orderId it)
      fun _ => Owes (debt + Pi.single (it.stockKey tenantId) it.quantity) [] := by
  refine triple_queryRow (it.stockKey tenantId) fun rows => ?_
  refine Triple.orRaise_bind fun afterQty _ => ?_
  refine (triple_recordMovement.pre fun t s _ h => h.mono (List.nil_subset _)).post
    fun _ t s h => ?_
  have hkey : (reservationRow tenantId userId orderId it afterQty).stockKey =
      it.stockKey tenantId := rfl
  have hchanged : (reservationRow tenantId userId orderId it afterQty).quantityChanged =
      -it.quantity := rfl
  rwa [hkey, hchanged, Pi.single_neg, sub_neg_eq_add] at h

theorem triple_nextInvoiceNumber {financialYear : String} :
    (stockContract s₀).Triple locksUpdates (Owes debt [])
      (nextInvoiceNumber tenantId financialYear) fun _ => Owes debt [] := by
  intro t s hs ht s' hr e he _
  obtain rfl := Except.ok.inj he
  have ht' (n : ℕ) : Owes debt [] (t.write (.invoiceSequenceUpsert tenantId financialYear n)) s' :=
    (Owes.stable t s s' hs ht hr).write_neutral trivial
  exact fun s'' hr' => Owes.stable _ _ _ hr.inv (ht' _) hr'

/-- `create` deducts all lines, owing them, and then journals them. -/
theorem triple_create {env : Environment} {body : CreateBody} :
    (stockContract s₀).Triple locksUpdates (Owes 0 [])
      (OrderService.create env tenantId userId orderId body) fun _ => Owes 0 [] := by
  refine (triple_readsOnly (prepare_readsOnly env tenantId body)).bind fun d => ?_
  refine triple_lockRows.bind fun _ => ?_
  refine Triple.bind (Q := fun _ => Owes (-taken tenantId d.items) []) ?_ fun _ => ?_
  · -- the lines that are left say what is not owed yet
    refine ((Triple.forM (I := fun items => Owes (taken tenantId items - taken tenantId d.items) [])
      Owes.stable fun it items => ?_).pre fun t s _ h => ?_).post fun _ t s h => ?_
    · refine (triple_reserveItem it).post fun _ t s h => ?_
      have hdebt : taken tenantId (it :: items) - taken tenantId d.items -
          Pi.single (it.stockKey tenantId) it.quantity =
            taken tenantId items - taken tenantId d.items := by
        rw [taken_cons]
        abel
      rwa [hdebt] at h
    · rwa [sub_self]
    · simpa [taken] using h
  refine triple_nextInvoiceNumber.bind fun n => ?_
  refine (triple_neutral fun s e he => ?_).bind fun _ => ?_
  · rw [(Statement.insertOrder_eq_ok he).2]
    trivial
  refine (Triple.forM_const Owes.stable fun it => triple_record
    (e := .orderItemInsert (orderItemRow tenantId orderId it)) trivial).bind fun _ => ?_
  refine Triple.bind (Q := fun _ => Owes 0 []) ?_ fun _ => ?_
  · -- the journal pays back, line by line
    refine (Triple.forM (I := fun items => Owes (-taken tenantId items) [])
      Owes.stable fun it items => ?_).post fun _ t s h => ?_
    · refine (triple_recordReservation it).post fun _ t s h => ?_
      rwa [taken_cons, neg_add_rev, neg_add_cancel_right] at h
    · simpa [taken] using h
  refine triple_history.bind fun _ => ?_
  exact (triple_readsOnly (.ret ())).bind fun _ => triple_readsOnly (.query _)

theorem triple_getById_bind {α : Type} {id : Uuid} {f : OrderWithItems → Sql α}
    {Q : α → Transaction sales → Db → Prop}
    (hf : ∀ order, (stockContract s₀).Triple locksUpdates (Owes debt []) (f order) Q) :
    (stockContract s₀).Triple locksUpdates (Owes debt []) (getById id tenantId >>= f) Q := by
  have hreads : (getById id tenantId).ReadsOnly :=
    (ReadsOnly.query _).bind fun _ => .orRaise _ _
  exact (triple_readsOnly hreads).bind hf

theorem triple_updateStatus {id : Uuid} {status : OrderStatus} :
    (stockContract s₀).Triple locksUpdates (Owes 0 [])
      (OrderService.updateStatus id tenantId userId status reason) fun _ => Owes 0 [] := by
  refine triple_getById_bind fun order => Triple.require_bind fun _ => ?_
  refine (triple_neutral fun s e he => ?_).bind fun _ => ?_
  · obtain ⟨_, -, rfl⟩ := Statement.updateOrderStatus_eq_ok.mp he
    trivial
  exact triple_history.bind fun _ => triple_readsOnly (.query _)

theorem triple_releaseMovement (item : OrderItem) (mov : InventoryMovement) :
    (stockContract s₀).Triple locksUpdates (Owes 0 [])
      (releaseMovement tenantId userId orderId reason item mov) fun _ => Owes 0 [] := by
  refine triple_lockRow_bind (triple_queryRow _ fun rows => ?_)
  set k : StockKey := ⟨tenantId, item.productVariantId, mov.warehouseId⟩
  refine Triple.bind (Q := fun _ => Owes (Pi.single k |mov.quantityChanged|) []) ?_ fun _ => ?_
  · split
    · rename_i hrows
      refine (triple_updateStock hrows (by simp)).post fun _ t s h => ?_
      rwa [zero_add, add_sub_cancel_left] at h
    · rename_i hrows
      obtain rfl : rows = none := by simpa using hrows
      refine (triple_insertInventory (by simp)).bind fun _ => ?_
      refine triple_insertWarehouseInventory.post fun _ t s h => ?_
      rwa [Option.getD_none, zero_add, zero_add] at h
  · refine triple_recordMovement.post fun _ t s h => ?_
    have hkey : (releaseRow k userId orderId reason (rows.getD 0)
        |mov.quantityChanged|).stockKey = k := rfl
    have hchanged : (releaseRow k userId orderId reason (rows.getD 0)
        |mov.quantityChanged|).quantityChanged = |mov.quantityChanged| := rfl
    rwa [hkey, hchanged, sub_self] at h

/-- The fallback locks nothing itself, so its update needs a lock taken before. -/
theorem triple_releaseFallback (item : OrderItem) :
    (stockContract s₀).Triple locksUpdates (Owes 0 [])
      (releaseFallback tenantId userId orderId reason item) fun _ => Owes 0 [] := by
  refine Triple.query_bind (A := fun inventories t s => Owes 0 [] t s ∧ ∀ r ∈ inventories,
    Owes 0 [(r.1, some r.2)] t s) Owes.stable (fun t s _ h => ⟨h, fun r hr => ?_⟩)
    fun inventories => ?_
  · obtain ⟨hlookup, -, -⟩ := mem_inventoriesOf.mp hr
    have hread := h.readRow r.1
    rwa [hlookup] at hread
  cases inventories with
  | nil => exact (triple_readsOnly (.ret ())).pre fun t s _ h => h.1
  | cons r rest =>
    obtain ⟨k, q⟩ := r
    have hupdate : (stockContract s₀).Triple locksUpdates (Owes 0 [(k, some q)])
        (perform (Statement.updateInventory k (q + item.quantity)))
        fun _ => Owes (Pi.single k item.quantity) [] := by
      refine (triple_updateInventory rfl (by simp)).post fun _ t s h => ?_
      rwa [Option.getD_some, add_sub_cancel_left, zero_add] at h
    have hjournal : (stockContract s₀).Triple locksUpdates (Owes (Pi.single k item.quantity) [])
        (recordMovement (releaseRow k userId orderId reason q item.quantity))
        fun _ => Owes 0 [] := by
      refine triple_recordMovement.post fun _ t s h => ?_
      have hkey : (releaseRow k userId orderId reason q item.quantity).stockKey = k := rfl
      have hchanged : (releaseRow k userId orderId reason q item.quantity).quantityChanged =
          item.quantity := rfl
      rwa [hkey, hchanged, sub_self] at h
    exact (hupdate.bind fun _ => hjournal).pre fun t s _ h => h.2 (k, q) (by simp)

theorem triple_releaseItem (item : OrderItem) :
    (stockContract s₀).Triple locksUpdates (Owes 0 [])
      (releaseItem tenantId userId orderId reason item) fun _ => Owes 0 [] := by
  refine (triple_readsOnly (.query _)).bind fun movements => ?_
  split
  · exact Triple.forM_const Owes.stable fun mov => triple_releaseMovement item mov
  · exact triple_releaseFallback item

theorem triple_cancel {id : Uuid} :
    (stockContract s₀).Triple locksUpdates (Owes 0 [])
      (OrderService.cancel id tenantId userId reason) fun _ => Owes 0 [] := by
  refine triple_getById_bind fun order => ?_
  refine Triple.require_bind fun _ => Triple.require_bind fun _ => ?_
  refine (Triple.forM_const Owes.stable fun item => triple_releaseItem item).bind fun _ => ?_
  refine (triple_neutral fun s e he => ?_).bind fun _ => ?_
  · obtain ⟨_, -, rfl⟩ := Statement.updateOrderStatus_eq_ok.mp he
    trivial
  exact triple_history.bind fun _ => triple_readsOnly (.query _)

theorem triple_adjust {body : AdjustBody} :
    (stockContract s₀).Triple locksUpdates (Owes 0 [])
      (InventoryService.adjust tenantId userId body) fun _ => Owes 0 [] := by
  refine Triple.orRaise_bind fun variantId _ => ?_
  refine Triple.require_bind fun _ => Triple.require_bind fun _ => ?_
  refine (triple_readsOnly (.query _)).bind fun _ => Triple.require_bind fun _ => ?_
  refine (triple_readsOnly (.query _)).bind fun _ => Triple.require_bind fun _ => ?_
  set k : StockKey := ⟨tenantId, variantId, body.warehouseId⟩
  -- the row is read by the statement that locks it
  refine Triple.lockAndRead_bind (A := fun rows => Owes 0 [(k, rows)]) Owes.stable
    (fun t s _ h _ => (h.lock _).readRow k) (fun t s _ h _ => h.readRow k) fun rows => ?_
  refine Triple.require_bind fun _ => ?_
  refine (triple_writeStock (by simp)).bind fun _ => triple_recordMovement.bind fun _ => ?_
  refine (triple_readsOnly (.ret _)).pre fun t s _ h => ?_
  have hdebt : (0 : StockKey → ℤ) + Pi.single k (rows.getD 0 + body.quantityChanged -
      rows.getD 0) - Pi.single k body.quantityChanged = 0 := by
    rw [add_sub_cancel_left, zero_add, sub_self]
  rwa [← hdebt]

theorem triple_transfer {body : TransferBody} :
    (stockContract s₀).Triple locksUpdates (Owes 0 [])
      (InventoryService.transfer tenantId userId body) fun _ => Owes 0 [] := by
  refine Triple.orRaise_bind fun variantId _ => Triple.orRaise_bind fun sourceId _ => ?_
  refine Triple.orRaise_bind fun destId _ => Triple.require_bind fun hne => ?_
  refine Triple.require_bind fun _ => ?_
  refine (triple_readsOnly (.query _)).bind fun _ => Triple.require_bind fun _ => ?_
  refine (triple_readsOnly (.query _)).bind fun _ => Triple.require_bind fun _ => ?_
  refine (triple_readsOnly (.query _)).bind fun _ => Triple.require_bind fun _ => ?_
  set source : StockKey := ⟨tenantId, variantId, sourceId⟩
  set dest : StockKey := ⟨tenantId, variantId, destId⟩
  have hrows : dest ≠ source := by
    intro h
    exact hne (congrArg StockKey.warehouseId h).symm
  refine triple_lockRows.bind fun _ => ?_
  refine triple_queryRow source fun sourceRows => triple_queryRow dest fun destRows => ?_
  refine Triple.require_bind fun _ => ?_
  -- the source is written first, and what was read of the destination is kept
  refine Triple.bind (Q := fun _ => Owes (-Pi.single source body.quantity)
    [(dest, destRows)]) ?_ fun _ => ?_
  · have hreads : ∀ r ∈ [(dest, destRows)], r.1 ≠ source := by simpa using hrows
    have hswap (t : Transaction sales) (s : Db)
        (h : Owes 0 [(dest, destRows), (source, sourceRows)] t s) :
        Owes 0 [(source, sourceRows), (dest, destRows)] t s :=
      h.mono (List.Perm.swap _ _ _).subset
    refine ((triple_writeSource hreads).pre fun t s _ => hswap t s).post fun _ t s h => ?_
    have hdebt : sourceRows.getD 0 - body.quantity - sourceRows.getD 0 = -body.quantity := by
      ring
    rwa [hdebt, Pi.single_neg, zero_add] at h
  refine (triple_writeStock (by simp)).bind fun _ => ?_
  refine triple_recordMovement.bind fun _ => triple_recordMovement.bind fun _ => ?_
  refine (triple_readsOnly (.ret _)).pre fun t s _ h => ?_
  have hdebt : -Pi.single source body.quantity +
      Pi.single dest (destRows.getD 0 + body.quantity - destRows.getD 0) -
        Pi.single source (-body.quantity) - Pi.single dest body.quantity =
          (0 : StockKey → ℤ) := by
    rw [add_sub_cancel_left, Pi.single_neg]
    abel
  rwa [← hdebt]

/-- Every request that keeps its warehouses owes nothing at its end. -/
theorem triple_program {r : StockRequest} (hr : r.KeepsWarehouses) :
    (stockContract s₀).Triple locksUpdates (Owes 0 []) r.program fun _ => Owes 0 [] := by
  cases r with
  | create env tenantId userId orderId body =>
    exact triple_create.bind fun _ => triple_readsOnly (.ret ())
  | updateStatus id tenantId userId status reason =>
    exact triple_updateStatus.bind fun _ => triple_readsOnly (.ret ())
  | cancel id tenantId userId reason =>
    exact triple_cancel.bind fun _ => triple_readsOnly (.ret ())
  | adjust tenantId userId body =>
    exact triple_adjust.bind fun _ => triple_readsOnly (.ret ())
  | transfer tenantId userId body =>
    exact triple_transfer.bind fun _ => triple_readsOnly (.ret ())
  | deleteWarehouse id tenantId => exact hr.elim

/-- A transaction that owes nothing leaves the stock balanced. -/
theorem Owes.guarantee (h : Owes 0 [] t s) (hs : Balanced s₀ s) :
    (stockContract s₀).Guarantee locksUpdates t s where
  inv := by
    obtain ⟨rows, hrows, hbalanced⟩ := hs
    have hmovements : (t.view s).inventoryMovements =
        s.inventoryMovements ++ journal t.edits := inventoryMovements_replay h.keepsRows
    refine ⟨rows ++ journal t.edits, ?_, fun k => ⟨?_, h.nonneg k⟩⟩
    · rw [hmovements, hrows, List.append_assoc]
    · rw [h.settled k, (hbalanced k).1, changed_append, Pi.zero_apply]
      ring
  evolves k hk := by
    rcases lookup_replay h.keepsRows k with ⟨q, -, hq⟩ | hsame
    · rw [Transaction.view, hq s]
      rfl
    · rw [Transaction.view, hsame s]
      exact hk
  agree key hkey _ k heq := by
    subst heq
    rcases lookup_replay h.keepsRows k with ⟨q, ⟨e, he, q', hq'⟩, -⟩ | hsame
    · exact absurd (h.held e he k q' hq') hkey
    · exact (hsame s).symm

/-- Concurrent creations, cancellations, adjustments and transfers, in any interleaving in
which every update of a stock row follows its lock: the stock is what it was plus the
committed movements, and never negative. -/
theorem reaches_balanced {rs : List StockRequest} {c : Config sales Unit}
    (hrs : ∀ r ∈ rs, r.KeepsWarehouses) (hs₀ : ∀ k, 0 ≤ s₀.quantity k)
    (h : Reaches locksUpdates (.start s₀ (rs.map StockRequest.program)) c) :
    Balanced s₀ c.committed := by
  have hstart : Balanced s₀ s₀ := ⟨[], by simp, fun k => ⟨by simp, hs₀ k⟩⟩
  have howes : Owes 0 [] {} s₀ :=
    ⟨by simp, by simp, fun k => by simp, fun k => hs₀ k, by simp, by simp⟩
  refine reaches_induction (L := stockContract s₀) (Q := fun _ _ _ => True)
    (P := fun c => Balanced s₀ c.committed) hstart (fun p hp => ?_) hstart
    (fun _ _ _ _ _ _ _ _ hg _ => hg.inv) (fun _ _ _ _ hP _ _ => hP)
    (fun _ _ _ _ _ _ hP _ => hP) h
  obtain ⟨r, hr, rfl⟩ := List.mem_map.mp hp
  refine wp_mono (triple_program (hrs r hr) _ _ hstart howes) fun _ t s ht hs _ => ?_
  exact ⟨ht.guarantee hs, trivial⟩

namespace Sample

/-- An arrival of goods in the north. -/
def arrival (quantity : ℤ) : StockRequest :=
  .adjust "shop" "clerk"
    { variantId := some "shirt", warehouseId := "north", quantityChanged := quantity }

/-- An order of two pieces and two arrivals. -/
def requests : List StockRequest :=
  [.create {} "shop" "clerk" "order" (body [line "north" 2]), arrival 10, arrival 5]

/-- The order finds no row to lock; the first arrival creates it; the order reads ten pieces;
the second arrival makes them fifteen; the order writes eight. -/
def unlockedUpdate : List (Action sales) :=
  List.replicate 9 (.advance 0) ++ List.replicate 7 (.advance 1) ++ [.advance 0] ++
    List.replicate 7 (.advance 2) ++ List.replicate 10 (.advance 0)

end Sample

open Sample in
/-- The same requests where the row exists: the first arrival, and the order in the middle of
its transaction. -/
theorem reaches_balanced_sample :
    ∃ c : Config sales Unit,
      Reaches locksUpdates (.start shop (requests.map StockRequest.program)) c ∧
        c.log.length = 1 ∧ Balanced shop c.committed := by
  have hrun : ((Config.start shop (requests.map StockRequest.program)).run locksUpdates
      (List.replicate 7 (.advance 1) ++ List.replicate 12 (.advance 0))).isSome = true := by
    decide +kernel
  obtain ⟨c, hc⟩ := Option.isSome_iff_exists.mp hrun
  have hend : ((Config.start shop (requests.map StockRequest.program)).run locksUpdates
      (List.replicate 7 (.advance 1) ++ List.replicate 12 (.advance 0))).map
        (fun c => c.log.length) = some 1 := by decide +kernel
  rw [hc, Option.map_some, Option.some.injEq] at hend
  have hreach : Reaches locksUpdates (.start shop (requests.map StockRequest.program)) c :=
    reaches_of_run .refl hc
  refine ⟨c, hreach, hend, reaches_balanced ?_ shop_consistent.stock.nonneg hreach⟩
  simp [requests, arrival, StockRequest.KeepsWarehouses]

open Sample in
/-- An order that updates a row it could not lock: ten and five pieces arrive, two are sold,
and eight are left instead of thirteen. -/
theorem reaches_not_balanced :
    ∃ c : Config sales Unit,
      Reaches (.free sales) (.start emptyShop (requests.map StockRequest.program)) c ∧
        c.Quiescent ∧ ¬ Balanced emptyShop c.committed := by
  have hrun : ((Config.start emptyShop (requests.map StockRequest.program)).run
      (.free sales) unlockedUpdate).isSome = true := by decide +kernel
  obtain ⟨c, hc⟩ := Option.isSome_iff_exists.mp hrun
  have hend : ((Config.start emptyShop (requests.map StockRequest.program)).run
      (.free sales) unlockedUpdate).map (fun c => (decide c.Quiescent,
        c.committed.quantity row, changed c.committed.inventoryMovements row)) =
      some (true, 8, 13) := by decide +kernel
  rw [hc, Option.map_some, Option.some.injEq, Prod.mk.injEq, Prod.mk.injEq,
    decide_eq_true_eq] at hend
  obtain ⟨hquiescent, hquantity, hchanged⟩ := hend
  refine ⟨c, reaches_of_run .refl hc, hquiescent, ?_⟩
  rintro ⟨rows, hrows, hbalanced⟩
  have hrow := (hbalanced row).1
  rw [show c.committed.inventoryMovements = rows from hrows] at hchanged
  have hempty : emptyShop.quantity row = 0 := rfl
  omega

end PulseOps
