import PulseOps.Stock.LockOrder

/-!
# Requests that wait for each other's stock

A cancellation comes to the rows of an order line by line and reservation by reservation. As
long as the orders that are cancelled have their rows in the order in which the others lock
them, requests never wait for each other's stock rows in a ring; two orders with the same
lines the other way round are enough for one.

## Main definitions

* `Releasing` — how far a cancellation has come, and that it holds the rows it has come to.

## Main results

* `ascent_cancel` — a cancellation keeps the order.
* `stock_locks_ascend` — so do all requests, and nobody waits in a ring.
* `stock_locks_cross` — two cancellations that wait for each other.
-/

set_option autoImplicit false

open ReadCommitted Program Contract

namespace PulseOps

open OrderService InventoryService

variable {s s' : Db} {e : Edit} {k : StockKey} {id tenantId userId : Uuid} {reason : Option String}
  {t : Transaction sales} {rs : List StockRequest}

/-! ### Cancellations -/

theorem reservations_eq {v : Uuid} : reservations tenantId id v s =
    (reservationsOf id s).filter fun m => m.tenantId = tenantId ∧ m.productVariantId = v := by
  simp only [reservations, reservationsOf, List.filter_filter]
  apply List.filter_congr
  intro m _
  simp only [decide_eq_decide, ← Bool.decide_and]
  tauto

/-- On the way through the rows of an order: `seen` are those that have been come to, and all
of them are held. -/
structure Releasing (id : Uuid) (items : List OrderItem) (movements : List InventoryMovement)
    (seen : List StockKey) (t : Transaction sales) (s : Db) : Prop where
  fits : Fits t s
  undescribing : ∀ e ∈ t.edits, e.describes? = none
  placed : (s.orders.lookup id).isSome
  lines : linesOf id s = items
  reservations : reservationsOf id s = movements
  held : ∀ k, Key.inventory k ∈ t.held ↔ k ∈ seen

variable {items : List OrderItem} {movements : List InventoryMovement} {seen : List StockKey}

theorem Releasing.stable : (orderContract rs).Stable (Releasing id items movements seen) := by
  intro t s s' hs h hr
  obtain ⟨hplaced, hlines, hreservations⟩ := hr.evolves.2 id h.placed
  exact ⟨Fits.stable t s s' hs h.fits hr, h.undescribing, hplaced, hlines.trans h.lines,
    hreservations.trans h.reservations, h.held⟩

/-- A row that comes next in the order. -/
theorem Releasing.climbs (h : Releasing id items movements seen t s)
    (hk : k ∈ seen ∨ ∀ k' ∈ seen, k'.lockText < k.lockText) :
    t.Climbs Key.lockText (.inventory k) := by
  rcases hk with hmem | hall
  · exact .inl ((h.held k).mpr hmem)
  · right
    intro key hkey r' hr' r hr
    cases key with
    | inventory k' =>
      obtain rfl := Option.some.inj hr'
      obtain rfl := Option.some.inj hr
      exact hall k' ((h.held k').mp hkey)
    | _ => cases hr'

theorem Releasing.write (h : Releasing id items movements seen t s) (he : e.Undescribing)
    {seen' : List StockKey}
    (hseen : ∀ k, Key.inventory k ∈ e.footprint ∨ k ∈ seen ↔ k ∈ seen') :
    Releasing id items movements seen' (t.write e) s where
  fits := h.fits.write_undescribing he
  undescribing := List.forall_mem_append.mpr ⟨h.undescribing, by simpa using he.2⟩
  placed := h.placed
  lines := h.lines
  reservations := h.reservations
  held k := by
    rw [Transaction.held_write, List.mem_append, h.held k]
    exact hseen k

/-- Edits of other tables. -/
theorem Releasing.write_other (h : Releasing id items movements seen t s) (he : e.Undescribing)
    (hother : ∀ k, Key.inventory k ∉ e.footprint) :
    Releasing id items movements seen (t.write e) s :=
  h.write he fun k => by simp [hother k]

/-- A statement that writes another table. -/
theorem triple_other {edit : Db → Except Failure Edit}
    (h : ∀ s e, edit s = .ok e → e.Undescribing ∧ ∀ k, Key.inventory k ∉ e.footprint) :
    (orderContract rs).Triple (ordersAscend rs) (Releasing id items movements seen)
      (perform edit) fun _ => Releasing id items movements seen :=
  Triple.perform Releasing.stable Releasing.stable fun _ _ e _ ht he _ =>
    ht.write_other (h _ e he).1 (h _ e he).2

theorem triple_releaseRow {m : InventoryMovement} (hm : m.type = .orderRelease) :
    (orderContract rs).Triple (ordersAscend rs) (Releasing id items movements seen)
      (recordMovement m) fun _ => Releasing id items movements seen := by
  refine triple_other fun s e he => ?_
  obtain ⟨-, -, rfl⟩ := Statement.insertInventoryMovement_eq_ok.mp he
  exact ⟨⟨trivial, by simp [Edit.describes?, hm]⟩, by simp [Edit.footprint]⟩

/-- The row `k` has been looked for, and is held if it was there. -/
def RowMet (id : Uuid) (items : List OrderItem) (movements : List InventoryMovement)
    (seen : List StockKey) (k : StockKey) (t : Transaction sales) (s : Db) : Prop :=
  Releasing id items movements (seen ++ [k]) t s ∨ Releasing id items movements seen t s

theorem RowMet.stable : (orderContract rs).Stable (RowMet id items movements seen k) :=
  fun t s s' hs h hr => h.imp (fun h => Releasing.stable t s s' hs h hr)
    fun h => Releasing.stable t s s' hs h hr

theorem RowMet.fits (h : RowMet id items movements seen k t s) : Fits t s :=
  h.elim (·.fits) (·.fits)

/-- Writing the row takes its lock at the latest. -/
theorem RowMet.write (h : RowMet id items movements seen k t s) (he : e.Undescribing)
    (hfoot : e.footprint = [.inventory k]) :
    Releasing id items movements (seen ++ [k]) (t.write e) s := by
  rcases h with h | h
  · refine h.write he fun k' => ?_
    simp only [hfoot, List.mem_singleton, Key.inventory.injEq, List.mem_append]
    tauto
  · refine h.write he fun k' => ?_
    simp only [hfoot, List.mem_singleton, Key.inventory.injEq, List.mem_append]
    tauto

/-- A row that the transaction has seen stays. -/
theorem Fits.isSome_view (h : Fits t s) (hr : (orderContract rs).Rely t s s')
    (hk : ((t.view s).inventory.lookup k).isSome) : ((t.view s').inventory.lookup k).isSome := by
  rcases lookup_replay h.keepsRows k with ⟨q, -, hq⟩ | hsame
  · rw [Transaction.view, hq s']
    rfl
  · rw [Transaction.view, hsame s'] at *
    rw [hsame s] at hk
    exact hr.evolves.1 k hk

/-- The quantity is written to the row that was found, or to a new one. -/
theorem triple_restore {rows : Option ℤ} {q : ℤ} :
    (orderContract rs).Triple (ordersAscend rs)
      (fun t s => RowMet id items movements seen k t s ∧
        (rows.isSome → ((t.view s).inventory.lookup k).isSome))
      (if rows.isSome then updateStock k q
        else do
          perform (Statement.insertInventory k q)
          perform (Statement.insertWarehouseInventory k q))
      fun _ => Releasing id items movements (seen ++ [k]) := by
  have hstable : (orderContract rs).Stable fun t s => RowMet id items movements seen k t s ∧
      (rows.isSome → ((t.view s).inventory.lookup k).isSome) := by
    intro t s s' hs h hr
    exact ⟨RowMet.stable t s s' hs h.1 hr, fun hrows => h.1.fits.isSome_view hr (h.2 hrows)⟩
  split_ifs with hrows
  · refine Triple.bind (Q := fun _ => Releasing id items movements (seen ++ [k])) ?_ fun _ => ?_
    · refine Triple.perform hstable Releasing.stable fun t s e _ h he _ => ?_
      obtain ⟨-, rfl⟩ := (Statement.updateInventory_eq_ok (h.2 hrows)).mp he
      exact h.1.write ⟨trivial, rfl⟩ rfl
    · refine triple_other fun s e he => ?_
      obtain ⟨-, rfl⟩ := Statement.upsertWarehouseInventory_eq_ok.mp he
      exact ⟨⟨trivial, rfl⟩, by simp [Edit.footprint]⟩
  · refine Triple.bind (Q := fun _ => Releasing id items movements (seen ++ [k])) ?_ fun _ => ?_
    · refine Triple.perform hstable Releasing.stable fun t s e _ h he _ => ?_
      obtain ⟨-, -, rfl⟩ := Statement.insertInventory_eq_ok.mp he
      exact h.1.write ⟨trivial, rfl⟩ rfl
    · refine triple_other fun s e he => ?_
      obtain ⟨-, -, rfl⟩ := Statement.insertWarehouseInventory_eq_ok.mp he
      exact ⟨⟨trivial, rfl⟩, by simp [Edit.footprint]⟩

/-- One reservation is released: its row comes after those before it. -/
theorem ascent_releaseMovement {item : OrderItem} {mov : InventoryMovement}
    (hk : (⟨tenantId, item.productVariantId, mov.warehouseId⟩ : StockKey) ∈ seen ∨
      ∀ k' ∈ seen, k'.lockText <
        (⟨tenantId, item.productVariantId, mov.warehouseId⟩ : StockKey).lockText) :
    (orderContract rs).Ascent Key.lockText (ordersAscend rs)
      (Releasing id items movements seen) (releaseMovement tenantId userId id reason item mov)
      fun _ => Releasing id items movements
        (seen ++ [⟨tenantId, item.productVariantId, mov.warehouseId⟩]) := by
  unfold releaseMovement
  set k : StockKey := ⟨tenantId, item.productVariantId, mov.warehouseId⟩
  refine (Ascent.lockRow (A := RowMet id items movements seen k) Releasing.stable RowMet.stable
    (fun t s _ h => h.climbs hk) (fun t s h => .inl ?_) fun t s h _ => .inr h).bind fun _ => ?_
  · refine ⟨h.fits.lock _, h.undescribing, h.placed, h.lines, h.reservations, fun k' => ?_⟩
    simp only [Transaction.held_lock, List.mem_cons, Key.inventory.injEq, h.held k',
      List.mem_append]
    tauto
  refine Ascent.query_bind (A := fun rows t s => RowMet id items movements seen k t s ∧
    (rows.isSome → ((t.view s).inventory.lookup k).isSome)) RowMet.stable
    (fun t s _ h => ⟨h, fun hrows => hrows⟩) fun rows => ?_
  refine Triple.ascent climbs_of_ordersAscend ?_ (triple_restore.bind fun _ =>
    triple_releaseRow rfl)
  refine LocksNothing.bind ?_ fun _ => locksNothing_perform _
  split
  · exact updateStock_locksNothing
  · exact (locksNothing_perform _).bind fun _ => locksNothing_perform _

/-- All reservations of a line. -/
theorem ascent_releaseMovements {item : OrderItem} {post : List StockKey}
    (movs : List InventoryMovement) {pre : List StockKey}
    (h : ascends [] (pre ++ (movs.map (fun m =>
      (⟨tenantId, item.productVariantId, m.warehouseId⟩ : StockKey)) ++ post)) = true) :
    (orderContract rs).Ascent Key.lockText (ordersAscend rs)
      (Releasing id items movements pre)
      (forM movs (releaseMovement tenantId userId id reason item))
      fun _ => Releasing id items movements (pre ++ movs.map fun m =>
        ⟨tenantId, item.productVariantId, m.warehouseId⟩) := by
  induction movs generalizing pre with
  | nil =>
    rw [List.map_nil, List.append_nil]
    exact fun t s hs h s' hr => Releasing.stable t s s' hs h hr
  | cons m movs ih =>
    have hfirst := ascends_append h
    simp only [List.not_mem_nil, false_or, List.nil_append] at hfirst
    rw [List.map_cons, List.append_cons]
    refine (ascent_releaseMovement hfirst).bind fun _ => ih ?_
    rwa [List.map_cons, List.cons_append, List.append_cons] at h

/-- A line without reservations is restored to a row that is held. -/
theorem ascent_releaseFallback {item : OrderItem} :
    (orderContract rs).Ascent Key.lockText (ordersAscend rs)
      (Releasing id items movements seen) (releaseFallback tenantId userId id reason item)
      fun _ => Releasing id items movements seen := by
  refine Triple.ascent climbs_of_ordersAscend ?_ ?_
  · refine (ReadsOnly.query _).locksNothing.bind fun inventories => ?_
    split
    · trivial
    · exact (locksNothing_perform _).bind fun _ => locksNothing_perform _
  · refine (Triple.readsOnly (ReadsOnly.query _) Releasing.stable).bind fun inventories => ?_
    split
    · exact Triple.readsOnly (.ret ()) Releasing.stable
    · refine Triple.bind (Q := fun _ => Releasing id items movements seen) ?_
        fun _ => triple_releaseRow rfl
      refine Triple.perform Releasing.stable Releasing.stable fun t s e _ h he hok => ?_
      rcases Statement.eq_of_updateInventory he with rfl | rfl
      · have hheld := (h.held _).mp (of_decide_eq_true hok)
        refine Releasing.write (e := .inventoryUpdate _ _) h ⟨trivial, rfl⟩ fun k' => ?_
        simp only [Edit.footprint, List.mem_singleton, Key.inventory.injEq]
        exact ⟨fun hk' => hk'.elim (fun heq => heq ▸ hheld) fun hmem => hmem, .inr⟩
      · exact Releasing.write_other (e := .nothing) h ⟨trivial, rfl⟩ (by simp [Edit.footprint])

theorem ascent_releaseItem {item : OrderItem} {post : List StockKey} {pre : List StockKey}
    (h : ascends [] (pre ++ (releaseKeys tenantId [item] movements ++ post)) = true) :
    (orderContract rs).Ascent Key.lockText (ordersAscend rs)
      (Releasing id items movements pre) (releaseItem tenantId userId id reason item)
      fun _ => Releasing id items movements (pre ++ releaseKeys tenantId [item] movements) := by
  rw [releaseKeys, List.flatMap_singleton] at h ⊢
  refine Ascent.query_bind (A := fun found t s => found = (movements.filter fun m =>
    m.tenantId = tenantId ∧ m.productVariantId = item.productVariantId) ∧
      Releasing id items movements pre t s) Releasing.stable (fun t s _ h => ⟨?_, h⟩)
    fun found => ?_
  · have hother : ∀ e ∈ t.edits, e.describes? ≠ some id := by
      intro e he
      simp [h.undescribing e he]
    have hview := (h.fits.view hother).2
    rw [reservations_eq, hview, h.reservations]
  refine Ascent.of_and fun hfound => ?_
  rw [← hfound] at h ⊢
  split
  · exact ascent_releaseMovements found h
  · rename_i hnone
    obtain rfl : found = [] := not_not.mp hnone
    rw [List.map_nil, List.append_nil]
    exact ascent_releaseFallback

/-- All lines of the order. -/
theorem ascent_releaseItems (rest : List OrderItem) {pre : List StockKey}
    (h : ascends [] (pre ++ releaseKeys tenantId rest movements) = true) :
    (orderContract rs).Ascent Key.lockText (ordersAscend rs)
      (Releasing id items movements pre) (forM rest (releaseItem tenantId userId id reason))
      fun _ => Releasing id items movements (pre ++ releaseKeys tenantId rest movements) := by
  induction rest generalizing pre with
  | nil =>
    rw [releaseKeys, List.flatMap_nil, List.append_nil]
    exact fun t s hs h s' hr => Releasing.stable t s s' hs h hr
  | cons item rest ih =>
    have hsplit : releaseKeys tenantId (item :: rest) movements =
        releaseKeys tenantId [item] movements ++ releaseKeys tenantId rest movements := by
      simp [releaseKeys]
    rw [hsplit] at h ⊢
    rw [← List.append_assoc]
    refine (ascent_releaseItem h).bind fun _ => ih ?_
    rwa [List.append_assoc]

/-- A cancellation takes the rows of its order as they come. -/
theorem ascent_cancel (hr : .cancel id tenantId userId reason ∈ rs) :
    (orderContract rs).Ascent Key.lockText (ordersAscend rs) (fun t _ => t = {})
      (OrderService.cancel id tenantId userId reason) fun _ => Fits := by
  unfold OrderService.cancel getById
  rw [bind_assoc]
  refine Ascent.query_bind (A := fun found t s => ∀ order, found = some order →
    ∃ movements, ascends [] (releaseKeys tenantId order.items movements) = true ∧
      Releasing id order.items movements [] t s) (fun _ _ _ _ h _ => h) ?_ fun found => ?_
  · -- the rows to be released are those of the movements that are read now
    rintro t s hs rfl order horder
    obtain ⟨hrow, -, hitems⟩ := findById_eq_some.mp horder
    have hasc : ascends [] (releaseKeys tenantId (linesOf id s) (reservationsOf id s)) = true :=
      hs _ hr
    have hitems : order.items = linesOf id s := hitems
    have hrow : s.orders.lookup id = some order.row := hrow
    rw [← hitems] at hasc
    exact ⟨reservationsOf id s, hasc, .start, by simp, by rw [hrow]; rfl, hitems.symm, rfl, by simp⟩
  refine Ascent.orRaise_bind fun order hfound => ?_
  refine (Ascent.of_exists fun movements => Ascent.of_and fun hasc => ?_).pre
    fun t s _ h => h order hfound
  refine Ascent.require_bind fun _ => Ascent.require_bind fun _ => ?_
  refine (ascent_releaseItems order.items hasc).bind fun _ => ?_
  -- after the releases nothing is locked any more
  refine Triple.ascent climbs_of_ordersAscend ?_ ?_
  · refine (locksNothing_perform _).bind fun _ => (locksNothing_perform _).bind fun _ => ?_
    exact (ReadsOnly.query _).locksNothing
  · refine (triple_other fun s e he => ?_).bind fun _ => (triple_other fun s e he => ?_).bind
      fun _ => ?_
    · obtain ⟨row, -, rfl⟩ := Statement.updateOrderStatus_eq_ok.mp he
      exact ⟨⟨trivial, rfl⟩, by simp [Edit.footprint]⟩
    · obtain rfl := Except.ok.inj he
      exact ⟨⟨trivial, rfl⟩, by simp [Edit.footprint]⟩
    · exact (Triple.readsOnly (ReadsOnly.query _) Releasing.stable).post fun _ _ _ h => h.fits

/-! ### No ring -/

theorem climbs_program {r : StockRequest} {s₀ : Db} (hr : r ∈ rs) (hcontends : r.Contends)
    (hs₀ : (orderContract rs).inv s₀) : (orderContract rs).climbs Key.lockText (ordersAscend rs)
      ((orderContract rs).Commits (ordersAscend rs) fun _ _ _ => True) r.program {} s₀ := by
  -- what is left after a service is nothing but its result
  have hdrop {α : Type} {p : Sql α}
      (hp : (orderContract rs).Ascent Key.lockText (ordersAscend rs) (fun t _ => t = {}) p
        fun _ => Fits) :
      (orderContract rs).climbs Key.lockText (ordersAscend rs)
        ((orderContract rs).Commits (ordersAscend rs) fun _ _ _ => True) (do let _ ← p) {} s₀ := by
    have hunit : (orderContract rs).Ascent Key.lockText (ordersAscend rs) (fun t _ => t = {})
        (do let _ ← p) fun _ : Unit => Fits :=
      hp.bind fun _ => ascent_undescribing trivial trivial
    exact climbs_mono (hunit _ _ hs₀ rfl) fun _ t s h _ hok => ⟨h.guarantee hok, trivial⟩
  cases r with
  | create env tenantId userId orderId body => exact hdrop (ascent_create hcontends)
  | cancel id tenantId userId reason => exact hdrop (ascent_cancel hr)
  | transfer tenantId userId body => exact hdrop ascent_transfer
  | _ => exact hcontends.elim

/-- **No deadlock over stock rows.** In every run of creations, cancellations and transfers
that meets the condition, every stock row that is asked for is held already or comes after all
that are held, and no transaction waits for itself. -/
theorem stock_locks_ascend {s₀ : Db} {c : Config sales Unit} (hrs : ∀ r ∈ rs, r.Contends)
    (hs₀ : ∀ r ∈ rs, r.ascends s₀ = true)
    (h : Reaches (ordersAscend rs) (.start s₀ (rs.map StockRequest.program)) c)
    (hdue : c.Due (ordersAscend rs)) :
    c.Climbing Key.lockText ∧ ∀ i, ¬ Relation.TransGen (c.WaitsFor Key.lockText) i i := by
  have hclimbing : c.Climbing Key.lockText := by
    apply climbing_of_reaches (L := orderContract rs) hs₀ _ h hdue
    intro p hp
    obtain ⟨r, hr, rfl⟩ := List.mem_map.mp hp
    exact climbs_program hr (hrs r hr) hs₀
  exact ⟨hclimbing, hclimbing.not_waitsFor_ring h.locksDisjoint⟩

/-! ### Two orders with the same lines -/

namespace Sample

def shirt : Uuid := "11111111-1111-4111-8111-111111111111"

def trousers : Uuid := "22222222-2222-4222-8222-222222222222"

def stockOf (variantId : Uuid) : StockKey := ⟨"shop", variantId, "north"⟩

/-- Two variants, twenty pieces each. -/
def twoVariants : Db :=
  { customers := emptyShop.customers
    warehouses := emptyShop.warehouses
    productVariants := ((∅ : Table Uuid ProductVariant).insert shirt
      { tenantId := "shop", sku := "S", price := 100, status := .active
        product := { name := "Shirt" } }).insert trousers
      { tenantId := "shop", sku := "T", price := 200, status := .active
        product := { name := "Trousers" } }
    inventory := ((∅ : Table StockKey ℤ).insert (stockOf shirt) 20).insert (stockOf trousers) 20
    warehouseInventory :=
      ((∅ : Table StockKey ℤ).insert (stockOf shirt) 20).insert (stockOf trousers) 20 }

/-- An order of one piece of each variant. -/
def orderOf (orderId : Uuid) (variantIds : List Uuid) : StockRequest :=
  .create {} "shop" "clerk" orderId
    (body (variantIds.map fun id =>
      { productVariantId := id, warehouseId := "north", quantity := 1 }))

def cancelOf (orderId : Uuid) : StockRequest := .cancel orderId "shop" "clerk" none

/-- The same two lines, in both orders. -/
def creations : List StockRequest := [orderOf "a" [shirt, trousers], orderOf "b" [trousers, shirt]]

def cancellations : List StockRequest := [cancelOf "a", cancelOf "b"]

/-- The shop with both orders. -/
def ordered : Db := afterAll noAnswer StockRequest.program twoVariants creations

end Sample

open Sample

/-- Both creations sort the lines: the second one waits for the first one, which has locked one
row and goes on. -/
theorem stock_locks_ascend_creations :
    ∃ c : Config sales Unit,
      Reaches (ordersAscend creations)
        (.start twoVariants (creations.map StockRequest.program)) c ∧
      c.WaitsFor Key.lockText 1 0 ∧ ∀ i, ¬ Relation.TransGen (c.WaitsFor Key.lockText) i i := by
  have hrun : ((Config.start twoVariants (creations.map StockRequest.program)).run
      (ordersAscend creations)
      (List.replicate 10 (.advance 0) ++ List.replicate 8 (.advance 1))).any
        (fun c => c.waits Key.lockText 1 0 && c.due (ordersAscend creations)) = true := by
    decide +kernel
  obtain ⟨c, hc, hbool⟩ := (Option.any_eq_true _ _).mp hrun
  obtain ⟨hwaits, hdue⟩ := Bool.and_eq_true_iff.mp hbool
  have hreach := reaches_of_run Reaches.refl hc
  refine ⟨c, hreach, Config.waitsFor_of_waits hwaits, ?_⟩
  refine (stock_locks_ascend ?_ (by decide +kernel) hreach (Config.due_of_due hdue)).2
  intro r hr
  simp only [creations, List.mem_cons, List.not_mem_nil, or_false] at hr
  rcases hr with rfl | rfl
  all_goals
    intro item hitem
    simp only [body, List.map_cons, List.map_nil, List.mem_cons, List.not_mem_nil,
      or_false] at hitem
    rcases hitem with rfl | rfl <;> decide +kernel

/-- Two cancellations come to the rows as their orders list them, and then wait for each
other. -/
theorem stock_locks_cross :
    ∃ c : Config sales Unit,
      Reaches (.free sales) (.start ordered (cancellations.map StockRequest.program)) c ∧
      Relation.TransGen (c.WaitsFor Key.lockText) 0 0 := by
  have hrun : ((Config.start ordered (cancellations.map StockRequest.program)).run (.free sales)
      (List.replicate 8 (.advance 0) ++ List.replicate 8 (.advance 1))).any
        (fun c => c.waits Key.lockText 0 1 && c.waits Key.lockText 1 0) = true := by
    decide +kernel
  obtain ⟨c, hc, hbool⟩ := (Option.any_eq_true _ _).mp hrun
  obtain ⟨hfirst, hsecond⟩ := Bool.and_eq_true_iff.mp hbool
  refine ⟨c, reaches_of_run Reaches.refl hc, ?_⟩
  exact .tail (.single (Config.waitsFor_of_waits hfirst)) (Config.waitsFor_of_waits hsecond)

end PulseOps
