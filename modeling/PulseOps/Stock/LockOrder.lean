import Mathlib.Data.String.Basic
import PulseOps.ReadCommitted.LockOrder
import PulseOps.Stock.NoLostUpdate

/-!
# The order of the stock locks

`create` and `transfer` sort the stock rows before they lock them. `cancel` takes the rows of
an order as its lines and their reservations come, and a row that was not there to be locked
is taken by the statement that writes it. The condition on the runs is that these come in
order too.

## Main definitions

* `StockKey.lockText` — the text that the rows are sorted by.
* `releaseKeys` — the rows that a cancellation comes to.
* `ordersAscend` — the condition on the runs.
* `orderContract` — an order keeps its lines and its reservations.

## Main results

* `Fits.guarantee` — what a transaction leaves of the orders of others.
* `ascent_lockRows` — rows that are sorted are locked in order.
* `ascent_transfer`, `ascent_create` — these requests keep the order.
-/

set_option autoImplicit false

open ReadCommitted Program Contract

namespace PulseOps

open OrderService InventoryService

variable {s s' : Db} {es : List Edit} {e : Edit} {k : StockKey} {id : Uuid}
  {t : Transaction sales} {rs : List StockRequest}

/-! ### The order -/

/-- `${productVariantId}-${warehouseId}`. -/
def StockKey.lockText (k : StockKey) : String := k.productVariantId ++ "-" ++ k.warehouseId

/-- The place of a key in the order: only stock rows have one. -/
def Key.lockText : Key → Option String
  | .inventory k => some k.lockText
  | _ => none

/-- The lines of an order. -/
def linesOf (id : Uuid) (s : Db) : List OrderItem := s.orderItems.filter (·.orderId = id)

/-- The reservation movements of an order. -/
def reservationsOf (id : Uuid) (s : Db) : List InventoryMovement :=
  s.inventoryMovements.filter fun m => m.referenceType = some "ORDER" ∧
    m.referenceId = some id ∧ m.type = .orderReservation

/-- The rows that a cancellation comes to, line by line. -/
def releaseKeys (tenantId : Uuid) (items : List OrderItem)
    (movements : List InventoryMovement) : List StockKey :=
  items.flatMap fun item =>
    (movements.filter fun m => m.tenantId = tenantId ∧
      m.productVariantId = item.productVariantId).map fun m =>
        ⟨tenantId, item.productVariantId, m.warehouseId⟩

/-- Every row has been met before, or comes after all that were. -/
def ascends (seen : List StockKey) : List StockKey → Bool
  | [] => true
  | k :: ks =>
    (decide (k ∈ seen) || seen.all fun k' => k'.lockText < k.lockText) && ascends (k :: seen) ks

/-- The order that a request cancels has its rows in order. -/
def StockRequest.ascends : StockRequest → Db → Bool
  | .cancel id tenantId _ _, s =>
    PulseOps.ascends [] (releaseKeys tenantId (linesOf id s) (reservationsOf id s))
  | _, _ => true

/-- The requests whose locks are compared. The route of `create` has checked that the ids are
UUIDs. -/
def StockRequest.Contends : StockRequest → Prop
  | .create _ _ _ _ body => ∀ item ∈ body.items, item.resolvedVariantId.length = 36
  | .cancel _ _ _ _ | .transfer _ _ _ => True
  | _ => False

/-- The condition on the runs: a stock row that is updated has been locked, one that is
created comes in order, and so do the rows of every order that is to be cancelled. -/
def ordersAscend (rs : List StockRequest) : Discipline sales where
  write _ t e :=
    match e with
    | .inventoryUpdate k _ => Key.inventory k ∈ t.held
    | .inventoryInsert k _ => t.Climbs Key.lockText (.inventory k)
    | _ => true
  commit s t := rs.all fun r => r.ascends (t.view s)

theorem climbs_of_ordersAscend (s : Db) (t : Transaction sales) (e : Edit)
    (h : (ordersAscend rs).write s t e = true) :
    ∀ key ∈ sales.footprint e, t.Climbs Key.lockText key := by
  intro key hkey
  cases hrank : key.lockText with
  | none => exact Transaction.climbs_of_rank_none hrank
  | some text =>
    cases key with
    | inventory k =>
      cases e with
      | inventoryInsert k' q =>
        obtain rfl : k = k' := by simpa [Edit.footprint] using hkey
        exact of_decide_eq_true h
      | inventoryUpdate k' q =>
        obtain rfl : k = k' := by simpa [Edit.footprint] using hkey
        exact .inl (of_decide_eq_true h)
      | _ => simp [Edit.footprint] at hkey
    | _ => cases hrank

/-- The next row of a cancellation. -/
theorem ascends_append {seen pre post : List StockKey}
    (h : ascends seen (pre ++ k :: post) = true) :
    (k ∈ seen ∨ k ∈ pre) ∨ ∀ k' ∈ seen ++ pre, k'.lockText < k.lockText := by
  induction pre generalizing seen with
  | nil =>
    simp only [List.nil_append, ascends, Bool.and_eq_true, Bool.or_eq_true, decide_eq_true_eq,
      List.all_eq_true] at h
    obtain ⟨hmem | hall, -⟩ := h
    · exact .inl (.inl hmem)
    · exact .inr (by simpa using hall)
  | cons k' pre ih =>
    simp only [List.cons_append, ascends, Bool.and_eq_true] at h
    rcases ih h.2 with (hmem | hmem) | hall
    · rcases List.mem_cons.mp hmem with rfl | hmem
      · exact .inl (.inr List.mem_cons_self)
      · exact .inl (.inl hmem)
    · exact .inl (.inr (List.mem_cons_of_mem _ hmem))
    · right
      intro k'' hk''
      apply hall
      simp only [List.mem_append, List.mem_cons] at hk'' ⊢
      tauto

/-! ### What stays of an order -/

/-- The order whose lines or reservations an edit adds to. -/
def Edit.describes? : Edit → Option Uuid
  | .orderItemInsert row => some row.orderId
  | .inventoryMovementInsert m => if m.type = .orderReservation then m.referenceId else none
  | _ => none

theorem linesOf_apply (he : e.describes? ≠ some id) : linesOf id (s.apply e) = linesOf id s := by
  cases e with
  | orderItemInsert row =>
    have hne : row.orderId ≠ id := fun heq => he (congrArg some heq)
    simp [linesOf, hne]
  | _ => rfl

theorem reservationsOf_apply (hkeeps : e.KeepsRows) (he : e.describes? ≠ some id) :
    reservationsOf id (s.apply e) = reservationsOf id s := by
  cases e with
  | warehouseDelete => exact hkeeps.elim
  | inventoryMovementInsert m =>
    have hother : ¬ (m.referenceType = some "ORDER" ∧ m.referenceId = some id ∧
        m.type = .orderReservation) := by
      rintro ⟨-, href, htype⟩
      exact he (by rw [Edit.describes?, if_pos htype, href])
    simp [reservationsOf, hother]
  | _ => rfl

theorem orders_apply (he : Key.order id ∉ e.footprint) :
    (s.apply e).orders.lookup id = s.orders.lookup id := by
  cases e with
  | orderInsert id' row =>
    have hne : id ≠ id' := fun heq => he (by simp [Edit.footprint, heq])
    exact AList.lookup_insert_ne hne
  | orderUpdate id' row =>
    have hne : id ≠ id' := fun heq => he (by simp [Edit.footprint, heq])
    exact AList.lookup_insert_ne hne
  | _ => rfl

theorem isSome_orders_apply (h : (s.orders.lookup id).isSome) :
    ((s.apply e).orders.lookup id).isSome := by
  have hinsert (id' : Uuid) (row : Order) : ((s.orders.insert id' row).lookup id).isSome := by
    by_cases hid : id = id'
    · subst hid
      rw [AList.lookup_insert]
      rfl
    · rwa [AList.lookup_insert_ne hid]
  cases e with
  | orderInsert id' row => exact hinsert id' row
  | orderUpdate id' row => exact hinsert id' row
  | _ => exact h

/-- What a property of single edits says of a transaction. -/
theorem replay_induction {P : Edit → Prop} {V : Type} {f : Db → V}
    (hf : ∀ s e, P e → f (s.apply e) = f s) (hes : ∀ e ∈ es, P e) (s : Db) :
    f (sales.replay es s) = f s := by
  induction es generalizing s with
  | nil => rfl
  | cons e es ih =>
    rw [Database.replay_cons, ih fun e' he' => hes e' (List.mem_cons_of_mem _ he')]
    exact hf s e (hes e List.mem_cons_self)

theorem isSome_orders_replay (h : (s.orders.lookup id).isSome) :
    ((sales.replay es s).orders.lookup id).isSome := by
  induction es generalizing s with
  | nil => exact h
  | cons e es ih => exact ih (isSome_orders_apply h)

/-- Rows stay, and so do the lines and the reservations of an order that is there. The lock on
a new order keeps others from placing it. -/
def orderContract (rs : List StockRequest) : Contract sales where
  inv s := ∀ r ∈ rs, r.ascends s = true
  evolves s s' := (∀ k, (s.inventory.lookup k).isSome → (s'.inventory.lookup k).isSome) ∧
    ∀ id, (s.orders.lookup id).isSome → (s'.orders.lookup id).isSome ∧
      linesOf id s' = linesOf id s ∧ reservationsOf id s' = reservationsOf id s
  agree key s s' := ∀ id, key = .order id → s.orders.lookup id = none →
    s'.orders.lookup id = none
  evolves_refl _ := ⟨fun _ h => h, fun _ h => ⟨h, rfl, rfl⟩⟩
  evolves_trans h h' := by
    refine ⟨fun k hk => h'.1 k (h.1 k hk), fun id hid => ?_⟩
    obtain ⟨hid', hlines, hreservations⟩ := h.2 id hid
    obtain ⟨hid'', hlines', hreservations'⟩ := h'.2 id hid'
    exact ⟨hid'', hlines'.trans hlines, hreservations'.trans hreservations⟩
  agree_refl _ _ _ _ h := h
  agree_trans h h' id hkey hnone := h' id hkey (h id hkey hnone)

/-- A transaction holds the locks on what it has written, and has added lines and reservations
only to an order that it places. -/
structure Fits (t : Transaction sales) (s : Db) : Prop where
  keepsRows : ∀ e ∈ t.edits, e.KeepsRows
  locked : ∀ e ∈ t.edits, e.footprint ⊆ t.held
  placed : ∀ e ∈ t.edits, ∀ id, e.describes? = some id →
    Key.order id ∈ t.held ∧ s.orders.lookup id = none

theorem Fits.stable : (orderContract rs).Stable Fits := by
  intro t s s' _ h hr
  refine ⟨h.keepsRows, h.locked, fun e he id hid => ?_⟩
  obtain ⟨hheld, hnone⟩ := h.placed e he id hid
  exact ⟨hheld, hr.agree _ hheld id rfl hnone⟩

theorem Fits.start : Fits {} s := ⟨by simp, by simp, by simp⟩

theorem Fits.lock (h : Fits t s) (key : Key) : Fits (t.lock key) s where
  keepsRows := h.keepsRows
  locked e he := List.subset_cons_of_subset _ (h.locked e he)
  placed e he id hid := by
    obtain ⟨hheld, hnone⟩ := h.placed e he id hid
    exact ⟨List.mem_cons_of_mem _ hheld, hnone⟩

theorem Fits.write (h : Fits t s) (hkeeps : e.KeepsRows)
    (hplaced : ∀ id, e.describes? = some id → Key.order id ∈ t.held ∧ s.orders.lookup id = none) :
    Fits (t.write e) s := by
  refine ⟨?_, ?_, ?_⟩
  · exact List.forall_mem_append.mpr ⟨h.keepsRows, by simpa using hkeeps⟩
  · intro e' he'
    rcases List.mem_append.mp he' with he' | he'
    · exact List.subset_append_of_subset_right _ (h.locked e' he')
    · rw [List.mem_singleton.mp he']
      exact List.subset_append_left _ _
  · intro e' he' id hid
    have hheld : Key.order id ∈ t.held ∧ s.orders.lookup id = none := by
      rcases List.mem_append.mp he' with he' | he'
      · exact h.placed e' he' id hid
      · rw [List.mem_singleton.mp he'] at hid
        exact hplaced id hid
    exact ⟨List.mem_append_right _ hheld.1, hheld.2⟩

/-- What the transaction sees of an order that others have placed. -/
theorem Fits.view (h : Fits t s) (hid : ∀ e ∈ t.edits, e.describes? ≠ some id) :
    linesOf id (t.view s) = linesOf id s ∧ reservationsOf id (t.view s) = reservationsOf id s := by
  constructor
  · exact replay_induction (P := fun e => e.describes? ≠ some id)
      (fun _ _ he => linesOf_apply he) hid s
  · exact replay_induction (P := fun e => e.KeepsRows ∧ e.describes? ≠ some id)
      (fun _ _ he => reservationsOf_apply he.1 he.2) (fun e he => ⟨h.keepsRows e he, hid e he⟩) s

/-- What such a transaction may commit. -/
theorem Fits.guarantee (h : Fits t s) (hok : (ordersAscend rs).commit s t = true) :
    (orderContract rs).Guarantee (ordersAscend rs) t s where
  inv := List.all_eq_true.mp hok
  evolves := by
    refine ⟨fun k hk => ?_, fun id hid => ?_⟩
    · rcases lookup_replay h.keepsRows k with ⟨q, -, hq⟩ | hsame
      · rw [Transaction.view, hq s]
        rfl
      · rw [Transaction.view, hsame s]
        exact hk
    · have hother : ∀ e ∈ t.edits, e.describes? ≠ some id := by
        intro e he hdescribes
        rw [(h.placed e he id hdescribes).2] at hid
        cases hid
      exact ⟨isSome_orders_replay hid, h.view hother⟩
  agree key hkey _ id heq hnone := by
    subst heq
    have hothers : ∀ e ∈ t.edits, Key.order id ∉ e.footprint :=
      fun e he hmem => hkey (h.locked e he hmem)
    exact (replay_induction (f := fun s => s.orders.lookup id) (fun _ _ he => orders_apply he)
      hothers s).trans hnone

/-! ### Locking rows that are sorted -/

/-- Nothing has been written, and what is held are stock rows that come before those in
`rest`. -/
def RowsLocked {β : Type} (key : β → StockKey) (rest : List β) (t : Transaction sales) (_ : Db) :
    Prop :=
  t.edits = [] ∧ ∀ h ∈ t.held, ∃ k, h = Key.inventory k ∧
    ∀ x ∈ rest, k = key x ∨ k.lockText < (key x).lockText

/-- A loop that locks rows in their order. -/
theorem ascent_lockRows {β : Type} (key : β → StockKey) {xs : List β}
    (hsorted : xs.Pairwise fun x y => key x = key y ∨ (key x).lockText < (key y).lockText) :
    (orderContract rs).Ascent Key.lockText (ordersAscend rs) (fun t _ => t = {})
      (forM xs fun x => lockRow (.inventory (key x))) fun _ => RowsLocked key [] := by
  have hloop : (orderContract rs).Ascent Key.lockText (ordersAscend rs)
      (fun t s => xs.Pairwise (fun x y => key x = key y ∨ (key x).lockText < (key y).lockText) ∧
        RowsLocked key xs t s)
      (forM xs fun x => lockRow (.inventory (key x)))
      fun _ t s => ([] : List β).Pairwise (fun x y => key x = key y ∨
        (key x).lockText < (key y).lockText) ∧ RowsLocked key [] t s := by
    refine Ascent.forM (I := fun rest t s => rest.Pairwise (fun x y => key x = key y ∨
      (key x).lockText < (key y).lockText) ∧ RowsLocked key rest t s) (fun _ _ _ _ h _ => h) ?_
    intro x rest
    apply Ascent.lockRow (fun _ _ _ _ h _ => h) (fun _ _ _ _ h _ => h)
    · -- the row is held, or comes after all that is held
      rintro t s - ⟨-, -, hheld⟩
      by_cases hself : Key.inventory (key x) ∈ t.held
      · exact .inl hself
      · right
        intro h hmem r' hr' r hr
        obtain ⟨k, rfl, hrest⟩ := hheld h hmem
        obtain rfl := Option.some.inj hr'
        obtain rfl := Option.some.inj hr
        refine (hrest x List.mem_cons_self).resolve_left fun heq => ?_
        exact hself (heq ▸ hmem)
    · -- what is held afterwards comes before the rest of the list
      rintro t s ⟨hpairs, hedits, hheld⟩
      obtain ⟨hfirst, hpairs⟩ := List.pairwise_cons.mp hpairs
      refine ⟨hpairs, hedits, fun h hmem => ?_⟩
      rcases List.mem_cons.mp hmem with rfl | hmem
      · exact ⟨key x, rfl, hfirst⟩
      · obtain ⟨k, rfl, hrest⟩ := hheld h hmem
        exact ⟨k, rfl, fun y hy => hrest y (List.mem_cons_of_mem _ hy)⟩
    · -- there is no such row, and nothing is locked
      rintro t s ⟨hpairs, hedits, hheld⟩ -
      refine ⟨hpairs.of_cons, hedits, fun h hmem => ?_⟩
      obtain ⟨k, rfl, hrest⟩ := hheld h hmem
      exact ⟨k, rfl, fun y hy => hrest y (List.mem_cons_of_mem _ hy)⟩
  refine (hloop.pre ?_).post fun _ _ _ h => h.2
  rintro t s - rfl
  exact ⟨hsorted, rfl, by simp⟩

/-! ### Edits that describe no order -/

/-- The edit deletes no rows and describes no order. -/
def Edit.Undescribing (e : Edit) : Prop := e.KeepsRows ∧ e.describes? = none

theorem Fits.reply (h : Fits t s) (q : Call) (r : Reply) : Fits (t.reply q r) s :=
  ⟨h.keepsRows, h.locked, h.placed⟩

theorem Fits.write_undescribing (h : Fits t s) (he : e.Undescribing) : Fits (t.write e) s := by
  refine h.write he.1 fun id hid => ?_
  rw [he.2] at hid
  cases hid

theorem updateStock_emits {P : Edit → Prop} {q : ℤ} (hnothing : P .nothing)
    (hupdate : P (.inventoryUpdate k q)) (hupsert : P (.warehouseInventoryUpsert k q)) :
    (updateStock k q).Emits P := by
  refine Emits.bind (emits_perform fun s e he => ?_) fun _ => emits_perform fun s e he => ?_
  · rcases Statement.eq_of_updateInventory he with rfl | rfl
    · exact hupdate
    · exact hnothing
  · obtain ⟨-, rfl⟩ := Statement.upsertWarehouseInventory_eq_ok.mp he
    exact hupsert

theorem updateStock_undescribing {q : ℤ} : (updateStock k q).Emits Edit.Undescribing :=
  updateStock_emits ⟨trivial, rfl⟩ ⟨trivial, rfl⟩ ⟨trivial, rfl⟩

theorem insertInventory_undescribing {q : ℤ} :
    (perform (Statement.insertInventory k q) : Sql Unit).Emits Edit.Undescribing := by
  refine emits_perform fun s e he => ?_
  obtain ⟨-, -, rfl⟩ := Statement.insertInventory_eq_ok.mp he
  exact ⟨trivial, rfl⟩

theorem createStock_undescribing {q : ℤ} : (createStock k q).Emits Edit.Undescribing := by
  refine insertInventory_undescribing.bind fun _ => emits_perform fun s e he => ?_
  obtain ⟨-, rfl⟩ := Statement.upsertWarehouseInventory_eq_ok.mp he
  exact ⟨trivial, rfl⟩

theorem recordMovement_undescribing {m : InventoryMovement} (hm : m.type ≠ .orderReservation) :
    (recordMovement m).Emits Edit.Undescribing := by
  refine emits_perform fun s e he => ?_
  obtain ⟨-, -, rfl⟩ := Statement.insertInventoryMovement_eq_ok.mp he
  exact ⟨trivial, if_neg hm⟩

/-- A program that writes such edits only. -/
theorem triple_undescribing {α : Type} {p : Sql α} (hp : p.Emits Edit.Undescribing) :
    (orderContract rs).Triple (ordersAscend rs) Fits p fun _ => Fits := by
  intro t s hs h
  refine wp_of_emits (fun t s => (orderContract rs).inv s ∧ Fits t s) hp ?_ ?_ ?_ ?_ ?_ ⟨hs, h⟩
  · intro t s s' h hr
    exact ⟨hr.inv, Fits.stable t s s' h.1 h.2 hr⟩
  · intro t s key h
    exact ⟨h.1, h.2.lock key⟩
  · intro t s e h he _
    exact ⟨h.1, h.2.write_undescribing he⟩
  · intro t s q r h
    exact ⟨h.1, h.2.reply q r⟩
  · intro a t s h
    exact h.2

/-! ### Transfers -/

variable {tenantId userId orderId : Uuid} {reason : Option String}

/-- Rows of one variant are sorted as their warehouses are. -/
theorem lockText_lt {v w w' : Uuid} (h : w < w') :
    (⟨tenantId, v, w⟩ : StockKey).lockText < (⟨tenantId, v, w'⟩ : StockKey).lockText := by
  rw [String.lt_iff_toList_lt] at h ⊢
  simp only [StockKey.lockText, String.toList_append, List.append_assoc]
  exact List.Lex.append_left _ (List.Lex.append_left _ h _) _

theorem RowsLocked.fits {β : Type} {key : β → StockKey} (h : RowsLocked key [] t s) : Fits t s := by
  obtain ⟨hedits, -⟩ := h
  exact ⟨by simp [hedits], by simp [hedits], by simp [hedits]⟩

/-- A program without locks that describes no order. -/
theorem ascent_undescribing {α : Type} {p : Sql α} (hlocks : p.LocksNothing)
    (hp : p.Emits Edit.Undescribing) :
    (orderContract rs).Ascent Key.lockText (ordersAscend rs) Fits p fun _ => Fits :=
  Triple.ascent climbs_of_ordersAscend hlocks (triple_undescribing hp)

theorem updateStock_locksNothing {q : ℤ} : (updateStock k q).LocksNothing :=
  (locksNothing_perform _).bind fun _ => locksNothing_perform _

theorem ascent_query_start {α β : Type} {q : Db → β} {f : β → Sql α}
    {Q : α → Transaction sales → Db → Prop}
    (hf : ∀ b, (orderContract rs).Ascent Key.lockText (ordersAscend rs) (fun t _ => t = {})
      (f b) Q) :
    (orderContract rs).Ascent Key.lockText (ordersAscend rs) (fun t _ => t = {})
      (query q >>= f) Q :=
  Ascent.query_bind (fun _ _ _ _ h _ => h) (fun _ _ _ h => h) hf

theorem ascent_transferRows {source dest : StockKey} {body : TransferBody}
    (htenant : source.tenantId = dest.tenantId)
    (hvariant : source.productVariantId = dest.productVariantId) :
    (orderContract rs).Ascent Key.lockText (ordersAscend rs) (fun t _ => t = {})
      (transferRows userId source dest body) fun _ => Fits := by
  obtain ⟨tenantId, v, w⟩ := source
  obtain ⟨tenantId', v', w'⟩ := dest
  obtain rfl : tenantId = tenantId' := htenant
  obtain rfl : v = v' := hvariant
  -- the two rows are locked in the order of their warehouses
  have hsorted : (if w ≤ w' then [⟨tenantId, v, w⟩, ⟨tenantId, v, w'⟩]
      else [⟨tenantId, v, w'⟩, ⟨tenantId, v, w⟩] : List StockKey).Pairwise fun x y =>
        x = y ∨ x.lockText < y.lockText := by
    split_ifs with hle
    · rcases eq_or_lt_of_le hle with rfl | hlt
      · exact List.pairwise_pair.mpr (.inl rfl)
      · exact List.pairwise_pair.mpr (.inr (lockText_lt hlt))
    · exact List.pairwise_pair.mpr (.inr (lockText_lt (not_le.mp hle)))
  unfold transferRows
  refine (ascent_lockRows id hsorted).bind fun _ => ?_
  refine (ascent_undescribing ?_ ?_).pre fun t s _ h => h.fits
  · -- what follows takes no lock
    refine (ReadsOnly.query _).locksNothing.bind fun sourceRows => ?_
    refine (ReadsOnly.query _).locksNothing.bind fun destRows => ?_
    refine (ReadsOnly.require _ _).locksNothing.bind fun _ => ?_
    refine LocksNothing.bind ?_ fun _ => LocksNothing.bind ?_ fun _ => ?_
    · split
      · exact updateStock_locksNothing
      · exact locksNothing_perform _
    · split
      · exact updateStock_locksNothing
      · exact (locksNothing_perform _).bind fun _ => locksNothing_perform _
    · exact (locksNothing_perform _).bind fun _ => (locksNothing_perform _).bind fun _ => trivial
  · -- and writes neither orders nor what describes them
    refine (ReadsOnly.query _).emits.bind fun sourceRows => ?_
    refine (ReadsOnly.query _).emits.bind fun destRows => ?_
    refine (ReadsOnly.require _ _).emits.bind fun _ => ?_
    refine Emits.bind ?_ fun _ => Emits.bind ?_ fun _ => ?_
    · split
      · exact updateStock_undescribing
      · exact insertInventory_undescribing
    · split
      · exact updateStock_undescribing
      · exact createStock_undescribing
    · refine (recordMovement_undescribing (by simp [transferMovement])).bind fun _ => ?_
      exact (recordMovement_undescribing (by simp [transferMovement])).bind fun _ => trivial

/-- A transfer locks its two rows in order. -/
theorem ascent_transfer {body : TransferBody} :
    (orderContract rs).Ascent Key.lockText (ordersAscend rs) (fun t _ => t = {})
      (InventoryService.transfer tenantId userId body) fun _ => Fits := by
  refine Ascent.orRaise_bind fun variantId _ => Ascent.orRaise_bind fun sourceId _ => ?_
  refine Ascent.orRaise_bind fun destId _ => Ascent.require_bind fun _ => ?_
  refine Ascent.require_bind fun _ => ?_
  refine ascent_query_start fun variant => Ascent.require_bind fun _ => ?_
  refine ascent_query_start fun sourceWarehouse => Ascent.require_bind fun _ => ?_
  refine ascent_query_start fun destWarehouse => Ascent.require_bind fun _ => ?_
  exact ascent_transferRows rfl rfl

/-! ### Creations -/

/-- The transaction has not placed the order `id`. -/
def Unplaced (id : Uuid) (t : Transaction sales) (s : Db) : Prop :=
  Fits t s ∧ ∀ e ∈ t.edits, Key.order id ∉ e.footprint

/-- The transaction places the order `id`. -/
def Places (id : Uuid) (t : Transaction sales) (s : Db) : Prop :=
  Fits t s ∧ Key.order id ∈ t.held ∧ s.orders.lookup id = none

theorem Unplaced.stable : (orderContract rs).Stable (Unplaced id) :=
  fun t s s' hs h hr => ⟨Fits.stable t s s' hs h.1 hr, h.2⟩

theorem Places.stable : (orderContract rs).Stable (Places id) :=
  fun t s s' hs h hr => ⟨Fits.stable t s s' hs h.1 hr, h.2.1, hr.agree _ h.2.1 id rfl h.2.2⟩

/-- Before the order is placed. -/
theorem triple_unplaced {α : Type} {p : Sql α}
    (hp : p.Emits fun e => e.Undescribing ∧ Key.order id ∉ e.footprint) :
    (orderContract rs).Triple (ordersAscend rs) (Unplaced id) p fun _ => Unplaced id := by
  intro t s hs h
  refine wp_of_emits (fun t s => (orderContract rs).inv s ∧ Unplaced id t s) hp ?_ ?_ ?_ ?_ ?_
    ⟨hs, h⟩
  · intro t s s' h hr
    exact ⟨hr.inv, Unplaced.stable t s s' h.1 h.2 hr⟩
  · intro t s key h
    exact ⟨h.1, h.2.1.lock key, h.2.2⟩
  · intro t s e h he _
    refine ⟨h.1, h.2.1.write_undescribing he.1, ?_⟩
    exact List.forall_mem_append.mpr ⟨h.2.2, by simpa using he.2⟩
  · intro t s q r h
    exact ⟨h.1, h.2.1.reply q r, h.2.2⟩
  · intro a t s h
    exact h.2

/-- Once the order is placed, lines and reservations are added to it. -/
theorem triple_places {α : Type} {p : Sql α}
    (hp : p.Emits fun e => e.KeepsRows ∧ ∀ id', e.describes? = some id' → id' = id) :
    (orderContract rs).Triple (ordersAscend rs) (Places id) p fun _ => Places id := by
  intro t s hs h
  refine wp_of_emits (fun t s => (orderContract rs).inv s ∧ Places id t s) hp ?_ ?_ ?_ ?_ ?_
    ⟨hs, h⟩
  · intro t s s' h hr
    exact ⟨hr.inv, Places.stable t s s' h.1 h.2 hr⟩
  · intro t s key h
    exact ⟨h.1, h.2.1.lock key, List.mem_cons_of_mem _ h.2.2.1, h.2.2.2⟩
  · intro t s e h he _
    refine ⟨h.1, h.2.1.write he.1 fun id' hid => ?_, List.mem_append_right _ h.2.2.1, h.2.2.2⟩
    obtain rfl := he.2 id' hid
    exact h.2.2
  · intro t s q r h
    exact ⟨h.1, h.2.1.reply q r, h.2.2⟩
  · intro a t s h
    exact h.2

/-- `order.create` finds no such order, and nobody else can place it then. -/
theorem triple_placeOrder {row : Order} :
    (orderContract rs).Triple (ordersAscend rs) (Unplaced id)
      (perform (Statement.insertOrder id row)) fun _ => Places id := by
  refine Triple.perform Unplaced.stable Places.stable fun t s e _ h he _ => ?_
  obtain ⟨hnone, rfl⟩ := Statement.insertOrder_eq_ok he
  have hview : (t.view s).orders.lookup id = s.orders.lookup id :=
    replay_induction (f := fun s => s.orders.lookup id) (fun _ _ he => orders_apply he) h.2 s
  rw [hview] at hnone
  exact ⟨h.1.write_undescribing ⟨trivial, rfl⟩, by simp [Edit.footprint], hnone⟩

/-- Two texts of ids of the same length are the same only for the same row. -/
theorem stockKey_eq_of_lockText {v v' w w' : Uuid} (hlength : v.length = v'.length)
    (h : (⟨tenantId, v, w⟩ : StockKey).lockText = (⟨tenantId, v', w'⟩ : StockKey).lockText) :
    (⟨tenantId, v, w⟩ : StockKey) = ⟨tenantId, v', w'⟩ := by
  have hlist := congrArg String.toList h
  simp only [StockKey.lockText, String.toList_append, List.append_assoc] at hlist
  obtain ⟨hv, hrest⟩ := List.append_inj hlist
    (String.length_toList.trans (hlength.trans String.length_toList.symm))
  have hw := List.append_cancel_left hrest
  rw [String.toList_inj.mp hv, String.toList_inj.mp hw]

/-- The lines in the order in which their rows are locked. -/
theorem lockKeys_sorted {items : List ItemCalculation}
    (huuid : ∀ it ∈ items, it.productVariantId.length = 36) :
    (items.insertionSort fun a b => a.productVariantId ++ "-" ++ a.warehouseId ≤
      b.productVariantId ++ "-" ++ b.warehouseId).Pairwise fun a b =>
        a.stockKey tenantId = b.stockKey tenantId ∨
          (a.stockKey tenantId).lockText < (b.stockKey tenantId).lockText := by
  have hsorted := List.pairwise_insertionSort (fun a b : ItemCalculation =>
    a.productVariantId ++ "-" ++ a.warehouseId ≤ b.productVariantId ++ "-" ++ b.warehouseId) items
  refine hsorted.imp_of_mem fun {a b} ha hb hle => ?_
  rcases eq_or_lt_of_le hle with heq | hlt
  · left
    apply stockKey_eq_of_lockText _ heq
    rw [huuid a ((List.mem_insertionSort _).mp ha), huuid b ((List.mem_insertionSort _).mp hb)]
  · exact .inr hlt

theorem priced_uuids {items : List ItemInput} {calculations : List ItemCalculation}
    (h : Priced items calculations) (hitems : ∀ item ∈ items, item.resolvedVariantId.length = 36) :
    ∀ it ∈ calculations, it.productVariantId.length = 36 := by
  induction h with
  | nil => simp
  | cons hitem _ ih =>
    intro it hit
    rcases List.mem_cons.mp hit with rfl | hit
    · rw [hitem.variant]
      exact hitems _ List.mem_cons_self
    · exact ih (fun item h => hitems item (List.mem_cons_of_mem _ h)) it hit

theorem counter_emits {financialYear : String} : (nextInvoiceNumber tenantId financialYear).Emits
    fun e => e.Undescribing ∧ Key.order id ∉ e.footprint := by
  intro s e he
  obtain rfl := Except.ok.inj he
  exact ⟨⟨⟨trivial, rfl⟩, by simp [Edit.footprint]⟩, trivial⟩

/-- After the locks: the deductions, the counter, the order and what describes it. -/
theorem ascent_created {env : Environment} {d : OrderDraft} :
    (orderContract rs).Ascent Key.lockText (ordersAscend rs) (Unplaced orderId) (do
      forM d.items (reserveItem tenantId)
      let invoiceSeq ← nextInvoiceNumber tenantId env.financialYear
      let order := orderRow env tenantId d invoiceSeq
      perform (Statement.insertOrder orderId order)
      forM d.items fun it => record (.orderItemInsert (orderItemRow tenantId orderId it))
      forM d.items (recordReservation tenantId userId orderId)
      record (.orderStatusHistoryInsert
        (historyRow tenantId orderId userId none .pending (some "Order created")))
      (return () : Sql Unit)
      query fun s => s.orders.lookup orderId : Sql (Option Order)) fun _ => Fits := by
  refine Triple.ascent climbs_of_ordersAscend ?_ ?_
  · -- no statement takes a lock
    refine (LocksNothing.forM fun it => ?_).bind fun _ => ?_
    · refine (ReadsOnly.query _).locksNothing.bind fun rows => ?_
      refine (ReadsOnly.require _ _).locksNothing.bind fun _ => ?_
      exact (ReadsOnly.require _ _).locksNothing.bind fun _ => updateStock_locksNothing
    refine LocksNothing.bind (fun e => ?_) fun n => (locksNothing_perform _).bind fun _ => ?_
    · cases e <;> trivial
    refine (LocksNothing.forM fun it => locksNothing_perform _).bind fun _ => ?_
    refine (LocksNothing.forM fun it => ?_).bind fun _ => (locksNothing_perform _).bind fun _ => ?_
    · refine (ReadsOnly.query _).locksNothing.bind fun rows => ?_
      exact (ReadsOnly.orRaise _ _).locksNothing.bind fun _ => locksNothing_perform _
    · exact (ReadsOnly.query _).locksNothing
  · -- until the order is inserted nothing describes it; what is written then fits it
    refine (triple_unplaced (Emits.forM fun it _ => ?_)).bind fun _ => ?_
    · refine (ReadsOnly.query _).emits.bind fun rows => (ReadsOnly.require _ _).emits.bind
        fun _ => (ReadsOnly.require _ _).emits.bind fun _ => ?_
      exact updateStock_emits ⟨⟨trivial, rfl⟩, by simp [Edit.footprint]⟩
        ⟨⟨trivial, rfl⟩, by simp [Edit.footprint]⟩ ⟨⟨trivial, rfl⟩, by simp [Edit.footprint]⟩
    refine (triple_unplaced counter_emits).bind fun n => triple_placeOrder.bind fun _ => ?_
    refine (triple_places (Emits.bind (Emits.forM fun it _ => emits_perform fun s e he => ?_)
      fun _ => Emits.bind (Emits.forM fun it _ => ?_) fun _ =>
        Emits.bind (emits_perform fun s e he => ?_) fun _ => ?_)).post fun _ t s h => h.1
    · obtain rfl := Except.ok.inj he
      exact ⟨trivial, fun id' hid => (Option.some.inj hid).symm⟩
    · refine (ReadsOnly.query _).emits.bind fun rows => (ReadsOnly.orRaise _ _).emits.bind
        fun afterQty => emits_perform fun s e he => ?_
      obtain ⟨-, -, rfl⟩ := Statement.insertInventoryMovement_eq_ok.mp he
      exact ⟨trivial, fun id' hid => (Option.some.inj hid).symm⟩
    · obtain rfl := Except.ok.inj he
      exact ⟨trivial, fun id' hid => by cases hid⟩
    · exact (ReadsOnly.query _).emits

/-- An order locks the rows of its lines in order. -/
theorem ascent_create {env : Environment} {body : CreateBody}
    (hbody : ∀ item ∈ body.items, item.resolvedVariantId.length = 36) :
    (orderContract rs).Ascent Key.lockText (ordersAscend rs) (fun t _ => t = {})
      (OrderService.create env tenantId userId orderId body) fun _ => Fits := by
  refine (Ascent.readsOnly (prepare_readsOnly env tenantId body)
    (prepare_returns env tenantId body) fun _ _ _ _ h _ => h).bind fun d => ?_
  refine Ascent.of_and fun ⟨_, hdrafted⟩ => ?_
  refine (ascent_lockRows _ (lockKeys_sorted (priced_uuids hdrafted.priced hbody))).bind
    fun _ => ?_
  refine ascent_created.pre fun t s _ h => ⟨h.fits, ?_⟩
  obtain ⟨hedits, -⟩ := h
  simp [hedits]

end PulseOps
