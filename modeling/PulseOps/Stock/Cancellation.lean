import PulseOps.Stock.Consistency

/-!
# Cancelling undoes creating

`create` writes one reservation movement a line. `cancel` walks the lines of the order and
restores, for each of them, every reservation movement of its variant. So a cancellation
restores a line once for every line of the same variant: it is the inverse of the creation
exactly when no variant stands on two lines.

## Main definitions

* `lineQuantity` — what the lines of a request take from one stock row.
* `RestoresLines` — a cancellation that gives back what the lines took, and nothing else.
* `Placed` — the lines and reservations of an order, as `create` left them.

## Main results

* `Placed.effect` — no request but the deletion of a warehouse touches them.
* `quantity_cancel` — what a cancellation restores.
-/

set_option autoImplicit false

open ReadCommitted Program

namespace PulseOps

open OrderService InventoryService

variable {s : Db} {es : List Edit} {k : StockKey} {answer : Call → Reply}
  {tenantId userId orderId : Uuid}

/-! ### The lines of an order -/

/-- The stock row a line of the request sells from. -/
def OrderService.ItemInput.stockKey (it : ItemInput) (tenantId : Uuid) : StockKey :=
  ⟨tenantId, it.resolvedVariantId, it.warehouseId⟩

/-- What the lines of a request take from the stock row `k`. -/
def lineQuantity (tenantId : Uuid) (items : List ItemInput) (k : StockKey) : ℤ :=
  ((items.filter (·.stockKey tenantId = k)).map (·.quantity)).sum

/-- From `s` to `s'` every stock row gets back what the lines took from it, and the rows
they took nothing from stay as they were. -/
def RestoresLines (tenantId : Uuid) (items : List ItemInput) (s s' : Db) : Prop :=
  (∀ k, s'.quantity k = s.quantity k + lineQuantity tenantId items k) ∧
    ∀ k, (∀ it ∈ items, it.stockKey tenantId ≠ k) →
      s'.inventory.lookup k = s.inventory.lookup k

theorem lineQuantity_cons (it : ItemInput) (items : List ItemInput) :
    lineQuantity tenantId (it :: items) k =
      (if it.stockKey tenantId = k then it.quantity else 0) +
        lineQuantity tenantId items k := by
  by_cases hk : it.stockKey tenantId = k <;> simp [lineQuantity, hk]

theorem lineQuantity_nonneg (tenantId : Uuid) (k : StockKey) {items : List ItemInput}
    (h : ∀ it ∈ items, 0 < it.quantity) :
    0 ≤ lineQuantity tenantId items k := by
  induction items with
  | nil => exact le_rfl
  | cons it items ih =>
    have hit := h it (by simp)
    have hrest := ih fun it' hit' => h it' (by simp [hit'])
    rw [lineQuantity_cons]
    split <;> omega

/-- A row that no line sells from. -/
theorem lineQuantity_eq_zero {items : List ItemInput}
    (h : ∀ it ∈ items, it.stockKey tenantId ≠ k) : lineQuantity tenantId items k = 0 := by
  have hnil : items.filter (·.stockKey tenantId = k) = [] := by
    simpa [List.filter_eq_nil_iff] using h
  simp [lineQuantity, hnil]

theorem lineQuantity_pos (tenantId : Uuid) {items : List ItemInput}
    (h : ∀ it ∈ items, 0 < it.quantity) {it : ItemInput} (hit : it ∈ items) :
    0 < lineQuantity tenantId items (it.stockKey tenantId) := by
  induction items with
  | nil => simp at hit
  | cons it' items ih =>
    have hpos := h it' (by simp)
    have hrest : ∀ x ∈ items, 0 < x.quantity := fun x hx => h x (by simp [hx])
    rw [lineQuantity_cons]
    rcases List.mem_cons.mp hit with rfl | hit
    · have := lineQuantity_nonneg tenantId (it.stockKey tenantId) hrest
      rw [if_pos rfl]
      omega
    · have := ih hrest hit
      split <;> omega

/-! ### An order as it was placed -/

/-- The lines of the order `orderId` and their reservation movements are those of the
request `items`. -/
structure Placed (tenantId orderId : Uuid) (items : List ItemInput) (s : Db) : Prop where
  positive : ∀ it ∈ items, 0 < it.quantity
  order : ∃ row, s.orders.lookup orderId = some row ∧ row.tenantId = tenantId
  lines : (s.orderItems.filter (·.orderId = orderId)).map (·.productVariantId) =
    items.map (·.resolvedVariantId)
  reserved : ∀ v, (reservations tenantId orderId v s).map
    (fun m => (m.warehouseId, m.quantityChanged)) =
      (items.filter (·.resolvedVariantId = v)).map fun it => (it.warehouseId, -it.quantity)

theorem priced_eq {items : List ItemInput} {calculations : List ItemCalculation}
    (h : Priced items calculations) (v : Uuid) :
    (calculations.filter (·.productVariantId = v)).map
        (fun it => (it.warehouseId, -it.quantity)) =
      (items.filter (·.resolvedVariantId = v)).map fun it => (it.warehouseId, -it.quantity) := by
  induction h with
  | nil => rfl
  | @cons item it _ _ hx _ ih =>
    by_cases hv : item.resolvedVariantId = v
    · have hv' : it.productVariantId = v := hx.variant.trans hv
      simp [hv, hv', ih, hx.warehouse, hx.quantity]
    · have hv' : it.productVariantId ≠ v := fun h => hv (hx.variant.symm.trans h)
      simp [hv, hv', ih]

theorem priced_variants {items : List ItemInput} {calculations : List ItemCalculation}
    (h : Priced items calculations) :
    calculations.map (·.productVariantId) = items.map (·.resolvedVariantId) := by
  induction h with
  | nil => rfl
  | cons hx _ ih => simp [hx.variant, ih]

theorem priced_input_positive {items : List ItemInput} {calculations : List ItemCalculation}
    (h : Priced items calculations) : ∀ it ∈ items, 0 < it.quantity := by
  induction h with
  | nil => simp
  | cons hx _ ih =>
    intro it hit
    rcases List.mem_cons.mp hit with rfl | hit
    · rw [← hx.quantity]
      exact hx.positive
    · exact ih it hit

/-- Movements of another order, or of another type, are no reservations of this one. -/
private theorem reservations_append {s' : Db} {rows : List InventoryMovement}
    (h : s'.inventoryMovements = s.inventoryMovements ++ rows)
    (hrows : ∀ m ∈ rows, m.type = .orderReservation → m.referenceId ≠ some orderId) (v : Uuid) :
    reservations tenantId orderId v s' = reservations tenantId orderId v s := by
  have hnone : rows.filter (fun m => m.tenantId = tenantId ∧ m.productVariantId = v ∧
      m.referenceType = some "ORDER" ∧ m.referenceId = some orderId ∧
      m.type = .orderReservation) = [] := by
    rw [List.filter_eq_nil_iff]
    intro m hm
    have := hrows m hm
    simp only [decide_eq_true_eq]
    rintro ⟨-, -, -, hid, htype⟩
    exact this htype hid
  simp only [reservations, h, List.filter_append, hnone, List.append_nil]

/-- `create` places its order. -/
theorem placed_of_create {env : Environment} {body : CreateBody} {r : Option Order}
    (hs : s.Consistent)
    (h : Runs answer (create env tenantId userId orderId body) s r es) :
    Placed tenantId orderId body.items (sales.replay es s) := by
  obtain ⟨d, n, ws, es', u, hpriced, hws, hfresh, hin, rfl⟩ := runs_create h
  obtain ⟨-, rfl⟩ := runs_ret.mp hin
  rw [List.append_nil, replay_placedEdits hws]
  refine ⟨priced_input_positive hpriced, ⟨_, AList.lookup_insert _, rfl⟩, ?_, fun v => ?_⟩
  · have hnone : s.orderItems.filter (·.orderId = orderId) = [] := by
      rw [List.filter_eq_nil_iff]
      intro it hit hid
      have hsome := (hs.orders.line it hit).2
      rw [of_decide_eq_true hid, hfresh] at hsome
      simp at hsome
    have hall : (d.items.map (orderItemRow tenantId orderId)).filter (·.orderId = orderId) =
        d.items.map (orderItemRow tenantId orderId) := by
      rw [List.filter_eq_self]
      intro it hit
      obtain ⟨it', -, rfl⟩ := List.mem_map.mp hit
      simp [orderItemRow]
    rw [List.filter_append, hnone, hall, List.nil_append, List.map_map,
      ← priced_variants hpriced]
    rfl
  · -- the order is new, so nothing was reserved for it before
    have hnone : reservations tenantId orderId v s = [] := by
      rw [reservations, List.filter_eq_nil_iff]
      intro m hm hres
      simp only [decide_eq_true_eq] at hres
      obtain ⟨-, -, -, hid, htype⟩ := hres
      obtain ⟨-, -, id, row, hid', hrow, -⟩ := hs.orders.reservation m hm htype
      obtain rfl : orderId = id := Option.some.inj (hid.symm.trans hid')
      rw [hfresh] at hrow
      simp at hrow
    rw [← priced_eq hpriced v, reservations, List.filter_append]
    rw [reservations] at hnone
    rw [hnone, List.nil_append, List.filter_map, List.map_map]
    congr 1
    refine List.filter_congr fun it _ => ?_
    simp [reservationRow]

/-- Requests that delete no warehouse. -/
def StockRequest.KeepsWarehouses : StockRequest → Prop
  | .deleteWarehouse _ _ => False
  | _ => True

variable {items : List ItemInput}

private theorem Placed.frame {s' : Db} (hp : Placed tenantId orderId items s)
    (ho : s'.orders = s.orders) (hi : s'.orderItems = s.orderItems)
    {rows : List InventoryMovement}
    (hm : s'.inventoryMovements = s.inventoryMovements ++ rows)
    (hrows : ∀ m ∈ rows, m.type ≠ .orderReservation) : Placed tenantId orderId items s' where
  positive := hp.positive
  order := by
    rw [ho]
    exact hp.order
  lines := by
    rw [hi]
    exact hp.lines
  reserved v := by
    rw [reservations_append hm (fun m hmem htype => absurd htype (hrows m hmem))]
    exact hp.reserved v

private theorem Placed.statusEdits {id : Uuid} {status : OrderStatus}
    {reason : Option String} (hp : Placed tenantId orderId items s) (order : OrderWithItems)
    (hrow : s.orders.lookup id = some order.row)
    {tenantId' : Uuid} :
    Placed tenantId orderId items
      (sales.replay (statusEdits id tenantId' userId order.row status reason) s) where
  positive := hp.positive
  order := by
    obtain ⟨row, horder, htenant⟩ := hp.order
    by_cases hid : orderId = id
    · subst hid
      obtain rfl : row = order.row := Option.some.inj (horder.symm.trans hrow)
      exact ⟨_, AList.lookup_insert _, htenant⟩
    · exact ⟨row, (AList.lookup_insert_ne hid).trans horder, htenant⟩
  lines := hp.lines
  reserved := hp.reserved

/-- No request but the deletion of a warehouse touches an order's lines and
reservations. -/
theorem Placed.effect {r : StockRequest} (hp : Placed tenantId orderId items s)
    (h : StockEffect s r es) (hr : r.KeepsWarehouses) :
    Placed tenantId orderId items (sales.replay es s) := by
  cases h with
  | @create env tenantId' userId' orderId' body d n ws hpriced hws hfresh =>
    -- the order is there already, so it is another one that is created
    obtain ⟨row, horder, htenant⟩ := hp.order
    have hne : orderId ≠ orderId' := by
      rintro rfl
      rw [hfresh] at horder
      simp at horder
    rw [replay_placedEdits hws]
    refine ⟨hp.positive, ⟨row, (AList.lookup_insert_ne hne).trans horder, htenant⟩, ?_, ?_⟩
    · have hnone : (d.items.map (orderItemRow tenantId' orderId')).filter
          (·.orderId = orderId) = [] := by
        rw [List.filter_eq_nil_iff]
        intro it hit
        obtain ⟨it', -, rfl⟩ := List.mem_map.mp hit
        simpa [orderItemRow] using hne.symm
      rw [List.filter_append, hnone, List.append_nil]
      exact hp.lines
    · intro v
      rw [reservations_append rfl]
      · exact hp.reserved v
      · intro m hm _
        obtain ⟨it, -, rfl⟩ := List.mem_map.mp hm
        simpa [reservationRow] using hne.symm
  | updateStatus horder hvalid => exact hp.statusEdits _ (findById_eq_some.mp horder).1
  | @cancel id tenantId' userId' reason order rss es₁ horder hstatus hitems hrss =>
    obtain ⟨_, _, rows, hstate, -, htype⟩ := hrss.replay
    rw [Database.replay_append]
    refine Placed.statusEdits ?_ order ?_
    · rw [hstate]
      exact hp.frame rfl rfl rfl fun m hm => by simp [(htype m hm).1]
    · rw [hstate]
      exact (findById_eq_some.mp horder).1
  | adjust hnonneg hws =>
    rw [Database.replay_append, hws.replay]
    exact hp.frame rfl rfl rfl (by simp [adjustmentRow])
  | transfer hne hpos hle hws hws' hnonneg =>
    rw [Database.replay_append, Database.replay_append, hws.replay, hws'.replay]
    refine hp.frame rfl rfl (List.append_assoc _ _ _) ?_
    simp [transferMovement]
  | deleteWarehouse => exact hr.elim

/-! ### What a cancellation restores -/

/-- The releases of one line give back every line of its variant. -/
private theorem restored_of_lines (v : Uuid) (rows : List (Uuid × ℤ))
    (hrows : rows = (items.filter (·.resolvedVariantId = v)).map
      fun it => (it.warehouseId, -it.quantity))
    (hpos : ∀ it ∈ items, 0 < it.quantity) (k : StockKey) :
    restored (rows.map fun x => ⟨⟨tenantId, v, x.1⟩, |x.2|, true⟩) k =
      if v = k.productVariantId then lineQuantity tenantId items k else 0 := by
  subst hrows
  induction items with
  | nil => simp [lineQuantity]
  | cons it items ih =>
    have hit := hpos it (by simp)
    have habs : |(-it.quantity)| = it.quantity := by rw [abs_neg, abs_of_pos hit]
    have ih := ih fun it' hit' => hpos it' (by simp [hit'])
    -- a line of another variant adds nothing on either side
    by_cases hv : it.resolvedVariantId = v
    · rw [List.filter_cons_of_pos (by simpa using hv), List.map_cons, List.map_cons,
        restored_cons, ih, lineQuantity_cons]
      simp only [habs, ItemInput.stockKey, hv]
      by_cases hk : v = k.productVariantId
      · rw [if_pos hk, if_pos hk]
      · have hne : (⟨tenantId, v, it.warehouseId⟩ : StockKey) ≠ k := by
          rintro rfl
          exact hk rfl
        rw [if_neg hne, if_neg hk, if_neg hk, add_zero]
    · rw [List.filter_cons_of_neg (by simpa using hv), ih, lineQuantity_cons]
      by_cases hk : v = k.productVariantId
      · have hne : it.stockKey tenantId ≠ k := by
          rintro rfl
          exact hv hk.symm
        rw [if_pos hk, if_pos hk, if_neg hne, zero_add]
      · rw [if_neg hk, if_neg hk]

theorem restored_releasesOf (hp : Placed tenantId orderId items s) (item : OrderItem)
    (k : StockKey) :
    restored (releasesOf tenantId orderId s item) k =
      if item.productVariantId = k.productVariantId then lineQuantity tenantId items k
      else 0 := by
  rw [← restored_of_lines item.productVariantId _ (hp.reserved item.productVariantId)
    hp.positive k, List.map_map]
  rfl

/-- Every line of a placed order has a reservation movement. -/
theorem Placed.itemReleases (hp : Placed tenantId orderId items s) {item : OrderItem}
    (hitem : item ∈ s.orderItems.filter (·.orderId = orderId)) {rs : List Release}
    (h : ItemReleases tenantId orderId s item rs) :
    rs = releasesOf tenantId orderId s item := by
  have hsome : reservations tenantId orderId item.productVariantId s ≠ [] := by
    have hmem : item.productVariantId ∈ items.map (·.resolvedVariantId) := by
      rw [← hp.lines]
      exact List.mem_map_of_mem hitem
    obtain ⟨it, hit, hv⟩ := List.mem_map.mp hmem
    intro hnil
    have hres := hp.reserved item.productVariantId
    rw [hnil, List.map_nil, eq_comm, List.map_eq_nil_iff, List.filter_eq_nil_iff] at hres
    exact hres it hit (by simpa using hv)
  cases h with
  | reserved _ => rfl
  | nowhere hnone _ => exact absurd hnone hsome
  | fallback hnone _ _ _ => exact absurd hnone hsome

/-- All lines together: once for every line of the variant. -/
private theorem restored_flatten (hp : Placed tenantId orderId items s)
    {lines : List OrderItem} {rss : List (List Release)}
    (hlines : ∀ item ∈ lines, item ∈ s.orderItems.filter (·.orderId = orderId))
    (h : List.Forall₂ (ItemReleases tenantId orderId s) lines rss) (k : StockKey) :
    restored rss.flatten k =
      (lines.map (·.productVariantId)).count k.productVariantId *
        lineQuantity tenantId items k := by
  induction h with
  | nil => simp
  | @cons item rs lines rss hitem _ ih =>
    rw [List.flatten_cons, restored_append, ih fun x hx => hlines x (by simp [hx]),
      hp.itemReleases (hlines item (by simp)) hitem, restored_releasesOf hp, List.map_cons,
      List.count_cons]
    by_cases hv : item.productVariantId = k.productVariantId
    · simp only [hv, ↓reduceIte, beq_self_eq_true, Nat.cast_add, Nat.cast_one]
      ring
    · simp [hv]

/-- A cancellation restores every line once for every line of the same variant. -/
theorem quantity_cancel (hp : Placed tenantId orderId items s) {tenantId' : Uuid}
    {reason : Option String} {r : Option OrderWithItems}
    (h : Runs answer (cancel orderId tenantId' userId reason) s r es) (k : StockKey) :
    (sales.replay es s).quantity k = s.quantity k +
      (items.map (·.resolvedVariantId)).count k.productVariantId *
        lineQuantity tenantId items k := by
  obtain ⟨order, rss, es₁, horder, -, hitems, hrss, rfl⟩ := runs_cancel h
  obtain ⟨hrow, htenant, hlines⟩ := findById_eq_some.mp horder
  obtain ⟨row, hrow', htenant'⟩ := hp.order
  obtain rfl : order.row = row := Option.some.inj (hrow.symm.trans hrow')
  obtain rfl : tenantId = tenantId' := htenant'.symm.trans htenant
  rw [← hp.lines, ← hlines, ← restored_flatten hp (by simp [hlines]) hitems k,
    ← hrss.quantity k, Database.replay_append]
  rfl

/-- A cancellation touches the rows of the lines only. -/
theorem lookup_cancel (hp : Placed tenantId orderId items s) {tenantId' : Uuid}
    {reason : Option String} {r : Option OrderWithItems}
    (h : Runs answer (cancel orderId tenantId' userId reason) s r es)
    (hk : ∀ it ∈ items, it.stockKey tenantId ≠ k) :
    (sales.replay es s).inventory.lookup k = s.inventory.lookup k := by
  obtain ⟨order, rss, es₁, horder, -, hitems, hrss, rfl⟩ := runs_cancel h
  obtain ⟨hrow, htenant, hlines⟩ := findById_eq_some.mp horder
  obtain ⟨row, hrow', htenant'⟩ := hp.order
  obtain rfl : order.row = row := Option.some.inj (hrow.symm.trans hrow')
  obtain rfl : tenantId = tenantId' := htenant'.symm.trans htenant
  have hkeys : ∀ r ∈ rss.flatten, r.key ≠ k := by
    refine forall_mem_flatten hitems fun item hitem rs hrs r hr => ?_
    rw [hlines] at hitem
    rw [hp.itemReleases hitem hrs] at hr
    obtain ⟨m, hm, rfl⟩ := List.mem_map.mp hr
    have hmem : (m.warehouseId, m.quantityChanged) ∈ _ :=
      List.mem_map_of_mem (f := fun m : InventoryMovement =>
        (m.warehouseId, m.quantityChanged)) hm
    rw [hp.reserved] at hmem
    obtain ⟨it, hit, heq⟩ := List.mem_map.mp hmem
    obtain ⟨hit, hv⟩ := List.mem_filter.mp hit
    have hkey := hk it hit
    rwa [ItemInput.stockKey, of_decide_eq_true hv, (Prod.mk.inj heq).1] at hkey
  rw [Database.replay_append]
  exact hrss.lookup_eq hkeys

/-- Cancelling an order undoes its creation, whatever happened in between, exactly when no
variant stands on two of its lines. -/
theorem cancel_restoresLines_iff {env : Environment} {body : CreateBody} {s₀ : Db}
    {es₀ es₁ : List Edit} {r₀ : Option Order} {tenantId' userId' : Uuid}
    {reason : Option String} {r : Option OrderWithItems} (hs₀ : s₀.Consistent)
    (hcreate : Runs answer (create env tenantId userId orderId body) s₀ r₀ es₀)
    (hlater : SerialRun answer StockRequest.program (fun _ r => r.KeepsWarehouses)
      (sales.replay es₀ s₀) es₁ s)
    (hcancel : Runs answer (cancel orderId tenantId' userId' reason) s r es) :
    RestoresLines tenantId body.items s (sales.replay es s) ↔
      (body.items.map (·.resolvedVariantId)).Nodup := by
  have hp : Placed tenantId orderId body.items s :=
    hlater.invariant (placed_of_create hs₀ hcreate) fun _ _ _ _ hp hr hrun =>
      hp.effect (StockRequest.effect hrun) hr
  constructor
  · rintro ⟨hquantity, -⟩
    rw [List.nodup_iff_count_eq_one]
    intro v hv
    obtain ⟨it, hit, rfl⟩ := List.mem_map.mp hv
    -- the row of this line gets back something, so it gets it back once
    have hpos := lineQuantity_pos tenantId hp.positive hit
    have h := hquantity (it.stockKey tenantId)
    rw [quantity_cancel hp hcancel, add_right_inj] at h
    have hone := Int.eq_one_of_mul_eq_self_left (by omega) h
    exact_mod_cast hone
  · intro hnodup
    refine ⟨fun k => ?_, fun k hk => lookup_cancel hp hcancel hk⟩
    rw [quantity_cancel hp hcancel]
    by_cases hk : ∃ it ∈ body.items, it.stockKey tenantId = k
    · obtain ⟨it, hit, rfl⟩ := hk
      have hone : (body.items.map (·.resolvedVariantId)).count it.resolvedVariantId = 1 :=
        List.count_eq_one_of_mem hnodup (List.mem_map_of_mem hit)
      simp only [ItemInput.stockKey, hone, Nat.cast_one, one_mul]
    · push Not at hk
      rw [lineQuantity_eq_zero hk, mul_zero]

/-- A second order of shirts, new mugs in the south, and mugs moved to the north. -/
def Sample.meanwhile : List StockRequest :=
  [.create {} "shop" "clerk" "second" (body [line "north" 4]),
    .adjust "shop" "clerk"
      { variantId := some "mug", warehouseId := "south", quantityChanged := 6 },
    .transfer "shop" "clerk"
      { variantId := some "mug", sourceWarehouseId := some "south"
        destinationWarehouseId := some "north", quantity := 2 }]

open Sample in
/-- Shirts from the north and mugs from the south, cancelled after other requests have changed
both rows. -/
theorem cancel_restoresLines_iff_sample :
    let ordered := [line "north" 2, mugs 3]
    let p := create {} "shop" "clerk" "order" (body ordered)
    let s := afterAll noAnswer StockRequest.program (p.after noAnswer twoBranches) meanwhile
    (s.quantity row = 14 ∧ s.quantity ⟨"shop", "mug", "south"⟩ = 9) ∧
      RestoresLines "shop" ordered s ((cancel "order" "shop" "clerk" none).after noAnswer s) := by
  intro ordered p s
  refine ⟨by decide +kernel, ?_⟩
  obtain ⟨r₀, es₀, hcreate⟩ := exists_runs noAnswer p twoBranches (by decide +kernel)
  obtain ⟨r, es, hcancel⟩ := exists_runs noAnswer (cancel "order" "shop" "clerk" none) s
    (by decide +kernel)
  have hkeeps : ∀ r ∈ meanwhile, r.KeepsWarehouses := by
    simp [meanwhile, StockRequest.KeepsWarehouses]
  have hlater : ∃ es₁, SerialRun noAnswer StockRequest.program (fun _ r => r.KeepsWarehouses)
      (p.after noAnswer twoBranches) es₁ s :=
    SerialRun.exists_afterAll meanwhile fun k _ r hr => hkeeps r (List.mem_of_getElem? hr)
  obtain ⟨es₁, hlater⟩ := hlater
  rw [hcancel.after_eq]
  have hplaced : p.after noAnswer twoBranches = sales.replay es₀ twoBranches := hcreate.after_eq
  rw [hplaced] at hlater
  exact (cancel_restoresLines_iff twoBranches_consistent hcreate hlater hcancel).mpr (by decide)

open Sample in
/-- Two lines of two and three pieces of one variant: 20 pieces become 15, and 25 after
the cancellation. -/
theorem cancel_not_restoresLines :
    let p := create {} "shop" "clerk" "order" (body [line "north" 2, line "north" 3])
    let s := p.after noAnswer shop
    (p.run noAnswer shop).isOk = true ∧
      ((cancel "order" "shop" "clerk" none).run noAnswer s).isOk = true ∧
      ¬ RestoresLines "shop" [line "north" 2, line "north" 3] s
        ((cancel "order" "shop" "clerk" none).after noAnswer s) := by
  refine ⟨by decide +kernel, by decide +kernel, fun h => ?_⟩
  have hrow := h.1 row
  revert hrow
  decide +kernel

end PulseOps
