import PulseOps.ReadCommitted.Validation
import PulseOps.Stock.Consistency

/-!
# The status of an order under concurrent requests

`updateStatus` and `cancel` read the status, validate the step, and write the new status in
a later statement, without a lock. When the status found at the first read still stands at
the commit, concurrent requests on one order come out as some serial order of those that
succeeded, and the history is a path through the table of transitions.

## Main definitions

* `StatusPath` — a history that starts at PENDING and follows the transitions.
* `OrderTrail` — a sound history, with the stock of each line released at most once.
* `statusUnchanged` — the discipline: a commit finds the status its transaction read.

## Main results

* `validated_requests` — the requests are validated transactions.
* `OrderTrail.effect` — a request that runs alone keeps the trail sound.
-/

set_option autoImplicit false

open ReadCommitted Program

namespace PulseOps

open OrderService InventoryService

variable {s : Db} {es : List Edit} {answer : Call → Reply} {id : Uuid}

/-! ### Histories -/

/-- A step along `ORDER_STATUS_TRANSITIONS`, or the one of the counter sale. -/
def StatusStep (fromStatus toStatus : OrderStatus) : Prop :=
  isValidTransition fromStatus toStatus = true ∨
    fromStatus = .pending ∧ toStatus = .delivered

/-- A history that starts at PENDING, goes on step by step and ends at the given status. -/
inductive StatusPath : List OrderStatusHistory → OrderStatus → Prop
  | start {row : OrderStatusHistory} (hfrom : row.fromStatus = none)
      (hto : row.toStatus = .pending) : StatusPath [row] .pending
  | step {rows : List OrderStatusHistory} {status : OrderStatus} {row : OrderStatusHistory}
      (hrows : StatusPath rows status) (hfrom : row.fromStatus = some status)
      (hstep : StatusStep status row.toStatus) : StatusPath (rows ++ [row]) row.toStatus

/-- The history of one order. -/
def statusHistory (id : Uuid) (s : Db) : List OrderStatusHistory :=
  s.orderStatusHistory.filter (·.orderId = id)

/-- The release movements of one variant of an order. -/
def releasesFor (id productVariantId : Uuid) (s : Db) : List InventoryMovement :=
  s.inventoryMovements.filter fun m => m.productVariantId = productVariantId ∧
    m.referenceId = some id ∧ m.type = .orderRelease

/-- The history of the order is a path that ends at its status, no variant was released
more than once, and none before the cancellation. -/
structure OrderTrail (id : Uuid) (s : Db) : Prop where
  path : ∃ row, s.orders.lookup id = some row ∧ StatusPath (statusHistory id s) row.status
  releasedOnce : ∀ v, (releasesFor id v s).length ≤ 1
  unreleased : ∀ row, s.orders.lookup id = some row → row.status ≠ .cancelled →
    ∀ v, releasesFor id v s = []

/-- No two lines of the order have one variant, and no variant has two reservation
movements. -/
structure SingleReservations (id : Uuid) (s : Db) : Prop where
  variants : ((s.orderItems.filter (·.orderId = id)).map (·.productVariantId)).Nodup
  reserved : ∀ tenantId v, (reservations tenantId id v s).length ≤ 1

/-- The requests that change the status of the order. -/
def StockRequest.On (id : Uuid) : StockRequest → Prop
  | .updateStatus id' _ _ _ _ => id' = id
  | .cancel id' _ _ _ => id' = id
  | _ => False

/-! ### A request that runs alone -/

/-- Each line is released at most once when it has one reservation movement. -/
theorem length_releases_le {tenantId : Uuid} {items : List OrderItem}
    {rss : List (List Release)} (hnodup : (items.map (·.productVariantId)).Nodup)
    (hres : ∀ v, (reservations tenantId id v s).length ≤ 1)
    (h : List.Forall₂ (ItemReleases tenantId id s) items rss) (v : Uuid) :
    (rss.flatten.filter (·.key.productVariantId = v)).length ≤ 1 := by
  induction h with
  | nil => simp
  | @cons item rs items rss hitem hitems ih =>
    rw [List.map_cons, List.nodup_cons] at hnodup
    obtain ⟨hnew, hnodup⟩ := hnodup
    have hlength : rs.length ≤ 1 := by
      cases hitem with
      | reserved _ => simpa [releasesOf] using hres item.productVariantId
      | nowhere _ _ => simp
      | fallback _ _ _ _ => simp
    rw [List.flatten_cons, List.filter_append, List.length_append]
    by_cases hv : item.productVariantId = v
    · -- no later line has this variant
      have hnil : rss.flatten.filter (·.key.productVariantId = v) = [] := by
        rw [List.filter_eq_nil_iff]
        refine forall_mem_flatten hitems fun item' hitem' rs' hrs' r hr => ?_
        have hkey := (hrs'.key hr).2
        intro heq
        refine hnew (List.mem_map.mpr ⟨item', hitem', ?_⟩)
        rw [← hkey, of_decide_eq_true heq, hv]
      have hle := List.length_filter_le (fun r : Release => decide (r.key.productVariantId = v)) rs
      rw [hnil, List.length_nil]
      omega
    · -- nothing of this line is of the variant
      have hnil : rs.filter (·.key.productVariantId = v) = [] := by
        rw [List.filter_eq_nil_iff]
        intro r hr heq
        exact hv ((hitem.key hr).2.symm.trans (of_decide_eq_true heq))
      have := ih hnodup
      rw [hnil, List.length_nil]
      omega

theorem length_releasesFor {s' : Db} {rows : List InventoryMovement} {rs : List Release}
    (hm : s'.inventoryMovements = s.inventoryMovements ++ rows)
    (hkeys : rows.map (fun m => (m.stockKey, m.quantityChanged)) =
      rs.map (fun r => (r.key, r.quantity)))
    (htype : ∀ m ∈ rows, m.type = .orderRelease ∧ m.referenceType = some "ORDER" ∧
      m.referenceId = some id) (v : Uuid) :
    (releasesFor id v s').length =
      (releasesFor id v s).length + (rs.filter (·.key.productVariantId = v)).length := by
  have hrows : (rows.filter fun m => decide (m.productVariantId = v ∧
      m.referenceId = some id ∧ m.type = .orderRelease)).length =
      (rs.filter (·.key.productVariantId = v)).length := by
    have hcount := congrArg (List.countP fun x : StockKey × ℤ => x.1.productVariantId = v) hkeys
    rw [List.countP_map, List.countP_map] at hcount
    rw [← List.countP_eq_length_filter, ← List.countP_eq_length_filter]
    refine Eq.trans (List.countP_congr fun m hm => ?_) hcount
    simp [htype m hm, InventoryMovement.stockKey]
  simp only [releasesFor, hm, List.filter_append, List.length_append]
  rw [hrows]

/-- The path goes on with the step a request has validated. -/
private theorem statusPath_statusEdits {tenantId userId : Uuid} {order : OrderWithItems}
    {status : OrderStatus} {reason : Option String}
    (h : StatusPath (statusHistory id s) order.row.status)
    (hvalid : isValidTransition order.row.status status = true) :
    StatusPath (statusHistory id
      (sales.replay (statusEdits id tenantId userId order.row status reason) s)) status := by
  have hrows : statusHistory id
      (sales.replay (statusEdits id tenantId userId order.row status reason) s) =
      statusHistory id s ++
        [historyRow tenantId id userId (some order.row.status) status reason] := by
    simp [statusHistory, statusEdits, historyRow]
  rw [hrows]
  exact .step h rfl (.inl hvalid)

theorem isValidTransition_of_cancellable {status : OrderStatus}
    (h : status ∈ cancellableStatuses) : isValidTransition status .cancelled = true := by
  revert h
  cases status <;> decide

/-- A request that runs alone keeps the trail sound. -/
theorem OrderTrail.effect {r : StockRequest} (ht : OrderTrail id s)
    (hsingle : SingleReservations id s) (h : StockEffect s r es) (hr : r.On id) :
    OrderTrail id (sales.replay es s) ∧ SingleReservations id (sales.replay es s) := by
  obtain ⟨row, hrow, hpath⟩ := ht.path
  cases h with
  | @updateStatus id' tenantId userId status reason order horder hvalid =>
    obtain rfl : id' = id := hr
    have horderRow := (findById_eq_some.mp horder).1
    obtain rfl : row = order.row := Option.some.inj (hrow.symm.trans horderRow)
    have hne : order.row.status ≠ .cancelled := by
      intro heq
      rw [heq] at hvalid
      simp [isValidTransition, orderStatusTransitions] at hvalid
    have hnone := ht.unreleased _ hrow hne
    refine ⟨⟨⟨_, AList.lookup_insert _, statusPath_statusEdits hpath hvalid⟩,
      fun v => ?_, fun _ _ _ v => hnone v⟩, hsingle.variants, hsingle.reserved⟩
    exact (congrArg List.length (hnone v)).trans_le (Nat.zero_le 1)
  | @cancel id' tenantId userId reason order rss es₁ horder hstatus hitems hrss =>
    obtain rfl : id' = id := hr
    obtain ⟨horderRow, -, hlines⟩ := findById_eq_some.mp horder
    obtain rfl : row = order.row := Option.some.inj (hrow.symm.trans horderRow)
    have hvalid := isValidTransition_of_cancellable hstatus
    have hne : order.row.status ≠ .cancelled := by
      intro heq
      rw [heq] at hstatus
      exact absurd hstatus (by decide)
    have hnone := ht.unreleased _ hrow hne
    obtain ⟨_, _, rows, hstate, hkeys, htype⟩ := hrss.replay
    have hpath' : StatusPath (statusHistory id' (sales.replay es₁ s)) order.row.status := by
      rw [hstate]
      exact hpath
    rw [Database.replay_append]
    refine ⟨⟨⟨_, AList.lookup_insert _, statusPath_statusEdits hpath' hvalid⟩,
      fun v => ?_, fun row' hrow' hne' => ?_⟩, ?_, fun tenantId' v => ?_⟩
    · -- nothing was released before, and a line with one reservation is released once
      rw [hlines] at hitems
      have hmovements : (sales.replay es₁ s).inventoryMovements =
          s.inventoryMovements ++ rows := by rw [hstate]
      have hlength := length_releasesFor hmovements hkeys htype v
      have hle := length_releases_le hsingle.variants (hsingle.reserved tenantId) hitems v
      rw [hnone v, List.length_nil, Nat.zero_add] at hlength
      exact hlength.trans_le hle
    · have hrow' : (AList.insert id' _ (sales.replay es₁ s).orders).lookup id' = some row' := hrow'
      rw [AList.lookup_insert] at hrow'
      rw [← Option.some.inj hrow'] at hne'
      exact absurd rfl hne'
    · have hitems' : (sales.replay es₁ s).orderItems = s.orderItems := by rw [hstate]
      have hvariants := hsingle.variants
      rw [← hitems'] at hvariants
      exact hvariants
    · have hreserved := hrss.reservations_eq tenantId' v
      exact (congrArg List.length hreserved).trans_le (hsingle.reserved tenantId' v)
  | create _ _ _ => exact hr.elim
  | adjust _ _ => exact hr.elim
  | transfer _ _ _ _ _ _ => exact hr.elim
  | deleteWarehouse => exact hr.elim

/-! ### Validated requests -/

/-- The history row an edit writes. -/
def Edit.history? : Edit → Option OrderStatusHistory
  | .orderStatusHistoryInsert row => some row
  | _ => none

/-- The status a request started from, as its history row tells. -/
def notedStatus (es : List Edit) : Option OrderStatus :=
  (es.filterMap Edit.history?).head?.bind (·.fromStatus)

/-- The status of the order. -/
def currentStatus (id : Uuid) (s : Db) : Option OrderStatus :=
  (s.orders.lookup id).map (·.status)

/-- A commit finds the order in the status its transaction started from. -/
def statusUnchanged (id : Uuid) : Discipline sales where
  commit s t := notedStatus t.edits = currentStatus id s

/-- How far along a status is. -/
def statusRank : OrderStatus → ℕ
  | .draft => 0
  | .pending => 1
  | .confirmed => 2
  | .processing => 3
  | .shipped => 4
  | .delivered => 5
  | .partiallyRefunded => 6
  | .refunded => 7
  | .cancelled => 8

/-- No transition leads back. -/
theorem statusRank_lt {a b : OrderStatus} (h : isValidTransition a b = true) :
    statusRank a < statusRank b := by
  revert h
  cases a <;> cases b <;> decide

variable {tenantId userId orderId : Uuid} {reason : Option String}

theorem releaseMovement_emits {item : OrderItem} {mov : InventoryMovement} :
    (releaseMovement tenantId userId orderId reason item mov).Emits Edit.IsStock := by
  refine (emits_lockRow _).bind fun _ => (ReadsOnly.query _).emits.bind fun rows => ?_
  refine Emits.bind ?_ fun _ => emits_recordMovement
  split
  · exact emits_updateStock
  · exact emits_insertInventory.bind fun _ => emits_insertWarehouseInventory

/-- Releasing a line writes to the stock tables and the journal only. -/
theorem releaseItem_emits {item : OrderItem} :
    (releaseItem tenantId userId orderId reason item).Emits Edit.IsStock := by
  refine (ReadsOnly.query _).emits.bind fun movements => ?_
  split
  · exact Emits.forM fun m _ => releaseMovement_emits
  · refine (ReadsOnly.query _).emits.bind fun inventories => ?_
    split
    · trivial
    · exact emits_updateInventory.bind fun _ => emits_recordMovement

theorem releaseMovement_silent {item : OrderItem} {mov : InventoryMovement} :
    (releaseMovement tenantId userId orderId reason item mov).Silent := by
  refine (silent_lockRow _).bind fun _ => (ReadsOnly.query _).silent.bind fun rows => ?_
  refine Silent.bind ?_ fun _ => silent_perform _
  split
  · exact (silent_perform _).bind fun _ => silent_perform _
  · exact (silent_perform _).bind fun _ => silent_perform _

theorem releaseItem_silent {item : OrderItem} :
    (releaseItem tenantId userId orderId reason item).Silent := by
  refine (ReadsOnly.query _).silent.bind fun movements => ?_
  split
  · exact Silent.forM fun m _ => releaseMovement_silent
  · refine (ReadsOnly.query _).silent.bind fun inventories => ?_
    split
    · trivial
    · exact (silent_perform _).bind fun _ => silent_perform _

theorem notedStatus_of_isStock {es : List Edit} {row : OrderStatusHistory} {e : Edit}
    (hes : ∀ e ∈ es, e.IsStock) (he : e.history? = none) :
    notedStatus (es ++ [e] ++ [.orderStatusHistoryInsert row]) = row.fromStatus := by
  have hnone : es.filterMap Edit.history? = [] := by
    rw [List.filterMap_eq_nil_iff]
    intro e he
    have := hes e he
    cases e <;> simp_all [Edit.IsStock, Edit.history?]
  rw [notedStatus, List.filterMap_append, List.filterMap_append, hnone,
    List.filterMap_cons_none he]
  rfl

/-- The status is written with a history row that names the one it replaces. -/
private theorem writes_status {β : Type} {status : OrderStatus} {row : OrderStatusHistory}
    {es : List Edit} {p : Sql β} (hes : ∀ e ∈ es, e.IsStock) (hp : p.ReadsOnly) :
    (do
      perform (Statement.updateOrderStatus id status)
      record (.orderStatusHistoryInsert row)
      p : Sql β).Writes (fun es => notedStatus es = row.fromStatus) es := by
  intro s e he s' e' he'
  obtain ⟨_, -, rfl⟩ := Statement.updateOrderStatus_eq_ok.mp he
  obtain rfl := Except.ok.inj he'
  exact hp.writes (notedStatus_of_isStock hes rfl)

/-- A request that reads the order first. -/
private theorem first_getById {k : OrderWithItems → Sql Unit}
    (hsilent : ∀ order, (k order).Silent)
    (hwrites : ∀ order, (k order).Writes
      (fun es => notedStatus es = some order.row.status) []) :
    ∃ next, (getById id tenantId >>= k) = .select next ∧
      ∀ s, (next s).Silent ∧
        (next s).Writes (fun es => notedStatus es = currentStatus id s) [] := by
  refine ⟨_, rfl, fun s => ?_⟩
  have hread : ∀ x, findById id tenantId s = x → (orThrow x "Order not found" 404
      "ORDER_NOT_FOUND" >>= k).Silent ∧ (orThrow x "Order not found" 404
        "ORDER_NOT_FOUND" >>= k).Writes (fun es => notedStatus es = currentStatus id s) [] := by
    intro x hx
    cases x with
    | none => exact ⟨trivial, trivial⟩
    | some order =>
      have hstatus : currentStatus id s = some order.row.status := by
        rw [currentStatus, (findById_eq_some.mp hx).1]
        rfl
      rw [hstatus]
      exact ⟨hsilent order, hwrites order⟩
  exact hread _ rfl

/-- The requests on one order are validated by its status. -/
theorem validated_requests (answer : Call → Reply) {rs : List StockRequest}
    (hrs : ∀ r ∈ rs, r.On id) :
    Validated answer (statusUnchanged id) (rs.map StockRequest.program)
      (fun s => OrderTrail id s ∧ SingleReservations id s) (currentStatus id) notedStatus
      (fun x => (x.map statusRank).getD 0) where
  first p hp := by
    obtain ⟨r, hr, rfl⟩ := List.mem_map.mp hp
    cases r with
    | updateStatus id' tenantId userId status reason =>
      obtain rfl : id' = id := hrs _ hr
      simp only [StockRequest.program, OrderService.updateStatus, bind_assoc]
      refine first_getById (fun order => ?_) fun order => ?_
      · refine (ReadsOnly.require _ _).silent.bind fun _ => (silent_perform _).bind fun _ => ?_
        exact (silent_perform _).bind fun _ => (ReadsOnly.query _).silent.bind fun _ => trivial
      · refine (ReadsOnly.require _ _).emits.writes_bind (P := Edit.IsStock) fun _ es hes => ?_
        exact writes_status hes ((ReadsOnly.query _).bind fun _ => .ret ())
    | cancel id' tenantId userId reason =>
      obtain rfl : id' = id := hrs _ hr
      simp only [StockRequest.program, OrderService.cancel, bind_assoc]
      refine first_getById (fun order => ?_) fun order => ?_
      · refine (ReadsOnly.require _ _).silent.bind fun _ => ?_
        refine (ReadsOnly.require _ _).silent.bind fun _ => ?_
        refine (Silent.forM fun item _ => releaseItem_silent).bind fun _ => ?_
        refine (silent_perform _).bind fun _ => (silent_perform _).bind fun _ => ?_
        exact (ReadsOnly.query _).silent.bind fun _ => trivial
      · refine (ReadsOnly.require _ _).emits.writes_bind (P := Edit.IsStock) fun _ es hes => ?_
        refine (ReadsOnly.require _ _).emits.writes_bind (P := Edit.IsStock) fun _ es' hes' => ?_
        refine (Emits.forM fun item _ => releaseItem_emits).writes_bind fun _ es'' hes'' => ?_
        refine writes_status ?_ ((ReadsOnly.query _).bind fun _ => .ret ())
        exact List.forall_mem_append.mpr ⟨List.forall_mem_append.mpr ⟨hes, hes'⟩, hes''⟩
    | create _ _ _ _ _ => exact (hrs _ hr).elim
    | adjust _ _ _ => exact (hrs _ hr).elim
    | transfer _ _ _ => exact (hrs _ hr).elim
    | deleteWarehouse _ _ => exact (hrs _ hr).elim
  commit s t h := of_decide_eq_true h
  forward p hp s u es hs hrun := by
    obtain ⟨r, hr, rfl⟩ := List.mem_map.mp hp
    have heffect := StockRequest.effect hrun
    refine ⟨hs.1.effect hs.2 heffect (hrs r hr), ?_⟩
    -- a status never comes back, so it tells whether others have committed in between
    have hlt (order : OrderWithItems) (status : OrderStatus) (s' : Db)
        (hrow : s.orders.lookup id = some order.row)
        (hrow' : s'.orders.lookup id = some { order.row with status })
        (hvalid : isValidTransition order.row.status status = true) :
        ((currentStatus id s).map statusRank).getD 0 <
          ((currentStatus id s').map statusRank).getD 0 := by
      rw [currentStatus, currentStatus, hrow, hrow']
      exact statusRank_lt hvalid
    cases heffect with
    | @updateStatus id' tenantId userId status reason order horder hvalid =>
      obtain rfl : id' = id := hrs _ hr
      exact hlt order status _ (findById_eq_some.mp horder).1 (AList.lookup_insert _) hvalid
    | @cancel id' tenantId userId reason order rss es₁ horder hstatus hitems hrss =>
      obtain rfl : id' = id := hrs _ hr
      rw [Database.replay_append]
      exact hlt order .cancelled _ (findById_eq_some.mp horder).1 (AList.lookup_insert _)
        (isValidTransition_of_cancellable hstatus)
    | create _ _ _ => exact (hrs _ hr).elim
    | adjust _ _ => exact (hrs _ hr).elim
    | transfer _ _ _ _ _ _ => exact (hrs _ hr).elim
    | deleteWarehouse => exact (hrs _ hr).elim

/-! ### Interleaved requests -/

/-- Any number of status changes and cancellations of one order, in any interleaving in
which each commit finds the status its transaction read: they come out as the committed
ones run one after the other, and the trail of the order is sound. -/
theorem reaches_orderTrail (answer : Call → Reply) {rs : List StockRequest} {s₀ : Db}
    {c : Config sales Unit}
    (hrs : ∀ r ∈ rs, r.On id) (htrail : OrderTrail id s₀)
    (hsingle : SingleReservations id s₀)
    (h : Reaches (statusUnchanged id) (.start s₀ (rs.map StockRequest.program)) c) :
    SerialLog answer (rs.map StockRequest.program) s₀ c.log c.committed ∧
      ((c.log.map Commit.session).Nodup ∧ ∀ i, i ∈ c.log.map Commit.session ↔
        ∃ a t, c.sessions[i]? = some (.committed a t)) ∧
      OrderTrail id c.committed := by
  have hv := validated_requests answer hrs
  have hlog := hv.serialLog ⟨htrail, hsingle⟩ h
  refine ⟨hlog, h.log_sessions, ?_⟩
  exact (hlog.invariant (I := fun s => OrderTrail id s ∧ SingleReservations id s)
    ⟨htrail, hsingle⟩ fun p hp s a es hs hrun => (hv.forward p hp s a es hs hrun).1).1

namespace Sample

/-- A placed order of two pieces. -/
def placed : Db := (create {} "shop" "clerk" "order" (body [line "north" 2])).after noAnswer shop

/-- One cancellation of it. -/
def cancellation : StockRequest := .cancel "order" "shop" "clerk" none

/-- Both sessions read the order before either goes on. -/
def bothReadFirst : List (Action sales) :=
  [.advance 0, .advance 1] ++ List.replicate 10 (.advance 0) ++ List.replicate 10 (.advance 1)

end Sample

theorem Sample.placed_orderTrail : OrderTrail "order" placed := by
  have hrow : ∃ row, placed.orders.lookup "order" = some row ∧ row.status = .pending := by
    rw [← Option.map_eq_some_iff]
    decide +kernel
  obtain ⟨row, hrow, hstatus⟩ := hrow
  have hhistory : statusHistory "order" placed =
      [historyRow "shop" "order" "clerk" none .pending (some "Order created")] := by
    decide +kernel
  have hnone (v : Uuid) : releasesFor "order" v placed = [] := by
    have htype : ∀ m ∈ placed.inventoryMovements, m.type ≠ .orderRelease := by decide +kernel
    rw [releasesFor, List.filter_eq_nil_iff]
    intro m hm
    simp [htype m hm]
  refine ⟨⟨row, hrow, ?_⟩, fun v => by simp [hnone v], fun _ _ _ v => hnone v⟩
  rw [hhistory, hstatus]
  exact .start rfl rfl

theorem Sample.placed_singleReservations : SingleReservations "order" placed where
  variants := by decide +kernel
  reserved tenantId v := by
    have hlength : placed.inventoryMovements.length = 1 := by decide +kernel
    exact (List.length_filter_le _ _).trans hlength.le

open Sample in
/-- Two cancellations of the placed order, the first of which has committed. -/
theorem reaches_orderTrail_sample :
    ∃ c : Config sales Unit, Reaches (statusUnchanged "order")
      (.start placed ([cancellation, cancellation].map StockRequest.program)) c ∧
        c.log.length = 1 ∧ OrderTrail "order" c.committed := by
  have hrun : ((Config.start placed ([cancellation, cancellation].map
      StockRequest.program)).run (statusUnchanged "order")
        (List.replicate 11 (.advance 0))).isSome = true := by decide +kernel
  obtain ⟨c, hc⟩ := Option.isSome_iff_exists.mp hrun
  have hend : ((Config.start placed ([cancellation, cancellation].map
      StockRequest.program)).run (statusUnchanged "order")
        (List.replicate 11 (.advance 0))).map (fun c => c.log.length) = some 1 := by
    decide +kernel
  rw [hc, Option.map_some, Option.some.injEq] at hend
  have hreach : Reaches (statusUnchanged "order")
      (.start placed ([cancellation, cancellation].map StockRequest.program)) c :=
    reaches_of_run .refl hc
  refine ⟨c, hreach, hend, ?_⟩
  exact (reaches_orderTrail noAnswer (by simp [cancellation, StockRequest.On])
    placed_orderTrail placed_singleReservations hreach).2.2

open Sample in
/-- Two cancellations that both find the order PENDING: both restore its stock, 18 becomes
20 and then 22. -/
theorem cancellations_not_orderTrail :
    ∃ c : Config sales Unit,
      Reaches (.free sales) (.start placed [cancellation.program, cancellation.program]) c ∧
        c.Quiescent ∧ ¬ OrderTrail "order" c.committed := by
  have hrun : ((Config.start placed [cancellation.program, cancellation.program]).run
      (.free sales) bothReadFirst).isSome = true := by decide +kernel
  obtain ⟨c, hc⟩ := Option.isSome_iff_exists.mp hrun
  have hend : ((Config.start placed [cancellation.program, cancellation.program]).run
      (.free sales) bothReadFirst).map
        (fun c => (decide c.Quiescent, (releasesFor "order" "shirt" c.committed).length)) =
      some (true, 2) := by decide +kernel
  rw [hc, Option.map_some, Option.some.injEq, Prod.mk.injEq, decide_eq_true_eq] at hend
  refine ⟨c, reaches_of_run .refl hc, hend.1, fun h => ?_⟩
  have honce := h.releasedOnce "shirt"
  omega

end PulseOps
