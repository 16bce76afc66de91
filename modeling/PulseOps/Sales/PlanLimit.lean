import PulseOps.Invoices.Sequence
import PulseOps.ReadCommitted.Quota
import PulseOps.ReadCommitted.TableSum

/-!
# The orders of a plan

A plan allows a number of orders a month. `assertWithinPlan` counts the orders that are there and
takes no lock, and the order is stored later, in a transaction that may be tried again without
another count. So the limit is soft: it can be exceeded by the orders that are placed at the same
time, and by no more.

## Main definitions

* `Db.ordersSince` — the orders that count.
* `ordersQuota` — the plan's limit as a quota.

## Main results

* `InvoiceRequest.checks` — both ways to place an order check the limit first.
* `orders_within_plan` — by how much the limit is exceeded.
-/

set_option autoImplicit false

open ReadCommitted Program

namespace PulseOps

open OrderService PosService

variable {s s' : Db} {e : Edit} {tenantId userId orderId id : Uuid} {month limit : ℕ}
  {plan : Plan} {env : Environment}

/-! ### What is counted -/

/-- The orders of a workspace since the start of a month. -/
def Db.ordersSince (s : Db) (tenantId : Uuid) (month : ℕ) : ℕ :=
  (s.orders.entries.filter fun o => o.2.tenantId = tenantId ∧ month ≤ o.2.createdAt).length

/-- The plan of a workspace. -/
def Db.planOf (s : Db) (tenantId : Uuid) : Option Plan :=
  (s.tenants.lookup tenantId).bind fun t => s.plans.lookup t.plan

/-- What decides whether an order counts. No edit of an order changes it. -/
def Order.stamp (o : Order) : Uuid × ℕ := (o.tenantId, o.createdAt)

/-- One for an order that counts. -/
def weight (tenantId : Uuid) (month : ℕ) (stamp : Uuid × ℕ) : ℕ :=
  if stamp.1 = tenantId ∧ month ≤ stamp.2 then 1 else 0

theorem ordersSince_eq_total :
    s.ordersSince tenantId month = s.orders.total fun _ o => weight tenantId month o.stamp := by
  rw [Db.ordersSince, AList.total]
  induction s.orders.entries with
  | nil => rfl
  | cons o os ih =>
    rw [List.map_cons, List.sum_cons, ← ih, List.filter_cons]
    by_cases h : o.2.tenantId = tenantId ∧ month ≤ o.2.createdAt
    · have hweight : weight tenantId month o.2.stamp = 1 := if_pos h
      rw [if_pos (by simpa using h), hweight, List.length_cons, add_comm]
    · have hweight : weight tenantId month o.2.stamp = 0 := if_neg h
      rw [if_neg (by simpa using h), hweight, zero_add]

/-- An order is new when it is stored, and keeps its stamp when it is changed. -/
def Edit.KeepsStamps (s : Db) : Edit → Prop
  | .orderInsert id _ => s.orders.lookup id = none
  | .orderUpdate id row => (s.orders.lookup id).map Order.stamp = some row.stamp
  | _ => True

def Edit.ordersAdded (tenantId : Uuid) (month : ℕ) : Edit → ℕ
  | .orderInsert _ row => weight tenantId month row.stamp
  | _ => 0

/-- The row lock of an order keeps its stamp still. -/
def SameStamp (s s' : Db) : Key → Prop
  | .order id => (s.orders.lookup id).map Order.stamp = (s'.orders.lookup id).map Order.stamp
  | _ => True

theorem SameStamp.refl (s : Db) (k : Key) : SameStamp s s k := by
  cases k <;> first | rfl | trivial

theorem SameStamp.trans {s'' : Db} {k : Key} (h : SameStamp s s' k) (h' : SameStamp s' s'' k) :
    SameStamp s s'' k := by
  cases k with
  | order id => exact Eq.trans h h'
  | _ => trivial

theorem sameStamp_apply {k : Key} (h : k ∉ e.footprint) : SameStamp s (s.apply e) k := by
  cases k with
  | order id =>
    cases e with
    | orderInsert id' row =>
      have hne : id ≠ id' := by rintro rfl; simp [Edit.footprint] at h
      simp [SameStamp, AList.lookup_insert_ne hne]
    | orderUpdate id' row =>
      have hne : id ≠ id' := by rintro rfl; simp [Edit.footprint] at h
      simp [SameStamp, AList.lookup_insert_ne hne]
    | _ => rfl
  | _ => trivial

theorem SameStamp.apply {k : Key} (h : SameStamp s s' k) :
    SameStamp (s.apply e) (s'.apply e) k := by
  cases k with
  | order id =>
    cases e with
    | orderInsert id' row =>
      by_cases hid : id = id'
      · subst hid
        simp [SameStamp]
      · simpa [SameStamp, AList.lookup_insert_ne hid] using h
    | orderUpdate id' row =>
      by_cases hid : id = id'
      · subst hid
        simp [SameStamp]
      · simpa [SameStamp, AList.lookup_insert_ne hid] using h
    | _ => exact h
  | _ => trivial

theorem Edit.KeepsStamps.congr (hs : ∀ k ∈ e.footprint, SameStamp s s' k)
    (h : e.KeepsStamps s) : e.KeepsStamps s' := by
  cases e with
  | orderInsert id row =>
    have hsame : (s.orders.lookup id).map Order.stamp = (s'.orders.lookup id).map Order.stamp :=
      hs (.order id) (by simp [Edit.footprint])
    have hnone : s.orders.lookup id = none := h
    rw [hnone, Option.map_none, eq_comm, Option.map_eq_none_iff] at hsame
    exact hsame
  | orderUpdate id row => exact (hs (.order id) (by simp [Edit.footprint])).symm.trans h
  | _ => trivial

/-- One more for an order that counts, and no other change. -/
theorem ordersSince_apply (h : e.KeepsStamps s) :
    (s.apply e).ordersSince tenantId month =
      s.ordersSince tenantId month + e.ordersAdded tenantId month := by
  simp only [ordersSince_eq_total]
  cases e with
  | orderInsert id row =>
    rw [add_comm]
    exact AList.total_insert_new _ h
  | orderUpdate id row =>
    obtain ⟨old, hold, hstamp⟩ := Option.map_eq_some_iff.mp h
    exact AList.total_insert_same hold (congrArg (weight tenantId month) hstamp.symm)
  | _ => rfl

/-- The orders of a workspace since the start of a month, while its plan stays as it is. -/
def ordersQuota (tenantId : Uuid) (month : ℕ) (plan : Plan) (limit : ℕ) : Quota sales where
  Inv s := s.planOf tenantId = some plan
  count s := s.ordersSince tenantId month
  limit := limit
  cost := Edit.ordersAdded tenantId month
  Sound s e := e.KeepsStamps s
  agree k s s' := SameStamp s s' k
  inv_apply {s e} hs := by cases e <;> exact hs
  agree_refl k s := .refl s k
  agree_trans h h' := h.trans h'
  agree_apply h := sameStamp_apply h
  agree_congr h := h.apply
  sound_congr hs h := h.congr hs
  count_apply h := ordersSince_apply h

/-! ### Placing orders -/

section Placing

variable {d : OrderDraft} {inTx : Uuid → Order → Sql Unit} {body : CreateBody}

/-- Programs that leave the order rows alone. -/
theorem adds_zero {α : Type} {p : Sql α} (hp : p.Emits fun e => invoiceTables.touches e = false) :
    (ordersQuota tenantId month plan limit).Adds 0 p := by
  refine Quota.Adds.of_emits hp fun e he => ?_
  cases e <;> simp_all [invoiceTables, ordersQuota, Edit.KeepsStamps, Edit.ordersAdded]

theorem adds_readsOnly {α : Type} {p : Sql α} (hp : p.ReadsOnly) :
    (ordersQuota tenantId month plan limit).Adds 0 p :=
  adds_zero hp.emits

/-- The transaction of an order adds this order. -/
theorem adds_place {shop : Uuid}
    (hinTx : ∀ order, (ordersQuota tenantId month plan limit).Adds 0 (inTx orderId order)) :
    (ordersQuota tenantId month plan limit).Adds (weight tenantId month (shop, env.now))
      (place env shop userId orderId d inTx) := by
  have hO := invoiceTables_stockBlind
  refine (adds_zero (.forM fun _ _ => emits_lockRow _)).zero_bind fun _ => ?_
  refine (adds_zero (.forM fun it _ => (reserveItem_emits shop it).mono hO.stock)).zero_bind
    fun _ => ?_
  refine Quota.Adds.zero_bind ?_ fun n => ?_
  · -- the counter
    intro s e _ he
    obtain rfl := Except.ok.inj he
    exact ⟨trivial, 0, le_rfl, trivial⟩
  refine Quota.Adds.bind_zero (Quota.adds_perform fun s e _ he => ?_) fun _ => ?_
  · obtain ⟨hfresh, rfl⟩ := Statement.insertOrder_eq_ok he
    exact ⟨hfresh, le_rfl⟩
  refine (adds_zero (.forM fun it _ => emits_perform fun s e he => ?_)).zero_bind fun _ => ?_
  · obtain rfl := Except.ok.inj he
    rfl
  refine (adds_zero (.forM fun it _ => (recordReservation_emits shop userId orderId it).mono
    hO.stock)).zero_bind fun _ => ?_
  refine (adds_zero (emits_perform fun s e he => ?_)).zero_bind fun _ => ?_
  · obtain rfl := Except.ok.inj he
    rfl
  exact (hinTx _).zero_bind fun _ => adds_readsOnly (.query _)

/-- Payment and hand-over change the order, but not its stamp. -/
theorem adds_updateOrderStatus {status : OrderStatus} :
    (ordersQuota tenantId month plan limit).Adds 0
      (perform (Statement.updateOrderStatus id status) : Sql Unit) := by
  refine Quota.adds_perform fun s e _ he => ?_
  obtain ⟨row, hrow, rfl⟩ := Statement.updateOrderStatus_eq_ok.mp he
  exact ⟨congrArg (Option.map Order.stamp) hrow, le_rfl⟩

/-- A change of status is noted. -/
theorem adds_restate {β : Type} {status : OrderStatus} {row : OrderStatusHistory} {q : Db → β} :
    (ordersQuota tenantId month plan limit).Adds 0 (do
      perform (Statement.updateOrderStatus id status)
      record (.orderStatusHistoryInsert row)
      query q : Sql β) := by
  refine adds_updateOrderStatus.zero_bind fun _ => ?_
  refine (adds_zero (emits_perform fun s e he => ?_)).zero_bind fun _ => adds_readsOnly (.query _)
  obtain rfl := Except.ok.inj he
  rfl

theorem adds_settle {shop : Uuid} {session : Option Uuid} {order : Order}
    {payments : List (SalePayment × Option ConfirmedUpi)} :
    (ordersQuota tenantId month plan limit).Adds 0
      (settle shop userId session payments orderId order) := by
  refine (adds_readsOnly (.require _ _)).zero_bind fun _ => ?_
  refine (adds_zero (.forM fun x _ => takePayment_emits)).zero_bind fun _ => ?_
  refine adds_updateOrderStatus.zero_bind fun _ => adds_zero (emits_perform fun s e he => ?_)
  obtain rfl := Except.ok.inj he
  rfl

/-- `create` checks the limit of its workspace before it stores anything. -/
theorem checks_create (hlimit : plan.ordersPerMonth = some limit)
    (hmonth : env.startOfMonthUtc = month)
    (hinTx : ∀ order, (ordersQuota tenantId month plan limit).Adds 0 (inTx orderId order)) :
    (ordersQuota tenantId month plan limit).Checks
      (create env tenantId userId orderId body inTx) := by
  subst hmonth
  rw [create, prepare]
  simp only [bind_assoc]
  refine Quota.checks_query_bind fun s _ => Quota.checks_query_bind fun s _ => ?_
  refine Quota.Checks.bind (adds_readsOnly (.orRaise _ _)) fun customer => ?_
  rw [assertWithinPlan]
  simp only [bind_assoc]
  refine Quota.checks_query_bind fun s hs => ?_
  -- the plan it reads is the workspace's
  have hplan : ((s.tenants.lookup tenantId).bind fun t => s.plans.lookup t.plan) = some plan := hs
  simp only [hplan, Option.bind_some, hlimit, Option.map_some, bind_assoc]
  refine Quota.checks_count_bind ?_
  -- what it reads after the check
  refine (adds_readsOnly (resolveOrderAddress_readsOnly _ _ _ _)).zero_bind fun shipping => ?_
  refine (adds_readsOnly (resolveOrderAddress_readsOnly _ _ _ _)).zero_bind fun billing => ?_
  refine (adds_readsOnly (.query _)).zero_bind fun variants => ?_
  refine (adds_readsOnly (.mapM fun item _ => ?_)).zero_bind fun sold => ?_
  · exact (ReadsOnly.orRaise _ _).bind fun _ => (ReadsOnly.require _ _).bind fun _ => .ret _
  refine (adds_readsOnly (.query _)).zero_bind fun warehouses => ?_
  refine (adds_readsOnly (.forM fun item _ => .require _ _)).zero_bind fun _ => ?_
  refine (adds_readsOnly (.mapM fun x _ => calculateItem_readsOnly)).zero_bind fun items => ?_
  refine (adds_readsOnly (.query _)).zero_bind fun tenant => ?_
  refine (adds_place hinTx).mono ?_
  rw [weight]
  split_ifs <;> omega

/-- An order that does not count: of another workspace, or of the month before. -/
theorem adds_create {shop : Uuid} (hweight : weight tenantId month (shop, env.now) = 0)
    (hinTx : ∀ order, (ordersQuota tenantId month plan limit).Adds 0 (inTx orderId order)) :
    (ordersQuota tenantId month plan limit).Adds 0
      (create env shop userId orderId body inTx) :=
  (adds_readsOnly (prepare_readsOnly _ _ _)).zero_bind fun _ => hweight ▸ adds_place hinTx

theorem weight_eq_zero {stamp : Uuid × ℕ} (h : stamp.1 ≠ tenantId ∨ stamp.2 < month) :
    weight tenantId month stamp = 0 := by
  rw [weight, if_neg]
  rintro ⟨hshop, hmonth⟩
  rcases h with h | h
  · exact h hshop
  · omega

/-- A counter sale reads, and asks about its payments, before it places its order. -/
theorem sale_eq (tenantId : Uuid) (month limit : ℕ) (plan : Plan)
    {shop walkIn defaultRegister : Uuid} {body : SaleBody} :
    ∃ (β : Type) (reads : Sql β) (draft : β → CreateBody) (inTx : β → Uuid → Order → Sql Unit),
      (ordersQuota tenantId month plan limit).Adds 0 reads ∧
      (∀ x order, (ordersQuota tenantId month plan limit).Adds 0 (inTx x orderId order)) ∧
      sale env shop userId orderId walkIn defaultRegister body =
        reads >>= fun x => create env shop userId orderId (draft x) (inTx x) := by
  refine ⟨_, (do
      let fallback ← query (defaultWarehouse shop)
      let warehouseId ← orThrow (body.warehouseId <|> fallback) "Add a warehouse before selling"
        409 "NO_WAREHOUSE"
      let session ← sessionForCash shop defaultRegister body
      let payments ← body.payments.mapM (confirmUpi shop)
      return (warehouseId, session, payments)),
    fun x => orderBody (body.customerId.getD walkIn) x.1 x.2.1 body,
    fun x => settle shop userId (x.2.1.map (·.1)) x.2.2, ?_, fun x order => adds_settle, ?_⟩
  · refine (adds_readsOnly (.query _)).zero_bind fun fallback => ?_
    refine (adds_readsOnly (.orRaise _ _)).zero_bind fun warehouse => ?_
    refine (adds_readsOnly (sessionForCash_readsOnly _ _ _)).zero_bind fun session => ?_
    refine (Quota.adds_mapM fun p _ => adds_zero (confirmUpi_emits _ p)).zero_bind fun _ => ?_
    trivial
  · simp only [sale, bind_assoc, pure_bind]

end Placing

/-! ### Requests -/

/-- A later attempt of a request that placed an order. -/
def InvoiceRequest.IsRetry : InvoiceRequest → Prop
  | .retryCreate .. => True
  | .retrySale .. => True
  | _ => False

/-- The request places an order for the workspace. -/
def InvoiceRequest.PlacesFor (tenantId : Uuid) : InvoiceRequest → Prop
  | .create _ _ _ shop _ _ _ => shop = tenantId
  | .sale _ _ _ shop _ _ _ _ _ => shop = tenantId
  | _ => False

/-- The clock a request works with. -/
def InvoiceRequest.clock : InvoiceRequest → Option Environment
  | .create env .. => some env
  | .sale env .. => some env
  | _ => none

/-- By its clock, the request comes in this month, or before it. -/
def InvoiceRequest.UntilMonth (month : ℕ) (r : InvoiceRequest) : Prop :=
  ∀ env ∈ r.clock, env.startOfMonthUtc = month ∨ env.now < month

variable {r : InvoiceRequest}

/-- A request that is no later attempt checks the limit before it places an order of the
workspace, and adds nothing otherwise. -/
theorem InvoiceRequest.checks (hlimit : plan.ordersPerMonth = some limit)
    (hclock : r.UntilMonth month) (hretry : ¬ r.IsRetry) :
    (r.PlacesFor tenantId ∧ (ordersQuota tenantId month plan limit).Checks r.program) ∨
      (ordersQuota tenantId month plan limit).Adds 0 r.program := by
  -- an order that does not count is of another workspace, or of the month before
  have hweight {env : Environment} {shop : Uuid}
      (hclock : env.startOfMonthUtc = month ∨ env.now < month)
      (hcounts : ¬ (shop = tenantId ∧ env.startOfMonthUtc = month)) :
      weight tenantId month (shop, env.now) = 0 := by
    apply weight_eq_zero
    rcases hclock with hmonth | hmonth
    · exact .inl fun hshop => hcounts ⟨hshop, hmonth⟩
    · exact .inr hmonth
  cases r with
  | create env year _ shop userId orderId body =>
    by_cases hcounts : shop = tenantId ∧ env.startOfMonthUtc = month
    · obtain ⟨rfl, hmonth⟩ := hcounts
      refine .inl ⟨rfl, Quota.Checks.bind_zero (checks_create hlimit hmonth ?_) ?_⟩
      · exact fun _ => trivial
      · exact fun _ => trivial
    · refine .inr (Quota.Adds.zero_bind (adds_create (hweight (hclock env rfl) hcounts) ?_) ?_)
      · exact fun _ => trivial
      · exact fun _ => trivial
  | sale env year monthOfYear shop userId orderId walkIn defaultRegister body =>
    obtain ⟨β, reads, draft, inTx, hreads, hinTx, heq⟩ := sale_eq tenantId month limit plan
    rw [InvoiceRequest.program, heq]
    by_cases hcounts : shop = tenantId ∧ env.startOfMonthUtc = month
    · obtain ⟨rfl, hmonth⟩ := hcounts
      refine .inl ⟨rfl, Quota.Checks.bind_zero (.bind hreads fun x => ?_) fun _ => trivial⟩
      exact checks_create hlimit hmonth (hinTx x)
    · right
      refine (hreads.zero_bind fun x => ?_).zero_bind fun _ => trivial
      exact adds_create (hweight (hclock env rfl) hcounts) (hinTx x)
  | updateStatus id shop userId status reason =>
    right
    refine Quota.Adds.zero_bind ?_ fun _ => trivial
    refine (adds_readsOnly (getById_readsOnly _ _)).zero_bind fun order => ?_
    exact (adds_readsOnly (.require _ _)).zero_bind fun _ => adds_restate
  | cancel id shop userId reason =>
    right
    refine Quota.Adds.zero_bind ?_ fun _ => trivial
    refine (adds_readsOnly (getById_readsOnly _ _)).zero_bind fun order => ?_
    refine (adds_readsOnly (.require _ _)).zero_bind fun _ => ?_
    refine (adds_readsOnly (.require _ _)).zero_bind fun _ => ?_
    refine (adds_zero (.forM fun it _ => releaseItem_emits.mono
      invoiceTables_stockBlind.stock)).zero_bind fun _ => adds_restate
  | updateTaxProfile shop changes =>
    right
    exact (adds_zero (updateTaxProfile_emits shop changes)).zero_bind fun _ => trivial
  | retryCreate => exact absurd trivial hretry
  | retrySale => exact absurd trivial hretry

/-! ### Every run -/

variable {requests : List InvoiceRequest} {retryOf : ℕ → Option ℕ} {xs : List (Action sales)}
  {c : Config sales Unit} {K : ℕ}

/-- However the requests of all workspaces interleave and are tried again, until the month is over:
a workspace that never has more than `K` of its orders under way stays within its plan's limit, or
exceeds it by less than `K`. -/
theorem orders_within_plan (hplan : s.planOf tenantId = some plan)
    (hlimit : plan.ordersPerMonth = some limit) (hclock : ∀ r ∈ requests, r.UntilMonth month)
    (hretry : ∀ n r, requests[n]? = some r → r.IsRetry → retryOf n ≠ none)
    (hrun : (Config.start s (requests.map (·.program))).run (.free sales) xs = some c)
    (hretries : RetriesInTurn (.free sales) retryOf (.start s (requests.map (·.program))) xs)
    (hK : ∀ ys c', ys <+: xs →
      (Config.start s (requests.map (·.program))).run (.free sales) ys = some c' →
        ∀ F : Finset ℕ, (∀ n ∈ F, (∃ r, requests[n]? = some r ∧ r.PlacesFor tenantId) ∧
          c'.InFlight retryOf ys n) → F.card ≤ K) :
    c.committed.ordersSince tenantId month ≤
      max (s.ordersSince tenantId month) (limit + (K - 1)) := by
  refine (ordersQuota tenantId month plan limit).count_le hplan (fun n p hp hfirst => ?_) hrun
    hretries hK
  obtain ⟨r, hr, rfl⟩ := Option.map_eq_some_iff.mp (List.getElem?_map ▸ hp)
  have hclock := hclock r (List.mem_of_getElem? hr)
  have hfirst : ¬ r.IsRetry := fun hlater => hretry n r hr hlater hfirst
  rcases r.checks hlimit hclock hfirst with ⟨hplaces, hchecks⟩ | hadds
  · exact .inl ⟨⟨r, hr, hplaces⟩, hchecks⟩
  · exact .inr hadds

namespace Sample

/-- The shop on a plan of one order a month. -/
def planned : Db :=
  { shop with
    plans := (∅ : Table String Plan).insert "free" { name := "Free", ordersPerMonth := some 1 }
    tenants := (∅ : Table Uuid Tenant).insert "shop"
      { name := "Shop", slug := "shop", plan := "free" } }

/-- The clock of the first order. -/
def june : Environment := { financialYear := Gst.financialYear 2026 5 }

theorem first_prepared :
    ((prepare june "shop" (body [line "north" 2])).look planned).isSome := by
  decide +kernel

/-- What the first order places in its transaction. -/
def draft : OrderDraft :=
  (((prepare june "shop" (body [line "north" 2])).look planned).get first_prepared).2

theorem look_prepare :
    (prepare june "shop" (body [line "north" 2])).look planned = some (9, draft) := by
  have hstatements : (((prepare june "shop" (body [line "north" 2])).look planned).get
      first_prepared).1 = 9 := by decide +kernel
  rw [draft, ← hstatements]
  exact (Option.some_get first_prepared).symm

/-- Two orders at once, the first of which is tried again. -/
def twoOrders : List InvoiceRequest :=
  [.create {} 2026 5 "shop" "clerk" "first" (body [line "north" 2]),
    .retryCreate {} 2026 5 "shop" "clerk" "first" draft,
    .create {} 2026 5 "shop" "clerk" "second" (body [line "north" 1])]

/-- The second session tries again what the first has tried. -/
def again (n : ℕ) : Option ℕ := if n = 1 then some 0 else none

/-- The first order passes the check, and its transaction is rolled back. The second order is
placed. -/
def rolledBack : List (Action sales) :=
  List.replicate 12 (.advance 0) ++ [.rollback 0] ++ List.replicate 21 (.advance 2)

/-- Then the transaction of the first order is tried again, without another check. -/
def overlapping : List (Action sales) :=
  rolledBack ++ .advance 1 :: List.replicate 11 (.advance 1)

def isAborted (c : Config sales Unit) (n : ℕ) : Bool :=
  match c.sessions[n]? with
  | some (.aborted _) => true
  | _ => false

theorem exists_of_isAborted {c : Config sales Unit} {n : ℕ} (h : isAborted c n = true) :
    ∃ t, c.sessions[n]? = some (.aborted t) := by
  unfold isAborted at h
  split at h
  · exact ⟨_, ‹_›⟩
  · cases h

theorem first_comesTo : ComesTo (.free sales) again
    (.start planned (twoOrders.map (·.program))) rolledBack 0
    (InvoiceRequest.retryCreate {} 2026 5 "shop" "clerk" "first" draft).program := by
  have hprogram : (InvoiceRequest.create {} 2026 5 "shop" "clerk" "first"
      (body [line "north" 2])).program = prepare june "shop" (body [line "north" 2]) >>=
        fun d => (InvoiceRequest.retryCreate {} 2026 5 "shop" "clerk" "first" d).program :=
    bind_assoc _ _ _
  have hlooked := run_look (R := .free sales)
    (c := .start planned (twoOrders.map (·.program))) (i := 0) look_prepare
    (f := fun d => (InvoiceRequest.retryCreate {} 2026 5 "shop" "clerk" "first" d).program)
    (congrArg (fun p => some (Session.running p {})) hprogram)
  exact ⟨List.replicate 9 (.advance 0), _, .advance 0, {}, ⟨_, rfl⟩, hlooked, by simp, rfl, rfl,
    rfl⟩

theorem overlapping_retries : RetriesInTurn (.free sales) again
    (.start planned (twoOrders.map (·.program))) overlapping := by
  have hrun : ((Config.start planned (twoOrders.map (·.program))).run (.free sales)
      rolledBack).map (fun c => isAborted c 0) = some true := by decide +kernel
  obtain ⟨c, hc, haborted⟩ := Option.map_eq_some_iff.mp hrun
  have hbegun : 1 ∉ rolledBack.map Action.session := by decide +kernel
  refine retriesInTurn_once (n := 1) (r := 0) (fun m r hr => ?_) rfl hbegun hc
    (fun y hy hfirst => ?_) fun p t hp => ?_
  · unfold again at hr
    split_ifs at hr with hm
    exact ⟨hm, (Option.some.inj hr).symm⟩
  · have hsessions : ∀ n ∈ rolledBack.map Action.session, requestOf again n = 0 → n = 0 := by
      decide +kernel
    rw [hsessions _ (List.mem_map_of_mem hy) hfirst]
    exact exists_of_isAborted haborted
  · rw [getElem?_of_run hc hbegun] at hp
    cases hp
    exact first_comesTo

end Sample

open Sample in
/-- Two orders that are under way together can both pass a limit of one. The first of them is
rolled back in between, and is not checked again. -/
theorem orders_within_plan_overlapping :
    ∃ c, (Config.start planned (twoOrders.map (·.program))).run (.free sales) overlapping =
        some c ∧
      c.committed.ordersSince "shop" 0 = 2 ∧
      c.committed.ordersSince "shop" 0 ≤ max (planned.ordersSince "shop" 0) (1 + (2 - 1)) := by
  have hrun : ((Config.start planned (twoOrders.map (·.program))).run (.free sales)
      overlapping).map (fun c => c.committed.ordersSince "shop" 0) = some 2 := by decide +kernel
  obtain ⟨c, hc, horders⟩ := Option.map_eq_some_iff.mp hrun
  have hplan : planned.planOf "shop" = some ⟨"Free", some 1⟩ := by decide +kernel
  have hrequests {n : ℕ} {r : InvoiceRequest} (hn : twoOrders[n]? = some r) :
      n = 0 ∧ r = twoOrders[0] ∨ n = 1 ∧ r = twoOrders[1] ∨ n = 2 ∧ r = twoOrders[2] := by
    rcases n with _ | _ | _ | n
    · exact .inl ⟨rfl, (Option.some.inj hn).symm⟩
    · exact .inr (.inl ⟨rfl, (Option.some.inj hn).symm⟩)
    · exact .inr (.inr ⟨rfl, (Option.some.inj hn).symm⟩)
    · cases hn
  refine ⟨c, hc, horders, orders_within_plan hplan rfl ?_ ?_ hc overlapping_retries ?_⟩
  · intro r hr env henv
    obtain ⟨n, hn⟩ := List.mem_iff_getElem?.mp hr
    rcases hrequests hn with ⟨-, rfl⟩ | ⟨-, rfl⟩ | ⟨-, rfl⟩
    · exact .inl (congrArg _ (Option.mem_some_iff.mp henv).symm)
    · cases henv
    · exact .inl (congrArg _ (Option.mem_some_iff.mp henv).symm)
  · intro n r hn hlater
    rcases hrequests hn with ⟨-, rfl⟩ | ⟨rfl, -⟩ | ⟨-, rfl⟩
    · exact hlater.elim
    · decide
    · exact hlater.elim
  · -- there are only two requests that place an order
    intro ys c' _ _ F hF
    have hsubset : F ⊆ {0, 2} := by
      intro n hn
      obtain ⟨⟨r, hr, hplaces⟩, -⟩ := hF n hn
      rcases hrequests hr with ⟨rfl, -⟩ | ⟨-, rfl⟩ | ⟨rfl, -⟩
      · simp
      · exact hplaces.elim
      · simp
    exact (Finset.card_le_card hsubset).trans_eq rfl

end PulseOps
