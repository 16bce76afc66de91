import PulseOps.CashDrawer.NonNegative
import PulseOps.ReadCommitted.Validation
import PulseOps.Sales.CounterSales

/-!
# Counter sales are fully paid

However the sales of a counter are interleaved, a sale either leaves a delivered order whose
completed payments are its total and whose cash is booked, or it leaves nothing. The UPI payment
that a sale presents is looked up before the transaction and without a lock; it is the unique
index on payments that keeps two sales, or two payments of one sale, from using it both.

## Main definitions

* `FullyPaid` — the order is delivered, paid and booked.
* `BackedBy` — the payment row that a Razorpay payment backs.
* `CashRequest.counterSale` — the requests of a counter sale.

## Main results

* `triple_ringUp` — the transaction of a sale.
* `counterSales_fullyPaid` — every run.
-/

set_option autoImplicit false

open ReadCommitted Program Contract

namespace PulseOps

open CashRegisterService PosService OrderService

variable {R : Discipline sales} {t : Transaction sales} {s s' s₀ : Db} {es : List Edit}
  {id id' tenantId userId orderId : Uuid} {order : Order} {taken owed : Cents}

/-! ### The law of the counter -/

/-- The order is handed over, its payments are its total, and its cash is in the drawer. -/
structure FullyPaid (orderId : Uuid) (order : Order) (s : Db) : Prop where
  delivered : order.status = .delivered
  paid : completedFor orderId s = order.total
  booked : cashBookedFor orderId s = cashPaidFor orderId s

/-- The books, and every order since the state `s₀` is fully paid. -/
structure CounterLaw (s₀ s : Db) : Prop extends CounterBooks s where
  kept : ∀ id, (s₀.orders.lookup id).isSome → (s.orders.lookup id).isSome
  fullyPaid : ∀ id order, s₀.orders.lookup id = none → s.orders.lookup id = some order →
    FullyPaid id order s

theorem CounterBooks.law (hs : CounterBooks s) : CounterLaw s s where
  toCounterBooks := hs
  kept _ h := h
  fullyPaid id order hnone horder := by
    rw [hnone] at horder
    cases horder

theorem CounterLaw.of_see (hs : CounterLaw s₀ s) (h : drawerTables.see s' = drawerTables.see s) :
    CounterLaw s₀ s' where
  linked := by
    rw [payments_of_see h, orders_of_see h]
    exact hs.linked
  moved := by
    rw [movements_of_see h, orders_of_see h]
    exact hs.moved
  unique := by
    rw [payments_of_see h]
    exact hs.unique
  kept := by
    rw [orders_of_see h]
    exact hs.kept
  fullyPaid id order hnone horder := by
    rw [orders_of_see h] at horder
    obtain ⟨hdelivered, hpaid, hbooked⟩ := hs.fullyPaid id order hnone horder
    refine ⟨hdelivered, ?_, ?_⟩
    · rw [completedFor, payments_of_see h]
      exact hpaid
    · rw [cashBookedFor, cashPaidFor, movements_of_see h, payments_of_see h]
      exact hbooked

theorem Absent.of_see {k : Key} (h : Absent s k) (hsee : drawerTables.see s' = drawerTables.see s) :
    Absent s' k := by
  cases k with
  | order id => exact (congrArg (AList.lookup id) (orders_of_see hsee)).trans h
  | payment id => exact (congrArg (AList.lookup id) (payments_of_see hsee)).trans h
  | providerPaymentId tenantId pid =>
    intro id p hp
    rw [payments_of_see hsee] at hp
    exact h id p hp
  | _ => trivial

/-- A sale that is complete keeps the law. -/
theorem SaleWritten.law (h : SaleWritten orderId order order.total 0 es)
    (hdelivered : order.status = .delivered) (hs : CounterLaw s₀ s) (hvacant : Vacant es s) :
    CounterLaw s₀ (sales.replay es s) where
  toCounterBooks := h.books hs.toCounterBooks hvacant
  kept id hid := (h.stage hs.toCounterBooks hvacant).lookup_isSome (.inr (hs.kept id hid))
  fullyPaid id row hnone hrow := by
    have hstage := h.stage hs.toCounterBooks hvacant
    rw [hstage.orders] at hrow
    by_cases hne : id = orderId
    · subst hne
      rw [AList.lookup_insert] at hrow
      cases hrow
      exact ⟨hdelivered, hstage.paid, by rw [hstage.cash, add_zero]⟩
    · rw [AList.lookup_insert_ne hne] at hrow
      obtain ⟨hstatus, hpaid, hbooked⟩ := hs.fullyPaid id row hnone hrow
      obtain ⟨hpaid', hcash', hbooked'⟩ := hstage.others id hne
      exact ⟨hstatus, hpaid'.trans hpaid, hbooked'.trans (hbooked.trans hcash'.symm)⟩

/-- The contract: orders stay, and what a transaction has found missing and locked stays
missing. -/
def counterContract (s₀ : Db) : Contract sales where
  inv := CounterLaw s₀
  evolves s s' := ∀ id, (s.orders.lookup id).isSome → (s'.orders.lookup id).isSome
  agree k s s' := Absent s k → Absent s' k
  evolves_refl _ _ h := h
  evolves_trans h h' id hid := h' id (h id hid)
  agree_refl _ _ h := h
  agree_trans h h' hk := h' (h hk)

/-- What the edits write is new, and locked. -/
def vacated (s₀ : Db) (es : List Edit) : (counterContract s₀).Knowledge where
  holds held s := ∀ e ∈ es, ∀ k ∈ e.footprint, k ∈ held ∧ Absent s k
  mono hsub h e he k hk := ⟨hsub (h e he k hk).1, (h e he k hk).2⟩
  stable _ h hr e he k hk :=
    ⟨(h e he k hk).1, hr.agree k (h e he k hk).1 (h e he k hk).2⟩

theorem vacant_of_vacated {held : List Key} (h : (vacated s₀ es).holds held s) : Vacant es s :=
  fun e he k hk => (h e he k hk).2

/-! ### The transaction of a sale -/

/-- A sale has written its order and some payments. -/
def RingingUp (s₀ : Db) (orderId : Uuid) (order : Order) (taken owed : Cents)
    (t : Transaction sales) (s : Db) : Prop :=
  ∃ es, SaleWritten orderId order taken owed es ∧ drawerTables.After (vacated s₀ es) es t s

theorem RingingUp.stable : (counterContract s₀).Stable (RingingUp s₀ orderId order taken owed) := by
  rintro t s s' hs ⟨es, hes, h⟩ hr
  exact ⟨es, hes, Observation.After.stable t s s' hs h hr⟩

/-- The sale is complete. -/
def Sold (s₀ : Db) (orderId : Uuid) (t : Transaction sales) (s : Db) : Prop :=
  ∃ order : Order, order.status = .delivered ∧ RingingUp s₀ orderId order order.total 0 t s

theorem Sold.stable : (counterContract s₀).Stable (Sold s₀ orderId) := by
  rintro t s s' hs ⟨order, hdelivered, h⟩ hr
  exact ⟨order, hdelivered, RingingUp.stable t s s' hs h hr⟩

/-- One statement of a sale, which finds what it writes missing. -/
theorem triple_ring {edit : Db → Except Failure Edit} {e : Edit} {C : Prop}
    (htouch : drawerTables.touches e = true)
    (hedit : ∀ s v e', CounterBooks s → Vacant es s →
      drawerTables.see v = drawerTables.see (sales.replay es s) → edit v = .ok e' →
        e' = e ∧ C ∧ ∀ k ∈ e.footprint, Absent s k) :
    (counterContract s₀).Triple R (drawerTables.After (vacated s₀ es) es) (perform edit)
      fun _ t s => C ∧ drawerTables.After (vacated s₀ (es ++ [e])) (es ++ [e]) t s := by
  refine (Observation.triple_perform (P := fun e' => e' = e ∧ C)
    (A := fun e' => vacated s₀ (es ++ [e'])) fun held s v e' hs hK hv he => ?_).post
      fun _ t s ⟨e', ⟨heq, hC⟩, h⟩ => ⟨hC, heq ▸ h⟩
  obtain ⟨rfl, hC, habsent⟩ := hedit s v e' hs.toCounterBooks (vacant_of_vacated hK) hv he
  refine ⟨htouch, ⟨rfl, hC⟩, fun e₁ he₁ k hk => ?_⟩
  rcases List.mem_append.mp he₁ with he₁ | he₁
  · exact ⟨List.mem_append_right _ (hK e₁ he₁ k hk).1, (hK e₁ he₁ k hk).2⟩
  · obtain rfl := List.mem_singleton.mp he₁
    exact ⟨List.mem_append_left _ hk, habsent k hk⟩

/-- `order.create`. -/
theorem triple_ringOrder :
    (counterContract s₀).Triple R (drawerTables.After (vacated s₀ []) [])
      (perform (Statement.insertOrder orderId order)) fun _ =>
        drawerTables.After (vacated s₀ [.orderInsert orderId order])
          [.orderInsert orderId order] := by
  refine (triple_ring (C := True) rfl fun s v e' _ _ hv he => ?_).post fun _ _ _ h => h.2
  obtain ⟨hnone, rfl⟩ := Statement.insertOrder_eq_ok he
  rw [orders_of_see hv] at hnone
  refine ⟨rfl, trivial, fun k hk => ?_⟩
  rcases List.mem_pair.mp hk with rfl | rfl
  · exact hnone
  · trivial

/-- The unique index on payments refuses a provider id that is in use. -/
theorem absent_of_insertPayment {row : Payment} {e : Edit} {pid : String}
    (h : Statement.insertPayment id row s = .ok e) (hpid : row.providerPaymentId = some pid) :
    Absent s (.providerPaymentId row.tenantId pid) := by
  intro id' p hp htenant hused
  unfold Statement.insertPayment at h
  split_ifs at h with _ hunique
  rw [not_or] at hunique
  apply hunique.2
  refine List.any_eq_true.mpr ⟨⟨id', p⟩, AList.mem_lookup_iff.mp hp, decide_eq_true ?_⟩
  exact ⟨by rw [hpid]; rfl, htenant, hused.trans hpid.symm⟩

/-- `payment.create`: neither the id nor the provider id is in use. -/
theorem triple_ringPayment {row : Payment} (hes : SaleWritten orderId order taken owed es) :
    (counterContract s₀).Triple R (drawerTables.After (vacated s₀ es) es)
      (perform (Statement.insertPayment id row)) fun _ t s =>
        (∀ id' p', .paymentInsert id' p' ∈ es → id' ≠ id ∧ ∀ pid,
          row.providerPaymentId = some pid → p'.tenantId = row.tenantId →
            p'.providerPaymentId ≠ some pid) ∧
          drawerTables.After (vacated s₀ (es ++ [.paymentInsert id row]))
            (es ++ [.paymentInsert id row]) t s := by
  refine triple_ring rfl fun s v e' _ hvacant hv he => ?_
  obtain ⟨-, hnone, rfl⟩ := Statement.insertPayment_eq_ok he
  have hunused {pid : String} (hpid : row.providerPaymentId = some pid) :=
    absent_of_insertPayment he hpid
  -- the statement sees the payments that were committed and its own
  have hrows {id' : Uuid} {p' : Payment} (h : .paymentInsert id' p' ∈ es ∨
      s.payments.lookup id' = some p') : v.payments.lookup id' = some p' := by
    rw [payments_of_see hv]
    exact (hes.lookup_payments hvacant.payment).mpr h
  refine ⟨rfl, fun id' p' hmem => ⟨?_, fun pid hpid htenant => ?_⟩, fun k hk => ?_⟩
  · rintro rfl
    rw [hrows (.inl hmem)] at hnone
    cases hnone
  · exact hunused hpid id' p' (hrows (.inl hmem)) htenant
  · -- what the statement does not see in its own transaction, nobody has committed
    rcases List.mem_cons.mp hk with rfl | hk
    · change s.payments.lookup id = none
      rw [Option.eq_none_iff_forall_ne_some]
      intro p' hp'
      rw [hrows (.inr hp')] at hnone
      cases hnone
    · obtain ⟨pid, hpid, rfl⟩ := List.mem_map.mp hk
      intro id' p' hp'
      exact hunused (Option.mem_toList.mp hpid) id' p' (hrows (.inr hp'))

/-- `cashMovement.create`. -/
theorem triple_ringMovement {m : CashMovement} :
    (counterContract s₀).Triple R (drawerTables.After (vacated s₀ es) es)
      (perform (Statement.insertCashMovement m)) fun _ =>
        drawerTables.After (vacated s₀ (es ++ [.cashMovementInsert m]))
          (es ++ [.cashMovementInsert m]) := by
  refine (triple_ring (C := True) rfl fun s v e' _ _ _ he => ?_).post fun _ _ _ h => h.2
  obtain ⟨-, rfl⟩ := Statement.insertCashMovement_eq_ok he
  exact ⟨rfl, trivial, fun k hk => absurd hk List.not_mem_nil⟩

/-- One payment, with its movement when it is cash. -/
theorem triple_ringFor {session : Option Uuid} {x : SalePayment × Option ConfirmedUpi}
    (hprovider : (paymentRow tenantId orderId order x.1 x.2).provider = "cash" ↔
      x.1.method = .cash) :
    (counterContract s₀).Triple R (RingingUp s₀ orderId order taken 0)
      (takePayment tenantId userId orderId session order x)
      fun _ => RingingUp s₀ orderId order (taken + x.1.amount) 0 := by
  refine Triple.require_bind fun _ => Triple.of_exists fun es => Triple.of_and fun hes => ?_
  refine (triple_ringPayment hes).bind fun _ => Triple.of_and fun hnew => ?_
  refine (Observation.triple_emits (insertPaymentTransaction_emits (by rfl))).bind fun _ => ?_
  have hpaid := hes.paid (p := paymentRow tenantId orderId order x.1 x.2) hnew rfl rfl
  split
  · rename_i hcash
    refine Triple.orRaise_bind fun sessionId _ => ?_
    refine triple_ringMovement.post fun _ t s h => ⟨_, hpaid.booked rfl rfl ?_, h⟩
    exact (if_pos (hprovider.mpr hcash)).symm
  · rename_i hcash
    rw [if_neg fun h => hcash (hprovider.mp h)] at hpaid
    exact (Triple.ret (Q := fun _ => drawerTables.After _ _) Observation.After.stable).post
      fun _ t s h => ⟨_, hpaid, h⟩

/-- The hand-over. -/
theorem triple_ringOut {status : OrderStatus} :
    (counterContract s₀).Triple R (RingingUp s₀ orderId order taken owed)
      (perform (Statement.updateOrderStatus orderId status))
      fun _ => RingingUp s₀ orderId { order with status } taken owed := by
  refine Triple.of_exists fun es => Triple.of_and fun hes => ?_
  refine (triple_ring (C := True) (e := .orderUpdate orderId { order with status }) rfl
    fun s v e' hs hvacant hv he => ?_).post fun _ t s ⟨_, h⟩ => ⟨_, hes.delivered status, h⟩
  obtain ⟨row, hrow, rfl⟩ := Statement.updateOrderStatus_eq_ok.mp he
  rw [orders_of_see hv, (hes.stage hs hvacant).orders, AList.lookup_insert] at hrow
  obtain rfl := Option.some.inj hrow
  refine ⟨rfl, trivial, fun k hk => ?_⟩
  obtain rfl := List.mem_singleton.mp hk
  exact hes.lookup_order hvacant

/-- The transaction of a sale. -/
theorem triple_ringUp {env : Environment} {d : OrderDraft} {session : Option Uuid}
    {payments : List (SalePayment × Option ConfirmedUpi)} (hupi : ∀ x ∈ payments, UpiOnly x) :
    (counterContract s₀).Triple R (drawerTables.After (vacated s₀ []) [])
      (place env tenantId userId orderId d (settle tenantId userId session payments))
      fun _ => Sold s₀ orderId := by
  refine drawerTables_stockBlind.triple_place
    (Observation.triple_emits (nextInvoiceNumber_emits fun _ => rfl)) (fun _ => triple_ringOrder)
    (fun n => ?_) Sold.stable
  generalize horder : orderRow env tenantId d n = order
  refine Triple.require_bind fun htotal => ?_
  refine Triple.bind (Q := fun _ => RingingUp s₀ orderId order order.total 0) ?_ fun _ => ?_
  · -- what has been taken is the bill without the payments that are left
    refine ((Triple.forM (I := fun rest t s => (∀ x ∈ rest, UpiOnly x) ∧
      RingingUp s₀ orderId order (order.total - (rest.map (·.1.amount)).sum) 0 t s)
        (fun t s s' hs h hr => ⟨h.1, RingingUp.stable t s s' hs h.2 hr⟩)
          fun x rest => Triple.of_and fun hrest => ?_).pre fun t s _ h => ⟨hupi, _, ?_, h⟩).post
            fun _ t s h => ?_
    · have hamount : order.total - ((x :: rest).map (·.1.amount)).sum + x.1.amount =
          order.total - (rest.map (·.1.amount)).sum := by
        rw [List.map_cons, List.sum_cons]
        ring
      refine (triple_ringFor (paymentRow_provider (hrest x List.mem_cons_self))).post
        fun _ t s h => ⟨fun y hy => hrest y (List.mem_cons_of_mem _ hy), ?_⟩
      rwa [hamount] at h
    · rw [htotal, sub_self]
      exact .placed order
    · simpa using h.2
  · refine triple_ringOut.bind fun _ => Triple.of_exists fun es => Triple.of_and fun hes => ?_
    exact drawerTables_stockBlind.triple_note.post fun _ t s h => ⟨_, rfl, es, hes, h⟩

/-! ### All requests -/

namespace CashRequest

/-- A counter sale, or what is created before one. An attempt that is made again brings along
its payments as Razorpay confirmed them. -/
def counterSale : CashRequest → Bool
  | walkInCustomer _ _ => true
  | ensureDefault _ _ => true
  | sale _ _ _ _ _ _ _ => true
  | retrySale _ _ _ _ _ _ payments => payments.all fun x => x.2.isSome → x.1.method = .upi
  | _ => false

/-- The order of a sale. -/
def soldOrder : CashRequest → Option Uuid
  | sale _ _ _ orderId _ _ _ => some orderId
  | retrySale _ _ _ orderId _ _ _ => some orderId
  | _ => none

end CashRequest

/-- What a request has done at its commit. -/
def CounterWork (s₀ : Db) : Option Uuid → Transaction sales → Db → Prop
  | some orderId => Sold s₀ orderId
  | none => drawerTables.After (vacated s₀ []) []

theorem CashRequest.rings (r : CashRequest) (hr : r.counterSale = true) :
    (counterContract s₀).Triple R (drawerTables.After (vacated s₀ []) []) r.program
      fun _ => CounterWork s₀ r.soldOrder := by
  cases r with
  | walkInCustomer tenantId customerId =>
    have hemits := walkInCustomer_emits (P := fun e => drawerTables.touches e = false) (by rfl)
      (by simp [drawerTables]) tenantId customerId
    exact (Observation.triple_emits hemits).bind fun _ =>
      Triple.readsOnly (.ret ()) Observation.After.stable
  | ensureDefault tenantId registerId =>
    have hemits := ensureDefault_emits (P := fun e => drawerTables.touches e = false) (by rfl)
      (by simp [drawerTables]) tenantId registerId
    exact (Observation.triple_emits hemits).bind fun _ =>
      Triple.readsOnly (.ret ()) Observation.After.stable
  | sale =>
    refine (triple_saleOf fun session payments d _ hupi _ => triple_ringUp hupi).bind
      fun _ => Triple.readsOnly (.ret ()) Sold.stable
  | retrySale env tenantId userId orderId d session payments =>
    refine (triple_ringUp fun x hx => ?_).bind fun _ => Triple.readsOnly (.ret ()) Sold.stable
    simp only [CashRequest.counterSale, List.all_eq_true, decide_eq_true_eq] at hr
    exact hr x hx
  | _ => cases hr

/-- What edits that were new and keep the law may commit. -/
theorem guarantee_of_after (h : drawerTables.After (vacated s₀ es) es t s)
    (hlaw : CounterLaw s₀ (sales.replay es s))
    (hkept : ∀ id, (s.orders.lookup id).isSome → ((sales.replay es s).orders.lookup id).isSome) :
    (counterContract s₀).Guarantee R t s where
  inv := hlaw.of_see h.see_view
  evolves id hid := by
    rw [orders_of_see h.see_view]
    exact hkept id hid
  agree k hk _ habsent := by
    refine Absent.of_see (habsent.replay fun e he hmem => hk ?_) h.see_view
    exact h.covered e he k hmem

theorem CounterWork.guarantee {o : Option Uuid} (hs : CounterLaw s₀ s)
    (h : CounterWork s₀ o t s) : (counterContract s₀).Guarantee R t s := by
  cases o with
  | none => exact guarantee_of_after h hs fun _ hid => hid
  | some orderId =>
    obtain ⟨order, hdelivered, es, hes, hafter⟩ := h
    have hvacant := vacant_of_vacated hafter.knows
    refine guarantee_of_after hafter (hes.law hdelivered hs hvacant) fun id hid => ?_
    exact (hes.stage hs.toCounterBooks hvacant).lookup_isSome (.inr hid)

/-- A sale leaves its order, which is new. -/
theorem Sold.leaves (hs : CounterLaw s₀ s) (h : Sold s₀ orderId t s) :
    s₀.orders.lookup orderId = none ∧ ((t.view s).orders.lookup orderId).isSome := by
  obtain ⟨order, -, es, hes, hafter⟩ := h
  have hvacant := vacant_of_vacated hafter.knows
  constructor
  · rw [← Option.not_isSome_iff_eq_none]
    intro hsome
    have hkept := hs.kept orderId hsome
    rw [hes.lookup_order hvacant] at hkept
    cases hkept
  · rw [orders_of_see hafter.see_view]
    exact (hes.stage hs.toCounterBooks hvacant).lookup_isSome (.inl rfl)

/-! ### Every run -/

variable {requests : List CashRequest} {c : Config sales Unit}

/-- The orders of the sales that have committed are new, and there. -/
def OrdersLeft (requests : List CashRequest) (s₀ : Db) (c : Config sales Unit) : Prop :=
  ∀ (i : ℕ) (r : CashRequest) (orderId : Uuid) (t : Transaction sales), requests[i]? = some r →
    r.soldOrder = some orderId → c.sessions[i]? = some (.committed () t) →
      s₀.orders.lookup orderId = none ∧ (c.committed.orders.lookup orderId).isSome

theorem counterLaw_of_reaches (hs₀ : CounterBooks s₀)
    (hsales : ∀ r ∈ requests, r.counterSale = true)
    (h : Reaches R (.start s₀ (requests.map CashRequest.program)) c) :
    CounterLaw s₀ c.committed ∧ OrdersLeft requests s₀ c := by
  have hset {c : Config sales Unit} {j : ℕ} {x : Session sales Unit}
      (hc : CounterLaw s₀ c.committed ∧ OrdersLeft requests s₀ c)
      (hx : ∀ t, x ≠ .committed () t) : CounterLaw s₀ (c.setSession j x).committed ∧
        OrdersLeft requests s₀ (c.setSession j x) := by
    refine ⟨hc.1, fun i r orderId t hr horder hi => ?_⟩
    rcases getElem?_setSession hi with ⟨-, heq⟩ | ⟨-, hold⟩
    · exact absurd heq.symm (hx t)
    · exact hc.2 i r orderId t hr horder hold
  refine reaches_induction_indexed (L := counterContract s₀)
    (Q := fun i _ t s => ∀ r, requests[i]? = some r → CounterWork s₀ r.soldOrder t s)
    (P := fun c => CounterLaw s₀ c.committed ∧ OrdersLeft requests s₀ c)
    hs₀.law (fun i p hp => ?_) ⟨hs₀.law, fun i r orderId t _ _ hi => ?_⟩
    (fun c i a t hc hi _ hs hg hQ => ⟨hg.inv, fun j r orderId t' hr horder hj => ?_⟩)
    (fun _ _ _ _ hc _ _ => hset hc fun _ h => nomatch h)
    (fun _ _ _ _ _ _ hc _ => hset hc fun _ h => nomatch h) h
  · rw [List.getElem?_map, Option.map_eq_some_iff] at hp
    obtain ⟨r, hr, rfl⟩ := hp
    have hrings : (counterContract s₀).Triple R (drawerTables.After (vacated s₀ []) []) r.program
        fun _ => CounterWork s₀ r.soldOrder := r.rings (hsales r (List.mem_of_getElem? hr))
    refine wp_mono (hrings {} s₀ hs₀.law (.start fun _ he => absurd he List.not_mem_nil))
      fun _ t s hwork hs _ => ⟨hwork.guarantee hs, fun r' hr' => ?_⟩
    obtain rfl := Option.some.inj (hr.symm.trans hr')
    exact hwork
  · obtain ⟨p, -, hp⟩ := List.mem_map.mp (List.mem_of_getElem? hi)
    cases hp
  · rcases getElem?_setSession hj with ⟨rfl, heq⟩ | ⟨-, hold⟩
    · cases heq
      have hwork := hQ r hr
      rw [horder] at hwork
      exact hwork.leaves hs
    · obtain ⟨hnew, hthere⟩ := hc.2 j r orderId t' hr horder hold
      exact ⟨hnew, hg.evolves orderId hthere⟩

/-- The Razorpay payment `pid` of a business backs the payment `id`. -/
def BackedBy (tenantId : Uuid) (pid : String) (id : Uuid) (s : Db) : Prop :=
  ∃ p, s.payments.lookup id = some p ∧ p.tenantId = tenantId ∧ p.provider = razorpayProvider ∧
    p.providerPaymentId = some pid

/-- However the sales of a counter interleave: a Razorpay payment backs one payment at most, the
order of a sale that succeeds is delivered, paid in full and has its cash booked, and a sale that
fails leaves nothing, so that the state is what the others have made of the first one. -/
theorem counterSales_fullyPaid (hs₀ : CounterBooks s₀)
    (hsales : ∀ r ∈ requests, r.counterSale = true)
    (h : Reaches R (.start s₀ (requests.map CashRequest.program)) c) :
    (∀ tenantId pid id id', BackedBy tenantId pid id c.committed →
      BackedBy tenantId pid id' c.committed → id = id') ∧
    ∀ (i : ℕ) (r : CashRequest) (orderId : Uuid), requests[i]? = some r →
      r.soldOrder = some orderId →
      (∀ t, c.sessions[i]? = some (.committed () t) →
        ∃ order, c.committed.orders.lookup orderId = some order ∧
          FullyPaid orderId order c.committed) ∧
      (∀ t, c.sessions[i]? = some (.aborted t) →
        c.committed = sales.replay
          ((c.log.filter (·.session ≠ i)).reverse.flatMap Commit.edits) s₀) := by
  obtain ⟨hlaw, hleft⟩ := counterLaw_of_reaches hs₀ hsales h
  refine ⟨?_, fun i r orderId hr horder => ⟨fun t hi => ?_, fun t hi => ?_⟩⟩
  · rintro tenantId pid id id' ⟨p, hp, htenant, -, hpid⟩ ⟨p', hp', htenant', -, hpid'⟩
    exact hlaw.unique id id' p p' pid hp hp' (htenant.trans htenant'.symm) hpid hpid'
  · obtain ⟨hnew, hthere⟩ := hleft i r orderId t hr horder hi
    obtain ⟨order, hlookup⟩ := Option.isSome_iff_exists.mp hthere
    exact ⟨order, hlookup, hlaw.fullyPaid orderId order hnew hlookup⟩
  · refine h.committed_eq_of_uncommitted fun a t' hi' => ?_
    rw [hi] at hi'
    cases hi'

namespace Sample

/-- The counter with an open shift, in a shop that is connected to Razorpay. -/
def upiCounter : Db :=
  { counter with
    paymentGateways := (∅ : Table Uuid PaymentGateway).insert "shop"
      { keyId := "rzp_test_1", keySecret := some "secret" }
    cashSessions := (∅ : Table Uuid CashSession).insert "shift"
      { tenantId := "shop", registerId := "till", status := .open, openingFloat := 500 } }

theorem upiCounter_books : CounterBooks upiCounter where
  linked id p hp := by cases hp
  moved m hm := absurd hm List.not_mem_nil
  unique id id' p p' pid hp := by cases hp

/-- One shirt, paid partly in cash and partly with the QR code. -/
def splitSale (cashId upiId : Uuid) : SaleBody :=
  { cashSale with
    payments := [{ method := .cash, amount := 18, ids := ⟨cashId, "c" ++ cashId, "t" ++ cashId⟩ },
      { method := .upi, amount := 100, razorpayQrId := some "qr"
        ids := ⟨upiId, "c" ++ upiId, "t" ++ upiId⟩ }] }

/-- Two sales that present the same QR code. -/
def qrRequests : List CashRequest :=
  [.sale {} "shop" "clerk" "order1" "walkIn" "till" (splitSale "cash1" "upi1"),
    .sale {} "shop" "clerk" "order2" "walkIn" "till" (splitSale "cash2" "upi2")]

/-- Razorpay has captured the money once, and says so twice. -/
def qrPaid (i : ℕ) : Action sales := .reply i (.qrReceived [⟨"pay_1", true, 100, none⟩])

end Sample

open Sample in
/-- Both sales find the UPI payment unused, and the index refuses the second one. -/
theorem counterSales_fullyPaid_sample :
    ∃ (c : Config sales Unit) (order : Order) (t : Transaction sales),
      Reaches (.free sales) (.start upiCounter (qrRequests.map CashRequest.program)) c ∧
        c.committed.orders.lookup "order1" = some order ∧ FullyPaid "order1" order c.committed ∧
        c.sessions[1]? = some (.aborted t) ∧
        c.committed = sales.replay
          ((c.log.filter (·.session ≠ 1)).reverse.flatMap Commit.edits) upiCounter := by
  have hrun : ((Config.start upiCounter (qrRequests.map CashRequest.program)).run (.free sales)
      (List.replicate 3 (.advance 0) ++ [qrPaid 0] ++ List.replicate 3 (.advance 1) ++
        [qrPaid 1, .advance 1] ++ List.replicate 28 (.advance 0) ++
          List.replicate 22 (.advance 1))).map
      (fun c => (c.log.map Commit.session, c.sessions.map Session.ended)) =
        some ([0], [true, true]) := by
    decide +kernel
  obtain ⟨c, hc, hstate⟩ := Option.map_eq_some_iff.mp hrun
  obtain ⟨hlog, hended⟩ := Prod.mk.inj hstate
  have hreach := reaches_of_run .refl hc
  obtain ⟨-, hsales⟩ := counterSales_fullyPaid upiCounter_books (by decide) hreach
  obtain ⟨⟨⟩, t₀, hcommitted⟩ := (hreach.log_sessions.2 0).mp (by simp [hlog])
  obtain ⟨order, horder, hpaid⟩ := (hsales 0 _ "order1" rfl rfl).1 t₀ hcommitted
  -- the other sale has ended, and not by a commit
  have haborted : ∃ t, c.sessions[1]? = some (.aborted t) := by
    have hend : (c.sessions.map Session.ended)[1]? = some true := by rw [hended]; rfl
    rw [List.getElem?_map] at hend
    obtain ⟨x, hx, hxended⟩ := Option.map_eq_some_iff.mp hend
    cases x with
    | running p t => cases hxended
    | committed a t =>
      have hmem := (hreach.log_sessions.2 1).mpr ⟨a, t, hx⟩
      rw [hlog] at hmem
      exact absurd hmem (by decide)
    | aborted t => exact ⟨t, hx⟩
  obtain ⟨t, ht⟩ := haborted
  exact ⟨c, order, t, hreach, horder, hpaid, ht, (hsales 1 _ "order2" rfl rfl).2 t ht⟩

end PulseOps
