import PulseOps.CashDrawer.ClosedShifts
import PulseOps.CashDrawer.Takings

/-!
# Expected cash and the cash in the drawer

Counter sales and staff leave a movement for the cash they put in or take out, so the expected
cash of a shift is its float with the cash payments taken in it and what staff moved. A refund
leaves none, even when the payment it gives back was made in cash: it is missing from the
expected cash of every shift that was open when it was given.

## Main definitions

* `BooksKept` — what a transaction has written keeps the drawer's books.
* `refundsGiven` — the cash refunds committed while a shift was open.
* `noCashRefunds` — the condition: none is given while a shift of the business is open.

## Main results

* `CashRequest.keepsBooks` — every request keeps the books.
* `expectedCash_law_iff` — every run: the law holds just when no cash was refunded.
* `expectedCash_law` — every run that meets the condition.
* `cashRefund_not_law` — without the condition.
-/

set_option autoImplicit false

open ReadCommitted Program Contract

namespace PulseOps

open CashRegisterService PosService OrderService

variable {R : Discipline sales} {t : Transaction sales} {s s₀ : Db} {es : List Edit}
  {id tenantId userId orderId : Uuid} {order : Order}

/-! ### Edits that keep the books -/

/-- What the transaction has written keeps the drawer's books, whatever else is committed. -/
def BooksKept (t : Transaction sales) (s : Db) : Prop :=
  ∃ (K : drawerContract.Knowledge) (es : List Edit),
    (∀ held s, DrawerBooks s → K.holds held s → DrawerBooks (sales.replay es s)) ∧
      drawerTables.After K es t s

theorem BooksKept.stable : drawerContract.Stable BooksKept := by
  rintro t s s' hs ⟨K, es, hkeeps, h⟩ hr
  exact ⟨K, es, hkeeps, Observation.After.stable t s s' hs h hr⟩

theorem BooksKept.guarantee (hs : DrawerBooks s) (h : BooksKept t s) :
    drawerContract.Guarantee R t s := by
  obtain ⟨K, es, hkeeps, h⟩ := h
  refine ⟨(hkeeps t.held s hs h.knows).of_see h.see_view, trivial, fun key hkey _ => ⟨?_, ?_⟩⟩
  · rintro id rfl
    rw [orders_of_see h.see_view,
      lookup_orders_frame (fun e he hfoot => hkey (h.covered e he _ hfoot))]
  · rintro id rfl
    rw [payments_of_see h.see_view,
      lookup_payments_frame (fun e he hfoot => hkey (h.covered e he _ hfoot))]

/-- Statements on other tables alone. -/
theorem triple_booksAside {α : Type} {p : Sql α}
    (hp : p.Emits fun e => drawerTables.touches e = false) :
    drawerContract.Triple R (drawerTables.After (L := drawerContract) .none []) p
      fun _ => BooksKept :=
  (Observation.triple_emits hp).post fun _ _ _ h => ⟨_, [], fun _ _ hs _ => hs, h⟩

/-- What is known of an edit that keeps the books by itself. -/
def routine (e : Edit) : drawerContract.Knowledge where
  holds held s := match e with
    | .cashSessionInsert id _ => PlainId id
    | .cashSessionUpdate id _ => PlainId id
    | .cashMovementInsert m => m.type = .cashIn ∨ m.type = .cashOut
    | .paymentUpdate id row => .payment id ∈ held ∧
        ∃ row₀ status, s.payments.lookup id = some row₀ ∧ row = { row₀ with status }
    | _ => False
  mono hsub h := by
    cases e with
    | paymentUpdate id row => exact ⟨hsub h.1, h.2⟩
    | _ => exact h
  stable _ h hr := by
    cases e with
    | paymentUpdate id row =>
      obtain ⟨hheld, row₀, status, hrow, heq⟩ := h
      exact ⟨hheld, row₀, status, ((hr.agree _ hheld).2 id rfl).symm.trans hrow, heq⟩
    | _ => exact h

theorem routine_keeps {e : Edit} {held : List Key} (hs : DrawerBooks s)
    (h : (routine e).holds held s) : DrawerBooks (sales.replay [e] s) := by
  cases e with
  | cashSessionInsert id row => exact hs.insertSession h
  | cashSessionUpdate id row => exact hs.insertSession h
  | cashMovementInsert m => exact hs.moved h
  | paymentUpdate id row =>
    obtain ⟨-, row₀, status, hrow, rfl⟩ := h
    exact hs.restated hrow
  | _ => exact h.elim

/-- One statement that keeps the books by itself. -/
theorem triple_routine {edit : Db → Except Failure Edit}
    (hedit : ∀ held s v e, DrawerBooks s → drawerTables.see v = drawerTables.see s →
      edit v = .ok e → drawerTables.touches e = true ∧ (routine e).holds (e.footprint ++ held) s) :
    drawerContract.Triple R (drawerTables.After (L := drawerContract) .none []) (perform edit)
      fun _ => BooksKept := by
  refine (Observation.triple_perform (P := fun _ => True) (A := routine)
    fun held s v e hs _ hv he => ?_).post fun _ t s ⟨e, _, h⟩ =>
      ⟨routine e, [e], fun held s hs => routine_keeps hs, h⟩
  obtain ⟨htouch, hroutine⟩ := hedit held s v e hs hv he
  exact ⟨htouch, trivial, hroutine⟩

/-! ### Staff -/

theorem triple_openBooks {registerId : Uuid} {body : OpenBody} (hplain : PlainId id) :
    drawerContract.Triple R (drawerTables.After (L := drawerContract) .none [])
      (openRegister tenantId userId registerId id body) fun _ => BooksKept := by
  refine (Observation.triple_readsOnly (.query _)).bind fun found => ?_
  refine Triple.orRaise_bind fun register _ => ?_
  refine (triple_routine fun held s v e _ _ he => ?_).bind fun _ =>
    Triple.readsOnly (.query _) BooksKept.stable
  obtain ⟨-, rfl⟩ := Statement.insertCashSession_eq_ok (Statement.onUniqueViolation_eq_ok.mp he)
  exact ⟨rfl, hplain⟩

theorem lockSession_emits {P : Edit → Prop} : (lockSession tenantId id).Emits P := by
  refine (emits_lockRow _).bind fun _ => (ReadsOnly.query _).emits.bind fun found => ?_
  exact (ReadsOnly.orRaise _ _).emits.bind fun x => (ReadsOnly.require _ _).emits.bind fun _ =>
    trivial

theorem triple_moveBooks {body : MovementBody} (hvalid : body.valid = true) :
    drawerContract.Triple R (drawerTables.After (L := drawerContract) .none [])
      (addMovement tenantId userId id body) fun _ => BooksKept := by
  refine (Observation.triple_emits lockSession_emits).bind fun x => Triple.require_bind fun _ => ?_
  refine (triple_routine fun held s v e _ _ he => ?_).bind fun _ =>
    Triple.readsOnly (.query _) BooksKept.stable
  obtain ⟨-, rfl⟩ := Statement.insertCashMovement_eq_ok he
  simp only [MovementBody.valid, Bool.decide_and, Bool.decide_or, Bool.and_eq_true,
    Bool.or_eq_true, decide_eq_true_eq] at hvalid
  exact ⟨rfl, hvalid.1⟩

theorem triple_closeBooks {body : CloseBody} :
    drawerContract.Triple R (drawerTables.After (L := drawerContract) .none [])
      (close tenantId userId id body) fun _ => BooksKept := by
  refine (Observation.triple_emits lockSession_emits).bind fun x => ?_
  refine (triple_routine fun held s v e hs hv he => ?_).bind fun _ =>
    Triple.readsOnly (.query _) BooksKept.stable
  obtain ⟨row, hrow, rfl⟩ := Statement.updateCashSession_eq_ok.mp he
  rw [sessions_of_see hv] at hrow
  exact ⟨rfl, hs.plain id (by rw [hrow]; rfl)⟩

/-- A refund changes the status of its payment. -/
theorem triple_refundBooks {paymentId refundId : Uuid} {randomRef : String}
    {body : PaymentService.RefundBody} :
    drawerContract.Triple R (drawerTables.After (L := drawerContract) .none [])
      (PaymentService.refund tenantId userId paymentId refundId randomRef body)
      fun _ => BooksKept := by
  refine (Observation.triple_readsOnly (.query _)).bind fun found => ?_
  refine Triple.orRaise_bind fun payment _ => Triple.require_bind fun _ => ?_
  refine Triple.require_bind fun _ => (Observation.triple_readsOnly (.query _)).bind fun refunded =>
    Triple.require_bind fun _ => ?_
  refine (Observation.triple_emits (emits_lockRow _)).bind fun _ => ?_
  refine (Observation.triple_readsOnly (.query _)).bind fun reread => ?_
  refine (Observation.triple_readsOnly (.query _)).bind fun freshRefunded => ?_
  refine Triple.orRaise_bind fun fresh _ => Triple.require_bind fun _ => ?_
  refine Triple.require_bind fun _ => ?_
  refine (Observation.triple_emits (sendRefund_emits _ _ _ _ _)).bind fun providerRefundId => ?_
  refine (Observation.triple_emits (emits_perform fun s e he => ?_)).bind fun _ => ?_
  · obtain rfl := Statement.insertRefund_eq_ok he
    rfl
  refine (Observation.triple_emits (insertPaymentTransaction_emits rfl)).bind fun _ => ?_
  refine Triple.require_bind fun _ => ?_
  refine (triple_routine fun held s v e _ hv he => ?_).bind fun _ =>
    Triple.readsOnly (.query _) BooksKept.stable
  obtain ⟨row, hrow, rfl⟩ := Statement.updatePayment_eq_ok he
  rw [payments_of_see hv] at hrow
  exact ⟨rfl, by simp [Edit.footprint], row, _, hrow, rfl⟩

/-! ### Sales -/

/-- A sale has placed its order and taken some payments. -/
def Selling (orderId : Uuid) (order : Order) (t : Transaction sales) (s : Db) : Prop :=
  ∃ es, SaleSoFar orderId order es ∧ drawerTables.After (unsold orderId es) es t s

theorem Selling.stable : drawerContract.Stable (Selling orderId order) := by
  rintro t s s' hs ⟨es, hes, h⟩ hr
  exact ⟨es, hes, Observation.After.stable t s s' hs h hr⟩

/-- A payment that was written is there. -/
theorem payments_isSome_of_footprint {paymentId : Uuid} {e : Edit} (he : e ∈ es)
    (hfoot : Key.payment paymentId ∈ e.footprint) (s : Db) :
    ((sales.replay es s).payments.lookup paymentId).isSome := by
  -- payments are never deleted
  have hkeeps (e : Edit) (s : Db) (hsome : (s.payments.lookup paymentId).isSome) :
      ((s.apply e).payments.lookup paymentId).isSome := by
    have hinsert (id : Uuid) (row : Payment) :
        ((s.payments.insert id row).lookup paymentId).isSome := by
      by_cases hid : paymentId = id
      · rw [hid, AList.lookup_insert]
        rfl
      · rwa [AList.lookup_insert_ne hid]
    cases e with
    | paymentInsert id row => exact hinsert id row
    | paymentUpdate id row => exact hinsert id row
    | _ => exact hsome
  have hstays (es : List Edit) (s : Db) (hsome : (s.payments.lookup paymentId).isSome) :
      ((sales.replay es s).payments.lookup paymentId).isSome := by
    induction es generalizing s with
    | nil => exact hsome
    | cons e es ih => exact ih _ (hkeeps e s hsome)
  obtain ⟨before, after, rfl⟩ := List.append_of_mem he
  rw [Database.replay_append, Database.replay_cons]
  apply hstays
  cases e with
  | paymentInsert id row =>
    obtain rfl : paymentId = id := by simpa [Edit.footprint] using hfoot
    exact (congrArg Option.isSome (AList.lookup_insert _)).trans rfl
  | paymentUpdate id row =>
    obtain rfl : paymentId = id := by simpa [Edit.footprint] using hfoot
    exact (congrArg Option.isSome (AList.lookup_insert _)).trans rfl
  | _ => simp [Edit.footprint, CashSession.openKeys] at hfoot

variable {session : Option Uuid} {x : SalePayment × Option ConfirmedUpi}

/-- The payment row is new, so it stays the only one with its id. -/
theorem triple_writePayment {paymentId : Uuid} {row : Payment} :
    drawerContract.Triple R (drawerTables.After (unsold orderId es) es)
      (perform (Statement.insertPayment paymentId row))
      fun _ t s => (∀ e ∈ es, Key.payment paymentId ∉ e.footprint) ∧
        drawerTables.After (unsold orderId (es ++ [.paymentInsert paymentId row]))
          (es ++ [.paymentInsert paymentId row]) t s := by
  refine (Observation.triple_perform
    (P := fun e => e = .paymentInsert paymentId row ∧ ∀ e ∈ es, Key.payment paymentId ∉ e.footprint)
    (A := fun e => unsold orderId (es ++ [e])) fun held s v e hs hK hv he => ?_).post
      fun _ t s ⟨e, ⟨heq, hnew⟩, h⟩ => ⟨hnew, heq ▸ h⟩
  obtain ⟨-, hnone, rfl⟩ := Statement.insertPayment_eq_ok he
  rw [payments_of_see hv] at hnone
  have hnew : ∀ e ∈ es, Key.payment paymentId ∉ e.footprint := by
    intro e he hfoot
    have hsome := payments_isSome_of_footprint he hfoot s
    rw [hnone] at hsome
    cases hsome
  refine ⟨rfl, ⟨rfl, hnew⟩, ⟨List.mem_append_right _ hK.1.1, hK.1.2⟩, ?_⟩
  rintro id ⟨e, he, hfoot⟩
  rcases List.mem_append.mp he with he | he
  · exact ⟨List.mem_append_right _ (hK.2 id ⟨e, he, hfoot⟩).1, (hK.2 id ⟨e, he, hfoot⟩).2⟩
  · obtain rfl := List.mem_singleton.mp he
    obtain rfl : id = paymentId := by simpa [Edit.footprint] using hfoot
    refine ⟨List.mem_append_left _ hfoot, ?_⟩
    rwa [lookup_payments_frame hnew] at hnone

/-- The foreign key of a movement finds its shift, whose id is plain. -/
theorem triple_writeMovement {m : CashMovement}
    (hsessions : ∀ held s, DrawerBooks s → (unsold orderId es).holds held s →
      (sales.replay es s).cashSessions = s.cashSessions) :
    drawerContract.Triple R (drawerTables.After (unsold orderId es) es)
      (perform (Statement.insertCashMovement m))
      fun _ t s => PlainId m.sessionId ∧
        drawerTables.After (unsold orderId (es ++ [.cashMovementInsert m]))
          (es ++ [.cashMovementInsert m]) t s := by
  refine (Observation.triple_perform
    (P := fun e => e = .cashMovementInsert m ∧ PlainId m.sessionId)
    (A := fun e => unsold orderId (es ++ [e])) fun held s v e hs hK hv he => ?_).post
      fun _ t s ⟨e, ⟨heq, hplain⟩, h⟩ => ⟨hplain, heq ▸ h⟩
  obtain ⟨hopened, rfl⟩ := Statement.insertCashMovement_eq_ok he
  rw [sessions_of_see hv, hsessions held s hs hK] at hopened
  refine ⟨rfl, ⟨rfl, hs.plain m.sessionId hopened⟩, hK.1, ?_⟩
  rintro id ⟨e, he, hfoot⟩
  rcases List.mem_append.mp he with he | he
  · exact hK.2 id ⟨e, he, hfoot⟩
  · obtain rfl := List.mem_singleton.mp he
    exact absurd hfoot List.not_mem_nil

/-- One payment, with its movement when it is cash. -/
theorem triple_sellFor (hupi : UpiOnly x)
    (hshift : ∀ sessionId, session = some sessionId → PlainId sessionId →
      order.shift = some sessionId) :
    drawerContract.Triple R (Selling orderId order)
      (takePayment tenantId userId orderId session order x) fun _ => Selling orderId order := by
  refine Triple.require_bind fun _ => Triple.of_exists fun es => Triple.of_and fun hsofar => ?_
  refine triple_writePayment.bind fun _ => Triple.of_and fun hnew => ?_
  refine (Observation.triple_emits (insertPaymentTransaction_emits (by rfl))).bind fun _ => ?_
  split
  · rename_i hcash
    refine Triple.orRaise_bind fun sessionId hsession => ?_
    refine (triple_writeMovement fun held s hs hK => ?_).post fun _ t s ⟨hplain, h⟩ => ⟨_, ?_, h⟩
    · rw [Database.replay_append]
      exact (hsofar held s hs (unsold_of_subset (List.subset_append_left _ _) hK)).2.2
    · exact hsofar.takenCash hnew rfl ((paymentRow_provider hupi).mpr hcash)
        (hshift sessionId hsession hplain) rfl rfl
  · rename_i hcash
    refine (Triple.ret (Q := fun _ => drawerTables.After _ _) Observation.After.stable).post
      fun _ t s h => ⟨_, ?_, h⟩
    exact hsofar.takenOther hnew rfl fun hprovider =>
      hcash ((paymentRow_provider hupi).mp hprovider)

/-- The transaction of a counter sale. -/
theorem triple_placeBooks {env : Environment} {d : OrderDraft} {session : Option (Uuid × Uuid)}
    {payments : List (SalePayment × Option ConfirmedUpi)}
    (hupi : ∀ x ∈ payments, UpiOnly x)
    (hpos : d.metadata.lookup "pos" = some (.text (posMetadata session))) :
    drawerContract.Triple R (drawerTables.After (L := drawerContract) .none [])
      (place env tenantId userId orderId d (settle tenantId userId (session.map (·.1)) payments))
      fun _ => BooksKept := by
  have hnumber : drawerContract.Triple R (drawerTables.After (L := drawerContract) .none [])
      (nextInvoiceNumber tenantId env.financialYear)
      fun _ => drawerTables.After (L := drawerContract) .none [] :=
    Observation.triple_emits (nextInvoiceNumber_emits fun _ => rfl)
  have hinsert (n : ℕ) : drawerContract.Triple R (drawerTables.After (L := drawerContract) .none [])
      (perform (Statement.insertOrder orderId (orderRow env tenantId d n)))
      fun _ => drawerTables.After
        (unsold orderId [.orderInsert orderId (orderRow env tenantId d n)])
        [.orderInsert orderId (orderRow env tenantId d n)] := by
    refine (Observation.triple_perform (P := (· = .orderInsert orderId (orderRow env tenantId d n)))
      (A := fun e => unsold orderId [e]) fun held s v e _ _ hv he => ?_).post
        fun _ t s ⟨e, heq, h⟩ => heq ▸ h
    obtain ⟨hnone, rfl⟩ := Statement.insertOrder_eq_ok he
    rw [orders_of_see hv] at hnone
    refine ⟨rfl, rfl, ⟨by simp [Edit.footprint], hnone⟩, ?_⟩
    rintro id ⟨e, he, hfoot⟩
    obtain rfl := List.mem_singleton.mp he
    simp [Edit.footprint] at hfoot
  refine drawerTables_stockBlind.triple_place hnumber hinsert (fun n => ?_) BooksKept.stable
  generalize horder : orderRow env tenantId d n = order
  have hshift (sessionId : Uuid) (hsession : session.map (·.1) = some sessionId)
      (hplain : PlainId sessionId) : order.shift = some sessionId := by
    obtain ⟨⟨_, registerId⟩, rfl, rfl⟩ := Option.map_eq_some_iff.mp hsession
    rw [← horder, Order.shift, orderRow, hpos]
    exact posSession_posMetadata hplain
  refine Triple.require_bind fun _ => ?_
  refine Triple.bind (Q := fun _ => Selling orderId order) ?_ fun _ => ?_
  · -- one payment after the other; the order keeps its first row until all are written
    refine ((Triple.forM (I := fun rest t s => (∀ x ∈ rest, UpiOnly x) ∧ Selling orderId order t s)
      (fun t s s' hs h hr => ⟨h.1, Selling.stable t s s' hs h.2 hr⟩)
        fun x rest => Triple.of_and fun hrest => ?_).pre
          fun t s _ h => ⟨hupi, _, .placed orderId order, h⟩).post fun _ t s h => h.2
    refine (triple_sellFor (hrest x List.mem_cons_self) hshift).post fun _ t s h => ⟨?_, h⟩
    exact fun y hy => hrest y (List.mem_cons_of_mem _ hy)
  · -- at last the order is delivered, and stays with its shift
    refine Triple.of_exists fun es => Triple.of_and fun hsofar => ?_
    refine (Observation.triple_perform
      (P := (· = .orderUpdate orderId { order with status := .delivered }))
      (A := fun e => unsold orderId (es ++ [e])) fun held s v e hs hK hv he => ?_).bind fun _ => ?_
    · obtain ⟨row, hrow, rfl⟩ := Statement.updateOrderStatus_eq_ok.mp he
      rw [orders_of_see hv, (hsofar held s hs hK).2.1] at hrow
      obtain rfl := Option.some.inj hrow
      refine ⟨rfl, rfl, ⟨List.mem_append_right _ hK.1.1, hK.1.2⟩, ?_⟩
      rintro id ⟨e, he, hfoot⟩
      rcases List.mem_append.mp he with he | he
      · exact ⟨List.mem_append_right _ (hK.2 id ⟨e, he, hfoot⟩).1, (hK.2 id ⟨e, he, hfoot⟩).2⟩
      · obtain rfl := List.mem_singleton.mp he
        simp [Edit.footprint] at hfoot
    · refine Triple.of_exists fun e => Triple.of_and ?_
      rintro rfl
      refine drawerTables_stockBlind.triple_note.post fun _ t s h => ⟨_, _, ?_, h⟩
      exact fun held s hs hK => (hsofar.delivered held s hs hK).1

/-! ### All requests -/

/-- Shifts have the identifiers the database draws. -/
def CashRequest.plain : CashRequest → Bool
  | openRegister _ _ _ sessionId _ => PlainId sessionId
  | _ => true

/-- Every request keeps the drawer's books. -/
theorem CashRequest.keepsBooks (r : CashRequest) (hr : r.valid = true) (hplain : r.plain = true) :
    drawerContract.Triple R (drawerTables.After (L := drawerContract) .none []) r.program
      fun _ => BooksKept := by
  have hdiscard {α : Type} {p : Sql α}
      (hp : drawerContract.Triple R (drawerTables.After (L := drawerContract) .none []) p
        fun _ => BooksKept) :
      drawerContract.Triple R (drawerTables.After (L := drawerContract) .none [])
        (do let _ ← p) fun _ => BooksKept :=
    hp.bind fun _ => Triple.readsOnly (.ret ()) BooksKept.stable
  cases r with
  | walkInCustomer =>
    exact hdiscard (triple_booksAside (walkInCustomer_emits (by rfl) (by simp [drawerTables]) _ _))
  | ensureDefault =>
    exact hdiscard (triple_booksAside (ensureDefault_emits (by rfl) (by simp [drawerTables]) _ _))
  | openRegister => exact hdiscard (triple_openBooks (of_decide_eq_true hplain))
  | addMovement => exact hdiscard (triple_moveBooks hr)
  | close => exact hdiscard triple_closeBooks
  | sale => exact hdiscard (triple_saleOf fun session payments d _ hupi => triple_placeBooks hupi)
  | retrySale env tenantId userId orderId d session payments =>
    simp only [CashRequest.valid, Bool.decide_and, Bool.and_eq_true, decide_eq_true_eq,
      List.all_eq_true] at hr
    exact hdiscard (triple_placeBooks (fun x hx => (hr.2 x hx).2) hr.1)
  | refund => exact hdiscard triple_refundBooks

/-! ### Every run -/

variable {requests : List CashRequest} {c : Config sales Unit}

theorem drawerBooks_of_reaches (hs₀ : DrawerBooks s₀) (hvalid : ∀ r ∈ requests, r.valid = true)
    (hplain : ∀ r ∈ requests, r.plain = true)
    (h : Reaches R (.start s₀ (requests.map CashRequest.program)) c) :
    ∀ s ∈ c.history s₀, DrawerBooks s := by
  intro s hs
  refine (of_reaches (L := drawerContract) (Q := fun _ _ _ => True) hs₀ (fun p hp => ?_) h s hs).1
  obtain ⟨r, hr, rfl⟩ := List.mem_map.mp hp
  have hkeeps := r.keepsBooks (R := R) (hvalid r hr) (hplain r hr)
  refine wp_mono (hkeeps {} s₀ hs₀ (.start trivial)) fun _ t s ht hs _ => ?_
  exact ⟨ht.guarantee hs, trivial⟩

/-- Expected cash, refunds left out: in every state whose books agree. -/
theorem DrawerBooks.expectedCash (hs : DrawerBooks s) (row : CashSession) (id : Uuid) :
    (sessionTotals row (movementsOf id s)).expectedCash = row.openingFloat + cashTaken id s +
      sumOf .cashIn (movementsOf id s) - sumOf .cashOut (movementsOf id s) := by
  have hrefunds : sumOf .refund (movementsOf id s) = 0 := by
    have hnone : (movementsOf id s).filter (·.type = .refund) = [] := by
      rw [List.filter_eq_nil_iff]
      intro m hm hrefund
      exact hs.noRefund m (List.mem_filter.mp hm).1 (of_decide_eq_true hrefund)
    rw [sumOf, hnone]
    rfl
  change _ + sumOf .sale _ - sumOf .refund _ + _ - _ = _
  rw [hrefunds, hs.sales id, sub_zero]

/-! ### Refunds of cash payments -/

/-- The refunds of cash payments of one business among the edits that left the state `s`. -/
def cashRefunds (tenantId : Uuid) (es : List Edit) (s : Db) : List Refund :=
  es.filterMap fun
    | .refundInsert r =>
      if r.tenantId = tenantId ∧ (s.payments.lookup r.paymentId).any (·.provider = "cash") then
        some r
      else none
    | _ => none

/-- What a commit on top of the state `s` gives back in cash while the shift is open. -/
def refundsDuring (id : Uuid) (s : Db) (x : Commit sales) : Cents :=
  match (s.cashSessions.lookup id).filter (·.status = .open) with
  | some row => ((cashRefunds row.tenantId x.edits x.after).map (·.amount)).sum
  | none => 0

/-- The refunds of cash payments that were given while the shift was open, over the commits
since `s₀`. -/
def refundsGiven (id : Uuid) (s₀ : Db) : List (Commit sales) → Cents
  | [] => 0
  | x :: xs => refundsDuring id ((xs.head?.map Commit.after).getD s₀) x + refundsGiven id s₀ xs

/-- No refund of a cash payment is given while a shift of the business is open. -/
def noCashRefunds : Discipline sales where
  commit s t := s.cashSessions.entries.all fun e =>
    e.2.status = .open → cashRefunds e.2.tenantId t.edits (t.view s) = []

theorem refundsDuring_eq_zero {i : ℕ} (hok : noCashRefunds.commit s t = true) (id : Uuid) :
    refundsDuring id s ⟨i, t.edits, t.view s⟩ = 0 := by
  rw [refundsDuring]
  split
  · rename_i row hrow
    obtain ⟨hlookup, hopen⟩ := Option.filter_eq_some_iff.mp hrow
    have hnone := List.all_eq_true.mp hok ⟨id, row⟩ (AList.mem_lookup_iff.mp hlookup)
    rw [of_decide_eq_true hnone (of_decide_eq_true hopen)]
    rfl
  · rfl

/-- Nothing was given back during any shift. -/
theorem refundsGiven_eq_zero {ps : List (Sql Unit)} (h : Reaches noCashRefunds (.start s₀ ps) c)
    (id : Uuid) : refundsGiven id s₀ c.log = 0 := by
  have hall : (c.log.head?.map Commit.after).getD s₀ = c.committed ∧
      refundsGiven id s₀ c.log = 0 := by
    refine h.induction (P := fun c => (c.log.head?.map Commit.after).getD s₀ = c.committed ∧
      refundsGiven id s₀ c.log = 0) ⟨rfl, rfl⟩ fun {c c'} hc hm => ?_
    cases hm with
    | commit hi hok halone =>
      refine ⟨rfl, ?_⟩
      change refundsDuring id ((c.log.head?.map Commit.after).getD s₀) _ +
        refundsGiven id s₀ c.log = 0
      rw [hc.1, hc.2, refundsDuring_eq_zero hok, add_zero]
    | abort _ _ => exact hc
    | select _ => exact hc
    | lock _ _ _ => exact hc
    | miss _ _ => exact hc
    | write _ _ _ _ => exact hc
    | reply _ _ => exact hc
  exact hall.2

/-- In any run, the law of the drawer holds of a shift just when nothing was given back in cash
while it was open. -/
theorem expectedCash_law_iff (hs₀ : DrawerBooks s₀) (hvalid : ∀ r ∈ requests, r.valid = true)
    (hplain : ∀ r ∈ requests, r.plain = true)
    (h : Reaches R (.start s₀ (requests.map CashRequest.program)) c) (id : Uuid)
    (row : CashSession) :
    (sessionTotals row (movementsOf id c.committed)).expectedCash =
        row.openingFloat + cashTaken id c.committed - refundsGiven id s₀ c.log +
          sumOf .cashIn (movementsOf id c.committed) -
          sumOf .cashOut (movementsOf id c.committed) ↔ refundsGiven id s₀ c.log = 0 := by
  obtain ⟨older, holder⟩ := h.exists_history
  have hbooks := drawerBooks_of_reaches hs₀ hvalid hplain h c.committed (by simp [holder])
  rw [hbooks.expectedCash row id, sub_left_inj, add_left_inj, eq_comm, sub_eq_self]

/-- As long as no cash payment is refunded during a shift of its business: the expected cash of
an open shift is its float, with the cash payments taken in it, without the refunds of cash
payments given during it, with the cash that staff put in, without the cash they took out. -/
theorem expectedCash_law (hs₀ : DrawerBooks s₀) (hvalid : ∀ r ∈ requests, r.valid = true)
    (hplain : ∀ r ∈ requests, r.plain = true)
    (h : Reaches noCashRefunds (.start s₀ (requests.map CashRequest.program)) c) :
    ∀ id row, c.committed.cashSessions.lookup id = some row → row.status = .open →
      (sessionTotals row (movementsOf id c.committed)).expectedCash =
        row.openingFloat + cashTaken id c.committed - refundsGiven id s₀ c.log +
          sumOf .cashIn (movementsOf id c.committed) -
          sumOf .cashOut (movementsOf id c.committed) := by
  intro id row _ _
  exact (expectedCash_law_iff hs₀ hvalid hplain h id row).mpr (refundsGiven_eq_zero h id)

namespace Sample

theorem counter_drawerBooks : DrawerBooks counter where
  plain id hid := by cases hid
  linked id p hp := by cases hp
  sales id := rfl
  noRefund m hm := absurd hm List.not_mem_nil

/-- A sale, change for the drawer, and the customer comes back for the money. -/
def refundRequests : List CashRequest :=
  [.openRegister "shop" "clerk" "till" "shift" { openingFloat := 500 },
    .sale {} "shop" "clerk" "order" "walkIn" "till" cashSale,
    .addMovement "shop" "clerk" "shift" { type := .cashIn, amount := 50 },
    .refund "shop" "clerk" "paid" "refund" "r" { amount := 118 }]

end Sample

open Sample in
/-- The sale and the change, before the refund: 5 of float, 1.18 taken and 0.50 put in. -/
theorem expectedCash_law_sample :
    ∃ (c : Config sales Unit) (row : CashSession),
      Reaches noCashRefunds (.start counter (refundRequests.map CashRequest.program)) c ∧
        c.committed.cashSessions.lookup "shift" = some row ∧ row.status = .open ∧
        (sessionTotals row (movementsOf "shift" c.committed)).expectedCash = 668 ∧
        (sessionTotals row (movementsOf "shift" c.committed)).expectedCash =
          row.openingFloat + cashTaken "shift" c.committed - refundsGiven "shift" counter c.log +
            sumOf .cashIn (movementsOf "shift" c.committed) -
            sumOf .cashOut (movementsOf "shift" c.committed) := by
  have hrun : ((Config.start counter (refundRequests.map CashRequest.program)).run noCashRefunds
      (List.replicate 4 (.advance 0) ++ List.replicate 20 (.advance 1) ++
        List.replicate 5 (.advance 2) ++ List.replicate 7 (.advance 1))).map
      (fun c => (c.committed.cashSessions.lookup "shift").map fun (row : CashSession) =>
        (row.status, (sessionTotals row (movementsOf "shift" c.committed)).expectedCash)) =
        some (some (.open, 668)) := by
    decide +kernel
  obtain ⟨c, hc, hstate⟩ := Option.map_eq_some_iff.mp hrun
  obtain ⟨row, hrow, hfields⟩ := Option.map_eq_some_iff.mp hstate
  obtain ⟨hopen, htotal⟩ := Prod.mk.inj hfields
  have hreach := reaches_of_run .refl hc
  exact ⟨c, row, hreach, hrow, hopen, htotal, expectedCash_law counter_drawerBooks (by decide)
    (by decide) hreach "shift" row hrow hopen⟩

open Sample in
/-- The money is given back in cash, and the drawer is still expected to hold it. -/
theorem cashRefund_not_law :
    DrawerBooks counter ∧ (∀ r ∈ refundRequests, r.valid = true ∧ r.plain = true) ∧
      ∃ (c : Config sales Unit) (row : CashSession),
        Reaches locksShifts (.start counter (refundRequests.map CashRequest.program)) c ∧
          c.committed.cashSessions.lookup "shift" = some row ∧ row.status = .open ∧
          ¬ (sessionTotals row (movementsOf "shift" c.committed)).expectedCash =
            row.openingFloat + cashTaken "shift" c.committed - refundsGiven "shift" counter c.log +
              sumOf .cashIn (movementsOf "shift" c.committed) -
              sumOf .cashOut (movementsOf "shift" c.committed) := by
  have hrun : ((Config.start counter (refundRequests.map CashRequest.program)).run locksShifts
      (List.replicate 4 (.advance 0) ++ List.replicate 27 (.advance 1) ++
        List.replicate 10 (.advance 3))).map
      (fun c => ((c.committed.cashSessions.lookup "shift").map (·.status),
        refundsGiven "shift" counter c.log)) = some (some .open, 118) := by
    decide +kernel
  obtain ⟨c, hc, hstate⟩ := Option.map_eq_some_iff.mp hrun
  obtain ⟨hstatus, hgiven⟩ := Prod.mk.inj hstate
  obtain ⟨row, hrow, hopen⟩ := Option.map_eq_some_iff.mp hstatus
  have hreach := reaches_of_run .refl hc
  have hvalid : ∀ r ∈ refundRequests, r.valid = true ∧ r.plain = true := by decide
  refine ⟨counter_drawerBooks, hvalid, c, row, hreach, hrow, hopen, fun hlaw => ?_⟩
  have hzero := (expectedCash_law_iff counter_drawerBooks (fun r hr => (hvalid r hr).1)
    (fun r hr => (hvalid r hr).2) hreach "shift" row).mp hlaw
  rw [hgiven] at hzero
  exact absurd hzero (by decide)

end PulseOps
