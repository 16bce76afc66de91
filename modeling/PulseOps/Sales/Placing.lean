import PulseOps.Model.CashRegister
import PulseOps.Payments.Outcomes
import PulseOps.ReadCommitted.Observation
import PulseOps.Stock.StatusHistory

/-!
# Placing an order, seen through some of the tables

Most of what `create` and the counter sale do concerns stock, lines and the status history.
An observation that does not see these tables reduces both services to the few statements it
does see: the counter, the order row, and what runs inside the order's transaction.

## Main definitions

* `StockBlind` — an observation that does not see stock, lines and status history.

## Main results

* `StockBlind.triple_place` — the transaction of an order.
* `triple_saleOf` — a counter sale, down to the transaction of its order.
-/

set_option autoImplicit false

open ReadCommitted Program Contract

namespace PulseOps

open OrderService PosService

/-- The observation does not see stock, order lines and the status history. -/
structure StockBlind {V : Type} (O : Observation sales V) : Prop where
  stock : ∀ e : Edit, e.IsStock → O.touches e = false
  item : ∀ row, O.touches (.orderItemInsert row) = false
  history : ∀ row, O.touches (.orderStatusHistoryInsert row) = false

namespace StockBlind

variable {V : Type} {O : Observation sales V} {L : Contract sales} {R : Discipline sales}
  {K : L.Knowledge} {es : List Edit} {env : Environment} {tenantId userId orderId : Uuid}

/-- A note in the status history. -/
theorem triple_note (hO : StockBlind O) {row : OrderStatusHistory} :
    L.Triple R (O.After K es) (record (.orderStatusHistoryInsert row))
      fun _ => O.After K es := by
  refine Observation.triple_emits (emits_perform fun s e he => ?_)
  obtain rfl := Except.ok.inj he
  exact hO.history row

/-- Restoring stock. -/
theorem triple_releaseItems (hO : StockBlind O) {reason : Option String}
    {items : List OrderItem} :
    L.Triple R (O.After K es) (forM items (releaseItem tenantId userId orderId reason))
      fun _ => O.After K es :=
  Observation.triple_emits (.forM fun _ _ => releaseItem_emits.mono hO.stock)

/-- The transaction of an order, down to the statements that the observation may see. -/
theorem triple_place (hO : StockBlind O) {d : OrderDraft} {inTx : Uuid → Order → Sql Unit}
    {K₁ K₂ : ℕ → L.Knowledge} {es₁ es₂ : ℕ → List Edit} {Q : Transaction sales → Db → Prop}
    (hnumber : L.Triple R (O.After K es) (nextInvoiceNumber tenantId env.financialYear)
      fun n => O.After (K₁ n) (es₁ n))
    (hinsert : ∀ n, L.Triple R (O.After (K₁ n) (es₁ n))
      (perform (Statement.insertOrder orderId (orderRow env tenantId d n)))
      fun _ => O.After (K₂ n) (es₂ n))
    (hinTx : ∀ n, L.Triple R (O.After (K₂ n) (es₂ n))
      (inTx orderId (orderRow env tenantId d n)) fun _ => Q) (hQ : L.Stable Q) :
    L.Triple R (O.After K es) (place env tenantId userId orderId d inTx) fun _ => Q := by
  refine (Observation.triple_emits (.forM fun _ _ => emits_lockRow _)).bind fun _ => ?_
  refine (Observation.triple_emits (.forM fun it _ =>
    (reserveItem_emits tenantId it).mono hO.stock)).bind fun _ => ?_
  refine hnumber.bind fun n => (hinsert n).bind fun _ => ?_
  refine (Observation.triple_emits (.forM fun it _ => emits_perform fun s e he => ?_)).bind
    fun _ => ?_
  · obtain rfl := Except.ok.inj he
    exact hO.item _
  refine (Observation.triple_emits (.forM fun it _ =>
    (recordReservation_emits tenantId userId orderId it).mono hO.stock)).bind fun _ => ?_
  exact hO.triple_note.bind fun _ => (hinTx n).bind fun _ => Triple.readsOnly (.query _) hQ

end StockBlind

/-! ### The sale -/

section Sale

variable {V : Type} {O : Observation sales V} {L : Contract sales} {R : Discipline sales}
  {K : L.Knowledge} {es : List Edit} {env : Environment} {tenantId userId orderId : Uuid}

/-- A payment that Razorpay has confirmed is a UPI payment. -/
def UpiOnly (x : SalePayment × Option ConfirmedUpi) : Prop := x.2.isSome → x.1.method = .upi

/-- The provider of a sale's payment is cash when the method is. -/
theorem paymentRow_provider {order : Order} {x : SalePayment × Option ConfirmedUpi}
    (hupi : UpiOnly x) :
    (paymentRow tenantId orderId order x.1 x.2).provider = "cash" ↔ x.1.method = .cash := by
  simp only [paymentRow]
  split_ifs with hconfirmed
  · rw [hupi hconfirmed]
    decide
  · cases x.1.method <;> decide

theorem confirmUpi_returns (tenantId : Uuid) (p : SalePayment) :
    (confirmUpi tenantId p).Returns fun x => x.1 = p ∧ UpiOnly x := by
  unfold confirmUpi
  split
  · rename_i hmethod _
    exact .bind_any fun confirmed => ⟨rfl, fun _ => hmethod⟩
  · exact ⟨rfl, fun h => by cases h⟩

/-- The payments go on as they came in. -/
theorem confirmUpi_mapM_returns (tenantId : Uuid) (ps : List SalePayment) :
    (ps.mapM (confirmUpi tenantId)).Returns fun xs => xs.map (·.1) = ps ∧ ∀ x ∈ xs, UpiOnly x := by
  refine (Returns.mapM (P := fun p x => Prod.fst x = p ∧ UpiOnly x) fun p _ =>
    confirmUpi_returns tenantId p).mono fun xs hxs => ?_
  induction hxs with
  | nil => exact ⟨rfl, fun _ hx => absurd hx List.not_mem_nil⟩
  | cons hx _ ih =>
    exact ⟨List.cons_eq_cons.mpr ⟨hx.1, ih.1⟩, List.forall_mem_cons.mpr ⟨hx.2, ih.2⟩⟩

/-- An order keeps the metadata it was asked to have, next to its tax settings. -/
theorem prepare_metadata (env : Environment) (tenantId : Uuid) (body : CreateBody)
    (name : String) (hrate : name ≠ "gstRatePercent") (hprices : name ≠ "pricesIncludeTax") :
    (prepare env tenantId body).Returns fun d =>
      d.metadata.lookup name = body.metadata.lookup name := by
  refine (prepare_returns env tenantId body).mono fun d hd => ?_
  obtain ⟨_, _, _, _, hmetadata⟩ := hd
  rw [hmetadata, AList.lookup_insert_ne hprices, AList.lookup_insert_ne hrate]

theorem orderBody_metadata (customerId warehouseId : Uuid) (session : Option (Uuid × Uuid))
    (body : SaleBody) : (orderBody customerId warehouseId session body).metadata.lookup "pos" =
      some (.text (posMetadata session)) := by
  simp only [orderBody]
  cases truthy body.note with
  | none => exact AList.lookup_insert (∅ : Metadata)
  | some note =>
    simp only [Metadata.ofList, Option.toList_some, List.map_cons, List.map_nil, List.foldl_cons,
      List.foldl_nil]
    rw [AList.lookup_insert_ne (by decide), AList.lookup_insert]

/-- A counter sale, down to the transaction of its order: the payments are those of the
request, and the order's metadata names the shift. -/
theorem triple_saleOf {walkIn defaultRegister : Uuid} {body : SaleBody}
    {Q : Transaction sales → Db → Prop}
    (hplace : ∀ session (payments : List (SalePayment × Option ConfirmedUpi)) (d : OrderDraft),
      payments.map (·.1) = body.payments → (∀ x ∈ payments, UpiOnly x) →
      d.metadata.lookup "pos" = some (.text (posMetadata session)) →
      L.Triple R (O.After K es)
        (place env tenantId userId orderId d
          (settle tenantId userId (session.map (·.1)) payments)) fun _ => Q) :
    L.Triple R (O.After K es) (sale env tenantId userId orderId walkIn defaultRegister body)
      fun _ => Q := by
  refine (Observation.triple_readsOnly (.query _)).bind fun fallback => ?_
  refine Triple.orRaise_bind fun warehouseId _ => ?_
  refine (Observation.triple_readsOnly (sessionForCash_readsOnly _ _ _)).bind fun session => ?_
  refine ((Triple.mapM_const Observation.After.stable fun p => Observation.triple_emits
    (confirmUpi_emits tenantId p)).returns (confirmUpi_mapM_returns tenantId body.payments)).bind
      fun payments => Triple.of_and fun ⟨hpayments, hupi⟩ => ?_
  refine ((Observation.triple_readsOnly (prepare_readsOnly _ _ _)).returns
    (prepare_metadata env tenantId _ "pos" (by decide) (by decide))).bind
      fun d => Triple.of_and fun hd => ?_
  exact hplace session payments d hpayments hupi (hd.trans (orderBody_metadata _ _ _ _))

end Sale

end PulseOps
