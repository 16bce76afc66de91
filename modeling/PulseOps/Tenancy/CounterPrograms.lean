import PulseOps.Model.CashRegister
import PulseOps.Tenancy.PaymentPrograms

/-!
# Counter sales and cash drawers stay inside the shop

The programs of the counter-sale and cash-register services, called for one shop, read and
write the rows of that shop only. A sale is an order with its payments and its entry in the
drawer, so its proof is put together from those of the order and payment services.

## Main results

* `confined_walkInCustomer`, `confined_ensureDefault`, `confined_sale` — selling.
* `confined_openRegister`, `confined_addMovement`, `confined_close` — shifts.
-/

set_option autoImplicit false

open ReadCommitted Program Parties

namespace PulseOps

variable {owner : Uuid → Uuid} {tenantId : Uuid} {s : Db}
  {id userId orderId registerId sessionId customerId : Uuid} {env : Environment}

/-! ### Statements -/

theorem confined_insertCustomer {row : Customer} (hrow : row.tenantId = tenantId)
    (hid : owner id = tenantId) : (shops owner).Confined tenantId (fun _ => True)
      (perform (Statement.insertCustomer id row)) := by
  apply confined_perform
  · intro s _
    have hemail : ((s.view tenantId).customers.entries.any fun c =>
          c.2.tenantId = row.tenantId ∧ c.2.email = row.email ∧ c.2.deleted = false) =
        s.customers.entries.any fun c =>
          c.2.tenantId = row.tenantId ∧ c.2.email = row.email ∧ c.2.deleted = false := by
      apply AList.any_keep
      intro c _ hc
      exact decide_eq_true ((of_decide_eq_true hc).1.trans hrow)
    change Statement.insertCustomer id row (s.view tenantId) = _
    simp only [Statement.insertCustomer, hemail]
  · intro s e _ he
    unfold Statement.insertCustomer at he
    split at he
    · cases he
      trivial
    · cases he
      exact ⟨hrow, hid⟩

theorem confined_insertCashRegister {row : CashRegister} (hrow : row.tenantId = tenantId)
    (hid : owner id = tenantId) : (shops owner).Confined tenantId (fun _ => True)
      (perform (Statement.insertCashRegister id row)) := by
  apply confined_perform
  · intro s _
    have hname : ((s.view tenantId).cashRegisters.entries.any fun r =>
          r.2.tenantId = row.tenantId ∧ r.2.name = row.name) =
        s.cashRegisters.entries.any fun r =>
          r.2.tenantId = row.tenantId ∧ r.2.name = row.name := by
      apply AList.any_keep
      intro r _ hr
      exact decide_eq_true ((of_decide_eq_true hr).1.trans hrow)
    change Statement.insertCashRegister id row (s.view tenantId) = _
    simp only [Statement.insertCashRegister, hname]
  · intro s e _ he
    unfold Statement.insertCashRegister at he
    split at he
    · cases he
      trivial
    · cases he
      exact ⟨hrow, hid⟩

theorem cashSessions_shopView (hs : Coherent owner s) (hid : owner id = tenantId) :
    (s.view tenantId).cashSessions.lookup id = s.cashSessions.lookup id :=
  lookup_keep_own fun row hrow => decide_eq_true ((hs.cashSessions id row hrow).1.trans hid)

theorem cashRegisters_view (hs : Coherent owner s) (hid : owner id = tenantId) :
    (s.view tenantId).cashRegisters.lookup id = s.cashRegisters.lookup id :=
  lookup_keep_own fun row hrow => decide_eq_true ((hs.cashRegisters id row hrow).trans hid)

theorem confined_insertCashMovement {row : CashMovement} (hrow : row.tenantId = tenantId)
    (hsession : owner row.sessionId = tenantId) : (shops owner).Confined tenantId (fun _ => True)
      (perform (Statement.insertCashMovement row)) := by
  apply confined_perform
  · intro s hs
    change Statement.insertCashMovement row (s.view tenantId) = _
    simp only [Statement.insertCashMovement, cashSessions_shopView hs hsession]
  · intro s e _ he
    obtain ⟨-, rfl⟩ := Statement.insertCashMovement_eq_ok he
    exact ⟨hrow, hsession⟩

/-- Whether a counter is open already: its shifts are the shop's. -/
theorem confined_insertCashSession {row : CashSession} {err : AppError}
    (hrow : row.tenantId = tenantId) (hid : owner id = tenantId)
    (hregister : owner row.registerId = tenantId) :
    (shops owner).Confined tenantId (fun _ => True)
      (perform (Statement.onUniqueViolation err (Statement.insertCashSession id row))) := by
  apply confined_perform
  · intro s hs
    have hopen : ((s.view tenantId).cashSessions.entries.any fun e =>
          e.2.registerId = row.registerId ∧ e.2.status = .open ∧ row.status = .open) =
        s.cashSessions.entries.any fun e =>
          e.2.registerId = row.registerId ∧ e.2.status = .open ∧ row.status = .open := by
      apply AList.any_keep
      intro e he hsame
      rw [(hs.cashSessions e.1 e.2 (AList.mem_lookup_iff.mpr he)).2, (of_decide_eq_true hsame).1]
      exact decide_eq_true hregister
    change Statement.onUniqueViolation err (Statement.insertCashSession id row)
      (s.view tenantId) = _
    simp only [Statement.onUniqueViolation, Statement.insertCashSession, hopen,
      cashSessions_shopView hs hid, cashRegisters_view hs hregister]
  · intro s e _ he
    obtain ⟨-, rfl⟩ := Statement.insertCashSession_eq_ok
      (Statement.onUniqueViolation_eq_ok.mp he)
    exact ⟨hrow, hid, hregister⟩

theorem confined_updateCashSession {change : CashSession → CashSession}
    (hid : owner id = tenantId)
    (hchange : ∀ row, (change row).tenantId = row.tenantId ∧
      (change row).registerId = row.registerId) :
    (shops owner).Confined tenantId (fun _ => True)
      (perform (Statement.updateCashSession id change)) := by
  apply confined_perform
  · intro s hs
    change Statement.updateCashSession id change (s.view tenantId) = _
    simp only [Statement.updateCashSession, cashSessions_shopView hs hid]
  · intro s e hs he
    obtain ⟨row, hlookup, rfl⟩ := Statement.updateCashSession_eq_ok.mp he
    have hrow := hs.cashSessions id row hlookup
    refine ⟨(hchange row).1.trans (hrow.1.trans hid), hid, ?_⟩
    rw [(hchange row).2, ← hrow.2, hrow.1, hid]

/-! ### The cash drawer -/

namespace CashRegisterService

theorem findFirst_view {p : CashRegister → Bool}
    (h : ∀ row, p row = true → row.tenantId = tenantId) :
    findFirst p (s.view tenantId) = findFirst p s := by
  unfold findFirst
  congr 1
  apply AList.find?_keep
  intro e he
  exact decide_eq_true (h e.2 he)

theorem confined_ensureDefault (hid : owner registerId = tenantId) :
    (shops owner).Confined tenantId (fun _ => True) (ensureDefault tenantId registerId) := by
  apply confined_query_bind
  · intro s _
    apply findFirst_view
    intro row hrow
    exact (of_decide_eq_true hrow).1
  intro s _
  split
  · exact confined_ret trivial
  · apply Confined.bind (confined_insertCashRegister ?_ hid)
    · intro _ _
      apply confined_query
      · intro s' _
        apply findFirst_view
        intro row hrow
        exact (of_decide_eq_true hrow).1
      · exact fun _ _ => trivial
    · rfl

theorem openSessionFor_view :
    openSessionFor tenantId registerId (s.view tenantId) =
      openSessionFor tenantId registerId s := by
  unfold openSessionFor
  congr 1
  apply AList.find?_keep
  intro e he
  exact decide_eq_true (of_decide_eq_true he).1

/-- The open shift the shop finds is one of its own. -/
theorem owner_of_openSessionFor (hs : Coherent owner s) {found : Uuid × CashSession}
    (h : openSessionFor tenantId registerId s = some found) : owner found.1 = tenantId := by
  obtain ⟨e, he, rfl⟩ := Option.map_eq_some_iff.mp h
  have hrow := hs.cashSessions e.1 e.2 (AList.mem_lookup_iff.mpr (List.mem_of_find?_eq_some he))
  have hshop := List.find?_some he
  exact hrow.1.symm.trans (of_decide_eq_true hshop).1

theorem movementsOf_view (hs : Coherent owner s) (hid : owner sessionId = tenantId) :
    movementsOf sessionId (s.view tenantId) = movementsOf sessionId s := by
  apply List.filter_filter_of_imp
  intro m hm hsession
  have hshop : m.tenantId = tenantId := by
    rw [hs.cashMovements m hm, of_decide_eq_true hsession, hid]
  exact decide_eq_true hshop

theorem toSession_view (hs : Coherent owner s) (hid : owner sessionId = tenantId) :
    toSession sessionId (s.view tenantId) = toSession sessionId s := by
  unfold toSession
  rw [cashSessions_shopView hs hid]
  cases hlookup : s.cashSessions.lookup sessionId with
  | none => rfl
  | some row =>
    have hrow := hs.cashSessions sessionId row hlookup
    have hregister : owner row.registerId = tenantId := by rw [← hrow.2, hrow.1, hid]
    simp only [Option.map_some, movementsOf_view hs hid, cashRegisters_view hs hregister]

theorem findSession_view (hs : Coherent owner s) :
    findSession tenantId sessionId (s.view tenantId) = findSession tenantId sessionId s := by
  have hrow : ((s.view tenantId).cashSessions.lookup sessionId).filter (·.tenantId = tenantId) =
      (s.cashSessions.lookup sessionId).filter (·.tenantId = tenantId) :=
    filter_lookup_keep fun _ hshop => hshop
  unfold findSession
  rw [hrow]
  cases hfound : (s.cashSessions.lookup sessionId).filter (·.tenantId = tenantId) with
  | none => rfl
  | some row =>
    obtain ⟨hlookup, hshop⟩ := Option.filter_eq_some_iff.mp hfound
    have hid : owner sessionId = tenantId :=
      (hs.cashSessions sessionId row hlookup).1.symm.trans (of_decide_eq_true hshop)
    rw [Option.map_some, Option.map_some, movementsOf_view hs hid]

theorem confined_lockSession :
    (shops owner).Confined tenantId (fun _ => owner sessionId = tenantId)
      (lockSession tenantId sessionId) := by
  apply confined_lockRow_bind
  apply confined_query_bind (fun s hs => findSession_view hs)
  intro s hs
  apply confined_orRaise_bind
  intro session hsession
  apply confined_require_bind
  intro _
  obtain ⟨row, hrow, -⟩ := Option.map_eq_some_iff.mp hsession
  obtain ⟨hlookup, hshop⟩ := Option.filter_eq_some_iff.mp hrow
  exact confined_ret
    ((hs.cashSessions sessionId row hlookup).1.symm.trans (of_decide_eq_true hshop))

theorem confined_openRegister {body : OpenBody} (hid : owner sessionId = tenantId) :
    (shops owner).Confined tenantId (fun _ => True)
      (openRegister tenantId userId registerId sessionId body) := by
  apply confined_query_bind
  · intro s _
    apply filter_lookup_keep
    intro r hr
    exact decide_eq_true (of_decide_eq_true hr).1
  intro s hs
  apply confined_orRaise_bind
  intro register hregister
  obtain ⟨hlookup, hshop⟩ := Option.filter_eq_some_iff.mp hregister
  have hcounter : owner registerId = tenantId :=
    (hs.cashRegisters registerId register hlookup).symm.trans (of_decide_eq_true hshop).1
  apply Confined.bind (confined_insertCashSession ?_ hid ?_)
  · intro _ _
    exact confined_query (fun s hs => toSession_view hs hid) fun _ _ => trivial
  · rfl
  · exact hcounter

theorem confined_addMovement {body : MovementBody} :
    (shops owner).Confined tenantId (fun _ => True)
      (addMovement tenantId userId sessionId body) := by
  apply confined_lockSession.bind
  intro session hid
  apply confined_require_bind
  intro _
  apply Confined.bind (confined_insertCashMovement ?_ hid)
  · intro _ _
    exact confined_query (fun s hs => toSession_view hs hid) fun _ _ => trivial
  · rfl

theorem confined_close {body : CloseBody} :
    (shops owner).Confined tenantId (fun _ => True)
      (close tenantId userId sessionId body) := by
  apply confined_lockSession.bind
  intro session hid
  apply Confined.bind (confined_updateCashSession hid ?_)
  · intro _ _
    exact confined_query (fun s hs => toSession_view hs hid) fun _ _ => trivial
  · exact fun _ => ⟨rfl, rfl⟩

end CashRegisterService

/-! ### Counter sales -/

namespace PosService

theorem confined_walkInCustomer (hid : owner customerId = tenantId) :
    (shops owner).Confined tenantId (fun _ => True) (walkInCustomer tenantId customerId) := by
  have hview : ∀ s : Db, findWalkIn tenantId (s.view tenantId) = findWalkIn tenantId s := by
    intro s
    unfold findWalkIn
    congr 1
    apply AList.find?_keep
    intro e he
    exact decide_eq_true (of_decide_eq_true he).1
  apply confined_query_bind (fun s _ => hview s)
  intro s _
  split
  · exact confined_ret trivial
  · apply Confined.bind (confined_insertCustomer ?_ hid)
    · intro _ _
      exact confined_query (fun s _ => hview s) fun _ _ => trivial
    · rfl

theorem defaultWarehouse_view :
    defaultWarehouse tenantId (s.view tenantId) = defaultWarehouse tenantId s := by
  have hactive : ((s.view tenantId).warehouses.entries.filter fun e =>
        e.2.tenantId = tenantId ∧ e.2.isActive) =
      s.warehouses.entries.filter fun e => e.2.tenantId = tenantId ∧ e.2.isActive := by
    apply AList.filter_keep
    intro e he
    exact decide_eq_true (of_decide_eq_true he).1
  simp only [defaultWarehouse, hactive]

theorem confined_confirmUpi {p : SalePayment} :
    (shops owner).Confined tenantId (fun x => x.1 = p) (confirmUpi tenantId p) := by
  unfold confirmUpi
  split
  · -- a QR payment is verified with the credentials of the shop
    have hverify : ∀ (qrId : String) (amount : Cents), (shops owner).Confined tenantId
        (fun _ => True) (verifyRazorpayUpi tenantId qrId amount) := by
      intro qrId amount
      apply confined_query_bind (fun s _ => credentialsFor_shopView)
      intro s _
      apply confined_orRaise_bind
      intro credentials _
      have hreceived : (shops owner).Confined tenantId (fun _ => True)
          (Razorpay.qrPayments credentials qrId) := by
        apply confined_send_bind
        intro r
        cases r with
        | qrReceived items => exact confined_ret trivial
        | unreadable id => exact confined_ret trivial
        | _ => exact confined_raise
      apply hreceived.bind
      intro received _
      apply confined_orRaise_bind
      intro paid _
      apply confined_query_bind
      · intro s _
        apply PaymentRepository.findFirst_view
        intro row hrow
        exact (of_decide_eq_true hrow).1
      intro s' _
      apply confined_require_bind
      intro _
      exact confined_ret trivial
    apply (hverify _ _).bind
    intro confirmed _
    exact confined_ret rfl
  · exact confined_ret rfl

theorem confined_takePayment {session : Option Uuid} {order : Order}
    {x : SalePayment × Option ConfirmedUpi} (horder : owner orderId = tenantId)
    (hsession : ∀ sid, session = some sid → owner sid = tenantId)
    (hid : owner x.1.ids.payment = tenantId) :
    (shops owner).Confined tenantId (fun _ => True)
      (takePayment tenantId userId orderId session order x) := by
  apply confined_require_bind
  intro _
  apply Confined.bind (confined_insertPayment ?_ hid ?_)
  · intro _ _
    apply Confined.bind (confined_insertPaymentTransaction ?_)
    · intro _ _
      split
      · apply confined_orRaise_bind
        intro sid hsid
        apply confined_insertCashMovement
        · rfl
        · exact hsession sid hsid
      · exact confined_ret trivial
    · rfl
  · rfl
  · exact horder

theorem confined_settle {session : Option Uuid}
    {payments : List (SalePayment × Option ConfirmedUpi)} {order : Order}
    (horder : owner orderId = tenantId)
    (hsession : ∀ sid, session = some sid → owner sid = tenantId)
    (hpayments : ∀ x ∈ payments, owner x.1.ids.payment = tenantId) :
    (shops owner).Confined tenantId (fun _ => True)
      (settle tenantId userId session payments orderId order) := by
  apply confined_require_bind
  intro _
  apply (confined_forM_const fun x hx =>
    confined_takePayment horder hsession (hpayments x hx)).bind
  intro _ _
  apply (OrderService.confined_updateOrderStatus horder).bind
  intro _ _
  apply OrderService.confined_insertHistory
  rfl

theorem confined_sessionForCash {defaultRegister : Uuid} {body : SaleBody} :
    (shops owner).Confined tenantId
      (fun session => ∀ x, session = some x → owner x.1 = tenantId)
      (sessionForCash tenantId defaultRegister body) := by
  unfold sessionForCash
  dsimp only
  split
  · apply confined_query_bind (fun s _ => CashRegisterService.openSessionFor_view)
    intro s hs
    apply confined_orRaise_bind
    intro session hsession
    apply confined_ret
    rintro x ⟨⟩
    exact CashRegisterService.owner_of_openSessionFor hs hsession
  · apply confined_ret
    rintro x ⟨⟩

/-- The ids drawn for the order and its payments are the shop's; the ids in the request may
be anybody's. -/
theorem confined_sale {walkIn defaultRegister : Uuid} {body : SaleBody}
    (horder : owner orderId = tenantId)
    (hids : ∀ p ∈ body.payments, owner p.ids.payment = tenantId) :
    (shops owner).Confined tenantId (fun _ => True)
      (sale env tenantId userId orderId walkIn defaultRegister body) := by
  apply confined_query_bind (fun s _ => defaultWarehouse_view)
  intro s _
  apply confined_orRaise_bind
  intro warehouseId _
  apply confined_sessionForCash.bind
  intro session hsession
  have hpaid : (shops owner).Confined tenantId
      (fun payments : List (SalePayment × Option ConfirmedUpi) =>
        ∀ x ∈ payments, owner x.1.ids.payment = tenantId)
      (body.payments.mapM (confirmUpi tenantId)) := by
    apply confined_mapM
    intro p hp
    apply confined_confirmUpi.mono
    rintro x rfl
    exact hids x.1 hp
  apply hpaid.bind
  intro payments hpayments
  apply OrderService.confined_create horder
  intro order
  apply confined_settle horder
  · intro sid hsid
    obtain ⟨x, hx, rfl⟩ := Option.map_eq_some_iff.mp hsid
    exact hsession x hx
  · exact hpayments

end PosService

end PulseOps
