import Mathlib.Tactic.Ring
import PulseOps.Sales.Placing

/-!
# What a request does to a shift

The requests that concern the cash drawer, and what their transactions do to the shifts and
the cash movements. Staff requests lock the row of their shift and read its movements under
the lock; counter sales add their cash without any lock. How far the movements may drift
under a lock is a parameter: the contract is the same whether sales are held off or not.

## Main definitions

* `CashRequest` — the requests.
* `locksShifts` — staff edit a shift only under its row lock.
* `ShiftLaw` — a law of the shifts, and the contract it amounts to.
* `ShiftWork` — everything a transaction can do to shifts and movements.

## Main results

* `CashRequest.triple` — every request does one of these things.
* `view_sessions`, `view_movements` — what they leave.
-/

set_option autoImplicit false

open ReadCommitted Program Contract

namespace PulseOps

open CashRegisterService PosService OrderService

/-! ### Requests -/

/-- The requests of the counter, and refunds. A later attempt of a sale that was rolled back
brings along its order as it was prepared, the shift it picked and its payments. -/
inductive CashRequest where
  | walkInCustomer (tenantId customerId : Uuid)
  | ensureDefault (tenantId registerId : Uuid)
  | openRegister (tenantId userId registerId sessionId : Uuid) (body : OpenBody)
  | addMovement (tenantId userId sessionId : Uuid) (body : MovementBody)
  | close (tenantId userId sessionId : Uuid) (body : CloseBody)
  | sale (env : Environment) (tenantId userId orderId walkIn defaultRegister : Uuid)
      (body : SaleBody)
  | retrySale (env : Environment) (tenantId userId orderId : Uuid) (d : OrderDraft)
      (session : Option (Uuid × Uuid)) (payments : List (SalePayment × Option ConfirmedUpi))
  | refund (tenantId userId paymentId refundId : Uuid) (randomRef : String)
      (body : PaymentService.RefundBody)

namespace CashRequest

/-- The service call behind a request, without its result. -/
def program : CashRequest → Sql Unit
  | walkInCustomer tenantId customerId => do
    let _ ← PosService.walkInCustomer tenantId customerId
  | ensureDefault tenantId registerId => do
    let _ ← CashRegisterService.ensureDefault tenantId registerId
  | openRegister tenantId userId registerId sessionId body => do
    let _ ← CashRegisterService.openRegister tenantId userId registerId sessionId body
  | addMovement tenantId userId sessionId body => do
    let _ ← CashRegisterService.addMovement tenantId userId sessionId body
  | close tenantId userId sessionId body => do
    let _ ← CashRegisterService.close tenantId userId sessionId body
  | sale env tenantId userId orderId walkIn defaultRegister body => do
    let _ ← PosService.sale env tenantId userId orderId walkIn defaultRegister body
  | retrySale env tenantId userId orderId d session payments => do
    let _ ← place env tenantId userId orderId d
      (settle tenantId userId (session.map (·.1)) payments)
  | refund tenantId userId paymentId refundId randomRef body => do
    let _ ← PaymentService.refund tenantId userId paymentId refundId randomRef body

/-- The request has passed its schema. An attempt that is made again brings along what its
request had prepared. -/
def valid : CashRequest → Bool
  | walkInCustomer _ _ => true
  | ensureDefault _ _ => true
  | openRegister _ _ _ _ body => body.valid
  | addMovement _ _ _ body => body.valid
  | close _ _ _ body => body.valid
  | sale _ _ _ _ _ _ body => body.valid
  | retrySale _ _ _ _ d session payments =>
    (d.metadata.lookup "pos" = some (.text (posMetadata session))) ∧
      payments.all fun x => 0 < x.1.amount ∧ (x.2.isSome → x.1.method = .upi)
  | refund _ _ _ _ _ _ => true

end CashRequest

/-- Staff record cash and close a shift only under its row lock: the identifier of a shift is
known once it has been opened, so `SELECT … FOR UPDATE` finds the row. -/
def locksShifts : Discipline sales where
  write _ t
    | .cashMovementInsert m => m.type = .sale ∨ .cashSession m.sessionId ∈ t.held
    | .cashSessionUpdate id _ => .cashSession id ∈ t.held
    | _ => true

/-! ### Shifts and movements -/

/-- The shifts and the cash movements. -/
def shiftTables : Observation sales (Table Uuid CashSession × List CashMovement) where
  see s := (s.cashSessions, s.cashMovements)
  touches
    | .cashSessionInsert _ _ => true
    | .cashSessionUpdate _ _ => true
    | .cashMovementInsert _ => true
    | _ => false
  see_apply {s e} he := by cases e <;> simp_all [Db.deleteWarehouse]
  see_congr {s s' e} h := by cases e <;> simp_all [Db.deleteWarehouse]

theorem shiftTables_stockBlind : StockBlind shiftTables where
  stock e he := by cases e <;> simp_all [Edit.IsStock, shiftTables]
  item _ := rfl
  history _ := rfl

/-- What a movement adds to the drawer. -/
def CashMovement.signed (m : CashMovement) : Cents :=
  match m.type with
  | .sale => m.amount
  | .refund => -m.amount
  | .cashIn => m.amount
  | .cashOut => -m.amount

/-- What the movements add to the drawer. -/
def net (ms : List CashMovement) : Cents := (ms.map CashMovement.signed).sum

theorem net_append (ms ms' : List CashMovement) : net (ms ++ ms') = net ms + net ms' := by
  rw [net, List.map_append, List.sum_append, net, net]

/-- The drawer holds the float and what the movements added. -/
theorem expectedCash_eq (row : CashSession) (ms : List CashMovement) :
    (sessionTotals row ms).expectedCash = row.openingFloat + net ms := by
  have hnet : net ms =
      sumOf .sale ms - sumOf .refund ms + sumOf .cashIn ms - sumOf .cashOut ms := by
    induction ms with
    | nil => rfl
    | cons m ms ih =>
      have hcons : net (m :: ms) = m.signed + net ms := rfl
      rw [hcons, ih]
      cases htype : m.type <;> simp [CashMovement.signed, sumOf, htype] <;> ring
  rw [hnet]
  change _ + _ - _ + _ - _ = _
  ring

/-- The movements among the edits. -/
def movementsIn (es : List Edit) : List CashMovement :=
  es.filterMap fun e => match e with
    | .cashMovementInsert m => some m
    | _ => none

variable {s s' : Db} {t : Transaction sales} {es : List Edit} {id : Uuid}

theorem movementsIn_append (es es' : List Edit) :
    movementsIn (es ++ es') = movementsIn es ++ movementsIn es' :=
  List.filterMap_append

theorem cashMovements_replay (es : List Edit) (s : Db) :
    (sales.replay es s).cashMovements = s.cashMovements ++ movementsIn es := by
  induction es generalizing s with
  | nil => simp [movementsIn]
  | cons e es ih =>
    rw [Database.replay_cons, ih]
    cases e <;> simp [movementsIn, Db.deleteWarehouse]

theorem movementsOf_replay (es : List Edit) (s : Db) :
    movementsOf id (sales.replay es s) =
      movementsOf id s ++ (movementsIn es).filter (·.sessionId = id) := by
  rw [movementsOf, cashMovements_replay, List.filter_append, movementsOf]

/-- A law of the shifts: an invariant of the committed states, how far the movements of a
shift may drift while its row is locked, and what the invariant says of a row and its
movements when they are read together. -/
structure ShiftLaw where
  inv : Db → Prop
  drift : List CashMovement → List CashMovement → Prop
  drift_refl : ∀ ms, drift ms ms
  drift_trans : ∀ {ms₁ ms₂ ms₃}, drift ms₁ ms₂ → drift ms₂ ms₃ → drift ms₁ ms₃
  reads : CashSession → List CashMovement → Prop
  reads_of_inv : ∀ {s id row}, inv s → s.cashSessions.lookup id = some row →
    reads row (movementsOf id s)

/-- The lock on a shift keeps its row, and its movements up to the drift. A shift that was
opened stays in the books. -/
def ShiftLaw.contract (law : ShiftLaw) : Contract sales where
  inv := law.inv
  evolves s s' := ∀ id, (s.cashSessions.lookup id).isSome → (s'.cashSessions.lookup id).isSome
  agree key s s' := ∀ id, key = .cashSession id →
    s.cashSessions.lookup id = s'.cashSessions.lookup id ∧
      law.drift (movementsOf id s) (movementsOf id s')
  evolves_refl _ _ h := h
  evolves_trans h h' id hid := h' id (h id hid)
  agree_refl _ _ _ _ := ⟨rfl, law.drift_refl _⟩
  agree_trans h h' id hid :=
    ⟨(h id hid).1.trans (h' id hid).1, law.drift_trans (h id hid).2 (h' id hid).2⟩

variable {law : ShiftLaw} {R : Discipline sales}

/-- The row of a locked shift, and its movements as they were read. -/
def seen (law : ShiftLaw) (id : Uuid) (row : CashSession) (ms : List CashMovement) :
    law.contract.Knowledge where
  holds held s := .cashSession id ∈ held ∧ s.cashSessions.lookup id = some row ∧
    law.reads row ms ∧ law.drift ms (movementsOf id s)
  mono hsub h := ⟨hsub h.1, h.2⟩
  stable _ h hr :=
    have hagree := hr.agree _ h.1 _ rfl
    ⟨h.1, hagree.1.symm.trans h.2.1, h.2.2.1, law.drift_trans h.2.2.2 hagree.2⟩

/-- A shift that is there to be opened. -/
def vacant (law : ShiftLaw) (id : Uuid) : law.contract.Knowledge where
  holds held s := .cashSession id ∈ held ∧ s.cashSessions.lookup id = none
  mono hsub h := ⟨hsub h.1, h.2⟩
  stable _ h hr := ⟨h.1, (hr.agree _ h.1 _ rfl).1.symm.trans h.2⟩

/-- The shifts of the movements among the edits have been opened. -/
def linkedIn (law : ShiftLaw) (es : List Edit) : law.contract.Knowledge where
  holds _ s := ∀ m ∈ movementsIn es, (s.cashSessions.lookup m.sessionId).isSome
  mono _ h := h
  stable _ h hr m hm := hr.evolves _ (h m hm)

/-- The edit adds the cash of a sale. -/
def AddsSale (e : Edit) : Prop := ∃ m, e = .cashMovementInsert m ∧ m.type = .sale ∧ 0 < m.amount

theorem mem_movementsIn {m : CashMovement} : m ∈ movementsIn es ↔ .cashMovementInsert m ∈ es := by
  simp only [movementsIn, List.mem_filterMap]
  constructor
  · rintro ⟨e, he, heq⟩
    split at heq
    · obtain rfl := Option.some.inj heq
      exact he
    · cases heq
  · exact fun h => ⟨_, h, rfl⟩

theorem sessions_of_addsSale (hes : ∀ e ∈ es, AddsSale e) (s : Db) :
    (sales.replay es s).cashSessions = s.cashSessions := by
  apply sales.replay_frame Db.cashSessions
  intro e he s
  obtain ⟨m, rfl, -⟩ := hes e he
  rfl

theorem sale_of_addsSale (hes : ∀ e ∈ es, AddsSale e) :
    ∀ m ∈ movementsIn es, m.type = .sale ∧ 0 < m.amount := by
  intro m hm
  obtain ⟨m', heq, htype, hpos⟩ := hes _ (mem_movementsIn.mp hm)
  cases heq
  exact ⟨htype, hpos⟩

/-- Everything a transaction can do to shifts and movements. -/
inductive ShiftWork (law : ShiftLaw) (t : Transaction sales) (s : Db) : Prop
  | opened {tenantId userId registerId id : Uuid} {body : OpenBody} (hvalid : body.valid = true)
      (h : shiftTables.After (vacant law id)
        [.cashSessionInsert id (openRow tenantId registerId userId body)] t s)
  | moved {tenantId userId id : Uuid} {body : MovementBody} {row : CashSession}
      {ms : List CashMovement} (hvalid : body.valid = true) (hopen : row.status = .open)
      (hcover : body.type = .cashOut → body.amount ≤ (sessionTotals row ms).expectedCash)
      (h : shiftTables.After (seen law id row ms)
        [.cashMovementInsert (movementRow tenantId userId id body)] t s)
  | closed {userId id : Uuid} {body : CloseBody} {row : CashSession} {ms : List CashMovement}
      (hopen : row.status = .open)
      (h : shiftTables.After (seen law id row ms)
        [.cashSessionUpdate id
          (closedRow userId body row (sessionTotals row ms).expectedCash row)] t s)
  | sold {es : List Edit} (hes : ∀ e ∈ es, AddsSale e)
      (h : shiftTables.After (linkedIn law es) es t s)

/-! ### Transactions -/

theorem ShiftWork.stable : law.contract.Stable (ShiftWork law) := by
  intro t s s' hs h hr
  cases h with
  | opened hvalid h => exact .opened hvalid (Observation.After.stable t s s' hs h hr)
  | moved hvalid hopen hcover h =>
    exact .moved hvalid hopen hcover (Observation.After.stable t s s' hs h hr)
  | closed hopen h => exact .closed hopen (Observation.After.stable t s s' hs h hr)
  | sold hes h => exact .sold hes (Observation.After.stable t s s' hs h hr)

variable {tenantId userId : Uuid}

/-- The transaction began before the shift was opened, so it holds no lock on it. -/
def Unlocked (id : Uuid) (t : Transaction sales) (_ : Db) : Prop := .cashSession id ∉ t.held

theorem Unlocked.stable : law.contract.Stable (Unlocked id) := fun _ _ _ _ h _ => h

theorem cashSessions_of_see (h : shiftTables.see s = shiftTables.see s') :
    s.cashSessions = s'.cashSessions := (Prod.mk.inj h).1

theorem movementsOf_of_see (h : shiftTables.see s = shiftTables.see s') :
    movementsOf id s = movementsOf id s' :=
  congrArg (List.filter fun m : CashMovement => m.sessionId = id) (Prod.mk.inj h).2

theorem findSession_eq_some {row : CashSession} {ms : List CashMovement}
    (h : findSession tenantId id s = some (row, ms)) :
    s.cashSessions.lookup id = some row ∧ ms = movementsOf id s := by
  obtain ⟨row', hrow, heq⟩ := Option.map_eq_some_iff.mp h
  obtain ⟨rfl, rfl⟩ := Prod.mk.inj heq
  exact ⟨Option.eq_some_of_filter_eq_some hrow, rfl⟩

/-- What a staff request knows of its shift: it is open and locked, with these movements, or
it is not locked at all. -/
def Found (law : ShiftLaw) (id : Uuid) (x : CashSession × List CashMovement)
    (t : Transaction sales) (s : Db) : Prop :=
  (x.1.status = .open ∧ shiftTables.After (seen law id x.1 x.2) [] t s) ∨ Unlocked id t s

theorem Found.stable {x : CashSession × List CashMovement} :
    law.contract.Stable (Found law id x) := by
  rintro t s s' hs (⟨hopen, h⟩ | h) hr
  · exact .inl ⟨hopen, Observation.After.stable t s s' hs h hr⟩
  · exact .inr h

theorem triple_lockSession :
    law.contract.Triple R
      (shiftTables.After (L := law.contract) .none []) (lockSession tenantId id)
      (Found law id) := by
  refine Triple.lockRow_any_bind (A := fun t s =>
    shiftTables.After (L := law.contract) (.locked (.cashSession id)) [] t s ∨
      Unlocked id t s) Observation.After.stable ?_ ?_ ?_
  · exact fun t s h => .inl ((h.lock _).mono fun _ => List.mem_cons_self)
  · intro t s h
    by_cases hheld : Key.cashSession id ∈ t.held
    · exact .inl (h.mono fun _ => hheld)
    · exact .inr hheld
  refine Triple.of_or ?_ ?_
  · -- under the lock, the row and the movements are what was read
    refine Observation.triple_query (A := fun found => match found with
      | some x => seen law id x.1 x.2
      | none => .none) (fun held s v hs hheld hv => ?_) fun found => ?_
    · cases hfound : findSession tenantId id v with
      | none => trivial
      | some x =>
        obtain ⟨hrow, hms⟩ := findSession_eq_some hfound
        rw [cashSessions_of_see hv] at hrow
        rw [movementsOf_of_see hv] at hms
        exact ⟨hheld, hrow, hms ▸ law.reads_of_inv hs hrow, hms ▸ law.drift_refl _⟩
    · refine Triple.orRaise_bind ?_
      rintro x rfl
      refine Triple.require_bind fun hopen => ?_
      exact (Triple.ret Found.stable).pre fun t s _ h => .inl ⟨hopen, h⟩
  · refine Triple.query_bind (A := fun _ => Unlocked id) Unlocked.stable (fun _ _ _ h => h)
      fun found => Triple.orRaise_bind fun x _ => Triple.require_bind fun _ => ?_
    exact (Triple.ret Found.stable).pre fun t s _ h => .inr h

variable (hR : ∀ s t e, R.write s t e = true → locksShifts.write s t e = true)
include hR

/-- Cash in and cash out. -/
theorem triple_addMovement {body : MovementBody} (hvalid : body.valid = true) :
    law.contract.Triple R
      (shiftTables.After (L := law.contract) .none [])
      (addMovement tenantId userId id body) fun _ => ShiftWork law := by
  refine triple_lockSession.bind fun x => Triple.require_bind fun hcover => ?_
  refine Triple.bind (Q := fun _ => ShiftWork law) (Triple.of_or ?_ ?_) fun _ =>
    Triple.readsOnly (.query _) ShiftWork.stable
  · refine Triple.of_and fun hopen => ?_
    refine (Observation.triple_perform (P := (· = .cashMovementInsert
      (movementRow tenantId userId id body))) (A := fun _ => seen law id x.1 x.2)
        fun held s v e _ hK _ he => ?_).post fun _ t s ⟨_, heq, h⟩ => ?_
    · obtain ⟨-, rfl⟩ := Statement.insertCashMovement_eq_ok he
      exact ⟨rfl, rfl, hK⟩
    · subst heq
      exact .moved hvalid hopen hcover h
  · -- without the lock the movement is not recorded
    refine Triple.perform Unlocked.stable ShiftWork.stable fun t s e _ hunlocked he hok => ?_
    obtain ⟨-, rfl⟩ := Statement.insertCashMovement_eq_ok he
    have hlocked := hR s t _ hok
    simp only [CashRegisterService.MovementBody.valid, Bool.decide_and, Bool.decide_or,
      Bool.and_eq_true, Bool.or_eq_true, decide_eq_true_eq] at hvalid
    simp only [locksShifts, movementRow, decide_eq_true_eq] at hlocked
    rcases hlocked with hsale | hheld
    · rw [hsale] at hvalid
      simp at hvalid
    · exact absurd hheld hunlocked

/-- Closing. -/
theorem triple_close {body : CloseBody} :
    law.contract.Triple R
      (shiftTables.After (L := law.contract) .none [])
      (close tenantId userId id body) fun _ => ShiftWork law := by
  refine triple_lockSession.bind fun x => ?_
  refine Triple.bind (Q := fun _ => ShiftWork law) (Triple.of_or ?_ ?_) fun _ =>
    Triple.readsOnly (.query _) ShiftWork.stable
  · refine Triple.of_and fun hopen => ?_
    refine (Observation.triple_perform (P := (· = .cashSessionUpdate id
      (closedRow userId body x.1 (sessionTotals x.1 x.2).expectedCash x.1)))
        (A := fun _ => seen law id x.1 x.2)
        fun held s v e _ hK hv he => ?_).post fun _ t s ⟨_, heq, h⟩ => ?_
    · obtain ⟨row, hrow, rfl⟩ := Statement.updateCashSession_eq_ok.mp he
      rw [cashSessions_of_see hv] at hrow
      obtain rfl := Option.some.inj (hrow.symm.trans hK.2.1)
      exact ⟨rfl, rfl, Knowledge.mono _ (List.subset_append_right _ _) hK⟩
    · subst heq
      exact .closed hopen h
  · refine Triple.perform Unlocked.stable ShiftWork.stable fun t s e _ hunlocked he hok => ?_
    obtain ⟨row, -, rfl⟩ := Statement.updateCashSession_eq_ok.mp he
    exact absurd (of_decide_eq_true (hR s t _ hok)) hunlocked

omit hR

theorem triple_openRegister {registerId : Uuid} {body : OpenBody} (hvalid : body.valid = true) :
    law.contract.Triple R
      (shiftTables.After (L := law.contract) .none [])
      (openRegister tenantId userId registerId id body) fun _ => ShiftWork law := by
  refine (Observation.triple_readsOnly (.query _)).bind fun found => ?_
  refine Triple.orRaise_bind fun register _ => ?_
  refine Triple.bind (Q := fun _ => ShiftWork law) ?_ fun _ =>
    Triple.readsOnly (.query _) ShiftWork.stable
  refine (Observation.triple_perform (P := (· = .cashSessionInsert id
    (openRow tenantId registerId userId body))) (A := fun _ => vacant law id)
      fun held s v e _ _ hv he => ?_).post fun _ t s ⟨_, heq, h⟩ => ?_
  · obtain ⟨hnone, rfl⟩ :=
      Statement.insertCashSession_eq_ok (Statement.onUniqueViolation_eq_ok.mp he)
    rw [cashSessions_of_see hv] at hnone
    exact ⟨rfl, rfl, by simp [Edit.footprint], hnone⟩
  · subst heq
    exact .opened hvalid h

/-! ### Sales -/

variable {orderId : Uuid} {order : Order} {session : Option Uuid}

/-- The cash of some payments has been added. -/
def CashAdded (law : ShiftLaw) (t : Transaction sales) (s : Db) : Prop :=
  ∃ es, (∀ e ∈ es, AddsSale e) ∧ shiftTables.After (linkedIn law es) es t s

theorem CashAdded.stable : law.contract.Stable (CashAdded law) := by
  rintro t s s' hs ⟨es, hes, h⟩ hr
  exact ⟨es, hes, Observation.After.stable t s s' hs h hr⟩

/-- Statements on other tables. -/
theorem CashAdded.triple_emits {α : Type} {p : Sql α}
    (hp : p.Emits fun e => shiftTables.touches e = false) :
    law.contract.Triple R (CashAdded law) p fun _ => CashAdded law :=
  Triple.of_exists fun es => Triple.of_and fun hes =>
    (Observation.triple_emits hp).post fun _ _ _ h => ⟨es, hes, h⟩

theorem insertPayment_emits (paymentId : Uuid) (row : Payment) :
    (perform (Statement.insertPayment paymentId row) : Sql Unit).Emits fun e =>
      shiftTables.touches e = false := by
  refine emits_perform fun s e he => ?_
  obtain ⟨-, -, rfl⟩ := Statement.insertPayment_eq_ok he
  rfl

theorem insertPaymentTransaction_emits {P : Edit → Prop} {row : PaymentTransaction}
    (hP : P (.paymentTransactionInsert row)) :
    (perform (Statement.insertPaymentTransaction row) : Sql Unit).Emits P := by
  refine emits_perform fun s e he => ?_
  obtain rfl := Statement.insertPaymentTransaction_eq_ok he
  exact hP

/-- One payment adds its amount to the shift when it is cash. -/
theorem triple_takeCash {x : SalePayment × Option ConfirmedUpi} (hpos : 0 < x.1.amount) :
    law.contract.Triple R (CashAdded law)
      (takePayment tenantId userId orderId session order x) fun _ => CashAdded law := by
  refine Triple.require_bind fun _ => ?_
  refine (CashAdded.triple_emits (insertPayment_emits _ _)).bind fun _ => ?_
  refine (CashAdded.triple_emits (insertPaymentTransaction_emits rfl)).bind fun _ => ?_
  split
  · refine Triple.orRaise_bind fun sessionId _ => Triple.of_exists fun es =>
      Triple.of_and fun hes => ?_
    refine (Observation.triple_perform (P := AddsSale) (A := fun e => linkedIn law (es ++ [e]))
      fun held s v e _ hK hv he => ?_).post fun _ t s ⟨e, he, h⟩ => ⟨es ++ [e], ?_, h⟩
    · obtain ⟨hsession, rfl⟩ := Statement.insertCashMovement_eq_ok he
      rw [cashSessions_of_see hv, sessions_of_addsSale hes] at hsession
      refine ⟨rfl, ⟨_, rfl, rfl, hpos⟩, fun m hm => ?_⟩
      rcases List.mem_append.mp (movementsIn_append es _ ▸ hm) with hm | hm
      · exact hK m hm
      · obtain rfl := List.mem_singleton.mp hm
        exact hsession
    · intro e' he'
      rcases List.mem_append.mp he' with he' | he'
      · exact hes e' he'
      · exact List.mem_singleton.mp he' ▸ he
  · exact CashAdded.triple_emits (p := Program.ret ()) trivial

/-- The transaction of a counter sale. -/
theorem triple_placeSale {env : Environment} {d : OrderDraft}
    {payments : List (SalePayment × Option ConfirmedUpi)}
    (hpos : ∀ x ∈ payments, 0 < x.1.amount) :
    law.contract.Triple R
      (shiftTables.After (L := law.contract) .none [])
      (place env tenantId userId orderId d (settle tenantId userId session payments))
      fun _ => ShiftWork law := by
  have hinsert (n : ℕ) : (perform (Statement.insertOrder orderId (orderRow env tenantId d n)) :
      Sql Unit).Emits fun e => shiftTables.touches e = false := by
    refine emits_perform fun s e he => ?_
    obtain ⟨-, rfl⟩ := Statement.insertOrder_eq_ok he
    rfl
  have hdeliver : (perform (Statement.updateOrderStatus orderId .delivered) : Sql Unit).Emits
      fun e => shiftTables.touches e = false := by
    refine emits_perform fun s e he => ?_
    obtain ⟨row, -, rfl⟩ := Statement.updateOrderStatus_eq_ok.mp he
    rfl
  have hnumber : law.contract.Triple R (shiftTables.After (L := law.contract) .none [])
      (nextInvoiceNumber tenantId env.financialYear)
      fun _ => shiftTables.After (L := law.contract) .none [] :=
    Observation.triple_emits (nextInvoiceNumber_emits fun _ => rfl)
  refine shiftTables_stockBlind.triple_place hnumber (fun n => Observation.triple_emits (hinsert n))
    (fun n => ?_) ShiftWork.stable
  refine Triple.require_bind fun _ => ?_
  refine Triple.bind (Q := fun _ => CashAdded law) ?_ fun _ => ?_
  · -- the cash of the payments is added one by one
    refine ((Triple.forM (I := fun rest t s => (∀ x ∈ rest, 0 < x.1.amount) ∧
      CashAdded law t s) (fun t s s' hs h hr => ⟨h.1, CashAdded.stable t s s' hs h.2 hr⟩)
        fun x rest => Triple.of_and fun hrest => ?_).pre
          fun t s _ h =>
            ⟨hpos, [], by simp, h.mono fun _ => by simp [linkedIn, movementsIn]⟩).post
              fun _ t s h => h.2
    refine (triple_takeCash (hrest x (by simp))).post fun _ t s h => ⟨fun y hy => ?_, h⟩
    exact hrest y (List.mem_cons_of_mem _ hy)
  · -- what comes after them leaves the shifts alone
    refine (CashAdded.triple_emits hdeliver).bind fun _ => ?_
    refine (CashAdded.triple_emits (emits_perform fun s e he => ?_)).post ?_
    · obtain rfl := Except.ok.inj he
      rfl
    · rintro _ t s ⟨es, hes, h⟩
      exact .sold hes h

/-! ### All requests -/

theorem sendRefund_emits (paymentId : Uuid) (payment : Payment) (amount : Cents)
    (reason : Option String) (randomRef : String) {P : Edit → Prop} :
    (PaymentService.sendRefund paymentId payment amount reason randomRef).Emits P := by
  unfold PaymentService.sendRefund
  split
  · refine (ReadsOnly.orRaise _ _).emits.bind fun razorpayPaymentId => ?_
    refine (ReadsOnly.query _).emits.bind fun found => ?_
    refine (ReadsOnly.orRaise _ _).emits.bind fun credentials r => ?_
    cases r <;> trivial
  · trivial

/-- A refund books nothing on a shift. -/
theorem refund_emits (tenantId userId paymentId refundId : Uuid) (randomRef : String)
    (body : PaymentService.RefundBody) :
    (PaymentService.refund tenantId userId paymentId refundId randomRef body).Emits fun e =>
      shiftTables.touches e = false := by
  refine (ReadsOnly.query _).emits.bind fun found => ?_
  refine (ReadsOnly.orRaise _ _).emits.bind fun payment => ?_
  refine (ReadsOnly.require _ _).emits.bind fun _ => (ReadsOnly.require _ _).emits.bind fun _ => ?_
  refine (ReadsOnly.query _).emits.bind fun refunded => ?_
  refine (ReadsOnly.require _ _).emits.bind fun _ => (emits_lockRow _).bind fun _ => ?_
  refine (ReadsOnly.query _).emits.bind fun reread => ?_
  refine (ReadsOnly.query _).emits.bind fun freshRefunded => ?_
  refine (ReadsOnly.orRaise _ _).emits.bind fun fresh => ?_
  refine (ReadsOnly.require _ _).emits.bind fun _ => (ReadsOnly.require _ _).emits.bind fun _ => ?_
  refine (sendRefund_emits _ _ _ _ _).bind fun rid => ?_
  refine Emits.bind (emits_perform fun s e he => ?_) fun _ => ?_
  · obtain rfl := Statement.insertRefund_eq_ok he
    rfl
  refine (insertPaymentTransaction_emits (by rfl)).bind fun _ => ?_
  refine (ReadsOnly.require _ _).emits.bind fun _ => ?_
  refine Emits.bind (emits_perform fun s e he => ?_) fun _ => (ReadsOnly.query _).emits
  obtain ⟨row, -, rfl⟩ := Statement.updatePayment_eq_ok he
  rfl

theorem walkInCustomer_emits {P : Edit → Prop} (hnothing : P .nothing)
    (hinsert : ∀ id row, P (.customerInsert id row)) (tenantId customerId : Uuid) :
    (PosService.walkInCustomer tenantId customerId).Emits P := by
  refine (ReadsOnly.query _).emits.bind fun existing => ?_
  split
  · trivial
  · refine Emits.bind (emits_perform fun s e he => ?_) fun _ => (ReadsOnly.query _).emits
    unfold Statement.insertCustomer at he
    split_ifs at he <;> obtain rfl := Except.ok.inj he
    · exact hnothing
    · exact hinsert _ _

theorem ensureDefault_emits {P : Edit → Prop} (hnothing : P .nothing)
    (hinsert : ∀ id row, P (.cashRegisterInsert id row)) (tenantId registerId : Uuid) :
    (CashRegisterService.ensureDefault tenantId registerId).Emits P := by
  refine (ReadsOnly.query _).emits.bind fun existing => ?_
  split
  · trivial
  · refine Emits.bind (emits_perform fun s e he => ?_) fun _ => (ReadsOnly.query _).emits
    unfold Statement.insertCashRegister at he
    split_ifs at he <;> obtain rfl := Except.ok.inj he
    · exact hnothing
    · exact hinsert _ _

/-- Every request that has passed its schema does one of these things to the shifts. -/
theorem CashRequest.triple (hR : ∀ s t e, R.write s t e = true → locksShifts.write s t e = true)
    (r : CashRequest) (hr : r.valid = true) :
    law.contract.Triple R
      (shiftTables.After (L := law.contract) .none []) r.program
      fun _ => ShiftWork law := by
  -- what a request returns does not matter here
  have hdiscard {α : Type} {p : Sql α}
      (hp : law.contract.Triple R
        (shiftTables.After (L := law.contract) .none []) p
          fun _ => ShiftWork law) :
      law.contract.Triple R
        (shiftTables.After (L := law.contract) .none []) (do let _ ← p)
          fun _ => ShiftWork law :=
    hp.bind fun _ => Triple.readsOnly (.ret ()) ShiftWork.stable
  -- a program that writes none of the three tables
  have happart {α : Type} {p : Sql α} (hp : p.Emits fun e => shiftTables.touches e = false) :
      law.contract.Triple R
        (shiftTables.After (L := law.contract) .none []) p
          fun _ => ShiftWork law :=
    (Observation.triple_emits hp).post fun _ t s h =>
      .sold (by simp) (h.mono fun _ => by simp [linkedIn, movementsIn])
  cases r with
  | walkInCustomer tenantId customerId =>
    exact hdiscard (happart (walkInCustomer_emits (by rfl) (by simp [shiftTables]) _ _))
  | ensureDefault tenantId registerId =>
    exact hdiscard (happart (ensureDefault_emits (by rfl) (by simp [shiftTables]) _ _))
  | openRegister => exact hdiscard (triple_openRegister hr)
  | addMovement => exact hdiscard (triple_addMovement hR hr)
  | close => exact hdiscard (triple_close hR)
  | sale env tenantId userId orderId walkIn defaultRegister body =>
    refine hdiscard (triple_saleOf fun session payments d hpayments _ _ => ?_)
    refine triple_placeSale fun x hx => ?_
    have hmem : x.1 ∈ body.payments := hpayments ▸ List.mem_map_of_mem hx
    simp only [CashRequest.valid, SaleBody.valid, List.all_eq_true, decide_eq_true_eq] at hr
    exact (hr.2 _ hmem).1
  | retrySale env tenantId userId orderId d session payments =>
    refine hdiscard (triple_placeSale fun x hx => ?_)
    simp only [CashRequest.valid, Bool.decide_and, Bool.and_eq_true, decide_eq_true_eq,
      List.all_eq_true] at hr
    exact (hr.2 x hx).1
  | refund => exact hdiscard (happart (refund_emits _ _ _ _ _ _))

end PulseOps
