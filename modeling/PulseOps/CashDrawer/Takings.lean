import PulseOps.CashDrawer.Shifts
import PulseOps.Payments.Effects
import PulseOps.ReadCommitted.TableSum

/-!
# Cash taken in a shift

The order of a counter sale names its shift in `metadata.pos`, and its payments name the order.
What was taken in a shift can so be read off the payments, without looking at the drawer's own
movements. The two agree: a sale adds one movement for each of its cash payments.

## Main definitions

* `posSession`, `Order.shift` — the shift that an order names.
* `cashTaken` — the cash payments taken in a shift.
* `DrawerBooks` — the drawer's movements agree with the payments.
* `SaleSoFar` — the edits of a sale up to some payment.

## Main results

* `posSession_posMetadata` — a counter sale names its shift.
* `SaleSoFar.placed`, `SaleSoFar.takenCash`, `SaleSoFar.takenOther`, `SaleSoFar.delivered` — the
  steps of a sale.
-/

set_option autoImplicit false

open ReadCommitted Program Contract

namespace PulseOps

open CashRegisterService PosService OrderService

/-! ### The shift of an order -/

/-- An identifier as the database draws them: there is no quotation mark in it. -/
abbrev PlainId (id : Uuid) : Prop := '\x22' ∉ id.toList

/-- The shift that the text of `metadata.pos` names: the string at its end. -/
def posSession (text : String) : Option Uuid :=
  match text.toList.reverse with
  | '\x7d' :: '\x22' :: rest => some (String.ofList (rest.takeWhile (· ≠ '\x22')).reverse)
  | _ => none

variable {id sessionId registerId orderId paymentId : Uuid} {s s' : Db} {es : List Edit}
  {p : Payment} {order : Order}

/-- A counter sale names its shift. -/
theorem posSession_posMetadata (hplain : PlainId sessionId) :
    posSession (posMetadata (some (sessionId, registerId))) = some sessionId := by
  have hwhile (rest : List Char) :
      (sessionId.toList.reverse ++ '\x22' :: rest).takeWhile (fun c => !decide (c = '\x22')) =
        sessionId.toList.reverse := by
    rw [List.takeWhile_append_of_pos]
    · simp
    · intro c hc
      rw [Bool.not_eq_true', decide_eq_false_iff_not]
      rintro rfl
      exact hplain (List.mem_reverse.mp hc)
  simp [posMetadata, posSession, hwhile]

/-- The shift in which the order was sold. -/
def Order.shift (o : Order) : Option Uuid :=
  match o.metadata.lookup "pos" with
  | some (.text text) => posSession text
  | _ => none

def Db.shiftOf (s : Db) (orderId : Uuid) : Option Uuid := (s.orders.lookup orderId).bind Order.shift

/-! ### What was taken -/

/-- What a payment puts into the drawer of the shift `id`. -/
def cashFor (id : Uuid) (s : Db) (p : Payment) : Cents :=
  if p.provider = "cash" ∧ s.shiftOf p.orderId = some id then p.amount else 0

/-- The cash payments taken in the shift `id`. -/
def cashTaken (id : Uuid) (s : Db) : Cents := s.payments.total fun _ p => cashFor id s p

/-- The drawer's movements agree with the payments: sales are the cash payments taken, and no
movement is a refund. The other two fields are what the schema and the foreign keys give. -/
structure DrawerBooks (s : Db) : Prop where
  plain : ∀ id, (s.cashSessions.lookup id).isSome → PlainId id
  linked : ∀ id p, s.payments.lookup id = some p → (s.orders.lookup p.orderId).isSome
  sales : ∀ id, sumOf .sale (movementsOf id s) = cashTaken id s
  noRefund : ∀ m ∈ s.cashMovements, m.type ≠ .refund

theorem cashTaken_congr (hpayments : s'.payments = s.payments)
    (horders : ∀ id p, s.payments.lookup id = some p →
      s'.shiftOf p.orderId = s.shiftOf p.orderId) : cashTaken id s' = cashTaken id s := by
  rw [cashTaken, cashTaken, hpayments]
  apply AList.total_congr
  intro k p hp
  rw [cashFor, cashFor, horders k p hp]

/-- The tables the drawer's books are about. -/
def drawerTables : Observation sales
    (Table Uuid Order × Table Uuid Payment × Table Uuid CashSession × List CashMovement) where
  see s := (s.orders, s.payments, s.cashSessions, s.cashMovements)
  touches
    | .orderInsert _ _ => true
    | .orderUpdate _ _ => true
    | .paymentInsert _ _ => true
    | .paymentUpdate _ _ => true
    | .cashSessionInsert _ _ => true
    | .cashSessionUpdate _ _ => true
    | .cashMovementInsert _ => true
    | _ => false
  see_apply {s e} he := by cases e <;> simp_all [Db.deleteWarehouse]
  see_congr {s s' e} h := by cases e <;> simp_all [Db.deleteWarehouse]

theorem drawerTables_stockBlind : StockBlind drawerTables where
  stock e he := by cases e <;> simp_all [Edit.IsStock, drawerTables]
  item _ := rfl
  history _ := rfl

theorem orders_of_see (h : drawerTables.see s = drawerTables.see s') : s.orders = s'.orders :=
  congrArg Prod.fst h

theorem payments_of_see (h : drawerTables.see s = drawerTables.see s') :
    s.payments = s'.payments :=
  congrArg (·.2.1) h

theorem sessions_of_see (h : drawerTables.see s = drawerTables.see s') :
    s.cashSessions = s'.cashSessions :=
  congrArg (·.2.2.1) h

theorem movements_of_see (h : drawerTables.see s = drawerTables.see s') :
    s.cashMovements = s'.cashMovements :=
  congrArg (·.2.2.2) h

theorem DrawerBooks.of_see (hs : DrawerBooks s) (h : drawerTables.see s' = drawerTables.see s) :
    DrawerBooks s' where
  plain id hid := hs.plain id (sessions_of_see h ▸ hid)
  linked id p hp := by
    rw [orders_of_see h]
    exact hs.linked id p (payments_of_see h ▸ hp)
  sales id := by
    have horders (orderId : Uuid) : s'.shiftOf orderId = s.shiftOf orderId := by
      rw [Db.shiftOf, orders_of_see h, Db.shiftOf]
    rw [cashTaken_congr (payments_of_see h) fun _ p _ => horders p.orderId, movementsOf,
      movements_of_see h]
    exact hs.sales id
  noRefund m hm := hs.noRefund m (movements_of_see h ▸ hm)

/-! ### Shifts and staff -/

/-- A shift is opened, or its row changes. -/
theorem DrawerBooks.insertSession {row : CashSession} (hs : DrawerBooks s) (hid : PlainId id) :
    DrawerBooks { s with cashSessions := s.cashSessions.insert id row } where
  plain id' hid' := by
    by_cases heq : id' = id
    · exact heq ▸ hid
    · rw [AList.lookup_insert_ne heq] at hid'
      exact hs.plain id' hid'
  linked := hs.linked
  sales := hs.sales
  noRefund := hs.noRefund

theorem sumOf_movementsOf_append (type : CashMovementType) (m : CashMovement) :
    sumOf type (movementsOf id { s with cashMovements := s.cashMovements ++ [m] }) =
      sumOf type (movementsOf id s) + if m.type = type ∧ m.sessionId = id then m.amount else 0 := by
  by_cases hid : m.sessionId = id <;> by_cases htype : m.type = type <;>
    simp [sumOf, movementsOf, hid, htype]

/-- Staff put cash in or take it out. -/
theorem DrawerBooks.moved {m : CashMovement} (hs : DrawerBooks s)
    (htype : m.type = .cashIn ∨ m.type = .cashOut) :
    DrawerBooks { s with cashMovements := s.cashMovements ++ [m] } where
  plain := hs.plain
  linked := hs.linked
  sales id := by
    have hsale : m.type ≠ .sale := by
      rcases htype with htype | htype <;> simp [htype]
    rw [sumOf_movementsOf_append, if_neg (fun h => hsale h.1), add_zero]
    exact hs.sales id
  noRefund m' hm' := by
    rcases List.mem_append.mp hm' with hm' | hm'
    · exact hs.noRefund m' hm'
    · obtain rfl := List.mem_singleton.mp hm'
      rcases htype with htype | htype <;> simp [htype]

/-- A payment changes its status. -/
theorem DrawerBooks.restated {row : Payment} {status : PaymentStatus} (hs : DrawerBooks s)
    (hrow : s.payments.lookup paymentId = some row) :
    DrawerBooks { s with payments := s.payments.insert paymentId { row with status } } where
  plain := hs.plain
  linked id p hp := by
    by_cases hid : id = paymentId
    · subst hid
      rw [AList.lookup_insert, Option.some.injEq] at hp
      subst hp
      exact hs.linked _ row hrow
    · rw [AList.lookup_insert_ne hid] at hp
      exact hs.linked id p hp
  sales id := (hs.sales id).trans (AList.total_insert_same hrow rfl).symm
  noRefund := hs.noRefund

/-! ### Sales -/

/-- The contract: the books agree, and locked orders and payments stay as they are. -/
def drawerContract : Contract sales where
  inv := DrawerBooks
  evolves _ _ := True
  agree key s s' := (∀ id, key = .order id → s.orders.lookup id = s'.orders.lookup id) ∧
    ∀ id, key = .payment id → s.payments.lookup id = s'.payments.lookup id
  evolves_refl _ := trivial
  evolves_trans _ _ := trivial
  agree_refl _ _ := ⟨fun _ _ => rfl, fun _ _ => rfl⟩
  agree_trans h h' := ⟨fun id hid => (h.1 id hid).trans (h'.1 id hid),
    fun id hid => (h.2 id hid).trans (h'.2 id hid)⟩

/-- The order and the payments that the edits write are new. -/
def unsold (orderId : Uuid) (es : List Edit) : drawerContract.Knowledge where
  holds held s := (.order orderId ∈ held ∧ s.orders.lookup orderId = none) ∧
    ∀ id, (∃ e ∈ es, Key.payment id ∈ e.footprint) →
      .payment id ∈ held ∧ s.payments.lookup id = none
  mono hsub h := ⟨⟨hsub h.1.1, h.1.2⟩, fun id hid => ⟨hsub (h.2 id hid).1, (h.2 id hid).2⟩⟩
  stable _ h hr := by
    refine ⟨⟨h.1.1, ?_⟩, fun id hid => ⟨(h.2 id hid).1, ?_⟩⟩
    · exact ((hr.agree _ h.1.1).1 orderId rfl).symm.trans h.1.2
    · exact ((hr.agree _ (h.2 id hid).1).2 id rfl).symm.trans (h.2 id hid).2

theorem unsold_of_subset {es' : List Edit} {held : List Key} (hsub : es ⊆ es')
    (h : (unsold orderId es').holds held s) : (unsold orderId es).holds held s :=
  ⟨h.1, fun id ⟨e, he, hfoot⟩ => h.2 id ⟨e, hsub he, hfoot⟩⟩

/-- What a sale has written so far keeps the books in order, wherever its order and its
payments are new. -/
def SaleSoFar (orderId : Uuid) (order : Order) (es : List Edit) : Prop :=
  ∀ held s, DrawerBooks s → (unsold orderId es).holds held s →
    DrawerBooks (sales.replay es s) ∧ (sales.replay es s).orders.lookup orderId = some order ∧
      (sales.replay es s).cashSessions = s.cashSessions

/-- A new order has no payments yet. -/
theorem SaleSoFar.placed (orderId : Uuid) (order : Order) :
    SaleSoFar orderId order [.orderInsert orderId order] := by
  intro held s hs hK
  have hnone := hK.1.2
  refine ⟨⟨hs.plain, fun id p hp => ?_, fun id => ?_, hs.noRefund⟩, AList.lookup_insert _, rfl⟩
  · change ((s.orders.insert orderId order).lookup p.orderId).isSome
    by_cases hid : p.orderId = orderId
    · rw [hid, AList.lookup_insert]
      rfl
    · rw [AList.lookup_insert_ne hid]
      exact hs.linked id p hp
  · have hsame : cashTaken id { s with orders := s.orders.insert orderId order } =
        cashTaken id s := by
      refine cashTaken_congr rfl fun k p hp => ?_
      have hne : p.orderId ≠ orderId := by
        intro heq
        have hlinked := hs.linked k p hp
        rw [heq, hnone] at hlinked
        cases hlinked
      simp [Db.shiftOf, AList.lookup_insert_ne hne]
    exact (hs.sales id).trans hsame.symm

theorem cashTaken_insert (id : Uuid) (hnone : s.payments.lookup paymentId = none) :
    cashTaken id { s with payments := s.payments.insert paymentId p } =
      cashFor id s p + cashTaken id s :=
  AList.total_insert_new (fun _ p => cashFor id s p) hnone

/-- A payment is added to an order that is there. -/
theorem linked_insert {s' : Db} (hs : DrawerBooks s)
    (horder : s.orders.lookup p.orderId = some order) (horders : s'.orders = s.orders)
    (hpayments : s'.payments = s.payments.insert paymentId p) (id : Uuid) (p' : Payment)
    (hp' : s'.payments.lookup id = some p') : (s'.orders.lookup p'.orderId).isSome := by
  rw [horders]
  rw [hpayments] at hp'
  by_cases hid : id = paymentId
  · rw [hid, AList.lookup_insert, Option.some.injEq] at hp'
    rw [← hp', horder]
    rfl
  · rw [AList.lookup_insert_ne hid] at hp'
    exact hs.linked id p' hp'

section Payment

variable (h : SaleSoFar orderId order es)
  (hnew : ∀ e ∈ es, Key.payment paymentId ∉ e.footprint)
include h hnew

/-- The books before one more payment. -/
theorem SaleSoFar.before {held : List Key} (hs : DrawerBooks s)
    (hK : (unsold orderId (es ++ [.paymentInsert paymentId p])).holds held s) :
    DrawerBooks (sales.replay es s) ∧
      (sales.replay es s).orders.lookup orderId = some order ∧
      (sales.replay es s).cashSessions = s.cashSessions ∧
      (sales.replay es s).payments.lookup paymentId = none := by
  obtain ⟨hbooks, horder, hsessions⟩ :=
    h held s hs (unsold_of_subset (List.subset_append_left _ _) hK)
  refine ⟨hbooks, horder, hsessions, ?_⟩
  rw [lookup_payments_frame hnew]
  exact (hK.2 paymentId ⟨_, List.mem_append_right _ (List.mem_singleton_self _),
    List.mem_cons_self⟩).2

/-- A payment by card or the like. -/
theorem SaleSoFar.takenOther (hp : p.orderId = orderId) (hcash : p.provider ≠ "cash") :
    SaleSoFar orderId order (es ++ [.paymentInsert paymentId p]) := by
  intro held s hs hK
  obtain ⟨hbooks, horder, hsessions, hnone⟩ := h.before hnew hs hK
  rw [Database.replay_append, Database.replay_cons, Database.replay_nil]
  refine ⟨⟨hbooks.plain, ?_, fun id => ?_, hbooks.noRefund⟩, horder, hsessions⟩
  · exact linked_insert hbooks (hp ▸ horder) rfl rfl
  · refine (hbooks.sales id).trans ((cashTaken_insert id hnone).trans ?_).symm
    rw [cashFor, if_neg (fun hc => hcash hc.1), zero_add]

/-- A cash payment, with its movement. -/
theorem SaleSoFar.takenCash {m : CashMovement} (hp : p.orderId = orderId)
    (hcash : p.provider = "cash") (hshift : order.shift = some m.sessionId)
    (htype : m.type = .sale) (hamount : m.amount = p.amount) :
    SaleSoFar orderId order (es ++ [.paymentInsert paymentId p] ++ [.cashMovementInsert m]) := by
  intro held s hs hK
  obtain ⟨hbooks, horder, hsessions, hnone⟩ :=
    h.before hnew hs (unsold_of_subset (List.subset_append_left _ _) hK)
  have hfor (id : Uuid) : cashFor id (sales.replay es s) p =
      if m.type = .sale ∧ m.sessionId = id then m.amount else 0 := by
    have hsold : (sales.replay es s).shiftOf p.orderId = some m.sessionId := by
      rw [Db.shiftOf, hp, horder]
      exact hshift
    rw [cashFor, hsold]
    simp [hcash, htype, hamount]
  rw [Database.replay_append, Database.replay_append, Database.replay_cons, Database.replay_nil,
    Database.replay_cons, Database.replay_nil]
  refine ⟨⟨hbooks.plain, ?_, fun id => ?_, fun m' hm' => ?_⟩, horder, hsessions⟩
  · exact linked_insert hbooks (hp ▸ horder) rfl rfl
  · calc sumOf .sale (movementsOf id _)
        = sumOf .sale (movementsOf id (sales.replay es s)) +
            if m.type = .sale ∧ m.sessionId = id then m.amount else 0 :=
          sumOf_movementsOf_append .sale m
      _ = cashFor id (sales.replay es s) p + cashTaken id (sales.replay es s) := by
          rw [hbooks.sales id, hfor id, add_comm]
      _ = _ := (cashTaken_insert id hnone).symm
  · rcases List.mem_append.mp hm' with hm' | hm'
    · exact hbooks.noRefund m' hm'
    · obtain rfl := List.mem_singleton.mp hm'
      simp [htype]

end Payment

/-- The order is handed over. -/
theorem SaleSoFar.delivered {status : OrderStatus} (h : SaleSoFar orderId order es) :
    SaleSoFar orderId { order with status }
      (es ++ [.orderUpdate orderId { order with status }]) := by
  intro held s hs hK
  obtain ⟨hbooks, horder, hsessions⟩ :=
    h held s hs (unsold_of_subset (List.subset_append_left _ _) hK)
  rw [Database.replay_append, Database.replay_cons, Database.replay_nil]
  refine ⟨⟨hbooks.plain, fun id p hp => ?_, fun id => ?_, hbooks.noRefund⟩,
    AList.lookup_insert _, hsessions⟩
  · change (((sales.replay es s).orders.insert orderId _).lookup p.orderId).isSome
    by_cases hid : p.orderId = orderId
    · rw [hid, AList.lookup_insert]
      rfl
    · rw [AList.lookup_insert_ne hid]
      exact hbooks.linked id p hp
  · refine (hbooks.sales id).trans (Eq.symm ?_)
    refine cashTaken_congr rfl fun k p _ => ?_
    change (((sales.replay es s).orders.insert orderId _).lookup p.orderId).bind Order.shift = _
    by_cases hid : p.orderId = orderId
    · rw [hid, AList.lookup_insert, Db.shiftOf, horder]
      rfl
    · rw [AList.lookup_insert_ne hid, Db.shiftOf]

end PulseOps
