import PulseOps.Invoices.Numbers
import PulseOps.Model.Workspace
import PulseOps.Sales.Placing

/-!
# The invoice sequence

Every order takes the next number of its workspace's counter for the financial year, in the
transaction that stores the order. The counter row stays locked to the end of that
transaction, so the number and the order are committed together or not at all: the committed
numbers of a year are `1..k`, each used once, whatever attempts fail or are made again. The
prefix may change between two orders, and even between the two attempts of one.

## Main definitions

* `Invoiced` — the orders of a year bear the numbers up to the counter, each once.
* `InvoiceRequest` — the requests that place and change orders or the invoice prefix.
* `invoiceTables` — the two tables that matter.

## Main results

* `Invoiced.number` — one order more.
* `NumberedOrder.guarantee` — what a transaction owes the others.
* `invoices_gapless` — every run.
-/

set_option autoImplicit false

open ReadCommitted Program Contract

namespace PulseOps

open Gst OrderService

variable {s s' : Db} {tenantId id orderId : Uuid} {fy : String} {n : ℕ}

/-! ### Invoices and counters -/

/-- The workspace of an order and its invoice number. -/
def Order.invoice (o : Order) : Uuid × String := (o.tenantId, o.invoiceNumber)

def Db.invoiceOf (s : Db) (id : Uuid) : Option (Uuid × String) :=
  (s.orders.lookup id).map Order.invoice

/-- The last number a workspace has given out in a financial year. -/
def Db.lastNumber (s : Db) (tenantId : Uuid) (fy : String) : ℕ :=
  (s.invoiceSequences.lookup (tenantId, fy)).getD 0

/-- The order `id` is the invoice `n` of the year, under some prefix. -/
def Db.Bears (s : Db) (tenantId : Uuid) (fy : String) (n : ℕ) (id : Uuid) : Prop :=
  ∃ p, s.invoiceOf id = some (tenantId, formatInvoiceNumber p fy n)

/-- The orders of a workspace's year bear the numbers up to its counter, each once, and
there are no others. -/
structure Invoiced (s : Db) : Prop where
  every : ∀ id tenantId number, s.invoiceOf id = some (tenantId, number) →
    ∃ p year month n, number = formatInvoiceNumber p (financialYear year month) n ∧
      1 ≤ n ∧ n ≤ s.lastNumber tenantId (financialYear year month)
  gapless : ∀ tenantId year month n, 1 ≤ n →
    n ≤ s.lastNumber tenantId (financialYear year month) →
      ∃ id, s.Bears tenantId (financialYear year month) n id
  unique : ∀ tenantId year month n id id', s.Bears tenantId (financialYear year month) n id →
    s.Bears tenantId (financialYear year month) n id' → id = id'

theorem formatted_injective {p p' : String} {year month year' month' m : ℕ}
    (h : formatInvoiceNumber p (financialYear year month) n =
      formatInvoiceNumber p' (financialYear year' month') m) :
    financialYear year month = financialYear year' month' ∧ n = m :=
  (formatInvoiceNumber_injective (slash_notMem_financialYear _ _)
    (slash_notMem_financialYear _ _) h).2

/-- The numbers in use are those up to the counter. -/
theorem Invoiced.bounds {year month : ℕ} (hs : Invoiced s)
    (h : s.Bears tenantId (financialYear year month) n id) :
    1 ≤ n ∧ n ≤ s.lastNumber tenantId (financialYear year month) := by
  obtain ⟨p, hid⟩ := h
  obtain ⟨p', year', month', m, hnumber, hpos, hle⟩ := hs.every id tenantId _ hid
  obtain ⟨hyear, rfl⟩ := formatted_injective hnumber
  exact ⟨hpos, hyear ▸ hle⟩

theorem Invoiced.congr (hs : Invoiced s) (hinvoice : ∀ id, s'.invoiceOf id = s.invoiceOf id)
    (hlast : ∀ tenantId fy, s'.lastNumber tenantId fy = s.lastNumber tenantId fy) :
    Invoiced s' := by
  refine ⟨?_, ?_, ?_⟩
  · intro id tenantId number hid
    simp only [hlast]
    exact hs.every id tenantId number (hinvoice id ▸ hid)
  · intro tenantId year month n hpos hle
    simp only [Db.Bears, hinvoice]
    exact hs.gapless tenantId year month n hpos (hlast tenantId _ ▸ hle)
  · intro tenantId year month n id id' hid hid'
    simp only [Db.Bears, hinvoice] at hid hid'
    exact hs.unique tenantId year month n id id' hid hid'

/-- One order more, with the next number. -/
theorem Invoiced.number {p : String} {year month : ℕ} (hs : Invoiced s)
    (hfresh : s.invoiceOf orderId = none)
    (hinvoice : ∀ id, s'.invoiceOf id = if id = orderId then
      some (tenantId, formatInvoiceNumber p (financialYear year month)
        (s.lastNumber tenantId (financialYear year month) + 1)) else s.invoiceOf id)
    (hlast : ∀ tenantId' fy, s'.lastNumber tenantId' fy =
      if tenantId' = tenantId ∧ fy = financialYear year month then
        s.lastNumber tenantId (financialYear year month) + 1 else s.lastNumber tenantId' fy) :
    Invoiced s' := by
  -- an order that bears a number is an old one, or the new one with the new number
  have hbears {tenantId' : Uuid} {year' month' m : ℕ} {id : Uuid}
      (h : s'.Bears tenantId' (financialYear year' month') m id) :
      s.Bears tenantId' (financialYear year' month') m id ∨ id = orderId ∧
        tenantId' = tenantId ∧ financialYear year' month' = financialYear year month ∧
          m = s.lastNumber tenantId (financialYear year month) + 1 := by
    obtain ⟨p', hid⟩ := h
    rw [hinvoice] at hid
    split_ifs at hid with heq
    · obtain ⟨rfl, hnumber⟩ := Prod.mk.inj (Option.some.inj hid)
      obtain ⟨hyear, rfl⟩ := formatted_injective hnumber
      exact .inr ⟨heq, rfl, hyear.symm, rfl⟩
    · exact .inl ⟨p', hid⟩
  have hold {tenantId' : Uuid} {year' month' m : ℕ} {id : Uuid}
      (h : s.Bears tenantId' (financialYear year' month') m id) :
      s'.Bears tenantId' (financialYear year' month') m id := by
    obtain ⟨p', hid⟩ := h
    refine ⟨p', ?_⟩
    rw [hinvoice, if_neg ?_, hid]
    rintro rfl
    rw [hfresh] at hid
    cases hid
  have hmono (tenantId' : Uuid) (fy : String) :
      s.lastNumber tenantId' fy ≤ s'.lastNumber tenantId' fy := by
    rw [hlast]
    split_ifs with heq
    · obtain ⟨rfl, rfl⟩ := heq
      omega
    · exact le_rfl
  refine ⟨?_, ?_, ?_⟩
  · intro id tenantId' number hid
    rw [hinvoice] at hid
    split_ifs at hid with heq
    · obtain ⟨rfl, rfl⟩ := Prod.mk.inj (Option.some.inj hid)
      refine ⟨p, year, month, _, rfl, by omega, ?_⟩
      rw [hlast, if_pos ⟨rfl, rfl⟩]
    · obtain ⟨p', year', month', m, hnumber, hpos, hle⟩ := hs.every id tenantId' number hid
      exact ⟨p', year', month', m, hnumber, hpos, hle.trans (hmono _ _)⟩
  · intro tenantId' year' month' m hpos hle
    rw [hlast] at hle
    split_ifs at hle with heq
    · obtain ⟨rfl, hyear⟩ := heq
      rcases Nat.lt_or_ge (s.lastNumber tenantId' (financialYear year month)) m with hlt | hge
      · obtain rfl : m = s.lastNumber tenantId' (financialYear year month) + 1 := by omega
        refine ⟨orderId, p, ?_⟩
        rw [hinvoice, if_pos rfl, hyear]
      · obtain ⟨id, hid⟩ := hs.gapless tenantId' year' month' m hpos (hyear ▸ hge)
        exact ⟨id, hold hid⟩
    · obtain ⟨id, hid⟩ := hs.gapless tenantId' year' month' m hpos hle
      exact ⟨id, hold hid⟩
  · intro tenantId' year' month' m id id' hid hid'
    rcases hbears hid with h | ⟨rfl, rfl, hyear, rfl⟩ <;>
      rcases hbears hid' with h' | ⟨rfl, heq, hyear', hm⟩
    · exact hs.unique tenantId' year' month' m id id' h h'
    · -- the new number is above every number in use
      have hle := (hs.bounds h).2
      rw [heq, hyear', hm] at hle
      omega
    · have hle := (hs.bounds h').2
      rw [hyear] at hle
      omega
    · rfl

/-! ### The two tables -/

/-- The orders and the counters. -/
def invoiceTables : Observation sales (Table Uuid Order × Table (Uuid × String) ℕ) where
  see s := (s.orders, s.invoiceSequences)
  touches
    | .invoiceSequenceUpsert _ _ _ => true
    | .orderInsert _ _ => true
    | .orderUpdate _ _ => true
    | _ => false
  see_apply {s e} he := by cases e <;> simp_all [Db.deleteWarehouse]
  see_congr {s s' e} h := by cases e <;> simp_all [Db.deleteWarehouse]

theorem invoiceOf_of_see (h : invoiceTables.see s = invoiceTables.see s') (id : Uuid) :
    s.invoiceOf id = s'.invoiceOf id :=
  congrArg (fun orders : Table Uuid Order => (orders.lookup id).map Order.invoice) (Prod.mk.inj h).1

theorem lastNumber_of_see (h : invoiceTables.see s = invoiceTables.see s') (tenantId : Uuid)
    (fy : String) : s.lastNumber tenantId fy = s'.lastNumber tenantId fy :=
  congrArg (fun t : Table (Uuid × String) ℕ => (t.lookup (tenantId, fy)).getD 0) (Prod.mk.inj h).2

/-- The lock on an order keeps its invoice, the lock on a counter its value. -/
def invoiceContract : Contract sales where
  inv := Invoiced
  evolves _ _ := True
  agree key s s' :=
    (∀ tenantId fy, key = .invoiceSequence tenantId fy →
      s.lastNumber tenantId fy = s'.lastNumber tenantId fy) ∧
    ∀ id, key = .order id → s.invoiceOf id = s'.invoiceOf id
  evolves_refl _ := trivial
  evolves_trans _ _ := trivial
  agree_refl _ _ := ⟨fun _ _ _ => rfl, fun _ _ => rfl⟩
  agree_trans h h' :=
    ⟨fun tenantId fy hkey => (h.1 tenantId fy hkey).trans (h'.1 tenantId fy hkey),
      fun id hkey => (h.2 id hkey).trans (h'.2 id hkey)⟩

/-- The number a transaction took from a counter that it keeps locked. -/
def counted (tenantId : Uuid) (fy : String) (n : ℕ) : invoiceContract.Knowledge where
  holds held s := .invoiceSequence tenantId fy ∈ held ∧ n = s.lastNumber tenantId fy + 1
  mono hsub h := ⟨hsub h.1, h.2⟩
  stable _ h hr := ⟨h.1, by rw [← (hr.agree _ h.1).1 tenantId fy rfl]; exact h.2⟩

/-- The same, read off the statement that moved the counter. -/
def countedBy (tenantId : Uuid) (fy : String) : Edit → invoiceContract.Knowledge
  | .invoiceSequenceUpsert _ _ n => counted tenantId fy n
  | _ => .none

/-- What an order that is locked bears: nothing when it is only about to be stored. -/
def bearing (id : Uuid) (x : Option (Uuid × String)) : invoiceContract.Knowledge where
  holds held s := .order id ∈ held ∧ s.invoiceOf id = x
  mono hsub h := ⟨hsub h.1, h.2⟩
  stable _ h hr := ⟨h.1, ((hr.agree _ h.1).2 id rfl).symm.trans h.2⟩

/-! ### Transactions -/

variable {t : Transaction sales} {es : List Edit} {order : Order} {R : Discipline sales}

/-- Every edit restates an order without changing its invoice. -/
def Restates (id : Uuid) (invoice : Uuid × String) (es : List Edit) : Prop :=
  ∀ e ∈ es, ∃ row : Order, e = .orderUpdate id row ∧ row.invoice = invoice

/-- What a transaction has done to orders and counters when it ends. -/
inductive NumberedOrder (t : Transaction sales) (s : Db) : Prop
  | kept (h : invoiceTables.After (.none : invoiceContract.Knowledge) [] t s)
  | restated {id : Uuid} {invoice : Uuid × String} {es : List Edit}
      (h : invoiceTables.After (bearing id (some invoice)) es t s)
      (hes : Restates id invoice es)
  | placed {tenantId id : Uuid} {year month n : ℕ} {p : String} {row : Order} {es : List Edit}
      (h : invoiceTables.After
        ((counted tenantId (financialYear year month) n).and (bearing id none))
        (.invoiceSequenceUpsert tenantId (financialYear year month) n :: .orderInsert id row :: es)
        t s)
      (hrow : row.invoice = (tenantId, formatInvoiceNumber p (financialYear year month) n))
      (hes : Restates id row.invoice es)

theorem Restates.invoiceOf_replay {invoice : Uuid × String} (h : Restates orderId invoice es)
    (hs : s.invoiceOf orderId = some invoice) (id : Uuid) :
    (sales.replay es s).invoiceOf id = s.invoiceOf id := by
  induction es generalizing s with
  | nil => rfl
  | cons e es ih =>
    obtain ⟨row, rfl, hrow⟩ := h e (by simp)
    -- the row that is written bears what was there
    have happly (id : Uuid) :
        (s.apply (.orderUpdate orderId row)).invoiceOf id = s.invoiceOf id := by
      by_cases hid : id = orderId
      · subst hid
        rw [hs, ← hrow]
        simp [Db.invoiceOf]
      · simp [Db.invoiceOf, AList.lookup_insert_ne hid]
    rw [Database.replay_cons, sales_apply,
      ih (fun e he => h e (List.mem_cons_of_mem _ he)) (by rw [happly, hs]), happly]

theorem Restates.lastNumber_replay {invoice : Uuid × String} (h : Restates orderId invoice es)
    (s : Db) : (sales.replay es s).lastNumber tenantId fy = s.lastNumber tenantId fy := by
  induction es generalizing s with
  | nil => rfl
  | cons e es ih =>
    obtain ⟨row, rfl, -⟩ := h e (by simp)
    exact ih (fun e he => h e (List.mem_cons_of_mem _ he)) _

/-- A transaction that does not touch invoices or counters. -/
theorem guarantee_of_same (hs : Invoiced s)
    (hinvoice : ∀ id, (t.view s).invoiceOf id = s.invoiceOf id)
    (hlast : ∀ tenantId fy, (t.view s).lastNumber tenantId fy = s.lastNumber tenantId fy) :
    invoiceContract.Guarantee R t s where
  inv := hs.congr hinvoice hlast
  evolves := trivial
  agree _ _ _ := ⟨fun tenantId fy _ => (hlast tenantId fy).symm, fun id _ => (hinvoice id).symm⟩

theorem NumberedOrder.guarantee (hs : Invoiced s) (h : NumberedOrder t s) :
    invoiceContract.Guarantee R t s := by
  cases h with
  | kept h =>
    exact guarantee_of_same hs (fun id => invoiceOf_of_see h.see_view id)
      fun tenantId fy => lastNumber_of_see h.see_view tenantId fy
  | restated h hes =>
    refine guarantee_of_same hs (fun id => ?_) fun tenantId fy => ?_
    · rw [invoiceOf_of_see h.see_view, hes.invoiceOf_replay h.knows.2]
    · rw [lastNumber_of_see h.see_view, hes.lastNumber_replay]
  | @placed tenantId orderId year month n p row es h hrow hes =>
    -- the counter is locked, so the number written is still the next one
    obtain ⟨⟨hcounter, hn⟩, horder, hfresh⟩ := h.knows
    have hinvoice (id : Uuid) : (t.view s).invoiceOf id =
        if id = orderId then some row.invoice else s.invoiceOf id := by
      rw [invoiceOf_of_see h.see_view, Database.replay_cons, Database.replay_cons,
        hes.invoiceOf_replay (by simp [Db.invoiceOf])]
      split_ifs with hid
      · subst hid
        simp [Db.invoiceOf]
      · simp [Db.invoiceOf, AList.lookup_insert_ne hid]
    have hlast (tenantId' : Uuid) (fy : String) : (t.view s).lastNumber tenantId' fy =
        if tenantId' = tenantId ∧ fy = financialYear year month then n
        else s.lastNumber tenantId' fy := by
      rw [lastNumber_of_see h.see_view, Database.replay_cons, Database.replay_cons,
        hes.lastNumber_replay]
      split_ifs with hkey
      · obtain ⟨rfl, rfl⟩ := hkey
        simp [Db.lastNumber]
      · have hne : (tenantId', fy) ≠ (tenantId, financialYear year month) := by
          simpa [Prod.ext_iff] using hkey
        simp [Db.lastNumber, AList.lookup_insert_ne hne]
    subst hn
    refine ⟨hs.number hfresh (fun id => by rw [hinvoice, hrow]) hlast, trivial,
      fun key hkey _ => ⟨?_, ?_⟩⟩
    · rintro tenantId' fy rfl
      rw [hlast, if_neg]
      rintro ⟨rfl, rfl⟩
      exact hkey hcounter
    · rintro id rfl
      rw [hinvoice, if_neg]
      rintro rfl
      exact hkey horder

/-! ### Programs -/

theorem NumberedOrder.stable : invoiceContract.Stable NumberedOrder := by
  intro t s s' hs h hr
  cases h with
  | kept h => exact .kept (Observation.After.stable t s s' hs h hr)
  | restated h hes => exact .restated (Observation.After.stable t s s' hs h hr) hes
  | placed h hrow hes => exact .placed (Observation.After.stable t s s' hs h hr) hrow hes

theorem invoiceTables_stockBlind : StockBlind invoiceTables where
  stock e he := by cases e <;> simp_all [Edit.IsStock, invoiceTables]
  item _ := rfl
  history _ := rfl

/-- The counter is one up, and its row is locked. -/
theorem triple_nextNumber (tenantId : Uuid) (fy : String) :
    invoiceContract.Triple R (invoiceTables.After (L := invoiceContract) .none [])
      (nextInvoiceNumber tenantId fy)
      fun n => invoiceTables.After (counted tenantId fy n)
        [.invoiceSequenceUpsert tenantId fy n] := by
  unfold nextInvoiceNumber
  refine Observation.triple_write (P := fun e => ∃ n, e = .invoiceSequenceUpsert tenantId fy n)
    (A := countedBy tenantId fy) (fun held s v e _ _ hv he => ?_) fun e he => ?_
  · obtain rfl := Except.ok.inj he
    refine ⟨rfl, ⟨_, rfl⟩, by simp [Edit.footprint], ?_⟩
    exact congrArg (· + 1) (lastNumber_of_see hv tenantId fy)
  · obtain ⟨n, rfl⟩ := he
    exact Triple.ret (Q := fun n => invoiceTables.After (counted tenantId fy n)
      [.invoiceSequenceUpsert tenantId fy n]) Observation.After.stable

/-- `order.create` with the number that was taken. -/
theorem triple_insertNumbered :
    invoiceContract.Triple R
      (invoiceTables.After (counted tenantId fy n) [.invoiceSequenceUpsert tenantId fy n])
      (perform (Statement.insertOrder orderId order))
      fun _ => invoiceTables.After ((counted tenantId fy n).and (bearing orderId none))
        [.invoiceSequenceUpsert tenantId fy n, .orderInsert orderId order] := by
  refine (Observation.triple_perform (P := (· = .orderInsert orderId order))
    (A := fun _ => (counted tenantId fy n).and (bearing orderId none))
    fun held s v e _ hK hv he => ?_).post fun _ _ _ ⟨_, heq, h⟩ => heq ▸ h
  obtain ⟨hnone, rfl⟩ := Statement.insertOrder_eq_ok he
  refine ⟨rfl, rfl, ⟨List.mem_append_right _ hK.1, hK.2⟩, by simp [Edit.footprint], ?_⟩
  have horders : v.orders = s.orders := (Prod.mk.inj hv).1
  rw [horders] at hnone
  simp [Db.invoiceOf, hnone]

/-- A status change restates the order, whatever it is changed to. -/
theorem triple_restate {status : OrderStatus} {row : OrderStatusHistory} {α : Type} {q : Db → α} :
    invoiceContract.Triple R (invoiceTables.After (L := invoiceContract) .none [])
      (do
        perform (Statement.updateOrderStatus id status)
        record (.orderStatusHistoryInsert row)
        query q)
      fun _ => NumberedOrder := by
  refine (Observation.triple_perform (P := fun e => ∃ row, e = .orderUpdate id row)
    (A := fun e => match e with
      | .orderUpdate id row => bearing id (some row.invoice)
      | _ => .none) fun held s v e _ _ hv he => ?_).bind fun _ => ?_
  · obtain ⟨row, hrow, rfl⟩ := Statement.updateOrderStatus_eq_ok.mp he
    refine ⟨rfl, ⟨_, rfl⟩, by simp [Edit.footprint], ?_⟩
    have horders : v.orders = s.orders := (Prod.mk.inj hv).1
    rw [horders] at hrow
    simp [Db.invoiceOf, hrow, Order.invoice]
  · refine Triple.of_exists fun e => Triple.of_and ?_
    rintro ⟨row, rfl⟩
    refine (invoiceTables_stockBlind.triple_note.post fun _ t s h => ?_).bind fun _ =>
      Triple.readsOnly (.query _) NumberedOrder.stable
    exact .restated h fun e he => ⟨row, List.mem_singleton.mp he, rfl⟩

/-! ### The services -/

variable {userId : Uuid} {reason : Option String}

theorem getById_readsOnly (id tenantId : Uuid) : (getById id tenantId).ReadsOnly :=
  (ReadsOnly.query _).bind fun _ => ReadsOnly.orRaise _ _

theorem triple_updateNumbered {status : OrderStatus} :
    invoiceContract.Triple R (invoiceTables.After (L := invoiceContract) .none [])
      (OrderService.updateStatus id tenantId userId status reason) fun _ => NumberedOrder := by
  refine (Observation.triple_readsOnly (getById_readsOnly id tenantId)).bind fun order => ?_
  exact Triple.require_bind fun _ => triple_restate

theorem triple_cancelNumbered :
    invoiceContract.Triple R (invoiceTables.After (L := invoiceContract) .none [])
      (OrderService.cancel id tenantId userId reason) fun _ => NumberedOrder := by
  refine (Observation.triple_readsOnly (getById_readsOnly id tenantId)).bind fun order => ?_
  refine Triple.require_bind fun _ => Triple.require_bind fun _ => ?_
  exact invoiceTables_stockBlind.triple_releaseItems.bind fun _ => triple_restate

theorem updateTaxProfile_emits (tenantId : Uuid) (changes : WorkspaceService.TaxProfileChanges) :
    (WorkspaceService.updateTaxProfile tenantId changes).Emits fun e =>
      invoiceTables.touches e = false := by
  refine (ReadsOnly.query _).emits.bind fun settings => ?_
  refine (ReadsOnly.require _ _).emits.bind fun _ => ?_
  refine (emits_perform fun s e he => ?_).bind fun _ => trivial
  obtain rfl := Except.ok.inj he
  rfl

/-- A payment of a sale writes its own tables only. -/
theorem takePayment_emits {session : Option Uuid} {order : Order}
    {x : PosService.SalePayment × Option PosService.ConfirmedUpi} :
    (PosService.takePayment tenantId userId orderId session order x).Emits fun e =>
      invoiceTables.touches e = false := by
  refine (ReadsOnly.require _ _).emits.bind fun _ => ?_
  refine (emits_perform fun s e he => ?_).bind fun _ => (emits_perform fun s e he => ?_).bind
    fun _ => ?_
  · obtain ⟨-, -, rfl⟩ := Statement.insertPayment_eq_ok he
    rfl
  · unfold Statement.insertPaymentTransaction at he
    split_ifs at he
    obtain rfl := Except.ok.inj he
    rfl
  · split
    · refine (ReadsOnly.orRaise _ _).emits.bind fun sessionId => emits_perform fun s e he => ?_
      unfold Statement.insertCashMovement at he
      split_ifs at he
      obtain rfl := Except.ok.inj he
      rfl
    · trivial

/-- Payment and hand-over of a counter sale keep the number of its order. -/
theorem triple_settleNumbered {year month : ℕ} {p : String} {session : Option Uuid}
    {payments : List (PosService.SalePayment × Option PosService.ConfirmedUpi)}
    (horder : order.invoice = (tenantId, formatInvoiceNumber p (financialYear year month) n)) :
    invoiceContract.Triple R
      (invoiceTables.After
        ((counted tenantId (financialYear year month) n).and (bearing orderId none))
        [.invoiceSequenceUpsert tenantId (financialYear year month) n,
          .orderInsert orderId order])
      (PosService.settle tenantId userId session payments orderId order)
      fun _ => NumberedOrder := by
  refine Triple.require_bind fun _ => ?_
  refine (Observation.triple_emits (.forM fun x _ => takePayment_emits)).bind fun _ => ?_
  refine (Observation.triple_perform
    (P := (· = .orderUpdate orderId { order with status := .delivered }))
    (A := fun _ => (counted tenantId (financialYear year month) n).and (bearing orderId none))
    fun held s v e _ hK hv he => ?_).bind fun _ => ?_
  · obtain ⟨row, hrow, rfl⟩ := Statement.updateOrderStatus_eq_ok.mp he
    -- the order was stored by this very transaction
    have horders : v.orders = s.orders.insert orderId order := (Prod.mk.inj hv).1
    rw [horders, AList.lookup_insert] at hrow
    obtain rfl := Option.some.inj hrow
    exact ⟨rfl, rfl, Knowledge.mono _ (List.subset_append_right _ _) hK⟩
  · refine Triple.of_exists fun e => Triple.of_and ?_
    rintro rfl
    refine invoiceTables_stockBlind.triple_note.post fun _ t s h => .placed h horder fun e he => ?_
    exact ⟨_, List.mem_singleton.mp he, rfl⟩

/-! ### Requests -/

/-- The requests that place orders, change them, or change the invoice prefix. The clock of a
placing request gives its year and month. A later attempt of a request that was rolled back
brings along what the first one had prepared, its prefix included. -/
inductive InvoiceRequest where
  | create (env : Environment) (year month : ℕ) (tenantId userId orderId : Uuid)
      (body : CreateBody)
  | retryCreate (env : Environment) (year month : ℕ) (tenantId userId orderId : Uuid)
      (d : OrderDraft)
  | sale (env : Environment) (year month : ℕ)
      (tenantId userId orderId walkIn defaultRegister : Uuid) (body : PosService.SaleBody)
  | retrySale (env : Environment) (year month : ℕ) (tenantId userId orderId : Uuid)
      (d : OrderDraft) (session : Option Uuid)
      (payments : List (PosService.SalePayment × Option PosService.ConfirmedUpi))
  | updateStatus (id tenantId userId : Uuid) (status : OrderStatus) (reason : Option String)
  | cancel (id tenantId userId : Uuid) (reason : Option String)
  | updateTaxProfile (tenantId : Uuid) (changes : WorkspaceService.TaxProfileChanges)

/-- The service call behind a request, without its result. -/
def InvoiceRequest.program : InvoiceRequest → Sql Unit
  | create env year month tenantId userId orderId body => do
    let _ ← OrderService.create { env with financialYear := financialYear year month } tenantId
      userId orderId body
  | retryCreate env year month tenantId userId orderId d => do
    let _ ← place { env with financialYear := financialYear year month } tenantId userId orderId d
      fun _ _ => return ()
  | sale env year month tenantId userId orderId walkIn defaultRegister body => do
    let _ ← PosService.sale { env with financialYear := financialYear year month } tenantId userId
      orderId walkIn defaultRegister body
  | retrySale env year month tenantId userId orderId d session payments => do
    let _ ← place { env with financialYear := financialYear year month } tenantId userId orderId d
      (PosService.settle tenantId userId session payments)
  | updateStatus id tenantId userId status reason => do
    let _ ← OrderService.updateStatus id tenantId userId status reason
  | cancel id tenantId userId reason => do
    let _ ← OrderService.cancel id tenantId userId reason
  | updateTaxProfile tenantId changes => do
    let _ ← WorkspaceService.updateTaxProfile tenantId changes

/-- The transaction of an order takes its number. What runs inside it must leave the number
alone. -/
theorem triple_placeNumbered {env : Environment} {year month : ℕ} {d : OrderDraft}
    {inTx : Uuid → Order → Sql Unit}
    (hinTx : ∀ n (order : Order) p,
      order.invoice = (tenantId, formatInvoiceNumber p (financialYear year month) n) →
      invoiceContract.Triple R
        (invoiceTables.After
          ((counted tenantId (financialYear year month) n).and (bearing orderId none))
          [.invoiceSequenceUpsert tenantId (financialYear year month) n,
            .orderInsert orderId order])
        (inTx orderId order) fun _ => NumberedOrder) :
    invoiceContract.Triple R (invoiceTables.After (L := invoiceContract) .none [])
      (place { env with financialYear := financialYear year month } tenantId userId orderId d inTx)
      fun _ => NumberedOrder :=
  invoiceTables_stockBlind.triple_place (triple_nextNumber tenantId (financialYear year month))
    (fun _ => triple_insertNumbered) (fun n => hinTx n _ d.invoicePrefix rfl)
    NumberedOrder.stable

theorem triple_createNumbered {env : Environment} {year month : ℕ} {d : OrderDraft} :
    invoiceContract.Triple R (invoiceTables.After (L := invoiceContract) .none [])
      (place { env with financialYear := financialYear year month } tenantId userId orderId d
        fun _ _ => return ()) fun _ => NumberedOrder := by
  refine triple_placeNumbered fun n order p horder => ?_
  exact (Observation.triple_readsOnly (.ret ())).post fun _ t s h =>
    .placed h horder fun e he => absurd he List.not_mem_nil

/-- Every request takes one number for one new order, or keeps the invoices as they are. -/
theorem InvoiceRequest.triple (r : InvoiceRequest) :
    invoiceContract.Triple R (invoiceTables.After (L := invoiceContract) .none []) r.program
      fun _ => NumberedOrder := by
  have hdiscard {α : Type} {p : Sql α}
      (hp : invoiceContract.Triple R (invoiceTables.After (L := invoiceContract) .none []) p
        fun _ => NumberedOrder) :
      invoiceContract.Triple R (invoiceTables.After (L := invoiceContract) .none [])
        (do let _ ← p) fun _ => NumberedOrder :=
    hp.bind fun _ => Triple.readsOnly (.ret ()) NumberedOrder.stable
  cases r with
  | create =>
    refine hdiscard ?_
    exact (Observation.triple_readsOnly (prepare_readsOnly _ _ _)).bind fun d =>
      triple_createNumbered
  | retryCreate => exact hdiscard triple_createNumbered
  | sale =>
    refine hdiscard (triple_saleOf fun session payments d _ _ _ => ?_)
    exact triple_placeNumbered fun n order p => triple_settleNumbered
  | retrySale =>
    exact hdiscard (triple_placeNumbered fun n order p => triple_settleNumbered)
  | updateStatus => exact hdiscard triple_updateNumbered
  | cancel => exact hdiscard triple_cancelNumbered
  | updateTaxProfile tenantId changes =>
    refine hdiscard ((Observation.triple_emits (updateTaxProfile_emits tenantId changes)).post ?_)
    exact fun _ _ _ => .kept

/-! ### Every run -/

variable {s₀ : Db} {requests : List InvoiceRequest} {c : Config sales Unit}

/-- Committed states number their orders without gaps and without repetitions. -/
theorem invoiced_of_reaches (hs₀ : Invoiced s₀)
    (h : Reaches (.free sales) (.start s₀ (requests.map InvoiceRequest.program)) c) :
    ∀ s ∈ c.history s₀, Invoiced s := by
  intro s hs
  refine (of_reaches (L := invoiceContract) (Q := fun _ _ _ => True) hs₀ (fun p hp => ?_) h s hs).1
  obtain ⟨r, -, rfl⟩ := List.mem_map.mp hp
  refine wp_mono (r.triple {} s₀ hs₀ (.start trivial)) fun _ t s ht hs _ => ?_
  exact ⟨ht.guarantee hs, trivial⟩

/-- Whatever attempts succeed, fail or are made again, and however the prefix changes: the
committed invoices of a workspace's year bear the numbers `1..k`, each once, every order is
one of them, and no two orders of a workspace have the same printed number. -/
theorem invoices_gapless (hs₀ : Invoiced s₀)
    (h : Reaches (.free sales) (.start s₀ (requests.map InvoiceRequest.program)) c) :
    ∀ s ∈ c.history s₀, ∀ tenantId,
      (∀ year month,
        (∃ k, ∀ n, (∃ id, s.Bears tenantId (financialYear year month) n id) ↔ 1 ≤ n ∧ n ≤ k) ∧
        ∀ n id id', s.Bears tenantId (financialYear year month) n id →
          s.Bears tenantId (financialYear year month) n id' → id = id') ∧
      (∀ id o, s.orders.lookup id = some o → o.tenantId = tenantId →
        ∃ year month n, s.Bears tenantId (financialYear year month) n id) ∧
      ∀ id id' o o', s.orders.lookup id = some o → s.orders.lookup id' = some o' →
        o.tenantId = tenantId → o'.tenantId = tenantId →
          o.invoiceNumber = o'.invoiceNumber → id = id' := by
  intro s hmem tenantId
  have hs := invoiced_of_reaches hs₀ h s hmem
  have hinvoice {id : Uuid} {o : Order} (ho : s.orders.lookup id = some o)
      (htenant : o.tenantId = tenantId) : s.invoiceOf id = some (tenantId, o.invoiceNumber) := by
    rw [Db.invoiceOf, ho, Option.map_some, Order.invoice, htenant]
  have hbears {id : Uuid} {o : Order} (ho : s.orders.lookup id = some o)
      (htenant : o.tenantId = tenantId) : ∃ p year month n,
        o.invoiceNumber = formatInvoiceNumber p (financialYear year month) n ∧
          s.Bears tenantId (financialYear year month) n id := by
    obtain ⟨p, year, month, n, hnumber, -, -⟩ := hs.every id tenantId _ (hinvoice ho htenant)
    exact ⟨p, year, month, n, hnumber, p, hnumber ▸ hinvoice ho htenant⟩
  refine ⟨fun year month => ⟨⟨s.lastNumber tenantId (financialYear year month), fun n => ?_⟩,
    fun n id id' => hs.unique tenantId year month n id id'⟩, ?_, ?_⟩
  · exact ⟨fun ⟨id, hid⟩ => hs.bounds hid,
      fun ⟨hpos, hle⟩ => hs.gapless tenantId year month n hpos hle⟩
  · intro id o ho htenant
    obtain ⟨-, year, month, n, -, hid⟩ := hbears ho htenant
    exact ⟨year, month, n, hid⟩
  · intro id id' o o' ho ho' htenant htenant' hsame
    obtain ⟨p, year, month, n, hnumber, hid⟩ := hbears ho htenant
    -- the other order prints the same number, so it bears it too
    refine hs.unique tenantId year month n id id' hid ⟨p, ?_⟩
    rw [hinvoice ho' htenant', ← hsame, hnumber]

namespace Sample

theorem shop_invoiced : Invoiced shop where
  every id tenantId number h := by cases h
  gapless tenantId year month n hpos hle := by
    have hzero : shop.lastNumber tenantId (financialYear year month) = 0 := rfl
    omega
  unique tenantId year month n id id' h := by
    obtain ⟨p, hid⟩ := h
    cases hid

/-- An order in May and one in the next year's March, a change of the prefix between them, and
an order for more than there is. -/
def invoiceRequests : List InvoiceRequest :=
  [.create {} 2026 5 "shop" "clerk" "first" (body [line "north" 2]),
    .updateTaxProfile "shop" { invoicePrefix := some (some "A-B") },
    .create {} 2026 5 "shop" "clerk" "failed" (body [line "north" 200]),
    .create {} 2027 3 "shop" "clerk" "second" (body [line "north" 1])]

end Sample

open Sample in
/-- Two orders of one year under two prefixes, with a failure between them. -/
theorem invoices_gapless_sample :
    ∃ c : Config sales Unit,
      Reaches (.free sales) (.start shop (invoiceRequests.map InvoiceRequest.program)) c ∧
        c.committed.invoiceOf "first" = some ("shop", "INV/2026-27/0001") ∧
        c.committed.invoiceOf "second" = some ("shop", "A-B/2026-27/0002") ∧
        ∃ k, ∀ n, (∃ id, c.committed.Bears "shop" "2026-27" n id) ↔ 1 ≤ n ∧ n ≤ k := by
  have hrun : ((Config.start shop (invoiceRequests.map InvoiceRequest.program)).run (.free sales)
      (List.replicate 20 (.advance 0) ++ List.replicate 3 (.advance 1) ++
        List.replicate 11 (.advance 2) ++ List.replicate 20 (.advance 3))).map
      (fun c => (c.committed.invoiceOf "first", c.committed.invoiceOf "second")) =
        some (some ("shop", "INV/2026-27/0001"), some ("shop", "A-B/2026-27/0002")) := by
    decide +kernel
  obtain ⟨c, hc, hnumbers⟩ := Option.map_eq_some_iff.mp hrun
  obtain ⟨hfirst, hsecond⟩ := Prod.mk.inj hnumbers
  have hreach := reaches_of_run .refl hc
  obtain ⟨older, holder⟩ := hreach.exists_history
  have hyear : financialYear 2026 5 = "2026-27" := by decide +kernel
  have hall := invoices_gapless shop_invoiced hreach c.committed (by simp [holder]) "shop"
  exact ⟨c, hreach, hfirst, hsecond, hyear ▸ (hall.1 2026 5).1⟩

end PulseOps
