import PulseOps.CashDrawer.Takings

/-!
# What a counter sale writes

A counter sale writes its order, its payments with a movement for each cash payment, and the
hand-over. On top of any state in which what it writes is new, these edits leave an order with
exactly those payments and movements, and leave the other orders as they were. What is new when
it is written stays new for everybody else: the statement takes the lock on it.

## Main definitions

* `completedFor`, `cashPaidFor`, `cashBookedFor` — the money that came in for an order.
* `SaleWritten` — the edits of a sale so far.
* `SaleStage` — what they make of a state.
* `Absent` — a row or an index entry is not there.

## Main results

* `SaleWritten.stage` — the edits of a sale do what they should.
* `SaleWritten.oneRowEach` — and keep the unique index on payments.
* `Absent.replay` — nothing appears without its lock.
-/

set_option autoImplicit false

open ReadCommitted

namespace PulseOps

open CashRegisterService

variable {s s' : Db} {es : List Edit} {id id' orderId tenantId : Uuid} {order : Order}
  {p p' : Payment} {m : CashMovement} {taken owed : Cents} {pid : String}

/-! ### Money that came in for an order -/

/-- The sum of the COMPLETED payments of an order. -/
def completedFor (orderId : Uuid) (s : Db) : Cents :=
  s.payments.total fun _ p => if p.orderId = orderId ∧ p.status = .completed then p.amount else 0

/-- The sum of its cash payments. -/
def cashPaidFor (orderId : Uuid) (s : Db) : Cents :=
  s.payments.total fun _ p => if p.orderId = orderId ∧ p.provider = "cash" then p.amount else 0

/-- The sum of its SALE movements. -/
def cashBookedFor (orderId : Uuid) (s : Db) : Cents :=
  sumOf .sale (s.cashMovements.filter fun m => m.orderId = some orderId)

theorem completedFor_insert (horder : p.orderId = orderId) (hstatus : p.status = .completed)
    (hnone : s.payments.lookup id = none) :
    completedFor orderId { s with payments := s.payments.insert id p } =
      completedFor orderId s + p.amount := by
  refine (AList.total_insert_new _ hnone).trans ?_
  rw [if_pos ⟨horder, hstatus⟩, add_comm]
  rfl

theorem cashPaidFor_insert (horder : p.orderId = orderId)
    (hnone : s.payments.lookup id = none) :
    cashPaidFor orderId { s with payments := s.payments.insert id p } =
      cashPaidFor orderId s + if p.provider = "cash" then p.amount else 0 := by
  refine (AList.total_insert_new _ hnone).trans ?_
  simp only [horder, true_and]
  rw [add_comm]
  rfl

/-- A payment of another order. -/
theorem paidFor_insert_of_ne (hne : p.orderId ≠ orderId) (hnone : s.payments.lookup id = none) :
    completedFor orderId { s with payments := s.payments.insert id p } = completedFor orderId s ∧
      cashPaidFor orderId { s with payments := s.payments.insert id p } =
        cashPaidFor orderId s := by
  constructor
  · refine (AList.total_insert_new _ hnone).trans ?_
    rw [if_neg fun h => hne h.1, zero_add]
    rfl
  · refine (AList.total_insert_new _ hnone).trans ?_
    rw [if_neg fun h => hne h.1, zero_add]
    rfl

theorem cashBookedFor_append (m : CashMovement) :
    cashBookedFor orderId { s with cashMovements := s.cashMovements ++ [m] } =
      cashBookedFor orderId s +
        if m.type = .sale ∧ m.orderId = some orderId then m.amount else 0 := by
  by_cases horder : m.orderId = some orderId <;> by_cases htype : m.type = .sale <;>
    simp [cashBookedFor, sumOf, horder, htype]

/-! ### The edits -/

/-- The edits of a sale so far, with the sum of the payments taken and the cash that is still to
be booked. Payments come with an id and a provider id of their own. -/
inductive SaleWritten (orderId : Uuid) : Order → Cents → Cents → List Edit → Prop
  | placed (order : Order) : SaleWritten orderId order 0 0 [.orderInsert orderId order]
  | paid {order : Order} {taken : Cents} {es : List Edit} {id : Uuid} {p : Payment}
      (h : SaleWritten orderId order taken 0 es)
      (hnew : ∀ id' p', .paymentInsert id' p' ∈ es → id' ≠ id ∧ ∀ pid,
        p.providerPaymentId = some pid → p'.tenantId = p.tenantId →
          p'.providerPaymentId ≠ some pid)
      (horder : p.orderId = orderId) (hstatus : p.status = .completed) :
      SaleWritten orderId order (taken + p.amount) (if p.provider = "cash" then p.amount else 0)
        (es ++ [.paymentInsert id p])
  | booked {order : Order} {taken owed : Cents} {es : List Edit} {m : CashMovement}
      (h : SaleWritten orderId order taken owed es) (htype : m.type = .sale)
      (horder : m.orderId = some orderId) (hamount : m.amount = owed) :
      SaleWritten orderId order taken 0 (es ++ [.cashMovementInsert m])
  | delivered {order : Order} {taken owed : Cents} {es : List Edit} (status : OrderStatus)
      (h : SaleWritten orderId order taken owed es) :
      SaleWritten orderId { order with status } taken owed
        (es ++ [.orderUpdate orderId { order with status }])

namespace SaleWritten

/-- Every payment is one of the order's. -/
theorem payment_orderId (h : SaleWritten orderId order taken owed es)
    (hmem : .paymentInsert id p ∈ es) : p.orderId = orderId := by
  induction h with
  | placed order => simp at hmem
  | paid _ _ horder _ ih =>
    rcases List.mem_append.mp hmem with hmem | hmem
    · exact ih hmem
    · cases List.mem_singleton.mp hmem
      exact horder
  | booked _ _ _ _ ih =>
    rcases List.mem_append.mp hmem with hmem | hmem
    · exact ih hmem
    · cases List.mem_singleton.mp hmem
  | delivered _ _ ih =>
    rcases List.mem_append.mp hmem with hmem | hmem
    · exact ih hmem
    · cases List.mem_singleton.mp hmem

/-- The payments it wrote are there, and no others but those that were there before. -/
theorem lookup_payments (h : SaleWritten orderId order taken owed es)
    (hs : ∀ id' p', .paymentInsert id' p' ∈ es → s.payments.lookup id' = none) :
    (sales.replay es s).payments.lookup id = some p ↔
      .paymentInsert id p ∈ es ∨ s.payments.lookup id = some p := by
  induction h generalizing p with
  | placed order => simp
  | @paid order taken es id₀ p₀ h hnew horder hstatus ih =>
    have hold := ih (p := p) fun id' p' hmem => hs id' p' (List.mem_append_left _ hmem)
    -- the payment is new: it was not there before, and was not written twice
    have hnone := hs id₀ p₀ (List.mem_append_right _ (List.mem_singleton_self _))
    have hlast : .paymentInsert id p ∈ es ++ [Edit.paymentInsert id₀ p₀] ↔
        .paymentInsert id p ∈ es ∨ (id = id₀ ∧ p = p₀) := by
      simp
    rw [Database.replay_append, Database.replay_cons, Database.replay_nil, hlast]
    change ((sales.replay es s).payments.insert id₀ p₀).lookup id = some p ↔ _
    by_cases hid : id = id₀
    · subst hid
      rw [AList.lookup_insert, hnone]
      constructor
      · intro heq
        exact .inl (.inr ⟨rfl, (Option.some.inj heq).symm⟩)
      · rintro ((hmem | ⟨-, rfl⟩) | heq)
        · exact absurd rfl (hnew id p hmem).1
        · rfl
        · cases heq
    · rw [AList.lookup_insert_ne hid, hold]
      simp [hid]
  | @booked order taken owed es m h htype horder hamount ih =>
    rw [Database.replay_append, Database.replay_cons, Database.replay_nil]
    simpa using ih fun id' p' hmem => hs id' p' (List.mem_append_left _ hmem)
  | @delivered order taken owed es status h ih =>
    rw [Database.replay_append, Database.replay_cons, Database.replay_nil]
    simpa using ih fun id' p' hmem => hs id' p' (List.mem_append_left _ hmem)

/-- Two payments of one sale do not share a provider id. -/
theorem payments_unique (h : SaleWritten orderId order taken owed es)
    (hmem : .paymentInsert id p ∈ es) (hmem' : .paymentInsert id' p' ∈ es)
    (htenant : p.tenantId = p'.tenantId) (hpid : p.providerPaymentId = some pid)
    (hpid' : p'.providerPaymentId = some pid) : id = id' := by
  induction h with
  | placed order => simp at hmem
  | paid _ hnew _ _ ih =>
    rcases List.mem_append.mp hmem with hold | hlast <;>
      rcases List.mem_append.mp hmem' with hold' | hlast'
    · exact ih hold hold'
    · cases List.mem_singleton.mp hlast'
      exact absurd hpid ((hnew id p hold).2 pid hpid' htenant)
    · cases List.mem_singleton.mp hlast
      exact absurd hpid' ((hnew id' p' hold').2 pid hpid htenant.symm)
    · cases List.mem_singleton.mp hlast
      cases List.mem_singleton.mp hlast'
      rfl
  | booked _ _ _ _ ih => exact ih (by simpa using hmem) (by simpa using hmem')
  | delivered _ _ ih => exact ih (by simpa using hmem) (by simpa using hmem')

end SaleWritten

/-! ### What they make of a state -/

/-- The books that a sale finds: a payment and a movement belong to an order that is there, and
no two payments of a business share a provider id. -/
structure CounterBooks (s : Db) : Prop where
  linked : ∀ id p, s.payments.lookup id = some p → (s.orders.lookup p.orderId).isSome
  moved : ∀ m ∈ s.cashMovements, ∀ id, m.orderId = some id → (s.orders.lookup id).isSome
  unique : ∀ id id' p p' pid, s.payments.lookup id = some p → s.payments.lookup id' = some p' →
    p.tenantId = p'.tenantId → p.providerPaymentId = some pid → p'.providerPaymentId = some pid →
      id = id'

/-- What the edits of a sale have made of the state `s`. -/
structure SaleStage (orderId : Uuid) (order : Order) (taken owed : Cents) (s s' : Db) : Prop where
  orders : s'.orders = s.orders.insert orderId order
  moved : ∀ m ∈ s'.cashMovements, m ∈ s.cashMovements ∨ m.orderId = some orderId
  paid : completedFor orderId s' = taken
  cash : cashPaidFor orderId s' = cashBookedFor orderId s' + owed
  others : ∀ id, id ≠ orderId → completedFor id s' = completedFor id s ∧
    cashPaidFor id s' = cashPaidFor id s ∧ cashBookedFor id s' = cashBookedFor id s

/-- Nothing has come in yet for an order that is not there. -/
theorem CounterBooks.nothing_for (hs : CounterBooks s) (hnone : s.orders.lookup orderId = none) :
    completedFor orderId s = 0 ∧ cashPaidFor orderId s = 0 ∧ cashBookedFor orderId s = 0 := by
  have hpayment (id : Uuid) (p : Payment) (hp : s.payments.lookup id = some p) :
      p.orderId ≠ orderId := by
    rintro rfl
    have hlinked := hs.linked id p hp
    rw [hnone] at hlinked
    cases hlinked
  refine ⟨AList.total_eq_zero fun id p hp => if_neg fun h => hpayment id p hp h.1,
    AList.total_eq_zero fun id p hp => if_neg fun h => hpayment id p hp h.1, ?_⟩
  have hmovements : (s.cashMovements.filter fun m => m.orderId = some orderId) = [] := by
    rw [List.filter_eq_nil_iff]
    intro m hm horder
    have hlinked := hs.moved m hm orderId (of_decide_eq_true horder)
    rw [hnone] at hlinked
    cases hlinked
  rw [cashBookedFor, hmovements]
  rfl

namespace SaleStage

/-- An order that was there is still there, and so is the new one. -/
theorem lookup_isSome (h : SaleStage orderId order taken owed s s')
    (hid : id = orderId ∨ (s.orders.lookup id).isSome) : (s'.orders.lookup id).isSome := by
  rw [h.orders]
  by_cases hne : id = orderId
  · rw [hne, AList.lookup_insert]
    rfl
  · rw [AList.lookup_insert_ne hne]
    exact hid.resolve_left hne

theorem placed (hs : CounterBooks s) (hnone : s.orders.lookup orderId = none) (order : Order) :
    SaleStage orderId order 0 0 s { s with orders := s.orders.insert orderId order } := by
  obtain ⟨hpaid, hcash, hbooked⟩ := hs.nothing_for hnone
  refine ⟨rfl, fun m hm => .inl hm, hpaid, ?_, fun id _ => ⟨rfl, rfl, rfl⟩⟩
  rw [add_zero]
  exact hcash.trans hbooked.symm

theorem pay (h : SaleStage orderId order taken 0 s s') (hnone : s'.payments.lookup id = none)
    (horder : p.orderId = orderId) (hstatus : p.status = .completed) :
    SaleStage orderId order (taken + p.amount) (if p.provider = "cash" then p.amount else 0) s
      { s' with payments := s'.payments.insert id p } where
  orders := h.orders
  moved := h.moved
  paid := (completedFor_insert horder hstatus hnone).trans (congrArg (· + p.amount) h.paid)
  cash := by
    rw [cashPaidFor_insert horder hnone, h.cash, add_zero]
    rfl
  others id' hne := by
    have hne' : p.orderId ≠ id' := fun heq => hne (heq.symm.trans horder)
    obtain ⟨hcompleted, hcash⟩ := paidFor_insert_of_ne hne' hnone
    obtain ⟨hpaid', hcash', hbooked'⟩ := h.others id' hne
    exact ⟨hcompleted.trans hpaid', hcash.trans hcash', hbooked'⟩

theorem book (h : SaleStage orderId order taken owed s s') (htype : m.type = .sale)
    (horder : m.orderId = some orderId) (hamount : m.amount = owed) :
    SaleStage orderId order taken 0 s { s' with cashMovements := s'.cashMovements ++ [m] } where
  orders := h.orders
  moved m' hm' := by
    rcases List.mem_append.mp hm' with hm' | hm'
    · exact h.moved m' hm'
    · exact .inr (List.mem_singleton.mp hm' ▸ horder)
  paid := h.paid
  cash := by
    rw [cashBookedFor_append, if_pos ⟨htype, horder⟩, hamount, add_zero]
    exact h.cash
  others id' hne := by
    obtain ⟨hpaid, hcash, hbooked⟩ := h.others id' hne
    refine ⟨hpaid, hcash, ?_⟩
    rw [cashBookedFor_append, if_neg, add_zero]
    · exact hbooked
    · rintro ⟨-, heq⟩
      exact hne (Option.some.inj (heq.symm.trans horder))

theorem deliver (h : SaleStage orderId order taken owed s s') (order' : Order) :
    SaleStage orderId order' taken owed s
      { s' with orders := s'.orders.insert orderId order' } where
  orders := (congrArg (AList.insert orderId order') h.orders).trans (AList.insert_insert _)
  moved := h.moved
  paid := h.paid
  cash := h.cash
  others := h.others

end SaleStage

/-- A row or an index entry of orders and payments is not there. -/
def Absent (s : Db) : Key → Prop
  | .order id => s.orders.lookup id = none
  | .payment id => s.payments.lookup id = none
  | .providerPaymentId tenantId pid => ∀ id p, s.payments.lookup id = some p →
      p.tenantId = tenantId → p.providerPaymentId ≠ some pid
  | _ => True

/-- A payment that is written takes the lock on its provider id. -/
theorem absent_insertPayment
    (h : Absent s (.providerPaymentId tenantId pid))
    (hkey : .providerPaymentId tenantId pid ∉
      p.providerPaymentId.toList.map (Key.providerPaymentId p.tenantId)) :
    Absent { s with payments := s.payments.insert id p } (.providerPaymentId tenantId pid) := by
  intro id' p' hp' htenant hpid
  by_cases hid : id' = id
  · rw [hid, AList.lookup_insert] at hp'
    cases hp'
    exact hkey (List.mem_map.mpr ⟨pid, Option.mem_toList.mpr hpid, by rw [htenant]⟩)
  · rw [AList.lookup_insert_ne hid] at hp'
    exact h id' p' hp' htenant hpid

/-- Nothing appears without its lock. -/
theorem Absent.apply {k : Key} {e : Edit} (h : Absent s k) (hk : k ∉ e.footprint) :
    Absent (s.apply e) k := by
  cases k with
  | order id =>
    have hlookup : (sales.replay [e] s).orders.lookup id = s.orders.lookup id :=
      lookup_orders_frame (by simpa using hk) s
    exact hlookup.trans h
  | payment id =>
    have hlookup : (sales.replay [e] s).payments.lookup id = s.payments.lookup id :=
      lookup_payments_frame (by simpa using hk) s
    exact hlookup.trans h
  | providerPaymentId tenantId pid =>
    cases e with
    | paymentInsert id p =>
      exact absent_insertPayment h fun hmem => hk (List.mem_cons_of_mem _ hmem)
    | paymentUpdate id p =>
      exact absent_insertPayment h fun hmem => hk (List.mem_cons_of_mem _ hmem)
    | _ => exact h
  | _ => trivial

theorem Absent.replay {k : Key} (h : Absent s k) (hk : ∀ e ∈ es, k ∉ e.footprint) :
    Absent (sales.replay es s) k := by
  induction es generalizing s with
  | nil => exact h
  | cons e es ih =>
    rw [Database.replay_cons]
    exact ih (h.apply (hk e List.mem_cons_self)) fun e' he' => hk e' (List.mem_cons_of_mem _ he')

/-- What the edits write is new. -/
def Vacant (es : List Edit) (s : Db) : Prop := ∀ e ∈ es, ∀ k ∈ e.footprint, Absent s k

theorem Vacant.payment (h : Vacant es s) (id : Uuid) (p : Payment)
    (hmem : .paymentInsert id p ∈ es) : s.payments.lookup id = none :=
  h _ hmem (.payment id) List.mem_cons_self

theorem Vacant.providerPaymentId (h : Vacant es s) (hmem : .paymentInsert id p ∈ es)
    (hpid : p.providerPaymentId = some pid) : Absent s (.providerPaymentId p.tenantId pid) := by
  refine h _ hmem _ (List.mem_cons_of_mem _ ?_)
  exact List.mem_map_of_mem (Option.mem_toList.mpr hpid)

theorem Vacant.of_subset {es' : List Edit} (h : Vacant es' s) (hsub : es ⊆ es') : Vacant es s :=
  fun e he => h e (hsub he)

namespace SaleWritten

theorem lookup_order (h : SaleWritten orderId order taken owed es) (hvacant : Vacant es s) :
    s.orders.lookup orderId = none := by
  induction h with
  | placed order => exact hvacant _ (List.mem_singleton_self _) (.order orderId) List.mem_cons_self
  | paid _ _ _ _ ih => exact ih (hvacant.of_subset (List.subset_append_left _ _))
  | booked _ _ _ _ ih => exact ih (hvacant.of_subset (List.subset_append_left _ _))
  | delivered _ _ ih => exact ih (hvacant.of_subset (List.subset_append_left _ _))

/-- The edits of a sale, on top of any state in which what they write is new. -/
theorem stage (h : SaleWritten orderId order taken owed es) (hs : CounterBooks s)
    (hvacant : Vacant es s) : SaleStage orderId order taken owed s (sales.replay es s) := by
  induction h with
  | placed order =>
    exact .placed hs ((SaleWritten.placed order).lookup_order hvacant) order
  | @paid order taken es id p h hnew horder hstatus ih =>
    have hbefore := hvacant.of_subset (List.subset_append_left _ _)
    have hnone : (sales.replay es s).payments.lookup id = none := by
      rw [Option.eq_none_iff_forall_ne_some]
      intro p' hp'
      rcases (h.lookup_payments hbefore.payment).mp hp' with hmem | hold
      · exact (hnew id p' hmem).1 rfl
      · rw [hvacant.payment id p (by simp)] at hold
        cases hold
    rw [Database.replay_append, Database.replay_cons, Database.replay_nil]
    exact (ih hbefore).pay hnone horder hstatus
  | booked _ htype horder hamount ih =>
    rw [Database.replay_append, Database.replay_cons, Database.replay_nil]
    exact (ih (hvacant.of_subset (List.subset_append_left _ _))).book htype horder hamount
  | delivered status _ ih =>
    rw [Database.replay_append, Database.replay_cons, Database.replay_nil]
    exact (ih (hvacant.of_subset (List.subset_append_left _ _))).deliver _

/-- The edits of a sale keep the books. -/
theorem books (h : SaleWritten orderId order taken owed es) (hs : CounterBooks s)
    (hvacant : Vacant es s) : CounterBooks (sales.replay es s) := by
  have hstage := h.stage hs hvacant
  have hpayments {id : Uuid} {p : Payment} :
      (sales.replay es s).payments.lookup id = some p ↔
        .paymentInsert id p ∈ es ∨ s.payments.lookup id = some p :=
    h.lookup_payments hvacant.payment
  constructor
  · intro id p hp
    rcases hpayments.mp hp with hmem | hold
    · exact hstage.lookup_isSome (.inl (h.payment_orderId hmem))
    · exact hstage.lookup_isSome (.inr (hs.linked id p hold))
  · intro m hm id hid
    rcases hstage.moved m hm with hold | hnew
    · exact hstage.lookup_isSome (.inr (hs.moved m hold id hid))
    · exact hstage.lookup_isSome (.inl (Option.some.inj (hid.symm.trans hnew)))
  · intro id id' p p' pid hp hp' htenant hpid hpid'
    -- an entry that the sale adds is in no row that was there before
    rcases hpayments.mp hp with hmem | hold <;> rcases hpayments.mp hp' with hmem' | hold'
    · exact h.payments_unique hmem hmem' htenant hpid hpid'
    · exact absurd hpid' (hvacant.providerPaymentId hmem hpid id' p' hold' htenant.symm)
    · exact absurd hpid (hvacant.providerPaymentId hmem' hpid' id p hold htenant)
    · exact hs.unique id id' p p' pid hold hold' htenant hpid hpid'

end SaleWritten

end PulseOps
