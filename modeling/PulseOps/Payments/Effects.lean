import PulseOps.Model.PointOfSale
import PulseOps.ReadCommitted.Serial

/-!
# What payment requests do to the books

The requests that open, complete or refund payments, and the effects a committed request
can have on the four tables that matter here: payments, their transactions, refunds and
orders. Proofs about runs split on `PaymentEffect`, never on the services.

## Main definitions

* `PaymentRequest` — a request with its arguments, and the program that serves it.
* `coreEdits` — the edits of the four tables among all edits of a transaction.
* `PaymentEffect` — everything a committed request can have done.
* `Evolves` — payments keep their order, amount, currency and provider; orders and
  transactions stay.

## Main results

* `books_replay` — the other edits do not touch the four tables.
* `PaymentEffect.evolves` — no effect undoes what the others rely on.
-/

set_option autoImplicit false

open ReadCommitted Program

namespace PulseOps

open PaymentService

/-! ### Requests -/

inductive PaymentRequest where
  | create (env : Environment) (tenantId userId : Uuid) (ids : DrawnIds)
      (body : CreatePaymentBody)
  | confirm (env : Environment) (tenantId userId : Uuid) (transaction : String)
      (body : ConfirmPaymentBody)
  | refund (tenantId userId paymentId refundId : Uuid) (randomRef : String) (body : RefundBody)
  | webhook (env : Environment) (rawBody : String) (payload : WebhookPayload)
      (signature : Option String)
  | start (tenantId orderId paymentId : Uuid) (userId : Option Uuid)
  | verify (env : Environment) (tenantId paymentId : Uuid)
      (result : RazorpayPaymentsService.CheckoutResult) (customerId userId : Option Uuid)
  | razorpayWebhook (env : Environment) (tenantId : Uuid) (rawBody : String)
      (parsed : Option RazorpayPaymentsService.RazorpayEvent)
      (signature eventIdHeader : Option String)
  | walkInCustomer (tenantId customerId : Uuid)
  | ensureDefault (tenantId registerId : Uuid)
  | sale (env : Environment) (tenantId userId orderId walkIn defaultRegister : Uuid)
      (body : PosService.SaleBody)

/-- The service call behind a request, without its result. -/
def PaymentRequest.program : PaymentRequest → Sql Unit
  | create env tenantId userId ids body => do
    let _ ← PaymentService.create env tenantId userId ids body
  | confirm env tenantId userId transaction body => do
    let _ ← PaymentService.confirm env tenantId userId transaction body
  | refund tenantId userId paymentId refundId randomRef body => do
    let _ ← PaymentService.refund tenantId userId paymentId refundId randomRef body
  | webhook env rawBody payload signature => do
    let _ ← PaymentService.handleWebhook env rawBody payload signature
  | start tenantId orderId paymentId userId => do
    let _ ← RazorpayPaymentsService.start tenantId orderId paymentId userId
  | verify env tenantId paymentId result customerId userId => do
    let _ ← RazorpayPaymentsService.verify env tenantId paymentId result customerId userId
  | razorpayWebhook env tenantId rawBody parsed signature eventIdHeader => do
    let _ ← RazorpayPaymentsService.handleWebhook env tenantId rawBody parsed signature
      eventIdHeader
  | walkInCustomer tenantId customerId => do
    let _ ← PosService.walkInCustomer tenantId customerId
  | ensureDefault tenantId registerId => do
    let _ ← CashRegisterService.ensureDefault tenantId registerId
  | sale env tenantId userId orderId walkIn defaultRegister body => do
    let _ ← PosService.sale env tenantId userId orderId walkIn defaultRegister body

/-- The ways a request can end. -/
inductive EffectKind where
  /-- the payments stay as they are -/
  | note
  /-- an open payment is completed or fails, by confirmation -/
  | confirm
  /-- by a provider event -/
  | event
  /-- by money that Razorpay has captured -/
  | capture
  /-- a provider event sets a payment REFUNDED -/
  | refundEvent
  | refund
  /-- a payment is opened, and maybe a stale one cancelled -/
  | opened (retires : Bool)
  | sale
  deriving DecidableEq

/-- What a request can come to. -/
def PaymentRequest.kinds : PaymentRequest → List EffectKind
  | create .. => [.opened false]
  | confirm .. => [.confirm]
  | refund .. => [.refund]
  | webhook .. => [.note, .event, .refundEvent]
  | start .. => [.note, .opened false, .opened true]
  | verify .. => [.note, .capture]
  | razorpayWebhook .. => [.note, .capture]
  | walkInCustomer .. => [.note]
  | ensureDefault .. => [.note]
  | sale .. => [.sale]

/-! ### The books -/

variable {s s' : Db} {e : Edit} {es es' : List Edit} {id : Uuid}

/-- The four tables. -/
def Db.books (s : Db) :
    Table Uuid Payment × List Refund × Table Uuid Order × List PaymentTransaction :=
  (s.payments, s.refunds, s.orders, s.paymentTransactions)

theorem payments_of_books (h : s.books = s'.books) : s.payments = s'.payments :=
  congrArg Prod.fst h

theorem refunds_of_books (h : s.books = s'.books) : s.refunds = s'.refunds :=
  congrArg (fun b => b.2.1) h

theorem orders_of_books (h : s.books = s'.books) : s.orders = s'.orders :=
  congrArg (fun b => b.2.2.1) h

theorem transactions_of_books (h : s.books = s'.books) :
    s.paymentTransactions = s'.paymentTransactions :=
  congrArg (fun b => b.2.2.2) h

/-- An edit of one of the four tables. -/
def Edit.isCore : Edit → Bool
  | .paymentInsert _ _ => true
  | .paymentUpdate _ _ => true
  | .paymentTransactionInsert _ => true
  | .refundInsert _ => true
  | .orderInsert _ _ => true
  | .orderUpdate _ _ => true
  | _ => false

def coreEdits (es : List Edit) : List Edit := es.filter Edit.isCore

@[simp] theorem coreEdits_nil : coreEdits [] = [] := rfl

theorem coreEdits_append : coreEdits (es ++ es') = coreEdits es ++ coreEdits es' :=
  List.filter_append ..

theorem mem_of_mem_coreEdits (h : e ∈ coreEdits es) : e ∈ es := (List.mem_filter.mp h).1

theorem books_apply (he : e.isCore = false) : (s.apply e).books = s.books := by
  cases e <;> simp_all [Edit.isCore, Db.books, Db.deleteWarehouse]

theorem books_apply_congr (h : s.books = s'.books) : (s.apply e).books = (s'.apply e).books := by
  simp only [Db.books, Prod.mk.injEq] at h
  obtain ⟨hpayments, hrefunds, horders, htransactions⟩ := h
  cases e <;> simp [Db.books, Db.deleteWarehouse, hpayments, hrefunds, horders, htransactions]

/-- Only the core edits matter for the books. -/
theorem books_replay (h : s.books = s'.books) :
    (sales.replay es s).books = (sales.replay (coreEdits es) s').books := by
  induction es generalizing s s' with
  | nil => exact h
  | cons e es ih =>
    by_cases he : e.isCore
    · have hcore : coreEdits (e :: es) = e :: coreEdits es := by simp [coreEdits, he]
      rw [hcore, Database.replay_cons, Database.replay_cons]
      exact ih (books_apply_congr h)
    · have hcore : coreEdits (e :: es) = coreEdits es := by simp [coreEdits, he]
      rw [hcore, Database.replay_cons]
      exact ih ((books_apply (by simpa using he)).trans h)

theorem payments_replay (hcore : coreEdits es = es') :
    (sales.replay es s).payments = (sales.replay es' s).payments :=
  hcore ▸ payments_of_books (books_replay rfl)

theorem refunds_replay (hcore : coreEdits es = es') :
    (sales.replay es s).refunds = (sales.replay es' s).refunds :=
  hcore ▸ refunds_of_books (books_replay rfl)

theorem orders_replay (hcore : coreEdits es = es') :
    (sales.replay es s).orders = (sales.replay es' s).orders :=
  hcore ▸ orders_of_books (books_replay rfl)

theorem transactions_replay (hcore : coreEdits es = es') :
    (sales.replay es s).paymentTransactions = (sales.replay es' s).paymentTransactions :=
  hcore ▸ transactions_of_books (books_replay rfl)

/-- The events on record after a list of edits. -/
theorem mem_events_replay {event : PaymentWebhookEvent}
    (h : event ∈ (sales.replay es s).paymentWebhookEvents) :
    event ∈ s.paymentWebhookEvents ∨ .paymentWebhookEventInsert event ∈ es := by
  induction es generalizing s with
  | nil => exact .inl h
  | cons e es ih =>
    rcases ih h with hmem | hmem
    · cases e with
      | paymentWebhookEventInsert row =>
        rcases List.mem_append.mp hmem with hmem | hmem
        · exact .inl hmem
        · obtain rfl := List.mem_singleton.mp hmem
          exact .inr List.mem_cons_self
      | _ => exact .inl hmem
    · exact .inr (List.mem_cons_of_mem _ hmem)

/-- The refunds of a payment, in any status. -/
def refundsOf (id : Uuid) (s : Db) : List Refund := s.refunds.filter (·.paymentId = id)

theorem completedRefunds_eq (id tenantId : Uuid) (s : Db) :
    completedRefunds id tenantId s = (refundsOf id s).filter fun r =>
      r.tenantId = tenantId ∧ r.status = .completed := by
  simp only [completedRefunds, refundsOf, List.filter_filter]
  refine List.filter_congr fun r _ => ?_
  by_cases hid : r.paymentId = id <;> simp [hid]

theorem refundedCents_congr (tenantId : Uuid) (h : refundsOf id s = refundsOf id s') :
    refundedCents id tenantId s = refundedCents id tenantId s' := by
  rw [refundedCents, completedRefunds_eq, h, ← completedRefunds_eq, refundedCents]

/-! ### What stays -/

/-- Two versions of one payment. -/
structure Payment.Same (row row' : Payment) : Prop where
  tenantId : row.tenantId = row'.tenantId
  orderId : row.orderId = row'.orderId
  amount : row.amount = row'.amount
  currency : row.currency = row'.currency
  provider : row.provider = row'.provider

theorem Payment.Same.refl (row : Payment) : row.Same row := ⟨rfl, rfl, rfl, rfl, rfl⟩

theorem Payment.Same.trans {row row' row'' : Payment} (h : row.Same row')
    (h' : row'.Same row'') : row.Same row'' :=
  ⟨h.tenantId.trans h'.tenantId, h.orderId.trans h'.orderId, h.amount.trans h'.amount,
    h.currency.trans h'.currency, h.provider.trans h'.provider⟩

theorem Payment.Same.symm {row row' : Payment} (h : row.Same row') : row'.Same row :=
  ⟨h.tenantId.symm, h.orderId.symm, h.amount.symm, h.currency.symm, h.provider.symm⟩

theorem Payment.Same.withStatus (row : Payment) (status : PaymentStatus) :
    row.Same { row with status } := ⟨rfl, rfl, rfl, rfl, rfl⟩

theorem Payment.Same.confirm (row : Payment) (status : PaymentStatus)
    (providerPaymentId : Option String) : row.Same { row with status, providerPaymentId } :=
  ⟨rfl, rfl, rfl, rfl, rfl⟩

/-- Payments stay the same payments, orders stay as they are, and no transaction goes. -/
structure Evolves (s s' : Db) : Prop where
  payment : ∀ id row, s.payments.lookup id = some row →
    ∃ row', s'.payments.lookup id = some row' ∧ row.Same row'
  order : ∀ id row, s.orders.lookup id = some row → s'.orders.lookup id = some row
  transaction : ∀ x ∈ s.paymentTransactions, x ∈ s'.paymentTransactions

theorem Evolves.refl (s : Db) : Evolves s s :=
  ⟨fun _ row h => ⟨row, h, .refl row⟩, fun _ _ h => h, fun _ h => h⟩

theorem Evolves.trans {s s' s'' : Db} (h : Evolves s s') (h' : Evolves s' s'') :
    Evolves s s'' where
  payment id row hrow := by
    obtain ⟨row', hrow', hsame⟩ := h.payment id row hrow
    obtain ⟨row'', hrow'', hsame'⟩ := h'.payment id row' hrow'
    exact ⟨row'', hrow'', hsame.trans hsame'⟩
  order id row hrow := h'.order id row (h.order id row hrow)
  transaction x hx := h'.transaction x (h.transaction x hx)

/-! ### Effects -/

/-- Cancelling the payment `p`. -/
def cancelEdit (p : Uuid × Payment) : Edit :=
  .paymentUpdate p.1 { p.2 with status := .cancelled }

/-- Writing a transaction row. -/
def chargeEdit (x : PaymentTransaction) : Edit := .paymentTransactionInsert x

/-- Whether a charge only notes money that came after the payment was closed. -/
def PaymentTransaction.noted (x : PaymentTransaction) : Bool :=
  x.metadata.lookup "note" = some (.str "Captured after the payment was closed; refund needed")

/-- Whether a charge was written when Razorpay had captured the money. -/
def PaymentTransaction.byCapture (x : PaymentTransaction) : Bool :=
  (x.metadata.lookup "via").isSome

/-- The charge that goes with the row of a payment. -/
structure PaymentTransaction.IsChargeOf (x : PaymentTransaction) (id : Uuid) (row : Payment) :
    Prop where
  tenantId : x.tenantId = row.tenantId
  paymentId : x.paymentId = id
  type : x.type = .charge
  amount : x.amount = row.amount
  status : x.status = row.status
  unnoted : x.noted = false

/-- The charge a generic event writes for a payment, if it writes one. -/
structure PaymentTransaction.IsEventCharge (x : PaymentTransaction) (id : Uuid)
    (status : PaymentStatus) (amount : Cents) : Prop where
  paymentId : x.paymentId = id
  type : x.type = .charge
  amount : x.amount = amount
  status : x.status = status
  unnoted : x.noted = false
  uncaptured : x.byCapture = false

/-- A new payment and the charge that is written with it. -/
structure NewPayment where
  id : Uuid
  row : Payment
  charge : PaymentTransaction
  charged : charge.IsChargeOf id row

def NewPayment.edits (p : NewPayment) : List Edit :=
  [.paymentInsert p.id p.row, chargeEdit p.charge]

/-- The row of a payment whose money Razorpay has captured. -/
def Payment.capture (row : Payment) (razorpayPaymentId : Option String) (via : String) :
    Payment :=
  { row with
    status := .completed
    metadata := (row.metadata.set "razorpayPaymentId" razorpayPaymentId).insert "paidVia"
      (.str via) }

theorem Payment.Same.capture (row : Payment) (razorpayPaymentId : Option String) (via : String) :
    row.Same (row.capture razorpayPaymentId via) := ⟨rfl, rfl, rfl, rfl, rfl⟩

/-- Everything a request can have done by the time it commits. -/
inductive PaymentEffect (s : Db) (es : List Edit) : EffectKind → Prop
  | note (hcore : coreEdits es = []) : PaymentEffect s es .note
  | late {x : PaymentTransaction} (hcore : coreEdits es = [chargeEdit x])
      (htype : x.type = .charge) (hnoted : x.noted = true) : PaymentEffect s es .note
  | confirm {id : Uuid} {row : Payment} {status : PaymentStatus}
      {providerPaymentId : Option String} {x : PaymentTransaction}
      (hcore : coreEdits es =
        [.paymentUpdate id { row with status, providerPaymentId }, chargeEdit x])
      (hrow : s.payments.lookup id = some row) (hopen : row.status.isOpen = true)
      (hstatus : status = .completed ∨ status = .failed)
      (hcharge : x.IsChargeOf id { row with status, providerPaymentId })
      (hvia : x.byCapture = false) : PaymentEffect s es .confirm
  | event {id : Uuid} {row : Payment} {status : PaymentStatus} {xs : List PaymentTransaction}
      {event : PaymentWebhookEvent} {details : WebhookDetails}
      (hcore : coreEdits es = .paymentUpdate id { row with status } :: xs.map chargeEdit)
      (hrow : s.payments.lookup id = some row) (hopen : row.status.isOpen = true)
      (hstatus : status = .completed ∨ status = .failed) (hlength : xs.length ≤ 1)
      (hcharge : ∀ x ∈ xs, x.IsEventCharge id status (details.amount.getD row.amount))
      (hevent : .paymentWebhookEventInsert event ∈ es) (hpayload : event.payload = some details)
      (hskip : xs = [] → ∃ x ∈ s.paymentTransactions, x.tenantId = event.tenantId ∧
        x.providerTransactionId = details.providerTransactionId) : PaymentEffect s es .event
  | capture {id : Uuid} {row : Payment} {razorpayPaymentId : Option String} {via : String}
      {x : PaymentTransaction}
      (hcore : coreEdits es =
        [.paymentUpdate id (row.capture razorpayPaymentId via), chargeEdit x])
      (hrow : s.payments.lookup id = some row) (hopen : row.status.isOpen = true)
      (hcharge : x.IsChargeOf id (row.capture razorpayPaymentId via))
      (hid : x.providerTransactionId = razorpayPaymentId) : PaymentEffect s es .capture
  | refundEvent {id : Uuid} {row : Payment} {xs : List PaymentTransaction}
      {event : PaymentWebhookEvent}
      (hcore : coreEdits es =
        .paymentUpdate id { row with status := .refunded } :: xs.map chargeEdit)
      (hrow : s.payments.lookup id = some row)
      (hstatus : row.status = .completed ∨ row.status = .partiallyRefunded)
      (htype : ∀ x ∈ xs, x.type = .refund)
      (hevent : .paymentWebhookEventInsert event ∈ es)
      (heventType : event.type = WebhookType.paymentRefunded.text) :
      PaymentEffect s es .refundEvent
  | refund {id : Uuid} {row : Payment} {refund : Refund} {x : PaymentTransaction}
      (hcore : coreEdits es = [.refundInsert refund, chargeEdit x, .paymentUpdate id { row with
        status := refundStatus row.amount (refundedCents id row.tenantId s + refund.amount) }])
      (hrow : s.payments.lookup id = some row)
      (hstatus : row.status = .completed ∨ row.status = .partiallyRefunded)
      (hpos : 0 < refund.amount)
      (hle : refund.amount ≤ row.amount - refundedCents id row.tenantId s)
      (hid : refund.paymentId = id) (htenant : refund.tenantId = row.tenantId)
      (hcompleted : refund.status = .completed) (htype : x.type = .refund) :
      PaymentEffect s es .refund
  | opened {stale : Option (Uuid × Payment)} {p : NewPayment} {order : Order}
      (hcore : coreEdits es = stale.toList.map cancelEdit ++ p.edits)
      (hstale : ∀ q ∈ stale, s.payments.lookup q.1 = some q.2 ∧ q.2.orderId = p.row.orderId)
      (hfresh : s.payments.lookup p.id = none)
      (horder : s.orders.lookup p.row.orderId = some order)
      (hamount : p.row.amount = order.total) (hpos : 0 < order.total)
      (hstatus : p.row.status = .pending) : PaymentEffect s es (.opened stale.isSome)
  | sale {orderId : Uuid} {order : Order} {paid : List NewPayment}
      (hcore : coreEdits es = .orderInsert orderId order ::
        (paid.flatMap NewPayment.edits ++
          [.orderUpdate orderId { order with status := .delivered }]))
      (hfresh : s.orders.lookup orderId = none)
      (hnew : ∀ p ∈ paid, s.payments.lookup p.id = none) (hids : (paid.map (·.id)).Nodup)
      (hpaid : ∀ p ∈ paid, p.row.orderId = orderId ∧ p.row.status = .completed ∧
        0 ≤ p.row.amount)
      (htotal : (paid.map (·.row.amount)).sum = order.total) : PaymentEffect s es .sale

/-! ### What an effect leaves alone -/

theorem lookup_payments_frame (h : ∀ e ∈ es, Key.payment id ∉ e.footprint) (s : Db) :
    (sales.replay es s).payments.lookup id = s.payments.lookup id := by
  refine Database.replay_frame (D := sales) (fun s : Db => s.payments.lookup id)
    (fun e he s => ?_) s
  have hfoot := h e he
  cases e with
  | paymentInsert id' row =>
    have hne : id ≠ id' := by simpa [Edit.footprint] using hfoot
    exact AList.lookup_insert_ne hne
  | paymentUpdate id' row =>
    have hne : id ≠ id' := by simpa [Edit.footprint] using hfoot
    exact AList.lookup_insert_ne hne
  | _ => rfl

theorem lookup_orders_frame (h : ∀ e ∈ es, Key.order id ∉ e.footprint) (s : Db) :
    (sales.replay es s).orders.lookup id = s.orders.lookup id := by
  refine Database.replay_frame (D := sales) (fun s : Db => s.orders.lookup id)
    (fun e he s => ?_) s
  have hfoot := h e he
  cases e with
  | orderInsert id' row =>
    have hne : id ≠ id' := by
      intro heq
      simp [Edit.footprint, heq] at hfoot
    exact AList.lookup_insert_ne hne
  | orderUpdate id' row =>
    have hne : id ≠ id' := by simpa [Edit.footprint] using hfoot
    exact AList.lookup_insert_ne hne
  | _ => rfl

/-- No edit deletes a payment. -/
theorem lookup_payments_eq_none (h : (sales.replay es s).payments.lookup id = none) :
    s.payments.lookup id = none ∧ ∀ row, .paymentInsert id row ∉ es := by
  induction es generalizing s with
  | nil => exact ⟨h, by simp⟩
  | cons e es ih =>
    obtain ⟨hnone, hnew⟩ := ih h
    have hinsert {t : Table Uuid Payment} {id' : Uuid} {row : Payment}
        (h : (t.insert id' row).lookup id = none) : t.lookup id = none ∧ id' ≠ id := by
      by_cases hid : id' = id
      · subst hid
        rw [AList.lookup_insert] at h
        cases h
      · rw [AList.lookup_insert_ne (Ne.symm hid)] at h
        exact ⟨h, hid⟩
    have hhead : s.payments.lookup id = none ∧ ∀ row, .paymentInsert id row ≠ e := by
      cases e with
      | paymentInsert id' row =>
        obtain ⟨h, hne⟩ := hinsert hnone
        exact ⟨h, fun row' heq => hne (Edit.paymentInsert.inj heq).1.symm⟩
      | paymentUpdate id' row => exact ⟨(hinsert hnone).1, fun row' heq => nomatch heq⟩
      | _ => exact ⟨hnone, fun row' heq => nomatch heq⟩
    exact ⟨hhead.1, fun row hmem => (List.mem_cons.mp hmem).elim (hhead.2 row) (hnew row)⟩

/-- Writing a new version of a payment. -/
theorem exists_same_insert {t : Table Uuid Payment} {row row' : Payment}
    (hrow : t.lookup id = some row) (hsame : row.Same row') (id₀ : Uuid) (row₀ : Payment)
    (h₀ : t.lookup id₀ = some row₀) :
    ∃ row₁, (t.insert id row').lookup id₀ = some row₁ ∧ row₀.Same row₁ := by
  by_cases hid : id₀ = id
  · subst hid
    obtain rfl := Option.some.inj (hrow.symm.trans h₀)
    exact ⟨row', AList.lookup_insert _, hsame⟩
  · exact ⟨row₀, (AList.lookup_insert_ne hid).trans h₀, .refl row₀⟩

/-- Writing a payment that was not there. -/
theorem exists_same_insert_new {t : Table Uuid Payment} {row : Payment}
    (hnone : t.lookup id = none) (id₀ : Uuid) (row₀ : Payment) (h₀ : t.lookup id₀ = some row₀) :
    ∃ row₁, (t.insert id row).lookup id₀ = some row₁ ∧ row₀.Same row₁ := by
  have hid : id₀ ≠ id := by
    rintro rfl
    rw [hnone] at h₀
    cases h₀
  exact ⟨row₀, (AList.lookup_insert_ne hid).trans h₀, .refl row₀⟩

/-- No edit deletes a transaction. -/
theorem mem_transactions_replay {x : PaymentTransaction} (hx : x ∈ s.paymentTransactions) :
    x ∈ (sales.replay es s).paymentTransactions := by
  induction es generalizing s with
  | nil => exact hx
  | cons e es ih =>
    apply ih
    cases e with
    | paymentTransactionInsert row => exact List.mem_append_left _ hx
    | _ => exact hx

/-- Edits after which one payment has a new version. -/
theorem evolves_update {row row' : Payment} (hrow : s.payments.lookup id = some row)
    (hsame : row.Same row')
    (hpayments : (sales.replay es s).payments = s.payments.insert id row')
    (horders : (sales.replay es s).orders = s.orders) : Evolves s (sales.replay es s) where
  payment id₀ row₀ h₀ := by
    rw [hpayments]
    exact exists_same_insert hrow hsame id₀ row₀ h₀
  order id₀ row₀ h₀ := by rwa [horders]
  transaction _ hx := mem_transactions_replay hx

theorem replay_charges (xs : List PaymentTransaction) (s : Db) :
    sales.replay (xs.map chargeEdit) s =
      { s with paymentTransactions := s.paymentTransactions ++ xs } := by
  induction xs generalizing s with
  | nil => simp
  | cons x xs ih => simp [ih, chargeEdit]

/-- One payment updated, with what was written to the ledger for it. -/
theorem payments_of_update {row : Payment} {xs : List PaymentTransaction}
    (hcore : coreEdits es = .paymentUpdate id row :: xs.map chargeEdit) :
    (sales.replay es s).payments = s.payments.insert id row := by
  rw [payments_replay hcore, Database.replay_cons, replay_charges]
  rfl

theorem orders_of_update {row : Payment} {xs : List PaymentTransaction}
    (hcore : coreEdits es = .paymentUpdate id row :: xs.map chargeEdit) :
    (sales.replay es s).orders = s.orders := by
  rw [orders_replay hcore, Database.replay_cons, replay_charges]
  rfl

theorem mem_saleEdits {paid : List NewPayment} {orderId : Uuid} {order row : Order}
    (he : e ∈ .orderInsert orderId order ::
      (paid.flatMap NewPayment.edits ++ [.orderUpdate orderId row])) :
    e = .orderInsert orderId order ∨ (∃ p ∈ paid, e = .paymentInsert p.id p.row) ∨
      (∃ p ∈ paid, e = chargeEdit p.charge) ∨ e = .orderUpdate orderId row := by
  simp only [List.mem_cons, List.mem_append, List.mem_flatMap, NewPayment.edits,
    List.not_mem_nil, or_false] at he
  rcases he with he | ⟨p, hp, he | he⟩ | he
  · exact .inl he
  · exact .inr (.inl ⟨p, hp, he⟩)
  · exact .inr (.inr (.inl ⟨p, hp, he⟩))
  · exact .inr (.inr (.inr he))

/-- A transaction row is no payment, no refund and no order. -/
theorem payment_notMem_charge {x : PaymentTransaction} :
    Key.payment id ∉ (chargeEdit x).footprint := by
  simp [chargeEdit, Edit.footprint]

/-- No effect undoes what the others rely on. -/
theorem PaymentEffect.evolves {k : EffectKind} (h : PaymentEffect s es k) :
    Evolves s (sales.replay es s) := by
  cases h with
  | note hcore =>
    refine ⟨fun id row hrow => ⟨row, ?_, .refl row⟩, fun id row hrow => ?_,
      fun _ hx => mem_transactions_replay hx⟩
    · rwa [payments_replay hcore]
    · rwa [orders_replay hcore]
  | late hcore _ _ =>
    refine ⟨fun id row hrow => ⟨row, ?_, .refl row⟩, fun id row hrow => ?_,
      fun _ hx => mem_transactions_replay hx⟩
    · rwa [payments_replay hcore]
    · rwa [orders_replay hcore]
  | confirm hcore hrow _ _ _ _ =>
    exact evolves_update hrow (.confirm _ _ _) (payments_replay hcore) (orders_replay hcore)
  | event hcore hrow _ _ _ _ _ _ _ =>
    exact evolves_update hrow (.withStatus _ _) (payments_of_update hcore) (orders_of_update hcore)
  | capture hcore hrow _ _ _ =>
    exact evolves_update hrow (.capture _ _ _) (payments_replay hcore) (orders_replay hcore)
  | refundEvent hcore hrow _ _ _ _ =>
    exact evolves_update hrow (.withStatus _ _) (payments_of_update hcore) (orders_of_update hcore)
  | refund hcore hrow _ _ _ _ _ _ _ =>
    exact evolves_update hrow (.withStatus _ _) (payments_replay hcore) (orders_replay hcore)
  | @opened stale p order hcore hstale hfresh horder hamount hpos hstatus =>
    refine ⟨fun id₀ row₀ h₀ => ?_, fun id₀ row₀ h₀ => ?_, fun _ hx => mem_transactions_replay hx⟩
    · rw [payments_replay hcore]
      cases stale with
      | none => exact exists_same_insert_new hfresh id₀ row₀ h₀
      | some q =>
        have hq := (hstale q rfl).1
        obtain ⟨row₁, h₁, hsame⟩ := exists_same_insert hq (.withStatus q.2 .cancelled) id₀ row₀ h₀
        have hne : p.id ≠ q.1 := by
          intro heq
          rw [heq, hq] at hfresh
          cases hfresh
        -- the id of the new payment is still free after the other one is cancelled
        have hnone : (s.payments.insert q.1 { q.2 with status := .cancelled }).lookup p.id = none :=
          (AList.lookup_insert_ne hne).trans hfresh
        obtain ⟨row₂, h₂, hsame'⟩ := exists_same_insert_new hnone id₀ row₁ h₁
        exact ⟨row₂, h₂, hsame.trans hsame'⟩
    · rw [orders_replay hcore]
      cases stale with
      | none => exact h₀
      | some q => exact h₀
  | @sale orderId order paid hcore hfresh hnew hids hpaid htotal =>
    refine ⟨fun id₀ row₀ h₀ => ⟨row₀, ?_, .refl row₀⟩, fun id₀ row₀ h₀ => ?_,
      fun _ hx => mem_transactions_replay hx⟩
    · -- all ids of a sale are new, so the rows that were there stay as they are
      rw [payments_replay hcore, lookup_payments_frame ?_, h₀]
      intro e he
      have hne : ∀ p ∈ paid, id₀ ≠ p.id := by
        intro p hp heq
        rw [heq, hnew p hp] at h₀
        cases h₀
      rcases mem_saleEdits he with rfl | ⟨p, hp, rfl⟩ | ⟨p, hp, rfl⟩ | rfl
      · simp [Edit.footprint]
      · simpa [Edit.footprint] using hne p hp
      · exact payment_notMem_charge
      · simp [Edit.footprint]
    · have hne : id₀ ≠ orderId := by
        intro heq
        rw [heq, hfresh] at h₀
        cases h₀
      rw [orders_replay hcore, lookup_orders_frame ?_, h₀]
      intro e he
      rcases mem_saleEdits he with rfl | ⟨p, hp, rfl⟩ | ⟨p, hp, rfl⟩ | rfl
      · simpa [Edit.footprint] using hne
      · simp [Edit.footprint]
      · simp [chargeEdit, Edit.footprint]
      · simpa [Edit.footprint] using hne

/-- The refunds stay when no refund is written. -/
theorem refundsOf_replay (h : ∀ refund, .refundInsert refund ∉ es) :
    refundsOf id (sales.replay es s) = refundsOf id s := by
  refine Database.replay_frame (D := sales) (refundsOf id) (fun e he s => ?_) s
  cases e with
  | refundInsert refund => exact absurd he (h refund)
  | _ => rfl

theorem refundsOf_congr (h : s.refunds = s'.refunds) : refundsOf id s = refundsOf id s' :=
  congrArg (List.filter _) h

/-- Only a refund writes a refund. -/
theorem PaymentEffect.refundsOf_eq {k : EffectKind} (h : PaymentEffect s es k)
    (hk : k ≠ .refund) : refundsOf id (sales.replay es s) = refundsOf id s := by
  have hframe {es' : List Edit} (hcore : coreEdits es = es')
      (hes' : ∀ refund, .refundInsert refund ∉ es') :
      refundsOf id (sales.replay es s) = refundsOf id s :=
    (refundsOf_congr (refunds_replay hcore)).trans (refundsOf_replay hes')
  cases h with
  | note hcore => exact hframe hcore (by simp)
  | late hcore _ _ => exact hframe hcore (by simp [chargeEdit])
  | confirm hcore _ _ _ _ _ => exact hframe hcore (by simp [chargeEdit])
  | event hcore _ _ _ _ _ _ _ _ => exact hframe hcore (by simp [chargeEdit])
  | capture hcore _ _ _ _ => exact hframe hcore (by simp [chargeEdit])
  | refundEvent hcore _ _ _ _ _ => exact hframe hcore (by simp [chargeEdit])
  | refund _ _ _ _ _ _ _ _ _ => exact absurd rfl hk
  | opened hcore _ _ _ _ _ _ =>
    exact hframe hcore (by simp [cancelEdit, NewPayment.edits, chargeEdit])
  | sale hcore _ _ _ _ _ =>
    refine hframe hcore fun refund hmem => ?_
    simpa [chargeEdit] using mem_saleEdits hmem

/-- Refunds come with an update of their payment. -/
theorem PaymentEffect.refundsOf_frame {k : EffectKind} (h : PaymentEffect s es k)
    (hid : ∀ e ∈ es, Key.payment id ∉ e.footprint) :
    refundsOf id (sales.replay es s) = refundsOf id s := by
  by_cases hk : k = .refund
  · subst hk
    cases h with
    | @refund id' row refund x hcore hrow hstatus hpos hle hid' htenant hcompleted htype =>
      have hmem : ∃ row', Edit.paymentUpdate id' row' ∈ es :=
        ⟨_, mem_of_mem_coreEdits (by
          rw [hcore]
          exact List.mem_cons_of_mem _ (List.mem_cons_of_mem _ List.mem_cons_self))⟩
      have hne : refund.paymentId ≠ id := by
        intro heq
        obtain ⟨row', hmem⟩ := hmem
        exact hid _ hmem (by simp [Edit.footprint, ← heq, hid'])
      rw [refundsOf, refundsOf, refunds_replay hcore]
      simp [chargeEdit, hne]
  · exact h.refundsOf_eq hk

end PulseOps
