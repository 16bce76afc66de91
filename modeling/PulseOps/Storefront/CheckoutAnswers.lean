import PulseOps.Idempotency.Separation
import PulseOps.Model.Checkout
import PulseOps.Payments.Outcomes

/-!
# Whose order a checkout shows

A checkout that is executed reads the order it has placed for its own customer, and no checkout
changes the customer of an order or the order of a payment. A repeat shows the stored answer of
the request that holds the key, and keys are shared by all shoppers of a store: as long as nobody
comes upon a key that another shopper holds, shoppers see their own orders only.

Shoppers share the stock, and so they notice what others order. Without its header a repeat is
executed: where its shopper still has something in the cart, more is ordered, and less is left.
Apart from this, nobody notices the keys of the others.

## Main definitions

* `Owned` — an order and payments of a shopper.
* `Separate` — no step of the run comes upon another shopper's key.
* `OthersOrderNothing` — checkouts that the middleware answers had nothing to order.

## Main results

* `statement_evolves` — no statement changes whose order or payment a row is.
* `checkout_upholds` — checkouts show their own orders.
* `checkout_separate` — in such runs answers do not leak, and nobody disturbs the others.
* `checkout_sharedKey` — with one key and no addresses, a shopper is shown another's order.
-/

set_option autoImplicit false

open ReadCommitted Program

namespace PulseOps.Checkout

open Idempotency OrderService

/-! ### What stays -/

section Evolving

variable {answer : Call → Reply} {s₀ : Db} {orderId paymentId tenantId : Uuid}

theorem evolves_of_books {s s' : Db} (h : s'.books = s.books) : Evolves s s' where
  payment id row hrow := ⟨row, by rw [payments_of_books h]; exact hrow, .refl row⟩
  order id row hrow := by
    rw [orders_of_books h]
    exact hrow
  transaction x hx := by
    rw [transactions_of_books h]
    exact hx

/-- What does not write to the books. -/
theorem keeps_of_emits {α : Type} {p : Sql α} (hp : p.Emits fun e => e.isCore = false) :
    Keeps answer (Evolves s₀) p :=
  hp.keeps fun _ _ hs he => hs.trans (evolves_of_books (books_apply he))

theorem keeps_insertOrder {row : Order} :
    Keeps answer (Evolves s₀) (perform (Statement.insertOrder orderId row) : Sql Unit) := by
  refine Keeps.perform fun s e hs he => ?_
  obtain ⟨hfresh, rfl⟩ := Statement.insertOrder_eq_ok he
  refine hs.trans ⟨fun id row hrow => ⟨row, hrow, .refl row⟩, fun id row hrow => ?_, fun _ h => h⟩
  refine (AList.lookup_insert_ne ?_).trans hrow
  rintro rfl
  rw [hfresh] at hrow
  cases hrow

theorem keeps_insertPayment {row : Payment} :
    Keeps answer (Evolves s₀) (perform (Statement.insertPayment paymentId row) : Sql Unit) := by
  refine Keeps.perform fun s e hs he => ?_
  obtain ⟨-, hfresh, rfl⟩ := Statement.insertPayment_eq_ok he
  refine hs.trans ⟨fun id row hrow => ⟨row, ?_, .refl row⟩, fun _ _ h => h, fun _ h => h⟩
  refine (AList.lookup_insert_ne ?_).trans hrow
  rintro rfl
  rw [hfresh] at hrow
  cases hrow

theorem keeps_insertPaymentTransaction {row : PaymentTransaction} :
    Keeps answer (Evolves s₀)
      (perform (Statement.insertPaymentTransaction row) : Sql Unit) := by
  refine Keeps.perform fun s e hs he => ?_
  obtain rfl := Statement.insertPaymentTransaction_eq_ok he
  exact hs.trans ⟨fun id row hrow => ⟨row, hrow, .refl row⟩, fun _ _ h => h,
    fun x hx => List.mem_append_left _ hx⟩

/-- A stale attempt gives way. -/
theorem keeps_cancelAttempt : Keeps answer (Evolves s₀) (perform (Statement.updatePayment
    paymentId fun row => { row with status := .cancelled }) : Sql Unit) := by
  refine Keeps.perform fun s e hs he => ?_
  obtain ⟨row, hrow, rfl⟩ := Statement.updatePayment_eq_ok he
  refine hs.trans ⟨fun id row' hrow' => ?_, fun _ _ h => h, fun _ h => h⟩
  by_cases hid : id = paymentId
  · subst hid
    obtain rfl := Option.some.inj (hrow.symm.trans hrow')
    exact ⟨_, AList.lookup_insert _, .withStatus row _⟩
  · exact ⟨row', (AList.lookup_insert_ne hid).trans hrow', .refl row'⟩

/-- The transaction of an order. -/
theorem keeps_place (env : Environment) (userId : Uuid) (d : OrderDraft) :
    Keeps answer (Evolves s₀) (place env tenantId userId orderId d fun _ _ => return ()) := by
  refine (keeps_of_emits (.forM fun it _ => emits_lockRow _)).bind fun _ => ?_
  refine (keeps_of_emits (.forM fun it _ =>
    (reserveItem_emits tenantId it).mono fun _ => PosService.isCore_of_isStock)).bind fun _ => ?_
  refine (keeps_of_emits (PosService.nextInvoiceNumber_emits fun _ => rfl)).bind fun _ => ?_
  refine keeps_insertOrder.bind fun _ => ?_
  refine (keeps_of_emits (.forM fun it _ => ?_)).bind fun _ => ?_
  · refine emits_perform fun s e he => ?_
    obtain rfl := Except.ok.inj he
    rfl
  refine (keeps_of_emits (.forM fun it _ => (recordReservation_emits tenantId userId orderId
    it).mono fun _ => PosService.isCore_of_isStock)).bind fun _ => ?_
  refine (keeps_of_emits (emits_perform fun s e he => ?_)).bind fun _ => ?_
  · obtain rfl := Except.ok.inj he
    rfl
  · exact (ReadsOnly.keeps (.ret ())).bind fun _ => ReadsOnly.keeps (.query _)

/-- Opening a payment. -/
theorem keeps_create (env : Environment) (userId : Uuid) (ids : PaymentService.DrawnIds)
    (body : PaymentService.CreatePaymentBody) :
    Keeps answer (Evolves s₀) (PaymentService.create env tenantId userId ids body) := by
  refine (ReadsOnly.keeps (.query _)).bind fun _ => ?_
  refine (ReadsOnly.keeps (.orRaise _ _)).bind fun _ => ?_
  refine (ReadsOnly.keeps (.require _ _)).bind fun _ => ?_
  refine (ReadsOnly.keeps (.query _)).bind fun _ => ?_
  refine (ReadsOnly.keeps (.require _ _)).bind fun _ => ?_
  refine (ReadsOnly.keeps (.require _ _)).bind fun _ => ?_
  refine (keeps_of_emits (charge_emits ..)).bind fun _ => ?_
  refine keeps_insertPayment.bind fun _ => ?_
  exact keeps_insertPaymentTransaction.bind fun _ => ReadsOnly.keeps (.query _)

/-- Opening an online payment. -/
theorem keeps_openPayment (order : Order) (currency : String) (amountMinor : ℤ)
    (credentials : Razorpay.Credentials) (userId : Option Uuid) :
    Keeps answer (Evolves s₀) (RazorpayPaymentsService.openPayment tenantId orderId paymentId order
      currency amountMinor credentials userId) := by
  refine (keeps_of_emits (createOrder_emits credentials amountMinor currency orderId tenantId
    orderId)).bind fun _ => ?_
  refine keeps_insertPayment.bind fun _ => ?_
  exact keeps_insertPaymentTransaction.bind fun _ => ReadsOnly.keeps (.ret _)

/-- Starting online payment. -/
theorem keeps_start (userId : Option Uuid) :
    Keeps answer (Evolves s₀)
      (RazorpayPaymentsService.start tenantId orderId paymentId userId) := by
  refine (ReadsOnly.keeps (.query _)).bind fun _ => ?_
  refine (ReadsOnly.keeps (.orRaise _ _)).bind fun _ => ?_
  refine (keeps_of_emits (emits_lockRow _)).bind fun _ => ?_
  refine (ReadsOnly.keeps (.query _)).bind fun _ => ?_
  refine (ReadsOnly.keeps (.orRaise _ _)).bind fun _ => ?_
  refine (ReadsOnly.keeps (.require _ _)).bind fun _ => ?_
  refine (ReadsOnly.keeps (.query _)).bind fun _ => ?_
  refine (ReadsOnly.keeps (.require _ _)).bind fun _ => ?_
  refine (ReadsOnly.keeps (.require _ _)).bind fun _ => ?_
  refine (ReadsOnly.keeps (.query _)).bind fun active => ?_
  -- an open attempt is taken up again, or closed when it is stale
  cases active with
  | none => exact keeps_openPayment _ _ _ _ _
  | some attempt =>
    dsimp only
    split_ifs
    · exact ReadsOnly.keeps (.ret _)
    · exact keeps_cancelAttempt.bind fun _ => keeps_openPayment _ _ _ _ _

theorem keeps_startPayment (shopper : Shopper) :
    Keeps answer (Evolves s₀) (startPayment shopper) := by
  have hfound (checkout : Option RazorpayPaymentsService.Checkout) : Keeps answer (Evolves s₀)
      (do
        let found ← query (startedPayment shopper.storeId shopper.orderId shopper.ids.payment)
        let payment ← orRaise found .typeError
        return toPayment payment.1 payment.2 checkout : Sql CustomerPayment) :=
    (ReadsOnly.keeps (.query _)).bind fun _ =>
      (ReadsOnly.keeps (.orRaise _ _)).bind fun _ => ReadsOnly.keeps (.ret _)
  refine (ReadsOnly.keeps (.query _)).bind fun credentials => ?_
  -- without Razorpay the shop settles the payment by hand
  cases credentials with
  | none => exact (keeps_create _ _ _ _).bind fun _ => hfound none
  | some _ => exact (keeps_start _).bind fun checkout => hfound (some checkout)

end Evolving

/-! ### Whose orders -/

/-- The order is one of the customer's, and the payments are payments of it. -/
def Owned (customerId : Uuid) (order : CustomerOrder) (payment : Option CustomerPayment)
    (s : Db) : Prop :=
  (∃ row, s.orders.lookup order.id = some row ∧ row.customerId = customerId) ∧
    ∀ id ∈ order.payments.map (·.id) ++ payment.toList.map (·.id),
      ∃ row, s.payments.lookup id = some row ∧ row.orderId = order.id

/-- What the customer may be shown. -/
def MayShow (customerId : Uuid) (s : Store) (body : Body) : Prop :=
  ∀ order payment, body = .placed order payment → Owned customerId order payment s.db

/-- A started payment is one of the order, and an answer may be shown. -/
def StageOwned (shopper : Shopper) (s : Store) : Stage → Prop
  | .showing payment =>
    ∀ p ∈ payment, ∃ row, s.db.payments.lookup p.id = some row ∧ row.orderId = shopper.orderId
  | .answering r => MayShow shopper.customerId s r.body
  | _ => True

variable {shopper : Shopper} {s s' : Store} {stage : Stage} {customerId : Uuid}

theorem Owned.evolve {order : CustomerOrder} {payment : Option CustomerPayment} {db db' : Db}
    (h : Owned customerId order payment db) (hdb : Evolves db db') :
    Owned customerId order payment db' := by
  obtain ⟨⟨row, hrow, hcustomer⟩, hpayments⟩ := h
  refine ⟨⟨row, hdb.order _ _ hrow, hcustomer⟩, fun id hid => ?_⟩
  obtain ⟨row, hrow, horder⟩ := hpayments id hid
  obtain ⟨row', hrow', hsame⟩ := hdb.payment _ _ hrow
  exact ⟨row', hrow', hsame.orderId.symm.trans horder⟩

theorem MayShow.evolve {body : Body} (h : MayShow customerId s body)
    (hs : Evolves s.db s'.db) : MayShow customerId s' body :=
  fun order payment hbody => (h order payment hbody).evolve hs

theorem StageOwned.evolve (h : StageOwned shopper s stage) (hs : Evolves s.db s'.db) :
    StageOwned shopper s' stage := by
  cases stage with
  | showing payment =>
    intro p hp
    obtain ⟨row, hrow, horder⟩ := h p hp
    obtain ⟨row', hrow', hsame⟩ := hs.payment _ _ hrow
    exact ⟨row', hrow', hsame.orderId.symm.trans horder⟩
  | answering r => exact MayShow.evolve h hs
  | _ => trivial

/-- Every statement of a checkout keeps orders and payments. -/
theorem statement_evolves (shopper : Shopper) (stage : Stage) (s : Store) :
    Evolves s.db (statement shopper stage s).1.db := by
  cases stage with
  | reading =>
    simp only [statement]
    split <;> exact .refl _
  | preparing lines =>
    simp only [statement]
    split <;> exact .refl _
  | placing draft =>
    simp only [statement]
    split
    · exact .refl _
    · rename_i hrun
      exact keeps_place _ _ _ _ _ _ (.refl _) hrun
  | paying =>
    simp only [statement]
    split
    · exact .refl _
    · rename_i hrun
      exact keeps_startPayment _ _ _ _ (.refl _) hrun
  | showing payment =>
    simp only [statement]
    split <;> exact .refl _
  | _ => exact .refl _

theorem mayShow_errorResponse (e : AppError) : MayShow customerId s (errorResponse e).body :=
  fun _ _ hbody => nomatch hbody

theorem mayShow_failureResponse (e : Failure) : MayShow customerId s (failureResponse e).body := by
  cases e <;> exact mayShow_errorResponse _

theorem startedPayment_eq_some {storeId orderId paymentId : Uuid} {db : Db}
    {found : Uuid × Payment} (h : startedPayment storeId orderId paymentId db = some found) :
    db.payments.lookup found.1 = some found.2 ∧ found.2.orderId = orderId := by
  -- the payment that was created, or the one that was taken up again
  rcases Option.or_eq_some_iff.mp h with hcreated | ⟨-, hresumed⟩
  · obtain ⟨row, hrow, rfl⟩ := Option.map_eq_some_iff.mp hcreated
    obtain ⟨hlookup, horder⟩ := Option.filter_eq_some_iff.mp hrow
    exact ⟨hlookup, of_decide_eq_true horder⟩
  · obtain ⟨hlookup, hfound⟩ := PaymentRepository.findFirst_eq_some hresumed
    exact ⟨hlookup, (of_decide_eq_true hfound).1⟩

/-- The payment that a checkout starts is one of its order. -/
theorem leaves_startPayment (shopper : Shopper) (answer : Call → Reply) (db : Db) :
    (startPayment shopper).Leaves answer (fun p db' =>
      ∃ row, db'.payments.lookup p.id = some row ∧ row.orderId = shopper.orderId) db := by
  have hfound (checkout : Option RazorpayPaymentsService.Checkout) (db : Db) : Leaves answer
      (fun p db' => ∃ row, db'.payments.lookup p.id = some row ∧ row.orderId = shopper.orderId)
      (do
        let found ← query (startedPayment shopper.storeId shopper.orderId shopper.ids.payment)
        let payment ← orRaise found .typeError
        return toPayment payment.1 payment.2 checkout : Sql CustomerPayment) db := by
    rw [leaves_query_bind, leaves_orRaise_bind]
    intro payment hpayment
    exact leaves_ret.mpr ⟨payment.2, startedPayment_eq_some hpayment⟩
  rw [startPayment, leaves_query_bind]
  cases Razorpay.credentialsFor shopper.storeId false db with
  | none => exact Leaves.bind fun _ _ _ => hfound none _
  | some _ => exact Leaves.bind fun checkout _ _ => hfound (some checkout) _

theorem findOwnOrder_eq_some {storeId orderId : Uuid} {db : Db} {row : Order}
    (h : findOwnOrder storeId customerId orderId db = some row) :
    db.orders.lookup orderId = some row ∧ row.customerId = customerId := by
  obtain ⟨hrow, hown⟩ := Option.filter_eq_some_iff.mp h
  exact ⟨hrow, (of_decide_eq_true hown).2⟩

/-- What a checkout shows is the customer's. -/
theorem owned_toCustomerOrder {row : Order} {payment : Option CustomerPayment}
    (hrow : findOwnOrder shopper.storeId shopper.customerId shopper.orderId s.db = some row)
    (h : StageOwned shopper s (.showing payment)) : Owned shopper.customerId
      (toCustomerOrder shopper.orderId row s.db) payment s.db := by
  refine ⟨⟨row, findOwnOrder_eq_some hrow⟩, fun id hid => ?_⟩
  -- the payments of the order, and the one that was started
  rcases List.mem_append.mp hid with hlisted | hstarted
  · obtain ⟨shown, hshown, rfl⟩ := List.mem_map.mp hlisted
    obtain ⟨x, hx, rfl⟩ := List.mem_map.mp hshown
    obtain ⟨hmem, horder⟩ := List.mem_filter.mp hx
    exact ⟨x.2, AList.mem_lookup_iff.mpr hmem, (of_decide_eq_true horder).1⟩
  · obtain ⟨p, hp, rfl⟩ := List.mem_map.mp hstarted
    exact h p (Option.mem_toList.mp hp)

theorem StageOwned.next (h : StageOwned shopper s stage) :
    StageOwned shopper (statement shopper stage s).1 (statement shopper stage s).2 := by
  cases stage with
  | reading =>
    simp only [statement]
    split
    · exact mayShow_errorResponse _
    · trivial
  | preparing lines =>
    simp only [statement]
    split
    · exact mayShow_failureResponse _
    · trivial
  | placing draft =>
    simp only [statement]
    split
    · exact mayShow_failureResponse _
    · trivial
  | clearing => trivial
  | paying =>
    simp only [statement]
    split
    · exact fun _ hp => nomatch hp
    · -- the payment that is shown was started for the order that was placed
      rename_i payment es hrun
      intro p hp
      obtain rfl := Option.some.inj hp
      exact leaves_startPayment shopper shopper.answer s.db _ _ hrun
  | showing payment =>
    simp only [statement]
    split
    · exact mayShow_errorResponse _
    · rename_i own hown
      intro order payment' hbody
      cases hbody
      exact owned_toCustomerOrder hown h
  | answering r => exact h

/-- Checkouts show their own orders. -/
theorem checkout_upholds : checkout.Upholds Shopper.customerId StageOwned MayShow where
  first _ _ := trivial
  next h := h.next
  others shopper' stage' h := h.evolve (statement_evolves shopper' stage' _)
  answers {shopper s stage r} h hr := by
    cases stage with
    | answering r' =>
      obtain rfl := Option.some.inj hr
      exact h
    | _ => cases hr
  stays shopper stage h := h.evolve (statement_evolves shopper stage _)

/-! ### Runs -/

variable {sha256 : String → String} {requests : List (Request Shopper)}

/-- No step of the run comes upon a key that another shopper holds. -/
def Separate (sha256 : String → String) (requests : List (Request Shopper)) (s : Store)
    (schedule : List ℕ) : Prop :=
  ∀ before i, before ++ [i] <+: schedule → Undisturbed sha256 Shopper.customerId requests
    (checkout.run sha256 requests s before).system i

/-- The cart of the shopper is empty or not ready. -/
def NothingToOrder (shopper : Shopper) (s : Store) : Prop :=
  (readCart shopper.storeId shopper.customerId s).isOk = false

instance (shopper : Shopper) (s : Store) : Decidable (NothingToOrder shopper s) := by
  unfold NothingToOrder
  infer_instance

/-- Whenever the middleware answers a checkout of another shopper, there is nothing to order. -/
def OthersOrderNothing (sha256 : String → String) (customerId : Uuid)
    (requests : List (Request Shopper)) (s : Store) (schedule : List ℕ) : Prop :=
  ∀ before i, before ++ [i] <+: schedule → ∀ req phase,
    Idempotency.At requests (checkout.run sha256 requests s before).system i req phase →
    req.context.customerId ≠ customerId → Statements.Suppressed req phase →
    NothingToOrder req.context (checkout.run sha256 requests s before).system.shop

/-- A checkout without anything to order is refused by its first statement. -/
theorem NothingToOrder.stops (h : NothingToOrder shopper s) : checkout.Stops shopper s := by
  cases hcart : readCart shopper.storeId shopper.customerId s with
  | ok lines =>
    rw [NothingToOrder, hcart] at h
    cases h
  | error e =>
    have hstatement : checkout.statement shopper checkout.first s =
        (s, .answering (errorResponse e)) := by
      simp only [checkout, statement, hcart]
    rw [Statements.Stops, hstatement]
    exact ⟨rfl, rfl⟩

/-- **Checkouts of different shoppers.** In every run in which no request comes upon a key that
another shopper's request holds, nobody is shown an order or a payment of somebody else. If,
besides, there was nothing to order whenever the middleware answered a checkout of the other
shoppers, then a shopper's checkouts are executed, refused and answered as if the others had
sent no keys, and the same orders are placed. -/
theorem checkout_separate {schedule : List ℕ} (h : Separate sha256 requests s schedule) :
    (∀ i req a order payment,
      Idempotency.At requests (checkout.run sha256 requests s schedule).system i req (.done a) →
      a.body = some (.placed order payment) → Owned req.context.customerId order payment
        (checkout.run sha256 requests s schedule).system.shop.db) ∧
    ∀ customerId, OthersOrderNothing sha256 customerId requests s schedule →
      (checkout.run sha256 (withoutKeys Shopper.customerId customerId requests) s
          schedule).system.shop = (checkout.run sha256 requests s schedule).system.shop ∧
      ∀ (i : ℕ) (req : Request Shopper), requests[i]? = some req →
        req.context.customerId = customerId →
        (checkout.run sha256 (withoutKeys Shopper.customerId customerId requests) s
            schedule).system.phases[i]? =
          (checkout.run sha256 requests s schedule).system.phases[i]? := by
  refine ⟨fun i req a order payment hat hbody => ?_, fun customerId hothers => ?_⟩
  · exact (Statements.upheld_run sha256 checkout_upholds h).body hat hbody order payment rfl
  · have hbeside : checkout.Beside Shopper.customerId customerId requests
        (checkout.run sha256 requests s schedule)
        (checkout.run sha256 (withoutKeys Shopper.customerId customerId requests) s schedule) :=
      Statements.beside_run h fun before i hbefore req phase hat hother hsuppressed =>
        (hothers before i hbefore req phase hat hother hsuppressed).stops
    exact ⟨hbeside.shop, hbeside.agree⟩

/-- Keys that no two shoppers have in common keep them apart. -/
theorem separate_of_carries (h : ∀ i j k req req', Carries requests i k → Carries requests j k →
      requests[i]? = some req → requests[j]? = some req' →
      req.context.customerId = req'.context.customerId) (schedule : List ℕ) :
    Separate sha256 requests s schedule := by
  intro before i _ req phase k hat hphase j row req' hclaim hreq'
  have hk : admission req = .keyed k := by
    rcases hphase with ⟨-, hk⟩ | rfl
    · exact hk
    · exact (Statements.consistent_run sha256 checkout s before).fits i req _ hat
  -- the request that holds the row has sent the key
  obtain ⟨req'', phase', hat', hk', -⟩ := hclaim
  exact h j i k req' req ⟨req'', hat'.1, hk'⟩ ⟨req, hat.1, hk⟩ hreq' hat.1

/-- The turns of a schedule, one by one. -/
theorem othersOrderNothing_of_turns {schedule : List ℕ}
    (h : ∀ k < schedule.length, ∀ i ∈ schedule[k]?, ∀ req ∈ requests[i]?,
      ∀ phase ∈ (checkout.run sha256 requests s (schedule.take k)).system.phases[i]?,
        req.context.customerId ≠ customerId → Statements.Suppressed req phase →
        NothingToOrder req.context
          (checkout.run sha256 requests s (schedule.take k)).system.shop) :
    OthersOrderNothing sha256 customerId requests s schedule := by
  rintro before i ⟨rest, rfl⟩ req phase ⟨hreq, hphase⟩ hother hsuppressed
  have htake : (before ++ [i] ++ rest).take before.length = before := by simp
  have hturn := h before.length (by simp) i (by simp) req hreq
  rw [htake] at hturn
  exact hturn phase hphase hother hsuppressed

namespace Sample

/-- A stand-in for the hash function. -/
def same (text : String) : String := text

/-- A store with some pieces of one variant, which two shoppers have in their carts. -/
def store (pieces : ℤ) : Store where
  db :=
    { tenants := (∅ : Table Uuid Tenant).insert "store"
        { name := "Store", slug := "store", plan := "free" }
      customers := ((∅ : Table Uuid Customer).insert "asha"
        { tenantId := "store", email := "asha@shop.test", firstName := "Asha", lastName := "A" })
        |>.insert "ravi"
        { tenantId := "store", email := "ravi@shop.test", firstName := "Ravi", lastName := "R" }
      productVariants := (∅ : Table Uuid ProductVariant).insert "mug"
        { tenantId := "store", sku := "MUG", price := 10000, status := .active,
          product := { name := "Mug" } }
      warehouses := (∅ : Table Uuid Warehouse).insert "main" { tenantId := "store" }
      inventory := (∅ : Table StockKey ℤ).insert ⟨"store", "mug", "main"⟩ pieces }
  cartItems := ((∅ : Table Cart.ItemKey CartItem).insert ("asha", "mug") ⟨"store", 1⟩)
    |>.insert ("ravi", "mug") ⟨"store", 1⟩

/-- A checkout without addresses. -/
def visit (idempotencyKey customerId orderId : String) : Request Shopper :=
  checkoutRequest "/storefront/store" (some idempotencyKey) "{}"
    { storeId := "store"
      customerId := customerId
      orderId := orderId
      ids := ⟨"p-" ++ orderId, orderId, orderId⟩
      answer := fun _ => .charged none }

/-- What a request was answered with: a status, and the order that was shown. -/
def shown (d : Running Body Store Stage) (i : ℕ) : Option (ℕ × Option Uuid) :=
  match d.system.phases[i]? with
  | some (.done a) =>
    some (a.statusCode,
      match a.body with
      | some (.placed order _) => some order.id
      | _ => none)
  | _ => none

theorem exists_of_shown {d : Running Body Store Stage} {i statusCode : ℕ} {id : Uuid}
    (h : shown d i = some (statusCode, some id)) : ∃ a order payment,
      d.system.phases[i]? = some (.done a) ∧ a.body = some (.placed order payment) ∧
        order.id = id := by
  unfold shown at h
  split at h
  · rename_i a hphase
    obtain ⟨-, hshown⟩ := Prod.mk.inj (Option.some.inj h)
    split at hshown
    · rename_i order payment hbody
      exact ⟨a, order, payment, hphase, hbody, Option.some.inj hshown⟩
    · cases hshown
  · cases h

/-- Two shoppers, one of whom sends the request twice. -/
def visits : List (Request Shopper) :=
  [visit "asha-0001" "asha" "o1", visit "ravi-0001" "ravi" "o2", visit "asha-0001" "asha" "o3"]

/-- Both read their carts before the one piece is sold; the repeat comes at the end. -/
def schedule : List ℕ := [0, 1, 0, 1, 0, 1, 0, 1, 1, 1, 1, 0, 0, 0, 0, 0, 0, 2, 2]

theorem visits_separate : Separate same visits (store 1) schedule := by
  refine separate_of_carries (fun i j k req req' hi hj hreq hreq' => ?_) _
  obtain ⟨req₀, hreq₀, hk⟩ := hi
  obtain ⟨req₁, hreq₁, hk'⟩ := hj
  obtain rfl := Option.some.inj (hreq.symm.trans hreq₀)
  obtain rfl := Option.some.inj (hreq'.symm.trans hreq₁)
  have hadmission (i : ℕ) (req : Request Shopper) (hreq : visits[i]? = some req) :
      (admission req = .keyed ("store", "asha-0001") ∧ req.context.customerId = "asha") ∨
        (admission req = .keyed ("store", "ravi-0001") ∧ req.context.customerId = "ravi") := by
    match i with
    | 0 | 2 =>
      cases hreq
      exact .inl ⟨by decide, rfl⟩
    | 1 =>
      cases hreq
      exact .inr ⟨by decide, rfl⟩
    | i + 3 => cases hreq
  rcases hadmission i req hreq with ⟨ha, hc⟩ | ⟨ha, hc⟩ <;>
    rcases hadmission j req' hreq' with ⟨ha', hc'⟩ | ⟨ha', hc'⟩
  · rw [hc, hc']
  · exact absurd (ha.symm.trans (hk.trans (hk'.symm.trans ha'))) (by decide)
  · exact absurd (ha.symm.trans (hk.trans (hk'.symm.trans ha'))) (by decide)
  · rw [hc, hc']

end Sample

open Checkout.Sample in
/-- One piece, two shoppers and a repeat: the first is shown the order, also the second time,
the other is refused for want of stock, and would be so if the first had sent no keys. -/
theorem checkout_separate_sample :
    (List.range 3).map (shown (checkout.run same visits (store 1) schedule)) =
      [some (201, some "o1"), some (409, none), some (201, some "o1")] ∧
    (∀ i req a order payment, Idempotency.At visits
        (checkout.run same visits (store 1) schedule).system i req (.done a) →
      a.body = some (.placed order payment) → Owned req.context.customerId order payment
        (checkout.run same visits (store 1) schedule).system.shop.db) ∧
    (checkout.run same (withoutKeys Shopper.customerId "ravi" visits) (store 1)
        schedule).system.phases[1]? =
      (checkout.run same visits (store 1) schedule).system.phases[1]? := by
  have hothers : OthersOrderNothing same "ravi" visits (store 1) schedule :=
    othersOrderNothing_of_turns (by decide +kernel)
  obtain ⟨howned, hsame⟩ := checkout_separate visits_separate
  exact ⟨by decide +kernel, howned, (hsame "ravi" hothers).2 1 _ rfl rfl⟩

namespace Sample

/-- Two shoppers with one key, one after the other. -/
def sharedKey : List (Request Shopper) :=
  [visit "order-0001" "asha" "o1", visit "order-0001" "ravi" "o2"]

def inTurn : List ℕ := List.replicate 10 0 ++ List.replicate 10 1

end Sample

open Checkout.Sample in
/-- With one key and no addresses, the second shopper is shown the order of the first and places
none; without the first one's header an order would be placed and shown. -/
theorem checkout_sharedKey :
    (∃ req a order payment, Idempotency.At sharedKey
        (checkout.run same sharedKey (store 2) inTurn).system 1 req (.done a) ∧
      a.body = some (.placed order payment) ∧ ¬ Owned req.context.customerId order payment
        (checkout.run same sharedKey (store 2) inTurn).system.shop.db) ∧
    (checkout.run same (withoutKeys Shopper.customerId "ravi" sharedKey) (store 2)
        inTurn).system.phases[1]? ≠
      (checkout.run same sharedKey (store 2) inTurn).system.phases[1]? := by
  have hshown : shown (checkout.run same sharedKey (store 2) inTurn) 1 =
      some (201, some "o1") := by decide +kernel
  constructor
  · obtain ⟨a, order, payment, hphase, hbody, hid⟩ := exists_of_shown hshown
    refine ⟨_, a, order, payment, ⟨rfl, hphase⟩, hbody, ?_⟩
    rintro ⟨⟨row, hrow, hcustomer⟩, -⟩
    have hasha : ((checkout.run same sharedKey (store 2) inTurn).system.shop.db.orders.lookup
        "o1").map (·.customerId) = some "asha" := by decide +kernel
    rw [hid] at hrow
    rw [hrow] at hasha
    have hravi : "ravi" = "asha" := hcustomer.symm.trans (Option.some.inj hasha)
    exact absurd hravi (by decide)
  · intro hsame
    have hown : shown (checkout.run same (withoutKeys Shopper.customerId "ravi" sharedKey)
        (store 2) inTurn) 1 = some (201, some "o2") := by decide +kernel
    rw [shown, hsame] at hown
    exact absurd (hshown.symm.trans hown) (by decide)

end PulseOps.Checkout
