import PulseOps.Payments.Outcomes
import PulseOps.ReadCommitted.Moments

/-!
# What a payment request has looked at

Creating a payment and starting an online payment both look for an open payment of the order
before they open their own. Starting holds the row of the order from before it looks until it
commits, and creating holds nothing. This file names the statement that looks, and what a
request has found there by the time it commits.

## Main definitions

* `PaymentRequest.look` — the statement that looks.
* `openedAt`, `lookedAt` — the turns of a schedule that open a payment, and that look.
* `NoneOpenedSince` — nobody opens a payment between the two.
* `FoundNoneOpen` — what a request has found that opens a payment.

## Main results

* `PaymentRequest.restsOn` — what a request writes rests on what it has found.
* `PaymentRequest.locksBy` — starting a payment locks the order.
-/

set_option autoImplicit false

open ReadCommitted Program

namespace PulseOps

variable {s s₀ : Db} {es : List Edit} {rs : List PaymentRequest} {id orderId : Uuid}
  {row : Payment} {order : Order}

/-! ### When a request looks -/

/-- The statement that looks for an open payment of the order. In `create` it comes after the
order, in `start` after the account, the lock, the order and a payment that has completed it. -/
def PaymentRequest.look : PaymentRequest → Option ℕ
  | create .. => some 1
  | start .. => some 4
  | _ => none

def PaymentRequest.isStart : PaymentRequest → Bool
  | start .. => true
  | _ => false

/-- The requests as a system to be looked at turn by turn. -/
abbrev paymentMachine (rs : List PaymentRequest) :
    Machine sales Unit (Config sales Unit) (Action sales) :=
  Config.machine (.free sales) (rs.map PaymentRequest.program)

/-- Whether a transaction opens a payment of the order. -/
def opensPayment (orderId : Uuid) (x : Commit sales) : Bool :=
  x.edits.any fun
    | .paymentInsert _ row => row.orderId = orderId ∧ row.status.isOpen
    | _ => false

theorem opensPayment_eq_true {x : Commit sales} : opensPayment orderId x = true ↔
    ∃ id row, .paymentInsert id row ∈ x.edits ∧ row.orderId = orderId ∧
      row.status.isOpen = true := by
  unfold opensPayment
  rw [List.any_eq_true]
  constructor
  · rintro ⟨e, he, h⟩
    cases e with
    | paymentInsert id row => exact ⟨id, row, he, of_decide_eq_true h⟩
    | _ => cases h
  · rintro ⟨id, row, he, h⟩
    exact ⟨_, he, decide_eq_true h⟩

/-- What the turn `k` commits, if it opens a payment of the order. -/
def openedAt (orderId : Uuid) (s₀ : Db) (rs : List PaymentRequest) (xs : List (Action sales))
    (k : ℕ) : Option (Commit sales) :=
  ((paymentMachine rs).commitAt (.start s₀ (rs.map PaymentRequest.program)) xs k).filter
    (opensPayment orderId)

/-- The turn at which the request `i` has looked for an open payment, before the turn `m`. -/
def lookedAt (rs : List PaymentRequest) (xs : List (Action sales)) (i m : ℕ) : Option ℕ :=
  (rs[i]?.bind PaymentRequest.look).bind fun n => ((paymentMachine rs).turns xs i m)[n]?

/-- Whether the requests `i` and `j` both start an online payment. -/
def bothStart (rs : List PaymentRequest) (i j : ℕ) : Bool :=
  rs[i]?.any PaymentRequest.isStart && rs[j]?.any PaymentRequest.isStart

/-- When a request opens a payment of the order with turn `m`, no other one has opened a
payment of the order since it looked, unless both requests are `start`. -/
def NoneOpenedSince (orderId : Uuid) (s₀ : Db) (rs : List PaymentRequest)
    (xs : List (Action sales)) : Prop :=
  ∀ m < xs.length, ∀ x ∈ openedAt orderId s₀ rs xs m, ∀ k ∈ lookedAt rs xs x.session m,
    ∀ l < m, k < l → ∀ y ∈ openedAt orderId s₀ rs xs l, bothStart rs x.session y.session

instance (orderId : Uuid) (s₀ : Db) (rs : List PaymentRequest) (xs : List (Action sales)) :
    Decidable (NoneOpenedSince orderId s₀ rs xs) := by
  unfold NoneOpenedSince
  infer_instance

/-! ### What a request has found -/

/-- The order a request is about that looks for an open payment. -/
def PaymentRequest.target : PaymentRequest → Option Uuid
  | create _ _ _ _ body => some body.orderId
  | start _ orderId _ _ => some orderId
  | _ => none

/-- What the edits of the request `r` insert for the order bears its tenant, and in `s` no
payment of the order was open, or one that the edits close. -/
structure FoundNoneOpen (r : PaymentRequest) (orderId : Uuid) (order : Order) (s : Db)
    (es : List Edit) : Prop where
  inserted : ∀ id row, .paymentInsert id row ∈ es → row.orderId = orderId →
    r.target = some orderId ∧ row.tenantId = order.tenantId ∧ row.deleted = false
  alone : ∀ id row, .paymentInsert id row ∈ es → row.orderId = orderId →
    (∀ id' row', s.payments.lookup id' = some row' → row'.orderId = orderId →
      row'.tenantId = order.tenantId → row'.deleted = false → row'.status.isOpen = false) ∨
    ∃ id' row' closed, s.payments.lookup id' = some row' ∧ row'.orderId = orderId ∧
      row'.status.isOpen = true ∧ .paymentUpdate id' closed ∈ es ∧ closed.status.isOpen = false

/-- No payment of the order is open. -/
theorem none_of_findFirst {p : Payment → Bool} (h : PaymentRepository.findFirst p s = none)
    (hrow : s.payments.lookup id = some row) : p row = false := by
  unfold PaymentRepository.findFirst at h
  rw [Option.map_eq_none_iff, List.find?_eq_none] at h
  exact Bool.eq_false_iff.mpr (h _ (AList.mem_lookup_iff.mp hrow))

/-- Edits that insert payments of another order. -/
theorem FoundNoneOpen.of_other {r : PaymentRequest}
    (h : ∀ id row, .paymentInsert id row ∈ es → row.orderId ≠ orderId) :
    FoundNoneOpen r orderId order s es :=
  ⟨fun _ _ hmem heq => absurd heq (h _ _ hmem), fun _ _ hmem heq => absurd heq (h _ _ hmem)⟩

/-- What is inserted is a payment that satisfies `C`. -/
def InsertsOnly (C : Payment → Prop) (e : Edit) : Prop :=
  ∀ id row, e = .paymentInsert id row → C row

theorem emits_insertPayment {C : Payment → Prop} {row : Payment} (hC : C row) :
    (perform (Statement.insertPayment id row) : Sql Unit).Emits (InsertsOnly C) := by
  apply emits_perform
  intro s e he
  obtain ⟨-, -, rfl⟩ := Statement.insertPayment_eq_ok he
  rintro _ _ ⟨⟩
  exact hC

theorem emits_insertPaymentTransaction {C : Payment → Prop} {x : PaymentTransaction} :
    (perform (Statement.insertPaymentTransaction x) : Sql Unit).Emits (InsertsOnly C) := by
  apply emits_perform
  intro s e he
  rw [Statement.insertPaymentTransaction_eq_ok he]
  rintro _ _ ⟨⟩

namespace PaymentService

variable {env : Environment} {tenantId userId : Uuid} {ids : DrawnIds} {body : CreatePaymentBody}

theorem restsOn_create :
    (create env tenantId userId ids body).RestsOn (fun s => s.orders.lookup orderId = some order)
      (FoundNoneOpen (.create env tenantId userId ids body) orderId order) 1 := by
  refine restsOn_query_bind_succ fun s hs => restsOn_orRaise_bind fun found hfound => ?_
  refine restsOn_require_bind fun _ => restsOn_query_bind fun s' hs' => ?_
  refine writes_require_bind fun hnone => writes_require_bind fun _ => ?_
  refine Writes.mono (Emits.writes (P := InsertsOnly fun row => row.orderId = body.orderId ∧
    row.tenantId = tenantId ∧ row.deleted = false) ?_ (by simp)) fun es hes => ?_
  · exact (charge_emits _ _ _ _ _).bind fun charged => (emits_insertPayment ⟨rfl, rfl, rfl⟩).bind
      fun _ => emits_insertPaymentTransaction.bind fun _ => (ReadsOnly.query _).emits
  -- a payment of another order is none of this one
  by_cases hid : body.orderId = orderId
  · obtain ⟨hfind, htenant⟩ := Option.filter_eq_some_iff.mp hfound
    rw [hid, hs] at hfind
    obtain rfl := Option.some.inj hfind
    have htenant : order.tenantId = tenantId := by simpa using htenant
    subst hid htenant
    refine ⟨fun id row hmem _ => ⟨rfl, (hes _ hmem id row rfl).2⟩, fun _ _ _ _ => .inl ?_⟩
    intro id row hrow horder htenant _
    simpa [horder, htenant] using none_of_findFirst (Option.isNone_iff_eq_none.mp hnone) hrow
  · exact .of_other fun id row hmem heq => hid ((hes _ hmem id row rfl).1.symm.trans heq)

end PaymentService

namespace RazorpayPaymentsService

variable {tenantId orderId' paymentId : Uuid} {userId : Option Uuid}

theorem emits_openPayment {found : Order} {currency : String} {amountMinor : ℤ}
    {credentials : Razorpay.Credentials} :
    (openPayment tenantId orderId' paymentId found currency amountMinor credentials userId).Emits
      (InsertsOnly fun row => row.orderId = orderId' ∧ row.tenantId = tenantId ∧
        row.deleted = false) :=
  (createOrder_emits _ _ _ _ _ _).bind fun _ => (emits_insertPayment ⟨rfl, rfl, rfl⟩).bind
    fun _ => emits_insertPaymentTransaction.bind fun _ => trivial

/-- After the edits `es`, a payment is opened. -/
theorem writes_openPayment {found : Order} {currency : String} {amountMinor : ℤ}
    {credentials : Razorpay.Credentials} {Q : List Edit → Prop}
    (h : ∀ es', (∀ e ∈ es', InsertsOnly (fun row => row.orderId = orderId' ∧
      row.tenantId = tenantId ∧ row.deleted = false) e) → Q (es ++ es')) :
    (openPayment tenantId orderId' paymentId found currency amountMinor credentials userId).Writes
      Q es := by
  rw [← bind_pure (openPayment _ _ _ _ _ _ _ _)]
  exact emits_openPayment.writes_bind fun _ es' hes' => h es' hes'

theorem restsOn_start :
    (start tenantId orderId' paymentId userId).RestsOn
      (fun s => s.orders.lookup orderId = some order)
      (FoundNoneOpen (.start tenantId orderId' paymentId userId) orderId order) 4 := by
  refine restsOn_query_bind_succ fun _ _ => restsOn_orRaise_bind fun credentials _ => ?_
  refine restsOn_lockRow_bind (restsOn_query_bind_succ fun s hs => ?_)
  refine restsOn_orRaise_bind fun found hfound => restsOn_require_bind fun _ => ?_
  refine restsOn_query_bind_succ fun _ _ => restsOn_require_bind fun _ => ?_
  refine restsOn_require_bind fun _ => restsOn_query_bind fun s' hs' => ?_
  by_cases hid : orderId' = orderId
  · obtain ⟨hfind, htenant⟩ := Option.filter_eq_some_iff.mp hfound
    rw [hid, hs] at hfind
    obtain rfl := Option.some.inj hfind
    have htenant : order.tenantId = tenantId := by simpa using htenant
    subst hid htenant
    -- no open attempt, one that is taken up again, or one that is stale and closed
    split
    · rename_i hnone
      refine writes_openPayment fun es hes =>
        ⟨fun id row hmem _ => ⟨rfl, (hes _ hmem id row rfl).2⟩,
        fun _ _ _ _ => .inl fun id row hrow horder htenant hkept => ?_⟩
      simpa [horder, htenant, hkept] using none_of_findFirst hnone hrow
    · rename_i attempt hattempt
      split
      · exact .of_other (by simp)
      · refine writes_perform_bind fun s₁ e he => writes_openPayment fun es hes => ?_
        obtain ⟨row₁, -, rfl⟩ := Statement.updatePayment_eq_ok he
        obtain ⟨hrow, hopen⟩ := PaymentRepository.findFirst_eq_some hattempt
        have hinserted {id : Uuid} {row : Payment} (hmem : .paymentInsert id row ∈
            [Edit.paymentUpdate attempt.1 { row₁ with status := .cancelled }] ++ es) :
            .paymentInsert id row ∈ es := by simpa using hmem
        refine ⟨fun id row hmem _ => ⟨rfl, (hes _ (hinserted hmem) id row rfl).2⟩,
          fun _ _ _ _ => .inr ?_⟩
        simp only [Bool.decide_and, Bool.and_eq_true, decide_eq_true_eq] at hopen
        exact ⟨attempt.1, attempt.2, _, hrow, hopen.1, by simpa using hopen.2.2.1,
          List.mem_append_left _ List.mem_cons_self, rfl⟩
  · -- the request is about another order
    have hother {es₀ : List Edit} {currency : String} {amountMinor : ℤ}
        (hes₀ : ∀ id row, .paymentInsert id row ∉ es₀) :
        (openPayment tenantId orderId' paymentId found currency amountMinor credentials
          userId).Writes
          (FoundNoneOpen (.start tenantId orderId' paymentId userId) orderId order s') es₀ := by
      refine writes_openPayment fun es hes => .of_other fun id row hmem heq => ?_
      rcases List.mem_append.mp hmem with hmem | hmem
      · exact hes₀ id row hmem
      · exact hid ((hes _ hmem id row rfl).1.symm.trans heq)
    split
    · exact hother (by simp)
    · split
      · exact .of_other (by simp)
      · refine writes_perform_bind fun s₁ e he => hother fun id row => ?_
        obtain ⟨row₁, -, rfl⟩ := Statement.updatePayment_eq_ok he
        simp

theorem locksBy_start {Inv : Db → Prop} :
    (start tenantId orderId paymentId userId).LocksBy Inv (.order orderId) 1 :=
  locksBy_query_bind fun _ _ => locksBy_orRaise_bind fun _ _ => locksBy_lockRow_bind

end RazorpayPaymentsService

/-- What a request that opens payments writes rests on what it has found when it looked. -/
theorem PaymentRequest.restsOn {r : PaymentRequest} {n : ℕ} (hn : r.look = some n) :
    r.program.RestsOn (fun s => s.orders.lookup orderId = some order)
      (FoundNoneOpen r orderId order) n := by
  cases r with
  | create env tenantId userId ids body =>
    obtain rfl := Option.some.inj hn
    exact PaymentService.restsOn_create.bind fun _ _ _ h => h
  | start tenantId orderId' paymentId userId =>
    obtain rfl := Option.some.inj hn
    exact RazorpayPaymentsService.restsOn_start.bind fun _ _ _ h => h
  | _ => cases hn

theorem PaymentRequest.look_isSome {r : PaymentRequest} {retires : Bool}
    (h : .opened retires ∈ r.kinds) : ∃ n, r.look = some n := by
  cases r with
  | create => exact ⟨1, rfl⟩
  | start => exact ⟨4, rfl⟩
  | _ => simp [PaymentRequest.kinds] at h

/-- Starting a payment locks the order. -/
theorem PaymentRequest.locksBy {r : PaymentRequest} (hstart : r.isStart = true)
    (htarget : r.target = some orderId) {Inv : Db → Prop} :
    r.program.LocksBy Inv (.order orderId) 1 := by
  cases r with
  | start tenantId orderId' paymentId userId =>
    obtain rfl := Option.some.inj htarget
    exact RazorpayPaymentsService.locksBy_start.bind
  | _ => cases hstart

end PulseOps
