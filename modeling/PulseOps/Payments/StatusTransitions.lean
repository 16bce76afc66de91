import PulseOps.Payments.Runs

/-!
# Status changes of a payment

Confirmations, provider events, refunds and Razorpay completions check the status of a
payment under its row lock, and change it along an edge of `PAYMENT_TRANSITIONS`. Starting
an online payment cancels a stale attempt of the order without a second look: the attempt
may have been completed in the meantime. Where every cancelled attempt is still open, every
committed status change is an edge.

## Main definitions

* `PaymentStatusStep` — a payment keeps its status, or changes it along an edge.
* `staleStillOpen` — the discipline: what a commit cancels is open in the state it commits to.

## Main results

* `PaymentStep.statusStep` — one step.
* `reaches_statusTransitions` — every run.
-/

set_option autoImplicit false

open ReadCommitted Program Contract

namespace PulseOps

open PaymentService

variable {s s' s₀ : Db} {es : List Edit} {rs : List PaymentRequest} {c : Config sales Unit}
  {k : EffectKind} {id : Uuid} {row row' : Payment}

/-- COMPLETED, and everything that can follow. -/
def PaymentStatus.isCaptured : PaymentStatus → Bool
  | .completed => true
  | .partiallyRefunded => true
  | .refunded => true
  | _ => false

/-- The payment `id` keeps its status, or changes it along an edge of
`PAYMENT_TRANSITIONS`. -/
def PaymentStatusStep (id : Uuid) (s s' : Db) : Prop :=
  ∀ row, s.payments.lookup id = some row → ∃ row', s'.payments.lookup id = some row' ∧
    (row'.status = row.status ∨ isValidTransition row.status row'.status = true)

/-- Whether every payment the edits cancel is open in the state `s`. -/
def cancelsOnlyOpen (s : Db) (es : List Edit) : Bool :=
  es.all fun
    | .paymentUpdate id row =>
      row.status ≠ .cancelled ∨ (s.payments.lookup id).all fun found => found.status.isOpen
    | _ => true

/-- An attempt that a commit cancels is still open in the state it commits to. -/
def staleStillOpen : Discipline sales where
  commit s t := cancelsOnlyOpen s t.edits

/-! ### One step -/

/-- An open payment can be completed, can fail and can be cancelled. -/
theorem isValidTransition_of_isOpen {a b : PaymentStatus} (ha : a.isOpen = true)
    (hb : b = .completed ∨ b = .failed ∨ b = .cancelled) : isValidTransition a b = true := by
  revert ha
  rcases hb with rfl | rfl | rfl <;> cases a <;> decide

/-- A captured payment can only be refunded. -/
theorem isCaptured_of_isValidTransition {a b : PaymentStatus} (ha : a.isCaptured = true)
    (h : isValidTransition a b = true) : b.isCaptured = true := by
  revert ha h
  cases a <;> cases b <;> decide

/-- The status a refund leaves is the old one or follows it. -/
theorem refundStatus_transition {a : PaymentStatus} (paymentCents totalAfter : Cents)
    (ha : a = .completed ∨ a = .partiallyRefunded) :
    refundStatus paymentCents totalAfter = a ∨
      isValidTransition a (refundStatus paymentCents totalAfter) = true := by
  unfold refundStatus
  split <;> rcases ha with rfl | rfl <;> decide

/-- What a request that gives up a stale attempt changes, it updates. -/
theorem PaymentEffect.paymentUpdate_mem (h : PaymentEffect s es (.opened true))
    (hrow : s.payments.lookup id = some row)
    (hrow' : (sales.replay es s).payments.lookup id = some row') (hne : row' ≠ row) :
    .paymentUpdate id row' ∈ es := by
  obtain ⟨id₀, row₀, hopening⟩ := h.opening
  have hid : id ≠ id₀ := by
    intro heq
    rw [heq, hopening.fresh] at hrow
    cases hrow
  rcases hopening.others id hid with hkept | ⟨row₁, -, -, hmem⟩
  · rw [hkept, hrow] at hrow'
    exact absurd (Option.some.inj hrow').symm hne
  · obtain rfl := Option.some.inj ((hopening.updates _ _ hmem).symm.trans hrow')
    exact hmem

/-- Every step of a payment is a status step, but for an attempt that is no longer open
when it is cancelled. -/
theorem PaymentStep.statusStep (hstep : PaymentStep id s s' k)
    (hstale : ∀ row, k = .opened true → s.payments.lookup id = some row →
      s'.payments.lookup id = some { row with status := .cancelled } →
      row.status = .cancelled ∨ row.status.isOpen = true) : PaymentStatusStep id s s' := by
  intro row hrow
  cases hstep with
  | kept hkept _ => exact ⟨row, hkept.trans hrow, .inl rfl⟩
  | @settled _ row₀ row' hrow₀ hrow' _ hopen _ hstatus =>
    obtain rfl := Option.some.inj (hrow₀.symm.trans hrow)
    refine ⟨row', hrow', .inr (isValidTransition_of_isOpen hopen ?_)⟩
    rcases hstatus with h | h <;> simp [h]
  | refundEvent hrow₀ hrow' _ hstatus =>
    obtain rfl := Option.some.inj (hrow₀.symm.trans hrow)
    refine ⟨_, hrow', .inr ?_⟩
    rcases hstatus with h | h <;> rw [h] <;> rfl
  | refunded hrow₀ hrow' _ hstatus _ _ _ _ =>
    obtain rfl := Option.some.inj (hrow₀.symm.trans hrow)
    exact ⟨_, hrow', refundStatus_transition _ _ hstatus⟩
  | cancelled hrow₀ hrow' _ =>
    obtain rfl := Option.some.inj (hrow₀.symm.trans hrow)
    refine ⟨_, hrow', ?_⟩
    -- the attempt that is retired was open, unless it was cancelled before
    rcases hstale _ rfl hrow hrow' with h | h
    · exact .inl h.symm
    · exact .inr (isValidTransition_of_isOpen h (by simp))
  | opened hnone _ _ _ _ =>
    rw [hnone] at hrow
    cases hrow
  | sold hnone _ _ _ _ =>
    rw [hnone] at hrow
    cases hrow

/-- What an effect cancels under the discipline was cancelled before, or open. -/
theorem PaymentEffect.open_of_cancelled (h : PaymentEffect s es (.opened true))
    (hopen : cancelsOnlyOpen s es = true) (hrow : s.payments.lookup id = some row)
    (hrow' : (sales.replay es s).payments.lookup id = some { row with status := .cancelled }) :
    row.status = .cancelled ∨ row.status.isOpen = true := by
  by_cases hne : { row with status := .cancelled } = row
  · exact .inl (congrArg Payment.status hne).symm
  · have hmem := h.paymentUpdate_mem hrow hrow' hne
    have hall := List.all_eq_true.mp hopen _ hmem
    exact .inr (by simpa [hrow] using hall)

/-- Every effect is a status step, if what it cancels is open. -/
theorem PaymentEffect.statusStep (h : PaymentEffect s es k) (hok : cancelsOnlyOpen s es = true) :
    PaymentStatusStep id s (sales.replay es s) := by
  apply (h.step id).statusStep
  rintro row rfl hrow hrow'
  exact h.open_of_cancelled hok hrow hrow'

/-! ### Runs -/

/-- Along status steps a captured payment stays captured. -/
theorem isCaptured_of_isChain {older : List Db}
    (hchain : (s :: older).IsChain fun s' s => PaymentStatusStep id s s') (hs' : s' ∈ s :: older)
    (hrow : s'.payments.lookup id = some row) (hcaptured : row.status.isCaptured = true) :
    ∃ row', s.payments.lookup id = some row' ∧ row'.status.isCaptured = true := by
  let T : Db → Db → Prop := fun s s' => ∀ row, s.payments.lookup id = some row →
    row.status.isCaptured = true →
      ∃ row', s'.payments.lookup id = some row' ∧ row'.status.isCaptured = true
  have hT : ∀ s s', PaymentStatusStep id s s' → T s s' := by
    intro s s' hstep row hrow hcaptured
    obtain ⟨row', hrow', hstatus⟩ := hstep row hrow
    refine ⟨row', hrow', ?_⟩
    rcases hstatus with hsame | hedge
    · rw [hsame]
      exact hcaptured
    · exact isCaptured_of_isValidTransition hcaptured hedge
  have hrefl : ∀ s, T s s := fun s row hrow hcaptured => ⟨row, hrow, hcaptured⟩
  have htrans : ∀ s s' s'', T s s' → T s' s'' → T s s'' := by
    intro s s' s'' h h' row hrow hcaptured
    obtain ⟨row', hrow', hcaptured'⟩ := h row hrow hcaptured
    exact h' row' hrow' hcaptured'
  exact rel_of_isChain hrefl htrans (hchain.imp fun s' s => hT s s') s' hs' row hrow hcaptured

/-- In every run in which the attempts that are given up are still open, every committed
status change of a payment is an edge of `PAYMENT_TRANSITIONS`; and a payment that has been
COMPLETED is never CANCELLED or FAILED again. -/
theorem reaches_statusTransitions
    (h : Reaches staleStillOpen (.start s₀ (rs.map PaymentRequest.program)) c) :
    (c.history s₀).IsChain (fun s' s => PaymentStatusStep id s s') ∧
      ∀ s ∈ c.history s₀, ∀ row, s.payments.lookup id = some row → row.status = .completed →
        ∃ row', c.committed.payments.lookup id = some row' ∧ row'.status ≠ .cancelled ∧
          row'.status ≠ .failed := by
  have hchain : (c.history s₀).IsChain (fun s' s => PaymentStatusStep id s s') := by
    refine (reaches_effects (I := fun _ => True) trivial (fun s t k _ _ he hok => ?_) h).2
    exact ⟨trivial, he.statusStep hok⟩
  refine ⟨hchain, fun s hs row hrow hcompleted => ?_⟩
  obtain ⟨older, hhistory⟩ := h.exists_history
  rw [hhistory] at hchain hs
  obtain ⟨row', hrow', hcaptured⟩ :=
    isCaptured_of_isChain hchain hs hrow (by simp [hcompleted, PaymentStatus.isCaptured])
  refine ⟨row', hrow', ?_, ?_⟩ <;> intro heq <;> simp [heq, PaymentStatus.isCaptured] at hcaptured

/-! ### A payment completed while it is given up -/

namespace PaymentSample

/-- A payment in progress with another provider. -/
def attempt : Payment :=
  { tenantId := "shop", orderId := "order", amount := 10000, currency := "INR"
    status := .pending, provider := "mock", providerPaymentId := some "pay_1", metadata := ∅ }

/-- Somebody has begun to pay the order. -/
def attemptedShop : Db :=
  { openShop with payments := (∅ : Table Uuid Payment).insert "payment" attempt }

/-- The shopper presses Pay, and a clerk confirms the payment in progress. -/
def startAndConfirm : List PaymentRequest :=
  [.start "shop" "order" "payment-2" none,
    .confirm {} "shop" "clerk" "c1" { paymentId := some "payment" }]

/-- The confirmation commits before the shopper's request has read anything. -/
def confirmFirst : List (Action sales) :=
  List.replicate 7 (.advance 1) ++ List.replicate 5 (.advance 0)

/-- The shopper's request reads the attempt, and cancels it when it has been confirmed. -/
def confirmBetween : List (Action sales) :=
  List.replicate 5 (.advance 0) ++ List.replicate 7 (.advance 1) ++
    [.advance 0, .reply 0 (.orderCreated "order_2")] ++ List.replicate 3 (.advance 0)

/-- The statuses a payment has had, newest first. -/
def statuses (id : Uuid) (states : List Db) : List (Option PaymentStatus) :=
  states.map fun s => (s.payments.lookup id).map (·.status)

end PaymentSample

open PaymentSample in
/-- The payment is confirmed, and the shopper is told that the order is paid. -/
theorem reaches_statusTransitions_sample :
    ∃ c : Config sales Unit,
      Reaches staleStillOpen
        (.start attemptedShop (startAndConfirm.map PaymentRequest.program)) c ∧
      statuses "payment" (c.history attemptedShop) = [some .completed, some .pending] ∧
      (c.history attemptedShop).IsChain (fun s' s => PaymentStatusStep "payment" s s') := by
  have hrun : (play staleStillOpen attemptedShop startAndConfirm confirmFirst).map
      (fun c => statuses "payment" (c.history attemptedShop)) =
        some [some .completed, some .pending] := by decide +kernel
  obtain ⟨c, hc, hend⟩ := Option.map_eq_some_iff.mp hrun
  have hreach := reaches_play hc
  exact ⟨c, hreach, hend, (reaches_statusTransitions hreach).1⟩

open PaymentSample in
/-- A payment that was COMPLETED becomes CANCELLED. -/
theorem cancelled_after_completed :
    ∃ c : Config sales Unit,
      Reaches (.free sales) (.start attemptedShop (startAndConfirm.map PaymentRequest.program)) c ∧
      statuses "payment" (c.history attemptedShop) =
        [some .cancelled, some .completed, some .pending] ∧
      ¬ (c.history attemptedShop).IsChain (fun s' s => PaymentStatusStep "payment" s s') := by
  have hrun : (play (.free sales) attemptedShop startAndConfirm confirmBetween).map
      (fun c => statuses "payment" (c.history attemptedShop)) =
        some [some .cancelled, some .completed, some .pending] := by decide +kernel
  obtain ⟨c, hc, hend⟩ := Option.map_eq_some_iff.mp hrun
  have hreach := reaches_play hc
  refine ⟨c, hreach, hend, fun hchain => ?_⟩
  obtain ⟨older, hhistory⟩ := hreach.exists_history
  rw [hhistory] at hchain hend
  have hnewest : (c.committed.payments.lookup "payment").map (·.status) = some .cancelled :=
    List.head_eq_of_cons_eq hend
  have hcompleted : some .completed ∈ statuses "payment" (c.committed :: older) := by
    rw [hend]
    simp
  obtain ⟨s, hs, hstatus⟩ := List.mem_map.mp hcompleted
  obtain ⟨row, hrow, hstatus⟩ := Option.map_eq_some_iff.mp hstatus
  obtain ⟨row', hrow', hcaptured⟩ :=
    isCaptured_of_isChain hchain hs hrow (by simp [hstatus, PaymentStatus.isCaptured])
  rw [hrow'] at hnewest
  have hcancelled : row'.status = .cancelled := Option.some.inj hnewest
  simp [hcancelled, PaymentStatus.isCaptured] at hcaptured

end PulseOps
