import PulseOps.Model.Payments
import PulseOps.Tenancy.StockPrograms

/-!
# Payments stay inside the shop

The programs of the payment and Razorpay services, called for one shop, read and write the
payments, transactions and refunds of that shop only. What the providers answer does not
matter, and neither do the ids in the request: a payment of another shop is not found.

The webhooks are not among them. Their event ids are unique over all shops, so the event of
one shop can be turned away because another shop had one with the same id.

## Main results

* `confined_create`, `confined_confirm`, `confined_refund` — `payments.service.js`.
* `confined_start`, `confined_verify` — `razorpay-payments.service.js`.
-/

set_option autoImplicit false

open ReadCommitted Program Parties

namespace PulseOps

variable {owner : Uuid → Uuid} {tenantId : Uuid} {s : Db} {id orderId paymentId userId : Uuid}

/-! ### Reads -/

/-- A test of a row that only rows of the shop pass. -/
theorem any_lookup_keep {κ ρ : Type} [DecidableEq κ] {t : Table κ ρ} {p : κ → ρ → Bool}
    {q : ρ → Bool} {key : κ} (h : ∀ r, q r = true → p key r = true) :
    ((t.keep p).lookup key).any q = (t.lookup key).any q := by
  rw [AList.lookup_keep]
  cases t.lookup key with
  | none => rfl
  | some r =>
    cases hq : q r with
    | false =>
      rw [Option.filter_some]
      split <;> simp [hq]
    | true => simp [hq, h r hq]

theorem credentialsFor_shopView {includeDisabled : Bool} :
    Razorpay.credentialsFor tenantId includeDisabled (s.view tenantId) =
      Razorpay.credentialsFor tenantId includeDisabled s := by
  have hrow : (s.view tenantId).paymentGateways.lookup tenantId =
      s.paymentGateways.lookup tenantId := lookup_keep_own fun _ _ => decide_eq_true rfl
  rw [Razorpay.credentialsFor, hrow, Razorpay.credentialsFor]

theorem findOrder_view :
    ((s.view tenantId).orders.lookup orderId).filter (·.tenantId = tenantId) =
      (s.orders.lookup orderId).filter (·.tenantId = tenantId) :=
  filter_lookup_keep fun _ hshop => hshop

/-- An order the shop finds is one of its own. -/
theorem owner_of_findOrder (hs : Coherent owner s) {order : Order}
    (h : (s.orders.lookup orderId).filter (·.tenantId = tenantId) = some order) :
    owner orderId = tenantId := by
  obtain ⟨hlookup, hshop⟩ := Option.filter_eq_some_iff.mp h
  exact (hs.orders orderId order hlookup).symm.trans (of_decide_eq_true hshop)

namespace PaymentRepository

theorem lookup_view (hs : Coherent owner s) (hid : owner id = tenantId) :
    (s.view tenantId).payments.lookup id = s.payments.lookup id :=
  lookup_keep_own fun row hrow => decide_eq_true ((hs.payments id row hrow).1.trans hid)

theorem findById_view : findById id tenantId (s.view tenantId) = findById id tenantId s := by
  unfold findById
  exact filter_lookup_keep fun _ hshop => hshop

/-- A payment the shop finds is one of its own, and so is its order. -/
theorem owner_of_findById (hs : Coherent owner s) {row : Payment}
    (h : findById id tenantId s = some row) :
    row.tenantId = tenantId ∧ owner id = tenantId ∧ owner row.orderId = tenantId := by
  obtain ⟨hlookup, hshop⟩ := findById_eq_some.mp h
  have hrow := hs.payments id row hlookup
  exact ⟨hshop, hrow.1.symm.trans hshop, hrow.2.symm.trans hshop⟩

theorem findFirst_view {p : Payment → Bool} (h : ∀ row, p row = true → row.tenantId = tenantId) :
    findFirst p (s.view tenantId) = findFirst p s := by
  unfold findFirst
  congr 1
  apply AList.find?_keep
  intro e he
  exact decide_eq_true (h e.2 he)

/-- What a search for payments of the shop finds. -/
theorem owner_of_findFirst (hs : Coherent owner s) {p : Payment → Bool} {found : Uuid × Payment}
    (hp : ∀ row, p row = true → row.tenantId = tenantId) (h : findFirst p s = some found) :
    owner found.1 = tenantId := by
  obtain ⟨hlookup, hfound⟩ := findFirst_eq_some h
  exact (hs.payments found.1 found.2 hlookup).1.symm.trans (hp found.2 hfound)

end PaymentRepository

theorem refundedCents_view :
    refundedCents paymentId tenantId (s.view tenantId) = refundedCents paymentId tenantId s := by
  have hrefunds : completedRefunds paymentId tenantId (s.view tenantId) =
      completedRefunds paymentId tenantId s := by
    apply List.filter_filter_of_imp
    intro r _ hr
    exact decide_eq_true (of_decide_eq_true hr).2.1
  rw [refundedCents, hrefunds, refundedCents]

theorem paymentExists_view :
    Statement.paymentExists id tenantId (s.view tenantId) =
      Statement.paymentExists id tenantId s := by
  unfold Statement.paymentExists
  exact any_lookup_keep fun _ hshop => hshop

/-! ### Writing statements -/

theorem confined_insertPayment {row : Payment} (hrow : row.tenantId = tenantId)
    (hid : owner id = tenantId) (horder : owner row.orderId = tenantId) :
    (shops owner).Confined tenantId (fun _ => True)
      (perform (Statement.insertPayment id row)) := by
  apply confined_perform
  · intro s hs
    have hprovider : ((s.view tenantId).payments.entries.any fun p =>
          row.providerPaymentId.isSome ∧ p.2.tenantId = row.tenantId ∧
            p.2.providerPaymentId = row.providerPaymentId) =
        s.payments.entries.any fun p => row.providerPaymentId.isSome ∧
          p.2.tenantId = row.tenantId ∧ p.2.providerPaymentId = row.providerPaymentId := by
      apply AList.any_keep
      intro p _ hp
      exact decide_eq_true ((of_decide_eq_true hp).2.1.trans hrow)
    change Statement.insertPayment id row (s.view tenantId) = _
    simp only [Statement.insertPayment, hprovider, PaymentRepository.lookup_view hs hid,
      orders_view hs horder]
  · intro s e _ he
    obtain ⟨-, -, rfl⟩ := Statement.insertPayment_eq_ok he
    exact ⟨hrow, hid, horder⟩

/-- An update that leaves the payment with its shop and its order. -/
theorem confined_updatePayment {change : Payment → Payment} (hid : owner id = tenantId)
    (hchange : ∀ row, (change row).tenantId = row.tenantId ∧
      (change row).orderId = row.orderId) :
    (shops owner).Confined tenantId (fun _ => True)
      (perform (Statement.updatePayment id change)) := by
  apply confined_perform
  · intro s hs
    change Statement.updatePayment id change (s.view tenantId) = _
    simp only [Statement.updatePayment, PaymentRepository.lookup_view hs hid]
    cases hlookup : s.payments.lookup id with
    | none => rfl
    | some row =>
      have hrow : row.tenantId = tenantId := (hs.payments id row hlookup).1.trans hid
      have hprovider : ((s.view tenantId).payments.entries.any fun p =>
            p.1 ≠ id ∧ (change row).providerPaymentId.isSome ∧ p.2.tenantId = row.tenantId ∧
              p.2.providerPaymentId = (change row).providerPaymentId) =
          s.payments.entries.any fun p =>
            p.1 ≠ id ∧ (change row).providerPaymentId.isSome ∧ p.2.tenantId = row.tenantId ∧
              p.2.providerPaymentId = (change row).providerPaymentId := by
        apply AList.any_keep
        intro p _ hp
        exact decide_eq_true ((of_decide_eq_true hp).2.2.1.trans hrow)
      simp only [hprovider]
  · intro s e hs he
    obtain ⟨row, hlookup, rfl⟩ := Statement.updatePayment_eq_ok he
    have hrow := hs.payments id row hlookup
    refine ⟨(hchange row).1.trans (hrow.1.trans hid), hid, ?_⟩
    rw [(hchange row).2, ← hrow.2, hrow.1, hid]

theorem confined_insertPaymentTransaction {row : PaymentTransaction}
    (hrow : row.tenantId = tenantId) : (shops owner).Confined tenantId (fun _ => True)
      (perform (Statement.insertPaymentTransaction row)) := by
  apply confined_perform
  · intro s _
    have hprovider : ((s.view tenantId).paymentTransactions.any fun t =>
          row.providerTransactionId.isSome ∧ t.tenantId = row.tenantId ∧
            t.providerTransactionId = row.providerTransactionId) =
        s.paymentTransactions.any fun t => row.providerTransactionId.isSome ∧
          t.tenantId = row.tenantId ∧ t.providerTransactionId = row.providerTransactionId := by
      apply List.any_filter_of_imp
      intro t _ ht
      exact decide_eq_true ((of_decide_eq_true ht).2.1.trans hrow)
    subst hrow
    change Statement.insertPaymentTransaction row (s.view row.tenantId) = _
    simp only [Statement.insertPaymentTransaction, hprovider, paymentExists_view]
  · intro s e _ he
    rw [Statement.insertPaymentTransaction_eq_ok he]
    exact hrow

theorem confined_insertRefund {row : Refund} (hrow : row.tenantId = tenantId) :
    (shops owner).Confined tenantId (fun _ => True) (perform (Statement.insertRefund row)) := by
  apply confined_perform
  · intro s _
    have hprovider : ((s.view tenantId).refunds.any fun r => row.providerRefundId.isSome ∧
          r.tenantId = row.tenantId ∧ r.providerRefundId = row.providerRefundId) =
        s.refunds.any fun r => row.providerRefundId.isSome ∧ r.tenantId = row.tenantId ∧
          r.providerRefundId = row.providerRefundId := by
      apply List.any_filter_of_imp
      intro r _ hr
      exact decide_eq_true ((of_decide_eq_true hr).2.1.trans hrow)
    subst hrow
    change Statement.insertRefund row (s.view row.tenantId) = _
    simp only [Statement.insertRefund, hprovider, paymentExists_view]
  · intro s e _ he
    rw [Statement.insertRefund_eq_ok he]
    exact hrow

/-! ### The generic provider -/

variable {env : Environment}

theorem confined_charge {amount : Cents} {currency : String} :
    (shops owner).Confined tenantId (fun _ => True)
      (PaymentProvider.charge env amount currency orderId tenantId) := by
  unfold PaymentProvider.charge
  split
  · exact confined_ret trivial
  · apply confined_send_bind
    intro r
    cases r with
    | charged id => exact confined_ret trivial
    | unreadable id => exact confined_ret trivial
    | _ => exact confined_raise

namespace PaymentService

theorem confined_create {ids : DrawnIds} {body : CreatePaymentBody}
    (hid : owner ids.payment = tenantId) :
    (shops owner).Confined tenantId (fun _ => True) (create env tenantId userId ids body) := by
  apply confined_query_bind (fun s _ => findOrder_view)
  intro s hs
  apply confined_orRaise_bind
  intro order horder
  have howner := owner_of_findOrder hs horder
  apply confined_require_bind
  intro _
  apply confined_query_bind
  · intro s' _
    apply PaymentRepository.findFirst_view
    intro row hrow
    exact (of_decide_eq_true hrow).2.1
  intro s' _
  apply confined_require_bind
  intro _
  apply confined_require_bind
  intro _
  apply confined_charge.bind
  intro externalProviderId _
  apply Confined.bind (confined_insertPayment ?_ hid ?_)
  · intro _ _
    apply Confined.bind (confined_insertPaymentTransaction ?_)
    · intro _ _
      exact confined_query (fun s _ => PaymentRepository.findById_view) fun _ _ => trivial
    · rfl
  · rfl
  · exact howner

theorem findToConfirm_view {body : ConfirmPaymentBody} :
    findToConfirm tenantId body (s.view tenantId) = findToConfirm tenantId body s := by
  unfold findToConfirm
  split
  · rw [PaymentRepository.findById_view]
  · apply PaymentRepository.findFirst_view
    intro row hrow
    exact (of_decide_eq_true hrow).2
  · rfl

theorem owner_of_findToConfirm (hs : Coherent owner s) {body : ConfirmPaymentBody}
    {found : Uuid × Payment} (h : findToConfirm tenantId body s = some found) :
    owner found.1 = tenantId := by
  unfold findToConfirm at h
  split at h
  · obtain ⟨row, hrow, rfl⟩ := Option.map_eq_some_iff.mp h
    exact (PaymentRepository.owner_of_findById hs hrow).2.1
  · apply PaymentRepository.owner_of_findFirst hs _ h
    intro row hrow
    exact (of_decide_eq_true hrow).2
  · cases h

theorem confined_confirm {transaction : String} {body : ConfirmPaymentBody} :
    (shops owner).Confined tenantId (fun _ => True)
      (confirm env tenantId userId transaction body) := by
  apply confined_query_bind (fun s _ => findToConfirm_view)
  intro s hs
  apply confined_orRaise_bind
  intro payment hpayment
  have hid := owner_of_findToConfirm hs hpayment
  apply confined_require_bind
  intro _
  apply confined_require_bind
  intro _
  apply confined_lockRow_bind
  apply confined_query_bind (fun s _ => PaymentRepository.findById_view)
  intro s' _
  apply confined_orRaise_bind
  intro fresh _
  apply Confined.bind (confined_updatePayment hid ?_)
  · intro _ _
    apply Confined.bind (confined_insertPaymentTransaction ?_)
    · intro _ _
      exact confined_query (fun s _ => PaymentRepository.findById_view) fun _ _ => trivial
    · rfl
  · exact fun _ => ⟨rfl, rfl⟩

theorem confined_sendRefund {payment : Payment} {amount : Cents} {reason : Option String}
    {randomRef : String} (hshop : payment.tenantId = tenantId) :
    (shops owner).Confined tenantId (fun _ => True)
      (sendRefund paymentId payment amount reason randomRef) := by
  unfold sendRefund
  split
  · apply confined_orRaise_bind
    intro razorpayPaymentId _
    subst hshop
    apply confined_query_bind (fun s _ => credentialsFor_shopView)
    intro s _
    apply confined_orRaise_bind
    intro credentials _
    apply confined_send_bind
    intro r
    cases r with
    | refundAccepted id => exact confined_ret trivial
    | unreadable id => exact confined_ret trivial
    | _ => exact confined_raise
  · exact confined_ret trivial

theorem confined_refund {refundId : Uuid} {randomRef : String} {body : RefundBody} :
    (shops owner).Confined tenantId (fun _ => True)
      (refund tenantId userId paymentId refundId randomRef body) := by
  apply confined_query_bind (fun s _ => PaymentRepository.findById_view)
  intro s hs
  apply confined_orRaise_bind
  intro payment hpayment
  obtain ⟨-, hid, -⟩ := PaymentRepository.owner_of_findById hs hpayment
  apply confined_require_bind
  intro _
  apply confined_require_bind
  intro _
  apply confined_query_bind (fun s _ => refundedCents_view)
  intro s₁ _
  apply confined_require_bind
  intro _
  -- the payment is read again under its lock
  apply confined_lockRow_bind
  apply confined_query_bind (fun s _ => PaymentRepository.findById_view)
  intro s₂ hs₂
  apply confined_query_bind (fun s _ => refundedCents_view)
  intro s₃ _
  apply confined_orRaise_bind
  intro fresh hfresh
  apply confined_require_bind
  intro _
  apply confined_require_bind
  intro _
  -- only a Razorpay payment is refunded at the provider
  apply (confined_sendRefund (PaymentRepository.owner_of_findById hs₂ hfresh).1).bind
  intro providerRefundId _
  apply Confined.bind (confined_insertRefund ?_)
  · intro _ _
    apply Confined.bind (confined_insertPaymentTransaction ?_)
    · intro _ _
      apply confined_require_bind
      intro _
      apply Confined.bind (confined_updatePayment hid ?_)
      · intro _ _
        exact confined_query (fun s _ => PaymentRepository.findById_view) fun _ _ => trivial
      · exact fun _ => ⟨rfl, rfl⟩
    · rfl
  · rfl

end PaymentService

/-! ### The shop's Razorpay account -/

namespace RazorpayPaymentsService

theorem confined_openPayment {order : Order} {currency : String} {amountMinor : ℤ}
    {credentials : Razorpay.Credentials} {user : Option Uuid} (hid : owner paymentId = tenantId)
    (horder : owner orderId = tenantId) :
    (shops owner).Confined tenantId (fun _ => True)
      (openPayment tenantId orderId paymentId order currency amountMinor credentials user) := by
  have hsend : (shops owner).Confined tenantId (fun _ => True)
      (Razorpay.createOrder credentials amountMinor currency orderId tenantId orderId) := by
    apply confined_send_bind
    intro r
    cases r with
    | orderCreated id => exact confined_ret trivial
    | unreadable id => exact confined_ret trivial
    | _ => exact confined_raise
  apply hsend.bind
  intro rzpOrderId _
  apply Confined.bind (confined_insertPayment ?_ hid ?_)
  · intro _ _
    apply Confined.bind (confined_insertPaymentTransaction ?_)
    · intro _ _
      exact confined_ret trivial
    · rfl
  · rfl
  · exact horder

theorem confined_start {user : Option Uuid} (hid : owner paymentId = tenantId) :
    (shops owner).Confined tenantId (fun _ => True) (start tenantId orderId paymentId user) := by
  apply confined_query_bind (fun s _ => credentialsFor_shopView)
  intro s₀ _
  apply confined_orRaise_bind
  intro credentials _
  apply confined_lockRow_bind
  apply confined_query_bind (fun s _ => findOrder_view)
  intro s₁ hs₁
  apply confined_orRaise_bind
  intro order horder
  have howner := owner_of_findOrder hs₁ horder
  apply confined_require_bind
  intro _
  apply confined_query_bind
  · intro s _
    apply PaymentRepository.findFirst_view
    intro row hrow
    exact (of_decide_eq_true hrow).2.1
  intro s₂ _
  apply confined_require_bind
  intro _
  apply confined_require_bind
  intro _
  have hmine : ∀ row : Payment, decide (row.orderId = orderId ∧ row.tenantId = tenantId ∧
      row.status.isOpen ∧ row.deleted = false) = true → row.tenantId = tenantId :=
    fun row hrow => (of_decide_eq_true hrow).2.1
  apply confined_query_bind (fun s _ => PaymentRepository.findFirst_view hmine)
  intro s₃ hs₃
  split
  · -- there is no open attempt
    exact confined_openPayment hid howner
  · -- an open attempt is taken up again, or cancelled when it is stale
    rename_i attempt hattempt
    split
    · exact confined_ret trivial
    · have hattemptId := PaymentRepository.owner_of_findFirst hs₃ hmine hattempt
      apply Confined.bind (confined_updatePayment hattemptId ?_)
      · intro _ _
        exact confined_openPayment hid howner
      · exact fun _ => ⟨rfl, rfl⟩

theorem confined_capture {razorpayPaymentId : Option String} {via : String} {user : Option Uuid}
    {fresh : Payment} (hid : owner paymentId = tenantId) :
    (shops owner).Confined tenantId (fun _ => True)
      (capture tenantId paymentId razorpayPaymentId via user fresh) := by
  unfold capture
  split
  · apply Confined.bind (confined_updatePayment hid ?_)
    · intro _ _
      apply confined_insertPaymentTransaction
      rfl
    · exact fun _ => ⟨rfl, rfl⟩
  · split
    · apply confined_insertPaymentTransaction
      rfl
    · exact confined_ret trivial

theorem confined_markPaid {razorpayPaymentId : Option String} {via : String}
    {user : Option Uuid} {inTx : Sql Unit} (hid : owner paymentId = tenantId)
    (hinTx : (shops owner).Confined tenantId (fun _ => True) inTx) :
    (shops owner).Confined tenantId (fun _ => True)
      (markPaid tenantId paymentId razorpayPaymentId via user inTx) := by
  apply confined_lockRow_bind
  apply hinTx.bind
  intro _ _
  apply confined_query_bind (fun s _ => PaymentRepository.findById_view)
  intro s _
  apply confined_orRaise_bind
  intro fresh _
  apply (confined_capture hid).bind
  intro _ _
  exact confined_query (fun s _ => PaymentRepository.findById_view) fun _ _ => trivial

theorem confined_verify {result : CheckoutResult} {customerId user : Option Uuid} :
    (shops owner).Confined tenantId (fun _ => True)
      (verify env tenantId paymentId result customerId user) := by
  apply confined_query_bind
  · intro s hs
    change (PaymentRepository.findById paymentId tenantId (s.view tenantId)).filter _ = _
    rw [PaymentRepository.findById_view]
    cases hfound : PaymentRepository.findById paymentId tenantId s with
    | none => rfl
    | some row =>
      -- the order of the payment is the shop's, whoever the customer is
      obtain ⟨-, -, horder⟩ := PaymentRepository.owner_of_findById hs hfound
      have hview := orders_view hs horder
      change (s.view tenantId).orders.lookup row.orderId = _ at hview
      simp only [Option.filter_some]
      congr 2
      change decide (row.provider = razorpayProvider ∧ row.deleted = false ∧
        (customerId.all fun id =>
          ((s.view tenantId).orders.lookup row.orderId).any fun o => o.customerId = id) = true) = _
      rw [hview]
  intro s hs
  apply confined_orRaise_bind
  intro payment hpayment
  have hid := (PaymentRepository.owner_of_findById hs (Option.filter_eq_some_iff.mp hpayment).1).2.1
  apply confined_query_bind (fun s _ => credentialsFor_shopView)
  intro s' _
  apply confined_orRaise_bind
  intro credentials _
  apply confined_require_bind
  intro _
  exact confined_markPaid hid (confined_ret trivial)

end RazorpayPaymentsService

end PulseOps
