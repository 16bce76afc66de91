import PulseOps.Payments.Runs
import PulseOps.Stock.Requests

/-!
# Which Razorpay payments can be refunded

`refundAtProvider` asks Razorpay to refund the payment id it finds in the metadata of our
payment. A capture writes that id, next to a charge that carries it too. A payment of the
provider `razorpay` can be COMPLETED in other ways: by a clerk's confirmation, by the generic
webhook, and by a counter sale that was paid on a Razorpay QR code, which keeps the id of the
captured payment in another place. Where captures alone complete Razorpay payments, every one
of them can be refunded.

## Main definitions

* `Payment.RefundsUnder` — a refund of the payment reaches Razorpay under this id.
* `Refundable` — a COMPLETED Razorpay payment is refunded under the id it was captured with.
* `completedByCapture` — the discipline: only captures that name the payment complete it.

## Main results

* `PaymentEffect.refundable` — one effect.
* `reaches_refundable` — every run.
-/

set_option autoImplicit false

open ReadCommitted Program

namespace PulseOps

open PaymentService

variable {s s' s₀ : Db} {es : List Edit} {rs : List PaymentRequest} {c : Config sales Unit}
  {k : EffectKind} {id id' : Uuid} {row row' : Payment} {razorpayPaymentId : String}

/-- The charge that was written when Razorpay had captured the money for a payment. -/
structure PaymentTransaction.IsCaptureOf (x : PaymentTransaction) (id : Uuid)
    (razorpayPaymentId : String) : Prop where
  paymentId : x.paymentId = id
  type : x.type = .charge
  status : x.status = .completed
  unnoted : x.noted = false
  byCapture : x.byCapture = true
  captured : x.providerTransactionId = some razorpayPaymentId

/-- A refund of the payment is sent to Razorpay under this id. -/
def Payment.RefundsUnder (row : Payment) (razorpayPaymentId : String) : Prop :=
  ∀ paymentId amount reason, refundAtProvider paymentId row amount reason = do
    let found ← query (Razorpay.credentialsFor row.tenantId true)
    let credentials ← orThrow found "Reconnect Razorpay to refund this payment" 409
      "PAYMENT_GATEWAY_NOT_CONFIGURED"
    Razorpay.refundPayment credentials razorpayPaymentId
      (Razorpay.toMinorUnits amount row.currency) paymentId
      (reason.map fun text => String.ofList (text.toList.take 200))

/-- When the payment `id` is a COMPLETED Razorpay payment, refunds of it are sent under the id
that Razorpay captured. -/
def Refundable (id : Uuid) (s : Db) : Prop :=
  ∀ row, s.payments.lookup id = some row → row.status = .completed →
    row.provider = razorpayProvider → ∃ razorpayPaymentId,
      truthy (row.metadata.str? "razorpayPaymentId") = some razorpayPaymentId ∧
        row.RefundsUnder razorpayPaymentId ∧
          ∃ x ∈ s.paymentTransactions, x.IsCaptureOf id razorpayPaymentId

/-- Whether the edits write the charge of a capture for the payment, with Razorpay's id. -/
def namesCapture (id : Uuid) (es : List Edit) : Bool :=
  es.any fun
    | .paymentTransactionInsert x =>
      x.paymentId = id ∧ x.byCapture ∧ (truthy x.providerTransactionId).isSome
    | _ => false

/-- A Razorpay payment is never written as COMPLETED from the start, and one that becomes
COMPLETED was captured under an id. -/
def completedByCapture : Discipline sales where
  commit _ t := t.edits.all fun
    | .paymentInsert _ row => ¬ (row.status = .completed ∧ row.provider = razorpayProvider)
    | .paymentUpdate id row => row.status = .completed ∧ row.provider = razorpayProvider →
      namesCapture id t.edits
    | _ => true

/-! ### One effect -/

/-- The id is read where a capture writes it. -/
theorem Payment.refundsUnder_of_metadata
    (h : truthy (row.metadata.str? "razorpayPaymentId") = some razorpayPaymentId) :
    row.RefundsUnder razorpayPaymentId := by
  intro paymentId amount reason
  rw [refundAtProvider, h]
  rfl

theorem Payment.str?_capture (row : Payment) (given : Option String) (via : String) :
    (row.capture given via).metadata.str? "razorpayPaymentId" = given := by
  have hne : "razorpayPaymentId" ≠ "paidVia" := by decide
  rw [Payment.capture, Metadata.str?, AList.lookup_insert_ne hne]
  cases given with
  | none => rw [Metadata.set, AList.lookup_erase]
  | some value => rw [Metadata.set, AList.lookup_insert]

/-- A payment that stays as it is. -/
theorem Refundable.kept (h : Refundable id s)
    (hrow : (sales.replay es s).payments.lookup id = s.payments.lookup id) :
    Refundable id (sales.replay es s) := by
  intro row hrow' hstatus hprovider
  obtain ⟨pid, hpid, hunder, x, hx, hcapture⟩ := h row (hrow ▸ hrow') hstatus hprovider
  exact ⟨pid, hpid, hunder, x, mem_transactions_replay hx, hcapture⟩

/-- A payment that is not COMPLETED, or not one of Razorpay's. -/
theorem refundable_of_not (hrow : s.payments.lookup id = some row)
    (hnot : ¬ (row.status = .completed ∧ row.provider = razorpayProvider)) : Refundable id s := by
  intro row' hrow' hstatus hprovider
  obtain rfl := Option.some.inj (hrow.symm.trans hrow')
  exact absurd ⟨hstatus, hprovider⟩ hnot

/-- A payment that is updated without being completed by it. -/
theorem Refundable.update (h : Refundable id s)
    (hpayments : (sales.replay es s).payments = s.payments.insert id' row')
    (hnot : ¬ (row'.status = .completed ∧ row'.provider = razorpayProvider)) :
    Refundable id (sales.replay es s) := by
  rcases lookup_insert_cases s.payments id' id row' with ⟨rfl, hlookup⟩ | ⟨-, hlookup⟩
  · exact refundable_of_not (hpayments ▸ hlookup) hnot
  · exact h.kept (hpayments ▸ hlookup)

/-- What captures write is among the charges of the transaction. -/
theorem namesCapture_spec {xs : List PaymentTransaction}
    (hcore : coreEdits es = .paymentUpdate id row :: xs.map chargeEdit)
    (h : namesCapture id es = true) :
    ∃ x ∈ xs, x.byCapture = true ∧ ∃ pid, truthy x.providerTransactionId = some pid := by
  obtain ⟨e, he, hcapture⟩ := List.any_eq_true.mp h
  cases e with
  | paymentTransactionInsert x =>
    have hmem : .paymentTransactionInsert x ∈ coreEdits es := List.mem_filter.mpr ⟨he, rfl⟩
    rw [hcore] at hmem
    obtain ⟨-, hvia, hid⟩ := of_decide_eq_true hcapture
    have hx : x ∈ xs := by simpa [chargeEdit] using hmem
    exact ⟨x, hx, hvia, Option.isSome_iff_exists.mp hid⟩
  | _ => cases hcapture

theorem truthy_eq_some {given : Option String} {value : String} (h : truthy given = some value) :
    given = some value := (Option.filter_eq_some_iff.mp h).1

/-- Every effect keeps Razorpay payments refundable, when captures alone complete them. -/
theorem PaymentEffect.refundable (he : PaymentEffect s es k)
    (hinsert : ∀ id row, .paymentInsert id row ∈ es →
      ¬ (row.status = .completed ∧ row.provider = razorpayProvider))
    (hupdate : ∀ id row, .paymentUpdate id row ∈ es → row.status = .completed →
      row.provider = razorpayProvider → namesCapture id es = true)
    (h : Refundable id s) : Refundable id (sales.replay es s) := by
  -- a payment that was completed without a capture is not one of Razorpay's
  have huncaptured {id' : Uuid} {row' : Payment} {xs : List PaymentTransaction}
      (hcore : coreEdits es = .paymentUpdate id' row' :: xs.map chargeEdit)
      (hvia : ∀ x ∈ xs, x.byCapture = false) :
      ¬ (row'.status = .completed ∧ row'.provider = razorpayProvider) := by
    rintro ⟨hstatus, hprovider⟩
    have hmem : .paymentUpdate id' row' ∈ es :=
      mem_of_mem_coreEdits (hcore ▸ List.mem_cons_self)
    obtain ⟨x, hx, hcapture, -⟩ := namesCapture_spec hcore (hupdate id' row' hmem hstatus hprovider)
    rw [hvia x hx] at hcapture
    cases hcapture
  cases he with
  | note hcore => exact h.kept (congrArg _ (payments_replay hcore))
  | late hcore _ _ => exact h.kept (congrArg _ (payments_replay hcore))
  | @confirm id' row status providerPaymentId x hcore hrow hopen hstatus hcharge hvia =>
    have hcharged : coreEdits es =
        .paymentUpdate id' { row with status, providerPaymentId } :: [x].map chargeEdit := hcore
    refine h.update (payments_replay hcore) (huncaptured hcharged fun y hy => ?_)
    obtain rfl := List.mem_singleton.mp hy
    exact hvia
  | @event id' row status xs event details hcore hrow hopen hstatus hlength hcharge _ _ _ =>
    exact h.update (payments_of_update hcore)
      (huncaptured hcore fun x hx => (hcharge x hx).uncaptured)
  | @capture id' row given via x hcore hrow hopen hcharge hid =>
    have hpayments : (sales.replay es s).payments =
        s.payments.insert id' (row.capture given via) := payments_replay hcore
    rcases lookup_insert_cases s.payments id' id (row.capture given via) with
      ⟨rfl, hlookup⟩ | ⟨-, hlookup⟩
    · intro row' hrow' hstatus hprovider
      rw [hpayments, hlookup] at hrow'
      obtain rfl := Option.some.inj hrow'
      have hmem : .paymentUpdate id (row.capture given via) ∈ es :=
        mem_of_mem_coreEdits (hcore ▸ List.mem_cons_self)
      -- the id is on the charge, and the charge is the one of this capture
      have hcharged : coreEdits es =
          .paymentUpdate id (row.capture given via) :: [x].map chargeEdit := hcore
      obtain ⟨y, hy, hvia, pid, hpid⟩ := namesCapture_spec hcharged
        (hupdate id _ hmem hstatus hprovider)
      obtain rfl := List.mem_singleton.mp hy
      have hread :
          truthy ((row.capture given via).metadata.str? "razorpayPaymentId") = some pid := by
        rw [Payment.str?_capture, ← hid, hpid]
      have hwritten : y ∈ (sales.replay es s).paymentTransactions := by
        rw [transactions_replay hcore]
        exact List.mem_append_right _ List.mem_cons_self
      exact ⟨pid, hread, Payment.refundsUnder_of_metadata hread, y, hwritten, hcharge.paymentId,
        hcharge.type, hcharge.status, hcharge.unnoted, hvia, truthy_eq_some hpid⟩
    · exact h.kept (hpayments ▸ hlookup)
  | refundEvent hcore _ _ _ _ _ =>
    refine h.update (payments_of_update hcore) ?_
    rintro ⟨hstatus, -⟩
    cases hstatus
  | refund hcore _ _ _ _ _ _ _ _ =>
    refine h.update (payments_replay hcore) ?_
    rintro ⟨hstatus, -⟩
    change refundStatus _ _ = .completed at hstatus
    unfold refundStatus at hstatus
    split at hstatus <;> cases hstatus
  | @opened stale p order hcore hstale hfresh horder hamount hpos hstatus =>
    have heffect : PaymentEffect s es (.opened stale.isSome) :=
      .opened hcore hstale hfresh horder hamount hpos hstatus
    obtain ⟨id₀, row₀, hopening⟩ := heffect.opening
    by_cases hid : id = id₀
    · subst hid
      refine refundable_of_not hopening.lookup ?_
      rintro ⟨hcompleted, -⟩
      rw [hopening.status] at hcompleted
      cases hcompleted
    · rcases hopening.others id hid with hkept | ⟨row, hrow, -, hmem⟩
      · exact h.kept hkept
      · refine refundable_of_not (hopening.updates _ _ hmem) ?_
        rintro ⟨hcompleted, -⟩
        cases hcompleted
  | @sale orderId order paid hcore hfresh hnew hids hpaid htotal =>
    have hpayments : (sales.replay es s).payments =
        (sales.replay (paid.flatMap NewPayment.edits)
          (s.apply (.orderInsert orderId order))).payments := by
      rw [payments_replay hcore, Database.replay_cons, Database.replay_append]
      rfl
    rcases lookup_payments_inserts id hids (s.apply (.orderInsert orderId order)) with
      ⟨p, hp, rfl, hlookup⟩ | hlookup
    · have hmem : .paymentInsert p.id p.row ∈ es := by
        apply mem_of_mem_coreEdits
        rw [hcore]
        refine List.mem_cons_of_mem _ (List.mem_append_left _ (List.mem_flatMap.mpr ⟨p, hp, ?_⟩))
        exact List.mem_cons_self
      exact refundable_of_not (hpayments ▸ hlookup) (hinsert p.id p.row hmem)
    · exact h.kept (hpayments ▸ hlookup)

/-- In every run in which captures alone complete Razorpay payments, each of them can be
refunded under the id it was captured with. -/
theorem reaches_refundable (hs : Refundable id s₀)
    (h : Reaches completedByCapture (.start s₀ (rs.map PaymentRequest.program)) c) :
    ∀ s ∈ c.history s₀, Refundable id s := by
  refine reaches_invariant hs (fun s t k hI _ he hok => ?_) h
  have hall := List.all_eq_true.mp hok
  refine he.refundable (fun id row hmem => of_decide_eq_true (hall _ hmem))
    (fun id row hmem hstatus hprovider => ?_) hI
  exact of_decide_eq_true (hall _ hmem) ⟨hstatus, hprovider⟩

/-! ### A counter sale paid on a QR code -/

namespace PaymentSample

/-- A shop with a shirt for a rupee, and an account at Razorpay. -/
def counterShop : Db :=
  { Sample.shop with paymentGateways := openShop.paymentGateways }

/-- One shirt, paid on a QR code. -/
def qrSale : PaymentRequest :=
  .sale { defaultGstRatePercent := 0 } "shop" "clerk" "order" "customer" "register"
    { warehouseId := some "north"
      items := [{ variantId := "shirt", quantity := 1 }]
      payments := [{ method := .upi, amount := 100, razorpayQrId := some "qr_1"
                     ids := ⟨"payment", "c1", "t1"⟩ }] }

/-- Razorpay answers that a rupee was received. -/
def sellOnQr : List (Action sales) :=
  List.replicate 2 (.advance 0) ++ [.reply 0 (.qrReceived [⟨"pay_1", true, 100, none⟩])] ++
    List.replicate 25 (.advance 0)

/-- The status and the provider of the payment, and the id a refund would be sent under. -/
def refundsUnder (s : Db) : Option (PaymentStatus × String × Option String) :=
  (s.payments.lookup "payment").map fun row =>
    (row.status, row.provider, truthy (row.metadata.str? "razorpayPaymentId"))

theorem refundable_begunShop : Refundable "payment" begunShop := by
  have hrow : begunShop.payments.lookup "payment" = some begun := rfl
  refine refundable_of_not hrow ?_
  rintro ⟨hstatus, -⟩
  cases hstatus

theorem refundable_counterShop : Refundable "payment" counterShop := by
  intro row hrow
  cases hrow

end PaymentSample

open PaymentSample in
/-- A payment that Razorpay captured. -/
theorem reaches_refundable_sample :
    ∃ c : Config sales Unit,
      Reaches completedByCapture (.start begunShop ([verifyBegun].map PaymentRequest.program)) c ∧
      refundsUnder c.committed = some (.completed, razorpayProvider, some "pay_1") ∧
      ∀ s ∈ c.history begunShop, Refundable "payment" s := by
  have hrun : (play completedByCapture begunShop [verifyBegun] (List.replicate 8 (.advance 0))).map
      (fun c => refundsUnder c.committed) =
        some (some (.completed, razorpayProvider, some "pay_1")) := by decide +kernel
  obtain ⟨c, hc, hend⟩ := Option.map_eq_some_iff.mp hrun
  have hreach := reaches_play hc
  exact ⟨c, hreach, hend, reaches_refundable refundable_begunShop hreach⟩

open PaymentSample in
/-- The payment of a counter sale has no id that a refund could be sent under. -/
theorem qrSale_not_refundable :
    Refundable "payment" counterShop ∧ ∃ c : Config sales Unit,
      Reaches (.free sales) (.start counterShop ([qrSale].map PaymentRequest.program)) c ∧
        ¬ Refundable "payment" c.committed := by
  have hrun : (play (.free sales) counterShop [qrSale] sellOnQr).map
      (fun c => refundsUnder c.committed) =
        some (some (.completed, razorpayProvider, none)) := by decide +kernel
  obtain ⟨c, hc, hend⟩ := Option.map_eq_some_iff.mp hrun
  refine ⟨refundable_counterShop, c, reaches_play hc, fun hrefundable => ?_⟩
  obtain ⟨row, hrow, heq⟩ := Option.map_eq_some_iff.mp hend
  obtain ⟨hstatus, heq⟩ := Prod.mk.inj heq
  obtain ⟨hprovider, hid⟩ := Prod.mk.inj heq
  obtain ⟨pid, hpid, -⟩ := hrefundable row hrow hstatus hprovider
  rw [hid] at hpid
  cases hpid

end PulseOps
