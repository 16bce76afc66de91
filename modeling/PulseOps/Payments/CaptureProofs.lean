import PulseOps.Payments.Runs

/-!
# Requests that report a captured payment

The browser and Razorpay's webhook report the same payment, in any order and any number of
times. A checkout result proves that the money was captured when its signature is right, and
an event when it says so and is over the amount that was asked for. While only such reports
write the payment, its row is as it was opened or as one capture left it, and what a request
does to it follows from its proof.

## Main definitions

* `PaymentRequest.ReportsOn` — checkout results and events for one payment.
* `PaymentRequest.delivered` — the event of a delivery that Razorpay signed.
* `PaymentRequest.proof` — the Razorpay payment id that a report proves captured.
* `captureContract` — what reports agree on.
* `Handled` — what a report has done by the time it commits.

## Main results

* `PaymentRequest.handled` — every report does what follows from its proof.
* `Handled.guarantee` — what it owes the others.
-/

set_option autoImplicit false

open ReadCommitted Program Contract

namespace PulseOps

open PaymentService RazorpayPaymentsService

variable {s s' s₀ : Db} {t : Transaction sales} {es : List Edit} {R : Discipline sales}
  {id tenantId : Uuid} {row row₀ : Payment} {r : PaymentRequest}

/-! ### Reports -/

/-- A checkout result or an event for the payment `id`. -/
def PaymentRequest.ReportsOn (id : Uuid) (row : Payment) : PaymentRequest → Prop
  | verify _ _ paymentId _ _ _ => paymentId = id
  | razorpayWebhook _ tenantId _ parsed _ _ => tenantId = row.tenantId ∧
      ∀ event ∈ parsed, ∃ orderId, truthy (event.entity.bind (·.orderId)) = some orderId ∧
        row.providerPaymentId = some orderId
  | _ => False

/-- An event that Razorpay signed, with the id it is recorded under. -/
def PaymentRequest.delivered (s : Db) : PaymentRequest → Option (String × RazorpayEvent)
  | razorpayWebhook env tenantId rawBody parsed signature eventIdHeader =>
    if rawBody ≠ "" ∧ (Razorpay.credentialsFor tenantId true s).any fun credentials =>
        (truthy credentials.webhookSecret).any fun secret =>
          Razorpay.webhookSignatureValid env secret rawBody signature then
      parsed.map fun event =>
        ("razorpay:" ++ (truthy eventIdHeader).getD (env.sha256 rawBody), event)
    else none
  | _ => none

/-- What an event proves of the payment: a paid event, over the amount asked for. -/
def eventProof (event : RazorpayEvent) (row : Payment) : Option (Option String × String) :=
  (event.entity.filter fun entity => (event.event.any fun name => name ∈ paidEvents) ∧
    entity.amount.isSome ∧ entity.amount = expectedMinor row).map fun entity =>
      (entity.id, "webhook")

/-- The Razorpay payment id a report proves captured for the payment, and the way the report
came: a checkout result that Razorpay signed, or a paid event over the amount asked for. -/
def PaymentRequest.proof (s : Db) (id : Uuid) (row : Payment) (r : PaymentRequest) :
    Option (Option String × String) :=
  match r with
  | verify env tenantId paymentId result customerId _ =>
    if paymentId = id ∧ row.tenantId = tenantId ∧ row.provider = razorpayProvider ∧
        row.deleted = false ∧
        (customerId.all fun id => (s.orders.lookup row.orderId).any fun o => o.customerId = id) ∧
        row.providerPaymentId = some result.razorpayOrderId ∧
        (Razorpay.credentialsFor tenantId true s).any fun credentials =>
          Razorpay.checkoutSignatureValid env credentials.keySecret result.razorpayOrderId
            result.razorpayPaymentId result.razorpaySignature then
      some (some result.razorpayPaymentId, "checkout")
    else none
  | _ => (r.delivered s).bind fun delivery => eventProof delivery.2 row

theorem PaymentRequest.proof_of_delivered {delivery : String × RazorpayEvent}
    (h : r.delivered s = some delivery) : r.proof s id row = eventProof delivery.2 row := by
  cases r with
  | razorpayWebhook env tenantId rawBody parsed signature eventIdHeader =>
    change (PaymentRequest.delivered s _).bind _ = _
    rw [h]
    rfl
  | _ => cases h

/-! ### The contract -/

/-- The row of the payment as it was, or as a capture left it. -/
def Payment.Version (row₀ row : Payment) : Prop :=
  row = row₀ ∨ ∃ razorpayPaymentId via, row = row₀.capture razorpayPaymentId via

/-- While reports for the payment `id` commit, only its row changes. -/
structure UnderCapture (s₀ : Db) (id : Uuid) (row₀ : Payment) (s : Db) : Prop where
  gateways : s.paymentGateways = s₀.paymentGateways
  orders : s.orders = s₀.orders
  others : ∀ id', id' ≠ id → s.payments.lookup id' = s₀.payments.lookup id'
  version : ∃ row, s.payments.lookup id = some row ∧ row₀.Version row

/-- The lock on the payment keeps its row. -/
def captureContract (s₀ : Db) (id : Uuid) (row₀ : Payment) : Contract sales where
  inv := UnderCapture s₀ id row₀
  evolves _ _ := True
  agree key s s' := key = .payment id → s.payments.lookup id = s'.payments.lookup id
  evolves_refl _ := trivial
  evolves_trans _ _ := trivial
  agree_refl _ _ _ := rfl
  agree_trans h h' hid := (h hid).trans (h' hid)

/-- What a capture keeps of a payment. -/
theorem Payment.Version.spec (h : row₀.Version row) : row₀.Same row ∧
    row.providerPaymentId = row₀.providerPaymentId ∧ row.deleted = row₀.deleted ∧
      expectedMinor row = expectedMinor row₀ := by
  rcases h with rfl | ⟨pid, via, rfl⟩
  · exact ⟨.refl row, rfl, rfl, rfl⟩
  · refine ⟨.capture _ _ _, rfl, rfl, ?_⟩
    have hvia : "amountMinor" ≠ "paidVia" := by decide
    have hid : "amountMinor" ≠ "razorpayPaymentId" := by decide
    have hlookup : (row₀.capture pid via).metadata.lookup "amountMinor" =
        row₀.metadata.lookup "amountMinor" := by
      rw [Payment.capture, AList.lookup_insert_ne hvia]
      cases pid with
      | none => exact AList.lookup_erase_ne hid
      | some value => exact AList.lookup_insert_ne hid
    rw [expectedMinor, hlookup]
    rfl

/-! ### What a report does -/

/-- Nothing was written but the record of the event. -/
structure Noted (s₀ : Db) (r : PaymentRequest) (t : Transaction sales) : Prop where
  core : coreEdits t.edits = []
  events : ∀ row, .paymentWebhookEventInsert row ∈ t.edits →
    ∃ event, r.delivered s₀ = some (row.eventId, event)

/-- What the request `r` has done by the time it commits. -/
inductive Handled (s₀ : Db) (id : Uuid) (row₀ : Payment) (r : PaymentRequest)
    (t : Transaction sales) (s : Db) : Prop
  | noted (hproof : r.proof s₀ id row₀ = none) (hnoted : Noted s₀ r t) : Handled s₀ id row₀ r t s
  | late {razorpayPaymentId : Option String} {via : String} {row : Payment}
      (hproof : r.proof s₀ id row₀ = some (razorpayPaymentId, via))
      (hheld : Key.payment id ∈ t.held) (hrow : s.payments.lookup id = some row)
      (hclosed : row.status.isOpen = false)
      (hcore : ∃ xs : List PaymentTransaction, coreEdits t.edits = xs.map chargeEdit) :
      Handled s₀ id row₀ r t s
  | captured {razorpayPaymentId : Option String} {via : String} {row : Payment}
      {x : PaymentTransaction}
      (hproof : r.proof s₀ id row₀ = some (razorpayPaymentId, via))
      (hheld : Key.payment id ∈ t.held) (hrow : s.payments.lookup id = some row)
      (hopen : row.status.isOpen = true) (hcore : coreEdits t.edits =
        [.paymentUpdate id (row.capture razorpayPaymentId via), chargeEdit x]) :
      Handled s₀ id row₀ r t s

theorem Handled.stable : (captureContract s₀ id row₀).Stable (Handled s₀ id row₀ r) := by
  intro t s s' _ h hr
  have hlookup (hheld : Key.payment id ∈ t.held) :
      s.payments.lookup id = s'.payments.lookup id := hr.agree _ hheld rfl
  cases h with
  | noted hproof hnoted => exact .noted hproof hnoted
  | late hproof hheld hrow hclosed hcore =>
    exact .late hproof hheld ((hlookup hheld).symm.trans hrow) hclosed hcore
  | captured hproof hheld hrow hopen hcore =>
    exact .captured hproof hheld ((hlookup hheld).symm.trans hrow) hopen hcore

theorem gateways_replay (es : List Edit) (s : Db) :
    (sales.replay es s).paymentGateways = s.paymentGateways := by
  refine Database.replay_frame (D := sales) (fun s : Db => s.paymentGateways)
    (fun e _ s => ?_) s
  cases e <;> rfl

/-- Edits that leave the payments and the orders as they are. -/
theorem UnderCapture.kept (h : UnderCapture s₀ id row₀ s)
    (hpayments : (sales.replay es s).payments = s.payments)
    (horders : (sales.replay es s).orders = s.orders) :
    UnderCapture s₀ id row₀ (sales.replay es s) where
  gateways := (gateways_replay es s).trans h.gateways
  orders := horders.trans h.orders
  others id' hid := hpayments ▸ h.others id' hid
  version := hpayments ▸ h.version

theorem replay_core_charges
    (hcore : ∃ xs : List PaymentTransaction, coreEdits es = xs.map chargeEdit) :
    (sales.replay es s).payments = s.payments ∧ (sales.replay es s).orders = s.orders := by
  obtain ⟨xs, hcore⟩ := hcore
  rw [payments_replay hcore, orders_replay hcore, replay_charges]
  exact ⟨rfl, rfl⟩

/-- A second capture would leave what a first one does. -/
theorem Payment.Version.capture (h : row₀.Version row) (hopen : row.status.isOpen = true) :
    row = row₀ := by
  rcases h with rfl | ⟨pid, via, rfl⟩
  · rfl
  · cases hopen

/-- What a report owes the others. -/
theorem Handled.guarantee (h : Handled s₀ id row₀ r t s) (hs : UnderCapture s₀ id row₀ s) :
    (captureContract s₀ id row₀).Guarantee R t s := by
  cases h with
  | noted _ hnoted =>
    obtain ⟨hpayments, horders⟩ := replay_core_charges (s := s) ⟨[], hnoted.core⟩
    exact ⟨hs.kept hpayments horders, trivial, fun _ _ _ _ => congrArg _ hpayments.symm⟩
  | late _ _ _ _ hcore =>
    obtain ⟨hpayments, horders⟩ := replay_core_charges (s := s) hcore
    exact ⟨hs.kept hpayments horders, trivial, fun _ _ _ _ => congrArg _ hpayments.symm⟩
  | @captured pid via row x _ hheld hrow hopen hcore =>
    have hpayments : (t.view s).payments = s.payments.insert id (row.capture pid via) :=
      payments_replay hcore
    refine ⟨⟨?_, ?_, fun id' hid => ?_, row₀.capture pid via, ?_, .inr ⟨pid, via, rfl⟩⟩, trivial,
      fun key hkey _ hid => absurd (hid ▸ hheld) hkey⟩
    · exact (gateways_replay t.edits s).trans hs.gateways
    · exact (orders_replay hcore).trans hs.orders
    · rw [hpayments, AList.lookup_insert_ne hid, hs.others id' hid]
    · obtain ⟨row', hrow', hversion⟩ := hs.version
      obtain rfl := Option.some.inj (hrow.symm.trans hrow')
      rw [hpayments, AList.lookup_insert, hversion.capture hopen]

/-! ### The triples -/

/-- The report holds the lock on the payment. -/
def Locked (s₀ : Db) (id : Uuid) (r : PaymentRequest) (t : Transaction sales) (_ : Db) : Prop :=
  Key.payment id ∈ t.held ∧ Noted s₀ r t

theorem Locked.stable : (captureContract s₀ id row₀).Stable (Locked s₀ id r) := fun _ _ _ _ h _ => h

theorem Noted.stable : (captureContract s₀ id row₀).Stable fun t _ => Noted s₀ r t :=
  fun _ _ _ _ h _ => h

theorem Noted.view (h : Noted s₀ r t) (s : Db) :
    (t.view s).payments = s.payments ∧ (t.view s).orders = s.orders :=
  replay_core_charges ⟨[], h.core⟩

theorem Noted.lock (h : Noted s₀ r t) (k : Key) : Noted s₀ r (t.lock k) := ⟨h.core, h.events⟩

/-- Recording the event. -/
theorem Noted.record {event : PaymentWebhookEvent} (h : Noted s₀ r t)
    (hevent : ∃ delivered, r.delivered s₀ = some (event.eventId, delivered)) :
    Noted s₀ r (t.write (.paymentWebhookEventInsert event)) where
  core := by
    rw [Transaction.edits_write, coreEdits_append, h.core]
    rfl
  events row hmem := by
    rw [Transaction.edits_write] at hmem
    rcases List.mem_append.mp hmem with hmem | hmem
    · exact h.events row hmem
    · obtain rfl := Edit.paymentWebhookEventInsert.inj (List.mem_singleton.mp hmem)
      exact hevent

theorem triple_recordNoted {event : PaymentWebhookEvent}
    (hevent : ∃ delivered, r.delivered s₀ = some (event.eventId, delivered)) :
    (captureContract s₀ id row₀).Triple R (fun t _ => Noted s₀ r t)
      (perform (Statement.insertPaymentWebhookEvent event)) fun _ t _ => Noted s₀ r t := by
  refine Triple.perform Noted.stable Noted.stable fun t s e _ h he _ => ?_
  obtain rfl := Statement.insertPaymentWebhookEvent_eq_ok he
  exact h.record hevent

theorem triple_recordLocked {event : PaymentWebhookEvent}
    (hevent : ∃ delivered, r.delivered s₀ = some (event.eventId, delivered)) :
    (captureContract s₀ id row₀).Triple R (Locked s₀ id r)
      (perform (Statement.insertPaymentWebhookEvent event)) fun _ => Locked s₀ id r := by
  refine Triple.perform Locked.stable Locked.stable fun t s e _ h he _ => ?_
  obtain rfl := Statement.insertPaymentWebhookEvent_eq_ok he
  exact ⟨List.mem_append_right _ h.1, h.2.record hevent⟩

/-- The row was read again under the lock. -/
def Reread (s₀ : Db) (id : Uuid) (r : PaymentRequest) (fresh : Payment)
    (t : Transaction sales) (s : Db) : Prop :=
  Locked s₀ id r t s ∧ s.payments.lookup id = some fresh

theorem Reread.stable {fresh : Payment} :
    (captureContract s₀ id row₀).Stable (Reread s₀ id r fresh) :=
  fun _ _ _ _ h hr => ⟨h.1, (hr.agree _ h.1.1 rfl).symm.trans h.2⟩

/-- The payment was updated under its lock. -/
def Captured (id : Uuid) (fresh row : Payment) (t : Transaction sales) (s : Db) : Prop :=
  Key.payment id ∈ t.held ∧ s.payments.lookup id = some fresh ∧
    coreEdits t.edits = [.paymentUpdate id row]

theorem Captured.stable {fresh row : Payment} :
    (captureContract s₀ id row₀).Stable (Captured id fresh row) :=
  fun _ _ _ _ h hr => ⟨h.1, (hr.agree _ h.1 rfl).symm.trans h.2.1, h.2.2⟩

/-- Writing a charge. -/
theorem coreEdits_charge (h : coreEdits t.edits = es) (x : PaymentTransaction) :
    coreEdits (t.write (.paymentTransactionInsert x)).edits = es ++ [chargeEdit x] := by
  rw [Transaction.edits_write, coreEdits_append, h]
  rfl

theorem triple_capturePayment {razorpayPaymentId : Option String} {via : String}
    {user : Option Uuid} {fresh : Payment}
    (hproof : r.proof s₀ id row₀ = some (razorpayPaymentId, via)) :
    (captureContract s₀ id row₀).Triple R (Reread s₀ id r fresh)
      (capture tenantId id razorpayPaymentId via user fresh) fun _ => Handled s₀ id row₀ r := by
  unfold capture
  split
  · -- the payment is open, and is captured
    rename_i hopen
    refine Triple.bind (Q := fun _ => Captured id fresh (fresh.capture razorpayPaymentId via))
      (Triple.perform Reread.stable Captured.stable fun t s e _ h he _ => ?_) fun _ =>
        Triple.perform Captured.stable Handled.stable fun t s e _ h he _ => ?_
    · obtain ⟨⟨hheld, hnoted⟩, hrow⟩ := h
      obtain ⟨row, hlookup, rfl⟩ := Statement.updatePayment_eq_ok he
      rw [(hnoted.view s).1, hrow] at hlookup
      obtain rfl := Option.some.inj hlookup
      refine ⟨List.mem_append_right _ hheld, hrow, ?_⟩
      rw [Transaction.edits_write, coreEdits_append, hnoted.core]
      rfl
    · obtain ⟨hheld, hrow, hcore⟩ := h
      obtain rfl := Statement.insertPaymentTransaction_eq_ok he
      exact .captured hproof (List.mem_append_right _ hheld) hrow hopen (coreEdits_charge hcore _)
  rename_i hopen
  -- it is closed already: at most a note is written
  have hclosed : fresh.status.isOpen = false := by simpa using hopen
  split
  · refine Triple.perform Reread.stable Handled.stable fun t s e _ h he _ => ?_
    obtain ⟨⟨hheld, hnoted⟩, hrow⟩ := h
    obtain rfl := Statement.insertPaymentTransaction_eq_ok he
    exact .late hproof (List.mem_append_right _ hheld) hrow hclosed
      ⟨[_], coreEdits_charge hnoted.core _⟩
  · refine (Triple.readsOnly (.ret ()) Reread.stable).post fun _ t s h => ?_
    exact .late hproof h.1.1 h.2 hclosed ⟨[], h.1.2.core⟩

theorem triple_markPaidOnce {razorpayPaymentId : Option String} {via : String}
    {user : Option Uuid} {inTx : Sql Unit}
    (hproof : r.proof s₀ id row₀ = some (razorpayPaymentId, via))
    (hinTx : (captureContract s₀ id row₀).Triple R (Locked s₀ id r) inTx fun _ => Locked s₀ id r) :
    (captureContract s₀ id row₀).Triple R (fun t _ => Noted s₀ r t)
      (markPaid tenantId id razorpayPaymentId via user inTx) fun _ => Handled s₀ id row₀ r := by
  refine Triple.lockRow_held_bind (A := Locked s₀ id r) Noted.stable (fun t s hs h => ?_)
    (fun t s _ h => ⟨List.mem_cons_self, h.lock _⟩) (hinTx.bind fun _ => ?_)
  · obtain ⟨row, hrow, -⟩ := hs.version
    change ((t.view s).payments.lookup id).isSome = true
    rw [(h.view s).1, hrow]
    rfl
  refine Triple.query_bind (A := fun reread t s => Locked s₀ id r t s ∧
      ∀ fresh, reread = some fresh → s.payments.lookup id = some fresh)
    Locked.stable (fun t s _ h => ⟨h, fun fresh hfresh => ?_⟩) fun reread => ?_
  · have hlookup := (PaymentRepository.findById_eq_some.mp hfresh).1
    rwa [(h.2.view s).1] at hlookup
  refine Triple.orRaise_bind fun fresh hfresh => ?_
  exact ((triple_capturePayment hproof).bind fun _ =>
    Triple.readsOnly (.query _) Handled.stable).pre fun t s _ h => ⟨h.1, h.2 fresh hfresh⟩

theorem credentialsFor_view (hs : UnderCapture s₀ id row₀ s) (t : Transaction sales)
    (includeDisabled : Bool) : Razorpay.credentialsFor tenantId includeDisabled (t.view s) =
      Razorpay.credentialsFor tenantId includeDisabled s₀ := by
  have hgateways : (t.view s).paymentGateways = s₀.paymentGateways :=
    (gateways_replay t.edits s).trans hs.gateways
  rw [Razorpay.credentialsFor, hgateways]
  rfl

/-- A read that tells something about the payment, or about the start. -/
theorem triple_readNoted {γ β : Type} {C : γ → Prop} {q : Db → γ} {f : γ → Sql β}
    {Q : β → Transaction sales → Db → Prop}
    (hread : ∀ t s, UnderCapture s₀ id row₀ s → Noted s₀ r t → C (q (t.view s)))
    (hf : ∀ a, C a → (captureContract s₀ id row₀).Triple R (fun t _ => Noted s₀ r t) (f a) Q) :
    (captureContract s₀ id row₀).Triple R (fun t _ => Noted s₀ r t) (query q >>= f) Q :=
  Triple.query_bind (A := fun a t _ => C a ∧ Noted s₀ r t) Noted.stable
    (fun t s hs h => ⟨hread t s hs h, h⟩) fun a => Triple.of_and (hf a)

theorem triple_verifyOnce {env : Environment} {result : CheckoutResult}
    {customerId user : Option Uuid} (hr : r = .verify env tenantId id result customerId user) :
    (captureContract s₀ id row₀).Triple R (fun t _ => Noted s₀ r t)
      (verify env tenantId id result customerId user) fun _ => Handled s₀ id row₀ r := by
  refine triple_readNoted (C := fun found => ∀ row, found = some row → row₀.Version row ∧
      row.tenantId = tenantId ∧ row.provider = razorpayProvider ∧ row.deleted = false ∧
      customerId.all fun id => (s₀.orders.lookup row.orderId).any fun o => o.customerId = id)
    (fun t s hs h row hrow => ?_) fun found hfound => ?_
  · obtain ⟨hmem, hcond⟩ := Option.filter_eq_some_iff.mp hrow
    obtain ⟨hlookup, htenant⟩ := PaymentRepository.findById_eq_some.mp hmem
    obtain ⟨row', hrow', hversion⟩ := hs.version
    rw [(h.view s).1, hrow'] at hlookup
    obtain rfl := Option.some.inj hlookup
    rw [(h.view s).2, hs.orders] at hcond
    obtain ⟨hprovider, hdeleted, hcustomer⟩ := of_decide_eq_true hcond
    exact ⟨hversion, htenant, hprovider, hdeleted, hcustomer⟩
  refine Triple.orRaise_bind fun payment hpayment => ?_
  obtain ⟨hversion, htenant, hprovider, hdeleted, hcustomer⟩ := hfound payment hpayment
  refine triple_readNoted (C := fun account => account = Razorpay.credentialsFor tenantId true s₀)
    (fun t s hs _ => credentialsFor_view hs t true) fun account haccount => ?_
  refine Triple.orRaise_bind fun credentials hcredentials => Triple.require_bind fun hsigned => ?_
  -- what `verify` has checked is the proof that the payment was captured
  have hproof : r.proof s₀ id row₀ = some (some result.razorpayPaymentId, "checkout") := by
    obtain ⟨hsame, hprovided, hkept, -⟩ := hversion.spec
    have hany : (Razorpay.credentialsFor tenantId true s₀).any fun credentials =>
        Razorpay.checkoutSignatureValid env credentials.keySecret result.razorpayOrderId
          result.razorpayPaymentId result.razorpaySignature := by
      rw [← haccount, hcredentials]
      exact hsigned.2
    rw [hr]
    refine if_pos ⟨rfl, hsame.tenantId.trans htenant, hsame.provider.trans hprovider,
      hkept.symm.trans hdeleted, ?_, hprovided.symm.trans hsigned.1, hany⟩
    rw [hsame.orderId]
    exact hcustomer
  exact triple_markPaidOnce hproof (Triple.readsOnly (.ret ()) Locked.stable)

theorem PaymentRepository.exists_findFirst {p : Payment → Bool}
    (hrow : s.payments.lookup id = some row) (hp : p row = true) :
    ∃ found, PaymentRepository.findFirst p s = some found := by
  have hmem : (⟨id, row⟩ : Sigma fun _ : Uuid => Payment) ∈ s.payments.entries :=
    AList.mem_lookup_iff.mp hrow
  have hfound : (s.payments.entries.find? fun e => p e.2).isSome = true :=
    List.find?_isSome.mpr ⟨_, hmem, hp⟩
  obtain ⟨e, he⟩ := Option.isSome_iff_exists.mp hfound
  exact ⟨(e.1, e.2), by rw [PaymentRepository.findFirst, he]; rfl⟩

/-- No other payment of the tenant has the Razorpay order of this one. -/
def OrderIdUnique (s : Db) (id : Uuid) (row : Payment) : Prop :=
  ∀ id' row', s.payments.lookup id' = some row' → row'.tenantId = row.tenantId →
    row'.providerPaymentId.isSome → row'.providerPaymentId = row.providerPaymentId → id' = id

theorem OrderIdUnique.of_underCapture (hunique : OrderIdUnique s₀ id row₀)
    (hs : UnderCapture s₀ id row₀ s) : OrderIdUnique s id row₀ := by
  intro id' row' hrow' htenant hsome hsame
  by_cases hid : id' = id
  · exact hid
  · exact hunique id' row' (hs.others id' hid ▸ hrow') htenant hsome hsame

/-- An event finds the payment whose Razorpay order it names. -/
theorem findFirst_of_orderId {orderId : String} (hs : UnderCapture s₀ id row₀ s)
    (hunique : OrderIdUnique s₀ id row₀) (hprovider : row₀.provider = razorpayProvider)
    (horder : row₀.providerPaymentId = some orderId) :
    ∃ row, s.payments.lookup id = some row ∧ row₀.Version row ∧
      PaymentRepository.findFirst (fun row => row.tenantId = row₀.tenantId ∧
        row.provider = razorpayProvider ∧ row.providerPaymentId = some orderId) s =
          some (id, row) := by
  obtain ⟨row, hrow, hversion⟩ := hs.version
  obtain ⟨hsame, hprovided, -, -⟩ := hversion.spec
  obtain ⟨found, hfound⟩ := PaymentRepository.exists_findFirst (p := fun row =>
      row.tenantId = row₀.tenantId ∧ row.provider = razorpayProvider ∧
        row.providerPaymentId = some orderId) hrow
    (decide_eq_true ⟨hsame.tenantId.symm, hsame.provider.symm.trans hprovider,
      hprovided.trans horder⟩)
  obtain ⟨hlookup, hcond⟩ := PaymentRepository.findFirst_eq_some hfound
  obtain ⟨htenant, -, hfoundOrder⟩ := of_decide_eq_true hcond
  have hid : found.1 = id := (hunique.of_underCapture hs) found.1 found.2 hlookup htenant
    (by rw [hfoundOrder]; rfl) (hfoundOrder.trans horder.symm)
  rw [hid, hrow] at hlookup
  refine ⟨row, hrow, hversion, hfound.trans ?_⟩
  rw [← hid, Option.some.inj hlookup]

/-- An event that proves nothing is recorded. -/
theorem triple_onlyRecord {event : PaymentWebhookEvent} (hproof : r.proof s₀ id row₀ = none)
    (hevent : ∃ delivered, r.delivered s₀ = some (event.eventId, delivered)) :
    (captureContract s₀ id row₀).Triple R (fun t _ => Noted s₀ r t)
      (do
        perform (Statement.insertPaymentWebhookEvent event)
        return (none : Option Payment)) fun _ => Handled s₀ id row₀ r :=
  (triple_recordNoted hevent).bind fun _ => (Triple.readsOnly (.ret _) Noted.stable).post
    fun _ _ _ h => .noted hproof h

theorem triple_handleWebhookOnce {env : Environment} {rawBody : String}
    {parsed : Option RazorpayEvent} {signature eventIdHeader : Option String}
    (hr : r = .razorpayWebhook env tenantId rawBody parsed signature eventIdHeader)
    (hon : r.ReportsOn id row₀) (hunique : OrderIdUnique s₀ id row₀)
    (hprovider : row₀.provider = razorpayProvider) :
    (captureContract s₀ id row₀).Triple R (fun t _ => Noted s₀ r t)
      (RazorpayPaymentsService.handleWebhook env tenantId rawBody parsed signature eventIdHeader)
      fun _ => Handled s₀ id row₀ r := by
  rw [hr] at hon
  obtain ⟨rfl, hon⟩ := hon
  refine triple_readNoted
    (C := fun account => account = Razorpay.credentialsFor row₀.tenantId true s₀)
    (fun t s hs _ => credentialsFor_view hs t true) fun account haccount => ?_
  refine Triple.require_bind fun hsigned => Triple.orRaise_bind fun event hparsed => ?_
  obtain ⟨orderId, hentity, horder⟩ := hon event hparsed
  rw [haccount] at hsigned
  have hdelivered : r.delivered s₀ =
      some ("razorpay:" ++ (truthy eventIdHeader).getD (env.sha256 rawBody), event) := by
    rw [hr, PaymentRequest.delivered, if_pos hsigned, hparsed]
    rfl
  -- the event finds the payment that it is about
  refine triple_readNoted (C := fun found => ∃ row, found = some (id, row) ∧ row₀.Version row)
    (fun t s hs h => ?_) fun found hfound => ?_
  · obtain ⟨hpayments, horders⟩ := h.view s
    obtain ⟨row, -, hversion, hfirst⟩ :=
      findFirst_of_orderId (hs.kept hpayments horders) hunique hprovider horder
    rw [hentity]
    exact ⟨row, hfirst, hversion⟩
  obtain ⟨row, rfl, hversion⟩ := hfound
  obtain ⟨entity, hsome⟩ : ∃ entity, event.entity = some entity := by
    cases h : event.entity with
    | none =>
      rw [h] at hentity
      cases hentity
    | some entity => exact ⟨entity, rfl⟩
  rw [hsome]
  have hproof : r.proof s₀ id row₀ = (if (event.event.any fun name => name ∈ paidEvents) ∧
      entity.amount.isSome ∧ entity.amount = expectedMinor row then
        some (entity.id, "webhook") else none) := by
    obtain ⟨-, -, -, hexpected⟩ := hversion.spec
    rw [PaymentRequest.proof_of_delivered hdelivered, eventProof, hsome, hexpected,
      Option.filter_some]
    by_cases hpaid : (event.event.any fun name => name ∈ paidEvents) ∧ entity.amount.isSome ∧
        entity.amount = expectedMinor row₀
    · rw [if_pos hpaid, if_pos (decide_eq_true hpaid)]
      rfl
    · rw [if_neg hpaid, if_neg (by simpa using hpaid)]
      rfl
  dsimp only
  split
  · rename_i hpaid
    rw [if_pos hpaid] at hproof
    exact triple_markPaidOnce hproof (triple_recordLocked ⟨event, hdelivered⟩)
  · rename_i hpaid
    rw [if_neg hpaid] at hproof
    exact triple_onlyRecord hproof ⟨event, hdelivered⟩

/-- Every report does what follows from its proof. -/
theorem PaymentRequest.handled (hon : r.ReportsOn id row₀) (hunique : OrderIdUnique s₀ id row₀)
    (hprovider : row₀.provider = razorpayProvider) :
    (captureContract s₀ id row₀).Triple R (fun t _ => Noted s₀ r t) r.program
      fun _ => Handled s₀ id row₀ r := by
  cases hr : r with
  | verify env tenantId paymentId result customerId userId =>
    rw [hr] at hon
    obtain rfl : paymentId = id := hon
    exact (triple_verifyOnce rfl).bind fun _ =>
      Triple.ret (Q := fun _ => Handled s₀ paymentId row₀ _) Handled.stable
  | razorpayWebhook env tenantId rawBody parsed signature eventIdHeader =>
    rw [hr] at hon
    exact (triple_handleWebhookOnce rfl hon hunique hprovider).bind fun _ =>
      Triple.ret (Q := fun _ => Handled s₀ id row₀ _) Handled.stable
  | _ =>
    rw [hr] at hon
    exact hon.elim

end PulseOps
