import PulseOps.Payments.CaptureProofs
import PulseOps.ReadCommitted.UniqueIndex

/-!
# Captured money is booked once

However often the browser and Razorpay report a payment, and in whatever order: the first
report with a proof completes it, every later one finds it completed, and the unique index on
transactions keeps a second charge under one Razorpay id out. A report without a proof, such
as an event over another amount, completes nothing; and one with a proof is never refused
while the payment is open.

## Main definitions

* `transactionIndex` — the unique index on (tenant, provider transaction id).
* `firstProof` — the proof of the first report that has committed.
* `CaptureSetting` — the payment, its reports, and what the database and Razorpay promise.

## Main results

* `exists_runs_of_proof` — a report with a proof completes an open payment.
* `reaches_capturedOnce` — every run.
-/

set_option autoImplicit false

open ReadCommitted Program Contract

namespace PulseOps

open PaymentService RazorpayPaymentsService

variable {s s' s₀ : Db} {t : Transaction sales} {es : List Edit} {R : Discipline sales}
  {id tenantId : Uuid} {row row₀ : Payment} {r : PaymentRequest} {rs : List PaymentRequest}
  {c : Config sales Unit}

/-! ### The index on transactions -/

/-- The index entry of a transaction, when it has a provider's id. -/
def PaymentTransaction.indexKeys (x : PaymentTransaction) : List Key :=
  x.providerTransactionId.toList.map (.providerTransactionId x.tenantId)

/-- The unique index on (tenant, provider transaction id). -/
def transactionIndex : UniqueIndex sales where
  entries s := s.paymentTransactions.flatMap PaymentTransaction.indexKeys
  added
    | .paymentTransactionInsert x => x.indexKeys
    | _ => []
  entries_apply s e := by
    cases e with
    | paymentTransactionInsert x =>
      change (s.paymentTransactions ++ [x]).flatMap _ = _
      rw [List.flatMap_append, List.flatMap_singleton]
    | _ => exact (List.append_nil _).symm
  locked e := by
    cases e with
    | paymentTransactionInsert x => exact List.Subset.refl _
    | _ => exact List.nil_subset _

/-- The COMPLETED charges under a Razorpay payment id. -/
def completedCharges (tenantId : Uuid) (razorpayPaymentId : String) (s : Db) :
    List PaymentTransaction :=
  s.paymentTransactions.filter fun x => x.tenantId = tenantId ∧
    x.providerTransactionId = some razorpayPaymentId ∧ x.type = .charge ∧ x.status = .completed

theorem completedCharges_length_le (h : (transactionIndex.entries s).Nodup) (tenantId : Uuid)
    (razorpayPaymentId : String) : (completedCharges tenantId razorpayPaymentId s).length ≤ 1 := by
  refine UniqueIndex.length_filter_le_one (k := .providerTransactionId tenantId razorpayPaymentId)
    h fun x hx => ?_
  obtain ⟨htenant, hid, -⟩ := of_decide_eq_true hx
  rw [PaymentTransaction.indexKeys, htenant, hid]
  exact List.mem_cons_self

/-- `paymentTransaction.create` looks into the index. -/
theorem checks_insertPaymentTransaction (x : PaymentTransaction) :
    (perform (Statement.insertPaymentTransaction x) : Sql Unit).Checks transactionIndex.Allows := by
  refine checks_perform fun s e he => ?_
  have hunused : ¬ s.paymentTransactions.any fun t => x.providerTransactionId.isSome ∧
      t.tenantId = x.tenantId ∧ t.providerTransactionId = x.providerTransactionId := by
    intro hused
    unfold Statement.insertPaymentTransaction at he
    rw [if_pos hused] at he
    split_ifs at he
  obtain rfl := Statement.insertPaymentTransaction_eq_ok he
  change x.indexKeys.Nodup ∧ ∀ k ∈ x.indexKeys, k ∉ transactionIndex.entries s
  rw [PaymentTransaction.indexKeys]
  cases hid : x.providerTransactionId with
  | none => exact ⟨List.nodup_nil, fun k hk => absurd hk List.not_mem_nil⟩
  | some value =>
    refine ⟨List.nodup_singleton _, fun k hk hmem => hunused ?_⟩
    obtain rfl := List.mem_singleton.mp hk
    obtain ⟨y, hy, hkey⟩ := List.mem_flatMap.mp hmem
    obtain ⟨value', hvalue', heq⟩ := List.mem_map.mp hkey
    obtain ⟨htenant, rfl⟩ := Key.providerTransactionId.inj heq
    have hid' : y.providerTransactionId = some value' := Option.mem_toList.mp hvalue'
    exact List.any_eq_true.mpr
      ⟨y, hy, decide_eq_true ⟨by rw [hid]; rfl, htenant, hid'.trans hid.symm⟩⟩

/-- Any other statement does not touch the index. -/
theorem allows_of_added {e : Edit} (h : transactionIndex.added e = []) (s : Db) :
    transactionIndex.Allows s e := by
  rw [UniqueIndex.Allows, h]
  exact ⟨List.nodup_nil, fun k hk => absurd hk List.not_mem_nil⟩

theorem checks_markPaid {razorpayPaymentId : Option String} {via : String} {user : Option Uuid}
    {inTx : Sql Unit} (hinTx : inTx.Checks transactionIndex.Allows) :
    (markPaid tenantId id razorpayPaymentId via user inTx).Checks transactionIndex.Allows := by
  refine (checks_lockRow _).bind fun _ => hinTx.bind fun _ => ?_
  refine (ReadsOnly.query _).checks.bind fun _ => ?_
  refine (ReadsOnly.orRaise _ _).checks.bind fun fresh => ?_
  refine Checks.bind ?_ fun _ => (ReadsOnly.query _).checks
  unfold capture
  split
  · refine (checks_perform fun s e he => ?_).bind fun _ => checks_insertPaymentTransaction _
    obtain ⟨row, -, rfl⟩ := Statement.updatePayment_eq_ok he
    exact allows_of_added rfl s
  split
  · exact checks_insertPaymentTransaction _
  · trivial

theorem checks_record (event : PaymentWebhookEvent) :
    (perform (Statement.insertPaymentWebhookEvent event) : Sql Unit).Checks
      transactionIndex.Allows := by
  refine checks_perform fun s e he => ?_
  obtain rfl := Statement.insertPaymentWebhookEvent_eq_ok he
  exact allows_of_added rfl s

/-- Every report keeps the index. -/
theorem PaymentRequest.checks (hon : r.ReportsOn id row) :
    r.program.Checks transactionIndex.Allows := by
  cases r with
  | verify env tenantId paymentId result customerId userId =>
    refine Checks.bind ?_ fun _ => trivial
    refine (ReadsOnly.query _).checks.bind fun _ => (ReadsOnly.orRaise _ _).checks.bind fun _ => ?_
    refine (ReadsOnly.query _).checks.bind fun _ => (ReadsOnly.orRaise _ _).checks.bind fun _ => ?_
    exact (ReadsOnly.require _ _).checks.bind fun _ => checks_markPaid trivial
  | razorpayWebhook env tenantId rawBody parsed signature eventIdHeader =>
    refine Checks.bind ?_ fun _ => trivial
    refine (ReadsOnly.query _).checks.bind fun _ => (ReadsOnly.require _ _).checks.bind fun _ => ?_
    refine (ReadsOnly.orRaise _ _).checks.bind fun event => ?_
    refine (ReadsOnly.query _).checks.bind fun found => ?_
    split
    · split
      · exact checks_markPaid (checks_record _)
      · exact (checks_record _).bind fun _ => trivial
    · exact (checks_record _).bind fun _ => trivial
  | _ => exact hon.elim

/-! ### A report that runs alone -/

section Alone

variable {answer : Call → Reply} {razorpayPaymentId : Option String} {via : String}

/-- No transaction of the tenant has this provider's id. -/
def Uncharged (tenantId : Uuid) (razorpayPaymentId : Option String) (s : Db) : Prop :=
  ∀ pid, razorpayPaymentId = some pid → ∀ x ∈ s.paymentTransactions, x.tenantId = tenantId →
    x.providerTransactionId ≠ some pid

theorem updatePayment_ok {change : Payment → Payment} (hrow : s.payments.lookup id = some row)
    (hkeeps : (change row).providerPaymentId = row.providerPaymentId)
    (hunique : OrderIdUnique s id row) :
    Statement.updatePayment id change s = .ok (.paymentUpdate id (change row)) := by
  have hnone : ¬ s.payments.entries.any fun p => p.1 ≠ id ∧ (change row).providerPaymentId.isSome ∧
      p.2.tenantId = row.tenantId ∧ p.2.providerPaymentId = (change row).providerPaymentId := by
    intro hany
    obtain ⟨p, hp, hcond⟩ := List.any_eq_true.mp hany
    obtain ⟨hne, hsome, htenant, hsame⟩ := of_decide_eq_true hcond
    rw [hkeeps] at hsome hsame
    have hlookup : s.payments.lookup p.1 = some p.2 := AList.mem_lookup_iff.mpr hp
    exact hne (hunique p.1 p.2 hlookup htenant (hsame ▸ hsome) hsame)
  rw [Statement.updatePayment, hrow]
  exact if_neg hnone

theorem insertPaymentTransaction_ok {x : PaymentTransaction} (hamount : 0 ≤ x.amount)
    (hfree : Uncharged x.tenantId x.providerTransactionId s)
    (hexists : Statement.paymentExists x.paymentId x.tenantId s = true) :
    Statement.insertPaymentTransaction x s = .ok (.paymentTransactionInsert x) := by
  have hnone : ¬ s.paymentTransactions.any fun t => x.providerTransactionId.isSome ∧
      t.tenantId = x.tenantId ∧ t.providerTransactionId = x.providerTransactionId := by
    intro hany
    obtain ⟨y, hy, hcond⟩ := List.any_eq_true.mp hany
    obtain ⟨hsome, htenant, hsame⟩ := of_decide_eq_true hcond
    obtain ⟨pid, hpid⟩ := Option.isSome_iff_exists.mp hsome
    exact hfree pid hpid y hy htenant (hsame.trans hpid)
  rw [Statement.insertPaymentTransaction, if_neg (not_lt.mpr hamount), if_neg hnone, if_pos hexists]

theorem runs_recordEvent (answer : Call → Reply) (event : PaymentWebhookEvent)
    (hnew : ∀ e ∈ s.paymentWebhookEvents, e.eventId ≠ event.eventId)
    (hexists : ∀ id, event.paymentId = some id →
      Statement.paymentExists id event.tenantId s = true) :
    Runs answer (perform (Statement.insertPaymentWebhookEvent event) : Sql Unit) s ()
      [.paymentWebhookEventInsert event] := by
  have hnone : ¬ s.paymentWebhookEvents.any fun e => e.eventId = event.eventId := by
    intro hany
    obtain ⟨e, he, hcond⟩ := List.any_eq_true.mp hany
    exact hnew e he (of_decide_eq_true hcond)
  have hall : event.paymentId.all fun id => Statement.paymentExists id event.tenantId s := by
    cases hid : event.paymentId with
    | none => rfl
    | some id => exact hexists id hid
  exact runs_perform.mpr ⟨_, (if_neg hnone).trans (if_pos hall), rfl⟩

/-- Capturing an open payment completes it and writes its charge. -/
theorem exists_runs_capture (answer : Call → Reply) (via : String) (user : Option Uuid)
    (hrow : s.payments.lookup id = some row)
    (hopen : row.status.isOpen = true) (hamount : 0 ≤ row.amount) (hunique : OrderIdUnique s id row)
    (hfree : Uncharged row.tenantId razorpayPaymentId s) :
    ∃ x, Runs answer (capture row.tenantId id razorpayPaymentId via user row) s ()
      [.paymentUpdate id (row.capture razorpayPaymentId via), chargeEdit x] := by
  have hlookup : (s.payments.insert id (row.capture razorpayPaymentId via)).lookup id =
      some (row.capture razorpayPaymentId via) := AList.lookup_insert _
  -- the charge is the last statement, and finds the payment it belongs to
  have hcharge {x : PaymentTransaction} (htenant : x.tenantId = row.tenantId)
      (hid : x.paymentId = id) (hsame : x.amount = row.amount)
      (hpid : x.providerTransactionId = razorpayPaymentId) : Statement.insertPaymentTransaction x
        (sales.apply s (.paymentUpdate id (row.capture razorpayPaymentId via))) =
          .ok (.paymentTransactionInsert x) := by
    apply insertPaymentTransaction_ok (hsame ▸ hamount)
    · rw [htenant, hpid]
      exact hfree
    · change ((s.payments.insert id _).lookup x.paymentId).any _ = true
      rw [hid, htenant, hlookup]
      exact decide_eq_true rfl
  unfold capture
  rw [if_pos hopen]
  exact ⟨_, runs_perform_bind.mpr ⟨_, _, updatePayment_ok hrow rfl hunique,
    runs_perform.mpr ⟨_, hcharge rfl rfl rfl rfl, rfl⟩, rfl⟩⟩

/-- Marking an open payment paid completes it. -/
theorem exists_runs_markPaid (via : String) (user : Option Uuid) {inTx : Sql Unit}
    (hrow : s.payments.lookup id = some row) (hopen : row.status.isOpen = true)
    (hamount : 0 ≤ row.amount) (hunique : OrderIdUnique s id row)
    (hfree : Uncharged row.tenantId razorpayPaymentId s)
    (hinTx : Runs answer inTx s () es) (hcore : coreEdits es = []) :
    ∃ a es', Runs answer (markPaid row.tenantId id razorpayPaymentId via user inTx) s a es' ∧
      (sales.replay es' s).payments.lookup id = some (row.capture razorpayPaymentId via) := by
  have hpayments : (sales.replay es s).payments = s.payments := payments_replay hcore
  have htransactions : (sales.replay es s).paymentTransactions = s.paymentTransactions :=
    transactions_replay hcore
  have hrow' : (sales.replay es s).payments.lookup id = some row := by rw [hpayments, hrow]
  have hunique' : OrderIdUnique (sales.replay es s) id row := by
    intro id' row' hlookup
    rw [hpayments] at hlookup
    exact hunique id' row' hlookup
  have hfree' : Uncharged row.tenantId razorpayPaymentId (sales.replay es s) := by
    intro pid hpid
    rw [htransactions]
    exact hfree pid hpid
  obtain ⟨x, hcapture⟩ := exists_runs_capture answer via user hrow' hopen hamount hunique' hfree'
  have hrest := hcapture.bind (f := fun _ => query (PaymentRepository.findById id row.tenantId))
    (runs_query.mpr ⟨rfl, rfl⟩)
  have hread := PaymentRepository.findById_eq_some.mpr ⟨hrow', rfl⟩
  refine ⟨_, _, runs_lockRow_bind.mpr (hinTx.bind (runs_query_bind.mpr (runs_orRaise_bind.mpr
    ⟨row, hread, hrest⟩))), ?_⟩
  rw [List.append_nil, Database.replay_append]
  exact AList.lookup_insert _

/-- A report that proves the capture completes the payment when it runs alone, if it is open
and neither the event nor the charge is there yet. -/
theorem exists_runs_of_proof (answer : Call → Reply) (hon : r.ReportsOn id row₀)
    (hunique : OrderIdUnique s₀ id row₀) (hprovider : row₀.provider = razorpayProvider)
    (hs : UnderCapture s₀ id row₀ s) (hrow : s.payments.lookup id = some row₀)
    (hopen : row₀.status.isOpen = true) (hamount : 0 ≤ row₀.amount)
    (hproof : r.proof s₀ id row₀ = some (razorpayPaymentId, via))
    (hfree : Uncharged row₀.tenantId razorpayPaymentId s)
    (hnew : ∀ eventId event, r.delivered s₀ = some (eventId, event) →
      ∀ e ∈ s.paymentWebhookEvents, e.eventId ≠ eventId) :
    ∃ es, Runs answer r.program s () es ∧
      (sales.replay es s).payments.lookup id = some (row₀.capture razorpayPaymentId via) := by
  have hcredentials : Razorpay.credentialsFor row₀.tenantId true s =
      Razorpay.credentialsFor row₀.tenantId true s₀ := credentialsFor_view hs {} true
  have hunique' := hunique.of_underCapture hs
  have hread : PaymentRepository.findById id row₀.tenantId s = some row₀ :=
    PaymentRepository.findById_eq_some.mpr ⟨hrow, rfl⟩
  -- the result of the service is dropped
  have hdiscard {p : Sql (Option Payment)} {a : Option Payment} {es : List Edit}
      (h : Runs answer p s a es) : Runs answer (do let _ ← p) s () es := by
    have hbind := h.bind (f := fun _ => (.ret () : Sql Unit)) (runs_ret.mpr ⟨rfl, rfl⟩)
    rwa [List.append_nil] at hbind
  cases r with
  | verify env tenantId paymentId result customerId userId =>
    obtain rfl : paymentId = id := hon
    simp only [PaymentRequest.proof] at hproof
    split_ifs at hproof with hvalid
    obtain ⟨-, rfl, -, hdeleted, hcustomer, horder, hsigned⟩ := hvalid
    cases hproof
    rw [← hcredentials] at hsigned
    obtain ⟨credentials, hsome, hsignature⟩ := (Option.any_eq_true _ _).mp hsigned
    have hnothing : Runs answer (.ret () : Sql Unit) s () [] := runs_ret.mpr ⟨rfl, rfl⟩
    obtain ⟨a, es, hruns, hlookup⟩ := exists_runs_markPaid "checkout" userId hrow hopen hamount
      hunique' hfree hnothing coreEdits_nil
    have hfound : (PaymentRepository.findById paymentId row₀.tenantId s).filter (fun row =>
        row.provider = razorpayProvider ∧ row.deleted = false ∧ customerId.all fun id =>
          (s.orders.lookup row.orderId).any fun o => o.customerId = id) = some row₀ := by
      rw [hs.orders]
      exact Option.filter_eq_some_iff.mpr ⟨hread, decide_eq_true ⟨hprovider, hdeleted, hcustomer⟩⟩
    have hverify :
        Runs answer (verify env row₀.tenantId paymentId result customerId userId) s a es :=
      runs_query_bind.mpr (runs_orRaise_bind.mpr ⟨row₀, hfound, runs_query_bind.mpr
        (runs_orRaise_bind.mpr ⟨credentials, hsome, runs_require_bind.mpr
          ⟨⟨horder, hsignature⟩, hruns⟩⟩)⟩)
    exact ⟨es, hdiscard hverify, hlookup⟩
  | razorpayWebhook env tenantId rawBody parsed signature eventIdHeader =>
    obtain ⟨rfl, hon⟩ := hon
    obtain ⟨delivery, hdelivered, hevent⟩ := Option.bind_eq_some_iff.mp hproof
    obtain ⟨entity, hentity, heq⟩ := Option.map_eq_some_iff.mp hevent
    obtain ⟨rfl, rfl⟩ := Prod.mk.inj heq
    obtain ⟨hsome, hpaid⟩ := Option.filter_eq_some_iff.mp hentity
    have hnew' := hnew delivery.1 delivery.2 hdelivered
    simp only [PaymentRequest.delivered] at hdelivered
    split_ifs at hdelivered with hsigned
    obtain ⟨event, rfl, heq⟩ := Option.map_eq_some_iff.mp hdelivered
    obtain rfl := heq.symm
    obtain ⟨orderId, horderId, horder⟩ := hon event rfl
    obtain ⟨row, hlookup, -, hfirst⟩ := findFirst_of_orderId hs hunique hprovider horder
    obtain rfl := Option.some.inj (hrow.symm.trans hlookup)
    rw [← hcredentials] at hsigned
    -- the event is recorded before the payment is read again
    have hrecord := runs_recordEvent answer
      { tenantId := row₀.tenantId
        paymentId := some id
        eventId := "razorpay:" ++ (truthy eventIdHeader).getD (env.sha256 rawBody)
        providerEventId := truthy eventIdHeader
        providerPaymentId := truthy (event.entity.bind (·.orderId))
        type := (truthy event.event).getD "unknown" }
      hnew' fun id' hid' => by
        obtain rfl := Option.some.inj hid'
        change (s.payments.lookup id).any _ = true
        rw [hrow]
        exact decide_eq_true rfl
    obtain ⟨a, es, hruns, hcaptured⟩ := exists_runs_markPaid "webhook" none hrow hopen hamount
      hunique' hfree hrecord rfl
    have hwebhook : Runs answer (RazorpayPaymentsService.handleWebhook env row₀.tenantId rawBody
        (some event) signature eventIdHeader) s a es := by
      refine runs_query_bind.mpr (runs_require_bind.mpr ⟨hsigned, runs_orRaise_bind.mpr
        ⟨event, rfl, runs_query_bind.mpr ?_⟩⟩)
      rw [horderId, Option.bind_some, hfirst, hsome]
      dsimp only
      rw [if_pos (of_decide_eq_true hpaid)]
      rw [horderId] at hruns
      exact hruns
    exact ⟨es, hdiscard hwebhook, hcaptured⟩
  | _ => exact hon.elim

end Alone

/-! ### Every run -/

/-- The proof of the report that ended in a commit. -/
def commitProof (s₀ : Db) (id : Uuid) (row₀ : Payment) (rs : List PaymentRequest)
    (k : Commit sales) : Option (Option String × String) :=
  rs[k.session]?.bind (PaymentRequest.proof s₀ id row₀)

/-- The proof of the first report with one that has committed. -/
def firstProof (s₀ : Db) (id : Uuid) (row₀ : Payment) (rs : List PaymentRequest)
    (log : List (Commit sales)) : Option (Option String × String) :=
  log.reverse.findSome? (commitProof s₀ id row₀ rs)

/-- The row of a payment after the first proof: an open payment is completed by it. -/
def Payment.settledBy (row : Payment) : Option (Option String × String) → Payment
  | some (razorpayPaymentId, via) =>
    if row.status.isOpen then row.capture razorpayPaymentId via else row
  | none => row

/-- A payment of Razorpay's and reports for it. -/
structure CaptureSetting (s₀ : Db) (id : Uuid) (row₀ : Payment) (rs : List PaymentRequest) :
    Prop where
  row : s₀.payments.lookup id = some row₀
  provider : row₀.provider = razorpayProvider
  reports : ∀ r ∈ rs, r.ReportsOn id row₀
  /-- `payments_amount_non_negative` -/
  amount : 0 ≤ row₀.amount
  /-- `payments_tenant_provider_payment_id_unique` -/
  orderId : OrderIdUnique s₀ id row₀
  /-- `payment_transactions_tenant_provider_txn_unique` -/
  transactions : (transactionIndex.entries s₀).Nodup
  /-- deliveries with one event id are deliveries of one event -/
  distinct : ∀ r ∈ rs, ∀ r' ∈ rs, ∀ eventId event event',
    r.delivered s₀ = some (eventId, event) → r'.delivered s₀ = some (eventId, event') →
      event = event'
  /-- a capture that is on the books has closed the payment -/
  uncharged : row₀.status.isOpen = true → ∀ r ∈ rs, ∀ razorpayPaymentId via,
    r.proof s₀ id row₀ = some (razorpayPaymentId, via) →
      Uncharged row₀.tenantId razorpayPaymentId s₀
  unrecorded : row₀.status.isOpen = true → ∀ r ∈ rs, ∀ eventId event,
    r.delivered s₀ = some (eventId, event) → (r.proof s₀ id row₀).isSome →
      ∀ e ∈ s₀.paymentWebhookEvents, e.eventId ≠ eventId

/-- What holds along a run of reports. -/
structure CaptureRun (s₀ : Db) (id : Uuid) (row₀ : Payment) (rs : List PaymentRequest)
    (c : Config sales Unit) : Prop where
  under : UnderCapture s₀ id row₀ c.committed
  row : c.committed.payments.lookup id = some (row₀.settledBy (firstProof s₀ id row₀ rs c.log))
  unproved : ∀ k ∈ c.log, commitProof s₀ id row₀ rs k = none → coreEdits k.edits = []
  uncharged : firstProof s₀ id row₀ rs c.log = none →
    c.committed.paymentTransactions = s₀.paymentTransactions
  recorded : firstProof s₀ id row₀ rs c.log = none → ∀ e ∈ c.committed.paymentWebhookEvents,
    e ∈ s₀.paymentWebhookEvents ∨ ∃ r ∈ rs, r.proof s₀ id row₀ = none ∧
      ∃ event, r.delivered s₀ = some (e.eventId, event)

theorem firstProof_cons (k : Commit sales) (log : List (Commit sales)) :
    firstProof s₀ id row₀ rs (k :: log) =
      (firstProof s₀ id row₀ rs log).or (commitProof s₀ id row₀ rs k) := by
  rw [firstProof, List.reverse_cons, List.findSome?_append]
  cases h : commitProof s₀ id row₀ rs k <;> simp [firstProof, h]

/-- One commit. -/
theorem CaptureRun.commit {i : ℕ} {a : Unit} (h : CaptureRun s₀ id row₀ rs c)
    (hr : rs[i]? = some r) (hg : (captureContract s₀ id row₀).Guarantee R t c.committed)
    (hhandled : Handled s₀ id row₀ r t c.committed) :
    CaptureRun s₀ id row₀ rs (c.commit i a t) := by
  have hlog : (c.commit i a t).log = ⟨i, t.edits, t.view c.committed⟩ :: c.log := rfl
  have hproofOf : commitProof s₀ id row₀ rs ⟨i, t.edits, t.view c.committed⟩ =
      r.proof s₀ id row₀ := by
    rw [commitProof, hr, Option.bind_some]
  have hfirst : firstProof s₀ id row₀ rs (c.commit i a t).log =
      (firstProof s₀ id row₀ rs c.log).or (r.proof s₀ id row₀) := by
    rw [hlog, firstProof_cons, hproofOf]
  have hunproved (hcore : r.proof s₀ id row₀ = none → coreEdits t.edits = []) :
      ∀ k ∈ (c.commit i a t).log, commitProof s₀ id row₀ rs k = none → coreEdits k.edits = [] := by
    intro k hk hnone
    rw [hlog] at hk
    rcases List.mem_cons.mp hk with rfl | hk
    · exact hcore (hproofOf.symm.trans hnone)
    · exact h.unproved k hk hnone
  -- once a report with a proof has committed, there is nothing left to say of the others
  have hsome {p : Option String × String} (hproof : r.proof s₀ id row₀ = some p) :
      firstProof s₀ id row₀ rs (c.commit i a t).log ≠ none := by
    rw [hfirst, hproof]
    cases firstProof s₀ id row₀ rs c.log <;> exact fun heq => nomatch heq
  cases hhandled with
  | noted hproof hnoted =>
    rw [hproof, Option.or_none] at hfirst
    refine ⟨hg.inv, ?_, hunproved fun _ => hnoted.core, fun hnone => ?_, fun hnone e he => ?_⟩
    · rw [hfirst, ← h.row]
      exact congrArg _ (hnoted.view c.committed).1
    · rw [hfirst] at hnone
      exact (transactions_replay hnoted.core).trans (h.uncharged hnone)
    · rw [hfirst] at hnone
      rcases mem_events_replay he with hmem | hmem
      · exact h.recorded hnone e hmem
      · exact .inr ⟨r, List.mem_of_getElem? hr, hproof, hnoted.events e hmem⟩
  | @late pid via row hproof hheld hrow hclosed hcore =>
    refine ⟨hg.inv, ?_, hunproved fun hnone => ?_, fun hnone => absurd hnone (hsome hproof),
      fun hnone => absurd hnone (hsome hproof)⟩
    · have hkept : (t.view c.committed).payments = c.committed.payments :=
        (replay_core_charges hcore).1
      change (t.view c.committed).payments.lookup id = _
      rw [hkept, h.row, hfirst, hproof]
      cases hbefore : firstProof s₀ id row₀ rs c.log with
      | some p => rfl
      | none =>
        -- the payment was closed before the first proof
        have hsame : row = row₀ := by
          have heq := hrow.symm.trans h.row
          rw [hbefore] at heq
          exact Option.some.inj heq
        rw [hsame] at hclosed
        change some row₀ = some (if row₀.status.isOpen then _ else row₀)
        rw [hclosed]
        rfl
    · rw [hproof] at hnone
      cases hnone
  | @captured pid via row x hproof hheld hrow hopen hcore =>
    refine ⟨hg.inv, ?_, hunproved fun hnone => ?_, fun hnone => absurd hnone (hsome hproof),
      fun hnone => absurd hnone (hsome hproof)⟩
    · have hpayments : (t.view c.committed).payments =
          c.committed.payments.insert id (row.capture pid via) := payments_replay hcore
      have heq := Option.some.inj (hrow.symm.trans h.row)
      change (t.view c.committed).payments.lookup id = _
      rw [hpayments, AList.lookup_insert, hfirst, hproof]
      cases hbefore : firstProof s₀ id row₀ rs c.log with
      | some p =>
        -- the first proof has left the payment closed
        rw [hbefore, Payment.settledBy] at heq
        split at heq
        · rw [heq] at hopen
          cases hopen
        · rename_i hclosed
          rw [heq] at hopen
          exact absurd hopen hclosed
      | none =>
        rw [hbefore] at heq
        obtain rfl : row = row₀ := heq
        change _ = some (if row.status.isOpen then _ else row)
        rw [hopen]
        rfl
    · rw [hproof] at hnone
      cases hnone

theorem reaches_captureRun (hset : CaptureSetting s₀ id row₀ rs)
    (h : Reaches R (.start s₀ (rs.map PaymentRequest.program)) c) :
    CaptureRun s₀ id row₀ rs c := by
  have hstart : UnderCapture s₀ id row₀ s₀ :=
    ⟨rfl, rfl, fun _ _ => rfl, row₀, hset.row, .inl rfl⟩
  refine reaches_induction_indexed (L := captureContract s₀ id row₀)
    (Q := fun i _ t s => ∃ r, rs[i]? = some r ∧ Handled s₀ id row₀ r t s)
    (P := CaptureRun s₀ id row₀ rs) hstart (fun i p hp => ?_) ?_ ?_ ?_ ?_ h
  · rw [List.getElem?_map] at hp
    obtain ⟨r, hr, rfl⟩ := Option.map_eq_some_iff.mp hp
    have hon := hset.reports r (List.mem_of_getElem? hr)
    have hnoted : Noted s₀ r {} := ⟨rfl, fun row hmem => absurd hmem List.not_mem_nil⟩
    refine wp_mono (PaymentRequest.handled hon hset.orderId hset.provider {} s₀ hstart hnoted)
      fun _ t s hhandled hinv _ => ⟨hhandled.guarantee hinv, r, hr, hhandled⟩
  · exact ⟨hstart, hset.row, fun k hk => absurd hk List.not_mem_nil, fun _ => rfl,
      fun _ e he => .inl he⟩
  · intro c i a t hP _ _ _ hg hhandled
    obtain ⟨r, hr, hhandled⟩ := hhandled
    exact hP.commit hr hg hhandled
  · intro c i p t hP _ _
    exact ⟨hP.under, hP.row, hP.unproved, hP.uncharged, hP.recorded⟩
  · intro c i p p' t t' hP _
    exact ⟨hP.under, hP.row, hP.unproved, hP.uncharged, hP.recorded⟩

/-- In every run of reports for a payment: a Razorpay payment id has at most one completed
charge; the payment is as the first report with a proof left it; an event over another amount
updates no payment; and a report with a proof is not refused while the payment is open and
none has been handled. -/
theorem reaches_capturedOnce (hset : CaptureSetting s₀ id row₀ rs)
    (h : Reaches R (.start s₀ (rs.map PaymentRequest.program)) c) :
    (∀ tenantId razorpayPaymentId,
      (completedCharges tenantId razorpayPaymentId c.committed).length ≤ 1) ∧
    c.committed.payments.lookup id = some (row₀.settledBy (firstProof s₀ id row₀ rs c.log)) ∧
    (∀ k ∈ c.log, ∀ r eventId event entity, rs[k.session]? = some r →
      r.delivered s₀ = some (eventId, event) → event.entity = some entity →
        entity.amount ≠ expectedMinor row₀ → ∀ id' row, .paymentUpdate id' row ∉ k.edits) ∧
    (row₀.status.isOpen = true → firstProof s₀ id row₀ rs c.log = none → ∀ r ∈ rs,
      ∀ razorpayPaymentId via, r.proof s₀ id row₀ = some (razorpayPaymentId, via) →
        ∀ answer, ∃ es, Runs answer r.program c.committed () es ∧
          (sales.replay es c.committed).payments.lookup id =
            some (row₀.capture razorpayPaymentId via)) := by
  have hrun := reaches_captureRun hset h
  refine ⟨fun tenantId pid => ?_, hrun.row, ?_, ?_⟩
  · have hnodup := UniqueIndex.reaches_nodup hset.transactions (fun p hp => by
      obtain ⟨r, hr, rfl⟩ := List.mem_map.mp hp
      exact PaymentRequest.checks (hset.reports r hr)) h
    obtain ⟨older, hhistory⟩ := h.exists_history
    exact completedCharges_length_le
      (hnodup c.committed (hhistory ▸ List.mem_cons_self)) tenantId pid
  · intro k hk r eventId event entity hr hdelivered hentity hamount id' row hmem
    -- an event over another amount proves nothing, and what proves nothing writes no payment
    have hproof : commitProof s₀ id row₀ rs k = none := by
      rw [commitProof, hr, Option.bind_some, PaymentRequest.proof_of_delivered hdelivered,
        eventProof, hentity, Option.filter_some, if_neg (by simp [hamount])]
      rfl
    have hcore : .paymentUpdate id' row ∈ coreEdits k.edits := List.mem_filter.mpr ⟨hmem, rfl⟩
    rw [hrun.unproved k hk hproof] at hcore
    exact absurd hcore List.not_mem_nil
  · intro hopen hnone r hr pid via hproof answer
    have hrow := hrun.row
    rw [hnone] at hrow
    refine exists_runs_of_proof answer (hset.reports r hr) hset.orderId hset.provider hrun.under
      hrow hopen hset.amount hproof ?_ ?_
    · intro value hvalue
      rw [hrun.uncharged hnone]
      exact hset.uncharged hopen r hr pid via hproof value hvalue
    · intro eventId event hdelivered e he heq
      rcases hrun.recorded hnone e he with hmem | ⟨r', hr', hproof', event', hdelivered'⟩
      · have hsome : (r.proof s₀ id row₀).isSome := by
          rw [hproof]
          rfl
        exact hset.unrecorded hopen r hr eventId event hdelivered hsome e hmem heq
      · -- the same event would have proved the same
        rw [heq] at hdelivered'
        have hsame := hset.distinct r hr r' hr' eventId event event' hdelivered hdelivered'
        rw [PaymentRequest.proof_of_delivered hdelivered] at hproof
        rw [PaymentRequest.proof_of_delivered hdelivered', ← hsame, hproof] at hproof'
        cases hproof'

/-! ### Three reports of one payment -/

namespace PaymentSample

/-- An event from Razorpay that a payment over `amount` was captured. -/
def capturedEvent (eventId : String) (amount : ℤ) : PaymentRequest :=
  .razorpayWebhook { hmacSha256 := fun _ _ => "4f8a" } "shop" eventId
    (some { event := some "payment.captured"
            entity := some
              { id := some "pay_1", orderId := some "order_1", amount := some amount } })
    (some "4f8a") (some eventId)

/-- An event over ninety rupees, the browser's report, and the right event. -/
def threeReports : List PaymentRequest :=
  [capturedEvent "evt_1" 9000, verifyBegun, capturedEvent "evt_2" 10000]

/-- The right event waits for the browser's report. -/
def reportsMeet : List (Action sales) :=
  List.replicate 4 (.advance 0) ++ List.replicate 6 (.advance 1) ++ List.replicate 2 (.advance 2) ++
    List.replicate 2 (.advance 1) ++ List.replicate 5 (.advance 2)

theorem captureSetting_begunShop : CaptureSetting begunShop "payment" begun threeReports := by
  have hlookup {id : Uuid} {row : Payment} (h : begunShop.payments.lookup id = some row) :
      id = "payment" := by
    by_contra hne
    have hnone : begunShop.payments.lookup id = none := AList.lookup_insert_ne hne
    rw [hnone] at h
    cases h
  refine ⟨rfl, rfl, ?_, by decide, fun id' row' hrow' _ _ _ => hlookup hrow', List.nodup_nil, ?_,
    fun _ r _ pid via _ value _ x hx => absurd hx List.not_mem_nil,
    fun _ r _ eventId event _ _ e he => absurd he List.not_mem_nil⟩
  · intro r hr
    simp only [threeReports, List.mem_cons, List.not_mem_nil, or_false] at hr
    rcases hr with rfl | rfl | rfl
    · exact ⟨rfl, fun event hevent => ⟨"order_1", by cases hevent; rfl, rfl⟩⟩
    · rfl
    · exact ⟨rfl, fun event hevent => ⟨"order_1", by cases hevent; rfl, rfl⟩⟩
  · have hfirst :
        (capturedEvent "evt_1" 9000).delivered begunShop = some ("razorpay:evt_1", _) := rfl
    have hlast :
        (capturedEvent "evt_2" 10000).delivered begunShop = some ("razorpay:evt_2", _) := rfl
    have hbrowser : verifyBegun.delivered begunShop = none := rfl
    intro r hr r' hr' eventId event event' h h'
    simp only [threeReports, List.mem_cons, List.not_mem_nil, or_false] at hr hr'
    rcases hr with rfl | rfl | rfl <;> rcases hr' with rfl | rfl | rfl <;>
      simp_all

end PaymentSample

open PaymentSample in
/-- The browser's report is the first with a proof. -/
theorem reaches_capturedOnce_sample :
    ∃ c : Config sales Unit,
      Reaches (.free sales) (.start begunShop (threeReports.map PaymentRequest.program)) c ∧
      c.Quiescent ∧ (completedCharges "shop" "pay_1" c.committed).length ≤ 1 ∧
      c.committed.payments.lookup "payment" = some (begun.capture (some "pay_1") "checkout") := by
  have hrun : (play (.free sales) begunShop threeReports reportsMeet).map
      (fun c => (decide c.Quiescent, firstProof begunShop "payment" begun threeReports c.log)) =
        some (true, some (some "pay_1", "checkout")) := by decide +kernel
  obtain ⟨c, hc, hend⟩ := Option.map_eq_some_iff.mp hrun
  obtain ⟨hquiescent, hfirst⟩ := Prod.mk.inj hend
  have hreach := reaches_play hc
  obtain ⟨hcharges, hrow, -, -⟩ := reaches_capturedOnce captureSetting_begunShop hreach
  rw [hfirst] at hrow
  exact ⟨c, hreach, of_decide_eq_true hquiescent, hcharges "shop" "pay_1", hrow⟩

end PulseOps
