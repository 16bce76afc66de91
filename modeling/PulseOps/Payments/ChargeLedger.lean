import PulseOps.Payments.StatusTransitions

/-!
# The charges behind captured payments

Whatever completes a payment writes a COMPLETED CHARGE transaction with it, over the amount
of the payment; later refunds write other transactions. The generic webhook is the exception:
it takes the amount from the event, and writes no charge when a transaction with the id of
the event is on the books already. Where events agree with the books, every captured payment
has exactly one charge.

## Main definitions

* `countedCharges` — the COMPLETED charges of a payment, without the late ones.
* `ChargedOnce` — a captured payment has one charge, over its amount.
* `eventsChargeInFull` — the discipline: events that complete a payment agree with the books.

## Main results

* `PaymentEffect.chargedOnce` — one effect.
* `reaches_chargedOnce` — every run.
-/

set_option autoImplicit false

open ReadCommitted Program

namespace PulseOps

open PaymentService

variable {s s' s₀ : Db} {es es' : List Edit} {rs : List PaymentRequest} {c : Config sales Unit}
  {k : EffectKind} {id : Uuid} {row row' : Payment} {x : PaymentTransaction}

/-- Whether a transaction counts as a charge of the payment. -/
def PaymentTransaction.countsFor (id : Uuid) (x : PaymentTransaction) : Bool :=
  x.paymentId = id ∧ x.type = .charge ∧ x.status = .completed ∧ x.noted = false

/-- The COMPLETED charges of a payment, without those that only note money that came after
it was closed. -/
def countedCharges (id : Uuid) (s : Db) : List PaymentTransaction :=
  s.paymentTransactions.filter (PaymentTransaction.countsFor id)

/-- A captured payment has exactly one charge, over its amount. One that is open, or not
there, has none. -/
structure ChargedOnce (id : Uuid) (s : Db) : Prop where
  missing : s.payments.lookup id = none → countedCharges id s = []
  opened : ∀ row, s.payments.lookup id = some row → row.status.isOpen = true →
    countedCharges id s = []
  captured : ∀ row, s.payments.lookup id = some row → row.status.isCaptured = true →
    ∃ x, countedCharges id s = [x] ∧ x.amount = row.amount

/-- What the event says of its transaction agrees with a payment of that amount: the event
gives no amount or this one, and no transaction in `s` has its id. -/
def PaymentWebhookEvent.agreesWith (event : PaymentWebhookEvent) (amount : Cents) (s : Db) :
    Bool :=
  event.payload.all fun details => (details.amount.all fun given => given = amount) ∧
    s.paymentTransactions.all fun x =>
      ¬ (x.tenantId = event.tenantId ∧ x.providerTransactionId = details.providerTransactionId)

/-- A generic event that completes a payment agrees with the books it commits to. -/
def eventsChargeInFull : Discipline sales where
  commit s t := t.edits.all fun
    | .paymentWebhookEventInsert event => t.edits.all fun
      | .paymentUpdate _ row => row.status ≠ .completed ∨ event.agreesWith row.amount s
      | _ => true
    | _ => true

/-! ### Charges after an effect -/

/-- The transactions that a list of edits writes. -/
def newTransactions (es : List Edit) : List PaymentTransaction :=
  es.filterMap fun
    | .paymentTransactionInsert x => some x
    | _ => none

theorem newTransactions_append :
    newTransactions (es ++ es') = newTransactions es ++ newTransactions es' :=
  List.filterMap_append ..

theorem newTransactions_charges (xs : List PaymentTransaction) :
    newTransactions (xs.map chargeEdit) = xs := by
  rw [newTransactions, List.filterMap_map]
  exact List.filterMap_some

/-- The transactions after a list of edits. -/
theorem transactions_eq_append (es : List Edit) (s : Db) :
    (sales.replay es s).paymentTransactions = s.paymentTransactions ++ newTransactions es := by
  induction es generalizing s with
  | nil => exact (List.append_nil _).symm
  | cons e es ih =>
    rw [Database.replay_cons, ih]
    cases e with
    | paymentTransactionInsert x =>
      change s.paymentTransactions ++ [x] ++ newTransactions es = _
      rw [List.append_assoc]
      rfl
    | _ => rfl

/-- The charges of a payment after an effect, and those the effect adds. -/
theorem countedCharges_replay (id : Uuid) (hcore : coreEdits es = es') :
    countedCharges id (sales.replay es s) =
      countedCharges id s ++ (newTransactions es').filter (PaymentTransaction.countsFor id) := by
  rw [countedCharges, transactions_replay hcore, transactions_eq_append, List.filter_append]
  rfl

/-- An update of a payment, with the transactions written for it. -/
theorem countedCharges_update (id₀ : Uuid) {xs : List PaymentTransaction}
    (hcore : coreEdits es = .paymentUpdate id row :: xs.map chargeEdit) :
    countedCharges id₀ (sales.replay es s) =
      countedCharges id₀ s ++ xs.filter (PaymentTransaction.countsFor id₀) := by
  have hnew : newTransactions (.paymentUpdate id row :: xs.map chargeEdit) = xs :=
    newTransactions_charges xs
  rw [countedCharges_replay id₀ hcore, hnew]

/-- Transactions of another payment, or that are no completed charges. -/
theorem filter_countsFor_eq_nil {xs : List PaymentTransaction}
    (h : ∀ x ∈ xs, x.paymentId ≠ id ∨ x.type ≠ .charge ∨ x.status ≠ .completed) :
    xs.filter (PaymentTransaction.countsFor id) = [] := by
  rw [List.filter_eq_nil_iff]
  intro x hx hcounts
  obtain ⟨hid, htype, hstatus, -⟩ := of_decide_eq_true hcounts
  rcases h x hx with hne | hne | hne
  · exact hne hid
  · exact hne htype
  · exact hne hstatus

/-! ### One effect -/

/-- A payment that stays as it is. -/
theorem ChargedOnce.kept (h : ChargedOnce id s)
    (hrow : s'.payments.lookup id = s.payments.lookup id)
    (hcharges : countedCharges id s' = countedCharges id s) : ChargedOnce id s' where
  missing hnone := hcharges.trans (h.missing (hrow ▸ hnone))
  opened row hrow' hopen := hcharges.trans (h.opened row (hrow ▸ hrow') hopen)
  captured row hrow' hcaptured := by
    rw [hcharges]
    exact h.captured row (hrow ▸ hrow') hcaptured

/-- A payment with its new version. -/
theorem chargedOnce_of_row (hrow : s.payments.lookup id = some row)
    (hopen : row.status.isOpen = true → countedCharges id s = [])
    (hcaptured : row.status.isCaptured = true →
      ∃ x, countedCharges id s = [x] ∧ x.amount = row.amount) : ChargedOnce id s where
  missing hnone := by
    rw [hrow] at hnone
    cases hnone
  opened row' hrow' := by
    obtain rfl := Option.some.inj (hrow.symm.trans hrow')
    exact hopen
  captured row' hrow' := by
    obtain rfl := Option.some.inj (hrow.symm.trans hrow')
    exact hcaptured

/-- An open payment is completed with one charge, or fails. -/
theorem ChargedOnce.settle {xs : List PaymentTransaction} {id₀ : Uuid} (h : ChargedOnce id₀ s)
    (hcore : coreEdits es = .paymentUpdate id row' :: xs.map chargeEdit)
    (hrow : s.payments.lookup id = some row) (hopen : row.status.isOpen = true)
    (hpaymentId : ∀ x ∈ xs, x.paymentId = id)
    (hstatus : row'.status = .completed ∨ row'.status = .failed)
    (hcompleted : row'.status = .completed →
      ∃ x, xs = [x] ∧ x.countsFor id = true ∧ x.amount = row'.amount) :
    ChargedOnce id₀ (sales.replay es s) := by
  have hcharges := countedCharges_update (s := s) id₀ hcore
  have hpayments := payments_of_update (s := s) hcore
  rcases lookup_insert_cases s.payments id id₀ row' with ⟨rfl, hlookup⟩ | ⟨hne, hlookup⟩
  · rw [h.opened row hrow hopen, List.nil_append] at hcharges
    refine chargedOnce_of_row (hpayments ▸ hlookup) (fun hopen' => ?_) fun hcaptured => ?_
    · rcases hstatus with heq | heq <;> rw [heq] at hopen' <;> cases hopen'
    · rcases hstatus with heq | heq
      · obtain ⟨x, rfl, hcounts, hamount⟩ := hcompleted heq
        exact ⟨x, hcharges.trans (by simp [hcounts]), hamount⟩
      · rw [heq] at hcaptured
        cases hcaptured
  · have hnone : xs.filter (PaymentTransaction.countsFor id₀) = [] := by
      apply filter_countsFor_eq_nil
      intro x hx
      rw [hpaymentId x hx]
      exact .inl (Ne.symm hne)
    rw [hnone, List.append_nil] at hcharges
    exact h.kept (hpayments ▸ hlookup) hcharges

/-- A captured payment stays captured, and no charge is written. -/
theorem ChargedOnce.recaptured {id₀ : Uuid} (h : ChargedOnce id₀ s)
    (hrow : s.payments.lookup id = some row) (hcaptured : row.status.isCaptured = true)
    (hsame : row.Same row') (hcaptured' : row'.status.isCaptured = true)
    (hpayments : s'.payments = s.payments.insert id row')
    (hcharges : countedCharges id₀ s' = countedCharges id₀ s) : ChargedOnce id₀ s' := by
  rcases lookup_insert_cases s.payments id id₀ row' with ⟨rfl, hlookup⟩ | ⟨-, hlookup⟩
  · refine chargedOnce_of_row (hpayments ▸ hlookup) (fun hopen => ?_) fun _ => ?_
    · cases hstatus : row'.status <;> simp_all [PaymentStatus.isOpen, PaymentStatus.isCaptured]
    · rw [hcharges, ← hsame.amount]
      exact h.captured row hrow hcaptured
  · exact h.kept (hpayments ▸ hlookup) hcharges

/-- The payments and the charges of a sale. -/
theorem saleCharges {paid : List NewPayment} {p : NewPayment} (hids : (paid.map (·.id)).Nodup)
    (hp : p ∈ paid) (hcompleted : ∀ q ∈ paid, q.row.status = .completed) (s : Db) :
    (sales.replay (paid.flatMap NewPayment.edits) s).payments.lookup p.id = some p.row ∧
      (paid.map (·.charge)).filter (PaymentTransaction.countsFor p.id) = [p.charge] := by
  induction paid generalizing s with
  | nil => cases hp
  | cons q paid ih =>
    rw [List.map_cons, List.nodup_cons] at hids
    have hother {r : NewPayment} (hr : r ∈ paid) : r.id ≠ q.id := by
      intro heq
      exact hids.1 (List.mem_map.mpr ⟨r, hr, heq⟩)
    rw [List.flatMap_cons, Database.replay_append, List.map_cons]
    rcases List.mem_cons.mp hp with rfl | hp
    · constructor
      · have hframe : ∀ e ∈ paid.flatMap NewPayment.edits, Key.payment p.id ∉ e.footprint := by
          intro e he
          obtain ⟨r, hr, he⟩ := List.mem_flatMap.mp he
          rcases List.mem_pair.mp he with rfl | rfl
          · simpa [Edit.footprint] using (hother hr).symm
          · exact payment_notMem_charge
        rw [lookup_payments_frame hframe]
        exact AList.lookup_insert _
      · -- its own charge counts; those of the other payments bear other ids
        have hcounts : p.charge.countsFor p.id = true := by
          have hcharged := p.charged
          exact decide_eq_true ⟨hcharged.paymentId, hcharged.type,
            hcharged.status.trans (hcompleted p List.mem_cons_self), hcharged.unnoted⟩
        have hrest : (paid.map (·.charge)).filter (PaymentTransaction.countsFor p.id) = [] := by
          apply filter_countsFor_eq_nil
          intro x hx
          obtain ⟨r, hr, rfl⟩ := List.mem_map.mp hx
          rw [r.charged.paymentId]
          exact .inl (hother hr)
        rw [List.filter_cons_of_pos hcounts, hrest]
    · obtain ⟨hlookup, hcharges⟩ := ih hids.2 hp
        (fun r hr => hcompleted r (List.mem_cons_of_mem _ hr)) (sales.replay q.edits s)
      refine ⟨hlookup, ?_⟩
      have hnot : ¬ q.charge.countsFor p.id = true := by
        intro hcounts
        have hid := (of_decide_eq_true hcounts).1
        rw [q.charged.paymentId] at hid
        exact hother hp hid.symm
      rw [List.filter_cons_of_neg hnot, hcharges]

theorem newTransactions_sale (paid : List NewPayment) (orderId : Uuid) (order order' : Order) :
    newTransactions (.orderInsert orderId order ::
      (paid.flatMap NewPayment.edits ++ [.orderUpdate orderId order'])) =
      paid.map (·.charge) := by
  have hpaid : newTransactions (paid.flatMap NewPayment.edits) = paid.map (·.charge) := by
    induction paid with
    | nil => rfl
    | cons p paid ih =>
      rw [List.flatMap_cons, newTransactions_append, ih]
      rfl
  change newTransactions (paid.flatMap NewPayment.edits ++ [.orderUpdate orderId order']) = _
  rw [newTransactions_append, hpaid]
  exact List.append_nil _

/-- A payment that a generic event completes is charged in full. -/
theorem PaymentWebhookEvent.agreesWith_spec {event : PaymentWebhookEvent} {amount : Cents}
    {details : WebhookDetails} (h : event.agreesWith amount s = true)
    (hpayload : event.payload = some details) :
    details.amount.getD amount = amount ∧ ¬ ∃ x ∈ s.paymentTransactions,
      x.tenantId = event.tenantId ∧ x.providerTransactionId = details.providerTransactionId := by
  rw [agreesWith, hpayload] at h
  obtain ⟨hamount, hnone⟩ := of_decide_eq_true h
  constructor
  · cases hgiven : details.amount with
    | none => rfl
    | some given =>
      rw [hgiven] at hamount
      exact of_decide_eq_true hamount
  · rintro ⟨x, hx, hsame⟩
    exact absurd hsame (of_decide_eq_true (List.all_eq_true.mp hnone x hx))

/-- Every effect keeps one charge for a captured payment, if events agree with the books. -/
theorem PaymentEffect.chargedOnce (he : PaymentEffect s es k)
    (hok : ∀ event id row, .paymentWebhookEventInsert event ∈ es → .paymentUpdate id row ∈ es →
      row.status = .completed → event.agreesWith row.amount s = true)
    (h : ChargedOnce id s) : ChargedOnce id (sales.replay es s) := by
  have hcaptured {row : Payment} (hstatus : row.status = .completed ∨
      row.status = .partiallyRefunded) : row.status.isCaptured = true := by
    rcases hstatus with heq | heq <;> rw [heq] <;> rfl
  cases he with
  | note hcore =>
    exact h.kept (congrArg _ (payments_replay hcore))
      ((countedCharges_replay id hcore).trans (List.append_nil _))
  | @late x hcore htype hnoted =>
    -- a late charge is not counted
    have hnone :
        (newTransactions [chargeEdit x]).filter (PaymentTransaction.countsFor id) = [] := by
      simp [newTransactions, chargeEdit, PaymentTransaction.countsFor, hnoted]
    have hcharges := countedCharges_replay (s := s) id hcore
    rw [hnone, List.append_nil] at hcharges
    exact h.kept (congrArg _ (payments_replay hcore)) hcharges
  | @confirm id' row status providerPaymentId x hcore hrow hopen hstatus hcharge _ =>
    have hcharged : coreEdits es =
        .paymentUpdate id' { row with status, providerPaymentId } :: [x].map chargeEdit := hcore
    refine h.settle hcharged hrow hopen (fun y hy => ?_) hstatus fun hcompleted => ?_
    · obtain rfl := List.mem_singleton.mp hy
      exact hcharge.paymentId
    · exact ⟨x, rfl, decide_eq_true ⟨hcharge.paymentId, hcharge.type,
        hcharge.status.trans hcompleted, hcharge.unnoted⟩, hcharge.amount⟩
  | @event id' row status xs event details hcore hrow hopen hstatus hlength hcharge hevent
      hpayload hskip =>
    refine h.settle hcore hrow hopen (fun x hx => (hcharge x hx).paymentId) hstatus
      fun hcompleted => ?_
    have hupdate : .paymentUpdate id' { row with status } ∈ es :=
      mem_of_mem_coreEdits (hcore ▸ List.mem_cons_self)
    obtain ⟨hamount, hnone⟩ :=
      PaymentWebhookEvent.agreesWith_spec (hok event id' _ hevent hupdate hcompleted) hpayload
    cases xs with
    | nil => exact absurd (hskip rfl) hnone
    | cons x xs =>
      -- an event notes one charge at most
      obtain rfl : xs = [] := List.eq_nil_of_length_eq_zero (by simpa using hlength)
      have hx := hcharge x List.mem_cons_self
      exact ⟨x, rfl, decide_eq_true ⟨hx.paymentId, hx.type, hx.status.trans hcompleted, hx.unnoted⟩,
        hx.amount.trans hamount⟩
  | @capture id' row razorpayPaymentId via x hcore hrow hopen hcharge _ =>
    have hcharged : coreEdits es =
        .paymentUpdate id' (row.capture razorpayPaymentId via) :: [x].map chargeEdit := hcore
    refine h.settle hcharged hrow hopen (fun y hy => ?_) (.inl rfl) fun hcompleted => ?_
    · obtain rfl := List.mem_singleton.mp hy
      exact hcharge.paymentId
    · exact ⟨x, rfl, decide_eq_true ⟨hcharge.paymentId, hcharge.type,
        hcharge.status.trans hcompleted, hcharge.unnoted⟩, hcharge.amount⟩
  | @refundEvent id' row xs event hcore hrow hstatus htype _ _ =>
    refine h.recaptured hrow (hcaptured hstatus) (.withStatus _ _) rfl (payments_of_update hcore) ?_
    have hnone : xs.filter (PaymentTransaction.countsFor id) = [] := by
      apply filter_countsFor_eq_nil
      intro x hx
      rw [htype x hx]
      exact .inr (.inl (by decide))
    rw [countedCharges_update id hcore, hnone, List.append_nil]
  | @refund id' row refund x hcore hrow hstatus _ _ _ _ _ htype =>
    refine h.recaptured hrow (hcaptured hstatus) (.withStatus _ _) ?_ (payments_replay hcore) ?_
    · change (refundStatus _ _).isCaptured = true
      unfold refundStatus
      split <;> rfl
    · have hnone : [x].filter (PaymentTransaction.countsFor id) = [] := by
        apply filter_countsFor_eq_nil
        intro y hy
        obtain rfl := List.mem_singleton.mp hy
        rw [htype]
        exact .inr (.inl (by decide))
      rw [countedCharges_replay id hcore]
      change countedCharges id s ++ [x].filter _ = _
      rw [hnone, List.append_nil]
  | @opened stale p order hcore hstale hfresh horder hamount hpos hstatus =>
    have heffect : PaymentEffect s es (.opened stale.isSome) :=
      .opened hcore hstale hfresh horder hamount hpos hstatus
    -- the charge of a payment that is opened is PENDING
    have hnone : (newTransactions (stale.toList.map cancelEdit ++ p.edits)).filter
        (PaymentTransaction.countsFor id) = [] := by
      have hnew : newTransactions (stale.toList.map cancelEdit ++ p.edits) = [p.charge] := by
        cases stale <;> rfl
      rw [hnew]
      apply filter_countsFor_eq_nil
      intro y hy
      obtain rfl := List.mem_singleton.mp hy
      rw [p.charged.status, hstatus]
      exact .inr (.inr (by decide))
    have hcharges := countedCharges_replay (s := s) id hcore
    rw [hnone, List.append_nil] at hcharges
    obtain ⟨id₀, row₀, hopening⟩ := heffect.opening
    by_cases hid : id = id₀
    · subst hid
      refine chargedOnce_of_row hopening.lookup (fun _ => ?_) fun hcaptured => ?_
      · exact hcharges.trans (h.missing hopening.fresh)
      · rw [hopening.status] at hcaptured
        cases hcaptured
    · rcases hopening.others id hid with hkept | ⟨row, hrow, -, hmem⟩
      · exact h.kept hkept hcharges
      · refine chargedOnce_of_row (hopening.updates _ _ hmem) (fun hopen => ?_) fun hcaptured => ?_
        · cases hopen
        · cases hcaptured
  | @sale orderId order paid hcore hfresh hnew hids hpaid htotal =>
    have hpayments : (sales.replay es s).payments =
        (sales.replay (paid.flatMap NewPayment.edits)
          (s.apply (.orderInsert orderId order))).payments := by
      rw [payments_replay hcore, Database.replay_cons, Database.replay_append]
      rfl
    have hcharges := countedCharges_replay (s := s) id hcore
    rw [newTransactions_sale] at hcharges
    by_cases hid : id ∈ paid.map (·.id)
    · obtain ⟨p, hp, rfl⟩ := List.mem_map.mp hid
      obtain ⟨hlookup, hcounted⟩ := saleCharges hids hp (fun q hq => (hpaid q hq).2.1)
        (s.apply (.orderInsert orderId order))
      rw [hcounted, h.missing (hnew p hp), List.nil_append] at hcharges
      refine chargedOnce_of_row (hpayments ▸ hlookup) (fun hopen => ?_) fun _ => ?_
      · rw [(hpaid p hp).2.1] at hopen
        cases hopen
      · exact ⟨p.charge, hcharges, p.charged.amount⟩
    · have hnone : (paid.map (·.charge)).filter (PaymentTransaction.countsFor id) = [] := by
        apply filter_countsFor_eq_nil
        intro x hx
        obtain ⟨p, hp, rfl⟩ := List.mem_map.mp hx
        rw [p.charged.paymentId]
        exact .inl fun heq => hid (List.mem_map.mpr ⟨p, hp, heq⟩)
      rw [hnone, List.append_nil] at hcharges
      rcases lookup_payments_inserts id hids (s.apply (.orderInsert orderId order)) with
        ⟨p, hp, rfl, -⟩ | hlookup
      · exact absurd (List.mem_map.mpr ⟨p, hp, rfl⟩) hid
      · exact h.kept (hpayments ▸ hlookup) hcharges

/-- In every run in which the generic events that complete payments agree with the books,
every captured payment has exactly one charge, over its amount. -/
theorem reaches_chargedOnce (hs : ChargedOnce id s₀)
    (h : Reaches eventsChargeInFull (.start s₀ (rs.map PaymentRequest.program)) c) :
    ∀ s ∈ c.history s₀, ChargedOnce id s := by
  refine reaches_invariant hs (fun s t k hI _ he hok => he.chargedOnce ?_ hI) h
  intro event id' row hevent hupdate hcompleted
  have hall := List.all_eq_true.mp (List.all_eq_true.mp hok _ hevent) _ hupdate
  rcases of_decide_eq_true hall with hne | hagrees
  · exact absurd hcompleted hne
  · exact hagrees

/-! ### An event with another amount -/

namespace PaymentSample

/-- The body of a `payment.succeeded` event, up to its amount. -/
def succeededBody (amount : String) : String :=
  "\x7b\"eventId\":\"evt_2\",\"type\":\"payment.succeeded\",\"paymentId\":\"payment\"" ++ amount ++
    "\x7d"

/-- The provider says that the payment has succeeded, maybe over an amount. -/
def succeededEvent (text : String) (amount : Option Cents) : PaymentRequest :=
  .webhook { paymentWebhookSecret := "whsec", hmacSha256 := fun _ _ => "4f8a" }
    (succeededBody text)
    { eventId := some "evt_2", type := .paymentSucceeded, paymentId := some "payment"
      providerTransactionId := some "ch_2", amount := amount } (some "4f8a")

theorem attemptedShop_chargedOnce : ChargedOnce "payment" attemptedShop :=
  ⟨fun _ => rfl, fun _ _ _ => rfl, fun row hrow hcaptured => by
    obtain rfl : attempt = row := Option.some.inj hrow
    cases hcaptured⟩

/-- The status of the payment and the amounts of its charges. -/
def charged (s : Db) : Option PaymentStatus × List Cents :=
  ((s.payments.lookup "payment").map (·.status), (countedCharges "payment" s).map (·.amount))

end PaymentSample

open PaymentSample in
/-- An event without an amount. -/
theorem reaches_chargedOnce_sample :
    ∃ c : Config sales Unit,
      Reaches eventsChargeInFull
        (.start attemptedShop ([succeededEvent "" none].map PaymentRequest.program)) c ∧
      charged c.committed = (some .completed, [10000]) ∧
      ∀ s ∈ c.history attemptedShop, ChargedOnce "payment" s := by
  have hrun : (play eventsChargeInFull attemptedShop [succeededEvent "" none]
      (List.replicate 9 (.advance 0))).map (fun c => charged c.committed) =
        some (some .completed, [10000]) := by decide +kernel
  obtain ⟨c, hc, hend⟩ := Option.map_eq_some_iff.mp hrun
  have hreach := reaches_play hc
  exact ⟨c, hreach, hend, reaches_chargedOnce attemptedShop_chargedOnce hreach⟩

open PaymentSample in
/-- An event over sixty rupees completes a payment of a hundred. -/
theorem partialEvent_not_chargedOnce :
    ChargedOnce "payment" attemptedShop ∧ ∃ c : Config sales Unit,
      Reaches (.free sales) (.start attemptedShop
        ([succeededEvent ",\"amount\":\"60.00\"" (some 6000)].map PaymentRequest.program)) c ∧
        ¬ ChargedOnce "payment" c.committed := by
  have hrun : (play (.free sales) attemptedShop [succeededEvent ",\"amount\":\"60.00\"" (some 6000)]
      (List.replicate 9 (.advance 0))).map (fun c => (charged c.committed,
        (c.committed.payments.lookup "payment").map (·.amount))) =
        some ((some .completed, [6000]), some 10000) := by decide +kernel
  obtain ⟨c, hc, hend⟩ := Option.map_eq_some_iff.mp hrun
  obtain ⟨hcharged, hamount⟩ := Prod.mk.inj hend
  obtain ⟨hstatus, hcharges⟩ := Prod.mk.inj hcharged
  refine ⟨attemptedShop_chargedOnce, c, reaches_play hc, fun hone => ?_⟩
  obtain ⟨row, hrow, hstatus⟩ := Option.map_eq_some_iff.mp hstatus
  rw [hrow] at hamount
  have hamount : row.amount = 10000 := Option.some.inj hamount
  obtain ⟨x, hx, heq⟩ := hone.captured row hrow (by rw [hstatus]; rfl)
  rw [hx, List.map_singleton, heq, hamount] at hcharges
  exact absurd hcharges (by decide)

end PulseOps
