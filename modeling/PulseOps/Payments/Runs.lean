import PulseOps.Payments.Outcomes

/-!
# Runs of payment requests

What every effect keeps, every interleaving of payment requests keeps. Most properties are
about one payment at a time, and for those `PaymentStep` says all that an effect can do to
a payment and its refunds.

## Main definitions

* `PaymentStep` — what becomes of one payment.
* `Opening` — what becomes of all payments when one is opened.

## Main results

* `reaches_effects`, `reaches_history` — the rules for runs.
* `PaymentEffect.step` — an effect is a step of every payment.
* `PaymentEffect.opening` — what opening a payment does to all of them.
-/

set_option autoImplicit false

open ReadCommitted Program Contract

namespace PulseOps

open PaymentService

variable {s s' s₀ : Db} {es : List Edit} {R : Discipline sales} {rs : List PaymentRequest}
  {c : Config sales Unit} {k : EffectKind} {id id₀ : Uuid}

/-! ### The rule for runs -/

/-- Every request meets its precondition when it starts. -/
theorem wp_program (r : PaymentRequest) (s₀ : Db) :
    paymentContract.wp R (paymentContract.Commits R fun _ => Settled r.kinds) r.program {} s₀ := by
  have hstart : At (.calls []) [] {} s₀ := ⟨rfl, by simp [Covered], rfl⟩
  exact wp_mono (r.triple {} s₀ trivial hstart) fun _ _ _ h _ _ => ⟨h.guarantee, h⟩

/-- The committed states of a run: what every effect keeps holds of each, and each follows
from the one before by an effect. -/
theorem reaches_effects {I : Db → Prop} {E : Db → Db → Prop} (hs : I s₀)
    (hstep : ∀ s t k, I s → (∃ r ∈ rs, k ∈ r.kinds) → PaymentEffect s t.edits k →
      R.commit s t = true → I (t.view s) ∧ E s (t.view s))
    (h : Reaches R (.start s₀ (rs.map PaymentRequest.program)) c) :
    (∀ s ∈ c.history s₀, I s) ∧ (c.history s₀).IsChain fun s' s => E s s' := by
  refine reaches_chain (L := paymentContract)
    (Q := fun _ => Settled (rs.flatMap PaymentRequest.kinds)) trivial (fun p hp => ?_) hs
    (fun s _ t hI hok _ _ hsettled => ?_) h
  · obtain ⟨r, hr, rfl⟩ := List.mem_map.mp hp
    refine wp_mono (wp_program r s₀) fun _ t s h hs hok => ?_
    obtain ⟨hguarantee, hcovered, k, hk, heffect⟩ := h hs hok
    exact ⟨hguarantee, hcovered, k, List.mem_flatMap.mpr ⟨r, hr, hk⟩, heffect⟩
  · obtain ⟨-, k, hk, heffect⟩ := hsettled
    exact hstep s t k hI (List.mem_flatMap.mp hk) heffect hok

/-- What every effect keeps, every run keeps: a property of the committed states, and a
preorder in which they move. -/
theorem reaches_history {I : Db → Prop} {T : Db → Db → Prop} (hrefl : ∀ s, T s s)
    (htrans : ∀ s s' s'', T s s' → T s' s'' → T s s'') (hs : I s₀)
    (hstep : ∀ s t k, I s → (∃ r ∈ rs, k ∈ r.kinds) → PaymentEffect s t.edits k →
      R.commit s t = true → I (t.view s) ∧ T s (t.view s))
    (h : Reaches R (.start s₀ (rs.map PaymentRequest.program)) c) :
    ∀ s ∈ c.history s₀, I s ∧ T s c.committed := by
  obtain ⟨hall, hchain⟩ := reaches_effects hs hstep h
  obtain ⟨older, hhistory⟩ := h.exists_history
  intro s hmem
  refine ⟨hall s hmem, ?_⟩
  rw [hhistory] at hchain hmem
  exact rel_of_isChain hrefl htrans hchain s hmem

/-- What every effect keeps is true of every committed state. -/
theorem reaches_invariant {I : Db → Prop} (hs : I s₀)
    (hstep : ∀ s t k, I s → (∃ r ∈ rs, k ∈ r.kinds) → PaymentEffect s t.edits k →
      R.commit s t = true → I (t.view s))
    (h : Reaches R (.start s₀ (rs.map PaymentRequest.program)) c) : ∀ s ∈ c.history s₀, I s :=
  fun s hmem => (reaches_history (T := fun _ _ => True) (fun _ => trivial)
    (fun _ _ _ _ _ => trivial) hs (fun s t k hI hk he hok => ⟨hstep s t k hI hk he hok, trivial⟩)
    h s hmem).1

/-! ### One payment -/

/-- What an effect can do to one payment. -/
inductive PaymentStep (id : Uuid) (s s' : Db) : EffectKind → Prop
  | kept {k : EffectKind} (hrow : s'.payments.lookup id = s.payments.lookup id)
      (hrefunds : refundsOf id s' = refundsOf id s) : PaymentStep id s s' k
  | settled {k : EffectKind} {row row' : Payment} (hrow : s.payments.lookup id = some row)
      (hrow' : s'.payments.lookup id = some row') (hrefunds : refundsOf id s' = refundsOf id s)
      (hopen : row.status.isOpen = true) (hsame : row.Same row')
      (hstatus : row'.status = .completed ∨ row'.status = .failed) : PaymentStep id s s' k
  | refundEvent {row : Payment} (hrow : s.payments.lookup id = some row)
      (hrow' : s'.payments.lookup id = some { row with status := .refunded })
      (hrefunds : refundsOf id s' = refundsOf id s)
      (hstatus : row.status = .completed ∨ row.status = .partiallyRefunded) :
      PaymentStep id s s' .refundEvent
  | refunded {row : Payment} {refund : Refund} (hrow : s.payments.lookup id = some row)
      (hrow' : s'.payments.lookup id = some { row with
        status := refundStatus row.amount (refundedCents id row.tenantId s + refund.amount) })
      (hrefunds : refundsOf id s' = refundsOf id s ++ [refund])
      (hstatus : row.status = .completed ∨ row.status = .partiallyRefunded)
      (hpos : 0 < refund.amount)
      (hle : refund.amount ≤ row.amount - refundedCents id row.tenantId s)
      (htenant : refund.tenantId = row.tenantId) (hcompleted : refund.status = .completed) :
      PaymentStep id s s' .refund
  | cancelled {row : Payment} (hrow : s.payments.lookup id = some row)
      (hrow' : s'.payments.lookup id = some { row with status := .cancelled })
      (hrefunds : refundsOf id s' = refundsOf id s) : PaymentStep id s s' (.opened true)
  | opened {retires : Bool} {row : Payment} (hrow : s.payments.lookup id = none)
      (hrow' : s'.payments.lookup id = some row) (hrefunds : refundsOf id s' = refundsOf id s)
      (hstatus : row.status = .pending) (hpos : 0 < row.amount) :
      PaymentStep id s s' (.opened retires)
  | sold {row : Payment} (hrow : s.payments.lookup id = none)
      (hrow' : s'.payments.lookup id = some row) (hrefunds : refundsOf id s' = refundsOf id s)
      (hstatus : row.status = .completed) (hnonneg : 0 ≤ row.amount) : PaymentStep id s s' .sale

/-- An update of one payment, read at another or at the same. -/
theorem lookup_insert_cases (t : Table Uuid Payment) (id id' : Uuid) (row : Payment) :
    (id' = id ∧ (t.insert id row).lookup id' = some row) ∨
      (id' ≠ id ∧ (t.insert id row).lookup id' = t.lookup id') := by
  by_cases hid : id' = id
  · subst hid
    exact .inl ⟨rfl, AList.lookup_insert t⟩
  · exact .inr ⟨hid, AList.lookup_insert_ne hid⟩

/-- The payments of a sale, read at one id. -/
theorem lookup_payments_inserts (id : Uuid) {paid : List NewPayment}
    (hids : (paid.map (·.id)).Nodup) (s : Db) : (∃ p ∈ paid, p.id = id ∧
        (sales.replay (paid.flatMap NewPayment.edits) s).payments.lookup id = some p.row) ∨
      (sales.replay (paid.flatMap NewPayment.edits) s).payments.lookup id =
        s.payments.lookup id := by
  induction paid generalizing s with
  | nil => exact .inr rfl
  | cons p paid ih =>
    rw [List.map_cons, List.nodup_cons] at hids
    have hreplay : sales.replay ((p :: paid).flatMap NewPayment.edits) s =
        sales.replay (paid.flatMap NewPayment.edits) (sales.replay p.edits s) := by
      rw [List.flatMap_cons, Database.replay_append]
    rw [hreplay]
    rcases ih hids.2 (sales.replay p.edits s) with ⟨p', hp', hid, hlookup⟩ | hlookup
    · exact .inl ⟨p', List.mem_cons_of_mem _ hp', hid, hlookup⟩
    · rcases lookup_insert_cases s.payments p.id id p.row with ⟨hid, h⟩ | ⟨-, h⟩
      · exact .inl ⟨p, List.mem_cons_self, hid.symm, hlookup.trans h⟩
      · exact .inr (hlookup.trans h)

/-- A step of the payment that is updated, and of all others. -/
theorem PaymentStep.of_update {row' : Payment} (hid : id₀ = id → PaymentStep id₀ s s' k)
    (hpayments : s'.payments = s.payments.insert id row')
    (hrefunds : refundsOf id₀ s' = refundsOf id₀ s) : PaymentStep id₀ s s' k := by
  rcases lookup_insert_cases s.payments id id₀ row' with ⟨rfl, -⟩ | ⟨-, h⟩
  · exact hid rfl
  · exact .kept (hpayments ▸ h) hrefunds

/-- The row that an update leaves. -/
theorem lookup_of_update {row' : Payment} (hpayments : s'.payments = s.payments.insert id row') :
    s'.payments.lookup id = some row' :=
  hpayments ▸ AList.lookup_insert _

/-- An effect is a step of every payment. -/
theorem PaymentEffect.step (h : PaymentEffect s es k) (id : Uuid) :
    PaymentStep id s (sales.replay es s) k := by
  have hframe (hk : k ≠ .refund) : refundsOf id (sales.replay es s) = refundsOf id s :=
    h.refundsOf_eq hk
  cases h with
  | note hcore => exact .kept (congrArg _ (payments_replay hcore)) (hframe (by simp))
  | late hcore _ _ => exact .kept (congrArg _ (payments_replay hcore)) (hframe (by simp))
  | confirm hcore hrow hopen hstatus _ _ =>
    have hpayments := payments_replay (s := s) hcore
    refine .of_update (fun hid => ?_) hpayments (hframe (by simp))
    subst hid
    exact .settled hrow (lookup_of_update hpayments) (hframe (by simp)) hopen (.confirm _ _ _)
      hstatus
  | event hcore hrow hopen hstatus _ _ _ _ _ =>
    have hpayments := payments_of_update (s := s) hcore
    refine .of_update (fun hid => ?_) hpayments (hframe (by simp))
    subst hid
    exact .settled hrow (lookup_of_update hpayments) (hframe (by simp)) hopen (.withStatus _ _)
      hstatus
  | capture hcore hrow hopen _ _ =>
    have hpayments := payments_replay (s := s) hcore
    refine .of_update (fun hid => ?_) hpayments (hframe (by simp))
    subst hid
    exact .settled hrow (lookup_of_update hpayments) (hframe (by simp)) hopen (.capture _ _ _)
      (.inl rfl)
  | refundEvent hcore hrow hstatus _ _ _ =>
    have hpayments := payments_of_update (s := s) hcore
    refine .of_update (fun hid => ?_) hpayments (hframe (by simp))
    subst hid
    exact .refundEvent hrow (lookup_of_update hpayments) (hframe (by simp)) hstatus
  | @refund id' row refund x hcore hrow hstatus hpos hle hid htenant hcompleted htype =>
    have hpayments := payments_replay (s := s) hcore
    have happend : refundsOf id (sales.replay es s) =
        refundsOf id s ++ [refund].filter (·.paymentId = id) :=
      (refundsOf_congr (refunds_replay hcore)).trans (List.filter_append ..)
    -- the refund is on record for its own payment only
    by_cases hne : id = id'
    · subst hne
      have hlast : [refund].filter (·.paymentId = id) = [refund] := by simp [hid]
      rw [hlast] at happend
      exact .refunded hrow (lookup_of_update hpayments) happend hstatus hpos hle htenant hcompleted
    · have hnone : [refund].filter (·.paymentId = id) = [] := by simp [hid, Ne.symm hne]
      rw [hnone, List.append_nil] at happend
      exact .of_update (fun heq => absurd heq hne) hpayments happend
  | @opened stale p order hcore hstale hfresh horder hamount hpos hstatus =>
    have hpayments := payments_replay (s := s) hcore
    have hrefunds := hframe (by simp)
    rw [← hamount] at hpos
    cases stale with
    | none =>
      refine .of_update (fun hid => ?_) hpayments hrefunds
      subst hid
      exact .opened hfresh (lookup_of_update hpayments) hrefunds hstatus hpos
    | some q =>
      -- the payment is the one that is opened, the one that is cancelled for it, or another one
      have hq := (hstale q rfl).1
      rcases lookup_insert_cases (s.payments.insert q.1 { q.2 with status := .cancelled }) p.id id
        p.row with ⟨rfl, h⟩ | ⟨-, h⟩
      · exact .opened hfresh ((congrArg _ hpayments).trans h) hrefunds hstatus hpos
      · rcases lookup_insert_cases s.payments q.1 id { q.2 with status := .cancelled } with
          ⟨rfl, h'⟩ | ⟨-, h'⟩
        · exact .cancelled hq ((congrArg _ hpayments).trans (h.trans h')) hrefunds
        · exact .kept ((congrArg _ hpayments).trans (h.trans h')) hrefunds
  | @sale orderId order paid hcore hfresh hnew hids hpaid htotal =>
    have hpayments : (sales.replay es s).payments =
        (sales.replay (paid.flatMap NewPayment.edits)
          (s.apply (.orderInsert orderId order))).payments := by
      rw [payments_replay hcore, Database.replay_cons, Database.replay_append]
      rfl
    have hrefunds := hframe (by simp)
    rcases lookup_payments_inserts id hids (s.apply (.orderInsert orderId order)) with
      ⟨p, hp, rfl, h⟩ | h
    · exact .sold (hnew p hp) ((congrArg _ hpayments).trans h) hrefunds (hpaid p hp).2.1
        (hpaid p hp).2.2
    · exact .kept ((congrArg _ hpayments).trans h) hrefunds

/-! ### Opening a payment -/

/-- The payment `id₀` was opened: everything else is as before, or was cancelled. -/
structure Opening (s : Db) (es : List Edit) (id₀ : Uuid) (row₀ : Payment) : Prop where
  insert : .paymentInsert id₀ row₀ ∈ es
  fresh : s.payments.lookup id₀ = none
  lookup : (sales.replay es s).payments.lookup id₀ = some row₀
  status : row₀.status = .pending
  order : ∃ order, s.orders.lookup row₀.orderId = some order ∧ row₀.amount = order.total
  orders : (sales.replay es s).orders = s.orders
  table : (sales.replay es s).payments = s.payments.insert id₀ row₀ ∨
    ∃ id row, s.payments.lookup id = some row ∧ id ≠ id₀ ∧ (sales.replay es s).payments =
      (s.payments.insert id { row with status := .cancelled }).insert id₀ row₀
  updates : ∀ id row, .paymentUpdate id row ∈ es →
    (sales.replay es s).payments.lookup id = some row
  others : ∀ id, id ≠ id₀ → (sales.replay es s).payments.lookup id = s.payments.lookup id ∨
    ∃ row, s.payments.lookup id = some row ∧ row.orderId = row₀.orderId ∧
      .paymentUpdate id { row with status := .cancelled } ∈ es

/-- What opening a payment does. -/
theorem PaymentEffect.opening {retires : Bool} (h : PaymentEffect s es (.opened retires)) :
    ∃ id₀ row₀, Opening s es id₀ row₀ := by
  generalize hk : EffectKind.opened retires = k at h
  cases h with
  | @opened stale p order hcore hstale hfresh horder hamount _ hstatus =>
    have hpayments := payments_replay (s := s) hcore
    have hmem {e : Edit} (he : e ∈ stale.toList.map cancelEdit ++ p.edits) : e ∈ es :=
      mem_of_mem_coreEdits (hcore ▸ he)
    have hcoreOf {id : Uuid} {row : Payment} (he : .paymentUpdate id row ∈ es) :
        .paymentUpdate id row ∈ stale.toList.map cancelEdit := by
      have hin : .paymentUpdate id row ∈ coreEdits es := List.mem_filter.mpr ⟨he, rfl⟩
      rw [hcore] at hin
      simpa [NewPayment.edits, chargeEdit] using hin
    have hinsert : .paymentInsert p.id p.row ∈ es :=
      hmem (List.mem_append_right _ List.mem_cons_self)
    cases stale with
    | none =>
      -- no attempt was there before
      have htable : (sales.replay es s).payments = s.payments.insert p.id p.row := hpayments
      refine ⟨p.id, p.row, hinsert, hfresh, ?_, hstatus, ⟨order, horder, hamount⟩,
        orders_replay hcore, .inl htable, ?_, ?_⟩
      · rw [htable, AList.lookup_insert]
      · intro id row he
        exact absurd (hcoreOf he) (by simp)
      · intro id hid
        rw [htable, AList.lookup_insert_ne hid]
        exact .inl rfl
    | some q =>
      -- the attempt before is cancelled with the same commit
      obtain ⟨hq, hqOrder⟩ := hstale q rfl
      have htable : (sales.replay es s).payments =
          (s.payments.insert q.1 { q.2 with status := .cancelled }).insert p.id p.row := hpayments
      have hne : q.1 ≠ p.id := by
        intro heq
        rw [← heq, hq] at hfresh
        cases hfresh
      refine ⟨p.id, p.row, hinsert, hfresh, ?_, hstatus, ⟨order, horder, hamount⟩,
        orders_replay hcore, .inr ⟨q.1, q.2, hq, hne, htable⟩, ?_, ?_⟩
      · rw [htable, AList.lookup_insert]
      · intro id row he
        obtain ⟨rfl, rfl⟩ : id = q.1 ∧ row = { q.2 with status := .cancelled } := by
          simpa [cancelEdit] using hcoreOf he
        rw [htable, AList.lookup_insert_ne hne, AList.lookup_insert]
      · intro id hid
        rw [htable, AList.lookup_insert_ne hid]
        by_cases hidq : id = q.1
        · subst hidq
          exact .inr ⟨q.2, hq, hqOrder, hmem List.mem_cons_self⟩
        · exact .inl (AList.lookup_insert_ne hidq)
  | _ => cases hk

/-! ### A small shop with an order to pay -/

namespace PaymentSample

def order : Order :=
  { tenantId := "shop", customerId := "customer", status := .pending, subtotal := 10000
    discountTotal := 0, taxTotal := 0, shippingTotal := 0, total := 10000, currency := "INR"
    metadata := ∅, shippingAddress := none, billingAddress := none, invoiceNumber := "A/1"
    placeOfSupply := none, supplyType := .intra, cgstTotal := 0, sgstTotal := 0, igstTotal := 0
    buyerSnapshot := ⟨.consumer, "", none, none, none, none, "", none⟩
    sellerSnapshot := ⟨none, none, none, none, none, none, none, none, none, none, none, none,
      none, none⟩
    channel := .staff, createdAt := 0 }

/-- An order over ₹100 that nobody has paid yet. -/
def openShop : Db :=
  { paymentGateways := (∅ : Table Uuid PaymentGateway).insert "shop"
      { keyId := "rzp_test_1", keySecret := some "secret", webhookSecret := some "hook" }
    orders := (∅ : Table Uuid Order).insert "order" order }

/-- A payment of the order that was captured by Razorpay. -/
def captured : Payment :=
  { tenantId := "shop", orderId := "order", amount := 10000, currency := "INR"
    status := .completed, provider := razorpayProvider
    providerPaymentId := some "order_1"
    metadata := .ofList [("razorpayPaymentId", .str "pay_1")] }

/-- The order is paid. -/
def paidShop : Db :=
  { openShop with payments := (∅ : Table Uuid Payment).insert "payment" captured }

/-- A payment that was begun at Razorpay. -/
def begun : Payment :=
  { tenantId := "shop", orderId := "order", amount := 10000, currency := "INR"
    status := .pending, provider := razorpayProvider, providerPaymentId := some "order_1"
    metadata := .ofList [("amountMinor", .num 10000)] }

/-- Somebody has begun to pay the order online. -/
def begunShop : Db :=
  { openShop with payments := (∅ : Table Uuid Payment).insert "payment" begun }

/-- The browser hands over what Razorpay signed. -/
def verifyBegun : PaymentRequest :=
  .verify { hmacSha256 := fun _ _ => "4f8a" } "shop" "payment" ⟨"order_1", "pay_1", some "4f8a"⟩
    none none

/-- A refund of part of the payment. -/
def refundOf (amount : Cents) : PaymentRequest :=
  .refund "shop" "clerk" "payment" "refund" "r1" { amount }

/-- Run a schedule from its start. -/
def play (R : Discipline sales) (s : Db) (rs : List PaymentRequest) (xs : List (Action sales)) :
    Option (Config sales Unit) :=
  (Config.start s (rs.map PaymentRequest.program)).run R xs

theorem reaches_play {R : Discipline sales} {s : Db} {rs : List PaymentRequest}
    {xs : List (Action sales)} {c : Config sales Unit} (h : play R s rs xs = some c) :
    Reaches R (.start s (rs.map PaymentRequest.program)) c := reaches_of_run .refl h

end PaymentSample

end PulseOps
