import PulseOps.Payments.OpenPayments
import PulseOps.ReadCommitted.TableSum

/-!
# What is captured for an order

A payment opened for an order is over its total, and the payments of a counter sale add up
to it. So an order is never paid twice where each payment is opened alone: where the other
payments of the order have failed or are cancelled, and a cancelled attempt was still open.
Creating a payment does not look for a completed one, and nothing it looks for is locked.

## Main definitions

* `liveCents` — the amount of a payment that counts for its order.
* `LiveWithin` — what counts for an order is within its total.
* `opensInTurn` — the discipline: a payment is opened when all others of its order are void.
* `capturedEver` — the amounts of an order's payments that were ever COMPLETED.

## Main results

* `PaymentEffect.liveWithin` — one effect.
* `reaches_capturedEver` — every run.
-/

set_option autoImplicit false

open ReadCommitted Program

namespace PulseOps

open PaymentService

variable {s s' s₀ : Db} {es : List Edit} {rs : List PaymentRequest} {c : Config sales Unit}
  {k : EffectKind} {id orderId : Uuid} {row row' : Payment}

/-- FAILED or CANCELLED. -/
def PaymentStatus.isVoid : PaymentStatus → Bool
  | .failed => true
  | .cancelled => true
  | _ => false

/-- What a payment counts for the order: its amount, unless it is void. -/
def liveCents (orderId : Uuid) (_ : Uuid) (row : Payment) : Cents :=
  if row.orderId = orderId ∧ row.status.isVoid = false then row.amount else 0

/-- What counts for an order is within its total. Payments belong to orders that exist. -/
structure LiveWithin (orderId : Uuid) (s : Db) : Prop where
  nonneg : ∀ id row, s.payments.lookup id = some row → 0 ≤ row.amount
  linked : s.orders.lookup orderId = none →
    ∀ id row, s.payments.lookup id = some row → row.orderId ≠ orderId
  within : ∀ order, s.orders.lookup orderId = some order →
    s.payments.total (liveCents orderId) ≤ order.total

/-- A payment is opened when every other payment of its order is void or an attempt that is
cancelled with it; and such an attempt is still open. -/
def opensInTurn : Discipline sales where
  commit s t := cancelsOnlyOpen s t.edits && opensBeside PaymentStatus.isVoid s t.edits

/-! ### Amounts that count -/

theorem liveCents_of_ne (h : row.orderId ≠ orderId) : liveCents orderId id row = 0 := by
  simp [liveCents, h]

theorem liveCents_of_void (h : row.status.isVoid = true) : liveCents orderId id row = 0 := by
  simp [liveCents, h]

theorem liveCents_of_live (horder : row.orderId = orderId) (h : row.status.isVoid = false) :
    liveCents orderId id row = row.amount := by
  simp [liveCents, horder, h]

theorem liveCents_nonneg (h : 0 ≤ row.amount) : 0 ≤ liveCents orderId id row := by
  unfold liveCents
  split_ifs
  · exact h
  · exact le_rfl

/-- A payment that was void stays out of the count. -/
theorem liveCents_le (hsame : row.Same row') (hnonneg : 0 ≤ row.amount)
    (hvoid : row.status.isVoid = true → row'.status.isVoid = true) :
    liveCents orderId id row' ≤ liveCents orderId id row := by
  by_cases hlive : row'.status.isVoid = true
  · rw [liveCents_of_void hlive]
    exact liveCents_nonneg hnonneg
  · have hrow : row.status.isVoid = false := by
      by_contra hnot
      exact hlive (hvoid (by simpa using hnot))
    simp [liveCents, hlive, hrow, hsame.orderId, hsame.amount]

/-! ### One effect -/

/-- A state with the same payments and orders. -/
theorem LiveWithin.congr (h : LiveWithin orderId s) (hpayments : s'.payments = s.payments)
    (horders : s'.orders = s.orders) : LiveWithin orderId s' where
  nonneg := by
    rw [hpayments]
    exact h.nonneg
  linked := by
    rw [hpayments, horders]
    exact h.linked
  within := by
    rw [hpayments, horders]
    exact h.within

/-- A payment is written again, and is not brought back into the count. -/
theorem LiveWithin.of_update (h : LiveWithin orderId s) (hrow : s.payments.lookup id = some row)
    (hsame : row.Same row') (hvoid : row.status.isVoid = true → row'.status.isVoid = true)
    (hpayments : s'.payments = s.payments.insert id row') (horders : s'.orders = s.orders) :
    LiveWithin orderId s' := by
  have hamount := h.nonneg id row hrow
  have hcases {id₁ : Uuid} {row₁ : Payment} (h₁ : s'.payments.lookup id₁ = some row₁) :
      row₁ = row' ∨ s.payments.lookup id₁ = some row₁ := by
    rw [hpayments] at h₁
    rcases lookup_insert_cases s.payments id id₁ row' with ⟨-, h₂⟩ | ⟨-, h₂⟩
    · exact .inl (Option.some.inj (h₁.symm.trans h₂))
    · exact .inr (h₂.symm.trans h₁)
  refine ⟨fun id₁ row₁ h₁ => ?_, fun hnone id₁ row₁ h₁ => ?_, fun order horder => ?_⟩
  · rcases hcases h₁ with rfl | h₁
    · exact hsame.amount ▸ hamount
    · exact h.nonneg _ _ h₁
  · rw [horders] at hnone
    rcases hcases h₁ with rfl | h₁
    · rw [← hsame.orderId]
      exact h.linked hnone _ _ hrow
    · exact h.linked hnone _ _ h₁
  · rw [horders] at horder
    rw [hpayments]
    exact (AList.total_insert_le hrow (liveCents_le hsame hamount hvoid)).trans
      (h.within order horder)

/-- A payment is added; the others of its order are void. -/
theorem LiveWithin.of_new (h : LiveWithin orderId s) (hnone : s.payments.lookup id = none)
    (hvoid : ∀ id row₁, s.payments.lookup id = some row₁ → row₁.orderId = row.orderId →
      row₁.status.isVoid = true)
    (horder : ∃ order, s.orders.lookup row.orderId = some order ∧ row.amount = order.total)
    (hnonneg : 0 ≤ row.amount) (hstatus : row.status = .pending)
    (hpayments : s'.payments = s.payments.insert id row) (horders : s'.orders = s.orders) :
    LiveWithin orderId s' := by
  -- a payment afterwards is the new one or was there before
  have hcases {id₁ : Uuid} {row₁ : Payment} (h₁ : s'.payments.lookup id₁ = some row₁) :
      row₁ = row ∨ s.payments.lookup id₁ = some row₁ := by
    rw [hpayments] at h₁
    rcases lookup_insert_cases s.payments id id₁ row with ⟨-, h₂⟩ | ⟨-, h₂⟩
    · exact .inl (Option.some.inj (h₁.symm.trans h₂))
    · exact .inr (h₂.symm.trans h₁)
  obtain ⟨order, horder, hamount⟩ := horder
  refine ⟨fun id₁ row₁ h₁ => ?_, fun hnoOrder id₁ row₁ h₁ => ?_, fun order' horder' => ?_⟩
  · rcases hcases h₁ with rfl | h₁
    · exact hnonneg
    · exact h.nonneg _ _ h₁
  · rw [horders] at hnoOrder
    rcases hcases h₁ with rfl | h₁
    · intro heq
      rw [heq, hnoOrder] at horder
      cases horder
    · exact h.linked hnoOrder _ _ h₁
  · rw [horders] at horder'
    rw [hpayments, AList.total_insert_new _ hnone]
    by_cases heq : row.orderId = orderId
    · -- nothing else counts for this order
      have hzero : s.payments.total (liveCents orderId) = 0 := by
        apply AList.total_eq_zero
        intro id₁ row₁ h₁
        by_cases heq₁ : row₁.orderId = orderId
        · exact liveCents_of_void (hvoid id₁ row₁ h₁ (heq₁.trans heq.symm))
        · exact liveCents_of_ne heq₁
      have hlive : row.status.isVoid = false := by
        rw [hstatus]
        rfl
      rw [heq, horder'] at horder
      obtain rfl := Option.some.inj horder
      rw [hzero, liveCents_of_live heq hlive, add_zero, hamount]
    · -- the payment is one of another order
      rw [liveCents_of_ne heq, zero_add]
      exact h.within order' horder'

/-- Opening a payment in its turn. -/
theorem Opening.liveWithin {id₀ : Uuid} {row₀ : Payment} (ho : Opening s es id₀ row₀)
    (hnonneg : 0 ≤ row₀.amount) (hok : opensBeside PaymentStatus.isVoid s es = true)
    (h : LiveWithin orderId s) : LiveWithin orderId (sales.replay es s) := by
  rcases ho.table with htable | ⟨id, row, hrow, hne, htable⟩
  · refine h.of_new ho.fresh (fun id₁ row₁ h₁ heq => ?_) ho.order hnonneg ho.status htable
      ho.orders
    rcases ho.beside hok h₁ heq with hvoid | hmem
    · exact hvoid
    · -- a cancelled attempt is void already
      have hid₁ : id₁ ≠ id₀ := by
        rintro rfl
        rw [ho.fresh] at h₁
        cases h₁
      have hsame := (ho.updates _ _ hmem).symm
      rw [htable, AList.lookup_insert_ne hid₁, h₁] at hsame
      rw [← Option.some.inj hsame]
      rfl
  · -- first the attempt is cancelled, then the new payment is written
    let s₁ : Db := { s with payments := s.payments.insert id { row with status := .cancelled } }
    have h₁ : LiveWithin orderId s₁ := h.of_update hrow (.withStatus row .cancelled)
      (fun _ => rfl) rfl rfl
    have hfresh : s₁.payments.lookup id₀ = none :=
      (AList.lookup_insert_ne hne.symm).trans ho.fresh
    refine h₁.of_new hfresh (fun id₁ row₁ hrow₁ heq => ?_) ho.order hnonneg ho.status htable
      ho.orders
    rcases lookup_insert_cases s.payments id id₁ { row with status := .cancelled } with
      ⟨-, h₂⟩ | ⟨hid₁, h₂⟩
    · rw [Option.some.inj (hrow₁.symm.trans h₂)]
      rfl
    · have hold := h₂.symm.trans hrow₁
      rcases ho.beside hok hold heq with hvoid | hmem
      · exact hvoid
      · have hid₀ : id₁ ≠ id₀ := by
          rintro rfl
          rw [ho.fresh] at hold
          cases hold
        have hsame := (ho.updates _ _ hmem).symm
        rw [htable, AList.lookup_insert_ne hid₀, h₂, hold] at hsame
        rw [← Option.some.inj hsame]
        rfl

/-- The payments of a sale, added to a table that has none of them. -/
theorem total_saleEdits (f : Uuid → Payment → Cents) {paid : List NewPayment}
    (hids : (paid.map (·.id)).Nodup) (s : Db)
    (hnew : ∀ p ∈ paid, s.payments.lookup p.id = none) :
    (sales.replay (paid.flatMap NewPayment.edits) s).payments.total f =
      (paid.map fun p => f p.id p.row).sum + s.payments.total f := by
  induction paid generalizing s with
  | nil => simp
  | cons p paid ih =>
    rw [List.map_cons, List.nodup_cons] at hids
    have hpayments : (sales.replay p.edits s).payments = s.payments.insert p.id p.row := rfl
    have hnew' : ∀ q ∈ paid, (sales.replay p.edits s).payments.lookup q.id = none := by
      intro q hq
      have hne : q.id ≠ p.id := by
        intro heq
        exact hids.1 (List.mem_map.mpr ⟨q, hq, heq⟩)
      rw [hpayments, AList.lookup_insert_ne hne]
      exact hnew q (List.mem_cons_of_mem _ hq)
    rw [List.flatMap_cons, Database.replay_append, ih hids.2 _ hnew', hpayments,
      AList.total_insert_new f (hnew p List.mem_cons_self), List.map_cons, List.sum_cons]
    exact add_left_comm _ _ _ |>.trans (add_assoc _ _ _).symm

/-- The order of a sale, and the others. -/
theorem lookup_orders_sale (orderId : Uuid) {orderId₀ : Uuid} {order : Order}
    {paid : List NewPayment} (hcore : coreEdits es = .orderInsert orderId₀ order ::
      (paid.flatMap NewPayment.edits ++
        [.orderUpdate orderId₀ { order with status := .delivered }])) :
    (sales.replay es s).orders.lookup orderId₀ = some { order with status := .delivered } ∧
      (orderId ≠ orderId₀ →
        (sales.replay es s).orders.lookup orderId = s.orders.lookup orderId) := by
  constructor
  · rw [orders_replay hcore, Database.replay_cons, Database.replay_append]
    exact AList.lookup_insert _
  · intro hne
    rw [orders_replay hcore]
    apply lookup_orders_frame
    intro e he
    rcases mem_saleEdits he with rfl | ⟨p, hp, rfl⟩ | ⟨p, hp, rfl⟩ | rfl
    · simpa [Edit.footprint] using hne
    · simp [Edit.footprint]
    · simp [chargeEdit, Edit.footprint]
    · simpa [Edit.footprint] using hne

/-- Every effect keeps what counts for an order within its total, if payments are opened in
their turn. -/
theorem PaymentEffect.liveWithin (he : PaymentEffect s es k)
    (hok : opensBeside PaymentStatus.isVoid s es = true) (h : LiveWithin orderId s) :
    LiveWithin orderId (sales.replay es s) := by
  have hlive {row : Payment} {status : PaymentStatus} (hopen : status.isVoid = false) :
      status.isVoid = true → row.status.isVoid = true := by
    intro hvoid
    rw [hopen] at hvoid
    cases hvoid
  have hopenLive {status : PaymentStatus} (hopen : status.isOpen = true) :
      status.isVoid = false := by
    cases status <;> simp_all [PaymentStatus.isOpen, PaymentStatus.isVoid]
  have hcapturedLive {status : PaymentStatus}
      (hstatus : status = .completed ∨ status = .partiallyRefunded) : status.isVoid = false := by
    rcases hstatus with rfl | rfl <;> rfl
  cases he with
  | note hcore => exact h.congr (payments_replay hcore) (orders_replay hcore)
  | late hcore _ _ => exact h.congr (payments_replay hcore) (orders_replay hcore)
  -- the next five change a payment that counts already, and leave its amount as it is
  | confirm hcore hrow hopen _ _ _ =>
    exact h.of_update hrow (.confirm _ _ _) (hlive (hopenLive hopen)) (payments_replay hcore)
      (orders_replay hcore)
  | event hcore hrow hopen _ _ _ _ _ _ =>
    exact h.of_update hrow (.withStatus _ _) (hlive (hopenLive hopen)) (payments_of_update hcore)
      (orders_of_update hcore)
  | capture hcore hrow hopen _ _ =>
    exact h.of_update hrow (.capture _ _ _) (hlive (hopenLive hopen)) (payments_replay hcore)
      (orders_replay hcore)
  | refundEvent hcore hrow hstatus _ _ _ =>
    exact h.of_update hrow (.withStatus _ _) (hlive (hcapturedLive hstatus))
      (payments_of_update hcore) (orders_of_update hcore)
  | refund hcore hrow hstatus _ _ _ _ _ _ =>
    exact h.of_update hrow (.withStatus _ _) (hlive (hcapturedLive hstatus))
      (payments_replay hcore) (orders_replay hcore)
  | @opened stale p order hcore hstale hfresh horder hamount hpos hstatus =>
    -- that there is room for the new payment is what `hok` says
    have heffect : PaymentEffect s es (.opened stale.isSome) :=
      .opened hcore hstale hfresh horder hamount hpos hstatus
    obtain ⟨id₀, row₀, hopening⟩ := heffect.opening
    obtain ⟨order₀, horder₀, hamount₀⟩ := hopening.order
    have hinsert : .paymentInsert id₀ row₀ ∈ coreEdits es :=
      List.mem_filter.mpr ⟨hopening.insert, rfl⟩
    have hrow₀ : row₀ = p.row := by
      rw [hcore] at hinsert
      cases stale <;> simp_all [NewPayment.edits, chargeEdit, cancelEdit]
    have hnonneg : 0 ≤ row₀.amount := by
      rw [hrow₀, hamount]
      exact hpos.le
    exact hopening.liveWithin hnonneg hok h
  | @sale orderId₀ order paid hcore hfresh hnew hids hpaid htotal =>
    have hpayments : (sales.replay es s).payments =
        (sales.replay (paid.flatMap NewPayment.edits)
          (s.apply (.orderInsert orderId₀ order))).payments := by
      rw [payments_replay hcore, Database.replay_cons, Database.replay_append]
      rfl
    obtain ⟨hsold, hothers⟩ := lookup_orders_sale (s := s) orderId hcore
    have hcases {id₁ : Uuid} {row₁ : Payment}
        (h₁ : (sales.replay es s).payments.lookup id₁ = some row₁) :
        (∃ p ∈ paid, row₁ = p.row) ∨ s.payments.lookup id₁ = some row₁ := by
      rw [hpayments] at h₁
      rcases lookup_payments_inserts id₁ hids (s.apply (.orderInsert orderId₀ order)) with
        ⟨p, hp, -, h₂⟩ | h₂
      · exact .inl ⟨p, hp, Option.some.inj (h₁.symm.trans h₂)⟩
      · exact .inr (h₂.symm.trans h₁)
    refine ⟨fun id₁ row₁ h₁ => ?_, fun hnone id₁ row₁ h₁ => ?_, fun order' horder' => ?_⟩
    · rcases hcases h₁ with ⟨p, hp, rfl⟩ | h₁
      · exact (hpaid p hp).2.2
      · exact h.nonneg _ _ h₁
    · have hne : orderId ≠ orderId₀ := by
        rintro rfl
        rw [hsold] at hnone
        cases hnone
      rw [hothers hne] at hnone
      rcases hcases h₁ with ⟨p, hp, rfl⟩ | h₁
      · rw [(hpaid p hp).1]
        exact hne.symm
      · exact h.linked hnone _ _ h₁
    · have htotals := total_saleEdits (liveCents orderId) hids
        (s.apply (.orderInsert orderId₀ order)) hnew
      have hold : (s.apply (.orderInsert orderId₀ order)).payments = s.payments := rfl
      rw [hpayments, htotals, hold]
      -- the payments of a sale add up to the total of its order, for which there were none before
      by_cases heq : orderId = orderId₀
      · subst heq
        obtain rfl := Option.some.inj (hsold.symm.trans horder')
        have hzero : s.payments.total (liveCents orderId) = 0 :=
          AList.total_eq_zero fun id₁ row₁ h₁ => liveCents_of_ne (h.linked hfresh id₁ row₁ h₁)
        have hsum : (paid.map fun p => liveCents orderId p.id p.row) =
            paid.map (·.row.amount) := by
          apply List.map_congr_left
          intro p hp
          obtain ⟨horderId, hstatus, -⟩ := hpaid p hp
          exact liveCents_of_live horderId (by rw [hstatus]; rfl)
        rw [hzero, hsum, htotal, add_zero]
      · have hsum : (paid.map fun p => liveCents orderId p.id p.row).sum = 0 := by
          apply List.sum_eq_zero
          intro x hx
          obtain ⟨p, hp, rfl⟩ := List.mem_map.mp hx
          exact liveCents_of_ne fun h => heq (h.symm.trans (hpaid p hp).1)
        rw [hothers heq] at horder'
        rw [hsum, zero_add]
        exact h.within order' horder'

/-! ### Runs -/

/-- The amounts of the payments of an order that were COMPLETED in one of the states. -/
def capturedEver (orderId : Uuid) (states : List Db) (s : Db) : Cents :=
  s.payments.total fun id row =>
    if row.orderId = orderId ∧ states.any fun s' =>
        (s'.payments.lookup id).any fun row' => row'.status = .completed then row.amount
    else 0

/-- In every run in which payments are opened in their turn, the payments of an order that
ever reach COMPLETED are within its total. -/
theorem reaches_capturedEver (hs : LiveWithin orderId s₀)
    (h : Reaches opensInTurn (.start s₀ (rs.map PaymentRequest.program)) c) :
    ∀ order, c.committed.orders.lookup orderId = some order →
      capturedEver orderId (c.history s₀) c.committed ≤ order.total := by
  have hrun := reaches_effects (I := LiveWithin orderId)
    (E := fun s s' => ∀ id, PaymentStatusStep id s s') hs (fun s t k hI _ he hok => ?_) h
  · obtain ⟨hall, hchain⟩ := hrun
    obtain ⟨older, hhistory⟩ := h.exists_history
    have hlast : LiveWithin orderId c.committed := hall _ (hhistory ▸ List.mem_cons_self)
    intro order horder
    refine le_trans (AList.total_le_total fun id row hrow => ?_) (hlast.within order horder)
    split_ifs with hcaptured
    · -- a payment that was completed once still counts
      obtain ⟨horderId, hany⟩ := hcaptured
      obtain ⟨s, hs, hcompleted⟩ := List.any_eq_true.mp hany
      obtain ⟨row₁, hrow₁, hstatus⟩ := (Option.any_eq_true _ _).mp hcompleted
      have hstep : (c.history s₀).IsChain fun s' s => PaymentStatusStep id s s' :=
        hchain.imp fun _ _ hstep => hstep id
      rw [hhistory] at hstep hs
      obtain ⟨row₂, hrow₂, hcaptured⟩ := isCaptured_of_isChain hstep hs hrow₁
        (by simp [of_decide_eq_true hstatus, PaymentStatus.isCaptured])
      obtain rfl := Option.some.inj (hrow₂.symm.trans hrow)
      have hlive : row₂.status.isVoid = false := by
        cases hstatus₂ : row₂.status <;>
          simp_all [PaymentStatus.isCaptured, PaymentStatus.isVoid]
      rw [liveCents_of_live horderId hlive]
    · exact liveCents_nonneg (hlast.nonneg id row hrow)
  · obtain ⟨hstale, hbeside⟩ := (Bool.and_eq_true _ _).mp hok
    exact ⟨he.liveWithin hbeside hI, fun id => he.statusStep hstale⟩

/-! ### An order that is paid twice -/

namespace PaymentSample

theorem openShop_liveWithin : LiveWithin "order" openShop := by
  refine ⟨fun id row hrow => ?_, fun _ id row hrow => ?_, fun order' horder => ?_⟩
  · cases hrow
  · cases hrow
  · obtain rfl : order = order' := Option.some.inj horder
    decide

/-- A payment is created and confirmed. -/
def createAndConfirm (n : String) : List PaymentRequest :=
  [.create {} "shop" "clerk" ⟨"payment-" ++ n, "c" ++ n, "t" ++ n⟩ { orderId := "order" },
    .confirm {} "shop" "clerk" ("u" ++ n) { paymentId := some ("payment-" ++ n) }]

/-- The order is paid, and then the shopper presses Pay. -/
def paidThenStart : List PaymentRequest :=
  createAndConfirm "1" ++ [.start "shop" "order" "payment-2" none]

/-- The order is paid twice. -/
def paidTwice : List PaymentRequest := createAndConfirm "1" ++ createAndConfirm "2"

/-- One request after the other, each in so many steps. -/
def inTurn (steps : List ℕ) : List (Action sales) :=
  steps.zipIdx.flatMap fun (n, i) => List.replicate n (.advance i)

end PaymentSample

open PaymentSample in
/-- The shopper is told that the order is already paid. -/
theorem reaches_capturedEver_sample :
    ∃ c : Config sales Unit,
      Reaches opensInTurn (.start openShop (paidThenStart.map PaymentRequest.program)) c ∧
      c.Quiescent ∧ capturedEver "order" (c.history openShop) c.committed = 10000 ∧
      ∀ order, c.committed.orders.lookup "order" = some order →
        capturedEver "order" (c.history openShop) c.committed ≤ order.total := by
  have hrun : (play opensInTurn openShop paidThenStart (inTurn [6, 7, 5])).map
      (fun c => (decide c.Quiescent, capturedEver "order" (c.history openShop) c.committed)) =
        some (true, 10000) := by decide +kernel
  obtain ⟨c, hc, hend⟩ := Option.map_eq_some_iff.mp hrun
  obtain ⟨hquiescent, hcaptured⟩ := Prod.mk.inj hend
  have hreach := reaches_play hc
  exact ⟨c, hreach, of_decide_eq_true hquiescent, hcaptured,
    reaches_capturedEver openShop_liveWithin hreach⟩

open PaymentSample in
/-- A second payment of the same order is created after the first was completed. -/
theorem paidTwice_exceeds_total :
    LiveWithin "order" openShop ∧ ∃ c : Config sales Unit,
      Reaches (.free sales) (.start openShop (paidTwice.map PaymentRequest.program)) c ∧
      ∃ order, c.committed.orders.lookup "order" = some order ∧
        order.total < capturedEver "order" (c.history openShop) c.committed := by
  have hrun : (play (.free sales) openShop paidTwice (inTurn [6, 7, 6, 7])).map
      (fun c => ((c.committed.orders.lookup "order").map (·.total),
        capturedEver "order" (c.history openShop) c.committed)) = some (some 10000, 20000) := by
    decide +kernel
  obtain ⟨c, hc, hend⟩ := Option.map_eq_some_iff.mp hrun
  obtain ⟨htotal, hcaptured⟩ := Prod.mk.inj hend
  obtain ⟨order', horder, htotal⟩ := Option.map_eq_some_iff.mp htotal
  refine ⟨openShop_liveWithin, c, reaches_play hc, order', horder, ?_⟩
  rw [htotal, hcaptured]
  decide

end PulseOps
