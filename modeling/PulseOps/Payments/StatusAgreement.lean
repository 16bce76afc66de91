import PulseOps.Payments.RefundBound

/-!
# Payment status and refunds

A payment is REFUNDED when all of it was given back, PARTIALLY_REFUNDED when some of it
was, and otherwise has no refunds. Refunds keep this, and so does every other request that
does not touch captured payments. The `payment.refunded` event of the generic webhook sets
REFUNDED without a refund; nothing else breaks the agreement.

## Main definitions

* `StatusAgrees` — the status of a payment says what was refunded of it.
* `noRefundEvents` — the discipline: no `payment.refunded` event takes effect.

## Main results

* `PaymentStep.statusAgrees` — one step.
* `reaches_statusAgrees` — every run.
-/

set_option autoImplicit false

open ReadCommitted Program

namespace PulseOps

open PaymentService

variable {s s' s₀ : Db} {es : List Edit} {rs : List PaymentRequest} {c : Config sales Unit}
  {k : EffectKind} {id : Uuid} {row : Payment} {refunded : Cents}

/-- The requests of `payments.service.js`, and what completes Razorpay payments. -/
def PaymentRequest.OfPayments : PaymentRequest → Prop
  | create .. => True
  | confirm .. => True
  | refund .. => True
  | webhook .. => True
  | verify .. => True
  | razorpayWebhook .. => True
  | _ => False

theorem PaymentRequest.OfPayments.kinds {r : PaymentRequest} (hr : r.OfPayments) :
    .opened true ∉ r.kinds ∧ .sale ∉ r.kinds := by
  cases r <;> simp_all [PaymentRequest.OfPayments, PaymentRequest.kinds]

/-- The status says what was refunded. -/
structure Agreement (row : Payment) (refunded : Cents) : Prop where
  positive : 0 < row.amount
  nonneg : 0 ≤ refunded
  within : refunded ≤ row.amount
  refunded_iff : row.status = .refunded ↔ refunded = row.amount
  partially_iff : row.status = .partiallyRefunded ↔ 0 < refunded ∧ refunded < row.amount
  completed : row.status = .completed → refunded = 0

/-- The status of the payment `id` says what was refunded of it. -/
structure StatusAgrees (id : Uuid) (s : Db) : Prop where
  linked : s.payments.lookup id = none → refundsOf id s = []
  agree : ∀ row, s.payments.lookup id = some row → Agreement row (refundedCents id row.tenantId s)

/-- Whether the `payment.refunded` event of the generic webhook sets a payment REFUNDED. -/
def appliesRefundEvent (es : List Edit) : Bool :=
  (es.any fun
    | .paymentWebhookEventInsert event => event.type = WebhookType.paymentRefunded.text
    | _ => false) &&
  es.any fun
    | .paymentUpdate _ row => row.status = .refunded
    | _ => false

/-- No `payment.refunded` event takes effect. -/
def noRefundEvents : Discipline sales where
  commit _ t := !appliesRefundEvent t.edits

theorem appliesRefundEvent_of_effect (h : PaymentEffect s es .refundEvent) :
    appliesRefundEvent es = true := by
  cases h with
  | @refundEvent id row xs event hcore hrow hstatus htype hevent heventType =>
    have hupdate : .paymentUpdate id { row with status := .refunded } ∈ es :=
      mem_of_mem_coreEdits (hcore ▸ List.mem_cons_self)
    rw [appliesRefundEvent, Bool.and_eq_true, List.any_eq_true, List.any_eq_true]
    exact ⟨⟨_, hevent, by simpa using heventType⟩, ⟨_, hupdate, by simp⟩⟩

/-! ### One step -/

/-- Nothing was refunded of a payment that is neither REFUNDED nor PARTIALLY_REFUNDED. -/
theorem Agreement.eq_zero (h : Agreement row refunded) (hrefunded : row.status ≠ .refunded)
    (hpartially : row.status ≠ .partiallyRefunded) : refunded = 0 := by
  have hne : refunded ≠ row.amount := fun heq => hrefunded (h.refunded_iff.mpr heq)
  have hlt : refunded < row.amount := lt_of_le_of_ne h.within hne
  by_contra hzero
  exact hpartially (h.partially_iff.mpr ⟨lt_of_le_of_ne h.nonneg (Ne.symm hzero), hlt⟩)

/-- A payment with no refunds, in any state but the two of refunded payments. -/
theorem Agreement.of_zero (hpos : 0 < row.amount) (hrefunded : row.status ≠ .refunded)
    (hpartially : row.status ≠ .partiallyRefunded) : Agreement row 0 where
  positive := hpos
  nonneg := le_rfl
  within := hpos.le
  refunded_iff := ⟨fun h => absurd h hrefunded, fun h => absurd h hpos.ne⟩
  partially_iff := ⟨fun h => absurd h hpartially, fun h => absurd h.1 (lt_irrefl 0)⟩
  completed _ := rfl

/-- One refund more, and the status computed from it. -/
theorem Agreement.refund {amount : Cents} (h : Agreement row refunded) (hpos : 0 < amount)
    (hle : amount ≤ row.amount - refunded) :
    Agreement { row with status := refundStatus row.amount (refunded + amount) }
      (refunded + amount) := by
  have hnonneg := h.nonneg
  have hsum : refunded + amount ≤ row.amount := le_sub_iff_add_le'.mp hle
  have hsumPos : 0 < refunded + amount := add_pos_of_nonneg_of_pos hnonneg hpos
  unfold refundStatus
  split
  · rename_i hall
    have heq : refunded + amount = row.amount := le_antisymm hsum hall
    refine ⟨h.positive, hsumPos.le, hsum, ⟨fun _ => heq, fun _ => rfl⟩, ?_, fun hcompleted => ?_⟩
    · constructor
      · intro hpartially
        cases hpartially
      · rintro ⟨-, hlt⟩
        exact absurd heq hlt.ne
    · cases hcompleted
  · rename_i hsome
    have hlt : refunded + amount < row.amount := not_le.mp hsome
    refine ⟨h.positive, hsumPos.le, hsum, ?_, ⟨fun _ => ⟨hsumPos, hlt⟩, fun _ => rfl⟩,
      fun hcompleted => ?_⟩
    · constructor
      · intro hrefunded
        cases hrefunded
      · intro heq
        exact absurd heq hlt.ne
    · cases hcompleted

/-- Every step keeps the agreement, but for provider events that refund and attempts that
are given up. -/
theorem PaymentStep.statusAgrees (hstep : PaymentStep id s s' k) (h : StatusAgrees id s)
    (hevent : k ≠ .refundEvent) (hretires : k ≠ .opened true) (hsale : k ≠ .sale) :
    StatusAgrees id s' := by
  have hlinked {row : Payment} (hrow : s'.payments.lookup id = some row) :
      s'.payments.lookup id = none → refundsOf id s' = [] := by
    intro hnone
    rw [hrow] at hnone
    cases hnone
  cases hstep with
  | kept hrow hrefunds =>
    refine ⟨fun hnone => ?_, fun row hrow' => ?_⟩
    · rw [hrefunds]
      exact h.linked (hrow ▸ hnone)
    · rw [refundedCents_congr row.tenantId hrefunds]
      exact h.agree row (hrow ▸ hrow')
  | @settled _ row row' hrow hrow' hrefunds hopen hsame hstatus =>
    refine ⟨hlinked hrow', fun row₁ h₁ => ?_⟩
    obtain rfl := Option.some.inj (hrow'.symm.trans h₁)
    have hagree := h.agree row hrow
    -- an open payment has no refunds yet
    have hzero : refundedCents id row.tenantId s = 0 :=
      hagree.eq_zero (fun heq => by simp [heq, PaymentStatus.isOpen] at hopen)
        (fun heq => by simp [heq, PaymentStatus.isOpen] at hopen)
    rw [← hsame.tenantId, refundedCents_congr row.tenantId hrefunds, hzero]
    refine Agreement.of_zero (hsame.amount ▸ hagree.positive) ?_ ?_
    · rcases hstatus with heq | heq <;> simp [heq]
    · rcases hstatus with heq | heq <;> simp [heq]
  | refundEvent _ _ _ _ => exact absurd rfl hevent
  | @refunded row refund hrow hrow' hrefunds hstatus hpos hle htenant hcompleted =>
    refine ⟨hlinked hrow', fun row₁ h₁ => ?_⟩
    obtain rfl := Option.some.inj (hrow'.symm.trans h₁)
    change Agreement _ (refundedCents id row.tenantId s')
    rw [refundedCents_append hrefunds htenant hcompleted]
    exact (h.agree row hrow).refund hpos hle
  | cancelled _ _ _ => exact absurd rfl hretires
  | @opened _ row hrow hrow' hrefunds hstatus hpos =>
    refine ⟨hlinked hrow', fun row₁ h₁ => ?_⟩
    obtain rfl := Option.some.inj (hrow'.symm.trans h₁)
    have hempty : refundsOf id s' = [] := hrefunds.trans (h.linked hrow)
    rw [refundedCents_of_refundsOf_eq_nil hempty]
    exact Agreement.of_zero hpos (by simp [hstatus]) (by simp [hstatus])
  | sold _ _ _ _ _ => exact absurd rfl hsale

/-- In every run in which no `payment.refunded` event takes effect, status and refunds
agree. -/
theorem reaches_statusAgrees (hrs : ∀ r ∈ rs, r.OfPayments) (hs : StatusAgrees id s₀)
    (h : Reaches noRefundEvents (.start s₀ (rs.map PaymentRequest.program)) c) :
    ∀ s ∈ c.history s₀, StatusAgrees id s := by
  refine reaches_invariant hs (fun s t k hI hk he hok => ?_) h
  obtain ⟨r, hr, hk⟩ := hk
  obtain ⟨hretires, hsale⟩ := (hrs r hr).kinds
  refine (he.step id).statusAgrees hI (fun heq => ?_) (fun heq => hretires (heq ▸ hk))
    fun heq => hsale (heq ▸ hk)
  subst heq
  have happlies := appliesRefundEvent_of_effect he
  simp [noRefundEvents, happlies] at hok

/-! ### Events of the generic provider -/

namespace PaymentSample

/-- The body of a `payment.refunded` event. -/
def refundedBody : String :=
  "\x7b\"eventId\":\"evt_1\",\"type\":\"payment.refunded\",\"providerPaymentId\":\"order_1\"\x7d"

/-- The webhook secret of the shop, and the digest of that body under it. -/
def environment : Environment :=
  { paymentWebhookSecret := "whsec"
    hmacSha256 := fun key text => if key = "whsec" ∧ text = refundedBody then
      "ed9fac3ec551d80bc01449f398f74abeba98308d4d85bc794cea9a4e6c9aa683" else "" }

/-- The provider says that the payment was refunded. -/
def refundedEvent : PaymentRequest :=
  .webhook environment refundedBody
    { eventId := some "evt_1", type := .paymentRefunded, providerPaymentId := some "order_1" }
    (some "ed9fac3ec551d80bc01449f398f74abeba98308d4d85bc794cea9a4e6c9aa683")

theorem paidShop_statusAgrees : StatusAgrees "payment" paidShop := by
  refine ⟨fun _ => rfl, fun row hrow => ?_⟩
  obtain rfl : captured = row := Option.some.inj hrow
  exact Agreement.of_zero (by decide) (by decide) (by decide)

end PaymentSample

open PaymentSample in
/-- A refund of sixty rupees of a hundred: the payment is PARTIALLY_REFUNDED. -/
theorem reaches_statusAgrees_sample :
    ∃ c : Config sales Unit,
      Reaches noRefundEvents (.start paidShop ([refundOf 6000].map PaymentRequest.program)) c ∧
      (c.committed.payments.lookup "payment").map (·.status) = some .partiallyRefunded ∧
      ∀ s ∈ c.history paidShop, StatusAgrees "payment" s := by
  have hrun : (play noRefundEvents paidShop [refundOf 6000]
      (List.replicate 6 (.advance 0) ++ [.reply 0 (.refundAccepted "rfnd_1")] ++
        List.replicate 5 (.advance 0))).map
      (fun c => (c.committed.payments.lookup "payment").map (·.status)) =
        some (some .partiallyRefunded) := by decide +kernel
  obtain ⟨c, hc, hend⟩ := Option.map_eq_some_iff.mp hrun
  have hreach := reaches_play hc
  refine ⟨c, hreach, hend, reaches_statusAgrees ?_ paidShop_statusAgrees hreach⟩
  intro r hr
  obtain rfl := List.mem_singleton.mp hr
  trivial

open PaymentSample in
/-- A `payment.refunded` event of a payment that is COMPLETED: it becomes REFUNDED, and
nothing was refunded. -/
theorem refundEvent_not_statusAgrees :
    StatusAgrees "payment" paidShop ∧ ∃ c : Config sales Unit,
      Reaches (.free sales) (.start paidShop ([refundedEvent].map PaymentRequest.program)) c ∧
        ¬ StatusAgrees "payment" c.committed := by
  have hrun : (play (.free sales) paidShop [refundedEvent] (List.replicate 9 (.advance 0))).map
      (fun c => ((c.committed.payments.lookup "payment").map (·.status),
        c.committed.refunds.length)) = some (some .refunded, 0) := by decide +kernel
  obtain ⟨c, hc, hend⟩ := Option.map_eq_some_iff.mp hrun
  obtain ⟨hstatus, hrefunds⟩ := Prod.mk.inj hend
  refine ⟨paidShop_statusAgrees, c, reaches_play hc, fun hagrees => ?_⟩
  obtain ⟨row, hrow, hstatus⟩ := Option.map_eq_some_iff.mp hstatus
  have hagree := hagrees.agree row hrow
  have hempty : refundsOf "payment" c.committed = [] := by
    rw [refundsOf, List.eq_nil_of_length_eq_zero hrefunds, List.filter_nil]
  have hall := hagree.refunded_iff.mp hstatus
  rw [refundedCents_of_refundsOf_eq_nil hempty] at hall
  exact absurd hall hagree.positive.ne

end PulseOps
