import PulseOps.Model.Analytics
import PulseOps.Payments.StatusAgreement
import PulseOps.Payments.StatusTransitions

/-!
# Net revenue and the money kept

The analytics add up the payments that are COMPLETED and take off the refunds. A refund moves
its payment out of COMPLETED, so that the payment is gone from the first sum while the refund
is taken off all the same: the figure is the money kept exactly as long as nothing has been
refunded.

## Main definitions

* `moneyKept` — all payments that have ever been COMPLETED, less the COMPLETED refunds.
* `ReportsMoneyKept` — both reports say so.
* `NothingRefunded` — no payment is REFUNDED or PARTIALLY_REFUNDED.

## Main results

* `captured_iff_everCompleted` — the payments that have ever been COMPLETED.
* `reaches_netRevenue_iff` — when the reports say what was kept, in every run.
-/

set_option autoImplicit false

open ReadCommitted Program

namespace PulseOps

open PaymentService AnalyticsRepository

variable {s s' s₀ : Db} {rs : List PaymentRequest} {c : Config sales Unit}
  {k : EffectKind} {id tenantId : Uuid} {history : List Db}

/-! ### What was paid and what is kept -/

/-- Whether the payment `id` is COMPLETED in one of the states. -/
def everCompleted (history : List Db) (id : Uuid) : Bool :=
  history.any fun s => (s.payments.lookup id).any fun row => row.status = .completed

/-- The amounts of all payments ever COMPLETED, less the COMPLETED refunds. -/
def moneyKept (history : List Db) (s : Db) (tenantId : Uuid) : Cents :=
  (s.payments.total fun id row =>
    if row.tenantId = tenantId ∧ everCompleted history id then row.amount else 0) -
  ((s.refunds.filter fun r => r.tenantId = tenantId ∧ r.status = .completed).map (·.amount)).sum

/-- Both reports without filters show the money kept, which is not negative. -/
structure ReportsMoneyKept (history : List Db) (s : Db) (tenantId : Uuid) : Prop where
  revenue : (getRevenue s tenantId none).netRevenue = moneyKept history s tenantId
  overview : (getOverview s tenantId).netRevenue = moneyKept history s tenantId
  nonneg : 0 ≤ (getRevenue s tenantId none).netRevenue

def NothingRefunded (s : Db) (tenantId : Uuid) : Prop :=
  ∀ id row, s.payments.lookup id = some row → row.tenantId = tenantId →
    row.status ≠ .refunded ∧ row.status ≠ .partiallyRefunded

/-- Payments may have been begun, and none was ever COMPLETED. -/
structure NothingPaid (s : Db) : Prop where
  payments : ∀ id row, s.payments.lookup id = some row →
    row.status.isCaptured = false ∧ 0 < row.amount
  refunds : s.refunds = []

/-! ### One step -/

def CapturedIn (id : Uuid) (s : Db) : Prop :=
  ∃ row, s.payments.lookup id = some row ∧ row.status.isCaptured = true

def CompletedIn (id : Uuid) (s : Db) : Prop :=
  ∃ row, s.payments.lookup id = some row ∧ row.status = .completed

/-- What the books say of one payment. -/
structure PaymentBooks (id : Uuid) (s : Db) : Prop where
  positive : ∀ row, s.payments.lookup id = some row → 0 < row.amount
  refunds : ∀ refund ∈ refundsOf id s, ∃ row, s.payments.lookup id = some row ∧
    row.tenantId = refund.tenantId ∧
      (row.status = .refunded ∨ row.status = .partiallyRefunded)

theorem CompletedIn.captured (h : CompletedIn id s) : CapturedIn id s := by
  obtain ⟨row, hrow, hstatus⟩ := h
  exact ⟨row, hrow, by simp [hstatus, PaymentStatus.isCaptured]⟩

theorem refundStatus_refunded (paymentCents totalAfter : Cents) :
    refundStatus paymentCents totalAfter = .refunded ∨
      refundStatus paymentCents totalAfter = .partiallyRefunded := by
  unfold refundStatus
  split
  · exact .inl rfl
  · exact .inr rfl

/-- A payment with refunds has been captured, so it is not open and not new. -/
theorem PaymentBooks.refundsOf_eq_nil (h : PaymentBooks id s)
    (hrow : ∀ row, s.payments.lookup id = some row →
      row.status ≠ .refunded ∧ row.status ≠ .partiallyRefunded) : refundsOf id s = [] := by
  apply List.eq_nil_iff_forall_not_mem.mpr
  intro refund hmem
  obtain ⟨row, hlookup, -, hstatus⟩ := h.refunds refund hmem
  obtain ⟨hrefunded, hpartially⟩ := hrow row hlookup
  rcases hstatus with heq | heq
  · exact hrefunded heq
  · exact hpartially heq

/-- A step that leaves the payment captured only if it was, or has just been COMPLETED. -/
theorem PaymentStep.captured (hstep : PaymentStep id s s' k) (hretires : k ≠ .opened true) :
    (CapturedIn id s → CapturedIn id s') ∧
      (CapturedIn id s' → CapturedIn id s ∨ CompletedIn id s') := by
  have hopen {row : Payment} (hrow : s.payments.lookup id = some row)
      (hisOpen : row.status.isOpen = true) : ¬ CapturedIn id s := by
    rintro ⟨row₁, hrow₁, hcaptured⟩
    obtain rfl := Option.some.inj (hrow.symm.trans hrow₁)
    cases hstatus : row.status <;> simp_all [PaymentStatus.isOpen, PaymentStatus.isCaptured]
  have hwas {row : Payment} (hrow : s.payments.lookup id = some row)
      (hstatus : row.status = .completed ∨ row.status = .partiallyRefunded) :
      CapturedIn id s := by
    refine ⟨row, hrow, ?_⟩
    rcases hstatus with heq | heq <;> simp [heq, PaymentStatus.isCaptured]
  have hnew (hrow : s.payments.lookup id = none) : ¬ CapturedIn id s := by
    rintro ⟨row, hlookup, -⟩
    simp [hrow] at hlookup
  cases hstep with
  | kept hrow _ =>
    simp only [CapturedIn, CompletedIn, hrow]
    exact ⟨fun h => h, .inl⟩
  | @settled _ row row' hrow hrow' _ hisOpen _ hstatus =>
    refine ⟨fun h => absurd h (hopen hrow hisOpen), ?_⟩
    rintro ⟨row₁, hrow₁, hcaptured⟩
    obtain rfl := Option.some.inj (hrow'.symm.trans hrow₁)
    rcases hstatus with heq | heq
    · exact .inr ⟨row', hrow', heq⟩
    · simp [heq, PaymentStatus.isCaptured] at hcaptured
  | refundEvent hrow hrow' _ hstatus =>
    exact ⟨fun _ => ⟨_, hrow', rfl⟩, fun _ => .inl (hwas hrow hstatus)⟩
  | @refunded row refund hrow hrow' _ hstatus =>
    refine ⟨fun _ => ⟨_, hrow', ?_⟩, fun _ => .inl (hwas hrow hstatus)⟩
    rcases refundStatus_refunded row.amount (refundedCents id row.tenantId s + refund.amount)
      with heq | heq <;> simp [heq, PaymentStatus.isCaptured]
  -- a payment is cancelled only for another one that is opened in its place
  | cancelled _ _ _ => exact absurd rfl hretires
  | opened hrow hrow' _ hstatus =>
    refine ⟨fun h => absurd h (hnew hrow), ?_⟩
    rintro ⟨row₁, hrow₁, hcaptured⟩
    obtain rfl := Option.some.inj (hrow'.symm.trans hrow₁)
    simp [hstatus, PaymentStatus.isCaptured] at hcaptured
  | sold hrow hrow' _ hstatus =>
    exact ⟨fun h => absurd h (hnew hrow), fun _ => .inr ⟨_, hrow', hstatus⟩⟩

/-- A step keeps the books of each payment. -/
theorem PaymentStep.books (hstep : PaymentStep id s s' k) (h : PaymentBooks id s)
    (hretires : k ≠ .opened true) (hsale : k ≠ .sale) : PaymentBooks id s' := by
  cases hstep with
  | kept hrow hrefunds =>
    refine ⟨?_, ?_⟩
    · rw [hrow]
      exact h.positive
    · rw [hrow, hrefunds]
      exact h.refunds
  | @settled _ row row' hrow hrow' hrefunds hopen hsame _ =>
    -- an open payment has no refunds yet
    have hnil : refundsOf id s = [] := by
      apply h.refundsOf_eq_nil
      intro row₁ hrow₁
      obtain rfl := Option.some.inj (hrow.symm.trans hrow₁)
      constructor <;> intro heq <;> simp [heq, PaymentStatus.isOpen] at hopen
    refine ⟨fun row₁ hrow₁ => ?_, by simp [hrefunds, hnil]⟩
    obtain rfl := Option.some.inj (hrow'.symm.trans hrow₁)
    exact hsame.amount ▸ h.positive row hrow
  | @refundEvent row hrow hrow' hrefunds hstatus =>
    refine ⟨fun row₁ hrow₁ => ?_, fun refund hmem => ⟨_, hrow', ?_, .inl rfl⟩⟩
    · obtain rfl := Option.some.inj (hrow'.symm.trans hrow₁)
      exact h.positive row hrow
    · rw [hrefunds] at hmem
      obtain ⟨row₁, hrow₁, htenant, -⟩ := h.refunds refund hmem
      obtain rfl := Option.some.inj (hrow.symm.trans hrow₁)
      exact htenant
  | @refunded row refund hrow hrow' hrefunds hstatus hpos hle htenant _ =>
    refine ⟨fun row₁ hrow₁ => ?_,
      fun refund₁ hmem => ⟨_, hrow', ?_, refundStatus_refunded _ _⟩⟩
    · obtain rfl := Option.some.inj (hrow'.symm.trans hrow₁)
      exact h.positive row hrow
    · -- the refunds from before, and the new one
      rw [hrefunds, List.mem_append, List.mem_singleton] at hmem
      rcases hmem with hmem | rfl
      · obtain ⟨row₁, hrow₁, htenant₁, -⟩ := h.refunds refund₁ hmem
        obtain rfl := Option.some.inj (hrow.symm.trans hrow₁)
        exact htenant₁
      · exact htenant.symm
  | cancelled _ _ _ => exact absurd rfl hretires
  | @opened _ row hrow hrow' hrefunds _ hpos =>
    -- nor has one that was not there
    have hnil : refundsOf id s = [] := h.refundsOf_eq_nil (by simp [hrow])
    refine ⟨fun row₁ hrow₁ => ?_, by simp [hrefunds, hnil]⟩
    obtain rfl := Option.some.inj (hrow'.symm.trans hrow₁)
    exact hpos
  | sold _ _ _ _ _ => exact absurd rfl hsale

/-! ### Runs -/

theorem everCompleted_iff : everCompleted history id = true ↔ ∃ s ∈ history, CompletedIn id s := by
  simp only [everCompleted, List.any_eq_true, Option.any_eq_true, decide_eq_true_eq, CompletedIn]

/-- Along a history that starts without a captured payment, the captured payments are those
that have been COMPLETED. -/
theorem captured_iff_everCompleted (hchain : (history ++ [s₀]).IsChain fun s' s =>
      (CapturedIn id s → CapturedIn id s') ∧
      (CapturedIn id s' → CapturedIn id s ∨ CompletedIn id s'))
    (hs : ¬ CapturedIn id s₀) (hnewest : (history ++ [s₀]).head? = some s) :
    CapturedIn id s ↔ everCompleted (history ++ [s₀]) id = true := by
  rw [everCompleted_iff]
  induction history generalizing s with
  | nil =>
    obtain rfl : s₀ = s := by simpa using hnewest
    simp only [List.nil_append, List.mem_singleton, exists_eq_left]
    exact ⟨fun h => absurd h hs, CompletedIn.captured⟩
  | cons s₁ older ih =>
    obtain rfl : s₁ = s := by simpa using hnewest
    obtain ⟨before, hbefore⟩ : ∃ before, (older ++ [s₀]).head? = some before := by
      cases older <;> simp
    rw [List.cons_append, List.isChain_cons] at hchain
    obtain ⟨hkeeps, hgains⟩ := hchain.1 before hbefore
    have hold := ih hchain.2 hbefore
    simp only [List.cons_append, List.mem_cons, exists_eq_or_imp]
    constructor
    · intro hcaptured
      rcases hgains hcaptured with hearlier | hcompleted
      · exact .inr (hold.mp hearlier)
      · exact .inl hcompleted
    · rintro (hcompleted | hearlier)
      · exact hcompleted.captured
      · exact hkeeps (hold.mpr hearlier)

/-- What is COMPLETED now has been COMPLETED, so the reports add up no more than was paid. -/
theorem completed_le_everCompleted (hbooks : ∀ id, PaymentBooks id s)
    (hcaptured : ∀ id, CapturedIn id s ↔ everCompleted history id = true) (id : Uuid)
    (row : Payment) (hrow : s.payments.lookup id = some row) :
    (if row.tenantId = tenantId ∧ row.status = .completed then row.amount else 0) ≤
      if row.tenantId = tenantId ∧ everCompleted history id then row.amount else 0 := by
  have hpos := (hbooks id).positive row hrow
  by_cases hcompleted : row.tenantId = tenantId ∧ row.status = .completed
  · have hever : everCompleted history id = true :=
      (hcaptured id).mp (CompletedIn.captured ⟨row, hrow, hcompleted.2⟩)
    rw [if_pos hcompleted, if_pos ⟨hcompleted.1, hever⟩]
  · rw [if_neg hcompleted]
    split
    · exact hpos.le
    · exact le_rfl

/-- The sums agree when all that was paid is still COMPLETED. -/
theorem paymentSum_eq_iff (hbooks : ∀ id, PaymentBooks id s)
    (hcaptured : ∀ id, CapturedIn id s ↔ everCompleted history id = true) :
    (paymentSum s tenantId .completed = s.payments.total fun id row =>
      if row.tenantId = tenantId ∧ everCompleted history id then row.amount else 0) ↔
      NothingRefunded s tenantId := by
  rw [paymentSum, AList.total_eq_total_iff (completed_le_everCompleted hbooks hcaptured)]
  refine forall_congr' fun id => forall_congr' fun row => forall_congr' fun hrow => ?_
  have hpos := (hbooks id).positive row hrow
  have hiff : row.status.isCaptured = true ↔ everCompleted history id = true := by
    rw [← hcaptured id]
    simp [CapturedIn, hrow]
  -- A payment that was COMPLETED has one of three statuses.
  by_cases htenant : row.tenantId = tenantId
  · cases hstatus : row.status <;>
      simp_all [PaymentStatus.isCaptured, hpos.ne]
  · simp [htenant]

/-- Without a refunded payment there are no refunds. -/
theorem refundSum_eq_zero (hbooks : ∀ id, PaymentBooks id s) (h : NothingRefunded s tenantId) :
    refundSum s tenantId = 0 := by
  have hnil : (s.refunds.filter fun r => r.tenantId = tenantId ∧ r.status = .completed) = [] := by
    apply List.filter_eq_nil_iff.mpr
    intro refund hmem hrefund
    have hof : refund ∈ refundsOf refund.paymentId s := List.mem_filter.mpr ⟨hmem, by simp⟩
    obtain ⟨row, hrow, htenant, hstatus⟩ := (hbooks refund.paymentId).refunds refund hof
    simp only [decide_eq_true_eq] at hrefund
    obtain ⟨hrefunded, hpartially⟩ := h _ row hrow (htenant.trans hrefund.1)
    rcases hstatus with heq | heq
    · exact hrefunded heq
    · exact hpartially heq
  rw [refundSum, hnil]
  rfl

/-- The state is reached with these books, and the history says what was captured. -/
theorem reaches_books (hrs : ∀ r ∈ rs, r.OfPayments) (hs : NothingPaid s₀)
    (h : Reaches (.free sales) (.start s₀ (rs.map PaymentRequest.program)) c) :
    (∀ id, PaymentBooks id c.committed) ∧
      ∀ id, CapturedIn id c.committed ↔ everCompleted (c.history s₀) id = true := by
  have hstart (id : Uuid) : PaymentBooks id s₀ :=
    ⟨fun row hrow => (hs.payments id row hrow).2, by simp [refundsOf, hs.refunds]⟩
  obtain ⟨hbooks, hchain⟩ := reaches_effects (I := fun s => ∀ id, PaymentBooks id s)
    (E := fun s s' => ∀ id, (CapturedIn id s → CapturedIn id s') ∧
      (CapturedIn id s' → CapturedIn id s ∨ CompletedIn id s')) hstart
    (fun s t k hI hk he _ => by
      obtain ⟨r, hr, hk⟩ := hk
      obtain ⟨hretires, hsale⟩ := (hrs r hr).kinds
      have hretires' : k ≠ .opened true := fun heq => hretires (heq ▸ hk)
      have hsale' : k ≠ .sale := fun heq => hsale (heq ▸ hk)
      exact ⟨fun id => (he.step id).books (hI id) hretires' hsale',
        fun id => (he.step id).captured hretires'⟩) h
  obtain ⟨older, hhistory⟩ := h.exists_history
  refine ⟨hbooks c.committed (by simp [hhistory]), fun id => ?_⟩
  apply captured_iff_everCompleted (hchain.imp fun s' s hstep => hstep id)
  · rintro ⟨row, hrow, hcaptured⟩
    simp [(hs.payments id row hrow).1] at hcaptured
  · exact congrArg List.head? hhistory

/-- **Net revenue is the money kept** exactly when nothing has been refunded: in every state
that payment requests lead to, in any interleaving, from a shop where nothing was paid yet. -/
theorem reaches_netRevenue_iff (hrs : ∀ r ∈ rs, r.OfPayments) (hs : NothingPaid s₀)
    (h : Reaches (.free sales) (.start s₀ (rs.map PaymentRequest.program)) c)
    (tenantId : Uuid) :
    ReportsMoneyKept (c.history s₀) c.committed tenantId ↔
      NothingRefunded c.committed tenantId := by
  obtain ⟨hbooks, hcaptured⟩ := reaches_books hrs hs h
  rw [← paymentSum_eq_iff hbooks hcaptured]
  constructor
  · intro hreports
    exact sub_left_injective hreports.revenue
  · intro hsum
    have hnet : (getRevenue c.committed tenantId none).netRevenue =
        moneyKept (c.history s₀) c.committed tenantId :=
      congrArg (· - refundSum c.committed tenantId) hsum
    refine ⟨hnet, hnet, ?_⟩
    have hzero := refundSum_eq_zero hbooks ((paymentSum_eq_iff hbooks hcaptured).mp hsum)
    have hnonneg : 0 ≤ paymentSum c.committed tenantId .completed := by
      apply AList.total_nonneg
      intro id row hrow
      have hpos := (hbooks id).positive row hrow
      split
      · exact hpos.le
      · exact le_rfl
    calc 0 ≤ paymentSum c.committed tenantId .completed := hnonneg
      _ = (getRevenue c.committed tenantId none).netRevenue := by
        simp [getRevenue, hzero]

/-! ### A refund of sixty rupees of a hundred -/

namespace PaymentSample

theorem begunShop_nothingPaid : NothingPaid begunShop := by
  refine ⟨fun id row hrow => ?_, rfl⟩
  rcases lookup_insert_cases ∅ "payment" id begun with ⟨-, h⟩ | ⟨-, h⟩
  · obtain rfl := Option.some.inj (h.symm.trans hrow)
    exact ⟨rfl, by decide⟩
  · cases h.symm.trans hrow

/-- What the report says, what was kept, and the status of the payment. -/
def figures (c : Config sales Unit) : Cents × Cents × Option PaymentStatus :=
  ((getRevenue c.committed "shop" none).netRevenue,
    moneyKept (c.history begunShop) c.committed "shop",
    (c.committed.payments.lookup "payment").map (·.status))

/-- The payment is captured, and then the refund goes through. -/
def captureThenRefund : List (Action sales) :=
  List.replicate 8 (.advance 0) ++ List.replicate 6 (.advance 1) ++
    [.reply 1 (.refundAccepted "rfnd_1")] ++ List.replicate 5 (.advance 1)

end PaymentSample

open PaymentSample in
/-- A payment that was captured, and not refunded. -/
theorem reaches_netRevenue_iff_sample :
    ∃ c : Config sales Unit,
      Reaches (.free sales) (.start begunShop ([verifyBegun].map PaymentRequest.program)) c ∧
      figures c = (10000, 10000, some .completed) ∧
      (ReportsMoneyKept (c.history begunShop) c.committed "shop" ↔
        NothingRefunded c.committed "shop") := by
  have hrun : (play (.free sales) begunShop [verifyBegun] (List.replicate 8 (.advance 0))).map
      figures = some (10000, 10000, some .completed) := by decide +kernel
  obtain ⟨c, hc, hend⟩ := Option.map_eq_some_iff.mp hrun
  have hreach := reaches_play hc
  refine ⟨c, hreach, hend, reaches_netRevenue_iff ?_ begunShop_nothingPaid hreach "shop"⟩
  intro r hr
  obtain rfl := List.mem_singleton.mp hr
  trivial

open PaymentSample in
/-- Forty rupees are kept, and the reports show a loss of sixty. -/
theorem refund_not_reported :
    NothingPaid begunShop ∧ ∃ c : Config sales Unit,
      Reaches (.free sales)
        (.start begunShop ([verifyBegun, refundOf 6000].map PaymentRequest.program)) c ∧
      (getRevenue c.committed "shop" none).netRevenue = -6000 ∧
      moneyKept (c.history begunShop) c.committed "shop" = 4000 ∧
      ¬ ReportsMoneyKept (c.history begunShop) c.committed "shop" := by
  have hrun : (play (.free sales) begunShop [verifyBegun, refundOf 6000] captureThenRefund).map
      figures = some (-6000, 4000, some .partiallyRefunded) := by decide +kernel
  obtain ⟨c, hc, hend⟩ := Option.map_eq_some_iff.mp hrun
  obtain ⟨hnet, hrest⟩ := Prod.mk.inj hend
  obtain ⟨hkept, -⟩ := Prod.mk.inj hrest
  refine ⟨begunShop_nothingPaid, c, reaches_play hc, hnet, hkept, fun hreports => ?_⟩
  have hnonneg := hreports.nonneg
  rw [hnet] at hnonneg
  exact absurd hnonneg (by decide)

end PulseOps
