import PulseOps.Payments.Looks
import PulseOps.Payments.StatusTransitions

/-!
# One open payment an order

Creating a payment and starting an online payment both look for an open payment of the order
before they open their own, and by the time they commit it may no longer be true what they
found. While nobody opens a payment of the order in between, an order never has two open
payments. Two requests to start an online payment cannot come between each other's look and
commit: the first of them holds the row of the order.

## Main definitions

* `OneOpen` — an order has at most one open payment.
* `Attached` — the payments of an order bear its tenant.
* `opensBeside` — what a commit finds beside the payment it opens.

## Main results

* `Opening.eq_of_open` — what is opened after a look that still holds stands alone.
* `noneOpened_of_moment` — nothing is opened between the look and the commit.
* `reaches_oneOpen` — every run.
-/

set_option autoImplicit false

open ReadCommitted Program Contract

namespace PulseOps

open PaymentService

variable {s s' s₀ : Db} {es : List Edit} {rs : List PaymentRequest} {c : Config sales Unit}
  {k : EffectKind} {id orderId : Uuid} {row : Payment} {order : Order}

/-- The order has at most one payment that is PENDING or PROCESSING. -/
def OneOpen (orderId : Uuid) (s : Db) : Prop :=
  ∀ id id' row row', s.payments.lookup id = some row → s.payments.lookup id' = some row' →
    row.orderId = orderId → row'.orderId = orderId → row.status.isOpen = true →
      row'.status.isOpen = true → id = id'

/-- Whether the edits open payments only beside payments of the same order that `ok`
admits in the state `s`, or that they cancel. -/
def opensBeside (ok : PaymentStatus → Bool) (s : Db) (es : List Edit) : Bool :=
  es.all fun
    | .paymentInsert _ row => !row.status.isOpen || s.payments.entries.all fun p =>
        p.2.orderId ≠ row.orderId ∨ ok p.2.status ∨
          .paymentUpdate p.1 { p.2 with status := .cancelled } ∈ es
    | _ => true

/-- What `opensBeside` says of one other payment. -/
theorem Opening.beside {ok : PaymentStatus → Bool} {id₀ : Uuid} {row₀ : Payment}
    (h : Opening s es id₀ row₀) (hok : opensBeside ok s es = true)
    (hrow : s.payments.lookup id = some row) (horder : row.orderId = row₀.orderId) :
    ok row.status = true ∨ .paymentUpdate id { row with status := .cancelled } ∈ es := by
  have hall := List.all_eq_true.mp hok _ h.insert
  have hopen : row₀.status.isOpen = true := by
    rw [h.status]
    rfl
  simp only [hopen, Bool.not_true, Bool.false_or, List.all_eq_true, decide_eq_true_eq] at hall
  have hmem : (⟨id, row⟩ : Sigma fun _ : Uuid => Payment) ∈ s.payments.entries :=
    AList.mem_lookup_iff.mp hrow
  rcases hall _ hmem with hne | h
  · exact absurd horder hne
  · exact h

/-! ### One effect -/

/-- The payments of the order bear its tenant, and none of them is deleted. -/
def Attached (orderId : Uuid) (order : Order) (s : Db) : Prop :=
  ∀ id row, s.payments.lookup id = some row → row.orderId = orderId →
    row.tenantId = order.tenantId ∧ row.deleted = false

/-- A payment that is inserted is one that is opened, or one of a new order. -/
theorem PaymentEffect.inserted (h : PaymentEffect s es k) (hmem : .paymentInsert id row ∈ es) :
    ((∃ retires, k = .opened retires) ∧ row.status.isOpen = true) ∨
      s.orders.lookup row.orderId = none := by
  have hcoreMem : .paymentInsert id row ∈ coreEdits es := List.mem_filter.mpr ⟨hmem, rfl⟩
  cases h with
  | @opened stale p order hcore _ _ _ _ _ hstatus =>
    have hrow : row = p.row := by
      cases stale <;> simp_all [cancelEdit, NewPayment.edits, chargeEdit]
    exact .inl ⟨⟨_, rfl⟩, by rw [hrow, hstatus]; rfl⟩
  | @sale orderId order paid hcore hfresh hnew hids hpaid htotal =>
    rw [hcore] at hcoreMem
    rcases mem_saleEdits hcoreMem with heq | ⟨p, hp, heq⟩ | ⟨p, hp, heq⟩ | heq
    · cases heq
    · obtain ⟨rfl, rfl⟩ := Edit.paymentInsert.inj heq
      exact .inr ((hpaid p hp).1 ▸ hfresh)
    · cases heq
    · cases heq
  | note hcore => simp [hcore] at hcoreMem
  | late hcore _ _ => simp [hcore, chargeEdit] at hcoreMem
  | confirm hcore _ _ _ _ _ => simp [hcore, chargeEdit] at hcoreMem
  | event hcore _ _ _ _ _ _ _ _ => simp [hcore, chargeEdit] at hcoreMem
  | capture hcore _ _ _ _ => simp [hcore, chargeEdit] at hcoreMem
  | refundEvent hcore _ _ _ _ _ => simp [hcore, chargeEdit] at hcoreMem
  | refund hcore _ _ _ _ _ _ _ _ => simp [hcore, chargeEdit] at hcoreMem

/-- A payment that is updated keeps its mark of deletion. -/
theorem PaymentEffect.updated (h : PaymentEffect s es k) (hmem : .paymentUpdate id row ∈ es) :
    ∃ row₀, s.payments.lookup id = some row₀ ∧ row₀.deleted = row.deleted := by
  have hcoreMem : .paymentUpdate id row ∈ coreEdits es := List.mem_filter.mpr ⟨hmem, rfl⟩
  cases h with
  | note hcore => simp [hcore] at hcoreMem
  | late hcore _ _ => simp [hcore, chargeEdit] at hcoreMem
  | confirm hcore hrow _ _ _ _ =>
    simp only [hcore, chargeEdit, List.mem_cons, Edit.paymentUpdate.injEq, reduceCtorEq,
      List.not_mem_nil, or_self, or_false] at hcoreMem
    obtain ⟨rfl, rfl⟩ := hcoreMem
    exact ⟨_, hrow, rfl⟩
  | event hcore hrow _ _ _ _ _ _ _ =>
    simp only [hcore, chargeEdit, List.mem_cons, List.mem_map, Edit.paymentUpdate.injEq,
      reduceCtorEq, and_false, exists_false, or_false] at hcoreMem
    obtain ⟨rfl, rfl⟩ := hcoreMem
    exact ⟨_, hrow, rfl⟩
  | capture hcore hrow _ _ _ =>
    simp only [hcore, chargeEdit, List.mem_cons, Edit.paymentUpdate.injEq, reduceCtorEq,
      List.not_mem_nil, or_self, or_false] at hcoreMem
    obtain ⟨rfl, rfl⟩ := hcoreMem
    exact ⟨_, hrow, rfl⟩
  | refundEvent hcore hrow _ _ _ _ =>
    simp only [hcore, chargeEdit, List.mem_cons, List.mem_map, Edit.paymentUpdate.injEq,
      reduceCtorEq, and_false, exists_false, or_false] at hcoreMem
    obtain ⟨rfl, rfl⟩ := hcoreMem
    exact ⟨_, hrow, rfl⟩
  | refund hcore hrow _ _ _ _ _ _ _ =>
    simp only [hcore, chargeEdit, List.mem_cons, Edit.paymentUpdate.injEq, reduceCtorEq,
      List.not_mem_nil, or_false, false_or] at hcoreMem
    obtain ⟨rfl, rfl⟩ := hcoreMem
    exact ⟨_, hrow, rfl⟩
  | @opened stale p order hcore hstale _ _ _ _ _ =>
    cases stale with
    | none => simp [hcore, NewPayment.edits, chargeEdit] at hcoreMem
    | some q =>
      simp only [hcore, cancelEdit, NewPayment.edits, chargeEdit, Option.toList_some,
        List.map_cons, List.map_nil, List.cons_append, List.nil_append, List.mem_cons,
        Edit.paymentUpdate.injEq, reduceCtorEq, List.not_mem_nil, or_self, or_false] at hcoreMem
      obtain ⟨rfl, rfl⟩ := hcoreMem
      exact ⟨_, (hstale q rfl).1, rfl⟩
  | sale hcore _ _ _ _ _ =>
    rw [hcore] at hcoreMem
    rcases mem_saleEdits hcoreMem with heq | ⟨p, hp, heq⟩ | ⟨p, hp, heq⟩ | heq <;> cases heq

/-- A payment after some edits was there before, or one of them has written it. -/
theorem lookup_payments_replay (hrow : (sales.replay es s).payments.lookup id = some row) :
    s.payments.lookup id = some row ∨ .paymentInsert id row ∈ es ∨ .paymentUpdate id row ∈ es := by
  induction es generalizing s with
  | nil => exact .inl hrow
  | cons e es ih =>
    rcases ih hrow with h | h | h
    · cases e with
      | paymentInsert id' row' =>
        rcases lookup_insert_cases s.payments id' id row' with ⟨rfl, hlookup⟩ | ⟨-, hlookup⟩
        · obtain rfl := Option.some.inj (hlookup.symm.trans h)
          exact .inr (.inl List.mem_cons_self)
        · exact .inl (hlookup.symm.trans h)
      | paymentUpdate id' row' =>
        rcases lookup_insert_cases s.payments id' id row' with ⟨rfl, hlookup⟩ | ⟨-, hlookup⟩
        · obtain rfl := Option.some.inj (hlookup.symm.trans h)
          exact .inr (.inr List.mem_cons_self)
        · exact .inl (hlookup.symm.trans h)
      | _ => exact .inl h
    · exact .inr (.inl (List.mem_cons_of_mem _ h))
    · exact .inr (.inr (List.mem_cons_of_mem _ h))

/-- The payments of an order stay attached to it, if those that are inserted are. -/
theorem PaymentEffect.attached (h : PaymentEffect s es k) (hs : Attached orderId order s)
    (hnew : ∀ id row, .paymentInsert id row ∈ es → row.orderId = orderId →
      row.tenantId = order.tenantId ∧ row.deleted = false) :
    Attached orderId order (sales.replay es s) := by
  have hsame {id : Uuid} {row row₀ : Payment} (h₀ : s.payments.lookup id = some row₀)
      (hrow : (sales.replay es s).payments.lookup id = some row) : row₀.Same row := by
    obtain ⟨row', hrow', hsame⟩ := h.evolves.payment id row₀ h₀
    exact Option.some.inj (hrow'.symm.trans hrow) ▸ hsame
  intro id row hrow horder
  rcases lookup_payments_replay hrow with h₀ | hinsert | hupdate
  · exact hs id row h₀ horder
  · exact hnew id row hinsert horder
  · obtain ⟨row₀, h₀, hdeleted⟩ := h.updated hupdate
    obtain ⟨htenant, hkept⟩ := hs id row₀ h₀ ((hsame h₀ hrow).orderId.trans horder)
    exact ⟨(hsame h₀ hrow).tenantId.symm.trans htenant, hdeleted.symm.trans hkept⟩

/-- What is open after an effect was open before, or is the payment that was opened. -/
theorem PaymentEffect.open_before (h : PaymentEffect s es k) (hk : ∀ b, k ≠ .opened b)
    (hrow : (sales.replay es s).payments.lookup id = some row) (hopen : row.status.isOpen = true) :
    s.payments.lookup id = some row := by
  have hnot {status : PaymentStatus} (hstatus : row.status = status)
      (hclosed : status.isOpen = false) : False := by
    rw [hstatus, hclosed] at hopen
    cases hopen
  cases h.step id with
  | kept hkept _ => exact hkept ▸ hrow
  | settled _ hrow' _ _ _ hstatus =>
    obtain rfl := Option.some.inj (hrow'.symm.trans hrow)
    rcases hstatus with hstatus | hstatus
    · exact (hnot hstatus rfl).elim
    · exact (hnot hstatus rfl).elim
  | refundEvent _ hrow' _ _ =>
    obtain rfl := Option.some.inj (hrow'.symm.trans hrow)
    exact (hnot rfl rfl).elim
  | @refunded row₀ refund _ hrow' _ _ _ _ _ _ =>
    obtain rfl := Option.some.inj (hrow'.symm.trans hrow)
    refine (hnot rfl ?_).elim
    unfold refundStatus
    split <;> rfl
  | cancelled _ hrow' _ =>
    obtain rfl := Option.some.inj (hrow'.symm.trans hrow)
    exact (hnot rfl rfl).elim
  | opened _ _ _ _ _ => exact absurd rfl (hk _)
  | sold _ hrow' _ hstatus _ =>
    obtain rfl := Option.some.inj (hrow'.symm.trans hrow)
    exact (hnot hstatus rfl).elim

/-- What is open after a payment was opened, and is not that payment, was open before. -/
theorem Opening.open_before {id₀ : Uuid} {row₀ : Payment} (h : Opening s es id₀ row₀)
    (hrow : (sales.replay es s).payments.lookup id = some row) (hopen : row.status.isOpen = true)
    (hid : id ≠ id₀) : s.payments.lookup id = some row := by
  rcases h.others id hid with hkept | ⟨row', -, -, hmem⟩
  · exact hkept ▸ hrow
  · obtain rfl := Option.some.inj ((h.updates _ _ hmem).symm.trans hrow)
    cases hopen


/-- Where no payment of the order is opened, what is open was open before. -/
theorem PaymentEffect.open_before_of_none (h : PaymentEffect s es k)
    (hnew : ∀ id row, .paymentInsert id row ∈ es → row.orderId = orderId →
      row.status.isOpen = false)
    (hrow : (sales.replay es s).payments.lookup id = some row) (horder : row.orderId = orderId)
    (hopen : row.status.isOpen = true) : s.payments.lookup id = some row := by
  by_cases hk : ∃ retires, k = .opened retires
  · obtain ⟨retires, rfl⟩ := hk
    obtain ⟨id₀, row₀, hopening⟩ := h.opening
    refine hopening.open_before hrow hopen fun heq => ?_
    -- the payment that was opened is one of another order
    subst heq
    obtain rfl := Option.some.inj (hopening.lookup.symm.trans hrow)
    rw [hnew _ _ hopening.insert horder] at hopen
    cases hopen
  · exact h.open_before (fun retires heq => hk ⟨retires, heq⟩) hrow hopen

/-- Beside a payment that is opened no other one of the order is open, if the request has found
none in `s₁` and none was opened since. -/
theorem Opening.eq_of_open {r : PaymentRequest} {s₁ : Db} {id₀ : Uuid} {row₀ : Payment}
    (h : Opening s es id₀ row₀) (horder₀ : row₀.orderId = orderId)
    (hfound : FoundNoneOpen r orderId order s₁ es) (hattached : Attached orderId order s₁)
    (hone : OneOpen orderId s₁)
    (hbefore : ∀ id row, s.payments.lookup id = some row → row.orderId = orderId →
      row.status.isOpen = true → s₁.payments.lookup id = some row)
    (hrow : (sales.replay es s).payments.lookup id = some row) (horder : row.orderId = orderId)
    (hopen : row.status.isOpen = true) : id = id₀ := by
  by_contra hid
  have hrow₁ := hbefore id row (h.open_before hrow hopen hid) horder hopen
  rcases hfound.alone id₀ row₀ h.insert horder₀ with
    hnone | ⟨id', row', closed, hrow', horder', hopen', hmem, hclosed⟩
  · obtain ⟨htenant, hkept⟩ := hattached id row hrow₁ horder
    rw [hnone id row hrow₁ horder htenant hkept] at hopen
    cases hopen
  · -- the only one that was open is the attempt that is cancelled
    obtain rfl := hone id id' row row' hrow₁ hrow' horder horder' hopen hopen'
    obtain rfl := Option.some.inj ((h.updates id closed hmem).symm.trans hrow)
    rw [hclosed] at hopen
    cases hopen

/-- An effect that opens no payment of the order. -/
theorem PaymentEffect.oneOpen_of_none (h : PaymentEffect s es k) (hs : OneOpen orderId s)
    (hnew : ∀ id row, .paymentInsert id row ∈ es → row.orderId = orderId →
      row.status.isOpen = false) : OneOpen orderId (sales.replay es s) := by
  intro id id' row row' hrow hrow' horder horder' hopen hopen'
  exact hs id id' row row' (h.open_before_of_none hnew hrow horder hopen)
    (h.open_before_of_none hnew hrow' horder' hopen') horder horder' hopen hopen'

/-! ### Runs -/

section Runs

variable {xs : List (Action sales)} {i m n l : ℕ} {t : Transaction sales} {c' : Config sales Unit}
  {x : Action sales}

/-- The requests before anything has run. -/
abbrev paymentStart (s₀ : Db) (rs : List PaymentRequest) : Config sales Unit :=
  .start s₀ (rs.map PaymentRequest.program)

/-- What a request has done that is about to commit. -/
theorem effect_of_reaches (h : Reaches (.free sales) (paymentStart s₀ rs) c)
    (hi : c.sessions[i]? = some (.running (.ret ()) t)) :
    ∃ r k, rs[i]? = some r ∧ k ∈ r.kinds ∧ PaymentEffect c.committed t.edits k := by
  have hprograms : ∀ (j : ℕ) p, (rs.map PaymentRequest.program)[j]? = some p →
      paymentContract.wp (.free sales) (paymentContract.Commits (.free sales) fun _ t s =>
        ∃ r : PaymentRequest, rs[j]? = some r ∧ Settled r.kinds t s) p {} s₀ := by
    intro j p hp
    rw [List.getElem?_map, Option.map_eq_some_iff] at hp
    obtain ⟨r, hr, rfl⟩ := hp
    exact wp_mono (wp_program r s₀) fun _ t s h hs hok => ⟨(h hs hok).1, r, hr, (h hs hok).2⟩
  obtain ⟨-, -, r, hr, -, k, hk, heffect⟩ := guarantee_of_reaches (L := paymentContract)
    (Q := fun i _ t s => ∃ r : PaymentRequest, rs[i]? = some r ∧ Settled r.kinds t s) trivial
    hprograms h hi rfl
  exact ⟨r, k, hr, hk, heffect⟩

/-- A turn leaves the committed state alone, or it commits the effect of a request. -/
theorem effect_of_turn (hc : moment (paymentMachine rs).step (paymentStart s₀ rs) xs m = some c)
    (hx : xs[m]? = some x) (hstep : (paymentMachine rs).step c x = some c') :
    c'.committed = c.committed ∨
      ∃ i t r k, c.sessions[i]? = some (.running (.ret ()) t) ∧ rs[i]? = some r ∧ k ∈ r.kinds ∧
        PaymentEffect c.committed t.edits k ∧ c'.committed = t.view c.committed ∧
        (paymentMachine rs).commitAt (paymentStart s₀ rs) xs m =
          some ⟨i, t.edits, t.view c.committed⟩ := by
  rcases Machine.commit_or_same hc hx hstep with ⟨hsame, -, -⟩ | ⟨_, t, -, hi, hconfig, hcommit⟩
  · exact .inl hsame
  · obtain ⟨r, k, hr, hk, heffect⟩ := effect_of_reaches (Config.reaches_moment hc) hi
    exact .inr ⟨_, t, r, k, hi, hr, hk, heffect, congrArg Config.committed hconfig, hcommit⟩

/-- Nothing touches an order that is there. -/
theorem order_of_moment (horder : s₀.orders.lookup orderId = some order)
    (hc : moment (paymentMachine rs).step (paymentStart s₀ rs) xs m = some c) :
    c.committed.orders.lookup orderId = some order := by
  refine moment_induction (P := fun _ c => c.committed.orders.lookup orderId = some order) horder
    (fun k c x c' hc hx hstep ih => ?_) hc
  rcases effect_of_turn hc hx hstep with hsame | ⟨i, t, r, k, -, -, -, heffect, hview, -⟩
  · rw [hsame]
    exact ih
  · rw [hview]
    exact heffect.evolves.order orderId order ih

/-- While nobody opens a payment of the order, what is open has been open before. -/
theorem open_of_noneOpened (hl : moment (paymentMachine rs).step (paymentStart s₀ rs) xs l = some c)
    (hnone : ∀ k, l ≤ k → k < m → openedAt orderId s₀ rs xs k = none) (hlm : l ≤ m)
    (hm : moment (paymentMachine rs).step (paymentStart s₀ rs) xs m = some c')
    (hrow : c'.committed.payments.lookup id = some row) (horder : row.orderId = orderId)
    (hopen : row.status.isOpen = true) : c.committed.payments.lookup id = some row := by
  refine moment_induction_from (m := m)
    (P := fun _ c' => c'.committed.payments.lookup id = some row →
      c.committed.payments.lookup id = some row) hl (fun h => h)
    (fun k c₁ x c₂ hlk hkm hc₁ hx hstep ih hrow => ih ?_) hlm hm hrow
  rcases effect_of_turn hc₁ hx hstep with hsame | ⟨i, t, r, kind, -, -, -, heffect, hview, hcommit⟩
  · rw [← hsame]
    exact hrow
  · rw [hview] at hrow
    refine heffect.open_before_of_none (fun id₀ row₀ hmem horder₀ => ?_) hrow horder hopen
    by_contra hopen₀
    have hopened := hnone k hlk hkm
    rw [openedAt, hcommit, Option.filter_eq_none_iff] at hopened
    exact hopened _ rfl (opensPayment_eq_true.mpr
      ⟨id₀, row₀, hmem, horder₀, Bool.not_eq_false _ ▸ hopen₀⟩)

/-- The turn at which a request has looked that is about to open a payment of the order, and
what it has found. -/
theorem found_of_moment (horder : s₀.orders.lookup orderId = some order)
    (hc : moment (paymentMachine rs).step (paymentStart s₀ rs) xs m = some c)
    (hi : c.sessions[i]? = some (.running (.ret ()) t)) {r : PaymentRequest}
    (hr : rs[i]? = some r) {retires : Bool} (hk : .opened retires ∈ r.kinds) :
    ∃ k y, lookedAt rs xs i m = some k ∧ k ∈ (paymentMachine rs).turns xs i m ∧
      moment (paymentMachine rs).step (paymentStart s₀ rs) xs k = some y ∧
      FoundNoneOpen r orderId order y.committed t.edits := by
  obtain ⟨n, hn⟩ := PaymentRequest.look_isSome hk
  have hp : (rs.map PaymentRequest.program)[i]? = some r.program := by simp [hr]
  obtain ⟨k, y, hturn, hy, hfound⟩ := (paymentMachine rs).restsOn_of_moment Config.fresh_start hc
    hi hp (fun _ _ _ hy => order_of_moment horder hy) (PaymentRequest.restsOn hn)
  refine ⟨k, y, ?_, List.mem_of_getElem? hturn, hy, hfound⟩
  rw [lookedAt, hr, Option.bind_some, hn, Option.bind_some, hturn]

/-- A request that is about to open a payment of the order. -/
theorem opened_of_reaches (horder : c.committed.orders.lookup orderId = some order)
    (h : Reaches (.free sales) (paymentStart s₀ rs) c)
    (hi : c.sessions[i]? = some (.running (.ret ()) t))
    (hopens : opensPayment orderId ⟨i, t.edits, t.view c.committed⟩ = true) :
    ∃ r retires, rs[i]? = some r ∧ .opened retires ∈ r.kinds ∧
      PaymentEffect c.committed t.edits (.opened retires) := by
  obtain ⟨r, k, hr, hk, heffect⟩ := effect_of_reaches h hi
  obtain ⟨id, row, hmem, rfl, -⟩ := opensPayment_eq_true.mp hopens
  rcases heffect.inserted hmem with ⟨⟨retires, rfl⟩, -⟩ | hnone
  · exact ⟨r, retires, hr, hk, heffect⟩
  · rw [horder] at hnone
    cases hnone

/-- The request of a turn that opens a payment of the order is one for that order. -/
theorem target_of_openedAt (horder : s₀.orders.lookup orderId = some order) {z : Commit sales}
    (hz : openedAt orderId s₀ rs xs m = some z) {r : PaymentRequest}
    (hr : rs[z.session]? = some r) : r.target = some orderId := by
  obtain ⟨hcommit, hopens⟩ := Option.filter_eq_some_iff.mp hz
  obtain ⟨c, c', x, a, t, hc, hx, hstep, -, hi, -, rfl⟩ :=
    (paymentMachine rs).exists_of_commitAt hcommit
  obtain ⟨r', retires, hr', hk, -⟩ := opened_of_reaches (order_of_moment horder hc)
    (Config.reaches_moment hc) hi hopens
  obtain rfl := Option.some.inj (hr.symm.trans hr')
  obtain ⟨k, y, -, -, -, hfound⟩ := found_of_moment horder hc hi hr hk
  obtain ⟨id, row, hmem, hid, -⟩ := opensPayment_eq_true.mp hopens
  exact (hfound.inserted id row hmem hid).1

/-- Nobody opens a payment of the order between the look and the commit of a request that opens
one: that is the condition, and for two `start`s the lock on the order. -/
theorem noneOpened_of_moment (horder : s₀.orders.lookup orderId = some order)
    (hsince : NoneOpenedSince orderId s₀ rs xs) (hlen : m < xs.length)
    (hc : moment (paymentMachine rs).step (paymentStart s₀ rs) xs m = some c)
    (hi : c.sessions[i]? = some (.running (.ret ()) t)) {z : Commit sales}
    (hz : openedAt orderId s₀ rs xs m = some z) (hzi : z.session = i) {k : ℕ}
    (hk : lookedAt rs xs i m = some k) (hkl : k ≤ l) (hlm : l < m) :
    openedAt orderId s₀ rs xs l = none := by
  subst hzi
  rw [lookedAt, Option.bind_eq_some_iff] at hk
  obtain ⟨n, hn, hturn⟩ := hk
  obtain ⟨r, hr, hlook⟩ := Option.bind_eq_some_iff.mp hn
  rcases Nat.eq_or_lt_of_le hkl with rfl | hlt
  · -- the look itself is no commit
    rw [openedAt, (paymentMachine rs).commitAt_of_mem_turns hc hi (List.mem_of_getElem? hturn)]
    rfl
  rw [Option.eq_none_iff_forall_ne_some]
  intro y hy
  have hlooked : lookedAt rs xs z.session m = some k := by rw [lookedAt, hn]; exact hturn
  have hboth := hsince m hlen z hz k hlooked l hlm hlt y hy
  rw [bothStart, Bool.and_eq_true, hr] at hboth
  obtain ⟨r', hr', hstart'⟩ := (Option.any_eq_true _ _).mp hboth.2
  -- two `start`s: the order is there, so both hold its row from their locks on
  have hpresent : ∀ k' (y' : Config sales Unit), k' < m →
      moment (Config.step (.free sales)) (paymentStart s₀ rs) xs k' = some y' →
      True ∧ sales.present y'.committed (.order orderId) = true := by
    intro k' y' _ hy'
    have horder' : y'.committed.orders.lookup orderId = some order := order_of_moment horder hy'
    exact ⟨trivial, Option.isSome_iff_exists.mpr ⟨order, horder'⟩⟩
  have hn₁ : 1 ≤ n := by
    cases r with
    | start => exact Option.some.inj hlook ▸ by decide
    | _ => cases hboth.1
  have hp : (rs.map PaymentRequest.program)[z.session]? = some r.program := by simp [hr]
  have hp' : (rs.map PaymentRequest.program)[y.session]? = some r'.program := by simp [hr']
  exact Config.false_of_locked (fun _ => True) hc hi hp hturn hlt hlm
    (Option.filter_eq_some_iff.mp hy).1 hp' hpresent
    (PaymentRequest.locksBy hboth.1 (target_of_openedAt horder hz hr)) hn₁
    (PaymentRequest.locksBy hstart' (target_of_openedAt horder hy hr'))

/-- At every moment of a run that meets the condition the order has one open payment at most. -/
theorem oneOpen_of_moment (horder : s₀.orders.lookup orderId = some order)
    (hattached : Attached orderId order s₀) (hone : OneOpen orderId s₀)
    (hsince : NoneOpenedSince orderId s₀ rs xs) (hlen : m ≤ xs.length)
    (hc : moment (paymentMachine rs).step (paymentStart s₀ rs) xs m = some c) :
    Attached orderId order c.committed ∧ OneOpen orderId c.committed := by
  induction m using Nat.strong_induction_on generalizing c with
  | _ m ih =>
  cases m with
  | zero =>
    obtain rfl := Option.some.inj hc
    exact ⟨hattached, hone⟩
  | succ m =>
    obtain ⟨c₁, x, hc₁, hx, hstep⟩ := exists_of_moment_succ hc
    obtain ⟨ha, ho⟩ := ih m (Nat.lt_succ_self m) (Nat.le_of_succ_le hlen) hc₁
    rcases effect_of_turn hc₁ hx hstep with hsame |
      ⟨i, t, r, k, hi, hr, hk, heffect, hview, hcommit⟩
    · rw [hsame]
      exact ⟨ha, ho⟩
    rw [hview]
    have horder₁ : c₁.committed.orders.lookup orderId = some order := order_of_moment horder hc₁
    by_cases hopens : opensPayment orderId ⟨i, t.edits, t.view c₁.committed⟩ = true
    · obtain ⟨r', retires, hr', hk', heffect'⟩ := opened_of_reaches horder₁
        (Config.reaches_moment hc₁) hi hopens
      obtain ⟨l, y, hlook, hturn, hy, hfound⟩ := found_of_moment horder hc₁ hi hr' hk'
      have hlm : l < m := Machine.lt_of_mem_turns hturn
      obtain ⟨hay, hoy⟩ := ih l (Nat.lt_succ_of_lt hlm) (by omega) hy
      have hz : openedAt orderId s₀ rs xs m = some ⟨i, t.edits, t.view c₁.committed⟩ :=
        Option.filter_eq_some_iff.mpr ⟨hcommit, hopens⟩
      -- what is open now was open when the request looked
      have hbefore : ∀ id row, c₁.committed.payments.lookup id = some row →
          row.orderId = orderId → row.status.isOpen = true →
          y.committed.payments.lookup id = some row := fun id row hrow hid hopen =>
        open_of_noneOpened hy (fun k hlk hkm => noneOpened_of_moment horder hsince hlen hc₁ hi hz
          rfl hlook hlk hkm) hlm.le hc₁ hrow hid hopen
      obtain ⟨id₀, row₀, hopening⟩ := heffect'.opening
      refine ⟨heffect.attached ha fun id row hmem hid => (hfound.inserted id row hmem hid).2, ?_⟩
      intro id id' row row' hrow hrow' hid hid' hopen hopen'
      -- the payment that is opened may be one of another order
      by_cases heq : row₀.orderId = orderId
      · rw [hopening.eq_of_open heq hfound hay hoy hbefore hrow hid hopen,
          hopening.eq_of_open heq hfound hay hoy hbefore hrow' hid' hopen']
      · have hne {id : Uuid} {row : Payment} (hid : row.orderId = orderId)
            (hrow : (sales.replay t.edits c₁.committed).payments.lookup id = some row) :
            id ≠ id₀ := by
          rintro rfl
          obtain rfl := Option.some.inj (hopening.lookup.symm.trans hrow)
          exact heq hid
        exact ho id id' row row' (hopening.open_before hrow hopen (hne hid hrow))
          (hopening.open_before hrow' hopen' (hne hid' hrow')) hid hid' hopen hopen'
    · -- a commit that opens no payment of the order
      have hnew : ∀ id row, .paymentInsert id row ∈ t.edits → row.orderId = orderId →
          row.status.isOpen = false := fun id row hmem hid =>
        Bool.eq_false_iff.mpr fun hopen => hopens (opensPayment_eq_true.mpr
          ⟨id, row, hmem, hid, hopen⟩)
      refine ⟨heffect.attached ha fun id row hmem hid => ?_, heffect.oneOpen_of_none ho hnew⟩
      rcases heffect.inserted hmem with ⟨-, hopen⟩ | hnone
      · rw [hnew id row hmem hid] at hopen
        cases hopen
      · rw [hid, horder₁] at hnone
        cases hnone

end Runs

/-- In every run in which no payment of the order is opened between a request's look for one and
its commit, the order never has two open payments. Two `start`s need no such condition. -/
theorem reaches_oneOpen {xs : List (Action sales)}
    (horder : s₀.orders.lookup orderId = some order) (hattached : Attached orderId order s₀)
    (hone : OneOpen orderId s₀)
    (hrun : (Config.start s₀ (rs.map PaymentRequest.program)).run (.free sales) xs = some c)
    (hsince : NoneOpenedSince orderId s₀ rs xs) : ∀ s ∈ c.history s₀, OneOpen orderId s := by
  intro s hs
  have hc : moment (paymentMachine rs).step (paymentStart s₀ rs) xs xs.length = some c :=
    Config.moment_length.trans hrun
  obtain ⟨k, y, hk, hy, rfl⟩ := (paymentMachine rs).mem_history hc hs rfl rfl
  exact (oneOpen_of_moment horder hattached hone hsince hk hy).2

/-! ### Two clerks at once -/

namespace PaymentSample

theorem openShop_oneOpen : OneOpen "order" openShop := by
  intro id id' row row' hrow
  cases hrow

theorem openShop_attached : Attached "order" order openShop := by
  intro id row hrow
  cases hrow

/-- Two payments of the order are created. -/
def createTwice : List PaymentRequest :=
  [.create {} "shop" "clerk" ⟨"payment-1", "c1", "t1"⟩ { orderId := "order" },
    .create {} "shop" "clerk" ⟨"payment-2", "c2", "t2"⟩ { orderId := "order" }]

/-- Besides, the shopper presses Pay twice. -/
def createAndPay : List PaymentRequest :=
  createTwice ++ [.start "shop" "order" "payment-3" none, .start "shop" "order" "payment-4" none]

/-- The second clerk finds the payment of the first. The shopper's first request cancels it and
opens its own, while the second one waits for the order. -/
def oneByOne : List (Action sales) :=
  List.replicate 6 (.advance 0) ++ List.replicate 3 (.advance 1) ++
    List.replicate 4 (.advance 2) ++ [.advance 3] ++ List.replicate 2 (.advance 2) ++
    [.reply 2 (.orderCreated "order_2")] ++ List.replicate 3 (.advance 2) ++
    List.replicate 5 (.advance 3)

/-- Both look for an open payment before either of them has opened one. -/
def bothLookFirst : List (Action sales) :=
  List.replicate 2 (.advance 0) ++ List.replicate 2 (.advance 1) ++
    List.replicate 4 (.advance 0) ++ List.replicate 4 (.advance 1)

/-- Whether the two payments are open. -/
def bothOpen (s : Db) : Bool × Bool :=
  ((s.payments.lookup "payment-1").any fun row => row.orderId = "order" ∧ row.status.isOpen,
    (s.payments.lookup "payment-2").any fun row => row.orderId = "order" ∧ row.status.isOpen)

end PaymentSample

open PaymentSample in
/-- One payment is open in the end, and never more. -/
theorem reaches_oneOpen_sample :
    ∃ c : Config sales Unit,
      (Config.start openShop (createAndPay.map PaymentRequest.program)).run (.free sales) oneByOne =
        some c ∧ c.Quiescent ∧
      ["payment-1", "payment-2", "payment-3", "payment-4"].map (fun id =>
        (c.committed.payments.lookup id).map (·.status)) =
          [some .cancelled, none, some .pending, none] ∧
      ∀ s ∈ c.history openShop, OneOpen "order" s := by
  have hrun : ((Config.start openShop (createAndPay.map PaymentRequest.program)).run (.free sales)
      oneByOne).map (fun c => (decide c.Quiescent,
        ["payment-1", "payment-2", "payment-3", "payment-4"].map fun id =>
          (c.committed.payments.lookup id).map (·.status))) =
      some (true, [some .cancelled, none, some .pending, none]) := by decide +kernel
  obtain ⟨c, hc, hend⟩ := Option.map_eq_some_iff.mp hrun
  obtain ⟨hquiescent, hstatuses⟩ := Prod.mk.inj hend
  have hsince : NoneOpenedSince "order" openShop createAndPay oneByOne := by decide +kernel
  exact ⟨c, hc, of_decide_eq_true hquiescent, hstatuses,
    reaches_oneOpen rfl openShop_attached openShop_oneOpen hc hsince⟩

open PaymentSample in
/-- Both requests go through, and the order has two open payments. -/
theorem twoOpen_not_oneOpen :
    OneOpen "order" openShop ∧ ∃ c : Config sales Unit,
      Reaches (.free sales) (.start openShop (createTwice.map PaymentRequest.program)) c ∧
        ¬ OneOpen "order" c.committed := by
  have hrun : (play (.free sales) openShop createTwice bothLookFirst).map
      (fun c => bothOpen c.committed) = some (true, true) := by decide +kernel
  obtain ⟨c, hc, hend⟩ := Option.map_eq_some_iff.mp hrun
  obtain ⟨hfirst, hsecond⟩ := Prod.mk.inj hend
  refine ⟨openShop_oneOpen, c, reaches_play hc, fun hone => ?_⟩
  obtain ⟨row, hrow, h⟩ := (Option.any_eq_true _ _).mp hfirst
  obtain ⟨row', hrow', h'⟩ := (Option.any_eq_true _ _).mp hsecond
  obtain ⟨horder, hopen⟩ := of_decide_eq_true h
  obtain ⟨horder', hopen'⟩ := of_decide_eq_true h'
  exact absurd (hone _ _ _ _ hrow hrow' horder horder' hopen hopen') (by decide)

end PulseOps
