import PulseOps.Payments.Effects

/-!
# What an open payment transaction knows

Between its statements a transaction may only count on what the others cannot change: the
rows it holds locks on, and what stays of a payment or an order once it exists. `Fact`
bundles such knowledge with the proof that it lasts, and `At` is the assertion the triples
of the payment requests are about: a fact, and the exact edits of the books made so far.

## Main definitions

* `paymentContract` — what the locks on payments and orders keep still.
* `Fact` — knowledge that lasts.
* `At` — a fact, and the edits made so far.
* `Settled` — the transaction had one of the effects its request can have.

## Main results

* `triple_read`, `triple_aside`, `triple_core` — the rules for statements.
* `Settled.guarantee` — what a settled transaction owes the others.
-/

set_option autoImplicit false

open ReadCommitted Program Contract

namespace PulseOps

variable {s s' : Db} {t : Transaction sales} {es : List Edit} {id : Uuid}

/-! ### The contract -/

/-- A lock on a payment keeps its row and its refunds, and a lock on an order its row. -/
def paymentContract : Contract sales where
  inv _ := True
  evolves := Evolves
  agree key s s' :=
    (∀ id, key = .payment id →
      s.payments.lookup id = s'.payments.lookup id ∧ refundsOf id s = refundsOf id s') ∧
    ∀ id, key = .order id → s.orders.lookup id = s'.orders.lookup id
  evolves_refl := .refl
  evolves_trans := .trans
  agree_refl _ _ := ⟨fun _ _ => ⟨rfl, rfl⟩, fun _ _ => rfl⟩
  agree_trans h h' :=
    ⟨fun id hid => ⟨(h.1 id hid).1.trans (h'.1 id hid).1, (h.1 id hid).2.trans (h'.1 id hid).2⟩,
      fun id hid => (h.2 id hid).trans (h'.2 id hid)⟩

theorem lookup_payments_of_rely (hr : paymentContract.Rely t s s')
    (hheld : Key.payment id ∈ t.held) : s.payments.lookup id = s'.payments.lookup id :=
  ((hr.agree _ hheld).1 id rfl).1

theorem refundsOf_of_rely (hr : paymentContract.Rely t s s')
    (hheld : Key.payment id ∈ t.held) : refundsOf id s = refundsOf id s' :=
  ((hr.agree _ hheld).1 id rfl).2

theorem lookup_orders_of_rely (hr : paymentContract.Rely t s s')
    (hheld : Key.order id ∈ t.held) : s.orders.lookup id = s'.orders.lookup id :=
  (hr.agree _ hheld).2 id rfl

/-! ### Knowledge that lasts -/

/-- Something a transaction goes on knowing while it locks and writes, whatever the others
do. -/
structure Fact where
  holds : Transaction sales → Db → Prop
  lock : ∀ {t s} (k : Key), holds t s → holds (t.lock k) s
  write : ∀ {t s} (e : Edit), holds t s → holds (t.write e) s
  stable : ∀ {t s s'}, holds t s → paymentContract.Rely t s s' → holds t s'

namespace Fact

/-- Nothing in particular. -/
def none : Fact where
  holds _ _ := True
  lock _ h := h
  write _ h := h
  stable h _ := h

/-- Something that does not depend on the state. -/
def pure (C : Prop) : Fact where
  holds _ _ := C
  lock _ h := h
  write _ h := h
  stable h _ := h

def and (F G : Fact) : Fact where
  holds t s := F.holds t s ∧ G.holds t s
  lock k h := ⟨F.lock k h.1, G.lock k h.2⟩
  write e h := ⟨F.write e h.1, G.write e h.2⟩
  stable h hr := ⟨F.stable h.1 hr, G.stable h.2 hr⟩

/-- A fact about every element. -/
def all {α : Type} (F : α → Fact) (xs : List α) : Fact where
  holds t s := ∀ x ∈ xs, (F x).holds t s
  lock k h x hx := (F x).lock k (h x hx)
  write e h x hx := (F x).write e (h x hx)
  stable h hr x hx := (F x).stable (h x hx) hr

/-- A lock the transaction holds. -/
def locked (k : Key) : Fact where
  holds t _ := k ∈ t.held
  lock _ h := List.mem_cons_of_mem _ h
  write _ h := List.mem_append_right _ h
  stable h _ := h

/-- There is such a payment, in some state. -/
def known (id : Uuid) (row : Payment) : Fact where
  holds _ s := ∃ row', s.payments.lookup id = some row' ∧ row.Same row'
  lock _ h := h
  write _ h := h
  stable := by
    rintro t s s' ⟨row', hrow', hsame⟩ hr
    obtain ⟨row'', hrow'', hsame'⟩ := hr.evolves.payment id row' hrow'
    exact ⟨row'', hrow'', hsame.trans hsame'⟩

/-- The row of a payment, under its lock; or that there is none. -/
def payment (id : Uuid) (row : Option Payment) : Fact where
  holds t s := Key.payment id ∈ t.held ∧ s.payments.lookup id = row
  lock _ h := ⟨List.mem_cons_of_mem _ h.1, h.2⟩
  write _ h := ⟨List.mem_append_right _ h.1, h.2⟩
  stable h hr := ⟨h.1, (lookup_payments_of_rely hr h.1).symm.trans h.2⟩

/-- What was refunded of a payment, under its lock. -/
def refunded (id tenantId : Uuid) (amount : Cents) : Fact where
  holds t s := Key.payment id ∈ t.held ∧ refundedCents id tenantId s = amount
  lock _ h := ⟨List.mem_cons_of_mem _ h.1, h.2⟩
  write _ h := ⟨List.mem_append_right _ h.1, h.2⟩
  stable h hr := ⟨h.1, (refundedCents_congr _ (refundsOf_of_rely hr h.1)).symm.trans h.2⟩

/-- The row of an order. -/
def order (id : Uuid) (row : Order) : Fact where
  holds _ s := s.orders.lookup id = some row
  lock _ h := h
  write _ h := h
  stable h hr := hr.evolves.order _ _ h

/-- No order has this id yet, and none will. -/
def freshOrder (id : Uuid) : Fact where
  holds t s := Key.order id ∈ t.held ∧ s.orders.lookup id = Option.none
  lock _ h := ⟨List.mem_cons_of_mem _ h.1, h.2⟩
  write _ h := ⟨List.mem_append_right _ h.1, h.2⟩
  stable h hr := ⟨h.1, (lookup_orders_of_rely hr h.1).symm.trans h.2⟩

/-- There is such a transaction on the books. -/
def recorded (C : PaymentTransaction → Prop) : Fact where
  holds _ s := ∃ x ∈ s.paymentTransactions, C x
  lock _ h := h
  write _ h := h
  stable := by
    rintro t s s' ⟨x, hx, hC⟩ hr
    exact ⟨x, hr.evolves.transaction x hx, hC⟩

/-- An edit the transaction has made. -/
def wrote (e : Edit) : Fact where
  holds t _ := e ∈ t.edits
  lock _ h := h
  write _ h := List.mem_append_left _ h
  stable h _ := h

/-- What was read, when there was something to read. -/
def ofOption {α : Type} (F : α → Fact) : Option α → Fact
  | some a => F a
  | Option.none => none

theorem ofOption_holds {α : Type} {F : α → Fact} {x : Option α} {t : Transaction sales} {s : Db}
    (h : ∀ a, x = some a → (F a).holds t s) : (ofOption F x).holds t s := by
  cases x with
  | none => trivial
  | some a => exact h a rfl

/-- The fact does not depend on what was asked of the providers. -/
def Deaf (F : Fact) : Prop := ∀ t s q r, F.holds t s → F.holds (t.reply q r) s

/-- The calls made so far. -/
def calls (cs : List (Call × Reply)) : Fact where
  holds t _ := t.calls = cs
  lock _ h := h
  write _ h := h
  stable h _ := h

end Fact

/-! ### Assertions -/

/-- Every edit is covered by a lock. -/
def Covered (t : Transaction sales) : Prop := ∀ e ∈ t.edits, ∀ k ∈ e.footprint, k ∈ t.held

theorem Covered.lock (h : Covered t) (k : Key) : Covered (t.lock k) :=
  fun e he k' hk' => List.mem_cons_of_mem _ (h e he k' hk')

theorem Covered.write (h : Covered t) (e : Edit) : Covered (t.write e) := by
  intro e' he' k hk
  rcases List.mem_append.mp he' with he' | he'
  · exact List.mem_append_right _ (h e' he' k hk)
  · obtain rfl := List.mem_singleton.mp he'
    exact List.mem_append_left _ hk

/-- The transaction knows `F` and has made the edits `es` of the books. -/
structure At (F : Fact) (es : List Edit) (t : Transaction sales) (s : Db) : Prop where
  core : coreEdits t.edits = es
  covered : Covered t
  fact : F.holds t s

variable {F G : Fact} {R : Discipline sales} {α β : Type}
  {Q : β → Transaction sales → Db → Prop}

theorem At.stable : paymentContract.Stable (At F es) :=
  fun _ _ _ _ h hr => ⟨h.core, h.covered, F.stable h.fact hr⟩

theorem At.mono (h : At F es t s) (hFG : F.holds t s → G.holds t s) : At G es t s :=
  ⟨h.core, h.covered, hFG h.fact⟩

/-- What a statement sees of the books. -/
theorem At.books_view (h : At F es t s) : (t.view s).books = (sales.replay es s).books := by
  rw [← h.core]
  exact books_replay rfl

theorem At.aside {e : Edit} (h : At F es t s) (he : e.isCore = false) :
    At F es (t.write e) s where
  core := by
    rw [Transaction.edits_write, coreEdits_append, h.core]
    simp [coreEdits, he]
  covered := h.covered.write e
  fact := F.write e h.fact

theorem At.edit {e : Edit} (h : At F es t s) (he : e.isCore = true) :
    At F (es ++ [e]) (t.write e) s where
  core := by
    rw [Transaction.edits_write, coreEdits_append, h.core]
    simp [coreEdits, he]
  covered := h.covered.write e
  fact := F.write e h.fact

/-! ### Rules -/

theorem triple_readsOnly_at {p : Sql α} (hp : p.ReadsOnly) :
    paymentContract.Triple R (At F es) p fun _ => At F es :=
  Triple.readsOnly hp At.stable

/-- A read, and what it tells about the books. -/
theorem triple_read {G : α → Fact} {q : Db → α} {f : α → Sql β}
    (hread : ∀ t s v, F.holds t s → v.books = (sales.replay es s).books → (G (q v)).holds t s)
    (hf : ∀ a, paymentContract.Triple R (At (G a) es) (f a) Q) :
    paymentContract.Triple R (At F es) (query q >>= f) Q :=
  Triple.query_bind (A := fun a => At (G a) es) At.stable
    (fun t s _ h => h.mono fun hF => hread t s _ hF h.books_view) hf

/-- A read that tells nothing. -/
theorem triple_read_any {q : Db → α} {f : α → Sql β}
    (hf : ∀ a, paymentContract.Triple R (At F es) (f a) Q) :
    paymentContract.Triple R (At F es) (query q >>= f) Q :=
  triple_read (G := fun _ => F) (fun _ _ _ hF _ => hF) hf

theorem triple_lock {k : Key} {f : Unit → Sql β}
    (hf : paymentContract.Triple R (At F es) (f ()) Q) :
    paymentContract.Triple R (At F es) (lockRow k >>= f) Q :=
  Triple.lockRow_bind At.stable (fun _ _ h => ⟨h.core, h.covered.lock k, F.lock k h.fact⟩) hf

/-- The lock on a payment that is known. -/
theorem triple_lockPayment {row : Payment} {f : Unit → Sql β}
    (hF : ∀ t s, F.holds t s → (Fact.known id row).holds t s)
    (hf : paymentContract.Triple R (At (F.and (.locked (.payment id))) []) (f ()) Q) :
    paymentContract.Triple R (At F []) (lockRow (.payment id) >>= f) Q := by
  refine Triple.lockRow_held_bind At.stable (fun t s _ h => ?_) (fun t s _ h => ?_) hf
  · obtain ⟨row', hrow', -⟩ := hF t s h.fact
    have hview : (t.view s).payments = s.payments := payments_of_books h.books_view
    change ((t.view s).payments.lookup id).isSome = true
    rw [hview, hrow']
    rfl
  · exact ⟨h.core, h.covered.lock _, F.lock _ h.fact, List.mem_cons_self⟩

/-- A statement that leaves the books alone. -/
theorem triple_aside {edit : Db → Except Failure Edit}
    (h : ∀ s e, edit s = .ok e → e.isCore = false) :
    paymentContract.Triple R (At F es) (perform edit) fun _ => At F es :=
  Triple.perform At.stable At.stable fun _ _ e _ ht he _ => ht.aside (h _ e he)

/-- A program that leaves the books alone, whatever else it writes, locks or asks for. -/
theorem triple_emits {p : Sql α} (hF : F.Deaf) (hp : p.Emits fun e => e.isCore = false) :
    paymentContract.Triple R (At F es) p fun _ => At F es :=
  fun _ _ _ h => wp_of_emits (At F es) hp
    (fun _ _ _ h hr => ⟨h.core, h.covered, F.stable h.fact hr⟩)
    (fun _ _ k h => ⟨h.core, h.covered.lock k, F.lock k h.fact⟩)
    (fun _ _ _ h he _ => h.aside he)
    (fun t s q r h => ⟨h.core, h.covered, hF t s q r h.fact⟩) (fun _ _ _ h => h) h

/-- A statement that edits the books: the edit `e`, and what is known after it. -/
theorem triple_core {e : Edit} {edit : Db → Except Failure Edit} (he : e.isCore = true)
    (h : ∀ t s v, F.holds t s → v.books = (sales.replay es s).books →
      ∀ e', edit v = .ok e' → e' = e ∧ G.holds (t.write e) s) :
    paymentContract.Triple R (At F es) (perform edit) fun _ => At G (es ++ [e]) := by
  refine Triple.perform At.stable At.stable fun t s e' _ ht he' _ => ?_
  obtain ⟨rfl, hG⟩ := h t s _ ht.fact ht.books_view e' he'
  exact (ht.edit he).mono fun _ => hG

theorem triple_send {G : Reply → Fact} {q : Call} {f : Reply → Sql β}
    (h : ∀ t s r, F.holds t s → (G r).holds (t.reply q r) s)
    (hf : ∀ r, paymentContract.Triple R (At (G r) es) (f r) Q) :
    paymentContract.Triple R (At F es) (send q >>= f) Q :=
  Triple.send_bind (A := fun r => At (G r) es) At.stable
    (fun t s r ht => ⟨ht.core, ht.covered, h t s r ht.fact⟩) hf

/-- A call, noted behind those made so far. -/
theorem triple_ask {q : Call} {cs : List (Call × Reply)} {f : Reply → Sql β} (hF : F.Deaf)
    (hf : ∀ r, paymentContract.Triple R (At (F.and (.calls (cs ++ [(q, r)]))) es) (f r) Q) :
    paymentContract.Triple R (At (F.and (.calls cs)) es) (send q >>= f) Q := by
  refine triple_send (G := fun r => F.and (.calls (cs ++ [(q, r)])))
    (fun t s r h => ⟨hF t s q r h.1, ?_⟩) hf
  have hcalls : t.calls = cs := h.2
  exact congrArg (· ++ [(q, r)]) hcalls

theorem triple_weaken {p : Sql β} (hFG : ∀ t s, F.holds t s → G.holds t s)
    (hp : paymentContract.Triple R (At G es) p Q) :
    paymentContract.Triple R (At F es) p Q :=
  hp.pre fun t s _ h => h.mono (hFG t s)

/-! ### Settled transactions -/

/-- The transaction had one of the effects its request can have. -/
structure Settled (kinds : List EffectKind) (t : Transaction sales) (s : Db) : Prop where
  covered : Covered t
  effect : ∃ k ∈ kinds, PaymentEffect s t.edits k

variable {kinds : List EffectKind}

theorem At.settled {k : EffectKind} (h : At F es t s) (hk : k ∈ kinds)
    (heffect : PaymentEffect s t.edits k) : Settled kinds t s := ⟨h.covered, k, hk, heffect⟩

/-- An edit of the books by a covered transaction is under its locks. -/
theorem Covered.mem_held {e : Edit} {k : Key} (h : Covered t) (he : e ∈ coreEdits t.edits)
    (hk : k ∈ e.footprint) : k ∈ t.held := h e (mem_of_mem_coreEdits he) k hk

/-- The others cannot change what an effect of a covered transaction is based on. -/
theorem PaymentEffect.of_rely {k : EffectKind} (h : PaymentEffect s t.edits k)
    (hc : Covered t) (hr : paymentContract.Rely t s s') : PaymentEffect s' t.edits k := by
  have hlookup {id : Uuid} {row : Payment} (hmem : .paymentUpdate id row ∈ coreEdits t.edits) :
      s.payments.lookup id = s'.payments.lookup id :=
    lookup_payments_of_rely hr (hc.mem_held hmem (by simp [Edit.footprint]))
  have hinsert {id : Uuid} {row : Payment} (hmem : .paymentInsert id row ∈ coreEdits t.edits) :
      s.payments.lookup id = s'.payments.lookup id :=
    lookup_payments_of_rely hr (hc.mem_held hmem (by simp [Edit.footprint]))
  cases h with
  | note hcore => exact .note hcore
  | late hcore htype hnoted => exact .late hcore htype hnoted
  | confirm hcore hrow hopen hstatus hcharge hvia =>
    rw [hlookup (hcore ▸ List.mem_cons_self)] at hrow
    exact .confirm hcore hrow hopen hstatus hcharge hvia
  | event hcore hrow hopen hstatus hlength hcharge hevent hpayload hskip =>
    rw [hlookup (hcore ▸ List.mem_cons_self)] at hrow
    refine .event hcore hrow hopen hstatus hlength hcharge hevent hpayload fun hnone => ?_
    obtain ⟨x, hx, hdetails⟩ := hskip hnone
    -- nobody deletes a transaction row
    exact ⟨x, hr.evolves.transaction x hx, hdetails⟩
  | capture hcore hrow hopen hcharge hid =>
    rw [hlookup (hcore ▸ List.mem_cons_self)] at hrow
    exact .capture hcore hrow hopen hcharge hid
  | refundEvent hcore hrow hstatus htype hevent heventType =>
    rw [hlookup (hcore ▸ List.mem_cons_self)] at hrow
    exact .refundEvent hcore hrow hstatus htype hevent heventType
  -- what was refunded before has been summed up under the lock of the payment
  | @refund id row refund x hcore hrow hstatus hpos hle hid htenant hcompleted htype =>
    have hmem : .paymentUpdate id { row with
        status := PaymentService.refundStatus row.amount
          (refundedCents id row.tenantId s + refund.amount) } ∈ coreEdits t.edits := by simp [hcore]
    have hheld : Key.payment id ∈ t.held := hc.mem_held hmem (by simp [Edit.footprint])
    have hcents := refundedCents_congr row.tenantId (refundsOf_of_rely hr hheld)
    rw [hlookup hmem] at hrow
    rw [hcents] at hcore hle
    exact .refund hcore hrow hstatus hpos hle hid htenant hcompleted htype
  | @opened stale p order hcore hstale hfresh horder hamount hpos hstatus =>
    have hmem : .paymentInsert p.id p.row ∈ coreEdits t.edits := by
      simp [hcore, NewPayment.edits]
    rw [hinsert hmem] at hfresh
    refine .opened hcore (fun q hq => ⟨?_, (hstale q hq).2⟩) hfresh
      (hr.evolves.order _ _ horder) hamount hpos hstatus
    have hmem : .paymentUpdate q.1 { q.2 with status := .cancelled } ∈ coreEdits t.edits := by
      rw [hcore, Option.mem_def.mp hq]
      exact List.mem_cons_self
    rw [← hlookup hmem]
    exact (hstale q hq).1
  | @sale orderId order paid hcore hfresh hnew hids hpaid htotal =>
    have hheld : Key.order orderId ∈ t.held :=
      hc.mem_held (hcore ▸ List.mem_cons_self) (by simp [Edit.footprint])
    rw [lookup_orders_of_rely hr hheld] at hfresh
    refine .sale hcore hfresh (fun p hp => ?_) hids hpaid htotal
    have hmem : .paymentInsert p.id p.row ∈ coreEdits t.edits := by
      rw [hcore]
      refine List.mem_cons_of_mem _ (List.mem_append_left _ (List.mem_flatMap.mpr ⟨p, hp, ?_⟩))
      exact List.mem_cons_self
    rw [← hinsert hmem]
    exact hnew p hp

theorem Settled.stable : paymentContract.Stable (Settled kinds) := by
  rintro t s s' - ⟨hc, k, hk, heffect⟩ hr
  exact ⟨hc, k, hk, heffect.of_rely hc hr⟩

/-- What a settled transaction owes the others. -/
theorem Settled.guarantee (h : Settled kinds t s) : paymentContract.Guarantee R t s := by
  obtain ⟨hc, k, hk, heffect⟩ := h
  refine ⟨trivial, heffect.evolves, fun key hkey _ => ⟨?_, ?_⟩⟩
  · rintro id rfl
    have hfoot : ∀ e ∈ t.edits, Key.payment id ∉ e.footprint :=
      fun e he hmem => hkey (hc e he _ hmem)
    exact ⟨(lookup_payments_frame hfoot s).symm, (heffect.refundsOf_frame hfoot).symm⟩
  · rintro id rfl
    exact (lookup_orders_frame (fun e he hmem => hkey (hc e he _ hmem)) s).symm

end PulseOps
