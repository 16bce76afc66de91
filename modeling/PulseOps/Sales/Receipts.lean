import PulseOps.Model.CashRegister
import PulseOps.Model.SaleResult
import PulseOps.Stock.Requests

/-!
# The result of a sale that was tried again

The transaction of a counter sale pushes each payment it has written to a list of the caller.
When the database aborts the transaction, the rows are gone and the entries stay, and the next
attempt pushes its own behind them. The result of the sale, its events and its change are worked
out from the whole list.

An attempt pushes nothing exactly as long as it has not written its first payment completely:
the payment and its charge, and the drawer's movement if it is cash. When this holds of every
aborted attempt, the list is what the committed attempt stored.

## Main definitions

* `SaleRun` — the attempts of a sale, aborted and committed.
* `SaleRun.Reported` — the sale reports what was stored.
* `firstPaymentWritten` — whether an attempt has written its first payment.

## Main results

* `erase_attempt` — without its entries, an attempt is the transaction of the order.
* `partway_attempt` — what an attempt has written and pushed, wherever it stands.
* `changeOf_created` — the change is read back from the rows as it was given.
* `sale_reported_iff` — when a sale reports what was stored.
-/

set_option autoImplicit false

open ReadCommitted Program

namespace PulseOps

variable {env : Environment} {tenantId userId orderId : Uuid} {d : OrderService.OrderDraft}
  {session : Option Uuid} {order : Order} {es : List Edit}
  {cs : List (Call ⊕ CreatedPayment)}

/-! ### The attempt and the transaction of the order -/

namespace OrderService

theorem place_eq (inTx : Uuid → Order → Sql Unit) :
    place env tenantId userId orderId d inTx =
      placeRows env tenantId userId orderId d >>= fun order => inTx orderId order >>= fun _ =>
        query fun s => s.orders.lookup orderId := by
  simp only [place, placeRows, bind_assoc, pure_eq, ret_bind]

end OrderService

namespace PosService

variable {x : SalePayment × Option ConfirmedUpi}
  {payments : List (SalePayment × Option ConfirmedUpi)} {ids : AttemptIds}

/-- Without the entries in `created`, an attempt is the transaction of the order with the
callback of the sale. -/
theorem erase_attempt :
    (attempt env tenantId userId d session payments ids).erase =
      OrderService.place env tenantId userId ids.orderId d
        (settle tenantId userId session (ids.drawn payments)) := by
  rw [OrderService.place_eq]
  have hpush : ∀ order x, (pushPayment tenantId userId ids.orderId session order x).erase =
      takePayment tenantId userId ids.orderId session order x := by
    intro order x
    rw [pushPayment, erase_bind, erase_lift]
    exact bind_pure_unit
  simp only [attempt, settlePushing, settle, erase_bind, erase_lift, erase_forM, hpush, bind_assoc]

end PosService

/-! ### Rows of payments -/

/-- The payment that an edit stores. -/
def insertedPayment : Edit → Option CreatedPayment
  | .paymentInsert id row => some ⟨id, row⟩
  | _ => none

def Edit.isPaymentTransaction : Edit → Bool
  | .paymentTransactionInsert _ => true
  | _ => false

def Edit.isCashMovement : Edit → Bool
  | .cashMovementInsert _ => true
  | _ => false

/-- The edit writes no row of a payment. -/
structure Edit.Unpaid (e : Edit) : Prop where
  payment : insertedPayment e = none
  charge : e.isPaymentTransaction = false
  movement : e.isCashMovement = false

theorem Edit.IsStock.unpaid {e : Edit} (h : e.IsStock) : e.Unpaid := by
  cases e with
  | nothing => exact ⟨rfl, rfl, rfl⟩
  | inventoryInsert => exact ⟨rfl, rfl, rfl⟩
  | inventoryUpdate => exact ⟨rfl, rfl, rfl⟩
  | warehouseInventoryInsert => exact ⟨rfl, rfl, rfl⟩
  | warehouseInventoryUpsert => exact ⟨rfl, rfl, rfl⟩
  | inventoryMovementInsert => exact ⟨rfl, rfl, rfl⟩
  | _ => exact absurd h id

theorem filterMap_unpaid (h : ∀ e ∈ es, e.Unpaid) : es.filterMap insertedPayment = [] :=
  List.filterMap_eq_nil_iff.mpr fun e he => (h e he).payment

theorem OrderService.placeRows_emits :
    (placeRows env tenantId userId orderId d).Emits Edit.Unpaid := by
  refine (Emits.forM fun it _ => emits_lockRow _).bind fun _ => ?_
  refine (Emits.forM fun it _ => (reserveItem_emits tenantId it).mono fun e he =>
    he.unpaid).bind fun _ => ?_
  refine Emits.bind ?_ fun n => ?_
  · intro s e he
    obtain rfl := Except.ok.inj he
    exact ⟨⟨rfl, rfl, rfl⟩, trivial⟩
  refine (emits_perform fun s e he => ?_).bind fun _ => ?_
  · obtain ⟨-, rfl⟩ := Statement.insertOrder_eq_ok he
    exact ⟨rfl, rfl, rfl⟩
  refine (Emits.forM fun it _ => emits_perform fun s e he => ?_).bind fun _ => ?_
  · obtain rfl := Except.ok.inj he
    exact ⟨rfl, rfl, rfl⟩
  refine (Emits.forM fun it _ => (recordReservation_emits tenantId userId orderId it).mono
    fun e he => he.unpaid).bind fun _ => ?_
  refine (emits_perform fun s e he => ?_).bind fun _ => trivial
  obtain rfl := Except.ok.inj he
  exact ⟨rfl, rfl, rfl⟩

/-! ### One payment -/

namespace PosService

variable {x : SalePayment × Option ConfirmedUpi}
  {payments : List (SalePayment × Option ConfirmedUpi)} {ids : AttemptIds} {β : Type}

/-- Whether the last row of a payment is among the edits: the movement of the drawer for cash,
the charge otherwise. -/
def lastRowWritten (x : SalePayment × Option ConfirmedUpi) (es : List Edit) : Bool :=
  if x.1.method = .cash then es.any Edit.isCashMovement else es.any Edit.isPaymentTransaction

/-- Whether an attempt that has written `es` has written its first payment completely. -/
def firstPaymentWritten (payments : List (SalePayment × Option ConfirmedUpi))
    (es : List Edit) : Bool :=
  payments.head?.any fun x => lastRowWritten x es

theorem lastRowWritten_append (es es' : List Edit) :
    lastRowWritten x (es ++ es') = (lastRowWritten x es || lastRowWritten x es') := by
  unfold lastRowWritten
  split <;> exact List.any_append

theorem lastRowWritten_unpaid (h : ∀ e ∈ es, e.Unpaid) : lastRowWritten x es = false := by
  unfold lastRowWritten
  split
  · exact List.any_eq_false.mpr fun e he => by simp [(h e he).movement]
  · exact List.any_eq_false.mpr fun e he => by simp [(h e he).charge]

theorem firstPaymentWritten_append (es es' : List Edit) :
    firstPaymentWritten payments (es ++ es') =
      (firstPaymentWritten payments es || firstPaymentWritten payments es') := by
  cases payments with
  | nil => rfl
  | cons x payments => exact lastRowWritten_append es es'

theorem firstPaymentWritten_unpaid (h : ∀ e ∈ es, e.Unpaid) :
    firstPaymentWritten payments es = false := by
  cases payments with
  | nil => rfl
  | cons x payments => exact lastRowWritten_unpaid h

/-- A statement of a transaction, which is made or is next. -/
theorem partway_perform_bind {edit : Db → Except Failure Edit} {f : Unit → Sql β}
    {cs : List Call} {q : Sql β} (h : Partway (perform edit >>= f) es cs q) :
    (es = [] ∧ q.hasEnded = false) ∨
      ∃ s e es', edit s = .ok e ∧ es = e :: es' ∧ Partway (f ()) es' cs q := by
  cases h with
  | here => exact .inl ⟨rfl, rfl⟩
  | @write _ _ es' _ _ e s he h => exact .inr ⟨s, e, es', he, rfl, h⟩

/-- A payment is written completely when its program has ended, and not before. -/
theorem partway_takePayment {cs : List Call} {q : Sql Unit}
    (h : Partway (takePayment tenantId userId orderId session order x) es cs q) :
    (q.hasEnded = false ∧ lastRowWritten x es = false) ∨
      (q.hasEnded = true ∧ lastRowWritten x es = true ∧
        es.filterMap insertedPayment = [createdPayment tenantId orderId order x]) := by
  have hnone : lastRowWritten x [] = false := lastRowWritten_unpaid fun e he => nomatch he
  rcases h.bind_cases with ⟨q', hp, hq', rfl⟩ | ⟨_, es₀, _, es, cs, hp, hrest, rfl, rfl⟩
  · -- the cash does not suffice
    have hrequired := hp.emits (P := fun _ => False) (ReadsOnly.require _ _).emits
    obtain rfl : es = [] := List.eq_nil_iff_forall_not_mem.mpr hrequired
    exact .inl ⟨hasEnded_bind hq', hnone⟩
  have hrequired := hp.emits (P := fun _ => False) (ReadsOnly.require _ _).emits
  obtain rfl : es₀ = [] := List.eq_nil_iff_forall_not_mem.mpr hrequired
  rcases partway_perform_bind hrest with ⟨rfl, hq⟩ | ⟨s, e, es', he, rfl, hcharge⟩
  · -- before the payment is inserted
    exact .inl ⟨hq, hnone⟩
  obtain ⟨-, -, rfl⟩ := Statement.insertPayment_eq_ok he
  rcases partway_perform_bind hcharge with ⟨rfl, hq⟩ | ⟨s', e, es'', he, rfl, hcash⟩
  · -- before its transaction is inserted
    refine .inl ⟨hq, ?_⟩
    unfold lastRowWritten
    split <;> rfl
  obtain rfl := Statement.insertPaymentTransaction_eq_ok he
  split at hcash
  next hmethod =>
    rcases hcash.bind_cases with
      ⟨q', hp, hq', rfl⟩ | ⟨sessionId, es₁, _, es₂, _, hp, hmovement, rfl, rfl⟩
    · -- there is no open shift
      have hraised := hp.emits (P := fun _ => False) (ReadsOnly.orRaise _ _).emits
      obtain rfl : es'' = [] := List.eq_nil_iff_forall_not_mem.mpr hraised
      refine .inl ⟨hasEnded_bind hq', ?_⟩
      rw [lastRowWritten, if_pos hmethod]
      rfl
    have hraised := hp.emits (P := fun _ => False) (ReadsOnly.orRaise _ _).emits
    obtain rfl : es₁ = [] := List.eq_nil_iff_forall_not_mem.mpr hraised
    -- the movement of the cash is the last row
    cases hmovement with
    | here =>
      refine .inl ⟨rfl, ?_⟩
      rw [lastRowWritten, if_pos hmethod]
      rfl
    | write s he h =>
      obtain ⟨-, rfl⟩ := Statement.insertCashMovement_eq_ok he
      cases h
      refine .inr ⟨rfl, ?_, rfl⟩
      rw [lastRowWritten, if_pos hmethod]
      rfl
  next hmethod =>
    -- a payment that is not in cash ends with its transaction
    cases hcash
    refine .inr ⟨rfl, ?_, rfl⟩
    rw [lastRowWritten, if_neg hmethod]
    rfl

/-- The entry of a payment is pushed when the payment is written completely, and no abort falls
between the two. -/
theorem partway_pushPayment {f : Unit → CreatingSql β} {q : CreatingSql β}
    (h : Partway (pushPayment tenantId userId orderId session order x >>= f) es cs q)
    (hq : q.abortable = true) :
    (q.hasEnded = false ∧ notesOf cs = [] ∧ lastRowWritten x es = false) ∨
      ∃ es₁ cs₁ es₂ cs₂, es = es₁ ++ es₂ ∧ cs = cs₁ ++ cs₂ ∧
        notesOf cs₁ = [createdPayment tenantId orderId order x] ∧
        es₁.filterMap insertedPayment = [createdPayment tenantId orderId order x] ∧
        lastRowWritten x es₁ = true ∧ Partway (f ()) es₂ cs₂ q := by
  rw [pushPayment, bind_assoc] at h
  rcases h.bind_cases with ⟨q', hp, hq', rfl⟩ | ⟨u, es₁, cs₁, es₂, cs₂, hp, hrest, rfl, rfl⟩
  · -- the payment is not yet written
    obtain ⟨hnotes, cs', q'', htake, rfl⟩ := hp.lift
    rcases partway_takePayment htake with ⟨-, hrow⟩ | ⟨hended, -⟩
    · exact .inl ⟨hasEnded_bind hq', hnotes, hrow⟩
    · rw [hasEnded_lift, hended] at hq'
      cases hq'
  · -- it is written; the push follows at once
    obtain ⟨hnotes, cs', q'', htake, hret⟩ := hp.lift
    have hended : q''.hasEnded = true := by
      rw [← (hasEnded_lift q'' : (q''.lift CreatedPayment).hasEnded = _), ← hret]
      rfl
    rcases partway_takePayment htake with ⟨hopen, -⟩ | ⟨-, hrow, hinserted⟩
    · rw [hended] at hopen
      cases hopen
    · cases hrest with
      -- between the two the transaction cannot be aborted
      | here => cases hq
      | @request _ _ _ cs₂ _ r hrest =>
        refine .inr ⟨es₁, cs₁ ++ [.inr (createdPayment tenantId orderId order x)], es₂, cs₂, rfl,
          ?_, ?_, hinserted, hrow, hrest⟩
        · rw [List.append_assoc]
          rfl
        · rw [notesOf_append, hnotes]
          rfl

/-! ### The whole attempt -/

/-- The payments, one after the other. -/
theorem partway_pushPayments {f : PUnit → CreatingSql β} {q : CreatingSql β}
    (h : Partway (forM payments (pushPayment tenantId userId orderId session order) >>= f) es cs q)
    (hq : q.abortable = true) :
    (q.hasEnded = false ∧ (notesOf cs = [] ↔ firstPaymentWritten payments es = false)) ∨
      ∃ es₁ cs₁ es₂ cs₂, es = es₁ ++ es₂ ∧ cs = cs₁ ++ cs₂ ∧
        notesOf cs₁ = payments.map (createdPayment tenantId orderId order) ∧
        es₁.filterMap insertedPayment = payments.map (createdPayment tenantId orderId order) ∧
        firstPaymentWritten payments es₁ = !payments.isEmpty ∧ Partway (f ⟨⟩) es₂ cs₂ q := by
  induction payments generalizing es cs with
  | nil => exact .inr ⟨[], [], es, cs, rfl, rfl, rfl, rfl, rfl, h⟩
  | cons x payments ih =>
    rw [List.forM_cons, bind_assoc] at h
    rcases partway_pushPayment h hq with
      ⟨hopen, hnotes, hrow⟩ | ⟨es₁, cs₁, es₂, cs₂, rfl, rfl, hnotes, hinserted, hrow, hrest⟩
    · exact .inl ⟨hopen, iff_of_true hnotes hrow⟩
    · -- the first payment is written and pushed, wherever the others are
      have hwritten : ∀ es', firstPaymentWritten (x :: payments) (es₁ ++ es') = true := by
        intro es'
        have hfirst : firstPaymentWritten (x :: payments) es₁ = true := hrow
        rw [firstPaymentWritten_append, hfirst, Bool.true_or]
      rcases ih hrest with
        ⟨hopen, -⟩ | ⟨es₃, cs₃, es₄, cs₄, rfl, rfl, hnotes', hinserted', -, hlast⟩
      · refine .inl ⟨hopen, iff_of_false ?_ ?_⟩
        · simp [hnotes]
        · simp [hwritten]
      · refine .inr ⟨es₁ ++ es₃, cs₁ ++ cs₃, es₄, cs₄, ?_, ?_, ?_, ?_, hwritten es₃, hlast⟩
        · rw [List.append_assoc]
        · rw [List.append_assoc]
        · rw [notesOf_append, hnotes, hnotes']
          rfl
        · rw [List.filterMap_append, hinserted, hinserted']
          rfl

/-- A part of the transaction that writes no payment. -/
theorem partway_unpaid_bind {γ : Type} {p : Sql γ} {f : γ → CreatingSql β} {q : CreatingSql β}
    (hp : p.Emits Edit.Unpaid) (h : Partway (p.lift CreatedPayment >>= f) es cs q) :
    (q.hasEnded = false ∧ notesOf cs = [] ∧ ∀ e ∈ es, e.Unpaid) ∨
      ∃ a es₁ cs₁ es₂ cs₂, es = es₁ ++ es₂ ∧ cs = cs₁ ++ cs₂ ∧ notesOf cs₁ = [] ∧
        (∀ e ∈ es₁, e.Unpaid) ∧ Partway (f a) es₂ cs₂ q := by
  rcases h.bind_cases with ⟨q', hfirst, hq', rfl⟩ | ⟨a, es₁, cs₁, es₂, cs₂, hfirst, hrest, rfl, rfl⟩
  · obtain ⟨hnotes, _, _, hpart, -⟩ := hfirst.lift
    exact .inl ⟨hasEnded_bind hq', hnotes, hpart.emits hp⟩
  · obtain ⟨hnotes, _, _, hpart, -⟩ := hfirst.lift
    exact .inr ⟨a, es₁, cs₁, es₂, cs₂, rfl, rfl, hnotes, hpart.emits hp, hrest⟩

/-- What an attempt has pushed and written, wherever the database may abort it: nothing is pushed
before the first payment is written, and at the end there is an entry for each payment. -/
theorem partway_attempt {q : CreatingSql (Option Order)}
    (h : Partway (attempt env tenantId userId d session payments ids) es cs q)
    (hq : q.abortable = true) :
    (notesOf cs = [] ↔ firstPaymentWritten (ids.drawn payments) es = false) ∧
      (q.hasEnded = true → ∃ order,
        notesOf cs = (ids.drawn payments).map (createdPayment tenantId ids.orderId order) ∧
        es.filterMap insertedPayment =
          (ids.drawn payments).map (createdPayment tenantId ids.orderId order)) := by
  simp only [attempt, settlePushing, bind_assoc] at h
  -- the rows of the order
  rcases partway_unpaid_bind OrderService.placeRows_emits h with
    ⟨hopen, hnotes, hunpaid⟩ | ⟨order, es₁, cs₁, es₂, cs₂, rfl, rfl, hnotes₁, hunpaid₁, h₁⟩
  · refine ⟨iff_of_true hnotes (firstPaymentWritten_unpaid hunpaid), fun hended => ?_⟩
    rw [hopen] at hended
    cases hended
  rw [notesOf_append, hnotes₁, List.nil_append, firstPaymentWritten_append,
    firstPaymentWritten_unpaid hunpaid₁, Bool.false_or, List.filterMap_append,
    filterMap_unpaid hunpaid₁, List.nil_append]
  -- the check of the total
  rcases partway_unpaid_bind (ReadsOnly.require _ _).emits h₁ with
    ⟨hopen, hnotes, hunpaid⟩ | ⟨_, es₃, cs₃, es₄, cs₄, rfl, rfl, hnotes₃, hunpaid₃, h₃⟩
  · refine ⟨iff_of_true hnotes (firstPaymentWritten_unpaid hunpaid), fun hended => ?_⟩
    rw [hopen] at hended
    cases hended
  rw [notesOf_append, hnotes₃, List.nil_append, firstPaymentWritten_append,
    firstPaymentWritten_unpaid hunpaid₃, Bool.false_or, List.filterMap_append,
    filterMap_unpaid hunpaid₃, List.nil_append]
  -- the payments
  rcases partway_pushPayments h₃ hq with
    ⟨hopen, hiff⟩ | ⟨es₅, cs₅, es₆, cs₆, rfl, rfl, hnotes, hinserted, hwritten, h₅⟩
  · refine ⟨hiff, fun hended => ?_⟩
    rw [hopen] at hended
    cases hended
  -- the hand-over
  rw [← lift_bind] at h₅
  obtain ⟨hnotes₅, _, _, hpart, -⟩ := h₅.lift
  have hunpaid₅ : ∀ e ∈ es₆, e.Unpaid := by
    refine hpart.emits (Emits.bind ?_ fun _ => (ReadsOnly.query _).emits)
    refine (emits_perform fun s e he => ?_).bind fun _ => emits_perform fun s e he => ?_
    · obtain ⟨order, -, rfl⟩ := Statement.updateOrderStatus_eq_ok.mp he
      exact ⟨rfl, rfl, rfl⟩
    · obtain rfl := Except.ok.inj he
      exact ⟨rfl, rfl, rfl⟩
  rw [notesOf_append, hnotes₅, List.append_nil, hnotes, firstPaymentWritten_append, hwritten,
    firstPaymentWritten_unpaid hunpaid₅, Bool.or_false, List.filterMap_append, hinserted,
    filterMap_unpaid hunpaid₅, List.append_nil]
  refine ⟨?_, fun _ => ⟨order, rfl, rfl⟩⟩
  simp

/-! ### Amounts as text -/

/-- The two digits after the point. -/
def fractionDigits (n : ℕ) : List Char :=
  List.replicate (2 - (Nat.toDigits 10 n).length) '0' ++ Nat.toDigits 10 n

theorem toList_fromCents (c : Cents) :
    (fromCents c).toList = (if c < 0 then ['-'] else []) ++ Nat.toDigits 10 (c.natAbs / 100) ++
      '.' :: fractionDigits (c.natAbs % 100) := by
  have htext : ∀ n : ℕ, (toString n).toList = Nat.toDigits 10 n := fun n => by
    simp
  unfold fromCents fractionDigits
  simp only [String.toList_append, htext, String.toList_ofList, ← String.length_toList]
  split <;> simp

theorem length_fractionDigits {n : ℕ} (hn : n < 100) : (fractionDigits n).length = 2 := by
  have hle : (Nat.toDigits 10 n).length ≤ 2 :=
    (Nat.length_toDigits_le_iff (by decide) (by decide)).mpr hn
  simp [fractionDigits]
  omega

theorem ofDigitChars_fractionDigits (n : ℕ) : Nat.ofDigitChars 10 (fractionDigits n) 0 = n := by
  rw [fractionDigits, Nat.ofDigitChars_append, Nat.ofDigitChars_replicate_zero, Nat.mul_zero,
    Nat.ofDigitChars_ten_toDigits]

theorem isDigit_fractionDigits {n : ℕ} : ∀ c ∈ fractionDigits n, c.isDigit = true := by
  intro c hc
  rcases List.mem_append.mp hc with hc | hc
  · rw [List.eq_of_mem_replicate hc]
    decide
  · exact Nat.isDigit_of_mem_toDigits (by decide) (by decide) hc

/-- The digits before the point, which are the only ones up to it. -/
theorem split_at_point {w f : List Char} (hw : ∀ c ∈ w, c.isDigit = true) :
    (w ++ '.' :: f).takeWhile (· ≠ '.') = w ∧ (w ++ '.' :: f).dropWhile (· ≠ '.') = '.' :: f := by
  have hpoint : ∀ c ∈ w, decide (c ≠ '.') = true := by
    intro c hc
    have hne : c ≠ '.' := by
      rintro rfl
      exact absurd (hw '.' hc) (by decide)
    exact decide_eq_true hne
  constructor
  · rw [List.takeWhile_append_of_pos hpoint]
    simp
  · rw [List.dropWhile_append_of_pos hpoint]
    simp

theorem decimalNumber_fromCents (c : Cents) : decimalNumber (fromCents c) = some (c, 2) := by
  have hw : ∀ d ∈ Nat.toDigits 10 (c.natAbs / 100), d.isDigit = true := fun d hd =>
    Nat.isDigit_of_mem_toDigits (by decide) (by decide) hd
  have hne : Nat.toDigits 10 (c.natAbs / 100) ≠ [] :=
    List.ne_nil_of_length_pos Nat.length_toDigits_pos
  obtain ⟨htake, hdrop⟩ := split_at_point (f := fractionDigits (c.natAbs % 100)) hw
  -- the text is an optional minus, the digits of the units, the point and two digits
  have hdigits : (Nat.toDigits 10 (c.natAbs / 100) ++
      fractionDigits (c.natAbs % 100)).all Char.isDigit = true := by
    rw [List.all_eq_true]
    intro d hd
    rcases List.mem_append.mp hd with hd | hd
    · exact hw d hd
    · exact isDigit_fractionDigits d hd
  have hvalue : Nat.ofDigitChars 10 (Nat.toDigits 10 (c.natAbs / 100) ++
      fractionDigits (c.natAbs % 100)) 0 = c.natAbs := by
    rw [Nat.ofDigitChars_append, Nat.ofDigitChars_ten_toDigits,
      Nat.ofDigitChars_eq_ofDigitChars_zero, ofDigitChars_fractionDigits,
      length_fractionDigits (Nat.mod_lt _ (by decide))]
    omega
  have hminus : (fromCents c).toList.head? = some '-' ↔ c < 0 := by
    rw [toList_fromCents]
    by_cases hc : c < 0
    · simp [hc]
    · obtain ⟨d, ds, hd⟩ := List.exists_cons_of_ne_nil hne
      have hdigit := hw d (by simp [hd])
      have hneg : d ≠ '-' := by
        rintro rfl
        exact absurd hdigit (by decide)
      simp [hc, hd, hneg]
  have hunsigned : (if c < 0 then (fromCents c).toList.tail else (fromCents c).toList) =
      Nat.toDigits 10 (c.natAbs / 100) ++ '.' :: fractionDigits (c.natAbs % 100) := by
    rw [toList_fromCents]
    split <;> simp [*]
  have hsign : (if c < 0 then -(c.natAbs : ℤ) else c.natAbs) = c := by
    rcases lt_or_ge c 0 with hc | hc
    · rw [if_pos hc, Int.ofNat_natAbs_of_nonpos hc.le, neg_neg]
    · rw [if_neg (not_lt.mpr hc), Int.natAbs_of_nonneg hc]
  simp only [decimalNumber, hminus, hunsigned, htake, hdrop, List.tail_cons,
    hdigits, hvalue, length_fractionDigits (Nat.mod_lt _ (by decide : 0 < 100)), hsign]
  exact if_pos ⟨hne, trivial⟩

/-- An amount is read back from its text as it was. -/
theorem cents_fromCents (c : Cents) : cents (some (.str (fromCents c))) = some c := by
  have hround : Gst.roundDiv (c * 100) (10 ^ 2) = c := by
    unfold Gst.roundDiv
    omega
  rw [cents, decimalNumber_fromCents]
  exact congrArg some hround

/-! ### The change -/

/-- The change of a payment, by what was handed over. -/
def changeGiven (p : SalePayment) : Cents :=
  ((tenderedCents p).map fun tendered => tendered - p.amount).getD 0

/-- The cash handed over, less the cash amounts. -/
def cashChange (payments : List SalePayment) : Cents :=
  ((payments.filter (·.method = .cash)).map fun p => p.tendered.getD p.amount - p.amount).sum

theorem sum_changeGiven (ps : List SalePayment) : (ps.map changeGiven).sum = cashChange ps := by
  induction ps with
  | nil => rfl
  | cons p ps ih =>
    rw [List.map_cons, List.sum_cons, ih]
    by_cases hcash : p.method = .cash
    · have hgiven : changeGiven p = p.tendered.getD p.amount - p.amount := by
        rw [changeGiven, tenderedCents, if_pos hcash]
        cases p.tendered with
        | none => exact (sub_self p.amount).symm
        | some tendered => rfl
      rw [hgiven, cashChange, cashChange, List.filter_cons_of_pos (by simpa using hcash),
        List.map_cons, List.sum_cons]
    · have hnone : changeGiven p = 0 := by
        rw [changeGiven, tenderedCents, if_neg hcash]
        rfl
      rw [hnone, zero_add, cashChange, cashChange, List.filter_cons_of_neg (by simpa using hcash)]

/-- The row of a payment keeps its change. -/
theorem cents_change (tenantId orderId : Uuid) (order : Order)
    (x : SalePayment × Option ConfirmedUpi) :
    cents ((createdPayment tenantId orderId order x).row.metadata.lookup "change") =
      some (changeGiven x.1) := by
  unfold createdPayment paymentRow changeGiven
  cases tenderedCents x.1 with
  | none =>
    have hchannel :
        (AList.singleton "channel" (.str "POS") : Metadata).lookup "change" = none := rfl
    cases x.2 <;> simp [Metadata.ofList, AList.lookup_insert_ne, cents, hchannel]
  | some tendered =>
    have hlookup : cents (some (.str (fromCents (tendered - x.1.amount)))) =
      some (tendered - x.1.amount) := cents_fromCents _
    cases x.2 <;> simp [Metadata.ofList, AList.lookup_insert_ne, hlookup]

/-- The change is worked out from the rows as it was given. -/
theorem changeOf_created (tenantId orderId : Uuid) (order : Order)
    (xs : List (SalePayment × Option ConfirmedUpi)) :
    changeOf (xs.map (createdPayment tenantId orderId order)) =
      some (cashChange (xs.map (·.1))) := by
  have hmapM : (xs.map (createdPayment tenantId orderId order)).mapM
      (fun p => cents (p.row.metadata.lookup "change")) =
        some ((xs.map (·.1)).map changeGiven) := by
    induction xs with
    | nil => rfl
    | cons x xs ih =>
      rw [List.map_cons, List.mapM_cons, cents_change, ih]
      rfl
  rw [changeOf, hmapM, Option.map_some, sum_changeGiven]

/-- Drawing ids leaves the payments as they came in. -/
theorem cashChange_drawn (ids : AttemptIds) (payments : List (SalePayment × Option ConfirmedUpi)) :
    cashChange ((ids.drawn payments).map (·.1)) = cashChange (payments.map (·.1)) := by
  have hgiven : ((ids.drawn payments).map (·.1)).map changeGiven =
      (payments.map (·.1)).map changeGiven := by
    apply List.ext_getElem
    · simp [AttemptIds.drawn]
    · intro i hi hi'
      simp [AttemptIds.drawn, changeGiven, tenderedCents]
  rw [← sum_changeGiven, hgiven, sum_changeGiven]

theorem firstPaymentWritten_drawn (ids : AttemptIds)
    (payments : List (SalePayment × Option ConfirmedUpi)) (es : List Edit) :
    firstPaymentWritten (ids.drawn payments) es = firstPaymentWritten payments es := by
  cases payments with
  | nil => rfl
  | cons x payments =>
    rw [AttemptIds.drawn, List.mapIdx_cons]
    rfl

/-! ### Sales -/

/-- An attempt: the ids it drew, what it wrote, and what it called and pushed. -/
structure AttemptTrace where
  ids : AttemptIds
  edits : List Edit
  calls : List (Call ⊕ CreatedPayment)

/-- The payments that an attempt has pushed. -/
def AttemptTrace.pushed (x : AttemptTrace) : List CreatedPayment := notesOf x.calls

/-- A sale whose order was committed, after any attempts that the loop may make before. The
surroundings of every attempt are arbitrary. -/
structure SaleRun (env : Environment) (tenantId userId : Uuid) (d : OrderService.OrderDraft)
    (session : Option Uuid) (payments : List (SalePayment × Option ConfirmedUpi)) where
  aborted : List AttemptTrace
  committed : AttemptTrace
  order : Option Order
  retries : aborted.length < OrderService.maxRetries
  aborts : ∀ x ∈ aborted, ∃ q,
    Partway (attempt env tenantId userId d session payments x.ids) x.edits x.calls q ∧
      q.abortable = true
  commits : Partway (attempt env tenantId userId d session payments committed.ids)
    committed.edits committed.calls (ret order)

namespace SaleRun

variable (run : SaleRun env tenantId userId d session payments)

/-- `created`, when `create` has returned. -/
def created : List CreatedPayment :=
  run.aborted.flatMap AttemptTrace.pushed ++ run.committed.pushed

/-- What the sale returns. -/
def result : SaleResult := saleResult tenantId run.order run.created

/-- The payments that the committed transaction stored. -/
def stored : List CreatedPayment := run.committed.edits.filterMap insertedPayment

/-- The sale reports what was stored: the payments, an event for each of them, and the change
that was due. -/
structure Reported : Prop where
  stored : run.result.payments = run.stored
  events : run.result.events = run.stored.map (paymentCompleted tenantId)
  change : run.result.change = some (cashChange (payments.map (·.1)))

variable {run}

/-- The committed attempt has pushed what it stored. -/
theorem pushed_committed : run.committed.pushed = run.stored ∧
    changeOf run.stored = some (cashChange (payments.map (·.1))) := by
  obtain ⟨-, hended⟩ := partway_attempt run.commits rfl
  obtain ⟨order, hpushed, hstored⟩ := hended rfl
  constructor
  · exact hpushed.trans hstored.symm
  · rw [stored, hstored, changeOf_created, cashChange_drawn]

/-- The sale reports what was stored when no aborted attempt has left an entry. -/
theorem reported_iff_pushed : run.Reported ↔ ∀ x ∈ run.aborted, x.pushed = [] := by
  obtain ⟨hpushed, hchange⟩ := run.pushed_committed
  have hcreated : run.created = run.stored ↔ ∀ x ∈ run.aborted, x.pushed = [] := by
    rw [created, hpushed, List.append_left_eq_self, List.flatMap_eq_nil_iff]
  constructor
  · intro h
    exact hcreated.mp h.stored
  · intro h
    have heq := hcreated.mpr h
    constructor
    · exact heq
    · exact congrArg (List.map (paymentCompleted tenantId)) heq
    · exact (congrArg changeOf heq).trans hchange

end SaleRun

/-- A sale reports what was stored, to the payment, the event and the change, exactly when every
attempt that the database aborted before had not yet written its first payment completely. -/
theorem sale_reported_iff (run : SaleRun env tenantId userId d session payments) :
    run.Reported ↔ ∀ x ∈ run.aborted, firstPaymentWritten payments x.edits = false := by
  rw [run.reported_iff_pushed]
  refine forall₂_congr fun x hx => ?_
  obtain ⟨q, hpart, hq⟩ := run.aborts x hx
  rw [AttemptTrace.pushed, (partway_attempt hpart hq).1, firstPaymentWritten_drawn]

end PosService

/-! ### A sale of one shirt -/

namespace Sample

open PosService

/-- One shirt, paid by card. -/
def counterSale : SaleBody :=
  { items := [⟨"shirt", 1, none⟩]
    payments := [{ method := .card, amount := 118, ids := ⟨"payment", "charge", "txn"⟩ }] }

/-- Its payments; none of them is confirmed by Razorpay. -/
def cardPayments : List (SalePayment × Option ConfirmedUpi) :=
  counterSale.payments.map fun p => (p, none)

/-- The order of the sale, as `create` works it out before its transaction. -/
def counterDraft : OrderService.OrderDraft :=
  (((OrderService.prepare {} "shop" (orderBody "customer" "north" none counterSale)).run noAnswer
    shop).toOption.get (by decide +kernel)).1

/-- An attempt of the sale alone in the shop, for `n` steps, with the ids `name`. -/
def counterWalk (name : String) (n : ℕ) :
    List Edit × List (Call ⊕ CreatedPayment) × CreatingSql (Option Order) :=
  walk (fun _ => default) n
    (attempt {} "shop" "user" counterDraft none cardPayments ⟨name, fun _ => ⟨name, name, name⟩⟩)
    shop

def counterTrace (name : String) (n : ℕ) : AttemptTrace :=
  ⟨⟨name, fun _ => ⟨name, name, name⟩⟩, (counterWalk name n).1, (counterWalk name n).2.1⟩

end Sample

namespace PosService

open Sample

/-- The first attempt is aborted at its commit, the second one commits. The sale returns two
payments of 118 paise, and only the second is stored. -/
theorem retried_sale_misreported :
    ¬ ∀ run : SaleRun {} "shop" "user" counterDraft none cardPayments, run.Reported := by
  intro hclaim
  obtain ⟨order, horder⟩ := eq_ret_of_hasEnded
    (by decide +kernel : (counterWalk "second" 16).2.2.hasEnded = true)
  have hreported := hclaim
    { aborted := [counterTrace "first" 16]
      committed := counterTrace "second" 16
      order := order
      retries := by decide
      aborts := by
        intro x hx
        obtain rfl := List.mem_singleton.mp hx
        have hopen : (counterWalk "first" 16).2.2.abortable = true := by decide +kernel
        exact ⟨_, partway_walk _ 16 _ shop, hopen⟩
      commits := horder ▸ partway_walk _ 16 _ shop }
  have hpushed := SaleRun.reported_iff_pushed.mp hreported _ (List.mem_singleton_self _)
  have hentry : (counterTrace "first" 16).pushed.length = 1 := by decide +kernel
  rw [hpushed] at hentry
  cases hentry

end PosService

end PulseOps
