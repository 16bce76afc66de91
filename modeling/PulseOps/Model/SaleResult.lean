import PulseOps.Model.PointOfSale
import PulseOps.ReadCommitted.Attempts

/-!
# What a counter sale returns

`pos/pos.service.js`: the list `created` that `sale` fills from inside the transaction of the
order, and the result it makes of the list; `orders/orders.service.js`: the loop that runs this
transaction again when the database has aborted it.

The list belongs to the call of `sale`. A payment pushed to it is a note: an aborted attempt
leaves it there.
-/

set_option autoImplicit false

open ReadCommitted Program

namespace PulseOps

/-- A payment as `created` holds it: the row, with its id. -/
structure CreatedPayment where
  id : Uuid
  row : Payment

/-- Programs that push payments to `created`. -/
abbrev CreatingSql (α : Type) := Program (sales.noting CreatedPayment) α

instance : Inhabited Reply := ⟨.lost ""⟩

namespace OrderService

/-- The transaction of `create` up to its callback. -/
def placeRows (env : Environment) (tenantId userId orderId : Uuid) (d : OrderDraft) :
    Sql Order := do
  let lockKeys := d.items.insertionSort fun a b =>
    a.productVariantId ++ "-" ++ a.warehouseId ≤ b.productVariantId ++ "-" ++ b.warehouseId
  forM lockKeys fun it => lockRow (.inventory (it.stockKey tenantId))
  forM d.items (reserveItem tenantId)
  let invoiceSeq ← nextInvoiceNumber tenantId env.financialYear
  let order := orderRow env tenantId d invoiceSeq
  perform (Statement.insertOrder orderId order)
  forM d.items fun it => record (.orderItemInsert (orderItemRow tenantId orderId it))
  forM d.items (recordReservation tenantId userId orderId)
  record (.orderStatusHistoryInsert
    (historyRow tenantId orderId userId none .pending (some "Order created")))
  return order

/-- `maxRetries`: the attempts that `create` makes at most. -/
def maxRetries : ℕ := 3

end OrderService

namespace PosService

/-! ### The transaction -/

/-- The row of a payment, as `created` gets it. -/
def createdPayment (tenantId orderId : Uuid) (order : Order)
    (x : SalePayment × Option ConfirmedUpi) : CreatedPayment :=
  ⟨x.1.ids.payment, paymentRow tenantId orderId order x.1 x.2⟩

/-- Write one payment of the sale, then push it. -/
def pushPayment (tenantId userId orderId : Uuid) (session : Option Uuid) (order : Order)
    (x : SalePayment × Option ConfirmedUpi) : CreatingSql Unit := do
  (takePayment tenantId userId orderId session order x).lift CreatedPayment
  note (createdPayment tenantId orderId order x)

/-- What runs inside the transaction of the order. -/
def settlePushing (tenantId userId : Uuid) (session : Option Uuid)
    (payments : List (SalePayment × Option ConfirmedUpi)) (orderId : Uuid) (order : Order) :
    CreatingSql Unit := do
  let paidCents := (payments.map (·.1.amount)).sum
  let checkTotal : Sql Unit := ensure (paidCents = order.total)
    ("Payments add up to ₹" ++ fromCents paidCents ++ " but the bill is ₹" ++
      fromCents order.total) 400 "PAYMENT_TOTAL_MISMATCH"
  let handOver : Sql Unit := do
    perform (Statement.updateOrderStatus orderId .delivered)
    record (.orderStatusHistoryInsert (OrderService.historyRow tenantId orderId userId
      (some .pending) .delivered (some "Counter sale")))
  checkTotal.lift CreatedPayment
  forM payments (pushPayment tenantId userId orderId session order)
  handOver.lift CreatedPayment

/-- The ids that one attempt draws. -/
structure AttemptIds where
  orderId : Uuid
  payment : ℕ → PaymentService.DrawnIds

/-- The payments of the sale, with the ids of an attempt. -/
def AttemptIds.drawn (ids : AttemptIds) (payments : List (SalePayment × Option ConfirmedUpi)) :
    List (SalePayment × Option ConfirmedUpi) :=
  payments.mapIdx fun i x => ({ x.1 with ids := ids.payment i }, x.2)

/-- One attempt at the transaction of a counter sale. -/
def attempt (env : Environment) (tenantId userId : Uuid) (d : OrderService.OrderDraft)
    (session : Option Uuid) (payments : List (SalePayment × Option ConfirmedUpi))
    (ids : AttemptIds) : CreatingSql (Option Order) := do
  let order ← (OrderService.placeRows env tenantId userId ids.orderId d).lift CreatedPayment
  settlePushing tenantId userId session (ids.drawn payments) ids.orderId order
  (query fun s => s.orders.lookup ids.orderId : Sql (Option Order)).lift CreatedPayment

/-! ### The result -/

/-- `Number(v)` of a decimal numeral `-?\d+(\.\d*)?`, as its digits and the number of those
after the point. Other texts are not a number. -/
def decimalNumber (v : String) : Option (ℤ × ℕ) :=
  let cs := v.toList
  let negative := cs.head? = some '-'
  let unsigned := if negative then cs.tail else cs
  let whole := unsigned.takeWhile (· ≠ '.')
  let fraction := (unsigned.dropWhile (· ≠ '.')).tail
  let digits := whole ++ fraction
  if whole ≠ [] ∧ digits.all Char.isDigit then
    let n : ℤ := Nat.ofDigitChars 10 digits 0
    some (if negative then -n else n, fraction.length)
  else none

/-- `Math.round(Number(v ?? 0) * 100)`, unless it is not a number. -/
def cents (v : Option JsonValue) : Option Cents :=
  match v with
  | none => some 0
  | some .null => some 0
  | some (.bool b) => some (if b then 100 else 0)
  | some (.num n) => some (n * 100)
  | some (.str text) =>
    (decimalNumber text).map fun (n, places) => Gst.roundDiv (n * 100) (10 ^ places)
  | some (.text _) => none

/-- What `emitPaymentCompleted` sends. -/
structure PaymentCompleted where
  tenantId : Uuid
  id : Uuid
  orderId : Uuid
  amount : Cents
  currency : String
  status : PaymentStatus
  providerPaymentId : Option String
  deriving DecidableEq

def paymentCompleted (tenantId : Uuid) (payment : CreatedPayment) : PaymentCompleted :=
  { tenantId := tenantId
    id := payment.id
    orderId := payment.row.orderId
    amount := payment.row.amount
    currency := payment.row.currency
    status := payment.row.status
    providerPaymentId := payment.row.providerPaymentId }

/-- The change of the payments in `created`. -/
def changeOf (created : List CreatedPayment) : Option Cents :=
  (created.mapM fun p => cents (p.row.metadata.lookup "change")).map List.sum

/-- What `sale` returns, and the events it has emitted. -/
structure SaleResult where
  order : Option Order
  payments : List CreatedPayment
  change : Option Cents
  events : List PaymentCompleted

/-- The end of `sale`, after `create` has returned. -/
def saleResult (tenantId : Uuid) (order : Option Order) (created : List CreatedPayment) :
    SaleResult :=
  { order := order
    payments := created
    change := changeOf created
    events := created.map (paymentCompleted tenantId) }

end PosService

end PulseOps
