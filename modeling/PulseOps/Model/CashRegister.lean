import PulseOps.Model.PointOfSale

/-!
# The cash drawer

The shifts of `pos/cash-register.service.js`: a counter is opened with a float, cash sales
go into the drawer, staff record cash in and cash out, and closing compares the cash counted
with what should be there. The request schemas of `pos/pos.validation.js` come with them.
-/

set_option autoImplicit false

open ReadCommitted Program

namespace PulseOps

namespace Statement

/-- `cashSession.create`: one open shift a counter. -/
def insertCashSession (id : Uuid) (row : CashSession) (s : Db) : Except Failure Edit :=
  if (s.cashSessions.lookup id).isSome ∨ s.cashSessions.entries.any fun e =>
      e.2.registerId = row.registerId ∧ e.2.status = .open ∧ row.status = .open then
    .error (.database .uniqueViolation)
  else if (s.cashRegisters.lookup row.registerId).isSome then .ok (.cashSessionInsert id row)
  else .error (.database .foreignKeyViolation)

/-- `cashSession.update`. -/
def updateCashSession (id : Uuid) (change : CashSession → CashSession) (s : Db) :
    Except Failure Edit :=
  match s.cashSessions.lookup id with
  | none => .error (.database .recordNotFound)
  | some row => .ok (.cashSessionUpdate id (change row))

/-- `catch (err) { if (err.code === 'P2002') throw … }`. -/
def onUniqueViolation (e : AppError) (edit : Db → Except Failure Edit) (s : Db) :
    Except Failure Edit :=
  match edit s with
  | .error (.database .uniqueViolation) => .error (.app e)
  | result => result

variable {id : Uuid} {s : Db} {e : Edit}

theorem insertCashSession_eq_ok {row : CashSession} (h : insertCashSession id row s = .ok e) :
    s.cashSessions.lookup id = none ∧ e = .cashSessionInsert id row := by
  unfold insertCashSession at h
  split_ifs at h with hunique
  rw [not_or] at hunique
  exact ⟨by simpa using hunique.1, (Except.ok.inj h).symm⟩

@[simp] theorem updateCashSession_eq_ok {change : CashSession → CashSession} :
    updateCashSession id change s = .ok e ↔
      ∃ row, s.cashSessions.lookup id = some row ∧ e = .cashSessionUpdate id (change row) := by
  unfold updateCashSession
  split
  · simp_all
  · rename_i row hrow
    simp [hrow, eq_comm]

@[simp] theorem onUniqueViolation_eq_ok {err : AppError} {edit : Db → Except Failure Edit} :
    onUniqueViolation err edit s = .ok e ↔ edit s = .ok e := by
  unfold onUniqueViolation
  split <;> simp_all

theorem insertCashMovement_eq_ok {row : CashMovement} (h : insertCashMovement row s = .ok e) :
    (s.cashSessions.lookup row.sessionId).isSome ∧ e = .cashMovementInsert row := by
  unfold insertCashMovement at h
  split_ifs at h with hsession
  exact ⟨hsession, (Except.ok.inj h).symm⟩

end Statement

namespace CashRegisterService

/-- `sessionTotals`: the totals of a shift. -/
structure SessionTotals where
  openingFloat : Cents
  cashSales : Cents
  cashRefunds : Cents
  cashIn : Cents
  cashOut : Cents
  expectedCash : Cents
  deriving DecidableEq, Repr

/-- The sum of the movements of one type. -/
def sumOf (type : CashMovementType) (movements : List CashMovement) : Cents :=
  ((movements.filter (·.type = type)).map (·.amount)).sum

/-- Totals of a shift from its movements. -/
def sessionTotals (session : CashSession) (movements : List CashMovement) : SessionTotals where
  openingFloat := session.openingFloat
  cashSales := sumOf .sale movements
  cashRefunds := sumOf .refund movements
  cashIn := sumOf .cashIn movements
  cashOut := sumOf .cashOut movements
  expectedCash := session.openingFloat + sumOf .sale movements - sumOf .refund movements +
    sumOf .cashIn movements - sumOf .cashOut movements

/-- `include: { movements: true }`. -/
def movementsOf (sessionId : Uuid) (s : Db) : List CashMovement :=
  s.cashMovements.filter (·.sessionId = sessionId)

/-- A shift as it is answered: its row, its counter, its totals and its movements. -/
structure SessionView where
  id : Uuid
  row : CashSession
  registerName : Option String
  totals : SessionTotals
  movements : List CashMovement

/-- `toSession`. -/
def toSession (id : Uuid) (s : Db) : Option SessionView :=
  (s.cashSessions.lookup id).map fun row =>
    { id, row
      registerName := (s.cashRegisters.lookup row.registerId).map (·.name)
      totals := sessionTotals row (movementsOf id s)
      movements := movementsOf id s }

/-- A shift of the business with its movements. -/
def findSession (tenantId sessionId : Uuid) (s : Db) : Option (CashSession × List CashMovement) :=
  ((s.cashSessions.lookup sessionId).filter (·.tenantId = tenantId)).map fun row =>
    (row, movementsOf sessionId s)

structure OpenBody where
  openingFloat : Cents := 0
  note : Option String := none

/-- `openRegisterSchema`. -/
def OpenBody.valid (body : OpenBody) : Bool := 0 ≤ body.openingFloat

/-- The row of a shift that begins. -/
def openRow (tenantId registerId userId : Uuid) (body : OpenBody) : CashSession :=
  { tenantId, registerId
    status := .open
    openingFloat := body.openingFloat
    openedBy := some userId
    note := body.note }

/-- `open`: begin a shift. -/
def openRegister (tenantId userId registerId sessionId : Uuid) (body : OpenBody) :
    Sql (Option SessionView) := do
  let found ← query fun s => (s.cashRegisters.lookup registerId).filter fun r =>
    r.tenantId = tenantId ∧ r.isActive
  let register ← orThrow found "Register not found" 404 "REGISTER_NOT_FOUND"
  perform (Statement.onUniqueViolation
    ⟨register.name ++ " is already open", 409, "REGISTER_ALREADY_OPEN"⟩
    (Statement.insertCashSession sessionId (openRow tenantId registerId userId body)))
  query (toSession sessionId)

structure MovementBody where
  type : CashMovementType
  amount : Cents
  reason : Option String := none

/-- `cashMovementSchema`. -/
def MovementBody.valid (body : MovementBody) : Bool :=
  (body.type = .cashIn ∨ body.type = .cashOut) ∧ 0 < body.amount

/-- The row of a movement that staff record. -/
def movementRow (tenantId userId sessionId : Uuid) (body : MovementBody) : CashMovement :=
  { tenantId, sessionId
    type := body.type
    amount := body.amount
    reason := body.reason
    orderId := none
    paymentId := none
    createdBy := some userId }

/-- The shift of a request, under its row lock. -/
def lockSession (tenantId sessionId : Uuid) : Sql (CashSession × List CashMovement) := do
  lockRow (.cashSession sessionId)
  let found ← query (findSession tenantId sessionId)
  let session ← orThrow found "Cash session not found" 404 "CASH_SESSION_NOT_FOUND"
  ensure (session.1.status = .open) "This shift is already closed" 409 "CASH_SESSION_CLOSED"
  return session

/-- Staff put cash in (change float top-up) or take it out (bank deposit, petty expense). -/
def addMovement (tenantId userId sessionId : Uuid) (body : MovementBody) :
    Sql (Option SessionView) := do
  let (session, movements) ← lockSession tenantId sessionId
  ensure (body.type = .cashOut → body.amount ≤ (sessionTotals session movements).expectedCash)
    "There is not that much cash in the drawer" 409 "INSUFFICIENT_CASH"
  perform (Statement.insertCashMovement (movementRow tenantId userId sessionId body))
  query (toSession sessionId)

structure CloseBody where
  countedCash : Cents
  note : Option String := none

/-- `closeSessionSchema`. -/
def CloseBody.valid (body : CloseBody) : Bool := 0 ≤ body.countedCash

/-- What closing writes into the row of the shift. -/
def closedRow (userId : Uuid) (body : CloseBody) (session : CashSession) (expected : Cents)
    (row : CashSession) : CashSession :=
  { row with
    status := .closed
    expectedCash := some expected
    countedCash := some body.countedCash
    variance := some (body.countedCash - expected)
    closedBy := some userId
    note := body.note <|> session.note }

/-- Close the shift: counted vs expected cash. -/
def close (tenantId userId sessionId : Uuid) (body : CloseBody) : Sql (Option SessionView) := do
  let (session, movements) ← lockSession tenantId sessionId
  let expected := (sessionTotals session movements).expectedCash
  perform (Statement.updateCashSession sessionId (closedRow userId body session expected))
  query (toSession sessionId)

end CashRegisterService

namespace PosService

/-- `saleSchema`, as far as amounts go. -/
def SaleBody.valid (body : SaleBody) : Bool :=
  (body.items.all fun i => 0 < i.quantity ∧ i.discount.all (0 ≤ ·)) ∧
    body.payments.all fun p => 0 < p.amount ∧ p.tendered.all (0 ≤ ·)

end PosService

end PulseOps
