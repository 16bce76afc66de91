import PulseOps.Model.Accounts
import PulseOps.Model.Calendar
import PulseOps.ReadCommitted.Interleaved
import Mathlib.Data.List.Sort

/-!
# Report schedules

`reports/report-schedules.service.js`: a schedule requests a report again for each day, week
or month that has ended. One turn of a request is one statement, or one reading of the clock.
Time passes in turns of its own.

The key of a period is kept as the number of the day, Monday or month that its text names.
What a report request does is left to the surroundings, as is who may read what. The store
keeps a log of the periods that have been written into `lastPeriod`; no request reads it, but
for new identifiers, which are never used twice.
-/

set_option autoImplicit false

open ReadCommitted

namespace PulseOps.ReportSchedules

open Accounts (Millis TenantStatus)
open Calendar

/-! ### Periods -/

inductive Frequency where
  | daily
  | weekly
  | monthly
  deriving DecidableEq, Repr

/-- The key of a period: a day, the Monday of a week, or a month. -/
structure PeriodKey where
  frequency : Frequency
  number : ℤ
  deriving DecidableEq, Repr

/-- Of two periods of the same frequency, the one before the other. -/
def PeriodKey.Earlier (k k' : PeriodKey) : Prop :=
  k.frequency = k'.frequency ∧ k.number < k'.number

instance (k k' : PeriodKey) : Decidable (k.Earlier k') :=
  inferInstanceAs (Decidable (_ ∧ _))

/-- A period from its first to its last day. -/
structure Period where
  key : PeriodKey
  first : ℤ
  last : ℤ
  deriving DecidableEq, Repr

/-- The most recent period of this frequency that has fully ended. -/
def latestCompletedPeriod (frequency : Frequency) (now : Millis) : Period :=
  let today := dayOf now
  match frequency with
  | .daily => ⟨⟨.daily, today - 1⟩, today - 1, today - 1⟩
  | .weekly =>
    let monday := mondayOf today - 7
    ⟨⟨.weekly, monday⟩, monday, monday + 6⟩
  | .monthly =>
    let month := monthOf today - 1
    ⟨⟨.monthly, month⟩, firstOfMonth month, firstOfMonth (month + 1) - 1⟩

@[simp] theorem frequency_latestCompletedPeriod (frequency : Frequency) (now : Millis) :
    (latestCompletedPeriod frequency now).key.frequency = frequency := by
  cases frequency <;> rfl

/-- The Monday report of a Wednesday, and the February report of a leap year. -/
example : latestCompletedPeriod .weekly (6 * millisPerDay) = ⟨⟨.weekly, -3⟩, -3, 3⟩ ∧
    latestCompletedPeriod .monthly (19790 * millisPerDay) =
      ⟨⟨.monthly, 12 * 2024 + 1⟩, 19754, 19782⟩ := by
  decide

/-! ### Rows -/

inductive ReportType where
  | orders
  | inventory
  | customers
  deriving DecidableEq, Repr

/-- The `filters` of `REPORT_DEFINITIONS`. -/
def ReportType.filters : ReportType → List String
  | orders => ["from", "to", "status"]
  | inventory => ["warehouseId"]
  | customers => ["from", "to"]

structure Schedule where
  tenantId : Uuid
  createdBy : Option Uuid
  name : String
  type : ReportType
  frequency : Frequency
  filters : List (String × String)
  recipientUserIds : List Uuid
  enabled : Bool
  lastPeriod : Option PeriodKey := none
  lastRunAt : Option Millis := none
  lastReportId : Option Uuid := none
  lastError : Option String := none
  deriving DecidableEq, Repr

/-- A write of `lastPeriod`. -/
structure Recorded where
  scheduleId : Uuid
  period : PeriodKey
  /-- whether a tick has claimed the period -/
  claimed : Bool
  deriving DecidableEq, Repr

structure Db where
  clock : Millis
  tenants : Table Uuid TenantStatus
  schedules : Table Uuid Schedule := ∅
  /-- the writes of `lastPeriod` so far, the last one first -/
  recorded : List Recorded := []

/-! ### Requests -/

/-- The body of a `PATCH`. -/
structure Changes where
  name : Option String := none
  filters : Option (List (String × String)) := none
  recipientUserIds : Option (List Uuid) := none
  enabled : Option Bool := none
  frequency : Option Frequency := none
  deriving DecidableEq, Repr

/-- The body of a `POST`. -/
structure CreateBody where
  name : String
  type : ReportType
  frequency : Frequency
  filters : List (String × String) := []
  recipientUserIds : List Uuid := []
  enabled : Bool := true
  deriving DecidableEq, Repr

inductive Request where
  /-- a tick of the worker -/
  | runDue
  | create (tenantId userId id : Uuid) (body : CreateBody)
  | update (tenantId userId id : Uuid) (changes : Changes)
  | remove (tenantId id : Uuid)
  /-- time that passes with each turn -/
  | wait (millis : ℕ)
  deriving DecidableEq, Repr

/-- The `data` of an update. -/
structure UpdateData where
  name : Option String
  filters : Option (List (String × String))
  recipientUserIds : Option (List Uuid)
  enabled : Option Bool
  /-- whether the update clears `lastError` -/
  clearsError : Bool
  frequency : Option Frequency
  lastPeriod : Option PeriodKey
  deriving DecidableEq, Repr

/-- What `runOne` asks of `reportService.request`. -/
structure ReportRequest where
  tenantId : Uuid
  userId : Uuid
  type : ReportType
  filters : List (String × String)
  /-- the days of `from` and `to` -/
  range : Option (ℤ × ℤ)
  scheduleId : Uuid
  deriving DecidableEq, Repr

/-- An error of `reportService.request`. -/
structure RequestError where
  /-- of an `AppError` -/
  statusCode : Option ℕ
  message : Option String
  deriving DecidableEq, Repr

/-- What `runOne` writes into the schedule. -/
inductive Outcome where
  | paused (reason : String)
  | requested (reportId : Uuid)
  | failed (message : String)
  deriving DecidableEq, Repr

/-- A schedule as a tick has read it. -/
structure Due where
  id : Uuid
  schedule : Schedule
  deriving DecidableEq, Repr

/-- Where a request is. -/
inductive Phase where
  /-- the clock is read, or the first statement comes next -/
  | arrived
  /-- `reportSchedule.findMany` -/
  | finding (now : Millis)
  /-- the schedules that are left -/
  | looping (now : Millis) (due : List Due)
  /-- the creator is looked up -/
  | running (now : Millis) (head : Due) (period : Period) (due : List Due)
  /-- `reportService.request` -/
  | requesting (now : Millis) (head : Due) (period : Period) (userId : Uuid) (due : List Due)
  /-- the outcome is written -/
  | noting (now : Millis) (head : Due) (outcome : Outcome) (due : List Due)
  /-- the checks are done, and the clock is read -/
  | computing (before : Schedule)
  | updating (data : UpdateData)
  | inserting (row : Schedule)
  | removing
  | done (result : Except Failure Unit)
  deriving DecidableEq

/-- What the code here does not settle. -/
structure Surroundings where
  /-- the users of `activeStaff` -/
  activeStaff : Db → Uuid → List Uuid → List Uuid
  /-- whether the user may read what a report shows -/
  canRead : Db → Uuid → Uuid → ReportType → Bool
  /-- `reportService.request` -/
  request : Db → ReportRequest → Except RequestError Uuid

/-! ### Errors -/

def notFound : AppError := ⟨"Report schedule not found", 404, "REPORT_SCHEDULE_NOT_FOUND"⟩

def ReportType.text : ReportType → String
  | orders => "ORDERS"
  | inventory => "INVENTORY"
  | customers => "CUSTOMERS"

/-- The permission that a report needs. -/
def ReportType.permission : ReportType → String
  | orders => "order:read"
  | inventory => "inventory:read"
  | customers => "customer:read"

def forbidden (type : ReportType) : AppError :=
  ⟨type.text ++ " reports need " ++ type.permission, 403, "FORBIDDEN"⟩

def invalidRecipients : AppError :=
  ⟨"Recipients must be active users of this workspace", 400, "INVALID_RECIPIENTS"⟩

def unknownFilters (type : ReportType) (wrong : List String) : AppError :=
  ⟨type.text ++ " reports don't accept filters: " ++ ", ".intercalate wrong, 400,
    "VALIDATION_ERROR"⟩

def refused (e : AppError) : Phase := .done (.error (.app e))

/-! ### The requests of the staff -/

variable (env : Surroundings)

/-- `assertRecipients`: whether every user is found. -/
def assertRecipients (s : Db) (tenantId : Uuid) (userIds : List Uuid) : Bool :=
  userIds.all (· ∈ if userIds = [] then [] else env.activeStaff s tenantId userIds)

/-- The recipients of a new schedule. -/
def recipientsOf (userId : Uuid) (body : CreateBody) : List Uuid :=
  (if body.recipientUserIds = [] then [userId] else body.recipientUserIds).eraseDups

/-- The checks of `update`, in their order. -/
def checkChanges (s : Db) (tenantId userId : Uuid) (before : Schedule) (changes : Changes) :
    Except AppError Unit := do
  unless env.canRead s tenantId userId before.type do .error (forbidden before.type)
  if let some ids := changes.recipientUserIds then
    unless assertRecipients env s tenantId ids do .error invalidRecipients
  if let some filters := changes.filters then
    let wrong := (filters.map (·.1)).filter (· ∉ before.type.filters)
    unless wrong = [] do .error (unknownFilters before.type wrong)

/-- The frequency that an update changes to. -/
def newFrequency (before : Schedule) (changes : Changes) : Option Frequency :=
  changes.frequency.filter (· ≠ before.frequency)

/-- The `data` of `update`. A change of the frequency starts from now, and so does switching
back on. -/
def updateData (before : Schedule) (changes : Changes) (now : Millis) : UpdateData where
  name := changes.name
  filters := changes.filters
  recipientUserIds := changes.recipientUserIds.map (·.eraseDups)
  enabled := changes.enabled
  clearsError := changes.enabled = some true
  frequency := newFrequency before changes
  lastPeriod :=
    if changes.enabled = some true ∧ before.enabled = false then
      some (latestCompletedPeriod ((newFrequency before changes).getD before.frequency) now).key
    else (newFrequency before changes).map fun frequency =>
      (latestCompletedPeriod frequency now).key

/-- The row after an update. -/
def UpdateData.apply (data : UpdateData) (row : Schedule) : Schedule :=
  { row with
    name := data.name.getD row.name
    filters := data.filters.getD row.filters
    recipientUserIds := data.recipientUserIds.getD row.recipientUserIds
    enabled := data.enabled.getD row.enabled
    lastError := if data.clearsError then none else row.lastError
    frequency := data.frequency.getD row.frequency
    lastPeriod := data.lastPeriod <|> row.lastPeriod }

/-- The row of `create`. The first report covers the next period to end. -/
def createRow (tenantId userId : Uuid) (body : CreateBody) (now : Millis) : Schedule where
  tenantId
  createdBy := some userId
  name := body.name
  type := body.type
  frequency := body.frequency
  filters := body.filters
  recipientUserIds := recipientsOf userId body
  enabled := body.enabled
  lastPeriod := some (latestCompletedPeriod body.frequency now).key

/-- `find`. -/
def find (s : Db) (tenantId id : Uuid) : Option Schedule :=
  (s.schedules.lookup id).filter (·.tenantId = tenantId)

/-- One turn of `create`. -/
def advanceCreate (tenantId userId id : Uuid) (body : CreateBody) (s : Db) :
    Phase → Db × Phase
  | .arrived =>
    if env.canRead s tenantId userId body.type then
      if assertRecipients env s tenantId (recipientsOf userId body) then
        (s, .inserting (createRow tenantId userId body s.clock))
      else (s, refused invalidRecipients)
    else (s, refused (forbidden body.type))
  | .inserting row =>
    -- `randomUUID` gives no identifier twice
    if (s.schedules.lookup id).isSome ∨ s.recorded.any (·.scheduleId = id) then
      (s, .done (.error (.database .uniqueViolation)))
    else
      ({ s with
          schedules := s.schedules.insert id row
          recorded := (row.lastPeriod.toList.map fun period => ⟨id, period, false⟩) ++
            s.recorded },
        .done (.ok ()))
  | phase => (s, phase)

/-- One turn of `update`. -/
def advanceUpdate (tenantId userId id : Uuid) (changes : Changes) (s : Db) :
    Phase → Db × Phase
  | .arrived =>
    match find s tenantId id with
    | none => (s, refused notFound)
    | some before => (s, .computing before)
  | .computing before =>
    match checkChanges env s tenantId userId before changes with
    | .error e => (s, refused e)
    | .ok () => (s, .updating (updateData before changes s.clock))
  | .updating data =>
    match s.schedules.lookup id with
    | none => (s, .done (.error (.database .recordNotFound)))
    | some row =>
      ({ s with
          schedules := s.schedules.insert id (data.apply row)
          recorded := (data.lastPeriod.toList.map fun period => ⟨id, period, false⟩) ++
            s.recorded },
        .done (.ok ()))
  | phase => (s, phase)

/-- One turn of `remove`. -/
def advanceRemove (tenantId id : Uuid) (s : Db) : Phase → Db × Phase
  | .arrived =>
    match find s tenantId id with
    | none => (s, refused notFound)
    | some _ => (s, .removing)
  | .removing =>
    if (s.schedules.lookup id).isSome then
      ({ s with schedules := s.schedules.erase id }, .done (.ok ()))
    else (s, .done (.error (.database .recordNotFound)))
  | phase => (s, phase)

/-! ### The tick -/

/-- The `findMany` of `runDue`. -/
def findDue (s : Db) : List Due :=
  ((s.schedules.entries.filter fun e =>
      e.2.enabled ∧ (s.tenants.lookup e.2.tenantId).any fun status =>
        status = .active ∨ status = .trial).map fun e => ⟨e.1, e.2⟩).insertionSort
    fun d d' => d.id ≤ d'.id

/-- The conditional update of `runDue`: the row it finds. -/
def claimable (s : Db) (head : Due) : Option Schedule :=
  (s.schedules.lookup head.id).filter fun row =>
    row.enabled ∧ row.lastPeriod = head.schedule.lastPeriod

/-- The row and the log after a claim. -/
def claim (s : Db) (id : Uuid) (row : Schedule) (period : PeriodKey) (now : Millis) : Db :=
  { s with
    schedules := s.schedules.insert id
      { row with lastPeriod := some period, lastRunAt := some now }
    recorded := ⟨id, period, true⟩ :: s.recorded }

def creatorGone : String :=
  "The user who created this schedule is no longer active; edit and re-enable it to continue"

def creatorForbidden (type : ReportType) : String :=
  "The creator can no longer read " ++ type.text ++ " data"

/-- The report that `runOne` asks for. -/
def reportRequest (head : Due) (period : Period) (userId : Uuid) : ReportRequest where
  tenantId := head.schedule.tenantId
  userId
  type := head.schedule.type
  filters := head.schedule.filters.filter fun f =>
    f.1 ∈ head.schedule.type.filters ∧ f.1 ≠ "from" ∧ f.1 ≠ "to"
  range := if "from" ∈ head.schedule.type.filters then some (period.first, period.last)
    else none
  scheduleId := head.id

/-- What `runOne` makes of the answer to the request. -/
def outcomeOf (type : ReportType) : Except RequestError Uuid → Outcome
  | .ok reportId => .requested reportId
  | .error e =>
    if e.statusCode = some 403 then .paused (creatorForbidden type)
    else .failed ((truthy (e.message.map fun m => String.ofList (m.toList.take 500))).getD
      "Report request failed")

/-- The row with an outcome. -/
def Outcome.apply (row : Schedule) : Outcome → Schedule
  | .paused reason => { row with enabled := false, lastError := some reason }
  | .requested reportId => { row with lastReportId := some reportId, lastError := none }
  | .failed message => { row with lastError := some message }

/-- After a failure the error is thrown on, and the tick ends. -/
def Outcome.next (now : Millis) (due : List Due) : Outcome → Phase
  | .failed message => .done (.error (.integration message))
  | _ => .looping now due

/-- One turn of `runDue`. -/
def advanceRunDue (s : Db) : Phase → Db × Phase
  | .arrived => (s, .finding s.clock)
  | .finding now => (s, .looping now (findDue s))
  | .looping _ [] => (s, .done (.ok ()))
  | .looping now (head :: due) =>
    let period := latestCompletedPeriod head.schedule.frequency now
    if head.schedule.lastPeriod = some period.key then (s, .looping now due)
    else
      match claimable s head with
      | none => (s, .looping now due)
      | some row => (claim s head.id row period.key now, .running now head period due)
  | .running now head period due =>
    match head.schedule.createdBy.filter fun userId =>
        env.activeStaff s head.schedule.tenantId [userId] ≠ [] with
    | none => (s, .noting now head (.paused creatorGone) due)
    | some userId => (s, .requesting now head period userId due)
  | .requesting now head period userId due =>
    (s, .noting now head
      (outcomeOf head.schedule.type (env.request s (reportRequest head period userId))) due)
  | .noting now head outcome due =>
    match s.schedules.lookup head.id with
    | none => (s, .done (.error (.database .recordNotFound)))
    | some row =>
      ({ s with schedules := s.schedules.insert head.id (outcome.apply row) },
        outcome.next now due)
  | phase => (s, phase)

/-! ### Turns -/

/-- One turn. -/
def advance : Request → Db → Phase → Db × Phase
  | .runDue, s, phase => advanceRunDue env s phase
  | .create tenantId userId id body, s, phase =>
    advanceCreate env tenantId userId id body s phase
  | .update tenantId userId id changes, s, phase =>
    advanceUpdate env tenantId userId id changes s phase
  | .remove tenantId id, s, phase => advanceRemove tenantId id s phase
  | .wait millis, s, phase => ({ s with clock := s.clock + millis }, phase)

/-- The requests have arrived, and there is no schedule yet. -/
def start (requests : List Request) (clock : Millis) (tenants : Table Uuid TenantStatus) :
    Interleaved Db Phase :=
  ⟨{ clock, tenants }, requests.map fun _ => .arrived⟩

end PulseOps.ReportSchedules
