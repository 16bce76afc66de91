import PulseOps.Model.Rows
import PulseOps.ReadCommitted.Interleaved

/-!
# Building a report

`ReportService.generate` of `reports/reports.service.js`: a job of the queue builds the CSV of a
report, stores it, and writes the outcome into the report. The queue may deliver a job again
while an earlier delivery is still at work. One turn of a job is one statement, one upload, or
the reading of the rows.

Which rows a report shows, and whether an upload succeeds, is left to the surroundings. Time
stamps are left out, and so are the mails to the recipients, which come after the last write.
-/

set_option autoImplicit false

open ReadCommitted

namespace PulseOps.Reports

/-! ### The CSV file -/

/-- `FORMULA_START`. -/
def formulaStart (c : Char) : Bool := c ∈ ['=', '+', '-', '@', '\t', '\r']

/-- `csvCell`. -/
def csvCell : Option String → String
  | none => ""
  | some value =>
    let text := if value.toList.head?.any formulaStart then "'" ++ value else value
    if text.toList.any (· ∈ ['"', ',', '\r', '\n']) then
      "\"" ++ String.ofList (text.toList.flatMap fun c => if c = '"' then ['"', '"'] else [c]) ++
        "\""
    else text

/-- `csvLine`. -/
def csvLine (values : List (Option String)) : String :=
  ",".intercalate (values.map csvCell) ++ "\r\n"

/-- `MAX_ROWS`. -/
def maxRows : ℕ := 100000

/-- The file of a report, with the byte order mark. -/
def csvFile (header : List String) (rows : List (List (Option String))) : String :=
  "\uFEFF" ++ String.join (csvLine (header.map some) :: rows.map csvLine)

/-! ### Rows -/

inductive ReportStatus where
  | pending
  | processing
  | completed
  | failed
  deriving DecidableEq, Repr

inductive ReportType where
  | orders
  | inventory
  | customers
  deriving DecidableEq, Repr

/-- The `header` of `REPORT_DEFINITIONS`. -/
def ReportType.header : ReportType → List String
  | orders => ["orderId", "createdAt", "status", "customerEmail", "customerName", "itemCount",
      "subtotal", "discountTotal", "taxTotal", "shippingTotal", "total", "currency"]
  | inventory => ["sku", "productName", "variantStatus", "warehouseCode", "warehouseName",
      "quantity", "updatedAt"]
  | customers => ["customerId", "email", "firstName", "lastName", "phone", "createdAt",
      "orderCount", "totalSpent"]

structure Report where
  tenantId : Uuid
  type : ReportType
  filters : List (String × String) := []
  status : ReportStatus := .pending
  storageKey : Option String := none
  rowCount : Option ℕ := none
  sizeBytes : Option ℕ := none
  error : Option String := none
  deriving DecidableEq, Repr

/-- The reports, and the files in the object store. -/
structure Store where
  reports : Table Uuid Report
  files : Table String String := ∅

/-! ### Jobs -/

/-- The payload of a job. -/
structure Job where
  tenantId : Uuid
  reportId : Uuid
  deriving DecidableEq, Repr

inductive Answer where
  | skipped (reason : String)
  | completed (rowCount : ℕ)
  deriving DecidableEq, Repr

/-- Where a job is. -/
inductive Phase where
  | arrived
  /-- the report is not completed, and `PROCESSING` comes next -/
  | starting (report : Report)
  /-- the rows are read -/
  | building (report : Report)
  | uploading (file : String) (rowCount : ℕ)
  /-- `COMPLETED` comes next -/
  | completing (file : String) (rowCount : ℕ)
  /-- `FAILED` comes next -/
  | failing (e : Failure)
  | done (result : Except Failure Answer)
  deriving DecidableEq

/-- What the code here does not settle. -/
structure Surroundings where
  /-- the rows of `REPORT_DEFINITIONS` -/
  rows : Store → Report → Except Failure (List (List (Option String)))
  /-- the error of an upload that fails -/
  uploadError : Store → Job → Option Failure

/-- The `where` of the report and the tenant. -/
def findReport (s : Store) (job : Job) : Option Report :=
  (s.reports.lookup job.reportId).filter (·.tenantId = job.tenantId)

def Job.storageKey (job : Job) : String :=
  "tenants/" ++ job.tenantId ++ "/reports/" ++ job.reportId ++ ".csv"

def tooLarge : AppError :=
  ⟨"Report exceeds " ++ toString maxRows ++ " rows; narrow the filters", 422, "REPORT_TOO_LARGE"⟩

/-- The `error` of a failed report. -/
def errorText : Failure → String
  | .app e => e.message
  | _ => "Report generation failed"

/-- The row with `PROCESSING`. -/
def Report.begun (report : Report) : Report :=
  { report with status := .processing, error := none }

/-- The row with `COMPLETED`. -/
def Report.finished (report : Report) (job : Job) (file : String) (rowCount : ℕ) : Report :=
  { report with
    status := .completed
    storageKey := some job.storageKey
    rowCount := some rowCount
    sizeBytes := some file.utf8ByteSize }

/-- The row with `FAILED`. -/
def Report.given (report : Report) (e : Failure) : Report :=
  { report with status := .failed, error := some (errorText e) }

/-- `report.update`, and the phase after it. -/
def updateReport (s : Store) (job : Job) (change : Report → Report) (next : Phase)
    (otherwise : Failure → Phase) : Store × Phase :=
  match s.reports.lookup job.reportId with
  | none => (s, otherwise (.database .recordNotFound))
  | some report => ({ s with reports := s.reports.insert job.reportId (change report) }, next)

/-- One turn of `generate`. -/
def advance (env : Surroundings) (job : Job) (s : Store) : Phase → Store × Phase
  | .arrived =>
    match findReport s job with
    | none => (s, .done (.ok (.skipped "report not found")))
    | some report =>
      if report.status = .completed then (s, .done (.ok (.skipped "already completed")))
      else (s, .starting report)
  | .starting report =>
    updateReport s job Report.begun (.building report) fun e => .done (.error e)
  | .building report =>
    match env.rows s report with
    | .error e => (s, .failing e)
    | .ok rows =>
      if maxRows < rows.length then (s, .failing (.app tooLarge))
      else (s, .uploading (csvFile report.type.header rows) rows.length)
  | .uploading file rowCount =>
    match env.uploadError s job with
    | some e => (s, .failing e)
    | none =>
      ({ s with files := s.files.insert job.storageKey file }, .completing file rowCount)
  | .completing file rowCount =>
    updateReport s job (·.finished job file rowCount) (.done (.ok (.completed rowCount))) .failing
  | .failing e =>
    updateReport s job (·.given e) (.done (.error e)) fun e => .done (.error e)
  | .done result => (s, .done result)

/-- The jobs have been delivered. -/
def start (jobs : List Job) (s : Store) : Interleaved Store Phase :=
  ⟨s, jobs.map fun _ => .arrived⟩

end PulseOps.Reports
