import PulseOps.Model.Accounts
import PulseOps.ReadCommitted.Tables

/-!
# Report retention

`ReportService.prune` of `reports/reports.service.js`: the nightly job deletes the reports that
are older than `REPORT_RETENTION_DAYS`, and their files, in batches. A report whose file cannot
be deleted keeps its row, and the batches that follow skip as many rows as there are such reports.

Only the columns that `prune` reads are kept. The store keeps a log of the calls of
`storage.delete`.
-/

set_option autoImplicit false

namespace PulseOps.ReportRetention

open Accounts (Millis)

structure Report where
  tenantId : Uuid
  storageKey : Option String
  createdAt : Millis
  deriving DecidableEq, Repr

structure Store where
  reports : Table Uuid Report
  /-- the reports and keys of the calls of `storage.delete`, the first one first -/
  deletions : List (Uuid × String) := []

abbrev Row := Sigma fun _ : Uuid => Report

/-- `PRUNE_BATCH`. -/
def pruneBatch : ℕ := 200

/-- `DAY_MS`. -/
def dayMs : ℤ := 24 * 60 * 60 * 1000

/-- What the code here does not settle. -/
structure Surroundings where
  /-- `REPORT_RETENTION_DAYS` -/
  retentionDays : ℕ
  /-- the files on which `storage.delete` throws -/
  fails : String → Bool
  /-- `orderBy: { createdAt: 'asc' }`; rows of one time come in any order, which may change from
  query to query -/
  arrange : ℕ → List Row → List Row
  arrange_perm (n : ℕ) (rows : List Row) : (arrange n rows).Perm rows
  arrange_sorted (n : ℕ) (rows : List Row) :
    (arrange n rows).Pairwise fun r r' => r.2.createdAt ≤ r'.2.createdAt

variable (env : Surroundings)

/-- The condition of the `findMany`. -/
def Report.expired (cutoff : Millis) (tenantId : Option Uuid) (report : Report) : Bool :=
  report.createdAt < cutoff ∧ (truthy tenantId).all (report.tenantId = ·)

/-- The variables of `prune`, and the number of queries so far. -/
structure Progress where
  store : Store
  deleted : ℕ := 0
  failed : ℕ := 0
  queries : ℕ := 0

/-- The `findMany`. -/
def findBatch (cutoff : Millis) (tenantId : Option Uuid) (p : Progress) : List Row :=
  ((env.arrange p.queries (p.store.reports.entries.filter fun row =>
    row.2.expired cutoff tenantId)).drop p.failed).take pruneBatch

/-- The variables of the inner loop. -/
structure Removal where
  store : Store
  removable : List Uuid := []
  failed : ℕ

/-- One row of a batch. -/
def deleteFile (r : Removal) (row : Row) : Removal :=
  match truthy row.2.storageKey with
  | none => { r with removable := r.removable ++ [row.1] }
  | some key =>
    let store := { r.store with deletions := r.store.deletions ++ [(row.1, key)] }
    if env.fails key then { r with store, failed := r.failed + 1 }
    else { r with store, removable := r.removable ++ [row.1] }

/-- `report.deleteMany`, with the number of rows that it deletes. -/
def deleteMany (s : Store) (ids : List Uuid) : Store × ℕ :=
  ({ s with reports := s.reports.keep fun id _ => id ∉ ids },
    (s.reports.entries.filter fun row => row.1 ∈ ids).length)

/-- One round of the loop, and whether another one follows. -/
def round (cutoff : Millis) (tenantId : Option Uuid) (p : Progress) : Progress × Bool :=
  let batch := findBatch env cutoff tenantId p
  if batch = [] then ({ p with queries := p.queries + 1 }, false)
  else
    let r := batch.foldl (deleteFile env) { store := p.store, failed := p.failed }
    let (store, count) := if r.removable = [] then (r.store, 0) else deleteMany r.store r.removable
    ({ store, deleted := p.deleted + count, failed := r.failed, queries := p.queries + 1 },
      ¬ batch.length < pruneBatch)

/-- The loop, for at most so many rounds. -/
def loop (cutoff : Millis) (tenantId : Option Uuid) : ℕ → Progress → Option Progress
  | 0, _ => none
  | fuel + 1, p =>
    let (p', again) := round env cutoff tenantId p
    if again then loop cutoff tenantId fuel p' else some p'

structure Result where
  deleted : ℕ
  /-- left out where nothing is pruned -/
  failed : Option ℕ
  retentionDays : ℕ
  cutoff : Option Millis
  deriving DecidableEq, Repr

/-- `prune`, for at most so many rounds. -/
def prune (fuel : ℕ) (now : Millis) (tenantId : Option Uuid) (s : Store) :
    Option (Store × Result) :=
  if env.retentionDays = 0 then
    some (s, { deleted := 0, failed := none, retentionDays := 0, cutoff := none })
  else
    let cutoff := now - env.retentionDays * dayMs
    (loop env cutoff tenantId fuel { store := s }).map fun p =>
      (p.store, { deleted := p.deleted, failed := some p.failed,
                  retentionDays := env.retentionDays, cutoff := some cutoff })

end PulseOps.ReportRetention
