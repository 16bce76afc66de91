import PulseOps.Model.ReportSchedules

/-!
# The texts of report periods

`latestCompletedPeriod` of `reports/report-schedules.service.js` as it computes with dates and
writes them. All its dates are at midnight in UTC, and each is the number of its day. A date that
`Date` does not reach is invalid, and `toISOString` throws on it.
-/

set_option autoImplicit false

namespace PulseOps.PeriodTexts

open Accounts (Millis)
open Calendar
open ReportSchedules (Frequency)

/-! ### Dates -/

def getUTCFullYear (d : ℤ) : ℤ := monthOf d / 12

/-- From 0. -/
def getUTCMonth (d : ℤ) : ℤ := monthOf d % 12

/-- From 1. -/
def getUTCDate (d : ℤ) : ℤ := d - firstOfMonth (monthOf d) + 1

/-- From 0, which is Sunday. -/
def getUTCDay (d : ℤ) : ℤ := (d + 4) % 7

/-- A `Date` reaches a hundred million days to both sides of 1970. -/
def timeClip (d : ℤ) : Option ℤ := if -100000000 ≤ d ∧ d ≤ 100000000 then some d else none

/-- `new Date(Date.UTC(year, month, date))`. A year of one or two digits is one of the twentieth
century. -/
def dateUTC (year month date : ℤ) : Option ℤ :=
  let fullYear := if 0 ≤ year ∧ year ≤ 99 then 1900 + year else year
  timeClip (firstOfMonth (12 * fullYear + month) + date - 1)

def addDays (d n : ℤ) : Option ℤ := dateUTC (getUTCFullYear d) (getUTCMonth d) (getUTCDate d + n)

/-! ### Texts -/

/-- A number with leading zeros. -/
def padded (width : ℕ) (n : ℤ) : List Char := (Nat.toDigits 10 n.natAbs).leftpad width '0'

/-- Years of more than four digits have a sign and six digits, and so have those before 0. -/
def yearText (year : ℤ) : List Char :=
  if 0 ≤ year ∧ year ≤ 9999 then padded 4 year
  else (if year < 0 then '-' else '+') :: padded 6 year

def toISOString (d : ℤ) : List Char :=
  yearText (getUTCFullYear d) ++ '-' :: (padded 2 (getUTCMonth d + 1) ++
    '-' :: (padded 2 (getUTCDate d) ++ "T00:00:00.000Z".toList))

def day (d : ℤ) : List Char := (toISOString d).take 10

/-! ### Periods -/

structure Period where
  key : List Char
  fromDay : List Char
  toDay : List Char
  deriving DecidableEq, Repr

def latestCompletedPeriod (frequency : Frequency) (now : Millis) : Option Period := do
  let d := dayOf now
  let today ← dateUTC (getUTCFullYear d) (getUTCMonth d) (getUTCDate d)
  match frequency with
  | .daily =>
    let yesterday ← addDays today (-1)
    pure ⟨day yesterday, day yesterday, day yesterday⟩
  | .weekly =>
    let sinceMonday := (getUTCDay today + 6) % 7
    let monday ← addDays today (-sinceMonday - 7)
    let sunday ← addDays monday 6
    pure ⟨"week-of-".toList ++ day monday, day monday, day sunday⟩
  | .monthly =>
    let first ← dateUTC (getUTCFullYear today) (getUTCMonth today - 1) 1
    let last ← dateUTC (getUTCFullYear today) (getUTCMonth today) 0
    pure ⟨(day first).take 7, day first, day last⟩

/-- The report of March 2024 for the whole of February. -/
example : latestCompletedPeriod .monthly (19790 * millisPerDay) =
    some ⟨"2024-02".toList, "2024-02-01".toList, "2024-02-29".toList⟩ := by
  decide +kernel

end PulseOps.PeriodTexts
