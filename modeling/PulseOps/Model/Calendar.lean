import Mathlib.Algebra.Order.Ring.Int

/-!
# UTC days, weeks and months

The calendar behind `Date.UTC` and `date_trunc`: days are counted from the first of January
1970, weeks begin on Monday, and months are counted from January of the year 0.
-/

set_option autoImplicit false

namespace PulseOps.Calendar

def millisPerDay : ℤ := 24 * 60 * 60 * 1000

/-- The day of a point in time. -/
def dayOf (now : ℤ) : ℤ := now / millisPerDay

/-- The Monday of the week of a day. The first of January 1970 was a Thursday. -/
def mondayOf (day : ℤ) : ℤ := day - (day + 3) % 7

/-- The month of a day. Years are counted from March here, so that the leap day comes last. -/
def monthOf (day : ℤ) : ℤ :=
  let era := (day + 719468) / 146097
  let dayOfEra := (day + 719468) % 146097
  let yearOfEra := (dayOfEra - dayOfEra / 1460 + dayOfEra / 36524 - dayOfEra / 146096) / 365
  let dayOfYear := dayOfEra - (365 * yearOfEra + yearOfEra / 4 - yearOfEra / 100)
  12 * (400 * era + yearOfEra) + (5 * dayOfYear + 2) / 153 + 2

/-- The first day of a month. -/
def firstOfMonth (month : ℤ) : ℤ :=
  let year := (month - 2) / 12
  let yearOfEra := year % 400
  let dayOfYear := (153 * ((month - 2) % 12) + 2) / 5
  146097 * (year / 400) + 365 * yearOfEra + yearOfEra / 4 - yearOfEra / 100 + dayOfYear - 719468

/-- The last day of February 2024, and the day after it. -/
example : (monthOf 19782, monthOf 19783) = (12 * 2024 + 1, 12 * 2024 + 2) := by decide

example : firstOfMonth (12 * 2024 + 2) = 19783 := by decide

end PulseOps.Calendar
