import PulseOps.Calendar.Tiling
import PulseOps.Model.Calendar
import Mathlib.Tactic.IntervalCases

/-!
# Days, weeks and months

The months have the lengths of the Gregorian calendar, and days, weeks and months cut the days
into pieces without a gap.

## Main definitions

* `leapYear`, `daysInMonth` — the rules of the calendar.
* `days`, `weeks`, `months` — the three cuts.

## Main results

* `firstOfMonth_succ` — each month starts where the one before it ends.
* `firstOfMonth_monthOf_le`, `lt_firstOfMonth_succ` — each day lies in its month.
-/

set_option autoImplicit false

namespace PulseOps.Calendar

/-! ### Lengths of months -/

def leapYear (year : ℤ) : Bool := year % 4 = 0 ∧ (year % 100 ≠ 0 ∨ year % 400 = 0)

/-- The days of a month, with February's by the year. -/
def daysInMonth (month : ℤ) : ℤ :=
  if month % 12 = 1 then if leapYear (month / 12) then 29 else 28
  else if month % 12 ∈ [3, 5, 8, 10] then 30
  else 31

/-- The start of the year from March to February, in days from the first of March of the year
0. -/
def startOfYear (year : ℤ) : ℤ := 365 * year + year / 4 - year / 100 + year / 400

theorem startOfYear_succ (year : ℤ) :
    startOfYear (year + 1) = startOfYear year + if leapYear (year + 1) then 366 else 365 := by
  unfold startOfYear leapYear
  split_ifs with h
  · simp at h
    omega
  · simp at h
    omega

theorem firstOfMonth_eq (month : ℤ) :
    firstOfMonth month =
      startOfYear ((month - 2) / 12) + (153 * ((month - 2) % 12) + 2) / 5 - 719468 := by
  unfold firstOfMonth startOfYear
  dsimp only
  generalize (month - 2) / 12 = year
  omega

/-- A month by its year and its place in it, both from March. -/
theorem firstOfMonth_parts (year k : ℤ) (hk : 0 ≤ k) (hk' : k < 12) :
    firstOfMonth (12 * year + k + 2) = startOfYear year + (153 * k + 2) / 5 - 719468 := by
  have hyear : (12 * year + k + 2 - 2) / 12 = year := by omega
  have hplace : (12 * year + k + 2 - 2) % 12 = k := by omega
  rw [firstOfMonth_eq, hyear, hplace]

theorem exists_month_parts (month : ℤ) :
    ∃ year k : ℤ, 0 ≤ k ∧ k < 12 ∧ month = 12 * year + k + 2 :=
  ⟨(month - 2) / 12, (month - 2) % 12, by omega, by omega, by omega⟩

/-- Each month starts where the one before it ends. -/
theorem firstOfMonth_succ (month : ℤ) :
    firstOfMonth (month + 1) = firstOfMonth month + daysInMonth month := by
  obtain ⟨year, k, hk, hk', rfl⟩ := exists_month_parts month
  rw [firstOfMonth_parts year k hk hk']
  by_cases hlast : k = 11
  · -- February, which the next year from March follows
    subst hlast
    have hnext : 12 * year + 11 + 2 + 1 = 12 * (year + 1) + 0 + 2 := by omega
    have hmonth : (12 * year + 11 + 2) % 12 = 1 := by omega
    have hyear : (12 * year + 11 + 2) / 12 = year + 1 := by omega
    rw [hnext, firstOfMonth_parts _ _ le_rfl (by decide), startOfYear_succ, daysInMonth, hmonth,
      hyear]
    split_ifs <;> omega
  · have hnext : 12 * year + k + 2 + 1 = 12 * year + (k + 1) + 2 := by omega
    have hmonth : (12 * year + k + 2) % 12 = (k + 2) % 12 := by omega
    rw [hnext, firstOfMonth_parts year (k + 1) (by omega) (by omega), daysInMonth, hmonth]
    interval_cases k <;> simp <;> omega

theorem daysInMonth_pos (month : ℤ) : 0 < daysInMonth month := by
  unfold daysInMonth
  split_ifs <;> decide

theorem daysInMonth_le (month : ℤ) : daysInMonth month ≤ 31 := by
  unfold daysInMonth
  split_ifs <;> decide

/-! ### The month of a day -/

/-- A day of the four hundred years by its century, its four years, its year and its place in the
year. Only a leap year has a day 365. -/
theorem exists_day_parts (n : ℤ) (hn : 0 ≤ n) (hn' : n < 146097) :
    ∃ b q t d : ℤ, n = 36524 * b + 1461 * q + 365 * t + d ∧ (0 ≤ b ∧ b ≤ 3) ∧
      (0 ≤ q ∧ q ≤ 24) ∧ (0 ≤ t ∧ t ≤ 3) ∧ (0 ≤ d ∧ d ≤ 365) ∧
      (d = 365 → t = 3 ∧ (q = 24 → b = 3)) := by
  obtain ⟨b, hb⟩ : ∃ b, b = min (n / 36524) 3 := ⟨_, rfl⟩
  obtain ⟨r, hr⟩ : ∃ r, r = n - 36524 * b := ⟨_, rfl⟩
  obtain ⟨q, hq⟩ : ∃ q, q = r / 1461 := ⟨_, rfl⟩
  obtain ⟨s, hs⟩ : ∃ s, s = r - 1461 * q := ⟨_, rfl⟩
  obtain ⟨t, ht⟩ : ∃ t, t = min (s / 365) 3 := ⟨_, rfl⟩
  have hcentury : 0 ≤ b ∧ b ≤ 3 := by omega
  have hrest : 0 ≤ r ∧ r ≤ 36524 ∧ (r = 36524 → b = 3) := by omega
  have hfour : 0 ≤ s ∧ s < 1461 := by omega
  refine ⟨b, q, t, s - 365 * t, by omega, hcentury, by omega, by omega, by omega, ?_⟩
  intro hd
  constructor
  · omega
  · intro hq24
    apply hrest.2.2
    omega

/-- The year of such a day, as `monthOf` finds it. -/
theorem yearOfEra_eq {n b q t d : ℤ} (hn : n = 36524 * b + 1461 * q + 365 * t + d)
    (hb : 0 ≤ b ∧ b ≤ 3) (hq : 0 ≤ q ∧ q ≤ 24) (ht : 0 ≤ t ∧ t ≤ 3) (hd : 0 ≤ d ∧ d ≤ 365)
    (hleap : d = 365 → t = 3 ∧ (q = 24 → b = 3)) :
    (n - n / 1460 + n / 36524 - n / 146096) / 365 = 100 * b + 4 * q + t := by
  have hera : n / 146096 = if n = 146096 then 1 else 0 := by split_ifs <;> omega
  have hcentury : n / 36524 = if n = 146096 then b + 1 else b := by split_ifs <;> omega
  have hfour : n / 1460 = 25 * b + q + (24 * b + q + 365 * t + d) / 1460 := by omega
  have hcarry : (24 * b + q + 365 * t + d) / 1460 = 0 ∨
      (24 * b + q + 365 * t + d) / 1460 = 1 ∧ t = 3 := by omega
  rw [hera, hcentury, hfour]
  split_ifs
  · omega
  · rcases hcarry with hnone | ⟨hone, rfl⟩
    · rw [hnone]
      omega
    · rw [hone]
      omega

/-- The start of a year by its four hundred years, its century, its four years and its year. -/
theorem startOfYear_parts {e b q t : ℤ} (hb : 0 ≤ b ∧ b ≤ 3) (hq : 0 ≤ q ∧ q ≤ 24)
    (ht : 0 ≤ t ∧ t ≤ 3) :
    startOfYear (400 * e + (100 * b + 4 * q + t)) =
      146097 * e + (36524 * b + 1461 * q + 365 * t) := by
  have hfour : (400 * e + (100 * b + 4 * q + t)) / 4 = 100 * e + 25 * b + q := by omega
  have hcentury : (400 * e + (100 * b + 4 * q + t)) / 100 = 4 * e + b := by omega
  have hera : (400 * e + (100 * b + 4 * q + t)) / 400 = e := by omega
  unfold startOfYear
  rw [hfour, hcentury, hera]
  omega

/-- The year that begins after such a year. -/
theorem startOfYear_parts_succ {e b q t d : ℤ} (hb : 0 ≤ b ∧ b ≤ 3) (hq : 0 ≤ q ∧ q ≤ 24)
    (ht : 0 ≤ t ∧ t ≤ 3) (hd : d ≤ 365) (hleap : d = 365 → t = 3 ∧ (q = 24 → b = 3)) :
    146097 * e + (36524 * b + 1461 * q + 365 * t) + d <
      startOfYear (400 * e + (100 * b + 4 * q + t) + 1) := by
  rw [startOfYear_succ, startOfYear_parts hb hq ht]
  by_cases hlast : d = 365
  · obtain ⟨rfl, hcentury⟩ := hleap hlast
    have hyear : leapYear (400 * e + (100 * b + 4 * q + 3) + 1) = true := by
      unfold leapYear
      have hfour : (400 * e + (100 * b + 4 * q + 3) + 1) % 4 = 0 := by omega
      by_cases hq24 : q = 24
      · have := hcentury hq24
        simp [hfour]
        omega
      · simp [hfour]
        omega
    rw [if_pos hyear]
    omega
  · split_ifs
    · omega
    · omega

/-- The month of a day by the four hundred years, the century, the four years, the year and the
place in it. -/
theorem monthOf_eq {day e b q t d : ℤ}
    (hday : day + 719468 = 146097 * e + (36524 * b + 1461 * q + 365 * t + d))
    (hrange : 36524 * b + 1461 * q + 365 * t + d < 146097) (hb : 0 ≤ b ∧ b ≤ 3)
    (hq : 0 ≤ q ∧ q ≤ 24) (ht : 0 ≤ t ∧ t ≤ 3) (hd : 0 ≤ d ∧ d ≤ 365)
    (hleap : d = 365 → t = 3 ∧ (q = 24 → b = 3)) :
    monthOf day = 12 * (400 * e + (100 * b + 4 * q + t)) + (5 * d + 2) / 153 + 2 := by
  have hera : (day + 719468) / 146097 = e := by omega
  have hrest : (day + 719468) % 146097 = 36524 * b + 1461 * q + 365 * t + d := by omega
  have hfour : (100 * b + 4 * q + t) / 4 = 25 * b + q := by omega
  have hcentury : (100 * b + 4 * q + t) / 100 = b := by omega
  have hinYear : 36524 * b + 1461 * q + 365 * t + d -
      (365 * (100 * b + 4 * q + t) + (25 * b + q) - b) = d := by omega
  unfold monthOf
  dsimp only
  rw [hrest, hera, yearOfEra_eq rfl hb hq ht hd hleap, hfour, hcentury, hinYear]

/-- The month of a day by its year and its place in it, and the day between the start of this
month and the end of the year. -/
theorem monthOf_parts (day : ℤ) :
    ∃ year k : ℤ, 0 ≤ k ∧ k < 12 ∧ monthOf day = 12 * year + k + 2 ∧
      startOfYear year + (153 * k + 2) / 5 ≤ day + 719468 ∧
      day + 719468 < startOfYear (year + 1) ∧
      (k < 11 → day + 719468 < startOfYear year + (153 * (k + 1) + 2) / 5) := by
  obtain ⟨e, n, hn, hn', hday⟩ : ∃ e n : ℤ, 0 ≤ n ∧ n < 146097 ∧ day + 719468 = 146097 * e + n :=
    ⟨(day + 719468) / 146097, (day + 719468) % 146097, by omega, by omega, by omega⟩
  obtain ⟨b, q, t, d, rfl, hb, hq, ht, hd, hleap⟩ := exists_day_parts n hn hn'
  have hstart := startOfYear_parts hb hq ht (e := e)
  have hnext := startOfYear_parts_succ hb hq ht hd.2 hleap (e := e)
  refine ⟨400 * e + (100 * b + 4 * q + t), (5 * d + 2) / 153, by omega, by omega,
    monthOf_eq hday hn' hb hq ht hd hleap, ?_, by omega, ?_⟩
  · rw [hstart]
    omega
  · intro hk
    rw [hstart]
    omega

/-- A month starts no later than its days. -/
theorem firstOfMonth_monthOf_le (day : ℤ) : firstOfMonth (monthOf day) ≤ day := by
  obtain ⟨year, k, hk, hk', hmonth, hfrom, -⟩ := monthOf_parts day
  rw [hmonth, firstOfMonth_parts year k hk hk']
  omega

/-- The next month starts after the days of a month. -/
theorem lt_firstOfMonth_succ (day : ℤ) : day < firstOfMonth (monthOf day + 1) := by
  obtain ⟨year, k, hk, hk', hmonth, -, hyear, hnext⟩ := monthOf_parts day
  rw [hmonth]
  by_cases hlast : k = 11
  · have hmarch : 12 * year + k + 2 + 1 = 12 * (year + 1) + 0 + 2 := by omega
    rw [hmarch, firstOfMonth_parts _ _ le_rfl (by decide)]
    omega
  · have hplace : 12 * year + k + 2 + 1 = 12 * year + (k + 1) + 2 := by omega
    rw [hplace, firstOfMonth_parts year (k + 1) (by omega) (by omega)]
    have := hnext (by omega)
    omega

/-! ### The three cuts -/

def days : Tiling where
  start := id
  index := id
  start_lt_succ n := Int.lt_succ n
  start_index_le _ := le_rfl
  lt_start_succ d := Int.lt_succ d

/-- Weeks from Monday to Sunday, counted from the week of the first of January 1970. -/
def weeks : Tiling where
  start n := 7 * n - 3
  index d := (d + 3) / 7
  start_lt_succ n := by omega
  start_index_le d := by omega
  lt_start_succ d := by omega

def months : Tiling where
  start := firstOfMonth
  index := monthOf
  start_lt_succ n := by
    have := daysInMonth_pos n
    rw [firstOfMonth_succ]
    omega
  start_index_le := firstOfMonth_monthOf_le
  lt_start_succ := lt_firstOfMonth_succ

end PulseOps.Calendar
