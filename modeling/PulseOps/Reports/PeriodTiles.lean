import PulseOps.Calendar.Gregorian
import PulseOps.Model.PeriodTexts

/-!
# The periods of reports tile the calendar

The latest period to have ended before a day is the one before the period that the day lies in:
days, weeks and months are three cuts of the days. In the years from 100 to 9999 its texts name
it. `Date.UTC` takes the years before 100 for years of the twentieth century, and from the year
10000 on ten characters of an ISO date do not reach the day.

## Main definitions

* `Whole` — one day, one week from Monday to Sunday, or one calendar month.
* `Latest` — the last whole period to have ended before the day of an instant.
* `Written` — the days that four digits for the year suffice for.

## Main results

* `latestCompletedPeriod_eq` — in these years the period is written as it is.
* `day_injOn`, `keyText_injOn` — different days, and different periods, have different texts.
* `periods_tile` — as time passes, the periods follow one another without a gap.
-/

set_option autoImplicit false

namespace PulseOps.PeriodTexts

open Accounts (Millis)
open Calendar
open ReportSchedules (Frequency)

variable {d d' first last first' last' : ℤ} {now now' : Millis} {frequency : Frequency}

/-! ### Whole periods -/

/-- One day, one week from Monday to Sunday, or one calendar month. -/
def Whole (frequency : Frequency) (first last : ℤ) : Prop :=
  match frequency with
  | .daily => last = first
  | .weekly => getUTCDay first = 1 ∧ getUTCDay last = 0 ∧ last = first + 6
  | .monthly => getUTCDate first = 1 ∧ last + 1 = first + daysInMonth (monthOf first)

/-- The last whole period to have ended before the day of an instant. -/
structure Latest (frequency : Frequency) (now : Millis) (first last : ℤ) : Prop where
  whole : Whole frequency first last
  ended : last < dayOf now
  latest (first' last' : ℤ) (hwhole : Whole frequency first' last') (hended : last' < dayOf now) :
    first' ≤ first

/-- The cut of the days that a frequency stands for. -/
def tiling : Frequency → Tiling
  | .daily => days
  | .weekly => weeks
  | .monthly => months

/-- The whole periods are the pieces of the cut. -/
theorem whole_iff :
    Whole frequency first last ↔
      ∃ n, first = (tiling frequency).start n ∧ last = (tiling frequency).last n := by
  cases frequency with
  | daily =>
    constructor
    · intro h
      refine ⟨first, rfl, ?_⟩
      change last = first + 1 - 1
      change last = first at h
      omega
    · rintro ⟨n, hfirst, hlast⟩
      change first = n at hfirst
      change last = n + 1 - 1 at hlast
      change last = first
      omega
  -- day 0 is a Thursday, so the week `n` starts on day `7 * n - 3`
  | weekly =>
    constructor
    · intro h
      obtain ⟨hmonday, -, hlast⟩ : (first + 4) % 7 = 1 ∧ (last + 4) % 7 = 0 ∧ last = first + 6 := h
      refine ⟨(first + 3) / 7, ?_, ?_⟩
      · change first = 7 * ((first + 3) / 7) - 3
        omega
      · change last = 7 * ((first + 3) / 7 + 1) - 3 - 1
        omega
    · rintro ⟨n, rfl, rfl⟩
      change (7 * n - 3 + 4) % 7 = 1 ∧ (7 * (n + 1) - 3 - 1 + 4) % 7 = 0 ∧
        7 * (n + 1) - 3 - 1 = 7 * n - 3 + 6
      omega
  | monthly =>
    constructor
    · intro h
      obtain ⟨hfirst, hlast⟩ :
          getUTCDate first = 1 ∧ last + 1 = first + daysInMonth (monthOf first) := h
      have hstart : first = firstOfMonth (monthOf first) := by
        unfold getUTCDate at hfirst
        omega
      refine ⟨monthOf first, hstart, ?_⟩
      change last = firstOfMonth (monthOf first + 1) - 1
      rw [firstOfMonth_succ, ← hstart]
      omega
    · rintro ⟨n, rfl, rfl⟩
      have hmonth : monthOf (firstOfMonth n) = n := months.index_start n
      change firstOfMonth n - firstOfMonth (monthOf (firstOfMonth n)) + 1 = 1 ∧
        firstOfMonth (n + 1) - 1 + 1 = firstOfMonth n + daysInMonth (monthOf (firstOfMonth n))
      rw [hmonth, firstOfMonth_succ]
      omega

/-- The place of the last period to have ended. -/
def latestIndex (frequency : Frequency) (now : Millis) : ℤ :=
  (tiling frequency).index (dayOf now) - 1

theorem latest_iff :
    Latest frequency now first last ↔
      first = (tiling frequency).start (latestIndex frequency now) ∧
        last = (tiling frequency).last (latestIndex frequency now) := by
  have hended (n : ℤ) : (tiling frequency).last n < dayOf now ↔ n ≤ latestIndex frequency now := by
    rw [Tiling.last_lt_iff]
    unfold latestIndex
    omega
  constructor
  · intro h
    obtain ⟨n, rfl, rfl⟩ := whole_iff.mp h.whole
    have hle : n ≤ latestIndex frequency now := (hended n).mp h.ended
    have hge : latestIndex frequency now ≤ n := by
      apply (tiling frequency).start_strictMono.le_iff_le.mp
      exact h.latest _ _ (whole_iff.mpr ⟨_, rfl, rfl⟩) ((hended _).mpr le_rfl)
    rw [le_antisymm hle hge]
    exact ⟨rfl, rfl⟩
  · rintro ⟨rfl, rfl⟩
    constructor
    · exact whole_iff.mpr ⟨_, rfl, rfl⟩
    · exact (hended _).mpr le_rfl
    · intro first' last' hwhole hlast
      obtain ⟨n, rfl, rfl⟩ := whole_iff.mp hwhole
      exact (tiling frequency).start_strictMono.monotone ((hended n).mp hlast)

/-- There is always exactly one such period. -/
theorem latest_start (frequency : Frequency) (now : Millis) :
    Latest frequency now ((tiling frequency).start (latestIndex frequency now))
      ((tiling frequency).last (latestIndex frequency now)) :=
  latest_iff.mpr ⟨rfl, rfl⟩

theorem latest_daily_iff :
    Latest .daily now first last ↔ first = dayOf now - 1 ∧ last = dayOf now - 1 := by
  rw [latest_iff]
  change first = dayOf now - 1 ∧ last = dayOf now - 1 + 1 - 1 ↔ _
  rw [Int.sub_add_cancel]

theorem latest_weekly_iff :
    Latest .weekly now first last ↔
      first = mondayOf (dayOf now) - 7 ∧ last = mondayOf (dayOf now) - 1 := by
  rw [latest_iff]
  change first = 7 * ((dayOf now + 3) / 7 - 1) - 3 ∧
    last = 7 * ((dayOf now + 3) / 7 - 1 + 1) - 3 - 1 ↔ _
  unfold mondayOf
  omega

theorem latest_monthly_iff :
    Latest .monthly now first last ↔
      first = firstOfMonth (monthOf (dayOf now) - 1) ∧
        last = firstOfMonth (monthOf (dayOf now)) - 1 := by
  rw [latest_iff]
  change first = firstOfMonth (monthOf (dayOf now) - 1) ∧
    last = firstOfMonth (monthOf (dayOf now) - 1 + 1) - 1 ↔ _
  rw [Int.sub_add_cancel]

/-- The periods of the schedules are these. -/
theorem latest_completed (frequency : Frequency) (now : Millis) :
    Latest frequency now (ReportSchedules.latestCompletedPeriod frequency now).first
      (ReportSchedules.latestCompletedPeriod frequency now).last := by
  cases frequency with
  | daily => exact latest_daily_iff.mpr ⟨rfl, rfl⟩
  | weekly =>
    apply latest_weekly_iff.mpr
    refine ⟨rfl, ?_⟩
    change mondayOf (dayOf now) - 7 + 6 = _
    omega
  | monthly =>
    apply latest_monthly_iff.mpr
    refine ⟨rfl, ?_⟩
    change firstOfMonth (monthOf (dayOf now) - 1 + 1) - 1 = _
    rw [Int.sub_add_cancel]

/-! ### Texts of days -/

theorem length_padded {width : ℕ} {n : ℤ} (hwidth : 0 < width) (hn : n.natAbs < 10 ^ width) :
    (padded width n).length = width := by
  have hle := (Nat.length_toDigits_le_iff (b := 10) (by decide) hwidth).mpr hn
  rw [padded, List.length_leftpad]
  omega

/-- The digits are those of the number. -/
theorem ofDigitChars_padded (width : ℕ) (n : ℤ) :
    Nat.ofDigitChars 10 (padded width n) 0 = n.natAbs := by
  rw [padded, List.leftpad, Nat.ofDigitChars_append, Nat.ofDigitChars_replicate_zero, Nat.mul_zero,
    Nat.ofDigitChars_ten_toDigits]

theorem padded_injOn {width : ℕ} {n m : ℤ} (hn : 0 ≤ n) (hm : 0 ≤ m)
    (h : padded width n = padded width m) : n = m := by
  have hdigits := ofDigitChars_padded width n
  rw [h, ofDigitChars_padded] at hdigits
  omega

/-- The days whose year has no more than four digits. -/
def FourDigits (d : ℤ) : Prop := 0 ≤ getUTCFullYear d ∧ getUTCFullYear d ≤ 9999

theorem one_le_getUTCDate (d : ℤ) : 1 ≤ getUTCDate d := by
  have := firstOfMonth_monthOf_le d
  unfold getUTCDate
  omega

theorem getUTCDate_le (d : ℤ) : getUTCDate d ≤ 31 := by
  have hnext := lt_firstOfMonth_succ d
  have hlength := daysInMonth_le (monthOf d)
  rw [firstOfMonth_succ] at hnext
  unfold getUTCDate
  omega

theorem day_eq (h : FourDigits d) :
    day d = padded 4 (getUTCFullYear d) ++ '-' :: (padded 2 (getUTCMonth d + 1) ++
      '-' :: padded 2 (getUTCDate d)) := by
  obtain ⟨hlow, hhigh⟩ := h
  have hyear : (padded 4 (getUTCFullYear d)).length = 4 := length_padded (by decide) (by omega)
  have hmonth : (padded 2 (getUTCMonth d + 1)).length = 2 := by
    apply length_padded (by decide)
    unfold getUTCMonth
    omega
  have hdate : (padded 2 (getUTCDate d)).length = 2 := by
    have := one_le_getUTCDate d
    have := getUTCDate_le d
    exact length_padded (by decide) (by omega)
  have htext : toISOString d = (padded 4 (getUTCFullYear d) ++ '-' ::
      (padded 2 (getUTCMonth d + 1) ++ '-' :: padded 2 (getUTCDate d))) ++
        "T00:00:00.000Z".toList := by
    simp [toISOString, yearText, hlow, hhigh]
  rw [day, htext]
  apply List.take_left'
  simp [hyear, hmonth, hdate]

/-- The month of a day, as its text begins. -/
theorem take_day (h : FourDigits d) :
    (day d).take 7 = padded 4 (getUTCFullYear d) ++ '-' :: padded 2 (getUTCMonth d + 1) := by
  have htext : day d = (padded 4 (getUTCFullYear d) ++ '-' :: padded 2 (getUTCMonth d + 1)) ++
      '-' :: padded 2 (getUTCDate d) := by
    simp [day_eq h]
  have hyear : (padded 4 (getUTCFullYear d)).length = 4 :=
    length_padded (by decide) (by have := h.1; have := h.2; omega)
  have hmonth : (padded 2 (getUTCMonth d + 1)).length = 2 := by
    apply length_padded (by decide)
    unfold getUTCMonth
    omega
  rw [htext]
  apply List.take_left'
  simp [hyear, hmonth]

/-- Days of different months have texts that begin differently. -/
theorem monthOf_eq_of_take (h : FourDigits d) (h' : FourDigits d')
    (htext : (day d).take 7 = (day d').take 7) : monthOf d = monthOf d' := by
  rw [take_day h, take_day h'] at htext
  have hlength : (padded 4 (getUTCFullYear d)).length = (padded 4 (getUTCFullYear d')).length := by
    rw [length_padded (by decide) (by have := h.1; have := h.2; omega),
      length_padded (by decide) (by have := h'.1; have := h'.2; omega)]
  obtain ⟨hyear, hmonth⟩ := List.append_inj htext hlength
  have hyear' := padded_injOn h.1 h'.1 hyear
  have hmonth' := padded_injOn (by unfold getUTCMonth; omega) (by unfold getUTCMonth; omega)
    (List.cons.inj hmonth).2
  unfold getUTCFullYear at hyear'
  unfold getUTCMonth at hmonth'
  omega

/-- Different days have different texts. -/
theorem day_injOn (h : FourDigits d) (h' : FourDigits d') (htext : day d = day d') : d = d' := by
  have hmonth : monthOf d = monthOf d' := monthOf_eq_of_take h h' (by rw [htext])
  have hyear : getUTCFullYear d = getUTCFullYear d' := by
    rw [getUTCFullYear, hmonth, getUTCFullYear]
  have hplace : getUTCMonth d = getUTCMonth d' := by rw [getUTCMonth, hmonth, getUTCMonth]
  rw [day_eq h, day_eq h', hyear, hplace] at htext
  have hrest := (List.cons.inj (List.append_cancel_left htext)).2
  have hdigits := (List.cons.inj (List.append_cancel_left hrest)).2
  have hone := one_le_getUTCDate d
  have hone' := one_le_getUTCDate d'
  have hdate : getUTCDate d = getUTCDate d' := padded_injOn (by omega) (by omega) hdigits
  unfold getUTCDate at hdate
  rw [hmonth] at hdate
  omega

/-! ### Texts of periods -/

theorem getUTCFullYear_mono (h : d ≤ d') : getUTCFullYear d ≤ getUTCFullYear d' := by
  have hmonth : monthOf d ≤ monthOf d' := months.index_mono h
  unfold getUTCFullYear
  omega

theorem timeClip_eq_some (hlow : 100 ≤ getUTCFullYear d) (hlast : getUTCFullYear last ≤ 9999)
    (hhigh : d ≤ last + 31) : timeClip d = some d := by
  have hfrom : firstOfMonth 1200 ≤ d := by
    apply months.start_le_iff.mpr
    change 1200 ≤ monthOf d
    unfold getUTCFullYear at hlow
    omega
  have hto : last < firstOfMonth 120000 := by
    apply months.lt_start_iff.mpr
    change monthOf last < 120000
    unfold getUTCFullYear at hlast
    omega
  have hfirst : firstOfMonth 1200 = -683003 := by decide
  have hend : firstOfMonth 120000 = 2932897 := by decide
  exact if_pos (by omega)

theorem dateUTC_eq {year : ℤ} (h : 100 ≤ year) (month date : ℤ) :
    dateUTC year month date = timeClip (firstOfMonth (12 * year + month) + date - 1) := by
  unfold dateUTC
  rw [if_neg (by omega)]

theorem month_parts (d : ℤ) : 12 * getUTCFullYear d + getUTCMonth d = monthOf d := by
  unfold getUTCFullYear getUTCMonth
  omega

theorem addDays_eq (h : 100 ≤ getUTCFullYear d) (n : ℤ) : addDays d n = timeClip (d + n) := by
  rw [addDays, dateUTC_eq h, month_parts, getUTCDate]
  congr 1
  omega

theorem midnight_eq (h : 100 ≤ getUTCFullYear d) :
    dateUTC (getUTCFullYear d) (getUTCMonth d) (getUTCDate d) = timeClip d := by
  rw [dateUTC_eq h, month_parts, getUTCDate]
  congr 1
  omega

/-- The day of the instant is not far from the last period. -/
theorem dayOf_le (h : Latest frequency now first last) : dayOf now ≤ last + 31 := by
  cases frequency with
  | daily =>
    obtain ⟨-, rfl⟩ := latest_daily_iff.mp h
    omega
  | weekly =>
    obtain ⟨-, rfl⟩ := latest_weekly_iff.mp h
    unfold mondayOf
    omega
  | monthly =>
    obtain ⟨-, rfl⟩ := latest_monthly_iff.mp h
    have hnext := lt_firstOfMonth_succ (dayOf now)
    have hlength := daysInMonth_le (monthOf (dayOf now))
    rw [firstOfMonth_succ] at hnext
    omega

/-- The key of a period that begins on a day. -/
def keyText (frequency : Frequency) (first : ℤ) : List Char :=
  match frequency with
  | .daily => day first
  | .weekly => "week-of-".toList ++ day first
  | .monthly => (day first).take 7

/-- In these years the latest period is written as it is. -/
theorem latestCompletedPeriod_eq (h : Latest frequency now first last)
    (hfirst : 100 ≤ getUTCFullYear first) (hlast : getUTCFullYear last ≤ 9999) :
    latestCompletedPeriod frequency now =
      some ⟨keyText frequency first, day first, day last⟩ := by
  have hended : last < dayOf now := h.ended
  have hle : first ≤ last := by
    obtain ⟨rfl, rfl⟩ := latest_iff.mp h
    exact (tiling frequency).start_le_last _
  -- `Date.UTC` would read a year before 100 as one of the last century
  have hyear : 100 ≤ getUTCFullYear (dayOf now) :=
    le_trans hfirst (getUTCFullYear_mono (by omega))
  have hlast' : timeClip last = some last :=
    timeClip_eq_some (le_trans hfirst (getUTCFullYear_mono hle)) hlast (by omega)
  have hfirst' : timeClip first = some first := timeClip_eq_some hfirst hlast (by omega)
  have htoday : dateUTC (getUTCFullYear (dayOf now)) (getUTCMonth (dayOf now))
      (getUTCDate (dayOf now)) = some (dayOf now) := by
    rw [midnight_eq hyear, timeClip_eq_some hyear hlast (dayOf_le h)]
  unfold latestCompletedPeriod
  dsimp only
  rw [htoday]
  cases frequency with
  | daily =>
    obtain ⟨hfirstEq, hlastEq⟩ := latest_daily_iff.mp h
    have hyesterday : addDays (dayOf now) (-1) = some last := by
      rw [addDays_eq hyear, ← hlast', hlastEq, Int.sub_eq_add_neg]
    have hsame : first = last := by omega
    rw [Option.bind_eq_bind, Option.bind_some]
    dsimp only
    rw [hyesterday, Option.bind_some, hsame]
    rfl
  | weekly =>
    obtain ⟨hfirstEq, hlastEq⟩ := latest_weekly_iff.mp h
    have hmonday : addDays (dayOf now) (-((getUTCDay (dayOf now) + 6) % 7) - 7) = some first := by
      rw [addDays_eq hyear, ← hfirst', hfirstEq]
      congr 1
      unfold getUTCDay mondayOf
      omega
    have hsunday : addDays first 6 = some last := by
      rw [addDays_eq hfirst, ← hlast', hfirstEq, hlastEq]
      congr 1
      omega
    rw [Option.bind_eq_bind, Option.bind_some]
    dsimp only
    rw [hmonday, Option.bind_some, hsunday, Option.bind_some]
    rfl
  | monthly =>
    obtain ⟨hfirstEq, hlastEq⟩ := latest_monthly_iff.mp h
    have hparts := month_parts (dayOf now)
    have hbefore : 12 * getUTCFullYear (dayOf now) + (getUTCMonth (dayOf now) - 1) =
        monthOf (dayOf now) - 1 := by omega
    have hstart : dateUTC (getUTCFullYear (dayOf now)) (getUTCMonth (dayOf now) - 1) 1 =
        some first := by
      rw [dateUTC_eq hyear, hbefore, ← hfirst', hfirstEq, Int.add_sub_cancel]
    have hend : dateUTC (getUTCFullYear (dayOf now)) (getUTCMonth (dayOf now)) 0 = some last := by
      rw [dateUTC_eq hyear, hparts, ← hlast', hlastEq, Int.add_zero]
    rw [Option.bind_eq_bind, Option.bind_some]
    dsimp only
    rw [hstart, Option.bind_some, hend, Option.bind_some]
    rfl

/-- Different periods have different keys. -/
theorem keyText_injOn (hwhole : Whole frequency first last) (hwhole' : Whole frequency first' last')
    (h : FourDigits first) (h' : FourDigits first')
    (hkey : keyText frequency first = keyText frequency first') : first = first' := by
  cases frequency with
  | daily => exact day_injOn h h' hkey
  | weekly => exact day_injOn h h' (List.append_cancel_left hkey)
  | monthly =>
    have hmonth : monthOf first = monthOf first' := monthOf_eq_of_take h h' hkey
    have hfirst : getUTCDate first = 1 := hwhole.1
    have hfirst' : getUTCDate first' = 1 := hwhole'.1
    unfold getUTCDate at hfirst hfirst'
    rw [hmonth] at hfirst
    omega

/-! ### As time passes -/

/-- What is returned at an instant: the texts of the days of the latest period. -/
structure Gives (frequency : Frequency) (now : Millis) (p : Period) (first last : ℤ) : Prop where
  returned : latestCompletedPeriod frequency now = some p
  latest : Latest frequency now first last
  fromDay : p.fromDay = day first
  toDay : p.toDay = day last
  /-- The texts determine the days. -/
  digits : FourDigits first ∧ FourDigits last

/-- The latest period is one of the years from 100 to 9999. -/
def Dated (frequency : Frequency) (now : Millis) : Prop :=
  ∃ first last, Latest frequency now first last ∧ 100 ≤ getUTCFullYear first ∧
    getUTCFullYear last ≤ 9999

/-- The period at a place of the cut, as it is returned. -/
def periodAt (frequency : Frequency) (n : ℤ) : Period :=
  ⟨keyText frequency ((tiling frequency).start n), day ((tiling frequency).start n),
    day ((tiling frequency).last n)⟩

theorem gives_periodAt {n : ℤ} (hn : latestIndex frequency now = n)
    (hfirst : 100 ≤ getUTCFullYear ((tiling frequency).start n))
    (hlast : getUTCFullYear ((tiling frequency).last n) ≤ 9999) :
    Gives frequency now (periodAt frequency n) ((tiling frequency).start n)
      ((tiling frequency).last n) := by
  subst hn
  have hmono := getUTCFullYear_mono ((tiling frequency).start_le_last (latestIndex frequency now))
  constructor
  · exact latestCompletedPeriod_eq (latest_start frequency now) hfirst hlast
  · exact latest_start frequency now
  · rfl
  · rfl
  · unfold FourDigits
    omega

/-- The years of the latest period, by its place. -/
theorem Dated.years (h : Dated frequency now) :
    100 ≤ getUTCFullYear ((tiling frequency).start (latestIndex frequency now)) ∧
      getUTCFullYear ((tiling frequency).last (latestIndex frequency now)) ≤ 9999 := by
  obtain ⟨first, last, hlatest, hyears⟩ := h
  obtain ⟨rfl, rfl⟩ := latest_iff.mp hlatest
  exact hyears

theorem latestIndex_mono (h : now ≤ now') :
    latestIndex frequency now ≤ latestIndex frequency now' := by
  have hday : dayOf now ≤ dayOf now' := Int.ediv_le_ediv (by decide) h
  have := (tiling frequency).index_mono hday
  unfold latestIndex
  omega

/-- Between two instants every place between theirs is the latest one once. -/
theorem exists_instant {n : ℤ} (hle : now ≤ now') (hn : latestIndex frequency now ≤ n)
    (hn' : n ≤ latestIndex frequency now') :
    ∃ t, now ≤ t ∧ t ≤ now' ∧ latestIndex frequency t = n := by
  rcases eq_or_lt_of_le hn with heq | hlt
  · exact ⟨now, le_rfl, hle, heq⟩
  · -- the midnight after the period
    have hfrom : dayOf now < (tiling frequency).start (n + 1) := by
      apply (tiling frequency).lt_start_iff.mpr
      unfold latestIndex at hlt
      omega
    have hto : (tiling frequency).start (n + 1) ≤ dayOf now' := by
      apply (tiling frequency).start_le_iff.mpr
      unfold latestIndex at hn'
      omega
    have hday : dayOf ((tiling frequency).start (n + 1) * millisPerDay) =
        (tiling frequency).start (n + 1) := Int.mul_ediv_cancel _ (by decide)
    refine ⟨(tiling frequency).start (n + 1) * millisPerDay, ?_, ?_, ?_⟩
    · exact le_of_lt ((Int.ediv_lt_iff_lt_mul (by decide)).mp hfrom)
    · exact (Int.le_ediv_iff_mul_le (by decide)).mp hto
    · rw [latestIndex, hday, Tiling.index_start]
      omega

/-- Of two instants of these years, the periods are the same, or the earlier one ends before the
other begins and has another key. In between the next period is returned too, and so is the
period of every day. -/
theorem periods_tile (frequency : Frequency) (now now' : Millis) (hle : now ≤ now')
    (h : Dated frequency now) (h' : Dated frequency now') :
    ∃ p p' first last first' last',
      Gives frequency now p first last ∧ Gives frequency now' p' first' last' ∧
      (p = p' ∧ first = first' ∧ last = last' ∨
        p.key ≠ p'.key ∧ last < first' ∧
        (∃ t q end', now ≤ t ∧ t ≤ now' ∧ Gives frequency t q (last + 1) end') ∧
        ∀ d, first ≤ d → d ≤ last' →
          ∃ t q start end', now ≤ t ∧ t ≤ now' ∧ Gives frequency t q start end' ∧
            start ≤ d ∧ d ≤ end') := by
  obtain ⟨hfirst, hlast⟩ := h.years
  obtain ⟨hfirst', hlast'⟩ := h'.years
  have hmono : latestIndex frequency now ≤ latestIndex frequency now' := latestIndex_mono hle
  generalize hi : latestIndex frequency now = i at *
  generalize hi' : latestIndex frequency now' = i' at *
  have hgives := gives_periodAt hi hfirst hlast
  have hgives' := gives_periodAt hi' hfirst' hlast'
  -- every place in between is in these years as well
  have hbetween (n : ℤ) (hn : i ≤ n) (hn' : n ≤ i') :
      ∃ t, now ≤ t ∧ t ≤ now' ∧ Gives frequency t (periodAt frequency n)
        ((tiling frequency).start n) ((tiling frequency).last n) := by
    obtain ⟨t, hfrom, hto, ht⟩ : ∃ t, now ≤ t ∧ t ≤ now' ∧ latestIndex frequency t = n :=
      exists_instant hle (hi ▸ hn) (hi' ▸ hn')
    have hlow := getUTCFullYear_mono ((tiling frequency).start_strictMono.monotone hn)
    have hend : (tiling frequency).last n ≤ (tiling frequency).last i' := by
      have := (tiling frequency).start_strictMono.monotone (show n + 1 ≤ i' + 1 by omega)
      unfold Tiling.last
      omega
    have hhigh := getUTCFullYear_mono hend
    exact ⟨t, hfrom, hto, gives_periodAt ht (by omega) (by omega)⟩
  refine ⟨_, _, _, _, _, _, hgives, hgives', ?_⟩
  rcases eq_or_lt_of_le hmono with rfl | hlt
  · exact .inl ⟨rfl, rfl, rfl⟩
  · right
    refine ⟨?_, (tiling frequency).last_lt_start hlt, ?_, ?_⟩
    · intro hkey
      have hsame := keyText_injOn hgives.latest.whole hgives'.latest.whole hgives.digits.1
        hgives'.digits.1 hkey
      have := (tiling frequency).start_strictMono.injective hsame
      omega
    · obtain ⟨t, hfrom, hto, ht⟩ := hbetween (i + 1) (by omega) (by omega)
      rw [Tiling.last_add_one]
      exact ⟨t, _, _, hfrom, hto, ht⟩
    · intro d hd hd'
      have hplace : i ≤ (tiling frequency).index d := (tiling frequency).start_le_iff.mp hd
      have hplace' : (tiling frequency).index d ≤ i' := by
        by_contra hlater
        have := (tiling frequency).last_lt_iff.mpr (not_le.mp hlater)
        omega
      obtain ⟨t, hfrom, hto, ht⟩ := hbetween _ hplace hplace'
      obtain ⟨hstart, hend⟩ :=
        (tiling frequency).index_eq_iff.mp (rfl : _ = (tiling frequency).index d)
      exact ⟨t, _, _, _, hfrom, hto, ht, hstart, hend⟩

theorem dated_of_years
    (hfirst : 100 ≤ getUTCFullYear ((tiling frequency).start (latestIndex frequency now)))
    (hlast : getUTCFullYear ((tiling frequency).last (latestIndex frequency now)) ≤ 9999) :
    Dated frequency now :=
  ⟨_, _, latest_start frequency now, hfirst, hlast⟩

/-- The monthly reports from a day of March 2024 to a day of January 2025. -/
theorem months_of_2024_tile :
    ∃ p p' first last first' last',
      Gives .monthly (19790 * millisPerDay) p first last ∧
      Gives .monthly (20100 * millisPerDay) p' first' last' ∧
      (p = p' ∧ first = first' ∧ last = last' ∨
        p.key ≠ p'.key ∧ last < first' ∧
        (∃ t q end', 19790 * millisPerDay ≤ t ∧ t ≤ 20100 * millisPerDay ∧
          Gives .monthly t q (last + 1) end') ∧
        ∀ d, first ≤ d → d ≤ last' →
          ∃ t q start end', 19790 * millisPerDay ≤ t ∧ t ≤ 20100 * millisPerDay ∧
            Gives .monthly t q start end' ∧ start ≤ d ∧ d ≤ end') :=
  periods_tile .monthly (19790 * millisPerDay) (20100 * millisPerDay) (by decide)
    (dated_of_years (by decide) (by decide)) (dated_of_years (by decide) (by decide))

/-- On the fifteenth of June of the year 50 the report is for a day of 1950. In January of the
year 10000 the reports of two days have the same key. -/
theorem periods_of_other_years :
    (∃ p d,
      latestCompletedPeriod .daily ((firstOfMonth (12 * 50 + 5) + 14) * millisPerDay) = some p ∧
      p.fromDay = day d ∧ p.toDay = day d ∧ FourDigits d ∧ getUTCFullYear d = 1950) ∧
    ∃ p p',
      latestCompletedPeriod .daily ((firstOfMonth (12 * 10000) + 2) * millisPerDay) = some p ∧
      latestCompletedPeriod .daily ((firstOfMonth (12 * 10000) + 3) * millisPerDay) = some p' ∧
      Latest .daily ((firstOfMonth (12 * 10000) + 2) * millisPerDay)
        (firstOfMonth (12 * 10000) + 1) (firstOfMonth (12 * 10000) + 1) ∧
      Latest .daily ((firstOfMonth (12 * 10000) + 3) * millisPerDay)
        (firstOfMonth (12 * 10000) + 2) (firstOfMonth (12 * 10000) + 2) ∧
      p.key = p'.key := by
  refine ⟨⟨⟨"1950-06-14".toList, "1950-06-14".toList, "1950-06-14".toList⟩,
    firstOfMonth (12 * 1950 + 5) + 13, ?_⟩, ⟨"+010000-01".toList, "+010000-01".toList,
    "+010000-01".toList⟩, ⟨"+010000-01".toList, "+010000-01".toList, "+010000-01".toList⟩, ?_⟩
  · refine ⟨by decide +kernel, by decide +kernel, by decide +kernel, ⟨?_, ?_⟩, ?_⟩
    · decide
    · decide
    · decide
  · refine ⟨by decide +kernel, by decide +kernel, ?_, ?_, rfl⟩
    · exact latest_daily_iff.mpr ⟨by decide, by decide⟩
    · exact latest_daily_iff.mpr ⟨by decide, by decide⟩

end PulseOps.PeriodTexts
