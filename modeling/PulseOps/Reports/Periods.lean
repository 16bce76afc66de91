import PulseOps.Model.ReportSchedules

/-!
# Each period once

A tick takes the clock when it starts and reads the schedules later. If another tick has
claimed a later period in between, the conditional update still finds the row as it was read,
and the schedule goes back to a period that has had its report. An update that resets the
period can be overtaken in the same way. As long as no turn writes a period that lies before
one it can know of, the periods of a schedule never go back and none is claimed twice.

## Main definitions

* `Recorded.Follows` — how a record may stand to an earlier one.
* `InOrder` — no turn writes an earlier period, or one of another frequency.

## Main results

* `periods_claimed_once` — under this condition the records of every run are in order.
-/

set_option autoImplicit false

open ReadCommitted

namespace PulseOps.ReportSchedules

open Accounts (Millis TenantStatus)

variable {env : Surroundings} {s s' : Db} {id : Uuid} {row : Schedule} {k k' : PeriodKey}

/-! ### Records in order -/

/-- A record of a schedule after another one: its period is no earlier, and a tick has claimed
another one. -/
def Recorded.Follows (r r' : Recorded) : Prop :=
  r.scheduleId = r'.scheduleId →
    ¬ r.period.Earlier r'.period ∧ (r.claimed = true → r.period ≠ r'.period)

/-- The last period that has been recorded for a schedule. -/
def lastRecorded (s : Db) (id : Uuid) : Option PeriodKey :=
  (s.recorded.find? (·.scheduleId = id)).map (·.period)

/-- Periods of one frequency are the same, or one is the earlier. -/
theorem PeriodKey.earlier_of_ne (hfrequency : k.frequency = k'.frequency) (hne : k ≠ k')
    (hnot : ¬ k.Earlier k') : k'.Earlier k := by
  obtain ⟨frequency, number⟩ := k
  obtain ⟨frequency', number'⟩ := k'
  simp only [Earlier, ne_eq, mk.injEq, not_and] at *
  refine ⟨hfrequency.symm, ?_⟩
  have := hne hfrequency
  have := hnot hfrequency
  omega

/-- What comes after the last record of a schedule comes after all of them. -/
theorem follows_of_later (hrecorded : s.recorded.Pairwise Recorded.Follows)
    (hlast : lastRecorded s id = some k) (hlater : k.Earlier k') (claimed : Bool) :
    ∀ r ∈ s.recorded, Recorded.Follows ⟨id, k', claimed⟩ r := by
  intro r hr hid
  obtain ⟨last, hfind, rfl⟩ := Option.map_eq_some_iff.mp hlast
  suffices ¬ last.period.Earlier r.period by
    constructor
    · rintro ⟨hfrequency, hnumber⟩
      apply this
      exact ⟨hlater.1.trans hfrequency, lt_trans hlater.2 hnumber⟩
    · rintro - rfl
      exact this hlater
  -- The last record is this one, or it follows this one.
  generalize s.recorded = records at hrecorded hfind hr
  induction hrecorded with
  | nil => cases hr
  | @cons a records ha _ ih =>
    rw [List.find?_cons] at hfind
    split at hfind
    next hsame =>
      cases hfind
      rcases List.mem_cons.mp hr with rfl | hr
      · exact fun h => lt_irrefl _ h.2
      · exact (ha r hr ((of_decide_eq_true hsame).trans hid)).1
    next hother =>
      rcases List.mem_cons.mp hr with rfl | hr
      · exact absurd (decide_eq_true hid.symm) (by simpa using hother)
      · exact ih hfind hr

/-- The schedule has a period, and it is one of its own frequency. -/
def Schedule.Dated (row : Schedule) (k : PeriodKey) : Prop :=
  row.lastPeriod = some k ∧ k.frequency = row.frequency

/-- The records are in order, and the rows have the last one of them. -/
structure Ordered (s : Db) : Prop where
  follows : s.recorded.Pairwise Recorded.Follows
  last {id : Uuid} {row : Schedule} (h : s.schedules.lookup id = some row) :
    ∃ k, row.Dated k ∧ lastRecorded s id = some k

/-- A write that records a period. -/
theorem Ordered.record (h : Ordered s) (hdated : row.Dated k) (claimed : Bool)
    (hfollows : ∀ r ∈ s.recorded, Recorded.Follows ⟨id, k, claimed⟩ r) :
    Ordered { s with
      schedules := s.schedules.insert id row
      recorded := ⟨id, k, claimed⟩ :: s.recorded } where
  follows := List.pairwise_cons.mpr ⟨hfollows, h.follows⟩
  last {id' row'} hrow' := by
    by_cases hid : id' = id
    · subst hid
      rw [AList.lookup_insert] at hrow'
      cases hrow'
      exact ⟨k, hdated, by simp [lastRecorded]⟩
    · rw [AList.lookup_insert_ne hid] at hrow'
      simpa [lastRecorded, Ne.symm hid] using h.last hrow'

/-- A write that leaves the period and the frequency as they are. -/
theorem Ordered.rewrite (h : Ordered s) {row' : Schedule}
    (hrow : s.schedules.lookup id = some row) (hperiod : row'.lastPeriod = row.lastPeriod)
    (hfrequency : row'.frequency = row.frequency) :
    Ordered { s with schedules := s.schedules.insert id row' } where
  follows := h.follows
  last {id' x} hx := by
    by_cases hid : id' = id
    · subst hid
      rw [AList.lookup_insert] at hx
      cases hx
      obtain ⟨k, hdated, hlast⟩ := h.last hrow
      exact ⟨k, ⟨hperiod.trans hdated.1, hdated.2.trans hfrequency.symm⟩, hlast⟩
    · rw [AList.lookup_insert_ne hid] at hx
      exact h.last hx

theorem Ordered.erase (h : Ordered s) (id : Uuid) :
    Ordered { s with schedules := s.schedules.erase id } where
  follows := h.follows
  last {id' row} hrow := by
    by_cases hid : id' = id
    · subst hid
      rw [AList.lookup_erase] at hrow
      cases hrow
    · rw [AList.lookup_erase_ne hid] at hrow
      exact h.last hrow

/-! ### One turn -/

/-- What a request brings along agrees with itself. -/
def Phase.Fits : Phase → Prop
  | .looping _ due | .running _ _ _ due | .requesting _ _ _ _ due | .noting _ _ _ due =>
    ∀ d ∈ due, ∃ k, d.schedule.Dated k
  | .updating data => ∀ f, data.frequency = some f →
      ∃ k, data.lastPeriod = some k ∧ k.frequency = f
  | .inserting row => ∃ k, row.Dated k
  | _ => True

/-- No turn writes a period that lies before one it can know of: a tick none before the one it
has read, and an update none before those recorded, nor one of another frequency than the
schedule has. -/
def InOrder (c : Interleaved Db Phase) : Request → Phase → Prop
  | .runDue, .looping now (head :: _) => ∀ k, head.schedule.lastPeriod = some k →
      ¬ (latestCompletedPeriod head.schedule.frequency now).key.Earlier k
  | .update _ _ id _, .updating data => ∀ k, data.lastPeriod = some k →
      (∀ row, c.store.schedules.lookup id = some row →
        data.frequency.getD row.frequency = k.frequency) ∧
      ∀ r ∈ c.store.recorded, r.scheduleId = id → ¬ k.Earlier r.period
  | _, _ => True

theorem fits_findDue (h : Ordered s) (now : Millis) :
    (Phase.looping now (findDue s)).Fits := by
  intro d hd
  simp only [findDue, List.mem_insertionSort, List.mem_map, List.mem_filter] at hd
  obtain ⟨e, ⟨he, -⟩, rfl⟩ := hd
  obtain ⟨k, hdated, -⟩ := h.last (AList.mem_lookup_iff.mpr he)
  exact ⟨k, hdated⟩

/-- **The claim** of a period that is not before the one that was read. -/
theorem Ordered.claim (h : Ordered s) {head : Due} {now : Millis}
    (hdated : ∃ k, head.schedule.Dated k) (hrow : claimable s head = some row)
    (hne : head.schedule.lastPeriod ≠
      some (latestCompletedPeriod head.schedule.frequency now).key)
    (hnot : ∀ k, head.schedule.lastPeriod = some k →
      ¬ (latestCompletedPeriod head.schedule.frequency now).key.Earlier k) :
    Ordered (claim s head.id row (latestCompletedPeriod head.schedule.frequency now).key now) := by
  obtain ⟨k, hk, hfrequency⟩ := hdated
  obtain ⟨hlookup, hsame⟩ := Option.filter_eq_some_iff.mp hrow
  obtain ⟨-, hperiod⟩ := of_decide_eq_true hsame
  obtain ⟨k', ⟨hk', hfrequency'⟩, hlast⟩ := h.last hlookup
  obtain rfl : k = k' := Option.some.inj (hk.symm.trans (hperiod.symm.trans hk'))
  have hlater : k.Earlier (latestCompletedPeriod head.schedule.frequency now).key := by
    apply PeriodKey.earlier_of_ne (by simp [hfrequency]) _ (hnot k hk)
    rintro heq
    exact hne (by rw [hk, heq])
  apply h.record ⟨rfl, ?_⟩ true (follows_of_later h.follows hlast hlater true)
  simp [← hfrequency', hfrequency]

/-- The periods that `update` computes are those of its frequency. -/
theorem fits_updateData (before : Schedule) (changes : Changes) (now : Millis) :
    (Phase.updating (updateData before changes now)).Fits := by
  intro f hf
  simp only [updateData] at hf ⊢
  split_ifs <;> simp [hf]

/-- The write of an update. -/
theorem Ordered.update (h : Ordered s) {data : UpdateData} (hfits : (Phase.updating data).Fits)
    (hrow : s.schedules.lookup id = some row)
    (hinOrder : ∀ k, data.lastPeriod = some k →
      (∀ row, s.schedules.lookup id = some row →
        data.frequency.getD row.frequency = k.frequency) ∧
      ∀ r ∈ s.recorded, r.scheduleId = id → ¬ k.Earlier r.period) :
    Ordered { s with
      schedules := s.schedules.insert id (data.apply row)
      recorded := (data.lastPeriod.toList.map fun period => ⟨id, period, false⟩) ++
        s.recorded } := by
  cases hperiod : data.lastPeriod with
  | none =>
    have hfrequency : data.frequency = none := by
      cases hfrequency : data.frequency with
      | none => rfl
      | some f =>
        obtain ⟨k, hk, -⟩ := hfits f hfrequency
        rw [hperiod] at hk
        cases hk
    exact h.rewrite hrow (by simp [UpdateData.apply, hperiod])
      (by simp [UpdateData.apply, hfrequency])
  | some k =>
    obtain ⟨hfrequency, hnot⟩ := hinOrder k hperiod
    apply h.record (k := k) ⟨by simp [UpdateData.apply, hperiod], (hfrequency row hrow).symm⟩
    intro r hr hid
    exact ⟨hnot r hr hid.symm, by simp⟩

/-- **One turn** that is in order. -/
theorem advance_ordered (env : Surroundings) {req : Request} {phase : Phase}
    {c : Interleaved Db Phase} (h : Ordered c.store) (hfits : phase.Fits)
    (hinOrder : InOrder c req phase) :
    Ordered (advance env req c.store phase).1 ∧ (advance env req c.store phase).2.Fits := by
  cases req with
  | wait millis => exact ⟨⟨h.follows, h.last⟩, hfits⟩
  | remove tenantId id =>
    cases phase with
    | arrived => simp only [advance, advanceRemove]; split <;> exact ⟨h, trivial⟩
    | removing =>
      simp only [advance, advanceRemove]
      split_ifs
      · exact ⟨h.erase id, trivial⟩
      · exact ⟨h, trivial⟩
    | _ => exact ⟨h, hfits⟩
  | create tenantId userId id body =>
    cases phase with
    | arrived =>
      simp only [advance, advanceCreate]
      split_ifs
      · exact ⟨h, _, rfl, by simp [createRow]⟩
      · exact ⟨h, trivial⟩
      · exact ⟨h, trivial⟩
    | inserting row =>
      obtain ⟨k, hdated⟩ := hfits
      simp only [advance, advanceCreate]
      split_ifs with hused
      · exact ⟨h, trivial⟩
      · refine ⟨?_, trivial⟩
        rw [hdated.1]
        apply h.record hdated
        intro r hr hid
        -- nothing has been recorded for a new schedule
        exact absurd (Or.inr (List.any_eq_true.mpr ⟨r, hr, decide_eq_true hid.symm⟩)) hused
    | _ => exact ⟨h, hfits⟩
  | update tenantId userId id changes =>
    cases phase with
    | arrived => simp only [advance, advanceUpdate]; split <;> exact ⟨h, trivial⟩
    | computing before =>
      simp only [advance, advanceUpdate]
      split
      · exact ⟨h, trivial⟩
      · exact ⟨h, fits_updateData before changes c.store.clock⟩
    | updating data =>
      simp only [advance, advanceUpdate]
      split
      next => exact ⟨h, trivial⟩
      next row hrow => exact ⟨h.update hfits hrow hinOrder, trivial⟩
    | _ => exact ⟨h, hfits⟩
  | runDue =>
    cases phase with
    | arrived => exact ⟨h, trivial⟩
    | finding now => exact ⟨h, fits_findDue h now⟩
    | looping now due =>
      cases due with
      | nil => exact ⟨h, trivial⟩
      | cons head due =>
        have hrest : ∀ d ∈ due, ∃ k, d.schedule.Dated k :=
          fun d hd => hfits d (List.mem_cons_of_mem _ hd)
        simp only [advance, advanceRunDue]
        split_ifs with hsame
        · exact ⟨h, hrest⟩
        · split
          next => exact ⟨h, hrest⟩
          next row hrow =>
            exact ⟨h.claim (hfits head (List.mem_cons_self ..)) hrow hsame hinOrder, hrest⟩
    | running now head period due =>
      simp only [advance, advanceRunDue]
      split <;> exact ⟨h, hfits⟩
    | requesting now head period userId due => exact ⟨h, hfits⟩
    | noting now head outcome due =>
      simp only [advance, advanceRunDue]
      split
      next => exact ⟨h, trivial⟩
      next row hrow =>
        cases outcome with
        | paused reason => exact ⟨h.rewrite hrow rfl rfl, hfits⟩
        | requested reportId => exact ⟨h.rewrite hrow rfl rfl, hfits⟩
        | failed message => exact ⟨h.rewrite hrow rfl rfl, trivial⟩
    | _ => exact ⟨h, hfits⟩

/-! ### Runs -/

variable {requests : List Request} {clock : Millis} {tenants : Table Uuid TenantStatus}
  {c : Interleaved Db Phase}

/-- The periods that ticks have claimed. -/
def claims (s : Db) : List (Uuid × PeriodKey) :=
  (s.recorded.filter (·.claimed)).map fun r => (r.scheduleId, r.period)

theorem Ordered.nodup_claims (h : Ordered s) : (claims s).Nodup := by
  have hclaimed : (s.recorded.filter (·.claimed)).Pairwise fun r r' =>
      (r.scheduleId, r.period) ≠ (r'.scheduleId, r'.period) := by
    rw [List.pairwise_filter]
    apply h.follows.imp
    intro r r' hfollows hr _ heq
    obtain ⟨hid, hperiod⟩ := Prod.mk.inj heq
    exact (hfollows hid).2 hr hperiod
  exact List.pairwise_map.mpr hclaimed

/-- In every run whose turns are in order. -/
theorem ordered_of_reaches
    (hc : Interleaved.Reaches (advance env) requests InOrder (start requests clock tenants) c) :
    Ordered c.store := by
  suffices Ordered c.store ∧ ∀ phase ∈ c.phases, phase.Fits from this.1
  refine hc.induction (P := fun c => Ordered c.store ∧ ∀ phase ∈ c.phases, Phase.Fits phase)
    ⟨⟨.nil, fun h => ?_⟩, ?_⟩ ?_
  · rw [start, AList.lookup_empty] at h
    cases h
  · intro phase hphase
    obtain ⟨_, _, rfl⟩ := List.mem_map.mp hphase
    trivial
  · intro c i req phase hreq hphase hinOrder hP
    obtain ⟨hordered, hfits⟩ := hP
    obtain ⟨hnext, hfitsNext⟩ :=
      advance_ordered env hordered (hfits phase (List.mem_of_getElem? hphase)) hinOrder
    refine ⟨hnext, fun phase' hphase' => ?_⟩
    rcases List.mem_or_eq_of_mem_set hphase' with hold | rfl
    · exact hfits phase' hold
    · exact hfitsNext

/-- **Each period once.** In every run whose turns are in order, the periods of a schedule never
go back, no period is claimed twice, and each schedule has the last period recorded for it. -/
theorem periods_claimed_once
    (hc : Interleaved.Reaches (advance env) requests InOrder (start requests clock tenants) c) :
    (c.store.recorded.Pairwise fun r r' =>
      r.scheduleId = r'.scheduleId → ¬ r.period.Earlier r'.period) ∧
    (claims c.store).Nodup ∧
    ∀ id row, c.store.schedules.lookup id = some row →
      row.lastPeriod = lastRecorded c.store id := by
  have hordered : Ordered c.store := ordered_of_reaches hc
  refine ⟨hordered.follows.imp fun h hid => (h hid).1, hordered.nodup_claims, ?_⟩
  intro id row hrow
  obtain ⟨k, hdated, hlast⟩ := hordered.last hrow
  rw [hdated.1, hlast]

namespace Sample

/-- All reports succeed. -/
def calm : Surroundings where
  activeStaff := fun _ _ ids => ids
  canRead := fun _ _ _ _ => true
  request := fun _ _ => .ok "report"

def shop : Table Uuid TenantStatus := (∅ : Table Uuid TenantStatus).insert "t" .active

/-- A daily schedule, three ticks, and days that pass. -/
def daily : List Request :=
  [ .create "t" "u" "s" { name := "Orders", type := .orders, frequency := .daily },
    .runDue, .runDue, .runDue, .wait 86400000 ]

/-- A schedule is made on the fourth day. On the fifth, one tick starts and is held up, and
another one claims the fourth. On the sixth, the third tick claims the fifth, and then the first
one goes on. -/
def overtaken : Interleaved Db Phase :=
  Interleaved.run (advance calm) daily (start daily (4 * 86400000) shop)
    [0, 0, 4, 1, 2, 2, 2, 4, 3, 3, 3, 1, 1]

/-- The condition, on a run without updates. -/
def inOrder (_ : Interleaved Db Phase) : Request → Phase → Bool
  | .runDue, .looping now (head :: _) => head.schedule.lastPeriod.all fun k =>
      !((latestCompletedPeriod head.schedule.frequency now).key.Earlier k)
  | .update .., .updating _ => false
  | _, _ => true

theorem inOrder_of_test {c : Interleaved Db Phase} {req : Request} {phase : Phase}
    (h : inOrder c req phase = true) : InOrder c req phase := by
  unfold InOrder
  split
  next now head due =>
    intro k hk
    simpa [inOrder, hk] using h
  next => cases h
  next => trivial

/-- Three ticks on two days, one after the other. -/
def inTurn : Interleaved Db Phase :=
  Interleaved.run (advance calm) daily (start daily (4 * 86400000) shop)
    [0, 0, 4, 1, 1, 1, 1, 1, 1, 1, 2, 2, 2, 4, 3, 3, 3, 3]

end Sample

open Sample

/-- The ticks of two days claim two periods. -/
theorem periods_claimed_once_daily :
    claims inTurn.store = [("s", ⟨.daily, 5⟩), ("s", ⟨.daily, 4⟩)] ∧
      (claims inTurn.store).Nodup := by
  have hreaches : Interleaved.Reaches (advance calm) daily InOrder
      (start daily (4 * 86400000) shop) inTurn :=
    Interleaved.Reaches.run (fun _ _ _ => inOrder_of_test) .refl _ (by decide +kernel)
  exact ⟨by decide +kernel, (periods_claimed_once hreaches).2.1⟩

/-- The tick that was held up takes the schedule back by a day, and claims this day again. -/
theorem period_claimed_twice :
    claims overtaken.store = [("s", ⟨.daily, 4⟩), ("s", ⟨.daily, 5⟩), ("s", ⟨.daily, 4⟩)] ∧
      ¬ (claims overtaken.store).Nodup ∧
      (overtaken.store.schedules.lookup "s").map (·.lastPeriod) = some (some ⟨.daily, 4⟩) := by
  have hclaims : claims overtaken.store =
      [("s", ⟨.daily, 4⟩), ("s", ⟨.daily, 5⟩), ("s", ⟨.daily, 4⟩)] := by
    decide +kernel
  refine ⟨hclaims, ?_, by decide +kernel⟩
  rw [hclaims]
  decide

end PulseOps.ReportSchedules
