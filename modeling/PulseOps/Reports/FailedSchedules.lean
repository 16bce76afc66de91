import PulseOps.Model.ReportSchedules
import PulseOps.ReadCommitted.Tables

/-!
# A schedule that fails

A tick claims the period of a schedule before it asks for the report. If the request is refused
with a 403 the schedule is paused, and the tick goes on. Any other error is thrown out of the
loop: the schedules that come later are not looked at in this tick, and the one that failed has
the period without a report, so that it is not due for it again.

So a tick keeps what a failure does to the schedule that fails if and only if no request of a
due schedule throws anything but a 403.

## Main definitions

* `Answers` — what the staff tables and the report requests answer during a tick.
* `Isolated` — every due schedule is processed, or has failed and is still due or paused.

## Main results

* `tick_process` — what a tick does for one due schedule.
* `tick_looping` — where the loop ends, and in what state.
* `isolated_iff` — when failures are isolated.
* `first_failure_ends_tick` — two schedules of which the first one fails.
-/

set_option autoImplicit false

open ReadCommitted

namespace PulseOps.ReportSchedules

open Accounts (Millis TenantStatus)

/-- What is answered during a tick. It does not depend on the schedules, which are all that a
tick writes. -/
structure Answers where
  activeStaff : Uuid → List Uuid → List Uuid
  request : ReportRequest → Except RequestError Uuid

/-- A tick does not ask who may read. -/
def Answers.surroundings (a : Answers) : Surroundings where
  activeStaff _ := a.activeStaff
  canRead _ _ _ _ := false
  request _ := a.request

variable {a : Answers} {s s' : Db} {now : Millis} {d : Due} {todo : List Due}

/-- One turn of a tick. -/
def tick (a : Answers) (x : Db × Phase) : Db × Phase := advance a.surroundings .runDue x.1 x.2

/-! ### One due schedule -/

def Due.period (d : Due) (now : Millis) : Period := latestCompletedPeriod d.schedule.frequency now

/-- The schedule has not run for the latest period. -/
def Due.waits (d : Due) (now : Millis) : Prop := d.schedule.lastPeriod ≠ some (d.period now).key

/-- The creator, if still active. -/
def creator (a : Answers) (d : Due) : Option Uuid :=
  d.schedule.createdBy.filter fun userId => a.activeStaff d.schedule.tenantId [userId] ≠ []

/-- The report request of a schedule throws. -/
def Throws (a : Answers) (now : Millis) (d : Due) (e : RequestError) : Prop :=
  ∃ userId, creator a d = some userId ∧
    a.request (reportRequest d (d.period now) userId) = .error e

/-- What `runOne` writes for a schedule. -/
def outcome (a : Answers) (now : Millis) (d : Due) : Outcome :=
  match creator a d with
  | none => .paused creatorGone
  | some userId =>
    outcomeOf d.schedule.type (a.request (reportRequest d (d.period now) userId))

/-- The row after `runOne`. -/
def processedRow (a : Answers) (now : Millis) (d : Due) : Schedule :=
  (outcome a now d).apply
    { d.schedule with lastPeriod := some (d.period now).key, lastRunAt := some now }

theorem outcome_failed_iff :
    (∃ message, outcome a now d = .failed message) ↔
      ∃ e, Throws a now d e ∧ e.statusCode ≠ some 403 := by
  unfold outcome Throws
  cases hcreator : creator a d with
  | none => simp
  | some userId =>
    cases hanswer : a.request (reportRequest d (d.period now) userId) with
    | ok reportId => simp [outcomeOf, hanswer]
    | error e =>
      by_cases hstatus : e.statusCode = some 403
      · simp [outcomeOf, hstatus, hanswer]
      · simp [outcomeOf, hstatus, hanswer]

/-- A refusal with a 403 pauses the schedule and says why. -/
theorem processedRow_of_403 {e : RequestError} (h : Throws a now d e)
    (hstatus : e.statusCode = some 403) :
    (processedRow a now d).enabled = false ∧
      (processedRow a now d).lastError = some (creatorForbidden d.schedule.type) := by
  obtain ⟨userId, hcreator, hanswer⟩ := h
  simp [processedRow, outcome, hcreator, hanswer, outcomeOf, hstatus, Outcome.apply]

/-- After any other error the schedule has its period and is not paused. -/
theorem processedRow_of_failed {message : String} (h : outcome a now d = .failed message) :
    (processedRow a now d).lastPeriod = some (d.period now).key ∧
      (processedRow a now d).enabled = d.schedule.enabled := by
  simp [processedRow, h, Outcome.apply]

/-! ### The turns of a tick -/

/-- The row is as the tick has read it, and it is enabled. -/
def Unchanged (s : Db) (d : Due) : Prop :=
  s.schedules.lookup d.id = some d.schedule ∧ d.schedule.enabled = true

theorem claimable_of_unchanged (h : Unchanged s d) : claimable s d = some d.schedule := by
  simp [claimable, h.1, h.2]

/-- The database after a schedule has been processed. -/
def process (a : Answers) (now : Millis) (s : Db) (d : Due) : Db :=
  let claimed := claim s d.id d.schedule (d.period now).key now
  { claimed with schedules := claimed.schedules.insert d.id (processedRow a now d) }

theorem lookup_process (s : Db) (d : Due) (id : Uuid) :
    (process a now s d).schedules.lookup id =
      if id = d.id then some (processedRow a now d) else s.schedules.lookup id := by
  by_cases hid : id = d.id
  · subst hid
    simp [process]
  · simp [process, claim, hid]

theorem tick_skip (h : ¬ d.waits now) :
    tick a (s, .looping now (d :: todo)) = (s, .looping now todo) := by
  have hsame : d.schedule.lastPeriod = some (latestCompletedPeriod d.schedule.frequency now).key :=
    not_not.mp h
  simp [tick, advance, advanceRunDue, hsame]

/-- What a tick does for a due schedule, in three or four turns. -/
theorem tick_process (hwaits : d.waits now) (h : Unchanged s d) :
    ∃ n, (tick a)^[n] (s, .looping now (d :: todo)) =
      (process a now s d, (outcome a now d).next now todo) := by
  have hclaim : tick a (s, .looping now (d :: todo)) =
      (claim s d.id d.schedule (d.period now).key now, .running now d (d.period now) todo) := by
    have hnew : ¬ d.schedule.lastPeriod =
        some (latestCompletedPeriod d.schedule.frequency now).key := hwaits
    simp [tick, advance, advanceRunDue, hnew, claimable_of_unchanged h, Due.period]
  -- the outcome is written into the claimed row
  have hnote (o : Outcome) (ho : o = outcome a now d) :
      tick a (claim s d.id d.schedule (d.period now).key now, .noting now d o todo) =
        (process a now s d, o.next now todo) := by
    subst ho
    simp [tick, advance, advanceRunDue, process, claim, processedRow]
  cases hcreator : creator a d with
  | none =>
    have hrun : tick a (claim s d.id d.schedule (d.period now).key now,
        .running now d (d.period now) todo) =
          (claim s d.id d.schedule (d.period now).key now,
            .noting now d (.paused creatorGone) todo) := by
      have hfound : d.schedule.createdBy.filter (fun userId =>
          a.surroundings.activeStaff (claim s d.id d.schedule (d.period now).key now)
            d.schedule.tenantId [userId] ≠ []) = none := hcreator
      unfold tick advance advanceRunDue
      dsimp only
      rw [hfound]
    have ho : Outcome.paused creatorGone = outcome a now d := by rw [outcome, hcreator]
    refine ⟨3, ?_⟩
    rw [Function.iterate_succ_apply, hclaim, Function.iterate_succ_apply, hrun,
      Function.iterate_one, hnote _ ho, ho]
  | some userId =>
    have hrun : tick a (claim s d.id d.schedule (d.period now).key now,
        .running now d (d.period now) todo) =
          (claim s d.id d.schedule (d.period now).key now,
            .requesting now d (d.period now) userId todo) := by
      have hfound : d.schedule.createdBy.filter (fun userId =>
          a.surroundings.activeStaff (claim s d.id d.schedule (d.period now).key now)
            d.schedule.tenantId [userId] ≠ []) = some userId := hcreator
      unfold tick advance advanceRunDue
      dsimp only
      rw [hfound]
    have ho : outcomeOf d.schedule.type (a.request (reportRequest d (d.period now) userId)) =
        outcome a now d := by rw [outcome, hcreator]
    refine ⟨4, ?_⟩
    rw [Function.iterate_succ_apply, hclaim, Function.iterate_succ_apply, hrun,
      Function.iterate_succ_apply, Function.iterate_one]
    change tick a (_, .noting now d (outcomeOf d.schedule.type
      (a.request (reportRequest d (d.period now) userId))) todo) = _
    rw [hnote _ ho, ho]

/-- Where the loop ends. Without a failure every due schedule has been processed; with one, some
schedule that has failed was the last to be processed. -/
theorem tick_looping (hunchanged : ∀ d ∈ todo, Unchanged s d) (hnodup : (todo.map Due.id).Nodup) :
    ∃ n s' r, (tick a)^[n] (s, .looping now todo) = (s', .done r) ∧
      (∀ id, id ∉ todo.map Due.id → s'.schedules.lookup id = s.schedules.lookup id) ∧
      ((∀ d ∈ todo, d.waits now → ∀ message, outcome a now d ≠ .failed message) →
        ∀ d ∈ todo, d.waits now → s'.schedules.lookup d.id = some (processedRow a now d)) ∧
      ((∃ d ∈ todo, d.waits now ∧ ∃ message, outcome a now d = .failed message) →
        ∃ d ∈ todo, d.waits now ∧ (∃ message, outcome a now d = .failed message) ∧
          s'.schedules.lookup d.id = some (processedRow a now d)) := by
  induction todo generalizing s with
  | nil => exact ⟨1, s, .ok (), rfl, by simp, by simp, by simp⟩
  | cons d todo ih =>
    have hfirst := hunchanged d List.mem_cons_self
    rw [List.map_cons, List.nodup_cons] at hnodup
    by_cases hwaits : d.waits now
    · obtain ⟨n, hn⟩ := @tick_process a s now d todo hwaits hfirst
      by_cases hfailed : ∃ message, outcome a now d = .failed message
      · -- the error is thrown on
        obtain ⟨message, hmessage⟩ := hfailed
        rw [hmessage] at hn
        refine ⟨n, _, _, hn, ?_, ?_, ?_⟩
        · intro id hid
          have hne : id ≠ d.id := fun h => hid (by simp [h])
          rw [lookup_process, if_neg hne]
        · intro hnone
          exact absurd hmessage (hnone d List.mem_cons_self hwaits message)
        · intro _
          refine ⟨d, List.mem_cons_self, hwaits, ⟨message, hmessage⟩, ?_⟩
          rw [lookup_process, if_pos rfl]
      · -- the schedule is done with, and the loop goes on with the others, which it has not touched
        have hnext : (outcome a now d).next now todo = .looping now todo := by
          cases ho : outcome a now d with
          | failed message => exact absurd ⟨message, ho⟩ hfailed
          | paused reason => rfl
          | requested reportId => rfl
        rw [hnext] at hn
        have hrest : ∀ d' ∈ todo, Unchanged (process a now s d) d' := by
          intro d' hd'
          have hne : d'.id ≠ d.id := fun h => hnodup.1 (h ▸ List.mem_map_of_mem hd')
          unfold Unchanged
          rw [lookup_process, if_neg hne]
          exact hunchanged d' (List.mem_cons_of_mem _ hd')
        obtain ⟨m, s', r, hm, hframe, hall, hsome⟩ := ih hrest hnodup.2
        refine ⟨m + n, s', r, ?_, ?_, ?_, ?_⟩
        · rw [Function.iterate_add_apply, hn, hm]
        · intro id hid
          rw [List.map_cons, List.mem_cons, not_or] at hid
          rw [hframe id hid.2, lookup_process, if_neg hid.1]
        · intro hnone d' hd' hwaits'
          rcases List.mem_cons.mp hd' with rfl | hd'
          · rw [hframe _ hnodup.1, lookup_process, if_pos rfl]
          · exact hall (fun x hx => hnone x (List.mem_cons_of_mem _ hx)) d' hd' hwaits'
        · rintro ⟨d', hd', hwaits', hfailed'⟩
          rcases List.mem_cons.mp hd' with rfl | hd'
          · exact absurd hfailed' hfailed
          · obtain ⟨x, hx, hrow⟩ := hsome ⟨d', hd', hwaits', hfailed'⟩
            exact ⟨x, List.mem_cons_of_mem _ hx, hrow⟩
    · -- a schedule whose period is done is passed over
      obtain ⟨m, s', r, hm, hframe, hall, hsome⟩ :=
        ih (fun d' hd' => hunchanged d' (List.mem_cons_of_mem _ hd')) hnodup.2
      refine ⟨m + 1, s', r, ?_, ?_, ?_, ?_⟩
      · rw [Function.iterate_add_apply, Function.iterate_one, tick_skip hwaits, hm]
      · intro id hid
        rw [List.map_cons, List.mem_cons, not_or] at hid
        exact hframe id hid.2
      · intro hnone d' hd' hwaits'
        rcases List.mem_cons.mp hd' with rfl | hd'
        · exact absurd hwaits' hwaits
        · exact hall (fun x hx => hnone x (List.mem_cons_of_mem _ hx)) d' hd' hwaits'
      · rintro ⟨d', hd', hwaits', hfailed'⟩
        rcases List.mem_cons.mp hd' with rfl | hd'
        · exact absurd hwaits' hwaits
        · obtain ⟨x, hx, hrow⟩ := hsome ⟨d', hd', hwaits', hfailed'⟩
          exact ⟨x, List.mem_cons_of_mem _ hx, hrow⟩

/-! ### The schedules that are due -/

theorem mem_findDue : d ∈ findDue s ↔
    s.schedules.lookup d.id = some d.schedule ∧ d.schedule.enabled = true ∧
      (s.tenants.lookup d.schedule.tenantId).any fun status =>
        status = .active ∨ status = .trial := by
  obtain ⟨id, row⟩ := d
  simp only [findDue, List.mem_insertionSort, List.mem_map, List.mem_filter, decide_eq_true_iff]
  constructor
  · rintro ⟨⟨id', row'⟩, ⟨hmem, henabled, htenant⟩, heq⟩
    cases heq
    exact ⟨AList.mem_entries_iff_lookup.mp hmem, henabled, htenant⟩
  · rintro ⟨hrow, henabled, htenant⟩
    exact ⟨⟨id, row⟩, ⟨AList.mem_entries_iff_lookup.mpr hrow, henabled, htenant⟩, rfl⟩

theorem nodup_findDue (s : Db) : ((findDue s).map Due.id).Nodup := by
  have hperm := (List.perm_insertionSort (fun d d' : Due => d.id ≤ d'.id)
    ((s.schedules.entries.filter fun e =>
      e.2.enabled ∧ (s.tenants.lookup e.2.tenantId).any fun status =>
        status = .active ∨ status = .trial).map fun e => ⟨e.1, e.2⟩)).map Due.id
  apply hperm.nodup_iff.mpr
  rw [List.map_map]
  exact List.Nodup.sublist (List.filter_sublist.map Sigma.fst) s.schedules.nodupKeys

/-! ### Failures -/

/-- The schedule is still due for the period. -/
def StillDue (s : Db) (id : Uuid) (period : Period) : Prop :=
  ∃ d ∈ findDue s, d.id = id ∧ d.schedule.lastPeriod ≠ some period.key

/-- The schedule is paused and says why. -/
def Paused (s : Db) (id : Uuid) : Prop :=
  ∃ row reason, s.schedules.lookup id = some row ∧ row.enabled = false ∧
    row.lastError = some reason

/-- A schedule whose request throws is still due after the tick, or paused; every other due
schedule has been processed. -/
def Isolated (a : Answers) (s s' : Db) : Prop :=
  ∀ d ∈ findDue s, d.waits s.clock →
    (∀ e, Throws a s.clock d e → StillDue s' d.id (d.period s.clock) ∨ Paused s' d.id) ∧
    ((∀ e, ¬ Throws a s.clock d e) →
      s'.schedules.lookup d.id = some (processedRow a s.clock d))

/-- A tick that has ended stays as it is. -/
theorem tick_done (r : Except Failure Unit) (n : ℕ) :
    (tick a)^[n] (s, .done r) = (s, .done r) :=
  Function.iterate_fixed rfl n

/-- A schedule that has failed is neither due for its period nor paused. -/
theorem not_stillDue_of_failed (hd : d ∈ findDue s)
    (hfailed : ∃ message, outcome a s.clock d = .failed message)
    (hrow : s'.schedules.lookup d.id = some (processedRow a s.clock d)) :
    ¬ (StillDue s' d.id (d.period s.clock) ∨ Paused s' d.id) := by
  obtain ⟨message, hmessage⟩ := hfailed
  obtain ⟨hperiod, henabled⟩ := processedRow_of_failed hmessage
  rintro (⟨d', hd', hid, hlast⟩ | ⟨row, reason, hrow', hpaused, -⟩)
  · have hrow' := (mem_findDue.mp hd').1
    rw [hid, hrow] at hrow'
    rw [← Option.some.inj hrow'] at hlast
    exact hlast hperiod
  · rw [hrow] at hrow'
    rw [← Option.some.inj hrow', henabled, (mem_findDue.mp hd).2.1] at hpaused
    cases hpaused

/-- A tick ends, and a failure harms only the schedule that fails if and only if no request of a
due schedule throws anything but a 403. -/
theorem isolated_iff (a : Answers) (s : Db) :
    ∃ n s' r, (∀ m, n ≤ m → (tick a)^[m] (s, .arrived) = (s', .done r)) ∧
      (Isolated a s s' ↔
        ∀ d ∈ findDue s, d.waits s.clock →
          ∀ e, Throws a s.clock d e → e.statusCode = some 403) := by
  have hunchanged : ∀ d ∈ findDue s, Unchanged s d := by
    intro d hd
    obtain ⟨hrow, henabled, -⟩ := mem_findDue.mp hd
    exact ⟨hrow, henabled⟩
  obtain ⟨n, s', r, hn, -, hall, hsome⟩ :=
    @tick_looping a s s.clock _ hunchanged (nodup_findDue s)
  have hstart : (tick a)^[n + 2] (s, .arrived) = (s', .done r) := by
    rw [Function.iterate_add_apply]
    exact hn
  refine ⟨n + 2, s', r, ?_, ?_, ?_⟩
  · -- the loop has ended, and stays where it is
    intro m hm
    obtain ⟨k, rfl⟩ := Nat.exists_eq_add_of_le hm
    rw [Nat.add_comm, Function.iterate_add_apply, hstart, tick_done]
  · -- the schedule that ends the loop is neither due nor paused
    intro hisolated d hd hwaits e hthrows
    by_contra hstatus
    obtain ⟨x, hx, hxwaits, hfailed, hrow⟩ :=
      hsome ⟨d, hd, hwaits, outcome_failed_iff.mpr ⟨e, hthrows, hstatus⟩⟩
    obtain ⟨e', hthrows', -⟩ := outcome_failed_iff.mp hfailed
    exact not_stillDue_of_failed hx hfailed hrow ((hisolated x hx hxwaits).1 e' hthrows')
  · -- no run ends the loop, so every schedule that waits is processed
    intro honly d hd hwaits
    have hrow : s'.schedules.lookup d.id = some (processedRow a s.clock d) := by
      apply hall _ d hd hwaits
      intro x hx hxwaits message hmessage
      obtain ⟨e, hthrows, hstatus⟩ := outcome_failed_iff.mp ⟨message, hmessage⟩
      exact hstatus (honly x hx hxwaits e hthrows)
    constructor
    · intro e hthrows
      obtain ⟨hpaused, hreason⟩ := processedRow_of_403 hthrows (honly d hd hwaits e hthrows)
      exact .inr ⟨_, _, hrow, hpaused, hreason⟩
    · intro _
      exact hrow

/-! ### A failing tick -/

/-- A daily report of the orders. -/
def dailyOrders : Schedule where
  tenantId := "t"
  createdBy := some "u"
  name := "Orders"
  type := .orders
  frequency := .daily
  filters := []
  recipientUserIds := ["u"]
  enabled := true

/-- Two schedules that have not run yet. -/
def twoSchedules : Db where
  clock := 0
  tenants := (∅ : Table Uuid TenantStatus).insert "t" .active
  schedules := ((∅ : Table Uuid Schedule).insert "b" dailyOrders).insert "a" dailyOrders

/-- The queue does not take the report of the first one. -/
def queueDown : Answers where
  activeStaff _ userIds := userIds
  request r := if r.scheduleId = "a" then .error ⟨none, some "connect ECONNREFUSED"⟩ else .ok "r"

/-- The first schedule is not due any more and not paused, and the second has not been looked
at. -/
theorem first_failure_ends_tick :
    ∃ s', (tick queueDown)^[6] (twoSchedules, .arrived) =
        (s', .done (.error (.integration "connect ECONNREFUSED"))) ∧
      s'.schedules.lookup "b" = twoSchedules.schedules.lookup "b" ∧
      ¬ Isolated queueDown twoSchedules s' := by
  refine ⟨((tick queueDown)^[6] (twoSchedules, .arrived)).1, ?_, by decide +kernel, ?_⟩
  · apply Prod.ext rfl
    decide +kernel
  · intro hisolated
    have hdue : (⟨"a", dailyOrders⟩ : Due) ∈ findDue twoSchedules := by decide +kernel
    have hthrows : Throws queueDown 0 ⟨"a", dailyOrders⟩ ⟨none, some "connect ECONNREFUSED"⟩ :=
      ⟨"u", by decide +kernel, by rfl⟩
    have hfailed : ∃ message, outcome queueDown 0 ⟨"a", dailyOrders⟩ = .failed message :=
      outcome_failed_iff.mpr ⟨_, hthrows, by simp⟩
    have hrow : ((tick queueDown)^[6] (twoSchedules, .arrived)).1.schedules.lookup "a" =
        some (processedRow queueDown 0 ⟨"a", dailyOrders⟩) := by decide +kernel
    exact not_stillDue_of_failed hdue hfailed hrow
      ((hisolated _ hdue (by simp [Due.waits, dailyOrders])).1 _ hthrows)

end PulseOps.ReportSchedules
