import PulseOps.Model.Reports

/-!
# Finished reports

A job looks at the report once, before it begins. If another job for the same report completes
it after that look, the first one takes it back to `PROCESSING`, and may end it as `FAILED`. A
report that is completed while no other job for it is underway stays as it is.

## Main definitions

* `Phase.Underway` — the job has looked at the report and has still to write it.
* `Alone` — a job that completes a report is the only one underway for it.

## Main results

* `completed_report_final` — under this condition a completed report no longer changes.
-/

set_option autoImplicit false

open ReadCommitted

namespace PulseOps.Reports

variable {env : Surroundings} {jobs : List Job} {job : Job} {phase : Phase} {s : Store}
  {c c' : Interleaved Store Phase} {id : Uuid} {report : Report}

/-- The job has looked at the report and has still to write it. -/
def Phase.Underway : Phase → Prop
  | .arrived | .done _ => False
  | _ => True

/-- The job `i` is underway for the report. -/
def UnderwayFor (jobs : List Job) (c : Interleaved Store Phase) (id : Uuid) (i : ℕ) : Prop :=
  ∃ job phase, jobs[i]? = some job ∧ c.phases[i]? = some phase ∧ job.reportId = id ∧
    phase.Underway

/-- A job that completes a report is the only one underway for it. -/
def Alone (jobs : List Job) (c : Interleaved Store Phase) (job : Job) : Phase → Prop
  | .completing _ _ => ∀ i j, UnderwayFor jobs c job.reportId i →
      UnderwayFor jobs c job.reportId j → i = j
  | _ => True

/-- No job is underway for a completed report. -/
def Settled (jobs : List Job) (c : Interleaved Store Phase) : Prop :=
  ∀ i id report, UnderwayFor jobs c id i → c.store.reports.lookup id = some report →
    report.status ≠ .completed

theorem settled_start : Settled jobs (start jobs s) := by
  rintro i id report ⟨job, phase, -, hphase, -, hunderway⟩ -
  simp only [start, List.getElem?_map, Option.map_eq_some_iff] at hphase
  obtain ⟨_, -, rfl⟩ := hphase
  exact hunderway.elim

/-- What a job writes. -/
theorem lookup_updateReport {change : Report → Report} {next : Phase}
    {otherwise : Failure → Phase} (id : Uuid) :
    (updateReport s job change next otherwise).1.reports.lookup id =
      if id = job.reportId then (s.reports.lookup id).map change else s.reports.lookup id := by
  unfold updateReport
  cases hreport : s.reports.lookup job.reportId with
  | none =>
    split_ifs with hid
    · rw [hid, hreport]
      rfl
    · rfl
  | some report =>
    split_ifs with hid
    · rw [hid, hreport]
      exact AList.lookup_insert _
    · exact AList.lookup_insert_ne hid

/-- A job leaves the other reports alone, and its own one unless it is underway. -/
theorem lookup_advance (env : Surroundings) (job : Job) (s : Store) (id : Uuid)
    (h : id ≠ job.reportId ∨ ¬ phase.Underway) :
    (advance env job s phase).1.reports.lookup id = s.reports.lookup id := by
  cases phase with
  | arrived =>
    simp only [advance]
    split
    · rfl
    · split_ifs <;> rfl
  | starting report =>
    exact (lookup_updateReport id).trans (if_neg (h.resolve_right fun hnot => hnot trivial))
  | building report =>
    simp only [advance]
    split
    · rfl
    · split_ifs <;> rfl
  | uploading file rowCount =>
    simp only [advance]
    split <;> rfl
  | completing file rowCount =>
    exact (lookup_updateReport id).trans (if_neg (h.resolve_right fun hnot => hnot trivial))
  | failing e =>
    exact (lookup_updateReport id).trans (if_neg (h.resolve_right fun hnot => hnot trivial))
  | done result => rfl

/-- A job gets underway for a report that is not completed. -/
theorem not_completed_of_arrived (hphase : ¬ phase.Underway)
    (hnext : (advance env job s phase).2.Underway) (hreport : s.reports.lookup id = some report)
    (hid : job.reportId = id) : report.status ≠ .completed := by
  subst hid
  cases phase with
  | arrived =>
    intro hcompleted
    simp only [advance, findReport, hreport] at hnext
    split at hnext
    next => exact hnext
    next found hfound =>
      obtain ⟨hsame, -⟩ := Option.filter_eq_some_iff.mp hfound
      cases hsame
      rw [if_pos hcompleted] at hnext
      exact hnext
  | done result => exact hnext.elim
  | _ => exact (hphase trivial).elim

/-- A turn that does not complete the report, or after which the job is still underway. -/
theorem not_completed_of_underway (hphase : phase.Underway)
    (hnext : (∀ file rowCount, phase ≠ .completing file rowCount) ∨
      (advance env job s phase).2.Underway)
    (hbefore : ∀ report, s.reports.lookup job.reportId = some report →
      report.status ≠ .completed)
    (hreport : (advance env job s phase).1.reports.lookup job.reportId = some report) :
    report.status ≠ .completed := by
  cases phase with
  | arrived => exact hphase.elim
  | starting found =>
    rw [advance, lookup_updateReport, if_pos rfl] at hreport
    obtain ⟨before, -, rfl⟩ := Option.map_eq_some_iff.mp hreport
    simp [Report.begun]
  | building found =>
    have hsame : (advance env job s (.building found)).1 = s := by
      simp only [advance]
      split
      · rfl
      · split_ifs <;> rfl
    rw [hsame] at hreport
    exact hbefore report hreport
  | uploading file rowCount =>
    have hsame : (advance env job s (.uploading file rowCount)).1.reports = s.reports := by
      simp only [advance]
      split <;> rfl
    rw [hsame] at hreport
    exact hbefore report hreport
  | completing file rowCount =>
    cases hfound : s.reports.lookup job.reportId with
    | none =>
      rw [advance, lookup_updateReport, if_pos rfl, hfound] at hreport
      cases hreport
    | some found =>
      -- the job would be done
      rcases hnext with hnot | hnext
      · exact absurd rfl (hnot file rowCount)
      · simp only [advance, updateReport, hfound] at hnext
        exact hnext.elim
  | failing e =>
    rw [advance, lookup_updateReport, if_pos rfl] at hreport
    obtain ⟨before, -, rfl⟩ := Option.map_eq_some_iff.mp hreport
    simp [Report.given]
  | done result => exact hphase.elim

theorem Settled.not_completed {i : ℕ} (h : Settled jobs c) (hjob : jobs[i]? = some job)
    (hphase : c.phases[i]? = some phase) (hunderway : phase.Underway) :
    ∀ report, c.store.reports.lookup job.reportId = some report → report.status ≠ .completed :=
  fun report => h i job.reportId report ⟨job, phase, hjob, hphase, rfl, hunderway⟩

/-- **One turn.** -/
theorem Settled.after {i : ℕ} (h : Settled jobs c) (hjob : jobs[i]? = some job)
    (hphase : c.phases[i]? = some phase) (halone : Alone jobs c job phase) :
    Settled jobs (Interleaved.after (advance env) c i job phase) := by
  rintro j id report ⟨job', phase', hjob', hphase', rfl, hunderway'⟩ hreport
  rcases Interleaved.getElem?_after hphase' with ⟨rfl, rfl⟩ | ⟨hji, hold⟩
  · -- the job itself
    cases hjob.symm.trans hjob'
    by_cases hunderway : phase.Underway
    · exact not_completed_of_underway hunderway (.inr hunderway')
        (h.not_completed hjob hphase hunderway) hreport
    · have hsame := lookup_advance env job c.store job.reportId (.inr hunderway)
      exact not_completed_of_arrived hunderway hunderway' (hsame.symm.trans hreport) rfl
  · have hother : UnderwayFor jobs c job'.reportId j := ⟨job', phase', hjob', hold, rfl, hunderway'⟩
    by_cases hunderway : job'.reportId = job.reportId ∧ phase.Underway
    · -- both are underway for the report, so this is not the turn that completes it
      obtain ⟨hid, hunderway⟩ := hunderway
      rw [hid] at hreport hother
      apply not_completed_of_underway hunderway (.inl _) (h.not_completed hjob hphase hunderway)
        hreport
      rintro file rowCount rfl
      exact hji (halone j i hother ⟨job, _, hjob, hphase, rfl, trivial⟩)
    · have hsame := lookup_advance env job c.store _ (not_and_or.mp hunderway)
      exact h j job'.reportId report hother (hsame.symm.trans hreport)

theorem settled_of_reaches
    (hc : Interleaved.Reaches (advance env) jobs (Alone jobs) (start jobs s) c) :
    Settled jobs c :=
  hc.induction settled_start fun _ _ _ _ hjob hphase halone h => h.after hjob hphase halone

/-- **Finished reports.** As long as each job that completes a report is the only one underway for
it, a report that is completed at some point of a run stays as it is for the rest of the run. -/
theorem completed_report_final
    (hc : Interleaved.Reaches (advance env) jobs (Alone jobs) (start jobs s) c)
    (hc' : Interleaved.Reaches (advance env) jobs (Alone jobs) c c')
    (hreport : c.store.reports.lookup id = some report) (hcompleted : report.status = .completed) :
    c'.store.reports.lookup id = some report := by
  have hsettled : Settled jobs c := settled_of_reaches hc
  suffices Settled jobs c' ∧ c'.store.reports.lookup id = some report from this.2
  refine hc'.induction (P := fun c => Settled jobs c ∧ c.store.reports.lookup id = some report)
    ⟨hsettled, hreport⟩ fun c i job phase hjob hphase halone hP => ?_
  obtain ⟨hsettled, hreport⟩ := hP
  refine ⟨hsettled.after hjob hphase halone, ?_⟩
  rw [← hreport]
  apply lookup_advance
  by_contra hwrites
  rw [not_or, not_not, not_not] at hwrites
  obtain ⟨rfl, hunderway⟩ := hwrites
  exact hsettled.not_completed hjob hphase hunderway report hreport hcompleted

namespace Sample

/-- A report of one order, and a job that is delivered twice. -/
def shop : Store :=
  { reports := (∅ : Table Uuid Report).insert "r" { tenantId := "t", type := .orders } }

def deliveries : List Job := [⟨"t", "r"⟩, ⟨"t", "r"⟩]

/-- One row, and an object store that always works. -/
def calm : Surroundings where
  rows := fun _ _ => .ok [[some "o1"]]
  uploadError := fun _ _ => none

/-- The first delivery completes the report. -/
def afterFirst : Interleaved Store Phase :=
  Interleaved.run (advance calm) deliveries (start deliveries shop) [0, 0, 0, 0, 0]

/-- The second one begins after that. -/
def afterSecond : Interleaved Store Phase :=
  Interleaved.run (advance calm) deliveries afterFirst [1]

/-- Both deliveries look at the report before the first one completes it. -/
def overlapping : Interleaved Store Phase :=
  Interleaved.run (advance calm) deliveries (start deliveries shop) [0, 1, 0, 0, 0, 0]

/-- Whether the second delivery has not begun or is over. -/
def alone (c : Interleaved Store Phase) (_ : Job) : Phase → Bool
  | .completing _ _ => c.phases.tail.all fun phase =>
    match phase with
    | .arrived | .done _ => true
    | _ => false
  | _ => true

theorem alone_of_test {c : Interleaved Store Phase} {job : Job} {phase : Phase}
    (h : alone c job phase = true) : Alone deliveries c job phase := by
  cases phase with
  | completing file rowCount =>
    have hfirst : ∀ i, UnderwayFor deliveries c job.reportId i → i = 0 := by
      rintro i ⟨_, phase, -, hphase, -, hunderway⟩
      cases i with
      | zero => rfl
      | succ i =>
        rw [← List.getElem?_tail] at hphase
        have hidle := List.all_eq_true.mp h phase (List.mem_of_getElem? hphase)
        cases phase <;> first | exact hunderway.elim | cases hidle
    intro i j hi hj
    rw [hfirst i hi, hfirst j hj]
  | _ => trivial

end Sample

open Sample

/-- A second delivery after the first one. -/
theorem completed_report_final_twice :
    (afterFirst.store.reports.lookup "r").map (·.status) = some .completed ∧
      afterSecond.store.reports.lookup "r" = afterFirst.store.reports.lookup "r" := by
  have hfirst : Interleaved.Reaches (advance calm) deliveries (Alone deliveries)
      (start deliveries shop) afterFirst :=
    Interleaved.Reaches.run (fun _ _ _ => alone_of_test) .refl _ (by decide +kernel)
  have hsecond : Interleaved.Reaches (advance calm) deliveries (Alone deliveries)
      afterFirst afterSecond :=
    Interleaved.Reaches.run (fun _ _ _ => alone_of_test) .refl _ (by decide +kernel)
  have hcompleted : (afterFirst.store.reports.lookup "r").map (·.status) = some .completed := by
    decide +kernel
  obtain ⟨report, hreport, hstatus⟩ := Option.map_eq_some_iff.mp hcompleted
  refine ⟨hcompleted, ?_⟩
  rw [hreport]
  exact completed_report_final hfirst hsecond hreport hstatus

/-- A second delivery that overlaps with the first one takes the report back. -/
theorem completed_report_reopened :
    (overlapping.store.reports.lookup "r").map (·.status) = some .completed ∧
      ((Interleaved.run (advance calm) deliveries overlapping [1]).store.reports.lookup "r").map
        (·.status) = some .processing := by
  decide +kernel

end PulseOps.Reports
