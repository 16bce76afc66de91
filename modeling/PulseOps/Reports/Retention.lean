import PulseOps.Model.ReportRetention
import Mathlib.Data.List.Sort

/-!
# Pruning the reports

The rows of old reports are seen in the order of their creation. In every round the rows that
are skipped are those whose file could not be deleted, and the others that have been seen are
gone. So each batch begins where the last one ended, every round but the last sees a whole
batch, and the job ends.

## Main definitions

* `Stuck` — a report whose file cannot be deleted.
* `Seen` — what a round finds when some of the old rows have been seen.

## Main results

* `findBatch_eq` — the next batch is the beginning of the rows that are left.
* `Seen.round` — what a round does.
* `prune_exact` — the job ends; it has tried each file once, and has deleted the other rows.
-/

set_option autoImplicit false

namespace PulseOps.ReportRetention

open Accounts (Millis)

variable {env : Surroundings} {cutoff : Millis} {tenantId : Option Uuid} {s : Store}
  {p : Progress} {done rest batch : List Row} {row : Row}

/-- The call of `storage.delete` for a row. -/
def fileCall (row : Row) : Option (Uuid × String) :=
  (truthy row.2.storageKey).map fun key => (row.1, key)

/-- The file of the report cannot be deleted. -/
def Stuck (env : Surroundings) (report : Report) : Bool :=
  (truthy report.storageKey).any env.fails

/-! ### The rows of a table -/

/-- Rows of a table have different identifiers. -/
theorem eq_of_id {t : Table Uuid Report} {r r' : Row} (hr : r ∈ t.entries) (hr' : r' ∈ t.entries)
    (hid : r.1 = r'.1) : r = r' :=
  t.nodupKeys.eq_of_fst_eq hr hr' hid

theorem nodup_entries (t : Table Uuid Report) : t.entries.Nodup :=
  List.NodupKeys.nodup t.nodupKeys

/-- The rows with the identifiers of some of them are these. -/
theorem mem_ids_iff {t : Table Uuid Report} {rows : List Row} (hrows : ∀ r ∈ rows, r ∈ t.entries)
    (hrow : row ∈ t.entries) : row.1 ∈ rows.map Sigma.fst ↔ row ∈ rows := by
  constructor
  · intro hid
    obtain ⟨r, hr, hsame⟩ := List.mem_map.mp hid
    rwa [← eq_of_id (hrows r hr) hrow hsame]
  · exact List.mem_map_of_mem

/-- `deleteMany` counts the rows that it is asked for. -/
theorem count_deleteMany {rows : List Row} (hrows : ∀ r ∈ rows, r ∈ s.reports.entries)
    (hnodup : rows.Nodup) : (deleteMany s (rows.map Sigma.fst)).2 = rows.length := by
  apply List.Perm.length_eq
  apply (List.perm_ext_iff_of_nodup ((nodup_entries s.reports).filter _) hnodup).mpr
  intro row
  rw [List.mem_filter, decide_eq_true_iff]
  constructor
  · rintro ⟨hrow, hid⟩
    exact (mem_ids_iff hrows hrow).mp hid
  · intro hrow
    exact ⟨hrows row hrow, List.mem_map_of_mem hrow⟩

/-! ### The inner loop -/

/-- The inner loop over a batch. -/
theorem foldl_deleteFile (batch : List Row) (r : Removal) :
    batch.foldl (deleteFile env) r =
      { store := { r.store with deletions := r.store.deletions ++ batch.filterMap fileCall }
        removable := r.removable ++ (batch.filter fun row => ¬ Stuck env row.2).map Sigma.fst
        failed := r.failed + (batch.filter fun row => Stuck env row.2).length } := by
  induction batch generalizing r with
  | nil => simp
  | cons row batch ih =>
    rw [List.foldl_cons, ih]
    unfold deleteFile
    cases hfile : truthy row.2.storageKey with
    | none =>
      have hcall : fileCall row = none := by simp [fileCall, hfile]
      have hstuck : Stuck env row.2 = false := by simp [Stuck, hfile]
      simp [hcall, hstuck]
    | some key =>
      have hcall : fileCall row = some (row.1, key) := by simp [fileCall, hfile]
      cases hfails : env.fails key with
      | true =>
        have hstuck : Stuck env row.2 = true := by simp [Stuck, hfile, hfails]
        simp [hcall, hstuck, hfails]
        omega
      | false =>
        have hstuck : Stuck env row.2 = false := by simp [Stuck, hfile, hfails]
        simp [hcall, hstuck, hfails]

/-! ### One round -/

/-- The old rows, of which those in `done` have been seen. -/
structure Seen (env : Surroundings) (cutoff : Millis) (tenantId : Option Uuid) (s : Store)
    (done rest : List Row) (p : Progress) : Prop where
  /-- the old rows in the order of their creation -/
  old : (done ++ rest).Perm (s.reports.entries.filter fun row => row.2.expired cutoff tenantId)
  sorted : (done ++ rest).Pairwise fun r r' => r.2.createdAt < r'.2.createdAt
  reports : p.store.reports.entries =
    s.reports.entries.filter fun row => ¬ (row ∈ done ∧ ¬ Stuck env row.2)
  deletions : p.store.deletions = s.deletions ++ done.filterMap fileCall
  deleted : p.deleted = (done.filter fun row => ¬ Stuck env row.2).length
  failed : p.failed = (done.filter fun row => Stuck env row.2).length

theorem Seen.nodup (h : Seen env cutoff tenantId s done rest p) : (done ++ rest).Nodup := by
  apply h.sorted.imp
  rintro r r' hlt rfl
  exact Int.lt_irrefl _ hlt

/-- The old rows that are left: those that could not be deleted, and those not yet seen. -/
theorem Seen.left (h : Seen env cutoff tenantId s done rest p) :
    ((done.filter fun row => Stuck env row.2) ++ rest).Perm
      (p.store.reports.entries.filter fun row => row.2.expired cutoff tenantId) := by
  have hrest : rest.filter (fun row => ¬ (row ∈ done ∧ ¬ Stuck env row.2)) = rest := by
    apply List.filter_eq_self.mpr
    intro row hrow
    have hnew : row ∉ done := fun hdone =>
      (List.nodup_append.mp h.nodup).2.2 row hdone row hrow rfl
    simp [hnew]
  have hdone : done.filter (fun row => ¬ (row ∈ done ∧ ¬ Stuck env row.2)) =
      done.filter fun row => Stuck env row.2 := by
    apply List.filter_congr
    intro row hrow
    simp [hrow]
  have hold := h.old.filter fun row => ¬ (row ∈ done ∧ ¬ Stuck env row.2)
  rw [List.filter_append, hdone, hrest, List.filter_filter] at hold
  rw [h.reports, List.filter_filter]
  apply hold.trans
  apply List.Perm.of_eq
  apply List.filter_congr
  intro row _
  exact Bool.and_comm _ _

/-- The next batch is the beginning of the rows that have not been seen. -/
theorem findBatch_eq (h : Seen env cutoff tenantId s done rest p) :
    findBatch env cutoff tenantId p = rest.take pruneBatch := by
  have hsublist : ((done.filter fun row => Stuck env row.2) ++ rest).Sublist (done ++ rest) :=
    List.filter_sublist.append_right rest
  have hsorted := h.sorted.sublist hsublist
  -- the creation times are different, so there is one order only
  have harranged : env.arrange p.queries
      (p.store.reports.entries.filter fun row => row.2.expired cutoff tenantId) =
        (done.filter fun row => Stuck env row.2) ++ rest := by
    have hperm := (env.arrange_perm p.queries _).trans h.left.symm
    apply hperm.eq_of_pairwise _ (env.arrange_sorted p.queries _) (hsorted.imp Int.le_of_lt)
    intro a b ha hb hle hle'
    by_contra hne
    have hmem := hperm.mem_iff.mp ha
    have hdifferent : ((done.filter fun row => Stuck env row.2) ++ rest).Pairwise
        fun r r' => r.2.createdAt ≠ r'.2.createdAt := hsorted.imp Int.ne_of_lt
    have : Std.Symm fun r r' : Row => r.2.createdAt ≠ r'.2.createdAt := ⟨fun _ _ h => h.symm⟩
    exact hdifferent.forall hmem hb hne (Int.le_antisymm hle hle')
  rw [findBatch, harranged, h.failed, List.drop_left]

/-- A round that deletes nothing counts nothing. -/
theorem deleteMany_nil (s : Store) : deleteMany s [] = (s, 0) := by
  simp [deleteMany, AList.keep]

/-- What the rest of a round makes of a batch. -/
theorem round_eq (p : Progress) :
    round env cutoff tenantId p =
      let batch := findBatch env cutoff tenantId p
      let removable := (batch.filter fun row => ¬ Stuck env row.2).map Sigma.fst
      let called : Store :=
        { p.store with deletions := p.store.deletions ++ batch.filterMap fileCall }
      ({ store := (deleteMany called removable).1
         deleted := p.deleted + (deleteMany called removable).2
         failed := p.failed + (batch.filter fun row => Stuck env row.2).length
         queries := p.queries + 1 },
        decide (pruneBatch ≤ batch.length)) := by
  unfold round
  dsimp only
  generalize findBatch env cutoff tenantId p = batch
  rw [foldl_deleteFile]
  by_cases hbatch : batch = []
  · subst hbatch
    simp [deleteMany_nil, pruneBatch]
  · rw [if_neg hbatch]
    by_cases hremovable : (batch.filter fun row => ¬ Stuck env row.2).map Sigma.fst = []
    · simp only [hremovable, List.nil_append, if_true, deleteMany_nil, Nat.add_zero, not_lt]
    · simp only [hremovable, List.nil_append, if_false, not_lt]

/-- What a round does: it sees the next batch. -/
theorem Seen.round (h : Seen env cutoff tenantId s done rest p) :
    ∃ p', round env cutoff tenantId p = (p', decide (pruneBatch ≤ rest.length)) ∧
      Seen env cutoff tenantId s (done ++ rest.take pruneBatch) (rest.drop pruneBatch) p' := by
  have hsplit : done ++ rest.take pruneBatch ++ rest.drop pruneBatch = done ++ rest := by
    rw [List.append_assoc, List.take_append_drop]
  have hagain : decide (pruneBatch ≤ (rest.take pruneBatch).length) =
      decide (pruneBatch ≤ rest.length) := by
    apply decide_eq_decide.mpr
    rw [List.length_take]
    omega
  -- the rows of the batch are in the table
  have hrows : ∀ row ∈ rest.take pruneBatch, row ∈ p.store.reports.entries := by
    intro row hrow
    have hleft := h.left.mem_iff.mp (List.mem_append_right _ (List.mem_of_mem_take hrow))
    exact (List.mem_filter.mp hleft).1
  have hnodup : (rest.take pruneBatch).Nodup :=
    (List.nodup_append.mp h.nodup).2.1.sublist (List.take_sublist _ _)
  rw [round_eq, findBatch_eq h]
  dsimp only
  rw [hagain]
  generalize rest.take pruneBatch = batch at *
  refine ⟨_, rfl, ?_⟩
  constructor
  · rw [hsplit]
    exact h.old
  · rw [hsplit]
    exact h.sorted
  · change p.store.reports.entries.filter (fun row =>
      row.1 ∉ (batch.filter fun row => ¬ Stuck env row.2).map Sigma.fst) = _
    have hbatch : ∀ row ∈ batch.filter fun row => ¬ Stuck env row.2, row ∈ s.reports.entries := by
      intro row hrow
      have hkept := hrows row (List.mem_filter.mp hrow).1
      rw [h.reports] at hkept
      exact (List.mem_filter.mp hkept).1
    rw [h.reports, List.filter_filter]
    apply List.filter_congr
    intro row hrow
    have hids := mem_ids_iff hbatch hrow
    rw [List.mem_filter, decide_eq_true_iff] at hids
    rw [← Bool.decide_and]
    apply decide_eq_decide.mpr
    rw [hids, List.mem_append]
    tauto
  · change p.store.deletions ++ batch.filterMap fileCall = _
    rw [h.deletions, List.filterMap_append, List.append_assoc]
  · have hcount := @count_deleteMany
      { p.store with deletions := p.store.deletions ++ batch.filterMap fileCall }
      (batch.filter fun row => ¬ Stuck env row.2)
      (fun row hrow => hrows row (List.mem_filter.mp hrow).1) (hnodup.filter _)
    dsimp only
    rw [hcount, h.deleted, List.filter_append, List.length_append]
  · dsimp only
    rw [h.failed, List.filter_append, List.length_append]

/-! ### The loop -/

/-- The loop ends when all the old rows have been seen. -/
theorem Seen.loop (h : Seen env cutoff tenantId s done rest p) {fuel : ℕ}
    (hfuel : rest.length < fuel) :
    ∃ p', loop env cutoff tenantId fuel p = some p' ∧
      Seen env cutoff tenantId s (done ++ rest) [] p' := by
  induction fuel generalizing done rest p with
  | zero => exact absurd hfuel (Nat.not_lt_zero _)
  | succ fuel ih =>
    obtain ⟨p', hround, hseen⟩ := h.round
    unfold ReportRetention.loop
    rw [hround]
    by_cases hfull : pruneBatch ≤ rest.length
    · -- a whole batch: another round follows
      have hless : (rest.drop pruneBatch).length < fuel := by
        rw [List.length_drop]
        unfold pruneBatch at *
        omega
      obtain ⟨p'', hloop, hend⟩ := ih hseen hless
      rw [List.append_assoc, List.take_append_drop] at hend
      refine ⟨p'', ?_, hend⟩
      simpa [hfull] using hloop
    · -- the last batch
      rw [List.take_of_length_le (by omega), List.drop_eq_nil_of_le (by omega)] at hseen
      refine ⟨p', ?_, hseen⟩
      simp [hfull]

/-- More fuel does not change what the loop returns. -/
theorem loop_unique {fuel fuel' : ℕ} {p' p'' : Progress}
    (h : ReportRetention.loop env cutoff tenantId fuel p = some p')
    (h' : ReportRetention.loop env cutoff tenantId fuel' p = some p'') : p' = p'' := by
  induction fuel generalizing fuel' p with
  | zero => cases h
  | succ fuel ih =>
    cases fuel' with
    | zero => cases h'
    | succ fuel' =>
      unfold ReportRetention.loop at h h'
      cases hround : ReportRetention.round env cutoff tenantId p with
      | mk next again =>
        rw [hround] at h h'
        cases again with
        | true => exact ih h h'
        | false => exact Option.some.inj (h.symm.trans h')

/-- Before the first round nothing has been seen. -/
theorem seen_start (env : Surroundings) (cutoff : Millis) (tenantId : Option Uuid)
    (hdistinct : s.reports.entries.Pairwise fun r r' => r.2.createdAt ≠ r'.2.createdAt) :
    Seen env cutoff tenantId s []
      (env.arrange 0 (s.reports.entries.filter fun row => row.2.expired cutoff tenantId))
      { store := s } where
  old := env.arrange_perm 0 _
  sorted := by
    have hle := env.arrange_sorted 0
      (s.reports.entries.filter fun row => row.2.expired cutoff tenantId)
    have hne := (hdistinct.sublist List.filter_sublist).perm
      (env.arrange_perm 0 (s.reports.entries.filter fun row =>
        row.2.expired cutoff tenantId)).symm (fun h => Ne.symm h)
    apply (hle.and hne).imp
    rintro r r' ⟨h, h'⟩
    exact Int.lt_iff_le_and_ne.mpr ⟨h, h'⟩
  reports := by simp
  deletions := by simp
  deleted := rfl
  failed := rfl

/-! ### The job -/

/-- `createdAt` lies before the cutoff, if there is one. -/
def Old (env : Surroundings) (now : Millis) (tenantId : Option Uuid) (report : Report) : Bool :=
  env.retentionDays ≠ 0 ∧ report.expired (now - env.retentionDays * dayMs) tenantId = true

theorem Seen.old_iff (h : Seen env cutoff tenantId s done [] p) {id : Uuid} {report : Report}
    (hrow : s.reports.lookup id = some report) :
    (⟨id, report⟩ : Row) ∈ done ↔ report.expired cutoff tenantId = true := by
  have hmem : (⟨id, report⟩ : Row) ∈ done ↔
      (⟨id, report⟩ : Row) ∈ s.reports.entries.filter fun row => row.2.expired cutoff tenantId := by
    rw [← h.old.mem_iff, List.append_nil]
  rw [hmem, List.mem_filter]
  simp [AList.mem_entries_iff_lookup.mpr hrow]

/-- The rows that are left at the end. -/
theorem Seen.lookup (h : Seen env cutoff tenantId s done [] p) (id : Uuid) :
    p.store.reports.lookup id = (s.reports.lookup id).filter fun report =>
      ¬ (report.expired cutoff tenantId = true ∧ ¬ Stuck env report) := by
  apply Option.ext
  intro report
  rw [Option.filter_eq_some_iff, ← AList.mem_entries_iff_lookup,
    h.reports, List.mem_filter, AList.mem_entries_iff_lookup]
  constructor
  · rintro ⟨hrow, hkept⟩
    rw [decide_eq_true_iff] at hkept ⊢
    rw [h.old_iff hrow] at hkept
    exact ⟨hrow, hkept⟩
  · rintro ⟨hrow, hkept⟩
    rw [decide_eq_true_iff] at hkept ⊢
    rw [h.old_iff hrow]
    exact ⟨hrow, hkept⟩

/-- The numbers at the end, over the table as it was. -/
theorem Seen.count (h : Seen env cutoff tenantId s done [] p) (q : Report → Bool) :
    (done.filter fun row => q row.2).length =
      (s.reports.entries.filter fun row =>
        row.2.expired cutoff tenantId = true ∧ q row.2 = true).length := by
  have hperm := h.old.filter fun row => q row.2
  rw [List.append_nil, List.filter_filter] at hperm
  rw [hperm.length_eq]
  congr 1
  apply List.filter_congr
  intro row _
  rw [Bool.eq_iff_iff, Bool.and_eq_true, decide_eq_true_iff, and_comm]

/-- The job ends. It calls `storage.delete` once for the file of each old report, and what is
deleted are the rows of those whose file is gone; it returns their number, and the number of
those that are left. -/
theorem prune_exact (env : Surroundings) (now : Millis) (tenantId : Option Uuid) (s : Store)
    (hdistinct : s.reports.entries.Pairwise fun r r' => r.2.createdAt ≠ r'.2.createdAt) :
    ∃ s' result calls enough,
      (∀ fuel, enough ≤ fuel → prune env fuel now tenantId s = some (s', result)) ∧
      s'.deletions = s.deletions ++ calls ∧
      calls.Perm ((s.reports.entries.filter fun row => Old env now tenantId row.2).filterMap
        fileCall) ∧
      (∀ id, s'.reports.lookup id = (s.reports.lookup id).filter fun report =>
        ¬ (Old env now tenantId report ∧ ¬ Stuck env report)) ∧
      result.deleted = (s.reports.entries.filter fun row =>
        Old env now tenantId row.2 ∧ ¬ Stuck env row.2).length ∧
      result.failed.getD 0 = (s.reports.entries.filter fun row =>
        Old env now tenantId row.2 ∧ Stuck env row.2).length := by
  by_cases hdays : env.retentionDays = 0
  · -- nothing is ever old
    refine ⟨s, _, [], 0, fun fuel _ => if_pos hdays, by simp, by simp [Old, hdays], ?_, ?_, ?_⟩
    · intro id
      cases s.reports.lookup id with
      | none => rfl
      | some report => simp [Old, hdays, Option.filter]
    · simp [Old, hdays]
    · simp [Old, hdays]
  · have hold (report : Report) : Old env now tenantId report =
        report.expired (now - env.retentionDays * dayMs) tenantId := by
      simp [Old, hdays]
    simp only [hold]
    generalize hcutoff : now - env.retentionDays * dayMs = cutoff
    have hstart := seen_start env cutoff tenantId hdistinct
    generalize hrows : env.arrange 0 _ = rows at hstart
    -- one round more than there are old reports is enough
    obtain ⟨p, hp, hend⟩ := hstart.loop (Nat.lt_succ_self rows.length)
    rw [List.nil_append] at hend
    refine ⟨p.store, ⟨p.deleted, some p.failed, env.retentionDays, some cutoff⟩,
      rows.filterMap fileCall, rows.length + 1, ?_, hend.deletions, ?_, hend.lookup, ?_, ?_⟩
    · intro fuel hfuel
      obtain ⟨p', hp', -⟩ := hstart.loop (Nat.lt_of_succ_le hfuel)
      have hsame : p' = p := loop_unique hp' hp
      rw [prune, if_neg hdays, hcutoff]
      dsimp only
      rw [hp', hsame]
      rfl
    · have hperm := hend.old
      rw [List.append_nil] at hperm
      exact hperm.filterMap fileCall
    · have hcount := hend.count fun report => ¬ Stuck env report
      simpa [hend.deleted] using hcount
    · have hcount := hend.count fun report => Stuck env report
      simpa [hend.failed] using hcount

/-! ### An example -/

theorem createdAt_total (r r' : Row) :
    r.2.createdAt ≤ r'.2.createdAt ∨ r'.2.createdAt ≤ r.2.createdAt :=
  Int.le_total _ _

/-- Files are kept for thirty days; the file `b.csv` cannot be deleted. -/
def surroundings : Surroundings where
  retentionDays := 30
  fails := (· = "b.csv")
  arrange _ rows := rows.insertionSort fun r r' => r.2.createdAt ≤ r'.2.createdAt
  arrange_perm _ rows := List.perm_insertionSort _ rows
  arrange_sorted _ rows := by
    have : Std.Total fun r r' : Row => r.2.createdAt ≤ r'.2.createdAt := ⟨createdAt_total⟩
    have : IsTrans Row fun r r' => r.2.createdAt ≤ r'.2.createdAt := ⟨fun _ _ _ => Int.le_trans⟩
    exact List.pairwise_insertionSort _ rows

/-- Three old reports, of which the second has the file `b.csv` and the third has none, and a
new one. -/
def reports : Table Uuid Report :=
  ((((∅ : Table Uuid Report).insert "d" ⟨"t", some "d.csv", 40 * dayMs⟩).insert
    "c" ⟨"t", none, 3⟩).insert "b" ⟨"t", some "b.csv", 2⟩).insert "a" ⟨"t", some "a.csv", 1⟩

example : (prune surroundings 1 (41 * dayMs) none { reports := reports }).map
    (fun x => (x.1.reports.keys, x.2)) =
      some (["b", "d"], ⟨2, some 1, 30, some (11 * dayMs)⟩) := by
  decide +kernel

theorem prune_exact_of_reports :
    ∃ s' result calls enough,
      (∀ fuel, enough ≤ fuel →
        prune surroundings fuel (41 * dayMs) none { reports := reports } = some (s', result)) ∧
      s'.deletions = [] ++ calls ∧
      calls.Perm ((reports.entries.filter fun row =>
        Old surroundings (41 * dayMs) none row.2).filterMap fileCall) ∧
      (∀ id, s'.reports.lookup id = (reports.lookup id).filter fun report =>
        ¬ (Old surroundings (41 * dayMs) none report ∧ ¬ Stuck surroundings report)) ∧
      result.deleted = (reports.entries.filter fun row =>
        Old surroundings (41 * dayMs) none row.2 ∧ ¬ Stuck surroundings row.2).length ∧
      result.failed.getD 0 = (reports.entries.filter fun row =>
        Old surroundings (41 * dayMs) none row.2 ∧ Stuck surroundings row.2).length :=
  prune_exact surroundings (41 * dayMs) none { reports := reports } (by decide)

end PulseOps.ReportRetention
