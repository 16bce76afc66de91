import Mathlib.Data.List.Induction
import PulseOps.Model.Notifications

/-!
# Duplicates of notifications

A job with a reference looks for a recent row of its tenant with its reference and its title, as
rendered and trimmed. Rows that jobs write have the key of their job; so within the window a job is
skipped exactly when an earlier one with its key has written its notification. Recipients and
channels have no part in this.

## Main definitions

* `Key`, `Job.key`, `keyOfRow` — tenant, reference and title.
* `WithinWindow` — jobs that are processed shortly after one another.

## Main results

* `skipped_iff_row` — what one job looks for.
* `mem_processAll` — the rows after some jobs.
* `skipped_iff_earlier` — which jobs are skipped.
-/

set_option autoImplicit false

namespace PulseOps.Notifications

open ScriptText (trim)
open Templates (Text)

variable {ν : Type} {numberText : ν → Text} {rows start : List (NotificationRow ν)}
  {row : NotificationRow ν} {job earlier : Job ν} {jobs before after : List (Job ν)}
  {payload : Payload ν}

/-! ### Keys -/

/-- What duplicates have in common. -/
structure Key where
  tenantId : Text
  referenceType : Text
  referenceId : Text
  title : Text
  deriving DecidableEq

/-- The key of a payload with a reference. -/
def keyOfPayload (payload : Payload ν) : Option Key :=
  match truthy payload.referenceType, truthy payload.referenceId with
  | some referenceType, some referenceId =>
    some ⟨payload.tenantId, referenceType, referenceId, trim payload.title⟩
  | _, _ => none

def Job.key (numberText : ν → Text) (job : Job ν) : Option Key :=
  match rendered numberText job with
  | .error _ => none
  | .ok payload => keyOfPayload payload

def keyOfRow (row : NotificationRow ν) : Option Key :=
  match row.referenceType, row.referenceId with
  | some referenceType, some referenceId =>
    some ⟨row.tenantId, referenceType, referenceId, row.title⟩
  | _, _ => none

theorem newest_isSome (rows : List (NotificationRow ν)) :
    (newest rows).isSome = true ↔ rows ≠ [] := by
  have hstays : ∀ (rows : List (NotificationRow ν)) (best : NotificationRow ν),
      (rows.foldl newer (some best)).isSome = true := by
    intro rows
    induction rows with
    | nil => exact fun best => rfl
    | cons row rows ih =>
      intro best
      rw [List.foldl_cons, newer]
      split_ifs
      · exact ih row
      · exact ih best
  cases rows with
  | nil => simp [newest]
  | cons row rows => exact iff_of_true (hstays rows row) (List.cons_ne_nil _ _)

theorem keyOfRow_eq_some {key : Key} : keyOfRow row = some key ↔
    row.tenantId = key.tenantId ∧ row.referenceType = some key.referenceType ∧
      row.referenceId = some key.referenceId ∧ row.title = key.title := by
  obtain ⟨tenantId, referenceType, referenceId, title⟩ := key
  unfold keyOfRow
  cases row.referenceType <;> cases row.referenceId <;>
    simp only [Option.some.injEq, Key.mk.injEq, reduceCtorEq, false_and, and_false]

/-- The check finds a recent row with the key of the payload. -/
theorem existing_isSome {now : ℤ} : (existing rows payload now).isSome = true ↔
    ∃ key, keyOfPayload payload = some key ∧
      ∃ row ∈ rows, keyOfRow row = some key ∧ now - RECENT_WINDOW_MS ≤ row.createdAt := by
  unfold existing keyOfPayload
  cases truthy payload.referenceType with
  | none => simp
  | some referenceType =>
    cases truthy payload.referenceId with
    | none => simp
    | some referenceId =>
      dsimp only
      have hfound : ∀ row : NotificationRow ν, duplicates payload.tenantId referenceType referenceId
          (trim payload.title) (now - RECENT_WINDOW_MS) row = true ↔
          keyOfRow row = some ⟨payload.tenantId, referenceType, referenceId, trim payload.title⟩ ∧
            now - RECENT_WINDOW_MS ≤ row.createdAt := by
        intro row
        rw [keyOfRow_eq_some]
        simp only [duplicates, Bool.and_eq_true, decide_eq_true_eq, and_assoc]
      rw [newest_isSome]
      constructor
      · intro hne
        obtain ⟨row, hrow⟩ := List.exists_mem_of_ne_nil _ hne
        obtain ⟨hmem, hduplicate⟩ := List.mem_filter.mp hrow
        exact ⟨_, rfl, row, hmem, (hfound row).mp hduplicate⟩
      · rintro ⟨key, hkey, row, hmem, hrow⟩
        cases hkey
        exact List.ne_nil_of_mem (List.mem_filter.mpr ⟨hmem, (hfound row).mpr hrow⟩)

/-! ### One job -/

theorem failed_ne (failure : Failure) :
    (∀ found : NotificationRow ν, failed failure ≠ .skipped found) ∧
    ∀ row : NotificationRow ν, failed failure ≠ .created row := by
  unfold failed
  split_ifs
  · exact ⟨nofun, nofun⟩
  · exact ⟨nofun, nofun⟩

/-- A job is skipped when there is a recent row with its key. -/
theorem skipped_iff_row :
    (∃ found, (processSendNotification numberText rows job).1 = .skipped found) ↔
    ∃ key, job.key numberText = some key ∧
      ∃ row ∈ rows, keyOfRow row = some key ∧ job.now - RECENT_WINDOW_MS ≤ row.createdAt := by
  unfold processSendNotification Job.key
  cases hrendered : rendered numberText job with
  | error failure => simp [(failed_ne failure).1]
  | ok payload =>
    dsimp only
    rw [← existing_isSome]
    cases hexisting : existing rows payload job.now with
    | some found => simp
    | none =>
      dsimp only
      cases hcreated : createNotification payload job.newId job.createdAt with
      | error failure => simp [(failed_ne failure).1]
      | ok row => simp

theorem createNotification_eq_ok {newId : ℕ} {createdAt : ℤ}
    (h : createNotification payload newId createdAt = .ok row) :
    keyOfRow row = keyOfPayload payload ∧ row.createdAt = createdAt := by
  unfold createNotification at h
  split_ifs at h
  all_goals cases h
  exact ⟨rfl, rfl⟩

/-- The row of a job has its key, and no other job writes one. -/
theorem rows_after (numberText : ν → Text) (job : Job ν) (rows : List (NotificationRow ν)) :
    (∃ row, (processSendNotification numberText rows job).1 = .created row ∧
      keyOfRow row = job.key numberText ∧ row.createdAt = job.createdAt ∧
      (processSendNotification numberText rows job).2 = rows ++ [row]) ∨
    (∀ row, (processSendNotification numberText rows job).1 ≠ .created row) ∧
      (processSendNotification numberText rows job).2 = rows := by
  unfold processSendNotification Job.key
  cases hrendered : rendered numberText job with
  | error failure => exact .inr ⟨(failed_ne failure).2, rfl⟩
  | ok payload =>
    dsimp only
    cases hexisting : existing rows payload job.now with
    | some found => exact .inr ⟨by rintro row ⟨⟩, rfl⟩
    | none =>
      dsimp only
      cases hcreated : createNotification payload job.newId job.createdAt with
      | error failure => exact .inr ⟨(failed_ne failure).2, rfl⟩
      | ok row =>
        obtain ⟨hkey, htime⟩ := createNotification_eq_ok hcreated
        exact .inl ⟨row, rfl, hkey, htime, rfl⟩

/-! ### Many jobs -/

/-- What a job has written. -/
def Wrote (numberText : ν → Text) (start : List (NotificationRow ν)) (before : List (Job ν))
    (job : Job ν) (row : NotificationRow ν) : Prop :=
  (processSendNotification numberText (processAll numberText start before) job).1 = .created row

theorem processAll_concat (jobs : List (Job ν)) (job : Job ν) :
    processAll numberText start (jobs ++ [job]) =
      (processSendNotification numberText (processAll numberText start jobs) job).2 := by
  rw [processAll, List.foldl_concat]
  rfl

/-- One job more. -/
theorem mem_processAll_concat : row ∈ processAll numberText start (jobs ++ [job]) ↔
    row ∈ processAll numberText start jobs ∨ Wrote numberText start jobs job row := by
  rw [processAll_concat, Wrote]
  rcases rows_after numberText job (processAll numberText start jobs) with
    ⟨written, hwritten, -, -, hrows⟩ | ⟨hnone, hrows⟩
  · rw [hrows, hwritten, List.mem_append, List.mem_singleton, Outcome.created.injEq]
    exact or_congr_right eq_comm
  · rw [hrows]
    exact (or_iff_left (hnone row)).symm

/-- Where a list with one entry more is split. -/
theorem split_concat {α : Type} {l before after : List α} {a b : α} :
    l ++ [a] = before ++ b :: after ↔
      (∃ after', after = after' ++ [a] ∧ l = before ++ b :: after') ∨
        (before = l ∧ b = a ∧ after = []) := by
  constructor
  · intro h
    rcases List.eq_nil_or_concat after with rfl | ⟨after', last, rfl⟩
    · obtain ⟨rfl, hlast⟩ := List.append_inj' h rfl
      cases hlast
      exact .inr ⟨rfl, rfl, rfl⟩
    · rw [List.concat_eq_append, ← List.cons_append, ← List.append_assoc] at h
      obtain ⟨rfl, hlast⟩ := List.append_inj' h rfl
      cases hlast
      exact .inl ⟨after', List.concat_eq_append, rfl⟩
  · rintro (⟨after', rfl, rfl⟩ | ⟨rfl, rfl, rfl⟩)
    · simp
    · rfl

/-- The rows after some jobs are those at the start, and those of the jobs. -/
theorem mem_processAll : row ∈ processAll numberText start jobs ↔
    row ∈ start ∨ ∃ before job after, jobs = before ++ job :: after ∧
      Wrote numberText start before job row := by
  induction jobs using List.reverseRecOn with
  | nil => simp [processAll]
  | append_singleton jobs job ih =>
    rw [mem_processAll_concat, ih, or_assoc]
    apply or_congr_right
    constructor
    · rintro (⟨before, job', after, rfl, hwrote⟩ | hwrote)
      · exact ⟨before, job', after ++ [job], by simp, hwrote⟩
      · exact ⟨jobs, job, [], rfl, hwrote⟩
    · rintro ⟨before, job', after, hsplit, hwrote⟩
      rcases split_concat.mp hsplit with ⟨after', -, hjobs⟩ | ⟨rfl, rfl, -⟩
      · exact .inl ⟨before, job', after', hjobs, hwrote⟩
      · exact .inr hwrote

theorem key_of_wrote (h : Wrote numberText start before job row) :
    keyOfRow row = job.key numberText ∧ row.createdAt = job.createdAt := by
  rcases rows_after numberText job (processAll numberText start before) with
    ⟨written, hwritten, hkey, htime, -⟩ | ⟨hnone, -⟩
  · rw [Wrote, hwritten] at h
    cases h
    exact ⟨hkey, htime⟩
  · exact absurd h (hnone row)

/-- Jobs that are processed shortly after one another, when no other notification is recent. -/
structure WithinWindow (start : List (NotificationRow ν)) (jobs : List (Job ν)) : Prop where
  old : ∀ row ∈ start, ∀ job ∈ jobs, row.createdAt < job.now - RECENT_WINDOW_MS
  recent : jobs.Pairwise fun earlier later => later.now - RECENT_WINDOW_MS ≤ earlier.createdAt

/-- A job is skipped if and only if an earlier one with its tenant, its reference and its title has
written its notification, whatever their recipients and channels. -/
theorem skipped_iff_earlier (h : WithinWindow start jobs) (hjobs : jobs = before ++ job :: after) :
    (∃ found, (processSendNotification numberText (processAll numberText start before) job).1 =
        .skipped found) ↔
      ∃ key, job.key numberText = some key ∧ ∃ before' earlier between row,
        before = before' ++ earlier :: between ∧ earlier.key numberText = some key ∧
          Wrote numberText start before' earlier row := by
  rw [skipped_iff_row]
  apply exists_congr
  intro key
  apply and_congr_right
  intro hkey
  constructor
  · rintro ⟨row, hmem, hrow, hrecent⟩
    rcases mem_processAll.mp hmem with hstart | ⟨before', earlier, between, hbefore, hwrote⟩
    · -- rows of the start are too old
      have hold := h.old row hstart job (by rw [hjobs]; simp)
      exact absurd hrecent (Int.not_le.mpr hold)
    · exact ⟨before', earlier, between, row, hbefore, (key_of_wrote hwrote).1 ▸ hrow, hwrote⟩
  · rintro ⟨before', earlier, between, row, hbefore, hearlier, hwrote⟩
    obtain ⟨hkey', htime⟩ := key_of_wrote hwrote
    refine ⟨row, mem_processAll.mpr (.inr ⟨before', earlier, between, hbefore, hwrote⟩),
      hkey'.trans hearlier, ?_⟩
    have hpairs := h.recent
    rw [hjobs, hbefore, List.pairwise_append] at hpairs
    rw [htime]
    exact hpairs.2.2 earlier (by simp) job List.mem_cons_self

private def orderJob (userId channel : String) (now : ℤ) (newId : ℕ) : Job ℕ where
  payload := {
    tenantId := "shop".toList
    userId := some userId.toList
    title := "Order created".toList
    message := "Order 7 created".toList
    channel := channel.toList
    referenceType := some "ORDER".toList
    referenceId := some "7".toList }
  templates := []
  now
  newId
  createdAt := now

private theorem withinWindow_two :
    WithinWindow (ν := ℕ) [] [orderJob "ann" "IN_APP" 0 1, orderJob "bea" "EMAIL" 1000 2] where
  old := by simp
  recent := by
    simp only [List.pairwise_cons, List.mem_singleton, forall_eq, List.not_mem_nil,
      IsEmpty.forall_iff, implies_true, List.Pairwise.nil, and_true]
    decide

private theorem wrote_first : Wrote (ν := ℕ) (fun _ => []) [] [] (orderJob "ann" "IN_APP" 0 1)
    ⟨1, "shop".toList, some "ann".toList, "INFO".toList, "Order created".toList,
      "Order 7 created".toList, "IN_APP".toList, some "ORDER".toList, some "7".toList, .obj [],
      0⟩ :=
  rfl

/-- The second one of two jobs for the same order is skipped, though it is for another user and
another channel. -/
theorem skipped_other_recipient :
    ∃ found, (processSendNotification (fun _ => [])
      (processAll (fun _ => []) [] [orderJob "ann" "IN_APP" 0 1])
      (orderJob "bea" "EMAIL" 1000 2)).1 = .skipped found := by
  have hsplit : [orderJob "ann" "IN_APP" 0 1, orderJob "bea" "EMAIL" 1000 2] =
      [orderJob "ann" "IN_APP" 0 1] ++ orderJob "bea" "EMAIL" 1000 2 :: [] := rfl
  refine (skipped_iff_earlier withinWindow_two hsplit).mpr ?_
  refine ⟨_, rfl, [], orderJob "ann" "IN_APP" 0 1, [], _, rfl, rfl, wrote_first⟩

/-- So a job is skipped where no job for its user and its channel has written anything. -/
theorem recipient_not_distinguished :
    ¬ ∀ (before : List (Job ℕ)) (job : Job ℕ), WithinWindow [] (before ++ [job]) →
      ((∃ found,
          (processSendNotification (fun _ => []) (processAll (fun _ => []) [] before) job).1 =
            .skipped found) ↔
        ∃ key, job.key (fun _ => []) = some key ∧ ∃ before' earlier between row,
          before = before' ++ earlier :: between ∧ earlier.key (fun _ => []) = some key ∧
            earlier.payload.userId = job.payload.userId ∧
            earlier.payload.channel = job.payload.channel ∧
            Wrote (fun _ => []) [] before' earlier row) := by
  intro h
  have hskipped : ∃ found, (processSendNotification (fun _ => [])
      (processAll (fun _ => []) [] [orderJob "ann" "IN_APP" 0 1])
      (orderJob "bea" "EMAIL" 1000 2)).1 = .skipped found := ⟨_, rfl⟩
  obtain ⟨key, -, before', earlier, between, row, hbefore, -, huser, -⟩ :=
    (h [orderJob "ann" "IN_APP" 0 1] (orderJob "bea" "EMAIL" 1000 2) withinWindow_two).mp hskipped
  have hearlier : earlier = orderJob "ann" "IN_APP" 0 1 := by
    have hmem : earlier ∈ [orderJob "ann" "IN_APP" 0 1] := by
      rw [hbefore]
      simp
    exact List.mem_singleton.mp hmem
  rw [hearlier] at huser
  exact absurd (Option.some.inj huser) (by decide +kernel)

end PulseOps.Notifications
