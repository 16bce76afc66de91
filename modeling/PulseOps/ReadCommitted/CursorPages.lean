import PulseOps.ReadCommitted.Tables
import Mathlib.Data.List.Perm.Subperm
import Mathlib.Data.List.Sort

/-!
# Batches that a cursor chains

A long list of rows is read in batches. Each query but the first starts at a cursor, the last row
of the batch before, and skips one row. Between the queries the table may change in any way.

The row that is skipped is the cursor as long as the cursor is still one of the rows that are
asked for. If it is not, the row right behind it is passed over. No row is read twice in any case.

## Main definitions

* `CursorPages.findMany` — a query.
* `CursorPages.step`, `CursorPages.run` — one batch, and a whole run.
* `CursorPages.Passes` — the rows that a query passes over.

## Main results

* `CursorPages.run_sorted` — the rows of all batches are in the order of their keys.
* `CursorPages.count_eq_one_iff` — a row that is there throughout is read once if and only if no
  query passes over it.
* `CursorPages.run_ended` — a run over finitely many rows ends.
-/

set_option autoImplicit false

namespace CursorPages

variable {κ ρ γ : Type} [LinearOrder κ]

/-! ### Queries -/

/-- The rows that satisfy a condition, in the order of their keys. -/
def matching (p : ρ → Bool) (t : AList fun _ : κ => ρ) : List (κ × ρ) :=
  ((t.entries.filter fun e => p e.2).map fun e => (e.1, e.2)).insertionSort fun a b => a.1 ≤ b.1

/-- What a query leaves of them before it takes its batch. If `strict`, a query finds nothing when
the row of its cursor is gone. -/
def rest (strict : Bool) (p : ρ → Bool) (t : AList fun _ : κ => ρ) : Option κ → List (κ × ρ)
  | none => matching p t
  | some c =>
    if strict = true ∧ (t.lookup c).isNone then []
    else ((matching p t).filter fun e => c ≤ e.1).drop 1

def findMany (strict : Bool) (p : ρ → Bool) (limit : ℕ) (t : AList fun _ : κ => ρ)
    (cursor : Option κ) : List (κ × ρ) :=
  (rest strict p t cursor).take limit

/-- A row of the table satisfies the condition. -/
def Matches (p : ρ → Bool) (t : AList fun _ : κ => ρ) (k : κ) : Prop :=
  ∃ r, t.lookup k = some r ∧ p r = true

/-- A query passes over a row behind its cursor: the cursor does not satisfy the condition any
more, and the row is the first one behind it; or the query finds nothing. -/
def Passes (strict : Bool) (p : ρ → Bool) (t : AList fun _ : κ => ρ) (c k : κ) : Prop :=
  ¬ Matches p t c ∧
    (strict = true ∧ t.lookup c = none ∨ ∀ k', Matches p t k' → c < k' → k ≤ k')

/-! ### Runs -/

/-- A table as a query finds it, and what is read of each row. -/
structure Query (κ ρ γ : Type) where
  table : AList fun _ : κ => ρ
  read : κ → ρ → γ

structure Export (κ γ : Type) where
  cursor : Option κ := none
  exported : List (κ × γ) := []
  ended : Bool := false

/-- One batch. A batch that is not full is the last. -/
def step (strict : Bool) (p : ρ → Bool) (limit : ℕ) (e : Export κ γ) (q : Query κ ρ γ) :
    Export κ γ :=
  if e.ended then e
  else
    let rows := findMany strict p limit q.table e.cursor
    match rows.getLast? with
    | none => { e with ended := true }
    | some last =>
      { cursor := some last.1
        exported := e.exported ++ rows.map fun row => (row.1, q.read row.1 row.2)
        ended := rows.length < limit }

def run (strict : Bool) (p : ρ → Bool) (limit : ℕ) (e : Export κ γ) (qs : List (Query κ ρ γ)) :
    Export κ γ :=
  qs.foldl (step strict p limit) e

/-- No query of a run passes over the row. -/
def NeverPassed (strict : Bool) (p : ρ → Bool) (limit : ℕ) (k : κ) :
    Export κ γ → List (Query κ ρ γ) → Prop
  | _, [] => True
  | e, q :: qs =>
    (e.ended = false → ∀ c, e.cursor = some c → c < k → ¬ Passes strict p q.table c k) ∧
      NeverPassed strict p limit k (step strict p limit e q) qs

/-! ### The rows of a query -/

variable {strict : Bool} {p : ρ → Bool} {limit : ℕ} {t : AList fun _ : κ => ρ}
  {cursor : Option κ} {c k : κ}

theorem mem_matching {r : ρ} : (k, r) ∈ matching p t ↔ t.lookup k = some r ∧ p r = true := by
  simp only [matching, List.mem_insertionSort, List.mem_map, List.mem_filter]
  constructor
  · rintro ⟨⟨k', r'⟩, ⟨hmem, hp⟩, heq⟩
    cases heq
    exact ⟨AList.mem_entries_iff_lookup.mp hmem, hp⟩
  · rintro ⟨hrow, hp⟩
    exact ⟨⟨k, r⟩, ⟨AList.mem_entries_iff_lookup.mpr hrow, hp⟩, rfl⟩

theorem mem_keys_matching : k ∈ (matching p t).map Prod.fst ↔ Matches p t k := by
  simp [Matches, mem_matching]

theorem sorted_matching (p : ρ → Bool) (t : AList fun _ : κ => ρ) :
    ((matching p t).map Prod.fst).Pairwise (· < ·) := by
  have htotal : Std.Total fun a b : κ × ρ => a.1 ≤ b.1 := ⟨fun a b => le_total a.1 b.1⟩
  have htrans : IsTrans (κ × ρ) fun a b => a.1 ≤ b.1 := ⟨fun _ _ _ => le_trans⟩
  have hle : ((matching p t).map Prod.fst).Pairwise (· ≤ ·) :=
    List.pairwise_map.mpr (List.pairwise_insertionSort _ _)
  have hnodup : ((matching p t).map Prod.fst).Nodup := by
    have hperm := (List.perm_insertionSort (fun a b : κ × ρ => a.1 ≤ b.1)
      ((t.entries.filter fun e => p e.2).map fun e => (e.1, e.2))).map Prod.fst
    apply hperm.nodup_iff.mpr
    rw [List.map_map]
    exact List.Nodup.sublist (List.filter_sublist.map Sigma.fst) t.nodupKeys
  apply (hle.and hnodup).imp
  rintro a b ⟨h, h'⟩
  exact lt_of_le_of_ne h h'

/-- Of an ordered list everything is left but its first element. -/
theorem mem_drop_one {ks : List κ} (hsorted : ks.Pairwise (· < ·)) :
    k ∈ ks.drop 1 ↔ k ∈ ks ∧ ∃ k' ∈ ks, k' < k := by
  cases ks with
  | nil => simp
  | cons first ks =>
    rw [List.pairwise_cons] at hsorted
    rw [List.drop_one, List.tail_cons]
    constructor
    · intro hk
      exact ⟨List.mem_cons_of_mem _ hk, first, List.mem_cons_self, hsorted.1 k hk⟩
    · rintro ⟨hk, k', hk', hlt⟩
      rcases List.mem_cons.mp hk with rfl | hk
      · rcases List.mem_cons.mp hk' with rfl | hk'
        · exact absurd hlt (lt_irrefl _)
        · exact absurd hlt (not_lt_of_gt (hsorted.1 k' hk'))
      · exact hk

theorem keys_from (p : ρ → Bool) (t : AList fun _ : κ => ρ) (c : κ) :
    ((matching p t).filter fun e => c ≤ e.1).map Prod.fst =
      ((matching p t).map Prod.fst).filter fun k => c ≤ k := by
  rw [List.filter_map]
  rfl

theorem sorted_rest (strict : Bool) (p : ρ → Bool) (t : AList fun _ : κ => ρ) (cursor : Option κ) :
    ((rest strict p t cursor).map Prod.fst).Pairwise (· < ·) := by
  cases cursor with
  | none => exact sorted_matching p t
  | some c =>
    unfold rest
    dsimp only
    split_ifs
    · exact List.Pairwise.nil
    · rw [List.map_drop, keys_from]
      exact ((sorted_matching p t).filter _).sublist (List.drop_sublist _ _)

/-- The rows that a query with a cursor leaves: those behind it that it does not pass over. -/
theorem mem_keys_rest :
    k ∈ (rest strict p t (some c)).map Prod.fst ↔
      Matches p t k ∧ c < k ∧ ¬ Passes strict p t c k := by
  have hfrom (k' : κ) : k' ∈ ((matching p t).map Prod.fst).filter (fun k => c ≤ k) ↔
      Matches p t k' ∧ c ≤ k' := by
    rw [List.mem_filter, mem_keys_matching, decide_eq_true_iff]
  unfold rest Passes
  dsimp only
  by_cases hgone : strict = true ∧ (t.lookup c).isNone
  · -- the query finds nothing
    rw [if_pos hgone]
    obtain ⟨hstrict, hnone⟩ := hgone
    rw [Option.isNone_iff_eq_none] at hnone
    simp [Matches, hstrict, hnone]
  · rw [if_neg hgone, List.map_drop, keys_from,
      mem_drop_one ((sorted_matching p t).filter _), hfrom]
    rw [Option.isNone_iff_eq_none] at hgone
    constructor
    · rintro ⟨⟨hk, -⟩, k', hk', hlt⟩
      obtain ⟨hmatches, hle⟩ := (hfrom k').mp hk'
      refine ⟨hk, lt_of_le_of_lt hle hlt, ?_⟩
      rintro ⟨hcursor, hnothing | hfirst⟩
      · exact hgone hnothing
      · have hne : c ≠ k' := fun h => hcursor (h ▸ hmatches)
        exact absurd hlt (not_lt_of_ge (hfirst k' hmatches (lt_of_le_of_ne hle hne)))
    · rintro ⟨hk, hlt, hpasses⟩
      refine ⟨⟨hk, le_of_lt hlt⟩, ?_⟩
      by_cases hcursor : Matches p t c
      · -- the cursor is the row that is skipped
        exact ⟨c, (hfrom c).mpr ⟨hcursor, le_rfl⟩, hlt⟩
      · by_contra hnone
        apply hpasses
        refine ⟨hcursor, .inr fun k' hk' hck' => ?_⟩
        by_contra hless
        exact hnone ⟨k', (hfrom k').mpr ⟨hk', le_of_lt hck'⟩, not_le.mp hless⟩

/-! ### One batch -/

def Export.keys (e : Export κ γ) : List κ := e.exported.map Prod.fst

/-- The keys of all batches are in order, and the cursor is the last of them. -/
structure Export.Sorted (e : Export κ γ) : Prop where
  sorted : e.keys.Pairwise (· < ·)
  start (h : e.cursor = none) : e.keys = []
  cursor {c : κ} (h : e.cursor = some c) : ∀ k ∈ e.keys, k ≤ c

/-- The row has not been read, and the queries have not come to it yet. -/
def Export.Ahead (e : Export κ γ) (k : κ) : Prop :=
  k ∉ e.keys ∧ e.ended = false ∧ ∀ c, e.cursor = some c → c < k

/-- The row has not been read and will not be. -/
def Export.Missed (e : Export κ γ) (k : κ) : Prop :=
  k ∉ e.keys ∧ (e.ended = true ∨ ∃ c, e.cursor = some c ∧ k < c)

variable {e : Export κ γ} {q : Query κ ρ γ} {qs : List (Query κ ρ γ)}

theorem step_ended (h : e.ended = true) : step strict p limit e q = e := if_pos h

/-- What a query that finds nothing leaves, and what one that finds rows leaves. -/
theorem step_cases (strict : Bool) (p : ρ → Bool) (q : Query κ ρ γ) (hlimit : 0 < limit)
    (h : e.ended = false) :
    rest strict p q.table e.cursor = [] ∧ step strict p limit e q = { e with ended := true } ∨
      ∃ rows last,
        (rest strict p q.table e.cursor).take limit = rows ++ [last] ∧
        step strict p limit e q =
          { cursor := some last.1
            exported := e.exported ++ (rows ++ [last]).map fun row => (row.1, q.read row.1 row.2)
            ended := decide ((rest strict p q.table e.cursor).length < limit) } := by
  unfold step findMany
  rw [if_neg (by simp [h])]
  dsimp only
  rcases List.eq_nil_or_concat ((rest strict p q.table e.cursor).take limit) with hnil | hlast
  · left
    have hrest : rest strict p q.table e.cursor = [] := by
      rcases List.take_eq_nil_iff.mp hnil with hzero | hrest
      · omega
      · exact hrest
    simp [hrest]
  · right
    obtain ⟨rows, last, hrows⟩ := hlast
    rw [List.concat_eq_append] at hrows
    refine ⟨rows, last, hrows, ?_⟩
    rw [hrows, List.getLast?_append]
    have hlength : (rows ++ [last]).length < limit ↔
        (rest strict p q.table e.cursor).length < limit := by
      rw [← hrows, List.length_take]
      omega
    simp [← hlength]

theorem lt_of_mem_rest (hk : k ∈ (rest strict p t cursor).map Prod.fst) (hc : cursor = some c) :
    c < k := by
  subst hc
  exact (mem_keys_rest.mp hk).2.1

/-- A row that the queries have not come to is left by the next one, unless it is passed over. -/
theorem Export.Ahead.mem_rest (h : e.Ahead k) :
    k ∈ (rest strict p t e.cursor).map Prod.fst ↔
      Matches p t k ∧ ∀ c, e.cursor = some c → c < k → ¬ Passes strict p t c k := by
  obtain ⟨-, -, hahead⟩ := h
  cases hcursor : e.cursor with
  | none => simpa [rest] using mem_keys_matching
  | some c =>
    rw [mem_keys_rest]
    have hlt : c < k := hahead c hcursor
    constructor
    · rintro ⟨hk, -, hpasses⟩
      refine ⟨hk, fun c' hc' _ => ?_⟩
      rwa [← Option.some.inj hc']
    · rintro ⟨hk, hpasses⟩
      exact ⟨hk, hlt, hpasses c rfl hlt⟩

omit [LinearOrder κ] in
/-- The keys of a batch. -/
theorem keys_batch (e : Export κ γ) (q : Query κ ρ γ) (rows : List (κ × ρ)) (c : Option κ)
    (ended : Bool) :
    Export.keys { cursor := c
                  exported := e.exported ++ rows.map fun row => (row.1, q.read row.1 row.2)
                  ended } = e.keys ++ rows.map Prod.fst := by
  simp [Export.keys, Function.comp_def]

/-- The batches are read in order. -/
theorem Export.Sorted.step (hlimit : 0 < limit) (h : e.Sorted) :
    (step strict p limit e q).Sorted := by
  cases hended : e.ended with
  | true => rwa [step_ended hended]
  | false =>
    rcases step_cases strict p q hlimit hended with
      ⟨-, hstep⟩ | ⟨rows, last, hrows, hstep⟩
    · rw [hstep]
      exact ⟨h.sorted, h.start, h.cursor⟩
    · have hbatch : ((rows ++ [last]).map Prod.fst).Pairwise (· < ·) := by
        rw [← hrows, List.map_take]
        exact (sorted_rest strict p q.table e.cursor).sublist (List.take_sublist _ _)
      -- the batch lies behind the cursor, and the cursor behind all keys so far
      have hbehind : ∀ k ∈ e.keys, ∀ k' ∈ (rows ++ [last]).map Prod.fst, k < k' := by
        intro k hk k' hk'
        rw [← hrows, List.map_take] at hk'
        cases hcursor : e.cursor with
        | none =>
          rw [h.start hcursor] at hk
          cases hk
        | some c =>
          exact lt_of_le_of_lt (h.cursor hcursor k hk)
            (lt_of_mem_rest (List.mem_of_mem_take hk') hcursor)
      have hlast : ∀ k ∈ (rows ++ [last]).map Prod.fst, k ≤ last.1 := by
        rw [List.map_append, List.pairwise_append] at hbatch
        intro k hk
        rw [List.map_append, List.mem_append] at hk
        rcases hk with hk | hk
        · exact le_of_lt (hbatch.2.2 k hk last.1 (by simp))
        · exact le_of_eq (by simpa using hk)
      rw [hstep]
      constructor
      · rw [keys_batch]
        exact List.pairwise_append.mpr ⟨h.sorted, hbatch, hbehind⟩
      · intro hnone
        cases hnone
      · intro c hc k hk
        obtain rfl : last.1 = c := Option.some.inj hc
        rw [keys_batch, List.mem_append] at hk
        rcases hk with hk | hk
        · exact le_of_lt (hbehind k hk last.1 (by simp))
        · exact hlast k hk

theorem taken_step (hlimit : 0 < limit) (hk : k ∈ e.keys) :
    k ∈ (step strict p limit e q).keys := by
  cases hended : e.ended with
  | true => rwa [step_ended hended]
  | false =>
    rcases step_cases strict p q hlimit hended with
      ⟨-, hstep⟩ | ⟨rows, last, -, hstep⟩
    · rwa [hstep]
    · rw [hstep, keys_batch]
      exact List.mem_append_left _ hk

/-- A row that is not passed over is in the batch, or still ahead. -/
theorem ahead_step (hlimit : 0 < limit) (h : e.Ahead k) (hk : Matches p q.table k)
    (hpasses : ∀ c, e.cursor = some c → c < k → ¬ Passes strict p q.table c k) :
    k ∈ (step strict p limit e q).keys ∨ (step strict p limit e q).Ahead k := by
  have hrest : k ∈ (rest strict p q.table e.cursor).map Prod.fst := h.mem_rest.mpr ⟨hk, hpasses⟩
  rcases step_cases strict p q hlimit h.2.1 with
    ⟨hnil, -⟩ | ⟨rows, last, hrows, hstep⟩
  · rw [hnil] at hrest
    cases hrest
  · rw [hstep]
    unfold Export.Ahead
    rw [keys_batch, ← hrows, List.map_take]
    have hsplit := List.take_append_drop limit ((rest strict p q.table e.cursor).map Prod.fst)
    rw [← hsplit, List.mem_append] at hrest
    rcases hrest with hbatch | hlater
    · exact .inl (List.mem_append_right _ hbatch)
    · -- the batch is full, and its rows come before this one
      right
      have hsorted := sorted_rest strict p q.table e.cursor
      rw [← hsplit, List.pairwise_append] at hsorted
      have hbefore := fun k' hk' => hsorted.2.2 k' hk' k hlater
      refine ⟨?_, ?_, ?_⟩
      · rw [List.mem_append, not_or]
        exact ⟨h.1, fun hmem => lt_irrefl _ (hbefore k hmem)⟩
      · have hlength := List.length_pos_of_mem hlater
        rw [List.length_drop, List.length_map] at hlength
        simp
        omega
      · intro c hc
        obtain rfl : last.1 = c := Option.some.inj hc
        apply hbefore
        rw [← List.map_take, hrows]
        simp

/-- A first batch that is full. -/
theorem step_first {ks later : List κ}
    (hkeys : (matching p q.table).map Prod.fst = ks ++ [c] ++ later)
    (hlength : ks.length + 1 = limit) :
    (step strict p limit {} q).cursor = some c ∧ (step strict p limit {} q).ended = false ∧
      (step strict p limit {} q).keys = ks ++ [c] := by
  have htake : ((matching p q.table).take limit).map Prod.fst = ks ++ [c] := by
    rw [List.map_take, hkeys]
    apply List.take_left'
    simpa using hlength
  have hlimit : 0 < limit := by omega
  rcases step_cases strict p q (e := {}) hlimit rfl with ⟨hnil, -⟩ | ⟨rows, last, hrows, hstep⟩
  · have hempty : (matching p q.table).map Prod.fst = [] := by
      change matching p q.table = [] at hnil
      rw [hnil, List.map_nil]
    rw [hkeys] at hempty
    simp at hempty
  · change (matching p q.table).take limit = rows ++ [last] at hrows
    rw [hrows, List.map_append] at htake
    obtain ⟨hrest, hlast⟩ := List.append_inj' htake rfl
    have hlong : ¬ (matching p q.table).length < limit := by
      have hcount := congrArg List.length hkeys
      rw [List.length_map, List.length_append, List.length_append,
        List.length_singleton] at hcount
      omega
    rw [hstep]
    refine ⟨by simpa using hlast, decide_eq_false hlong, ?_⟩
    rw [keys_batch, List.map_append, hrest, hlast]
    rfl

/-- A row that is passed over is missed. -/
theorem passed_step (hlimit : 0 < limit) (h : e.Ahead k) (hc : e.cursor = some c)
    (hpasses : Passes strict p q.table c k) : (step strict p limit e q).Missed k := by
  have hout : k ∉ (rest strict p q.table e.cursor).map Prod.fst := fun hmem =>
    (h.mem_rest.mp hmem).2 c hc (h.2.2 c hc) hpasses
  rcases step_cases strict p q hlimit h.2.1 with
    ⟨-, hstep⟩ | ⟨rows, last, hrows, hstep⟩
  · rw [hstep]
    exact ⟨h.1, .inl rfl⟩
  · have hlast : last.1 ∈ (rest strict p q.table e.cursor).map Prod.fst := by
      apply List.mem_of_mem_take (i := limit)
      rw [← List.map_take, hrows]
      simp
    have hne : k ≠ last.1 := fun heq => hout (heq ▸ hlast)
    rw [hc] at hlast
    obtain ⟨hmatches, hbehind, -⟩ := mem_keys_rest.mp hlast
    rw [hstep]
    constructor
    · rw [keys_batch, ← hrows, List.map_take, List.mem_append, not_or]
      exact ⟨h.1, fun hmem => hout (List.mem_of_mem_take hmem)⟩
    · right
      refine ⟨last.1, rfl, ?_⟩
      rcases hpasses.2 with ⟨hstrict, hgone⟩ | hfirst
      · -- then nothing would have been found
        simp [rest, hc, hstrict, hgone] at hrows
      · exact lt_of_le_of_ne (hfirst last.1 hmatches hbehind) hne

theorem missed_step (hlimit : 0 < limit) (h : e.Missed k) :
    (step strict p limit e q).Missed k := by
  cases hended : e.ended with
  | true => rwa [step_ended hended]
  | false =>
    obtain ⟨hout, hcursor⟩ := h
    rw [hended] at hcursor
    obtain ⟨c, hc, hlt⟩ := hcursor.resolve_left (by simp)
    rcases step_cases strict p q hlimit hended with
      ⟨-, hstep⟩ | ⟨rows, last, hrows, hstep⟩
    · rw [hstep]
      exact ⟨hout, .inl rfl⟩
    · have hbehind : ∀ k' ∈ (rows ++ [last]).map Prod.fst, c < k' := by
        intro k' hk'
        rw [← hrows, List.map_take] at hk'
        exact lt_of_mem_rest (List.mem_of_mem_take hk') hc
      rw [hstep]
      constructor
      · rw [keys_batch, List.mem_append, not_or]
        exact ⟨hout, fun hmem => lt_asymm hlt (hbehind k hmem)⟩
      · right
        exact ⟨last.1, rfl, lt_trans hlt (hbehind last.1 (by simp))⟩

/-! ### Whole runs -/

theorem run_taken (hlimit : 0 < limit) (hk : k ∈ e.keys) :
    k ∈ (run strict p limit e qs).keys := by
  induction qs generalizing e with
  | nil => exact hk
  | cons q qs ih => exact ih (taken_step hlimit hk)

theorem run_missed (hlimit : 0 < limit) (h : e.Missed k) :
    (run strict p limit e qs).Missed k := by
  induction qs generalizing e with
  | nil => exact h
  | cons q qs ih => exact ih (missed_step hlimit h)

theorem run_sorted (hlimit : 0 < limit) (h : e.Sorted) : (run strict p limit e qs).Sorted := by
  induction qs generalizing e with
  | nil => exact h
  | cons q qs ih => exact ih (h.step hlimit)

/-- A row that has been read lies behind no cursor. -/
theorem neverPassed_of_taken (hlimit : 0 < limit) (h : e.Sorted) (hk : k ∈ e.keys) :
    NeverPassed strict p limit k e qs := by
  induction qs generalizing e with
  | nil => trivial
  | cons q qs ih =>
    refine ⟨?_, ih (h.step hlimit) (taken_step hlimit hk)⟩
    intro _ c hc hlt
    exact absurd hlt (not_lt_of_ge (h.cursor hc k hk))

/-- A row that is there throughout has been read at the end if and only if no query passes over
it. -/
theorem mem_run_iff (hlimit : 0 < limit) (hsorted : e.Sorted) (h : e.Ahead k)
    (hthere : ∀ q ∈ qs, Matches p q.table k) (hended : (run strict p limit e qs).ended = true) :
    k ∈ (run strict p limit e qs).keys ↔ NeverPassed strict p limit k e qs := by
  induction qs generalizing e with
  | nil =>
    rw [run, List.foldl_nil, h.2.1] at hended
    cases hended
  | cons q qs ih =>
    by_cases hpasses : ∀ c, e.cursor = some c → c < k → ¬ Passes strict p q.table c k
    · rcases ahead_step hlimit h (hthere q List.mem_cons_self) hpasses with htaken | hahead
      · have hlater : NeverPassed strict p limit k (step strict p limit e q) qs :=
          neverPassed_of_taken hlimit (hsorted.step hlimit) htaken
        have hend : k ∈ (run strict p limit (step strict p limit e q) qs).keys :=
          run_taken hlimit htaken
        exact iff_of_true hend ⟨fun _ => hpasses, hlater⟩
      · have hrest := ih (hsorted.step hlimit) hahead
          (fun q' hq' => hthere q' (List.mem_cons_of_mem _ hq')) hended
        exact hrest.trans ⟨fun hlater => ⟨fun _ => hpasses, hlater⟩, fun hnever => hnever.2⟩
    · have hmissed : (step strict p limit e q).Missed k := by
        push Not at hpasses
        obtain ⟨c, hc, -, hpassed⟩ := hpasses
        exact passed_step hlimit h hc hpassed
      have hend : (run strict p limit (step strict p limit e q) qs).Missed k :=
        run_missed hlimit hmissed
      apply iff_of_false hend.1
      intro hnever
      exact hpasses (hnever.1 h.2.1)

theorem sorted_start : Export.Sorted ({} : Export κ γ) :=
  ⟨List.Pairwise.nil, fun _ => rfl, fun hc => nomatch hc⟩

/-- A row that is there throughout is read exactly once if and only if no query passes over it. -/
theorem count_eq_one_iff (hlimit : 0 < limit) (hthere : ∀ q ∈ qs, Matches p q.table k)
    (hended : (run strict p limit {} qs).ended = true) :
    (run strict p limit {} qs).keys.count k = 1 ↔ NeverPassed strict p limit k {} qs := by
  have hahead : Export.Ahead ({} : Export κ γ) k :=
    ⟨List.not_mem_nil, rfl, fun _ hc => nomatch hc⟩
  rw [← mem_run_iff hlimit sorted_start hahead hthere hended]
  constructor
  · intro hcount
    apply List.count_pos_iff.mp
    omega
  · have hnodup : (run strict p limit {} qs).keys.Nodup :=
      (run_sorted hlimit sorted_start).sorted.imp ne_of_lt
    exact List.count_eq_one_of_mem hnodup

/-! ### The end of a run -/

theorem run_of_ended (h : e.ended = true) : run strict p limit e qs = e := by
  induction qs with
  | nil => rfl
  | cons q qs ih =>
    rw [run, List.foldl_cons, step_ended h]
    exact ih

/-- A run that goes on has read a full batch each time. -/
theorem length_run (hlimit : 0 < limit) (hgoes : (run strict p limit e qs).ended = false) :
    (run strict p limit e qs).keys.length = e.keys.length + qs.length * limit := by
  induction qs generalizing e with
  | nil => simp [run]
  | cons q qs ih =>
    have hrest : (run strict p limit (step strict p limit e q) qs).ended = false := hgoes
    have hlength := ih hrest
    suffices hfull : (step strict p limit e q).keys.length = e.keys.length + limit by
      change (run strict p limit (step strict p limit e q) qs).keys.length = _
      rw [hlength, hfull, List.length_cons, Nat.succ_mul]
      omega
    have hended : (step strict p limit e q).ended = false := by
      by_contra hne
      rw [Bool.not_eq_false] at hne
      rw [run_of_ended hne, hne] at hrest
      cases hrest
    cases hfirst : e.ended with
    | true =>
      rw [step_ended hfirst, hfirst] at hended
      cases hended
    | false =>
      rcases step_cases strict p q hlimit hfirst with ⟨-, hstep⟩ | ⟨rows, last, hrows, hstep⟩
      · rw [hstep] at hended
        cases hended
      · rw [hstep] at hended ⊢
        rw [decide_eq_false_iff_not] at hended
        rw [keys_batch, ← hrows, List.length_append, List.length_map, List.length_take]
        omega

/-- What is read is there when it is read. -/
theorem matches_of_mem_run (hlimit : 0 < limit) (hk : k ∈ (run strict p limit e qs).keys) :
    k ∈ e.keys ∨ ∃ q ∈ qs, Matches p q.table k := by
  induction qs generalizing e with
  | nil => exact .inl hk
  | cons q qs ih =>
    rcases ih hk with hstep | ⟨q', hq', hmatches⟩
    · cases hended : e.ended with
      | true =>
        rw [step_ended hended] at hstep
        exact .inl hstep
      | false =>
        rcases step_cases strict p q hlimit hended with ⟨-, heq⟩ | ⟨rows, last, hrows, heq⟩
        · rw [heq] at hstep
          exact .inl hstep
        · rw [heq, keys_batch, List.mem_append, ← hrows, List.map_take] at hstep
          apply hstep.imp_right
          intro hbatch
          refine ⟨q, List.mem_cons_self, ?_⟩
          have hrest := List.mem_of_mem_take hbatch
          cases hcursor : e.cursor with
          | none =>
            rw [hcursor] at hrest
            exact mem_keys_matching.mp hrest
          | some c =>
            rw [hcursor] at hrest
            exact (mem_keys_rest.mp hrest).1
    · exact .inr ⟨q', List.mem_cons_of_mem _ hq', hmatches⟩

/-- A run ends as soon as more rows would have been read than there are. -/
theorem run_ended (hlimit : 0 < limit) (all : List κ)
    (hall : ∀ q ∈ qs, ∀ k, Matches p q.table k → k ∈ all)
    (hlength : all.length < qs.length * limit) :
    (run strict p limit {} qs).ended = true := by
  by_contra hgoes
  rw [Bool.not_eq_true] at hgoes
  have hread := length_run hlimit hgoes
  have hnodup : (run strict p limit {} qs).keys.Nodup :=
    (run_sorted hlimit sorted_start).sorted.imp ne_of_lt
  have hsubset : (run strict p limit {} qs).keys ⊆ all := by
    intro k hk
    rcases matches_of_mem_run hlimit hk with hnone | ⟨q, hq, hmatches⟩
    · cases hnone
    · exact hall q hq k hmatches
  have hle := (List.subperm_of_subset hnodup hsubset).length_le
  have hempty : Export.keys ({} : Export κ γ) = [] := rfl
  rw [hread, hempty, List.length_nil] at hle
  omega

end CursorPages
