import PulseOps.Model.ReportRows

/-!
# What an export misses

An export reads its rows in batches, and goes on behind the last row of the batch before, which
it skips. When that row does not satisfy the filter any more, the row right behind it is skipped
in its place: a customer who is deleted during an export takes the next one out of the report.

## Main results

* `exported_once_iff` — every row that is there throughout is exported once if and only if no
  query passes over one.
* `rows_end` — an export of finitely many rows ends.
* `deleted_customer_hides_next` — 1001 customers, of whom the thousandth is deleted.
-/

set_option autoImplicit false

namespace PulseOps.ReportRows

open CursorPages
open Reports (ReportType)

variable {strict : Bool} {type : ReportType} {tenantId : Uuid} {filters : Filters}
  {visits : List Visit} {id : Uuid}

/-- The row exists and satisfies the filter during the whole export. -/
def Lasts (type : ReportType) (tenantId : Uuid) (filters : Filters) (visits : List Visit)
    (id : Uuid) : Prop :=
  ∀ visit ∈ visits, Matches (whereOf tenantId filters type) (tableOf visit.found type) id

/-- A query of the export passes over the row: its cursor, the last row of the batch before, does
not satisfy the filter any more, and the row is the first one behind it. -/
def PassedOver (strict : Bool) (type : ReportType) (tenantId : Uuid) (filters : Filters)
    (visits : List Visit) (id : Uuid) : Prop :=
  ¬ NeverPassed strict (whereOf tenantId filters type) batch id {}
    (visits.map (Visit.query tenantId type))

theorem Lasts.queries (h : Lasts type tenantId filters visits id) :
    ∀ q ∈ visits.map (Visit.query tenantId type),
      Matches (whereOf tenantId filters type) q.table id := by
  intro q hq
  obtain ⟨visit, hvisit, rfl⟩ := List.mem_map.mp hq
  exact h visit hvisit

/-- Every row that exists and satisfies the filter during the whole export is exported exactly
once if and only if no query passes over such a row. -/
theorem exported_once_iff (strict : Bool) (type : ReportType) (tenantId : Uuid) (filters : Filters)
    (visits : List Visit) (hended : (rows strict type tenantId filters visits).ended = true) :
    (∀ id, Lasts type tenantId filters visits id →
      (rows strict type tenantId filters visits).keys.count id = 1) ↔
      ∀ id, Lasts type tenantId filters visits id →
        ¬ PassedOver strict type tenantId filters visits id := by
  apply forall_congr'
  intro id
  apply forall_congr'
  intro hlasts
  rw [PassedOver, not_not]
  exact count_eq_one_iff (by decide) hlasts.queries hended

/-- An export ends as soon as it would have read more rows than there are. -/
theorem rows_end (ids : List Uuid)
    (hids : ∀ visit ∈ visits, ∀ id,
      Matches (whereOf tenantId filters type) (tableOf visit.found type) id → id ∈ ids)
    (hlength : ids.length < visits.length * batch) :
    (rows strict type tenantId filters visits).ended = true := by
  apply run_ended (by decide) ids
  · intro q hq id hmatches
    obtain ⟨visit, hvisit, rfl⟩ := List.mem_map.mp hq
    exact hids visit hvisit id hmatches
  · rwa [List.length_map]

/-! ### Many customers -/

/-- So many digits of a number. -/
def digitsOf : ℕ → ℕ → List Char
  | 0, _ => []
  | width + 1, n => Nat.digitChar (n / 10 ^ width) :: digitsOf width (n % 10 ^ width)

theorem digitChar_lt : ∀ m < 10, ∀ n < m, Nat.digitChar n < Nat.digitChar m := by
  decide +kernel

theorem digitsOf_lt {width n m : ℕ} (h : n < m) (hm : m < 10 ^ width) :
    digitsOf width n < digitsOf width m := by
  induction width generalizing n m with
  | zero => omega
  | succ width ih =>
    have hpos : 0 < 10 ^ width := Nat.pow_pos (by decide)
    rw [digitsOf, digitsOf, List.cons_lt_cons_iff]
    have hm' : m / 10 ^ width < 10 := by
      rw [Nat.div_lt_iff_lt_mul hpos]
      rw [Nat.pow_succ] at hm
      omega
    rcases Nat.lt_or_eq_of_le (Nat.div_le_div_right (c := 10 ^ width) (Nat.le_of_lt h)) with
      hless | hsame
    · exact .inl (digitChar_lt _ hm' _ hless)
    · right
      refine ⟨by rw [hsame], ih ?_ (Nat.mod_lt _ hpos)⟩
      have hn := Nat.div_add_mod n (10 ^ width)
      have hd := Nat.div_add_mod m (10 ^ width)
      rw [hsame] at hn
      omega

def idStart : String := "00000000-0000-4000-8000-"

/-- The identifiers of the customers, in order. -/
def idOf (n : ℕ) : Uuid := idStart ++ String.ofList (digitsOf 12 n)

theorem idOf_lt {n m : ℕ} (h : n < m) (hm : m < 10 ^ 12) : idOf n < idOf m := by
  rw [String.lt_iff_toList_lt, idOf, idOf, String.toList_append, String.toList_append,
    String.toList_ofList, String.toList_ofList]
  exact List.append_left_lt (digitsOf_lt h hm)

theorem idOf_inj {n m : ℕ} (hn : n < 10 ^ 12) (hm : m < 10 ^ 12) (h : idOf n = idOf m) : n = m := by
  rcases lt_trichotomy n m with hlt | heq | hlt
  · exact absurd h (ne_of_lt (idOf_lt hlt hm))
  · exact heq
  · exact absurd h.symm (ne_of_lt (idOf_lt hlt hn))

theorem lt_of_idOf_lt {n m : ℕ} (hn : n < 10 ^ 12) (h : idOf n < idOf m) : n < m := by
  by_contra hle
  rcases Nat.lt_or_eq_of_le (not_lt.mp hle) with hlt | heq
  · exact lt_asymm h (idOf_lt hlt hn)
  · rw [heq] at h
    exact lt_irrefl _ h

/-- So many customers, of whom some have been deleted. -/
def shopCustomers (count : ℕ) (hcount : count ≤ 10 ^ 12) (deleted : ℕ → Bool) :
    Table Uuid CustomerRow where
  entries := (List.range count).map fun n =>
    ⟨idOf n, ⟨"t", "", "", "", none, 0, if deleted n then some 0 else none⟩⟩
  nodupKeys := by
    unfold List.NodupKeys List.keys
    rw [List.map_map]
    apply List.Nodup.map_on _ List.nodup_range
    intro n hn m hm h
    rw [List.mem_range] at hn hm
    exact idOf_inj (by omega) (by omega) h

def visitOf (count : ℕ) (hcount : count ≤ 10 ^ 12) (deleted : ℕ → Bool) : Visit where
  found := { customers := shopCustomers count hcount deleted }
  totals := {}

section

variable {count : ℕ} {hcount : count ≤ 10 ^ 12} {deleted : ℕ → Bool}

theorem matches_visitOf :
    Matches (whereOf "t" {} .customers)
      (tableOf (visitOf count hcount deleted).found .customers) id ↔
      ∃ n < count, idOf n = id ∧ deleted n = false := by
  constructor
  · rintro ⟨c, hc, hwhere⟩
    obtain ⟨n, hn, heq⟩ := List.mem_map.mp (AList.mem_entries_iff_lookup.mpr hc)
    cases heq
    refine ⟨n, List.mem_range.mp hn, rfl, ?_⟩
    cases hdeleted : deleted n with
    | false => rfl
    | true => simp [whereOf, hdeleted] at hwhere
  · rintro ⟨n, hn, rfl, hdeleted⟩
    refine ⟨(⟨"t", "", "", "", none, 0, none⟩ : CustomerRow), ?_, by decide⟩
    apply AList.mem_entries_iff_lookup.mp
    apply List.mem_map.mpr
    exact ⟨n, List.mem_range.mpr hn, by rw [hdeleted]; rfl⟩

/-- The customers in the order of their identifiers. -/
theorem keys_visitOf :
    (matching (whereOf "t" {} .customers)
      (tableOf (visitOf count hcount fun _ => false).found .customers)).map Prod.fst =
        (List.range count).map idOf := by
  have hsorted : ((List.range count).map idOf).Pairwise (· < ·) := by
    rw [List.pairwise_map]
    apply List.pairwise_lt_range.imp_of_mem
    intro n m hn hm h
    rw [List.mem_range] at hm
    exact idOf_lt h (by omega)
  have hmatching := sorted_matching (whereOf "t" {} .customers)
    (tableOf (visitOf count hcount fun _ => false).found .customers)
  apply List.Perm.eq_of_pairwise (fun a b _ _ h h' => absurd h' (lt_asymm h)) hmatching hsorted
  apply (List.perm_ext_iff_of_nodup (hmatching.imp ne_of_lt) (hsorted.imp ne_of_lt)).mpr
  intro id
  rw [mem_keys_matching, matches_visitOf, List.mem_map]
  simp

end

/-- The thousandth of 1001 customers is deleted after the first batch. -/
def deletedBetween : List Visit :=
  [visitOf 1001 (by decide) fun _ => false, visitOf 1001 (by decide) (· = 999)]

/-- After the first batch the thousandth customer is the cursor, and the last one is ahead. -/
theorem first_batch (e : Export Uuid (List Cell))
    (he : e = step true (whereOf "t" {} .customers) batch {}
      (Visit.query "t" .customers (visitOf 1001 (by decide) fun _ => false))) :
    e.cursor = some (idOf 999) ∧ e.Ahead (idOf 1000) := by
  -- the customers 0 to 999 fill the batch, and the customer 1000 is left
  have hrange : (List.range 1001).map idOf =
      (List.range 999).map idOf ++ [idOf 999] ++ [idOf 1000] := by
    have hsplit : List.range (999 + 1 + 1) = List.range 999 ++ [999] ++ [1000] := by
      rw [List.range_succ, List.range_succ]
    rw [hsplit, List.map_append, List.map_append, List.map_singleton, List.map_singleton]
  have hlength : ((List.range 999).map idOf).length + 1 = batch := by
    rw [List.length_map, List.length_range]
    rfl
  have hkeys := @keys_visitOf 1001 (by decide)
  rw [hrange] at hkeys
  obtain ⟨hcursor, hended, hread⟩ : e.cursor = some (idOf 999) ∧ e.ended = false ∧
      e.keys = (List.range 999).map idOf ++ [idOf 999] := by
    rw [he]
    exact step_first hkeys hlength
  refine ⟨hcursor, ?_, hended, ?_⟩
  · rw [hread, List.mem_append, not_or]
    constructor
    · intro hmem
      obtain ⟨n, hn, hid⟩ := List.mem_map.mp hmem
      rw [List.mem_range] at hn
      have := idOf_inj (by omega) (by decide) hid
      omega
    · rw [List.mem_singleton]
      intro hid
      have := idOf_inj (by decide) (by decide) hid
      omega
  · intro c hc
    rw [hcursor] at hc
    rw [← Option.some.inj hc]
    exact idOf_lt (by decide) (by decide)

/-- One of 1001 customers is deleted after the first batch, but not the last one of it. -/
def deletedBehind : List Visit :=
  [visitOf 1001 (by decide) fun _ => false, visitOf 1001 (by decide) (· = 500)]

theorem deletedBehind_lasts : Lasts .customers "t" {} deletedBehind (idOf 1000) := by
  intro visit hvisit
  rcases List.mem_cons.mp hvisit with rfl | hvisit
  · exact matches_visitOf.mpr ⟨1000, by decide, rfl, rfl⟩
  · rw [List.mem_singleton.mp hvisit]
    exact matches_visitOf.mpr ⟨1000, by decide, rfl, rfl⟩

theorem deletedBehind_ended : (rows true .customers "t" {} deletedBehind).ended = true := by
  apply rows_end ((List.range 1001).map idOf)
  · intro visit hvisit id hmatches
    rcases List.mem_cons.mp hvisit with rfl | hvisit
    · obtain ⟨n, hn, rfl, -⟩ := matches_visitOf.mp hmatches
      exact List.mem_map_of_mem (List.mem_range.mpr hn)
    · rw [List.mem_singleton.mp hvisit] at hmatches
      obtain ⟨n, hn, rfl, -⟩ := matches_visitOf.mp hmatches
      exact List.mem_map_of_mem (List.mem_range.mpr hn)
  · rw [List.length_map, List.length_range]
    decide

/-- The second query starts behind its cursor, and everybody who stays is exported once. -/
theorem deletedBehind_exported :
    Lasts .customers "t" {} deletedBehind (idOf 1000) ∧
      ∀ id, Lasts .customers "t" {} deletedBehind id →
        (rows true .customers "t" {} deletedBehind).keys.count id = 1 := by
  refine ⟨deletedBehind_lasts, (exported_once_iff true .customers "t" {} deletedBehind
    deletedBehind_ended).mpr fun id _ hpassed => hpassed ?_⟩
  rw [deletedBehind, List.map_cons, List.map_singleton, NeverPassed, NeverPassed]
  refine ⟨fun _ c hc => (nomatch hc), fun _ c hc _ hpasses => ?_, trivial⟩
  obtain rfl : idOf 999 = c := Option.some.inj ((first_batch _ rfl).1.symm.trans hc)
  have hmatches : Matches (whereOf "t" {} .customers)
      (tableOf (visitOf 1001 (by decide) (· = 500)).found .customers) (idOf 999) :=
    matches_visitOf.mpr ⟨999, by decide, rfl, by decide⟩
  exact hpasses.1 hmatches

/-- Behind the deleted customer only the last one is left. -/
theorem eq_last_of_behind {k : Uuid}
    (hk : Matches (whereOf "t" {} .customers)
      (tableOf (visitOf 1001 (by decide) (· = 999)).found .customers) k)
    (hbehind : idOf 999 < k) : k = idOf 1000 := by
  obtain ⟨n, hn, rfl, -⟩ := matches_visitOf.mp hk
  have hlt : 999 < n := lt_of_idOf_lt (by decide) hbehind
  have heq : n = 1000 := by omega
  rw [heq]

theorem last_passed :
    Passes true (whereOf "t" {} .customers)
      (tableOf (visitOf 1001 (by decide) (· = 999)).found .customers) (idOf 999) (idOf 1000) := by
  constructor
  · intro hk
    obtain ⟨n, hn, hid, hkept⟩ := matches_visitOf.mp hk
    have heq : n = 999 := idOf_inj (by omega) (by decide) hid
    rw [heq] at hkept
    simp at hkept
  · right
    intro k' hk' hbehind
    rw [eq_last_of_behind hk' hbehind]

/-- The export ends without the last customer, who has been there throughout. -/
theorem deleted_customer_hides_next :
    (rows true .customers "t" {} deletedBetween).ended = true ∧
      Lasts .customers "t" {} deletedBetween (idOf 1000) ∧
      (rows true .customers "t" {} deletedBetween).keys.count (idOf 1000) = 0 := by
  have hlasts : Lasts .customers "t" {} deletedBetween (idOf 1000) := by
    intro visit hvisit
    rcases List.mem_cons.mp hvisit with rfl | hvisit
    · exact matches_visitOf.mpr ⟨1000, by decide, rfl, rfl⟩
    · rw [List.mem_singleton.mp hvisit]
      exact matches_visitOf.mpr ⟨1000, by decide, rfl, rfl⟩
  -- the first batch ends at the customer 999, who becomes the cursor
  generalize he : step true (whereOf "t" {} .customers) batch {}
    (Visit.query "t" .customers (visitOf 1001 (by decide) fun _ => false)) = e
  obtain ⟨hcursor, hahead⟩ := first_batch e he.symm
  have hrun : rows true .customers "t" {} deletedBetween =
      step true (whereOf "t" {} .customers) batch e
        (Visit.query "t" .customers (visitOf 1001 (by decide) (· = 999))) := by
    rw [rows, deletedBetween, List.map_cons, List.map_singleton, run, List.foldl_cons,
      List.foldl_cons, List.foldl_nil, he]
  -- who is deleted before the second batch, so `skip: 1` drops the customer 1000
  have hmissed : (step true (whereOf "t" {} .customers) batch e
      (Visit.query "t" .customers (visitOf 1001 (by decide) (· = 999)))).Missed (idOf 1000) :=
    passed_step (by decide) hahead hcursor last_passed
  rw [hrun]
  refine ⟨?_, hlasts, List.count_eq_zero.mpr hmissed.1⟩
  rcases step_cases true (whereOf "t" {} .customers) (Visit.query "t" .customers
    (visitOf 1001 (by decide) (· = 999))) (by decide : 0 < batch) hahead.2.1 with
    ⟨-, hstep⟩ | ⟨found, last, hfound, -⟩
  · rw [hstep]
  · -- the last row of a batch would be the one that is passed over
    exfalso
    have hlast : last.1 ∈ (rest true (whereOf "t" {} .customers)
        (tableOf (visitOf 1001 (by decide) (· = 999)).found .customers)
        (some (idOf 999))).map Prod.fst := by
      have htake : (rest true (whereOf "t" {} .customers)
          (tableOf (visitOf 1001 (by decide) (· = 999)).found .customers)
          (some (idOf 999))).take batch = found ++ [last] := hcursor ▸ hfound
      apply List.mem_of_mem_take (i := batch)
      rw [← List.map_take, htake]
      simp
    obtain ⟨hmatches, hbehind, hpasses⟩ := mem_keys_rest.mp hlast
    rw [eq_last_of_behind hmatches hbehind] at hpasses
    exact hpasses last_passed

end PulseOps.ReportRows
