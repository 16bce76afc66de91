import Mathlib.Algebra.Order.BigOperators.Group.List
import Mathlib.Data.Finmap
import Mathlib.Data.List.AList

/-!
# Sums over finite tables

A finite table is an association list without repeated keys. `AList.total` adds up a
quantity over its rows. Writing a row changes the total by the difference between the new
and the old row, so a bound on the total is kept by every write that does not raise the
quantity of its row.

## Main definitions

* `AList.total` — the sum of a quantity over the rows of a table.

## Main results

* `AList.total_insert` — the total after writing one row.
* `AList.total_insert_new`, `AList.total_insert_le` — for a new row, and for an old one.
* `AList.total_le_total`, `AList.total_eq_zero` — totals compare row by row.
-/

set_option autoImplicit false

namespace AList

variable {κ ρ M : Type} [DecidableEq κ] {t : AList fun _ : κ => ρ} {k : κ} {v w : ρ}

section Monoid

variable [AddCommMonoid M] {f : κ → ρ → M}

/-- The sum of `f` over the rows of a table. -/
def total (f : κ → ρ → M) (t : AList fun _ : κ => ρ) : M :=
  (t.entries.map fun e => f e.1 e.2).sum

/-- The total after writing the row `k`: the other rows stay. -/
theorem total_insert (f : κ → ρ → M) (t : AList fun _ : κ => ρ) (k : κ) (v : ρ) :
    (t.insert k v).total f = f k v + (t.erase k).total f := by
  simp [total, entries_insert, erase]

private theorem sum_kerase (f : κ → ρ → M) {xs : List (Sigma fun _ : κ => ρ)}
    (h : xs.dlookup k = some v) :
    (xs.map fun e => f e.1 e.2).sum = f k v + ((xs.kerase k).map fun e => f e.1 e.2).sum := by
  induction xs with
  | nil => simp at h
  | cons x xs ih =>
    by_cases hk : k = x.1
    · subst hk
      rw [List.kerase_cons_eq rfl]
      rw [List.dlookup_cons_eq] at h
      obtain rfl := Option.some.inj h
      rw [List.map_cons, List.sum_cons]
    · rw [List.kerase_cons_ne hk, List.map_cons, List.map_cons, List.sum_cons, List.sum_cons]
      rw [List.dlookup_cons_ne _ _ hk] at h
      rw [ih h, add_left_comm]

/-- The total with one row set apart. -/
theorem total_eq_add_erase (f : κ → ρ → M) (h : t.lookup k = some v) :
    t.total f = f k v + (t.erase k).total f :=
  sum_kerase f h

theorem erase_eq_self (h : t.lookup k = none) : t.erase k = t := by
  have hkey : k ∉ t := AList.lookup_eq_none.mp h
  exact AList.ext (List.kerase_of_notMem_keys hkey)

/-- A row that was not there adds its quantity. -/
theorem total_insert_new (f : κ → ρ → M) (h : t.lookup k = none) :
    (t.insert k v).total f = f k v + t.total f := by
  rw [total_insert, erase_eq_self h]

/-- A row that is written with the same quantity. -/
theorem total_insert_same (h : t.lookup k = some w) (hf : f k v = f k w) :
    (t.insert k v).total f = t.total f := by
  rw [total_insert, total_eq_add_erase f h, hf]

theorem total_congr {g : κ → ρ → M} (h : ∀ k v, t.lookup k = some v → f k v = g k v) :
    t.total f = t.total g := by
  rw [total, total]
  congr 1
  apply List.map_congr_left
  intro e he
  exact h e.1 e.2 (AList.mem_lookup_iff.mpr he)

/-- Rows without quantity add up to nothing. -/
theorem total_eq_zero (h : ∀ k v, t.lookup k = some v → f k v = 0) : t.total f = 0 := by
  apply List.sum_eq_zero
  intro x hx
  obtain ⟨e, he, rfl⟩ := List.mem_map.mp hx
  exact h e.1 e.2 (AList.mem_lookup_iff.mpr he)

end Monoid

section Ordered

variable [AddCommMonoid M] [PartialOrder M] [IsOrderedAddMonoid M] {f g : κ → ρ → M}

/-- Totals compare row by row. -/
theorem total_le_total (h : ∀ k v, t.lookup k = some v → f k v ≤ g k v) :
    t.total f ≤ t.total g := by
  apply List.sum_le_sum
  intro e he
  exact h e.1 e.2 (AList.mem_lookup_iff.mpr he)

theorem total_nonneg (h : ∀ k v, t.lookup k = some v → 0 ≤ f k v) : 0 ≤ t.total f := by
  apply List.sum_nonneg
  intro x hx
  obtain ⟨e, he, rfl⟩ := List.mem_map.mp hx
  exact h e.1 e.2 (AList.mem_lookup_iff.mpr he)

/-- Where no row exceeds its counterpart, the totals are equal only if the rows are. -/
theorem total_eq_total_iff {M : Type} [AddCommMonoid M] [PartialOrder M]
    [IsOrderedCancelAddMonoid M] {f g : κ → ρ → M}
    (hle : ∀ k v, t.lookup k = some v → f k v ≤ g k v) :
    t.total f = t.total g ↔ ∀ k v, t.lookup k = some v → f k v = g k v := by
  constructor
  · intro htotal k v hlookup
    by_contra hne
    have hlt : f k v < g k v := lt_of_le_of_ne (hle k v hlookup) hne
    have hmem : (⟨k, v⟩ : Sigma fun _ : κ => ρ) ∈ t.entries := AList.mem_lookup_iff.mp hlookup
    have hsum : t.total f < t.total g := by
      apply List.sum_lt_sum
      · intro e he
        exact hle e.1 e.2 (AList.mem_lookup_iff.mpr he)
      · exact ⟨⟨k, v⟩, hmem, hlt⟩
    exact hsum.ne htotal
  · exact total_congr

/-- A row that is written with no more than it had. -/
theorem total_insert_le (h : t.lookup k = some w) (hle : f k v ≤ f k w) :
    (t.insert k v).total f ≤ t.total f := by
  rw [total_insert, total_eq_add_erase f h]
  exact add_le_add_left hle _

end Ordered

end AList
