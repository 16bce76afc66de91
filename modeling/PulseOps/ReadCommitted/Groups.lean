import Mathlib.Algebra.Order.BigOperators.Group.List
import Mathlib.Data.List.Dedup
import Mathlib.Data.List.Sort

/-!
# Rows in groups

`GROUP BY key` makes one row of all rows with the same key, and `ORDER BY key` sorts them. What
is added up in each group is added up over all groups, provided every row has its group. Groups
of one table say nothing about the rows of another one whose keys they lack.

## Main definitions

* `List.groupKeys` — the keys of the groups, sorted.
* `List.groupSum` — the sum of a quantity over one group.

## Main results

* `List.sum_groupSum` — the sum over some groups counts the rows that are in one of them.
* `List.sum_groupKeys` — the sum over all groups is the sum over all rows.
* `List.lookup_groupSum` — the groups as a map, where a missing group has nothing in it.
* `List.sum_filter_eq_sum_iff` — some of the rows have all of the sum only if the others are zero.
-/

set_option autoImplicit false

namespace List

variable {α κ M : Type} {key : α → κ} {xs : List α} {k : κ}

section Sums

variable [DecidableEq κ] [AddCommMonoid M] {f : α → M}

/-- The sum of `f` over the rows with the key `k`. -/
def groupSum (key : α → κ) (f : α → M) (xs : List α) (k : κ) : M :=
  ((xs.filter fun x => key x = k).map f).sum

@[simp] theorem groupSum_nil : groupSum key f [] k = 0 := rfl

/-- A row counts in its own group. -/
theorem groupSum_cons (x : α) :
    groupSum key f (x :: xs) k = (if key x = k then f x else 0) + groupSum key f xs k := by
  by_cases hkey : key x = k
  · simp [groupSum, hkey]
  · simp [groupSum, hkey]

theorem groupSum_eq_zero (h : ∀ x ∈ xs, key x ≠ k) : groupSum key f xs k = 0 := by
  have hnone : (xs.filter fun x => key x = k) = [] := by
    apply List.filter_eq_nil_iff.mpr
    intro x hx
    simpa using h x hx
  rw [groupSum, hnone, List.map_nil, List.sum_nil]

/-- The rows that are filtered out count as zero. -/
theorem sum_filter (p : α → Bool) (f : α → M) (xs : List α) :
    ((xs.filter p).map f).sum = (xs.map fun x => if p x then f x else 0).sum := by
  have hsplit := List.sum_map_ite (fun x => p x = true) f (fun _ => 0) xs
  simp only [Bool.decide_eq_true] at hsplit
  rw [hsplit]
  simp

/-- Among keys without repetition one is met once. -/
theorem sum_map_ite_mem {keys : List κ} (hkeys : keys.Nodup) (k : κ) (m : M) :
    (keys.map fun k' => if k = k' then m else 0).sum = if k ∈ keys then m else 0 := by
  induction keys with
  | nil => simp
  | cons k' keys ih =>
    obtain ⟨hnotin, hkeys⟩ := List.nodup_cons.mp hkeys
    rw [List.map_cons, List.sum_cons, ih hkeys]
    by_cases hk : k = k'
    · subst hk
      simp [hnotin]
    · simp [hk]

/-- The groups of some keys hold the rows that have one of them. -/
theorem sum_groupSum {keys : List κ} (hkeys : keys.Nodup) :
    (keys.map (groupSum key f xs)).sum = ((xs.filter fun x => key x ∈ keys).map f).sum := by
  induction xs with
  | nil =>
    apply List.sum_eq_zero
    intro m hm
    obtain ⟨k, -, rfl⟩ := List.mem_map.mp hm
    rfl
  | cons x xs ih =>
    have hcons : groupSum key f (x :: xs) =
        fun k => (if key x = k then f x else 0) + groupSum key f xs k := by
      funext k
      exact groupSum_cons x
    rw [hcons, List.sum_map_add, sum_map_ite_mem hkeys, ih]
    by_cases hmem : key x ∈ keys
    · simp [hmem]
    · simp [hmem]

end Sums

section Parts

variable [AddCommMonoid M] [PartialOrder M] [IsOrderedCancelAddMonoid M] {f : α → M}
  {p : α → Bool}

/-- Where nothing is negative, some of the rows have all of the sum only if the others have
nothing. -/
theorem sum_filter_eq_sum_iff (h : ∀ x ∈ xs, 0 ≤ f x) :
    ((xs.filter p).map f).sum = (xs.map f).sum ↔ ∀ x ∈ xs, 0 < f x → p x := by
  have hsplit := List.sum_map_filter_add_sum_map_filter_not (fun x => p x = true) f xs
  simp only [Bool.decide_eq_true] at hsplit
  rw [← hsplit, left_eq_add]
  constructor
  · intro hsum x hx hpos
    by_contra hp
    have hmem : f x ∈ (xs.filter fun x => ¬ p x = true).map f :=
      List.mem_map_of_mem (List.mem_filter.mpr ⟨hx, decide_eq_true hp⟩)
    apply hpos.ne'
    apply List.all_zero_of_le_zero_le_of_sum_eq_zero _ hsum hmem
    intro m hm
    obtain ⟨y, hy, rfl⟩ := List.mem_map.mp hm
    exact h y (List.mem_of_mem_filter hy)
  · intro hpos
    apply List.sum_eq_zero
    intro m hm
    obtain ⟨x, hx, rfl⟩ := List.mem_map.mp hm
    obtain ⟨hx, hp⟩ := List.mem_filter.mp hx
    by_contra hne
    have hpx := hpos x hx (lt_of_le_of_ne (h x hx) (Ne.symm hne))
    simp [hpx] at hp

end Parts

variable [LinearOrder κ]

/-- The keys of the groups: each key once, in ascending order. -/
def groupKeys (key : α → κ) (xs : List α) : List κ :=
  (xs.map key).dedup.insertionSort (· ≤ ·)

theorem mem_groupKeys : k ∈ groupKeys key xs ↔ ∃ x ∈ xs, key x = k := by
  rw [groupKeys, List.mem_insertionSort, List.mem_dedup, List.mem_map]

theorem nodup_groupKeys (key : α → κ) (xs : List α) : (groupKeys key xs).Nodup :=
  (List.perm_insertionSort _ _).nodup_iff.mpr (List.nodup_dedup _)

variable [AddCommMonoid M] {f : α → M}

/-- Every row is in one of the groups. -/
theorem sum_groupKeys (key : α → κ) (f : α → M) (xs : List α) :
    ((groupKeys key xs).map (groupSum key f xs)).sum = (xs.map f).sum := by
  rw [sum_groupSum (nodup_groupKeys key xs)]
  congr 2
  apply List.filter_eq_self.mpr
  intro x hx
  exact decide_eq_true (mem_groupKeys.mpr ⟨x, hx, rfl⟩)

private theorem lookup_map_mk {β : Type} (g : κ → β) (keys : List κ) :
    (keys.map fun k' => (k', g k')).lookup k = if k ∈ keys then some (g k) else none := by
  induction keys with
  | nil => rfl
  | cons k' keys ih =>
    rw [List.map_cons, List.lookup_cons, ih]
    by_cases hk : k = k'
    · subst hk
      simp
    · have hbeq : (k == k') = false := beq_false_of_ne hk
      simp [hbeq, hk]

/-- The groups as a map. -/
theorem lookup_groupSum (key : α → κ) (f : α → M) (xs : List α) (k : κ) :
    (((groupKeys key xs).map fun k' => (k', groupSum key f xs k')).lookup k).getD 0 =
      groupSum key f xs k := by
  rw [lookup_map_mk]
  by_cases hk : k ∈ groupKeys key xs
  · rw [if_pos hk]
    rfl
  · rw [if_neg hk]
    symm
    apply groupSum_eq_zero
    intro x hx hkey
    exact hk (mem_groupKeys.mpr ⟨x, hx, hkey⟩)

end List
