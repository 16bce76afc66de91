import Mathlib.Data.List.AList

/-!
# Tables

What the changes of many rows at once do to an association list, and what a change does to
the rows that satisfy a condition.

## Main definitions

* `AList.mapRows` — the table with every row changed.
* `AList.keep` — the rows that satisfy a predicate.

## Main results

* `AList.lookup_mapRows`, `AList.lookup_keep_eq_some`, `AList.lookup_foldl_erase` — the rows
  that are left.
* `AList.keep_insert_out`, `AList.keep_mapRows_out`, `AList.keep_keep_out` — changes outside a
  part of the table do not show in it.
* `AList.keep_insert`, `AList.keep_erase` — changes inside the part can be made on it alone.
* `AList.filter_keep`, `AList.find?_keep`, `AList.any_keep` — so can reads.
* `List.filter_filter_of_imp`, `List.any_filter_of_imp` — reads of elements that are all kept.
-/

set_option autoImplicit false

namespace List

variable {α : Type} {l : List α} {p q : α → Bool}

/-- A selection of elements that are all kept. -/
theorem filter_filter_of_imp (h : ∀ x ∈ l, q x = true → p x = true) :
    (l.filter p).filter q = l.filter q := by
  rw [filter_filter]
  apply filter_congr
  intro x hx
  cases hq : q x with
  | false => rw [Bool.false_and]
  | true => rw [h x hx hq, Bool.and_true]

/-- A test that only elements pass that are kept. -/
theorem any_filter_of_imp (h : ∀ x ∈ l, q x = true → p x = true) :
    (l.filter p).any q = l.any q := by
  rw [Bool.eq_iff_iff, any_eq_true, any_eq_true]
  constructor
  · rintro ⟨x, hx, hq⟩
    exact ⟨x, (mem_filter.mp hx).1, hq⟩
  · rintro ⟨x, hx, hq⟩
    exact ⟨x, mem_filter.mpr ⟨hx, h x hx hq⟩, hq⟩

end List

namespace AList

variable {κ ρ : Type} {t : AList fun _ : κ => ρ} {k k' : κ} {r : ρ}

/-- The table with the row `r` of every key `k` changed to `f k r`. -/
def mapRows (f : κ → ρ → ρ) (t : AList fun _ : κ => ρ) : AList fun _ : κ => ρ where
  entries := t.entries.map fun e => ⟨e.1, f e.1 e.2⟩
  nodupKeys := by
    have hkeys : (t.entries.map fun e => (⟨e.1, f e.1 e.2⟩ : Sigma fun _ : κ => ρ)).keys =
        t.entries.keys := by
      simp [List.keys, Function.comp_def]
    unfold List.NodupKeys
    rw [hkeys]
    exact t.nodupKeys

/-- The rows that satisfy `p`. -/
def keep (p : κ → ρ → Bool) (t : AList fun _ : κ => ρ) : AList fun _ : κ => ρ where
  entries := t.entries.filter fun e => p e.1 e.2
  nodupKeys := t.nodupKeys.sublist List.filter_sublist

variable [DecidableEq κ]

theorem lookup_keep_eq_some {p : κ → ρ → Bool} :
    (t.keep p).lookup k = some r ↔ t.lookup k = some r ∧ p k r = true := by
  rw [← Option.mem_def, ← Option.mem_def, mem_lookup_iff, mem_lookup_iff]
  exact List.mem_filter

@[simp] theorem lookup_mapRows (f : κ → ρ → ρ) (t : AList fun _ : κ => ρ) (k : κ) :
    (t.mapRows f).lookup k = (t.lookup k).map (f k) :=
  List.dlookup_map₂ k

theorem mem_entries_iff_lookup : ⟨k, r⟩ ∈ t.entries ↔ t.lookup k = some r :=
  mem_lookup_iff.symm

theorem lookup_insert_eq_some {r' : ρ} : (t.insert k r).lookup k' = some r' ↔
    (k' = k ∧ r' = r) ∨ (k' ≠ k ∧ t.lookup k' = some r') := by
  by_cases hk : k' = k
  · subst hk
    simp [lookup_insert, eq_comm]
  · simp [lookup_insert_ne hk, hk]

theorem lookup_erase_eq_some : (t.erase k).lookup k' = some r ↔
    k' ≠ k ∧ t.lookup k' = some r := by
  by_cases hk : k' = k
  · subst hk
    simp [lookup_erase]
  · simp [lookup_erase_ne hk, hk]

/-- What a `DELETE` of many rows leaves. -/
theorem lookup_foldl_erase (ks : List κ) (t : AList fun _ : κ => ρ) (k : κ) :
    (ks.foldl (fun t k => t.erase k) t).lookup k = if k ∈ ks then none else t.lookup k := by
  induction ks generalizing t with
  | nil => simp
  | cons k' ks ih =>
    rw [List.foldl_cons, ih]
    by_cases hk : k = k'
    · subst hk
      simp
    · simp [hk, lookup_erase_ne hk]

/-! ### Parts of a table -/

variable {p q : κ → ρ → Bool}

omit [DecidableEq κ] in
/-- The rows of the part, as they are read in the table. -/
theorem mem_keep_entries {e : Sigma fun _ : κ => ρ} :
    e ∈ (t.keep p).entries ↔ e ∈ t.entries ∧ p e.1 e.2 = true :=
  List.mem_filter

/-- A row that comes into a table outside the part, in the place of one that was outside. -/
theorem keep_insert_out (h : p k r = false) (hold : ∀ w, t.lookup k = some w → p k w = false) :
    (t.insert k r).keep p = t.keep p := by
  apply ext
  change ((⟨k, r⟩ : Sigma fun _ : κ => ρ) :: t.entries.kerase k).filter (fun e => p e.1 e.2) =
    t.entries.filter fun e => p e.1 e.2
  rw [List.filter_cons_of_neg (by simp [h])]
  -- the only row with the key is outside
  have hsub : ∀ xs : List (Sigma fun _ : κ => ρ),
      (∀ e ∈ xs, e.1 = k → p e.1 e.2 = false) →
      (xs.kerase k).filter (fun e => p e.1 e.2) = xs.filter fun e => p e.1 e.2 := by
    intro xs hxs
    induction xs with
    | nil => rfl
    | cons x xs ih =>
      have htail := ih fun e he => hxs e (by simp [he])
      by_cases hk : k = x.1
      · rw [List.kerase_cons_eq hk, List.filter_cons_of_neg (by simp [hxs x (by simp) hk.symm])]
      · rw [List.kerase_cons_ne hk, List.filter_cons, List.filter_cons, htail]
  apply hsub
  rintro ⟨k', w⟩ he rfl
  exact hold w (mem_lookup_iff.mpr he)

omit [DecidableEq κ] in
/-- A change that leaves alone the rows of the part and moves none into it. -/
theorem keep_mapRows_out {f : κ → ρ → ρ}
    (hin : ∀ e ∈ t.entries, p e.1 e.2 = true → f e.1 e.2 = e.2)
    (hout : ∀ k r, p k r = false → p k (f k r) = false) : (t.mapRows f).keep p = t.keep p := by
  apply ext
  change (t.entries.map fun e => (⟨e.1, f e.1 e.2⟩ : Sigma fun _ : κ => ρ)).filter
    (fun e => p e.1 e.2) = t.entries.filter fun e => p e.1 e.2
  generalize t.entries = xs at hin ⊢
  induction xs with
  | nil => rfl
  | cons x xs ih =>
    have htail := ih fun e he => hin e (by simp [he])
    cases hx : p x.1 x.2 with
    | true => rw [List.map_cons, hin x (by simp) hx, List.filter_cons, List.filter_cons, htail]
    | false =>
      rw [List.map_cons, List.filter_cons_of_neg (by simp [hout _ _ hx]),
        List.filter_cons_of_neg (by simp [hx]), htail]

omit [DecidableEq κ] in
/-- A deletion that leaves the rows of the part. -/
theorem keep_keep_out (h : ∀ e ∈ t.entries, p e.1 e.2 = true → q e.1 e.2 = true) :
    (t.keep q).keep p = t.keep p := by
  apply ext
  change (t.entries.filter fun e => q e.1 e.2).filter (fun e => p e.1 e.2) =
    t.entries.filter fun e => p e.1 e.2
  rw [List.filter_filter]
  apply List.filter_congr
  intro e he
  cases hp : p e.1 e.2 with
  | true => rw [h e he hp, Bool.and_self]
  | false => rw [Bool.false_and]

theorem lookup_keep : (t.keep p).lookup k = (t.lookup k).filter (p k) := by
  ext r
  rw [lookup_keep_eq_some, Option.filter_eq_some_iff]

private theorem kerase_filter {f : (Sigma fun _ : κ => ρ) → Bool}
    {xs : List (Sigma fun _ : κ => ρ)} (h : xs.NodupKeys) :
    (xs.filter f).kerase k = (xs.kerase k).filter f := by
  induction xs with
  | nil => rfl
  | cons x xs ih =>
    rw [List.nodupKeys_cons] at h
    by_cases hk : k = x.1
    · subst hk
      rw [List.kerase_cons_eq rfl]
      -- the row that goes is the only one with its key
      have hrest : x.1 ∉ (xs.filter f).keys := by
        intro hmem
        exact h.1 ((List.filter_sublist.map _).subset hmem)
      by_cases hx : f x = true
      · rw [List.filter_cons_of_pos hx, List.kerase_cons_eq rfl]
      · rw [List.filter_cons_of_neg hx, List.kerase_of_notMem_keys hrest]
    · rw [List.kerase_cons_ne hk]
      by_cases hx : f x = true
      · rw [List.filter_cons_of_pos hx, List.filter_cons_of_pos hx, List.kerase_cons_ne hk,
          ih h.2]
      · rw [List.filter_cons_of_neg hx, List.filter_cons_of_neg hx, ih h.2]

/-- Removing a row and reading a part can be done in either order. -/
theorem keep_erase : (t.erase k).keep p = (t.keep p).erase k :=
  ext (kerase_filter t.nodupKeys).symm

/-- A row that comes into the part. -/
theorem keep_insert (h : p k r = true) : (t.insert k r).keep p = (t.keep p).insert k r := by
  apply ext
  change ((⟨k, r⟩ : Sigma fun _ : κ => ρ) :: t.entries.kerase k).filter (fun e => p e.1 e.2) =
    ⟨k, r⟩ :: (t.entries.filter fun e => p e.1 e.2).kerase k
  rw [List.filter_cons, if_pos h]
  exact congrArg _ (kerase_filter t.nodupKeys).symm

/-- Removing rows outside the part. -/
theorem keep_foldl_erase_out {ks : List κ}
    (h : ∀ k ∈ ks, ∀ r, t.lookup k = some r → p k r = false) :
    (ks.foldl (fun t k => t.erase k) t).keep p = t.keep p := by
  induction ks generalizing t with
  | nil => rfl
  | cons k ks ih =>
    rw [List.foldl_cons, ih]
    · rw [keep_erase]
      apply ext
      apply List.kerase_of_notMem_keys
      have hgone : (t.keep p).lookup k = none := by
        rw [lookup_keep, Option.filter_eq_none_iff]
        intro r hr
        rw [h k (by simp) r hr]
        decide
      exact lookup_eq_none.mp hgone
    · intro k' hk' r hr
      exact h k' (by simp [hk']) r (lookup_erase_eq_some.mp hr).2

/-! ### Reading a part -/

section Reading

variable {f : (Sigma fun _ : κ => ρ) → Bool}

omit [DecidableEq κ] in
/-- A selection of rows of the part. -/
theorem filter_keep (h : ∀ e, f e = true → p e.1 e.2 = true) :
    (t.keep p).entries.filter f = t.entries.filter f :=
  List.filter_filter_of_imp fun e _ => h e

omit [DecidableEq κ] in
/-- A search that only ends at rows of the part. -/
theorem find?_keep (h : ∀ e, f e = true → p e.1 e.2 = true) :
    (t.keep p).entries.find? f = t.entries.find? f := by
  rw [← List.head?_filter, ← List.head?_filter, filter_keep h]

omit [DecidableEq κ] in
/-- A test that only rows of the part can pass. -/
theorem any_keep (h : ∀ e ∈ t.entries, f e = true → p e.1 e.2 = true) :
    (t.keep p).entries.any f = t.entries.any f :=
  List.any_filter_of_imp h

end Reading

end AList
