import Mathlib.Data.List.Basic

/-!
# Pages of a list

`LIMIT` and `OFFSET` cut a list into pages. Put together again, the first pages are the
beginning of the list, so that enough of them are the whole list.

## Main definitions

* `List.page` — one page, counted from zero.

## Main results

* `List.flatMap_page` — the first pages put together.
* `List.mem_flatMap_page`, `List.exists_mem_page` — every element is on one of the pages.
-/

set_option autoImplicit false

namespace List

variable {α : Type}

/-- The page `number`, counted from zero: `LIMIT limit OFFSET number * limit`. -/
def page (xs : List α) (limit number : ℕ) : List α := (xs.drop (number * limit)).take limit

/-- The first `n` pages put together. -/
theorem flatMap_page (xs : List α) (limit n : ℕ) :
    (List.range n).flatMap (xs.page limit) = xs.take (n * limit) := by
  induction n with
  | zero => simp
  | succ n ih => rw [List.range_succ, List.flatMap_append, ih, List.flatMap_singleton, page,
      Nat.succ_mul, List.take_add]

/-- Every element is on one of the pages. -/
theorem mem_flatMap_page {xs : List α} {limit : ℕ} (hlimit : 0 < limit) {x : α} :
    (∃ n, x ∈ (List.range n).flatMap (xs.page limit)) ↔ x ∈ xs := by
  simp only [flatMap_page]
  constructor
  · rintro ⟨n, hx⟩
    exact List.mem_of_mem_take hx
  · intro hx
    refine ⟨xs.length, ?_⟩
    have hle : xs.length ≤ xs.length * limit := Nat.le_mul_of_pos_right _ hlimit
    rwa [List.take_of_length_le hle]

theorem exists_mem_page {xs : List α} {limit : ℕ} (hlimit : 0 < limit) {x : α} :
    (∃ n, x ∈ xs.page limit n) ↔ x ∈ xs := by
  rw [← mem_flatMap_page hlimit]
  simp only [List.mem_flatMap, List.mem_range]
  constructor
  · rintro ⟨n, hx⟩
    exact ⟨n + 1, n, n.lt_succ_self, hx⟩
  · rintro ⟨_, n, _, hx⟩
    exact ⟨n, hx⟩

/-- A page is empty only past the end, or if the list is. -/
theorem page_zero_eq_nil {xs : List α} {limit : ℕ} (hlimit : 0 < limit) :
    xs.page limit 0 = [] ↔ xs = [] := by
  simp [page, Nat.ne_of_gt hlimit]

end List
