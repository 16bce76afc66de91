import Mathlib.Algebra.BigOperators.Group.List.Basic
import Mathlib.Algebra.Group.Basic
import Mathlib.Tactic.Common

/-!
# Weighted check sums

The sum of what the entries of a list weigh at their places, in any group. One entry is noticed
when it changes if the weights of its place are different; and two neighbours, when they change
places, if they weigh differently the other way round.

## Main definitions

* `CheckSums.totalFrom`, `CheckSums.total` — the weight of a list.

## Main results

* `CheckSums.total_replace_iff` — one entry changes.
* `CheckSums.total_swap_iff` — neighbours change places.
-/

set_option autoImplicit false

namespace CheckSums

variable {α M : Type} [AddCommGroup M] {weight : ℕ → α → M}

/-- The weight of a list whose first entry is at the place `n`. -/
def totalFrom (weight : ℕ → α → M) : ℕ → List α → M
  | _, [] => 0
  | n, a :: l => weight n a + totalFrom weight (n + 1) l

def total (weight : ℕ → α → M) (l : List α) : M := totalFrom weight 0 l

theorem totalFrom_append (n : ℕ) (l l' : List α) :
    totalFrom weight n (l ++ l') = totalFrom weight n l + totalFrom weight (n + l.length) l' := by
  induction l generalizing n with
  | nil => simp [totalFrom]
  | cons a l ih =>
    rw [List.cons_append, totalFrom, totalFrom, ih, List.length_cons, ← add_assoc,
      Nat.add_right_comm n 1, Nat.add_assoc n]

/-- Lists with one entry different weigh the same when these weigh the same. -/
theorem total_replace_iff (before after : List α) (a b : α) :
    total weight (before ++ a :: after) = total weight (before ++ b :: after) ↔
      weight before.length a = weight before.length b := by
  rw [total, total, totalFrom_append, totalFrom_append, add_right_inj, totalFrom, totalFrom,
    add_left_inj, Nat.zero_add]

/-- So do lists with two neighbours swapped, when these do. -/
theorem total_swap_iff (before after : List α) (a b : α) :
    total weight (before ++ a :: b :: after) = total weight (before ++ b :: a :: after) ↔
      weight before.length a + weight (before.length + 1) b =
        weight before.length b + weight (before.length + 1) a := by
  rw [total, total, totalFrom_append, totalFrom_append, add_right_inj]
  simp only [totalFrom, Nat.zero_add, ← add_assoc, add_left_inj]

end CheckSums
