import Mathlib

/-!
# The integers cut into pieces

A tiling cuts the integers into consecutive pieces, one for each index. The piece before the one
of a number is the last that lies before the number, and as the number grows no piece is left
out.

## Main definitions

* `Tiling` — where each piece starts, and which piece a number is in.
* `Tiling.last` — where a piece ends.

## Main results

* `Tiling.index_eq_iff` — the pieces are disjoint.
* `Tiling.last_lt_iff` — the pieces that lie before a number.
-/

set_option autoImplicit false

/-- A cut of the integers into consecutive pieces. -/
structure Tiling where
  start : ℤ → ℤ
  index : ℤ → ℤ
  start_lt_succ (n : ℤ) : start n < start (n + 1)
  start_index_le (d : ℤ) : start (index d) ≤ d
  lt_start_succ (d : ℤ) : d < start (index d + 1)

namespace Tiling

variable (T : Tiling) {d d' n m : ℤ}

/-- The last number of a piece. -/
def last (n : ℤ) : ℤ := T.start (n + 1) - 1

theorem start_strictMono : StrictMono T.start := strictMono_int_of_lt_succ T.start_lt_succ

theorem start_le_last (n : ℤ) : T.start n ≤ T.last n := by
  have h := T.start_lt_succ n
  unfold last
  omega

@[simp] theorem last_add_one (n : ℤ) : T.last n + 1 = T.start (n + 1) := by
  unfold last
  omega

theorem last_lt_start (h : n < m) : T.last n < T.start m := by
  have hle : T.start (n + 1) ≤ T.start m := T.start_strictMono.monotone (by omega)
  unfold last
  omega

/-- A piece starts no later than a number if and only if the number is in this piece or a later
one. -/
theorem start_le_iff : T.start n ≤ d ↔ n ≤ T.index d := by
  constructor
  · intro h
    have hlt : T.start n < T.start (T.index d + 1) := lt_of_le_of_lt h (T.lt_start_succ d)
    have := T.start_strictMono.lt_iff_lt.mp hlt
    omega
  · intro h
    exact le_trans (T.start_strictMono.monotone h) (T.start_index_le d)

theorem lt_start_iff : d < T.start n ↔ T.index d < n := by
  rw [← not_le, ← not_le, start_le_iff]

/-- A piece ends before a number if and only if the number is in a later piece. -/
theorem last_lt_iff : T.last n < d ↔ n < T.index d := by
  have h : T.start (n + 1) ≤ d ↔ n + 1 ≤ T.index d := T.start_le_iff
  unfold last
  omega

/-- Every number is in exactly one piece. -/
theorem index_eq_iff : T.index d = n ↔ T.start n ≤ d ∧ d ≤ T.last n := by
  have hfrom : T.start n ≤ d ↔ n ≤ T.index d := T.start_le_iff
  have hto : T.last n < d ↔ n < T.index d := T.last_lt_iff
  omega

@[simp] theorem index_start (n : ℤ) : T.index (T.start n) = n :=
  T.index_eq_iff.mpr ⟨le_rfl, T.start_le_last n⟩

theorem index_mono : Monotone T.index := by
  intro d d' h
  apply T.start_le_iff.mp
  exact le_trans (T.start_index_le d) h

end Tiling
