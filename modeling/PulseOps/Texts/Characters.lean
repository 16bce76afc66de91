import Mathlib

/-!
# Characters and texts of scripts

What is said of all characters of a list, or of all below a bound, is decided by trying them. A
statement that holds of the characters of ASCII need not be read off their definitions. Then
white space and line terminators, as scripts and their patterns take them, texts without them at
the ends, and the length of a text.

## Main definitions

* `ScriptText.blank`, `ScriptText.trim`.
* `ScriptText.utf16Length` — how long a script takes a text to be.

## Main results

* `Characters.of_lt` — a statement that has been tried below a bound.
* `Characters.toNat_lt_of_isAlphanum` — letters and digits are characters of ASCII.
-/

set_option autoImplicit false

namespace Characters

variable {c d : Char}

/-- The characters of a list are tried, not all that there are. -/
scoped instance (priority := 1100) decidableForallMem (p : Char → Prop) [DecidablePred p]
    (l : List Char) : Decidable (∀ c ∈ l, p c) :=
  List.decidableBAll p l

/-- The characters of texts are compared as they are. -/
instance lawfulBEqText : LawfulBEq (List Char) := inferInstance

theorem of_lt {p : Char → Prop} {bound : ℕ} (hall : ∀ n < bound, p (Char.ofNat n))
    (h : c.toNat < bound) : p c := by
  have hc := hall c.toNat h
  rwa [Char.ofNat_toNat] at hc

theorem toNat_le_toNat (h : c ≤ d) : c.toNat ≤ d.toNat := by
  rwa [Char.le_def, UInt32.le_iff_toNat_le] at h

theorem toNat_lt_of_isAlphanum (h : c.isAlphanum = true) : c.toNat < 128 := by
  have hval : c.val.toNat = c.toNat := rfl
  simp only [Char.isAlphanum, Char.isAlpha, Char.isUpper, Char.isLower, Char.isDigit,
    Bool.or_eq_true, Bool.and_eq_true, decide_eq_true_eq, ge_iff_le, UInt32.le_iff_toNat_le,
    hval] at h
  rcases h with (⟨-, h⟩ | ⟨-, h⟩) | ⟨-, h⟩
  all_goals exact Nat.lt_of_le_of_lt h (by decide)

end Characters

/-! ### Texts of scripts -/

namespace ScriptText

variable {text : List Char}

/-- White space and line terminators. -/
def blank (c : Char) : Bool :=
  (9 ≤ c.toNat && c.toNat ≤ 13) || (0x2000 ≤ c.toNat && c.toNat ≤ 0x200A) ||
    c.toNat ∈ [0x20, 0xA0, 0x1680, 0x2028, 0x2029, 0x202F, 0x205F, 0x3000, 0xFEFF]

/-- `.trim()` -/
def trim (text : List Char) : List Char :=
  ((text.dropWhile blank).reverse.dropWhile blank).reverse

/-- The length of a text in UTF-16. -/
def utf16Length (text : List Char) : ℕ :=
  (text.map fun c => if 0xFFFF < c.toNat then 2 else 1).sum

end ScriptText
