import PulseOps.Model.Gst

/-!
# Reading an invoice number

An invoice number is printed as prefix, financial year and counter, with slashes between
them. The prefix is whatever the workspace chose, so it may hold slashes itself; the year
and the counter never do, and the counter is padded with zeros without losing its value.
The last two fields can therefore be read back.

## Main results

* `slash_notMem_financialYear` — a financial year has no slash.
* `formatInvoiceNumber_injective` — equal invoice numbers have equal fields.
-/

set_option autoImplicit false

namespace PulseOps

namespace Gst

variable {p p' fy fy' : String} {m n : ℕ}

/-! ### Digits -/

theorem isDigit_of_mem_toString {c : Char} (hc : c ∈ (toString n).toList) : c.isDigit = true := by
  rw [Nat.toString_eq_ofList_toDigits, String.toList_ofList] at hc
  exact Nat.isDigit_of_mem_toDigits (by omega) (by omega) hc

theorem slash_notMem_toString (n : ℕ) : '/' ∉ (toString n).toList := by
  intro hmem
  exact absurd (isDigit_of_mem_toString hmem) (by decide)

/-- A number with zeros in front of it. -/
def padded (width n : ℕ) : String :=
  String.ofList (List.replicate (width - (toString n).length) '0') ++ toString n

theorem slash_notMem_padded (width n : ℕ) : '/' ∉ (padded width n).toList := by
  simp only [padded, String.toList_append, String.toList_ofList, List.mem_append,
    List.mem_replicate, not_or]
  exact ⟨fun h => absurd h.2 (by decide), slash_notMem_toString n⟩

/-- Zeros in front of a number do not change its value. -/
theorem ofDigitChars_padded (width n : ℕ) : Nat.ofDigitChars 10 (padded width n).toList 0 = n := by
  rw [padded, String.toList_append, String.toList_ofList, Nat.ofDigitChars_append,
    Nat.ofDigitChars_replicate_zero, Nat.mul_zero, Nat.toString_eq_ofList_toDigits,
    String.toList_ofList, Nat.ofDigitChars_ten_toDigits]

theorem padded_injective {width : ℕ} (h : padded width m = padded width n) : m = n := by
  rw [← ofDigitChars_padded width m, h, ofDigitChars_padded]

/-! ### Fields -/

/-- What follows the last separator can be read back. -/
theorem eq_of_append_cons {α : Type} {a : α} {xs xs' ys ys' : List α} (hys : a ∉ ys)
    (hys' : a ∉ ys') (h : xs ++ a :: ys = xs' ++ a :: ys') : xs = xs' ∧ ys = ys' := by
  rcases List.append_eq_append_iff.mp h with ⟨zs, hxs, hzs⟩ | ⟨zs, hxs, hzs⟩
  · cases zs with
    | nil =>
      obtain ⟨-, rfl⟩ := List.cons.inj hzs
      exact ⟨by rw [hxs, List.append_nil], rfl⟩
    | cons z zs =>
      obtain ⟨rfl, rfl⟩ := List.cons.inj hzs
      simp at hys
  · cases zs with
    | nil =>
      obtain ⟨-, rfl⟩ := List.cons.inj hzs
      exact ⟨by rw [hxs, List.append_nil], rfl⟩
    | cons z zs =>
      obtain ⟨rfl, rfl⟩ := List.cons.inj hzs
      simp at hys'

theorem slash_notMem_financialYear (year month : ℕ) :
    '/' ∉ (financialYear year month).toList := by
  have hdash : '/' ∉ ("-" : String).toList := by decide
  have hpad := slash_notMem_padded 2 (((if 4 ≤ month then year else year - 1) + 1) % 100)
  simp only [padded, String.toList_append, List.mem_append, not_or] at hpad
  simp only [financialYear, String.toList_append, List.mem_append, not_or]
  exact ⟨⟨⟨slash_notMem_toString _, hdash⟩, hpad.1⟩, hpad.2⟩

theorem toList_formatInvoiceNumber (p fy : String) (n : ℕ) :
    (formatInvoiceNumber p fy n).toList =
      p.toList ++ '/' :: (fy.toList ++ '/' :: (padded 4 n).toList) := by
  have hslash : ("/" : String).toList = ['/'] := by decide
  simp only [formatInvoiceNumber, padded, String.toList_append, hslash, List.append_assoc,
    List.cons_append, List.nil_append]

/-- Equal invoice numbers have equal fields. -/
theorem formatInvoiceNumber_injective (hfy : '/' ∉ fy.toList) (hfy' : '/' ∉ fy'.toList)
    (h : formatInvoiceNumber p fy m = formatInvoiceNumber p' fy' n) :
    p = p' ∧ fy = fy' ∧ m = n := by
  have hlist : p.toList ++ '/' :: (fy.toList ++ '/' :: (padded 4 m).toList) =
      p'.toList ++ '/' :: (fy'.toList ++ '/' :: (padded 4 n).toList) := by
    rw [← toList_formatInvoiceNumber, ← toList_formatInvoiceNumber, h]
  -- the counter stands behind the last slash, the year behind the last but one
  have hcounter : (p.toList ++ '/' :: fy.toList) ++ '/' :: (padded 4 m).toList =
      (p'.toList ++ '/' :: fy'.toList) ++ '/' :: (padded 4 n).toList := by simpa using hlist
  obtain ⟨hrest, hn⟩ :=
    eq_of_append_cons (slash_notMem_padded 4 m) (slash_notMem_padded 4 n) hcounter
  obtain ⟨hp, hyear⟩ := eq_of_append_cons hfy hfy' hrest
  exact ⟨String.toList_inj.mp hp, String.toList_inj.mp hyear,
    padded_injective (String.toList_inj.mp hn)⟩

end Gst

end PulseOps
