import Mathlib.Data.ZMod.Basic
import PulseOps.Model.Gst
import PulseOps.Texts.Characters
import PulseOps.Texts.CheckSums

/-!
# The check character of a GSTIN

The characters of a GSTIN weigh what they count in base 36, every second one the sum of the two
digits of its double. Both are permutations of the numbers below 36, so one wrong character is
noticed. Neighbours that change places are noticed unless they are `0` and `Z`, which both weigh
the same at every place.

## Main definitions

* `weight` — what a character weighs at a place.

## Main results

* `total_of_valid` — a valid GSTIN weighs nothing modulo 36.
* `gstin_typing_errors` — the errors that are noticed.
-/

set_option autoImplicit false

namespace PulseOps.Gst

open scoped Characters
open CheckSums (total totalFrom)

variable {cs cs' : List Char} {a b c d : Char} {n : ℕ}

/-! ### Weights -/

/-- What a character counts at a place. -/
def term (n : ℕ) (c : Char) : ℕ :=
  let product := gstinChars.idxOf c * (if n % 2 = 0 then 1 else 2)
  product / 36 + product % 36

def weight (n : ℕ) (c : Char) : ZMod 36 := term n c

theorem term_parity (n : ℕ) (c : Char) : term n c = term (n % 2) c := by
  rw [term, term, Nat.mod_mod]

/-- The two weights are one to one. -/
theorem weight_inj (ha : a ∈ gstinChars) (hb : b ∈ gstinChars)
    (h : weight n a = weight n b) : a = b := by
  have hall : ∀ n < 2, ∀ a ∈ gstinChars, ∀ b ∈ gstinChars,
      term n a % 36 = term n b % 36 → a = b := by
    decide +kernel
  rw [weight, weight, ZMod.natCast_eq_natCast_iff', term_parity n a, term_parity n b] at h
  exact hall (n % 2) (Nat.mod_lt n (by decide)) a ha b hb h

/-- Doubling moves no two characters by the same, but `0` and `Z`. -/
theorem weight_swap (ha : a ∈ gstinChars) (hb : b ∈ gstinChars)
    (h : weight n a + weight (n + 1) b = weight n b + weight (n + 1) a) :
    a = b ∨ (a = '0' ∧ b = 'Z') ∨ (a = 'Z' ∧ b = '0') := by
  have hall : ∀ n < 2, ∀ a ∈ gstinChars, ∀ b ∈ gstinChars,
      (term n a + term ((n + 1) % 2) b) % 36 = (term n b + term ((n + 1) % 2) a) % 36 →
        a = b ∨ (a = '0' ∧ b = 'Z') ∨ (a = 'Z' ∧ b = '0') := by
    decide +kernel
  simp only [weight] at h
  rw [← Nat.cast_add, ← Nat.cast_add, ZMod.natCast_eq_natCast_iff', term_parity n a,
    term_parity n b, term_parity (n + 1) a, term_parity (n + 1) b] at h
  have hparity : (n + 1) % 2 = (n % 2 + 1) % 2 := by omega
  rw [hparity] at h
  exact hall (n % 2) (Nat.mod_lt n (by decide)) a ha b hb h

/-! ### Valid numbers -/

theorem mem_gstinChars (h : (c.isDigit || isUpper c) = true) : c ∈ gstinChars := by
  have hascii : c.toNat < 128 := by
    rcases Bool.or_eq_true_iff.mp h with hdigit | hupper
    · exact Characters.toNat_lt_of_isAlphanum (by simp [Char.isAlphanum, hdigit])
    · simp only [isUpper, decide_eq_true_eq] at hupper
      exact lt_of_le_of_lt (Characters.toNat_le_toNat hupper.2) (by decide)
  have hmem : (c.isDigit || isUpper c) = true → c ∈ gstinChars := by
    apply Characters.of_lt _ hascii
    decide +kernel
  exact hmem h

/-- The characters of a text that has a format are those of the format. -/
theorem mem_of_format {format : List (Char → Bool)} (hlength : cs.length = format.length)
    (h : (List.zipWith (fun p c => p c) format cs).all id = true) (hc : c ∈ cs) :
    ∃ p ∈ format, p c = true := by
  induction format generalizing cs with
  | nil =>
    rw [List.eq_nil_of_length_eq_zero hlength] at hc
    cases hc
  | cons p format ih =>
    cases cs with
    | nil => cases hc
    | cons d cs =>
      rw [List.zipWith_cons_cons, List.all_cons, Bool.and_eq_true] at h
      rw [List.length_cons, List.length_cons, Nat.add_right_cancel_iff] at hlength
      rcases List.mem_cons.mp hc with rfl | hc
      · exact ⟨p, List.mem_cons_self, h.1⟩
      · obtain ⟨q, hq, hqc⟩ := ih hlength h.2 hc
        exact ⟨q, List.mem_cons_of_mem _ hq, hqc⟩

theorem mem_of_hasFormat (h : hasFormat gstinFormat cs = true) :
    cs.length = 15 ∧ ∀ c ∈ cs, c ∈ gstinChars := by
  simp only [hasFormat, decide_eq_true_eq] at h
  obtain ⟨hlength, hall⟩ := h
  refine ⟨hlength, fun c hc => ?_⟩
  obtain ⟨p, hp, hpc⟩ := mem_of_format hlength hall hc
  apply mem_gstinChars
  -- every place has digits or letters
  simp only [gstinFormat, List.mem_append, List.mem_replicate, List.mem_cons, List.not_mem_nil,
    or_false] at hp
  rcases hp with (((⟨-, rfl⟩ | ⟨-, rfl⟩) | ⟨-, rfl⟩) | rfl | rfl | rfl | rfl)
  · simp [hpc]
  · simp [hpc]
  · simp [hpc]
  · simp [hpc]
  · simp only [Bool.or_eq_true, Bool.and_eq_true] at hpc ⊢
    exact hpc.imp_left And.left
  · rw [decide_eq_true_eq.mp hpc]
    decide
  · exact hpc

theorem upperTrimmed_eq {value : String} (hlength : value.toList.length = 15)
    (h : hasFormat gstinFormat (upperTrimmed value) = true) :
    upperTrimmed value = value.toList.map Char.toUpper := by
  have hlength' := (mem_of_hasFormat h).1
  unfold upperTrimmed at hlength' ⊢
  rw [List.length_map] at hlength'
  -- nothing has been trimmed from fifteen characters
  have hsublist : (((value.toList.dropWhile isSpace).reverse.dropWhile isSpace).reverse).Sublist
      value.toList := by
    rw [← List.reverse_sublist, List.reverse_reverse]
    exact (List.dropWhile_sublist _).trans (List.dropWhile_sublist _).reverse
  dsimp only
  rw [hsublist.eq_of_length (by rw [hlength', hlength])]

/-- The sum of the source, modulo 36. -/
theorem sum_terms (n : ℕ) (cs : List Char) :
    ((((cs.zipIdx n).map fun (c, i) => term i c).sum : ℕ) : ZMod 36) = totalFrom weight n cs := by
  induction cs generalizing n with
  | nil => simp [totalFrom]
  | cons c cs ih =>
    rw [List.zipIdx_cons, List.map_cons, List.sum_cons, totalFrom, Nat.cast_add, ih]
    rfl

/-- The check character makes up for the others. -/
theorem weight_of_check (h : gstinCheckChar cs = some c) :
    totalFrom weight 0 cs + weight 14 c = 0 := by
  have hterm : term 14 c = gstinChars.idxOf c / 36 + gstinChars.idxOf c % 36 := by
    rw [term]
    simp
  unfold gstinCheckChar at h
  dsimp only at h
  have hsum := sum_terms 0 cs
  simp only [term] at hsum
  rw [← hsum]
  set sum := ((cs.zipIdx.map fun (c, i) =>
    gstinChars.idxOf c * (if i % 2 = 0 then 1 else 2) / 36 +
      gstinChars.idxOf c * (if i % 2 = 0 then 1 else 2) % 36)).sum
  have hindex : gstinChars.idxOf c = (36 - sum % 36) % 36 := by
    obtain ⟨hlt, rfl⟩ := List.getElem?_eq_some_iff.mp h
    exact List.Nodup.idxOf_getElem (by decide +kernel) _ hlt
  rw [weight, hterm, hindex, ← Nat.cast_add, ZMod.natCast_eq_zero_iff]
  omega

/-- A valid number weighs nothing. -/
theorem total_of_valid {value : String} (hlength : value.toList.length = 15)
    (h : isValidGstin value = true) :
    (∀ c ∈ value.toList.map Char.toUpper, c ∈ gstinChars) ∧
      total weight (value.toList.map Char.toUpper) = 0 := by
  simp only [isValidGstin, decide_eq_true_eq] at h
  obtain ⟨hformat, -, hcheck⟩ := h
  obtain ⟨hfifteen, hchars⟩ := mem_of_hasFormat hformat
  rw [upperTrimmed_eq hlength hformat] at hcheck hfifteen hchars
  set cs := value.toList.map Char.toUpper
  refine ⟨hchars, ?_⟩
  have hlast : 14 < cs.length := by omega
  rw [List.getElem?_eq_getElem hlast] at hcheck
  have hsplit : cs = cs.take 14 ++ [cs[14]] := by
    calc cs = cs.take 15 := (List.take_of_length_le hfifteen.le).symm
      _ = cs.take 14 ++ [cs[14]] := (List.take_concat_get' cs 14 hlast).symm
  have hfourteen : (cs.take 14).length = 14 := by
    rw [List.length_take]
    omega
  rw [total, hsplit, CheckSums.totalFrom_append, hfourteen]
  have hcheck' := weight_of_check hcheck
  simpa [totalFrom] using hcheck'

/-! ### Typing errors -/

theorem toUpper_of_mem (h : c ∈ gstinChars) : c.toUpper = c := by
  have hall : ∀ c ∈ gstinChars, c.toUpper = c := by decide +kernel
  exact hall c h

/-- The characters of two valid numbers that differ at one place are the same. -/
theorem eq_of_valid {before after : List Char} (hlength : (before ++ a :: after).length = 15)
    (h : isValidGstin (String.ofList (before ++ a :: after)) = true)
    (h' : isValidGstin (String.ofList (before ++ b :: after)) = true) : a.toUpper = b.toUpper := by
  have hlength' : (before ++ b :: after).length = 15 := by simpa using hlength
  obtain ⟨hchars, htotal⟩ := total_of_valid (by rwa [String.toList_ofList]) h
  obtain ⟨hchars', htotal'⟩ := total_of_valid (by rwa [String.toList_ofList]) h'
  rw [String.toList_ofList, List.map_append, List.map_cons] at hchars hchars' htotal htotal'
  apply weight_inj (n := (before.map Char.toUpper).length) (hchars _ (by simp))
    (hchars' _ (by simp))
  rw [← CheckSums.total_replace_iff, htotal, htotal']

/-- Neighbours of a valid number that may change places. -/
theorem swap_of_valid {before after : List Char}
    (hlength : (before ++ a :: b :: after).length = 15)
    (h : isValidGstin (String.ofList (before ++ a :: b :: after)) = true)
    (h' : isValidGstin (String.ofList (before ++ b :: a :: after)) = true) :
    a.toUpper = b.toUpper ∨ (a.toUpper = '0' ∧ b.toUpper = 'Z') ∨
      (a.toUpper = 'Z' ∧ b.toUpper = '0') := by
  have hlength' : (before ++ b :: a :: after).length = 15 := by simpa using hlength
  obtain ⟨hchars, htotal⟩ := total_of_valid (by rwa [String.toList_ofList]) h
  obtain ⟨-, htotal'⟩ := total_of_valid (by rwa [String.toList_ofList]) h'
  rw [String.toList_ofList, List.map_append, List.map_cons, List.map_cons] at hchars htotal htotal'
  apply weight_swap (n := (before.map Char.toUpper).length) (hchars _ (by simp))
    (hchars _ (by simp))
  rw [← CheckSums.total_swap_iff, htotal, htotal']

/-- A list around one of its entries. -/
theorem split_at {i : ℕ} (h : cs[i]? = some a) :
    ∃ before after, cs = before ++ a :: after ∧ before.length = i := by
  obtain ⟨hi, rfl⟩ := List.getElem?_eq_some_iff.mp h
  refine ⟨cs.take i, cs.drop (i + 1), ?_, List.length_take_of_le hi.le⟩
  rw [List.getElem_cons_drop, List.take_append_drop]

theorem set_length (before after : List Char) (a b : Char) :
    (before ++ a :: after).set before.length b = before ++ b :: after := by
  rw [List.set_append_right _ _ le_rfl, Nat.sub_self, List.set_cons_zero]

/-- The check character of a GSTIN notices one wrong character, and neighbours among the first
fourteen that have changed places, other than `0` and `Z`; and there is one for the others. -/
theorem gstin_typing_errors :
    (∀ value : String, value.toList.length = 15 → (∀ c ∈ value.toList, c.toUpper = c) →
      isValidGstin value = true →
        (∀ i c d, value.toList[i]? = some c → (d.isDigit || isUpper d) = true → c ≠ d →
          isValidGstin (String.ofList (value.toList.set i d)) = false) ∧
        ∀ i a b, i + 1 < 14 → value.toList[i]? = some a → value.toList[i + 1]? = some b → a ≠ b →
          ¬ (a = '0' ∧ b = 'Z') → ¬ (a = 'Z' ∧ b = '0') →
          isValidGstin (String.ofList ((value.toList.set i b).set (i + 1) a)) = false) ∧
    ∀ (first14 : List Char) (c c' : Char), first14.length = 14 → c.toUpper = c → c'.toUpper = c' →
      isValidGstin (String.ofList (first14 ++ [c])) = true →
        isValidGstin (String.ofList (first14 ++ [c'])) = true → c = c' := by
  refine ⟨fun value hlength hupper hvalid => ⟨?_, ?_⟩, ?_⟩
  · intro i c d hc hd hne
    rw [← Bool.not_eq_true]
    intro hvalid'
    obtain ⟨before, after, hvalue, rfl⟩ := split_at hc
    have hupper' : ∀ e ∈ before ++ c :: after, e.toUpper = e := by rwa [← hvalue]
    have hd' : d.toUpper = d := toUpper_of_mem (mem_gstinChars hd)
    rw [hvalue, set_length] at hvalid'
    rw [hvalue] at hlength
    rw [← String.ofList_toList (s := value), hvalue] at hvalid
    -- where the other characters are given, one only gives a valid number
    have heq := eq_of_valid hlength hvalid hvalid'
    rw [hupper' c (by simp), hd'] at heq
    exact hne heq
  · intro i a b hi ha hb hne hzero hzed
    rw [← Bool.not_eq_true]
    intro hvalid'
    obtain ⟨before, after, hvalue, rfl⟩ := split_at ha
    cases after with
    | nil =>
      rw [hvalue] at hb
      simp at hb
    | cons b' after =>
      have hb' : b' = b := by
        rw [hvalue] at hb
        simpa using hb
      subst hb'
      have hupper' : ∀ e ∈ before ++ a :: b' :: after, e.toUpper = e := by rwa [← hvalue]
      have hset : (before ++ b' :: b' :: after).set (before.length + 1) a =
          before ++ b' :: a :: after := by
        have hlength' : before.length + 1 = (before ++ [b']).length := by simp
        rw [List.append_cons, hlength', set_length, ← List.append_cons]
      rw [hvalue, set_length, hset] at hvalid'
      rw [hvalue] at hlength
      rw [← String.ofList_toList (s := value), hvalue] at hvalid
      -- `0` and `Z` weigh the same in either place, so these two may change places unnoticed
      have hswap := swap_of_valid hlength hvalid hvalid'
      rw [hupper' a (by simp), hupper' b' (by simp)] at hswap
      rcases hswap with heq | hzero' | hzed'
      · exact hne heq
      · exact hzero hzero'
      · exact hzed hzed'
  · intro first14 c c' hlength hupper hupper' hvalid hvalid'
    have h := eq_of_valid (by simp [hlength]) hvalid hvalid'
    rwa [hupper, hupper'] at h

/-- A valid number, and the same one with two digits swapped. -/
theorem gstin_typing_errors_swap :
    isValidGstin "27AAPFU0939F1ZV" = true ∧ isValidGstin "27AAPFU9039F1ZV" = false := by
  have hvalid : isValidGstin "27AAPFU0939F1ZV" = true := by decide +kernel
  have hswap := (gstin_typing_errors.1 "27AAPFU0939F1ZV" (by decide +kernel) (by decide +kernel)
    hvalid).2 7 '0' '9' (by decide) (by decide +kernel) (by decide +kernel) (by decide) (by decide)
    (by decide)
  exact ⟨hvalid, hswap⟩

end PulseOps.Gst
