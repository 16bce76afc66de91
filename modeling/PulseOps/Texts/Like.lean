import Mathlib.Data.List.Infix
import PulseOps.Texts.Characters

/-!
# `LIKE`

Patterns of SQL: `%` stands for any text, `_` for any one character, and a backslash makes the
next character stand for itself. A pattern must not end with a lone backslash. `ILIKE` compares
the lower-case forms of the pattern and of the text, and lower-casing leaves the three special
characters alone.

## Main definitions

* `Like.tokens`, `Like.accepts`, `Like.like` — what a pattern means, and which texts match it.
* `Like.Lowering`, `Like.ilike` — the same without regard to case.
* `Like.escape` — a text with a backslash before every special character.

## Main results

* `Like.tokens_escape_append` — an escaped text stands for itself.
* `Like.accepts_surrounded_iff` — a text between two `%` is looked for anywhere.
* `Like.ilike_surrounded` — the same of an escaped text, without regard to case.
-/

set_option autoImplicit false

namespace Like

open scoped Characters

/-- The characters that do not stand for themselves. -/
def special : List Char := ['\\', '%', '_']

inductive Token where
  | literal (c : Char)
  | one
  | any
  deriving DecidableEq, Repr

/-- What a pattern means. It must not end with a lone backslash. -/
def tokens : List Char → Option (List Token)
  | [] => some []
  | ['\\'] => none
  | '\\' :: c :: pattern => (tokens pattern).map (.literal c :: ·)
  | '%' :: pattern => (tokens pattern).map (.any :: ·)
  | '_' :: pattern => (tokens pattern).map (.one :: ·)
  | c :: pattern => (tokens pattern).map (.literal c :: ·)

/-- Whether the whole text matches. -/
def accepts : List Token → List Char → Bool
  | [], text => text.isEmpty
  | .literal c :: pattern, text => match text with
    | [] => false
    | c' :: text => c = c' && accepts pattern text
  | .one :: pattern, text => match text with
    | [] => false
    | _ :: text => accepts pattern text
  | .any :: pattern, text => text.tails.any (accepts pattern)

/-- `text LIKE pattern`; `none` is an error. -/
def like (text pattern : List Char) : Option Bool := (tokens pattern).map (accepts · text)

/-- Lower-casing, one character after the other. -/
structure Lowering where
  lower : Char → List Char
  lower_special : ∀ c ∈ special, lower c = [c]
  not_special : ∀ c ∉ special, ∀ d ∈ lower c, d ∉ special

def Lowering.apply (L : Lowering) (text : List Char) : List Char := text.flatMap L.lower

/-- `text ILIKE pattern`. -/
def ilike (L : Lowering) (text pattern : List Char) : Option Bool :=
  like (L.apply text) (L.apply pattern)

/-- The capital letters of ASCII lie between no two special characters. -/
private theorem eq_of_toLower_eq {c d : Char} (hd : d ∈ special) (h : c.toLower = d) : c = d := by
  have hcode : d.toNat = 92 ∨ d.toNat = 37 ∨ d.toNat = 95 := by
    simp only [special, List.mem_cons, List.not_mem_nil, or_false] at hd
    rcases hd with rfl | rfl | rfl <;> decide
  have hlower : c.toLower.toNat = d.toNat := by rw [h]
  unfold Char.toLower at hlower
  split_ifs at hlower with hcapital
  · exfalso
    have hbounds : 65 ≤ c.val.toNat ∧ c.val.toNat ≤ 90 := by
      simpa [UInt32.le_iff_toNat_le] using hcapital
    simp only [Char.toNat, UInt32.toNat_add] at hlower hcode
    -- a letter and 32 is a letter
    change (c.val.toNat + 32) % 4294967296 = d.val.toNat at hlower
    omega
  · exact Char.toNat_inj.mp hlower

/-- The letters of ASCII in lower case. -/
def Lowering.ascii : Lowering where
  lower c := [c.toLower]
  lower_special := by decide
  not_special c hc d hd := by
    rw [List.mem_singleton.mp hd]
    intro hspecial
    rw [← eq_of_toLower_eq hspecial rfl] at hspecial
    exact hc hspecial

/-- The text with a backslash before every special character. -/
def escape (text : List Char) : List Char :=
  text.flatMap fun c => if c ∈ special then ['\\', c] else [c]

/-! ### Escaped texts -/

theorem tokens_literal {c : Char} (h : c ∉ special) (pattern : List Char) :
    tokens (c :: pattern) = (tokens pattern).map (.literal c :: ·) := by
  simp only [special, List.mem_cons, List.not_mem_nil, or_false, not_or] at h
  obtain ⟨hbackslash, hpercent, hunderscore⟩ := h
  rw [tokens.eq_def]
  split <;> simp_all

theorem tokens_backslash (c : Char) (pattern : List Char) :
    tokens ('\\' :: c :: pattern) = (tokens pattern).map (.literal c :: ·) := by
  simp [tokens]

theorem tokens_percent (pattern : List Char) :
    tokens ('%' :: pattern) = (tokens pattern).map (.any :: ·) := by
  simp [tokens]

theorem escape_append (text text' : List Char) :
    escape (text ++ text') = escape text ++ escape text' :=
  List.flatMap_append

theorem escape_cons (c : Char) (text : List Char) :
    escape (c :: text) = (if c ∈ special then ['\\', c] else [c]) ++ escape text :=
  List.flatMap_cons

/-- Nothing is escaped in a text without special characters. -/
theorem escape_of_plain {text : List Char} (h : ∀ c ∈ text, c ∉ special) : escape text = text := by
  induction text with
  | nil => rfl
  | cons c text ih =>
    rw [List.forall_mem_cons] at h
    rw [escape_cons, if_neg h.1, ih h.2, List.singleton_append]

/-- An escaped text stands for itself. -/
theorem tokens_escape_append (text pattern : List Char) :
    tokens (escape text ++ pattern) = (tokens pattern).map (text.map .literal ++ ·) := by
  induction text with
  | nil => simp [escape]
  | cons c text ih =>
    rw [escape_cons]
    split_ifs with hc
    · rw [List.append_assoc, List.cons_append, List.cons_append, List.nil_append, tokens_backslash,
        ih, Option.map_map]
      rfl
    · rw [List.append_assoc, List.cons_append, List.nil_append, tokens_literal hc, ih,
        Option.map_map]
      rfl

theorem Lowering.apply_append (L : Lowering) (text text' : List Char) :
    L.apply (text ++ text') = L.apply text ++ L.apply text' :=
  List.flatMap_append

/-- Lower-casing an escaped text escapes the lower-case text. -/
theorem Lowering.apply_escape (L : Lowering) (text : List Char) :
    L.apply (escape text) = escape (L.apply text) := by
  induction text with
  | nil => rfl
  | cons c text ih =>
    have happly : L.apply (c :: text) = L.lower c ++ L.apply text := by
      rw [apply, List.flatMap_cons, ← apply]
    rw [escape_cons, apply_append, ih, happly, escape_append]
    congr 1
    split_ifs with hc
    · have hbackslash : L.lower '\\' = ['\\'] := L.lower_special _ (by decide)
      simp [apply, hbackslash, L.lower_special c hc, escape, hc]
    · rw [escape_of_plain (L.not_special c hc)]
      simp [apply]

/-! ### Which texts match -/

theorem accepts_literals (text : List Char) (pattern : List Token) (t : List Char) :
    accepts (text.map .literal ++ pattern) t = true ↔
      ∃ rest, t = text ++ rest ∧ accepts pattern rest = true := by
  induction text generalizing t with
  | nil => simp
  | cons c text ih =>
    cases t with
    | nil => simp [accepts]
    | cons c' t =>
      simp only [List.map_cons, List.cons_append, accepts, Bool.and_eq_true, decide_eq_true_eq, ih]
      constructor
      · rintro ⟨rfl, rest, rfl, hrest⟩
        exact ⟨rest, rfl, hrest⟩
      · rintro ⟨rest, heq, hrest⟩
        obtain ⟨rfl, rfl⟩ := List.cons.inj heq
        exact ⟨rfl, rest, rfl, hrest⟩

theorem accepts_any (pattern : List Token) (t : List Char) :
    accepts (.any :: pattern) t = true ↔
      ∃ rest, rest <:+ t ∧ accepts pattern rest = true := by
  simp [accepts, List.any_eq_true, List.mem_tails]

/-- A text between two `%` is looked for anywhere. -/
theorem accepts_surrounded_iff (text t : List Char) :
    accepts (.any :: (text.map .literal ++ [.any])) t = true ↔ text <:+: t := by
  rw [accepts_any]
  constructor
  · rintro ⟨found, ⟨before, rfl⟩, hfound⟩
    obtain ⟨rest, rfl, -⟩ := (accepts_literals text [.any] found).mp hfound
    exact ⟨before, rest, by simp⟩
  · rintro ⟨before, rest, rfl⟩
    refine ⟨text ++ rest, ⟨before, by simp⟩, ?_⟩
    rw [accepts_literals]
    -- what comes after the text is any text
    exact ⟨rest, rfl, (accepts_any [] rest).mpr ⟨[], List.nil_suffix, rfl⟩⟩

/-- An escaped text between two `%` is looked for anywhere. -/
theorem like_surrounded (text t : List Char) :
    like t ('%' :: (escape text ++ ['%'])) = some (decide (text <:+: t)) := by
  have htokens : tokens ['%'] = some [.any] := rfl
  rw [like, tokens_percent, tokens_escape_append, htokens, Option.map_some, Option.map_some,
    Option.map_some, Option.some.injEq, Bool.eq_iff_iff, decide_eq_true_eq]
  exact accepts_surrounded_iff text t

/-- The same without regard to case. -/
theorem ilike_surrounded (L : Lowering) (text t : List Char) :
    ilike L t ('%' :: (escape text ++ ['%'])) = some (decide (L.apply text <:+: L.apply t)) := by
  have hpercent : L.lower '%' = ['%'] := L.lower_special _ (by decide)
  have hlower : L.apply ('%' :: (escape text ++ ['%'])) =
      '%' :: (escape (L.apply text) ++ ['%']) := by
    rw [← L.apply_escape]
    simp [Lowering.apply, hpercent]
  rw [ilike, hlower, like_surrounded]

end Like
