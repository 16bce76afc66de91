import Mathlib.Data.List.Basic
import PulseOps.Texts.Characters

/-!
# Values as JSON text

Values, how they are written, and a parser, which skips white space and keeps the last of several
members with one name. How numbers are written is a parameter. The parser counts down, and the
length of the text is enough for it. Of the escapes with four digits it reads those that stand
for a character by themselves.

A value whose objects have no two members with one name is read as it was written.

## Main definitions

* `Json` — values.
* `Json.write`, `Json.parse` — the text of a value, and the parser.
* `Json.Distinct` — no object has two members with one name.

## Main results

* `Json.distinct_of_parse` — the parser keeps one member of a name.
* `Json.parse_write` — it reads what has been written.
-/

set_option autoImplicit false

inductive Json (ν : Type) where
  | null
  | bool (b : Bool)
  | num (n : ν)
  | str (s : String)
  | arr (items : List (Json ν))
  | obj (members : List (String × Json ν))

namespace Json

open scoped Characters

/-! ### Characters -/

def whiteSpace (c : Char) : Bool := c ∈ [' ', '\t', '\n', '\r']

/-- The characters of numbers. -/
def numeric (c : Char) : Bool := c ∈ "0123456789-+.eE".toList

/-- How numbers are written. -/
structure Numbers (ν : Type) where
  text : ν → List Char
  read : List Char → Option ν
  read_text (n : ν) : read (text n) = some n
  text_ne_nil (n : ν) : text n ≠ []
  numeric_of_mem (n : ν) : ∀ c ∈ text n, numeric c = true

def hexDigit (n : ℕ) : Char := "0123456789abcdef".toList.getD n '0'

def hexValue (c : Char) : Option ℕ :=
  "0123456789abcdef".toList.idxOf? c.toLower

/-! ### Writing -/

/-- Quotes, backslashes and control characters are escaped. -/
def escape (c : Char) : List Char :=
  if c = '"' then ['\\', '"']
  else if c = '\\' then ['\\', '\\']
  else if c = '\n' then ['\\', 'n']
  else if c = '\r' then ['\\', 'r']
  else if c = '\t' then ['\\', 't']
  else if c = '\x08' then ['\\', 'b']
  else if c = '\x0c' then ['\\', 'f']
  else if c.toNat < 32 then
    ['\\', 'u', '0', '0', hexDigit (c.toNat / 16), hexDigit (c.toNat % 16)]
  else [c]

/-- A text in quotes. -/
def quote (s : String) : List Char := '"' :: (s.toList.flatMap escape ++ ['"'])

variable {ν : Type} (F : Numbers ν)

mutual

def write : Json ν → List Char
  | .null => ['n', 'u', 'l', 'l']
  | .bool true => ['t', 'r', 'u', 'e']
  | .bool false => ['f', 'a', 'l', 's', 'e']
  | .num n => F.text n
  | .str s => quote s
  | .arr [] => ['[', ']']
  | .arr (v :: items) => '[' :: (write v ++ writeItems items)
  | .obj [] => ['{', '}']
  | .obj ((key, v) :: members) => '{' :: (quote key ++ ':' :: (write v ++ writeMembers members))

/-- The items after the first one, and the end of the array. -/
def writeItems : List (Json ν) → List Char
  | [] => [']']
  | v :: items => ',' :: (write v ++ writeItems items)

/-- The members after the first one, and the end of the object. -/
def writeMembers : List (String × Json ν) → List Char
  | [] => ['}']
  | (key, v) :: members => ',' :: (quote key ++ ':' :: (write v ++ writeMembers members))

end

/-! ### Reading -/

def skip (text : List Char) : List Char := text.dropWhile whiteSpace

/-- What a backslash makes of a character. -/
def unescape (c : Char) : Option Char :=
  if c = 'n' then some '\n'
  else if c = 'r' then some '\r'
  else if c = 't' then some '\t'
  else if c = 'b' then some '\x08'
  else if c = 'f' then some '\x0c'
  else if c ∈ ['"', '\\', '/'] then some c
  else none

/-- The character with a number of four digits. -/
def unicode (a b c d : Char) : Option Char := do
  let a ← hexValue a
  let b ← hexValue b
  let c ← hexValue c
  let d ← hexValue d
  let n := 4096 * a + 256 * b + 16 * c + d
  if n.isValidChar then some (Char.ofNat n) else none

/-- A text up to its closing quote, and what comes after it. -/
def readString : List Char → Option (List Char × List Char)
  | [] => none
  | '"' :: rest => some ([], rest)
  | '\\' :: 'u' :: a :: b :: c :: d :: rest => do
    let c ← unicode a b c d
    (readString rest).map fun r => (c :: r.1, r.2)
  | '\\' :: c :: rest => do
    let c ← unescape c
    (readString rest).map fun r => (c :: r.1, r.2)
  | c :: rest =>
    if c.toNat < 32 then none else (readString rest).map fun r => (c :: r.1, r.2)

/-- The last member with a name, in the place of the first one. -/
def ofMembers (members : List (String × Json ν)) : List (String × Json ν) :=
  members.foldl (fun found m =>
    if m.1 ∈ found.map Prod.fst then found.map fun m' => if m'.1 = m.1 then m else m'
    else found ++ [m]) []

/-- The rest of a word. -/
def word (expected : List Char) (v : Json ν) (text : List Char) : Option (Json ν × List Char) :=
  if expected <+: text then some (v, text.drop expected.length) else none

mutual

/-- A value, and what comes after it. -/
def readValue : ℕ → List Char → Option (Json ν × List Char)
  | 0, _ => none
  | fuel + 1, text =>
    match skip text with
    | [] => none
    | c :: rest =>
      if c = 'n' then word ['u', 'l', 'l'] .null rest
      else if c = 't' then word ['r', 'u', 'e'] (.bool true) rest
      else if c = 'f' then word ['a', 'l', 's', 'e'] (.bool false) rest
      else if c = '"' then (readString rest).map fun r => (.str (String.ofList r.1), r.2)
      else if c = '[' then
        if (skip rest).head? = some ']' then some (.arr [], (skip rest).tail)
        else do
          let (v, rest) ← readValue fuel rest
          let (items, rest) ← readItems fuel rest
          some (.arr (v :: items), rest)
      else if c = '{' then
        if (skip rest).head? = some '}' then some (.obj [], (skip rest).tail)
        else do
          let (m, rest) ← readMember fuel rest
          let (members, rest) ← readMembers fuel rest
          some (.obj (ofMembers (m :: members)), rest)
      else
        (F.read ((c :: rest).takeWhile numeric)).map fun n =>
          (.num n, (c :: rest).dropWhile numeric)

/-- The items after the first one. -/
def readItems : ℕ → List Char → Option (List (Json ν) × List Char)
  | 0, _ => none
  | fuel + 1, text =>
    match skip text with
    | ']' :: rest => some ([], rest)
    | ',' :: rest => do
      let (v, rest) ← readValue fuel rest
      let (items, rest) ← readItems fuel rest
      some (v :: items, rest)
    | _ => none

/-- A name, a colon and a value. -/
def readMember : ℕ → List Char → Option ((String × Json ν) × List Char)
  | 0, _ => none
  | fuel + 1, text =>
    match skip text with
    | '"' :: rest => do
      let (key, rest) ← readString rest
      match skip rest with
      | ':' :: rest => do
        let (v, rest) ← readValue fuel rest
        some ((String.ofList key, v), rest)
      | _ => none
    | _ => none

/-- The members after the first one. -/
def readMembers : ℕ → List Char → Option (List (String × Json ν) × List Char)
  | 0, _ => none
  | fuel + 1, text =>
    match skip text with
    | '}' :: rest => some ([], rest)
    | ',' :: rest => do
      let (m, rest) ← readMember fuel rest
      let (members, rest) ← readMembers fuel rest
      some (m :: members, rest)
    | _ => none

end

/-- The value that is the whole text. -/
def parse (text : List Char) : Option (Json ν) :=
  match readValue F (text.length + 1) text with
  | some (v, rest) => if skip rest = [] then some v else none
  | none => none

/-! ### Members with distinct names -/

mutual

/-- No object has two members with one name. -/
def Distinct : Json ν → Prop
  | .arr items => DistinctItems items
  | .obj members => (members.map Prod.fst).Nodup ∧ DistinctMembers members
  | _ => True

def DistinctItems : List (Json ν) → Prop
  | [] => True
  | v :: items => Distinct v ∧ DistinctItems items

def DistinctMembers : List (String × Json ν) → Prop
  | [] => True
  | (_, v) :: members => Distinct v ∧ DistinctMembers members

end

private theorem ofMembers_append (found members : List (String × Json ν))
    (h : ((found ++ members).map Prod.fst).Nodup) :
    members.foldl (fun found m =>
      if m.1 ∈ found.map Prod.fst then found.map fun m' => if m'.1 = m.1 then m else m'
      else found ++ [m]) found = found ++ members := by
  induction members generalizing found with
  | nil => simp
  | cons m members ih =>
    have hnew : m.1 ∉ found.map Prod.fst := by
      intro hmem
      rw [List.map_append, List.nodup_append] at h
      exact h.2.2 m.1 hmem m.1 (by simp) rfl
    rw [List.foldl_cons, if_neg hnew, ih]
    · simp
    · simpa using h

/-- Members with distinct names stay as they are. -/
theorem ofMembers_eq {members : List (String × Json ν)} (h : (members.map Prod.fst).Nodup) :
    ofMembers members = members := by
  simpa [ofMembers] using ofMembers_append [] members (by simpa using h)

theorem distinctMembers_iff {members : List (String × Json ν)} :
    DistinctMembers members ↔ ∀ m ∈ members, Distinct m.2 := by
  induction members with
  | nil => simp [DistinctMembers]
  | cons m members ih => simp [DistinctMembers, ih]

private theorem ofMembers_invariant {P : List (String × Json ν) → Prop}
    (members : List (String × Json ν)) (hnil : P [])
    (hreplace : ∀ found, ∀ m ∈ members, P found →
      P (found.map fun m' => if m'.1 = m.1 then m else m'))
    (hadd : ∀ found, ∀ m ∈ members, m.1 ∉ found.map Prod.fst → P found → P (found ++ [m])) :
    P (ofMembers members) := by
  apply List.foldlRecOn (motive := P) members _ hnil
  intro found hfound m hm
  split_ifs with h
  · exact hreplace found m hm hfound
  · exact hadd found m hm h hfound

theorem nodup_ofMembers (members : List (String × Json ν)) :
    ((ofMembers members).map Prod.fst).Nodup := by
  apply ofMembers_invariant (P := fun found => (found.map Prod.fst).Nodup)
  · simp
  · intro found m _ hfound
    -- a member is replaced by one of its name
    have hnames : (found.map fun m' => if m'.1 = m.1 then m else m').map Prod.fst =
        found.map Prod.fst := by
      rw [List.map_map]
      apply List.map_congr_left
      intro m' _
      simp only [Function.comp_apply]
      split_ifs with h
      · exact h.symm
      · rfl
    rw [hnames]
    exact hfound
  · intro found m _ hnew hfound
    rw [List.map_append, List.nodup_append]
    refine ⟨hfound, by simp, ?_⟩
    simp only [List.map_cons, List.map_nil, List.mem_singleton]
    rintro a ha b rfl rfl
    exact hnew ha

theorem distinctMembers_ofMembers {members : List (String × Json ν)}
    (h : DistinctMembers members) : DistinctMembers (ofMembers members) := by
  rw [distinctMembers_iff] at h
  apply ofMembers_invariant (P := DistinctMembers)
  · trivial
  · intro found m hm hfound
    rw [distinctMembers_iff] at hfound ⊢
    simp only [List.mem_map]
    rintro _ ⟨m', hm', rfl⟩
    split_ifs
    · exact h m hm
    · exact hfound m' hm'
  · intro found m hm _ hfound
    rw [distinctMembers_iff] at hfound ⊢
    simp only [List.mem_append, List.mem_singleton]
    rintro m' (hm' | rfl)
    · exact hfound m' hm'
    · exact h m' hm

private theorem distinct_of_word {expected text : List Char} {v : Json ν}
    {r : Json ν × List Char} (h : word expected v text = some r) (hv : Distinct v) :
    Distinct r.1 := by
  unfold word at h
  split_ifs at h
  cases h
  exact hv

/-- The parser keeps one member of a name. -/
private theorem distinct_of_read (fuel : ℕ) :
    (∀ text r, readValue F fuel text = some r → Distinct r.1) ∧
    (∀ text r, readItems F fuel text = some r → DistinctItems r.1) ∧
    (∀ text r, readMember F fuel text = some r → Distinct r.1.2) ∧
    (∀ text r, readMembers F fuel text = some r → DistinctMembers r.1) := by
  induction fuel with
  | zero => simp [readValue, readItems, readMember, readMembers]
  | succ fuel ih =>
    obtain ⟨hvalue, hitems, hmember, hmembers⟩ := ih
    refine ⟨?_, ?_, ?_, ?_⟩
    · intro text r h
      rw [readValue] at h
      split at h
      · cases h
      split_ifs at h
      · exact distinct_of_word h trivial
      · exact distinct_of_word h trivial
      · exact distinct_of_word h trivial
      · obtain ⟨_, -, rfl⟩ := Option.map_eq_some_iff.mp h
        trivial
      · cases h
        trivial
      · simp only [Option.bind_eq_bind, Option.bind_eq_some_iff, Option.some.injEq] at h
        obtain ⟨v, hv, items, hi, rfl⟩ := h
        exact ⟨hvalue _ _ hv, hitems _ _ hi⟩
      · cases h
        exact ⟨List.nodup_nil, trivial⟩
      · simp only [Option.bind_eq_bind, Option.bind_eq_some_iff, Option.some.injEq] at h
        obtain ⟨m, hm, members, hms, rfl⟩ := h
        -- the members as they are read may repeat a name; `ofMembers` keeps one of each
        have hboth : DistinctMembers (m.1 :: members.1) := ⟨hmember _ _ hm, hmembers _ _ hms⟩
        exact ⟨nodup_ofMembers _, distinctMembers_ofMembers hboth⟩
      · obtain ⟨_, -, rfl⟩ := Option.map_eq_some_iff.mp h
        trivial
    · intro text r h
      rw [readItems] at h
      split at h
      · cases h
        trivial
      · simp only [Option.bind_eq_bind, Option.bind_eq_some_iff, Option.some.injEq] at h
        obtain ⟨v, hv, items, hi, rfl⟩ := h
        exact ⟨hvalue _ _ hv, hitems _ _ hi⟩
      · cases h
    · intro text r h
      rw [readMember] at h
      split at h
      · simp only [Option.bind_eq_bind, Option.bind_eq_some_iff] at h
        obtain ⟨key, -, h⟩ := h
        split at h
        · simp only [Option.bind_eq_some_iff, Option.some.injEq] at h
          obtain ⟨v, hv, rfl⟩ := h
          exact hvalue _ _ hv
        · cases h
      · cases h
    · intro text r h
      rw [readMembers] at h
      split at h
      · cases h
        trivial
      · simp only [Option.bind_eq_bind, Option.bind_eq_some_iff, Option.some.injEq] at h
        obtain ⟨m, hm, members, hms, rfl⟩ := h
        exact ⟨hmember _ _ hm, hmembers _ _ hms⟩
      · cases h

theorem distinct_of_parse {text : List Char} {v : Json ν} (h : parse F text = some v) :
    Distinct v := by
  unfold parse at h
  split at h
  next v' rest hread =>
    split_ifs at h
    cases h
    exact (distinct_of_read F _).1 _ _ hread
  next => cases h

/-! ### Texts in quotes -/

theorem hexValue_hexDigit : ∀ n < 16, hexValue (hexDigit n) = some n := by
  decide

/-- Control characters are read from their four digits. -/
theorem unicode_hexDigit (c : Char) (h : c.toNat < 32) :
    unicode '0' '0' (hexDigit (c.toNat / 16)) (hexDigit (c.toNat % 16)) = some c := by
  have hzero : hexValue '0' = some 0 := hexValue_hexDigit 0 (by omega)
  have hnumber : 4096 * 0 + 256 * 0 + 16 * (c.toNat / 16) + c.toNat % 16 = c.toNat := by omega
  have hvalid : c.toNat.isValidChar := c.valid
  simp only [unicode, hzero, hexValue_hexDigit _ (show c.toNat / 16 < 16 by omega),
    hexValue_hexDigit _ (show c.toNat % 16 < 16 by omega), Option.bind_eq_bind, Option.bind_some,
    hnumber, if_pos hvalid, Char.ofNat_toNat]

/-- A character is read as it was escaped. -/
theorem readString_escape (c : Char) (rest : List Char) :
    readString (escape c ++ rest) = (readString rest).map fun r => (c :: r.1, r.2) := by
  unfold escape
  split_ifs with hquote hbackslash hline hreturn htab hback hform hcontrol
  all_goals try (subst c; simp [readString, unescape])
  · have hc := unicode_hexDigit c hcontrol
    simp [readString, hc]
  · simp only [List.singleton_append]
    rw [readString.eq_def]
    -- a character that stands for itself is none of the special ones
    split <;> simp_all

theorem readString_flatMap_escape (text rest : List Char) :
    readString (text.flatMap escape ++ '"' :: rest) = some (text, rest) := by
  induction text with
  | nil => simp [readString]
  | cons c text ih =>
    rw [List.flatMap_cons, List.append_assoc, readString_escape, ih]
    rfl

/-- What a text in quotes starts with, and what is read after that. -/
theorem readString_quote (s : String) (rest : List Char) :
    ∃ body, quote s ++ rest = '"' :: body ∧ readString body = some (s.toList, rest) := by
  refine ⟨s.toList.flatMap escape ++ '"' :: rest, ?_, readString_flatMap_escape s.toList rest⟩
  simp [quote]

/-! ### Round trips -/

/-- A number ends where the text does. -/
def NumberEnds (rest : List Char) : Prop := ∀ c ∈ rest.head?, numeric c = false

theorem numberEnds_cons {c : Char} {rest : List Char} (h : numeric c = false) :
    NumberEnds (c :: rest) := by
  intro c' hc'
  cases hc'
  exact h

theorem numberEnds_writeItems (items : List (Json ν)) (rest : List Char) :
    NumberEnds (writeItems F items ++ rest) := by
  cases items with
  | nil => exact numberEnds_cons (by decide)
  | cons v items => rw [writeItems]; exact numberEnds_cons (by decide)

theorem numberEnds_writeMembers (members : List (String × Json ν)) (rest : List Char) :
    NumberEnds (writeMembers F members ++ rest) := by
  cases members with
  | nil => exact numberEnds_cons (by decide)
  | cons m members => rw [writeMembers]; exact numberEnds_cons (by decide)

/-- No value but a number starts like one. -/
private theorem numeric_ne : ∀ c ∈ "0123456789-+.eE".toList,
    c ∉ ['n', 't', 'f', '"', '[', '{', ']'] ∧ whiteSpace c = false := by
  decide

private theorem number_cons (n : ν) : ∃ c text, F.text n = c :: text ∧
    c ∉ ['n', 't', 'f', '"', '[', '{', ']'] ∧ whiteSpace c = false := by
  obtain ⟨c, text, htext⟩ := List.exists_cons_of_ne_nil (F.text_ne_nil n)
  have hc : numeric c = true := F.numeric_of_mem n c (by simp [htext])
  exact ⟨c, text, htext, numeric_ne c (by simpa [numeric] using hc)⟩

private theorem number_span (n : ν) {rest : List Char} (h : NumberEnds rest) :
    (F.text n ++ rest).takeWhile numeric = F.text n ∧
      (F.text n ++ rest).dropWhile numeric = rest := by
  have hn := F.numeric_of_mem n
  rw [List.takeWhile_append_of_pos hn, List.dropWhile_append_of_pos hn]
  cases rest with
  | nil => simp
  | cons c rest =>
    have hc : numeric c = false := h c rfl
    constructor
    · simp [hc]
    · simp [hc]

/-- Values start with no white space, and not like the end of an array. -/
theorem write_cons (v : Json ν) :
    ∃ c text, write F v = c :: text ∧ whiteSpace c = false ∧ c ≠ ']' := by
  cases v with
  | null => exact ⟨'n', _, rfl, by decide, by decide⟩
  | bool b => cases b with
    | true => exact ⟨'t', _, rfl, by decide, by decide⟩
    | false => exact ⟨'f', _, rfl, by decide, by decide⟩
  | num n =>
    obtain ⟨c, text, htext, hc, hspace⟩ := number_cons F n
    refine ⟨c, text, by rw [write, htext], hspace, ?_⟩
    rintro rfl
    simp at hc
  | str s => exact ⟨'"', _, by rw [write, quote], by decide, by decide⟩
  | arr items => cases items with
    | nil => exact ⟨'[', _, by rw [write], by decide, by decide⟩
    | cons v items => exact ⟨'[', _, by rw [write], by decide, by decide⟩
  | obj members => cases members with
    | nil => exact ⟨'{', _, by rw [write], by decide, by decide⟩
    | cons m members => exact ⟨'{', _, by rw [write], by decide, by decide⟩

theorem write_length_pos (v : Json ν) : 0 < (write F v).length := by
  obtain ⟨c, text, htext, -⟩ := write_cons F v
  simp [htext]

theorem skip_of_not_space {c : Char} (rest : List Char) (h : whiteSpace c = false) :
    skip (c :: rest) = c :: rest := by
  simp [skip, h]

/-- A number is read as it was written. -/
theorem readValue_number (n : ν) (fuel : ℕ) {rest : List Char} (h : NumberEnds rest) :
    readValue F (fuel + 1) (F.text n ++ rest) = some (.num n, rest) := by
  obtain ⟨c, text, htext, hc, hspace⟩ := number_cons F n
  obtain ⟨htake, hdrop⟩ := number_span F n h
  simp only [List.mem_cons, List.not_mem_nil, or_false, not_or] at hc
  rw [htext, List.cons_append] at htake hdrop ⊢
  rw [readValue, skip_of_not_space _ hspace]
  simp only [hc, if_false, htake, hdrop]
  rw [← htext, F.read_text]
  rfl

mutual

/-- A value is read as it was written. -/
theorem readValue_write : ∀ (v : Json ν) (fuel : ℕ) (rest : List Char), Distinct v →
    (write F v).length ≤ fuel → NumberEnds rest →
    readValue F fuel (write F v ++ rest) = some (v, rest)
  | .null, fuel + 1, rest, _, _, _ => by
    simp [write, readValue, word, skip, whiteSpace]
  | .bool true, fuel + 1, rest, _, _, _ => by
    simp [write, readValue, word, skip, whiteSpace]
  | .bool false, fuel + 1, rest, _, _, _ => by
    simp [write, readValue, word, skip, whiteSpace]
  | .num n, fuel + 1, rest, _, _, hrest => by
    rw [write]
    exact readValue_number F n fuel hrest
  | .str s, fuel + 1, rest, _, _, _ => by
    obtain ⟨body, hbody, hread⟩ := readString_quote s rest
    rw [write, hbody]
    simp [readValue, skip, whiteSpace, hread]
  | .arr [], fuel + 1, rest, _, _, _ => by
    simp [write, readValue, skip, whiteSpace]
  | .arr (v :: items), fuel + 1, rest, hdistinct, hfuel, _ => by
    rw [Distinct, DistinctItems] at hdistinct
    simp only [write, List.length_cons, List.length_append] at hfuel
    -- the first item is read up to the separator, and the rest by the rule for lists
    have hv := readValue_write v fuel (writeItems F items ++ rest) hdistinct.1 (by omega)
      (numberEnds_writeItems F items rest)
    have hitems := readItems_write items fuel rest hdistinct.2 (by omega)
    obtain ⟨c, text, htext, hspace, hend⟩ := write_cons F v
    simp only [write, List.cons_append, List.append_assoc]
    rw [readValue, skip_of_not_space _ (by decide)]
    simp only [htext, List.cons_append] at hv ⊢
    simp [skip_of_not_space _ hspace, hend, hv, hitems]
  | .obj [], fuel + 1, rest, _, _, _ => by
    simp [write, readValue, skip, whiteSpace]
  | .obj ((key, v) :: members), fuel + 1, rest, hdistinct, hfuel, _ => by
    rw [Distinct, DistinctMembers] at hdistinct
    simp only [write, List.length_cons, List.length_append] at hfuel
    have hm := readMember_write key v fuel (writeMembers F members ++ rest) hdistinct.2.1
      (by simp; omega) (numberEnds_writeMembers F members rest)
    have hmembers := readMembers_write members fuel rest hdistinct.2.2 (by omega)
    -- no key occurs twice, so no member replaces another
    have hof : ofMembers ((key, v) :: members) = (key, v) :: members := ofMembers_eq hdistinct.1
    simp only [write, List.cons_append, List.append_assoc] at hm ⊢
    rw [readValue, skip_of_not_space _ (by decide)]
    obtain ⟨body, hbody, -⟩ :=
      readString_quote key (':' :: (write F v ++ (writeMembers F members ++ rest)))
    rw [hbody] at hm ⊢
    simp [skip_of_not_space body (show whiteSpace '"' = false by decide), hm, hmembers, hof]
  | v, 0, _, _, hfuel, _ => by
    have := write_length_pos F v
    omega

theorem readItems_write : ∀ (items : List (Json ν)) (fuel : ℕ) (rest : List Char),
    DistinctItems items → (writeItems F items).length ≤ fuel →
    readItems F fuel (writeItems F items ++ rest) = some (items, rest)
  | [], fuel + 1, rest, _, _ => by
    simp [writeItems, readItems, skip, whiteSpace]
  | v :: items, fuel + 1, rest, hdistinct, hfuel => by
    rw [DistinctItems] at hdistinct
    simp only [writeItems, List.length_cons, List.length_append] at hfuel
    have hv := readValue_write v fuel (writeItems F items ++ rest) hdistinct.1 (by omega)
      (numberEnds_writeItems F items rest)
    have hitems := readItems_write items fuel rest hdistinct.2 (by omega)
    simp only [writeItems, List.cons_append, List.append_assoc]
    rw [readItems, skip_of_not_space _ (by decide)]
    simp [hv, hitems]
  | [], 0, _, _, hfuel => by simp [writeItems] at hfuel
  | _ :: _, 0, _, _, hfuel => by simp [writeItems] at hfuel

theorem readMember_write (key : String) : ∀ (v : Json ν) (fuel : ℕ) (rest : List Char),
    Distinct v → (quote key ++ ':' :: write F v).length ≤ fuel → NumberEnds rest →
    readMember F fuel (quote key ++ ':' :: write F v ++ rest) = some ((key, v), rest)
  | v, fuel + 1, rest, hdistinct, hfuel, hrest => by
    simp only [List.length_cons, List.length_append] at hfuel
    have hv := readValue_write v fuel rest hdistinct (by omega) hrest
    obtain ⟨body, hbody, hread⟩ := readString_quote key (':' :: (write F v ++ rest))
    rw [List.append_assoc, List.cons_append, hbody, readMember, skip_of_not_space _ (by decide)]
    simp [hread, skip_of_not_space _ (show whiteSpace ':' = false by decide), hv]
  | _, 0, _, _, hfuel, _ => by simp at hfuel

theorem readMembers_write : ∀ (members : List (String × Json ν)) (fuel : ℕ) (rest : List Char),
    DistinctMembers members → (writeMembers F members).length ≤ fuel →
    readMembers F fuel (writeMembers F members ++ rest) = some (members, rest)
  | [], fuel + 1, rest, _, _ => by
    simp [writeMembers, readMembers, skip, whiteSpace]
  | (key, v) :: members, fuel + 1, rest, hdistinct, hfuel => by
    rw [DistinctMembers] at hdistinct
    simp only [writeMembers, List.length_cons, List.length_append] at hfuel
    have hm := readMember_write key v fuel (writeMembers F members ++ rest) hdistinct.1
      (by simp; omega) (numberEnds_writeMembers F members rest)
    have hmembers := readMembers_write members fuel rest hdistinct.2 (by omega)
    simp only [writeMembers, List.cons_append, List.append_assoc] at hm ⊢
    rw [readMembers, skip_of_not_space _ (by decide)]
    simp [hm, hmembers]
  | [], 0, _, _, hfuel => by simp [writeMembers] at hfuel
  | _ :: _, 0, _, _, hfuel => by simp [writeMembers] at hfuel

end

/-- The parser reads what has been written. -/
theorem parse_write (v : Json ν) (h : Distinct v) : parse F (write F v) = some v := by
  have hread := readValue_write F v ((write F v).length + 1) [] h (by omega) (by simp [NumberEnds])
  rw [List.append_nil] at hread
  simp [parse, hread, skip]

/-- Values whose objects have no two members with one name. -/
abbrev Value (ν : Type) : Type := { v : Json ν // v.Distinct }

/-- `parse` with what the parser says about its values. -/
def parseValue (text : List Char) : Option (Value ν) :=
  (parse F text).attach.map fun v => ⟨v.1, distinct_of_parse F v.2⟩

theorem parseValue_write (v : Value ν) : parseValue F (write F v.1) = some v := by
  have hparse := parse_write F v.1 v.2
  simp [parseValue, hparse]

end Json
