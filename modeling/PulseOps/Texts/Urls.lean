import Mathlib.Data.List.Infix
import Mathlib.Data.List.Induction
import Mathlib.Data.List.TakeWhile
import Mathlib.Data.List.GetD
import Mathlib.Tactic.Common
import PulseOps.Texts.Characters

/-!
# URLs

The paths of HTTP URLs, as the URL Standard parses them. A path is split at slashes, which a
backslash is too; segments that are dots, also when they are percent-encoded, lead nowhere or up;
and some characters of the others are percent-encoded. What becomes of a host is a parameter. URLs
of other schemes, user names and passwords are left out.

## Main definitions

* `Urls.encode` — percent-encoding.
* `Urls.resolve`, `Urls.text` — the segments of a path, and its text.
* `Urls.parse` — the scheme, the host and the path of a URL.
* `Urls.Plain` — texts that are their own paths.
* `Urls.Leads` — what a text may be to be parsed to a given path, when something is put below.
* `Urls.Written` — texts with a host and a path, without a query.

## Main results

* `Urls.normal_resolve` — what the segments of a path look like.
* `Urls.parse_below_iff` — the path of a text and something below it.
* `Urls.Written.leads_iff` — the same of a text with a host and a path.
-/

set_option autoImplicit false

namespace Urls

open scoped Characters

abbrev Text := List Char

abbrev Segment := List Char

variable {c d : Char} {s t : Segment} {path segs : List Segment} {front before key : Text}

/-! ### Characters -/

/-- A slash of the path of an HTTP URL. -/
def slash (c : Char) : Bool := c = '/' || c = '\\'

/-- A query or a fragment begins. -/
def ends (c : Char) : Bool := c = '?' || c = '#'

/-- C0 controls and the space. -/
def control (c : Char) : Bool := c.toNat ≤ 0x20

/-- Tabs and newlines. -/
def newline (c : Char) : Bool := c = '\t' || c = '\n' || c = '\r'

/-- The path percent-encode set. -/
def encoded (c : Char) : Bool :=
  control c || 0x7E < c.toNat || c ∈ ['"', '#', '<', '>', '?', '^', '\x60', '\x7b', '\x7d']

def upperHex (n : ℕ) : Char := "0123456789ABCDEF".toList.getD n '0'

def percent (byte : UInt8) : Text :=
  ['%', upperHex (byte.toNat / 16), upperHex (byte.toNat % 16)]

def encodeChar (c : Char) : Text :=
  if encoded c then (String.utf8EncodeChar c).flatMap percent else [c]

/-- UTF-8 percent-encoding. -/
def encode (s : Segment) : Segment := s.flatMap encodeChar

/-! ### Paths -/

def singleDots : List Segment := [['.'], ['%', '2', 'e'], ['%', '2', 'E']]

def doubleDots : List Segment := singleDots.flatMap fun s => singleDots.map fun t => s ++ t

/-- A segment before another one. -/
def step (path : List Segment) (s : Segment) : List Segment :=
  if s ∈ doubleDots then path.dropLast
  else if s ∈ singleDots then path
  else path ++ [encode s]

/-- The last segment. -/
def last (path : List Segment) (s : Segment) : List Segment :=
  if s ∈ doubleDots then path.dropLast ++ [[]]
  else if s ∈ singleDots then path ++ [[]]
  else path ++ [encode s]

def resolve (path segs : List Segment) : List Segment :=
  last (segs.dropLast.foldl step path) (segs.getLastD [])

/-- The segments of a text that is empty or begins with a slash. -/
def segments (raw : Text) : List Segment := (raw.splitOnP slash).tail

def text (path : List Segment) : Text := path.flatMap fun s => '/' :: s

/-! ### Parsing -/

structure Url where
  scheme : Text
  host : Text
  pathname : Text
  deriving DecidableEq

/-- The text without controls and spaces around it, and without newlines. -/
def clean (text : Text) : Text :=
  ((text.dropWhile control).reverse.dropWhile control).reverse.filter (!newline ·)

/-- HTTP or HTTPS, and what follows. -/
def schemeOf (text : Text) : Option (Text × Text) :=
  match text.dropWhile (· ≠ ':') with
  | [] => none
  | _ :: rest =>
    let scheme := (text.takeWhile (· ≠ ':')).map Char.toLower
    if scheme = "http".toList ∨ scheme = "https".toList then
      -- any number of slashes follows
      some (scheme, rest.dropWhile slash)
    else none

def authority (rest : Text) : Text := rest.takeWhile fun c => !(slash c || ends c)

def afterAuthority (rest : Text) : Text := rest.dropWhile fun c => !(slash c || ends c)

/-- The path up to the query or the fragment. -/
def rawPath (rest : Text) : Text := (afterAuthority rest).takeWhile (!ends ·)

/-- `new URL(text)`. -/
def parse (hostOf : Text → Text → Option Text) (url : Text) : Option Url :=
  match schemeOf (clean url) with
  | none => none
  | some (scheme, rest) =>
    if authority rest = [] then none
    else (hostOf scheme (authority rest)).map fun host =>
      ⟨scheme, host, text (resolve [] (segments (rawPath rest)))⟩

/-! ### Percent-encoding -/

theorem encode_eq_self (h : ∀ c ∈ s, encoded c = false) : encode s = s := by
  induction s with
  | nil => rfl
  | cons c s ih =>
    have hs := ih fun d hd => h d (List.mem_cons_of_mem _ hd)
    have hc : encodeChar c = [c] := by
      rw [encodeChar, if_neg]
      rw [h c List.mem_cons_self]
      exact Bool.false_ne_true
    rw [encode, List.flatMap_cons, hc, ← encode, hs]
    rfl

theorem upperHex_notEncoded (n : ℕ) :
    encoded (upperHex n) = false ∧ slash (upperHex n) = false := by
  by_cases hn : n < 16
  · have hall : ∀ n < 16, encoded (upperHex n) = false ∧ slash (upperHex n) = false := by
      decide +kernel
    exact hall n hn
  · have hlength : "0123456789ABCDEF".toList.length ≤ n := by
      have hsixteen : "0123456789ABCDEF".toList.length = 16 := by decide +kernel
      omega
    rw [upperHex, List.getD_eq_default _ _ hlength]
    decide +kernel

/-- What has been encoded is not encoded again. -/
theorem mem_encode (h : d ∈ encode s) : encoded d = false ∧ (slash d = true → d ∈ s) := by
  obtain ⟨c, hc, hd⟩ := List.mem_flatMap.mp h
  unfold encodeChar at hd
  split_ifs at hd with hencoded
  · obtain ⟨byte, -, hbyte⟩ := List.mem_flatMap.mp hd
    have hnot : encoded d = false ∧ slash d = false := by
      simp only [percent, List.mem_cons, List.not_mem_nil, or_false] at hbyte
      rcases hbyte with rfl | rfl | rfl
      · decide +kernel
      · exact upperHex_notEncoded _
      · exact upperHex_notEncoded _
    refine ⟨hnot.1, fun hslash => ?_⟩
    rw [hnot.2] at hslash
    cases hslash
  · rw [List.mem_singleton] at hd
    subst hd
    exact ⟨by simpa using hencoded, fun _ => hc⟩

theorem upperHex_eq {n : ℕ} (hn : n < 16) :
    (upperHex n = '2' → n = 2) ∧ (upperHex n = 'e' ∨ upperHex n = 'E' → n = 14) := by
  have hall : ∀ n < 16,
      (upperHex n = '2' → n = 2) ∧ (upperHex n = 'e' ∨ upperHex n = 'E' → n = 14) := by
    decide +kernel
  exact hall n hn

theorem utf8EncodeChar_head (c : Char) : ∃ byte rest, String.utf8EncodeChar c = byte :: rest ∧
    (byte.toNat = 0x2E → c.toNat = 0x2E) := by
  have hval : c.val.toNat = c.toNat := rfl
  unfold String.utf8EncodeChar
  simp only [hval]
  split_ifs with hone htwo hthree
  · refine ⟨_, _, rfl, ?_⟩
    rw [UInt8.toNat_ofNat']
    omega
  all_goals
    refine ⟨_, _, rfl, ?_⟩
    rw [UInt8.toNat_ofNat']
    omega

/-- No character is encoded as a dot. -/
theorem encodeChar_of_encoded (h : encoded c = true) :
    ∃ x y rest, encodeChar c = '%' :: x :: y :: rest ∧ ¬ (x = '2' ∧ (y = 'e' ∨ y = 'E')) := by
  obtain ⟨byte, rest, hbytes, hdot⟩ := utf8EncodeChar_head c
  have hbyte : byte.toNat < 256 := byte.toNat_lt
  refine ⟨upperHex (byte.toNat / 16), upperHex (byte.toNat % 16), rest.flatMap percent, ?_, ?_⟩
  · rw [encodeChar, if_pos h, hbytes, List.flatMap_cons]
    rfl
  · rintro ⟨hx, hy⟩
    have hhigh := (upperHex_eq (by omega)).1 hx
    have hlow := (upperHex_eq (by omega)).2 hy
    have hc : c = '.' := by
      apply Char.toNat_inj.mp
      rw [hdot (by omega)]
      rfl
    rw [hc] at h
    revert h
    decide +kernel

def Dot (s : Segment) : Prop := s ∈ doubleDots ∨ s ∈ singleDots

instance (s : Segment) : Decidable (Dot s) := inferInstanceAs (Decidable (_ ∨ _))

/-- The percents of a dot. -/
theorem percent_of_dot {u v : Text} {x y : Char} (h : Dot (u ++ '%' :: x :: y :: v)) :
    x = '2' ∧ (y = 'e' ∨ y = 'E') := by
  have hall : ∀ t ∈ doubleDots ++ singleDots, ∀ i < t.length, t[i]? = some '%' →
      t[i + 1]? = some '2' ∧ (t[i + 2]? = some 'e' ∨ t[i + 2]? = some 'E') := by
    decide +kernel
  have hpercent := hall _ (List.mem_append.mpr h) u.length (by simp)
  simpa [List.getElem?_append_right] using hpercent

theorem dot_of_dot_encode (h : Dot (encode s)) : Dot s := by
  have hplain : ∀ c ∈ s, encoded c = false := by
    intro c hc
    by_contra hencoded
    rw [Bool.not_eq_false] at hencoded
    obtain ⟨x, y, rest, hchar, hnot⟩ := encodeChar_of_encoded hencoded
    obtain ⟨u, v, rfl⟩ := List.append_of_mem hc
    have hencode : encode (u ++ c :: v) = encode u ++ '%' :: x :: y :: (rest ++ encode v) := by
      simp [encode, hchar]
    rw [hencode] at h
    exact hnot (percent_of_dot h)
  rwa [encode_eq_self hplain] at h

/-! ### The segments of a path -/

/-- What a segment of a path looks like. -/
structure Normal (s : Segment) : Prop where
  chars : ∀ c ∈ s, encoded c = false ∧ slash c = false
  notDot : ¬ Dot s

theorem normal_nil : Normal [] where
  chars := by simp
  notDot := by decide +kernel

theorem normal_encode (hslash : ∀ c ∈ s, slash c = false) (hdot : ¬ Dot s) : Normal (encode s) where
  chars c hc := by
    obtain ⟨hencoded, hmem⟩ := mem_encode hc
    refine ⟨hencoded, ?_⟩
    by_contra h
    rw [Bool.not_eq_false] at h
    rw [hslash c (hmem h)] at h
    cases h
  notDot h := hdot (dot_of_dot_encode h)

theorem normal_step (hpath : ∀ t ∈ path, Normal t) (hslash : ∀ c ∈ s, slash c = false) :
    (∀ t ∈ step path s, Normal t) ∧ ∀ t ∈ last path s, Normal t := by
  have hup : ∀ t ∈ path.dropLast, Normal t := fun t ht => hpath t (List.mem_of_mem_dropLast ht)
  have hconcat : ∀ {path' : List Segment} {s' : Segment}, (∀ t ∈ path', Normal t) → Normal s' →
      ∀ t ∈ path' ++ [s'], Normal t := by
    intro path' s' hpath' hs' t ht
    rw [List.mem_append, List.mem_singleton] at ht
    rcases ht with ht | rfl
    · exact hpath' t ht
    · exact hs'
  unfold step last
  split_ifs with hdouble hsingle
  · exact ⟨hup, hconcat hup normal_nil⟩
  · exact ⟨hpath, hconcat hpath normal_nil⟩
  · have hs := normal_encode hslash (not_or.mpr ⟨hdouble, hsingle⟩)
    exact ⟨hconcat hpath hs, hconcat hpath hs⟩

theorem normal_walk (hpath : ∀ t ∈ path, Normal t) (hsegs : ∀ s ∈ segs, ∀ c ∈ s, slash c = false) :
    ∀ t ∈ segs.foldl step path, Normal t := by
  induction segs generalizing path with
  | nil => exact hpath
  | cons s segs ih =>
    apply ih
    · exact (normal_step hpath (hsegs s List.mem_cons_self)).1
    · exact fun t ht => hsegs t (List.mem_cons_of_mem _ ht)

theorem resolve_concat (path segs : List Segment) (s : Segment) :
    resolve path (segs ++ [s]) = last (segs.foldl step path) s := by
  rw [resolve, List.dropLast_concat, List.getLastD_concat]

theorem resolve_append (path : List Segment) (segs : List Segment) {segs' : List Segment}
    (hne : segs' ≠ []) : resolve path (segs ++ segs') = resolve (segs.foldl step path) segs' := by
  obtain ⟨init, s, rfl⟩ := (List.eq_nil_or_concat segs').resolve_left hne
  rw [List.concat_eq_append, ← List.append_assoc, resolve_concat, resolve_concat,
    List.foldl_append]

theorem normal_resolve (hpath : ∀ t ∈ path, Normal t)
    (hsegs : ∀ s ∈ segs, ∀ c ∈ s, slash c = false) : ∀ t ∈ resolve path segs, Normal t := by
  rcases List.eq_nil_or_concat segs with rfl | ⟨init, s, rfl⟩
  · exact (normal_step hpath (by simp)).2
  · rw [List.concat_eq_append] at hsegs ⊢
    rw [resolve_concat]
    apply (normal_step _ (hsegs s (by simp))).2
    exact normal_walk hpath fun t ht => hsegs t (List.mem_append_left _ ht)

/-- Segments that are what they look like stay. -/
theorem walk_normal (h : ∀ s ∈ segs, Normal s) : segs.foldl step path = path ++ segs := by
  induction segs generalizing path with
  | nil => simp
  | cons s segs ih =>
    have hs := h s List.mem_cons_self
    have hnotDot := not_or.mp hs.notDot
    have hstep : step path s = path ++ [s] := by
      rw [step, if_neg hnotDot.1, if_neg hnotDot.2, encode_eq_self fun c hc => (hs.chars c hc).1]
    rw [List.foldl_cons, hstep, ih fun t ht => h t (List.mem_cons_of_mem _ ht), ← List.append_cons]

theorem resolve_normal (hne : segs ≠ []) (h : ∀ s ∈ segs, Normal s) :
    resolve path segs = path ++ segs := by
  obtain ⟨init, s, rfl⟩ := (List.eq_nil_or_concat segs).resolve_left hne
  rw [List.concat_eq_append] at h ⊢
  have hs := h s (by simp)
  have hnotDot := not_or.mp hs.notDot
  rw [resolve_concat, walk_normal fun t ht => h t (List.mem_append_left _ ht), last,
    if_neg hnotDot.1, if_neg hnotDot.2, encode_eq_self fun c hc => (hs.chars c hc).1,
    List.append_assoc]

theorem length_resolve_le (path segs : List Segment) :
    (resolve path segs).length ≤ path.length + max 1 segs.length := by
  have hlast : ∀ path s, (last path s).length ≤ path.length + 1 := by
    intro path s
    unfold last
    split_ifs <;> simp only [List.length_append, List.length_dropLast, List.length_cons,
      List.length_nil] <;> omega
  have hwalk : ∀ (segs path : List Segment),
      (segs.foldl step path).length ≤ path.length + segs.length := by
    intro segs
    induction segs with
    | nil => simp
    | cons s segs ih =>
      intro path
      have hstep : (step path s).length ≤ path.length + 1 := by
        unfold step
        split_ifs
        · rw [List.length_dropLast]
          omega
        · omega
        · rw [List.length_append, List.length_singleton]
      have hrest := ih (step path s)
      simp only [List.foldl_cons, List.length_cons]
      omega
  rcases List.eq_nil_or_concat segs with rfl | ⟨init, s, rfl⟩
  · exact hlast path []
  · rw [List.concat_eq_append, resolve_concat]
    have hone := hlast (init.foldl step path) s
    have htwo := hwalk init path
    simp only [List.length_append, List.length_cons, List.length_nil]
    omega

/-! ### Texts of paths -/

theorem splitOn_text (h : ∀ s ∈ path, '/' ∉ s) : (text path).splitOn '/' = [] :: path := by
  induction path with
  | nil => rfl
  | cons s path ih =>
    have hpath := ih fun t ht => h t (List.mem_cons_of_mem _ ht)
    have hs := h s List.mem_cons_self
    cases path with
    | nil =>
      have htext : text [s] = [] ++ '/' :: s := by simp [text]
      rw [htext, List.splitOn_append_cons_self, List.splitOn_eq_singleton hs]
      rfl
    | cons t path =>
      have htext : text (s :: t :: path) = [] ++ '/' :: (s ++ text (t :: path)) := by simp [text]
      have htail : s ++ text (t :: path) = s ++ '/' :: (t ++ text path) := by simp [text]
      have htail' : text (t :: path) = [] ++ '/' :: (t ++ text path) := by simp [text]
      rw [htail', List.splitOn_append_cons_self, List.splitOn_nil] at hpath
      rw [htext, htail, List.splitOn_append_cons_self, List.splitOn_append_cons_self,
        List.splitOn_eq_singleton hs, List.splitOn_nil]
      rw [List.singleton_append, List.cons_inj_right] at hpath
      rw [hpath]
      rfl

/-- A path that ends with a text ends with the segments of that text. -/
theorem segments_of_text (hpath : ∀ s ∈ path, Normal s) (h : text path = before ++ '/' :: key) :
    ∃ path', path = path' ++ key.splitOn '/' := by
  have hslash : ∀ s ∈ path, '/' ∉ s := by
    intro s hs hmem
    exact absurd ((hpath s hs).chars '/' hmem).2 (by decide)
  have hsplit := splitOn_text hslash
  rw [h, List.splitOn_append_cons_self] at hsplit
  obtain ⟨first, rest, hbefore⟩ := List.exists_cons_of_ne_nil (List.splitOn_ne_nil '/' before)
  rw [hbefore, List.cons_append, List.cons.injEq] at hsplit
  exact ⟨rest, hsplit.2.symm⟩

theorem encoded_of_mem_text (hpath : ∀ s ∈ path, Normal s) (hc : c ∈ text path) :
    encoded c = false ∧ c ≠ '\\' := by
  obtain ⟨s, hs, hmem⟩ := List.mem_flatMap.mp hc
  rw [List.mem_cons] at hmem
  rcases hmem with rfl | hmem
  · decide +kernel
  · obtain ⟨hencoded, hslash⟩ := (hpath s hs).chars c hmem
    refine ⟨hencoded, fun heq => ?_⟩
    rw [heq] at hslash
    revert hslash
    decide

theorem text_append (path path' : List Segment) : text (path ++ path') = text path ++ text path' :=
  List.flatMap_append

theorem text_intercalate (s : Segment) (rest : List Segment) :
    text (s :: rest) = '/' :: ['/'].intercalate (s :: rest) := by
  induction rest generalizing s with
  | nil => simp [text, List.intercalate]
  | cons t rest ih =>
    have htext : text (s :: t :: rest) = '/' :: (s ++ text (t :: rest)) := by simp [text]
    rw [htext, ih t]
    simp [List.intercalate]

theorem text_splitOn (key : Text) : text (key.splitOn '/') = '/' :: key := by
  obtain ⟨s, rest, hsplit⟩ := List.exists_cons_of_ne_nil (List.splitOn_ne_nil '/' key)
  rw [hsplit, text_intercalate, ← hsplit, List.intercalate_splitOn]

/-! ### Something below a text -/

/-- Texts that are their own paths. -/
def Plain (key : Text) : Prop :=
  (∀ c ∈ key, encoded c = false ∧ c ≠ '\\') ∧ ∀ s ∈ key.splitOn '/', ¬ Dot s

/-- A text without controls and spaces before it, and without newlines. -/
def cleanFront (front : Text) : Text := (front.dropWhile control).filter (!newline ·)

/-- A text without controls and spaces after it, and without newlines. -/
def cleanBack (key : Text) : Text := ((key.reverse.dropWhile control).reverse).filter (!newline ·)

/-- What a text may be so that the path of the text and `/key` is `before/key`: it leads to
`before`, if it has no query and no fragment; with one of these, it has that path itself. -/
def Leads (hostOf : Text → Text → Option Text) (front before key : Text) : Prop :=
  ∃ scheme rest, schemeOf (cleanFront front) = some (scheme, rest) ∧ authority rest ≠ [] ∧
    (hostOf scheme (authority rest)).isSome ∧
    if (afterAuthority rest).any ends then
      text (resolve [] (segments (rawPath rest))) = before ++ '/' :: key
    else text ((segments (afterAuthority rest)).foldl step []) = before ∧ Plain key

theorem dropWhile_append_cons {p : Char → Bool} (text rest : Text) (h : p c = false) :
    (text ++ c :: rest).dropWhile p = text.dropWhile p ++ c :: rest := by
  induction text with
  | nil => simp [h]
  | cons d text ih =>
    rw [List.cons_append, List.dropWhile_cons, List.dropWhile_cons]
    split_ifs
    · exact ih
    · rfl

theorem clean_append (front key : Text) :
    clean (front ++ '/' :: key) = cleanFront front ++ '/' :: cleanBack key := by
  have hslash : control '/' = false := by decide
  rw [clean, dropWhile_append_cons front key hslash, List.reverse_append, List.reverse_cons,
    List.append_assoc, List.singleton_append, dropWhile_append_cons _ _ hslash,
    List.reverse_append, List.reverse_cons, List.reverse_reverse, List.append_assoc,
    List.singleton_append, List.filter_append, List.filter_cons_of_pos (by decide)]
  rfl

/-- Newlines are controls. -/
theorem newline_of_control (h : control c = false) : (!newline c) = true := by
  rw [Bool.not_eq_true']
  by_contra hnewline
  simp only [newline, Bool.not_eq_false, Bool.or_eq_true, decide_eq_true_eq] at hnewline
  rcases hnewline with (rfl | rfl) | rfl <;> exact absurd h (by decide)

theorem dropWhile_control {text : Text} (h : ∀ c ∈ text, control c = false) :
    text.dropWhile control = text := by
  cases text with
  | nil => rfl
  | cons c rest => rw [List.dropWhile_cons, h c List.mem_cons_self, if_neg Bool.false_ne_true]

theorem cleanFront_eq_self (h : ∀ c ∈ front, control c = false) : cleanFront front = front := by
  rw [cleanFront, dropWhile_control h,
    List.filter_eq_self.mpr fun c hc => newline_of_control (h c hc)]

theorem cleanBack_of_plain (h : ∀ c ∈ key, encoded c = false) : cleanBack key = key := by
  have hcontrol : ∀ c ∈ key, control c = false := by
    intro c hc
    have hencoded := h c hc
    simp only [encoded, Bool.or_eq_false_iff] at hencoded
    exact hencoded.1.1
  have hreverse : ∀ c ∈ key.reverse, control c = false :=
    fun c hc => hcontrol c (List.mem_reverse.mp hc)
  rw [cleanBack, dropWhile_control hreverse, List.reverse_reverse,
    List.filter_eq_self.mpr fun c hc => newline_of_control (hcontrol c hc)]

theorem takeWhile_append_cons {p : Char → Bool} (text rest : Text) (h : p c = false) :
    (text ++ c :: rest).takeWhile p = text.takeWhile p := by
  induction text with
  | nil => simp [h]
  | cons d text ih =>
    rw [List.cons_append, List.takeWhile_cons, List.takeWhile_cons, ih]

theorem schemeOf_none {text : Text} (h : ':' ∉ text) : schemeOf text = none := by
  have hdrop : text.dropWhile (· ≠ ':') = [] := by
    rw [List.dropWhile_eq_nil_iff]
    exact fun c hc => decide_eq_true fun heq => h (heq ▸ hc)
  rw [schemeOf, hdrop]

theorem schemeOf_colon {text : Text} (h : ':' ∉ text) (rest : Text) :
    schemeOf (text ++ ':' :: rest) =
      if text.map Char.toLower = "http".toList ∨ text.map Char.toLower = "https".toList then
        some (text.map Char.toLower, rest.dropWhile slash)
      else none := by
  have hall : ∀ c ∈ text, decide (c ≠ ':') = true :=
    fun c hc => decide_eq_true fun heq => h (heq ▸ hc)
  have hcolon : (fun c => decide (c ≠ ':')) ':' = false := by decide
  have hdrop : text.dropWhile (· ≠ ':') = [] := List.dropWhile_eq_nil_iff.mpr hall
  have htake : text.takeWhile (· ≠ ':') = text := List.takeWhile_eq_self_iff.mpr hall
  rw [schemeOf, dropWhile_append_cons _ _ hcolon, takeWhile_append_cons _ _ hcolon, hdrop, htake]
  rfl

theorem dropWhile_slash_append (rest : Text) :
    (rest ++ '/' :: key).dropWhile slash =
      if rest.dropWhile slash = [] then key.dropWhile slash
      else rest.dropWhile slash ++ '/' :: key := by
  induction rest with
  | nil =>
    have hslash : slash '/' = true := by decide
    rw [List.nil_append, List.dropWhile_cons_of_pos hslash]
    rfl
  | cons c rest ih =>
    rw [List.cons_append, List.dropWhile_cons, List.dropWhile_cons, ih]
    split_ifs
    all_goals first | rfl | contradiction

theorem schemeOf_append (hcolon : ':' ∉ key) :
    schemeOf (front ++ '/' :: key) = (schemeOf front).map fun found =>
      (found.1, if found.2 = [] then key.dropWhile slash else found.2 ++ '/' :: key) := by
  by_cases hfront : ':' ∈ front
  · obtain ⟨scheme, rest, rfl, hscheme⟩ := List.eq_append_cons_of_mem hfront
    rw [List.append_assoc, List.cons_append, schemeOf_colon hscheme, schemeOf_colon hscheme,
      dropWhile_slash_append]
    by_cases hhttp :
        scheme.map Char.toLower = "http".toList ∨ scheme.map Char.toLower = "https".toList
    · rw [if_pos hhttp, if_pos hhttp, Option.map_some]
    · rw [if_neg hhttp, if_neg hhttp, Option.map_none]
  · have hnone : ':' ∉ front ++ '/' :: key := by
      rw [List.mem_append, List.mem_cons]
      rintro (h | h | h)
      · exact hfront h
      · exact absurd h (by decide)
      · exact hcolon h
    rw [schemeOf_none hnone, schemeOf_none hfront]
    rfl

theorem slash_of_mem_splitOnP {text : Text} {s : Segment} (h : s ∈ text.splitOnP slash) :
    ∀ c ∈ s, slash c = false := by
  induction text generalizing s with
  | nil =>
    rw [List.splitOnP_nil, List.mem_singleton] at h
    simp [h]
  | cons d text ih =>
    rw [List.splitOnP_cons_eq_if_modifyHead] at h
    obtain ⟨first, rest, hsplit⟩ := List.exists_cons_of_ne_nil (List.splitOnP_ne_nil slash text)
    rw [hsplit] at h ih
    split_ifs at h with hd
    · rw [List.mem_cons] at h
      rcases h with rfl | h
      · simp
      · exact ih h
    · rw [List.modifyHead_cons, List.mem_cons] at h
      rcases h with rfl | h
      · intro c hc
        rw [List.mem_cons] at hc
        rcases hc with rfl | hc
        · simpa using hd
        · exact ih List.mem_cons_self c hc
      · exact ih (List.mem_cons_of_mem _ h)

/-- Without backslashes, a text is split at `/`. -/
theorem splitOnP_slash {text : Text} (h : ∀ c ∈ text, c ≠ '\\') :
    text.splitOnP slash = text.splitOn '/' := by
  induction text with
  | nil => rfl
  | cons c text ih =>
    have hc : slash c = (c == '/') := by
      rw [slash, decide_eq_false (h c List.mem_cons_self), Bool.or_false]
      rfl
    rw [List.splitOnP_cons_eq_if_modifyHead, List.splitOn_cons_eq_if_modifyHead,
      ih fun d hd => h d (List.mem_cons_of_mem _ hd), hc]

theorem segments_append (raw key : Text) :
    segments (raw ++ '/' :: key) = segments raw ++ key.splitOnP slash := by
  rw [segments, List.splitOnP_append_cons _ _ (by decide),
    List.tail_append_of_ne_nil (List.splitOnP_ne_nil slash raw)]
  rfl

theorem ends_of_plain (h : ∀ c ∈ key, encoded c = false) : key.takeWhile (!ends ·) = key := by
  rw [List.takeWhile_eq_self_iff]
  intro c hc
  rw [Bool.not_eq_true']
  by_contra hends
  simp only [ends, Bool.not_eq_false, Bool.or_eq_true, decide_eq_true_eq] at hends
  rcases hends with rfl | rfl <;> exact absurd (h _ hc) (by decide +kernel)

theorem normal_of_plain (h : Plain key) : ∀ s ∈ key.splitOn '/', Normal s := by
  intro s hs
  have hslash : ∀ c ∈ s, slash c = false := by
    rw [← splitOnP_slash fun c hc => (h.1 c hc).2] at hs
    exact slash_of_mem_splitOnP hs
  refine ⟨fun c hc => ⟨?_, hslash c hc⟩, h.2 s hs⟩
  have hmem : c ∈ '/' :: key := by
    rw [← text_splitOn]
    exact List.mem_flatMap.mpr ⟨s, hs, List.mem_cons_of_mem _ hc⟩
  rw [List.mem_cons] at hmem
  rcases hmem with rfl | hmem
  · exact absurd (hslash '/' hc) (by decide)
  · exact (h.1 c hmem).1

/-- The path of a text and something below it ends like the text below, if that is plain. -/
theorem text_below_iff (raw key : Text) :
    text (resolve [] (segments (raw ++ '/' :: (cleanBack key).takeWhile (!ends ·)))) =
        before ++ '/' :: key ↔
      text ((segments raw).foldl step []) = before ∧ Plain key := by
  set path := (segments raw).foldl step [] with hpath
  have hraw : ∀ s ∈ segments raw, ∀ c ∈ s, slash c = false :=
    fun s hs => slash_of_mem_splitOnP (List.mem_of_mem_tail hs)
  have hresolve : ∀ key', resolve [] (segments (raw ++ '/' :: key')) =
      resolve path (key'.splitOnP slash) := by
    intro key'
    rw [segments_append, resolve_append _ _ (List.splitOnP_ne_nil slash key')]
  have hnormal : ∀ s ∈ path, Normal s := normal_walk (by simp) hraw
  -- a key without encoded characters is not cut
  have hcut : (∀ c ∈ key, encoded c = false ∧ c ≠ '\\') →
      ((cleanBack key).takeWhile (!ends ·)).splitOnP slash = key.splitOn '/' := by
    intro hchars
    rw [cleanBack_of_plain fun c hc => (hchars c hc).1, ends_of_plain fun c hc => (hchars c hc).1,
      splitOnP_slash fun c hc => (hchars c hc).2]
  rw [hresolve]
  constructor
  · intro h
    have hresolved : ∀ s ∈ resolve path (((cleanBack key).takeWhile (!ends ·)).splitOnP slash),
        Normal s :=
      normal_resolve hnormal fun s hs => slash_of_mem_splitOnP hs
    have hchars : ∀ c ∈ key, encoded c = false ∧ c ≠ '\\' := by
      intro c hc
      apply encoded_of_mem_text hresolved
      rw [h]
      exact List.mem_append_right _ (List.mem_cons_of_mem _ hc)
    have hplain : Plain key := by
      refine ⟨hchars, fun s hs => ?_⟩
      obtain ⟨path', hpath'⟩ := segments_of_text hresolved h
      exact (hresolved s (hpath' ▸ List.mem_append_right _ hs)).notDot
    rw [hcut hchars, resolve_normal (List.splitOn_ne_nil _ _) (normal_of_plain hplain), text_append,
      text_splitOn] at h
    exact ⟨List.append_cancel_right h, hplain⟩
  · rintro ⟨hbefore, hplain⟩
    rw [hcut hplain.1, resolve_normal (List.splitOn_ne_nil _ _) (normal_of_plain hplain),
      text_append, text_splitOn, hbefore]

/-- With no text for a host before it, the key gives its first segment away. -/
theorem text_of_key_ne {name below : Text} (hne : name ≠ []) (hname : ∀ c ∈ name, slash c = false)
    (hkey : key = name ++ '/' :: below) :
    text (resolve [] (segments (rawPath ((cleanBack key).dropWhile slash)))) ≠
      before ++ '/' :: key := by
  intro h
  have hresolved : ∀ s ∈ resolve [] (segments (rawPath ((cleanBack key).dropWhile slash))),
      Normal s :=
    normal_resolve (by simp) fun s hs => slash_of_mem_splitOnP (List.mem_of_mem_tail hs)
  have hchars : ∀ c ∈ key, encoded c = false ∧ c ≠ '\\' := by
    intro c hc
    apply encoded_of_mem_text hresolved
    rw [h]
    exact List.mem_append_right _ (List.mem_cons_of_mem _ hc)
  have hbelow : ∀ c ∈ below, encoded c = false ∧ c ≠ '\\' := by
    intro c hc
    apply hchars
    rw [hkey]
    exact List.mem_append_right _ (List.mem_cons_of_mem _ hc)
  have hdrop : key.dropWhile slash = key := by
    obtain ⟨c, rest, rfl⟩ := List.exists_cons_of_ne_nil hne
    rw [hkey, List.cons_append, List.dropWhile_cons, hname c List.mem_cons_self,
      if_neg Bool.false_ne_true]
  have hauthority : name.dropWhile (fun c => !(slash c || ends c)) = [] := by
    rw [List.dropWhile_eq_nil_iff]
    intro c hc
    have hmem : c ∈ key := hkey ▸ List.mem_append_left _ hc
    have hends : ends c = false := by
      have htake := ends_of_plain fun c hc => (hchars c hc).1
      simpa using List.takeWhile_eq_self_iff.mp htake c hmem
    simp [hname c hc, hends]
  have hraw : rawPath key = '/' :: below := by
    rw [rawPath, afterAuthority, hkey, dropWhile_append_cons name below (by decide), hauthority,
      List.nil_append]
    apply ends_of_plain
    intro c hc
    rw [List.mem_cons] at hc
    rcases hc with rfl | hc
    · decide +kernel
    · exact (hbelow c hc).1
  -- the path has a segment less than the key
  have hlength := length_resolve_le [] (segments ('/' :: below))
  obtain ⟨path', hpath'⟩ := segments_of_text hresolved h
  rw [cleanBack_of_plain fun c hc => (hchars c hc).1, hdrop, hraw] at hpath'
  have hsegments : segments ('/' :: below) = below.splitOn '/' := by
    rw [← List.nil_append ('/' :: below), segments_append,
      splitOnP_slash fun c hc => (hbelow c hc).2]
    rfl
  have hname' := List.length_pos_of_ne_nil (List.splitOn_ne_nil '/' name)
  have hbelow' := List.length_pos_of_ne_nil (List.splitOn_ne_nil '/' below)
  rw [hpath', hkey, List.splitOn_append_cons_self, hsegments] at hlength
  simp only [List.length_append, List.length_nil] at hlength
  omega

theorem mem_cleanBack (h : c ∈ cleanBack key) : c ∈ key := by
  have hfilter := (List.mem_filter.mp h).1
  rw [List.mem_reverse] at hfilter
  exact List.mem_reverse.mp ((List.dropWhile_sublist _).subset hfilter)

theorem takeWhile_ends (text rest : Text) :
    (text ++ '/' :: rest).takeWhile (!ends ·) =
      if text.any ends then text.takeWhile (!ends ·)
      else text ++ '/' :: rest.takeWhile (!ends ·) := by
  induction text with
  | nil =>
    have hslash : ends '/' = false := by decide
    simp [hslash]
  | cons c text ih =>
    cases hc : ends c with
    | true => simp [hc]
    | false =>
      simp only [List.cons_append, List.takeWhile_cons, hc, Bool.not_false, if_true, ih,
        List.any_cons, Bool.false_or]
      split_ifs <;> rfl

/-- With a text for a host, the authority ends in it, and so does a path that has a query or a
fragment. -/
theorem rest_append (rest key : Text) :
    authority (rest ++ '/' :: key) = authority rest ∧
      rawPath (rest ++ '/' :: key) =
        if (afterAuthority rest).any ends then rawPath rest
        else afterAuthority rest ++ '/' :: key.takeWhile (!ends ·) := by
  have hslash : (fun c => !(slash c || ends c)) '/' = false := by decide
  refine ⟨takeWhile_append_cons rest key hslash, ?_⟩
  rw [rawPath, afterAuthority, dropWhile_append_cons rest key hslash, ← afterAuthority]
  exact takeWhile_ends _ _

theorem parse_below_iff {hostOf : Text → Text → Option Text} {name below : Text}
    (hcolon : ':' ∉ key) (hne : name ≠ []) (hname : ∀ c ∈ name, slash c = false)
    (hkey : key = name ++ '/' :: below) :
    (∃ url, parse hostOf (front ++ '/' :: key) = some url ∧
      url.pathname = before ++ '/' :: key) ↔ Leads hostOf front before key := by
  have hcolon' : ':' ∉ cleanBack key := fun hmem => hcolon (mem_cleanBack hmem)
  unfold parse Leads
  rw [clean_append, schemeOf_append hcolon']
  cases hscheme : schemeOf (cleanFront front) with
  | none => simp
  | some found =>
    obtain ⟨scheme, rest⟩ := found
    simp only [Option.map_some]
    by_cases hrest : rest = []
    · -- the key takes the place of the host
      subst hrest
      rw [if_pos rfl]
      constructor
      · rintro ⟨url, hurl, hpath⟩
        split_ifs at hurl with hauthority
        obtain ⟨host, -, rfl⟩ := Option.map_eq_some_iff.mp hurl
        exact absurd hpath (text_of_key_ne hne hname hkey)
      · rintro ⟨scheme', rest', hfound, hauthority, -⟩
        cases hfound
        exact absurd rfl hauthority
    · rw [if_neg hrest, (rest_append rest (cleanBack key)).1, (rest_append rest (cleanBack key)).2]
      -- if the authority has an end in `front`, the key is a part of the path or comes after it
      have hpath : text (resolve [] (segments (if (afterAuthority rest).any ends then rawPath rest
            else afterAuthority rest ++ '/' :: (cleanBack key).takeWhile (!ends ·)))) =
              before ++ '/' :: key ↔
          if (afterAuthority rest).any ends then
            text (resolve [] (segments (rawPath rest))) = before ++ '/' :: key
          else text ((segments (afterAuthority rest)).foldl step []) = before ∧ Plain key := by
        split_ifs
        · exact Iff.rfl
        · exact text_below_iff _ _
      constructor
      · rintro ⟨url, hurl, hpathname⟩
        by_cases hauthority : authority rest = []
        · rw [if_pos hauthority] at hurl
          cases hurl
        rw [if_neg hauthority] at hurl
        obtain ⟨host, hhost, rfl⟩ := Option.map_eq_some_iff.mp hurl
        exact ⟨scheme, rest, rfl, hauthority, by rw [hhost]; rfl, hpath.mp hpathname⟩
      · rintro ⟨scheme', rest', hfound, hauthority, hhost, hleads⟩
        cases hfound
        obtain ⟨host, hhost⟩ := Option.isSome_iff_exists.mp hhost
        rw [if_neg hauthority, hhost]
        exact ⟨_, rfl, hpath.mpr hleads⟩

/-! ### Texts with a host and a path -/

/-- A URL as one writes it, up to its query or fragment. -/
structure Written (scheme host tail : Text) : Prop where
  scheme_http : scheme = "http".toList ∨ scheme = "https".toList
  host_ne : host ≠ []
  host_chars : ∀ c ∈ host, slash c = false ∧ ends c = false ∧ control c = false
  tail_head : ∀ c, tail.head? = some c → slash c = true
  tail_chars : ∀ c ∈ tail, ends c = false ∧ control c = false

def written (scheme host tail : Text) : Text := scheme ++ ':' :: '/' :: '/' :: (host ++ tail)

namespace Written

variable {hostOf : Text → Text → Option Text} {scheme host tail : Text}

theorem controls (h : Written scheme host tail) :
    ∀ c ∈ written scheme host tail, control c = false := by
  have hscheme : ∀ c ∈ scheme, control c = false := by
    rcases h.scheme_http with rfl | rfl <;> decide +kernel
  intro c hc
  simp only [written, List.mem_append, List.mem_cons] at hc
  rcases hc with hc | rfl | rfl | rfl | hc | hc
  · exact hscheme c hc
  · decide
  · decide
  · decide
  · exact (h.host_chars c hc).2.2
  · exact (h.tail_chars c hc).2

theorem schemeOf_eq (h : Written scheme host tail) :
    schemeOf (written scheme host tail) = some (scheme, host ++ tail) := by
  have hscheme : ':' ∉ scheme ∧ scheme.map Char.toLower = scheme := by
    rcases h.scheme_http with rfl | rfl <;> decide +kernel
  have hdrop : (host ++ tail).dropWhile slash = host ++ tail := by
    obtain ⟨c, rest, rfl⟩ := List.exists_cons_of_ne_nil h.host_ne
    rw [List.cons_append, List.dropWhile_cons, (h.host_chars c List.mem_cons_self).1,
      if_neg Bool.false_ne_true]
  have hslash : slash '/' = true := by decide
  rw [written, schemeOf_colon hscheme.1, hscheme.2, if_pos h.scheme_http,
    List.dropWhile_cons_of_pos hslash, List.dropWhile_cons_of_pos hslash, hdrop]

theorem parts (h : Written scheme host tail) :
    authority (host ++ tail) = host ∧ afterAuthority (host ++ tail) = tail := by
  have hinside : ∀ c ∈ host, (!(slash c || ends c)) = true := by
    intro c hc
    rw [(h.host_chars c hc).1, (h.host_chars c hc).2.1]
    rfl
  unfold authority afterAuthority
  rw [List.takeWhile_append_of_pos hinside, List.dropWhile_append_of_pos hinside]
  cases tail with
  | nil => simp
  | cons c tail =>
    have hc : (!(slash c || ends c)) = false := by
      rw [h.tail_head c rfl]
      rfl
    rw [List.takeWhile_cons, List.dropWhile_cons, hc]
    simp

theorem parse_eq (h : Written scheme host tail) :
    parse hostOf (written scheme host tail) = (hostOf scheme host).map fun host' =>
      ⟨scheme, host', text (resolve [] (segments (rawPath (host ++ tail))))⟩ := by
  have hclean : clean (written scheme host tail) = written scheme host tail := by
    have hreverse : ∀ c ∈ (written scheme host tail).reverse, control c = false :=
      fun c hc => h.controls c (List.mem_reverse.mp hc)
    rw [clean, dropWhile_control h.controls, dropWhile_control hreverse, List.reverse_reverse,
      List.filter_eq_self.mpr fun c hc => newline_of_control (h.controls c hc)]
  unfold parse
  rw [hclean, h.schemeOf_eq]
  dsimp only
  rw [h.parts.1, if_neg h.host_ne]

/-- The path of what is below such a text. -/
theorem leads_iff (h : Written scheme host tail) :
    Leads hostOf (written scheme host tail) before key ↔
      (hostOf scheme host).isSome ∧ text ((segments tail).foldl step []) = before ∧ Plain key := by
  have hany : tail.any ends = false := by
    rw [List.any_eq_false]
    intro c hc
    rw [(h.tail_chars c hc).1]
    exact Bool.false_ne_true
  obtain ⟨hauthority, hafter⟩ := h.parts
  unfold Leads
  rw [cleanFront_eq_self h.controls, h.schemeOf_eq]
  constructor
  · rintro ⟨scheme', rest, hrest, -, hhost, hleads⟩
    cases hrest
    rw [hauthority] at hhost
    rw [hafter, hany, if_neg Bool.false_ne_true] at hleads
    exact ⟨hhost, hleads⟩
  · rintro ⟨hhost, hleads⟩
    refine ⟨scheme, host ++ tail, rfl, ?_, ?_, ?_⟩
    · rw [hauthority]
      exact h.host_ne
    · rwa [hauthority]
    · rwa [hafter, hany, if_neg Bool.false_ne_true]

end Written

end Urls
