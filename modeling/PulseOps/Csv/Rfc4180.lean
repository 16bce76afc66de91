import Mathlib.Data.List.Basic
import Mathlib.Tactic.Common

/-!
# Records of comma-separated values

A parser for the format of RFC 4180, which reads one character after the other: records end with
CRLF, fields are separated by commas, and a field in double quotes may contain separators, line
breaks and doubled quotes. Quotes and line breaks anywhere else are errors. The last record may
be without CRLF.

Records that are written with their fields quoted where this is needed are read as they were.

## Main definitions

* `Csv.parse` — the parser.
* `Csv.Encodes` — a field is written as it is, or in quotes.
* `Csv.line` — a record of written fields.

## Main results

* `Csv.read_field`, `Csv.read_line` — a field and a record.
* `Csv.parse_lines` — records are read as they were written.
-/

set_option autoImplicit false

namespace Csv

/-- Where the parser is. -/
inductive Mode where
  | fieldStart
  | unquoted
  | quoted
  /-- after a quote in quotes, which ends the field or is doubled -/
  | quoteSeen
  /-- after CR, which LF follows -/
  | crSeen
  deriving DecidableEq, Repr

structure State where
  /-- the records that have ended -/
  rows : List (List (List Char)) := []
  /-- the fields of this record that have ended -/
  fields : List (List Char) := []
  field : List Char := []
  mode : Mode := .fieldStart

def State.endField (s : State) : State :=
  { rows := s.rows, fields := s.fields ++ [s.field] }

def State.endRow (s : State) : State := { rows := s.rows ++ [s.fields ++ [s.field]] }

def State.add (s : State) (c : Char) (mode : Mode) : State :=
  { s with field := s.field ++ [c], mode }

/-- A character outside of quotes, or after a quote in quotes. -/
def stepOutside (s : State) (c : Char) : Option State :=
  if c = ',' then some s.endField
  else if c = '\r' then some { s with mode := .crSeen }
  else if c = '\n' then none
  else if c = '"' then
    match s.mode with
    | .fieldStart => some { s with mode := .quoted }
    | .quoteSeen => some (s.add c .quoted)
    | _ => none
  else
    match s.mode with
    | .quoteSeen => none
    | _ => some (s.add c .unquoted)

def step (s : State) (c : Char) : Option State :=
  match s.mode with
  | .quoted => if c = '"' then some { s with mode := .quoteSeen } else some (s.add c .quoted)
  | .crSeen => if c = '\n' then some s.endRow else none
  | _ => stepOutside s c

/-- The records when the text is over. -/
def finish (s : State) : Option (List (List (List Char))) :=
  match s.mode with
  | .quoted => none
  | .crSeen => none
  | .fieldStart => if s.fields = [] then some s.rows else some s.endRow.rows
  | _ => some s.endRow.rows

def read (s : State) (text : List Char) : Option State := text.foldlM step s

def parse (text : List Char) : Option (List (List (List Char))) := (read {} text).bind finish

/-! ### Writing -/

/-- The characters that only stand in quotes. -/
def special (c : Char) : Bool := c = '"' ∨ c = ',' ∨ c = '\r' ∨ c = '\n'

/-- Quotes inside are doubled. -/
def doubled (text : List Char) : List Char :=
  text.flatMap fun c => if c = '"' then ['"', '"'] else [c]

def quote (text : List Char) : List Char := '"' :: (doubled text ++ ['"'])

/-- `code` is a way to write the field `text`. -/
inductive Encodes (text : List Char) : List Char → Prop
  | plain (h : ∀ c ∈ text, special c = false) : Encodes text text
  | quoted : Encodes text (quote text)

/-- A record of written fields. -/
def line (codes : List (List Char)) : List Char := List.intercalate [','] codes ++ ['\r', '\n']

/-! ### Reading what was written -/

variable {s : State} {text code : List Char}

theorem read_append (s : State) (text rest : List Char) :
    read s (text ++ rest) = (read s text).bind fun s' => read s' rest :=
  List.foldlM_append

theorem read_cons (s : State) (c : Char) (rest : List Char) :
    read s (c :: rest) = (step s c).bind fun s' => read s' rest :=
  List.foldlM_cons

/-- A field has been read to its end. -/
structure Read (s : State) (text : List Char) (s' : State) : Prop where
  rows : s'.rows = s.rows
  fields : s'.fields = s.fields
  field : s'.field = text
  mode : s'.mode = .fieldStart ∨ s'.mode = .unquoted ∨ s'.mode = .quoteSeen

theorem read_plain (hmode : s.mode = .fieldStart ∨ s.mode = .unquoted)
    (h : ∀ c ∈ text, special c = false) :
    ∃ s', read s text = some s' ∧ Read s (s.field ++ text) s' := by
  induction text generalizing s with
  | nil =>
    refine ⟨s, rfl, rfl, rfl, by simp, ?_⟩
    rcases hmode with hmode | hmode
    · exact Or.inl hmode
    · exact Or.inr (Or.inl hmode)
  | cons c text ih =>
    have hc := h c (by simp)
    simp only [special, decide_eq_false_iff_not, not_or] at hc
    obtain ⟨hquote, hcomma, hcr, hlf⟩ := hc
    have hstep : step s c = some (s.add c .unquoted) := by
      rcases hmode with hmode | hmode <;>
        simp [step, stepOutside, hmode, hquote, hcomma, hcr, hlf]
    obtain ⟨s', hread, hdone⟩ := ih (s := s.add c .unquoted) (Or.inr rfl)
      fun d hd => h d (by simp [hd])
    refine ⟨s', by rw [read_cons, hstep]; exact hread, hdone.rows, hdone.fields, ?_, hdone.mode⟩
    rw [hdone.field, State.add, List.append_assoc]
    rfl

/-- In quotes every character is taken, and a doubled quote is one. -/
theorem read_doubled (hmode : s.mode = .quoted) :
    read s (doubled text) = some { s with field := s.field ++ text } := by
  induction text generalizing s with
  | nil => simp [doubled, read]
  | cons c text ih =>
    have hnext := ih (s := s.add c .quoted) rfl
    by_cases hc : c = '"'
    · subst hc
      have hcode : doubled ('"' :: text) = '"' :: '"' :: doubled text := rfl
      have hfirst : step s '"' = some { s with mode := .quoteSeen } := by simp [step, hmode]
      have hsecond : step { s with mode := .quoteSeen } '"' = some (s.add '"' .quoted) := by
        simp [step, stepOutside, State.add]
      rw [hcode, read_cons, hfirst, Option.bind_some, read_cons, hsecond, Option.bind_some, hnext]
      simp [State.add, hmode]
    · have hcode : doubled (c :: text) = c :: doubled text := by simp [doubled, hc]
      have hstep : step s c = some (s.add c .quoted) := by simp [step, hmode, hc]
      rw [hcode, read_cons, hstep, Option.bind_some, hnext]
      simp [State.add, hmode]

/-- **A field.** -/
theorem read_field (hmode : s.mode = .fieldStart) (hfield : s.field = [])
    (h : Encodes text code) : ∃ s', read s code = some s' ∧ Read s text s' := by
  cases h with
  | plain hplain =>
    have hread := read_plain (Or.inl hmode) hplain
    rwa [hfield, List.nil_append] at hread
  | quoted =>
    have hopen : step s '"' = some { s with mode := .quoted } := by
      simp [step, stepOutside, hmode]
    have hinside : read { s with mode := .quoted } (doubled text) =
        some { s with mode := .quoted, field := s.field ++ text } := read_doubled rfl
    refine ⟨{ s with field := text, mode := .quoteSeen }, ?_, rfl, rfl, rfl, Or.inr (Or.inr rfl)⟩
    rw [quote, read_cons, hopen, Option.bind_some, read_append, hinside]
    simp [read, step, hfield]

/-- A comma ends the field. -/
theorem Read.comma {s' : State} (h : Read s text s') :
    step s' ',' = some { rows := s.rows, fields := s.fields ++ [text] } := by
  have hstep : step s' ',' = some s'.endField := by
    rcases h.mode with hmode | hmode | hmode <;> simp [step, stepOutside, hmode]
  rw [hstep, State.endField, h.rows, h.fields, h.field]

/-- CRLF ends the record. -/
theorem Read.crlf {s' : State} (h : Read s text s') :
    read s' ['\r', '\n'] = some { rows := s.rows ++ [s.fields ++ [text]] } := by
  have hstep : step s' '\r' = some { s' with mode := .crSeen } := by
    rcases h.mode with hmode | hmode | hmode <;> simp [step, stepOutside, hmode]
  rw [read_cons, hstep]
  simp [read, step, State.endRow, h.rows, h.fields, h.field]

/-- **A record.** -/
theorem read_line {row codes : List (List Char)} (h : List.Forall₂ Encodes row codes)
    (hne : codes ≠ []) (rows : List (List (List Char))) (fields : List (List Char)) :
    read { rows, fields } (line codes) = some { rows := rows ++ [fields ++ row] } := by
  induction h generalizing fields with
  | nil => exact absurd rfl hne
  | @cons text code row codes hfield hrest ih =>
    obtain ⟨s', hread, hdone⟩ := read_field (s := { rows, fields }) rfl rfl hfield
    cases hrest with
    | nil =>
      have hline : line [code] = code ++ ['\r', '\n'] := by simp [line]
      rw [hline, read_append, hread]
      exact hdone.crlf
    | @cons text' code' row codes hfield' hrest =>
      have hline : line (code :: code' :: codes) = code ++ ',' :: line (code' :: codes) := by
        simp [line, List.intercalate]
      rw [hline, read_append, hread, Option.bind_some, read_cons, hdone.comma, Option.bind_some,
        ih (by simp)]
      simp

/-- **Records are read as they were written**, if each of them has a field. -/
theorem parse_lines {rows codes : List (List (List Char))}
    (h : List.Forall₂ (List.Forall₂ Encodes) rows codes) (hne : ∀ code ∈ codes, code ≠ []) :
    parse (codes.flatMap line) = some rows := by
  have hread (before : List (List (List Char))) :
      read { rows := before } (codes.flatMap line) = some { rows := before ++ rows } := by
    induction h generalizing before with
    | nil => simp [read]
    | @cons row code rows codes hrow _ ih =>
      rw [List.flatMap_cons, read_append, read_line hrow (hne code (by simp)), Option.bind_some,
        List.nil_append, ih fun c hc => hne c (by simp [hc])]
      simp
  unfold parse
  rw [hread []]
  rfl

end Csv
