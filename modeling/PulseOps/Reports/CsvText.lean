import Mathlib.Data.List.Forall2
import PulseOps.Csv.Rfc4180
import PulseOps.Model.Reports

/-!
# Reports that are read again

What `csvLine` writes is read by a parser of RFC 4180 as the rows that were written: every cell
as the text of its value, and none of them as a formula.

## Main definitions

* `startsFormula` — a text that Excel would run.
* `cellText` — the text of a value, as it is read.

## Main results

* `encodes_csvCell` — a cell is one of the ways to write its text.
* `csv_roundTrip` — the lines of any rows.
* `parse_csvFile` — a report behind its byte order mark.
-/

set_option autoImplicit false

namespace PulseOps.Reports

/-- A text that starts like a formula. -/
def startsFormula (text : String) : Bool := text.toList.head?.any formulaStart

/-- The text of a value: none if there is no value, and with a quote in front of a formula. -/
def cellText : Option String → String
  | none => ""
  | some value => if startsFormula value then "'" ++ value else value

/-- The cells of a row, as characters. -/
def rowTexts (row : List (Option String)) : List (List Char) :=
  row.map fun value => (cellText value).toList

theorem startsFormula_cellText (value : Option String) :
    startsFormula (cellText value) = false := by
  cases value with
  | none => rfl
  | some value =>
    unfold cellText
    dsimp only
    split_ifs with hformula
    · rw [startsFormula, String.toList_append]
      rfl
    · rwa [Bool.not_eq_true] at hformula

/-- A cell is one of the ways to write its text. -/
theorem encodes_csvCell (value : Option String) :
    Csv.Encodes (cellText value).toList (csvCell value).toList := by
  cases value with
  | none =>
    apply Csv.Encodes.plain
    intro c hc
    cases hc
  | some value =>
    have hcell : csvCell (some value) =
        if (cellText (some value)).toList.any (· ∈ ['"', ',', '\r', '\n']) then
          "\"" ++ String.ofList (Csv.doubled (cellText (some value)).toList) ++ "\""
        else cellText (some value) := rfl
    rw [hcell]
    split_ifs with hquotes
    · have hcode : ("\"" ++ String.ofList (Csv.doubled (cellText (some value)).toList) ++
          "\"").toList = Csv.quote (cellText (some value)).toList := by
        have hmark : "\"".toList = ['"'] := by decide
        simp only [String.toList_append, String.toList_ofList, hmark]
        exact List.append_assoc ['"'] _ _
      rw [hcode]
      exact .quoted
    · apply Csv.Encodes.plain
      intro c hc
      rw [Bool.not_eq_true, List.any_eq_false] at hquotes
      have hplain := hquotes c hc
      simpa [Csv.special] using hplain

theorem toList_csvLine (row : List (Option String)) :
    (csvLine row).toList = Csv.line (row.map fun value => (csvCell value).toList) := by
  unfold csvLine Csv.line
  rw [String.toList_append, String.toList_intercalate, List.map_map]
  rfl

/-- The lines are read as the texts of the values. -/
theorem parse_csvLines {rows : List (List (Option String))} (hcolumns : ∀ row ∈ rows, row ≠ []) :
    Csv.parse (String.join (rows.map csvLine)).toList = some (rows.map rowTexts) := by
  have hlines : (String.join (rows.map csvLine)).toList =
      (rows.map fun row => row.map fun value => (csvCell value).toList).flatMap Csv.line := by
    rw [String.toList_join, List.flatMap_map, List.flatMap_map]
    apply List.flatMap_congr
    intro row _
    exact toList_csvLine row
  rw [hlines]
  apply Csv.parse_lines
  · rw [List.forall₂_map_left_iff, List.forall₂_map_right_iff, List.forall₂_same]
    intro row _
    unfold rowTexts
    rw [List.forall₂_map_left_iff, List.forall₂_map_right_iff, List.forall₂_same]
    intro value _
    exact encodes_csvCell value
  · intro codes hcodes
    obtain ⟨row, hrow, rfl⟩ := List.mem_map.mp hcodes
    intro hnil
    exact hcolumns row hrow (List.map_eq_nil_iff.mp hnil)

/-- **Round trip.** The lines of any rows with at least two columns are read as these rows, and
no cell starts a formula. -/
theorem csv_roundTrip (rows : List (List (Option String)))
    (hcolumns : ∀ row ∈ rows, 2 ≤ row.length) :
    Csv.parse (String.join (rows.map csvLine)).toList = some (rows.map rowTexts) ∧
      ∀ row ∈ rows, ∀ value ∈ row, startsFormula (cellText value) = false := by
  constructor
  · apply parse_csvLines
    rintro row hrow rfl
    exact absurd (hcolumns [] hrow) (by simp)
  · intro _ _ value _
    exact startsFormula_cellText value

/-- A formula, a missing value, and a text with a quote, a comma and a line break. -/
theorem csv_roundTrip_sample :
    let rows := [[some "=1+1", none], [some "a\"b,\r\nc", some "2026-01-01"]]
    (∀ row ∈ rows, 2 ≤ row.length) ∧
      Csv.parse (String.join (rows.map csvLine)).toList = some (rows.map rowTexts) ∧
      ∀ row ∈ rows, ∀ value ∈ row, startsFormula (cellText value) = false := by
  intro rows
  have hcolumns : ∀ row ∈ rows, 2 ≤ row.length := by simp [rows]
  exact ⟨hcolumns, csv_roundTrip rows hcolumns⟩

/-- Behind the byte order mark a report is read as its header and its rows. -/
theorem parse_csvFile {header : List String} {rows : List (List (Option String))}
    (hheader : header ≠ []) (hcolumns : ∀ row ∈ rows, row ≠ []) :
    Csv.parse (csvFile header rows).toList.tail =
      some ((header.map some :: rows).map rowTexts) := by
  have hfile : (csvFile header rows).toList.tail =
      (String.join ((header.map some :: rows).map csvLine)).toList := by
    unfold csvFile
    rw [String.toList_append]
    rfl
  rw [hfile]
  apply parse_csvLines
  intro row hrow
  rcases List.mem_cons.mp hrow with rfl | hrow
  · simpa using hheader
  · exact hcolumns row hrow

example : csvLine [some "=1", none, some "a\"b"] = "'=1,,\"a\"\"b\"\r\n" := by decide +kernel

end PulseOps.Reports
