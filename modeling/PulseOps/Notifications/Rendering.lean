import PulseOps.Model.NotificationTemplates
import PulseOps.Texts.Characters

/-!
# Rendering of templates

A template is read once, from the left, and what takes the place of a placeholder is not read
again. A name stands for the entry of the variables with that name; but without one, it stands for
what every object inherits under that name, which then takes the place of the placeholder and is
not reported.

## Main definitions

* `Begins` — a text that begins with a placeholder.
* `Reads` — a text in pieces.
* `SinglePass` — the substitution of own entries.

## Main results

* `placeholderAt_iff` — the placeholders that are found.
* `reads_pieces`, `reads_unique` — the pieces that are.
* `render_singlePass_iff` — when own entries are substituted.
-/

set_option autoImplicit false

namespace PulseOps.Templates

open ScriptText (blank)

variable {ν : Type} {numberText : ν → Text} {vars : List (String × Json ν)}
  {text name rest : Text} {ps ps' : List Piece} {c : Char}

/-! ### Placeholders -/

/-- A letter or an underscore, and then also digits. -/
def IsName (name : Text) : Prop :=
  (∃ c, name.head? = some c ∧ nameStart c = true) ∧ ∀ c ∈ name, namePart c = true

/-- A text that begins with a placeholder, which may have blanks around its name. -/
def Begins (text name rest : Text) : Prop :=
  ∃ before after, text = '{' :: '{' :: (before ++ (name ++ (after ++ '}' :: '}' :: rest))) ∧
    (∀ c ∈ before, blank c = true) ∧ IsName name ∧ ∀ c ∈ after, blank c = true

theorem not_blank_of_namePart (h : namePart c = true) : blank c = false := by
  have hascii : c.toNat < 128 := by
    have hcases := h
    simp only [namePart, Bool.or_eq_true, decide_eq_true_eq] at hcases
    rcases hcases with hc | rfl
    · exact Characters.toNat_lt_of_isAlphanum hc
    · decide
  have hpart : namePart c = true → blank c = false := by
    apply Characters.of_lt _ hascii
    decide +kernel
  exact hpart h

/-- The characters before the first one of another kind. -/
theorem span_append {p : Char → Bool} {before : Text} (h : ∀ c ∈ before, p c = true)
    (hrest : ∀ c, rest.head? = some c → p c = false) :
    (before ++ rest).takeWhile p = before ∧ (before ++ rest).dropWhile p = rest := by
  rw [List.takeWhile_append_of_pos h, List.dropWhile_append_of_pos h]
  cases rest with
  | nil => simp
  | cons c rest =>
    rw [List.takeWhile_cons, List.dropWhile_cons, hrest c rfl]
    simp

theorem mem_takeWhile {p : Char → Bool} (h : c ∈ text.takeWhile p) : p c = true :=
  List.all_eq_true.mp List.all_takeWhile c h

theorem placeholderAt_iff : placeholderAt text = some (name, rest) ↔ Begins text name rest := by
  constructor
  · intro h
    unfold placeholderAt at h
    split at h
    case h_2 => cases h
    case h_1 inner =>
      dsimp only at h
      split at h
      case h_2 => cases h
      case h_1 rest' hrest =>
        split_ifs at h with hname
        cases h
        set inside := inner.dropWhile blank with hinside
        refine ⟨inner.takeWhile blank, (inside.dropWhile namePart).takeWhile blank, ?_,
          fun c hc => mem_takeWhile hc, ⟨?_, fun c hc => mem_takeWhile hc⟩,
          fun c hc => mem_takeWhile hc⟩
        · rw [← hrest, List.takeWhile_append_dropWhile, List.takeWhile_append_dropWhile, hinside,
            List.takeWhile_append_dropWhile]
        · cases hhead : (inside.takeWhile namePart).head? with
          | none =>
            rw [hhead] at hname
            cases hname
          | some c =>
            rw [hhead] at hname
            exact ⟨c, rfl, hname⟩
  · rintro ⟨before, after, rfl, hbefore, ⟨⟨c, hhead, hstart⟩, hparts⟩, hafter⟩
    obtain ⟨tail, rfl⟩ : ∃ tail, name = c :: tail := List.head?_eq_some_iff.mp hhead
    have hname : ((before ++ (c :: tail ++ (after ++ '}' :: '}' :: rest))).dropWhile blank) =
        c :: tail ++ (after ++ '}' :: '}' :: rest) := by
      apply (span_append hbefore _).2
      intro d hd
      cases hd
      exact not_blank_of_namePart (hparts c List.mem_cons_self)
    -- the name ends at a blank or at the braces, neither of which can be part of it
    have hclose : ∀ d, (after ++ '}' :: '}' :: rest).head? = some d → namePart d = false := by
      intro d hd
      by_contra hpart
      rw [Bool.not_eq_false] at hpart
      cases after with
      | nil =>
        cases hd
        revert hpart
        decide
      | cons e after =>
        cases hd
        have hblank := hafter d List.mem_cons_self
        rw [not_blank_of_namePart hpart] at hblank
        cases hblank
    have hbraces : ∀ d, ('}' :: '}' :: rest).head? = some d → blank d = false := by
      intro d hd
      cases hd
      decide
    have hspan := span_append hparts hclose
    have hafter' := (span_append hafter hbraces).2
    simp only [placeholderAt, hname, hspan.1, hspan.2, hafter', List.head?_cons, Option.any_some,
      hstart, if_true]

/-- Less is left. -/
theorem Begins.length_lt (h : Begins text name rest) : rest.length < text.length := by
  obtain ⟨before, after, rfl, -⟩ := h
  simp only [List.length_cons, List.length_append]
  omega

/-! ### Pieces -/

/-- A text is read from the left: a placeholder where one begins, else a character. -/
inductive Reads : Text → List Piece → Prop
  | nil : Reads [] []
  | placeholder {text name rest : Text} {ps : List Piece} : Begins text name rest →
    Reads rest ps → Reads text (.placeholder name :: ps)
  | char {c : Char} {text : Text} {ps : List Piece} :
    (∀ name rest, ¬ Begins (c :: text) name rest) → Reads text ps →
    Reads (c :: text) (.char c :: ps)

theorem reads_pieces {n : ℕ} (h : text.length ≤ n) : Reads text (pieces n text) := by
  induction n generalizing text with
  | zero =>
    rw [List.eq_nil_of_length_eq_zero (Nat.le_zero.mp h)]
    exact .nil
  | succ n ih =>
    cases text with
    | nil => exact .nil
    | cons c text =>
      unfold pieces
      cases hfound : placeholderAt (c :: text) with
      | none =>
        apply Reads.char
        · intro name rest hbegins
          rw [placeholderAt_iff.mpr hbegins] at hfound
          cases hfound
        · exact ih (Nat.le_of_succ_le_succ h)
      | some found =>
        obtain ⟨name, rest⟩ := found
        have hbegins := placeholderAt_iff.mp hfound
        exact .placeholder hbegins (ih (Nat.le_of_lt_succ (hbegins.length_lt.trans_le h)))

/-- There is one way to read a text. -/
theorem reads_unique (h : Reads text ps) (h' : Reads text ps') : ps = ps' := by
  induction h generalizing ps' with
  | nil =>
    cases h' with
    | nil => rfl
    | placeholder hbegins _ => exact absurd hbegins.length_lt (by simp)
  | placeholder hbegins _ ih =>
    cases h' with
    | nil => exact absurd hbegins.length_lt (by simp)
    | placeholder hbegins' hrest =>
      have hsame := (placeholderAt_iff.mpr hbegins).symm.trans (placeholderAt_iff.mpr hbegins')
      cases hsame
      rw [ih hrest]
    | char hnone _ => exact absurd hbegins (hnone _ _)
  | char hnone _ ih =>
    cases h' with
    | placeholder hbegins _ => exact absurd hbegins (hnone _ _)
    | char _ hrest => rw [ih hrest]

/-! ### Substitution -/

/-- The own entry of a name, unless it is null. -/
def ownEntry (vars : List (String × Json ν)) (name : Text) : Option (Json ν) :=
  match vars.lookup (String.ofList name) with
  | some .null => none
  | entry => entry

/-- What a piece becomes when own entries are substituted. -/
def Piece.substituted (numberText : ν → Text) (vars : List (String × Json ν)) : Piece → Option Text
  | .char c => some [c]
  | .placeholder name =>
    match ownEntry vars name with
    | some value => stringOf numberText value
    | none => some []

/-- Each piece of the text has been substituted by itself, and the names without an own entry are
missing. -/
def SinglePass (numberText : ν → Text) (vars : List (String × Json ν)) (text : Text) : Prop :=
  ∃ ps, Reads text ps ∧
    (render numberText vars text).map (·.output) =
      (ps.mapM (Piece.substituted numberText vars)).map List.flatten ∧
    ∀ rendered, render numberText vars text = some rendered →
      ∀ name, name ∈ rendered.missing ↔ .placeholder name ∈ ps ∧ ownEntry vars name = none

/-- A name that stands for what every object inherits. -/
def StandsForInherited (vars : List (String × Json ν)) (name : Text) : Prop :=
  (inherited name).isSome ∧ vars.lookup (String.ofList name) = none

theorem inherited_eq_none (h : ¬ StandsForInherited vars name)
    (hlookup : vars.lookup (String.ofList name) = none) : inherited name = none := by
  by_contra hsome
  exact h ⟨Option.isSome_iff_ne_none.mpr hsome, hlookup⟩

/-- For other names, own entries are substituted. -/
theorem replacement_eq (h : ¬ StandsForInherited vars name) :
    replacement numberText vars name = Piece.substituted numberText vars (.placeholder name) := by
  unfold replacement Piece.substituted ownEntry
  cases hlookup : vars.lookup (String.ofList name) with
  | none => simp [hlookup, inherited_eq_none h hlookup]
  | some value => cases value <;> simp [hlookup]

/-- And they are reported when there are none. -/
theorem isMissing_iff (h : ¬ StandsForInherited vars name) :
    isMissing vars name = true ↔ ownEntry vars name = none := by
  unfold isMissing ownEntry
  cases hlookup : vars.lookup (String.ofList name) with
  | none => simp [inherited_eq_none h hlookup]
  | some value => cases value <;> simp

/-- An own entry takes the place of its name, whatever the name. -/
theorem replacement_of_own {value : Json ν} (h : ownEntry vars name = some value) :
    replacement numberText vars name = stringOf numberText value ∧
      Piece.substituted numberText vars (.placeholder name) = stringOf numberText value := by
  refine ⟨?_, by rw [Piece.substituted, h]⟩
  unfold ownEntry at h
  unfold replacement
  split at h
  case h_1 => cases h
  case h_2 hnull =>
    rw [h] at hnull ⊢
    cases value with
    | null => exact absurd rfl hnull
    | _ => rfl

theorem replacement_ne_none (h : ownEntry vars name = none) :
    replacement numberText vars name ≠ none := by
  unfold ownEntry at h
  unfold replacement
  cases hlookup : vars.lookup (String.ofList name) with
  | none => simp
  | some value => cases value <;> simp_all

theorem not_standsForInherited (h : (inherited name).isSome = true →
    (vars.lookup (String.ofList name)).isSome = true) : ¬ StandsForInherited vars name := by
  rintro ⟨hinherited, hlookup⟩
  have hsome := h hinherited
  rw [hlookup] at hsome
  cases hsome

theorem mapM_eq_none_iff {α β : Type} {f : α → Option β} {l : List α} :
    l.mapM f = none ↔ ∃ a ∈ l, f a = none := by
  induction l with
  | nil => simp
  | cons a l ih =>
    rw [List.mapM_cons]
    cases ha : f a with
    | none => simp [ha]
    | some b =>
      cases hl : l.mapM f with
      | none =>
        obtain ⟨a', ha', hnone⟩ := ih.mp hl
        simpa [hl] using .inr ⟨a', ha', hnone⟩
      | some bs =>
        have hall : ¬ ∃ a' ∈ l, f a' = none := fun h => by
          rw [ih.mpr h] at hl
          cases hl
        simpa [hl, ha] using hall

theorem mapM_congr {α β : Type} {f g : α → Option β} {l : List α} (h : ∀ a ∈ l, f a = g a) :
    l.mapM f = l.mapM g := by
  induction l with
  | nil => rfl
  | cons a l ih =>
    rw [List.mapM_cons, List.mapM_cons, h a List.mem_cons_self,
      ih fun b hb => h b (List.mem_cons_of_mem _ hb)]

theorem mem_placeholders :
    name ∈ placeholders text ↔ .placeholder name ∈ pieces text.length text := by
  rw [placeholders, List.mem_eraseDups, names, List.mem_filterMap]
  constructor
  · rintro ⟨piece, hpiece, hname⟩
    cases piece with
    | char c => cases hname
    | placeholder name' =>
      cases hname
      exact hpiece
  · exact fun h => ⟨_, h, rfl⟩

/-- What `render` returns. -/
theorem render_eq (numberText : ν → Text) (vars : List (String × Json ν)) (text : Text) :
    render numberText vars text =
      ((pieces text.length text).mapM (Piece.rendered numberText vars)).map fun parts =>
        ⟨parts.flatten, ((names text).filter (isMissing vars)).eraseDups⟩ := by
  unfold render
  cases (pieces text.length text).mapM (Piece.rendered numberText vars) <;> rfl

theorem mem_missing {rendered : Rendered} (h : render numberText vars text = some rendered) :
    name ∈ rendered.missing ↔
      .placeholder name ∈ pieces text.length text ∧ isMissing vars name = true := by
  rw [render_eq] at h
  obtain ⟨parts, -, rfl⟩ := Option.map_eq_some_iff.mp h
  rw [List.mem_eraseDups, List.mem_filter, ← mem_placeholders, placeholders, List.mem_eraseDups]

/-- A template is rendered by a single pass over its own entries if and only if no placeholder
stands for an inherited property, or the text of an own entry is an error. -/
theorem render_singlePass_iff (numberText : ν → Text) (vars : List (String × Json ν))
    (text : Text) :
    SinglePass numberText vars text ↔
      (∀ name ∈ placeholders text, (inherited name).isSome = true →
        (vars.lookup (String.ofList name)).isSome = true) ∨
      ∃ name ∈ placeholders text, ∃ value, ownEntry vars name = some value ∧
        stringOf numberText value = none := by
  have hreads : Reads text (pieces text.length text) := reads_pieces le_rfl
  constructor
  · rintro ⟨ps, hps, -, hmissing⟩
    have hsame := reads_unique hps hreads
    subst hsame
    by_contra hneither
    rw [not_or] at hneither
    obtain ⟨hinherited, htexts⟩ := hneither
    push Not at hinherited htexts
    obtain ⟨name, hname, hsome, hlookup⟩ := hinherited
    have hrendered : ∃ parts, (pieces text.length text).mapM (Piece.rendered numberText vars) =
        some parts := by
      apply Option.ne_none_iff_exists'.mp
      rw [Ne, mapM_eq_none_iff]
      rintro ⟨piece, hpiece, hnone⟩
      cases piece with
      | char c => cases hnone
      | placeholder name' =>
        have hname' := mem_placeholders.mpr hpiece
        cases hown : ownEntry vars name' with
        | some value =>
          exact htexts name' hname' value hown ((replacement_of_own hown).1.symm.trans hnone)
        | none => exact replacement_ne_none hown hnone
    obtain ⟨parts, hparts⟩ := hrendered
    have hrender := render_eq numberText vars text
    rw [hparts, Option.map_some] at hrender
    have hown : ownEntry vars name = none := by
      rw [ownEntry, Option.not_isSome_iff_eq_none.mp hlookup]
    have hlisted := (hmissing _ hrender name).mpr ⟨mem_placeholders.mp hname, hown⟩
    -- an inherited property is not nullish
    rw [mem_missing hrender, isMissing, Option.not_isSome_iff_eq_none.mp hlookup] at hlisted
    rw [Option.isNone_iff_eq_none.mp hlisted.2] at hsome
    cases hsome
  · rintro (hinherited | ⟨name, hname, value, hown, htext⟩)
    · have hname : ∀ name, .placeholder name ∈ pieces text.length text →
          ¬ StandsForInherited vars name :=
        fun name hpiece => not_standsForInherited (hinherited name (mem_placeholders.mpr hpiece))
      refine ⟨_, hreads, ?_, ?_⟩
      · have hsame : (pieces text.length text).mapM (Piece.rendered numberText vars) =
            (pieces text.length text).mapM (Piece.substituted numberText vars) := by
          apply mapM_congr
          intro piece hpiece
          cases piece with
          | char c => rfl
          | placeholder name => exact replacement_eq (hname name hpiece)
        rw [render_eq, Option.map_map, hsame]
        rfl
      · intro rendered hrender name
        rw [mem_missing hrender]
        constructor
        · rintro ⟨hpiece, hlisted⟩
          exact ⟨hpiece, (isMissing_iff (hname name hpiece)).mp hlisted⟩
        · rintro ⟨hpiece, hown⟩
          exact ⟨hpiece, (isMissing_iff (hname name hpiece)).mpr hown⟩
    · -- both throw
      have hthrown : ∀ f : Piece → Option Text, f (.placeholder name) = none →
          (pieces text.length text).mapM f = none :=
        fun f hf => mapM_eq_none_iff.mpr ⟨_, mem_placeholders.mp hname, hf⟩
      have hrender : render numberText vars text = none := by
        rw [render_eq, hthrown _ ((replacement_of_own hown).1.trans htext)]
        rfl
      refine ⟨_, hreads, ?_, ?_⟩
      · rw [hrender, hthrown _ ((replacement_of_own hown).2.trans htext)]
        rfl
      · intro rendered hrendered
        rw [hrender] at hrendered
        cases hrendered

/-- The name of an inherited property is not reported, and a function takes its place. -/
theorem constructor_not_missing :
    ¬ ∀ (numberText : ℕ → Text) (vars : List (String × Json ℕ)) (text : Text),
      SinglePass numberText vars text := by
  intro h
  obtain ⟨ps, hps, houtput, -⟩ := h (fun _ => []) [] ("\x7b\x7bconstructor\x7d\x7d".toList)
  have hreads := reads_unique hps (reads_pieces le_rfl)
  subst hreads
  revert houtput
  decide +kernel

end PulseOps.Templates
