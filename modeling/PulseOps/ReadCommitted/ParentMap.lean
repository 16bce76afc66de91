import Mathlib.Data.Option.Basic
import Mathlib.Logic.Function.Basic
import Mathlib.Logic.Relation

/-!
# Rows that point to a parent

The rows of a table may name a parent among the rows of the same table. They form a forest
when the way up from any row ends at a row without a parent. A pointer can be dropped, with
its row or alone, without harm; it can be set exactly when the way up from the new parent
does not pass through the row.

## Main definitions

* `ParentMap` — which rows there are, and the parents that they name.
* `ParentMap.Rooted` — the way up from a row ends.
* `ParentMap.Leads` — the way up from one row passes through another.
* `ParentMap.Forest` — every row is rooted.

## Main results

* `ParentMap.Forest.cut` — dropping pointers keeps a forest.
* `ParentMap.forest_update_iff` — when a new pointer keeps a forest.
-/

set_option autoImplicit false

namespace ReadCommitted

/-- `m a` is `none` if there is no row `a`, `some none` if it has no parent. -/
abbrev ParentMap (α : Type) := α → Option (Option α)

namespace ParentMap

variable {α : Type} {m m' : ParentMap α} {a b c p : α}

/-- The way up from `a` ends at a row without a parent. -/
inductive Rooted (m : ParentMap α) : α → Prop
  | root {a : α} (h : m a = some none) : Rooted m a
  | child {a p : α} (h : m a = some (some p)) (hp : Rooted m p) : Rooted m a

/-- The way up from `a` passes through `b`, or starts there. -/
def Leads (m : ParentMap α) : α → α → Prop :=
  Relation.ReflTransGen fun a p => m a = some (some p)

/-- From every row the way up ends. -/
def Forest (m : ParentMap α) : Prop := ∀ a, (m a).isSome → m.Rooted a

theorem Rooted.isSome (h : m.Rooted a) : (m a).isSome := by
  cases h with
  | root h => simp [h]
  | child h => simp [h]

theorem Rooted.parent (h : m.Rooted a) (hp : m a = some (some p)) : m.Rooted p := by
  cases h with
  | root h => simp [h] at hp
  | child h hrest =>
    simp only [h, Option.some.injEq] at hp
    exact hp ▸ hrest

/-- Only the rows on the way up matter. -/
theorem Rooted.congr (h : m.Rooted a) (hsame : ∀ b, m.Leads a b → m' b = m b) :
    m'.Rooted a := by
  induction h with
  | root h => exact .root ((hsame _ .refl).trans h)
  | child h _ ih =>
    apply Rooted.child ((hsame _ .refl).trans h)
    exact ih fun b hb => hsame b (.head h hb)

theorem Rooted.of_leads (h : m.Rooted a) (hb : m.Leads a b) : m.Rooted b := by
  induction hb with
  | refl => exact h
  | tail _ hstep ih => exact ih.parent hstep

/-- A row below itself has no root. -/
theorem not_rooted_of_cycle (ha : m a = some (some p)) (hp : m.Leads p a) : ¬ m.Rooted a := by
  intro h
  -- On the way up the row comes again, so the induction is on the way.
  suffices ∀ b, m.Rooted b → m.Leads b a → False from this a h .refl
  intro b hb
  induction hb with
  | root hroot =>
    intro hlead
    rcases hlead.cases_head with rfl | ⟨c, hc, -⟩
    · simp [hroot] at ha
    · simp [hroot] at hc
  | child hchild _ ih =>
    intro hlead
    apply ih
    rcases hlead.cases_head with rfl | ⟨c, hc, hrest⟩
    · rw [hchild] at ha
      cases ha
      exact hp
    · rw [hchild] at hc
      cases hc
      exact hrest

/-- Pointers are dropped, and rows nobody points to any more. -/
theorem Forest.cut (h : m.Forest)
    (hkept : ∀ b p, m' b = some (some p) → m b = some (some p) ∧ (m' p).isSome) :
    m'.Forest := by
  -- a way to a root is cut short, or stays as it was
  have hrooted : ∀ b, m.Rooted b → (m' b).isSome → m'.Rooted b := by
    intro b hb
    induction hb with
    | @root b hroot =>
      intro hsome
      obtain ⟨parent, hparent⟩ := Option.isSome_iff_exists.mp hsome
      cases parent with
      | none => exact .root hparent
      | some q =>
        have hold := (hkept b q hparent).1
        simp [hroot] at hold
    | @child b p hchild _ ih =>
      intro hsome
      obtain ⟨parent, hparent⟩ := Option.isSome_iff_exists.mp hsome
      cases parent with
      | none => exact .root hparent
      | some q =>
        obtain ⟨hold, hq⟩ := hkept b q hparent
        rw [hchild] at hold
        cases hold
        exact .child hparent (ih hq)
  intro b hsome
  obtain ⟨parent, hparent⟩ := Option.isSome_iff_exists.mp hsome
  cases parent with
  | none => exact .root hparent
  | some p =>
    obtain ⟨hold, -⟩ := hkept b p hparent
    exact hrooted b (h b (by simp [hold])) hsome

section Update

variable [DecidableEq α]

/-- A row that the way up from `p` does not meet can be put below `p`. -/
theorem Forest.update (h : m.Forest) (hp : (m p).isSome) (hfree : ¬ m.Leads p a) :
    ParentMap.Forest (Function.update m a (some (some p))) := by
  have hroot : ParentMap.Rooted (Function.update m a (some (some p))) a := by
    apply Rooted.child (Function.update_self ..)
    apply (h p hp).congr
    intro b hb
    apply Function.update_of_ne
    rintro rfl
    exact hfree hb
  intro b hb
  by_cases hba : b = a
  · exact hba ▸ hroot
  · rw [Function.update_of_ne hba] at hb
    have hold := h b hb
    clear hb hba
    induction hold with
    | @root b hold =>
      by_cases hba : b = a
      · exact hba ▸ hroot
      · exact .root ((Function.update_of_ne hba ..).trans hold)
    | @child b q hold _ ih =>
      by_cases hba : b = a
      · exact hba ▸ hroot
      · exact .child ((Function.update_of_ne hba ..).trans hold) ih

/-- The pointer of a row is dropped, or the row is new and has none. -/
theorem Forest.update_root (h : m.Forest) :
    ParentMap.Forest (Function.update m a (some none)) := by
  apply h.cut
  intro b p hb
  by_cases hba : b = a
  · subst hba
    simp at hb
  · rw [Function.update_of_ne hba] at hb
    refine ⟨hb, ?_⟩
    by_cases hpa : p = a
    · simp [hpa]
    · rw [Function.update_of_ne hpa]
      exact ((h b (by simp [hb])).parent hb).isSome

/-- Up to `a`, the way from `b` is the same after the pointer of `a` is set. -/
theorem Leads.update {x : Option (Option α)} (h : m.Leads b a) :
    ParentMap.Leads (Function.update m a x) b a := by
  induction h using Relation.ReflTransGen.head_induction_on with
  | refl => exact .refl
  | @head b c hstep _ ih =>
    by_cases hba : b = a
    · exact hba ▸ .refl
    · exact .head ((Function.update_of_ne hba ..).trans hstep) ih

/-- **When a new pointer keeps a forest.** -/
theorem forest_update_iff (h : m.Forest) (hp : (m p).isSome) :
    ParentMap.Forest (Function.update m a (some (some p))) ↔ ¬ m.Leads p a := by
  constructor
  · intro hforest hlead
    have ha : Function.update m a (some (some p)) a = some (some p) := Function.update_self ..
    exact not_rooted_of_cycle ha hlead.update (hforest a (by simp))
  · exact h.update hp

end Update

end ParentMap

end ReadCommitted
