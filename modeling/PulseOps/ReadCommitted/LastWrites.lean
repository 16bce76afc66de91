import Mathlib.Data.List.Induction
import PulseOps.ReadCommitted.Interleaved

/-!
# The turn that wrote last

What a store keeps under a key, when some turns of a run write values under the key and others
clear it, is what the last of the turns that wrote it has put there, unless a later turn has
cleared it.

## Main definitions

* `Writes` — which turns write a value under a key, and which clear it.
* `Writes.Last` — a turn of a schedule that no later turn has undone.
* `Writes.Describes` — the turns do to the store what `Writes` says.

## Main results

* `Writes.last_concat_iff` — one turn more.
* `Writes.Describes.kept` — what the store keeps after a schedule.
-/

set_option autoImplicit false

namespace ReadCommitted

variable {ρ σ φ κ ν τ : Type}

/-- Which turns write a value under a key, and which clear the key. -/
structure Writes (σ φ κ ν : Type) where
  put : Interleaved σ φ → ℕ → κ → ν → Prop
  clear : Interleaved σ φ → ℕ → κ → Prop

namespace Writes

variable (W : Writes σ φ κ ν) (advance : ρ → σ → φ → σ × φ) (requests : List ρ)
  (c₀ : Interleaved σ φ)

/-- The turn writes some value under the key, or clears it. -/
def Touches (c : Interleaved σ φ) (i : ℕ) (k : κ) : Prop := (∃ v, W.put c i k v) ∨ W.clear c i k

/-- A turn of `j` in the schedule writes `v` under the key, and no later turn touches the key. -/
def Last (schedule : List ℕ) (j : ℕ) (k : κ) (v : ν) : Prop :=
  ∃ before later, schedule = before ++ j :: later ∧
    W.put (Interleaved.run advance requests c₀ before) j k v ∧
    ∀ between i rest, later = between ++ i :: rest →
      ¬ W.Touches (Interleaved.run advance requests c₀ (before ++ j :: between)) i k

/-- What is kept under a key is what was put there, unless it has been cleared since. -/
structure Describes (kept : σ → κ → Option τ) (f : ν → τ) : Prop where
  put : ∀ {c i k v}, W.put c i k v →
    kept (Interleaved.step advance requests c i).store k = some (f v)
  clear : ∀ {c i k}, W.clear c i k →
    kept (Interleaved.step advance requests c i).store k = none
  frame : ∀ {c i k}, ¬ W.Touches c i k →
    kept (Interleaved.step advance requests c i).store k = kept c.store k

variable {W advance requests c₀} {schedule : List ℕ} {i j : ℕ} {k : κ} {v : ν}

theorem not_last_nil : ¬ W.Last advance requests c₀ [] j k v := by
  rintro ⟨before, later, h, -⟩
  simp at h

/-- One turn more: it writes the value itself, or leaves the key alone. -/
theorem last_concat_iff : W.Last advance requests c₀ (schedule ++ [i]) j k v ↔
    (j = i ∧ W.put (Interleaved.run advance requests c₀ schedule) i k v) ∨
    (¬ W.Touches (Interleaved.run advance requests c₀ schedule) i k ∧
      W.Last advance requests c₀ schedule j k v) := by
  constructor
  · rintro ⟨before, later, hsplit, hput, hquiet⟩
    rcases List.eq_nil_or_concat' later with rfl | ⟨later, i', rfl⟩
    · obtain ⟨rfl, hi⟩ := List.append_inj' hsplit rfl
      obtain rfl : i = j := by simpa using hi
      exact .inl ⟨rfl, hput⟩
    · rw [← List.cons_append, ← List.append_assoc] at hsplit
      obtain ⟨rfl, hi⟩ := List.append_inj' hsplit rfl
      obtain rfl : i = i' := by simpa using hi
      right
      refine ⟨hquiet later i [] rfl, before, later, rfl, hput, ?_⟩
      intro between i' rest hlater
      apply hquiet between i' (rest ++ [i])
      rw [hlater]
      simp
  · rintro (⟨rfl, hput⟩ | ⟨htouch, before, later, rfl, hput, hquiet⟩)
    · refine ⟨schedule, [], rfl, hput, ?_⟩
      intro between i' rest hlater
      simp at hlater
    · refine ⟨before, later ++ [i], by simp, hput, ?_⟩
      intro between i' rest hlater
      -- the turn that is looked at is the new one, or one of the old ones
      rcases List.eq_nil_or_concat' rest with rfl | ⟨rest, i'', rfl⟩
      · obtain ⟨rfl, hi⟩ := List.append_inj' hlater rfl
        obtain rfl : i = i' := by simpa using hi
        exact htouch
      · rw [← List.cons_append, ← List.append_assoc] at hlater
        exact hquiet between i' rest (List.append_inj' hlater rfl).1

/-- **The turn that wrote last.** The store keeps what it has put under the key; without such a
turn there is nothing. -/
theorem Describes.kept {kept : σ → κ → Option τ} {f : ν → τ}
    (h : W.Describes advance requests kept f) (hstart : kept c₀.store k = none)
    (schedule : List ℕ) :
    (∃ j v, W.Last advance requests c₀ schedule j k v ∧
      kept (Interleaved.run advance requests c₀ schedule).store k = some (f v)) ∨
    ((∀ j v, ¬ W.Last advance requests c₀ schedule j k v) ∧
      kept (Interleaved.run advance requests c₀ schedule).store k = none) := by
  induction schedule using List.reverseRecOn with
  | nil => exact .inr ⟨fun _ _ => not_last_nil, hstart⟩
  | append_singleton schedule i ih =>
    simp only [last_concat_iff, Interleaved.run_concat]
    by_cases htouch : W.Touches (Interleaved.run advance requests c₀ schedule) i k
    · rcases htouch with ⟨v, hput⟩ | hclear
      · exact .inl ⟨i, v, .inl ⟨rfl, hput⟩, h.put hput⟩
      · right
        refine ⟨?_, h.clear hclear⟩
        rintro j v (⟨rfl, hput⟩ | ⟨hnot, -⟩)
        · have hsome := h.put hput
          rw [h.clear hclear] at hsome
          cases hsome
        · exact hnot (.inr hclear)
    · rw [h.frame htouch]
      rcases ih with ⟨j, v, hlast, hkept⟩ | ⟨hnone, hkept⟩
      · exact .inl ⟨j, v, .inr ⟨htouch, hlast⟩, hkept⟩
      · right
        refine ⟨?_, hkept⟩
        rintro j v (⟨rfl, hput⟩ | ⟨-, hlast⟩)
        · exact htouch (.inl ⟨v, hput⟩)
        · exact hnone j v hlast

end Writes

end ReadCommitted
