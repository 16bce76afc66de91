import Mathlib.Data.List.Basic

/-!
# Requests in atomic steps

Requests that share a store and take turns. What a request does in one turn is atomic: one
statement that commits by itself, or one command of a cache. Between two turns of a request
the others may take any number of theirs.

## Main definitions

* `Interleaved` — the store, and how far each request has come.
* `Interleaved.step`, `Interleaved.run` — one turn, and the turns of a schedule.
* `Interleaved.Reaches` — the states that turns lead to which meet a condition.
* `Interleaved.passes` — whether the turns of a schedule pass a test.

## Main results

* `Interleaved.Reaches.induction` — what every such turn keeps holds in every state.
* `Interleaved.Reaches.run` — schedules that pass a test for the condition.
* `Interleaved.getElem?_after` — where the requests are after a turn.
-/

set_option autoImplicit false

namespace ReadCommitted

/-- A shared store, and how far each request has come. -/
structure Interleaved (σ φ : Type) where
  store : σ
  phases : List φ

namespace Interleaved

variable {ρ σ φ : Type} (advance : ρ → σ → φ → σ × φ) (requests : List ρ)

/-- One turn of the request `i`; nothing happens if there is no such request. -/
def step (c : Interleaved σ φ) (i : ℕ) : Interleaved σ φ :=
  match requests[i]?, c.phases[i]? with
  | some req, some phase =>
    let (store, phase') := advance req c.store phase
    ⟨store, c.phases.set i phase'⟩
  | _, _ => c

/-- The requests take their turns in the order of the schedule. -/
def run (c : Interleaved σ φ) (schedule : List ℕ) : Interleaved σ φ :=
  schedule.foldl (step advance requests) c

/-- Turns lead from `c₀` to the state that all satisfy `allowed`, a condition on the state, on
the request that takes the turn and on how far it has come. -/
inductive Reaches (allowed : Interleaved σ φ → ρ → φ → Prop) (c₀ : Interleaved σ φ) :
    Interleaved σ φ → Prop
  | refl : Reaches allowed c₀ c₀
  | step {c : Interleaved σ φ} (h : Reaches allowed c₀ c) (i : ℕ)
      (hi : ∀ req phase, requests[i]? = some req → c.phases[i]? = some phase →
        allowed c req phase) :
      Reaches allowed c₀ (step advance requests c i)

/-- Whether every turn of the schedule passes the test. -/
def passes (test : Interleaved σ φ → ρ → φ → Bool) (c : Interleaved σ φ) : List ℕ → Bool
  | [] => true
  | i :: schedule =>
    (match requests[i]?, c.phases[i]? with
      | some req, some phase => test c req phase
      | _, _ => true) && passes test (step advance requests c i) schedule

/-- The state after the turn of a request at a phase. -/
def after (c : Interleaved σ φ) (i : ℕ) (req : ρ) (phase : φ) : Interleaved σ φ :=
  ⟨(advance req c.store phase).1, c.phases.set i (advance req c.store phase).2⟩

variable {advance requests} {allowed allowed' : Interleaved σ φ → ρ → φ → Prop}
  {c₀ c c' : Interleaved σ φ}

/-- **Invariants.** What every turn that is allowed keeps holds in every state. -/
theorem Reaches.induction {P : Interleaved σ φ → Prop}
    (h : Reaches advance requests allowed c₀ c) (hstart : P c₀)
    (hkeeps : ∀ c i req phase, requests[i]? = some req → c.phases[i]? = some phase →
      allowed c req phase → P c → P (after advance c i req phase)) : P c := by
  induction h with
  | refl => exact hstart
  | @step c _ i hi ih =>
    unfold Interleaved.step
    split
    next req phase hreq hphase =>
      exact hkeeps c i req phase hreq hphase (hi req phase hreq hphase) ih
    next => exact ih

/-- Invariants of the store alone. -/
theorem Reaches.store_induction {P : σ → Prop} (h : Reaches advance requests allowed c₀ c)
    (hstart : P c₀.store)
    (hkeeps : ∀ c req phase, allowed c req phase → P c.store →
      P (advance req c.store phase).1) : P c.store :=
  h.induction (P := fun c => P c.store) hstart
    fun c _ req phase _ _ hallowed hP => hkeeps c req phase hallowed hP

/-- A schedule whose turns pass a test that is enough for the condition. -/
theorem Reaches.run {test : Interleaved σ φ → ρ → φ → Bool}
    (htest : ∀ c req phase, test c req phase = true → allowed c req phase)
    (h : Reaches advance requests allowed c₀ c) (schedule : List ℕ)
    (hpasses : passes advance requests test c schedule = true) :
    Reaches advance requests allowed c₀ (run advance requests c schedule) := by
  induction schedule generalizing c with
  | nil => exact h
  | cons i schedule ih =>
    obtain ⟨hturn, hrest⟩ := Bool.and_eq_true_iff.mp hpasses
    apply ih (h.step i fun req phase hreq hphase => ?_) hrest
    rw [hreq, hphase] at hturn
    exact htest c req phase hturn

/-- Schedules whose turns meet no condition. -/
theorem Reaches.run_all (h : Reaches advance requests (fun _ _ _ => True) c₀ c)
    (schedule : List ℕ) :
    Reaches advance requests (fun _ _ _ => True) c₀
      (Interleaved.run advance requests c schedule) := by
  induction schedule generalizing c with
  | nil => exact h
  | cons i schedule ih => exact ih (h.step i fun _ _ _ _ => trivial)

theorem run_concat (c : Interleaved σ φ) (schedule : List ℕ) (i : ℕ) :
    Interleaved.run advance requests c (schedule ++ [i]) =
      step advance requests (Interleaved.run advance requests c schedule) i := by
  simp [Interleaved.run]

theorem run_append (c : Interleaved σ φ) (schedule schedule' : List ℕ) :
    Interleaved.run advance requests c (schedule ++ schedule') =
      Interleaved.run advance requests (Interleaved.run advance requests c schedule) schedule' := by
  simp [Interleaved.run]

/-! ### Schedules turn by turn -/

section Schedules

variable {schedule : List ℕ} {i k : ℕ}

/-- The state before the turn `k` of a schedule. -/
def stateBefore (advance : ρ → σ → φ → σ × φ) (requests : List ρ) (c₀ : Interleaved σ φ)
    (schedule : List ℕ) (k : ℕ) : Interleaved σ φ :=
  run advance requests c₀ (schedule.take k)

theorem stateBefore_succ (hi : schedule[k]? = some i) :
    stateBefore advance requests c₀ schedule (k + 1) =
      step advance requests (stateBefore advance requests c₀ schedule k) i := by
  obtain ⟨hlt, rfl⟩ := List.getElem?_eq_some_iff.mp hi
  rw [stateBefore, List.take_succ_eq_append_getElem hlt, run_concat]
  rfl

theorem stateBefore_length :
    stateBefore advance requests c₀ schedule schedule.length =
      run advance requests c₀ schedule := by
  rw [stateBefore, List.take_length]

/-- A property of the states from the turn `l` on: it holds there, and every turn keeps it. -/
theorem stateBefore_induction {P : ℕ → Interleaved σ φ → Prop} {l : ℕ}
    (hl : P l (stateBefore advance requests c₀ schedule l))
    (hkeeps : ∀ k i req phase, l ≤ k → schedule[k]? = some i → requests[i]? = some req →
      (stateBefore advance requests c₀ schedule k).phases[i]? = some phase →
      P k (stateBefore advance requests c₀ schedule k) →
      P (k + 1) (after advance (stateBefore advance requests c₀ schedule k) i req phase))
    (hidle : ∀ k i, l ≤ k → schedule[k]? = some i →
      P k (stateBefore advance requests c₀ schedule k) →
      P (k + 1) (stateBefore advance requests c₀ schedule k))
    (hlk : l ≤ k) (hk : k ≤ schedule.length) :
    P k (stateBefore advance requests c₀ schedule k) := by
  induction k with
  | zero =>
    obtain rfl := Nat.le_zero.mp hlk
    exact hl
  | succ k ih =>
    rcases Nat.eq_or_lt_of_le hlk with rfl | hlt
    · exact hl
    obtain ⟨i, hi⟩ : ∃ i, schedule[k]? = some i := ⟨_, List.getElem?_eq_getElem hk⟩
    have hP := ih (Nat.le_of_lt_succ hlt) (Nat.le_of_succ_le hk)
    rw [stateBefore_succ hi]
    unfold step
    split
    next req phase hreq hphase =>
      exact hkeeps k i req phase (Nat.le_of_lt_succ hlt) hi hreq hphase hP
    next => exact hidle k i (Nat.le_of_lt_succ hlt) hi hP

/-- Where each turn of a schedule meets the condition, its states are reached. -/
theorem reaches_stateBefore
    (hturns : ∀ k i req phase, schedule[k]? = some i → requests[i]? = some req →
      (stateBefore advance requests c₀ schedule k).phases[i]? = some phase →
      allowed (stateBefore advance requests c₀ schedule k) req phase)
    (hk : k ≤ schedule.length) :
    Reaches advance requests allowed c₀ (stateBefore advance requests c₀ schedule k) := by
  induction k with
  | zero => exact .refl
  | succ k ih =>
    obtain ⟨i, hi⟩ : ∃ i, schedule[k]? = some i := ⟨_, List.getElem?_eq_getElem hk⟩
    rw [stateBefore_succ hi]
    exact (ih (Nat.le_of_succ_le hk)).step _ fun req phase hreq hphase =>
      hturns k i req phase hi hreq hphase

end Schedules

/-- Where a request is after a turn: the one that took it, or another. -/
theorem getElem?_after {i j : ℕ} {req : ρ} {phase phase' : φ}
    (h : (after advance c i req phase).phases[j]? = some phase') :
    (j = i ∧ phase' = (advance req c.store phase).2) ∨ (j ≠ i ∧ c.phases[j]? = some phase') := by
  by_cases hji : j = i
  · subst hji
    rw [after, List.getElem?_set_self'] at h
    obtain ⟨-, -, rfl⟩ := Option.map_eq_some_iff.mp h
    exact .inl ⟨rfl, rfl⟩
  · rw [after, List.getElem?_set_ne (Ne.symm hji)] at h
    exact .inr ⟨hji, h⟩

end Interleaved

end ReadCommitted
