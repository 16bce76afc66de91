import Mathlib.Tactic.Common

/-!
# Statement by statement

Requests that have the state to themselves and commit every statement by itself: what was
written before a failure stays.

## Main definitions

* `Autocommit` — requests that may fail, and the state they leave in either case.
* `Autocommit.After` — what holds of the answer and of the state when a request is over.

## Main results

* `Autocommit.after_bind` and the rules for single statements — what holds after a request
  from what holds after its statements.
* `Autocommit.After.bind` — what both parts of a sequence keep.
-/

set_option autoImplicit false

namespace ReadCommitted

/-- A request over states `σ`. -/
def Autocommit (σ ε α : Type) : Type := σ → Except ε α × σ

namespace Autocommit

variable {σ ε α β : Type}

/-- The next part runs on the state that the first has left, unless that one has failed. -/
def andThen (p : Autocommit σ ε α) (f : α → Autocommit σ ε β) : Autocommit σ ε β := fun s =>
  match p s with
  | (.ok a, s') => f a s'
  | (.error e, s') => (.error e, s')

instance : Monad (Autocommit σ ε) where
  pure a := fun s => (.ok a, s)
  bind := andThen

/-! ### Single statements -/

/-- Read the state. -/
def find (q : σ → α) : Autocommit σ ε α := fun s => (.ok (q s), s)

def fail (e : ε) : Autocommit σ ε α := fun s => (.error e, s)

/-- Fail with `e` unless `P` holds. -/
def demand (P : Prop) [Decidable P] (e : ε) : Autocommit σ ε Unit :=
  if P then pure () else fail e

/-- The value of an option, or fail with `e`. -/
def orFail (x : Option α) (e : ε) : Autocommit σ ε α :=
  match x with
  | some a => pure a
  | none => fail e

/-- A part that is only done if `P` holds. -/
def onlyIf (P : Prop) [Decidable P] (p : Autocommit σ ε Unit) : Autocommit σ ε Unit :=
  if P then p else pure ()

/-- A part that is done for the value of an option, if there is one. -/
def forSome (x : Option α) (f : α → Autocommit σ ε Unit) : Autocommit σ ε Unit :=
  match x with
  | some a => f a
  | none => pure ()

@[simp] theorem forSome_some {a : α} {f : α → Autocommit σ ε Unit} :
    forSome (some a) f = f a := rfl

@[simp] theorem forSome_none {f : α → Autocommit σ ε Unit} : forSome none f = pure () := rfl

/-- A check that has an error for an answer. -/
def check (q : σ → Except ε Unit) : Autocommit σ ε Unit := fun s => (q s, s)

/-- A writing statement, which constraints may stop. -/
def write (f : σ → Except ε σ) : Autocommit σ ε Unit := fun s =>
  match f s with
  | .ok s' => (.ok (), s')
  | .error e => (.error e, s)

/-- A change that nothing can stop. -/
def update (f : σ → σ) : Autocommit σ ε Unit := fun s => (.ok (), f s)

/-! ### When a request is over -/

/-- What holds of the answer and of the state when the request has run on `s`. -/
def After (Q : Except ε α → σ → Prop) (p : Autocommit σ ε α) (s : σ) : Prop :=
  Q (p s).1 (p s).2

section Rules

variable {Q Q' : Except ε α → σ → Prop} {R : Except ε β → σ → Prop} {p : Autocommit σ ε α}
  {f : α → Autocommit σ ε β} {s : σ} {e : ε}

theorem After.mono (h : p.After Q s) (hQ : ∀ r s', Q r s' → Q' r s') : p.After Q' s :=
  hQ _ _ h

theorem After.and (h : p.After Q s) (h' : p.After Q' s) :
    p.After (fun r s' => Q r s' ∧ Q' r s') s := ⟨h, h'⟩

/-- The rule of sequences. A failure of the first part is one of the whole. -/
theorem after_bind : (p >>= f).After R s ↔
    p.After (fun r s' => match r with
      | .ok a => (f a).After R s'
      | .error e => R (.error e) s') s := by
  change R (andThen p f s).1 (andThen p f s).2 ↔ _
  unfold andThen After
  cases p s with
  | mk r s' => cases r <;> rfl

@[simp] theorem after_pure {a : α} :
    (pure a : Autocommit σ ε α).After Q s ↔ Q (.ok a) s := Iff.rfl

@[simp] theorem after_pure_bind {a : α} :
    (pure a >>= f : Autocommit σ ε β).After R s ↔ (f a).After R s := Iff.rfl

@[simp] theorem after_fail : (fail e : Autocommit σ ε α).After Q s ↔ Q (.error e) s := Iff.rfl

@[simp] theorem after_find {q : σ → α} :
    (find q : Autocommit σ ε α).After Q s ↔ Q (.ok (q s)) s := Iff.rfl

@[simp] theorem after_find_bind {q : σ → α} :
    (find q >>= f).After R s ↔ (f (q s)).After R s := Iff.rfl

@[simp] theorem after_update {g : σ → σ} {Q : Except ε Unit → σ → Prop} :
    (update g : Autocommit σ ε Unit).After Q s ↔ Q (.ok ()) (g s) := Iff.rfl

@[simp] theorem after_update_bind {g : σ → σ} {f : Unit → Autocommit σ ε β} :
    (update g >>= f).After R s ↔ (f ()).After R (g s) := Iff.rfl

theorem after_demand {P : Prop} [Decidable P] {Q : Except ε Unit → σ → Prop} :
    (demand P e : Autocommit σ ε Unit).After Q s ↔ (P → Q (.ok ()) s) ∧ (¬ P → Q (.error e) s) := by
  unfold demand
  split_ifs with hP <;> simp [hP]

theorem after_demand_bind {P : Prop} [Decidable P] {f : Unit → Autocommit σ ε β} :
    (demand P e >>= f).After R s ↔ (P → (f ()).After R s) ∧ (¬ P → R (.error e) s) := by
  rw [after_bind]
  unfold demand
  split_ifs with hP <;> simp [hP]

theorem after_orFail_bind {x : Option α} :
    (orFail x e >>= f).After R s ↔
      (∀ a, x = some a → (f a).After R s) ∧ (x = none → R (.error e) s) := by
  rw [after_bind]
  unfold orFail
  cases x <;> simp

theorem after_check_bind {q : σ → Except ε Unit} {f : Unit → Autocommit σ ε β} :
    (check q >>= f).After R s ↔
      (q s = .ok () → (f ()).After R s) ∧ ∀ e, q s = .error e → R (.error e) s := by
  rw [after_bind]
  unfold check After
  cases hq : q s <;> simp [hq]

theorem after_write {g : σ → Except ε σ} {Q : Except ε Unit → σ → Prop} :
    (write g).After Q s ↔
      (∀ s', g s = .ok s' → Q (.ok ()) s') ∧ ∀ e, g s = .error e → Q (.error e) s := by
  unfold write After
  cases hg : g s <;> simp [hg]

/-- A check that stops the request only where nothing more is to show. -/
theorem After.check {q : σ → Except ε Unit} {f : Unit → Autocommit σ ε β}
    (hf : q s = .ok () → (f ()).After R s) (herror : ∀ e, R (.error e) s) :
    (check q >>= f).After R s :=
  after_check_bind.mpr ⟨hf, fun e _ => herror e⟩

theorem After.orFail {x : Option α} (hf : ∀ a, x = some a → (f a).After R s)
    (herror : ∀ e, R (.error e) s) : (orFail x e >>= f).After R s :=
  after_orFail_bind.mpr ⟨hf, fun _ => herror e⟩

theorem After.demand {P : Prop} [Decidable P] {f : Unit → Autocommit σ ε β}
    (hf : P → (f ()).After R s) (herror : ∀ e, R (.error e) s) :
    (demand P e >>= f).After R s :=
  after_demand_bind.mpr ⟨hf, fun _ => herror e⟩

/-- What both parts keep, also when the first of them fails. -/
theorem After.bind {I : σ → Prop} (hp : p.After (fun _ => I) s)
    (hf : ∀ a s', I s' → (f a).After (fun _ => I) s') : (p >>= f).After (fun _ => I) s := by
  rw [after_bind]
  apply hp.mono
  intro r s' hs'
  cases r with
  | ok a => exact hf a s' hs'
  | error e => exact hs'

theorem after_onlyIf {P : Prop} [Decidable P] {p : Autocommit σ ε Unit}
    {Q : Except ε Unit → σ → Prop} :
    (onlyIf P p).After Q s ↔ (P → p.After Q s) ∧ (¬ P → Q (.ok ()) s) := by
  unfold onlyIf
  split_ifs with hP <;> simp [hP]

theorem after_forSome {x : Option α} {f : α → Autocommit σ ε Unit}
    {Q : Except ε Unit → σ → Prop} :
    (forSome x f).After Q s ↔
      (∀ a, x = some a → (f a).After Q s) ∧ (x = none → Q (.ok ()) s) := by
  unfold forSome
  cases x <;> simp

end Rules

end Autocommit

end ReadCommitted
