import PulseOps.ReadCommitted.RelyGuarantee

/-!
# Requests one after the other

Serial runs, in which every request has the database to itself, and the rules for
reasoning about what a single program leaves behind: what it can return, what it can
write, and which properties of the state it keeps.

## Main definitions

* `Program.Returns` — every result satisfies a property.
* `Program.Keeps` — a run alone keeps a property of the state.
* `Program.Succeeds`, `Program.Leaves` — what holds when a run alone ends, with and without
  the promise that it does.
* `Program.afterAll` — the state after a list of requests.
* `SerialRun` — a sequence of requests, with everything they wrote.

## Main results

* `SerialRun.invariant` — what every request keeps, every run keeps.
* `SerialRun.exists_afterAll` — requests that can all run have a serial run to `afterAll`.
-/

set_option autoImplicit false

namespace ReadCommitted

variable {State Key Edit Call Reply Error : Type}
  {D : Database State Key Edit Call Reply Error} {α β ι τ : Type} {answer : Call → Reply}

/-- A reading of the state that no edit changes is unchanged by all of them. -/
theorem Database.replay_frame (f : State → τ) {es : List Edit}
    (h : ∀ e ∈ es, ∀ s, f (D.apply s e) = f s) (s : State) :
    f (D.replay es s) = f s := by
  induction es generalizing s with
  | nil => rfl
  | cons e es ih =>
    rw [Database.replay_cons, ih fun e' he' => h e' (by simp [he']), h e (by simp)]

namespace Program

/-! ### What a program can write -/

/-- A run alone writes only what the program can write. -/
theorem Emits.of_runs {P : Edit → Prop} {p : Program D α} (hp : p.Emits P)
    {s : State} {a : α} {es : List Edit} (h : Runs answer p s a es) :
    ∀ e ∈ es, P e := by
  induction p generalizing s es with
  | ret b => simp_all
  | raise err => exact absurd h runs_raise
  | select next ih => exact ih s (hp s) h
  | selectForUpdate k next ih => exact ih s (hp s) h
  | request q next ih => exact ih _ (hp _) h
  | write edit next ih =>
    obtain ⟨e, es', hedit, hrest, rfl⟩ := runs_write.mp h
    obtain ⟨hPe, hnext⟩ := hp s e hedit
    intro e' he'
    rcases List.mem_cons.mp he' with rfl | he'
    · exact hPe
    · exact ih e hnext hrest e' he'

/-! ### What a program can return -/

/-- Every result of the program, in any surroundings, satisfies `P`. -/
def Returns (P : α → Prop) : Program D α → Prop
  | ret a => P a
  | raise _ => True
  | select next => ∀ s, (next s).Returns P
  | selectForUpdate _ next => ∀ s, (next s).Returns P
  | write edit next => ∀ s e, edit s = .ok e → (next e).Returns P
  | request _ next => ∀ r, (next r).Returns P

theorem Returns.bind {P : β → Prop} {Q : α → Prop} {p : Program D α}
    {f : α → Program D β} (hp : p.Returns Q) (hf : ∀ a, Q a → (f a).Returns P) :
    (p >>= f).Returns P := by
  induction p with
  | ret a => exact hf a hp
  | raise e => trivial
  | select next ih => exact fun s => ih s (hp s)
  | selectForUpdate k next ih => exact fun s => ih s (hp s)
  | write edit next ih => exact fun s e he => ih e (hp s e he)
  | request q next ih => exact fun r => ih r (hp r)

theorem Returns.mono {P Q : α → Prop} {p : Program D α} (hp : p.Returns P)
    (h : ∀ a, P a → Q a) : p.Returns Q := by
  induction p with
  | ret a => exact h a hp
  | raise e => trivial
  | select next ih => exact fun s => ih s (hp s)
  | selectForUpdate k next ih => exact fun s => ih s (hp s)
  | write edit next ih => exact fun s e he => ih e (hp s e he)
  | request q next ih => exact fun r => ih r (hp r)

theorem returns_true (p : Program D α) : p.Returns fun _ => True := by
  induction p with
  | ret a => trivial
  | raise e => trivial
  | select next ih => exact ih
  | selectForUpdate k next ih => exact ih
  | write edit next ih => exact fun _ e _ => ih e
  | request q next ih => exact ih

/-- A first part whose result does not matter. -/
theorem Returns.bind_any {P : β → Prop} {p : Program D α} {f : α → Program D β}
    (hf : ∀ a, (f a).Returns P) : (p >>= f).Returns P :=
  (returns_true p).bind fun a _ => hf a

theorem Returns.require {P : Prop} [Decidable P] (e : Error) :
    (Program.require P e : Program D Unit).Returns fun _ => P := by
  unfold Program.require
  split
  · assumption
  · trivial

theorem Returns.mapM {P : α → β → Prop} {f : α → Program D β} {xs : List α}
    (hf : ∀ x ∈ xs, (f x).Returns (P x)) : (xs.mapM f).Returns (List.Forall₂ P xs) := by
  induction xs with
  | nil => exact List.Forall₂.nil
  | cons x xs ih =>
    rw [List.mapM_cons]
    refine (hf x (by simp)).bind fun y hy => ?_
    refine (ih fun x' hx' => hf x' (by simp [hx'])).bind fun ys hys => ?_
    exact List.Forall₂.cons hy hys

theorem Returns.of_runs {P : α → Prop} {p : Program D α} (hp : p.Returns P) {s : State}
    {a : α} {es : List Edit} (h : Runs answer p s a es) : P a := by
  induction p generalizing s es with
  | ret b => simp_all [Returns]
  | raise err => exact absurd h runs_raise
  | select next ih => exact ih s (hp s) h
  | selectForUpdate k next ih => exact ih s (hp s) h
  | request q next ih => exact ih _ (hp _) h
  | write edit next ih =>
    obtain ⟨e, es', hedit, hrest, rfl⟩ := runs_write.mp h
    exact ih e (hp s e hedit) hrest

/-! ### Loops -/

theorem ReadsOnly.forM {xs : List β} {f : β → Program D PUnit}
    (hf : ∀ x ∈ xs, (f x).ReadsOnly) : (forM xs f).ReadsOnly := by
  induction xs with
  | nil => exact .ret _
  | cons x xs ih =>
    exact (hf x (by simp)).bind fun _ => ih fun y hy => hf y (by simp [hy])

theorem ReadsOnly.mapM {xs : List α} {f : α → Program D β}
    (hf : ∀ x ∈ xs, (f x).ReadsOnly) : (xs.mapM f).ReadsOnly := by
  induction xs with
  | nil => exact .ret _
  | cons x xs ih =>
    rw [List.mapM_cons]
    refine (hf x (by simp)).bind fun _ => ?_
    exact (ih fun y hy => hf y (by simp [hy])).bind fun _ => .ret _

@[simp] theorem runs_forM_nil {f : β → Program D PUnit} {s : State} {u : PUnit}
    {es : List Edit} : Runs answer (forM ([] : List β) f) s u es ↔ es = [] := by
  simp [List.forM_nil]

theorem runs_forM_cons {x : β} {xs : List β} {f : β → Program D PUnit} {s : State}
    {u : PUnit} {es : List Edit} :
    Runs answer (forM (x :: xs) f) s u es ↔
      ∃ es₁ es₂, Runs answer (f x) s () es₁ ∧
        Runs answer (forM xs f) (D.replay es₁ s) () es₂ ∧ es = es₁ ++ es₂ := by
  rw [List.forM_cons, run_bind]
  constructor
  · rintro ⟨_, es₁, es₂, h₁, h₂, rfl⟩
    exact ⟨es₁, es₂, h₁, h₂, rfl⟩
  · rintro ⟨es₁, es₂, h₁, h₂, rfl⟩
    exact ⟨(), es₁, es₂, h₁, h₂, rfl⟩

/-- Locking rows writes nothing. -/
theorem runs_forM_lockRow {k : β → Key} {xs : List β} {s : State} {u : PUnit}
    {es : List Edit} :
    Runs answer (forM xs fun x => (lockRow (k x) : Program D Unit)) s u es ↔ es = [] := by
  induction xs generalizing s es with
  | nil => exact runs_forM_nil
  | cons x xs ih =>
    rw [runs_forM_cons]
    simp [ih]

/-- Writing one unconditional row an element. -/
theorem runs_forM_record {f : β → Edit} {xs : List β} {s : State} {u : PUnit}
    {es : List Edit} :
    Runs answer (forM xs fun x => (record (f x) : Program D Unit)) s u es ↔ es = xs.map f := by
  induction xs generalizing s es with
  | nil => exact runs_forM_nil
  | cons x xs ih =>
    rw [runs_forM_cons]
    simp [ih]

/-! ### Properties a program keeps -/

/-- Running alone, the program keeps the property `I` of the state. -/
def Keeps (answer : Call → Reply) (I : State → Prop) (p : Program D α) : Prop :=
  ∀ s a es, I s → Runs answer p s a es → I (D.replay es s)

variable {I : State → Prop}

theorem Keeps.bind {p : Program D α} {f : α → Program D β} (hp : Keeps answer I p)
    (hf : ∀ a, Keeps answer I (f a)) : Keeps answer I (p >>= f) := by
  intro s b es hs h
  obtain ⟨a, es₁, es₂, h₁, h₂, rfl⟩ := run_bind.mp h
  rw [Database.replay_append]
  exact hf a _ b es₂ (hp s a es₁ hs h₁) h₂

theorem ReadsOnly.keeps {p : Program D α} (hp : p.ReadsOnly) : Keeps answer I p := by
  intro s a es hs h
  rw [hp.run_edits h]
  exact hs

/-- Edits that keep a property one by one keep it together. -/
theorem Emits.keeps {P : Edit → Prop} {p : Program D α} (hp : p.Emits P)
    (h : ∀ s e, I s → P e → I (D.apply s e)) : Keeps answer I p := by
  intro s a es hs hrun
  have hes := hp.of_runs hrun
  clear hrun
  induction es generalizing s with
  | nil => exact hs
  | cons e es ih =>
    exact ih _ (h s e hs (hes e (by simp))) fun e' he' => hes e' (by simp [he'])

theorem Keeps.perform {edit : State → Except Error Edit}
    (h : ∀ s e, I s → edit s = .ok e → I (D.apply s e)) :
    Keeps answer I (perform edit : Program D Unit) := by
  intro s a es hs hrun
  obtain ⟨e, he, rfl⟩ := runs_perform.mp hrun
  exact h s e hs he

theorem Keeps.forM {xs : List β} {f : β → Program D PUnit}
    (hf : ∀ x ∈ xs, Keeps answer I (f x)) : Keeps answer I (forM xs f) := by
  induction xs with
  | nil => exact ReadsOnly.keeps (.ret _)
  | cons x xs ih => exact (hf x (by simp)).bind fun _ => ih fun y hy => hf y (by simp [hy])

/-! ### Other errors -/

/-- The program with its errors changed: `catch (err) { throw … }` around it. -/
def mapError (f : Error → Error) : Program D α → Program D α
  | ret a => ret a
  | raise e => raise (f e)
  | select next => select fun s => (next s).mapError f
  | selectForUpdate k next => selectForUpdate k fun s => (next s).mapError f
  | write edit next => write (fun s => (edit s).mapError f) fun e => (next e).mapError f
  | request c next => request c fun r => (next r).mapError f

/-- What a program does when it ends well does not depend on its errors. -/
@[simp] theorem runs_mapError {f : Error → Error} {p : Program D α} {s : State} {a : α}
    {es : List Edit} : Runs answer (p.mapError f) s a es ↔ Runs answer p s a es := by
  induction p generalizing s es with
  | ret b => exact Iff.rfl
  | raise e => simp [mapError]
  | select next ih => exact ih s
  | selectForUpdate k next ih => exact ih s
  | request q next ih => exact ih _
  | write edit next ih =>
    have hedit : ∀ e, (edit s).mapError f = .ok e ↔ edit s = .ok e := by
      cases edit s <;> simp [Except.mapError]
    simp only [mapError, runs_write, hedit, ih]

/-! ### Running alone to the end -/

/-- Running alone from `s`, the program comes to its end, and `Q` holds of its result and of
the state it leaves. -/
def Succeeds (answer : Call → Reply) (Q : α → State → Prop) : Program D α → State → Prop
  | ret a, s => Q a s
  | raise _, _ => False
  | select next, s => (next s).Succeeds answer Q s
  | selectForUpdate _ next, s => (next s).Succeeds answer Q s
  | write edit next, s => ∃ e, edit s = .ok e ∧ (next e).Succeeds answer Q (D.apply s e)
  | request c next, s => (next (answer c)).Succeeds answer Q s

/-- If the program comes to its end when it runs alone from `s`, then `Q` holds of its result
and of the state it leaves. -/
def Leaves (answer : Call → Reply) (Q : α → State → Prop) (p : Program D α) (s : State) : Prop :=
  ∀ a es, Runs answer p s a es → Q a (D.replay es s)

section Alone

variable {Q Q' : α → State → Prop} {p : Program D α} {s : State}

theorem succeeds_iff :
    p.Succeeds answer Q s ↔ ∃ a es, Runs answer p s a es ∧ Q a (D.replay es s) := by
  induction p generalizing s with
  | ret a => simp [Succeeds]
  | raise e => simp [Succeeds]
  | select next ih => exact ih s
  | selectForUpdate k next ih => exact ih s
  | request q next ih => exact ih _
  | write edit next ih =>
    simp only [Succeeds, ih, runs_write]
    constructor
    · rintro ⟨e, he, a, es, hrun, hQ⟩
      exact ⟨a, e :: es, ⟨e, es, he, hrun, rfl⟩, hQ⟩
    · rintro ⟨a, _, ⟨e, es, he, hrun, rfl⟩, hQ⟩
      exact ⟨e, he, a, es, hrun, hQ⟩

theorem Runs.succeeds {a : α} {es : List Edit} (h : Runs answer p s a es) :
    p.Succeeds answer (fun _ _ => True) s :=
  succeeds_iff.mpr ⟨a, es, h, trivial⟩

/-- Composed programs come to their end one after the other. -/
theorem succeeds_bind {Q : β → State → Prop} {f : α → Program D β} :
    (p >>= f).Succeeds answer Q s ↔
      p.Succeeds answer (fun a s' => (f a).Succeeds answer Q s') s := by
  induction p generalizing s with
  | ret a => exact Iff.rfl
  | raise e => exact Iff.rfl
  | select next ih => exact ih s
  | selectForUpdate k next ih => exact ih s
  | request q next ih => exact ih _
  | write edit next ih => exact exists_congr fun e => and_congr_right fun _ => ih e

@[simp] theorem succeeds_mapError {f : Error → Error} :
    (p.mapError f).Succeeds answer Q s ↔ p.Succeeds answer Q s := by
  simp only [succeeds_iff, runs_mapError]

@[simp] theorem leaves_mapError {f : Error → Error} :
    (p.mapError f).Leaves answer Q s ↔ p.Leaves answer Q s := by
  simp only [Leaves, runs_mapError]

theorem Succeeds.mono (h : p.Succeeds answer Q s) (hQ : ∀ a s', Q a s' → Q' a s') :
    p.Succeeds answer Q' s := by
  obtain ⟨a, es, hrun, ha⟩ := succeeds_iff.mp h
  exact succeeds_iff.mpr ⟨a, es, hrun, hQ _ _ ha⟩

/-- A program has one run alone. -/
theorem Succeeds.leaves (h : p.Succeeds answer Q s) : p.Leaves answer Q s := by
  obtain ⟨a, es, hrun, ha⟩ := succeeds_iff.mp h
  intro a' es' hrun'
  obtain ⟨rfl, rfl⟩ := Prod.mk.inj (Except.ok.inj (hrun.symm.trans hrun'))
  exact ha

theorem Leaves.bind {Q : β → State → Prop} {f : α → Program D β}
    (h : p.Leaves answer (fun a s' => (f a).Leaves answer Q s') s) :
    (p >>= f).Leaves answer Q s := by
  intro b es hrun
  obtain ⟨a, es₁, es₂, h₁, h₂, rfl⟩ := run_bind.mp hrun
  rw [Database.replay_append]
  exact h a es₁ h₁ b es₂ h₂

theorem Leaves.mono (h : p.Leaves answer Q s) (hQ : ∀ a s', Q a s' → Q' a s') :
    p.Leaves answer Q' s := fun a es hrun => hQ _ _ (h a es hrun)

@[simp] theorem leaves_ret {a : α} : (ret a : Program D α).Leaves answer Q s ↔ Q a s := by
  simp [Leaves]

@[simp] theorem leaves_query_bind {Q : β → State → Prop} {q : State → α}
    {f : α → Program D β} :
    (query q >>= f).Leaves answer Q s ↔ (f (q s)).Leaves answer Q s := Iff.rfl

@[simp] theorem leaves_require_bind {Q : β → State → Prop} {P : Prop} [Decidable P] {e : Error}
    {f : Unit → Program D β} :
    (require P e >>= f).Leaves answer Q s ↔ (P → (f ()).Leaves answer Q s) := by
  unfold Leaves
  simp only [runs_require_bind]
  exact ⟨fun h hP a es hrun => h a es ⟨hP, hrun⟩, fun h a es hrun => h hrun.1 a es hrun.2⟩

@[simp] theorem leaves_orRaise_bind {Q : β → State → Prop} {x : Option α} {e : Error}
    {f : α → Program D β} :
    (orRaise x e >>= f).Leaves answer Q s ↔ ∀ a, x = some a → (f a).Leaves answer Q s := by
  cases x <;> simp [orRaise, Leaves]

theorem leaves_perform {Q : Unit → State → Prop} {edit : State → Except Error Edit} :
    (perform edit : Program D Unit).Leaves answer Q s ↔
      ∀ e, edit s = .ok e → Q () (D.apply s e) := by
  unfold Leaves
  simp only [runs_perform]
  constructor
  · intro h e he
    exact h () [e] ⟨e, he, rfl⟩
  · rintro h _ _ ⟨e, he, rfl⟩
    exact h e he

theorem leaves_perform_bind {Q : β → State → Prop} {edit : State → Except Error Edit}
    {f : Unit → Program D β} :
    (perform edit >>= f).Leaves answer Q s ↔
      ∀ e, edit s = .ok e → (f ()).Leaves answer Q (D.apply s e) := by
  unfold Leaves
  simp only [runs_perform_bind]
  constructor
  · intro h e he a es hrun
    exact h a (e :: es) ⟨e, es, he, hrun, rfl⟩
  · rintro h a _ ⟨e, es, he, hrun, rfl⟩
    exact h e he a es hrun

@[simp] theorem succeeds_ret {a : α} : (ret a : Program D α).Succeeds answer Q s ↔ Q a s :=
  Iff.rfl

@[simp] theorem succeeds_raise {e : Error} :
    ¬ (raise e : Program D α).Succeeds answer Q s := id

@[simp] theorem succeeds_query_bind {Q : β → State → Prop} {q : State → α}
    {f : α → Program D β} :
    (query q >>= f).Succeeds answer Q s ↔ (f (q s)).Succeeds answer Q s := Iff.rfl

@[simp] theorem succeeds_require_bind {Q : β → State → Prop} {P : Prop} [Decidable P]
    {e : Error} {f : Unit → Program D β} :
    (require P e >>= f).Succeeds answer Q s ↔ P ∧ (f ()).Succeeds answer Q s := by
  by_cases hP : P <;> simp [require, hP]

@[simp] theorem succeeds_orRaise_bind {Q : β → State → Prop} {x : Option α} {e : Error}
    {f : α → Program D β} :
    (orRaise x e >>= f).Succeeds answer Q s ↔ ∃ a, x = some a ∧ (f a).Succeeds answer Q s := by
  cases x <;> simp [orRaise]

theorem succeeds_perform {Q : Unit → State → Prop} {edit : State → Except Error Edit} :
    (perform edit : Program D Unit).Succeeds answer Q s ↔
      ∃ e, edit s = .ok e ∧ Q () (D.apply s e) := Iff.rfl

theorem succeeds_perform_bind {Q : β → State → Prop} {edit : State → Except Error Edit}
    {f : Unit → Program D β} :
    (perform edit >>= f).Succeeds answer Q s ↔
      ∃ e, edit s = .ok e ∧ (f ()).Succeeds answer Q (D.apply s e) := Iff.rfl

@[simp] theorem succeeds_query {q : State → α} :
    (query q : Program D α).Succeeds answer Q s ↔ Q (q s) s := Iff.rfl

@[simp] theorem succeeds_map {g : α → β} {Q : β → State → Prop} :
    (g <$> p).Succeeds answer Q s ↔ p.Succeeds answer (fun a => Q (g a)) s := by
  rw [map_eq_pure_bind, succeeds_bind]
  rfl

@[simp] theorem leaves_query {q : State → α} :
    (query q : Program D α).Leaves answer Q s ↔ Q (q s) s := by
  simp [Leaves]

@[simp] theorem leaves_map {g : α → β} {Q : β → State → Prop} :
    (g <$> p).Leaves answer Q s ↔ p.Leaves answer (fun a => Q (g a)) s := by
  unfold Leaves
  simp only [map_eq_pure_bind, run_bind, pure_eq, runs_ret]
  constructor
  · intro h a es hrun
    exact h (g a) es ⟨a, es, [], hrun, ⟨rfl, rfl⟩, (List.append_nil es).symm⟩
  · rintro h _ _ ⟨a, es, _, hrun, ⟨rfl, rfl⟩, rfl⟩
    rw [List.append_nil]
    exact h a es hrun

theorem Leaves.forM {I : State → Prop} {xs : List β} {f : β → Program D PUnit}
    (hf : ∀ x ∈ xs, ∀ s, I s → (f x).Leaves answer (fun _ => I) s) (hs : I s) :
    (forM xs f).Leaves answer (fun _ => I) s :=
  fun a es hrun => Keeps.forM (fun x hx s a es hs hrun => hf x hx s hs a es hrun) s a es hs hrun

end Alone

/-! ### Requests one after the other -/

/-- The state after requests that each run alone; one that fails is rolled back. -/
def afterAll (answer : Call → Reply) (program : ι → Program D α) (s : State)
    (requests : List ι) : State :=
  requests.foldl (fun s i => (program i).after answer s) s

/-- What a program leaves when it succeeds, and what was there when it fails. -/
theorem Leaves.after {I : State → Prop} {p : Program D α} {s : State} (hs : I s)
    (h : p.Leaves answer (fun _ => I) s) : I (p.after answer s) := by
  cases hrun : p.run answer s with
  | ok result =>
    obtain ⟨a, es⟩ := result
    have hruns : Runs answer p s a es := hrun
    rw [hruns.after_eq]
    exact h a es hruns
  | error e =>
    have hnone : p.after answer s = s := by simp [Program.after, edits, hrun]
    rw [hnone]
    exact hs

/-- A program that does not come to its end is rolled back. -/
theorem after_of_not_succeeds {p : Program D α} {s : State}
    (h : ¬ p.Succeeds answer (fun _ _ => True) s) : p.after answer s = s :=
  Leaves.after (I := fun s' => s' = s) rfl fun _ _ hrun => absurd hrun.succeeds h

/-- What every request leaves, a sequence of them leaves. -/
theorem afterAll_induction {I : State → Prop} {program : ι → Program D α} {s : State}
    (hstep : ∀ i s, I s → (program i).Leaves answer (fun _ => I) s) (hs : I s)
    (requests : List ι) : I (afterAll answer program s requests) := by
  induction requests generalizing s with
  | nil => exact hs
  | cons i requests ih => exact ih ((hstep i s hs).after hs)

end Program

/-! ### Serial runs -/

/-- A serial run from `s₀`: requests one after the other, each of which the condition `ok`
admits in the state it meets. The list is everything the run wrote; a request that fails
is rolled back and leaves nothing. -/
inductive SerialRun (answer : Call → Reply) (program : ι → Program D α)
    (ok : State → ι → Prop) (s₀ : State) : List Edit → State → Prop
  | refl : SerialRun answer program ok s₀ [] s₀
  | commit {es es' : List Edit} {s : State} {i : ι} {a : α} :
      SerialRun answer program ok s₀ es s → ok s i → (program i).Runs answer s a es' →
      SerialRun answer program ok s₀ (es ++ es') (D.replay es' s)
  | fail {es : List Edit} {s : State} {i : ι} {e : Error} :
      SerialRun answer program ok s₀ es s → ok s i → (program i).run answer s = .error e →
      SerialRun answer program ok s₀ es s

namespace SerialRun

variable {program : ι → Program D α} {ok : State → ι → Prop} {s₀ s : State}
  {es : List Edit}

/-- What every admitted request keeps, every run keeps. -/
theorem invariant {I : State → Prop} (h : SerialRun answer program ok s₀ es s)
    (hstart : I s₀)
    (hstep : ∀ s i a es', I s → ok s i → (program i).Runs answer s a es' →
      I (D.replay es' s)) : I s := by
  induction h with
  | refl => exact hstart
  | commit _ hok hrun ih => exact hstep _ _ _ _ ih hok hrun
  | fail _ _ _ ih => exact ih

/-- The last state is the replay of everything written. -/
theorem replay_eq (h : SerialRun answer program ok s₀ es s) : D.replay es s₀ = s := by
  induction h with
  | refl => rfl
  | commit _ _ _ ih => rw [Database.replay_append, ih]
  | fail _ _ _ ih => exact ih

/-- One more request, whether it succeeds or is rolled back. -/
theorem after (h : SerialRun answer program ok s₀ es s) {i : ι} (hi : ok s i) :
    ∃ es', SerialRun answer program ok s₀ es' ((program i).after answer s) := by
  cases hrun : (program i).run answer s with
  | ok result =>
    have hruns : (program i).Runs answer s result.1 result.2 := hrun
    rw [hruns.after_eq]
    exact ⟨_, h.commit hi hruns⟩
  | error e =>
    have hsame : (program i).after answer s = s := by
      simp [Program.after, Program.edits, hrun]
    rw [hsame]
    exact ⟨_, h.fail hi hrun⟩

/-- The requests of a list, each of them admitted in its turn. -/
theorem exists_afterAll (requests : List ι)
    (h : ∀ k < requests.length, ∀ i ∈ requests[k]?,
      ok (Program.afterAll answer program s₀ (requests.take k)) i) :
    ∃ es, SerialRun answer program ok s₀ es (Program.afterAll answer program s₀ requests) := by
  induction requests using List.reverseRecOn with
  | nil => exact ⟨[], .refl⟩
  | append_singleton requests i ih =>
    have hbefore : ∀ k < requests.length, ∀ j ∈ requests[k]?,
        ok (Program.afterAll answer program s₀ (requests.take k)) j := by
      intro k hk j hj
      have hj' : j ∈ (requests ++ [i])[k]? := by rwa [List.getElem?_append_left hk]
      have hturn := h k (by rw [List.length_append]; omega) j hj'
      rwa [List.take_append_of_le_length (by omega)] at hturn
    have hlast := h requests.length (by simp) i (by simp)
    rw [List.take_left] at hlast
    obtain ⟨es, hes⟩ := ih hbefore
    simpa only [Program.afterAll, List.foldl_append, List.foldl_cons, List.foldl_nil]
      using hes.after hlast

end SerialRun

end ReadCommitted
