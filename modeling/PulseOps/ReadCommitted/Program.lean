import Mathlib.Logic.Basic
import Mathlib.Data.List.Basic

/-!
# Programs of database statements

A service function that talks to a database is a tree of statements: what it does
next depends on what each statement returned. This file gives the trees, the way
they are composed, and what one of them computes when it runs alone.

Nothing here depends on a particular database. A `Database` names the stored
states, the lockable rows and index entries, the atomic row edits, and the calls a
program can make to the outside world.

## Main definitions

* `Database` — the signature of a database and of its surroundings.
* `Program` — statement trees, with their monad structure.
* `Program.run` — what a program computes when nothing else runs.

## Main results

* `Program.run_bind` — composed programs run one after the other.
* `Program.ReadsOnly.run_edits` — a program without writes leaves no edits.
-/

set_option autoImplicit false

namespace ReadCommitted

/-- A database and its surroundings, as far as programs can see them.

A key names what a row lock or a unique index protects. `footprint` lists the keys
an edit takes, and `present` says whether a key names an existing row. -/
structure Database (State Key Edit Call Reply Error : Type) where
  apply : State → Edit → State
  footprint : Edit → List Key
  present : State → Key → Bool

variable {State Key Edit Call Reply Error : Type}
  {D : Database State Key Edit Call Reply Error} {α β γ : Type}

/-- The state after a list of edits, oldest first. -/
def Database.replay (D : Database State Key Edit Call Reply Error) (es : List Edit) (s : State) :
    State :=
  es.foldl D.apply s

@[simp] theorem Database.replay_nil (s : State) : D.replay [] s = s := rfl

@[simp] theorem Database.replay_cons (e : Edit) (es : List Edit) (s : State) :
    D.replay (e :: es) s = D.replay es (D.apply s e) := rfl

@[simp] theorem Database.replay_append (es es' : List Edit) (s : State) :
    D.replay (es ++ es') s = D.replay es' (D.replay es s) := by
  simp [Database.replay, List.foldl_append]

/-- A program of database statements with a result in `α`.

`write` is one `INSERT`, `UPDATE` or `DELETE`: the edit is worked out from the state
the statement sees, or the statement fails on a constraint. `request` is a call to the
outside world, which no rollback undoes. -/
inductive Program (D : Database State Key Edit Call Reply Error) (α : Type) where
  | ret (a : α)
  | raise (e : Error)
  | select (next : State → Program D α)
  | selectForUpdate (k : Key) (next : State → Program D α)
  | write (edit : State → Except Error Edit) (next : Edit → Program D α)
  | request (c : Call) (next : Reply → Program D α)

namespace Program

/-- Run `p`, then `f` on its result. -/
protected def bind : Program D α → (α → Program D β) → Program D β
  | ret a, f => f a
  | raise e, _ => raise e
  | select next, f => select fun s => (next s).bind f
  | selectForUpdate k next, f => selectForUpdate k fun s => (next s).bind f
  | write edit next, f => write edit fun e => (next e).bind f
  | request c next, f => request c fun r => (next r).bind f

instance : Monad (Program D) where
  pure := ret
  bind := Program.bind

@[simp] theorem pure_eq (a : α) : (pure a : Program D α) = ret a := rfl

@[simp] theorem ret_bind (a : α) (f : α → Program D β) : (ret a >>= f) = f a := rfl

@[simp] theorem raise_bind (e : Error) (f : α → Program D β) :
    ((raise e : Program D α) >>= f) = raise e := rfl

@[simp] theorem select_bind (next : State → Program D α) (f : α → Program D β) :
    (select next >>= f) = select fun s => next s >>= f := rfl

@[simp] theorem selectForUpdate_bind (k : Key) (next : State → Program D α)
    (f : α → Program D β) :
    (selectForUpdate k next >>= f) = selectForUpdate k fun s => next s >>= f := rfl

@[simp] theorem write_bind (edit : State → Except Error Edit)
    (next : Edit → Program D α) (f : α → Program D β) :
    (write edit next >>= f) = write edit fun e => next e >>= f := rfl

@[simp] theorem request_bind (c : Call) (next : Reply → Program D α)
    (f : α → Program D β) :
    (request c next >>= f) = request c fun r => next r >>= f := rfl

private theorem bind_ret_eq (p : Program D α) : p.bind ret = p := by
  induction p with
  | ret a => rfl
  | raise e => rfl
  | select next ih => exact congrArg select (funext ih)
  | selectForUpdate k next ih => exact congrArg (selectForUpdate k) (funext ih)
  | write edit next ih => exact congrArg (write edit) (funext ih)
  | request c next ih => exact congrArg (request c) (funext ih)

private theorem bind_assoc_eq (p : Program D α) (f : α → Program D β)
    (g : β → Program D γ) : (p.bind f).bind g = p.bind fun a => (f a).bind g := by
  induction p with
  | ret a => rfl
  | raise e => rfl
  | select next ih => exact congrArg select (funext ih)
  | selectForUpdate k next ih => exact congrArg (selectForUpdate k) (funext ih)
  | write edit next ih => exact congrArg (write edit) (funext ih)
  | request c next ih => exact congrArg (request c) (funext ih)

instance : LawfulMonad (Program D) :=
  LawfulMonad.mk' (Program D) bind_ret_eq (fun _ _ => rfl) bind_assoc_eq

/-! ### Single statements -/

/-- `SELECT`: read `q` off the state the statement sees. -/
def query (q : State → α) : Program D α := select fun s => ret (q s)

/-- `SELECT … FOR UPDATE`: lock the row `k` if it exists, and read `q`. -/
def lockAndRead (k : Key) (q : State → α) : Program D α :=
  selectForUpdate k fun s => ret (q s)

/-- `SELECT … FOR UPDATE`, for the lock alone. -/
def lockRow (k : Key) : Program D Unit := selectForUpdate k fun _ => ret ()

/-- One writing statement, with the edit it made as its result. -/
def execute (edit : State → Except Error Edit) : Program D Edit :=
  write edit ret

/-- One writing statement, for its effect alone. -/
def perform (edit : State → Except Error Edit) : Program D Unit :=
  write edit fun _ => ret ()

/-- A writing statement that no constraint can stop. -/
def record (e : Edit) : Program D Unit := perform fun _ => .ok e

/-- A call to the outside world. -/
def send (c : Call) : Program D Reply := request c ret

/-- Stop with `e` unless `P` holds. -/
def require (P : Prop) [Decidable P] (e : Error) : Program D Unit :=
  if P then ret () else raise e

/-- The value of an option, or stop with `e`. -/
def orRaise (x : Option α) (e : Error) : Program D α :=
  match x with
  | some a => ret a
  | none => raise e

/-! ### Running alone -/

/-- What a program computes when it is the only one to run on `s`: its result and the
edits it made, oldest first, or the error that rolled it back. `answer` replies to its
calls. -/
def run (answer : Call → Reply) :
    Program D α → State → Except Error (α × List Edit)
  | ret a, _ => .ok (a, [])
  | raise e, _ => .error e
  | select next, s => (next s).run answer s
  | selectForUpdate _ next, s => (next s).run answer s
  | write edit next, s =>
    match edit s with
    | .error e => .error e
    | .ok e =>
      match (next e).run answer (D.apply s e) with
      | .error err => .error err
      | .ok (a, es) => .ok (a, e :: es)
  | request c next, s => (next (answer c)).run answer s

variable {answer : Call → Reply}

/-- `Runs answer p s a es`: alone on `s`, the program returns `a` after the edits `es`. -/
def Runs (answer : Call → Reply) (p : Program D α) (s : State) (a : α)
    (es : List Edit) : Prop :=
  p.run answer s = .ok (a, es)

instance [DecidableEq α] [DecidableEq Edit] [DecidableEq Error] (p : Program D α)
    (s : State) (a : α) (es : List Edit) : Decidable (Runs answer p s a es) :=
  inferInstanceAs (Decidable (p.run answer s = .ok (a, es)))

@[simp] theorem runs_ret {a b : α} {s : State} {es : List Edit} :
    Runs answer (ret a : Program D α) s b es ↔ b = a ∧ es = [] := by
  simp [Runs, run, eq_comm]

@[simp] theorem runs_raise {e : Error} {s : State} {a : α} {es : List Edit} :
    ¬ Runs answer (raise e : Program D α) s a es := by
  simp [Runs, run]

@[simp] theorem runs_select {next : State → Program D α} {s : State} {a : α}
    {es : List Edit} :
    Runs answer (select next) s a es ↔ Runs answer (next s) s a es := Iff.rfl

@[simp] theorem runs_selectForUpdate {k : Key} {next : State → Program D α}
    {s : State} {a : α} {es : List Edit} :
    Runs answer (selectForUpdate k next) s a es ↔ Runs answer (next s) s a es := Iff.rfl

@[simp] theorem runs_request {c : Call} {next : Reply → Program D α}
    {s : State} {a : α} {es : List Edit} :
    Runs answer (request c next) s a es ↔ Runs answer (next (answer c)) s a es := Iff.rfl

theorem runs_write {edit : State → Except Error Edit} {next : Edit → Program D α}
    {s : State} {a : α} {es : List Edit} :
    Runs answer (write edit next) s a es ↔
      ∃ e es', edit s = .ok e ∧ Runs answer (next e) (D.apply s e) a es' ∧
        es = e :: es' := by
  unfold Runs
  rw [run]
  cases hedit : edit s with
  | error err => simp
  | ok e =>
    cases hrest : (next e).run answer (D.apply s e) with
    | error err => simp [hrest]
    | ok r =>
      obtain ⟨b, es'⟩ := r
      simp only [hrest, Except.ok.injEq, Prod.mk.injEq]
      constructor
      · rintro ⟨rfl, rfl⟩
        exact ⟨e, es', rfl, hrest, rfl⟩
      · rintro ⟨e', es'', rfl, hrest', rfl⟩
        simp only [hrest, Except.ok.injEq, Prod.mk.injEq] at hrest'
        exact ⟨hrest'.1, by rw [hrest'.2]⟩

/-- Composed programs run one after the other. -/
theorem run_bind {p : Program D α} {f : α → Program D β} {s : State} {b : β}
    {es : List Edit} :
    Runs answer (p >>= f) s b es ↔
      ∃ a es₁ es₂, Runs answer p s a es₁ ∧ Runs answer (f a) (D.replay es₁ s) b es₂ ∧
        es = es₁ ++ es₂ := by
  induction p generalizing s es with
  | ret a => simp
  | raise e => simp
  | select next ih => simpa using ih s
  | selectForUpdate k next ih => simpa using ih s
  | request c next ih => simpa using ih (answer c)
  | write edit next ih =>
    simp only [write_bind, runs_write]
    constructor
    · rintro ⟨e, es', hedit, hrest, rfl⟩
      obtain ⟨a, es₁, es₂, h₁, h₂, rfl⟩ := (ih e).mp hrest
      exact ⟨a, e :: es₁, es₂, ⟨e, es₁, hedit, h₁, rfl⟩, h₂, rfl⟩
    · rintro ⟨a, es₁, es₂, ⟨e, es₁', hedit, h₁, rfl⟩, h₂, rfl⟩
      exact ⟨e, es₁' ++ es₂, hedit, (ih e).mpr ⟨a, es₁', es₂, h₁, h₂, rfl⟩, rfl⟩

theorem Runs.bind {p : Program D α} {f : α → Program D β} {s : State} {a : α} {b : β}
    {es₁ es₂ : List Edit} (h₁ : Runs answer p s a es₁)
    (h₂ : Runs answer (f a) (D.replay es₁ s) b es₂) :
    Runs answer (p >>= f) s b (es₁ ++ es₂) :=
  run_bind.mpr ⟨a, es₁, es₂, h₁, h₂, rfl⟩

@[simp] theorem runs_query {q : State → α} {s : State} {a : α} {es : List Edit} :
    Runs answer (query q : Program D α) s a es ↔ a = q s ∧ es = [] := by
  simp [query]

@[simp] theorem runs_lockAndRead {k : Key} {q : State → α} {s : State} {a : α}
    {es : List Edit} :
    Runs answer (lockAndRead k q : Program D α) s a es ↔ a = q s ∧ es = [] := by
  simp [lockAndRead]

@[simp] theorem runs_lockRow {k : Key} {s : State} {u : Unit} {es : List Edit} :
    Runs answer (lockRow k : Program D Unit) s u es ↔ es = [] := by
  simp [lockRow]

@[simp] theorem runs_execute {edit : State → Except Error Edit} {s : State}
    {e : Edit} {es : List Edit} :
    Runs answer (execute edit : Program D Edit) s e es ↔ edit s = .ok e ∧ es = [e] := by
  simp only [execute, runs_write, runs_ret]
  grind

@[simp] theorem runs_perform {edit : State → Except Error Edit} {s : State}
    {u : Unit} {es : List Edit} :
    Runs answer (perform edit : Program D Unit) s u es ↔ ∃ e, edit s = .ok e ∧ es = [e] := by
  simp [perform, runs_write]

@[simp] theorem runs_record {e : Edit} {s : State} {u : Unit} {es : List Edit} :
    Runs answer (record e : Program D Unit) s u es ↔ es = [e] := by
  simp [record]

@[simp] theorem runs_require {P : Prop} [Decidable P] {err : Error} {s : State}
    {u : Unit} {es : List Edit} :
    Runs answer (require P err : Program D Unit) s u es ↔ P ∧ es = [] := by
  by_cases hP : P <;> simp [require, hP]

@[simp] theorem runs_orRaise {x : Option α} {err : Error} {s : State} {a : α}
    {es : List Edit} :
    Runs answer (orRaise x err : Program D α) s a es ↔ x = some a ∧ es = [] := by
  cases x <;> simp [orRaise, eq_comm]

theorem exists_runs (answer : Call → Reply) (p : Program D α) (s : State)
    (h : (p.run answer s).isOk = true) :
    ∃ a es, Runs answer p s a es := by
  cases hrun : p.run answer s with
  | error e => simp [hrun, Except.isOk, Except.toBool] at h
  | ok r => exact ⟨r.1, r.2, hrun⟩

/-- What the program writes when it runs alone: nothing if it fails. -/
def edits (answer : Call → Reply) (p : Program D α) (s : State) : List Edit :=
  match p.run answer s with
  | .ok (_, es) => es
  | .error _ => []

/-- The state after the program ran alone: the one before if it failed. -/
def after (answer : Call → Reply) (p : Program D α) (s : State) : State :=
  D.replay (p.edits answer s) s

theorem Runs.edits_eq {p : Program D α} {s : State} {a : α} {es : List Edit}
    (h : Runs answer p s a es) : p.edits answer s = es := by
  unfold edits
  rw [show p.run answer s = .ok (a, es) from h]

theorem Runs.after_eq {p : Program D α} {s : State} {a : α} {es : List Edit}
    (h : Runs answer p s a es) : p.after answer s = D.replay es s := by
  rw [after, h.edits_eq]

/-! ### A statement and the rest of the program -/

section Rest

variable {s : State} {b : β} {es : List Edit}

@[simp] theorem runs_query_bind {q : State → α} {f : α → Program D β} :
    Runs answer (query q >>= f) s b es ↔ Runs answer (f (q s)) s b es := Iff.rfl

@[simp] theorem runs_lockAndRead_bind {k : Key} {q : State → α} {f : α → Program D β} :
    Runs answer (lockAndRead k q >>= f) s b es ↔ Runs answer (f (q s)) s b es := Iff.rfl

@[simp] theorem runs_lockRow_bind {k : Key} {f : Unit → Program D β} :
    Runs answer (lockRow k >>= f) s b es ↔ Runs answer (f ()) s b es := Iff.rfl

@[simp] theorem runs_require_bind {P : Prop} [Decidable P] {e : Error}
    {f : Unit → Program D β} :
    Runs answer (require P e >>= f) s b es ↔ P ∧ Runs answer (f ()) s b es := by
  by_cases hP : P <;> simp [require, hP]

@[simp] theorem runs_orRaise_bind {x : Option α} {e : Error} {f : α → Program D β} :
    Runs answer (orRaise x e >>= f) s b es ↔
      ∃ a, x = some a ∧ Runs answer (f a) s b es := by
  cases x <;> simp [orRaise]

theorem runs_perform_bind {edit : State → Except Error Edit}
    {f : Unit → Program D β} :
    Runs answer (perform edit >>= f) s b es ↔
      ∃ e es', edit s = .ok e ∧ Runs answer (f ()) (D.apply s e) b es' ∧
        es = e :: es' := runs_write

@[simp] theorem runs_record_bind {e : Edit} {f : Unit → Program D β} :
    Runs answer (record e >>= f) s b es ↔
      ∃ es', Runs answer (f ()) (D.apply s e) b es' ∧ es = e :: es' := by
  simp [record, runs_perform_bind]

end Rest

/-! ### Programs without writes -/

/-- The program neither writes, nor locks, nor calls the outside world. -/
inductive ReadsOnly : Program D α → Prop
  | ret (a : α) : ReadsOnly (ret a)
  | raise (e : Error) : ReadsOnly (raise e)
  | select {next : State → Program D α} :
      (∀ s, ReadsOnly (next s)) → ReadsOnly (select next)

theorem ReadsOnly.bind {p : Program D α} {f : α → Program D β} (hp : ReadsOnly p)
    (hf : ∀ a, ReadsOnly (f a)) : ReadsOnly (p >>= f) := by
  induction hp with
  | ret a => exact hf a
  | raise e => exact .raise e
  | select _ ih => exact .select ih

theorem ReadsOnly.query (q : State → α) : ReadsOnly (query q : Program D α) :=
  .select fun _ => .ret _

theorem ReadsOnly.require (P : Prop) [Decidable P] (e : Error) :
    ReadsOnly (require P e : Program D Unit) := by
  unfold Program.require
  split
  · exact .ret ()
  · exact .raise e

theorem ReadsOnly.orRaise (x : Option α) (e : Error) : ReadsOnly (orRaise x e : Program D α) := by
  cases x with
  | none => exact .raise e
  | some a => exact .ret a

/-- A program without writes leaves no edits. -/
theorem ReadsOnly.run_edits {p : Program D α} (hp : ReadsOnly p) {s : State} {a : α}
    {es : List Edit} (h : Runs answer p s a es) : es = [] := by
  induction hp with
  | ret b => exact (runs_ret.mp h).2
  | raise e => exact absurd h runs_raise
  | select _ ih => exact ih s h

end Program

end ReadCommitted
