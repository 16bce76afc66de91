import PulseOps.ReadCommitted.RelyGuarantee

/-!
# Transactions that are tried again

A transaction that the database aborts may be run again from its start. What it wrote is gone;
what its code left with the caller is not. Such a trace in the caller's memory is a note here: a
call that nobody answers. Notes make a program over an extended database, and erasing them gives
the program back.

An attempt is followed from its start to the statement at which it was aborted, or to its
commit. What every statement saw and what every call returned is left open, so that the other
transactions may have done anything in between.

## Main definitions

* `Database.noting` — the database whose programs leave notes with their caller.
* `Program.lift`, `Program.note`, `Program.erase` — programs with and without notes.
* `Program.Partway` — how far an attempt has come.
* `Program.Ends` — how attempts come to the end.
* `Program.abortable` — where the database can abort it.

## Main results

* `Program.Partway.bind_cases` — an attempt of a composed program is in one of its two parts.
* `Program.Partway.lift` — a program that leaves no notes.
* `Program.Partway.ends` — an attempt at the end of its program.
* `Program.isAttempt_of_reaches` — the sessions of a run are attempts of their programs.
* `Program.partway_walk` — the attempts in which nothing else runs.
-/

set_option autoImplicit false

namespace ReadCommitted

variable {State Key Edit Call Reply Error Note : Type}
  {D : Database State Key Edit Call Reply Error} {α β γ : Type}

/-- The same database, for programs that leave notes with their caller. -/
def Database.noting (D : Database State Key Edit Call Reply Error) (Note : Type) :
    Database State Key Edit (Call ⊕ Note) Reply Error where
  apply := D.apply
  footprint := D.footprint
  present := D.present

namespace Program

/-! ### Programs with notes -/

/-- A program that leaves no notes. -/
def lift (Note : Type) : Program D α → Program (D.noting Note) α
  | ret a => ret a
  | raise e => raise e
  | select next => select fun s => (next s).lift Note
  | selectForUpdate k next => selectForUpdate k fun s => (next s).lift Note
  | write edit next => write edit fun e => (next e).lift Note
  | request c next => request (.inl c) fun r => (next r).lift Note

theorem lift_bind (p : Program D α) (f : α → Program D β) :
    (p >>= f).lift Note = p.lift Note >>= fun a => (f a).lift Note := by
  induction p with
  | ret a => rfl
  | raise e => rfl
  | select next ih => exact congrArg select (funext ih)
  | selectForUpdate k next ih => exact congrArg (selectForUpdate k) (funext ih)
  | write edit next ih => exact congrArg (write edit) (funext ih)
  | request c next ih => exact congrArg (request (.inl c)) (funext ih)

/-- Leave a note with the caller. -/
def note (n : Note) : Program (D.noting Note) Unit := request (.inr n) fun _ => ret ()

/-- The program without its notes. -/
def erase [Inhabited Reply] : Program (D.noting Note) α → Program D α
  | ret a => ret a
  | raise e => raise e
  | select next => select fun s => (next s).erase
  | selectForUpdate k next => selectForUpdate k fun s => (next s).erase
  | write edit next => write edit fun e => (next e).erase
  | request (.inl c) next => request c fun r => (next r).erase
  | request (.inr _) next => (next default).erase

section Erase

variable [Inhabited Reply]

@[simp] theorem erase_lift (p : Program D α) : (p.lift Note).erase = p := by
  induction p with
  | ret a => rfl
  | raise e => rfl
  | select next ih => exact congrArg select (funext ih)
  | selectForUpdate k next ih => exact congrArg (selectForUpdate k) (funext ih)
  | write edit next ih => exact congrArg (write edit) (funext ih)
  | request c next ih => exact congrArg (request c) (funext ih)

@[simp] theorem erase_note (n : Note) : (note n : Program (D.noting Note) Unit).erase = ret () :=
  rfl

@[simp] theorem erase_bind (p : Program (D.noting Note) α) (f : α → Program (D.noting Note) β) :
    (p >>= f).erase = p.erase >>= fun a => (f a).erase := by
  induction p with
  | ret a => rfl
  | raise e => rfl
  | select next ih => exact congrArg select (funext ih)
  | selectForUpdate k next ih => exact congrArg (selectForUpdate k) (funext ih)
  | write edit next ih => exact congrArg (write edit) (funext ih)
  | request c next ih =>
    cases c with
    | inl c => exact congrArg (request c) (funext ih)
    | inr n => exact ih default

@[simp] theorem erase_forM (xs : List γ) (f : γ → Program (D.noting Note) PUnit) :
    (forM xs f).erase = forM xs fun x => (f x).erase := by
  induction xs with
  | nil => rfl
  | cons x xs ih =>
    rw [List.forM_cons, List.forM_cons, erase_bind, ih]

end Erase

/-- The notes among the calls. -/
def notesOf (cs : List (Call ⊕ Note)) : List Note := cs.filterMap Sum.getRight?

@[simp] theorem notesOf_append (cs cs' : List (Call ⊕ Note)) :
    notesOf (cs ++ cs') = notesOf cs ++ notesOf cs' := List.filterMap_append

/-! ### Attempts -/

/-- In some surroundings the program has come to `q`, after the edits `es` and the calls `cs`. -/
inductive Partway : Program D α → List Edit → List Call → Program D α → Prop
  | here (p : Program D α) : Partway p [] [] p
  | select {next : State → Program D α} {es : List Edit} {cs : List Call} {q : Program D α}
      (s : State) (h : Partway (next s) es cs q) : Partway (.select next) es cs q
  | selectForUpdate {k : Key} {next : State → Program D α} {es : List Edit} {cs : List Call}
      {q : Program D α} (s : State) (h : Partway (next s) es cs q) :
      Partway (.selectForUpdate k next) es cs q
  | write {edit : State → Except Error Edit} {next : Edit → Program D α} {es : List Edit}
      {cs : List Call} {q : Program D α} {e : Edit} (s : State) (he : edit s = .ok e)
      (h : Partway (next e) es cs q) : Partway (.write edit next) (e :: es) cs q
  | request {c : Call} {next : Reply → Program D α} {es : List Edit} {cs : List Call}
      {q : Program D α} (r : Reply) (h : Partway (next r) es cs q) :
      Partway (.request c next) es (c :: cs) q

/-- The database can abort a transaction at a statement or at its commit; where the program
raises an error of its own, or calls somebody else, there is nothing to abort. -/
def abortable : Program D α → Bool
  | ret _ => true
  | raise _ => false
  | select _ => true
  | selectForUpdate _ _ => true
  | write _ _ => true
  | request _ _ => false

/-- Whether the program has ended with a result. -/
def hasEnded : Program D α → Bool
  | ret _ => true
  | _ => false

theorem eq_ret_of_hasEnded {p : Program D α} (h : p.hasEnded = true) : ∃ a, p = ret a := by
  cases p with
  | ret a => exact ⟨a, rfl⟩
  | _ => cases h

theorem hasEnded_bind {p : Program D α} {f : α → Program D β} (hp : p.hasEnded = false) :
    (p >>= f).hasEnded = false := by
  cases p with
  | ret a => cases hp
  | raise e => rfl
  | select next => rfl
  | selectForUpdate k next => rfl
  | write edit next => rfl
  | request c next => rfl

namespace Partway

variable {es : List Edit} {cs : List Call}

/-- An attempt of a composed program is in its first part, or has ended that and is in the
second. -/
theorem bind_cases {p : Program D α} {f : α → Program D β} {q : Program D β}
    (h : Partway (p >>= f) es cs q) :
    (∃ q', Partway p es cs q' ∧ q'.hasEnded = false ∧ q = q' >>= f) ∨
      ∃ a es₁ cs₁ es₂ cs₂, Partway p es₁ cs₁ (ret a) ∧ Partway (f a) es₂ cs₂ q ∧
        es = es₁ ++ es₂ ∧ cs = cs₁ ++ cs₂ := by
  induction p generalizing es cs with
  | ret a => exact .inr ⟨a, [], [], es, cs, .here _, h, rfl, rfl⟩
  | raise e =>
    cases h
    exact .inl ⟨raise e, .here _, rfl, rfl⟩
  | select next ih =>
    cases h with
    | here => exact .inl ⟨.select next, .here _, rfl, rfl⟩
    | select s h =>
      rcases ih s h with ⟨q', h, hq'⟩ | ⟨a, es₁, cs₁, es₂, cs₂, h, hrest⟩
      · exact .inl ⟨q', .select s h, hq'⟩
      · exact .inr ⟨a, es₁, cs₁, es₂, cs₂, .select s h, hrest⟩
  | selectForUpdate k next ih =>
    cases h with
    | here => exact .inl ⟨.selectForUpdate k next, .here _, rfl, rfl⟩
    | selectForUpdate s h =>
      rcases ih s h with ⟨q', h, hq'⟩ | ⟨a, es₁, cs₁, es₂, cs₂, h, hrest⟩
      · exact .inl ⟨q', .selectForUpdate s h, hq'⟩
      · exact .inr ⟨a, es₁, cs₁, es₂, cs₂, .selectForUpdate s h, hrest⟩
  | write edit next ih =>
    cases h with
    | here => exact .inl ⟨.write edit next, .here _, rfl, rfl⟩
    | @write _ _ _ _ _ e s he h =>
      rcases ih e h with ⟨q', h, hq'⟩ | ⟨a, es₁, cs₁, es₂, cs₂, hp, hf, rfl, rfl⟩
      · exact .inl ⟨q', .write s he h, hq'⟩
      · exact .inr ⟨a, e :: es₁, cs₁, es₂, cs₂, .write s he hp, hf, rfl, rfl⟩
  | request c next ih =>
    cases h with
    | here => exact .inl ⟨.request c next, .here _, rfl, rfl⟩
    | request r h =>
      rcases ih r h with ⟨q', h, hq'⟩ | ⟨a, es₁, cs₁, es₂, cs₂, hp, hf, rfl, rfl⟩
      · exact .inl ⟨q', .request r h, hq'⟩
      · exact .inr ⟨a, es₁, c :: cs₁, es₂, cs₂, .request r hp, hf, rfl, rfl⟩

/-- An attempt that goes on from where it was. -/
theorem trans {p q r : Program D α} {es es' : List Edit} {cs cs' : List Call}
    (h : Partway p es cs q) (h' : Partway q es' cs' r) : Partway p (es ++ es') (cs ++ cs') r := by
  induction h with
  | here p => exact h'
  | select s _ ih => exact .select s (ih h')
  | selectForUpdate s _ ih => exact .selectForUpdate s (ih h')
  | write s he _ ih => exact .write s he (ih h')
  | request r _ ih => exact .request r (ih h')

/-- An attempt writes only what the program can write. -/
theorem emits {P : Edit → Prop} {p q : Program D α} (h : Partway p es cs q) (hp : p.Emits P) :
    ∀ e ∈ es, P e := by
  induction h with
  | here p => exact fun e he => absurd he List.not_mem_nil
  | select s _ ih => exact ih (hp s)
  | selectForUpdate s _ ih => exact ih (hp s)
  | write s he _ ih =>
    obtain ⟨hfirst, hrest⟩ := hp s _ he
    exact List.forall_mem_cons.mpr ⟨hfirst, ih hrest⟩
  | request r _ ih => exact ih (hp r)

/-- A program that leaves no notes is where it would be without the caller. -/
theorem lift {p : Program D α} {es : List Edit} {cs : List (Call ⊕ Note)}
    {q : Program (D.noting Note) α} (h : Partway (p.lift Note) es cs q) :
    notesOf cs = [] ∧ ∃ cs' q', Partway p es cs' q' ∧ q = q'.lift Note := by
  induction p generalizing es cs with
  | ret a =>
    cases h
    exact ⟨rfl, [], ret a, .here _, rfl⟩
  | raise e =>
    cases h
    exact ⟨rfl, [], raise e, .here _, rfl⟩
  | select next ih =>
    cases h with
    | here => exact ⟨rfl, [], .select next, .here _, rfl⟩
    | select s h =>
      obtain ⟨hnotes, cs', q', hp, rfl⟩ := ih s h
      exact ⟨hnotes, cs', q', .select s hp, rfl⟩
  | selectForUpdate k next ih =>
    cases h with
    | here => exact ⟨rfl, [], .selectForUpdate k next, .here _, rfl⟩
    | selectForUpdate s h =>
      obtain ⟨hnotes, cs', q', hp, rfl⟩ := ih s h
      exact ⟨hnotes, cs', q', .selectForUpdate s hp, rfl⟩
  | write edit next ih =>
    cases h with
    | here => exact ⟨rfl, [], .write edit next, .here _, rfl⟩
    | @write _ _ _ _ _ e s he h =>
      obtain ⟨hnotes, cs', q', hp, rfl⟩ := ih e h
      exact ⟨hnotes, cs', q', .write s he hp, rfl⟩
  | request c next ih =>
    cases h with
    | here => exact ⟨rfl, [], .request c next, .here _, rfl⟩
    | request r h =>
      obtain ⟨hnotes, cs', q', hp, rfl⟩ := ih r h
      exact ⟨hnotes, c :: cs', q', .request r hp, rfl⟩

end Partway

@[simp] theorem hasEnded_lift (p : Program D α) : (p.lift Note).hasEnded = p.hasEnded := by
  cases p <;> rfl

/-! ### Attempts that come to the end -/

/-- After the edits `es` and the calls `cs`, every attempt that comes to the end does so with
edits, calls and a result in `Q`. -/
def Ends (Q : List Edit → List Call → α → Prop) : Program D α → List Edit → List Call → Prop
  | ret a, es, cs => Q es cs a
  | raise _, _, _ => True
  | select next, es, cs => ∀ s, (next s).Ends Q es cs
  | selectForUpdate _ next, es, cs => ∀ s, (next s).Ends Q es cs
  | write edit next, es, cs => ∀ s e, edit s = .ok e → (next e).Ends Q (es ++ [e]) cs
  | request c next, es, cs => ∀ r, (next r).Ends Q es (cs ++ [c])

section Ends

variable {Q : List Edit → List Call → β → Prop} {es : List Edit} {cs : List Call}

theorem Partway.ends {Q : List Edit → List Call → α → Prop} {p q : Program D α} {a : α}
    {es' : List Edit} {cs' : List Call} (h : Partway p es' cs' q) (hq : q = ret a)
    (hp : p.Ends Q es cs) : Q (es ++ es') (cs ++ cs') a := by
  induction h generalizing es cs with
  | here p =>
    subst hq
    simpa [Ends] using hp
  | select s _ ih => exact ih hq (hp s)
  | selectForUpdate s _ ih => exact ih hq (hp s)
  | write s he _ ih => simpa using ih hq (hp s _ he)
  | request r _ ih => simpa using ih hq (hp r)

theorem ends_bind {p : Program D α} {f : α → Program D β} :
    (p >>= f).Ends Q es cs ↔ p.Ends (fun es cs a => (f a).Ends Q es cs) es cs := by
  induction p generalizing es cs with
  | ret a => exact Iff.rfl
  | raise e => exact Iff.rfl
  | select next ih => exact forall_congr' fun s => ih s
  | selectForUpdate k next ih => exact forall_congr' fun s => ih s
  | write edit next ih =>
    exact forall_congr' fun s => forall_congr' fun e => forall_congr' fun _ => ih e
  | request c next ih => exact forall_congr' fun r => ih r

theorem Ends.mono {Q Q' : List Edit → List Call → α → Prop} {p : Program D α}
    (h : p.Ends Q es cs) (hQ : ∀ es cs a, Q es cs a → Q' es cs a) : p.Ends Q' es cs := by
  induction p generalizing es cs with
  | ret a => exact hQ es cs a h
  | raise e => trivial
  | select next ih => exact fun s => ih s (h s)
  | selectForUpdate k next ih => exact fun s => ih s (h s)
  | write edit next ih => exact fun s e he => ih e (h s e he)
  | request c next ih => exact fun r => ih r (h r)

theorem Ends.bind {H : List Edit → List Call → α → Prop} {p : Program D α}
    {f : α → Program D β} (hp : p.Ends H es cs)
    (hf : ∀ es cs a, H es cs a → (f a).Ends Q es cs) : (p >>= f).Ends Q es cs :=
  ends_bind.mpr (hp.mono hf)

theorem ends_query_bind {q : State → α} {f : α → Program D β}
    (h : ∀ a, (f a).Ends Q es cs) : (query q >>= f).Ends Q es cs := fun s => h (q s)

theorem ends_lockRow_bind {k : Key} {f : Unit → Program D β} (h : (f ()).Ends Q es cs) :
    (lockRow k >>= f).Ends Q es cs := fun _ => h

theorem ends_require_bind {P : Prop} [Decidable P] {e : Error} {f : Unit → Program D β}
    (h : P → (f ()).Ends Q es cs) : (require P e >>= f).Ends Q es cs := by
  by_cases hP : P
  · simpa [require, hP] using h hP
  · simp [require, hP, Ends]

theorem ends_orRaise_bind {x : Option α} {e : Error} {f : α → Program D β}
    (h : ∀ a, x = some a → (f a).Ends Q es cs) : (orRaise x e >>= f).Ends Q es cs := by
  cases x with
  | none => trivial
  | some a => exact h a rfl

theorem ends_perform_bind {edit : State → Except Error Edit} {f : Unit → Program D β}
    (h : ∀ s e, edit s = .ok e → (f ()).Ends Q (es ++ [e]) cs) :
    (perform edit >>= f).Ends Q es cs := h

end Ends

/-! ### Attempts in a run -/

/-- The session is an attempt of the program, and if it has committed, one that has come to
the end. -/
def IsAttempt (p : Program D α) : Session D α → Prop
  | .running q t => Partway p t.edits (t.calls.map Prod.fst) q
  | .committed a t => Partway p t.edits (t.calls.map Prod.fst) (ret a)
  | .aborted _ => True

/-- Whatever the sessions of a run have done, they have done as attempts of their programs. -/
theorem isAttempt_of_reaches [DecidableEq Key] {R : Discipline D} {s : State}
    {ps : List (Program D α)} {c : Config D α} (h : Reaches R (.start s ps) c) {i : ℕ}
    {x : Session D α} (hi : c.sessions[i]? = some x) : ∃ p, ps[i]? = some p ∧ p.IsAttempt x := by
  revert i x
  refine h.induction (P := fun c => ∀ {i : ℕ} {x : Session D α}, c.sessions[i]? = some x →
    ∃ p, ps[i]? = some p ∧ p.IsAttempt x) ?_ ?_
  · intro i x hi
    simp only [Config.start, List.getElem?_map, Option.map_eq_some_iff] at hi
    obtain ⟨p, hp, rfl⟩ := hi
    exact ⟨p, hp, .here p⟩
  intro c c' hc hm i x hx
  -- the session of the step goes on, and the others stay where they are
  have hgoes {j : ℕ} {y y' : Session D α} (hy : c.sessions[j]? = some y)
      (hx : (c.sessions.set j y')[i]? = some x)
      (hon : ∀ p : Program D α, p.IsAttempt y → p.IsAttempt y') :
      ∃ p, ps[i]? = some p ∧ p.IsAttempt x := by
    rcases getElem?_setSession hx with ⟨rfl, rfl⟩ | ⟨-, hx⟩
    · obtain ⟨p, hp, hattempt⟩ := hc hy
      exact ⟨p, hp, hon p hattempt⟩
    · exact hc hx
  cases hm with
  | commit hj _ _ => exact hgoes hj hx fun _ hp => hp
  | abort hj _ => exact hgoes hj hx fun _ _ => trivial
  | select hj =>
    refine hgoes hj hx fun p hp => ?_
    simpa [IsAttempt] using hp.trans (.select _ (.here _))
  | lock hj _ _ =>
    refine hgoes hj hx fun p hp => ?_
    simpa [IsAttempt] using hp.trans (.selectForUpdate _ (.here _))
  | miss hj _ =>
    refine hgoes hj hx fun p hp => ?_
    simpa [IsAttempt] using hp.trans (.selectForUpdate _ (.here _))
  | write hj hedit _ _ =>
    refine hgoes hj hx fun p hp => ?_
    simpa [IsAttempt] using hp.trans (.write _ hedit (.here _))
  | reply r hj =>
    refine hgoes hj hx fun p hp => ?_
    simpa [IsAttempt] using hp.trans (.request r (.here _))

/-! ### Attempts alone -/

/-- The first `n` steps of the program when nothing else runs: what it wrote, what it called,
and where it is. -/
def walk (answer : Call → Reply) :
    ℕ → Program D α → State → List Edit × List Call × Program D α
  | 0, p, _ => ([], [], p)
  | _ + 1, ret a, _ => ([], [], ret a)
  | _ + 1, raise e, _ => ([], [], raise e)
  | n + 1, select next, s => walk answer n (next s) s
  | n + 1, selectForUpdate _ next, s => walk answer n (next s) s
  | n + 1, write edit next, s =>
    match edit s with
    | .error _ => ([], [], write edit next)
    | .ok e =>
      let (es, cs, q) := walk answer n (next e) (D.apply s e)
      (e :: es, cs, q)
  | n + 1, request c next, s =>
    let (es, cs, q) := walk answer n (next (answer c)) s
    (es, c :: cs, q)

theorem partway_walk (answer : Call → Reply) (n : ℕ) (p : Program D α) (s : State) :
    Partway p (walk answer n p s).1 (walk answer n p s).2.1 (walk answer n p s).2.2 := by
  induction n generalizing p s with
  | zero => exact .here p
  | succ n ih =>
    cases p with
    | ret a => exact .here _
    | raise e => exact .here _
    | select next => exact .select s (ih _ s)
    | selectForUpdate k next => exact .selectForUpdate s (ih _ s)
    | request c next => exact .request _ (ih _ s)
    | write edit next =>
      unfold walk
      split
      · exact .here _
      next e he => exact .write s he (ih _ _)

end Program

end ReadCommitted
