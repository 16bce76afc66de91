import PulseOps.ReadCommitted.Schedule

/-!
# The statements of a session

What a session can be doing in the middle of a run: the statements its program issues,
with the edits its transaction has made before each of them. Nothing is said here about the
committed state, so these facts hold under any interference. They answer which statement a
transaction was stopped by.

Sessions may also arrive while the others run.

## Main definitions

* `Advances` — one statement of one session.
* `Program.Issues` — what holds of every writing statement of a program, and at its end.
* `Config.Stops` — the next statement of a session fails.
* `Config.spawn` — a session arrives.

## Main results

* `Moves.running` — a session that runs has advanced by one statement, or not at all.
* `Moves.committed_eq` — the committed state moves by commits only.
* `Program.Issues.advances` — what a program issues, the rest of it issues too.
-/

set_option autoImplicit false

namespace ReadCommitted

variable {State Key Edit Call Reply Error : Type}
  {D : Database State Key Edit Call Reply Error} {α β : Type}

/-! ### One statement of one session -/

/-- One statement of a session: what is left of the program, and its transaction. -/
inductive Advances (s : State) :
    Program D α → Transaction D → Program D α → Transaction D → Prop
  | select {next : State → Program D α} {t : Transaction D} :
      Advances s (.select next) t (next (t.view s)) t
  | lock {k : Key} {next : State → Program D α} {t : Transaction D} :
      Advances s (.selectForUpdate k next) t (next (t.view s)) (t.lock k)
  | miss {k : Key} {next : State → Program D α} {t : Transaction D} :
      Advances s (.selectForUpdate k next) t (next (t.view s)) t
  | write {edit : State → Except Error Edit} {next : Edit → Program D α} {t : Transaction D}
      {e : Edit} (hedit : edit (t.view s) = .ok e) :
      Advances s (.write edit next) t (next e) (t.write e)
  | reply {q : Call} {next : Reply → Program D α} {t : Transaction D} (r : Reply) :
      Advances s (.request q next) t (next r) (t.reply q r)

section Moves

variable {R : Discipline D} {c c' : Config D α} {i j : ℕ} {p p' : Program D α}
  {t t' : Transaction D}

private theorem running_of_set {x : Session D α}
    (hj : (c.sessions.set i x)[j]? = some (.running p' t'))
    (hx : ∀ p' t', x = .running p' t' →
      ∃ p t, c.sessions[i]? = some (.running p t) ∧ Advances c.committed p t p' t') :
    c.sessions[j]? = some (.running p' t') ∨
      ∃ p t, c.sessions[j]? = some (.running p t) ∧ Advances c.committed p t p' t' := by
  rcases getElem?_setSession hj with ⟨rfl, h⟩ | ⟨-, h⟩
  · exact .inr (hx p' t' h.symm)
  · exact .inl h

variable [DecidableEq Key]

/-- A session that runs after a step was there before, or it has advanced by a statement. -/
theorem Moves.running (hm : Moves R c c') (hj : c'.sessions[j]? = some (.running p' t')) :
    c.sessions[j]? = some (.running p' t') ∨
      ∃ p t, c.sessions[j]? = some (.running p t) ∧ Advances c.committed p t p' t' := by
  cases hm with
  | commit hi _ => exact running_of_set hj fun _ _ h => nomatch h
  | abort hi _ => exact running_of_set hj fun _ _ h => nomatch h
  | select hi =>
    refine running_of_set hj fun _ _ h => ?_
    cases h
    exact ⟨_, _, hi, .select⟩
  | lock hi _ _ =>
    refine running_of_set hj fun _ _ h => ?_
    cases h
    exact ⟨_, _, hi, .lock⟩
  | miss hi _ =>
    refine running_of_set hj fun _ _ h => ?_
    cases h
    exact ⟨_, _, hi, .miss⟩
  | write hi hedit _ _ =>
    refine running_of_set hj fun _ _ h => ?_
    cases h
    exact ⟨_, _, hi, .write hedit⟩
  | reply r hi =>
    refine running_of_set hj fun _ _ h => ?_
    cases h
    exact ⟨_, _, hi, .reply r⟩

/-- The committed state stays, or a transaction commits. -/
theorem Moves.committed_eq (hm : Moves R c c') : c'.committed = c.committed ∨
    ∃ i a t, c.sessions[i]? = some (.running (.ret a) t) ∧
      c'.committed = t.view c.committed ∧ c'.sessions = c.sessions.set i (.committed a t) := by
  cases hm with
  | commit hi _ => exact .inr ⟨_, _, _, hi, rfl, rfl⟩
  | _ => exact .inl rfl

/-- A transaction that has committed stays so. -/
theorem Moves.committed_session {a : α} (hm : Moves R c c')
    (hj : c.sessions[j]? = some (.committed a t)) : c'.sessions[j]? = some (.committed a t) := by
  have hset {i : ℕ} {x y : Session D α} (hi : c.sessions[i]? = some y)
      (hy : y ≠ .committed a t) : (c.sessions.set i x)[j]? = some (.committed a t) := by
    have hij : i ≠ j := by
      rintro rfl
      exact hy (Option.some.inj (hi.symm.trans hj))
    rw [List.getElem?_set_ne hij, hj]
  cases hm with
  | commit hi _ => exact hset hi (by simp)
  | abort hi _ => exact hset hi (by simp)
  | select hi => exact hset hi (by simp)
  | lock hi _ _ => exact hset hi (by simp)
  | miss hi _ => exact hset hi (by simp)
  | write hi _ _ _ => exact hset hi (by simp)
  | reply r hi => exact hset hi (by simp)

theorem Moves.length_sessions (hm : Moves R c c') : c'.sessions.length = c.sessions.length := by
  cases hm <;> exact List.length_set

end Moves

/-! ### The statements a program issues -/

namespace Program

variable {F : List Edit → (State → Except Error Edit) → Prop} {G H : List Edit → Prop}

/-- Every writing statement that the program issues satisfies `F`, together with the edits
made before it; the edits made in the end satisfy `G`. -/
def Issues (F : List Edit → (State → Except Error Edit) → Prop) (G : List Edit → Prop) :
    Program D α → List Edit → Prop
  | ret _, es => G es
  | raise _, _ => True
  | select next, es => ∀ s, (next s).Issues F G es
  | selectForUpdate _ next, es => ∀ s, (next s).Issues F G es
  | write edit next, es =>
    F es edit ∧ ∀ s e, edit s = .ok e → (next e).Issues F G (es ++ [e])
  | request _ next, es => ∀ r, (next r).Issues F G es

theorem Issues.bind {p : Program D α} {f : α → Program D β} {es : List Edit}
    (hp : p.Issues F H es) (hf : ∀ a es, H es → (f a).Issues F G es) :
    (p >>= f).Issues F G es := by
  induction p generalizing es with
  | ret a => exact hf a es hp
  | raise e => trivial
  | select next ih => exact fun s => ih s (hp s)
  | selectForUpdate k next ih => exact fun s => ih s (hp s)
  | write edit next ih => exact ⟨hp.1, fun s e he => ih e (hp.2 s e he)⟩
  | request q next ih => exact fun r => ih r (hp r)

theorem issues_query_bind {q : State → α} {f : α → Program D β} {es : List Edit}
    (hf : ∀ s, (f (q s)).Issues F G es) : (query q >>= f).Issues F G es := hf

theorem issues_lockRow_bind {k : Key} {f : Unit → Program D β} {es : List Edit}
    (hf : (f ()).Issues F G es) : (lockRow k >>= f).Issues F G es := fun _ => hf

theorem issues_perform {edit : State → Except Error Edit} {es : List Edit} (hF : F es edit)
    (hG : ∀ s e, edit s = .ok e → G (es ++ [e])) :
    (perform edit : Program D Unit).Issues F G es := ⟨hF, hG⟩

/-- What a program issues, the rest of it issues too. -/
theorem Issues.advances {p p' : Program D α} {t t' : Transaction D} {s : State}
    (h : p.Issues F G t.edits) (ha : Advances s p t p' t') : p'.Issues F G t'.edits := by
  cases ha with
  | select => exact h _
  | lock => exact h _
  | miss => exact h _
  | write hedit => exact h.2 _ _ hedit
  | reply r => exact h r

end Program

namespace Config

/-- The next statement of the session `i` fails with `e`. -/
def Stops (c : Config D α) (i : ℕ) (e : Error) : Prop :=
  ∃ edit next t, c.sessions[i]? = some (.running (.write edit next) t) ∧
    edit (t.view c.committed) = .error e

/-- A session arrives. -/
def spawn (c : Config D α) (p : Program D α) : Config D α :=
  { c with sessions := c.sessions ++ [.running p {}] }

@[simp] theorem committed_spawn (c : Config D α) (p : Program D α) :
    (c.spawn p).committed = c.committed := rfl

/-- The sessions after one has arrived. -/
theorem getElem?_spawn {c : Config D α} {p : Program D α} {j : ℕ} {x : Session D α}
    (h : (c.spawn p).sessions[j]? = some x) :
    c.sessions[j]? = some x ∨ j = c.sessions.length ∧ x = .running p {} := by
  unfold spawn at h
  rcases Nat.lt_or_ge j c.sessions.length with hlt | hge
  · rw [List.getElem?_append_left hlt] at h
    exact .inl h
  · rw [List.getElem?_append_right hge, List.getElem?_singleton] at h
    split_ifs at h with hj
    exact .inr ⟨by omega, (Option.some.inj h).symm⟩

theorem getElem?_spawn_of_some {c : Config D α} {p : Program D α} {j : ℕ} {x : Session D α}
    (h : c.sessions[j]? = some x) : (c.spawn p).sessions[j]? = some x := by
  have hlt : j < c.sessions.length := (List.getElem?_eq_some_iff.mp h).1
  unfold spawn
  rw [List.getElem?_append_left hlt, h]

end Config

end ReadCommitted
