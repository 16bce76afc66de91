import Mathlib.Algebra.BigOperators.Group.List.Basic
import PulseOps.ReadCommitted.Program

/-!
# Interleaved transactions under Read Committed

Several programs run at once on one database, one statement at a time, in any order.
Every statement sees the committed state with its own transaction's edits on top. A
row lock is held to the end of the transaction, and so is the lock an edit takes on
what it writes; a statement that needs a lock held by another session waits. A commit
publishes the edits, and a rollback drops them.

A row that does not exist cannot be locked: `SELECT … FOR UPDATE` then takes nothing
and does not wait.

## Main definitions

* `Transaction`, `Session`, `Config` — one transaction, one client, the whole system.
* `Discipline` — a condition on the steps of a run.
* `Config.endedTotal` — a sum over the transactions that have ended.
* `Config.committedTotal` — a sum over those that have committed.
* `Config.step` — the executable transition function.
* `Reaches` — the configurations of all the runs that keep a discipline.

## Main results

* `moves_of_step` — everything one step can do.
* `Reaches.locksDisjoint` — no key is held by two sessions.
* `Reaches.committed_eq` — the committed state is the replay of the commit log.
* `Reaches.exists_history` — it is the newest of the history.
* `Reaches.committed_mem_history`, `Reaches.exists_of_mem_history` — what is in the history.
-/

set_option autoImplicit false

namespace ReadCommitted

variable {State Key Edit Call Reply Error : Type}
  {D : Database State Key Edit Call Reply Error} {α : Type}

/-- What a transaction holds, what it wrote and what it asked the outside world. -/
structure Transaction (D : Database State Key Edit Call Reply Error) where
  held : List Key := []
  edits : List Edit := []
  calls : List (Call × Reply) := []

namespace Transaction

/-- The state a statement of the transaction sees over the committed state `s`. -/
def view (t : Transaction D) (s : State) : State := D.replay t.edits s

/-- After locking the row `k`. -/
def lock (t : Transaction D) (k : Key) : Transaction D := { t with held := k :: t.held }

/-- After the edit `e`, which also takes the locks on what it writes. -/
def write (t : Transaction D) (e : Edit) : Transaction D :=
  { t with held := D.footprint e ++ t.held, edits := t.edits ++ [e] }

/-- After the reply `r` to the call `q`. -/
def reply (t : Transaction D) (q : Call) (r : Reply) : Transaction D :=
  { t with calls := t.calls ++ [(q, r)] }

@[simp] theorem view_empty (s : State) : view ({} : Transaction D) s = s := rfl

@[simp] theorem view_lock (t : Transaction D) (k : Key) (s : State) :
    (t.lock k).view s = t.view s := rfl

@[simp] theorem view_reply (t : Transaction D) (q : Call) (r : Reply) (s : State) :
    (t.reply q r).view s = t.view s := rfl

@[simp] theorem view_write (t : Transaction D) (e : Edit) (s : State) :
    (t.write e).view s = D.apply (t.view s) e := by
  simp [view, write]

@[simp] theorem held_lock (t : Transaction D) (k : Key) :
    (t.lock k).held = k :: t.held := rfl

@[simp] theorem held_write (t : Transaction D) (e : Edit) :
    (t.write e).held = D.footprint e ++ t.held := rfl

@[simp] theorem held_reply (t : Transaction D) (q : Call) (r : Reply) :
    (t.reply q r).held = t.held := rfl

@[simp] theorem edits_lock (t : Transaction D) (k : Key) :
    (t.lock k).edits = t.edits := rfl

@[simp] theorem edits_write (t : Transaction D) (e : Edit) :
    (t.write e).edits = t.edits ++ [e] := rfl

@[simp] theorem edits_reply (t : Transaction D) (q : Call) (r : Reply) :
    (t.reply q r).edits = t.edits := rfl

@[simp] theorem calls_lock (t : Transaction D) (k : Key) :
    (t.lock k).calls = t.calls := rfl

@[simp] theorem calls_write (t : Transaction D) (e : Edit) :
    (t.write e).calls = t.calls := rfl

@[simp] theorem calls_reply (t : Transaction D) (q : Call) (r : Reply) :
    (t.reply q r).calls = t.calls ++ [(q, r)] := rfl

end Transaction

/-- One client: its transaction runs, has committed with a result, or was rolled back. -/
inductive Session (D : Database State Key Edit Call Reply Error) (α : Type) where
  | running (p : Program D α) (t : Transaction D)
  | committed (a : α) (t : Transaction D)
  | aborted (t : Transaction D)

namespace Session

/-- The transaction of a session. -/
def transaction : Session D α → Transaction D
  | running _ t => t
  | committed _ t => t
  | aborted t => t

/-- The locks a session holds: none once its transaction has ended. -/
def held : Session D α → List Key
  | running _ t => t.held
  | committed _ _ => []
  | aborted _ => []

/-- Whether the transaction of the session has ended. -/
def ended : Session D α → Bool
  | running _ _ => false
  | committed _ _ => true
  | aborted _ => true

end Session

/-- One commit: the session, what it wrote and the state it left. -/
structure Commit (D : Database State Key Edit Call Reply Error) where
  session : ℕ
  edits : List Edit
  after : State

/-- The committed state, the sessions and the commits so far, newest first. -/
structure Config (D : Database State Key Edit Call Reply Error) (α : Type) where
  committed : State
  sessions : List (Session D α)
  log : List (Commit D)

/-- A scheduler's choice: let a session run its next statement, let the outside world
reply to it, or roll it back (a lost connection, a timeout, a deadlock victim). -/
inductive Action (D : Database State Key Edit Call Reply Error) where
  | advance (i : ℕ)
  | reply (i : ℕ) (r : Reply)
  | rollback (i : ℕ)

/-- A condition on the steps of a run. `write` and `commit` see the committed state and
the transaction before the step; `alone` lists keys that nobody else may hold when the
transaction commits. -/
structure Discipline (D : Database State Key Edit Call Reply Error) where
  write : State → Transaction D → Edit → Bool := fun _ _ _ => true
  commit : State → Transaction D → Bool := fun _ _ => true
  rollback : Transaction D → Bool := fun _ => true
  alone : Transaction D → List Key := fun _ => []

/-- No condition at all. -/
def Discipline.free (D : Database State Key Edit Call Reply Error) : Discipline D := {}

namespace Config

/-- The system before any statement has run. -/
def start (s : State) (ps : List (Program D α)) : Config D α :=
  ⟨s, ps.map fun p => .running p {}, []⟩

/-- The committed states so far, newest first. -/
def history (s : State) (c : Config D α) : List State :=
  c.log.map Commit.after ++ [s]

/-- No transaction is open. -/
def Quiescent (c : Config D α) : Prop := ∀ x ∈ c.sessions, x.ended = true

instance (c : Config D α) : Decidable c.Quiescent :=
  inferInstanceAs (Decidable (∀ x ∈ c.sessions, x.ended = true))

/-- Replace the session `i`. -/
def setSession (c : Config D α) (i : ℕ) (x : Session D α) : Config D α :=
  { c with sessions := c.sessions.set i x }

/-- Commit the transaction `t` of the session `i`. -/
def commit (c : Config D α) (i : ℕ) (a : α) (t : Transaction D) : Config D α where
  committed := t.view c.committed
  sessions := c.sessions.set i (.committed a t)
  log := ⟨i, t.edits, t.view c.committed⟩ :: c.log

/-- What the commits so far wrote, oldest first. -/
def committedEdits (c : Config D α) : List Edit :=
  c.log.reverse.flatMap Commit.edits

end Config

@[simp] theorem Config.committedEdits_commit (c : Config D α) (i : ℕ) (a : α)
    (t : Transaction D) :
    (c.commit i a t).committedEdits = c.committedEdits ++ t.edits := by
  simp [committedEdits, commit]

@[simp] theorem Config.committedEdits_setSession (c : Config D α) (i : ℕ)
    (x : Session D α) : (c.setSession i x).committedEdits = c.committedEdits := rfl

/-- The session found at `j` after the session `i` was replaced. -/
theorem getElem?_setSession {xs : List (Session D α)} {i j : ℕ} {x y : Session D α}
    (h : (xs.set i x)[j]? = some y) : (j = i ∧ y = x) ∨ (j ≠ i ∧ xs[j]? = some y) := by
  by_cases hji : j = i
  · subst hji
    rw [List.getElem?_set] at h
    split at h <;> simp_all
  · exact .inr ⟨hji, by rwa [List.getElem?_set_ne (Ne.symm hji)] at h⟩

/-! ### Sums over transactions that have ended -/

section EndedTotal

variable {M : Type} [AddCommGroup M] {c : Config D α} {i : ℕ} {p : Program D α}
  {t : Transaction D}

/-- What a session counts for `f`: nothing while it runs. -/
def Session.endedValue (f : Transaction D → M) : Session D α → M
  | .running _ _ => 0
  | .committed _ t => f t
  | .aborted t => f t

/-- The sum of `f` over the transactions that have committed or were rolled back. -/
def Config.endedTotal (f : Transaction D → M) (c : Config D α) : M :=
  (c.sessions.map (Session.endedValue f)).sum

theorem Config.endedTotal_start (f : Transaction D → M) (s : State) (ps : List (Program D α)) :
    (Config.start s ps).endedTotal f = 0 := by
  apply List.sum_eq_zero
  intro x hx
  simp only [start, List.map_map, List.mem_map] at hx
  obtain ⟨p, -, rfl⟩ := hx
  rfl

private theorem sum_set_running (f : Transaction D → M) {xs : List (Session D α)}
    (hi : xs[i]? = some (.running p t)) (x : Session D α) :
    ((xs.set i x).map (Session.endedValue f)).sum =
      (xs.map (Session.endedValue f)).sum + x.endedValue f := by
  obtain ⟨hlt, hget⟩ := List.getElem?_eq_some_iff.mp hi
  rw [List.map_set, List.sum_set']
  simp [hlt, hget, Session.endedValue]

theorem Config.endedTotal_commit (f : Transaction D → M) {a : α}
    (hi : c.sessions[i]? = some (.running (.ret a) t)) :
    (c.commit i a t).endedTotal f = c.endedTotal f + f t :=
  sum_set_running f hi _

theorem Config.endedTotal_abort (f : Transaction D → M)
    (hi : c.sessions[i]? = some (.running p t)) :
    (c.setSession i (.aborted t)).endedTotal f = c.endedTotal f + f t :=
  sum_set_running f hi _

theorem Config.endedTotal_run (f : Transaction D → M) {p' : Program D α} {t' : Transaction D}
    (hi : c.sessions[i]? = some (.running p t)) :
    (c.setSession i (.running p' t')).endedTotal f = c.endedTotal f :=
  (sum_set_running f hi _).trans (add_zero _)

/-- What the session `i` counts for `f`: something only once it has committed. -/
def Session.committedValue (f : Transaction D → M) : Session D α → M
  | .running _ _ => 0
  | .committed _ t => f t
  | .aborted _ => 0

/-- The sum of `f` over the transactions that have committed, each with the place of its
session. -/
def Config.committedTotal (f : ℕ → Transaction D → M) (c : Config D α) : M :=
  (c.sessions.mapIdx fun i x => x.committedValue (f i)).sum

theorem Config.committedTotal_start (f : ℕ → Transaction D → M) (s : State)
    (ps : List (Program D α)) : (Config.start s ps).committedTotal f = 0 := by
  apply List.sum_eq_zero
  intro x hx
  obtain ⟨i, hi, rfl⟩ := List.mem_mapIdx.mp hx
  simp only [start, List.getElem_map]
  rfl

private theorem sum_mapIdx_set (f : ℕ → Transaction D → M) {xs : List (Session D α)}
    (hi : xs[i]? = some (.running p t)) (x : Session D α) :
    ((xs.set i x).mapIdx fun j y => y.committedValue (f j)).sum =
      (xs.mapIdx fun j y => y.committedValue (f j)).sum + x.committedValue (f i) := by
  obtain ⟨hlt, hget⟩ := List.getElem?_eq_some_iff.mp hi
  rw [List.mapIdx_set, List.sum_set']
  simp [hlt, hget, Session.committedValue]

theorem Config.committedTotal_commit (f : ℕ → Transaction D → M) {a : α}
    (hi : c.sessions[i]? = some (.running (.ret a) t)) :
    (c.commit i a t).committedTotal f = c.committedTotal f + f i t :=
  sum_mapIdx_set f hi _

theorem Config.committedTotal_abort (f : ℕ → Transaction D → M)
    (hi : c.sessions[i]? = some (.running p t)) :
    (c.setSession i (.aborted t)).committedTotal f = c.committedTotal f :=
  (sum_mapIdx_set f hi _).trans (add_zero _)

theorem Config.committedTotal_run (f : ℕ → Transaction D → M) {p' : Program D α}
    {t' : Transaction D} (hi : c.sessions[i]? = some (.running p t)) :
    (c.setSession i (.running p' t')).committedTotal f = c.committedTotal f :=
  (sum_mapIdx_set f hi _).trans (add_zero _)

end EndedTotal

/-! ### Disjoint locks -/

/-- No key is held by two sessions. -/
def LocksDisjoint (c : Config D α) : Prop :=
  ∀ (i j : ℕ) (x y : Session D α), c.sessions[i]? = some x → c.sessions[j]? = some y →
    i ≠ j → ∀ k ∈ x.held, k ∉ y.held

theorem locksDisjoint_start (s : State) (ps : List (Program D α)) :
    LocksDisjoint (Config.start s ps) := by
  intro i j x y hx _ _ k hk
  obtain ⟨p, -, rfl⟩ : ∃ p ∈ ps, .running p {} = x := by
    simpa [Config.start] using List.mem_of_getElem? hx
  simp [Session.held] at hk

private theorem locksDisjoint_set {c : Config D α} {i : ℕ} {x : Session D α}
    (hc : LocksDisjoint c)
    (hx : ∀ (j : ℕ) (y : Session D α), c.sessions[j]? = some y → j ≠ i →
      ∀ k ∈ x.held, k ∉ y.held) {c' : Config D α}
    (hc' : c'.sessions = c.sessions.set i x) : LocksDisjoint c' := by
  intro j l y z hy hz hjl k hky
  rw [hc'] at hy hz
  rcases getElem?_setSession hy with ⟨rfl, rfl⟩ | ⟨hj, hy'⟩
  · rcases getElem?_setSession hz with ⟨rfl, rfl⟩ | ⟨hl, hz'⟩
    · exact absurd rfl hjl
    · exact hx l z hz' hl k hky
  · rcases getElem?_setSession hz with ⟨rfl, rfl⟩ | ⟨hl, hz'⟩
    · exact fun hkz => hx j y hy' hj k hkz hky
    · exact hc j l y z hy' hz' hjl k hky

private theorem locksDisjoint_of_held_subset {c c' : Config D α} {i : ℕ}
    {x y : Session D α} (hc : LocksDisjoint c) (hi : c.sessions[i]? = some x)
    (hc' : c'.sessions = c.sessions.set i y) (hsub : y.held ⊆ x.held) :
    LocksDisjoint c' :=
  locksDisjoint_set hc
    (fun j z hz hji k hk => hc i j x z hi hz (Ne.symm hji) k (hsub hk)) hc'

variable [DecidableEq Key]

namespace Config

/-- Whether a session other than `i` holds `k`. -/
def heldElsewhere (c : Config D α) (i : ℕ) (k : Key) : Bool :=
  c.sessions.zipIdx.any fun (x, j) => j != i && x.held.contains k

/-- The next statement of the session `i`, or nothing while it has to wait. -/
def advance (R : Discipline D) (c : Config D α) (i : ℕ) :
    Program D α → Transaction D → Option (Config D α)
  | .ret a, t =>
    if (R.alone t).any (c.heldElsewhere i) then none
    else if R.commit c.committed t then some (c.commit i a t)
    else none
  | .raise _, t => if R.rollback t then some (c.setSession i (.aborted t)) else none
  | .select next, t => some (c.setSession i (.running (next (t.view c.committed)) t))
  | .selectForUpdate k next, t =>
    if D.present (t.view c.committed) k then
      if c.heldElsewhere i k then none
      else some (c.setSession i (.running (next (t.view c.committed)) (t.lock k)))
    else some (c.setSession i (.running (next (t.view c.committed)) t))
  | .write edit next, t =>
    match edit (t.view c.committed) with
    | .error _ => if R.rollback t then some (c.setSession i (.aborted t)) else none
    | .ok e =>
      if (D.footprint e).any (c.heldElsewhere i) then none
      else if R.write c.committed t e then
        some (c.setSession i (.running (next e) (t.write e)))
      else none
  | .request _ _, _ => none

/-- One step of the system, if the discipline allows it. -/
def step (R : Discipline D) (c : Config D α) : Action D → Option (Config D α)
  | .advance i =>
    match c.sessions[i]? with
    | some (.running p t) => c.advance R i p t
    | _ => none
  | .reply i r =>
    match c.sessions[i]? with
    | some (.running (.request q next) t) =>
      some (c.setSession i (.running (next r) (t.reply q r)))
    | _ => none
  | .rollback i =>
    match c.sessions[i]? with
    | some (.running _ t) =>
      if R.rollback t then some (c.setSession i (.aborted t)) else none
    | _ => none

/-- Run a whole schedule. -/
def run (R : Discipline D) (c : Config D α) : List (Action D) → Option (Config D α)
  | [] => some c
  | x :: xs => (c.step R x).bind fun c' => c'.run R xs

end Config

/-- The configurations of the runs from `start` whose steps keep the discipline. -/
inductive Reaches (R : Discipline D) (start : Config D α) : Config D α → Prop
  | refl : Reaches R start start
  | step {c c' : Config D α} {x : Action D} :
      Reaches R start c → c.step R x = some c' → Reaches R start c'

/-- A schedule that can be run to its end is a run. -/
theorem reaches_of_run {R : Discipline D} {start c c' : Config D α} {xs : List (Action D)}
    (hc : Reaches R start c) (hrun : c.run R xs = some c') : Reaches R start c' := by
  induction xs generalizing c with
  | nil =>
    obtain rfl : c = c' := by simpa [Config.run] using hrun
    exact hc
  | cons x xs ih =>
    obtain ⟨c'', hstep, hrest⟩ := Option.bind_eq_some_iff.mp hrun
    exact ih (hc.step hstep) hrest

/-! ### What one step can do -/

/-- One step of the system, by what it does. -/
inductive Moves (R : Discipline D) (c : Config D α) : Config D α → Prop
  | commit {i : ℕ} {a : α} {t : Transaction D}
      (hi : c.sessions[i]? = some (.running (.ret a) t))
      (hok : R.commit c.committed t = true)
      (halone : ∀ k ∈ R.alone t, c.heldElsewhere i k = false) : Moves R c (c.commit i a t)
  | abort {i : ℕ} {p : Program D α} {t : Transaction D}
      (hi : c.sessions[i]? = some (.running p t)) (hok : R.rollback t = true) :
      Moves R c (c.setSession i (.aborted t))
  | select {i : ℕ} {next : State → Program D α} {t : Transaction D}
      (hi : c.sessions[i]? = some (.running (.select next) t)) :
      Moves R c (c.setSession i (.running (next (t.view c.committed)) t))
  | lock {i : ℕ} {k : Key} {next : State → Program D α} {t : Transaction D}
      (hi : c.sessions[i]? = some (.running (.selectForUpdate k next) t))
      (hpresent : D.present (t.view c.committed) k = true)
      (hfree : c.heldElsewhere i k = false) :
      Moves R c (c.setSession i (.running (next (t.view c.committed)) (t.lock k)))
  | miss {i : ℕ} {k : Key} {next : State → Program D α} {t : Transaction D}
      (hi : c.sessions[i]? = some (.running (.selectForUpdate k next) t))
      (habsent : D.present (t.view c.committed) k = false) :
      Moves R c (c.setSession i (.running (next (t.view c.committed)) t))
  | write {i : ℕ} {edit : State → Except Error Edit} {next : Edit → Program D α}
      {t : Transaction D} {e : Edit}
      (hi : c.sessions[i]? = some (.running (.write edit next) t))
      (hedit : edit (t.view c.committed) = .ok e)
      (hfree : ∀ k ∈ D.footprint e, c.heldElsewhere i k = false)
      (hok : R.write c.committed t e = true) :
      Moves R c (c.setSession i (.running (next e) (t.write e)))
  | reply {i : ℕ} {q : Call} {next : Reply → Program D α} {t : Transaction D}
      (r : Reply) (hi : c.sessions[i]? = some (.running (.request q next) t)) :
      Moves R c (c.setSession i (.running (next r) (t.reply q r)))

private theorem moves_of_advance {R : Discipline D} {c c' : Config D α} {i : ℕ}
    {p : Program D α} {t : Transaction D}
    (hi : c.sessions[i]? = some (.running p t)) (h : c.advance R i p t = some c') :
    Moves R c c' := by
  cases p with
  | ret a =>
    simp only [Config.advance, Option.ite_none_left_eq_some, Option.ite_none_right_eq_some,
      Option.some.injEq, List.any_eq_true, not_exists, not_and, Bool.not_eq_true] at h
    obtain ⟨halone, hok, rfl⟩ := h
    exact .commit hi hok halone
  | raise e =>
    simp only [Config.advance, Option.ite_none_right_eq_some, Option.some.injEq] at h
    obtain ⟨hok, rfl⟩ := h
    exact .abort hi hok
  | select next =>
    obtain rfl := Option.some.inj h
    exact .select hi
  | selectForUpdate k next =>
    simp only [Config.advance] at h
    split at h
    · -- the row is there, and nobody else holds it
      rename_i hpresent
      simp only [Option.ite_none_left_eq_some, Option.some.injEq, Bool.not_eq_true] at h
      obtain ⟨hfree, rfl⟩ := h
      exact .lock hi hpresent hfree
    · rename_i habsent
      obtain rfl := Option.some.inj h
      exact .miss hi (by simpa using habsent)
  | write edit next =>
    simp only [Config.advance] at h
    split at h
    · -- the statement fails, and the transaction with it
      simp only [Option.ite_none_right_eq_some, Option.some.injEq] at h
      obtain ⟨hok, rfl⟩ := h
      exact .abort hi hok
    · rename_i e hedit
      simp only [Option.ite_none_left_eq_some, Option.ite_none_right_eq_some,
        Option.some.injEq, List.any_eq_true, not_exists, not_and, Bool.not_eq_true] at h
      obtain ⟨hfree, hok, rfl⟩ := h
      exact .write hi hedit hfree hok
  | request q next => simp [Config.advance] at h

/-- Everything one step can do. -/
theorem moves_of_step {R : Discipline D} {c c' : Config D α} {x : Action D}
    (h : c.step R x = some c') : Moves R c c' := by
  cases x with
  | advance i =>
    simp only [Config.step] at h
    split at h
    · rename_i hi
      exact moves_of_advance hi h
    · simp at h
  | reply i r =>
    simp only [Config.step] at h
    split at h
    · rename_i hi
      obtain rfl := Option.some.inj h
      exact .reply r hi
    · simp at h
  | rollback i =>
    simp only [Config.step] at h
    split at h
    · rename_i hi
      simp only [Option.ite_none_right_eq_some, Option.some.injEq] at h
      obtain ⟨hok, rfl⟩ := h
      exact .abort hi hok
    · simp at h

/-- The induction over runs: a property of the start that every step keeps. -/
theorem Reaches.induction {R : Discipline D} {start c : Config D α}
    {P : Config D α → Prop} (h : Reaches R start c) (hstart : P start)
    (hstep : ∀ {c c' : Config D α}, P c → Moves R c c' → P c') : P c := by
  induction h with
  | refl => exact hstart
  | step _ hs ih => exact hstep ih (moves_of_step hs)

/-! ### Locks -/

theorem heldElsewhere_eq_false {c : Config D α} {i : ℕ} {k : Key} :
    c.heldElsewhere i k = false ↔
      ∀ (j : ℕ) (x : Session D α), c.sessions[j]? = some x → j ≠ i → k ∉ x.held := by
  simp only [Config.heldElsewhere, List.any_eq_false, Prod.forall,
    List.mem_zipIdx_iff_getElem?]
  constructor
  · intro h j x hx hji hk
    exact h x j hx (by simp [hji, hk])
  · intro h x j hx
    by_cases hji : j = i
    · simp [hji]
    · simp [h j x hx hji]

theorem LocksDisjoint.moves {R : Discipline D} {c c' : Config D α} (hc : LocksDisjoint c)
    (h : Moves R c c') : LocksDisjoint c' := by
  cases h with
  | commit hi _ => exact locksDisjoint_of_held_subset hc hi rfl (List.nil_subset _)
  | abort hi _ => exact locksDisjoint_of_held_subset hc hi rfl (List.nil_subset _)
  | select hi => exact locksDisjoint_of_held_subset hc hi rfl fun _ hk => hk
  | miss hi _ => exact locksDisjoint_of_held_subset hc hi rfl fun _ hk => hk
  | reply r hi => exact locksDisjoint_of_held_subset hc hi rfl fun _ hk => hk
  | lock hi _ hfree =>
    refine locksDisjoint_set hc (fun j y hy hji k hk => ?_) rfl
    rcases List.mem_cons.mp hk with rfl | hk
    · exact heldElsewhere_eq_false.mp hfree j y hy hji
    · exact hc _ j _ y hi hy (Ne.symm hji) k hk
  | write hi _ hfree _ =>
    refine locksDisjoint_set hc (fun j y hy hji k hk => ?_) rfl
    rcases List.mem_append.mp hk with hk | hk
    · exact heldElsewhere_eq_false.mp (hfree k hk) j y hy hji
    · exact hc _ j _ y hi hy (Ne.symm hji) k hk

/-- No key is ever held by two sessions. -/
theorem Reaches.locksDisjoint {R : Discipline D} {s : State} {ps : List (Program D α)}
    {c : Config D α} (h : Reaches R (.start s ps) c) : LocksDisjoint c :=
  h.induction (locksDisjoint_start s ps) fun hc hm => hc.moves hm

/-! ### The commit log -/

/-- The committed state is the replay of the commit log. -/
theorem Reaches.committed_eq {R : Discipline D} {s : State} {ps : List (Program D α)}
    {c : Config D α} (h : Reaches R (.start s ps) c) :
    c.committed = D.replay c.committedEdits s := by
  refine h.induction (P := fun c => c.committed = D.replay c.committedEdits s) rfl ?_
  intro c c' hc hm
  cases hm with
  | @commit i a t _ _ =>
    rw [Config.committedEdits_commit, Database.replay_append, ← hc]
    rfl
  | abort _ _ => exact hc
  | select _ => exact hc
  | lock _ _ _ => exact hc
  | miss _ _ => exact hc
  | write _ _ _ _ => exact hc
  | reply _ _ => exact hc

/-- The last committed state is the newest of the history. -/
theorem Reaches.exists_history {R : Discipline D} {s : State} {ps : List (Program D α)}
    {c : Config D α} (h : Reaches R (.start s ps) c) :
    ∃ older, c.history s = c.committed :: older := by
  refine h.induction (P := fun c => ∃ older, c.history s = c.committed :: older) ⟨[], rfl⟩ ?_
  intro c c' hc hm
  cases hm with
  | @commit i a t _ _ => exact ⟨c.history s, rfl⟩
  | abort _ _ => exact hc
  | select _ => exact hc
  | lock _ _ _ => exact hc
  | miss _ _ => exact hc
  | write _ _ _ _ => exact hc
  | reply _ _ => exact hc

/-! ### Longer runs -/

theorem Reaches.trans {R : Discipline D} {c c' c'' : Config D α} (h : Reaches R c c')
    (h' : Reaches R c' c'') : Reaches R c c'' := by
  induction h' with
  | refl => exact h
  | step _ hs ih => exact ih.step hs

/-- A run only adds to the history. -/
theorem Reaches.history_suffix {R : Discipline D} {c c' : Config D α} (h : Reaches R c c')
    (s : State) : c.history s <:+ c'.history s := by
  refine h.induction (P := fun c' => c.history s <:+ c'.history s) List.suffix_rfl ?_
  intro c' c'' hc hm
  cases hm with
  | commit _ _ _ => exact hc.trans (List.suffix_cons _ _)
  | _ => exact hc

/-- A committed state of a run stays in the history. -/
theorem Reaches.committed_mem_history {R : Discipline D} {s : State} {ps : List (Program D α)}
    {c c' : Config D α} (h : Reaches R (.start s ps) c) (h' : Reaches R c c') :
    c.committed ∈ c'.history s := by
  obtain ⟨older, hhistory⟩ := h.exists_history
  refine (h'.history_suffix s).mem ?_
  rw [hhistory]
  exact List.mem_cons_self

/-- A state of the history was the committed state at some point of the run. -/
theorem Reaches.exists_of_mem_history {R : Discipline D} {s s' : State}
    {ps : List (Program D α)} {c : Config D α} (h : Reaches R (.start s ps) c)
    (hs' : s' ∈ c.history s) :
    ∃ c', Reaches R (.start s ps) c' ∧ Reaches R c' c ∧ c'.committed = s' := by
  induction h with
  | refl =>
    obtain rfl := List.mem_singleton.mp hs'
    exact ⟨_, .refl, .refl, rfl⟩
  | @step c c' x hc hstep ih =>
    have hearlier (hmem : s' ∈ c.history s) :
        ∃ c₁, Reaches R (.start s ps) c₁ ∧ Reaches R c₁ c' ∧ c₁.committed = s' := by
      obtain ⟨c₁, h₁, hbetween, hcommitted⟩ := ih hmem
      exact ⟨c₁, h₁, hbetween.step hstep, hcommitted⟩
    cases moves_of_step hstep with
    | commit _ _ _ =>
      rcases List.mem_cons.mp hs' with rfl | hmem
      · exact ⟨_, hc.step hstep, .refl, rfl⟩
      · exact hearlier hmem
    | _ => exact hearlier hs'

/-- The step of a session that has come to the end of its program. -/
theorem commit_of_step {R : Discipline D} {c c' : Config D α} {i : ℕ} {a : α}
    {t : Transaction D} (hi : c.sessions[i]? = some (.running (.ret a) t))
    (h : c.step R (.advance i) = some c') :
    R.commit c.committed t = true ∧ c' = c.commit i a t := by
  simp only [Config.step, hi, Config.advance, Option.ite_none_left_eq_some,
    Option.ite_none_right_eq_some, Option.some.injEq] at h
  obtain ⟨-, hok, rfl⟩ := h
  exact ⟨hok, rfl⟩

end ReadCommitted
