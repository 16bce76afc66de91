import PulseOps.ReadCommitted.Validation

/-!
# Requests of several transactions

A request that does not open a transaction of its own commits every statement separately,
and one that opens several commits each of them. Between two of its transactions a request
holds no lock, and the others may do anything the contract allows. This file lets the
sessions of a `Config` go from one transaction to the next.

Where a request is between two transactions is a point. The code of the requests gives the
transaction to run at each point; it returns the point to go on from, and a request has
ended at a point that has no transaction.

## Main definitions

* `Service` — the sessions, and the point each of them is at.
* `Policy` — a condition on the steps of a run that may look at all sessions.
* `Service.turn` — the executable transition function.
* `Serves` — the services of all the runs that keep a policy.
* `Ownership` — what the other sessions keep still for one session.
* `Program.Upholds` — what a program does if every state it sees satisfies an invariant.

## Main results

* `takes_of_turn` — everything one turn can do.
* `Contract.serves_induction` — the induction rule for runs whose commits are guaranteed.
* `Contract.serves_publishes` — what a transaction owes when it comes to its end.
* `Contract.serves_chain` — the committed states of a run, one after the other.
* `serves_upholds` — the same, from what the programs write in the states they may see. A program
  that only reads sees states that have been committed.
-/

set_option autoImplicit false

namespace ReadCommitted

variable {State Key Edit Call Reply Error P : Type}
  {D : Database State Key Edit Call Reply Error}

/-- The sessions of a number of requests. `points` holds, for each session, the point whose
transaction it has started last. -/
structure Service (D : Database State Key Edit Call Reply Error) (P : Type) where
  config : Config D P
  points : List P

/-- A scheduler's choice: a step of an open transaction, or the next transaction of a
request. -/
inductive Turn (D : Database State Key Edit Call Reply Error) where
  | act (x : Action D)
  | resume (i : ℕ)

/-- A condition on the steps of a run. Besides what a `Discipline` sees, `publish` sees all
sessions when a transaction commits, and `enter` when one starts. -/
structure Policy (D : Database State Key Edit Call Reply Error) (P : Type)
    extends Discipline D where
  publish : Service D P → Transaction D → Bool := fun _ _ => true
  enter : Service D P → P → Bool := fun _ _ => true

/-- What the policy asks of the transactions, as the sessions of `x` stand. -/
def Policy.at (R : Policy D P) (x : Service D P) : Discipline D :=
  { R.toDiscipline with commit := fun s t => R.commit s t && R.publish x t }

namespace Service

/-- Requests that wait at their first points. -/
def start (s : State) (points : List P) : Service D P :=
  ⟨⟨s, points.map fun pt => .committed pt {}, []⟩, points⟩

/-- The last committed state. -/
abbrev committed (x : Service D P) : State := x.config.committed

abbrev sessions (x : Service D P) : List (Session D P) := x.config.sessions

/-- The committed states so far, newest first. -/
abbrev history (s : State) (x : Service D P) : List State := x.config.history s

/-- The transaction `t` of the session `i` commits, and the request goes on from `a`. -/
def commit (x : Service D P) (i : ℕ) (a : P) (t : Transaction D) : Service D P :=
  { x with config := x.config.commit i a t }

def setSession (x : Service D P) (i : ℕ) (y : Session D P) : Service D P :=
  { x with config := x.config.setSession i y }

/-- The session `i` starts the transaction `p` of the point `pt`. -/
def resume (x : Service D P) (i : ℕ) (pt : P) (p : Program D P) : Service D P :=
  ⟨x.config.setSession i (.running p {}), x.points.set i pt⟩

@[simp] theorem sessions_start (s : State) (points : List P) :
    (start s points : Service D P).sessions = points.map fun pt => .committed pt {} := rfl

variable [DecidableEq Key]

/-- One turn, if the policy allows it. -/
def turn (code : P → Option (Program D P)) (R : Policy D P) (x : Service D P) :
    Turn D → Option (Service D P)
  | .act a => (x.config.step (R.at x) a).map fun c => { x with config := c }
  | .resume i =>
    match x.sessions[i]? with
    | some (.committed pt _) =>
      if R.enter x pt then (code pt).map fun p => x.resume i pt p else none
    | _ => none

/-- Run a whole schedule. -/
def run (code : P → Option (Program D P)) (R : Policy D P) (x : Service D P) :
    List (Turn D) → Option (Service D P)
  | [] => some x
  | u :: us => (x.turn code R u).bind fun x' => x'.run code R us

end Service

/-! ### Runs -/

variable {code : P → Option (Program D P)} {R : Policy D P}

section Runs

variable [DecidableEq Key]

/-- The services of the runs from `start` that keep the policy. -/
inductive Serves (code : P → Option (Program D P)) (R : Policy D P) (start : Service D P) :
    Service D P → Prop
  | refl : Serves code R start start
  | turn {x x' : Service D P} {u : Turn D} :
      Serves code R start x → x.turn code R u = some x' → Serves code R start x'

/-- A schedule that can be run to its end is a run. -/
theorem serves_of_run {start x x' : Service D P} {us : List (Turn D)}
    (hx : Serves code R start x) (hrun : x.run code R us = some x') :
    Serves code R start x' := by
  induction us generalizing x with
  | nil =>
    obtain rfl : x = x' := by simpa [Service.run] using hrun
    exact hx
  | cons u us ih =>
    obtain ⟨x'', hturn, hrest⟩ := Option.bind_eq_some_iff.mp hrun
    exact ih (hx.turn hturn) hrest

/-! ### What one turn can do -/

/-- One turn, by what it does. -/
inductive Takes (code : P → Option (Program D P)) (R : Policy D P) (x : Service D P) :
    Service D P → Prop
  | move {c : Config D P} (hm : Moves (R.at x) x.config c) :
      Takes code R x { x with config := c }
  | resume {i : ℕ} {pt : P} {p : Program D P} {t : Transaction D}
      (hi : x.sessions[i]? = some (.committed pt t)) (henter : R.enter x pt = true)
      (hcode : code pt = some p) : Takes code R x (x.resume i pt p)

/-- Everything one turn can do. -/
theorem takes_of_turn {x x' : Service D P} {u : Turn D} (h : x.turn code R u = some x') :
    Takes code R x x' := by
  cases u with
  | act a =>
    obtain ⟨c, hstep, rfl⟩ := Option.map_eq_some_iff.mp h
    exact .move (moves_of_step hstep)
  | resume i =>
    simp only [Service.turn] at h
    split at h
    · rename_i pt t hi
      simp only [Option.ite_none_right_eq_some, Option.map_eq_some_iff] at h
      obtain ⟨henter, p, hcode, rfl⟩ := h
      exact .resume hi henter hcode
    · cases h

/-- The turn of a session that has come to the end of its transaction. -/
theorem commit_of_turn {x x' : Service D P} {i : ℕ} {a : P} {t : Transaction D}
    (hi : x.sessions[i]? = some (.running (.ret a) t))
    (h : x.turn code R (.act (.advance i)) = some x') :
    R.commit x.committed t = true ∧ R.publish x t = true ∧ x' = x.commit i a t := by
  obtain ⟨c, hstep, rfl⟩ := Option.map_eq_some_iff.mp h
  simp only [Config.step, hi, Config.advance, Option.ite_none_left_eq_some,
    Option.ite_none_right_eq_some, Option.some.injEq] at hstep
  obtain ⟨-, hok, rfl⟩ := hstep
  obtain ⟨hcommit, hpublish⟩ := Bool.and_eq_true_iff.mp hok
  exact ⟨hcommit, hpublish, rfl⟩

/-- The induction over runs: a property of the start that every turn keeps. -/
theorem Serves.induction {start x : Service D P} {I : Service D P → Prop}
    (h : Serves code R start x) (hstart : I start)
    (hstep : ∀ {x x' : Service D P}, I x → Takes code R x x' → I x') : I x := by
  induction h with
  | refl => exact hstart
  | turn _ hturn ih => exact hstep ih (takes_of_turn hturn)

omit [DecidableEq Key] in
/-- A session between two transactions holds nothing, and neither does a new one. -/
theorem locksDisjoint_resume {x : Service D P} {i : ℕ} {pt : P} {p : Program D P}
    (hx : LocksDisjoint x.config) : LocksDisjoint (x.resume i pt p).config := by
  intro j l y z hy hz hjl k hky hkz
  rcases getElem?_setSession hy with ⟨rfl, rfl⟩ | ⟨-, hy'⟩
  · exact absurd hky List.not_mem_nil
  · rcases getElem?_setSession hz with ⟨rfl, rfl⟩ | ⟨-, hz'⟩
    · exact absurd hkz List.not_mem_nil
    · exact hx j l y z hy' hz' hjl k hky hkz

/-- No key is held by two sessions of a run. -/
theorem Serves.locksDisjoint {s : State} {pts : List P} {x : Service D P}
    (h : Serves code R (.start s pts) x) : LocksDisjoint x.config := by
  refine h.induction (I := fun x => LocksDisjoint x.config) ?_ fun hx ht => ?_
  · intro i j y z hy _ _ k hk
    obtain ⟨pt, -, rfl⟩ := List.mem_map.mp (List.mem_of_getElem? hy)
    exact absurd hk List.not_mem_nil
  · cases ht with
    | resume => exact locksDisjoint_resume hx
    | move hm => exact hx.moves hm

theorem Serves.trans {x y z : Service D P} (h : Serves code R x y) (h' : Serves code R y z) :
    Serves code R x z := by
  induction h' with
  | refl => exact h
  | turn _ hturn ih => exact ih.turn hturn

/-- A run only adds to the history. -/
theorem Serves.history_suffix {x y : Service D P} (h : Serves code R x y) (s : State) :
    x.history s <:+ y.history s := by
  refine h.induction (I := fun y => x.history s <:+ y.history s) List.suffix_rfl ?_
  intro y y' hy ht
  cases ht with
  | resume _ _ _ => exact hy
  | move hm =>
    cases hm with
    | commit _ _ _ => exact hy.trans (List.suffix_cons _ _)
    | _ => exact hy

/-- The last committed state is the newest of the history. -/
theorem Serves.head_history {s : State} {pts : List P} {x : Service D P}
    (h : Serves code R (.start s pts) x) : (x.history s).head? = some x.committed := by
  refine h.induction (I := fun x => (x.history s).head? = some x.committed) rfl ?_
  intro x x' hx ht
  cases ht with
  | resume _ _ _ => exact hx
  | move hm => cases hm <;> first | exact hx | rfl

end Runs

/-! ### Soundness of contracts -/

/-- What the other sessions keep still for each session: random values it has drawn and not
used yet, say. -/
structure Ownership (State : Type) where
  keeps : ℕ → State → State → Prop
  keeps_refl (i : ℕ) (s : State) : keeps i s s
  keeps_trans {i : ℕ} {s₁ s₂ s₃ : State} : keeps i s₁ s₂ → keeps i s₂ s₃ → keeps i s₁ s₃

/-- Nothing in particular. -/
def Ownership.none (State : Type) : Ownership State := ⟨fun _ _ _ => True, by simp, by simp⟩

namespace Contract

/-- The contract as the session `i` may rely on it. -/
def ownedBy (L : Contract D) (W : Ownership State) (i : ℕ) : Contract D where
  inv := L.inv
  evolves s s' := L.evolves s s' ∧ W.keeps i s s'
  agree := L.agree
  evolves_refl s := ⟨L.evolves_refl s, W.keeps_refl i s⟩
  evolves_trans h h' := ⟨L.evolves_trans h.1 h'.1, W.keeps_trans h.2 h'.2⟩
  agree_refl := L.agree_refl
  agree_trans := L.agree_trans

/-- What the transaction of the session `i` owes when it commits and the request goes on
from the point `a`: the guarantee, what the others own, and the assertion `A` of that
point. -/
structure Publishes (L : Contract D) (W : Ownership State) (R : Discipline D)
    (A : P → State → Prop) (Q : P → Transaction D → State → Prop) (i : ℕ) (a : P)
    (t : Transaction D) (s : State) : Prop where
  guarantee : L.Guarantee R t s
  keeps : ∀ j, j ≠ i → W.keeps j s (t.view s)
  next : A a (t.view s)
  post : Q a t s

/-- The postcondition of every transaction of the session `i`. -/
def Owes (L : Contract D) (W : Ownership State) (R : Discipline D) (A : P → State → Prop)
    (Q : P → Transaction D → State → Prop) (i : ℕ) (a : P) (t : Transaction D)
    (s : State) : Prop :=
  L.inv s → R.commit s t = true → L.Publishes W R A Q i a t s

variable {L : Contract D} {W : Ownership State} {A : ℕ → P → State → Prop}
  {Q : ℕ → P → P → Transaction D → State → Prop}

/-- Every open transaction meets its precondition, and every waiting request its assertion. -/
private structure SoundService (L : Contract D) (W : Ownership State) (R : Policy D P)
    (A : ℕ → P → State → Prop) (Q : ℕ → P → P → Transaction D → State → Prop)
    (x : Service D P) : Prop where
  inv : L.inv x.committed
  disjoint : LocksDisjoint x.config
  open_wp : ∀ (i : ℕ) (p : Program D P) (t : Transaction D),
    x.sessions[i]? = some (.running p t) → ∃ pt, x.points[i]? = some pt ∧
      (L.ownedBy W i).wp R.toDiscipline (L.Owes W R.toDiscipline (A i) (Q i pt) i) p t x.committed
  waiting : ∀ (i : ℕ) (pt : P) (t : Transaction D),
    x.sessions[i]? = some (.committed pt t) → A i pt x.committed
  length : x.sessions.length = x.points.length

private theorem SoundService.setSession {x : Service D P} {i : ℕ} {y : Session D P}
    (hx : SoundService L W R A Q x) (hdisj : LocksDisjoint (x.setSession i y).config)
    (hrunning : ∀ p t, y = .running p t → ∃ pt, x.points[i]? = some pt ∧
      (L.ownedBy W i).wp R.toDiscipline (L.Owes W R.toDiscipline (A i) (Q i pt) i) p t x.committed)
    (hwaiting : ∀ pt t, y ≠ .committed pt t) : SoundService L W R A Q (x.setSession i y) where
  inv := hx.inv
  disjoint := hdisj
  open_wp j p t hj := by
    rcases getElem?_setSession hj with ⟨rfl, h⟩ | ⟨-, h⟩
    · exact hrunning p t h.symm
    · exact hx.open_wp j p t h
  waiting j pt t hj := by
    rcases getElem?_setSession hj with ⟨-, h⟩ | ⟨-, h⟩
    · exact absurd h.symm (hwaiting pt t)
    · exact hx.waiting j pt t h
  length := (List.length_set).trans hx.length

/-- The others see a guaranteed commit as interference they rely on. -/
private theorem SoundService.commit {x : Service D P} {i : ℕ} {a : P} {t : Transaction D}
    {Q' : P → Transaction D → State → Prop} (hx : SoundService L W R A Q x)
    (hi : x.sessions[i]? = some (.running (.ret a) t))
    (hg : L.Publishes W R.toDiscipline (A i) Q' i a t x.committed)
    (hstable : ∀ i pt s s', L.inv s → A i pt s → (L.ownedBy W i).Rely {} s s' → A i pt s')
    (halone : ∀ k ∈ R.alone t, ∀ (j : ℕ) (y : Session D P), x.sessions[j]? = some y → j ≠ i →
      k ∉ y.held) (hdisj : LocksDisjoint (x.commit i a t).config) :
    SoundService L W R A Q (x.commit i a t) where
  inv := hg.guarantee.inv
  disjoint := hdisj
  open_wp j p t' hj := by
    rcases getElem?_setSession hj with ⟨-, h⟩ | ⟨hji, h⟩
    · cases h
    · obtain ⟨pt, hpt, hwp⟩ := hx.open_wp j p t' h
      refine ⟨pt, hpt, wp_of_rely hwp ⟨hg.guarantee.inv, ?_, fun k hk => ?_⟩⟩
      · exact ⟨hg.guarantee.evolves, hg.keeps j hji⟩
      · exact hg.guarantee.agree k (hx.disjoint j i _ _ h hi hji k hk)
          fun hmem => halone k hmem j _ h hji hk
  waiting j pt t' hj := by
    rcases getElem?_setSession hj with ⟨rfl, h⟩ | ⟨hji, h⟩
    · cases h
      exact hg.next
    · refine hstable j pt _ _ hx.inv (hx.waiting j pt t' h) ⟨hg.guarantee.inv, ?_, by simp⟩
      exact ⟨hg.guarantee.evolves, hg.keeps j hji⟩
  length := (List.length_set).trans hx.length

private theorem SoundService.resume {x : Service D P} {i : ℕ} {pt : P} {p : Program D P}
    {t : Transaction D} (hx : SoundService L W R A Q x)
    (hi : x.sessions[i]? = some (.committed pt t))
    (hdisj : LocksDisjoint (x.resume i pt p).config)
    (hwp : (L.ownedBy W i).wp R.toDiscipline (L.Owes W R.toDiscipline (A i) (Q i pt) i) p {}
      x.committed) : SoundService L W R A Q (x.resume i pt p) where
  inv := hx.inv
  disjoint := hdisj
  open_wp j p' t' hj := by
    rcases getElem?_setSession hj with ⟨rfl, h⟩ | ⟨hji, h⟩
    · cases h
      have hlt : j < x.points.length := hx.length ▸ (List.getElem?_eq_some_iff.mp hi).1
      exact ⟨pt, List.getElem?_set_self hlt, hwp⟩
    · obtain ⟨pt', hpt', hwp'⟩ := hx.open_wp j p' t' h
      exact ⟨pt', (List.getElem?_set_ne (Ne.symm hji)).trans hpt', hwp'⟩
  waiting j pt' t' hj := by
    rcases getElem?_setSession hj with ⟨-, h⟩ | ⟨-, h⟩
    · cases h
    · exact hx.waiting j pt' t' h
  length := (List.length_set).trans (hx.length.trans List.length_set.symm)

private theorem SoundService.start {s₀ : State} {pts : List P} (hs : L.inv s₀)
    (hA : ∀ i pt, pts[i]? = some pt → A i pt s₀) : SoundService L W R A Q (.start s₀ pts) where
  inv := hs
  disjoint i j y z hy _ _ k hk := by
    obtain ⟨pt, -, rfl⟩ := List.mem_map.mp (List.mem_of_getElem? hy)
    exact absurd hk List.not_mem_nil
  open_wp i p t hi := by
    obtain ⟨pt, -, h⟩ := List.mem_map.mp (List.mem_of_getElem? hi)
    cases h
  waiting i pt t hi := by
    rw [Service.sessions_start, List.getElem?_map, Option.map_eq_some_iff] at hi
    obtain ⟨pt', hpt', h⟩ := hi
    cases h
    exact hA i pt hpt'
  length := List.length_map _

variable [DecidableEq Key]

/-- Soundness goes on with every turn. -/
private theorem SoundService.takes {x x' : Service D P} (hx : SoundService L W R A Q x)
    (hstable : ∀ i pt s s', L.inv s → A i pt s → (L.ownedBy W i).Rely {} s s' → A i pt s')
    (hcode : ∀ i pt p s, code pt = some p → L.inv s → A i pt s →
      (L.ownedBy W i).wp R.toDiscipline (L.Owes W R.toDiscipline (A i) (Q i pt) i) p {} s)
    (ht : Takes code R x x') : SoundService L W R A Q x' := by
  cases ht with
  | @resume i pt p t hi henter hcd =>
    exact hx.resume hi (locksDisjoint_resume hx.disjoint)
      (hcode _ _ _ _ hcd hx.inv (hx.waiting _ _ _ hi))
  | move hm =>
    have hdisj := hx.disjoint.moves hm
    -- what is left of a transaction keeps its promise after each of its statements
    have hset {i : ℕ} {p' : Program D P} {t' : Transaction D} {pt : P}
        (hdisj : LocksDisjoint (x.setSession i (.running p' t')).config)
        (hpt : x.points[i]? = some pt)
        (hwp : (L.ownedBy W i).wp R.toDiscipline (L.Owes W R.toDiscipline (A i) (Q i pt) i) p' t'
          x.committed) : SoundService L W R A Q (x.setSession i (.running p' t')) := by
      refine hx.setSession hdisj (fun q u h => ?_) fun _ _ h => nomatch h
      cases h
      exact ⟨pt, hpt, hwp⟩
    cases hm with
    | @commit i a t hi hok halone =>
      obtain ⟨pt, hpt, hwp⟩ := hx.open_wp _ _ _ hi
      have hg := hwp _ (.refl hx.inv) hx.inv (Bool.and_eq_true_iff.mp hok).1
      exact hx.commit hi hg hstable (fun k hk => heldElsewhere_eq_false.mp (halone k hk)) hdisj
    | abort hi hok => exact hx.setSession hdisj (fun _ _ h => nomatch h) fun _ _ h => nomatch h
    | select hi =>
      obtain ⟨pt, hpt, hwp⟩ := hx.open_wp _ _ _ hi
      exact hset hdisj hpt (hwp _ (.refl hx.inv))
    | lock hi hpresent _ =>
      obtain ⟨pt, hpt, hwp⟩ := hx.open_wp _ _ _ hi
      exact hset hdisj hpt ((hwp _ (.refl hx.inv)).1 hpresent)
    | miss hi habsent =>
      obtain ⟨pt, hpt, hwp⟩ := hx.open_wp _ _ _ hi
      exact hset hdisj hpt ((hwp _ (.refl hx.inv)).2 habsent)
    | write hi hedit _ hok =>
      obtain ⟨pt, hpt, hwp⟩ := hx.open_wp _ _ _ hi
      exact hset hdisj hpt (hwp _ (.refl hx.inv) _ hedit hok)
    | reply r hi =>
      obtain ⟨pt, hpt, hwp⟩ := hx.open_wp _ _ _ hi
      exact hset hdisj hpt (hwp _ (.refl hx.inv) r)

private theorem sound_of_serves {s₀ : State} {pts : List P} {x : Service D P} (hs : L.inv s₀)
    (hstable : ∀ i pt s s', L.inv s → A i pt s → (L.ownedBy W i).Rely {} s s' → A i pt s')
    (hcode : ∀ i pt p s, code pt = some p → L.inv s → A i pt s →
      (L.ownedBy W i).wp R.toDiscipline (L.Owes W R.toDiscipline (A i) (Q i pt) i) p {} s)
    (hA : ∀ i pt, pts[i]? = some pt → A i pt s₀) (h : Serves code R (.start s₀ pts) x) :
    SoundService L W R A Q x :=
  h.induction (.start hs hA) fun hx ht => hx.takes hstable hcode ht

/-- The induction rule of the logic: what the start satisfies and every guaranteed commit,
every rollback, every new transaction and every other step keeps, holds in every run. The
assertion `A` says what a request knows at each of its points. -/
theorem serves_induction {I : Service D P → Prop} {s₀ : State} {pts : List P}
    {x : Service D P} (hs : L.inv s₀)
    (hstable : ∀ i pt s s', L.inv s → A i pt s → (L.ownedBy W i).Rely {} s s' → A i pt s')
    (hcode : ∀ i pt p s, code pt = some p → L.inv s → A i pt s →
      (L.ownedBy W i).wp R.toDiscipline (L.Owes W R.toDiscipline (A i) (Q i pt) i) p {} s)
    (hA : ∀ i pt, pts[i]? = some pt → A i pt s₀) (hstart : I (.start s₀ pts))
    (hcommit : ∀ (x : Service D P) (i : ℕ) (pt a : P) (t : Transaction D), I x →
      x.points[i]? = some pt → x.sessions[i]? = some (.running (.ret a) t) →
      R.commit x.committed t = true → R.publish x t = true → L.inv x.committed →
      L.Guarantee R.toDiscipline t x.committed → Q i pt a t x.committed → I (x.commit i a t))
    (habort : ∀ (x : Service D P) (i : ℕ) (p : Program D P) (t : Transaction D), I x →
      x.sessions[i]? = some (.running p t) → I (x.setSession i (.aborted t)))
    (hrun : ∀ (x : Service D P) (i : ℕ) (p p' : Program D P) (t t' : Transaction D), I x →
      x.sessions[i]? = some (.running p t) → I (x.setSession i (.running p' t')))
    (hresume : ∀ (x : Service D P) (i : ℕ) (pt : P) (p : Program D P) (t : Transaction D), I x →
      x.sessions[i]? = some (.committed pt t) → R.enter x pt = true → code pt = some p →
      A i pt x.committed → I (x.resume i pt p))
    (h : Serves code R (.start s₀ pts) x) : I x := by
  have hall := h.induction (I := fun x => SoundService L W R A Q x ∧ I x)
    ⟨.start hs hA, hstart⟩ fun {x x'} hx ht => ?_
  · exact hall.2
  obtain ⟨hsound, hI⟩ := hx
  refine ⟨hsound.takes hstable hcode ht, ?_⟩
  -- what each step needs is in the soundness of the service before it
  cases ht with
  | @resume i pt p t hi henter hcd =>
    exact hresume x i pt p t hI hi henter hcd (hsound.waiting _ _ _ hi)
  | move hm =>
    cases hm with
    | @commit i a t hi hok halone =>
      obtain ⟨pt, hpt, hwp⟩ := hsound.open_wp _ _ _ hi
      obtain ⟨hcommit', hpublish⟩ := Bool.and_eq_true_iff.mp hok
      have hg := hwp _ (.refl hsound.inv) hsound.inv hcommit'
      exact hcommit x i pt a t hI hpt hi hcommit' hpublish hsound.inv hg.guarantee hg.post
    | abort hi hok => exact habort x _ _ _ hI hi
    | select hi => exact hrun x _ _ _ _ _ hI hi
    | lock hi _ _ => exact hrun x _ _ _ _ _ hI hi
    | miss hi _ => exact hrun x _ _ _ _ _ hI hi
    | write hi _ _ _ => exact hrun x _ _ _ _ _ hI hi
    | reply r hi => exact hrun x _ _ _ _ _ hI hi

/-- What a transaction that has come to its end in a run owes. -/
theorem serves_publishes {s₀ : State} {pts : List P} {x : Service D P} {i : ℕ} {a : P}
    {t : Transaction D} (hs : L.inv s₀)
    (hstable : ∀ i pt s s', L.inv s → A i pt s → (L.ownedBy W i).Rely {} s s' → A i pt s')
    (hcode : ∀ i pt p s, code pt = some p → L.inv s → A i pt s →
      (L.ownedBy W i).wp R.toDiscipline (L.Owes W R.toDiscipline (A i) (Q i pt) i) p {} s)
    (hA : ∀ i pt, pts[i]? = some pt → A i pt s₀) (h : Serves code R (.start s₀ pts) x)
    (hi : x.sessions[i]? = some (.running (.ret a) t)) (hok : R.commit x.committed t = true) :
    L.inv x.committed ∧ ∃ pt, x.points[i]? = some pt ∧
      L.Publishes W R.toDiscipline (A i) (Q i pt) i a t x.committed := by
  have hsound := sound_of_serves hs hstable hcode hA h
  obtain ⟨pt, hpt, hwp⟩ := hsound.open_wp _ _ _ hi
  exact ⟨hsound.inv, pt, hpt, hwp _ (.refl hsound.inv) hsound.inv hok⟩

/-- The committed states of a run, one commit after the other: what each of them satisfies,
and how each follows from the one before. -/
theorem serves_chain {I : State → Prop} {E : State → State → Prop} {s₀ : State} {pts : List P}
    {x : Service D P} (hs : L.inv s₀)
    (hstable : ∀ i pt s s', L.inv s → A i pt s → (L.ownedBy W i).Rely {} s s' → A i pt s')
    (hcode : ∀ i pt p s, code pt = some p → L.inv s → A i pt s →
      (L.ownedBy W i).wp R.toDiscipline (L.Owes W R.toDiscipline (A i) (Q i pt) i) p {} s)
    (hA : ∀ i pt, pts[i]? = some pt → A i pt s₀) (hI : I s₀)
    (hcommit : ∀ (s : State) (i : ℕ) (pt a : P) (t : Transaction D), I s →
      R.commit s t = true → L.inv s → L.Guarantee R.toDiscipline t s → Q i pt a t s →
      I (t.view s) ∧ E s (t.view s))
    (h : Serves code R (.start s₀ pts) x) :
    (∀ s ∈ x.history s₀, I s) ∧ (x.history s₀).IsChain fun s' s => E s s' := by
  refine (serves_induction (Q := Q) (I := fun x => (x.history s₀).head? = some x.committed ∧
    (∀ s ∈ x.history s₀, I s) ∧ (x.history s₀).IsChain fun s' s => E s s') hs hstable hcode hA ?_
    (fun x i pt a t hP _ _ hok _ hinv hg hQ => ?_) (fun _ _ _ _ hP _ => hP)
    (fun _ _ _ _ _ _ hP _ => hP) (fun _ _ _ _ _ hP _ _ _ _ => hP) h).2
  · refine ⟨rfl, fun s hmem => ?_, List.isChain_singleton s₀⟩
    obtain rfl : s = s₀ := by simpa [Service.history, Config.history, Service.start] using hmem
    exact hI
  · obtain ⟨hhead, hall, hchain⟩ := hP
    have hmem : x.committed ∈ x.history s₀ := List.mem_of_head? hhead
    obtain ⟨hI', hE⟩ := hcommit x.committed i pt a t (hall _ hmem) hok hinv hg hQ
    have hhistory : (x.commit i a t).history s₀ = t.view x.committed :: x.history s₀ := rfl
    rw [hhistory]
    refine ⟨rfl, fun s hs => ?_, List.isChain_cons.mpr ⟨fun s hs => ?_, hchain⟩⟩
    · rcases List.mem_cons.mp hs with rfl | hs
      · exact hI'
      · exact hall s hs
    · have heq : x.committed = s := Option.some.inj (hhead.symm.trans hs)
      exact heq ▸ hE

end Contract

/-! ### What programs uphold -/

namespace Program

variable {α β : Type} {Inv Inv' : State → Prop} {Good Good' : Edit → Prop} {A : α → Prop}
  {B : β → Prop} {e : Error}

/-- In states that satisfy `Inv`, the program makes edits that satisfy `Good` and returns what
satisfies `A`. -/
def Upholds (Inv : State → Prop) (Good : Edit → Prop) (A : α → Prop) : Program D α → Prop
  | .ret a => A a
  | .raise _ => True
  | .select next => ∀ s, Inv s → (next s).Upholds Inv Good A
  | .selectForUpdate _ next => ∀ s, Inv s → (next s).Upholds Inv Good A
  | .write edit next => ∀ s e, Inv s → edit s = .ok e → Good e ∧ (next e).Upholds Inv Good A
  | .request _ next => ∀ r, (next r).Upholds Inv Good A

theorem Upholds.bind {p : Program D α} {f : α → Program D β} (hp : p.Upholds Inv Good A)
    (hf : ∀ a, A a → (f a).Upholds Inv Good B) : (p >>= f).Upholds Inv Good B := by
  induction p with
  | ret a => exact hf a hp
  | raise e => trivial
  | select next ih => exact fun s hs => ih s (hp s hs)
  | selectForUpdate k next ih => exact fun s hs => ih s (hp s hs)
  | request c next ih => exact fun r => ih r (hp r)
  | write edit next ih =>
    intro s e hs he
    obtain ⟨hgood, hnext⟩ := hp s e hs he
    exact ⟨hgood, ih e hnext⟩

theorem Upholds.of_emits {p : Program D α} (hp : p.Emits Good) (hA : p.Returns A) :
    p.Upholds Inv Good A := by
  induction p with
  | ret a => exact hA
  | raise e => trivial
  | select next ih => exact fun s _ => ih s (hp s) (hA s)
  | selectForUpdate k next ih => exact fun s _ => ih s (hp s) (hA s)
  | request c next ih => exact fun r => ih r (hp r) (hA r)
  | write edit next ih =>
    intro s e _ he
    obtain ⟨hgood, hnext⟩ := hp s e he
    exact ⟨hgood, ih e hnext (hA s e he)⟩

theorem upholds_query_bind {q : State → α} {f : α → Program D β}
    (h : ∀ s, Inv s → (f (q s)).Upholds Inv Good B) : (query q >>= f).Upholds Inv Good B :=
  h

theorem upholds_orRaise_bind {x : Option α} {f : α → Program D β}
    (h : ∀ a, x = some a → (f a).Upholds Inv Good B) :
    (orRaise x e >>= f).Upholds Inv Good B := by
  cases x with
  | none => trivial
  | some a => exact h a rfl

theorem upholds_require_bind {C : Prop} [Decidable C] {f : Unit → Program D β}
    (h : C → (f ()).Upholds Inv Good B) : (require C e >>= f).Upholds Inv Good B := by
  by_cases hC : C
  · rw [require, if_pos hC]
    exact h hC
  · rw [require, if_neg hC]
    trivial

theorem upholds_perform_bind {edit : State → Except Error Edit} {f : Unit → Program D β}
    (hgood : ∀ s e, Inv s → edit s = .ok e → Good e) (h : (f ()).Upholds Inv Good B) :
    (perform edit >>= f).Upholds Inv Good B :=
  fun s e hs he => ⟨hgood s e hs he, h⟩

end Program

section Upholds

variable [DecidableEq Key] {Inv : State → Prop} {Good : Edit → Prop} {A : P → Prop}

/-- Every open transaction upholds the invariant or only reads, and every waiting request
satisfies `A`. `H` are the states that are committed during the whole run. -/
private structure UpholdingService (Inv : State → Prop) (Good : Edit → Prop) (A : P → Prop)
    (s₀ : State) (H : List State) (x : Service D P) : Prop where
  inv : ∀ s ∈ x.history s₀, Inv s
  committed : x.committed ∈ x.history s₀
  running : ∀ (i : ℕ) (p : Program D P) (t : Transaction D),
    x.sessions[i]? = some (.running p t) →
      (p.Upholds Inv Good A ∧ ∀ e ∈ t.edits, Good e) ∨
      (p.Upholds (fun s => Inv s ∧ s ∈ H) (fun _ => False) A ∧ t.edits = [])
  waiting : ∀ (i : ℕ) (pt : P) (t : Transaction D), x.sessions[i]? = some (.committed pt t) → A pt

variable {s₀ : State} {H : List State} {pts : List P}

omit [DecidableEq Key] in
private theorem upheld_replay {es : List Edit} {s : State}
    (happly : ∀ s e, Inv s → Good e → Inv (D.apply s e)) (hs : Inv s) (hes : ∀ e ∈ es, Good e) :
    Inv (D.replay es s) := by
  induction es generalizing s with
  | nil => exact hs
  | cons e es ih =>
    rw [List.forall_mem_cons] at hes
    exact ih (happly s e hs hes.1) hes.2

omit [DecidableEq Key] in
private theorem UpholdingService.set {x : Service D P} {i : ℕ} {y : Session D P}
    (hx : UpholdingService Inv Good A s₀ H x)
    (hrunning : ∀ p t, y = .running p t → (p.Upholds Inv Good A ∧ ∀ e ∈ t.edits, Good e) ∨
      (p.Upholds (fun s => Inv s ∧ s ∈ H) (fun _ => False) A ∧ t.edits = []))
    (hwaiting : ∀ pt t, y = .committed pt t → A pt) :
    UpholdingService Inv Good A s₀ H (x.setSession i y) where
  inv := hx.inv
  committed := hx.committed
  running j p t hj := by
    rcases getElem?_setSession hj with ⟨-, h⟩ | ⟨-, h⟩
    · exact hrunning p t h.symm
    · exact hx.running j p t h
  waiting j pt t hj := by
    rcases getElem?_setSession hj with ⟨-, h⟩ | ⟨-, h⟩
    · exact hwaiting pt t h.symm
    · exact hx.waiting j pt t h

omit [DecidableEq Key] in
/-- A session that goes on without a write. -/
private theorem UpholdingService.read {x : Service D P} {i : ℕ} {p p' : Program D P}
    {t t' : Transaction D} (hx : UpholdingService Inv Good A s₀ H x)
    (hi : x.sessions[i]? = some (.running p t)) (hedits : t'.edits = t.edits)
    (hp : p.Upholds Inv Good A → (∀ e ∈ t.edits, Good e) → p'.Upholds Inv Good A)
    (hp' : p.Upholds (fun s => Inv s ∧ s ∈ H) (fun _ => False) A → t.edits = [] →
      p'.Upholds (fun s => Inv s ∧ s ∈ H) (fun _ => False) A) :
    UpholdingService Inv Good A s₀ H (x.setSession i (.running p' t')) := by
  refine hx.set (fun q u h => ?_) fun _ _ h => by cases h
  obtain ⟨rfl, rfl⟩ := Session.running.inj h
  rw [hedits]
  rcases hx.running i p t hi with ⟨hupholds, hgood⟩ | ⟨hupholds, hnone⟩
  · exact .inl ⟨hp hupholds hgood, hgood⟩
  · exact .inr ⟨hp' hupholds hnone, hnone⟩

private theorem upholding_of_serves {x : Service D P}
    (happly : ∀ s e, Inv s → Good e → Inv (D.apply s e)) (hs : Inv s₀) (hpts : ∀ pt ∈ pts, A pt)
    (hcode : ∀ pt p, A pt → code pt = some p → p.Upholds Inv Good A ∨
      p.Upholds (fun s => Inv s ∧ s ∈ H) (fun _ => False) A)
    (h : Serves code R (.start s₀ pts) x) (hH : ∀ s ∈ x.history s₀, s ∈ H) :
    UpholdingService Inv Good A s₀ H x := by
  induction h with
  | refl =>
    refine ⟨by simpa [Service.history, Config.history, Service.start] using hs,
      by simp [Service.history, Config.history, Service.start], fun i p t hi => ?_,
      fun i pt t hi => ?_⟩ <;>
      rw [Service.sessions_start, List.getElem?_map, Option.map_eq_some_iff] at hi
    · obtain ⟨_, _, heq⟩ := hi
      cases heq
    · obtain ⟨pt', hpt', heq⟩ := hi
      obtain ⟨rfl, -⟩ := Session.committed.inj heq
      exact hpts pt' (List.mem_of_getElem? hpt')
  | @turn y z u hy hturn ih =>
    have hsub : ∀ s ∈ y.history s₀, s ∈ H := fun s hmem =>
      hH s ((Serves.refl.turn hturn).history_suffix s₀ |>.subset hmem)
    have hx := ih hsub
    -- what an open transaction sees
    have hview {t : Transaction D} (hgood : ∀ e ∈ t.edits, Good e) :
        Inv (t.view y.committed) := upheld_replay happly (hx.inv _ hx.committed) hgood
    have hseen {t : Transaction D} (hnone : t.edits = []) :
        Inv (t.view y.committed) ∧ t.view y.committed ∈ H := by
      rw [Transaction.view, hnone]
      exact ⟨hx.inv _ hx.committed, hsub _ hx.committed⟩
    cases takes_of_turn hturn with
    | @resume i pt p t hi _ hpt =>
      have hset : UpholdingService Inv Good A s₀ H (y.setSession i (.running p {})) := by
        refine hx.set (fun q u h => ?_) fun _ _ h => by cases h
        obtain ⟨rfl, rfl⟩ := Session.running.inj h
        rcases hcode pt p (hx.waiting i pt t hi) hpt with hupholds | hupholds
        · exact .inl ⟨hupholds, by simp⟩
        · exact .inr ⟨hupholds, rfl⟩
      exact ⟨hset.inv, hset.committed, hset.running, hset.waiting⟩
    | move hm =>
      cases hm with
      | @commit i a t hi _ _ =>
        have hcommitted : Inv (t.view y.committed) := by
          rcases hx.running i _ t hi with ⟨-, hgood⟩ | ⟨-, hnone⟩
          · exact hview hgood
          · exact (hseen hnone).1
        refine ⟨List.forall_mem_cons.mpr ⟨hcommitted, hx.inv⟩, List.mem_cons_self, ?_, ?_⟩
        · intro j p t' hj
          rcases getElem?_setSession hj with ⟨-, h⟩ | ⟨-, h⟩
          · cases h
          · exact hx.running j p t' h
        · intro j pt t' hj
          rcases getElem?_setSession hj with ⟨-, h⟩ | ⟨-, h⟩
          · obtain ⟨rfl, -⟩ := Session.committed.inj h
            rcases hx.running i _ t hi with ⟨hA, -⟩ | ⟨hA, -⟩
            · exact hA
            · exact hA
          · exact hx.waiting j pt t' h
      | abort hi _ => exact hx.set (fun _ _ h => by cases h) fun _ _ h => by cases h
      | select hi =>
        exact hx.read hi rfl (fun hp hgood => hp _ (hview hgood))
          fun hp hnone => hp _ (hseen hnone)
      | lock hi _ _ =>
        exact hx.read hi rfl (fun hp hgood => hp _ (hview hgood))
          fun hp hnone => hp _ (hseen hnone)
      | miss hi _ =>
        exact hx.read hi rfl (fun hp hgood => hp _ (hview hgood))
          fun hp hnone => hp _ (hseen hnone)
      | reply r hi => exact hx.read hi rfl (fun hp _ => hp r) fun hp _ => hp r
      | @write i edit next t e hi he _ _ =>
        refine hx.set (fun q u h => ?_) fun _ _ h => by cases h
        obtain ⟨rfl, rfl⟩ := Session.running.inj h
        rcases hx.running i _ t hi with ⟨hupholds, hgood⟩ | ⟨hupholds, hnone⟩
        · obtain ⟨hedit, hnext⟩ := hupholds _ e (hview hgood) he
          refine .inl ⟨hnext, ?_⟩
          rw [Transaction.edits_write, List.forall_mem_append]
          exact ⟨hgood, by simpa using hedit⟩
        · exact absurd (hupholds _ e (hseen hnone) he).1 id

/-- What every edit keeps that the programs make, in states that satisfy it, holds of all the
committed states of a run. -/
theorem serves_upholds {x : Service D P}
    (happly : ∀ s e, Inv s → Good e → Inv (D.apply s e)) (hs : Inv s₀) (hpts : ∀ pt ∈ pts, A pt)
    (hcode : ∀ pt p, A pt → code pt = some p → p.Upholds Inv Good A ∨
      p.Upholds (fun s => Inv s ∧ s ∈ x.history s₀) (fun _ => False) A)
    (h : Serves code R (.start s₀ pts) x) : ∀ s ∈ x.history s₀, Inv s :=
  (upholding_of_serves happly hs hpts hcode h fun _ hs => hs).inv

end Upholds

end ReadCommitted
