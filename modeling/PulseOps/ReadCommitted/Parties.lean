import PulseOps.ReadCommitted.Schedule

/-!
# Parties that share a database

Several parties share a database. Each of them sees its own part of a state, its view, and
makes edits to that part only. A program is confined to a party when each of its statements
comes out on the view of the party as on the whole state, and each of its edits is one the
party may make.

Then the parties do not notice each other, in whatever order the statements of their
transactions come: take any run of any number of transactions, keep the steps of one party
alone, and they are a run from the view of that party, in which each of its transactions does
and answers the same. What others hold can only make a transaction wait.

## Main definitions

* `Parties` — what each party sees of a state, and the edits it may make.
* `Parties.Confined` — the programs that read and write the part of one party only.
* `Parties.Mirrors` — a run of all parties, and the run of one of them alone.

## Main results

* `Parties.Confined.bind`, `Parties.confined_forM`, `Parties.confined_mapM` — composed
  programs are confined.
* `Parties.mirrors_step` — one step of the shared run, in the run of one party.
* `Parties.inv_of_reaches` — what all states satisfy stays true.
* `Parties.run_alone` — the steps of one party are a run of their own.
-/

set_option autoImplicit false

namespace ReadCommitted

variable {State Key Edit Call Reply Error ι : Type}
  {D : Database State Key Edit Call Reply Error} {α β γ : Type}

open Program

/-- The parties of a database: what all states satisfy, what a party sees of them, and the
edits it may make. -/
structure Parties (D : Database State Key Edit Call Reply Error) (ι : Type) where
  Inv : State → Prop
  view : ι → State → State
  Admits : ι → Edit → Prop
  inv_apply : ∀ {i : ι} {s : State} {e : Edit}, Inv s → Admits i e → Inv (D.apply s e)
  view_apply : ∀ {i : ι} {s : State} {e : Edit}, Inv s → Admits i e →
    view i (D.apply s e) = D.apply (view i s) e
  view_apply_other : ∀ {i j : ι} {s : State} {e : Edit}, Inv s → Admits i e → j ≠ i →
    view j (D.apply s e) = view j s
  present_of_view : ∀ {i : ι} {s : State} {k : Key},
    D.present (view i s) k = true → D.present s k = true

namespace Parties

variable {P : Parties D ι} {i j : ι} {s : State}

/-! ### Lists of edits -/

theorem inv_replay {es : List Edit} (hs : P.Inv s) (hes : ∀ e ∈ es, P.Admits i e) :
    P.Inv (D.replay es s) := by
  induction es generalizing s with
  | nil => exact hs
  | cons e es ih =>
    rw [List.forall_mem_cons] at hes
    exact ih (P.inv_apply hs hes.1) hes.2

theorem view_replay {es : List Edit} (hs : P.Inv s) (hes : ∀ e ∈ es, P.Admits i e) :
    P.view i (D.replay es s) = D.replay es (P.view i s) := by
  induction es generalizing s with
  | nil => rfl
  | cons e es ih =>
    rw [List.forall_mem_cons] at hes
    rw [Database.replay_cons, ih (P.inv_apply hs hes.1) hes.2, P.view_apply hs hes.1,
      Database.replay_cons]

theorem view_replay_other {es : List Edit} (hs : P.Inv s) (hes : ∀ e ∈ es, P.Admits i e)
    (hji : j ≠ i) : P.view j (D.replay es s) = P.view j s := by
  induction es generalizing s with
  | nil => rfl
  | cons e es ih =>
    rw [List.forall_mem_cons] at hes
    rw [Database.replay_cons, ih (P.inv_apply hs hes.1) hes.2,
      P.view_apply_other hs hes.1 hji]

/-! ### Confined programs -/

/-- In every state its statements may find, the program reads nothing but the view of `i` and
makes no edit but those of `i`; what it returns satisfies `Q`. The states of different
statements are not related: others may have committed in between. -/
def Confined (P : Parties D ι) (i : ι) (Q : α → Prop) : Program D α → Prop
  | .ret a => Q a
  | .raise _ => True
  | .select next => ∀ s, P.Inv s → next (P.view i s) = next s ∧ P.Confined i Q (next s)
  | .selectForUpdate _ next =>
    ∀ s, P.Inv s → next (P.view i s) = next s ∧ P.Confined i Q (next s)
  | .write edit next => ∀ s, P.Inv s → edit (P.view i s) = edit s ∧
      ∀ e, edit s = .ok e → P.Admits i e ∧ P.Confined i Q (next e)
  | .request _ next => ∀ r, P.Confined i Q (next r)

section Rules

variable {Q Q' : α → Prop} {R : β → Prop}

theorem Confined.mono {p : Program D α} (h : P.Confined i Q p) (hQ : ∀ a, Q a → Q' a) :
    P.Confined i Q' p := by
  induction p with
  | ret a => exact hQ a h
  | raise e => trivial
  | select next ih => exact fun s hs => ⟨(h s hs).1, ih s (h s hs).2⟩
  | selectForUpdate k next ih => exact fun s hs => ⟨(h s hs).1, ih s (h s hs).2⟩
  | request c next ih => exact fun r => ih r (h r)
  | write edit next ih =>
    intro s hs
    exact ⟨(h s hs).1, fun e he => ⟨((h s hs).2 e he).1, ih e ((h s hs).2 e he).2⟩⟩

theorem confined_ret {a : α} (h : Q a) : P.Confined i Q (.ret a : Program D α) := h

theorem confined_raise {e : Error} : P.Confined i Q (.raise e : Program D α) := trivial

/-- A program and the rest of it. -/
theorem Confined.bind {p : Program D α} {f : α → Program D β} (h : P.Confined i Q p)
    (hf : ∀ a, Q a → P.Confined i R (f a)) : P.Confined i R (p >>= f) := by
  induction p with
  | ret a => exact hf a h
  | raise e => trivial
  | select next ih =>
    exact fun s hs => ⟨congrArg (Program.bind · f) (h s hs).1, ih s (h s hs).2⟩
  | selectForUpdate k next ih =>
    exact fun s hs => ⟨congrArg (Program.bind · f) (h s hs).1, ih s (h s hs).2⟩
  | request c next ih => exact fun r => ih r (h r)
  | write edit next ih =>
    intro s hs
    exact ⟨(h s hs).1, fun e he => ⟨((h s hs).2 e he).1, ih e ((h s hs).2 e he).2⟩⟩

theorem confined_query {q : State → α} (hq : ∀ s, P.Inv s → q (P.view i s) = q s)
    (h : ∀ s, P.Inv s → Q (q s)) : P.Confined i Q (query q : Program D α) :=
  fun s hs => ⟨congrArg ret (hq s hs), h s hs⟩

theorem confined_query_bind {q : State → α} {f : α → Program D β}
    (hq : ∀ s, P.Inv s → q (P.view i s) = q s)
    (h : ∀ s, P.Inv s → P.Confined i R (f (q s))) : P.Confined i R (query q >>= f) :=
  fun s hs => ⟨congrArg f (hq s hs), h s hs⟩

theorem confined_lockAndRead_bind {k : Key} {q : State → α} {f : α → Program D β}
    (hq : ∀ s, P.Inv s → q (P.view i s) = q s)
    (h : ∀ s, P.Inv s → P.Confined i R (f (q s))) : P.Confined i R (lockAndRead k q >>= f) :=
  fun s hs => ⟨congrArg f (hq s hs), h s hs⟩

theorem confined_lockRow {k : Key} :
    P.Confined i (fun _ => True) (lockRow k : Program D Unit) :=
  fun _ _ => ⟨rfl, trivial⟩

theorem confined_lockRow_bind {k : Key} {f : Unit → Program D β} (h : P.Confined i R (f ())) :
    P.Confined i R (lockRow k >>= f) :=
  fun _ _ => ⟨rfl, h⟩

theorem confined_require {p : Prop} [Decidable p] {e : Error} :
    P.Confined i (fun _ => p) (require p e : Program D Unit) := by
  by_cases hp : p
  · rw [require, if_pos hp]
    exact hp
  · rw [require, if_neg hp]
    trivial

theorem confined_require_bind {p : Prop} [Decidable p] {e : Error} {f : Unit → Program D β}
    (h : p → P.Confined i R (f ())) : P.Confined i R (require p e >>= f) := by
  by_cases hp : p
  · rw [require, if_pos hp]
    exact h hp
  · rw [require, if_neg hp]
    trivial

theorem confined_orRaise_bind {x : Option α} {e : Error} {f : α → Program D β}
    (h : ∀ a, x = some a → P.Confined i R (f a)) : P.Confined i R (orRaise x e >>= f) := by
  cases x with
  | none => trivial
  | some a => exact h a rfl

theorem confined_send_bind {c : Call} {f : Reply → Program D β}
    (h : ∀ r, P.Confined i R (f r)) : P.Confined i R (send c >>= f) :=
  h

theorem confined_perform {edit : State → Except Error Edit}
    (hedit : ∀ s, P.Inv s → edit (P.view i s) = edit s)
    (h : ∀ s e, P.Inv s → edit s = .ok e → P.Admits i e) :
    P.Confined i (fun _ => True) (perform edit : Program D Unit) :=
  fun s hs => ⟨hedit s hs, fun e he => ⟨h s e hs he, trivial⟩⟩

theorem confined_record {e : Edit} (h : P.Admits i e) :
    P.Confined i (fun _ => True) (record e : Program D Unit) := by
  apply confined_perform (fun _ _ => rfl)
  rintro s _ - ⟨⟩
  exact h

/-- A loop, with what each of its rounds establishes. -/
theorem confined_forM {xs : List β} {f : β → Program D PUnit} {p : β → Prop}
    (h : ∀ x ∈ xs, P.Confined i (fun _ => p x) (f x)) :
    P.Confined i (fun _ => ∀ x ∈ xs, p x) (forM xs f) := by
  induction xs with
  | nil => exact confined_ret (by simp)
  | cons x xs ih =>
    rw [List.forall_mem_cons] at h
    apply h.1.bind
    intro _ hx
    exact (ih h.2).mono fun _ hxs => List.forall_mem_cons.mpr ⟨hx, hxs⟩

/-- A loop that is there for its effects. -/
theorem confined_forM_const {xs : List β} {f : β → Program D PUnit}
    (h : ∀ x ∈ xs, P.Confined i (fun _ => True) (f x)) :
    P.Confined i (fun _ => True) (forM xs f) :=
  (confined_forM (p := fun _ => True) h).mono fun _ _ => trivial

/-- A loop that collects results. -/
theorem confined_mapM {xs : List β} {f : β → Program D γ} {p : γ → Prop}
    (h : ∀ x ∈ xs, P.Confined i p (f x)) :
    P.Confined i (fun ys => ∀ y ∈ ys, p y) (xs.mapM f) := by
  induction xs with
  | nil =>
    rw [List.mapM_nil]
    exact confined_ret (by simp)
  | cons x xs ih =>
    rw [List.forall_mem_cons] at h
    rw [List.mapM_cons]
    apply h.1.bind
    intro y hy
    apply (ih h.2).bind
    intro ys hys
    exact confined_ret (List.forall_mem_cons.mpr ⟨hy, hys⟩)

end Rules

end Parties

/-! ### The session of a step -/

/-- The session a scheduler's choice is about. -/
def Action.session : Action D → ℕ
  | .advance j => j
  | .reply j _ => j
  | .rollback j => j

/-- What a step that is no commit makes of a session. -/
inductive Session.Advances (s : State) (t : Transaction D) : Program D α → Session D α → Prop
  | abort {p : Program D α} : Advances s t p (.aborted t)
  | select {next : State → Program D α} :
      Advances s t (.select next) (.running (next (t.view s)) t)
  | lock {k : Key} {next : State → Program D α} :
      Advances s t (.selectForUpdate k next) (.running (next (t.view s)) (t.lock k))
  | miss {k : Key} {next : State → Program D α} (habsent : D.present (t.view s) k = false) :
      Advances s t (.selectForUpdate k next) (.running (next (t.view s)) t)
  | write {edit : State → Except Error Edit} {next : Edit → Program D α} {e : Edit}
      (he : edit (t.view s) = .ok e) :
      Advances s t (.write edit next) (.running (next e) (t.write e))
  | reply {q : Call} {next : Reply → Program D α} {r : Reply} :
      Advances s t (.request q next) (.running (next r) (t.reply q r))

section Steps

variable [DecidableEq Key] {R : Discipline D} {c c' : Config D α} {x : Action D}

/-- A step lets its session go on, or commit. -/
theorem advances_of_step (h : c.step R x = some c') :
    ∃ p t, c.sessions[x.session]? = some (.running p t) ∧
      ((∃ y, Session.Advances c.committed t p y ∧ c' = c.setSession x.session y) ∨
        ∃ a, p = .ret a ∧ c' = c.commit x.session a t) := by
  cases x with
  | reply n r =>
    simp only [Config.step] at h
    split at h
    · rename_i q next t hn
      exact ⟨_, t, hn, .inl ⟨_, .reply, (Option.some.inj h).symm⟩⟩
    · cases h
  | rollback n =>
    simp only [Config.step] at h
    split at h
    · rename_i p t hn
      split_ifs at h
      exact ⟨p, t, hn, .inl ⟨_, .abort, (Option.some.inj h).symm⟩⟩
    · cases h
  | advance n =>
    simp only [Config.step] at h
    split at h
    · rename_i p t hn
      refine ⟨p, t, hn, ?_⟩
      cases p with
      | ret a =>
        simp only [Config.advance] at h
        split_ifs at h
        exact .inr ⟨a, rfl, (Option.some.inj h).symm⟩
      | raise e =>
        simp only [Config.advance] at h
        split_ifs at h
        exact .inl ⟨_, .abort, (Option.some.inj h).symm⟩
      | select next => exact .inl ⟨_, .select, (Option.some.inj h).symm⟩
      -- while another session holds the lock there is no step
      | selectForUpdate k next =>
        simp only [Config.advance] at h
        split_ifs at h with hpresent hheld
        · exact .inl ⟨_, .lock, (Option.some.inj h).symm⟩
        · exact .inl ⟨_, .miss (by simpa using hpresent), (Option.some.inj h).symm⟩
      | write edit next =>
        simp only [Config.advance] at h
        split at h
        · split_ifs at h
          exact .inl ⟨_, .abort, (Option.some.inj h).symm⟩
        · rename_i e he
          split_ifs at h
          exact .inl ⟨_, .write he, (Option.some.inj h).symm⟩
      | request q next => cases h
    · cases h

/-- A schedule with one more choice. -/
theorem run_concat {xs : List (Action D)} :
    c.run R (xs ++ [x]) = (c.run R xs).bind fun c' => c'.step R x := by
  induction xs generalizing c with
  | nil =>
    change (c.step R x).bind some = c.step R x
    cases c.step R x <;> rfl
  | cons y xs ih =>
    change (c.step R y).bind (fun c' => c'.run R (xs ++ [x])) = _
    simp only [ih]
    exact (Option.bind_assoc _ _ _).symm

end Steps

/-! ### The run of one party beside the shared run -/

/-- The transaction of the shared run and the one of the run alone: they have written and
asked the same, and the second holds no more locks. -/
structure Transaction.Mirrors (t t' : Transaction D) : Prop where
  held : t'.held ⊆ t.held
  edits : t'.edits = t.edits
  calls : t'.calls = t.calls

/-- The two sessions are at the same place, or have ended in the same way. -/
inductive Session.Mirrors : Session D α → Session D α → Prop
  | running {p : Program D α} {t t' : Transaction D} (h : t.Mirrors t') :
      Mirrors (.running p t) (.running p t')
  | committed {a : α} {t t' : Transaction D} (h : t.Mirrors t') :
      Mirrors (.committed a t) (.committed a t')
  | aborted {t t' : Transaction D} (h : t.Mirrors t') : Mirrors (.aborted t) (.aborted t')

namespace Transaction.Mirrors

variable {t t' : Transaction D} (h : t.Mirrors t')
include h

theorem view (s : State) : t'.view s = t.view s := by
  rw [Transaction.view, Transaction.view, h.edits]

theorem lock (k : Key) : (t.lock k).Mirrors (t'.lock k) :=
  ⟨List.cons_subset_cons k h.held, h.edits, h.calls⟩

/-- A lock that is not needed alone. -/
theorem lock_left (k : Key) : (t.lock k).Mirrors t' :=
  ⟨List.subset_cons_of_subset k h.held, h.edits, h.calls⟩

theorem write (e : Edit) : (t.write e).Mirrors (t'.write e) := by
  refine ⟨?_, ?_, h.calls⟩
  · exact List.append_subset.mpr ⟨List.subset_append_left _ _,
      List.Subset.trans h.held (List.subset_append_right _ _)⟩
  · rw [edits_write, edits_write, h.edits]

theorem reply (q : Call) (r : Reply) : (t.reply q r).Mirrors (t'.reply q r) := by
  refine ⟨h.held, h.edits, ?_⟩
  rw [calls_reply, calls_reply, h.calls]

end Transaction.Mirrors

theorem Session.Mirrors.held {x x' : Session D α} (h : x.Mirrors x') : x'.held ⊆ x.held := by
  cases h with
  | running h => exact h.held
  | committed h => exact List.nil_subset _
  | aborted h => exact List.nil_subset _

namespace Parties

variable {P : Parties D ι} {i j : ι} {s : State} {party : ℕ → ι} {c c' c₁ : Config D α} {n : ℕ}

/-- The committed state is one of the parties', and every open transaction belongs to the
party of its session, in what it wrote and in what it will do. -/
structure Sound (P : Parties D ι) (party : ℕ → ι) (c : Config D α) : Prop where
  inv : P.Inv c.committed
  running : ∀ {n : ℕ} {p : Program D α} {t : Transaction D},
    c.sessions[n]? = some (.running p t) →
      P.Confined (party n) (fun _ => True) p ∧ ∀ e ∈ t.edits, P.Admits (party n) e

/-- Beside the shared run `c`, the run `c'` of the party `i` alone. -/
structure Mirrors (P : Parties D ι) (party : ℕ → ι) (i : ι) (c c' : Config D α) : Prop where
  committed : c'.committed = P.view i c.committed
  mine : ∀ n, party n = i → Option.Rel Session.Mirrors c.sessions[n]? c'.sessions[n]?
  idle : ∀ n x, party n ≠ i → c'.sessions[n]? = some x → x.held = []

/-! ### What stays true of the shared run -/

section Sound

variable {p : Program D α} {t : Transaction D}

theorem Sound.inv_view (hc : P.Sound party c) (hn : c.sessions[n]? = some (.running p t)) :
    P.Inv (t.view c.committed) :=
  P.inv_replay hc.inv (hc.running hn).2

theorem Sound.view_view (hc : P.Sound party c) (hn : c.sessions[n]? = some (.running p t)) :
    P.view (party n) (t.view c.committed) = t.view (P.view (party n) c.committed) :=
  P.view_replay hc.inv (hc.running hn).2

/-- A session that has come to an end. -/
theorem Sound.set_ended (hc : P.Sound party c) {x : Session D α} (hx : x.ended = true)
    (hs : P.Inv s) (log : List (Commit D)) : P.Sound party ⟨s, c.sessions.set n x, log⟩ := by
  refine ⟨hs, fun {m q u} hm => ?_⟩
  rcases getElem?_setSession hm with ⟨-, rfl⟩ | ⟨-, hm⟩
  · cases hx
  · exact hc.running hm

theorem Sound.set_running (hc : P.Sound party c) (hp : P.Confined (party n) (fun _ => True) p)
    (ht : ∀ e ∈ t.edits, P.Admits (party n) e) :
    P.Sound party (c.setSession n (.running p t)) := by
  refine ⟨hc.inv, fun {m q u} hm => ?_⟩
  rcases getElem?_setSession hm with ⟨rfl, hsame⟩ | ⟨-, hm⟩
  · cases hsame
    exact ⟨hp, ht⟩
  · exact hc.running hm

theorem sound_start {ps : List (Program D α)} (hs : P.Inv s)
    (hps : ∀ n p, ps[n]? = some p → P.Confined (party n) (fun _ => True) p) :
    P.Sound party (.start s ps) := by
  refine ⟨hs, fun {n p t} hn => ?_⟩
  simp only [Config.start, List.getElem?_map, Option.map_eq_some_iff] at hn
  obtain ⟨q, hq, hrunning⟩ := hn
  cases hrunning
  exact ⟨hps n _ hq, by simp⟩

theorem Sound.moves [DecidableEq Key] {R : Discipline D} (hc : P.Sound party c)
    (h : Moves R c c₁) : P.Sound party c₁ := by
  cases h with
  | commit hn _ _ => exact hc.set_ended rfl (hc.inv_view hn) _
  | abort hn _ => exact hc.set_ended rfl hc.inv _
  | select hn =>
    have ⟨hp, ht⟩ := hc.running hn
    exact hc.set_running (hp _ (hc.inv_view hn)).2 ht
  | lock hn _ _ =>
    have ⟨hp, ht⟩ := hc.running hn
    exact hc.set_running (hp _ (hc.inv_view hn)).2 ht
  | miss hn _ =>
    have ⟨hp, ht⟩ := hc.running hn
    exact hc.set_running (hp _ (hc.inv_view hn)).2 ht
  | write hn hedit _ _ =>
    have ⟨hp, ht⟩ := hc.running hn
    have ⟨hadmits, hnext⟩ := (hp _ (hc.inv_view hn)).2 _ hedit
    apply hc.set_running hnext
    intro e he
    rcases List.mem_append.mp he with he | he
    · exact ht e he
    · rw [List.mem_singleton.mp he]
      exact hadmits
  | reply r hn =>
    have ⟨hp, ht⟩ := hc.running hn
    exact hc.set_running (hp r) ht

end Sound

/-! ### The two runs, step by step -/

section Steps

variable {p : Program D α} {t t' : Transaction D}

theorem Mirrors.of_running (h : P.Mirrors party i c c') (hni : party n = i)
    (hn : c.sessions[n]? = some (.running p t)) :
    ∃ t', c'.sessions[n]? = some (.running p t') ∧ t.Mirrors t' := by
  have hmine := h.mine n hni
  rw [hn] at hmine
  generalize hx : c'.sessions[n]? = x at hmine
  cases hmine with
  | some hsession =>
    cases hsession with
    | running ht => exact ⟨_, rfl, ht⟩

/-- The session `n` of the party goes on, in both runs, as the same. -/
theorem Mirrors.set (h : P.Mirrors party i c c') (hni : party n = i) {x x' : Session D α}
    (hx : x.Mirrors x') : P.Mirrors party i (c.setSession n x) (c'.setSession n x') := by
  refine ⟨h.committed, fun m hm => ?_, fun m y hm hy => ?_⟩
  · have hmine := h.mine m hm
    by_cases hmn : n = m
    · subst hmn
      simp only [Config.setSession, List.getElem?_set_self']
      generalize c.sessions[n]? = y, c'.sessions[n]? = y' at hmine ⊢
      cases hmine with
      | none => exact .none
      | some _ => exact .some hx
    · simp only [Config.setSession, List.getElem?_set_ne hmn]
      exact hmine
  · rcases getElem?_setSession hy with ⟨rfl, -⟩ | ⟨-, hy⟩
    · exact absurd hni hm
    · exact h.idle m y hm hy

/-- A session of another party goes on. -/
theorem Mirrors.set_other (h : P.Mirrors party i c c') (hni : party n ≠ i) (x : Session D α) :
    P.Mirrors party i (c.setSession n x) c' := by
  refine ⟨h.committed, fun m hm => ?_, h.idle⟩
  have hmn : n ≠ m := by
    rintro rfl
    exact hni hm
  simp only [Config.setSession, List.getElem?_set_ne hmn]
  exact h.mine m hm

/-- The session `n` of the party commits, in both runs. -/
theorem Mirrors.commit (h : P.Mirrors party i c c') (hc : P.Sound party c)
    (hni : party n = i) {a : α} (hn : c.sessions[n]? = some (.running (.ret a) t))
    (ht : t.Mirrors t') : P.Mirrors party i (c.commit n a t) (c'.commit n a t') := by
  have hset := h.set hni (.committed (a := a) ht)
  refine ⟨?_, hset.mine, hset.idle⟩
  have hview := hc.view_view hn
  rw [hni] at hview
  change t'.view c'.committed = P.view i (t.view c.committed)
  rw [hview, ht.view, h.committed]

/-- A session of another party commits. -/
theorem Mirrors.commit_other (h : P.Mirrors party i c c') (hc : P.Sound party c)
    (hni : party n ≠ i) {a : α} (hn : c.sessions[n]? = some (.running (.ret a) t)) :
    P.Mirrors party i (c.commit n a t) c' := by
  have hset := h.set_other hni (.committed a t)
  refine ⟨?_, hset.mine, hset.idle⟩
  exact h.committed.trans (P.view_replay_other hc.inv (hc.running hn).2 hni.symm).symm

variable [DecidableEq Key]

/-- Alone, a party does not find a lock taken that it would get in company. -/
theorem Mirrors.free (h : P.Mirrors party i c c') {k : Key}
    (hk : c.heldElsewhere n k = false) : c'.heldElsewhere n k = false := by
  rw [heldElsewhere_eq_false] at hk ⊢
  intro m x' hx' hmn hheld
  by_cases hm : party m = i
  · have hmine := h.mine m hm
    rw [hx'] at hmine
    generalize hx : c.sessions[m]? = x at hmine
    cases hmine with
    | some hsession => exact hk m _ hx hmn (hsession.held hheld)
  · rw [h.idle m x' hm hx'] at hheld
    cases hheld

/-- A step of another party does not show. -/
theorem Mirrors.step_other (h : P.Mirrors party i c c') (hc : P.Sound party c)
    {R : Discipline D} {x : Action D} (hx : party x.session ≠ i)
    (hstep : c.step R x = some c₁) : P.Mirrors party i c₁ c' := by
  obtain ⟨p, t, hn, ⟨y, -, rfl⟩ | ⟨a, rfl, rfl⟩⟩ := advances_of_step hstep
  · exact h.set_other hx y
  · exact h.commit_other hc hx hn

/-- The next statement of a session of the party is there alone as well, and does the
same. -/
theorem Mirrors.advance (h : P.Mirrors party i c c') (hc : P.Sound party c)
    (hni : party n = i) (hn : c.sessions[n]? = some (.running p t)) (ht : t.Mirrors t')
    (hstep : c.advance (.free D) n p t = some c₁) :
    ∃ c₁', c'.advance (.free D) n p t' = some c₁' ∧ P.Mirrors party i c₁ c₁' := by
  have hinv := hc.inv_view hn
  have ⟨hp, _⟩ := hc.running hn
  -- what the statement sees alone is what the party sees in company
  have hview : t'.view c'.committed = P.view i (t.view c.committed) := by
    have hown := hc.view_view hn
    rw [hni] at hown
    rw [hown, ht.view, h.committed]
  rw [hni] at hp
  cases p with
  | ret a =>
    obtain rfl : c.commit n a t = c₁ := by simpa [Config.advance, Discipline.free] using hstep
    exact ⟨c'.commit n a t', by simp [Config.advance, Discipline.free],
      h.commit hc hni hn ht⟩
  | raise e =>
    obtain rfl : c.setSession n (.aborted t) = c₁ := by
      simpa [Config.advance, Discipline.free] using hstep
    exact ⟨c'.setSession n (.aborted t'), by simp [Config.advance, Discipline.free],
      h.set hni (.aborted ht)⟩
  | select next =>
    obtain rfl := Option.some.inj hstep
    refine ⟨_, rfl, ?_⟩
    rw [hview, (hp _ hinv).1]
    exact h.set hni (.running ht)
  | selectForUpdate k next =>
    have hnext : next (t'.view c'.committed) = next (t.view c.committed) := by
      rw [hview, (hp _ hinv).1]
    have hlocks : ∀ u u' : Transaction D, u.Mirrors u' →
        P.Mirrors party i (c.setSession n (.running (next (t.view c.committed)) u))
          (c'.setSession n (.running (next (t'.view c'.committed)) u')) := by
      intro u u' hu
      rw [hnext]
      exact h.set hni (.running hu)
    simp only [Config.advance] at hstep ⊢
    split_ifs at hstep with hpresent hheld
    · obtain rfl := Option.some.inj hstep
      -- alone, the row may be one that is not there
      by_cases hpresent' : D.present (t'.view c'.committed) k = true
      · rw [if_pos hpresent', if_neg (Bool.eq_false_iff.mp (h.free (Bool.not_eq_true _ ▸ hheld)))]
        exact ⟨_, rfl, hlocks _ _ (ht.lock k)⟩
      · rw [if_neg hpresent']
        exact ⟨_, rfl, hlocks _ _ (ht.lock_left k)⟩
    · obtain rfl := Option.some.inj hstep
      have habsent' : D.present (t'.view c'.committed) k ≠ true := by
        rw [hview]
        exact fun hmine => hpresent (P.present_of_view hmine)
      rw [if_neg habsent']
      exact ⟨_, rfl, hlocks _ _ ht⟩
  | write edit next =>
    have hedit : edit (t'.view c'.committed) = edit (t.view c.committed) := by
      rw [hview, (hp _ hinv).1]
    simp only [Config.advance] at hstep ⊢
    rw [hedit]
    cases he : edit (t.view c.committed) with
    | error err =>
      simp only [he] at hstep ⊢
      obtain rfl : c.setSession n (.aborted t) = c₁ := by
        simpa [Discipline.free] using hstep
      exact ⟨c'.setSession n (.aborted t'), by simp [Discipline.free],
        h.set hni (.aborted ht)⟩
    | ok e =>
      simp only [he] at hstep ⊢
      split_ifs at hstep with hheld hok
      obtain rfl := Option.some.inj hstep
      have hfree : (D.footprint e).any (c'.heldElsewhere n) = false := by
        rw [Bool.not_eq_true, List.any_eq_false] at hheld
        rw [List.any_eq_false]
        intro k hk
        rw [h.free (Bool.eq_false_iff.mpr (hheld k hk))]
        decide
      rw [if_neg (Bool.eq_false_iff.mp hfree)]
      exact ⟨_, rfl, h.set hni (.running (ht.write e))⟩
  | request q next => cases hstep

/-- A step of the party is one of its run alone. -/
theorem Mirrors.step_mine (h : P.Mirrors party i c c') (hc : P.Sound party c)
    {x : Action D} (hx : party x.session = i) (hstep : c.step (.free D) x = some c₁) :
    ∃ c₁', c'.step (.free D) x = some c₁' ∧ P.Mirrors party i c₁ c₁' := by
  cases x with
  | advance n =>
    simp only [Config.step] at hstep ⊢
    split at hstep
    · rename_i p t hn
      obtain ⟨t', hn', ht⟩ := h.of_running (n := n) hx hn
      rw [hn']
      exact h.advance hc hx hn ht hstep
    · cases hstep
  | reply n r =>
    simp only [Config.step] at hstep ⊢
    split at hstep
    · rename_i q next t hn
      obtain ⟨t', hn', ht⟩ := h.of_running (n := n) hx hn
      obtain rfl := Option.some.inj hstep
      rw [hn']
      exact ⟨_, rfl, h.set hx (.running (ht.reply q r))⟩
    · cases hstep
  | rollback n =>
    simp only [Config.step] at hstep ⊢
    split at hstep
    · rename_i p t hn
      obtain ⟨t', hn', ht⟩ := h.of_running (n := n) hx hn
      obtain rfl : c.setSession n (.aborted t) = c₁ := by
        simpa [Discipline.free] using hstep
      rw [hn']
      exact ⟨c'.setSession n (.aborted t'), by simp [Discipline.free],
        h.set hx (.aborted ht)⟩
    · cases hstep

end Steps

/-! ### Whole runs -/

theorem mirrors_start {ps : List (Program D α)} :
    P.Mirrors party i (.start s ps) (.start (P.view i s) ps) := by
  refine ⟨rfl, fun n _ => ?_, fun n x _ hx => ?_⟩
  · simp only [Config.start, List.getElem?_map]
    cases ps[n]? with
    | none => exact .none
    | some p => exact .some (.running ⟨List.Subset.refl _, rfl, rfl⟩)
  · simp only [Config.start, List.getElem?_map, Option.map_eq_some_iff] at hx
    obtain ⟨p, -, rfl⟩ := hx
    rfl

section Runs

variable [DecidableEq Key] [DecidableEq ι]

/-- The steps of one party, from two states of which one mirrors the other. -/
theorem Mirrors.run {c₂ : Config D α} {xs : List (Action D)} (h : P.Mirrors party i c c')
    (hc : P.Sound party c) (hrun : c.run (.free D) xs = some c₂) :
    ∃ c₂', c'.run (.free D) (xs.filter fun x => party x.session = i) = some c₂' ∧
      P.Mirrors party i c₂ c₂' := by
  induction xs generalizing c c' with
  | nil =>
    obtain rfl : c = c₂ := by simpa [Config.run] using hrun
    exact ⟨c', rfl, h⟩
  | cons x xs ih =>
    obtain ⟨c₁, hstep, hrest⟩ := Option.bind_eq_some_iff.mp hrun
    have hc₁ := hc.moves (moves_of_step hstep)
    by_cases hx : party x.session = i
    · obtain ⟨c₁', hstep', h₁⟩ := h.step_mine hc hx hstep
      obtain ⟨c₂', hrest', h₂⟩ := ih h₁ hc₁ hrest
      rw [List.filter_cons_of_pos (by simpa using hx)]
      exact ⟨c₂', Option.bind_eq_some_iff.mpr ⟨c₁', hstep', hrest'⟩, h₂⟩
    · rw [List.filter_cons_of_neg (by simpa using hx)]
      exact ih (h.step_other hc hx hstep) hc₁ hrest

omit [DecidableEq ι] in
/-- What all states satisfy stays true in any run of confined programs. -/
theorem inv_of_reaches {R : Discipline D} {ps : List (Program D α)} (hs : P.Inv s)
    (hps : ∀ n p, ps[n]? = some p → P.Confined (party n) (fun _ => True) p)
    (h : Reaches R (.start s ps) c) : P.Inv c.committed :=
  (h.induction (sound_start hs hps) fun hc hm => hc.moves hm).inv

/-- In any run of confined programs the steps of one party are a run of their own, from what
the party sees of the first state. In it the sessions of the party come to the same places,
with the same results, edits and calls, and the last state is what the party sees of the last
state of the shared run. -/
theorem run_alone {ps : List (Program D α)} {xs : List (Action D)} (hs : P.Inv s)
    (hps : ∀ n p, ps[n]? = some p → P.Confined (party n) (fun _ => True) p)
    (hrun : (Config.start s ps).run (.free D) xs = some c) (i : ι) :
    ∃ c', (Config.start (P.view i s) ps).run (.free D)
        (xs.filter fun x => party x.session = i) = some c' ∧ P.Mirrors party i c c' :=
  mirrors_start.run (sound_start hs hps) hrun

end Runs

end Parties

end ReadCommitted
