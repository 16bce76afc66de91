import Mathlib.Data.List.Chain
import PulseOps.ReadCommitted.Schedule

/-!
# Rely-guarantee reasoning for interleaved transactions

A contract says what every committed state satisfies, how the committed state may
change over time, and what the lock on a key keeps still. A transaction that holds
some locks may rely on the others to keep the contract and to leave alone what its
locks protect. In return its own commit must keep the contract and leave alone what
the locks it does not hold protect.

`Contract.wp` is the weakest precondition of a program under such interference. Only
the programs have to be looked at: a system in which every program meets its
precondition keeps the contract in every interleaving.

## Main definitions

* `Contract` — what all transactions agree on.
* `Contract.Rely` — what the others may do to the committed state.
* `Contract.wp` — the weakest precondition of a program.
* `Contract.Triple` — preconditions and postconditions that the others cannot disturb.
* `Contract.Commits` — the guarantee owed by a commit.

## Main results

* `Contract.wp_bind`, `Contract.wp_of_readsOnly`, `Contract.wp_of_emits` — rules for
  composed programs, for reads and for programs that only write harmless edits.
* `Contract.reaches_induction` — the induction rule for runs whose commits are guaranteed.
* `Contract.reaches_chain` — the committed states of a run, one after the other.
* `Contract.of_reaches` — the contract holds in every run.
-/

set_option autoImplicit false

namespace ReadCommitted

variable {State Key Edit Call Reply Error : Type}
  {D : Database State Key Edit Call Reply Error} {α β : Type}

/-- What all transactions agree on: an invariant of the committed states, a preorder in
which the committed state moves, and, for each key, what its lock keeps still. -/
structure Contract (D : Database State Key Edit Call Reply Error) where
  inv : State → Prop
  evolves : State → State → Prop
  agree : Key → State → State → Prop
  evolves_refl (s : State) : evolves s s
  evolves_trans {s₁ s₂ s₃ : State} : evolves s₁ s₂ → evolves s₂ s₃ → evolves s₁ s₃
  agree_refl (k : Key) (s : State) : agree k s s
  agree_trans {k : Key} {s₁ s₂ s₃ : State} :
    agree k s₁ s₂ → agree k s₂ s₃ → agree k s₁ s₃

namespace Contract

/-- What the other sessions may do while the transaction `t` is open. -/
structure Rely (L : Contract D) (t : Transaction D) (s s' : State) : Prop where
  inv : L.inv s'
  evolves : L.evolves s s'
  agree : ∀ k ∈ t.held, L.agree k s s'

variable {L : Contract D} {R : Discipline D} {t : Transaction D} {s s' s'' : State}

theorem Rely.refl (hs : L.inv s) : L.Rely t s s :=
  ⟨hs, L.evolves_refl s, fun k _ => L.agree_refl k s⟩

theorem Rely.trans (h : L.Rely t s s') (h' : L.Rely t s' s'') : L.Rely t s s'' :=
  ⟨h'.inv, L.evolves_trans h.evolves h'.evolves,
    fun k hk => L.agree_trans (h.agree k hk) (h'.agree k hk)⟩

/-- The weakest precondition of a program for the postcondition `Q`, from the committed
state `s` with the transaction `t` open. Before each statement the others may have
moved the committed state. -/
def wp (L : Contract D) (R : Discipline D) (Q : α → Transaction D → State → Prop) :
    Program D α → Transaction D → State → Prop
  | .ret a, t, s => ∀ s', L.Rely t s s' → Q a t s'
  | .raise _, _, _ => True
  | .select next, t, s => ∀ s', L.Rely t s s' → wp L R Q (next (t.view s')) t s'
  | .selectForUpdate k next, t, s => ∀ s', L.Rely t s s' →
      (D.present (t.view s') k = true → wp L R Q (next (t.view s')) (t.lock k) s') ∧
      (D.present (t.view s') k = false → wp L R Q (next (t.view s')) t s')
  | .write edit next, t, s => ∀ s', L.Rely t s s' → ∀ e, edit (t.view s') = .ok e →
      R.write s' t e = true → wp L R Q (next e) (t.write e) s'
  | .request q next, t, s => ∀ s', L.Rely t s s' → ∀ r, wp L R Q (next r) (t.reply q r) s'

/-- A precondition survives what the others may do. -/
theorem wp_of_rely {Q : α → Transaction D → State → Prop} {p : Program D α}
    (h : L.wp R Q p t s) (hr : L.Rely t s s') : L.wp R Q p t s' := by
  cases p with
  | ret a => exact fun s'' h' => h s'' (hr.trans h')
  | raise e => trivial
  | select next => exact fun s'' h' => h s'' (hr.trans h')
  | selectForUpdate k next => exact fun s'' h' => h s'' (hr.trans h')
  | write edit next => exact fun s'' h' => h s'' (hr.trans h')
  | request q next => exact fun s'' h' => h s'' (hr.trans h')

theorem wp_mono {Q Q' : α → Transaction D → State → Prop} {p : Program D α}
    (h : L.wp R Q p t s) (hQ : ∀ a t s, Q a t s → Q' a t s) : L.wp R Q' p t s := by
  induction p generalizing t s with
  | ret a => exact fun s' hr => hQ a t s' (h s' hr)
  | raise e => trivial
  | select next ih => exact fun s' hr => ih _ (h s' hr)
  | selectForUpdate k next ih =>
    exact fun s' hr => ⟨fun hk => ih _ ((h s' hr).1 hk), fun hk => ih _ ((h s' hr).2 hk)⟩
  | write edit next ih => exact fun s' hr e he hok => ih e (h s' hr e he hok)
  | request q next ih => exact fun s' hr r => ih r (h s' hr r)

/-- Composed programs: the rest of the program is the postcondition of the first part. -/
theorem wp_bind {Q : β → Transaction D → State → Prop} {p : Program D α}
    {f : α → Program D β} (hs : L.inv s)
    (h : L.wp R (fun a t s => L.inv s → L.wp R Q (f a) t s) p t s) :
    L.wp R Q (p >>= f) t s := by
  induction p generalizing t s with
  | ret a => exact h s (.refl hs) hs
  | raise e => trivial
  | select next ih => exact fun s' hr => ih _ hr.inv (h s' hr)
  | selectForUpdate k next ih =>
    exact fun s' hr => ⟨fun hk => ih _ hr.inv ((h s' hr).1 hk),
      fun hk => ih _ hr.inv ((h s' hr).2 hk)⟩
  | write edit next ih => exact fun s' hr e he hok => ih e hr.inv (h s' hr e he hok)
  | request q next ih => exact fun s' hr r => ih r hr.inv (h s' hr r)

/-- Reads alone change nothing but the committed state, which the others may move. -/
theorem wp_of_readsOnly {Q : α → Transaction D → State → Prop} {p : Program D α}
    (hp : p.ReadsOnly) (h : ∀ a s', L.Rely t s s' → Q a t s') : L.wp R Q p t s := by
  induction hp generalizing s with
  | ret a => exact fun s' hr => h a s' hr
  | raise e => trivial
  | select _ ih => exact fun s' hr => ih _ fun a s'' hr' => h a s'' (hr.trans hr')

end Contract

/-! ### Programs that only write edits of one kind -/

namespace Program

/-- Every edit the program can write satisfies `P`. -/
def Emits (P : Edit → Prop) : Program D α → Prop
  | ret _ => True
  | raise _ => True
  | select next => ∀ s, (next s).Emits P
  | selectForUpdate _ next => ∀ s, (next s).Emits P
  | write edit next => ∀ s e, edit s = .ok e → P e ∧ (next e).Emits P
  | request _ next => ∀ r, (next r).Emits P

variable {P P' : Edit → Prop}

theorem Emits.bind {p : Program D α} {f : α → Program D β} (hp : p.Emits P)
    (hf : ∀ a, (f a).Emits P) : (p >>= f).Emits P := by
  induction p with
  | ret a => exact hf a
  | raise e => trivial
  | select next ih => exact fun s => ih s (hp s)
  | selectForUpdate k next ih => exact fun s => ih s (hp s)
  | write edit next ih => exact fun s e he => ⟨(hp s e he).1, ih e (hp s e he).2⟩
  | request q next ih => exact fun r => ih r (hp r)

theorem Emits.mono {p : Program D α} (hp : p.Emits P) (h : ∀ e, P e → P' e) :
    p.Emits P' := by
  induction p with
  | ret a => trivial
  | raise e => trivial
  | select next ih => exact fun s => ih s (hp s)
  | selectForUpdate k next ih => exact fun s => ih s (hp s)
  | write edit next ih => exact fun s e he => ⟨h e (hp s e he).1, ih e (hp s e he).2⟩
  | request q next ih => exact fun r => ih r (hp r)

theorem ReadsOnly.emits {p : Program D α} (hp : p.ReadsOnly) : p.Emits P := by
  induction hp with
  | ret a => trivial
  | raise e => trivial
  | select _ ih => exact ih

theorem emits_lockRow (k : Key) : (lockRow k : Program D Unit).Emits P := fun _ => trivial

theorem emits_perform {edit : State → Except Error Edit}
    (h : ∀ s e, edit s = .ok e → P e) : (perform edit : Program D Unit).Emits P :=
  fun s e he => ⟨h s e he, trivial⟩

theorem Emits.forM {xs : List β} {f : β → Program D PUnit}
    (hf : ∀ x ∈ xs, (f x).Emits P) : (forM xs f).Emits P := by
  induction xs with
  | nil => trivial
  | cons x xs ih =>
    exact (hf x (by simp)).bind fun _ => ih fun y hy => hf y (by simp [hy])

end Program

namespace Contract

variable {L : Contract D} {R : Discipline D} {t : Transaction D} {s : State}

/-- A program keeps an assertion that the others, its own locks and calls, and the edits
it can write all keep. -/
theorem wp_of_emits {Q : α → Transaction D → State → Prop} {p : Program D α}
    {P : Edit → Prop} (I : Transaction D → State → Prop) (hp : p.Emits P)
    (hrely : ∀ t s s', I t s → L.Rely t s s' → I t s')
    (hlock : ∀ t s k, I t s → I (t.lock k) s)
    (hwrite : ∀ t s e, I t s → P e → R.write s t e = true → I (t.write e) s)
    (hreply : ∀ t s q r, I t s → I (t.reply q r) s)
    (hQ : ∀ a t s, I t s → Q a t s) (hI : I t s) : L.wp R Q p t s := by
  induction p generalizing t s with
  | ret a => exact fun s' hr => hQ a t s' (hrely t s s' hI hr)
  | raise e => trivial
  | select next ih => exact fun s' hr => ih _ (hp _) (hrely t s s' hI hr)
  | selectForUpdate k next ih =>
    intro s' hr
    have hI' := hrely t s s' hI hr
    exact ⟨fun _ => ih _ (hp _) (hlock t s' k hI'), fun _ => ih _ (hp _) hI'⟩
  | write edit next ih =>
    intro s' hr e he hok
    obtain ⟨hPe, hnext⟩ := hp _ e he
    exact ih e hnext (hwrite t s' e (hrely t s s' hI hr) hPe hok)
  | request q next ih =>
    exact fun s' hr r => ih r (hp r) (hreply t s' q r (hrely t s s' hI hr))

/-! ### Triples -/

open Program

/-- The others cannot make the assertion false. -/
def Stable (L : Contract D) (P : Transaction D → State → Prop) : Prop :=
  ∀ t s s', L.inv s → P t s → L.Rely t s s' → P t s'

/-- From a state with `P` the program leads to states with `Q`. -/
def Triple (L : Contract D) (R : Discipline D) (P : Transaction D → State → Prop)
    (p : Program D α) (Q : α → Transaction D → State → Prop) : Prop :=
  ∀ t s, L.inv s → P t s → L.wp R Q p t s

namespace Triple

variable {P P' : Transaction D → State → Prop} {Q : α → Transaction D → State → Prop}
  {Q' : β → Transaction D → State → Prop}

theorem bind {p : Program D α} {f : α → Program D β} (hp : L.Triple R P p Q)
    (hf : ∀ a, L.Triple R (Q a) (f a) Q') : L.Triple R P (p >>= f) Q' := by
  intro t s hs hP
  refine wp_bind hs (wp_mono (hp t s hs hP) fun a t s hQ hs' => ?_)
  exact hf a t s hs' hQ

theorem pre {p : Program D α} (hp : L.Triple R P' p Q)
    (h : ∀ t s, L.inv s → P t s → P' t s) : L.Triple R P p Q :=
  fun t s hs hP => hp t s hs (h t s hs hP)

theorem post {Q₁ : α → Transaction D → State → Prop} {p : Program D α}
    (hp : L.Triple R P p Q) (h : ∀ a t s, Q a t s → Q₁ a t s) : L.Triple R P p Q₁ :=
  fun t s hs hP => wp_mono (hp t s hs hP) h

theorem ret {a : α} (hQ : L.Stable (Q a)) : L.Triple R (Q a) (.ret a : Program D α) Q :=
  fun t s hs hP s' hr => hQ t s s' hs hP hr

theorem raise {e : Error} : L.Triple R P (.raise e : Program D α) Q := fun _ _ _ _ => trivial

/-- Reads keep whatever the others keep. -/
theorem readsOnly {p : Program D α} (hp : p.ReadsOnly) (hP : L.Stable P) :
    L.Triple R P p fun _ => P :=
  fun t s hs h => wp_of_readsOnly hp fun _ s' hr => hP t s s' hs h hr

theorem query_bind {γ : Type} {A : γ → Transaction D → State → Prop} {q : State → γ}
    {f : γ → Program D β} (hP : L.Stable P)
    (hread : ∀ t s, L.inv s → P t s → A (q (t.view s)) t s)
    (hf : ∀ a, L.Triple R (A a) (f a) Q') : L.Triple R P (query q >>= f) Q' := by
  intro t s hs h s' hr
  exact hf _ t s' hr.inv (hread t s' hr.inv (hP t s s' hs h hr))

/-- A row that is there is locked and read in one statement. -/
theorem lockAndRead_bind {γ : Type} {A : γ → Transaction D → State → Prop} {k : Key}
    {q : State → γ} {f : γ → Program D β} (hP : L.Stable P)
    (hlock : ∀ t s, L.inv s → P t s → D.present (t.view s) k = true →
      A (q (t.view s)) (t.lock k) s)
    (hmiss : ∀ t s, L.inv s → P t s → D.present (t.view s) k = false →
      A (q (t.view s)) t s)
    (hf : ∀ a, L.Triple R (A a) (f a) Q') : L.Triple R P (lockAndRead k q >>= f) Q' := by
  intro t s hs h s' hr
  have h' := hP t s s' hs h hr
  exact ⟨fun hk => hf _ _ s' hr.inv (hlock t s' hr.inv h' hk),
    fun hk => hf _ t s' hr.inv (hmiss t s' hr.inv h' hk)⟩

/-- A row that is known to be there is locked. -/
theorem lockRow_held_bind {A : Transaction D → State → Prop} {k : Key}
    {f : Unit → Program D β} (hP : L.Stable P)
    (hpresent : ∀ t s, L.inv s → P t s → D.present (t.view s) k = true)
    (hlock : ∀ t s, L.inv s → P t s → A (t.lock k) s) (hf : L.Triple R A (f ()) Q') :
    L.Triple R P (lockRow k >>= f) Q' := by
  intro t s hs h s' hr
  have h' := hP t s s' hs h hr
  refine ⟨fun _ => hf _ s' hr.inv (hlock t s' hr.inv h'), fun habsent => ?_⟩
  rw [hpresent t s' hr.inv h'] at habsent
  cases habsent

/-- A row is locked if it is there. -/
theorem lockRow_any_bind {A : Transaction D → State → Prop} {k : Key} {f : Unit → Program D β}
    (hP : L.Stable P) (hlock : ∀ t s, P t s → A (t.lock k) s) (hmiss : ∀ t s, P t s → A t s)
    (hf : L.Triple R A (f ()) Q') : L.Triple R P (lockRow k >>= f) Q' := by
  intro t s hs h s' hr
  have h' := hP t s s' hs h hr
  exact ⟨fun _ => hf _ s' hr.inv (hlock t s' h'), fun _ => hf t s' hr.inv (hmiss t s' h')⟩

theorem lockRow_bind {k : Key} {f : Unit → Program D β} (hP : L.Stable P)
    (hlock : ∀ t s, P t s → P (t.lock k) s) (hf : L.Triple R P (f ()) Q') :
    L.Triple R P (lockRow k >>= f) Q' :=
  lockRow_any_bind hP hlock (fun _ _ h => h) hf

theorem perform {edit : State → Except Error Edit} {Q : Unit → Transaction D → State → Prop}
    (hP : L.Stable P) (hQ : L.Stable (Q ()))
    (hwrite : ∀ t s e, L.inv s → P t s → edit (t.view s) = .ok e → R.write s t e = true →
      Q () (t.write e) s) : L.Triple R P (Program.perform edit) Q := by
  intro t s hs h s' hr e he hok s'' hr'
  exact hQ _ s' s'' hr.inv (hwrite t s' e hr.inv (hP t s s' hs h hr) he hok) hr'

theorem send_bind {A : Reply → Transaction D → State → Prop} {q : Call}
    {f : Reply → Program D β} (hP : L.Stable P)
    (hreply : ∀ t s r, P t s → A r (t.reply q r) s)
    (hf : ∀ r, L.Triple R (A r) (f r) Q') : L.Triple R P (send q >>= f) Q' := by
  intro t s hs h s' hr r
  exact hf r _ s' hr.inv (hreply t s' r (hP t s s' hs h hr))

theorem require_bind {C : Prop} [Decidable C] {e : Error} {f : Unit → Program D β}
    (hf : C → L.Triple R P (f ()) Q') : L.Triple R P (require C e >>= f) Q' := by
  by_cases hC : C
  · simpa [require, hC] using hf hC
  · simpa [require, hC] using raise

theorem orRaise_bind {γ : Type} {x : Option γ} {e : Error} {f : γ → Program D β}
    (hf : ∀ a, x = some a → L.Triple R P (f a) Q') : L.Triple R P (orRaise x e >>= f) Q' := by
  cases x with
  | none => exact raise
  | some a => exact hf a rfl

/-- A loop, with an assertion about what is left of it. -/
theorem forM {I : List β → Transaction D → State → Prop} {xs : List β}
    {f : β → Program D PUnit} (hI : L.Stable (I []))
    (hf : ∀ x xs, L.Triple R (I (x :: xs)) (f x) fun _ => I xs) :
    L.Triple R (I xs) (forM xs f) fun _ => I [] := by
  induction xs with
  | nil => exact ret (Q := fun _ => I []) hI
  | cons x xs ih => exact (hf x xs).bind fun _ => ih

/-- A loop whose rounds keep one assertion. -/
theorem forM_const {xs : List β} {f : β → Program D PUnit} (hP : L.Stable P)
    (hf : ∀ x, L.Triple R P (f x) fun _ => P) : L.Triple R P (ForM.forM xs f) fun _ => P :=
  forM (I := fun _ => P) hP fun x _ => hf x

/-- A precondition that names something. -/
theorem of_exists {ι : Type} {I : ι → Transaction D → State → Prop} {p : Program D α}
    (hp : ∀ i, L.Triple R (I i) p Q) : L.Triple R (fun t s => ∃ i, I i t s) p Q := by
  rintro t s hs ⟨i, h⟩
  exact hp i t s hs h

/-- Two ways to have come here. -/
theorem of_or {p : Program D α} (hp : L.Triple R P p Q) (hp' : L.Triple R P' p Q) :
    L.Triple R (fun t s => P t s ∨ P' t s) p Q := by
  rintro t s hs (h | h)
  · exact hp t s hs h
  · exact hp' t s hs h

/-- A precondition that does not depend on the state. -/
theorem of_and {C : Prop} {p : Program D α} (hp : C → L.Triple R P p Q) :
    L.Triple R (fun t s => C ∧ P t s) p Q := by
  rintro t s hs ⟨hC, h⟩
  exact hp hC t s hs h

/-- A loop with results, whose rounds keep one assertion. -/
theorem mapM_const {γ : Type} {xs : List β} {f : β → Program D γ} (hP : L.Stable P)
    (hf : ∀ x, L.Triple R P (f x) fun _ => P) : L.Triple R P (xs.mapM f) fun _ => P := by
  induction xs with
  | nil => exact ret (Q := fun _ => P) hP
  | cons x xs ih =>
    rw [List.mapM_cons]
    exact (hf x).bind fun _ => ih.bind fun _ => ret (Q := fun _ => P) hP

end Triple

/-! ### Soundness -/

/-- The guarantee of a commit: the contract is kept, and what the locks protect that others
may hold at that moment stays as it was. -/
structure Guarantee (L : Contract D) (R : Discipline D) (t : Transaction D) (s : State) :
    Prop where
  inv : L.inv (t.view s)
  evolves : L.evolves s (t.view s)
  agree : ∀ k ∉ t.held, k ∉ R.alone t → L.agree k s (t.view s)

/-- The postcondition every program owes: a commit the discipline allows is guaranteed, and
`Q` holds of it. -/
def Commits (L : Contract D) (R : Discipline D) (Q : α → Transaction D → State → Prop)
    (a : α) (t : Transaction D) (s : State) : Prop :=
  L.inv s → R.commit s t = true → L.Guarantee R t s ∧ Q a t s

variable {Q : ℕ → α → Transaction D → State → Prop}

/-- Every open transaction meets its precondition at the committed state. -/
private structure Sound (L : Contract D) (R : Discipline D)
    (Q : ℕ → α → Transaction D → State → Prop) (c : Config D α) : Prop where
  inv : L.inv c.committed
  disjoint : LocksDisjoint c
  open_wp : ∀ (i : ℕ) (p : Program D α) (t : Transaction D),
    c.sessions[i]? = some (.running p t) → L.wp R (L.Commits R (Q i)) p t c.committed

private theorem Sound.setSession {c : Config D α} {i : ℕ} {x : Session D α}
    (hc : Sound L R Q c) (hdisj : LocksDisjoint (c.setSession i x))
    (hx : ∀ p t, x = .running p t → L.wp R (L.Commits R (Q i)) p t c.committed) :
    Sound L R Q (c.setSession i x) where
  inv := hc.inv
  disjoint := hdisj
  open_wp j p t hj := by
    rcases getElem?_setSession hj with ⟨rfl, h⟩ | ⟨-, h⟩
    · exact hx p t h.symm
    · exact hc.open_wp j p t h

/-- The others see a guaranteed commit as interference they rely on. -/
private theorem Sound.commit {c : Config D α} {i : ℕ} {a : α} {t : Transaction D}
    (hc : Sound L R Q c) (hi : c.sessions[i]? = some (.running (.ret a) t))
    (hg : L.Guarantee R t c.committed)
    (halone : ∀ k ∈ R.alone t, ∀ (j : ℕ) (x : Session D α), c.sessions[j]? = some x → j ≠ i →
      k ∉ x.held) (hdisj : LocksDisjoint (c.commit i a t)) :
    Sound L R Q (c.commit i a t) where
  inv := hg.inv
  disjoint := hdisj
  open_wp j p t' hj := by
    rcases getElem?_setSession hj with ⟨-, h⟩ | ⟨hji, h⟩
    · cases h
    · refine wp_of_rely (hc.open_wp j p t' h) ⟨hg.inv, hg.evolves, fun k hk => ?_⟩
      exact hg.agree k (hc.disjoint j i _ _ h hi hji k hk)
        fun hmem => halone k hmem j _ h hji hk

private theorem Sound.start {s₀ : State} {ps : List (Program D α)} (hs : L.inv s₀)
    (hps : ∀ i p, ps[i]? = some p → L.wp R (L.Commits R (Q i)) p {} s₀) :
    Sound L R Q (.start s₀ ps) where
  inv := hs
  disjoint := locksDisjoint_start s₀ ps
  open_wp i p t hi := by
    simp only [Config.start, List.getElem?_map, Option.map_eq_some_iff] at hi
    obtain ⟨q, hq, hpt⟩ := hi
    cases hpt
    exact hps i _ hq

variable [DecidableEq Key]

/-- Soundness goes on with every step. -/
private theorem Sound.moves {c c' : Config D α} (hc : Sound L R Q c) (hm : Moves R c c') :
    Sound L R Q c' := by
  have hdisj := hc.disjoint.moves hm
  have hset {i : ℕ} {p' : Program D α} {t' : Transaction D}
      (hdisj : LocksDisjoint (c.setSession i (.running p' t')))
      (hwp : L.wp R (L.Commits R (Q i)) p' t' c.committed) :
      Sound L R Q (c.setSession i (.running p' t')) := by
    refine hc.setSession hdisj fun p t h => ?_
    cases h
    exact hwp
  cases hm with
  | @commit i a t hi hok halone =>
    obtain ⟨hg, -⟩ := hc.open_wp _ _ _ hi _ (.refl hc.inv) hc.inv hok
    exact hc.commit hi hg (fun k hk => heldElsewhere_eq_false.mp (halone k hk)) hdisj
  | abort hi hok => exact hc.setSession hdisj fun _ _ h => nomatch h
  | select hi => exact hset hdisj (hc.open_wp _ _ _ hi _ (.refl hc.inv))
  | lock hi hpresent _ => exact hset hdisj ((hc.open_wp _ _ _ hi _ (.refl hc.inv)).1 hpresent)
  | miss hi habsent => exact hset hdisj ((hc.open_wp _ _ _ hi _ (.refl hc.inv)).2 habsent)
  | write hi hedit _ hok =>
    exact hset hdisj (hc.open_wp _ _ _ hi _ (.refl hc.inv) _ hedit hok)
  | reply r hi => exact hset hdisj (hc.open_wp _ _ _ hi _ (.refl hc.inv) r)

/-- The induction rule of the logic: what the start satisfies and every guaranteed commit,
every rollback and every other step keeps, holds in every run. Each session has a
postcondition of its own. -/
theorem reaches_induction_indexed {P : Config D α → Prop} {s₀ : State}
    {ps : List (Program D α)} {c : Config D α} (hs : L.inv s₀)
    (hps : ∀ i p, ps[i]? = some p → L.wp R (L.Commits R (Q i)) p {} s₀)
    (hstart : P (.start s₀ ps))
    (hcommit : ∀ (c : Config D α) (i : ℕ) (a : α) (t : Transaction D), P c →
      c.sessions[i]? = some (.running (.ret a) t) → R.commit c.committed t = true →
      L.inv c.committed → L.Guarantee R t c.committed → Q i a t c.committed → P (c.commit i a t))
    (habort : ∀ (c : Config D α) (i : ℕ) (p : Program D α) (t : Transaction D), P c →
      c.sessions[i]? = some (.running p t) → R.rollback t = true →
      P (c.setSession i (.aborted t)))
    (hrun : ∀ (c : Config D α) (i : ℕ) (p p' : Program D α) (t t' : Transaction D), P c →
      c.sessions[i]? = some (.running p t) → P (c.setSession i (.running p' t')))
    (h : Reaches R (.start s₀ ps) c) : P c := by
  have hall := h.induction (P := fun c => Sound L R Q c ∧ P c) ⟨.start hs hps, hstart⟩
    fun {c c'} hc hm => ?_
  · exact hall.2
  obtain ⟨hsound, hP⟩ := hc
  refine ⟨hsound.moves hm, ?_⟩
  cases hm with
  | @commit i a t hi hok halone =>
    obtain ⟨hg, hQ⟩ := hsound.open_wp _ _ _ hi _ (.refl hsound.inv) hsound.inv hok
    exact hcommit c i a t hP hi hok hsound.inv hg hQ
  | @abort i p t hi hok => exact habort c i p t hP hi hok
  | select hi => exact hrun c _ _ _ _ _ hP hi
  | lock hi _ _ => exact hrun c _ _ _ _ _ hP hi
  | miss hi _ => exact hrun c _ _ _ _ _ hP hi
  | write hi _ _ _ => exact hrun c _ _ _ _ _ hP hi
  | reply r hi => exact hrun c _ _ _ _ _ hP hi

/-- The induction rule with one postcondition for all sessions. -/
theorem reaches_induction {Q : α → Transaction D → State → Prop} {P : Config D α → Prop}
    {s₀ : State} {ps : List (Program D α)}
    {c : Config D α} (hs : L.inv s₀) (hps : ∀ p ∈ ps, L.wp R (L.Commits R Q) p {} s₀)
    (hstart : P (.start s₀ ps))
    (hcommit : ∀ (c : Config D α) (i : ℕ) (a : α) (t : Transaction D), P c →
      c.sessions[i]? = some (.running (.ret a) t) → R.commit c.committed t = true →
      L.inv c.committed → L.Guarantee R t c.committed → Q a t c.committed → P (c.commit i a t))
    (habort : ∀ (c : Config D α) (i : ℕ) (p : Program D α) (t : Transaction D), P c →
      c.sessions[i]? = some (.running p t) → R.rollback t = true →
      P (c.setSession i (.aborted t)))
    (hrun : ∀ (c : Config D α) (i : ℕ) (p p' : Program D α) (t t' : Transaction D), P c →
      c.sessions[i]? = some (.running p t) → P (c.setSession i (.running p' t')))
    (h : Reaches R (.start s₀ ps) c) : P c :=
  reaches_induction_indexed (Q := fun _ => Q) hs
    (fun _ p hp => hps p (List.mem_of_getElem? hp)) hstart hcommit habort hrun h

/-- In a chain of a preorder, newest first, everything leads to the newest. -/
theorem rel_of_isChain {β : Type} {T : β → β → Prop} (hrefl : ∀ x, T x x)
    (htrans : ∀ x y z, T x y → T y z → T x z) {x : β} {xs : List β}
    (h : (x :: xs).IsChain fun y z => T z y) : ∀ y ∈ x :: xs, T y x := by
  have hinst : Trans (fun y z => T z y) (fun y z => T z y) fun y z : β => T z y :=
    ⟨fun hab hbc => htrans _ _ _ hbc hab⟩
  intro y hmem
  rcases List.mem_cons.mp hmem with rfl | hmem
  · exact hrefl y
  · exact h.rel_cons hmem

/-- The committed states of a run, one commit after the other: what each of them satisfies,
and how each follows from the one before. -/
theorem reaches_chain {Q : α → Transaction D → State → Prop} {I : State → Prop}
    {E : State → State → Prop} {s₀ : State} {ps : List (Program D α)} {c : Config D α}
    (hs : L.inv s₀) (hps : ∀ p ∈ ps, L.wp R (L.Commits R Q) p {} s₀) (hI : I s₀)
    (hcommit : ∀ (s : State) (a : α) (t : Transaction D), I s → R.commit s t = true →
      L.inv s → L.Guarantee R t s → Q a t s → I (t.view s) ∧ E s (t.view s))
    (h : Reaches R (.start s₀ ps) c) :
    (∀ s ∈ c.history s₀, I s) ∧ (c.history s₀).IsChain fun s' s => E s s' := by
  refine (reaches_induction (Q := Q) (P := fun c => (c.history s₀).head? = some c.committed ∧
    (∀ s ∈ c.history s₀, I s) ∧ (c.history s₀).IsChain fun s' s => E s s') hs hps ?_
    (fun c i a t hP _ hok hinv hg hQ => ?_) (fun _ _ _ _ hP _ _ => hP)
    (fun _ _ _ _ _ _ hP _ => hP) h).2
  · refine ⟨rfl, fun s hmem => ?_, List.isChain_singleton s₀⟩
    obtain rfl : s = s₀ := by simpa [Config.history, Config.start] using hmem
    exact hI
  · obtain ⟨hhead, hall, hchain⟩ := hP
    have hmem : c.committed ∈ c.history s₀ := List.mem_of_head? hhead
    obtain ⟨hI', hE⟩ := hcommit c.committed a t (hall _ hmem) hok hinv hg hQ
    have hhistory : (c.commit i a t).history s₀ = t.view c.committed :: c.history s₀ := rfl
    rw [hhistory]
    refine ⟨rfl, fun s hs => ?_, List.isChain_cons.mpr ⟨fun s hs => ?_, hchain⟩⟩
    · rcases List.mem_cons.mp hs with rfl | hs
      · exact hI'
      · exact hall s hs
    · have heq : c.committed = s := Option.some.inj (hhead.symm.trans hs)
      exact heq ▸ hE

/-- **Soundness.** If every program meets its precondition at the start, then in every
run every committed state keeps the invariant and evolves into the last one. -/
theorem of_reaches {Q : α → Transaction D → State → Prop} {s₀ : State}
    {ps : List (Program D α)} {c : Config D α}
    (hs : L.inv s₀) (hps : ∀ p ∈ ps, L.wp R (L.Commits R Q) p {} s₀)
    (h : Reaches R (.start s₀ ps) c) :
    ∀ s ∈ c.history s₀, L.inv s ∧ L.evolves s c.committed := by
  refine reaches_induction (P := fun c => ∀ s ∈ c.history s₀, L.inv s ∧ L.evolves s c.committed)
    hs hps ?_ (fun c i a t hP _ _ _ hg _ => ?_) (fun _ _ _ _ hP _ _ => hP)
    (fun _ _ _ _ _ _ hP _ => hP) h
  · intro s hmem
    obtain rfl : s = s₀ := by simpa [Config.history, Config.start] using hmem
    exact ⟨hs, L.evolves_refl s⟩
  · intro s hmem
    rcases List.mem_cons.mp hmem with rfl | hmem
    · exact ⟨hg.inv, L.evolves_refl _⟩
    · obtain ⟨hinv, hev⟩ := hP s hmem
      exact ⟨hinv, L.evolves_trans hev hg.evolves⟩

/-- What a program that has come to its end in a run owes. -/
theorem guarantee_of_reaches {s₀ : State} {ps : List (Program D α)} {c : Config D α} {i : ℕ}
    {a : α} {t : Transaction D} (hs : L.inv s₀)
    (hps : ∀ i p, ps[i]? = some p → L.wp R (L.Commits R (Q i)) p {} s₀)
    (h : Reaches R (.start s₀ ps) c) (hi : c.sessions[i]? = some (.running (.ret a) t))
    (hok : R.commit c.committed t = true) :
    L.inv c.committed ∧ L.Guarantee R t c.committed ∧ Q i a t c.committed := by
  have hsound : Sound L R Q c := h.induction (.start hs hps) fun {c c'} hc hm => hc.moves hm
  exact ⟨hsound.inv, hsound.open_wp _ _ _ hi _ (.refl hsound.inv) hsound.inv hok⟩

end Contract

end ReadCommitted
