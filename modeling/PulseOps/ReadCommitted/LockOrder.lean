import Mathlib.Logic.Relation
import Mathlib.Order.Basic
import PulseOps.ReadCommitted.Serial

/-!
# Locks that are taken in one order

Transactions that wait for each other's locks in a ring wait for ever. If every lock that a
transaction asks for comes after those that it holds, there is no such ring. Some of the keys
have a place in the order; only waiting for these is looked at.

A lock can be out of order only where it is asked for, by a statement that has not run yet.
`Contract.Ascent` therefore says of a program that all the statements it comes to are in
order, in the surroundings that a contract promises.

## Main definitions

* `Transaction.Climbs` — a key is held, or comes after everything that is held.
* `Program.wants` — the keys that the next statement locks.
* `Config.WaitsFor`, `Config.Climbing` — who waits for whom, and that all is in order.
* `Config.Due` — the statements that come next are among those the discipline allows.
* `Contract.Ascent` — triples of programs that keep the order.

## Main results

* `Config.Climbing.not_waitsFor_ring` — where all is in order, nobody waits in a ring.
* `Contract.climbing_of_reaches` — programs that keep the order keep it in every run.
-/

set_option autoImplicit false

namespace ReadCommitted

variable {State Key Edit Call Reply Error ι : Type}
  {D : Database State Key Edit Call Reply Error} {α β : Type} [Preorder ι]
  (rank : Key → Option ι)

/-! ### Waiting -/

/-- The key is held, or comes after every key that is held. -/
def Transaction.Climbs (t : Transaction D) (k : Key) : Prop :=
  k ∈ t.held ∨ ∀ k' ∈ t.held, ∀ r' ∈ rank k', ∀ r ∈ rank k, r' < r

instance [DecidableEq Key] [DecidableLT ι] (t : Transaction D) (k : Key) :
    Decidable (t.Climbs rank k) :=
  inferInstanceAs (Decidable (_ ∨ _))

theorem Transaction.climbs_of_rank_none {rank : Key → Option ι} {t : Transaction D} {k : Key}
    (h : rank k = none) : t.Climbs rank k := by
  right
  intro k' _ r' _ r hr
  rw [h] at hr
  cases hr

/-- The keys that the next statement locks. -/
def Program.wants (p : Program D α) (s : State) : List Key :=
  match p with
  | .selectForUpdate k _ => if D.present s k then [k] else []
  | .write edit _ =>
    match edit s with
    | .ok e => D.footprint e
    | .error _ => []
  | _ => []

namespace Config

/-- The next statement of the session `i` locks a key of the order that `j` holds. -/
def WaitsFor (c : Config D α) (i j : ℕ) : Prop :=
  i ≠ j ∧ ∃ (p : Program D α) (t : Transaction D) (x : Session D α) (k : Key),
    c.sessions[i]? = some (.running p t) ∧ k ∈ p.wants (t.view c.committed) ∧
      (rank k).isSome ∧ c.sessions[j]? = some x ∧ k ∈ x.held

/-- Every lock that is asked for is held already, or comes after those that are held. -/
def Climbing (c : Config D α) : Prop :=
  ∀ (i : ℕ) (p : Program D α) (t : Transaction D), c.sessions[i]? = some (.running p t) →
    ∀ k ∈ p.wants (t.view c.committed), t.Climbs rank k

/-- The discipline allows the writing statements that come next. -/
def Due (R : Discipline D) (c : Config D α) : Prop :=
  ∀ (i : ℕ) (edit : State → Except Error Edit) (next : Edit → Program D α)
    (t : Transaction D) (e : Edit), c.sessions[i]? = some (.running (.write edit next) t) →
      edit (t.view c.committed) = .ok e → R.write c.committed t e = true

/-- `WaitsFor`, computed. -/
def waits [DecidableEq Key] (c : Config D α) (i j : ℕ) : Bool :=
  match c.sessions[i]?, c.sessions[j]? with
  | some (.running p t), some x =>
    i ≠ j && (p.wants (t.view c.committed)).any fun k => (rank k).isSome && x.held.contains k
  | _, _ => false

/-- `Due`, computed. -/
def due (R : Discipline D) (c : Config D α) : Bool :=
  c.sessions.all fun
    | .running (.write edit _) t =>
      match edit (t.view c.committed) with
      | .ok e => R.write c.committed t e
      | .error _ => true
    | _ => true

variable {rank} {c : Config D α} {i j : ℕ}

omit [Preorder ι] in
theorem waitsFor_of_waits [DecidableEq Key] (h : c.waits rank i j = true) :
    c.WaitsFor rank i j := by
  unfold waits at h
  split at h
  next p t x hi hj =>
    simp only [Bool.and_eq_true, decide_eq_true_eq, List.any_eq_true] at h
    obtain ⟨hij, k, hk, hrank, hheld⟩ := h
    exact ⟨hij, p, t, x, k, hi, hk, hrank, hj, List.contains_iff_mem.mp hheld⟩
  next => cases h

theorem due_of_due {R : Discipline D} (h : c.due R = true) : c.Due R := by
  intro i edit next t e hi he
  have hsession := List.all_eq_true.mp h _ (List.mem_of_getElem? hi)
  simpa only [he] using hsession

/-- Along the waiting, from the lock that is asked for first to one that is held last, the
order only rises. -/
theorem Climbing.rises (hc : c.Climbing rank) (hdisj : LocksDisjoint c)
    (h : Relation.TransGen (c.WaitsFor rank) i j) :
    ∃ r : ι, (∀ x, c.sessions[i]? = some x → ∀ k ∈ x.held, ∀ r' ∈ rank k, r' < r) ∧
      ∃ x, c.sessions[j]? = some x ∧ ∃ k ∈ x.held, ∃ r' ∈ rank k, r ≤ r' := by
  -- what a session holds comes before what it waits for
  have habove {i j : ℕ} {p : Program D α} {t : Transaction D} {x : Session D α} {k : Key}
      (hij : i ≠ j) (hi : c.sessions[i]? = some (.running p t))
      (hk : k ∈ p.wants (t.view c.committed)) (hj : c.sessions[j]? = some x)
      (hheld : k ∈ x.held) : ∀ k' ∈ t.held, ∀ r' ∈ rank k', ∀ r ∈ rank k, r' < r := by
    refine (hc i p t hi k hk).resolve_left fun hself => ?_
    exact hdisj i j _ x hi hj hij k hself hheld
  induction h with
  | single h =>
    obtain ⟨hij, p, t, x, k, hi, hk, hrank, hj, hheld⟩ := h
    obtain ⟨r, hr⟩ := Option.isSome_iff_exists.mp hrank
    refine ⟨r, fun y hy k' hk' r' hr' => ?_, x, hj, k, hheld, r, hr, le_refl r⟩
    obtain rfl := Option.some.inj (hi.symm.trans hy)
    exact habove hij hi hk hj hheld k' hk' r' hr' r hr
  | tail _ h ih =>
    obtain ⟨r, hfirst, y, hy, k', hk', r', hr', hle⟩ := ih
    obtain ⟨hij, p, t, x, k, hi, hk, hrank, hj, hheld⟩ := h
    obtain ⟨r'', hr''⟩ := Option.isSome_iff_exists.mp hrank
    obtain rfl := Option.some.inj (hi.symm.trans hy)
    have hlt := habove hij hi hk hj hheld k' hk' r' hr' r'' hr''
    exact ⟨r, hfirst, x, hj, k, hheld, r'', hr'', hle.trans hlt.le⟩

/-- **No ring.** Where every lock is asked for in order, nobody waits for itself. -/
theorem Climbing.not_waitsFor_ring (hc : c.Climbing rank) (hdisj : LocksDisjoint c) (i : ℕ) :
    ¬ Relation.TransGen (c.WaitsFor rank) i i := by
  intro h
  obtain ⟨r, hfirst, x, hx, k, hk, r', hr', hle⟩ := hc.rises hdisj h
  exact lt_irrefl r' ((hfirst x hx k hk r' hr').trans_le hle)

end Config

/-! ### Programs that lock no more rows -/

namespace Program

/-- The program has no `SELECT … FOR UPDATE`. -/
def LocksNothing : Program D α → Prop
  | ret _ => True
  | raise _ => True
  | select next => ∀ s, (next s).LocksNothing
  | selectForUpdate _ _ => False
  | write _ next => ∀ e, (next e).LocksNothing
  | request _ next => ∀ r, (next r).LocksNothing

theorem LocksNothing.bind {p : Program D α} {f : α → Program D β} (hp : p.LocksNothing)
    (hf : ∀ a, (f a).LocksNothing) : (p >>= f).LocksNothing := by
  induction p with
  | ret a => exact hf a
  | raise e => trivial
  | select next ih => exact fun s => ih s (hp s)
  | selectForUpdate k next ih => exact hp.elim
  | write edit next ih => exact fun e => ih e (hp e)
  | request q next ih => exact fun r => ih r (hp r)

theorem ReadsOnly.locksNothing {p : Program D α} (hp : p.ReadsOnly) : p.LocksNothing := by
  induction hp with
  | ret a => trivial
  | raise e => trivial
  | select _ ih => exact ih

theorem locksNothing_perform (edit : State → Except Error Edit) :
    (perform edit : Program D Unit).LocksNothing := fun _ => trivial

theorem LocksNothing.forM {xs : List β} {f : β → Program D PUnit}
    (hf : ∀ x, (f x).LocksNothing) : (forM xs f).LocksNothing := by
  induction xs with
  | nil => trivial
  | cons x xs ih => exact (hf x).bind fun _ => ih

end Program

/-! ### Programs that keep the order -/

namespace Contract

variable (L : Contract D) (R : Discipline D)

/-- The weakest precondition of a program for the postcondition `Q`, where moreover every
statement that the program comes to takes its locks in order. -/
def climbs (Q : α → Transaction D → State → Prop) :
    Program D α → Transaction D → State → Prop
  | .ret a, t, s => ∀ s', L.Rely t s s' → Q a t s'
  | .raise _, _, _ => True
  | .select next, t, s => ∀ s', L.Rely t s s' → climbs Q (next (t.view s')) t s'
  | .selectForUpdate k next, t, s => ∀ s', L.Rely t s s' →
      (D.present (t.view s') k = true →
        t.Climbs rank k ∧ climbs Q (next (t.view s')) (t.lock k) s') ∧
      (D.present (t.view s') k = false → climbs Q (next (t.view s')) t s')
  | .write edit next, t, s => ∀ s', L.Rely t s s' → ∀ e, edit (t.view s') = .ok e →
      R.write s' t e = true →
        (∀ k ∈ D.footprint e, t.Climbs rank k) ∧ climbs Q (next e) (t.write e) s'
  | .request q next, t, s => ∀ s', L.Rely t s s' → ∀ r, climbs Q (next r) (t.reply q r) s'

/-- From a state with `P` the program leads to states with `Q`, and keeps the order. -/
def Ascent (P : Transaction D → State → Prop) (p : Program D α)
    (Q : α → Transaction D → State → Prop) : Prop :=
  ∀ t s, L.inv s → P t s → L.climbs rank R Q p t s

variable {rank L R} {P P' : Transaction D → State → Prop}
  {Q : α → Transaction D → State → Prop} {Q' : β → Transaction D → State → Prop}
  {t : Transaction D} {s s' : State}

theorem wp_of_climbs {p : Program D α} (h : L.climbs rank R Q p t s) : L.wp R Q p t s := by
  induction p generalizing t s with
  | ret a => exact h
  | raise e => trivial
  | select next ih => exact fun s' hr => ih _ (h s' hr)
  | selectForUpdate k next ih =>
    exact fun s' hr => ⟨fun hk => ih _ ((h s' hr).1 hk).2, fun hk => ih _ ((h s' hr).2 hk)⟩
  | write edit next ih => exact fun s' hr e he hok => ih e (h s' hr e he hok).2
  | request q next ih => exact fun s' hr r => ih r (h s' hr r)

theorem climbs_of_rely {p : Program D α} (h : L.climbs rank R Q p t s) (hr : L.Rely t s s') :
    L.climbs rank R Q p t s' := by
  cases p with
  | ret a => exact fun s'' h' => h s'' (hr.trans h')
  | raise e => trivial
  | select next => exact fun s'' h' => h s'' (hr.trans h')
  | selectForUpdate k next => exact fun s'' h' => h s'' (hr.trans h')
  | write edit next => exact fun s'' h' => h s'' (hr.trans h')
  | request q next => exact fun s'' h' => h s'' (hr.trans h')

theorem climbs_mono {Q₁ : α → Transaction D → State → Prop} {p : Program D α}
    (h : L.climbs rank R Q p t s) (hQ : ∀ a t s, Q a t s → Q₁ a t s) :
    L.climbs rank R Q₁ p t s := by
  induction p generalizing t s with
  | ret a => exact fun s' hr => hQ a t s' (h s' hr)
  | raise e => trivial
  | select next ih => exact fun s' hr => ih _ (h s' hr)
  | selectForUpdate k next ih =>
    intro s' hr
    obtain ⟨hlock, hmiss⟩ := h s' hr
    exact ⟨fun hk => ⟨(hlock hk).1, ih _ (hlock hk).2⟩, fun hk => ih _ (hmiss hk)⟩
  | write edit next ih =>
    intro s' hr e he hok
    obtain ⟨hclimbs, hnext⟩ := h s' hr e he hok
    exact ⟨hclimbs, ih e hnext⟩
  | request q next ih => exact fun s' hr r => ih r (h s' hr r)

theorem climbs_bind {p : Program D α} {f : α → Program D β} (hs : L.inv s)
    (h : L.climbs rank R (fun a t s => L.inv s → L.climbs rank R Q' (f a) t s) p t s) :
    L.climbs rank R Q' (p >>= f) t s := by
  induction p generalizing t s with
  | ret a => exact h s (.refl hs) hs
  | raise e => trivial
  | select next ih => exact fun s' hr => ih _ hr.inv (h s' hr)
  | selectForUpdate k next ih =>
    intro s' hr
    obtain ⟨hlock, hmiss⟩ := h s' hr
    exact ⟨fun hk => ⟨(hlock hk).1, ih _ hr.inv (hlock hk).2⟩,
      fun hk => ih _ hr.inv (hmiss hk)⟩
  | write edit next ih =>
    intro s' hr e he hok
    obtain ⟨hclimbs, hnext⟩ := h s' hr e he hok
    exact ⟨hclimbs, ih e hr.inv hnext⟩
  | request q next ih => exact fun s' hr r => ih r hr.inv (h s' hr r)

/-- Where the discipline keeps the writes in order, a program without locks does. -/
theorem climbs_of_wp (hR : ∀ s t e, R.write s t e = true → ∀ k ∈ D.footprint e, t.Climbs rank k)
    {p : Program D α} (hp : p.LocksNothing) (h : L.wp R Q p t s) : L.climbs rank R Q p t s := by
  induction p generalizing t s with
  | ret a => exact h
  | raise e => trivial
  | select next ih => exact fun s' hr => ih _ (hp _) (h s' hr)
  | selectForUpdate k next ih => exact hp.elim
  | write edit next ih =>
    exact fun s' hr e he hok => ⟨hR s' t e hok, ih e (hp e) (h s' hr e he hok)⟩
  | request q next ih => exact fun s' hr r => ih r (hp r) (h s' hr r)

theorem Triple.ascent
    (hR : ∀ s t e, R.write s t e = true → ∀ k ∈ D.footprint e, t.Climbs rank k)
    {p : Program D α} (hp : p.LocksNothing) (h : L.Triple R P p Q) : L.Ascent rank R P p Q :=
  fun t s hs hP => climbs_of_wp hR hp (h t s hs hP)

namespace Ascent

theorem bind {p : Program D α} {f : α → Program D β} (hp : L.Ascent rank R P p Q)
    (hf : ∀ a, L.Ascent rank R (Q a) (f a) Q') : L.Ascent rank R P (p >>= f) Q' := by
  intro t s hs hP
  apply climbs_bind hs
  apply climbs_mono (hp t s hs hP)
  intro a t s hQ hs'
  exact hf a t s hs' hQ

theorem pre {p : Program D α} (hp : L.Ascent rank R P' p Q)
    (h : ∀ t s, L.inv s → P t s → P' t s) : L.Ascent rank R P p Q :=
  fun t s hs hP => hp t s hs (h t s hs hP)

theorem post {Q₁ : α → Transaction D → State → Prop} {p : Program D α}
    (hp : L.Ascent rank R P p Q) (h : ∀ a t s, Q a t s → Q₁ a t s) : L.Ascent rank R P p Q₁ :=
  fun t s hs hP => climbs_mono (hp t s hs hP) h

theorem query_bind {γ : Type} {A : γ → Transaction D → State → Prop} {q : State → γ}
    {f : γ → Program D β} (hP : L.Stable P)
    (hread : ∀ t s, L.inv s → P t s → A (q (t.view s)) t s)
    (hf : ∀ a, L.Ascent rank R (A a) (f a) Q') :
    L.Ascent rank R P (Program.query q >>= f) Q' := by
  intro t s hs h s' hr
  exact hf _ t s' hr.inv (hread t s' hr.inv (hP t s s' hs h hr))

/-- A row is locked if it is there. -/
theorem lockRow {A : Transaction D → State → Prop} {k : Key} (hP : L.Stable P)
    (hA : L.Stable A) (hclimbs : ∀ t s, L.inv s → P t s → t.Climbs rank k)
    (hlock : ∀ t s, P t s → A (t.lock k) s)
    (hmiss : ∀ t s, P t s → D.present (t.view s) k = false → A t s) :
    L.Ascent rank R P (Program.lockRow k) fun _ => A := by
  intro t s hs h s' hr
  have h' := hP t s s' hs h hr
  constructor
  · intro _
    exact ⟨hclimbs t s' hr.inv h', fun s'' hr' => hA _ _ _ hr.inv (hlock t s' h') hr'⟩
  · intro habsent s'' hr'
    exact hA _ _ _ hr.inv (hmiss t s' h' habsent) hr'

theorem raise {e : Error} : L.Ascent rank R P (.raise e : Program D α) Q :=
  fun _ _ _ _ => trivial

theorem require_bind {C : Prop} [Decidable C] {e : Error} {f : Unit → Program D β}
    (hf : C → L.Ascent rank R P (f ()) Q') :
    L.Ascent rank R P (Program.require C e >>= f) Q' := by
  by_cases hC : C
  · simpa [Program.require, hC] using hf hC
  · simpa [Program.require, hC] using raise

theorem orRaise_bind {γ : Type} {x : Option γ} {e : Error} {f : γ → Program D β}
    (hf : ∀ a, x = some a → L.Ascent rank R P (f a) Q') :
    L.Ascent rank R P (Program.orRaise x e >>= f) Q' := by
  cases x with
  | none => exact raise
  | some a => exact hf a rfl

/-- Reads keep whatever the others keep, and return what they can return. -/
theorem readsOnly {p : Program D α} {C : α → Prop} (hp : p.ReadsOnly) (hC : p.Returns C)
    (hP : L.Stable P) : L.Ascent rank R P p fun a t s => C a ∧ P t s := by
  induction hp with
  | ret a => exact fun t s hs h s' hr => ⟨hC, hP t s s' hs h hr⟩
  | raise e => exact raise
  | select _ ih => exact fun t s hs h s' hr => ih _ (hC _) t s' hr.inv (hP t s s' hs h hr)

/-- A loop, with an assertion about what is left of it. -/
theorem forM {I : List β → Transaction D → State → Prop} {xs : List β}
    {f : β → Program D PUnit} (hI : L.Stable (I []))
    (hf : ∀ x xs, L.Ascent rank R (I (x :: xs)) (f x) fun _ => I xs) :
    L.Ascent rank R (I xs) (forM xs f) fun _ => I [] := by
  induction xs with
  | nil => exact fun t s hs h s' hr => hI t s s' hs h hr
  | cons x xs ih => exact (hf x xs).bind fun _ => ih

/-- A precondition that does not depend on the state. -/
theorem of_and {C : Prop} {p : Program D α} (hp : C → L.Ascent rank R P p Q) :
    L.Ascent rank R (fun t s => C ∧ P t s) p Q := by
  rintro t s hs ⟨hC, h⟩
  exact hp hC t s hs h

/-- A precondition that names something. -/
theorem of_exists {γ : Type} {I : γ → Transaction D → State → Prop} {p : Program D α}
    (hp : ∀ i, L.Ascent rank R (I i) p Q) :
    L.Ascent rank R (fun t s => ∃ i, I i t s) p Q := by
  rintro t s hs ⟨i, h⟩
  exact hp i t s hs h

end Ascent

/-! ### Runs -/

variable [DecidableEq Key] {s₀ : State} {ps : List (Program D α)} {c : Config D α}

/-- Every transaction of a run keeps the order from where it is. -/
theorem climbs_of_reaches (hs : L.inv s₀)
    (hps : ∀ p ∈ ps, L.climbs rank R (L.Commits R fun _ _ _ => True) p {} s₀)
    (h : Reaches R (.start s₀ ps) c) :
    L.inv c.committed ∧ ∀ (i : ℕ) (p : Program D α) (t : Transaction D),
      c.sessions[i]? = some (.running p t) →
        L.climbs rank R (L.Commits R fun _ _ _ => True) p t c.committed := by
  induction h with
  | refl =>
    refine ⟨hs, fun i p t hi => ?_⟩
    simp only [Config.start, List.getElem?_map, Option.map_eq_some_iff] at hi
    obtain ⟨q, hq, hpt⟩ := hi
    cases hpt
    exact hps _ (List.mem_of_getElem? hq)
  | @step c c' x hreach hstep ih =>
    obtain ⟨hinv, hopen⟩ := ih
    have hset {i : ℕ} {y : Session D α}
        (hy : ∀ p t, y = .running p t →
          L.climbs rank R (L.Commits R fun _ _ _ => True) p t c.committed) :
        L.inv (c.setSession i y).committed ∧ ∀ (j : ℕ) (p : Program D α) (t : Transaction D),
          (c.setSession i y).sessions[j]? = some (.running p t) →
            L.climbs rank R (L.Commits R fun _ _ _ => True) p t c.committed := by
      refine ⟨hinv, fun j p t hj => ?_⟩
      rcases getElem?_setSession hj with ⟨-, heq⟩ | ⟨-, hj⟩
      · exact hy p t heq.symm
      · exact hopen j p t hj
    have hrun {i : ℕ} {p : Program D α} {t : Transaction D}
        (hp : L.climbs rank R (L.Commits R fun _ _ _ => True) p t c.committed) :=
      hset (i := i) (y := .running p t) fun p' t' heq => by
        obtain ⟨rfl, rfl⟩ := Session.running.inj heq
        exact hp
    cases moves_of_step hstep with
    | @commit i a t hi hok halone =>
      -- the others see the commit as interference they rely on
      obtain ⟨-, hg, -⟩ := guarantee_of_reaches (Q := fun _ _ _ _ => True) hs
        (fun _ p hp => wp_of_climbs (hps p (List.mem_of_getElem? hp))) hreach hi hok
      refine ⟨hg.inv, fun j p t' hj => ?_⟩
      rcases getElem?_setSession hj with ⟨-, heq⟩ | ⟨hji, hj⟩
      · cases heq
      · refine climbs_of_rely (hopen j p t' hj) ⟨hg.inv, hg.evolves, fun k hk => ?_⟩
        apply hg.agree k (hreach.locksDisjoint j i _ _ hj hi hji k hk)
        exact fun hmem => heldElsewhere_eq_false.mp (halone k hmem) j _ hj hji hk
    | abort hi hok => exact hset fun _ _ heq => by cases heq
    | select hi => exact hrun (hopen _ _ _ hi _ (.refl hinv))
    | lock hi hpresent _ => exact hrun ((hopen _ _ _ hi _ (.refl hinv)).1 hpresent).2
    | miss hi habsent => exact hrun ((hopen _ _ _ hi _ (.refl hinv)).2 habsent)
    | write hi hedit _ hok => exact hrun (hopen _ _ _ hi _ (.refl hinv) _ hedit hok).2
    | reply r hi => exact hrun (hopen _ _ _ hi _ (.refl hinv) r)

/-- **Order.** In a run of programs that keep the order, every lock that is asked for is in
order, as far as the discipline allows the statement that asks for it. -/
theorem climbing_of_reaches (hs : L.inv s₀)
    (hps : ∀ p ∈ ps, L.climbs rank R (L.Commits R fun _ _ _ => True) p {} s₀)
    (h : Reaches R (.start s₀ ps) c) (hdue : c.Due R) : c.Climbing rank := by
  obtain ⟨hinv, hopen⟩ := climbs_of_reaches hs hps h
  intro i p t hi k hk
  have hclimbs := hopen i p t hi
  cases p with
  | selectForUpdate k' next =>
    simp only [Program.wants] at hk
    split_ifs at hk with hpresent
    · obtain rfl := List.mem_singleton.mp hk
      exact ((hclimbs _ (.refl hinv)).1 hpresent).1
    · cases hk
  | write edit next =>
    simp only [Program.wants] at hk
    split at hk
    next e he => exact (hclimbs _ (.refl hinv) e he (hdue i edit next t e hi he)).1 k hk
    next => cases hk
  | _ => cases hk

end Contract

end ReadCommitted
