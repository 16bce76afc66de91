import Mathlib.Algebra.GroupWithZero.Nat
import Mathlib.Algebra.Order.BigOperators.Group.Finset
import PulseOps.ReadCommitted.Parties
import PulseOps.ReadCommitted.RelyGuarantee

/-!
# Limits that are checked before they are used

Programs add to something that is counted. Before a program adds, it reads the count and goes on
only if the count is below a limit; but it takes no lock, and what it adds is not counted until it
commits. So programs that are under way together may all pass the check, and go over the limit
together. They go over it by less than their number.

An edit counts the same when it is committed as when it was written, since what its soundness
depends on is protected by the locks it takes. A request whose transaction was rolled back may be
tried again without another check. Its attempts are one request, which is under way from the first
of them to the last.

## Main definitions

* `Quota` — what is counted, what each edit adds to it, and the limit.
* `Quota.Adds`, `Quota.Checks` — programs that add no more than `n`, and programs that check
  before they add one.
* `Config.InFlight` — the requests that are under way.
* `RetriesInTurn` — how requests are tried again.

## Main results

* `Quota.Adds.bind` and the rules for single statements.
* `Quota.count_le` — by how much the limit is exceeded.
* `retriesInTurn_once` — a request that is tried again after a rollback is tried in turn.
-/

set_option autoImplicit false

namespace ReadCommitted

variable {State Key Edit Call Reply Error : Type}
  {D : Database State Key Edit Call Reply Error} {α β : Type}

open Program

/-- What is counted in a state, and what edits add to it. An edit is sound in a state if it adds
what it costs; that depends on what its locks protect, and no edit of another transaction
disturbs it. -/
structure Quota (D : Database State Key Edit Call Reply Error) where
  Inv : State → Prop
  count : State → ℕ
  limit : ℕ
  cost : Edit → ℕ
  Sound : State → Edit → Prop
  /-- What the lock on a key keeps still. -/
  agree : Key → State → State → Prop
  inv_apply : ∀ {s : State} {e : Edit}, Inv s → Inv (D.apply s e)
  agree_refl : ∀ (k : Key) (s : State), agree k s s
  agree_trans : ∀ {k : Key} {s s' s'' : State}, agree k s s' → agree k s' s'' → agree k s s''
  agree_apply : ∀ {k : Key} {s : State} {e : Edit}, k ∉ D.footprint e → agree k s (D.apply s e)
  agree_congr : ∀ {k : Key} {s s' : State} {e : Edit}, agree k s s' →
    agree k (D.apply s e) (D.apply s' e)
  sound_congr : ∀ {s s' : State} {e : Edit}, (∀ k ∈ D.footprint e, agree k s s') → Sound s e →
    Sound s' e
  count_apply : ∀ {s : State} {e : Edit}, Sound s e → count (D.apply s e) = count s + cost e

namespace Quota

variable {Q : Quota D} {s s' : State} {es : List Edit} {e : Edit} {n m : ℕ}

/-! ### Lists of edits -/

theorem inv_replay (hs : Q.Inv s) : Q.Inv (D.replay es s) := by
  induction es generalizing s with
  | nil => exact hs
  | cons e es ih => exact ih (Q.inv_apply hs)

theorem agree_replay {k : Key} (h : ∀ e ∈ es, k ∉ D.footprint e) :
    Q.agree k s (D.replay es s) := by
  induction es generalizing s with
  | nil => exact Q.agree_refl k s
  | cons e es ih =>
    rw [List.forall_mem_cons] at h
    exact Q.agree_trans (Q.agree_apply h.1) (ih h.2)

/-- Each edit is sound when its turn comes. -/
def SoundEdits (Q : Quota D) : State → List Edit → Prop
  | _, [] => True
  | s, e :: es => Q.Sound s e ∧ Q.SoundEdits (D.apply s e) es

def costs (Q : Quota D) (es : List Edit) : ℕ := (es.map Q.cost).sum

theorem soundEdits_concat (hes : Q.SoundEdits s es) (he : Q.Sound (D.replay es s) e) :
    Q.SoundEdits s (es ++ [e]) := by
  induction es generalizing s with
  | nil => exact ⟨he, trivial⟩
  | cons e' es ih => exact ⟨hes.1, ih hes.2 he⟩

theorem costs_concat : Q.costs (es ++ [e]) = Q.costs es + Q.cost e := by
  simp [costs]

/-- Edits stay sound while nobody disturbs what their locks protect. -/
theorem soundEdits_congr (h : ∀ e ∈ es, ∀ k ∈ D.footprint e, Q.agree k s s')
    (hes : Q.SoundEdits s es) : Q.SoundEdits s' es := by
  induction es generalizing s s' with
  | nil => trivial
  | cons e es ih =>
    rw [List.forall_mem_cons] at h
    refine ⟨Q.sound_congr h.1 hes.1, ih ?_ hes.2⟩
    intro e' he' k hk
    exact Q.agree_congr (h.2 e' he' k hk)

theorem count_replay (hes : Q.SoundEdits s es) :
    Q.count (D.replay es s) = Q.count s + Q.costs es := by
  induction es generalizing s with
  | nil => rfl
  | cons e es ih =>
    rw [Database.replay_cons, ih hes.2, Q.count_apply hes.1, costs, costs, List.map_cons,
      List.sum_cons, add_assoc]

/-! ### Programs -/

/-- In every state its statements may find, the program makes sound edits only, of no more cost
than `n` together. -/
def Adds (Q : Quota D) : ℕ → Program D α → Prop
  | _, .ret _ => True
  | _, .raise _ => True
  | n, .select next => ∀ s, Q.Inv s → Q.Adds n (next s)
  | n, .selectForUpdate _ next => ∀ s, Q.Inv s → Q.Adds n (next s)
  | n, .write edit next => ∀ s e, Q.Inv s → edit s = .ok e → Q.Sound s e ∧
      ∃ m, Q.cost e + m ≤ n ∧ Q.Adds m (next e)
  | n, .request _ next => ∀ r, Q.Adds n (next r)

/-- The program adds nothing until it has found the count below the limit, and one at most from
then on. -/
def Checks (Q : Quota D) : Program D α → Prop
  | .ret _ => True
  | .raise _ => True
  | .select next => ∀ s, Q.Inv s → Q.Checks (next s) ∨ Q.count s < Q.limit ∧ Q.Adds 1 (next s)
  | .selectForUpdate _ next => ∀ s, Q.Inv s → Q.Checks (next s)
  | .write edit next => ∀ s e, Q.Inv s → edit s = .ok e → Q.Sound s e ∧ Q.cost e = 0 ∧
      Q.Checks (next e)
  | .request _ next => ∀ r, Q.Checks (next r)

section Rules

theorem Adds.mono {p : Program D α} (h : Q.Adds m p) (hmn : m ≤ n) : Q.Adds n p := by
  cases p with
  | ret a => trivial
  | raise e => trivial
  | select next => exact fun s hs => (h s hs).mono hmn
  | selectForUpdate k next => exact fun s hs => (h s hs).mono hmn
  | request c next => exact fun r => (h r).mono hmn
  | write edit next =>
    intro s e hs he
    obtain ⟨hsound, l, hcost, hl⟩ := h s e hs he
    exact ⟨hsound, l, hcost.trans hmn, hl⟩

/-- A program and the rest of it. -/
theorem Adds.bind {p : Program D α} {f : α → Program D β} (hp : Q.Adds m p)
    (hf : ∀ a, Q.Adds n (f a)) : Q.Adds (m + n) (p >>= f) := by
  induction p generalizing m with
  | ret a => exact (hf a).mono (Nat.le_add_left n m)
  | raise e => trivial
  | select next ih => exact fun s hs => ih s (hp s hs)
  | selectForUpdate k next ih => exact fun s hs => ih s (hp s hs)
  | request c next ih => exact fun r => ih r (hp r)
  | write edit next ih =>
    intro s e hs he
    obtain ⟨hsound, l, hcost, hl⟩ := hp s e hs he
    exact ⟨hsound, l + n, by omega, ih e hl⟩

/-- What adds nothing does not matter. -/
theorem Adds.zero_bind {p : Program D α} {f : α → Program D β} (hp : Q.Adds 0 p)
    (hf : ∀ a, Q.Adds n (f a)) : Q.Adds n (p >>= f) :=
  (hp.bind hf).mono (by omega)

theorem Adds.bind_zero {p : Program D α} {f : α → Program D β} (hp : Q.Adds n p)
    (hf : ∀ a, Q.Adds 0 (f a)) : Q.Adds n (p >>= f) :=
  hp.bind hf

theorem adds_mapM {γ : Type} {xs : List γ} {f : γ → Program D β} (hf : ∀ x ∈ xs, Q.Adds 0 (f x)) :
    Q.Adds 0 (xs.mapM f) := by
  induction xs with
  | nil => trivial
  | cons x xs ih =>
    rw [List.forall_mem_cons] at hf
    rw [List.mapM_cons]
    exact hf.1.zero_bind fun _ => (ih hf.2).zero_bind fun _ => trivial

theorem adds_perform {edit : State → Except Error Edit}
    (h : ∀ s e, Q.Inv s → edit s = .ok e → Q.Sound s e ∧ Q.cost e ≤ n) :
    Q.Adds n (perform edit : Program D Unit) := by
  intro s e hs he
  obtain ⟨hsound, hcost⟩ := h s e hs he
  exact ⟨hsound, 0, hcost, trivial⟩

/-- A program that only makes edits that add nothing. -/
theorem Adds.of_emits {P : Edit → Prop} {p : Program D α} (hp : p.Emits P)
    (h : ∀ e, P e → (∀ s, Q.Sound s e) ∧ Q.cost e = 0) : Q.Adds 0 p := by
  induction p with
  | ret a => trivial
  | raise e => trivial
  | select next ih => exact fun s _ => ih s (hp s)
  | selectForUpdate k next ih => exact fun s _ => ih s (hp s)
  | request c next ih => exact fun r => ih r (hp r)
  | write edit next ih =>
    intro s e _ he
    obtain ⟨hP, hnext⟩ := hp s e he
    obtain ⟨hsound, hcost⟩ := h e hP
    exact ⟨hsound s, 0, hcost.le, ih e hnext⟩

theorem Adds.checks {p : Program D α} (hp : Q.Adds 0 p) : Q.Checks p := by
  induction p with
  | ret a => trivial
  | raise e => trivial
  | select next ih => exact fun s hs => .inl (ih s (hp s hs))
  | selectForUpdate k next ih => exact fun s hs => ih s (hp s hs)
  | request c next ih => exact fun r => ih r (hp r)
  | write edit next ih =>
    intro s e hs he
    obtain ⟨hsound, l, hcost, hl⟩ := hp s e hs he
    exact ⟨hsound, by omega, ih e (hl.mono (by omega))⟩

/-- What comes before the check adds nothing. -/
theorem Checks.bind {p : Program D α} {f : α → Program D β} (hp : Q.Adds 0 p)
    (hf : ∀ a, Q.Checks (f a)) : Q.Checks (p >>= f) := by
  induction p with
  | ret a => exact hf a
  | raise e => trivial
  | select next ih => exact fun s hs => .inl (ih s (hp s hs))
  | selectForUpdate k next ih => exact fun s hs => ih s (hp s hs)
  | request c next ih => exact fun r => ih r (hp r)
  | write edit next ih =>
    intro s e hs he
    obtain ⟨hsound, l, hcost, hl⟩ := hp s e hs he
    exact ⟨hsound, by omega, ih e (hl.mono (by omega))⟩

/-- What comes after it adds nothing. -/
theorem Checks.bind_zero {p : Program D α} {f : α → Program D β} (hp : Q.Checks p)
    (hf : ∀ a, Q.Adds 0 (f a)) : Q.Checks (p >>= f) := by
  induction p with
  | ret a => exact (hf a).checks
  | raise e => trivial
  | select next ih =>
    intro s hs
    rcases hp s hs with hchecks | ⟨hlt, hadds⟩
    · exact .inl (ih s hchecks)
    · exact .inr ⟨hlt, hadds.bind_zero hf⟩
  | selectForUpdate k next ih => exact fun s hs => ih s (hp s hs)
  | request c next ih => exact fun r => ih r (hp r)
  | write edit next ih =>
    intro s e hs he
    obtain ⟨hsound, hcost, hnext⟩ := hp s e hs he
    exact ⟨hsound, hcost, ih e hnext⟩

theorem checks_query_bind {q : State → α} {f : α → Program D β}
    (h : ∀ s, Q.Inv s → Q.Checks (f (q s))) : Q.Checks (query q >>= f) :=
  fun s hs => .inl (h s hs)

/-- The check itself. -/
theorem checks_count_bind {e : Error} {f : Unit → Program D β} (h : Q.Adds 1 (f ())) :
    Q.Checks (query Q.count >>= fun used => require (used < Q.limit) e >>= f) := by
  intro s _
  by_cases hlt : Q.count s < Q.limit
  · right
    refine ⟨hlt, ?_⟩
    change Q.Adds 1 (require (Q.count s < Q.limit) e >>= f)
    rw [require, if_pos hlt]
    exact h
  · left
    change Q.Checks (require (Q.count s < Q.limit) e >>= f)
    rw [require, if_neg hlt]
    trivial

end Rules

end Quota

/-! ### Requests and their attempts -/

/-- The request that a session is an attempt of, under the name of its first attempt. -/
def requestOf (retryOf : ℕ → Option ℕ) (n : ℕ) : ℕ := (retryOf n).getD n

section Attempts

variable [DecidableEq Key]

/-- An attempt of the request `r` has begun with the steps `xs`, none has committed, and not all
are over. -/
structure Config.InFlight (retryOf : ℕ → Option ℕ) (xs : List (Action D)) (c : Config D α)
    (r : ℕ) : Prop where
  begun : ∃ x ∈ xs, requestOf retryOf x.session = r
  running : ∃ n p t, requestOf retryOf n = r ∧ c.sessions[n]? = some (.running p t)
  pending : ∀ n a t, requestOf retryOf n = r → c.sessions[n]? ≠ some (.committed a t)

/-- With some of the steps `xs`, an attempt of the request `r` has come to `p` and has written
nothing. -/
def ComesTo (R : Discipline D) (retryOf : ℕ → Option ℕ) (c₀ : Config D α) (xs : List (Action D))
    (r : ℕ) (p : Program D α) : Prop :=
  ∃ ys c x t, ys <+: xs ∧ c₀.run R ys = some c ∧ x ∈ ys ∧ requestOf retryOf x.session = r ∧
    c.sessions[x.session]? = some (.running p t) ∧ t.edits = []

/-- A request is tried again only after its attempts so far were rolled back, and from a place
that one of them had come to. -/
def RetriesInTurn (R : Discipline D) (retryOf : ℕ → Option ℕ) (c₀ : Config D α)
    (xs : List (Action D)) : Prop :=
  ∀ ys x c r, ys ++ [x] <+: xs → c₀.run R ys = some c → x.session ∉ ys.map Action.session →
    retryOf x.session = some r →
      (∀ y ∈ ys, requestOf retryOf y.session = r →
        ∃ t, c.sessions[y.session]? = some (.aborted t)) ∧
      ∀ p t, c.sessions[x.session]? = some (.running p t) → ComesTo R retryOf c₀ ys r p

variable {R : Discipline D} {retryOf : ℕ → Option ℕ} {c₀ : Config D α} {xs ys : List (Action D)}

theorem RetriesInTurn.mono (h : RetriesInTurn R retryOf c₀ xs) (hys : ys <+: xs) :
    RetriesInTurn R retryOf c₀ ys :=
  fun zs x c r hzs => h zs x c r (hzs.trans hys)

/-- What a program that only reads comes to on the state `s`, and in how many statements. -/
def Program.look (s : State) : Program D α → Option (ℕ × α)
  | ret a => some (0, a)
  | select next => ((next s).look s).map fun r => (r.1 + 1, r.2)
  | _ => none

variable {c c' : Config D α} {β : Type}

/-- A session that has only read so far goes on with what follows. -/
theorem run_look {p : Program D β} {f : β → Program D α} {i n : ℕ} {b : β}
    (h : p.look c.committed = some (n, b))
    (hi : c.sessions[i]? = some (.running (p >>= f) {})) :
    c.run R (List.replicate n (.advance i)) = some (c.setSession i (.running (f b) {})) := by
  induction p generalizing c n with
  | ret b' =>
    obtain ⟨rfl, rfl⟩ := Prod.mk.inj (Option.some.inj h)
    obtain ⟨hlt, hget⟩ := List.getElem?_eq_some_iff.mp hi
    have hsame : c.sessions.set i (.running (f b') {}) = c.sessions := by
      have hself : c.sessions.set i c.sessions[i] = c.sessions := List.set_getElem_self hlt
      rwa [hget] at hself
    rw [List.replicate_zero, Config.run, Config.setSession, hsame]
  | select next ih =>
    obtain ⟨⟨m, b'⟩, hm, hr⟩ := Option.map_eq_some_iff.mp h
    obtain ⟨rfl, rfl⟩ := Prod.mk.inj hr
    have hstep : c.step R (.advance i) =
        some (c.setSession i (.running (next c.committed >>= f) {})) := by
      rw [Config.step, hi]
      rfl
    have hrest : (c.setSession i (.running (next c.committed >>= f) {})).run R
        (List.replicate m (.advance i)) =
          some ((c.setSession i (.running (next c.committed >>= f) {})).setSession i
            (.running (f b') {})) :=
      ih c.committed hm (List.getElem?_set_self (List.getElem?_eq_some_iff.mp hi).1)
    rw [List.replicate_succ, Config.run, hstep, Option.bind_some, hrest]
    simp [Config.setSession]
  | _ => cases h

/-- The sessions that take no step stay where they are. -/
theorem getElem?_of_run {xs : List (Action D)} {n : ℕ} (h : c.run R xs = some c')
    (hn : n ∉ xs.map Action.session) : c'.sessions[n]? = c.sessions[n]? := by
  induction xs using List.reverseRecOn generalizing c' with
  | nil =>
    cases h
    rfl
  | append_singleton xs x ih =>
    rw [run_concat] at h
    obtain ⟨d, hd, hstep⟩ := Option.bind_eq_some_iff.mp h
    simp only [List.map_append, List.map_singleton, List.mem_append, List.mem_singleton,
      not_or] at hn
    obtain ⟨p, t, -, ⟨y, -, rfl⟩ | ⟨a, -, rfl⟩⟩ := advances_of_step hstep
    · exact (List.getElem?_set_ne (Ne.symm hn.2)).trans (ih hd hn.1)
    · exact (List.getElem?_set_ne (Ne.symm hn.2)).trans (ih hd hn.1)

/-- One request is tried again, by the session `n`, whose first step is `x`. -/
theorem retriesInTurn_once {before after : List (Action D)} {x : Action D} {n r : ℕ}
    (hretry : ∀ m r', retryOf m = some r' → m = n ∧ r' = r) (hx : x.session = n)
    (hn : n ∉ before.map Action.session) (hrun : c₀.run R before = some c)
    (haborted : ∀ y ∈ before, requestOf retryOf y.session = r →
      ∃ t, c.sessions[y.session]? = some (.aborted t))
    (hcomes : ∀ p t, c.sessions[n]? = some (.running p t) → ComesTo R retryOf c₀ before r p) :
    RetriesInTurn R retryOf c₀ (before ++ x :: after) := by
  intro ys y d r' hys hd hbegun hr'
  obtain ⟨hy, rfl⟩ := hretry _ _ hr'
  have hbefore : before ++ [x] <+: before ++ x :: after := ⟨after, by simp⟩
  -- the first step of the session `n` comes after `before`
  obtain rfl : ys = before := by
    rcases lt_trichotomy ys.length before.length with hlt | heq | hgt
    · have hinit : ys ++ [y] <+: before :=
        List.prefix_of_prefix_length_le hys (List.prefix_append _ _) (by simp; omega)
      exact absurd (List.mem_map_of_mem (hinit.subset (by simp))) (hy ▸ hn)
    · exact List.IsPrefix.eq_of_length (List.prefix_of_prefix_length_le
        ((List.prefix_append ys [y]).trans hys) (List.prefix_append _ _) heq.le) heq
    · have hinit : before ++ [x] <+: ys :=
        List.prefix_of_prefix_length_le hbefore ((List.prefix_append ys [y]).trans hys)
          (by simp; omega)
      exact absurd (List.mem_map_of_mem (hinit.subset (by simp))) (hy.trans hx.symm ▸ hbegun)
  obtain rfl : d = c := Option.some.inj (hd.symm.trans hrun)
  exact ⟨haborted, fun p t hp => hcomes p t (hy ▸ hp)⟩

end Attempts

/-! ### Whole runs -/

namespace Quota

variable {Q : Quota D} {R : Discipline D} {s s' : State} {chosen : ℕ → Prop}
  {retryOf : ℕ → Option ℕ} {K bound i n r w : ℕ} {xs ys : List (Action D)} {x : Action D}
  {c₀ c c' : Config D α} {p : Program D α} {t : Transaction D} {y : Session D α}
  {passed F : Finset ℕ}

/-- A session that may add `w`: it has made sound edits, and it has either not passed the check,
or what it has added and may yet add is no more than `w`. -/
def Weighs (Q : Quota D) (s : State) (chosen : Prop) (w : ℕ) : Session D α → Prop
  | .running p t => Q.SoundEdits s t.edits ∧ (∀ e ∈ t.edits, D.footprint e ⊆ t.held) ∧
      (chosen ∧ Q.Checks p ∧ Q.costs t.edits = 0 ∨ ∃ m, Q.Adds m p ∧ Q.costs t.edits + m ≤ w)
  | .committed _ _ => True
  | .aborted _ => True

/-- What others commit does not change what a session may add. -/
theorem Weighs.congr {b : Prop} (h : Q.Weighs s b w y)
    (hs : ∀ k ∈ y.held, Q.agree k s s') : Q.Weighs s' b w y := by
  cases y with
  | running p t =>
    obtain ⟨hsound, hheld, hrest⟩ := h
    exact ⟨soundEdits_congr (fun e he k hk => hs k (hheld e he hk)) hsound, hheld, hrest⟩
  | committed a t => trivial
  | aborted t => trivial

/-- What a session commits costs no more than it may add. -/
theorem Weighs.costs_le {a : α} {b : Prop} (h : Q.Weighs s b w (.running (.ret a) t)) :
    Q.costs t.edits ≤ w := by
  obtain ⟨-, -, ⟨-, -, hcost⟩ | ⟨m, -, hcost⟩⟩ := h <;> omega

/-- A session that goes on: either it may add what it could add before, or it has just found the
count below the limit and may add one. -/
theorem Weighs.advances {b : Prop} (h : Q.Weighs s b w (.running p t)) (hs : Q.Inv s)
    (hy : Session.Advances s t p y) :
    Q.Weighs s b w y ∨ b ∧ Q.count s < Q.limit ∧ Q.Weighs s b 1 y := by
  obtain ⟨hsound, hheld, hrest⟩ := h
  cases hy with
  | abort => exact .inl trivial
  -- the check is a read: what the session has added so far is nothing, so it sees the committed
  -- count
  | @select next =>
    rcases hrest with ⟨hb, hchecks, hcost⟩ | ⟨m, hadds, hle⟩
    · rcases hchecks _ (inv_replay hs) with hchecks | ⟨hlt, hadds⟩
      · exact .inl ⟨hsound, hheld, .inl ⟨hb, hchecks, hcost⟩⟩
      · right
        rw [count_replay hsound, hcost] at hlt
        exact ⟨hb, hlt, hsound, hheld, .inr ⟨1, hadds, by omega⟩⟩
    · exact .inl ⟨hsound, hheld, .inr ⟨m, hadds _ (inv_replay hs), hle⟩⟩
  | @lock k next =>
    have hheld' : ∀ e ∈ t.edits, D.footprint e ⊆ k :: t.held := fun e he =>
      List.subset_cons_of_subset _ (hheld e he)
    rcases hrest with ⟨hb, hchecks, hcost⟩ | ⟨m, hadds, hle⟩
    · exact .inl ⟨hsound, hheld', .inl ⟨hb, hchecks _ (inv_replay hs), hcost⟩⟩
    · exact .inl ⟨hsound, hheld', .inr ⟨m, hadds _ (inv_replay hs), hle⟩⟩
  | miss =>
    rcases hrest with ⟨hb, hchecks, hcost⟩ | ⟨m, hadds, hle⟩
    · exact .inl ⟨hsound, hheld, .inl ⟨hb, hchecks _ (inv_replay hs), hcost⟩⟩
    · exact .inl ⟨hsound, hheld, .inr ⟨m, hadds _ (inv_replay hs), hle⟩⟩
  -- an edit takes its locks with it, and costs what it was allowed to
  | @write edit next e he =>
    have hheld' : ∀ e' ∈ t.edits ++ [e], D.footprint e' ⊆ D.footprint e ++ t.held := by
      intro e' he'
      rcases List.mem_append.mp he' with he' | he'
      · exact List.Subset.trans (hheld e' he') (List.subset_append_right _ _)
      · rw [List.mem_singleton.mp he']
        exact List.subset_append_left _ _
    rcases hrest with ⟨hb, hchecks, hcost⟩ | ⟨m, hadds, hle⟩
    · obtain ⟨hsound', hcost', hnext⟩ := hchecks _ e (inv_replay hs) he
      refine .inl ⟨soundEdits_concat hsound hsound', hheld', .inl ⟨hb, hnext, ?_⟩⟩
      rw [Transaction.edits_write, costs_concat, hcost, hcost']
    · obtain ⟨hsound', l, hcost', hnext⟩ := hadds _ e (inv_replay hs) he
      refine .inl ⟨soundEdits_concat hsound hsound', hheld', .inr ⟨l, hnext, ?_⟩⟩
      rw [Transaction.edits_write, costs_concat]
      omega
  | reply =>
    rcases hrest with ⟨hb, hchecks, hcost⟩ | ⟨m, hadds, hle⟩
    · exact .inl ⟨hsound, hheld, .inl ⟨hb, hchecks _, hcost⟩⟩
    · exact .inl ⟨hsound, hheld, .inr ⟨m, hadds _, hle⟩⟩

/-- What a request in `passed` may add. -/
def share (passed : Finset ℕ) (r : ℕ) : ℕ := if r ∈ passed then 1 else 0

theorem share_congr (h : r ∈ passed ↔ r ∈ F) : share passed r = share F r :=
  if_congr h rfl rfl

/-! ### Moments of a run -/

/-- The requests in `passed` have passed the check and may add one each; with what has been
committed that is no more than `bound`. Of the attempts of a request one at most is under way. -/
structure Bounded [DecidableEq Key] (Q : Quota D) (R : Discipline D) (retryOf : ℕ → Option ℕ)
    (chosen : ℕ → Prop) (bound : ℕ) (c₀ : Config D α) (xs : List (Action D)) (passed : Finset ℕ)
    (c : Config D α) : Prop where
  run : c₀.run R xs = some c
  inv : Q.Inv c.committed
  inFlight : ∀ r ∈ passed, chosen r ∧ c.InFlight retryOf xs r
  fresh : ∀ n, n ∉ xs.map Action.session → c.sessions[n]? = c₀.sessions[n]?
  weighs : ∀ n ∈ xs.map Action.session, ∀ y, c.sessions[n]? = some y →
    Q.Weighs c.committed (chosen (requestOf retryOf n)) (share passed (requestOf retryOf n)) y
  alone : ∀ n ∈ xs.map Action.session, ∀ m ∈ xs.map Action.session,
    requestOf retryOf m = requestOf retryOf n → m ≠ n →
      (∃ p t, c.sessions[n]? = some (.running p t)) → ∃ t, c.sessions[m]? = some (.aborted t)
  first : ∀ n ∈ xs.map Action.session, requestOf retryOf n ∈ xs.map Action.session
  comesTo : ∀ r p, ComesTo R retryOf c₀ xs r p → Q.Adds 0 p ∨ (chosen r ∧ Q.Checks p) ∨
    Q.Adds 1 p ∧ (r ∈ passed ∨ ¬ c.InFlight retryOf xs r)
  count_le : Q.count c.committed + passed.card ≤ bound

/-- The session whose turn it is, whether it goes on or begins: what it may add, and that the
other attempts of its request are over. -/
structure Turn (Q : Quota D) (retryOf : ℕ → Option ℕ) (chosen : ℕ → Prop) (xs : List (Action D))
    (passed : Finset ℕ) (c : Config D α) (i : ℕ) (y : Session D α) : Prop where
  weighs : Q.Weighs c.committed (chosen (requestOf retryOf i))
    (share passed (requestOf retryOf i)) y
  others : ∀ m ∈ xs.map Action.session, requestOf retryOf m = requestOf retryOf i → m ≠ i →
    ∃ t, c.sessions[m]? = some (.aborted t)
  first : requestOf retryOf i = i ∨ requestOf retryOf i ∈ xs.map Action.session

section Runs

variable [DecidableEq Key]

/-- A session that has taken no step is at the start of its program. -/
theorem Bounded.fresh_start {ps : List (Program D α)}
    (h : Q.Bounded R retryOf chosen bound (.start s ps) xs passed c)
    (hn : n ∉ xs.map Action.session) :
    c.sessions[n]? = ps[n]?.map fun p => .running p {} := by
  rw [h.fresh n hn, Config.start, List.getElem?_map]

/-- The first attempt of a request begins. -/
theorem Bounded.turn_first {ps : List (Program D α)}
    (h : Q.Bounded R retryOf chosen bound (.start s ps) xs passed c)
    (hp : (chosen n ∧ Q.Checks p) ∨ Q.Adds 0 p) (hfirst : retryOf n = none)
    (hn : n ∉ xs.map Action.session) :
    Q.Turn retryOf chosen xs passed c n (.running p {}) := by
  have hself : requestOf retryOf n = n := by rw [requestOf, hfirst]; rfl
  refine ⟨⟨trivial, by simp, ?_⟩, fun m hm hsame _ => ?_, .inl hself⟩
  · rw [hself]
    rcases hp with ⟨hchosen, hchecks⟩ | hadds
    · exact .inl ⟨hchosen, hchecks, rfl⟩
    · exact .inr ⟨0, hadds, by simp [costs]⟩
  · -- an attempt made before would have been made after this one
    have hbegun := h.first m hm
    rw [hsame, hself] at hbegun
    exact absurd hbegun hn

/-- A request is tried again. If it was in flight with a share, it has that share still. -/
theorem Bounded.turn_retry {ps : List (Program D α)}
    (h : Q.Bounded R retryOf chosen bound (.start s ps) xs passed c)
    (hr : requestOf retryOf n = r) (hrunning : c.sessions[n]? = some (.running p {}))
    (haborted : ∀ y ∈ xs, requestOf retryOf y.session = r →
      ∃ t, c.sessions[y.session]? = some (.aborted t))
    (hcomes : ComesTo R retryOf (.start s ps) xs r p) :
    Q.Turn retryOf chosen xs passed c n (.running p {}) := by
  have hothers : ∀ m ∈ xs.map Action.session, requestOf retryOf m = r →
      ∃ t, c.sessions[m]? = some (.aborted t) := by
    intro m hm hsame
    obtain ⟨z, hz, rfl⟩ := List.mem_map.mp hm
    exact haborted z hz hsame
  obtain ⟨ys, -, z, -, hys, -, hz, hzr, -, -⟩ := id hcomes
  -- none of the attempts has committed: those made before were rolled back, and the others
  -- have not begun
  have hflight : c.InFlight retryOf xs r := by
    refine ⟨⟨z, hys.subset hz, hzr⟩, ⟨n, p, {}, hr, hrunning⟩, fun m a u hsame hm => ?_⟩
    by_cases hmem : m ∈ xs.map Action.session
    · obtain ⟨u', hu'⟩ := hothers m hmem hsame
      rw [hu'] at hm
      cases hm
    · rw [h.fresh_start hmem, Option.map_eq_some_iff] at hm
      obtain ⟨_, _, heq⟩ := hm
      cases heq
  refine ⟨⟨trivial, by simp, ?_⟩, fun m hm hsame _ => hothers m hm (hsame.trans hr), .inr ?_⟩
  · rw [hr]
    rcases h.comesTo r p hcomes with hadds | ⟨hchosen, hchecks⟩ | ⟨hadds, hpassed | hover⟩
    · exact .inr ⟨0, hadds, by simp [costs]⟩
    · exact .inl ⟨hchosen, hchecks, rfl⟩
    · exact .inr ⟨1, hadds, by simp [costs, share, hpassed]⟩
    · exact absurd hflight hover
  · rw [hr, ← hzr]
    exact h.first _ (List.mem_map_of_mem (hys.subset hz))

theorem Bounded.turn {ps : List (Program D α)}
    (h : Q.Bounded R retryOf chosen bound (.start s ps) xs passed c)
    (hps : ∀ n p, ps[n]? = some p → retryOf n = none → (chosen n ∧ Q.Checks p) ∨ Q.Adds 0 p)
    (hretries : RetriesInTurn R retryOf (.start s ps) (xs ++ [x]))
    (hx : c.sessions[x.session]? = some (.running p t)) :
    Q.Turn retryOf chosen xs passed c x.session (.running p t) := by
  by_cases hbegun : x.session ∈ xs.map Action.session
  · refine ⟨h.weighs _ hbegun _ hx, fun m hm hsame hne => ?_, .inr (h.first _ hbegun)⟩
    exact h.alone _ hbegun m hm hsame hne ⟨p, t, hx⟩
  have hstart := h.fresh_start hbegun
  rw [hx, eq_comm, Option.map_eq_some_iff] at hstart
  obtain ⟨p', hp, heq⟩ := hstart
  obtain ⟨rfl, rfl⟩ := Session.running.inj heq
  cases hretry : retryOf x.session with
  | none => exact h.turn_first (hps _ _ hp hretry) hretry hbegun
  | some r =>
    obtain ⟨haborted, hcomes⟩ := hretries xs x c r List.prefix_rfl h.run hbegun hretry
    exact h.turn_retry (by rw [requestOf, hretry]; rfl) hx haborted (hcomes _ {} hx)

omit [DecidableEq Key] in
/-- A request stays in flight, or out of flight, while another one takes a step. -/
theorem inFlight_iff_of_ne (hsessions : c'.sessions = c.sessions.set x.session y)
    (hne : requestOf retryOf x.session ≠ r) :
    c'.InFlight retryOf (xs ++ [x]) r ↔ c.InFlight retryOf xs r := by
  have hsame : ∀ n, requestOf retryOf n = r → c'.sessions[n]? = c.sessions[n]? := by
    intro n hn
    rw [hsessions, List.getElem?_set_ne]
    rintro rfl
    exact hne hn
  constructor
  · rintro ⟨⟨z, hz, hzr⟩, ⟨n, p, t, hn, hrunning⟩, hpending⟩
    refine ⟨⟨z, ?_, hzr⟩, ⟨n, p, t, hn, hsame n hn ▸ hrunning⟩, fun n a t hn => ?_⟩
    · rcases List.mem_append.mp hz with hz | hz
      · exact hz
      · rw [List.mem_singleton.mp hz] at hzr
        exact absurd hzr hne
    · exact hsame n hn ▸ hpending n a t hn
  · rintro ⟨⟨z, hz, hzr⟩, ⟨n, p, t, hn, hrunning⟩, hpending⟩
    refine ⟨⟨z, List.mem_append_left _ hz, hzr⟩, ⟨n, p, t, hn, ?_⟩, fun n a t hn => ?_⟩
    · rw [hsame n hn]
      exact hrunning
    · rw [hsame n hn]
      exact hpending n a t hn

omit [DecidableEq Key] in
/-- A request that was begun and is in flight after a step was in flight before it. -/
theorem inFlight_of_begun (hx : c.sessions[x.session]? = some (.running p t))
    (hsessions : c'.sessions = c.sessions.set x.session y)
    (hbegun : ∃ z ∈ xs, requestOf retryOf z.session = r)
    (h : c'.InFlight retryOf (xs ++ [x]) r) : c.InFlight retryOf xs r := by
  by_cases hne : requestOf retryOf x.session = r
  · refine ⟨hbegun, ⟨x.session, p, t, hne, hx⟩, fun n a u hn hcommitted => ?_⟩
    refine h.pending n a u hn ?_
    rw [hsessions, List.getElem?_set_ne]
    · exact hcommitted
    · rintro rfl
      rw [hx] at hcommitted
      cases hcommitted
  · exact (inFlight_iff_of_ne hsessions hne).mp h

/-- The session whose turn it is keeps its request in flight, if it goes on. -/
theorem Bounded.inFlight_turn {p' : Program D α} {t' : Transaction D}
    (h : Q.Bounded R retryOf chosen bound c₀ xs passed c)
    (hc₀ : ∀ (n : ℕ) (a : α) (t : Transaction D), c₀.sessions[n]? ≠ some (.committed a t))
    (hx : c.sessions[x.session]? = some (.running p t))
    (hturn : Q.Turn retryOf chosen xs passed c x.session (.running p t))
    (hsessions : c'.sessions = c.sessions.set x.session (.running p' t')) :
    c'.InFlight retryOf (xs ++ [x]) (requestOf retryOf x.session) := by
  have hlt := (List.getElem?_eq_some_iff.mp hx).1
  refine ⟨⟨x, by simp, rfl⟩, ⟨x.session, p', t', rfl, by simp [hsessions, hlt]⟩, ?_⟩
  intro n a u hn hcommitted
  by_cases hne : n = x.session
  · subst hne
    simp [hsessions, hlt] at hcommitted
  rw [hsessions, List.getElem?_set_ne (Ne.symm hne)] at hcommitted
  by_cases hmem : n ∈ xs.map Action.session
  · obtain ⟨u', hu'⟩ := hturn.others n hmem hn hne
    rw [hu'] at hcommitted
    cases hcommitted
  · exact hc₀ n a u (h.fresh n hmem ▸ hcommitted)

open scoped Classical in
/-- One step, whatever it is. The requests that are no longer in flight lose their share. -/
theorem Bounded.extend (h : Q.Bounded R retryOf chosen bound c₀ xs passed c)
    (hc₀ : ∀ (n : ℕ) (a : α) (t : Transaction D), c₀.sessions[n]? ≠ some (.committed a t))
    (hstep : c.step R x = some c') (hx : c.sessions[x.session]? = some (.running p t))
    (hturn : Q.Turn retryOf chosen xs passed c x.session (.running p t))
    (hsessions : c'.sessions = c.sessions.set x.session y) (hinv : Q.Inv c'.committed)
    (hagree : ∀ n z, c.sessions[n]? = some z → n ≠ x.session → ∀ k ∈ z.held,
      Q.agree k c.committed c'.committed)
    (hpassed : ∀ r, r ≠ requestOf retryOf x.session → (r ∈ F ↔ r ∈ passed))
    (hkeep : ∀ r ∈ passed, r ∈ F)
    (hchosen : requestOf retryOf x.session ∈ F → chosen (requestOf retryOf x.session))
    (hweighs : Q.Weighs c'.committed (chosen (requestOf retryOf x.session))
      (share F (requestOf retryOf x.session)) y)
    (hcount : Q.count c'.committed +
      (F.filter (c'.InFlight retryOf (xs ++ [x]))).card ≤ bound) :
    Q.Bounded R retryOf chosen bound c₀ (xs ++ [x])
      (F.filter (c'.InFlight retryOf (xs ++ [x]))) c' := by
  have hrun : c₀.run R (xs ++ [x]) = some c' := by
    rw [run_concat, h.run, Option.bind_some, hstep]
  have hlt := (List.getElem?_eq_some_iff.mp hx).1
  have hsession : c'.sessions[x.session]? = some y := by simp [hsessions, hlt]
  have hother : ∀ n, n ≠ x.session → c'.sessions[n]? = c.sessions[n]? := by
    intro n hne
    rw [hsessions, List.getElem?_set_ne hne.symm]
  have hmem : ∀ n ∈ (xs ++ [x]).map Action.session, n ≠ x.session →
      n ∈ xs.map Action.session := by
    intro n hn hne
    rw [List.map_append, List.mem_append] at hn
    exact hn.resolve_right (by simpa using hne)
  have hweighs' : ∀ n ∈ (xs ++ [x]).map Action.session, ∀ z, c'.sessions[n]? = some z →
      Q.Weighs c'.committed (chosen (requestOf retryOf n))
        (share (F.filter (c'.InFlight retryOf (xs ++ [x]))) (requestOf retryOf n)) z := by
    intro n hn z hz
    by_cases hne : n = x.session
    · subst hne
      obtain rfl := Option.some.inj (hsession.symm.trans hz)
      cases y with
      | running p' t' =>
        have hflight := h.inFlight_turn hc₀ hx hturn hsessions
        rw [share_congr (F := F) (by simp [hflight])]
        exact hweighs
      -- a session that is over adds nothing more
      | committed a u => trivial
      | aborted u => trivial
    · have hn := hmem n hn hne
      rw [hother n hne] at hz
      by_cases hsame : requestOf retryOf n = requestOf retryOf x.session
      · -- another attempt of the same request was rolled back
        obtain ⟨u, hu⟩ := hturn.others n hn hsame hne
        obtain rfl := Option.some.inj (hu.symm.trans hz)
        trivial
      · -- another request keeps its share
        rw [share_congr (F := passed)]
        · exact (h.weighs n hn z hz).congr (hagree n z hz hne)
        · rw [Finset.mem_filter, hpassed _ hsame, inFlight_iff_of_ne hsessions (Ne.symm hsame)]
          exact ⟨fun h => h.1, fun hr => ⟨hr, (h.inFlight _ hr).2⟩⟩
  refine ⟨hrun, hinv, ?_, ?_, hweighs', ?_, ?_, ?_, hcount⟩
  · intro r hr
    obtain ⟨hr, hflight⟩ := Finset.mem_filter.mp hr
    refine ⟨?_, hflight⟩
    by_cases hsame : r = requestOf retryOf x.session
    · subst hsame
      exact hchosen hr
    · exact (h.inFlight r ((hpassed r hsame).mp hr)).1
  · intro n hn
    rw [List.map_append, List.mem_append, not_or] at hn
    rw [hother n (by simpa using hn.2)]
    exact h.fresh n hn.1
  · intro n hn m hm hsame hne hrunning
    by_cases hni : n = x.session
    · subst hni
      rw [hother m hne]
      exact hturn.others m (hmem m hm hne) hsame hne
    rw [hother n hni] at hrunning
    by_cases hmi : m = x.session
    · -- the session that took the step was running, so no other attempt was
      subst hmi
      obtain ⟨u, hu⟩ := hturn.others n (hmem n hn hni) hsame.symm hni
      obtain ⟨p', t', hrunning⟩ := hrunning
      rw [hu] at hrunning
      cases hrunning
    · rw [hother m hmi]
      exact h.alone n (hmem n hn hni) m (hmem m hm hmi) hsame hne hrunning
  · intro n hn
    rw [List.map_append, List.mem_append]
    by_cases hni : n = x.session
    · subst hni
      rcases hturn.first with hself | hfirst
      · right
        simp [hself]
      · exact .inl hfirst
    · exact .inl (h.first n (hmem n hn hni))
  · rintro r p' ⟨ys, d, z, u, hys, hd, hz, rfl, hrunning, hedits⟩
    rcases List.prefix_concat_iff.mp hys with rfl | hys
    · -- where the session has come to just now
      obtain rfl := Option.some.inj (hrun.symm.trans hd)
      obtain ⟨-, -, ⟨hchosen', hchecks, -⟩ | ⟨m, hadds, hle⟩⟩ :=
        hweighs' _ (List.mem_map_of_mem hz) _ hrunning
      · exact .inr (.inl ⟨hchosen', hchecks⟩)
      · rw [share] at hle
        split_ifs at hle with hr
        · exact .inr (.inr ⟨hadds.mono (by omega), .inl hr⟩)
        · exact .inl (hadds.mono (by omega))
    · -- where a session had come to before: its request may have lost its share since, if it is
      -- no longer in flight
      rcases h.comesTo _ p' ⟨ys, d, z, u, hys, hd, hz, rfl, hrunning, hedits⟩ with
        hadds | hchecks | ⟨hadds, hr⟩
      · exact .inl hadds
      · exact .inr (.inl hchecks)
      · refine .inr (.inr ⟨hadds, ?_⟩)
        by_cases hflight : c'.InFlight retryOf (xs ++ [x]) (requestOf retryOf z.session)
        · rcases hr with hr | hover
          · exact .inl (Finset.mem_filter.mpr ⟨hkeep _ hr, hflight⟩)
          · exact absurd (inFlight_of_begun hx hsessions ⟨z, hys.subset hz, rfl⟩ hflight) hover
        · exact .inr hflight

open scoped Classical in
/-- One step, if no more than `K` requests are in flight after it. -/
theorem Bounded.step {ps : List (Program D α)}
    (h : Q.Bounded R retryOf chosen bound (.start s ps) xs passed c)
    (hps : ∀ n p, ps[n]? = some p → retryOf n = none → (chosen n ∧ Q.Checks p) ∨ Q.Adds 0 p)
    (hretries : RetriesInTurn R retryOf (.start s ps) (xs ++ [x])) (hlocks : LocksDisjoint c)
    (hstep : c.step R x = some c')
    (hK : ∀ F : Finset ℕ, (∀ r ∈ F, chosen r ∧ c'.InFlight retryOf (xs ++ [x]) r) → F.card ≤ K)
    (hbound : Q.limit + (K - 1) ≤ bound) :
    ∃ passed', Q.Bounded R retryOf chosen bound (.start s ps) (xs ++ [x]) passed' c' := by
  have hc₀ : ∀ (n : ℕ) (a : α) (t : Transaction D),
      (Config.start s ps).sessions[n]? ≠ some (.committed a t) := by
    simp [Config.start]
  obtain ⟨p, t, hx, hy⟩ := advances_of_step hstep
  have hturn := h.turn hps hretries hx
  have hle := h.count_le
  rcases hy with ⟨y, hy, rfl⟩ | ⟨a, rfl, rfl⟩
  · rcases hturn.weighs.advances h.inv hy with hweighs | ⟨hchosen, hlt, hweighs⟩
    · -- the session may add what it could add before
      refine ⟨_, h.extend (F := passed) hc₀ hstep hx hturn rfl h.inv
        (fun _ _ _ _ k _ => Q.agree_refl k _) (fun _ _ => Iff.rfl) (fun _ hr => hr)
        (fun hr => (h.inFlight _ hr).1) hweighs ?_⟩
      have hcard := Finset.card_filter_le passed
        ((c.setSession x.session y).InFlight retryOf (xs ++ [x]))
      change Q.count c.committed + _ ≤ bound
      omega
    · -- it has passed the check, together with less than `K` others
      refine ⟨_, h.extend (F := insert (requestOf retryOf x.session) passed) hc₀ hstep hx
        hturn rfl h.inv (fun _ _ _ _ k _ => Q.agree_refl k _) (fun r hr => by simp [hr])
        (fun _ hr => Finset.mem_insert_of_mem hr) (fun _ => hchosen) ?_ ?_⟩
      · rw [share, if_pos (Finset.mem_insert_self _ _)]
        exact hweighs
      · have hcard := hK ((insert (requestOf retryOf x.session) passed).filter
          ((c.setSession x.session y).InFlight retryOf (xs ++ [x]))) fun r hr => by
            obtain ⟨hr, hflight⟩ := Finset.mem_filter.mp hr
            refine ⟨?_, hflight⟩
            rcases Finset.mem_insert.mp hr with rfl | hr
            · exact hchosen
            · exact (h.inFlight r hr).1
        change Q.count c.committed + _ ≤ bound
        omega
  · -- it commits: what it adds is counted from now on, and its request is over
    have hedits := hturn.weighs
    have hsession : (c.commit x.session a t).sessions[x.session]? = some (.committed a t) := by
      simp [Config.commit, (List.getElem?_eq_some_iff.mp hx).1]
    refine ⟨_, h.extend (F := passed) hc₀ hstep hx hturn rfl (inv_replay h.inv) ?_
      (fun _ _ => Iff.rfl) (fun _ hr => hr) (fun hr => (h.inFlight _ hr).1) trivial ?_⟩
    · intro n z hz hne k hk
      apply agree_replay
      intro e he hfootprint
      exact hlocks n x.session z _ hz hx hne k hk (hedits.2.1 e he hfootprint)
    · change Q.count (D.replay t.edits c.committed) + _ ≤ bound
      rw [count_replay hedits.1]
      have hcosts := hedits.costs_le
      have hsubset : passed.filter ((c.commit x.session a t).InFlight retryOf (xs ++ [x])) ⊆
          passed.erase (requestOf retryOf x.session) := by
        intro r hr
        obtain ⟨hr, hflight⟩ := Finset.mem_filter.mp hr
        refine Finset.mem_erase.mpr ⟨?_, hr⟩
        rintro rfl
        exact hflight.pending x.session a t rfl hsession
      have hcard := Finset.card_le_card hsubset
      rw [share] at hcosts
      split_ifs at hcosts with hr
      · have hpos := Finset.card_pos.mpr ⟨_, hr⟩
        rw [Finset.card_erase_of_mem hr] at hcard
        omega
      · rw [Finset.erase_eq_of_notMem hr] at hcard
        omega

theorem bounded_start {ps : List (Program D α)} (hs : Q.Inv s) (hbound : Q.count s ≤ bound) :
    Q.Bounded R retryOf chosen bound (.start s ps) [] ∅ (.start s ps) := by
  refine ⟨rfl, hs, by simp, fun _ _ => rfl, by simp, by simp, by simp, ?_, by
    simpa [Config.start] using hbound⟩
  rintro r p ⟨ys, d, z, u, hys, -, hz, -⟩
  rw [List.prefix_nil.mp hys] at hz
  cases hz

/-- If no more than `K` of the requests that check are in flight at any moment of a run, the limit
is exceeded by less than `K`, unless more was there at the start. -/
theorem count_le {ps : List (Program D α)} (hs : Q.Inv s)
    (hps : ∀ n p, ps[n]? = some p → retryOf n = none → (chosen n ∧ Q.Checks p) ∨ Q.Adds 0 p)
    (hrun : (Config.start s ps).run R xs = some c)
    (hretries : RetriesInTurn R retryOf (.start s ps) xs)
    (hK : ∀ ys c', ys <+: xs → (Config.start s ps).run R ys = some c' →
      ∀ F : Finset ℕ, (∀ r ∈ F, chosen r ∧ c'.InFlight retryOf ys r) → F.card ≤ K) :
    Q.count c.committed ≤ max (Q.count s) (Q.limit + (K - 1)) := by
  have hall : ∃ passed, Q.Bounded R retryOf chosen (max (Q.count s) (Q.limit + (K - 1)))
      (.start s ps) xs passed c := by
    induction xs using List.reverseRecOn generalizing c with
    | nil =>
      obtain rfl : Config.start s ps = c := by simpa [Config.run] using hrun
      exact ⟨∅, bounded_start hs (le_max_left _ _)⟩
    | append_singleton xs x ih =>
      have hlast := hrun
      rw [run_concat] at hrun
      obtain ⟨c₁, hrun₁, hstep⟩ := Option.bind_eq_some_iff.mp hrun
      have hxs : xs <+: xs ++ [x] := List.prefix_append _ _
      obtain ⟨passed, hbounded⟩ := ih hrun₁ (hretries.mono hxs) fun ys c' hys =>
        hK ys c' (hys.trans hxs)
      have hlocks := (reaches_of_run .refl hrun₁).locksDisjoint
      exact hbounded.step hps hretries hlocks hstep (hK _ _ List.prefix_rfl hlast)
        (le_max_right _ _)
  obtain ⟨passed, hbounded⟩ := hall
  exact (Nat.le_add_right _ _).trans hbounded.count_le

end Runs

end Quota

end ReadCommitted
