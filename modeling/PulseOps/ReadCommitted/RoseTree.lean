import Mathlib.Data.List.Nodup
import Mathlib.Data.List.Perm.Subperm
import PulseOps.ReadCommitted.ParentMap

/-!
# Trees with the rows of a forest

Rows that name their parents are put into trees by collecting below every row the ones that
name it, and by reading the trees from the rows without a parent. Of a forest this takes up
every row exactly once. Rows on a cycle would be missing, because no root leads to them.

## Main definitions

* `RoseTree` — a value with trees below it.
* `RoseTree.grow` — a tree that is read down to a given depth.
* `RoseTree.level` — the rows so many steps below some rows.
* `ParentMap.Depth` — how many steps the way up has.

## Main results

* `RoseTree.values_grow` — the values of trees that have been read, level by level.
* `ParentMap.Forest.grow_roots` — the trees of a forest.
-/

set_option autoImplicit false

open scoped List

namespace ReadCommitted

/-- A value with trees below it. -/
inductive RoseTree (α : Type) where
  | node (value : α) (children : List (RoseTree α))
  deriving Repr

namespace RoseTree

variable {α : Type}

def value : RoseTree α → α
  | node a _ => a

def children : RoseTree α → List (RoseTree α)
  | node _ ts => ts

mutual

/-- The tree and all that is below it. -/
def subtrees : RoseTree α → List (RoseTree α)
  | node a ts => node a ts :: subtreesOf ts

/-- The trees and all that is below them. -/
def subtreesOf : List (RoseTree α) → List (RoseTree α)
  | [] => []
  | t :: ts => subtrees t ++ subtreesOf ts

end

/-- The values at all nodes. -/
def values (ts : List (RoseTree α)) : List α := (subtreesOf ts).map value

@[simp] theorem subtreesOf_nil : subtreesOf ([] : List (RoseTree α)) = [] := by
  rw [subtreesOf]

theorem subtreesOf_cons (t : RoseTree α) (ts : List (RoseTree α)) :
    subtreesOf (t :: ts) = t :: (subtreesOf t.children ++ subtreesOf ts) := by
  cases t
  rw [subtreesOf, subtrees]
  rfl

theorem subtreesOf_append (ts us : List (RoseTree α)) :
    subtreesOf (ts ++ us) = subtreesOf ts ++ subtreesOf us := by
  induction ts with
  | nil => simp
  | cons t ts ih => rw [List.cons_append, subtreesOf_cons, subtreesOf_cons, ih,
      List.cons_append, List.append_assoc]

/-- First the trees themselves, then all that is below them. -/
theorem subtreesOf_perm (ts : List (RoseTree α)) :
    (subtreesOf ts).Perm (ts ++ subtreesOf (ts.flatMap children)) := by
  induction ts with
  | nil => simp
  | cons t ts ih =>
    rw [subtreesOf_cons, List.flatMap_cons, subtreesOf_append, List.cons_append]
    apply List.Perm.cons
    calc subtreesOf t.children ++ subtreesOf ts
      _ ~ subtreesOf t.children ++ (ts ++ subtreesOf (ts.flatMap children)) := ih.append_left _
      _ ~ ts ++ (subtreesOf t.children ++ subtreesOf (ts.flatMap children)) := by
        rw [← List.append_assoc, ← List.append_assoc]
        exact List.perm_append_comm.append_right _

/-! ### Reading trees -/

/-- The tree below a row, as deep as `n` rows. -/
def grow (below : α → List α) : ℕ → α → Option (RoseTree α)
  | 0, _ => none
  | n + 1, a => ((below a).mapM (grow below n)).map (node a)

/-- The rows `n` steps below some rows. -/
def level (below : α → List α) : ℕ → List α → List α
  | 0, as => as
  | n + 1, as => level below n (as.flatMap below)

variable {below : α → List α} {n : ℕ} {as : List α} {ts us : List (RoseTree α)}

theorem mapM_cons_eq_some {β : Type} {f : α → Option β} {a : α} {bs : List β} :
    (a :: as).mapM f = some bs ↔
      ∃ b bs', f a = some b ∧ as.mapM f = some bs' ∧ bs = b :: bs' := by
  rw [List.mapM_cons]
  cases f a <;> cases as.mapM f <;> simp [eq_comm]

theorem mapM_congr {β : Type} {f g : α → Option β} (h : ∀ a ∈ as, f a = g a) :
    as.mapM f = as.mapM g := by
  induction as with
  | nil => rfl
  | cons a as ih =>
    rw [List.mapM_cons, List.mapM_cons, h a (by simp), ih fun b hb => h b (by simp [hb])]

/-- Only what is asked of the rows that are met matters. -/
theorem grow_congr {below' : α → List α} {P : α → Prop} (hsame : ∀ a, P a → below' a = below a)
    (hP : ∀ a, P a → ∀ b ∈ below a, P b) {a : α} (ha : P a) :
    grow below' n a = grow below n a := by
  induction n generalizing a with
  | zero => rfl
  | succ n ih =>
    rw [grow, grow, hsame a ha]
    congr 1
    apply mapM_congr
    intro b hb
    exact ih (hP a ha b hb)

/-- The next generation is read as well, less deep. -/
theorem of_grow_succ (h : as.mapM (grow below (n + 1)) = some ts) :
    ts.map value = as ∧ (as.flatMap below).mapM (grow below n) = some (ts.flatMap children) := by
  induction as generalizing ts with
  | nil =>
    obtain rfl := Option.some.inj h
    exact ⟨rfl, rfl⟩
  | cons a as ih =>
    obtain ⟨t, ts', ha, has, rfl⟩ := mapM_cons_eq_some.mp h
    obtain ⟨hvalues, hnext⟩ := ih has
    obtain ⟨us, hus, rfl⟩ := Option.map_eq_some_iff.mp ha
    constructor
    · rw [List.map_cons, hvalues]
      rfl
    · rw [List.flatMap_cons, List.mapM_append, hus, hnext]
      rfl

theorem grow_succ_of (h : (as.flatMap below).mapM (grow below n) = some us) :
    ∃ ts, as.mapM (grow below (n + 1)) = some ts := by
  induction as generalizing us with
  | nil => exact ⟨[], rfl⟩
  | cons a as ih =>
    rw [List.flatMap_cons, List.mapM_append] at h
    cases hfirst : (below a).mapM (grow below n) with
    | none => simp [hfirst] at h
    | some vs =>
      cases hrest : (as.flatMap below).mapM (grow below n) with
      | none => simp [hfirst, hrest] at h
      | some ws =>
        obtain ⟨ts, hts⟩ := ih hrest
        have ha : grow below (n + 1) a = some (node a vs) := by rw [grow, hfirst]; rfl
        exact ⟨node a vs :: ts, mapM_cons_eq_some.mpr ⟨_, _, ha, hts, rfl⟩⟩

theorem value_of_grow (h : as.mapM (grow below n) = some ts) : ts.map value = as := by
  cases n with
  | succ n => exact (of_grow_succ h).1
  | zero =>
    cases as with
    | nil =>
      obtain rfl := Option.some.inj h
      rfl
    | cons a as =>
      obtain ⟨_, _, ha, _⟩ := mapM_cons_eq_some.mp h
      cases ha

/-- What has been read are the levels down to the depth. -/
theorem values_grow (h : as.mapM (grow below n) = some ts) :
    (values ts).Perm ((List.range n).flatMap fun k => level below k as) := by
  induction n generalizing as ts with
  | zero =>
    have hvalues := value_of_grow h
    cases as with
    | nil =>
      obtain rfl := List.map_eq_nil_iff.mp hvalues
      simp [values]
    | cons a as =>
      obtain ⟨_, _, ha, _⟩ := mapM_cons_eq_some.mp h
      cases ha
  | succ n ih =>
    obtain ⟨hvalues, hnext⟩ := of_grow_succ h
    rw [List.range_succ_eq_map, List.flatMap_cons, List.flatMap_map]
    calc values ts
      _ ~ ts.map value ++ values (ts.flatMap children) := by
        unfold values
        rw [← List.map_append]
        exact (subtreesOf_perm ts).map value
      _ ~ as ++ (List.range n).flatMap fun k => level below k (as.flatMap below) := by
        rw [hvalues]
        exact (ih hnext).append_left _

/-- Below every node that has been read stand the rows that belong there. -/
theorem children_of_grow (h : as.mapM (grow below n) = some ts) :
    ∀ t ∈ subtreesOf ts, t.children.map value = below t.value := by
  induction n generalizing as ts with
  | zero =>
    have hvalues := value_of_grow h
    cases as with
    | nil =>
      obtain rfl := List.map_eq_nil_iff.mp hvalues
      simp
    | cons a as =>
      obtain ⟨_, _, ha, _⟩ := mapM_cons_eq_some.mp h
      cases ha
  | succ n ih =>
    intro t ht
    rcases List.mem_append.mp ((subtreesOf_perm ts).mem_iff.mp ht) with hroot | hbelow
    · clear ht ih
      induction as generalizing ts with
      | nil =>
        obtain rfl := Option.some.inj h
        cases hroot
      | cons a as ih =>
        obtain ⟨t', ts', ha, has, rfl⟩ := mapM_cons_eq_some.mp h
        rcases List.mem_cons.mp hroot with rfl | hroot
        · obtain ⟨us, hus, rfl⟩ := Option.map_eq_some_iff.mp ha
          exact value_of_grow hus
        · exact ih has hroot
    · exact ih (of_grow_succ h).2 t hbelow

/-- Trees can be read to the depth at which nothing is left. -/
theorem exists_grow (h : level below n as = []) : ∃ ts, as.mapM (grow below n) = some ts := by
  induction n generalizing as with
  | zero =>
    obtain rfl : as = [] := h
    exact ⟨[], rfl⟩
  | succ n ih =>
    obtain ⟨us, hus⟩ := ih h
    exact grow_succ_of hus

theorem level_succ (n : ℕ) (as : List α) :
    level below (n + 1) as = (level below n as).flatMap below := by
  induction n generalizing as with
  | zero => rfl
  | succ n ih => rw [level, ih, level]

end RoseTree

/-! ### The rows of a forest -/

namespace ParentMap

open RoseTree

variable {α : Type} {m : ParentMap α} {a p : α} {n k : ℕ}

/-- The way up from a row has so many steps. -/
inductive Depth (m : ParentMap α) : α → ℕ → Prop
  | root {a : α} (h : m a = some none) : Depth m a 0
  | child {a p : α} {n : ℕ} (h : m a = some (some p)) (hp : Depth m p n) : Depth m a (n + 1)

theorem Rooted.exists_depth (h : m.Rooted a) : ∃ n, m.Depth a n := by
  induction h with
  | root h => exact ⟨0, .root h⟩
  | child h _ ih =>
    obtain ⟨n, hn⟩ := ih
    exact ⟨n + 1, .child h hn⟩

theorem Depth.unique (h : m.Depth a n) (h' : m.Depth a k) : n = k := by
  induction h generalizing k with
  | root h =>
    cases h' with
    | root h' => rfl
    | child h' hp =>
      rw [h] at h'
      cases h'
  | child h _ ih =>
    cases h' with
    | root h' =>
      rw [h] at h'
      cases h'
    | child h' hp =>
      rw [h] at h'
      cases h'
      rw [ih hp]

theorem Depth.isSome (h : m.Depth a n) : (m a).isSome := by
  cases h with
  | root h => simp [h]
  | child h => simp [h]

/-- The rows on the way up are different ones. -/
theorem Depth.exists_way (h : m.Depth a n) :
    ∃ way : List α, way.length = n + 1 ∧ way.Nodup ∧ ∀ b ∈ way, ∃ k ≤ n, m.Depth b k := by
  induction h with
  | @root a h =>
    refine ⟨[a], rfl, List.nodup_singleton a, ?_⟩
    intro b hb
    rw [List.mem_singleton] at hb
    exact ⟨0, Nat.le_refl _, hb ▸ .root h⟩
  | @child a p n h hp ih =>
    obtain ⟨way, hlength, hnodup, hway⟩ := ih
    refine ⟨a :: way, by simp [hlength], List.nodup_cons.mpr ⟨?_, hnodup⟩, ?_⟩
    · -- the rows above are less deep
      intro ha
      obtain ⟨k, hk, hdepth⟩ := hway a ha
      have hsame := (Depth.child h hp).unique hdepth
      omega
    · intro b hb
      rcases List.mem_cons.mp hb with rfl | hb
      · exact ⟨n + 1, Nat.le_refl _, .child h hp⟩
      · obtain ⟨k, hk, hdepth⟩ := hway b hb
        exact ⟨k, by omega, hdepth⟩

section Levels

variable {rows : List α}

theorem Depth.lt_length (h : m.Depth a n) (hrows : ∀ a, a ∈ rows ↔ (m a).isSome) :
    n < rows.length := by
  obtain ⟨way, hlength, hnodup, hway⟩ := h.exists_way
  have hsub : way ⊆ rows := by
    intro b hb
    obtain ⟨k, _, hdepth⟩ := hway b hb
    exact (hrows b).mpr hdepth.isSome
  have hle := (hnodup.subperm hsub).length_le
  omega

variable [DecidableEq α]

/-- The rows that name `a` as their parent. -/
def below (m : ParentMap α) (rows : List α) (a : α) : List α :=
  rows.filter fun b => m b = some (some a)

/-- The rows without a parent. -/
def roots (m : ParentMap α) (rows : List α) : List α := rows.filter fun a => m a = some none

/-- A level has the rows of one depth, each once. -/
theorem level_roots (hrows : ∀ a, a ∈ rows ↔ (m a).isSome) (hnodup : rows.Nodup) (k : ℕ) :
    (level (m.below rows) k (m.roots rows)).Nodup ∧
      ∀ a, a ∈ level (m.below rows) k (m.roots rows) ↔ m.Depth a k := by
  induction k with
  | zero =>
    refine ⟨hnodup.filter _, fun a => ?_⟩
    simp only [level, roots, List.mem_filter, decide_eq_true_eq, hrows]
    constructor
    · rintro ⟨_, h⟩
      exact .root h
    · intro h
      cases h with
      | root h => exact ⟨by simp [h], h⟩
  | succ k ih =>
    obtain ⟨hlevel, hmem⟩ := ih
    rw [level_succ]
    constructor
    · rw [List.nodup_flatMap]
      refine ⟨fun a _ => hnodup.filter _, hlevel.imp ?_⟩
      -- a row has one parent
      intro a b hab c hca hcb
      have ha := of_decide_eq_true (List.mem_filter.mp hca).2
      have hb := of_decide_eq_true (List.mem_filter.mp hcb).2
      rw [ha] at hb
      simp only [Option.some.injEq] at hb
      exact hab hb
    · intro a
      simp only [List.mem_flatMap, hmem, below, List.mem_filter, decide_eq_true_eq, hrows]
      constructor
      · rintro ⟨p, hp, _, h⟩
        exact .child h hp
      · intro h
        cases h with
        | @child _ p _ h hp => exact ⟨p, hp, by simp [h], h⟩

/-- **The trees of a forest.** They can be read from the roots, to the depth of the number of
rows, and have every row once; below a row stand the rows that name it, in their order. -/
theorem Forest.grow_roots (hm : m.Forest) (hrows : ∀ a, a ∈ rows ↔ (m a).isSome)
    (hnodup : rows.Nodup) :
    ∃ ts, (m.roots rows).mapM (grow (m.below rows) rows.length) = some ts ∧
      ts.map value = m.roots rows ∧ (values ts).Perm rows ∧
      ∀ t ∈ subtreesOf ts, t.children.map value = m.below rows t.value := by
  have hlevels := level_roots hrows hnodup
  have hlast : level (m.below rows) rows.length (m.roots rows) = [] := by
    rw [List.eq_nil_iff_forall_not_mem]
    intro a ha
    have hlt := (((hlevels _).2 a).mp ha).lt_length hrows
    omega
  obtain ⟨ts, hts⟩ := exists_grow hlast
  refine ⟨ts, hts, value_of_grow hts, ?_, children_of_grow hts⟩
  apply (values_grow hts).trans
  rw [List.perm_ext_iff_of_nodup _ hnodup]
  · -- every row is on the level of its depth
    intro a
    simp only [List.mem_flatMap, List.mem_range, (hlevels _).2, hrows]
    constructor
    · rintro ⟨k, _, h⟩
      exact h.isSome
    · intro ha
      obtain ⟨k, hk⟩ := (hm a ha).exists_depth
      exact ⟨k, hk.lt_length hrows, hk⟩
  · rw [List.nodup_flatMap]
    refine ⟨fun k _ => (hlevels k).1, List.nodup_range.imp ?_⟩
    intro j k hjk a hj hk
    exact hjk ((((hlevels j).2 a).mp hj).unique (((hlevels k).2 a).mp hk))

end Levels

end ParentMap

end ReadCommitted
