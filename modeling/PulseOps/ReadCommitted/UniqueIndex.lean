import Mathlib.Data.List.Nodup
import PulseOps.ReadCommitted.RelyGuarantee

/-!
# Unique indexes

A unique index keeps the entries of a table apart. A statement looks for its entry in the
state it sees and takes the lock on the entry; two transactions can therefore not both add
an entry that neither of them sees. The index itself is a list of keys, to which edits
append.

## Main definitions

* `UniqueIndex` — the entries of a state, and those that an edit adds.
* `UniqueIndex.Allows` — the check a writing statement makes.
* `Program.Checks` — every edit the program writes passes a check.

## Main results

* `UniqueIndex.reaches_nodup` — the entries stay apart in every run.
* `UniqueIndex.length_filter_le_one` — one row an entry.
-/

set_option autoImplicit false

namespace ReadCommitted

variable {State Key Edit Call Reply Error : Type}
  {D : Database State Key Edit Call Reply Error} {α β : Type}

/-! ### Programs whose edits are checked -/

namespace Program

variable {P P' : State → Edit → Prop}

/-- Every edit the program can write satisfies `P` in the state its statement sees. -/
def Checks (P : State → Edit → Prop) : Program D α → Prop
  | ret _ => True
  | raise _ => True
  | select next => ∀ s, (next s).Checks P
  | selectForUpdate _ next => ∀ s, (next s).Checks P
  | write edit next => ∀ s e, edit s = .ok e → P s e ∧ (next e).Checks P
  | request _ next => ∀ r, (next r).Checks P

theorem Checks.bind {p : Program D α} {f : α → Program D β} (hp : p.Checks P)
    (hf : ∀ a, (f a).Checks P) : (p >>= f).Checks P := by
  induction p with
  | ret a => exact hf a
  | raise e => trivial
  | select next ih => exact fun s => ih s (hp s)
  | selectForUpdate k next ih => exact fun s => ih s (hp s)
  | write edit next ih => exact fun s e he => ⟨(hp s e he).1, ih e (hp s e he).2⟩
  | request q next ih => exact fun r => ih r (hp r)

theorem ReadsOnly.checks {p : Program D α} (hp : p.ReadsOnly) : p.Checks P := by
  induction hp with
  | ret a => trivial
  | raise e => trivial
  | select _ ih => exact ih

theorem checks_lockRow (k : Key) : (lockRow k : Program D Unit).Checks P := fun _ => trivial

theorem checks_perform {edit : State → Except Error Edit} (h : ∀ s e, edit s = .ok e → P s e) :
    (perform edit : Program D Unit).Checks P := fun s e he => ⟨h s e he, trivial⟩

end Program

/-! ### The index -/

/-- A unique index. Its entries are keys, and an edit locks those it adds. -/
structure UniqueIndex (D : Database State Key Edit Call Reply Error) where
  entries : State → List Key
  added : Edit → List Key
  entries_apply : ∀ s e, entries (D.apply s e) = entries s ++ added e
  locked : ∀ e, added e ⊆ D.footprint e

namespace UniqueIndex

variable (ix : UniqueIndex D) {R : Discipline D} {t : Transaction D} {s s' s₀ : State} {e : Edit}
  {es : List Edit}

/-- The edit adds entries that differ from each other and from those that are there. -/
def Allows (s : State) (e : Edit) : Prop :=
  (ix.added e).Nodup ∧ ∀ k ∈ ix.added e, k ∉ ix.entries s

/-- What a list of edits adds. -/
def addedBy (es : List Edit) : List Key := es.flatMap ix.added

theorem entries_replay (es : List Edit) (s : State) :
    ix.entries (D.replay es s) = ix.entries s ++ ix.addedBy es := by
  induction es generalizing s with
  | nil => exact (List.append_nil _).symm
  | cons e es ih =>
    rw [Database.replay_cons, ih, ix.entries_apply, List.append_assoc]
    rfl

/-- The entries differ, and the lock on a key keeps its entry. -/
def contract : Contract D where
  inv s := (ix.entries s).Nodup
  evolves _ _ := True
  agree k s s' := k ∈ ix.entries s ↔ k ∈ ix.entries s'
  evolves_refl _ := trivial
  evolves_trans _ _ := trivial
  agree_refl _ _ := Iff.rfl
  agree_trans := Iff.trans

/-- The entries of a transaction differ, nobody else has them, and they are locked. -/
structure Fresh (t : Transaction D) (s : State) : Prop where
  nodup : (ix.addedBy t.edits).Nodup
  locked : ∀ k ∈ ix.addedBy t.edits, k ∈ t.held
  unseen : ∀ k ∈ ix.addedBy t.edits, k ∉ ix.entries s

variable {ix}

theorem Fresh.of_rely (h : ix.Fresh t s) (hr : ix.contract.Rely t s s') : ix.Fresh t s' where
  nodup := h.nodup
  locked := h.locked
  unseen k hk hmem := h.unseen k hk ((hr.agree k (h.locked k hk)).mpr hmem)

theorem Fresh.lock (h : ix.Fresh t s) (k : Key) : ix.Fresh (t.lock k) s where
  nodup := h.nodup
  locked k' hk' := List.mem_cons_of_mem _ (h.locked k' hk')
  unseen := h.unseen

theorem Fresh.write (h : ix.Fresh t s) (he : ix.Allows (t.view s) e) : ix.Fresh (t.write e) s := by
  obtain ⟨hnodup, hunseen⟩ := he
  have hview : ix.entries (t.view s) = ix.entries s ++ ix.addedBy t.edits :=
    ix.entries_replay t.edits s
  have hadded : ix.addedBy (t.write e).edits = ix.addedBy t.edits ++ ix.added e := by
    rw [Transaction.edits_write, addedBy, List.flatMap_append, List.flatMap_singleton, addedBy]
  have hnew {k : Key} (hk : k ∈ ix.added e) : k ∉ ix.entries s ∧ k ∉ ix.addedBy t.edits := by
    have hk' := hunseen k hk
    rw [hview, List.mem_append, not_or] at hk'
    exact hk'
  constructor
  · rw [hadded, List.nodup_append']
    exact ⟨h.nodup, hnodup, fun k hk hk' => (hnew hk').2 hk⟩
  · intro k hk
    rw [hadded] at hk
    rcases List.mem_append.mp hk with hk | hk
    · exact List.mem_append_right _ (h.locked k hk)
    · exact List.mem_append_left _ (ix.locked e hk)
  · intro k hk
    rw [hadded] at hk
    rcases List.mem_append.mp hk with hk | hk
    · exact h.unseen k hk
    · exact (hnew hk).1

/-- What a transaction with fresh entries may commit. -/
theorem Fresh.guarantee (h : ix.Fresh t s) (hs : (ix.entries s).Nodup) :
    ix.contract.Guarantee R t s := by
  have hview : ix.entries (t.view s) = ix.entries s ++ ix.addedBy t.edits :=
    ix.entries_replay t.edits s
  refine ⟨?_, trivial, fun k hk _ => ?_⟩
  · change (ix.entries (t.view s)).Nodup
    rw [hview, List.nodup_append']
    exact ⟨hs, h.nodup, fun k hk hk' => h.unseen k hk' hk⟩
  · change k ∈ ix.entries s ↔ k ∈ ix.entries (t.view s)
    rw [hview, List.mem_append]
    exact ⟨.inl, fun hmem => hmem.resolve_right fun hadded => hk (h.locked k hadded)⟩

/-- A program whose edits pass the check only adds fresh entries. -/
theorem wp_of_checks {Q : α → Transaction D → State → Prop} {p : Program D α}
    (hp : p.Checks ix.Allows) (hQ : ∀ a t s, ix.Fresh t s → Q a t s) (h : ix.Fresh t s) :
    ix.contract.wp R Q p t s := by
  induction p generalizing t s with
  | ret a => exact fun s' hr => hQ a t s' (h.of_rely hr)
  | raise e => trivial
  | select next ih => exact fun s' hr => ih _ (hp _) (h.of_rely hr)
  | selectForUpdate k next ih =>
    intro s' hr
    exact ⟨fun _ => ih _ (hp _) ((h.of_rely hr).lock k), fun _ => ih _ (hp _) (h.of_rely hr)⟩
  | write edit next ih =>
    intro s' hr e he _
    obtain ⟨hallows, hnext⟩ := hp _ e he
    exact ih e hnext ((h.of_rely hr).write hallows)
  | request q next ih =>
    intro s' hr r
    have h' := h.of_rely hr
    exact ih r (hp r) ⟨h'.nodup, h'.locked, h'.unseen⟩

/-- At most one of the rows has a given entry, when no two entries are the same. -/
theorem length_filter_le_one {ρ : Type} {keys : ρ → List Key} {rows : List ρ} {p : ρ → Bool}
    {k : Key} (h : (rows.flatMap keys).Nodup) (hp : ∀ x, p x = true → k ∈ keys x) :
    (rows.filter p).length ≤ 1 := by
  induction rows with
  | nil => exact Nat.zero_le 1
  | cons x rows ih =>
    rw [List.flatMap_cons, List.nodup_append'] at h
    obtain ⟨-, hrest, hdisjoint⟩ := h
    by_cases hx : p x = true
    · have hnone : rows.filter p = [] := by
        rw [List.filter_eq_nil_iff]
        intro y hy hpy
        exact hdisjoint (hp x hx) (List.mem_flatMap.mpr ⟨y, hy, hp y hpy⟩)
      rw [List.filter_cons_of_pos hx, hnone]
      exact le_refl 1
    · rw [List.filter_cons_of_neg hx]
      exact ih hrest

variable [DecidableEq Key]

/-- **Uniqueness.** When every program checks its edits against the index, the entries differ
in every committed state of every run. -/
theorem reaches_nodup {ps : List (Program D α)} {c : Config D α} (hs : (ix.entries s₀).Nodup)
    (hps : ∀ p ∈ ps, p.Checks ix.Allows) (h : Reaches R (.start s₀ ps) c) :
    ∀ s ∈ c.history s₀, (ix.entries s).Nodup := by
  have hfresh : ix.Fresh {} s₀ := ⟨List.nodup_nil, by simp [addedBy], by simp [addedBy]⟩
  have hreach := Contract.of_reaches (L := ix.contract) (Q := fun _ _ _ => True) hs
    (fun p hp => wp_of_checks (hps p hp)
      (fun _ _ _ h hinv _ => ⟨h.guarantee hinv, trivial⟩) hfresh) h
  exact fun s hmem => (hreach s hmem).1

end UniqueIndex

end ReadCommitted
