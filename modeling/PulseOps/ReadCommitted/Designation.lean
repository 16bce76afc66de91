import Mathlib.Data.Set.Insert
import PulseOps.ReadCommitted.Tables

/-!
# Designated rows

The rows of a table fall into groups, and in each group at most one row is designated: the
default address of a customer, the primary domain of a shop. A unique index over the
designated rows keeps them apart, and a group that has lost its designated row names another
one of its rows.

## Main definitions

* `Designation` — the groups of the rows, and which rows are designated.
* `Designation.Admits` — what the unique index admits.
* `Designation.Settled` — a group with rows has one designated row.
* `Designation.SettledBut` — the same of all groups but some.

## Main results

* `Designation.AtMostOne.insert` — what the index admits keeps the designated rows apart.
* `Designation.SettledBut.write`, `Designation.SettledBut.erase` — the groups that a write
  may leave unsettled.
* `Designation.SettledBut.designate` — naming a row settles a group without a designated one.
* `Designation.Settled.existsUnique` — the one designated row of a settled group.
-/

set_option autoImplicit false

/-- The group of a row, and whether the row is designated. -/
structure Designation (ρ γ : Type) where
  group : ρ → γ
  flag : ρ → Bool

namespace Designation

variable {κ ρ γ : Type} [DecidableEq κ] (d : Designation ρ γ)
  {t t' : AList fun _ : κ => ρ} {k k' : κ} {r : ρ} {g : γ}

/-- The key `k` has a row of the group `g`. -/
def Member (t : AList fun _ : κ => ρ) (g : γ) (k : κ) : Prop :=
  ∃ r, t.lookup k = some r ∧ d.group r = g

/-- The key `k` has a designated row of the group `g`. -/
def Holder (t : AList fun _ : κ => ρ) (g : γ) (k : κ) : Prop :=
  ∃ r, t.lookup k = some r ∧ d.group r = g ∧ d.flag r = true

/-- At most one row of the group is designated. -/
def AtMostOne (t : AList fun _ : κ => ρ) (g : γ) : Prop :=
  ∀ k k', d.Holder t g k → d.Holder t g k' → k = k'

/-- If the group has rows, one of them is designated, and no other. -/
structure Settled (t : AList fun _ : κ => ρ) (g : γ) : Prop where
  unique : d.AtMostOne t g
  exists_holder : ∀ k, d.Member t g k → ∃ k', d.Holder t g k'

/-- A unique index over the designated rows lets `r` be written at `k`. -/
def Admits (t : AList fun _ : κ => ρ) (k : κ) (r : ρ) : Prop :=
  d.flag r = true → ∀ k', d.Holder t (d.group r) k' → k' = k

/-- The check of the unique index. -/
def admits [DecidableEq γ] (t : AList fun _ : κ => ρ) (k : κ) (r : ρ) : Bool :=
  !d.flag r || t.entries.all fun x => x.1 = k ∨ d.group x.2 ≠ d.group r ∨ d.flag x.2 = false

variable {d}

theorem Holder.member (h : d.Holder t g k) : d.Member t g k := by
  obtain ⟨r, hr, hg, -⟩ := h
  exact ⟨r, hr, hg⟩

/-- The designated row of a group that has rows. -/
theorem Settled.existsUnique (h : d.Settled t g) (hk : d.Member t g k) :
    ∃! k', d.Holder t g k' := by
  obtain ⟨k', hk'⟩ := h.exists_holder k hk
  exact ⟨k', hk', fun k'' hk'' => h.unique _ _ hk'' hk'⟩

theorem settled_empty : d.Settled (∅ : AList fun _ : κ => ρ) g where
  unique k k' h := by
    obtain ⟨r, hr, -⟩ := h
    simp at hr
  exists_holder k h := by
    obtain ⟨r, hr, -⟩ := h
    simp at hr

@[simp] theorem admits_iff [DecidableEq γ] : d.admits t k r = true ↔ d.Admits t k r := by
  unfold admits Admits
  simp only [Bool.or_eq_true, Bool.not_eq_true', List.all_eq_true, decide_eq_true_eq]
  constructor
  · rintro (hflag | hall) hr k' ⟨r', hr', hg, hf⟩
    · rw [hr] at hflag
      cases hflag
    · have h := hall _ (AList.mem_entries_iff_lookup.mpr hr')
      simpa [hg, hf] using h
  · intro h
    by_cases hr : d.flag r = true
    · refine .inr fun x hx => ?_
      by_cases hx' : d.group x.2 = d.group r ∧ d.flag x.2 = true
      · exact .inl (h hr x.1 ⟨x.2, AList.mem_entries_iff_lookup.mp hx, hx'⟩)
      · simp only [not_and, Bool.not_eq_true] at hx'
        by_cases hg : d.group x.2 = d.group r
        · exact .inr (.inr (hx' hg))
        · exact .inr (.inl hg)
    · exact .inl (Bool.eq_false_iff.mpr hr)

/-! ### Writing a row -/

theorem holder_insert : d.Holder (t.insert k r) g k' ↔
    (k' = k ∧ d.group r = g ∧ d.flag r = true) ∨ (k' ≠ k ∧ d.Holder t g k') := by
  unfold Holder
  simp only [AList.lookup_insert_eq_some]
  grind

theorem member_insert : d.Member (t.insert k r) g k' ↔
    (k' = k ∧ d.group r = g) ∨ (k' ≠ k ∧ d.Member t g k') := by
  unfold Member
  simp only [AList.lookup_insert_eq_some]
  grind

theorem holder_erase : d.Holder (t.erase k) g k' ↔ k' ≠ k ∧ d.Holder t g k' := by
  unfold Holder
  simp only [AList.lookup_erase_eq_some]
  grind

theorem member_erase : d.Member (t.erase k) g k' ↔ k' ≠ k ∧ d.Member t g k' := by
  unfold Member
  simp only [AList.lookup_erase_eq_some]
  grind

/-- A row that the index admits keeps the designated rows apart. -/
theorem AtMostOne.insert (h : d.AtMostOne t g) (hr : d.Admits t k r) :
    d.AtMostOne (t.insert k r) g := by
  intro k₁ k₂ h₁ h₂
  rcases holder_insert.mp h₁ with ⟨rfl, hg, hf⟩ | ⟨-, hold₁⟩
  · rcases holder_insert.mp h₂ with ⟨rfl, -, -⟩ | ⟨-, hold₂⟩
    · rfl
    · rw [← hg] at hold₂
      exact (hr hf k₂ hold₂).symm
  · rcases holder_insert.mp h₂ with ⟨rfl, hg, hf⟩ | ⟨-, hold₂⟩
    · rw [← hg] at hold₁
      exact hr hf k₁ hold₁
    · exact h k₁ k₂ hold₁ hold₂

theorem AtMostOne.erase (h : d.AtMostOne t g) : d.AtMostOne (t.erase k) g :=
  fun k₁ k₂ h₁ h₂ => h k₁ k₂ (holder_erase.mp h₁).2 (holder_erase.mp h₂).2

/-- A table with no designated rows but those of another. -/
theorem AtMostOne.of_holders (h : d.AtMostOne t g)
    (hsub : ∀ k, d.Holder t' g k → d.Holder t g k) : d.AtMostOne t' g :=
  fun k₁ k₂ h₁ h₂ => h k₁ k₂ (hsub k₁ h₁) (hsub k₂ h₂)

/-- Tables with the same rows in a group. -/
theorem Settled.congr (h : d.Settled t g) (hmember : ∀ k, d.Member t' g k → d.Member t g k)
    (hholder : ∀ k, d.Holder t' g k ↔ d.Holder t g k) : d.Settled t' g where
  unique := h.unique.of_holders fun k => (hholder k).mp
  exists_holder k hk := by
    obtain ⟨k', hk'⟩ := h.exists_holder k (hmember k hk)
    exact ⟨k', (hholder k').mpr hk'⟩

/-- A group that has a designated row. -/
theorem AtMostOne.settled (h : d.AtMostOne t g) (hk : d.Holder t g k) : d.Settled t g where
  unique := h
  exists_holder _ _ := ⟨k, hk⟩

/-- A group without rows. -/
theorem settled_of_no_member (h : ∀ k, ¬ d.Member t g k) : d.Settled t g where
  unique k _ hk _ := absurd hk.member (h k)
  exists_holder k hk := absurd hk (h k)

/-! ### Several groups -/

/-- The groups outside `G` are settled; those of `G` have at most one designated row. -/
structure SettledBut (d : Designation ρ γ) (t : AList fun _ : κ => ρ) (G : Set γ) : Prop where
  unique : ∀ g, d.AtMostOne t g
  settled : ∀ g, g ∉ G → d.Settled t g

variable {G G' : Set γ}

theorem SettledBut.mono (h : d.SettledBut t G) (hG : G ⊆ G') : d.SettledBut t G' where
  unique := h.unique
  settled g hg := h.settled g fun hmem => hg (hG hmem)

/-- Writing a row that the index admits leaves the groups alone that neither the old nor the
new row belongs to. -/
theorem SettledBut.write (h : d.SettledBut t G) (hr : d.Admits t k r) (hnew : d.group r ∈ G)
    (hold : ∀ r', t.lookup k = some r' → d.group r' ∈ G) : d.SettledBut (t.insert k r) G where
  unique g := (h.unique g).insert hr
  settled g hg := by
    have hnot : ¬ d.Member t g k := by
      rintro ⟨r', hr', rfl⟩
      exact hg (hold r' hr')
    have hne : d.group r ≠ g := by
      rintro rfl
      exact hg hnew
    refine (h.settled g hg).congr (fun k' hk' => ?_) fun k' => ?_
    · rcases member_insert.mp hk' with ⟨-, hg'⟩ | ⟨-, hk'⟩
      · exact absurd hg' hne
      · exact hk'
    · rw [holder_insert]
      constructor
      · rintro (⟨-, hg', -⟩ | ⟨-, hk'⟩)
        · exact absurd hg' hne
        · exact hk'
      · intro hk'
        refine .inr ⟨?_, hk'⟩
        rintro rfl
        exact hnot hk'.member

theorem SettledBut.erase (h : d.SettledBut t G)
    (hold : ∀ r', t.lookup k = some r' → d.group r' ∈ G) : d.SettledBut (t.erase k) G where
  unique g := (h.unique g).erase
  settled g hg := by
    have hnot : ¬ d.Member t g k := by
      rintro ⟨r', hr', rfl⟩
      exact hg (hold r' hr')
    refine (h.settled g hg).congr (fun k' hk' => (member_erase.mp hk').2) fun k' => ?_
    rw [holder_erase]
    refine and_iff_right_of_imp fun hk' => ?_
    rintro rfl
    exact hnot hk'.member

/-- Writing a row over one of the same group that is designated or not as it is. -/
theorem SettledBut.rewrite {r' : ρ} (h : d.SettledBut t G) (hold : t.lookup k = some r')
    (hgroup : d.group r = d.group r') (hflag : d.flag r = d.flag r') :
    d.SettledBut (t.insert k r) G := by
  have hmember (g : γ) (k' : κ) : d.Member (t.insert k r) g k' → d.Member t g k' := by
    intro hk'
    rcases member_insert.mp hk' with ⟨rfl, hg⟩ | ⟨-, hk'⟩
    · exact ⟨r', hold, hgroup.symm.trans hg⟩
    · exact hk'
  have hholder (g : γ) (k' : κ) : d.Holder (t.insert k r) g k' ↔ d.Holder t g k' := by
    rw [holder_insert]
    constructor
    · rintro (⟨rfl, hg, hf⟩ | ⟨-, hk'⟩)
      · exact ⟨r', hold, hgroup.symm.trans hg, hflag.symm.trans hf⟩
      · exact hk'
    · intro hk'
      by_cases hk : k' = k
      · obtain ⟨r'', hr'', hg, hf⟩ := hk'
        rw [hk, hold] at hr''
        obtain rfl := Option.some.inj hr''
        exact .inl ⟨hk, hgroup.trans hg, hflag.trans hf⟩
      · exact .inr ⟨hk, hk'⟩
  exact ⟨fun g => (h.unique g).of_holders fun k' => (hholder g k').mp,
    fun g hg => (h.settled g hg).congr (hmember g) (hholder g)⟩

/-- Removing rows leaves the groups alone that lose none. -/
theorem SettledBut.keep {p : κ → ρ → Bool} (h : d.SettledBut t G)
    (hout : ∀ k r, t.lookup k = some r → d.group r ∉ G → p k r = true) :
    d.SettledBut (t.keep p) G := by
  have hmember (g : γ) (k : κ) : d.Member (t.keep p) g k → d.Member t g k := by
    rintro ⟨r, hr, hg⟩
    exact ⟨r, (AList.lookup_keep_eq_some.mp hr).1, hg⟩
  have hholder (g : γ) (k : κ) : d.Holder (t.keep p) g k → d.Holder t g k := by
    rintro ⟨r, hr, hg⟩
    exact ⟨r, (AList.lookup_keep_eq_some.mp hr).1, hg⟩
  refine ⟨fun g => (h.unique g).of_holders (hholder g), fun g hg => ?_⟩
  refine (h.settled g hg).congr (hmember g) fun k => ⟨hholder g k, ?_⟩
  rintro ⟨r, hr, rfl, hf⟩
  exact ⟨r, AList.lookup_keep_eq_some.mpr ⟨hr, hout k r hr hg⟩, rfl, hf⟩

/-- Changing rows without moving them to another group, and without designating any. -/
theorem SettledBut.mapRows {f : κ → ρ → ρ} (h : d.SettledBut t G)
    (hgroup : ∀ k r, d.group (f k r) = d.group r)
    (hflag : ∀ k r, d.flag (f k r) = true → d.flag r = true)
    (hsame : ∀ k r, t.lookup k = some r → d.group r ∉ G → d.flag (f k r) = d.flag r) :
    d.SettledBut (t.mapRows f) G := by
  have hmember (g : γ) (k : κ) : d.Member (t.mapRows f) g k → d.Member t g k := by
    rintro ⟨r', hr', rfl⟩
    rw [AList.lookup_mapRows, Option.map_eq_some_iff] at hr'
    obtain ⟨r, hr, rfl⟩ := hr'
    exact ⟨r, hr, (hgroup k r).symm⟩
  have hholder (g : γ) (k : κ) : d.Holder (t.mapRows f) g k → d.Holder t g k := by
    rintro ⟨r', hr', rfl, hf⟩
    rw [AList.lookup_mapRows, Option.map_eq_some_iff] at hr'
    obtain ⟨r, hr, rfl⟩ := hr'
    exact ⟨r, hr, (hgroup k r).symm, hflag k r hf⟩
  refine ⟨fun g => (h.unique g).of_holders (hholder g), fun g hg => ?_⟩
  refine (h.settled g hg).congr (hmember g) fun k => ⟨hholder g k, ?_⟩
  rintro ⟨r, hr, rfl, hf⟩
  refine ⟨f k r, ?_, hgroup k r, (hsame k r hr hg).trans hf⟩
  rw [AList.lookup_mapRows, hr]
  rfl

/-- A group turns out to have a designated row. -/
theorem SettledBut.found (h : d.SettledBut t (insert g G)) (hk : d.Holder t g k) :
    d.SettledBut t G where
  unique := h.unique
  settled g' hg' := by
    by_cases heq : g' = g
    · subst heq
      exact (h.unique g').settled hk
    · exact h.settled g' fun hmem => hmem.elim heq hg'

/-- A group turns out to be empty. -/
theorem SettledBut.empty (h : d.SettledBut t (insert g G)) (hnone : ∀ k, ¬ d.Member t g k) :
    d.SettledBut t G where
  unique := h.unique
  settled g' hg' := by
    by_cases heq : g' = g
    · subst heq
      exact settled_of_no_member hnone
    · exact h.settled g' fun hmem => hmem.elim heq hg'

/-- One of the rows of a group that has no designated row becomes it. -/
theorem SettledBut.designate {r' : ρ} (h : d.SettledBut t (insert g G))
    (hnone : ∀ k, ¬ d.Holder t g k) (hold : t.lookup k = some r') (hg' : d.group r' = g)
    (hg : d.group r = g) (hf : d.flag r = true) :
    d.Admits t k r ∧ d.SettledBut (t.insert k r) G := by
  have hadmits : d.Admits t k r := by
    intro _ k' hk'
    rw [hg] at hk'
    exact absurd hk' (hnone k')
  refine ⟨hadmits, ?_⟩
  have hinsert : d.SettledBut (t.insert k r) (insert g G) := by
    refine h.write hadmits (.inl hg) fun r'' hr'' => .inl ?_
    obtain rfl := Option.some.inj (hold.symm.trans hr'')
    exact hg'
  exact hinsert.found (holder_insert.mpr (.inl ⟨rfl, hg, hf⟩))

end Designation
