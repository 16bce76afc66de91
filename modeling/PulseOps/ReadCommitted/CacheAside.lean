import Mathlib.Data.Set.Basic
import PulseOps.ReadCommitted.Interleaved

/-!
# Cache-aside

A store beside a cache of values that are computed from it. Readers fill the cache with what
they have computed some turns ago; a request that changes the values deletes their entries in
a later turn. An entry is then right, or somebody is still going to delete it, provided that
this was so of every entry when it was written.

Where requests come one after the other, what counts is the state that each leaves: it leaves no
stale entry if there is none when it is over of those it may have made stale, because it deletes
them or because they were not there.

## Main definitions

* `CacheAside` — what is cached, what is true, and which requests will still delete an entry.
* `CacheAside.Lawful` — requests announce what they change, and delete what they announce.
* `CacheAside.Coherent` — every entry is right, or somebody will delete it.
* `CacheAside.FillsWell` — the condition on what a turn puts into the cache.
* `CachedViews.Current` — the entries are right.
* `CachedViews.Forgets` — a step that may change what the entries of some keys should be.
* `CachedViews.QuietRun` — requests that each meet a condition in the state they find.

## Main results

* `CacheAside.reaches_coherent` — coherence in all runs under this condition.
* `CacheAside.Coherent.current` — entries that nobody will delete are right.
* `CachedViews.Current.step` — one step that leaves no entry of these keys.
* `CachedViews.QuietRun.induction` — a whole run, one request after the other.
-/

set_option autoImplicit false

namespace ReadCommitted

/-- Requests over a store with a cache. -/
structure CacheAside (ρ σ φ κ ν : Type) where
  advance : ρ → σ → φ → σ × φ
  /-- the entry of a key -/
  cached : σ → κ → Option ν
  /-- the value that the entry should have -/
  truth : σ → κ → ν
  /-- whether a request at a phase will still delete the entry of a key -/
  clears : ρ → φ → κ → Prop

namespace CacheAside

variable {ρ σ φ κ ν : Type} (A : CacheAside ρ σ φ κ ν) (requests : List ρ)

/-- Under the invariant, a request that changes a value will delete its entry, and one that
will delete an entry either does so or still will. -/
structure Lawful (I : σ → Prop) : Prop where
  keeps : ∀ {req s phase}, I s → I (A.advance req s phase).1
  announces : ∀ {req s phase k}, I s → A.truth (A.advance req s phase).1 k ≠ A.truth s k →
    A.clears req (A.advance req s phase).2 k
  deletes : ∀ {req s phase k}, I s → A.clears req phase k →
    A.clears req (A.advance req s phase).2 k ∨ A.cached (A.advance req s phase).1 k = none

/-- Some request will still delete the entry. -/
def Pending (c : Interleaved σ φ) (k : κ) : Prop :=
  ∃ (i : ℕ) (req : ρ) (phase : φ), requests[i]? = some req ∧ c.phases[i]? = some phase ∧
    A.clears req phase k

/-- Every entry is right, or some request will still delete it. -/
def Coherent (c : Interleaved σ φ) : Prop :=
  ∀ k v, A.cached c.store k = some v → v = A.truth c.store k ∨ A.Pending requests c k

/-- What the turn puts into the cache is right, or some request will still delete it. -/
def FillsWell (c : Interleaved σ φ) (req : ρ) (phase : φ) : Prop :=
  ∀ k v, A.cached (A.advance req c.store phase).1 k = some v →
    A.cached c.store k = some v ∨ v = A.truth c.store k ∨ A.Pending requests c k

variable {A requests} {I : σ → Prop} {allowed : Interleaved σ φ → ρ → φ → Prop}
  {c c₀ : Interleaved σ φ} {i : ℕ} {req : ρ} {phase : φ} {k : κ}

/-- What is pending stays so until the entry is gone. -/
theorem Lawful.pending_after (hA : A.Lawful I) (hI : I c.store) (hreq : requests[i]? = some req)
    (hphase : c.phases[i]? = some phase) (h : A.Pending requests c k) :
    A.Pending requests (c.after A.advance i req phase) k ∨
      A.cached (c.after A.advance i req phase).store k = none := by
  obtain ⟨j, req', phase', hreq', hphase', hclears⟩ := h
  by_cases hji : j = i
  · subst hji
    obtain rfl := Option.some.inj (hreq.symm.trans hreq')
    obtain rfl := Option.some.inj (hphase.symm.trans hphase')
    rcases hA.deletes hI hclears with hstill | hgone
    · left
      refine ⟨j, req, _, hreq, ?_, hstill⟩
      rw [Interleaved.after, List.getElem?_set_self', hphase]
      rfl
    · exact .inr hgone
  · left
    refine ⟨j, req', phase', hreq', ?_, hclears⟩
    rw [Interleaved.after, List.getElem?_set_ne (Ne.symm hji)]
    exact hphase'

/-- A value that the turn changes is pending after it. -/
theorem Lawful.pending_of_change (hA : A.Lawful I) (hI : I c.store)
    (hreq : requests[i]? = some req) (hphase : c.phases[i]? = some phase)
    (hne : A.truth (A.advance req c.store phase).1 k ≠ A.truth c.store k) :
    A.Pending requests (c.after A.advance i req phase) k := by
  refine ⟨i, req, _, hreq, ?_, hA.announces hI hne⟩
  rw [Interleaved.after, List.getElem?_set_self', hphase]
  rfl

/-- One turn. -/
theorem Coherent.after (hA : A.Lawful I) (hI : I c.store) (hreq : requests[i]? = some req)
    (hphase : c.phases[i]? = some phase) (hfills : A.FillsWell requests c req phase)
    (h : A.Coherent requests c) : A.Coherent requests (c.after A.advance i req phase) := by
  intro k v hv
  have hbefore : v = A.truth c.store k ∨ A.Pending requests c k := by
    rcases hfills k v hv with hold | hwell
    · exact h k v hold
    · exact hwell
  rcases hbefore with htruth | hpending
  · by_cases hne : A.truth (A.advance req c.store phase).1 k = A.truth c.store k
    · exact .inl (htruth.trans hne.symm)
    · exact .inr (hA.pending_of_change hI hreq hphase hne)
  · rcases hA.pending_after hI hreq hphase hpending with hstill | hgone
    · exact .inr hstill
    · rw [hgone] at hv
      cases hv

/-- **Coherence.** If every turn fills the cache well, every entry is right or will still be
deleted, in every state. -/
theorem reaches_coherent (hA : A.Lawful I)
    (hallowed : ∀ c req phase, allowed c req phase → A.FillsWell requests c req phase)
    (hI : I c₀.store) (hstart : A.Coherent requests c₀)
    (h : Interleaved.Reaches A.advance requests allowed c₀ c) :
    I c.store ∧ A.Coherent requests c := by
  apply h.induction (P := fun c => I c.store ∧ A.Coherent requests c) ⟨hI, hstart⟩
  intro c i req phase hreq hphase hturn hc
  exact ⟨hA.keeps hc.1, hc.2.after hA hc.1 hreq hphase (hallowed c req phase hturn)⟩

/-- Entries that nobody will delete are right. -/
theorem Coherent.current (h : A.Coherent requests c) (hdone : ¬ A.Pending requests c k) {v : ν}
    (hv : A.cached c.store k = some v) : v = A.truth c.store k :=
  (h k v hv).resolve_right hdone

end CacheAside

/-! ### One request after the other -/

/-- States with a cache, and what the entries should be. -/
structure CachedViews (σ κ ν : Type) where
  /-- the entry of a key -/
  cached : σ → κ → Option ν
  /-- whether this is the value that the entry should have -/
  right : σ → κ → ν → Prop

namespace CachedViews

variable {σ κ ν ι : Type} (V : CachedViews σ κ ν)

/-- The entries are right. -/
def Current (s : σ) : Prop := ∀ k v, V.cached s k = some v → V.right s k v

/-- A step that writes no entry, and that may change what those of the keys in `K` should be. -/
structure Forgets (K : Set κ) (s s' : σ) : Prop where
  kept : ∀ k v, V.cached s' k = some v → V.cached s k = some v
  right : ∀ k ∉ K, ∀ v, V.right s k v → V.right s' k v

/-- Each request meets the condition in the state that the ones before it have left. -/
def QuietRun (advance : ι → σ → σ) (quiet : ι → σ → Prop) : List ι → σ → Prop
  | [], _ => True
  | i :: is, s => quiet i s ∧ QuietRun advance quiet is (advance i s)

/-- The state after a sequence of requests. -/
def afterAll (advance : ι → σ → σ) (is : List ι) (s : σ) : σ :=
  is.foldl (fun s i => advance i s) s

variable {V} {K : Set κ} {s s' : σ} {advance : ι → σ → σ} {quiet : ι → σ → Prop}

/-- **Steps.** No entry is left that a step has made stale. -/
theorem Current.step (h : V.Current s) (hstep : V.Forgets K s s')
    (hK : ∀ k ∈ K, V.cached s' k = none) : V.Current s' := by
  intro k v hv
  by_cases hk : k ∈ K
  · rw [hK k hk] at hv
    cases hv
  · exact hstep.right k hk v (h k v (hstep.kept k v hv))

/-- An entry that is not there is not written. -/
theorem Forgets.not_cached (h : V.Forgets K s s') {k : κ} (hk : V.cached s k = none) :
    V.cached s' k = none := by
  by_contra hsome
  obtain ⟨v, hv⟩ := Option.ne_none_iff_exists'.mp hsome
  rw [h.kept k v hv] at hk
  cases hk

/-- **Runs.** What every request keeps in a state where it meets the condition holds after all
of them. -/
theorem QuietRun.induction {P : σ → Prop} {is : List ι}
    (hstep : ∀ i ∈ is, ∀ s, quiet i s → P s → P (advance i s))
    (h : QuietRun advance quiet is s) (hs : P s) : P (afterAll advance is s) := by
  induction is generalizing s with
  | nil => exact hs
  | cons i is ih =>
    have hhead := hstep i (by simp) s h.1 hs
    exact ih (fun j hj => hstep j (by simp [hj])) h.2 hhead

end CachedViews

end ReadCommitted
