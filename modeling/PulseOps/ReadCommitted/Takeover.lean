import PulseOps.ReadCommitted.Interleaved

/-!
# Taking over

In each group at most one key should hold a mark. A request that is to give the mark to a key
first takes it from the keys that it finds holding it, and gives it in a later turn. Nothing
keeps the others from giving the mark to another key in between; as long as nobody does, at
most one key holds it.

## Main definitions

* `Takeover` — which keys hold the mark, and what the requests are about to do.
* `Takeover.Cleared` — nobody holds the mark but whom a request has still to take it from.
* `Takeover.Undisturbed` — nobody gives the mark while another request is about to.

## Main results

* `Takeover.reaches_unique` — at most one holder in all runs under this condition.
-/

set_option autoImplicit false

namespace ReadCommitted

/-- Requests that give a mark to the keys of groups. -/
structure Takeover (ρ σ φ γ κ : Type) where
  advance : ρ → σ → φ → σ × φ
  /-- the key holds the mark of the group -/
  holds : σ → γ → κ → Prop
  /-- the group that a request has begun to clear, and the key it does so for -/
  claims : ρ → φ → Option (γ × κ)
  /-- the group and the key that the turn gives the mark of the group to -/
  gives : ρ → φ → Option (γ × κ)
  /-- a key that a request has found and has still to take the mark from -/
  found : φ → κ → Prop

namespace Takeover

variable {ρ σ φ γ κ : Type} (T : Takeover ρ σ φ γ κ) (requests : List ρ)

/-- In the groups that the request has begun to clear, only the key it does so for holds the
mark, and keys that it is still going to take it from. -/
def Cleared (s : σ) (req : ρ) (phase : φ) : Prop :=
  ∀ g k, T.claims req phase = some (g, k) → ∀ k', T.holds s g k' → k' = k ∨ T.found phase k'

/-- A mark is not given while another request is about to give it to another key. -/
def Undisturbed (c : Interleaved σ φ) (req : ρ) (phase : φ) : Prop :=
  ∀ g k, T.gives req phase = some (g, k) → ∀ (j : ℕ) (req' : ρ) (phase' : φ),
    requests[j]? = some req' → c.phases[j]? = some phase' →
      ∀ k', T.claims req' phase' = some (g, k') → k' = k

/-- Under the invariant, a turn gives the mark only where it says so, and then no other key
keeps it; and a request that has begun to clear a group goes on with it. -/
structure Lawful (I : Interleaved σ φ → Prop) : Prop where
  keeps : ∀ {c : Interleaved σ φ} {i : ℕ} {req : ρ} {phase : φ}, requests[i]? = some req →
    c.phases[i]? = some phase → I c → I (c.after T.advance i req phase)
  announces : ∀ {c : Interleaved σ φ} {i : ℕ} {req : ρ} {phase : φ} {g : γ} {k : κ},
    requests[i]? = some req → c.phases[i]? = some phase → I c →
      T.holds (T.advance req c.store phase).1 g k →
        T.holds c.store g k ∨ T.gives req phase = some (g, k)
  clears : ∀ {c : Interleaved σ φ} {i : ℕ} {req : ρ} {phase : φ}, requests[i]? = some req →
    c.phases[i]? = some phase → I c → T.Cleared c.store req phase →
      T.Cleared (T.advance req c.store phase).1 req (T.advance req c.store phase).2
  takes : ∀ {c : Interleaved σ φ} {i : ℕ} {req : ρ} {phase : φ} {g : γ} {k k' : κ},
    requests[i]? = some req → c.phases[i]? = some phase → I c → T.Cleared c.store req phase →
      T.gives req phase = some (g, k) →
        T.holds (T.advance req c.store phase).1 g k' → k' = k

/-- The invariant, at most one holder in each group, and what the requests rely on. -/
structure Orderly (I : Interleaved σ φ → Prop) (c : Interleaved σ φ) : Prop where
  invariant : I c
  unique : ∀ g k k', T.holds c.store g k → T.holds c.store g k' → k = k'
  cleared : ∀ (i : ℕ) (req : ρ) (phase : φ), requests[i]? = some req →
    c.phases[i]? = some phase → T.Cleared c.store req phase

variable {T requests} {I : Interleaved σ φ → Prop} {c c₀ : Interleaved σ φ} {i : ℕ} {req : ρ}
  {phase : φ}

/-- What the others rely on outlasts a turn that does not disturb them. -/
theorem Lawful.cleared_other (hT : T.Lawful requests I) (hreq : requests[i]? = some req)
    (hphase : c.phases[i]? = some phase) (hI : I c) (halone : T.Undisturbed requests c req phase)
    {j : ℕ} {req' : ρ} {phase' : φ} (hreq' : requests[j]? = some req')
    (hphase' : c.phases[j]? = some phase') (h : T.Cleared c.store req' phase') :
    T.Cleared (T.advance req c.store phase).1 req' phase' := by
  intro g k hclaims k' hholds
  rcases hT.announces hreq hphase hI hholds with hold | hgives
  · exact h g k hclaims k' hold
  · exact .inl (halone g k' hgives j req' phase' hreq' hphase' k hclaims).symm

/-- At most one key holds the mark after a turn. -/
theorem Orderly.unique_after (h : T.Orderly requests I c) (hT : T.Lawful requests I)
    (hreq : requests[i]? = some req) (hphase : c.phases[i]? = some phase) (g : γ) (k k' : κ)
    (hk : T.holds (T.advance req c.store phase).1 g k)
    (hk' : T.holds (T.advance req c.store phase).1 g k') : k = k' := by
  have hcleared := h.cleared i req phase hreq hphase
  rcases hT.announces hreq hphase h.invariant hk with hold | hgives
  · rcases hT.announces hreq hphase h.invariant hk' with hold' | hgives'
    · exact h.unique g k k' hold hold'
    · exact hT.takes hreq hphase h.invariant hcleared hgives' hk
  · exact (hT.takes hreq hphase h.invariant hcleared hgives hk').symm

/-- One turn. -/
theorem Orderly.after (h : T.Orderly requests I c) (hT : T.Lawful requests I)
    (hreq : requests[i]? = some req) (hphase : c.phases[i]? = some phase)
    (halone : T.Undisturbed requests c req phase) :
    T.Orderly requests I (c.after T.advance i req phase) where
  invariant := hT.keeps hreq hphase h.invariant
  unique := h.unique_after hT hreq hphase
  cleared j req' phase' hreq' hphase' := by
    rcases Interleaved.getElem?_after hphase' with ⟨rfl, rfl⟩ | ⟨-, hphase'⟩
    · obtain rfl := Option.some.inj (hreq.symm.trans hreq')
      exact hT.clears hreq hphase h.invariant (h.cleared j req phase hreq hphase)
    · exact hT.cleared_other hreq hphase h.invariant halone hreq' hphase'
        (h.cleared j req' phase' hreq' hphase')

/-- **Taking over.** As long as no request is disturbed, at most one key of each group holds
the mark. -/
theorem reaches_unique (hT : T.Lawful requests I) (hstart : T.Orderly requests I c₀)
    (h : Interleaved.Reaches T.advance requests (T.Undisturbed requests) c₀ c) (g : γ) (k k' : κ)
    (hk : T.holds c.store g k) (hk' : T.holds c.store g k') : k = k' := by
  have horderly : T.Orderly requests I c :=
    h.induction hstart fun _ _ _ _ hreq hphase halone h => h.after hT hreq hphase halone
  exact horderly.unique g k k' hk hk'

end Takeover

end ReadCommitted
