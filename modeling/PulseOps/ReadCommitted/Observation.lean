import PulseOps.ReadCommitted.Serial

/-!
# Transactions seen through some of the tables

A property is usually about a few tables, and most statements of a program write to others.
An `Observation` picks the part of the state that matters and the edits that touch it. What
an open transaction is known to have done is then the exact list of those edits, together
with some `Knowledge` that the others cannot disturb.

## Main definitions

* `Observation` — a part of the state, and the edits that touch it.
* `Contract.Knowledge` — what stays true under interference, however many locks are added.
* `Observation.After` — the edits made so far and what is known.

## Main results

* `Observation.see_replay` — what is seen depends on the edits that touch it alone.
* `Observation.triple_emits`, `Observation.triple_query`, `Observation.triple_perform` — the
  rules for statements.
-/

set_option autoImplicit false

namespace ReadCommitted

variable {State Key Edit Call Reply Error V : Type}
  {D : Database State Key Edit Call Reply Error} {α β : Type}

/-- A part of the state, and the edits that may change it. What an edit makes of the part
depends on nothing else. -/
structure Observation (D : Database State Key Edit Call Reply Error) (V : Type) where
  see : State → V
  touches : Edit → Bool
  see_apply : ∀ {s : State} {e : Edit}, touches e = false → see (D.apply s e) = see s
  see_congr : ∀ {s s' : State} {e : Edit}, see s = see s' →
    see (D.apply s e) = see (D.apply s' e)

/-- What a transaction goes on knowing while it takes locks, whatever the others do. -/
structure Contract.Knowledge (L : Contract D) where
  holds : List Key → State → Prop
  mono : ∀ {held held' : List Key} {s : State}, held ⊆ held' → holds held s → holds held' s
  stable : ∀ {t : Transaction D} {s s' : State}, L.inv s → holds t.held s → L.Rely t s s' →
    holds t.held s'

/-- What a program returns is known of its result. -/
theorem Contract.Triple.returns {L : Contract D} {R : Discipline D}
    {P : Transaction D → State → Prop} {Q : α → Transaction D → State → Prop} {C : α → Prop}
    {p : Program D α} (hp : L.Triple R P p Q) (hC : p.Returns C) :
    L.Triple R P p fun a t s => C a ∧ Q a t s := by
  intro t s hs hP
  replace hp := hp t s hs hP
  clear hs hP
  induction p generalizing t s with
  | ret a => exact fun s' hr => ⟨hC, hp s' hr⟩
  | raise e => trivial
  | select next ih => exact fun s' hr => ih _ (hC _) _ _ (hp s' hr)
  | selectForUpdate k next ih =>
    exact fun s' hr => ⟨fun hk => ih _ (hC _) _ _ ((hp s' hr).1 hk),
      fun hk => ih _ (hC _) _ _ ((hp s' hr).2 hk)⟩
  | write edit next ih => exact fun s' hr e he hok => ih e (hC _ _ he) _ _ (hp s' hr e he hok)
  | request q next ih => exact fun s' hr r => ih r (hC r) _ _ (hp s' hr r)

/-- Everything is observed, and every edit matters. -/
def Observation.whole (D : Database State Key Edit Call Reply Error) : Observation D State where
  see := id
  touches _ := true
  see_apply h := nomatch h
  see_congr {_ _ e} h := congrArg (D.apply · e) h

namespace Contract.Knowledge

variable {L : Contract D}

/-- Nothing in particular. -/
def none : L.Knowledge where
  holds _ _ := True
  mono _ h := h
  stable _ h _ := h

/-- A lock the transaction holds. -/
def locked (k : Key) : L.Knowledge where
  holds held _ := k ∈ held
  mono hsub h := hsub h
  stable _ h _ := h

def and (K K' : L.Knowledge) : L.Knowledge where
  holds held s := K.holds held s ∧ K'.holds held s
  mono hsub h := ⟨K.mono hsub h.1, K'.mono hsub h.2⟩
  stable hs h hr := ⟨K.stable hs h.1 hr, K'.stable hs h.2 hr⟩

/-- A fact about the state that the others keep. -/
def lasting (p : State → Prop)
    (hp : ∀ {s s' : State}, L.inv s → L.inv s' → L.evolves s s' → p s → p s') : L.Knowledge where
  holds _ := p
  mono _ h := h
  stable hs h hr := hp hs hr.inv hr.evolves h

/-- A fact about what a lock the transaction holds protects. -/
def under (k : Key) (p : State → Prop) (hp : ∀ {s s' : State}, L.agree k s s' → p s → p s') :
    L.Knowledge where
  holds held s := k ∈ held ∧ p s
  mono hsub h := ⟨hsub h.1, h.2⟩
  stable _ h hr := ⟨h.1, hp (hr.agree k h.1) h.2⟩

/-- A fact that has nothing to do with the state. -/
def fact (C : Prop) : L.Knowledge where
  holds _ _ := C
  mono _ h := h
  stable _ h _ := h

def all {ι : Type} (xs : List ι) (K : ι → L.Knowledge) : L.Knowledge where
  holds held s := ∀ x ∈ xs, (K x).holds held s
  mono hsub h x hx := (K x).mono hsub (h x hx)
  stable hs h hr x hx := (K x).stable hs (h x hx) hr

end Contract.Knowledge

namespace Observation

variable {O : Observation D V} {es : List Edit} {s s' : State}

theorem see_replay_congr (h : O.see s = O.see s') :
    O.see (D.replay es s) = O.see (D.replay es s') := by
  induction es generalizing s s' with
  | nil => exact h
  | cons e es ih => exact ih (O.see_congr h)

/-- What is seen depends on the edits that touch it alone. -/
theorem see_replay (es : List Edit) (s : State) :
    O.see (D.replay es s) = O.see (D.replay (es.filter O.touches) s) := by
  induction es generalizing s with
  | nil => rfl
  | cons e es ih =>
    cases he : O.touches e with
    | true =>
      rw [List.filter_cons_of_pos he]
      exact ih _
    | false =>
      rw [List.filter_cons_of_neg (by simp [he]), ← ih s]
      exact see_replay_congr (O.see_apply he)

variable {L : Contract D} {R : Discipline D} {K K' : L.Knowledge} {t : Transaction D}

/-- The transaction knows `K`, and `es` are its edits that touch what is observed. Their
locks are held. -/
structure After (O : Observation D V) (K : L.Knowledge) (es : List Edit) (t : Transaction D)
    (s : State) : Prop where
  edits : t.edits.filter O.touches = es
  covered : ∀ e ∈ es, ∀ k ∈ D.footprint e, k ∈ t.held
  knows : K.holds t.held s

theorem After.start (hK : K.holds [] s) : O.After K [] {} s :=
  ⟨rfl, fun _ he => absurd he List.not_mem_nil, hK⟩

theorem After.stable : L.Stable (O.After K es) :=
  fun _ _ _ hs h hr => ⟨h.edits, h.covered, K.stable hs h.knows hr⟩

/-- What a statement of the transaction sees. -/
theorem After.see_view (h : O.After K es t s) : O.see (t.view s) = O.see (D.replay es s) := by
  rw [← h.edits]
  exact see_replay t.edits s

theorem After.mono (h : O.After K es t s) (hK : K.holds t.held s → K'.holds t.held s) :
    O.After K' es t s := ⟨h.edits, h.covered, hK h.knows⟩

theorem After.lock (h : O.After K es t s) (k : Key) : O.After K es (t.lock k) s where
  edits := h.edits
  covered e he k' hk' := List.mem_cons_of_mem _ (h.covered e he k' hk')
  knows := K.mono (fun _ => List.mem_cons_of_mem _) h.knows

theorem After.reply (h : O.After K es t s) (q : Call) (r : Reply) :
    O.After K es (t.reply q r) s := ⟨h.edits, h.covered, h.knows⟩

/-- An edit of other tables. -/
theorem After.aside {e : Edit} (h : O.After K es t s) (he : O.touches e = false) :
    O.After K es (t.write e) s where
  edits := by
    rw [Transaction.edits_write, List.filter_append, h.edits]
    simp [he]
  covered e' he' k hk := List.mem_append_right _ (h.covered e' he' k hk)
  knows := K.mono (fun _ => List.mem_append_right _) h.knows

theorem After.edit {e : Edit} (h : O.After K es t s) (he : O.touches e = true) :
    O.After K (es ++ [e]) (t.write e) s where
  edits := by
    rw [Transaction.edits_write, List.filter_append, h.edits]
    simp [he]
  covered e' he' k hk := by
    rcases List.mem_append.mp he' with he' | he'
    · exact List.mem_append_right _ (h.covered e' he' k hk)
    · obtain rfl := List.mem_singleton.mp he'
      exact List.mem_append_left _ hk
  knows := K.mono (fun _ => List.mem_append_right _) h.knows

/-! ### Rules -/

open Program Contract

variable {Q : β → Transaction D → State → Prop}

theorem triple_readsOnly {p : Program D α} (hp : p.ReadsOnly) :
    L.Triple R (O.After K es) p fun _ => O.After K es :=
  Triple.readsOnly hp After.stable

/-- A program that only edits other tables, whatever it reads, locks or asks for. -/
theorem triple_emits {p : Program D α} (hp : p.Emits fun e => O.touches e = false) :
    L.Triple R (O.After K es) p fun _ => O.After K es := by
  intro t s hs h
  -- the invariant of the state goes along, since knowledge is stable only under it
  refine wp_of_emits (fun t s => L.inv s ∧ O.After K es t s) hp ?_ ?_ ?_ ?_ ?_ ⟨hs, h⟩
  · exact fun t s s' h hr => ⟨hr.inv, After.stable t s s' h.1 h.2 hr⟩
  · exact fun t s k h => ⟨h.1, h.2.lock k⟩
  · exact fun t s e h he _ => ⟨h.1, h.2.aside he⟩
  · exact fun t s q r h => ⟨h.1, h.2.reply q r⟩
  · exact fun a t s h => h.2

/-- A read, and what it tells. -/
theorem triple_query {A : α → L.Knowledge} {q : State → α} {f : α → Program D β}
    (hread : ∀ held s v, L.inv s → K.holds held s → O.see v = O.see (D.replay es s) →
      (A (q v)).holds held s)
    (hf : ∀ a, L.Triple R (O.After (A a) es) (f a) Q) :
    L.Triple R (O.After K es) (query q >>= f) Q :=
  Triple.query_bind (A := fun a => O.After (A a) es) After.stable
    (fun t s hs h => h.mono fun hK => hread t.held s _ hs hK h.see_view) hf

/-- One writing statement, at a moment the discipline allows, and the rest of the program:
it makes one of the edits `E x`, of which `P x` holds and after which `A x` is known. -/
theorem triple_makes {ι : Type} {edit : State → Except Error Edit} {E : ι → Edit}
    {P : ι → Prop} {A : ι → L.Knowledge} {f : Edit → Program D β}
    (hwrite : ∀ t s e, L.inv s → O.After K es t s → edit (t.view s) = .ok e →
      R.write s t e = true → ∃ x, e = E x ∧ O.touches e = true ∧ P x ∧
        (A x).holds (D.footprint e ++ t.held) s)
    (hf : ∀ x, P x → L.Triple R (O.After (A x) (es ++ [E x])) (f (E x)) Q) :
    L.Triple R (O.After K es) (.write edit f) Q := by
  intro t s hs h s' hr e he hok
  have h' := After.stable t s s' hs h hr
  obtain ⟨x, rfl, htouch, hP, hA⟩ := hwrite t s' e hr.inv h' he hok
  have hedit := h'.edit htouch
  exact hf x hP _ s' hr.inv ⟨hedit.edits, hedit.covered, hA⟩

/-- One writing statement and the rest of the program: `P` says which edits the statement
can make, and `A` what is known after each of them. -/
theorem triple_write {edit : State → Except Error Edit} {P : Edit → Prop}
    {A : Edit → L.Knowledge} {f : Edit → Program D β}
    (hwrite : ∀ held s v e, L.inv s → K.holds held s → O.see v = O.see (D.replay es s) →
      edit v = .ok e → O.touches e = true ∧ P e ∧ (A e).holds (D.footprint e ++ held) s)
    (hf : ∀ e, P e → L.Triple R (O.After (A e) (es ++ [e])) (f e) Q) :
    L.Triple R (O.After K es) (.write edit f) Q :=
  triple_makes (E := id) (fun t s e hs h he _ =>
    ⟨e, rfl, hwrite t.held s _ e hs h.knows h.see_view he⟩) hf

/-- One writing statement, for its effect alone. -/
theorem triple_perform {edit : State → Except Error Edit} {P : Edit → Prop}
    {A : Edit → L.Knowledge}
    (hwrite : ∀ held s v e, L.inv s → K.holds held s → O.see v = O.see (D.replay es s) →
      edit v = .ok e → O.touches e = true ∧ P e ∧ (A e).holds (D.footprint e ++ held) s) :
    L.Triple R (O.After K es) (perform edit)
      fun _ t s => ∃ e, P e ∧ O.After (A e) (es ++ [e]) t s := by
  refine triple_write hwrite fun e hP t s hs h s' hr => ?_
  exact ⟨e, hP, After.stable t s s' hs h hr⟩

end Observation

end ReadCommitted
