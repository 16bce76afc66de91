import PulseOps.ReadCommitted.Validation

/-!
# Transactions that read once

A transaction that reads one value at its start, works out everything it writes from it, and
notes it in what it writes. If it commits only while the value it has read still stands, it
might as well have run alone at that moment. Unlike the stamps of `Validated`, the value may
return to what it was.

## Main definitions

* `Program.Blind` — a program that no longer looks at the state.
* `ReadOnce` — programs and a discipline as described above.

## Main results

* `ReadOnce.serialLog` — the commits are runs of their programs, one after the other.
-/

set_option autoImplicit false

namespace ReadCommitted

variable {State Key Edit Call Reply Error : Type}
  {D : Database State Key Edit Call Reply Error} {α : Type} {answer : Call → Reply}

namespace Program

/-- The program neither reads nor locks nor calls outside, and writes the same in every
state. -/
def Blind : Program D α → Prop
  | ret _ => True
  | raise _ => True
  | select _ => False
  | selectForUpdate _ _ => False
  | write edit next => (∀ s s', edit s = edit s') ∧ ∀ e, (next e).Blind
  | request _ _ => False

theorem blind_require {P : Prop} [Decidable P] {e : Error} {p : Program D α} (h : p.Blind) :
    (require P e >>= fun _ => p).Blind := by
  unfold require
  split_ifs
  · exact h
  · trivial

theorem blind_record {e : Edit} {p : Program D α} (h : p.Blind) :
    (record e >>= fun _ => p).Blind :=
  ⟨fun _ _ => rfl, fun _ => h⟩

end Program

open Program

/-- Programs that read one value, and note it in what they write; a discipline that lets them
commit only while the value they noted still stands. -/
structure ReadOnce {τ : Type} (R : Discipline D) (ps : List (Program D α)) (read : State → τ)
    (noted : List Edit → Option τ) : Prop where
  first : ∀ p ∈ ps, ∃ next : τ → Program D α, p = select (fun s => next (read s)) ∧
    ∀ x, (next x).Blind ∧ (next x).Writes (fun es => noted es = some x) []
  commit : ∀ s t, R.commit s t = true → noted t.edits = some (read s)

variable {τ : Type} {R : Discipline D} {ps : List (Program D α)} {read : State → τ}
  {noted : List Edit → Option τ} {s₀ : State}

/-- An open transaction has not started, or it has read `x` and is a beginning of its run alone
wherever the value is `x`. -/
private inductive Begun (answer : Call → Reply) (read : State → τ)
    (noted : List Edit → Option τ) (p₀ : Program D α) :
    Program D α → Transaction D → Prop
  | fresh {t : Transaction D} (ht : t.edits = []) : Begun answer read noted p₀ p₀ t
  | begun {p : Program D α} {t : Transaction D} (x : τ) (hblind : p.Blind)
      (hwrites : p.Writes (fun es => noted es = some x) t.edits)
      (hrun : ∀ s, read s = x → ∀ a es, Runs answer p (t.view s) a es →
        Runs answer p₀ s a (t.edits ++ es)) :
      Begun answer read noted p₀ p t

/-- The invariant of the runs. -/
private structure OnceSoFar (answer : Call → Reply) (ps : List (Program D α))
    (read : State → τ) (noted : List Edit → Option τ) (s₀ : State) (c : Config D α) : Prop where
  log : SerialLog answer ps s₀ c.log c.committed
  begun : ∀ (i : ℕ) (p : Program D α) (t : Transaction D),
    c.sessions[i]? = some (.running p t) → ∃ p₀, ps[i]? = some p₀ ∧ Begun answer read noted p₀ p t

private theorem OnceSoFar.setSession {c : Config D α} {i : ℕ} {x : Session D α}
    (hc : OnceSoFar answer ps read noted s₀ c)
    (hx : ∀ p t, x = .running p t → ∃ p₀, ps[i]? = some p₀ ∧ Begun answer read noted p₀ p t) :
    OnceSoFar answer ps read noted s₀ (c.setSession i x) where
  log := hc.log
  begun j p t hj := by
    rcases getElem?_setSession hj with ⟨rfl, h⟩ | ⟨-, h⟩
    · exact hx p t h.symm
    · exact hc.begun j p t h

/-- What is left to show of a statement: that the transaction goes on as it has begun. -/
private theorem OnceSoFar.statement {c : Config D α} {i : ℕ} {p p' : Program D α}
    {t t' : Transaction D} (hc : OnceSoFar answer ps read noted s₀ c)
    (hi : c.sessions[i]? = some (.running p t))
    (h : ∀ p₀ ∈ ps, Begun answer read noted p₀ p t → Begun answer read noted p₀ p' t') :
    OnceSoFar answer ps read noted s₀ (c.setSession i (.running p' t')) := by
  obtain ⟨p₀, hp₀, hbegun⟩ := hc.begun i p t hi
  refine hc.setSession fun q t'' heq => ⟨p₀, hp₀, ?_⟩
  cases heq
  exact h p₀ (List.mem_of_getElem? hp₀) hbegun

/-- A program that has not started reads its value first. -/
private theorem ReadOnce.eq_select (hv : ReadOnce R ps read noted) {p : Program D α}
    (hp : p ∈ ps) : ∃ next, p = select next := by
  obtain ⟨next, rfl, -⟩ := hv.first p hp
  exact ⟨_, rfl⟩

variable [DecidableEq Key]

private theorem OnceSoFar.moves {c c' : Config D α} (hv : ReadOnce R ps read noted)
    (hc : OnceSoFar answer ps read noted s₀ c) (h : Moves R c c') :
    OnceSoFar answer ps read noted s₀ c' := by
  cases h with
  | @commit i a t hi hok =>
    obtain ⟨p₀, hp₀, hbegun⟩ := hc.begun i _ t hi
    have hnoted := hv.commit _ _ hok
    have hrun : Runs answer p₀ c.committed a t.edits := by
      cases hbegun with
      | fresh ht =>
        obtain ⟨next, hselect⟩ := hv.eq_select (List.mem_of_getElem? hp₀)
        cases hselect
      | begun x hblind hwrites hrun =>
        -- the value that was noted is the one that stands
        have hx : read c.committed = x := by
          have hwritten : noted t.edits = some x := hwrites
          exact Option.some.inj (hnoted.symm.trans hwritten)
        simpa using hrun _ hx a [] (by simp)
    refine ⟨.commit hc.log hp₀ hrun, fun j p t' hj => ?_⟩
    rcases getElem?_setSession hj with ⟨-, h⟩ | ⟨-, h⟩
    · cases h
    · exact hc.begun j p t' h
  | abort hi _ => exact hc.setSession fun p t h => by cases h
  | @select i next t hi =>
    refine hc.statement hi fun p₀ hp₀ hbegun => ?_
    cases hbegun with
    | fresh ht =>
      obtain ⟨next', hselect, hnext⟩ := hv.first _ hp₀
      cases hselect
      have hview : t.view c.committed = c.committed := by simp [Transaction.view, ht]
      rw [hview]
      obtain ⟨hblind, hwrites⟩ := hnext (read c.committed)
      refine .begun (read c.committed) hblind (by rwa [ht]) fun s hs a es hrun => ?_
      have hview' : t.view s = s := by simp [Transaction.view, ht]
      rw [hview'] at hrun
      rw [ht, List.nil_append, runs_select, hs]
      exact hrun
    | begun _ hblind _ _ => exact hblind.elim
  | lock hi _ _ =>
    refine hc.statement hi fun p₀ hp₀ hbegun => ?_
    cases hbegun with
    | fresh _ =>
      obtain ⟨_, hselect⟩ := hv.eq_select hp₀
      cases hselect
    | begun _ hblind _ _ => exact hblind.elim
  | miss hi _ =>
    refine hc.statement hi fun p₀ hp₀ hbegun => ?_
    cases hbegun with
    | fresh _ =>
      obtain ⟨_, hselect⟩ := hv.eq_select hp₀
      cases hselect
    | begun _ hblind _ _ => exact hblind.elim
  | @write i edit next t e hi hedit _ _ =>
    refine hc.statement hi fun p₀ hp₀ hbegun => ?_
    cases hbegun with
    | fresh _ =>
      obtain ⟨_, hselect⟩ := hv.eq_select hp₀
      cases hselect
    | begun x hblind hwrites hrun =>
      refine .begun x (hblind.2 e) (hwrites _ _ hedit) fun s hs a es hrest => ?_
      rw [Transaction.view_write] at hrest
      rw [Transaction.edits_write, List.append_assoc]
      have hedit' : edit (t.view s) = .ok e := (hblind.1 _ _).trans hedit
      exact hrun s hs a _ (runs_write.mpr ⟨e, es, hedit', hrest, rfl⟩)
  | reply r hi =>
    refine hc.statement hi fun p₀ hp₀ hbegun => ?_
    cases hbegun with
    | fresh _ =>
      obtain ⟨_, hselect⟩ := hv.eq_select hp₀
      cases hselect
    | begun _ hblind _ _ => exact hblind.elim

/-- **Serializability.** When every transaction commits on the value it has read, the commits
are runs of their programs, one after the other. -/
theorem ReadOnce.serialLog (hv : ReadOnce R ps read noted) {c : Config D α}
    (h : Reaches R (.start s₀ ps) c) : SerialLog answer ps s₀ c.log c.committed := by
  have hstart : OnceSoFar answer ps read noted s₀ (.start s₀ ps) := by
    refine ⟨.nil, fun i p t hi => ?_⟩
    simp only [Config.start, List.getElem?_map, Option.map_eq_some_iff] at hi
    obtain ⟨q, hq, heq⟩ := hi
    cases heq
    exact ⟨p, hq, .fresh rfl⟩
  exact (h.induction hstart fun hc hm => hc.moves hv hm).log

end ReadCommitted
