import PulseOps.ReadCommitted.Serial

/-!
# Validated transactions

Transactions that read a stamp first, note it in what they write, and commit only while it
still stands. When every commit moves the stamp forward, no transaction can commit after
another one committed since its first read, so whatever the interleaving the commits are
runs of their programs one after the other.

## Main definitions

* `Program.Silent` — a program that calls nothing outside.
* `Program.Writes` — everything a complete run writes satisfies a property.
* `Program.Once` — a program that writes once at most.
* `SerialLog` — commits that are runs of their programs, one after the other.
* `Validated` — programs and a discipline as described above.

## Main results

* `Reaches.log_sessions` — the log names each committed session once.
* `Validated.serialLog` — validated runs are serial.
-/

set_option autoImplicit false

namespace ReadCommitted

variable {State Key Edit Call Reply Error : Type}
  {D : Database State Key Edit Call Reply Error} {α β : Type} {answer : Call → Reply}

namespace Program

/-- The program calls nothing outside. -/
def Silent : Program D α → Prop
  | ret _ => True
  | raise _ => True
  | select next => ∀ s, (next s).Silent
  | selectForUpdate _ next => ∀ s, (next s).Silent
  | write _ next => ∀ e, (next e).Silent
  | request _ _ => False

theorem Silent.bind {p : Program D α} {f : α → Program D β} (hp : p.Silent)
    (hf : ∀ a, (f a).Silent) : (p >>= f).Silent := by
  induction p with
  | ret a => exact hf a
  | raise e => trivial
  | select next ih => exact fun s => ih s (hp s)
  | selectForUpdate k next ih => exact fun s => ih s (hp s)
  | write edit next ih => exact fun e => ih e (hp e)
  | request q next ih => exact hp.elim

theorem ReadsOnly.silent {p : Program D α} (hp : p.ReadsOnly) : p.Silent := by
  induction hp with
  | ret a => trivial
  | raise e => trivial
  | select _ ih => exact ih

theorem silent_lockRow (k : Key) : (lockRow k : Program D Unit).Silent := fun _ => trivial

theorem silent_perform (edit : State → Except Error Edit) :
    (perform edit : Program D Unit).Silent := fun _ => trivial

theorem Silent.forM {xs : List β} {f : β → Program D PUnit}
    (hf : ∀ x ∈ xs, (f x).Silent) : (forM xs f).Silent := by
  induction xs with
  | nil => trivial
  | cons x xs ih =>
    exact (hf x (by simp)).bind fun _ => ih fun y hy => hf y (by simp [hy])

/-- After the edits `es`, everything a complete run of the program writes satisfies `P`,
whatever the others do between its statements. -/
def Writes (P : List Edit → Prop) : Program D α → List Edit → Prop
  | ret _, es => P es
  | raise _, _ => True
  | select next, es => ∀ s, (next s).Writes P es
  | selectForUpdate _ next, es => ∀ s, (next s).Writes P es
  | write edit next, es => ∀ s e, edit s = .ok e → (next e).Writes P (es ++ [e])
  | request _ next, es => ∀ r, (next r).Writes P es

theorem ReadsOnly.writes {P : List Edit → Prop} {p : Program D α} {es : List Edit}
    (hp : p.ReadsOnly) (h : P es) : p.Writes P es := by
  induction hp with
  | ret a => exact h
  | raise e => trivial
  | select _ ih => exact ih

theorem ReadsOnly.writes_bind {P : List Edit → Prop} {p : Program D α} {f : α → Program D β}
    {es : List Edit} (hp : p.ReadsOnly) (hf : ∀ a, (f a).Writes P es) :
    (p >>= f).Writes P es := by
  induction hp with
  | ret a => exact hf a
  | raise e => trivial
  | select _ ih => exact ih

/-- A first part that writes edits of one kind only. -/
theorem Emits.writes_bind {P : Edit → Prop} {Q : List Edit → Prop} {p : Program D α}
    {f : α → Program D β} {es : List Edit} (hp : p.Emits P)
    (hf : ∀ a es', (∀ e ∈ es', P e) → (f a).Writes Q (es ++ es')) :
    (p >>= f).Writes Q es := by
  induction p generalizing es with
  | ret a => simpa using hf a [] (by simp)
  | raise e => trivial
  | select next ih => exact fun s => ih s (hp s) hf
  | selectForUpdate k next ih => exact fun s => ih s (hp s) hf
  | request q next ih => exact fun r => ih r (hp r) hf
  | write edit next ih =>
    intro s e he
    obtain ⟨hPe, hnext⟩ := hp s e he
    refine ih e hnext fun a es' hes' => ?_
    rw [List.append_assoc]
    exact hf a (e :: es') (List.forall_mem_cons.mpr ⟨hPe, hes'⟩)

/-- What is left to do, and what it makes of what was written. -/
theorem Writes.bind {P Q : List Edit → Prop} {p : Program D α} {f : α → Program D β}
    {es : List Edit} (hp : p.Writes P es) (hf : ∀ a es, P es → (f a).Writes Q es) :
    (p >>= f).Writes Q es := by
  induction p generalizing es with
  | ret a => exact hf a es hp
  | raise e => trivial
  | select next ih => exact fun s => ih s (hp s)
  | selectForUpdate k next ih => exact fun s => ih s (hp s)
  | write edit next ih => exact fun s e he => ih e (hp s e he)
  | request q next ih => exact fun r => ih r (hp r)

/-- Edits of one kind only. -/
theorem Emits.writes {P : Edit → Prop} {p : Program D α} {es : List Edit} (hp : p.Emits P)
    (hes : ∀ e ∈ es, P e) : p.Writes (fun es => ∀ e ∈ es, P e) es := by
  rw [← bind_pure p]
  refine hp.writes_bind fun a es' hes' => ?_
  exact List.forall_mem_append.mpr ⟨hes, hes'⟩

theorem Writes.mono {P Q : List Edit → Prop} {p : Program D α} {es : List Edit}
    (hp : p.Writes P es) (h : ∀ es, P es → Q es) : p.Writes Q es := by
  rw [← bind_pure p]
  exact hp.bind fun _ es hes => h es hes

theorem writes_require_bind {P : List Edit → Prop} {C : Prop} [Decidable C] {e : Error}
    {f : Unit → Program D β} {es : List Edit} (h : C → (f ()).Writes P es) :
    (require C e >>= f).Writes P es := by
  by_cases hC : C
  · rw [require, if_pos hC]
    exact h hC
  · rw [require, if_neg hC]
    trivial

theorem writes_perform_bind {P : List Edit → Prop} {edit : State → Except Error Edit}
    {f : Unit → Program D β} {es : List Edit}
    (h : ∀ s e, edit s = .ok e → (f ()).Writes P (es ++ [e])) :
    (perform edit >>= f).Writes P es :=
  h

/-- The program writes once at most, and its edit satisfies `P` in the state it is worked out
from. -/
def Once (P : State → Edit → Prop) : Program D α → Prop
  | ret _ => True
  | raise _ => True
  | select next => ∀ s, (next s).Once P
  | selectForUpdate _ next => ∀ s, (next s).Once P
  | write edit next => ∀ s e, edit s = .ok e → P s e ∧ (next e).Emits fun _ => False
  | request _ next => ∀ r, (next r).Once P

section Once

variable {P : State → Edit → Prop} {p : Program D α} {f : α → Program D β}

theorem ReadsOnly.once_bind (hp : p.ReadsOnly) (hf : ∀ a, (f a).Once P) : (p >>= f).Once P := by
  induction hp with
  | ret a => exact hf a
  | raise e => trivial
  | select _ ih => exact ih

theorem ReadsOnly.once (hp : p.ReadsOnly) : p.Once P := by
  rw [← bind_pure p]
  exact hp.once_bind fun _ => trivial

/-- The rest of the program after its one statement that writes. -/
theorem once_execute_bind {edit : State → Except Error Edit} {f : Edit → Program D β}
    (hedit : ∀ s e, edit s = .ok e → P s e) (hf : ∀ e, (f e).ReadsOnly) :
    (execute edit >>= f).Once P :=
  fun s e he => ⟨hedit s e he, (hf e).emits⟩

theorem once_perform_bind {edit : State → Except Error Edit} {f : Unit → Program D β}
    (hedit : ∀ s e, edit s = .ok e → P s e) (hf : (f ()).ReadsOnly) :
    (perform edit >>= f).Once P :=
  fun s e he => ⟨hedit s e he, hf.emits⟩

/-- All it writes is one edit, if it writes anything. -/
theorem Once.writes (hp : p.Once P) :
    p.Writes (fun es => es = [] ∨ ∃ s e, es = [e] ∧ P s e) [] := by
  induction p with
  | ret a => exact .inl rfl
  | raise e => trivial
  | select next ih => exact fun s => ih s (hp s)
  | selectForUpdate k next ih => exact fun s => ih s (hp s)
  | request q next ih => exact fun r => ih r (hp r)
  | write edit next ih =>
    intro s e he
    obtain ⟨hP, hrest⟩ := hp s e he
    rw [← bind_pure (next e)]
    refine hrest.writes_bind fun a es hes => .inr ⟨s, e, ?_, hP⟩
    cases es with
    | nil => rfl
    | cons e' es => exact (hes e' List.mem_cons_self).elim

/-- What is known of the one edit (`F`), while the others and the own locks and calls keep it. -/
theorem Once.wp {L : Contract D} {R : Discipline D} {F : Edit → Transaction D → State → Prop}
    {Q : α → Transaction D → State → Prop} {t : Transaction D} {s : State} (hp : p.Once P)
    (hwrite : ∀ (t : Transaction D) s e, L.inv s → t.edits = [] → P s e → F e (t.write e) s)
    (hrely : ∀ e t s s', F e t s → L.Rely t s s' → F e t s')
    (hlock : ∀ e t s k, F e t s → F e (t.lock k) s)
    (hreply : ∀ e t s q r, F e t s → F e (t.reply q r) s)
    (hnone : ∀ a (t : Transaction D) s, L.inv s → t.edits = [] → Q a t s)
    (hone : ∀ a (t : Transaction D) s e, L.inv s → t.edits = [e] → F e t s → Q a t s)
    (ht : t.edits = []) : L.wp R Q p t s := by
  -- after the write, nothing is left but reads, locks and calls
  have hafter {p : Program D α} {t : Transaction D} {s : State} {e : Edit}
      (hp : p.Emits fun _ => False) (hedits : t.edits = [e]) (hs : L.inv s) (hF : F e t s) :
      L.wp R Q p t s :=
    Contract.wp_of_emits (I := fun t s => (t.edits = [e] ∧ F e t s) ∧ L.inv s) hp
      (fun t s s' h hr => ⟨⟨h.1.1, hrely e t s s' h.1.2 hr⟩, hr.inv⟩)
      (fun t s k h => ⟨⟨h.1.1, hlock e t s k h.1.2⟩, h.2⟩) (fun _ _ _ _ hfalse => hfalse.elim)
      (fun t s q r h => ⟨⟨h.1.1, hreply e t s q r h.1.2⟩, h.2⟩)
      (fun a t s h => hone a t s e h.2 h.1.1 h.1.2) ⟨⟨hedits, hF⟩, hs⟩
  induction p generalizing t s with
  | ret a => exact fun s' hr => hnone a t s' hr.inv ht
  | raise e => trivial
  | select next ih => exact fun s' _ => ih _ (hp _) ht
  | selectForUpdate k next ih =>
    exact fun s' _ => ⟨fun _ => ih _ (hp _) ht, fun _ => ih _ (hp _) ht⟩
  | request q next ih => exact fun s' _ r => ih r (hp r) ht
  | write edit next ih =>
    intro s' hr e he _
    have hview : t.view s' = s' := by rw [Transaction.view, ht]; rfl
    rw [hview] at he
    obtain ⟨hP, hrest⟩ := hp _ e he
    refine hafter hrest ?_ hr.inv (hwrite t s' e hr.inv ht hP)
    rw [Transaction.edits_write, ht]
    rfl

end Once

end Program

open Program

/-! ### Serial logs -/

/-- The commits of a log, newest first, are runs of their programs one after the other. -/
inductive SerialLog (answer : Call → Reply) (ps : List (Program D α)) (s₀ : State) :
    List (Commit D) → State → Prop
  | nil : SerialLog answer ps s₀ [] s₀
  | commit {log : List (Commit D)} {s : State} {i : ℕ} {p : Program D α} {a : α}
      {es : List Edit} (hlog : SerialLog answer ps s₀ log s) (hp : ps[i]? = some p)
      (hrun : Runs answer p s a es) :
      SerialLog answer ps s₀ (⟨i, es, D.replay es s⟩ :: log) (D.replay es s)

/-- What every program keeps when it runs alone, a serial log keeps. -/
theorem SerialLog.invariant {ps : List (Program D α)} {s₀ s : State} {log : List (Commit D)}
    {I : State → Prop} (h : SerialLog answer ps s₀ log s) (hstart : I s₀)
    (hstep : ∀ p ∈ ps, ∀ s a es, I s → Runs answer p s a es → I (D.replay es s)) : I s := by
  induction h with
  | nil => exact hstart
  | commit _ hp hrun ih => exact hstep _ (List.mem_of_getElem? hp) _ _ _ ih hrun

/-- Programs that read a stamp first and note it in what they write, and a discipline that
lets them commit only while the stamp they noted still stands. Run alone, each of them moves
the stamp forward. -/
structure Validated {τ : Type} (answer : Call → Reply) (R : Discipline D)
    (ps : List (Program D α)) (I : State → Prop) (stamp : State → τ)
    (noted : List Edit → τ) (rank : τ → ℕ) : Prop where
  first : ∀ p ∈ ps, ∃ next, p = select next ∧
    ∀ s, (next s).Silent ∧ (next s).Writes (fun es => noted es = stamp s) []
  commit : ∀ s t, R.commit s t = true → noted t.edits = stamp s
  forward : ∀ p ∈ ps, ∀ s a es, I s → Runs answer p s a es →
    I (D.replay es s) ∧ rank (stamp s) < rank (stamp (D.replay es s))

variable {τ : Type} {R : Discipline D} {ps : List (Program D α)} {I : State → Prop}
  {stamp : State → τ} {noted : List Edit → τ} {rank : τ → ℕ} {s₀ : State}

/-- An open transaction has not started, or it has read the stamp `x`: either nobody has
committed since, and it is a beginning of a run alone on the committed state, or the stamp
has moved on. -/
private inductive Snapshot (answer : Call → Reply) (stamp : State → τ)
    (noted : List Edit → τ) (rank : τ → ℕ) (s : State) (p₀ : Program D α) :
    Program D α → Transaction D → Prop
  | fresh {t : Transaction D} (ht : t.edits = []) : Snapshot answer stamp noted rank s p₀ p₀ t
  | current {p : Program D α} {t : Transaction D} (hsilent : p.Silent)
      (hwrites : p.Writes (fun es => noted es = stamp s) t.edits)
      (hrun : ∀ a es, Runs answer p (t.view s) a es → Runs answer p₀ s a (t.edits ++ es)) :
      Snapshot answer stamp noted rank s p₀ p t
  | stale {p : Program D α} {t : Transaction D} {x : τ}
      (hwrites : p.Writes (fun es => noted es = x) t.edits) (hx : rank x < rank (stamp s)) :
      Snapshot answer stamp noted rank s p₀ p t

/-- A commit by another session makes a transaction that has started stale. -/
private theorem Snapshot.of_commit {s s' : State} {p₀ p : Program D α} {t : Transaction D}
    (h : Snapshot answer stamp noted rank s p₀ p t) (hs : rank (stamp s) < rank (stamp s')) :
    Snapshot answer stamp noted rank s' p₀ p t := by
  cases h with
  | fresh ht => exact .fresh ht
  | current _ hwrites _ => exact .stale hwrites hs
  | stale hwrites hx => exact .stale hwrites (Nat.lt_trans hx hs)

/-- The invariant of validated runs. -/
private structure SerialSoFar (answer : Call → Reply) (ps : List (Program D α))
    (I : State → Prop) (stamp : State → τ) (noted : List Edit → τ) (rank : τ → ℕ)
    (s₀ : State) (c : Config D α) : Prop where
  log : SerialLog answer ps s₀ c.log c.committed
  inv : I c.committed
  snapshot : ∀ (i : ℕ) (p : Program D α) (t : Transaction D),
    c.sessions[i]? = some (.running p t) → ∃ p₀, ps[i]? = some p₀ ∧
      Snapshot answer stamp noted rank c.committed p₀ p t

private theorem SerialSoFar.setSession {c : Config D α} {i : ℕ} {x : Session D α}
    (hc : SerialSoFar answer ps I stamp noted rank s₀ c)
    (hx : ∀ p t, x = .running p t → ∃ p₀, ps[i]? = some p₀ ∧
      Snapshot answer stamp noted rank c.committed p₀ p t) :
    SerialSoFar answer ps I stamp noted rank s₀ (c.setSession i x) where
  log := hc.log
  inv := hc.inv
  snapshot j p t hj := by
    rcases getElem?_setSession hj with ⟨rfl, h⟩ | ⟨-, h⟩
    · exact hx p t h.symm
    · exact hc.snapshot j p t h

/-- What is left to show of a statement: that it keeps the snapshot of its session. -/
private theorem SerialSoFar.statement {c : Config D α} {i : ℕ} {p p' : Program D α}
    {t t' : Transaction D} (hc : SerialSoFar answer ps I stamp noted rank s₀ c)
    (hi : c.sessions[i]? = some (.running p t))
    (h : ∀ p₀ ∈ ps, Snapshot answer stamp noted rank c.committed p₀ p t →
      Snapshot answer stamp noted rank c.committed p₀ p' t') :
    SerialSoFar answer ps I stamp noted rank s₀ (c.setSession i (.running p' t')) := by
  obtain ⟨p₀, hp₀, hsnap⟩ := hc.snapshot i p t hi
  refine hc.setSession fun q t'' heq => ⟨p₀, hp₀, ?_⟩
  cases heq
  exact h p₀ (List.mem_of_getElem? hp₀) hsnap

private theorem SerialSoFar.commit {c : Config D α} {i : ℕ} {a : α} {t : Transaction D}
    (hv : Validated answer R ps I stamp noted rank)
    (hc : SerialSoFar answer ps I stamp noted rank s₀ c)
    (hi : c.sessions[i]? = some (.running (.ret a) t))
    (hok : R.commit c.committed t = true) :
    SerialSoFar answer ps I stamp noted rank s₀ (c.commit i a t) := by
  obtain ⟨p₀, hp₀, hsnap⟩ := hc.snapshot i _ t hi
  have hmem := List.mem_of_getElem? hp₀
  have hstamp := hv.commit _ _ hok
  -- the validated stamp excludes a stale snapshot, so the transaction ran alone
  have hrun : Runs answer p₀ c.committed a t.edits := by
    cases hsnap with
    | fresh ht =>
      obtain ⟨next, hselect, -⟩ := hv.first _ hmem
      cases hselect
    | current _ _ hrun => simpa using hrun a [] (by simp)
    | stale hwrites hx =>
      have hnoted : noted t.edits = _ := hwrites
      rw [← hnoted, hstamp] at hx
      exact absurd hx (Nat.lt_irrefl _)
  obtain ⟨hinv, hforward⟩ := hv.forward _ hmem _ _ _ hc.inv hrun
  refine ⟨.commit hc.log hp₀ hrun, hinv, fun j p t' hj => ?_⟩
  rcases getElem?_setSession hj with ⟨-, h⟩ | ⟨-, h⟩
  · cases h
  · obtain ⟨q₀, hq₀, hsnap'⟩ := hc.snapshot j p t' h
    exact ⟨q₀, hq₀, hsnap'.of_commit hforward⟩

variable [DecidableEq Key]

private theorem SerialSoFar.moves {c c' : Config D α}
    (hv : Validated answer R ps I stamp noted rank)
    (hc : SerialSoFar answer ps I stamp noted rank s₀ c) (h : Moves R c c') :
    SerialSoFar answer ps I stamp noted rank s₀ c' := by
  cases h with
  | commit hi hok => exact hc.commit hv hi hok
  | abort hi _ => exact hc.setSession fun p t h => by cases h
  | @select i next t hi =>
    refine hc.statement hi fun p₀ hp₀ hsnap => ?_
    cases hsnap with
    | fresh ht =>
      -- the first statement reads the stamp
      obtain ⟨next', hselect, hnext⟩ := hv.first _ hp₀
      cases hselect
      obtain ⟨hsilent, hwrites⟩ := hnext c.committed
      have hview : t.view c.committed = c.committed := by simp [Transaction.view, ht]
      rw [hview]
      refine .current hsilent (by rwa [ht]) fun a es hrun => ?_
      rw [hview] at hrun
      rw [ht]
      exact hrun
    | current hsilent hwrites hrun => exact .current (hsilent _) (hwrites _) hrun
    | stale hwrites hx => exact .stale (hwrites _) hx
  | lock hi _ _ =>
    refine hc.statement hi fun p₀ hp₀ hsnap => ?_
    cases hsnap with
    | fresh _ =>
      obtain ⟨_, hselect, -⟩ := hv.first _ hp₀
      cases hselect
    | current hsilent hwrites hrun => exact .current (hsilent _) (hwrites _) hrun
    | stale hwrites hx => exact .stale (hwrites _) hx
  | miss hi _ =>
    refine hc.statement hi fun p₀ hp₀ hsnap => ?_
    cases hsnap with
    | fresh _ =>
      obtain ⟨_, hselect, -⟩ := hv.first _ hp₀
      cases hselect
    | current hsilent hwrites hrun => exact .current (hsilent _) (hwrites _) hrun
    | stale hwrites hx => exact .stale (hwrites _) hx
  | @write i edit next t e hi hedit _ _ =>
    refine hc.statement hi fun p₀ hp₀ hsnap => ?_
    cases hsnap with
    | fresh _ =>
      obtain ⟨_, hselect, -⟩ := hv.first _ hp₀
      cases hselect
    | current hsilent hwrites hrun =>
      refine .current (hsilent _) (hwrites _ _ hedit) fun a es hrest => ?_
      rw [Transaction.view_write] at hrest
      rw [Transaction.edits_write, List.append_assoc]
      exact hrun a _ (runs_write.mpr ⟨e, es, hedit, hrest, rfl⟩)
    | stale hwrites hx => exact .stale (hwrites _ _ hedit) hx
  | reply r hi =>
    refine hc.statement hi fun p₀ hp₀ hsnap => ?_
    cases hsnap with
    | fresh _ =>
      obtain ⟨_, hselect, -⟩ := hv.first _ hp₀
      cases hselect
    | current hsilent _ _ => exact hsilent.elim
    | stale hwrites hx => exact .stale (hwrites r) hx

/-- **Serializability.** In a validated run the commits so far are runs of their programs,
one after the other. -/
theorem Validated.serialLog (hv : Validated answer R ps I stamp noted rank) (hs : I s₀)
    {c : Config D α} (h : Reaches R (.start s₀ ps) c) :
    SerialLog answer ps s₀ c.log c.committed := by
  have hstart : SerialSoFar answer ps I stamp noted rank s₀ (.start s₀ ps) := by
    refine ⟨.nil, hs, fun i p t hi => ?_⟩
    simp only [Config.start, List.getElem?_map, Option.map_eq_some_iff] at hi
    obtain ⟨q, hq, heq⟩ := hi
    cases heq
    exact ⟨p, hq, .fresh rfl⟩
  exact (h.induction hstart fun hc hm => hc.moves hv hm).log

/-! ### The sessions of the log -/

/-- A log that names each committed session once. -/
private def LogsSessions (c : Config D α) : Prop :=
  (c.log.map Commit.session).Nodup ∧ ∀ i, i ∈ c.log.map Commit.session ↔
    ∃ a t, c.sessions[i]? = some (.committed a t)

omit [DecidableEq Key] in
private theorem LogsSessions.setSession {c : Config D α} {i : ℕ} {p : Program D α}
    {t : Transaction D} {x : Session D α} (hc : LogsSessions c)
    (hi : c.sessions[i]? = some (.running p t)) (hx : ∀ a t, x ≠ .committed a t) :
    LogsSessions (c.setSession i x) := by
  refine ⟨hc.1, fun j => (hc.2 j).trans ?_⟩
  by_cases hji : j = i
  · subst hji
    have hlt := (List.getElem?_eq_some_iff.mp hi).1
    rw [hi]
    simp [Config.setSession, hlt, hx]
  · simp [Config.setSession, List.getElem?_set_ne (Ne.symm hji)]

/-- The log names each committed session once, and no other. -/
theorem Reaches.log_sessions {c : Config D α} (h : Reaches R (.start s₀ ps) c) :
    (c.log.map Commit.session).Nodup ∧ ∀ i, i ∈ c.log.map Commit.session ↔
      ∃ a t, c.sessions[i]? = some (.committed a t) := by
  refine h.induction (P := LogsSessions) ⟨.nil, fun i => ?_⟩ fun {c c'} hc hm => ?_
  · simp [Config.start]
  cases hm with
  | @commit i a t hi _ =>
    have hlt := (List.getElem?_eq_some_iff.mp hi).1
    have hnew : i ∉ c.log.map Commit.session := by
      rw [hc.2 i, hi]
      simp
    refine ⟨List.nodup_cons.mpr ⟨hnew, hc.1⟩, fun j => ?_⟩
    have hcons : j ∈ (c.commit i a t).log.map Commit.session ↔
        j = i ∨ j ∈ c.log.map Commit.session := List.mem_cons
    rw [hcons, hc.2 j]
    by_cases hji : j = i
    · subst hji
      simp [Config.commit, hlt]
    · simp [Config.commit, List.getElem?_set_ne (Ne.symm hji), hji]
  | abort hi _ => exact hc.setSession hi fun _ _ h => by cases h
  | select hi => exact hc.setSession hi fun _ _ h => by cases h
  | lock hi _ _ => exact hc.setSession hi fun _ _ h => by cases h
  | miss hi _ => exact hc.setSession hi fun _ _ h => by cases h
  | write hi _ _ _ => exact hc.setSession hi fun _ _ h => by cases h
  | reply r hi => exact hc.setSession hi fun _ _ h => by cases h

/-- A session that has not committed has left nothing: the committed state is what the commits
of the others make of the first one. -/
theorem Reaches.committed_eq_of_uncommitted {c : Config D α} {i : ℕ}
    (h : Reaches R (.start s₀ ps) c) (hi : ∀ a t, c.sessions[i]? ≠ some (.committed a t)) :
    c.committed = D.replay ((c.log.filter (·.session ≠ i)).reverse.flatMap Commit.edits) s₀ := by
  have hothers : c.log.filter (·.session ≠ i) = c.log := by
    rw [List.filter_eq_self]
    intro x hx
    rw [decide_eq_true_eq]
    rintro rfl
    obtain ⟨a, t, hcommitted⟩ := (h.log_sessions.2 _).mp (List.mem_map_of_mem hx)
    exact hi a t hcommitted
  rw [hothers]
  exact h.committed_eq

end ReadCommitted
