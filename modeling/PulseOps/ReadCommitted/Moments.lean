import PulseOps.ReadCommitted.Parties
import PulseOps.ReadCommitted.Requests
import PulseOps.ReadCommitted.Statements

/-!
# The moments of a run

What a request has read may be out of date by the time it commits. To say which runs avoid
that, one has to point at the steps of a schedule: at the turn that ran a certain statement of
a transaction, at the turn that committed it, and at what was committed between the two. This
file gives the states of a run one turn after the other, the turns of a transaction, and what a
transaction that comes to its end knows of the states its statements have seen.

## Main definitions

* `moment` — the state after the first turns of a schedule.
* `Machine` — systems whose turns are steps of a `Config`; `Config.machine` and
  `Service.machine` are the two that are used.
* `Machine.turns` — the turns that ran the statements of the open transaction of a session.
* `Machine.commitAt` — what a turn commits.
* `Program.Sees` — a path through a program, with the committed state at each statement.
* `Program.RestsOn` — what a program writes rests on what one of its statements has read.
* `Program.LocksBy` — a program takes a row lock with one of its statements.
* `Program.Finishes` — what a program returns and writes, given the states its statements find.

## Main results

* `moment_induction` — the induction over the moments of a run.
* `Machine.sees` — the statements of an open transaction have seen the states of its turns.
* `Machine.running_between` — between two turns of a transaction it is open.
* `Machine.restsOn_of_moment`, `Machine.held_of_moment` — what follows from the two
  properties of programs.
* `Machine.finishes_of_moment` — how a transaction has come to its end.
* `Machine.same_of_held` — what is locked stays.
* `Machine.mem_history` — the states of the history are those of the moments.
-/

set_option autoImplicit false

namespace ReadCommitted

/-! ### Moments -/

section Moments

variable {σ ξ : Type} {step : σ → ξ → Option σ} {x₀ x x' y : σ} {us : List ξ} {u : ξ}
  {k l m : ℕ}

/-- The state after the first `k` turns of a schedule, if they can all be taken. -/
def moment (step : σ → ξ → Option σ) (x₀ : σ) (us : List ξ) : ℕ → Option σ
  | 0 => some x₀
  | k + 1 => (moment step x₀ us k).bind fun x => us[k]?.bind (step x)

theorem moment_succ (hx : moment step x₀ us k = some x) (hu : us[k]? = some u)
    (hstep : step x u = some x') : moment step x₀ us (k + 1) = some x' := by
  rw [moment, hx, hu]
  exact hstep

theorem exists_of_moment_succ (h : moment step x₀ us (k + 1) = some x') :
    ∃ x u, moment step x₀ us k = some x ∧ us[k]? = some u ∧ step x u = some x' := by
  rw [moment] at h
  obtain ⟨x, hx, h⟩ := Option.bind_eq_some_iff.mp h
  obtain ⟨u, hu, h⟩ := Option.bind_eq_some_iff.mp h
  exact ⟨x, u, hx, hu, h⟩

/-- What holds at the moment `l` and is kept by every turn from there on. -/
theorem moment_induction_from {P : ℕ → σ → Prop} (hl : moment step x₀ us l = some y)
    (hy : P l y)
    (hstep : ∀ k x u x', l ≤ k → k < m → moment step x₀ us k = some x → us[k]? = some u →
      step x u = some x' → P k x → P (k + 1) x')
    (hlm : l ≤ m) (hm : moment step x₀ us m = some x) : P m x := by
  induction m generalizing x with
  | zero =>
    obtain rfl := Nat.le_zero.mp hlm
    obtain rfl := Option.some.inj (hl.symm.trans hm)
    exact hy
  | succ m ih =>
    rcases Nat.eq_or_lt_of_le hlm with rfl | hlt
    · obtain rfl := Option.some.inj (hl.symm.trans hm)
      exact hy
    · obtain ⟨x₁, u, hx₁, hu, hturn⟩ := exists_of_moment_succ hm
      have hx : P m x₁ := ih (fun k x u x' hk hkm => hstep k x u x' hk (Nat.lt_succ_of_lt hkm))
        (Nat.le_of_lt_succ hlt) hx₁
      exact hstep m x₁ u x (Nat.le_of_lt_succ hlt) (Nat.lt_succ_self m) hx₁ hu hturn hx

/-- The induction over the moments of a run. -/
theorem moment_induction {P : ℕ → σ → Prop} (hstart : P 0 x₀)
    (hstep : ∀ k x u x', moment step x₀ us k = some x → us[k]? = some u →
      step x u = some x' → P k x → P (k + 1) x')
    (h : moment step x₀ us m = some x) : P m x :=
  moment_induction_from rfl hstart (fun k x u x' _ _ => hstep k x u x') (Nat.zero_le m) h

/-- A run that comes to a moment has come to those before it. -/
theorem exists_moment (h : moment step x₀ us m = some x) (hkm : k ≤ m) :
    ∃ y, moment step x₀ us k = some y := by
  induction m generalizing x with
  | zero => exact ⟨x₀, Nat.le_zero.mp hkm ▸ rfl⟩
  | succ m ih =>
    rcases Nat.eq_or_lt_of_le hkm with rfl | hlt
    · exact ⟨x, h⟩
    · obtain ⟨y, -, hy, -, -⟩ := exists_of_moment_succ h
      exact ih hy (Nat.le_of_lt_succ hlt)

/-- The moments of a schedule do not depend on what follows. -/
theorem moment_append (us vs : List ξ) (h : k ≤ us.length) :
    moment step x₀ (us ++ vs) k = moment step x₀ us k := by
  induction k with
  | zero => rfl
  | succ k ih => rw [moment, moment, ih (Nat.le_of_succ_le h), List.getElem?_append_left h]

/-- The last moment of a schedule with one more turn. -/
theorem moment_concat : moment step x₀ (us ++ [u]) (us.length + 1) =
    (moment step x₀ us us.length).bind fun x => step x u := by
  rw [moment, moment_append us [u] (Nat.le_refl _), List.getElem?_concat_length]
  rfl

end Moments

/-! ### Machines -/

variable {State Key Edit Call Reply Error : Type}
  {D : Database State Key Edit Call Reply Error} {α β σ ξ : Type}

/-- A system whose turns are steps of the sessions of a `Config`, or start a transaction.
`code` is the program of the transaction that a session is in. -/
structure Machine (D : Database State Key Edit Call Reply Error) (α σ ξ : Type) where
  step : σ → ξ → Option σ
  config : σ → Config D α
  session : ξ → ℕ
  resumes : ξ → Bool
  code : σ → ℕ → Option (Program D α)
  advances : ∀ {x x' : σ} {u : ξ}, step x u = some x' → resumes u = false →
    ∃ p t, (config x).sessions[session u]? = some (.running p t) ∧
      ((∃ y, Session.Advances (config x).committed t p y ∧
          config x' = (config x).setSession (session u) y) ∨
        ∃ a, p = .ret a ∧ config x' = (config x).commit (session u) a t)
  starts : ∀ {x x' : σ} {u : ξ}, step x u = some x' → resumes u = true →
    ∃ p, config x' = (config x).setSession (session u) (.running p {}) ∧
      ∀ q, code x' (session u) = some q → q = p
  keeps_code : ∀ {x x' : σ} {u : ξ} {i : ℕ}, step x u = some x' →
    i ≠ session u ∨ resumes u = false → code x' i = code x i

namespace Machine

variable {M : Machine D α σ ξ} {x₀ x x' y : σ} {us : List ξ} {u : ξ} {i k l m n : ℕ}
  {p q : Program D α} {t : Transaction D}

/-- The turns that ran the statements of the transaction that the session `i` is in after
the first `m` turns, one for each of them. -/
def turns (M : Machine D α σ ξ) (us : List ξ) (i : ℕ) : ℕ → List ℕ
  | 0 => []
  | m + 1 =>
    match us[m]? with
    | none => M.turns us i m
    | some u =>
      if M.session u = i then if M.resumes u then [] else M.turns us i m ++ [m]
      else M.turns us i m

/-- The committed state that turn `k` finds. -/
def committedAt (M : Machine D α σ ξ) (x₀ : σ) (us : List ξ) (k : ℕ) : Option State :=
  (moment M.step x₀ us k).map fun x => (M.config x).committed

/-- What turn `k` commits, if it is the end of a transaction. -/
def commitAt (M : Machine D α σ ξ) (x₀ : σ) (us : List ξ) (k : ℕ) : Option (Commit D) :=
  (moment M.step x₀ us k).bind fun x => (moment M.step x₀ us (k + 1)).bind fun x' =>
    if (M.config x').log.length = (M.config x).log.length then none
    else (M.config x').log.head?

/-! ### One turn -/

/-- What one turn makes of the sessions. -/
inductive Beat (M : Machine D α σ ξ) (x : σ) (u : ξ) (x' : σ) : Prop
  | advance {p : Program D α} {t : Transaction D} {y : Session D α}
      (hresumes : M.resumes u = false)
      (hi : (M.config x).sessions[M.session u]? = some (.running p t))
      (hy : Session.Advances (M.config x).committed t p y)
      (hconfig : M.config x' = (M.config x).setSession (M.session u) y)
  | commit {a : α} {t : Transaction D} (hresumes : M.resumes u = false)
      (hi : (M.config x).sessions[M.session u]? = some (.running (.ret a) t))
      (hconfig : M.config x' = (M.config x).commit (M.session u) a t)
  | start {p : Program D α} (hresumes : M.resumes u = true)
      (hconfig : M.config x' = (M.config x).setSession (M.session u) (.running p {}))
      (hcode : ∀ q, M.code x' (M.session u) = some q → q = p)

theorem beat (h : M.step x u = some x') : M.Beat x u x' := by
  cases hresumes : M.resumes u with
  | true =>
    obtain ⟨p, hconfig, hcode⟩ := M.starts h hresumes
    exact .start hresumes hconfig hcode
  | false =>
    obtain ⟨p, t, hi, ⟨y, hy, hconfig⟩ | ⟨a, rfl, hconfig⟩⟩ := M.advances h hresumes
    · exact .advance hresumes hi hy hconfig
    · exact .commit hresumes hi hconfig

/-- A turn that leaves the log as it is commits nothing. -/
theorem commitAt_of_same (hx : moment M.step x₀ us k = some x) (hu : us[k]? = some u)
    (hstep : M.step x u = some x') (hlog : (M.config x').log = (M.config x).log) :
    M.commitAt x₀ us k = none := by
  rw [commitAt, hx, moment_succ hx hu hstep, Option.bind_some, Option.bind_some, hlog]
  exact if_pos rfl

/-- What a turn commits. -/
theorem commitAt_of_commit (hx : moment M.step x₀ us k = some x) (hu : us[k]? = some u)
    (hstep : M.step x u = some x') {a : α}
    (hconfig : M.config x' = (M.config x).commit i a t) :
    M.commitAt x₀ us k = some ⟨i, t.edits, t.view (M.config x).committed⟩ := by
  rw [commitAt, hx, moment_succ hx hu hstep, Option.bind_some, Option.bind_some, hconfig]
  exact if_neg (Nat.succ_ne_self _)

/-- A turn commits, or the committed state and the log stay. -/
theorem commit_or_same (hx : moment M.step x₀ us k = some x) (hu : us[k]? = some u)
    (hstep : M.step x u = some x') :
    ((M.config x').committed = (M.config x).committed ∧
        (M.config x').log = (M.config x).log ∧ M.commitAt x₀ us k = none) ∨
      ∃ a t, M.resumes u = false ∧
        (M.config x).sessions[M.session u]? = some (.running (.ret a) t) ∧
        M.config x' = (M.config x).commit (M.session u) a t ∧
        M.commitAt x₀ us k = some ⟨M.session u, t.edits, t.view (M.config x).committed⟩ := by
  have hsame {y : Session D α} (hconfig : M.config x' = (M.config x).setSession (M.session u) y) :
      M.commitAt x₀ us k = none := commitAt_of_same hx hu hstep (hconfig ▸ rfl)
  cases M.beat hstep with
  | advance _ _ _ hconfig => exact .inl ⟨hconfig ▸ rfl, hconfig ▸ rfl, hsame hconfig⟩
  | start _ hconfig _ => exact .inl ⟨hconfig ▸ rfl, hconfig ▸ rfl, hsame hconfig⟩
  | @commit a t hresumes hi hconfig =>
    exact .inr ⟨a, t, hresumes, hi, hconfig, commitAt_of_commit hx hu hstep hconfig⟩

/-- The turn that makes a commit. -/
theorem exists_of_commitAt {z : Commit D} (h : M.commitAt x₀ us k = some z) :
    ∃ x x' u a t, moment M.step x₀ us k = some x ∧ us[k]? = some u ∧
      M.step x u = some x' ∧ M.resumes u = false ∧
      (M.config x).sessions[M.session u]? = some (.running (.ret a) t) ∧
      M.config x' = (M.config x).commit (M.session u) a t ∧
      z = ⟨M.session u, t.edits, t.view (M.config x).committed⟩ := by
  obtain ⟨x, hx, h'⟩ := Option.bind_eq_some_iff.mp h
  obtain ⟨x', hx', -⟩ := Option.bind_eq_some_iff.mp h'
  obtain ⟨x₁, u, hx₁, hu, hstep⟩ := exists_of_moment_succ hx'
  obtain rfl := Option.some.inj (hx.symm.trans hx₁)
  rcases commit_or_same hx hu hstep with ⟨-, -, hnone⟩ | ⟨a, t, hresumes, hi, hconfig, hcommit⟩
  · rw [h] at hnone
    cases hnone
  · exact ⟨x, x', u, a, t, hx, hu, hstep, hresumes, hi, hconfig,
      Option.some.inj (h.symm.trans hcommit)⟩

/-- A session found running after a turn: another one that has not moved, its first
statement, or its next one. -/
theorem running_cases (h : M.step x u = some x')
    (hi : (M.config x').sessions[i]? = some (.running q t)) :
    (M.session u ≠ i ∧ (M.config x).sessions[i]? = some (.running q t)) ∨
      (M.session u = i ∧ M.resumes u = true ∧ t = {} ∧ ∀ p, M.code x' i = some p → p = q) ∨
      ∃ p₁ t₁, M.session u = i ∧ M.resumes u = false ∧
        (M.config x).sessions[i]? = some (.running p₁ t₁) ∧
        Session.Advances (M.config x).committed t₁ p₁ (.running q t) := by
  cases M.beat h with
  | @advance p₁ t₁ z hresumes hrunning hz hconfig =>
    rw [hconfig] at hi
    rcases getElem?_setSession hi with ⟨rfl, rfl⟩ | ⟨hne, hi⟩
    · exact .inr (.inr ⟨p₁, t₁, rfl, hresumes, hrunning, hz⟩)
    · exact .inl ⟨Ne.symm hne, hi⟩
  | commit _ _ hconfig =>
    rw [hconfig] at hi
    rcases getElem?_setSession hi with ⟨-, hrunning⟩ | ⟨hne, hi⟩
    · cases hrunning
    · exact .inl ⟨Ne.symm hne, hi⟩
  | start hresumes hconfig hcode =>
    rw [hconfig] at hi
    rcases getElem?_setSession hi with ⟨rfl, hrunning⟩ | ⟨hne, hi⟩
    · obtain ⟨rfl, rfl⟩ := Session.running.inj hrunning
      exact .inr (.inl ⟨rfl, hresumes, rfl, hcode⟩)
    · exact .inl ⟨Ne.symm hne, hi⟩

/-! ### The turns of a transaction -/

theorem turns_other (hu : us[m]? = some u) (hne : M.session u ≠ i) :
    M.turns us i (m + 1) = M.turns us i m := by
  simp [turns, hu, hne]

theorem turns_resume (hu : us[m]? = some u) (hi : M.session u = i)
    (hresumes : M.resumes u = true) : M.turns us i (m + 1) = [] := by
  simp [turns, hu, hi, hresumes]

theorem turns_own (hu : us[m]? = some u) (hi : M.session u = i)
    (hresumes : M.resumes u = false) : M.turns us i (m + 1) = M.turns us i m ++ [m] := by
  simp [turns, hu, hi, hresumes]

/-- The turns of a transaction lie behind. -/
theorem lt_of_mem_turns (hk : k ∈ M.turns us i m) : k < m := by
  induction m with
  | zero => cases hk
  | succ m ih =>
    rw [turns] at hk
    split at hk
    · exact Nat.lt_succ_of_lt (ih hk)
    · split_ifs at hk
      · cases hk
      · rcases List.mem_append.mp hk with hk | hk
        · exact Nat.lt_succ_of_lt (ih hk)
        · exact List.mem_singleton.mp hk ▸ Nat.lt_succ_self m
      · exact Nat.lt_succ_of_lt (ih hk)

/-- A turn of the transaction was its turn at any moment in between, and so were those
before it. -/
theorem turns_prefix (hk : k ∈ M.turns us i m) (hkl : k < l) (hlm : l ≤ m) :
    k ∈ M.turns us i l ∧ M.turns us i l <+: M.turns us i m := by
  induction m with
  | zero => cases hk
  | succ m ih =>
    rcases Nat.eq_or_lt_of_le hlm with rfl | hlt
    · exact ⟨hk, List.prefix_rfl⟩
    have hlm' := Nat.le_of_lt_succ hlt
    rw [turns] at hk ⊢
    split at hk
    · exact ih hk hlm'
    · split_ifs at hk with hsession hresumes
      · cases hk
      · rcases List.mem_append.mp hk with hk | hk
        · rw [if_pos hsession, if_neg hresumes]
          exact ⟨(ih hk hlm').1, (ih hk hlm').2.trans (List.prefix_append _ _)⟩
        · -- the turn itself does not lie before `l`
          rw [List.mem_singleton.mp hk] at hkl
          omega
      · rw [if_neg hsession]
        exact ih hk hlm'

theorem sorted_turns : (M.turns us i m).Pairwise (· < ·) := by
  induction m with
  | zero => exact .nil
  | succ m ih =>
    rw [turns]
    split
    · exact ih
    · split_ifs
      · exact .nil
      · refine List.pairwise_append.mpr ⟨ih, List.pairwise_singleton _ _, fun k hk l hl => ?_⟩
        exact List.mem_singleton.mp hl ▸ lt_of_mem_turns hk
      · exact ih

/-- A statement that has been run by the moment `m` has been run at any moment after its
turn. -/
theorem lt_length_turns (hk : (M.turns us i m)[n]? = some k) (hkl : k < l) (hlm : l ≤ m) :
    n < (M.turns us i l).length := by
  obtain ⟨hmem, hprefix⟩ := turns_prefix (List.mem_of_getElem? hk) hkl hlm
  obtain ⟨j, hj, rfl⟩ := List.mem_iff_getElem.mp hmem
  have hnodup : (M.turns us i m).Nodup := sorted_turns.imp Nat.ne_of_lt
  have hj' := List.prefix_iff_getElem?.mp hprefix j hj
  have hnj : n = j := (List.getElem?_inj (List.getElem?_eq_some_iff.mp hk).1 hnodup).mp
    (hk.trans hj'.symm)
  exact hnj ▸ hj

theorem session_of_mem_turns (hk : k ∈ M.turns us i m) :
    ∃ u, us[k]? = some u ∧ M.session u = i ∧ M.resumes u = false := by
  induction m with
  | zero => cases hk
  | succ m ih =>
    rw [turns] at hk
    split at hk
    · exact ih hk
    · rename_i u hu
      split_ifs at hk with hsession hresumes
      · cases hk
      · rcases List.mem_append.mp hk with hk | hk
        · exact ih hk
        · rw [List.mem_singleton.mp hk]
          exact ⟨u, hu, hsession, Bool.not_eq_true _ ▸ hresumes⟩
      · exact ih hk

/-- The same transaction is open all the way between one of its turns and the moment `m`. -/
theorem running_between (hm : moment M.step x₀ us m = some x)
    (hi : (M.config x).sessions[i]? = some (.running q t)) (hk : k ∈ M.turns us i m)
    (hkl : k < l) (hlm : l ≤ m) :
    ∃ y p₁ t₁, moment M.step x₀ us l = some y ∧
      (M.config y).sessions[i]? = some (.running p₁ t₁) ∧ M.code y i = M.code x i := by
  induction m generalizing x q t with
  | zero => cases hk
  | succ m ih =>
    rcases Nat.eq_or_lt_of_le hlm with rfl | hlt
    · exact ⟨x, q, t, hm, hi, rfl⟩
    have hlm' := Nat.le_of_lt_succ hlt
    obtain ⟨x₁, u, hx₁, hu, hstep⟩ := exists_of_moment_succ hm
    rcases running_cases hstep hi with ⟨hne, hi₁⟩ | ⟨hsession, hresumes, -⟩ |
        ⟨p₁, t₁, hsession, hresumes, hi₁, -⟩
    · -- another session has its turn, or this one begins, or runs one more statement
      rw [turns_other hu hne] at hk
      rw [M.keeps_code hstep (.inl (Ne.symm hne))]
      exact ih hx₁ hi₁ hk hlm'
    · rw [turns_resume hu hsession hresumes] at hk
      cases hk
    · rw [turns_own hu hsession hresumes] at hk
      rw [M.keeps_code hstep (.inr hresumes)]
      rcases List.mem_append.mp hk with hk | hk
      · exact ih hx₁ hi₁ hk hlm'
      · rw [List.mem_singleton.mp hk] at hkl
        omega

/-- The statements of an open transaction are no commits. -/
theorem commitAt_of_mem_turns (hm : moment M.step x₀ us m = some x)
    (hi : (M.config x).sessions[i]? = some (.running q t)) (hk : k ∈ M.turns us i m) :
    M.commitAt x₀ us k = none := by
  obtain ⟨y', p₁, t₁, hy', hrunning, -⟩ :=
    running_between hm hi hk (Nat.lt_succ_self k) (lt_of_mem_turns hk)
  obtain ⟨y, u, hy, hu, hstep⟩ := exists_of_moment_succ hy'
  obtain ⟨u', hu', hsession, -⟩ := session_of_mem_turns hk
  obtain rfl := Option.some.inj (hu.symm.trans hu')
  rcases commit_or_same hy hu hstep with ⟨-, -, hnone⟩ | ⟨a, t', -, -, hconfig, -⟩
  · exact hnone
  · rw [hconfig] at hrunning
    rcases getElem?_setSession hrunning with ⟨-, h⟩ | ⟨hne, -⟩
    · cases h
    · exact absurd hsession.symm hne

end Machine

/-! ### The states a transaction has seen -/

namespace Program

/-- A path through the program, with the committed state at each statement. -/
inductive Sees (p : Program D α) : List State → Program D α → Transaction D → Prop
  | refl : Sees p [] p {}
  | step {ss : List State} {s : State} {q q' : Program D α} {t t' : Transaction D}
      (h : Sees p ss q t) (hstep : Session.Advances s t q (.running q' t')) :
      Sees p (ss ++ [s]) q' t'

variable {Inv : State → Prop} {Q : State → List Edit → Prop} {P : List Edit → Prop}
  {p q : Program D α} {s : State} {t t' : Transaction D} {ss : List State} {k : Key} {n : ℕ}

/-- One statement more. -/
theorem Writes.advances (h : p.Writes P t.edits)
    (hstep : Session.Advances s t p (.running q t')) : q.Writes P t'.edits := by
  cases hstep with
  | select => exact h _
  | lock => exact h _
  | miss _ => exact h _
  | write he => exact h _ _ he
  | reply => exact h _

/-- The program reads and locks up to its statement number `n`, and everything a complete run
writes after it satisfies `Q` of the state that statement has read. -/
def RestsOn (Inv : State → Prop) (Q : State → List Edit → Prop) : Program D α → ℕ → Prop
  | .ret _, _ => False
  | .raise _, _ => True
  | .select next, 0 => ∀ s, Inv s → (next s).Writes (Q s) []
  | .select next, n + 1 => ∀ s, Inv s → (next s).RestsOn Inv Q n
  | .selectForUpdate _ next, 0 => ∀ s, Inv s → (next s).Writes (Q s) []
  | .selectForUpdate _ next, n + 1 => ∀ s, Inv s → (next s).RestsOn Inv Q n
  | .write _ _, _ => False
  | .request _ _, _ => False

/-- The program reads and locks up to its statement number `n`, which locks the row `k`. -/
def LocksBy (Inv : State → Prop) (k : Key) : Program D α → ℕ → Prop
  | .ret _, _ => False
  | .raise _, _ => True
  | .select _, 0 => False
  | .select next, n + 1 => ∀ s, Inv s → (next s).LocksBy Inv k n
  | .selectForUpdate k' _, 0 => k' = k
  | .selectForUpdate _ next, n + 1 => ∀ s, Inv s → (next s).LocksBy Inv k n
  | .write _ _, _ => False
  | .request _ _, _ => False

section Rules

variable {f : α → Program D β} {R : State → List Edit → Prop} {r : State → α} {e : Error}
  {C : Prop} [Decidable C]

/-- A program that rests on what it has read, and what is done with its result. -/
theorem RestsOn.bind (hp : p.RestsOn Inv Q n)
    (hf : ∀ s a es, Q s es → (f a).Writes (R s) es) : (p >>= f).RestsOn Inv R n := by
  induction p generalizing n with
  | ret a => exact hp.elim
  | raise e => trivial
  | select next ih =>
    cases n with
    | zero => exact fun s hs => (hp s hs).bind (hf s)
    | succ n => exact fun s hs => ih s (hp s hs)
  | selectForUpdate k next ih =>
    cases n with
    | zero => exact fun s hs => (hp s hs).bind (hf s)
    | succ n => exact fun s hs => ih s (hp s hs)
  | write edit next ih => exact hp.elim
  | request q next ih => exact hp.elim

/-- The statement that counts. -/
theorem restsOn_query_bind (h : ∀ s, Inv s → (f (r s)).Writes (Q s) []) :
    (query r >>= f).RestsOn Inv Q 0 :=
  h

theorem restsOn_query_bind_succ (h : ∀ s, Inv s → (f (r s)).RestsOn Inv Q n) :
    (query r >>= f).RestsOn Inv Q (n + 1) :=
  h

theorem restsOn_lockRow_bind {f : Unit → Program D β} (h : (f ()).RestsOn Inv Q n) :
    (lockRow k >>= f).RestsOn Inv Q (n + 1) :=
  fun _ _ => h

theorem restsOn_require_bind {f : Unit → Program D β} (h : C → (f ()).RestsOn Inv Q n) :
    (require C e >>= f).RestsOn Inv Q n := by
  by_cases hC : C
  · rw [require, if_pos hC]
    exact h hC
  · rw [require, if_neg hC]
    cases n <;> trivial

theorem restsOn_orRaise_bind {x : Option α} (h : ∀ a, x = some a → (f a).RestsOn Inv Q n) :
    (orRaise x e >>= f).RestsOn Inv Q n := by
  cases x with
  | none => cases n <;> trivial
  | some a => exact h a rfl

theorem LocksBy.bind (hp : p.LocksBy Inv k n) : (p >>= f).LocksBy Inv k n := by
  induction p generalizing n with
  | ret a => exact hp.elim
  | raise e => trivial
  | select next ih =>
    cases n with
    | zero => exact hp.elim
    | succ n => exact fun s hs => ih s (hp s hs)
  | selectForUpdate k next ih =>
    cases n with
    | zero => exact hp
    | succ n => exact fun s hs => ih s (hp s hs)
  | write edit next ih => exact hp.elim
  | request q next ih => exact hp.elim

theorem locksBy_lockRow_bind {f : Unit → Program D β} : (lockRow k >>= f).LocksBy Inv k 0 :=
  rfl

theorem locksBy_query_bind (h : ∀ s, Inv s → (f (r s)).LocksBy Inv k n) :
    (query r >>= f).LocksBy Inv k (n + 1) :=
  h

theorem locksBy_orRaise_bind {x : Option α} (h : ∀ a, x = some a → (f a).LocksBy Inv k n) :
    (orRaise x e >>= f).LocksBy Inv k n := by
  cases x with
  | none => cases n <;> trivial
  | some a => exact h a rfl

end Rules

/-- On a path that has not come to statement `n`, or has passed it. -/
theorem Sees.restsOn (h : p.Sees ss q t) (hss : ∀ s ∈ ss, Inv s) (hp : p.RestsOn Inv Q n) :
    (∃ r, ss.length + r = n ∧ t.edits = [] ∧ q.RestsOn Inv Q r) ∨
      ∃ s, ss[n]? = some s ∧ q.Writes (Q s) t.edits := by
  induction h with
  | refl => exact .inl ⟨n, Nat.zero_add n, rfl, hp⟩
  | @step ss s q q' t t' h hstep ih =>
    rw [List.forall_mem_append] at hss
    have hs : Inv s := hss.2 s (List.mem_singleton_self s)
    have hview (hedits : t.edits = []) : t.view s = s := by rw [Transaction.view, hedits]; rfl
    -- the statement that counts is still `r` statements ahead, or has been passed
    rcases ih hss.1 with ⟨r, hr, hedits, hq⟩ | ⟨s', hs', hwrites⟩
    · have hlast (hr₀ : r = 0) : (ss ++ [s])[n]? = some s := by
        rw [hr₀, Nat.add_zero] at hr
        rw [← hr, List.getElem?_concat_length]
      cases hstep with
      | @select next =>
        rw [hview hedits]
        cases r with
        | zero => exact .inr ⟨s, hlast rfl, hedits ▸ hq s hs⟩
        | succ r => exact .inl ⟨r, by simp; omega, hedits, hq s hs⟩
      | @lock k next =>
        rw [hview hedits]
        cases r with
        | zero => exact .inr ⟨s, hlast rfl, by simpa [hedits] using hq s hs⟩
        | succ r => exact .inl ⟨r, by simp; omega, by simpa using hedits, hq s hs⟩
      | @miss k next _ =>
        rw [hview hedits]
        cases r with
        | zero => exact .inr ⟨s, hlast rfl, hedits ▸ hq s hs⟩
        | succ r => exact .inl ⟨r, by simp; omega, hedits, hq s hs⟩
      | write _ => exact hq.elim
      | reply => exact hq.elim
    · refine .inr ⟨s', ?_, hwrites.advances hstep⟩
      rw [List.getElem?_append_left (List.getElem?_eq_some_iff.mp hs').1, hs']

/-- What the program writes, it has written or has still to write. -/
theorem Sees.writes (h : p.Sees ss q t) (hp : p.Writes P []) : q.Writes P t.edits := by
  induction h with
  | refl => exact hp
  | step _ hstep ih => exact ih.advances hstep

theorem held_of_advances {k : Key} (hstep : Session.Advances s t p (.running q t'))
    (hk : k ∈ t.held) : k ∈ t'.held := by
  cases hstep with
  | select => exact hk
  | lock => exact List.mem_cons_of_mem _ hk
  | miss _ => exact hk
  | write _ => exact List.mem_append_right _ hk
  | reply => exact hk

theorem Sees.locksBy (h : p.Sees ss q t) (hss : ∀ s ∈ ss, Inv s ∧ D.present s k = true)
    (hp : p.LocksBy Inv k n) :
    (∃ r, ss.length + r = n ∧ t.edits = [] ∧ q.LocksBy Inv k r) ∨
      (n < ss.length ∧ k ∈ t.held) := by
  induction h with
  | refl => exact .inl ⟨n, Nat.zero_add n, rfl, hp⟩
  | @step ss s q q' t t' h hstep ih =>
    rw [List.forall_mem_append] at hss
    obtain ⟨hs, hpresent⟩ := hss.2 s (List.mem_singleton_self s)
    have hview (hedits : t.edits = []) : t.view s = s := by rw [Transaction.view, hedits]; rfl
    have hlength : (ss ++ [s]).length = ss.length + 1 := List.length_append
    -- the lock is still `r` statements ahead, or has been taken
    rcases ih hss.1 with ⟨r, hr, hedits, hq⟩ | ⟨hn, hk⟩
    · cases hstep with
      | @select next =>
        rw [hview hedits]
        cases r with
        | zero => exact hq.elim
        | succ r => exact .inl ⟨r, by omega, hedits, hq s hs⟩
      | @lock k' next =>
        rw [hview hedits]
        cases r with
        | zero =>
          obtain rfl : k' = k := hq
          exact .inr ⟨by omega, List.mem_cons_self⟩
        | succ r => exact .inl ⟨r, by omega, by simpa using hedits, hq s hs⟩
      | @miss k' next habsent =>
        rw [hview hedits] at habsent ⊢
        cases r with
        | zero =>
          obtain rfl : k' = k := hq
          -- the row that is to be locked is present
          rw [hpresent] at habsent
          cases habsent
        | succ r => exact .inl ⟨r, by omega, hedits, hq s hs⟩
      | write _ => exact hq.elim
      | reply => exact hq.elim
    · exact .inr ⟨by omega, held_of_advances hstep hk⟩

/-! ### The end of a path -/

/-- Run after the edits `es` with its statements finding the committed states `ss`, the program
returns `a` and has written `es'` in all. -/
def Finishes : Program D α → List Edit → List State → α → List Edit → Prop
  | .ret a, es, [], a', es' => a' = a ∧ es' = es
  | .select next, es, s :: ss, a, es' => (next (D.replay es s)).Finishes es ss a es'
  | .selectForUpdate _ next, es, s :: ss, a, es' => (next (D.replay es s)).Finishes es ss a es'
  | .write edit next, es, s :: ss, a, es' =>
    ∃ e, edit (D.replay es s) = .ok e ∧ (next e).Finishes (es ++ [e]) ss a es'
  | .request _ next, es, _ :: ss, a, es' => ∃ r, (next r).Finishes es ss a es'
  | _, _, _, _, _ => False

section Finishes

variable {f : α → Program D β} {r : State → α} {e : Error} {edit : State → Except Error Edit}
  {b : β} {es es' : List Edit} {a a' : α}

theorem finishes_pure :
    (pure a : Program D α).Finishes es ss a' es' ↔ ss = [] ∧ a' = a ∧ es' = es := by
  cases ss with
  | nil => exact ⟨fun h => ⟨rfl, h⟩, fun h => h.2⟩
  | cons => exact ⟨False.elim, fun h => nomatch h.1⟩

theorem finishes_query_bind : (query r >>= f).Finishes es ss b es' ↔
    ∃ s ss', ss = s :: ss' ∧ (f (r (D.replay es s))).Finishes es ss' b es' := by
  cases ss with
  | nil => exact ⟨False.elim, fun ⟨_, _, h, _⟩ => nomatch h⟩
  | cons s ss => exact ⟨fun h => ⟨s, ss, rfl, h⟩, fun ⟨_, _, h, hf⟩ => by cases h; exact hf⟩

theorem finishes_perform_bind {f : Unit → Program D β} :
    (perform edit >>= f).Finishes es ss b es' ↔
      ∃ s ss', ss = s :: ss' ∧ ∃ e, edit (D.replay es s) = .ok e ∧
        (f ()).Finishes (es ++ [e]) ss' b es' := by
  cases ss with
  | nil => exact ⟨False.elim, fun ⟨_, _, h, _⟩ => nomatch h⟩
  | cons s ss => exact ⟨fun h => ⟨s, ss, rfl, h⟩, fun ⟨_, _, h, hf⟩ => by cases h; exact hf⟩

theorem finishes_require_bind {C : Prop} [Decidable C] {f : Unit → Program D β} :
    (require C e >>= f).Finishes es ss b es' ↔ C ∧ (f ()).Finishes es ss b es' := by
  by_cases hC : C
  · rw [require, if_pos hC]
    exact (and_iff_right hC).symm
  · rw [require, if_neg hC]
    exact ⟨fun h => by cases ss <;> exact h.elim, fun h => absurd h.1 hC⟩

theorem finishes_orRaise_bind {x : Option α} :
    (orRaise x e >>= f).Finishes es ss b es' ↔ ∃ a, x = some a ∧ (f a).Finishes es ss b es' := by
  cases x with
  | none => exact ⟨fun h => by cases ss <;> exact h.elim, fun ⟨_, h, _⟩ => nomatch h⟩
  | some a => exact ⟨fun h => ⟨a, rfl, h⟩, fun ⟨_, h, hf⟩ => by cases h; exact hf⟩

end Finishes

/-- A path and what follows it. -/
theorem Sees.finishes {ss' : List State} {a : α} {es : List Edit} (h : p.Sees ss q t)
    (hq : q.Finishes t.edits ss' a es) : p.Finishes [] (ss ++ ss') a es := by
  induction h generalizing ss' with
  | refl => exact hq
  | @step ss s q q' t t' h hstep ih =>
    rw [List.append_assoc]
    refine ih ?_
    cases hstep with
    | select => exact hq
    | lock => exact hq
    | miss _ => exact hq
    | write he => exact ⟨_, he, hq⟩
    | reply => exact ⟨_, hq⟩

end Program

/-! ### What an open transaction knows -/

namespace Machine

variable {M : Machine D α σ ξ} {x₀ x x' y : σ} {us : List ξ} {u : ξ} {i k l m n : ℕ}
  {p q : Program D α} {t : Transaction D} {a : α} {s s₀ : State}

/-- The sessions that are open at the start have not run a statement of their programs. -/
def Fresh (M : Machine D α σ ξ) (x₀ : σ) : Prop :=
  ∀ i q t, (M.config x₀).sessions[i]? = some (.running q t) →
    t = {} ∧ ∀ p, M.code x₀ i = some p → p = q

/-- The statements of an open transaction have seen the committed states of its turns. -/
theorem sees (hfresh : M.Fresh x₀) (hm : moment M.step x₀ us m = some x)
    (hi : (M.config x).sessions[i]? = some (.running q t)) (hp : M.code x i = some p) :
    ∃ ss, p.Sees ss q t ∧ (M.turns us i m).map (M.committedAt x₀ us) = ss.map some := by
  refine moment_induction (P := fun m x => ∀ q t p,
      (M.config x).sessions[i]? = some (.running q t) → M.code x i = some p →
        ∃ ss, p.Sees ss q t ∧ (M.turns us i m).map (M.committedAt x₀ us) = ss.map some)
    (fun q t p hi hp => ?_) (fun k x u x' hx hu hstep ih q t p hi hp => ?_) hm q t p hi hp
  · obtain ⟨rfl, hcode⟩ := hfresh i q t hi
    obtain rfl := hcode p hp
    exact ⟨[], .refl, rfl⟩
  · rcases running_cases hstep hi with ⟨hne, hi₁⟩ | ⟨hsession, hresumes, rfl, hcode⟩ |
        ⟨p₁, t₁, hsession, hresumes, hi₁, hadvance⟩
    · -- another session has its turn
      rw [M.keeps_code hstep (.inl (Ne.symm hne))] at hp
      rw [turns_other hu hne]
      exact ih q t p hi₁ hp
    · -- the transaction begins, and has seen nothing yet
      obtain rfl := hcode p hp
      rw [turns_resume hu hsession hresumes]
      exact ⟨[], .refl, rfl⟩
    · -- its next statement sees what is committed now
      rw [M.keeps_code hstep (.inr hresumes)] at hp
      obtain ⟨ss, hsees, hss⟩ := ih p₁ t₁ p hi₁ hp
      refine ⟨ss ++ [(M.config x).committed], hsees.step hadvance, ?_⟩
      rw [turns_own hu hsession hresumes, List.map_append, List.map_append, hss]
      simp [committedAt, hx]

/-- The turn of a statement, and what the statement has seen. -/
theorem exists_turn {ss : List State}
    (hss : (M.turns us i m).map (M.committedAt x₀ us) = ss.map some) (hs : ss[n]? = some s) :
    ∃ k y, (M.turns us i m)[n]? = some k ∧ moment M.step x₀ us k = some y ∧
      (M.config y).committed = s := by
  have hget := congrArg (·[n]?) hss
  simp only [List.getElem?_map, hs, Option.map_some] at hget
  obtain ⟨k, hk, hsaw⟩ := Option.map_eq_some_iff.mp hget
  obtain ⟨y, hy, hcommitted⟩ := Option.map_eq_some_iff.mp hsaw
  exact ⟨k, y, hk, hy, hcommitted⟩

/-- What all moments before `m` satisfy, the statements have seen. -/
private theorem forall_seen {ss : List State} {C : State → Prop}
    (hss : (M.turns us i m).map (M.committedAt x₀ us) = ss.map some)
    (hC : ∀ k y, k < m → moment M.step x₀ us k = some y → C (M.config y).committed) :
    ∀ s ∈ ss, C s := by
  intro s hs
  obtain ⟨n, hn⟩ := List.mem_iff_getElem?.mp hs
  obtain ⟨k, y, hk, hy, rfl⟩ := exists_turn hss hn
  exact hC k y (lt_of_mem_turns (List.mem_of_getElem? hk)) hy

/-- A transaction that has come to its end, of a program that rests on its statement number
`n`: the turn of that statement, and what was written. -/
theorem restsOn_of_moment {Inv : State → Prop} {Q : State → List Edit → Prop}
    (hfresh : M.Fresh x₀) (hm : moment M.step x₀ us m = some x)
    (hi : (M.config x).sessions[i]? = some (.running (.ret a) t)) (hp : M.code x i = some p)
    (hInv : ∀ k y, k < m → moment M.step x₀ us k = some y → Inv (M.config y).committed)
    (hrests : p.RestsOn Inv Q n) :
    ∃ k y, (M.turns us i m)[n]? = some k ∧ moment M.step x₀ us k = some y ∧
      Q (M.config y).committed t.edits := by
  obtain ⟨ss, hsees, hss⟩ := sees hfresh hm hi hp
  rcases hsees.restsOn (forall_seen hss hInv) hrests with ⟨r, -, -, hq⟩ | ⟨s, hs, hQ⟩
  · cases r <;> exact hq.elim
  · obtain ⟨k, y, hk, hy, rfl⟩ := exists_turn hss hs
    exact ⟨k, y, hk, hy, hQ⟩

/-- What a transaction that has come to its end has written. -/
theorem writes_of_moment {C : List Edit → Prop} (hfresh : M.Fresh x₀)
    (hm : moment M.step x₀ us m = some x)
    (hi : (M.config x).sessions[i]? = some (.running (.ret a) t)) (hp : M.code x i = some p)
    (hwrites : p.Writes C []) : C t.edits := by
  obtain ⟨ss, hsees, -⟩ := sees hfresh hm hi hp
  exact hsees.writes hwrites

/-- The lock that statement number `n` takes is held after it. -/
theorem held_of_moment {Inv : State → Prop} {k : Key} (hfresh : M.Fresh x₀)
    (hm : moment M.step x₀ us m = some x)
    (hi : (M.config x).sessions[i]? = some (.running q t)) (hp : M.code x i = some p)
    (hInv : ∀ k' y, k' < m → moment M.step x₀ us k' = some y →
      Inv (M.config y).committed ∧ D.present (M.config y).committed k = true)
    (hlocks : p.LocksBy Inv k n) (hn : n < (M.turns us i m).length ∨ ∃ a, q = .ret a) :
    k ∈ t.held := by
  obtain ⟨ss, hsees, hss⟩ := sees hfresh hm hi hp
  have hlength : (M.turns us i m).length = ss.length := by
    simpa using congrArg List.length hss
  rcases hsees.locksBy (forall_seen hss hInv) hlocks with ⟨r, hr, -, hq⟩ | ⟨-, hk⟩
  · rcases hn with hn | ⟨a, rfl⟩
    · omega
    · cases r <;> exact hq.elim
  · exact hk

/-- How a transaction has come to its end: the turns of its statements, and what they have
led to. -/
theorem finishes_of_moment (hfresh : M.Fresh x₀) (hm : moment M.step x₀ us m = some x)
    (hi : (M.config x).sessions[i]? = some (.running (.ret a) t)) (hp : M.code x i = some p) :
    ∃ ss, p.Finishes [] ss a t.edits ∧
      (M.turns us i m).map (M.committedAt x₀ us) = ss.map some := by
  obtain ⟨ss, hsees, hss⟩ := sees hfresh hm hi hp
  refine ⟨ss, ?_, hss⟩
  have hend : (Program.ret a : Program D α).Finishes t.edits [] a t.edits := ⟨rfl, rfl⟩
  have hfinishes := hsees.finishes hend
  rwa [List.append_nil] at hfinishes

/-! ### What is locked stays -/

/-- Open transactions hold the rows they have written. -/
theorem footprint_held (hfresh : M.Fresh x₀) (hm : moment M.step x₀ us m = some x)
    (hi : (M.config x).sessions[i]? = some (.running q t)) {e : Edit} (he : e ∈ t.edits) :
    D.footprint e ⊆ t.held := by
  refine moment_induction (P := fun _ x => ∀ i q t,
      (M.config x).sessions[i]? = some (.running q t) → ∀ e ∈ t.edits, D.footprint e ⊆ t.held)
    (fun i q t hi e he => ?_) (fun k x u x' hx hu hstep ih i q t hi e he => ?_) hm i q t hi e he
  · obtain ⟨rfl, -⟩ := hfresh i q t hi
    cases he
  · rcases running_cases hstep hi with ⟨-, hi₁⟩ | ⟨-, -, rfl, -⟩ | ⟨p₁, t₁, -, -, hi₁, hadvance⟩
    · exact ih i q t hi₁ e he
    · cases he
    · cases hadvance with
      | select => exact ih i _ _ hi₁ e he
      | lock => exact fun _ hk => List.mem_cons_of_mem _ (ih i _ _ hi₁ e he hk)
      | miss _ => exact ih i _ _ hi₁ e he
      | reply => exact ih i _ _ hi₁ e he
      | write _ =>
        rcases List.mem_append.mp he with he | he
        · exact fun _ hk => List.mem_append_right _ (ih i _ _ hi₁ e he hk)
        · exact List.mem_singleton.mp he ▸ fun _ hk => List.mem_append_left _ hk

/-- Between its last statement and the moment `m` a transaction stands still. -/
theorem waits_between (hm : moment M.step x₀ us m = some x)
    (hi : (M.config x).sessions[i]? = some (.running q t))
    (hk : (M.turns us i m).getLast? = some k) (hkl : k < l) (hlm : l ≤ m) :
    ∃ y, moment M.step x₀ us l = some y ∧ (M.config y).sessions[i]? = some (.running q t) := by
  induction m generalizing x with
  | zero => cases hk
  | succ m ih =>
    rcases Nat.eq_or_lt_of_le hlm with rfl | hlt
    · exact ⟨x, hm, hi⟩
    obtain ⟨x₁, u, hx₁, hu, hstep⟩ := exists_of_moment_succ hm
    rcases running_cases hstep hi with ⟨hne, hi₁⟩ | ⟨hsession, hresumes, -⟩ |
        ⟨p₁, t₁, hsession, hresumes, hi₁, -⟩
    · rw [turns_other hu hne] at hk
      exact ih hx₁ hi₁ hk (Nat.le_of_lt_succ hlt)
    · -- a transaction that begins now has had no statement
      rw [turns_resume hu hsession hresumes] at hk
      cases hk
    · rw [turns_own hu hsession hresumes, List.getLast?_concat] at hk
      obtain rfl := Option.some.inj hk
      omega

/-- What a row says stays, from the last statement of the transaction that holds the row to
its end. -/
theorem same_of_held {β : Type} (see : State → β) {key : Key}
    (hsee : ∀ e s, key ∉ D.footprint e → see (D.apply s e) = see s) (hfresh : M.Fresh x₀)
    (hdisjoint : ∀ l y, moment M.step x₀ us l = some y → LocksDisjoint (M.config y))
    (hm : moment M.step x₀ us m = some x)
    (hi : (M.config x).sessions[i]? = some (.running q t))
    (hk : (M.turns us i m).getLast? = some k) (hkey : key ∈ t.held) :
    ∃ y, moment M.step x₀ us k = some y ∧
      see (M.config y).committed = see (M.config x).committed := by
  have hmem := List.mem_of_getLast? hk
  have hkm := lt_of_mem_turns hmem
  obtain ⟨y', hy'⟩ := exists_moment hm hkm
  obtain ⟨y, u, hy, hu, hstep⟩ := exists_of_moment_succ hy'
  refine ⟨y, hy, ?_⟩
  -- the last statement itself is no commit
  have hfirst : see (M.config y).committed = see (M.config y').committed := by
    rcases commit_or_same hy hu hstep with ⟨hsame, -⟩ | ⟨a, t', -, -, -, hcommit⟩
    · rw [hsame]
    · rw [commitAt_of_mem_turns hm hi hmem] at hcommit
      cases hcommit
  have hreplay {es : List Edit} {s : State} (hes : ∀ e ∈ es, key ∉ D.footprint e) :
      see (D.replay es s) = see s := by
    induction es generalizing s with
    | nil => rfl
    | cons e es ih =>
      rw [Database.replay_cons, ih fun e' he' => hes e' (List.mem_cons_of_mem _ he')]
      exact hsee e s (hes e List.mem_cons_self)
  refine moment_induction_from (m := m)
    (P := fun _ x => see (M.config y).committed = see (M.config x).committed) hy' hfirst
    (fun l x₁ v x₂ hkl hlm hx₁ hv hturn ih => ih.trans ?_) hkm hm
  rcases commit_or_same hx₁ hv hturn with ⟨hsame, -⟩ | ⟨a, t', -, hj, hconfig, -⟩
  · rw [hsame]
  obtain ⟨y₁, hy₁, hwaits⟩ := waits_between hm hi hk hkl hlm.le
  obtain rfl := Option.some.inj (hx₁.symm.trans hy₁)
  obtain ⟨y₂, hy₂, hwaits'⟩ := waits_between hm hi hk (Nat.lt_succ_of_lt hkl) hlm
  obtain rfl := Option.some.inj ((moment_succ hx₁ hv hturn).symm.trans hy₂)
  -- the transaction that waits is not the one that commits
  have hne : i ≠ M.session v := by
    rintro rfl
    rw [hconfig] at hwaits'
    rcases getElem?_setSession hwaits' with ⟨-, h⟩ | ⟨hne, -⟩
    · cases h
    · exact hne rfl
  rw [hconfig]
  exact (hreplay fun e he hmem => hdisjoint l x₁ hx₁ i (M.session v) _ _ hwaits hj hne key hkey
    (footprint_held hfresh hx₁ hj he hmem)).symm

/-! ### The history -/

/-- The states of the history are the committed states of the moments so far. -/
theorem mem_history (hm : moment M.step x₀ us m = some x)
    (hs : s ∈ (M.config x).history s₀) (hstart : (M.config x₀).history s₀ = [s₀])
    (hcommitted : (M.config x₀).committed = s₀) :
    ∃ k y, k ≤ m ∧ moment M.step x₀ us k = some y ∧ (M.config y).committed = s := by
  refine moment_induction (P := fun m x => s ∈ (M.config x).history s₀ →
      ∃ k y, k ≤ m ∧ moment M.step x₀ us k = some y ∧ (M.config y).committed = s)
    (fun hs => ?_) (fun k x u x' hx hu hstep ih hs => ?_) hm hs
  · rw [hstart, List.mem_singleton] at hs
    exact ⟨0, x₀, le_rfl, rfl, hcommitted.trans hs.symm⟩
  · have hearlier (hs : s ∈ (M.config x).history s₀) :
        ∃ l y, l ≤ k + 1 ∧ moment M.step x₀ us l = some y ∧ (M.config y).committed = s := by
      obtain ⟨l, y, hl, hy, hsaw⟩ := ih hs
      exact ⟨l, y, Nat.le_succ_of_le hl, hy, hsaw⟩
    -- a state enters the history when it is committed
    cases M.beat hstep with
    | advance _ _ _ hconfig =>
      rw [hconfig] at hs
      exact hearlier hs
    | start _ hconfig _ =>
      rw [hconfig] at hs
      exact hearlier hs
    | commit _ _ hconfig =>
      rw [hconfig] at hs
      rcases List.mem_cons.mp hs with rfl | hs
      · exact ⟨k + 1, x', le_rfl, moment_succ hx hu hstep, hconfig ▸ rfl⟩
      · exact hearlier hs

end Machine

/-! ### The two systems -/

section Systems

variable [DecidableEq Key] {R : Discipline D} {xs : List (Action D)} {c c' : Config D α}
  {ps : List (Program D α)} {s : State}

/-- Sessions of one transaction each. -/
def Config.machine (R : Discipline D) (ps : List (Program D α)) :
    Machine D α (Config D α) (Action D) where
  step := Config.step R
  config c := c
  session := Action.session
  resumes _ := false
  code _ i := ps[i]?
  advances h _ := advances_of_step h
  starts _ h := nomatch h
  keeps_code _ _ := rfl

theorem Config.fresh_start : (Config.machine R ps).Fresh (.start s ps) := by
  intro i q t hi
  simp only [machine, Config.start, List.getElem?_map, Option.map_eq_some_iff] at hi
  obtain ⟨p, hp, hrunning⟩ := hi
  obtain ⟨rfl, rfl⟩ := Session.running.inj hrunning
  exact ⟨rfl, fun p' hp' => Option.some.inj (hp'.symm.trans hp)⟩

/-- The end of a schedule is its last moment. -/
theorem Config.moment_length : moment (Config.step R) c xs xs.length = c.run R xs := by
  induction xs using List.reverseRecOn with
  | nil => rfl
  | append_singleton xs x ih =>
    rw [List.length_append, List.length_singleton, moment_concat, ih, run_concat]

/-- What a schedule has come to is reached. -/
theorem Config.reaches_moment {m : ℕ} (h : moment (Config.step R) c xs m = some c') :
    Reaches R c c' :=
  moment_induction (P := fun _ c' => Reaches R c c') .refl
    (fun _ _ _ _ _ _ hstep hreach => hreach.step hstep) h

/-- While a transaction holds the lock of a row that is there, none that takes it commits. -/
theorem Config.false_of_locked (Inv : State → Prop) {key : Key} {p p' q : Program D α}
    {t : Transaction D} {z : Commit D} {i k l m n n₁ n₂ : ℕ}
    (hm : moment (Config.step R) (.start s ps) xs m = some c)
    (hi : c.sessions[i]? = some (.running q t)) (hp : ps[i]? = some p)
    (hk : ((Config.machine R ps).turns xs i m)[n]? = some k) (hkl : k < l) (hlm : l < m)
    (hz : (Config.machine R ps).commitAt (.start s ps) xs l = some z)
    (hp' : ps[z.session]? = some p')
    (hInv : ∀ k' y, k' < m → moment (Config.step R) (.start s ps) xs k' = some y →
      Inv y.committed ∧ D.present y.committed key = true)
    (hlocks : p.LocksBy Inv key n₁) (hn : n₁ ≤ n) (hlocks' : p'.LocksBy Inv key n₂) : False := by
  have hmem := List.mem_of_getElem? hk
  obtain ⟨y, p₁, t₁, hy, hrunning, -⟩ :=
    (Config.machine R ps).running_between hm hi hmem hkl hlm.le
  obtain ⟨y₁, y', u, a, t₂, hy₁, hu, hstep, -, hsession, hconfig, rfl⟩ :=
    (Config.machine R ps).exists_of_commitAt hz
  obtain rfl := Option.some.inj (hy.symm.trans hy₁)
  have hbefore : ∀ k' y', k' < l → moment (Config.step R) (.start s ps) xs k' = some y' →
      Inv y'.committed ∧ D.present y'.committed key = true :=
    fun k' y' hk' => hInv k' y' (hk'.trans hlm)
  have hlength := (Config.machine R ps).lt_length_turns hk hkl hlm.le
  have hheld : key ∈ t₁.held := (Config.machine R ps).held_of_moment Config.fresh_start hy
    hrunning hp hbefore hlocks (.inl (hn.trans_lt hlength))
  have hheld' : key ∈ t₂.held := (Config.machine R ps).held_of_moment Config.fresh_start hy
    hsession hp' hbefore hlocks' (.inr ⟨a, rfl⟩)
  -- the transaction that goes on is not the one that commits
  have hne : i ≠ u.session := by
    rintro rfl
    obtain ⟨y₂, p₂, t₃, hy₂, hrunning₂, -⟩ :=
      (Config.machine R ps).running_between hm hi hmem (Nat.lt_succ_of_lt hkl) hlm
    obtain rfl := Option.some.inj ((moment_succ hy hu hstep).symm.trans hy₂)
    have hcommitted : y'.sessions[u.session]? = some (.running p₂ t₃) := hrunning₂
    have hset : y' = y.commit u.session a t₂ := hconfig
    rw [hset] at hcommitted
    rcases getElem?_setSession hcommitted with ⟨-, h⟩ | ⟨hne, -⟩
    · cases h
    · exact hne rfl
  exact (Config.reaches_moment hy).locksDisjoint i u.session _ _ hrunning hsession hne key hheld
    hheld'

variable {P : Type} {code : P → Option (Program D P)} {Q : Policy D P} {x x' : Service D P}
  {us : List (Turn D)} {pts : List P}

/-- The session a turn is about. -/
def Turn.session : Turn D → ℕ
  | .act x => x.session
  | .resume i => i

/-- Whether a turn starts a transaction. -/
def Turn.resumes : Turn D → Bool
  | .act _ => false
  | .resume _ => true

/-- What one turn makes of a service. -/
inductive Service.Goes (code : P → Option (Program D P)) (x : Service D P) (u : Turn D) :
    Service D P → Prop
  | advance {p : Program D P} {t : Transaction D} {y : Session D P} (hu : u.resumes = false)
      (hi : x.sessions[u.session]? = some (.running p t))
      (hy : Session.Advances x.committed t p y) : Goes code x u (x.setSession u.session y)
  | commit {a : P} {t : Transaction D} (hu : u.resumes = false)
      (hi : x.sessions[u.session]? = some (.running (.ret a) t)) :
      Goes code x u (x.commit u.session a t)
  | resume {pt : P} {p : Program D P} {t : Transaction D} (hu : u.resumes = true)
      (hi : x.sessions[u.session]? = some (.committed pt t)) (hcode : code pt = some p) :
      Goes code x u (x.resume u.session pt p)

theorem Service.goes_of_turn {u : Turn D} (h : x.turn code Q u = some x') :
    x.Goes code u x' := by
  cases u with
  | act a =>
    obtain ⟨c, hstep, rfl⟩ := Option.map_eq_some_iff.mp h
    obtain ⟨p, t, hi, ⟨y, hy, rfl⟩ | ⟨a', rfl, rfl⟩⟩ := advances_of_step hstep
    · exact .advance rfl hi hy
    · exact .commit rfl hi
  | resume i =>
    simp only [Service.turn] at h
    split at h
    · simp only [Option.ite_none_right_eq_some, Option.map_eq_some_iff] at h
      obtain ⟨-, p, hcode, rfl⟩ := h
      exact .resume rfl (by assumption) hcode
    · cases h

/-- Sessions that go from one transaction to the next. -/
def Service.machine (code : P → Option (Program D P)) (Q : Policy D P) :
    Machine D P (Service D P) (Turn D) where
  step := Service.turn code Q
  config := Service.config
  session := Turn.session
  resumes := Turn.resumes
  code x i := x.points[i]?.bind code
  advances {x x' u} h hresumes := by
    cases goes_of_turn h with
    | advance _ hi hy => exact ⟨_, _, hi, .inl ⟨_, hy, rfl⟩⟩
    | commit _ hi => exact ⟨_, _, hi, .inr ⟨_, rfl, rfl⟩⟩
    | resume hu => exact (Bool.noConfusion (hresumes.symm.trans hu))
  starts {x x' u} h hresumes := by
    cases goes_of_turn h with
    | advance hu => exact Bool.noConfusion (hu.symm.trans hresumes)
    | commit hu => exact Bool.noConfusion (hu.symm.trans hresumes)
    | @resume pt p t hu hi hcode =>
      refine ⟨p, rfl, fun q hq => ?_⟩
      obtain ⟨pt', hpt', hq⟩ := Option.bind_eq_some_iff.mp hq
      -- the point the session has now is the one it has started
      obtain ⟨hlt, rfl⟩ := List.getElem?_eq_some_iff.mp hpt'
      simp only [Service.resume, List.getElem_set_self] at hq
      exact Option.some.inj (hq.symm.trans hcode)
  keeps_code {x x' u i} h hi := by
    cases goes_of_turn h with
    | advance => rfl
    | commit => rfl
    | resume hu =>
      rcases hi with hi | hi
      · exact congrArg (·.bind code) (List.getElem?_set_ne (Ne.symm hi))
      · rw [hi] at hu
        cases hu

theorem Service.fresh_start : (Service.machine code Q).Fresh (.start s pts) := by
  intro i q t hi
  have hwaiting : (Service.start s pts : Service D P).sessions[i]? = some (.running q t) := hi
  rw [sessions_start, List.getElem?_map, Option.map_eq_some_iff] at hwaiting
  obtain ⟨_, -, hrunning⟩ := hwaiting
  cases hrunning

/-- Every session has its point, and one that is open is in the transaction of its point. -/
theorem Service.points_of_serves (h : Serves code Q (.start s pts) x) :
    x.sessions.length = x.points.length ∧
      ∀ (i : ℕ) q t, x.sessions[i]? = some (.running q t) →
        ∃ pt p, x.points[i]? = some pt ∧ code pt = some p := by
  refine h.induction (I := fun x => x.sessions.length = x.points.length ∧
    ∀ (i : ℕ) q t, x.sessions[i]? = some (.running q t) →
      ∃ pt p, x.points[i]? = some pt ∧ code pt = some p) ⟨List.length_map _, ?_⟩ ?_
  · intro i q t hi
    rw [Service.sessions_start, List.getElem?_map, Option.map_eq_some_iff] at hi
    obtain ⟨_, -, hrunning⟩ := hi
    cases hrunning
  · rintro x x' ⟨hlength, hx⟩ ht
    cases ht with
    | @resume j pt p t hj _ hcode =>
      refine ⟨List.length_set.trans (hlength.trans List.length_set.symm), fun i q t hi => ?_⟩
      rcases getElem?_setSession hi with ⟨rfl, -⟩ | ⟨hne, hi⟩
      · have hlt : i < x.points.length := hlength ▸ (List.getElem?_eq_some_iff.mp hj).1
        exact ⟨pt, p, List.getElem?_set_self hlt, hcode⟩
      · obtain ⟨pt', p', hpt', hp'⟩ := hx i q t hi
        exact ⟨pt', p', (List.getElem?_set_ne (Ne.symm hne)).trans hpt', hp'⟩
    | move hm =>
      refine ⟨hm.length_sessions.trans hlength, fun i q t hi => ?_⟩
      rcases hm.running hi with hi | ⟨p, t', hi, -⟩
      · exact hx i q t hi
      · exact hx i p t' hi

/-- A transaction that is open is one of the point its session is at. -/
theorem Service.exists_code {i : ℕ} {q : Program D P} {t : Transaction D}
    (h : Serves code Q (.start s pts) x) (hi : x.sessions[i]? = some (.running q t)) :
    ∃ pt p, x.points[i]? = some pt ∧ code pt = some p :=
  (points_of_serves h).2 i q t hi

/-- What a schedule has come to is served. -/
theorem Service.serves_moment {m : ℕ} (h : moment (Service.turn code Q) x us m = some x') :
    Serves code Q x x' :=
  moment_induction (P := fun _ x' => Serves code Q x x') .refl
    (fun _ _ _ _ _ _ hturn hserves => hserves.turn hturn) h

/-- A schedule with one more turn. -/
theorem Service.run_concat {u : Turn D} :
    x.run code Q (us ++ [u]) = (x.run code Q us).bind fun x' => x'.turn code Q u := by
  induction us generalizing x with
  | nil =>
    change (x.turn code Q u).bind some = x.turn code Q u
    cases x.turn code Q u <;> rfl
  | cons v us ih =>
    change (x.turn code Q v).bind (fun x' => x'.run code Q (us ++ [u])) = _
    simp only [ih]
    exact (Option.bind_assoc _ _ _).symm

/-- The end of a schedule is its last moment. -/
theorem Service.moment_length :
    moment (Service.turn code Q) x us us.length = x.run code Q us := by
  induction us using List.reverseRecOn with
  | nil => rfl
  | append_singleton us u ih =>
    rw [List.length_append, List.length_singleton, moment_concat, ih, Service.run_concat]

end Systems

end ReadCommitted
