import PulseOps.Categories.Hierarchy

/-!
# Requests one after the other

While a request has the categories to itself, what `wouldCreateCycle` has found is still so when
the new parent is written. Then no condition is left: after any such requests the categories
are a forest, in which a category and its parent belong to one tenant.

## Main definitions

* `Db.OneTenant`, `Db.Sound` — a category and its parent belong to one tenant, and the
  categories are a forest.
* `SerialRun` — requests that run one after the other, each to its end.
* `Alone` — what a request knows of a store that nobody else writes to.

## Main results

* `advance_alone` — a turn of a request that is alone.
* `request_ends` — a request that is alone comes to its end.
* `serialRun_sound` — every serial run.
-/

set_option autoImplicit false

open ReadCommitted

namespace PulseOps.Categories

variable {s s' s'' : Db} {id tenantId : Uuid} {row : CategoryRow}

namespace Db

/-! ### Parents of the same tenant -/

/-- A category and its parent belong to one tenant. -/
def OneTenant (s : Db) : Prop :=
  ∀ id row p, s.categories.lookup id = some row → row.parentId = some p →
    ∃ parent, s.categories.lookup p = some parent ∧ parent.tenantId = row.tenantId

theorem checkParent_eq_ok {p : Uuid} {u : Unit} (h : s.checkParent tenantId (some p) = .ok u) :
    ∃ parent, s.categories.lookup p = some parent ∧ parent.tenantId = tenantId := by
  unfold checkParent at h
  cases hparent : s.categories.lookup p with
  | none => simp [hparent] at h
  | some parent =>
    simp only [hparent] at h
    split_ifs at h with htenant
    exact ⟨parent, rfl, htenant⟩

/-- A category comes or changes, and stays with its tenant. -/
theorem OneTenant.insert (hs : s.OneTenant)
    (hold : ∀ old, s.categories.lookup id = some old → old.tenantId = row.tenantId)
    (hparent : ∀ p, row.parentId = some p →
      ∃ parent, s.categories.lookup p = some parent ∧ parent.tenantId = row.tenantId) :
    OneTenant { s with categories := s.categories.insert id row } := by
  intro b r p hb hp
  have hstays (parent : CategoryRow) (hlookup : s.categories.lookup p = some parent)
      (htenant : parent.tenantId = r.tenantId) : ∃ parent,
        (s.categories.insert id row).lookup p = some parent ∧ parent.tenantId = r.tenantId := by
    by_cases hpid : p = id
    · subst hpid
      exact ⟨row, AList.lookup_insert _, (hold parent hlookup).symm.trans htenant⟩
    · exact ⟨parent, by rw [AList.lookup_insert_ne hpid, hlookup], htenant⟩
  rcases AList.lookup_insert_eq_some.mp hb with ⟨_, rfl⟩ | ⟨_, hlookup⟩
  · obtain ⟨parent, hlookup, htenant⟩ := hparent p hp
    exact hstays parent hlookup htenant
  · obtain ⟨parent, hparent, htenant⟩ := hs b r p hlookup hp
    exact hstays parent hparent htenant

theorem create_oneTenant {data : CategoryData} (hs : s.OneTenant)
    (h : s.create tenantId id data = .ok (s', row)) : s'.OneTenant := by
  unfold create at h
  cases hparent : s.checkParent tenantId data.parentId with
  | error e => simp [hparent, bind, Except.bind] at h
  | ok u =>
    simp only [hparent, bind, Except.bind] at h
    split at h
    next => cases h
    next hfree =>
      cases h
      apply hs.insert
      · intro old hold
        simp [hold] at hfree
      · intro p hp
        have hp : data.parentId = some p := hp
        rw [hp] at hparent
        exact checkParent_eq_ok hparent

theorem update_oneTenant {data : CategoryChanges} (hs : s.OneTenant)
    (h : s.update id data = .ok (s', row)) : s'.OneTenant := by
  unfold update at h
  split at h
  next => cases h
  next old hold =>
    cases hparent : s.checkParent old.tenantId data.parentId.join with
    | error e => simp [hparent, bind, Except.bind] at h
    | ok u =>
      simp only [hparent, bind, Except.bind] at h
      split at h
      next => cases h
      next =>
        cases h
        apply hs.insert
        · intro old' hold'
          obtain rfl := Option.some.inj (hold.symm.trans hold')
          rfl
        · intro p hp
          have hp : data.parentId.getD old.parentId = some p := hp
          cases hdata : data.parentId with
          | none =>
            rw [hdata] at hp
            exact hs id old p hold hp
          | some parent =>
            rw [hdata] at hp hparent
            have hp : parent = some p := hp
            rw [hp] at hparent
            exact checkParent_eq_ok hparent

theorem delete_oneTenant (hs : s.OneTenant) (h : s.delete id = .ok (s', row)) :
    s'.OneTenant := by
  have hkept := @delete_parents s s' id row h
  unfold delete at h
  split at h
  next => cases h
  next old hold =>
    cases h
    intro b r p hb hp
    have hbp := hkept (b := b) (p := p) (by simp only [parents, hb, Option.map_some, hp])
    obtain ⟨hbid, hpid, _⟩ := hbp
    simp only [AList.lookup_mapRows, AList.lookup_erase_ne hbid, Option.map_eq_some_iff] at hb
    obtain ⟨r', hr', rfl⟩ := hb
    -- neither the category nor its parent is the deleted one
    have horphan (x : CategoryRow) : (orphaned id x).tenantId = x.tenantId := by
      unfold orphaned
      split_ifs <;> rfl
    have hp' : r'.parentId = some p := by
      unfold orphaned at hp
      split_ifs at hp
      exact hp
    obtain ⟨parent, hparent, htenant⟩ := hs b r' p hr' hp'
    refine ⟨orphaned id parent, ?_, ?_⟩
    · rw [AList.lookup_mapRows, AList.lookup_erase_ne hpid, hparent]
      rfl
    · rw [horphan, horphan, htenant]

/-- The categories of a tenant are a forest of its own. -/
structure Sound (s : Db) : Prop where
  forest : s.parents.Forest
  oneTenant : s.OneTenant

theorem sound_empty : Sound {} where
  forest := by
    intro a ha
    cases ha
  oneTenant := by
    intro id row p h
    cases h

end Db

/-! ### A request that is alone -/

/-- One turn of a request, with nobody between. -/
def Request.turn (req : Request) (c : Db × Phase) : Db × Phase := advance req c.1 c.2

/-- What the request has found holds of the store that it writes to: the way up from the new
parent meets the category only if it still lies ahead of the walk. -/
def Alone (s : Db) : Request → Phase → Prop
  | .update id _ data, .findingParent p => data.parentId = some (some p) ∧ p ≠ id
  | .update id tenantId data, .climbing currentId =>
    currentId ≠ id ∧ (∃ row, s.categories.lookup currentId = some row ∧ row.tenantId = tenantId) ∧
      ∀ p, data.parentId = some (some p) → s.parents.Leads p id → s.parents.Leads currentId id
  | .update id _ data, .writing =>
    ∀ p, data.parentId = some (some p) → ¬ s.parents.Leads p id
  | _, _ => True

theorem alone_done (s : Db) (req : Request) (r : Except Failure CategoryRow) :
    Alone s req (.done r) := by
  cases req <;> trivial

theorem alone_parentChecks (data : CategoryChanges) :
    Alone s (.update id tenantId data) (parentChecks id data) := by
  unfold parentChecks
  cases hdata : data.parentId.join with
  | none =>
    intro p hp
    rw [hp] at hdata
    cases hdata
  | some p =>
    dsimp only
    split_ifs with hpid
    · trivial
    · exact ⟨Option.join_eq_some_iff.mp hdata, hpid⟩

/-- The head of the loop. -/
theorem alone_climb {data : CategoryChanges} {next : Option Uuid}
    (hnone : next = none → ∀ p, data.parentId = some (some p) → ¬ s.parents.Leads p id)
    (hsome : ∀ q, next = some q →
      (∃ row, s.categories.lookup q = some row ∧ row.tenantId = tenantId) ∧
        ∀ p, data.parentId = some (some p) → s.parents.Leads p id → s.parents.Leads q id) :
    Alone s (.update id tenantId data) (climb id next) := by
  unfold climb
  cases next with
  | none => exact hnone rfl
  | some q =>
    dsimp only
    split_ifs with hq
    · trivial
    · exact ⟨hq, hsome q rfl⟩

/-- One step of the walk: the way up is the one that `findById` sees, since it stays with the
tenant. -/
theorem alone_climbing (hs : s.OneTenant) {data : CategoryChanges} {currentId : Uuid}
    (h : Alone s (.update id tenantId data) (.climbing currentId)) :
    Alone s (.update id tenantId data) (climb id (s.parentOf tenantId currentId)) := by
  obtain ⟨hne, ⟨row, hrow, htenant⟩, hahead⟩ := h
  have hparents : s.parents currentId = some row.parentId := by simp [Db.parents, hrow]
  have hparentOf : s.parentOf tenantId currentId = row.parentId := by
    simp [Db.parentOf, Db.findById, hrow, Option.filter, htenant]
  -- the way from here to the category goes through the parent
  have hstep (p : Uuid) (hp : data.parentId = some (some p)) (hlead : s.parents.Leads p id) :
      ∃ q, row.parentId = some q ∧ s.parents.Leads q id := by
    rcases (hahead p hp hlead).cases_head with rfl | ⟨q, hq, hrest⟩
    · exact absurd rfl hne
    · rw [hparents] at hq
      exact ⟨q, Option.some.inj hq, hrest⟩
  apply alone_climb
  · intro hroot p hp hlead
    obtain ⟨q, hq, _⟩ := hstep p hp hlead
    rw [hparentOf, hq] at hroot
    cases hroot
  · intro q hq
    rw [hparentOf] at hq
    constructor
    · obtain ⟨parent, hparent, hsame⟩ := hs currentId row q hrow hq
      exact ⟨parent, hparent, hsame.trans htenant⟩
    · intro p hp hlead
      obtain ⟨q', hq', hrest⟩ := hstep p hp hlead
      rw [hq] at hq'
      obtain rfl := Option.some.inj hq'
      exact hrest

/-- What a request that is alone knows after a turn. -/
theorem alone_advanceUpdate (hs : s.OneTenant) {data : CategoryChanges} {phase : Phase}
    (h : Alone s (.update id tenantId data) phase) (hphase : phase ≠ .writing) :
    (advanceUpdate id tenantId data s phase).1 = s ∧
      Alone s (.update id tenantId data) (advanceUpdate id tenantId data s phase).2 := by
  cases phase with
  | arrived =>
    simp only [advanceUpdate]
    cases s.findById id tenantId with
    | none => exact ⟨rfl, trivial⟩
    | some row =>
      -- a new slug is checked before the parent
      cases data.slug with
      | none => exact ⟨rfl, alone_parentChecks data⟩
      | some slug => exact ⟨rfl, trivial⟩
  | checkingSlug slug =>
    simp only [advanceUpdate]
    split
    next => exact ⟨rfl, trivial⟩
    next => exact ⟨rfl, alone_parentChecks data⟩
  | findingParent p =>
    obtain ⟨hdata, hpid⟩ := h
    simp only [advanceUpdate]
    cases hfound : s.findById p tenantId with
    | none => exact ⟨rfl, trivial⟩
    | some row =>
      -- the walk begins at the parent that was found
      refine ⟨rfl, ?_⟩
      change Alone s (.update id tenantId data) (climb id (some p))
      apply alone_climb
      · intro hnone
        cases hnone
      · intro q hq
        obtain rfl := Option.some.inj hq
        obtain ⟨hrow, htenant⟩ := Option.filter_eq_some_iff.mp hfound
        refine ⟨⟨row, hrow, of_decide_eq_true htenant⟩, ?_⟩
        intro p' hp' hlead
        rw [hdata] at hp'
        simp only [Option.some.injEq] at hp'
        exact hp' ▸ hlead
  | climbing currentId => exact ⟨rfl, alone_climbing hs h⟩
  | countingChildren => exact ⟨rfl, trivial⟩
  | countingProducts => exact ⟨rfl, trivial⟩
  | writing => exact absurd rfl hphase
  | done r => exact ⟨rfl, trivial⟩

theorem written_phase (s : Db) (result : Except DatabaseError (Db × CategoryRow)) :
    ∃ r, (written s result).2 = .done r := by
  cases result with
  | error e => exact ⟨_, rfl⟩
  | ok r => exact ⟨_, rfl⟩

/-- The end of a turn with what it has written. -/
theorem Request.Writes.sound {req : Request} {phase : Phase} (hwrites : req.Writes s phase s')
    (hs : s.Sound) (h : Alone s req phase) : s'.Sound := by
  cases hwrites with
  | stay => exact hs
  | create hcreate =>
    exact ⟨Db.create_forest hs.forest hcreate, Db.create_oneTenant hs.oneTenant hcreate⟩
  | update hupdate =>
    exact ⟨Db.update_forest hs.forest hupdate h, Db.update_oneTenant hs.oneTenant hupdate⟩
  | delete hdelete =>
    exact ⟨Db.delete_forest hs.forest hdelete, Db.delete_oneTenant hs.oneTenant hdelete⟩

/-- A turn of a request that is alone. -/
theorem advance_alone {req : Request} {phase : Phase} (hs : s.Sound) (h : Alone s req phase) :
    (req.turn (s, phase)).1.Sound ∧ Alone (req.turn (s, phase)).1 req (req.turn (s, phase)).2 := by
  refine ⟨(writes_advance req s phase).sound hs h, ?_⟩
  cases req with
  | create => trivial
  | delete => trivial
  | update id tenantId data =>
    by_cases hphase : phase = .writing
    · subst hphase
      obtain ⟨r, hr⟩ := written_phase s (s.update id data)
      change Alone _ _ (written s (s.update id data)).2
      rw [hr]
      exact alone_done _ _ r
    · obtain ⟨hstore, halone⟩ := alone_advanceUpdate hs.oneTenant h hphase
      change Alone (advanceUpdate id tenantId data s phase).1 _ _
      rw [hstore]
      exact halone

/-! ### Serial runs -/

/-- Requests that run one after the other, each to its end. -/
inductive SerialRun : Db → Db → Prop
  | refl {s : Db} : SerialRun s s
  | request {s s' s'' : Db} {req : Request} {n : ℕ} {r : Except Failure CategoryRow}
      (h : SerialRun s s') (hdone : req.turn^[n] (s', .arrived) = (s'', .done r)) :
      SerialRun s s''

theorem turns_alone {req : Request} (hs : s.Sound) (n : ℕ) :
    (req.turn^[n] (s, .arrived)).1.Sound ∧
      Alone (req.turn^[n] (s, .arrived)).1 req (req.turn^[n] (s, .arrived)).2 := by
  induction n with
  | zero => exact ⟨hs, by cases req <;> trivial⟩
  | succ n ih =>
    rw [Function.iterate_succ_apply']
    exact advance_alone ih.1 ih.2

/-! ### Every request comes to its end -/

/-- From here the request comes to its end, if nobody is between. -/
def Request.Ends (req : Request) (c : Db × Phase) : Prop :=
  ∃ n s' r, req.turn^[n] c = (s', .done r)

theorem Request.Ends.of_turn {req : Request} {c : Db × Phase} (h : req.Ends (req.turn c)) :
    req.Ends c := by
  obtain ⟨n, s', r, hn⟩ := h
  exact ⟨n + 1, s', r, by rw [Function.iterate_succ_apply, hn]⟩

theorem ends_done {req : Request} {r : Except Failure CategoryRow} : req.Ends (s, .done r) :=
  ⟨0, s, r, rfl⟩

theorem ends_writing (req : Request) : req.Ends (s, .writing) := by
  cases req with
  | create tenantId id data =>
    obtain ⟨r, hr⟩ := written_phase s (s.create tenantId id data)
    exact ⟨1, _, r, Prod.ext rfl hr⟩
  | update id tenantId data =>
    obtain ⟨r, hr⟩ := written_phase s (s.update id data)
    exact ⟨1, _, r, Prod.ext rfl hr⟩
  | delete id tenantId =>
    obtain ⟨r, hr⟩ := written_phase s (s.delete id)
    exact ⟨1, _, r, Prod.ext rfl hr⟩

section Update

variable {data : CategoryChanges}

theorem ends_climb {next : Option Uuid}
    (h : ∀ q, next = some q → (Request.update id tenantId data).Ends (s, .climbing q)) :
    (Request.update id tenantId data).Ends (s, climb id next) := by
  unfold climb
  cases next with
  | none => exact ends_writing _
  | some q =>
    dsimp only
    split_ifs
    · exact ends_done
    · exact h q rfl

/-- The walk ends at a root. -/
theorem ends_climbing (hs : s.parents.Forest) (currentId : Uuid) :
    (Request.update id tenantId data).Ends (s, .climbing currentId) := by
  have hrooted (a : Uuid) (ha : s.parents.Rooted a) :
      (Request.update id tenantId data).Ends (s, .climbing a) := by
    induction ha with
    | root h =>
      apply Request.Ends.of_turn
      apply ends_climb
      intro q hq
      rw [Db.parents_of_parentOf hq] at h
      cases h
    | child h _ ih =>
      apply Request.Ends.of_turn
      apply ends_climb
      intro q hq
      rw [Db.parents_of_parentOf hq] at h
      simp only [Option.some.injEq] at h
      exact h ▸ ih
  apply Request.Ends.of_turn
  apply ends_climb
  intro q hq
  apply hrooted
  have hparents := Db.parents_of_parentOf hq
  exact (hs currentId (by simp [hparents])).parent hparents

theorem ends_parentChecks (hs : s.parents.Forest) :
    (Request.update id tenantId data).Ends (s, parentChecks id data) := by
  unfold parentChecks
  cases data.parentId.join with
  | none => exact ends_writing _
  | some p =>
    dsimp only
    split_ifs
    · exact ends_done
    · apply Request.Ends.of_turn
      simp only [Request.turn, advance, advanceUpdate]
      cases s.findById p tenantId with
      | none => exact ends_done
      | some row => exact ends_climb fun q _ => ends_climbing hs q

theorem ends_update (hs : s.parents.Forest) :
    (Request.update id tenantId data).Ends (s, .arrived) := by
  apply Request.Ends.of_turn
  simp only [Request.turn, advance, advanceUpdate]
  cases s.findById id tenantId with
  | none => exact ends_done
  | some row =>
    cases data.slug with
    | none => exact ends_parentChecks hs
    | some slug =>
      apply Request.Ends.of_turn
      simp only [Request.turn, advance, advanceUpdate]
      split
      next => exact ends_done
      next => exact ends_parentChecks hs

end Update

theorem ends_create {data : CategoryData} :
    (Request.create tenantId id data).Ends (s, .arrived) := by
  apply Request.Ends.of_turn
  simp only [Request.turn, advance, advanceCreate]
  split
  next => exact ends_done
  next =>
    cases data.parentId with
    | none => exact ends_writing _
    | some p =>
      apply Request.Ends.of_turn
      simp only [Request.turn, advance, advanceCreate]
      cases s.findById p tenantId with
      | none => exact ends_done
      | some row => exact ends_writing _

theorem ends_delete : (Request.delete id tenantId).Ends (s, .arrived) := by
  apply Request.Ends.of_turn
  simp only [Request.turn, advance, advanceDelete]
  cases s.findById id tenantId with
  | none => exact ends_done
  | some row =>
    apply Request.Ends.of_turn
    simp only [Request.turn, advance, advanceDelete]
    split
    next => exact ends_done
    next =>
      apply Request.Ends.of_turn
      simp only [Request.turn, advance, advanceDelete]
      split
      next => exact ends_done
      next => exact ends_writing _

/-- A request that has a forest to itself comes to its end. -/
theorem request_ends (hs : s.Sound) (req : Request) : req.Ends (s, .arrived) := by
  cases req with
  | create => exact ends_create
  | update => exact ends_update hs.forest
  | delete => exact ends_delete

/-- After any serial run the categories are a forest, in which parents are of the same
tenant. -/
theorem serialRun_sound (hs : s.Sound) (h : SerialRun s s') : s'.Sound := by
  induction h with
  | refl => exact hs
  | @request s' s'' req n r _ hdone ih =>
    have hturns : (req.turn^[n] (s', .arrived)).1.Sound := (turns_alone ih n).1
    rw [hdone] at hturns
    exact hturns

end PulseOps.Categories
