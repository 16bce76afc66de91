import PulseOps.Model.Categories

/-!
# The tree of categories

However the requests take turns, the categories stay a forest as long as what
`wouldCreateCycle` has found is still so when the new parent is written. The walk takes no
lock, so another request can put the new parent below the category in between; then the two
are above each other, and neither has a root any more.

## Main definitions

* `Request.NoCycle` — the way up from the new parent does not meet the category.
* `Climbing` — how far the walk of a request has come.

## Main results

* `noCycle_of_quiet` — a walk that nobody writes into meets the condition.
* `parents_forest` — under this condition all reachable stores are forests, and
  `wouldCreateCycle` ends on all of them.
* `update_forest_iff` — a new parent keeps a forest under no weaker condition.
-/

set_option autoImplicit false

open ReadCommitted

namespace PulseOps.Categories

variable {s s' : Db} {id tenantId parentId : Uuid} {row : CategoryRow}

namespace Db

/-! ### What the statements do to the parents -/

theorem parents_insert (s : Db) (id : Uuid) (row : CategoryRow) :
    parents { s with categories := s.categories.insert id row } =
      Function.update s.parents id (some row.parentId) := by
  funext b
  by_cases hb : b = id
  · subst hb
    simp [parents, AList.lookup_insert]
  · simp [parents, AList.lookup_insert_ne hb, Function.update_of_ne hb]

/-- The foreign key. -/
theorem isSome_of_checkParent {u : Unit}
    (h : s.checkParent tenantId (some parentId) = .ok u) : (s.parents parentId).isSome := by
  cases hparent : s.categories.lookup parentId with
  | none => simp [checkParent, hparent] at h
  | some parent => simp [parents, hparent]

theorem create_parents {data : CategoryData} (h : s.create tenantId id data = .ok (s', row)) :
    s.parents id = none ∧ s'.parents = Function.update s.parents id (some data.parentId) ∧
      ∀ p, data.parentId = some p → (s.parents p).isSome := by
  unfold create at h
  cases hparent : s.checkParent tenantId data.parentId with
  | error e => simp [hparent, bind, Except.bind] at h
  | ok u =>
    simp only [hparent, bind, Except.bind] at h
    split at h
    next => cases h
    next hfree =>
      cases h
      refine ⟨?_, parents_insert .., ?_⟩
      · simp only [not_or, Bool.not_eq_true, Option.isSome_eq_false_iff] at hfree
        simpa [parents] using hfree.1
      · intro p hp
        rw [hp] at hparent
        exact isSome_of_checkParent hparent

theorem update_parents {data : CategoryChanges} (h : s.update id data = .ok (s', row)) :
    ∃ old, s.parents id = some old ∧
      s'.parents = Function.update s.parents id (some (data.parentId.getD old)) ∧
      ∀ p, data.parentId = some (some p) → (s.parents p).isSome := by
  unfold update at h
  split at h
  next => cases h
  next old hold =>
    cases hparent : s.checkParent old.tenantId data.parentId.join with
    | error e => simp [hparent, bind, Except.bind] at h
    | ok u =>
      simp only [hparent, bind, Except.bind] at h
      split at h
      next => cases h
      next =>
        cases h
        refine ⟨old.parentId, by simp [parents, hold], parents_insert .., ?_⟩
        intro p hp
        rw [hp] at hparent
        exact isSome_of_checkParent hparent

theorem delete_parents (h : s.delete id = .ok (s', row)) {b p : Uuid}
    (hb : s'.parents b = some (some p)) :
    b ≠ id ∧ p ≠ id ∧ s.parents b = some (some p) := by
  unfold delete at h
  split at h
  next => cases h
  next old hold =>
    cases h
    by_cases hbid : b = id
    · subst hbid
      simp [parents] at hb
    · simp only [parents, AList.lookup_mapRows, AList.lookup_erase_ne hbid,
        Option.map_map, Option.map_eq_some_iff, Function.comp_apply] at hb ⊢
      obtain ⟨r, hr, hparent⟩ := hb
      unfold orphaned at hparent
      split_ifs at hparent with hchild
      exact ⟨hbid, fun hp => hchild (hp ▸ hparent), r, hr, hparent⟩

/-- Rows whose parent is not deleted are still there. -/
theorem isSome_parents_of_delete (h : s.delete id = .ok (s', row)) {b : Uuid} (hb : b ≠ id)
    (hsome : (s.parents b).isSome) : (s'.parents b).isSome := by
  unfold delete at h
  split at h
  next => cases h
  next =>
    cases h
    simpa [parents, AList.lookup_erase_ne hb] using hsome

/-! ### Forests -/

theorem create_forest {data : CategoryData} (hs : s.parents.Forest)
    (h : s.create tenantId id data = .ok (s', row)) : s'.parents.Forest := by
  obtain ⟨hnew, hparents, hparent⟩ := create_parents h
  rw [hparents]
  cases hdata : data.parentId with
  | none => exact hs.update_root
  | some p =>
    apply hs.update (hparent p hdata)
    intro hlead
    have hid := ((hs p (hparent p hdata)).of_leads hlead).isSome
    simp [hnew] at hid

/-- **When a new parent keeps the forest.** -/
theorem update_forest_iff {data : CategoryChanges} (hs : s.parents.Forest)
    (h : s.update id data = .ok (s', row)) (hparent : data.parentId = some (some parentId)) :
    s'.parents.Forest ↔ ¬ s.parents.Leads parentId id := by
  obtain ⟨old, -, hparents, hexists⟩ := update_parents h
  rw [hparents, hparent]
  exact ParentMap.forest_update_iff hs (hexists parentId hparent)

theorem update_forest {data : CategoryChanges} (hs : s.parents.Forest)
    (h : s.update id data = .ok (s', row))
    (hclear : ∀ p, data.parentId = some (some p) → ¬ s.parents.Leads p id) :
    s'.parents.Forest := by
  cases hdata : data.parentId with
  | none =>
    obtain ⟨old, hold, hparents, -⟩ := update_parents h
    rw [hparents, hdata, Option.getD_none, ← hold, Function.update_eq_self]
    exact hs
  | some parent =>
    cases parent with
    | none =>
      obtain ⟨old, -, hparents, -⟩ := update_parents h
      rw [hparents, hdata]
      exact hs.update_root
    | some p => exact (update_forest_iff hs h hdata).mpr (hclear p hdata)

theorem delete_forest (hs : s.parents.Forest) (h : s.delete id = .ok (s', row)) :
    s'.parents.Forest := by
  apply hs.cut
  intro b p hb
  obtain ⟨-, hp, hold⟩ := delete_parents h hb
  exact ⟨hold, isSome_parents_of_delete h hp ((hs b (by simp [hold])).parent hold).isSome⟩

/-! ### The walk -/

theorem parents_of_parentOf {currentId p : Uuid} (h : s.parentOf tenantId currentId = some p) :
    s.parents currentId = some (some p) := by
  simp only [parentOf, findById, Option.bind_eq_some_iff, Option.filter_eq_some_iff] at h
  obtain ⟨row, ⟨hrow, -⟩, hp⟩ := h
  simp [parents, hrow, hp]

/-- From a category with a root, the walk ends. -/
theorem wouldCreateCycle_of_rooted {currentId : Uuid} (categoryId tenantId : Uuid)
    (h : s.parents.Rooted currentId) :
    ∃ n, (s.wouldCreateCycle categoryId tenantId n (some currentId)).isSome := by
  induction h with
  | @root a h =>
    cases hparent : s.parentOf tenantId a with
    | none =>
      refine ⟨1, ?_⟩
      by_cases ha : a = categoryId <;> simp [wouldCreateCycle, ha, hparent] 
    | some p => simp [parents_of_parentOf hparent] at h
  | @child a p h _ ih =>
    obtain ⟨n, hn⟩ := ih
    refine ⟨n + 1, ?_⟩
    by_cases ha : a = categoryId
    · simp [wouldCreateCycle, ha]
    · cases hparent : s.parentOf tenantId a with
      | none => cases n <;> simp [wouldCreateCycle, ha, hparent]
      | some q =>
        have hq := parents_of_parentOf hparent
        rw [h] at hq
        cases hq
        simpa [wouldCreateCycle, ha, hparent] using hn

/-- In a forest, the walk ends wherever it starts. -/
theorem wouldCreateCycle_of_forest (h : s.parents.Forest) (categoryId tenantId currentId : Uuid) :
    ∃ n, (s.wouldCreateCycle categoryId tenantId n (some currentId)).isSome := by
  by_cases hsome : (s.parents currentId).isSome
  · exact wouldCreateCycle_of_rooted categoryId tenantId (h currentId hsome)
  · refine ⟨1, ?_⟩
    have hparent : s.parentOf tenantId currentId = none := by
      by_contra hne
      obtain ⟨p, hp⟩ := Option.ne_none_iff_exists'.mp hne
      simp [parents_of_parentOf hp] at hsome
    by_cases hcat : currentId = categoryId <;> simp [wouldCreateCycle, hcat, hparent]

/-- What `categories_parent_id_same_tenant` and the foreign key promise: a parent exists and
belongs to the same tenant. -/
def ParentsSameTenant (s : Db) : Prop :=
  ∀ e ∈ s.categories.entries, ∀ p ∈ e.2.parentId,
    ∃ parent ∈ s.categories.lookup p, parent.tenantId = e.2.tenantId

instance (s : Db) : Decidable s.ParentsSameTenant :=
  inferInstanceAs (Decidable (∀ e ∈ s.categories.entries, ∀ p ∈ e.2.parentId,
    ∃ parent ∈ s.categories.lookup p, parent.tenantId = e.2.tenantId))

/-- The next category of the way up is one of the same tenant, and the walk reads it. -/
theorem ParentsSameTenant.step (hs : s.ParentsSameTenant) {a p : Uuid}
    (ha : (s.findById a tenantId).isSome) (hp : s.parents a = some (some p)) :
    s.parentOf tenantId a = some p ∧ (s.findById p tenantId).isSome := by
  obtain ⟨row, hrow⟩ := Option.isSome_iff_exists.mp ha
  obtain ⟨hlookup, htenant⟩ := Option.filter_eq_some_iff.mp hrow
  have hparent : row.parentId = some p := by
    rw [parents, hlookup] at hp
    exact Option.some.inj hp
  obtain ⟨parent, hparentRow, hsame⟩ := hs ⟨a, row⟩ (AList.mem_lookup_iff.mp hlookup) p hparent
  refine ⟨by rw [parentOf, hrow, Option.bind_some, hparent], ?_⟩
  rw [findById, hparentRow, Option.filter_some, hsame, if_pos htenant]
  rfl

/-- **A walk that ends without a cycle** has seen the whole way up. -/
theorem not_leads_of_wouldCreateCycle (hs : s.ParentsSameTenant) {categoryId currentId : Uuid}
    {n : ℕ} (hcurrent : (s.findById currentId tenantId).isSome)
    (h : s.wouldCreateCycle categoryId tenantId n (some currentId) = some false) :
    ¬ s.parents.Leads currentId categoryId := by
  induction n generalizing currentId with
  | zero => cases h
  | succ n ih =>
    have hne : currentId ≠ categoryId := by
      rintro rfl
      simp [wouldCreateCycle] at h
    rw [wouldCreateCycle, if_neg hne] at h
    intro hlead
    rcases hlead.cases_head with heq | ⟨p, hp, hlead⟩
    · exact hne heq
    · obtain ⟨hparent, hfound⟩ := hs.step hcurrent hp
      rw [hparent] at h
      exact ih hfound h hlead

end Db

/-! ### Runs -/

/-- The way up from the new parent, in the table that is written to, does not meet the
category. -/
def Request.NoCycle (c : Interleaved Db Phase) : Request → Phase → Prop
  | .update id _ data, .writing =>
    ∀ parentId, data.parentId = some (some parentId) → ¬ c.store.parents.Leads parentId id
  | _, _ => True

/-- Where the request of a new parent can be once it looks for this parent on the store `s`;
until it writes, `wouldCreateCycle` on `s` still has the rest of the way to go. -/
def Climbing (s : Db) (id tenantId parentId : Uuid) : Phase → Prop
  | .findingParent currentId => currentId = parentId
  | .climbing currentId => (s.findById parentId tenantId).isSome ∧ currentId ≠ id ∧
      ∀ n, s.wouldCreateCycle id tenantId n (some currentId) = some false →
        ∃ m, s.wouldCreateCycle id tenantId m (some parentId) = some false
  | .writing => (s.findById parentId tenantId).isSome ∧
      ∃ n, s.wouldCreateCycle id tenantId n (some parentId) = some false
  | .done _ => True
  | _ => False

/-- The turns of the walk are those of the loop. -/
theorem Climbing.advanceUpdate {data : CategoryChanges} {phase : Phase}
    (h : Climbing s id tenantId parentId phase) :
    Climbing s id tenantId parentId (advanceUpdate id tenantId data s phase).2 := by
  cases phase with
  | findingParent currentId =>
    obtain rfl : currentId = parentId := h
    simp only [PulseOps.Categories.advanceUpdate]
    cases hparent : s.findById currentId tenantId with
    | none => trivial
    | some row =>
      simp only [climb]
      split
      next => trivial
      next hne => exact ⟨by simp [hparent], hne, fun n hn => ⟨n, hn⟩⟩
  | climbing currentId =>
    obtain ⟨hparent, hne, hrest⟩ := h
    simp only [PulseOps.Categories.advanceUpdate]
    cases hnext : s.parentOf tenantId currentId with
    -- the walk has come to a root, and so has the loop
    | none => exact ⟨hparent, hrest 1 (by simp [Db.wouldCreateCycle, hne, hnext])⟩
    | some next =>
      simp only [climb]
      split
      next => trivial
      next hnext' =>
        -- one turn of the walk is one round of the loop
        refine ⟨hparent, hnext', fun n hn => hrest (n + 1) ?_⟩
        rw [Db.wouldCreateCycle, if_neg hne, hnext, hn]
  | writing =>
    simp only [PulseOps.Categories.advanceUpdate]
    cases s.update id data <;> trivial
  | done r => trivial
  | _ => exact h.elim

/-- **Who meets the condition.** A request whose walk no write of another has come into meets it:
on a store that stays as it was when the request looked for the parent, the walk finds out what
`wouldCreateCycle` does. -/
theorem noCycle_of_quiet {requests : List Request} {c₀ : Interleaved Db Phase}
    {schedule : List ℕ} {data : CategoryChanges} {phase : Phase} {i k l : ℕ}
    (hreq : requests[i]? = some (.update id tenantId data))
    (hdata : data.parentId = some (some parentId))
    (hlooks : (Interleaved.stateBefore advance requests c₀ schedule l).phases[i]? =
      some (.findingParent parentId))
    (hs : s.ParentsSameTenant) (hlk : l ≤ k) (hk : k ≤ schedule.length)
    (hquiet : ∀ j, l ≤ j → j ≤ k →
      (Interleaved.stateBefore advance requests c₀ schedule j).store = s)
    (hphase : (Interleaved.stateBefore advance requests c₀ schedule k).phases[i]? = some phase) :
    Request.NoCycle (Interleaved.stateBefore advance requests c₀ schedule k)
      (.update id tenantId data) phase := by
  have hclimbing : k ≤ k → ∃ phase, (Interleaved.stateBefore advance requests c₀ schedule
      k).phases[i]? = some phase ∧ Climbing s id tenantId parentId phase := by
    refine Interleaved.stateBefore_induction (P := fun j c => j ≤ k →
      ∃ phase, c.phases[i]? = some phase ∧ Climbing s id tenantId parentId phase)
      (fun _ => ⟨_, hlooks, rfl⟩) (fun j i' req' phase' hlj _ hreq' hphase' ih hjk => ?_)
      (fun j i' hlj _ ih hjk => ih (by omega)) hlk hk
    obtain ⟨phase, hphase, hclimbing⟩ := ih (by omega)
    by_cases hi : i' = i
    · -- a turn of the walk
      subst hi
      obtain rfl : req' = .update id tenantId data := Option.some.inj (hreq'.symm.trans hreq)
      obtain rfl : phase' = phase := Option.some.inj (hphase'.symm.trans hphase)
      refine ⟨_, List.getElem?_set_self (List.getElem?_eq_some_iff.mp hphase).1, ?_⟩
      rw [hquiet j hlj (by omega)]
      exact hclimbing.advanceUpdate
    · -- another request
      exact ⟨phase, (List.getElem?_set_ne hi).trans hphase, hclimbing⟩
  obtain ⟨phase', hphase', hclimbing⟩ := hclimbing le_rfl
  obtain rfl : phase = phase' := Option.some.inj (hphase.symm.trans hphase')
  cases phase with
  | writing =>
    obtain ⟨hparent, n, hn⟩ := hclimbing
    intro parentId' hparentId'
    obtain rfl : parentId = parentId' := by
      rw [hdata] at hparentId'
      exact Option.some.inj (Option.some.inj hparentId')
    rw [hquiet k hlk le_rfl]
    exact Db.not_leads_of_wouldCreateCycle hs hparent hn
  | _ => trivial

/-- What a turn of a request does to the store. -/
inductive Request.Writes (s : Db) : Request → Phase → Db → Prop
  | stay {req : Request} {phase : Phase} : Writes s req phase s
  | create {tenantId id : Uuid} {data : CategoryData} {s' : Db} {row : CategoryRow}
      (h : s.create tenantId id data = .ok (s', row)) :
      Writes s (.create tenantId id data) .writing s'
  | update {id tenantId : Uuid} {data : CategoryChanges} {s' : Db} {row : CategoryRow}
      (h : s.update id data = .ok (s', row)) : Writes s (.update id tenantId data) .writing s'
  | delete {id tenantId : Uuid} {s' : Db} {row : CategoryRow} (h : s.delete id = .ok (s', row)) :
      Writes s (.delete id tenantId) .writing s'

/-- The last statement either succeeds or changes nothing. -/
theorem written_store (s : Db) (result : Except DatabaseError (Db × CategoryRow)) :
    (written s result).1 = s ∨ ∃ row, result = .ok ((written s result).1, row) := by
  cases result with
  | error e => exact .inl rfl
  | ok r => exact .inr ⟨r.2, rfl⟩

theorem writes_advanceCreate (tenantId id : Uuid) (data : CategoryData) (s : Db)
    (phase : Phase) : Request.Writes s (.create tenantId id data) phase
      (advanceCreate tenantId id data s phase).1 := by
  cases phase with
  | arrived =>
    simp only [advanceCreate]
    split
    next => exact .stay
    next => cases data.parentId <;> exact .stay
  | findingParent parentId =>
    simp only [advanceCreate]
    cases s.findById parentId tenantId <;> exact .stay
  | writing =>
    simp only [advanceCreate]
    rcases written_store s (s.create tenantId id data) with hsame | ⟨row, hrow⟩
    · rw [hsame]
      exact .stay
    · exact .create hrow
  | _ => exact .stay

theorem writes_advanceUpdate (id tenantId : Uuid) (data : CategoryChanges) (s : Db)
    (phase : Phase) : Request.Writes s (.update id tenantId data) phase
      (advanceUpdate id tenantId data s phase).1 := by
  cases phase with
  | arrived =>
    simp only [advanceUpdate]
    cases s.findById id tenantId with
    | none => exact .stay
    | some row => cases data.slug <;> exact .stay
  | checkingSlug slug =>
    simp only [advanceUpdate]
    split <;> exact .stay
  | findingParent parentId =>
    simp only [advanceUpdate]
    cases s.findById parentId tenantId <;> exact .stay
  | writing =>
    simp only [advanceUpdate]
    rcases written_store s (s.update id data) with hsame | ⟨row, hrow⟩
    · rw [hsame]
      exact .stay
    · exact .update hrow
  | _ => exact .stay

theorem writes_advanceDelete (id tenantId : Uuid) (s : Db) (phase : Phase) :
    Request.Writes s (.delete id tenantId) phase (advanceDelete id tenantId s phase).1 := by
  cases phase with
  | arrived =>
    simp only [advanceDelete]
    cases s.findById id tenantId <;> exact .stay
  | countingChildren =>
    simp only [advanceDelete]
    split <;> exact .stay
  | countingProducts =>
    simp only [advanceDelete]
    split <;> exact .stay
  | writing =>
    simp only [advanceDelete]
    rcases written_store s (s.delete id) with hsame | ⟨row, hrow⟩
    · rw [hsame]
      exact .stay
    · exact .delete hrow
  | _ => exact .stay

theorem writes_advance (req : Request) (s : Db) (phase : Phase) :
    req.Writes s phase (advance req s phase).1 := by
  cases req with
  | create tenantId id data => exact writes_advanceCreate tenantId id data s phase
  | update id tenantId data => exact writes_advanceUpdate id tenantId data s phase
  | delete id tenantId => exact writes_advanceDelete id tenantId s phase

/-- One turn keeps the forest. -/
theorem advance_forest (c : Interleaved Db Phase) (req : Request) (phase : Phase)
    (hclear : Request.NoCycle c req phase) (hs : c.store.parents.Forest) :
    (advance req c.store phase).1.parents.Forest := by
  have hwrites := writes_advance req c.store phase
  generalize (advance req c.store phase).1 = s' at hwrites ⊢
  cases hwrites with
  | stay => exact hs
  | create h => exact Db.create_forest hs h
  | update h => exact Db.update_forest hs h hclear
  | delete h => exact Db.delete_forest hs h

/-- **The categories stay a forest**, in every run in which no new parent is written that the
way up leads from to the category. Then `wouldCreateCycle` ends on every store on the way,
from every category and for every tenant. -/
theorem parents_forest {requests : List Request} {store : Db} {c : Interleaved Db Phase}
    (hstore : store.parents.Forest)
    (h : Interleaved.Reaches advance requests Request.NoCycle (start requests store) c) :
    c.store.parents.Forest ∧ ∀ categoryId tenantId parentId,
      ∃ n, (c.store.wouldCreateCycle categoryId tenantId n (some parentId)).isSome := by
  have hforest : c.store.parents.Forest :=
    h.store_induction (P := fun s => s.parents.Forest) hstore advance_forest
  exact ⟨hforest, Db.wouldCreateCycle_of_forest hforest⟩

/-! ### Two categories that are put below each other -/

namespace Crossing

def category (name slug : String) : CategoryRow :=
  { tenantId := "t", parentId := none, name, slug, description := none, sortOrder := 0,
    isActive := true }

/-- Three categories without parents. -/
def shop : Db where
  categories := (((∅ : Table Uuid CategoryRow).insert "c" (category "Care" "care")).insert
    "b" (category "Baby" "baby")).insert "a" (category "Art" "art")

def below (id parentId : Uuid) : Request := .update id "t" { parentId := some (some parentId) }

theorem shop_root (id : Uuid) (h : (shop.parents id).isSome) : shop.parents id = some none := by
  obtain ⟨parent, hparent⟩ := Option.isSome_iff_exists.mp h
  obtain ⟨row, hrow, rfl⟩ := Option.map_eq_some_iff.mp hparent
  simp only [shop, AList.lookup_insert_eq_some] at hrow
  rw [hparent]
  rcases hrow with ⟨-, rfl⟩ | ⟨-, ⟨-, rfl⟩ | ⟨-, ⟨-, rfl⟩ | ⟨-, hrow⟩⟩⟩
  · rfl
  · rfl
  · rfl
  · cases hrow

theorem shop_forest : shop.parents.Forest := fun id h => .root (shop_root id h)

/-- Whether a walk that began anew at the write would not meet the category. -/
def clear (c : Interleaved Db Phase) : Request → Phase → Bool
  | .update id tenantId data, .writing =>
    match data.parentId with
    | some (some parentId) => c.store.ParentsSameTenant ∧
        (c.store.findById parentId tenantId).isSome ∧
        c.store.wouldCreateCycle id tenantId 3 (some parentId) = some false
    | _ => true
  | _, _ => true

theorem noCycle_of_clear (c : Interleaved Db Phase) (req : Request) (phase : Phase)
    (h : clear c req phase = true) : Request.NoCycle c req phase := by
  cases req with
  | update id tenantId data =>
    cases phase with
    | writing =>
      intro parentId hparent
      simp only [clear, hparent, decide_eq_true_eq] at h
      exact Db.not_leads_of_wouldCreateCycle h.1 h.2.1 h.2.2
    | _ => trivial
  | create tenantId id data => trivial
  | delete id tenantId => trivial

/-- Both walks come before both writes. -/
def crossed : Db :=
  (Interleaved.run advance [below "a" "b", below "b" "a"]
    (start [below "a" "b", below "b" "a"] shop) [0, 0, 0, 1, 1, 1, 0, 1]).store

theorem crossed_parents :
    crossed.parents "a" = some (some "b") ∧ crossed.parents "b" = some (some "a") ∧
      crossed.parentOf "t" "a" = some "b" ∧ crossed.parentOf "t" "b" = some "a" := by
  decide +kernel

end Crossing

open Crossing

/-- Art is put below baby and baby below care, turn by turn. When art comes to its write, baby
is no longer the root that the walk has found. -/
theorem parents_forest_shop :
    let requests := [below "a" "b", below "b" "c"]
    let c := Interleaved.run advance requests (start requests shop) [0, 1, 0, 1, 0, 1, 1, 0]
    (c.store.parents "a" = some (some "b") ∧ c.store.parents "b" = some (some "c")) ∧
      c.store.parents.Forest := by
  intro requests c
  have hreaches : Interleaved.Reaches advance requests Request.NoCycle (start requests shop) c :=
    Interleaved.Reaches.run noCycle_of_clear .refl _ (by decide +kernel)
  exact ⟨by decide +kernel, (parents_forest shop_forest hreaches).1⟩

/-- With two such requests, the third category cannot be moved any more: the walk over the
other two has no end. -/
theorem parents_not_forest :
    shop.parents.Forest ∧ ¬ crossed.parents.Forest ∧
      ∀ n, crossed.wouldCreateCycle "c" "t" n (some "a") = none := by
  obtain ⟨ha, hb, hab, hba⟩ := crossed_parents
  refine ⟨shop_forest, fun h => ?_, fun n => ?_⟩
  · have hlead : crossed.parents.Leads "b" "a" := .head hb .refl
    exact ParentMap.not_rooted_of_cycle ha hlead (h "a" (by simp [ha]))
  · -- The walk goes back and forth between the two.
    suffices crossed.wouldCreateCycle "c" "t" n (some "a") = none ∧
        crossed.wouldCreateCycle "c" "t" n (some "b") = none from this.1
    induction n with
    | zero => exact ⟨rfl, rfl⟩
    | succ n ih => simp [Db.wouldCreateCycle, hab, hba, ih.1, ih.2]

end PulseOps.Categories
