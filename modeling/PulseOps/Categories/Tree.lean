import PulseOps.Categories.SerialRuns

/-!
# The tree that is shown

`getTree` puts the active categories of a tenant below each other in one pass over the list that
it has read. What the roots lead to is returned; a cycle would not be. Since requests that run
one after the other leave a forest, every active category is in the tree, once.

## Main definitions

* `Db.Active` — an active category of the tenant.
* `Db.ShowsAll` — the trees have every active category in its place, and nothing else.

## Main results

* `linked_nodes` — the two passes over the list.
* `getTree_showsAll` — the tree of a forest.
* `tree_complete` — the tree after any serial run.
-/

set_option autoImplicit false

open ReadCommitted

namespace PulseOps.Categories

variable {s : Db} {tenantId : Uuid}

namespace Db

/-- An active category of the tenant. -/
def Active (s : Db) (tenantId : Uuid) (cat : Entry) : Prop :=
  s.categories.lookup cat.1 = some cat.2 ∧ cat.2.tenantId = tenantId ∧ cat.2.isActive = true

/-- In the order of `sortOrder`. -/
def Sorted (cats : List Entry) : Prop := cats.Pairwise fun a b => a.2.sortOrder ≤ b.2.sortOrder

/-- The trees have every active category of the tenant once and nothing else: below its parent
if this one is active, at a root otherwise, and among its siblings in the order of
`sortOrder`. -/
structure ShowsAll (s : Db) (tenantId : Uuid) (forest : List (RoseTree Entry)) : Prop where
  once : (RoseTree.values forest).Nodup
  active : ∀ cat, cat ∈ RoseTree.values forest ↔ s.Active tenantId cat
  below : ∀ cat, s.Active tenantId cat → ∀ p parent, cat.2.parentId = some p →
    s.categories.lookup p = some parent → parent.isActive = true →
      ∃ t ∈ RoseTree.subtreesOf forest, t.value = ⟨p, parent⟩ ∧
        cat ∈ t.children.map RoseTree.value
  root : ∀ cat, s.Active tenantId cat → (∀ p parent, cat.2.parentId = some p →
    s.categories.lookup p = some parent → parent.isActive = false) →
      cat ∈ forest.map RoseTree.value
  sorted_roots : Sorted (forest.map RoseTree.value)
  sorted_children : ∀ t ∈ RoseTree.subtreesOf forest, Sorted (t.children.map RoseTree.value)

/-! ### The list -/

theorem mem_activeCategories {cat : Entry} :
    cat ∈ s.activeCategories tenantId ↔ s.Active tenantId cat := by
  unfold activeCategories Active
  rw [List.mem_mergeSort, List.mem_filter, decide_eq_true_eq, ← AList.mem_entries_iff_lookup]

theorem nodup_activeCategories : ((s.activeCategories tenantId).map (·.1)).Nodup := by
  have hperm := (List.mergeSort_perm (s.categories.entries.filter fun e =>
    e.2.tenantId = tenantId ∧ e.2.isActive = true) fun a b => a.2.sortOrder ≤ b.2.sortOrder).map
      Sigma.fst
  apply hperm.nodup_iff.mpr
  exact List.Nodup.sublist (List.filter_sublist.map Sigma.fst) s.categories.nodupKeys

theorem sorted_activeCategories : Sorted (s.activeCategories tenantId) := by
  have hsorted := @List.pairwise_mergeSort Entry (fun a b =>
    decide (a.2.sortOrder ≤ b.2.sortOrder)) (by simp; omega) (by simp; omega)
      (s.categories.entries.filter fun e => e.2.tenantId = tenantId ∧ e.2.isActive = true)
  apply hsorted.imp
  intro a b hab
  exact of_decide_eq_true hab

end Db

/-! ### The two passes -/

section Passes

open Categories.Db (Entry)

variable {cats : List Entry}

/-- The categories that name the parent. -/
def naming (p : Uuid) (cats : List Entry) : List Entry :=
  cats.filter fun cat => cat.2.parentId = some p

/-- The categories whose parent is not among those with a node. -/
def parentless (ids : List Uuid) (cats : List Entry) : List Entry :=
  cats.filter fun cat => ∀ p ∈ cat.2.parentId, p ∉ ids

theorem lookup_addNode (nodes : Db.Nodes) (p : Uuid) :
    (cats.foldl Db.addNode nodes).categoryMap.lookup p =
      if p ∈ cats.map (·.1) then some [] else nodes.categoryMap.lookup p := by
  induction cats generalizing nodes with
  | nil => simp
  | cons cat cats ih =>
    rw [List.foldl_cons, ih]
    by_cases hp : p = cat.1
    · subst hp
      simp [Db.addNode, AList.lookup_insert]
    · have hmem : p ∈ (cat :: cats).map (·.1) ↔ p ∈ cats.map (·.1) := by simp [hp]
      rw [Db.addNode, AList.lookup_insert_ne hp]
      simp only [hmem]

theorem roots_addNode (nodes : Db.Nodes) :
    (cats.foldl Db.addNode nodes).roots = nodes.roots := by
  induction cats generalizing nodes with
  | nil => rfl
  | cons cat cats ih => rw [List.foldl_cons, ih]; rfl

/-- What the second pass has done after a part of the list. -/
structure Placed (ids : List Uuid) (done : List Entry) (nodes : Db.Nodes) : Prop where
  lookup : ∀ p, nodes.categoryMap.lookup p = if p ∈ ids then some (naming p done) else none
  roots : nodes.roots = parentless ids done

theorem Placed.step {ids : List Uuid} {done : List Entry} {nodes : Db.Nodes} {cat : Entry}
    (h : Placed ids done nodes) : Placed ids (done ++ [cat]) (Db.place nodes cat) := by
  cases hparent : cat.2.parentId with
  | none =>
    have hplace : Db.place nodes cat = { nodes with roots := nodes.roots ++ [cat] } := by
      simp [Db.place, hparent]
    rw [hplace]
    constructor
    · intro p
      simp [h.lookup p, naming, hparent]
    · simp [h.roots, parentless, hparent]
  | some q =>
    by_cases hq : q ∈ ids
    · -- the category comes below its parent
      have hplace : Db.place nodes cat =
          { nodes with categoryMap := nodes.categoryMap.insert q (naming q done ++ [cat]) } := by
        simp [Db.place, hparent, h.lookup q, hq]
      rw [hplace]
      constructor
      · intro p
        by_cases hp : p = q
        · subst hp
          simp [AList.lookup_insert, hq, naming, hparent]
        · simp [AList.lookup_insert_ne hp, h.lookup p, naming, hparent, Ne.symm hp]
      · simp [h.roots, parentless, hparent, hq]
    · -- its parent is not among the categories, so it is a root
      have hplace : Db.place nodes cat = { nodes with roots := nodes.roots ++ [cat] } := by
        simp [Db.place, hparent, h.lookup q, hq]
      rw [hplace]
      constructor
      · intro p
        by_cases hp : p = q
        · subst hp
          simp [h.lookup p, hq]
        · simp [h.lookup p, naming, hparent, Ne.symm hp]
      · simp [h.roots, parentless, hparent, hq]

theorem Placed.foldl {ids : List Uuid} {done todo : List Entry} {nodes : Db.Nodes}
    (h : Placed ids done nodes) : Placed ids (done ++ todo) (todo.foldl Db.place nodes) := by
  induction todo generalizing done nodes with
  | nil => simpa using h
  | cons cat todo ih =>
    have hnext := ih (@Placed.step _ _ _ cat h)
    rwa [List.append_assoc, List.singleton_append] at hnext

/-- After both passes every category is below its parent or among the roots. -/
theorem linked_nodes (cats : List Entry) :
    Placed (cats.map (·.1)) cats (cats.foldl Db.place (cats.foldl Db.addNode {})) := by
  have hstart : Placed (cats.map (·.1)) [] (cats.foldl Db.addNode {}) := by
    constructor
    · intro p
      rw [lookup_addNode]
      rfl
    · rw [roots_addNode]
      rfl
  exact hstart.foldl

/-! ### Parents among the active categories -/

/-- Who names whom as the parent, among the categories of the list. -/
def parentsAmong (cats : List Entry) : ParentMap Entry := fun cat =>
  if cat ∈ cats then some (cat.2.parentId.bind fun p => cats.find? fun e => e.1 = p) else none

theorem isSome_parentsAmong {cat : Entry} : cat ∈ cats ↔ (parentsAmong cats cat).isSome := by
  unfold parentsAmong
  split_ifs with h <;> simp [h]

/-- Identifiers are unique. -/
theorem find_eq_some (hids : (cats.map (·.1)).Nodup) {p : Uuid} {cat : Entry} :
    (cats.find? fun e => e.1 = p) = some cat ↔ cat ∈ cats ∧ cat.1 = p := by
  constructor
  · intro h
    exact ⟨List.mem_of_find?_eq_some h, by simpa using List.find?_some h⟩
  · rintro ⟨hcat, rfl⟩
    cases hfind : cats.find? fun e => e.1 = cat.1 with
    | none =>
      have hnone := List.find?_eq_none.mp hfind cat hcat
      simp at hnone
    | some cat' =>
      have hsame : cat'.1 = cat.1 := by simpa using List.find?_some hfind
      rw [List.inj_on_of_nodup_map hids (List.mem_of_find?_eq_some hfind) hcat hsame]

theorem naming_eq_below (hids : (cats.map (·.1)).Nodup) {cat : Entry} (hcat : cat ∈ cats) :
    naming cat.1 cats = (parentsAmong cats).below cats cat := by
  unfold naming ParentMap.below
  apply List.filter_congr
  intro b hb
  unfold parentsAmong
  rw [if_pos hb, decide_eq_decide]
  cases hparent : b.2.parentId with
  | none => simp
  | some p =>
    rw [Option.bind_some, Option.some.injEq, Option.some.injEq, find_eq_some hids]
    constructor
    · rintro rfl
      exact ⟨hcat, rfl⟩
    · rintro ⟨_, rfl⟩
      rfl

theorem parentless_eq_roots :
    parentless (cats.map (·.1)) cats = (parentsAmong cats).roots cats := by
  unfold parentless ParentMap.roots
  apply List.filter_congr
  intro b hb
  unfold parentsAmong
  rw [if_pos hb, decide_eq_decide]
  cases b.2.parentId with
  | none => simp
  | some p =>
    simp only [Option.mem_def, Option.some.injEq, forall_eq', Option.bind_some,
      List.find?_eq_none, decide_eq_true_eq, List.mem_map, not_exists, not_and]

/-- In a forest, the active categories are one as well. -/
theorem forest_parentsAmong (hs : s.parents.Forest)
    (hcats : ∀ cat ∈ cats, s.categories.lookup cat.1 = some cat.2) :
    (parentsAmong cats).Forest := by
  have hrooted (id : Uuid) (h : s.parents.Rooted id) :
      ∀ cat ∈ cats, cat.1 = id → (parentsAmong cats).Rooted cat := by
    induction h with
    | @root id hroot =>
      rintro cat hcat rfl
      simp only [Db.parents, hcats cat hcat, Option.map_some, Option.some.injEq] at hroot
      apply ParentMap.Rooted.root
      rw [parentsAmong, if_pos hcat, hroot]
      rfl
    | @child id p hchild _ ih =>
      rintro cat hcat rfl
      simp only [Db.parents, hcats cat hcat, Option.map_some, Option.some.injEq] at hchild
      -- the parent is in the list, or the category is at a root
      cases hfind : cats.find? fun e => e.1 = p with
      | none =>
        apply ParentMap.Rooted.root
        rw [parentsAmong, if_pos hcat, hchild, Option.bind_some, hfind]
      | some parent =>
        apply ParentMap.Rooted.child (p := parent)
        · rw [parentsAmong, if_pos hcat, hchild, Option.bind_some, hfind]
        · exact ih parent (List.mem_of_find?_eq_some hfind) (by simpa using List.find?_some hfind)
  intro cat hsome
  have hcat := isSome_parentsAmong.mpr hsome
  exact hrooted cat.1 (hs cat.1 (by simp [Db.parents, hcats cat hcat])) cat hcat rfl

end Passes

/-! ### The tree -/

open Categories.Db (Entry Sorted)

/-- The trees that are read, with the parents that the list has. -/
theorem getTree_eq {cats : List Entry} (hcats : s.activeCategories tenantId = cats)
    (hids : (cats.map (·.1)).Nodup) :
    s.getTree tenantId = ((parentsAmong cats).roots cats).mapM
      (RoseTree.grow ((parentsAmong cats).below cats) cats.length) := by
  have hlinked := linked_nodes cats
  unfold Db.getTree
  rw [hcats]
  dsimp only
  rw [hlinked.roots, parentless_eq_roots]
  apply RoseTree.mapM_congr
  intro cat hcat
  apply RoseTree.grow_congr (P := (· ∈ cats))
  · intro a ha
    have hid : a.1 ∈ cats.map (·.1) := List.mem_map_of_mem ha
    rw [Db.Nodes.children, hlinked.lookup, if_pos hid, Option.getD_some, naming_eq_below hids ha]
  · intro a _ b hb
    exact List.mem_of_mem_filter hb
  · exact List.mem_of_mem_filter hcat

/-- The tree of a forest shows every active category in its place. -/
theorem getTree_showsAll (hs : s.Sound) (tenantId : Uuid) :
    ∃ forest, s.getTree tenantId = some forest ∧ s.ShowsAll tenantId forest := by
  generalize hcats : s.activeCategories tenantId = cats
  have hmem (cat : Entry) : cat ∈ cats ↔ s.Active tenantId cat := by
    rw [← hcats]
    exact Db.mem_activeCategories
  have hids : (cats.map (·.1)).Nodup := hcats ▸ Db.nodup_activeCategories
  have hsorted : Sorted cats := hcats ▸ Db.sorted_activeCategories
  have hforest := forest_parentsAmong hs.forest fun cat hcat => ((hmem cat).mp hcat).1
  obtain ⟨forest, hgrown, hroots, hvalues, hchildren⟩ :=
    hforest.grow_roots (fun _ => isSome_parentsAmong) hids.of_map
  refine ⟨forest, (getTree_eq hcats hids).trans hgrown, ?_⟩
  constructor
  · exact hvalues.nodup_iff.mpr hids.of_map
  · intro cat
    rw [hvalues.mem_iff, hmem]
  · intro cat hcat p parent hp hparent hactive
    -- the parent is of the same tenant, so that it is in the list
    obtain ⟨parent', hparent', htenant⟩ := hs.oneTenant cat.1 cat.2 p hcat.1 hp
    obtain rfl := Option.some.inj (hparent.symm.trans hparent')
    have hlisted : (⟨p, parent⟩ : Entry) ∈ cats :=
      (hmem _).mpr ⟨hparent, htenant.trans hcat.2.1, hactive⟩
    obtain ⟨t, ht, hvalue⟩ := List.mem_map.mp (hvalues.mem_iff.mpr hlisted)
    refine ⟨t, ht, hvalue, ?_⟩
    rw [hchildren t ht, hvalue, ← naming_eq_below hids hlisted]
    exact List.mem_filter.mpr ⟨(hmem cat).mpr hcat, decide_eq_true hp⟩
  · intro cat hcat hinactive
    rw [hroots, ← parentless_eq_roots]
    apply List.mem_filter.mpr
    refine ⟨(hmem cat).mpr hcat, decide_eq_true ?_⟩
    intro p hp hlisted
    obtain ⟨⟨p', parent⟩, hin, rfl⟩ := List.mem_map.mp hlisted
    have hactive := (hmem _).mp hin
    have hnot := hinactive p' parent hp hactive.1
    rw [hactive.2.2] at hnot
    cases hnot
  · rw [hroots]
    exact List.Pairwise.filter _ hsorted
  · intro t ht
    rw [hchildren t ht]
    exact List.Pairwise.filter _ hsorted

/-- **The tree is complete** after any requests that run one after the other: `getTree` shows
every active category of a tenant once, in its place. -/
theorem tree_complete (s : Db) (h : SerialRun {} s) (tenantId : Uuid) :
    ∃ forest, s.getTree tenantId = some forest ∧ s.ShowsAll tenantId forest :=
  getTree_showsAll (serialRun_sound Db.sound_empty h) tenantId

/-! ### A shop with two categories -/

def createTea : Request := .create "t" "tea" { name := "Tea", slug := "tea" }

def createGreen : Request :=
  .create "t" "green" { name := "Green tea", slug := "green", parentId := some "tea" }

/-- The store after two turns of the first request. -/
def onlyTea : Db := (createTea.turn^[2] ({}, .arrived)).1

/-- And after three turns of the second. -/
def teas : Db := (createGreen.turn^[3] (onlyTea, .arrived)).1

theorem serialRun_teas : SerialRun {} teas := by
  have hfirst : SerialRun {} onlyTea := SerialRun.refl.request (n := 2) (Prod.ext rfl rfl)
  exact @SerialRun.request _ _ _ createGreen 3 _ hfirst (Prod.ext rfl rfl)

theorem tree_complete_teas :
    ∃ forest, teas.getTree "t" = some forest ∧ teas.ShowsAll "t" forest :=
  tree_complete teas serialRun_teas "t"

end PulseOps.Categories
