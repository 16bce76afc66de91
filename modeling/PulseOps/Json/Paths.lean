import PulseOps.Json.Without

/-!
# Places in a value

A place in a value is the list of the indices and the names that lead to it. The shape of a value
is the value itself if it is a scalar, and otherwise its length or its names.

## Main definitions

* `Json.at` — the value at a place.
* `Json.shape` — a value without what is inside of it.
* `Json.AgreeBut` — two values that differ under some names only.

## Main results

* `Json.at_cons` — one step on the way to a place.
* `Json.lookup_filter_map` — what is left when members are left out.
-/

set_option autoImplicit false

namespace Json

variable {ν : Type}

inductive Step where
  | item (i : ℕ)
  | member (name : String)
  deriving DecidableEq, Repr

/-- The value at a place. -/
def «at» : Json ν → List Step → Option (Json ν)
  | v, [] => some v
  | .arr items, .item i :: path => (items[i]?).bind fun v => v.at path
  | .obj members, .member name :: path => (members.lookup name).bind fun v => v.at path
  | _, _ :: _ => none

@[simp] theorem at_nil (v : Json ν) : v.at [] = some v := by
  cases v <;> rfl

/-- What one step leads to. -/
def child : Json ν → Step → Option (Json ν)
  | .arr items, .item i => items[i]?
  | .obj members, .member name => members.lookup name
  | _, _ => none

theorem at_cons (v : Json ν) (step : Step) (path : List Step) :
    v.at (step :: path) = (v.child step).bind fun w => w.at path := by
  cases v <;> cases step <;> rfl

/-- What is in a value has no other names than the value. -/
theorem names_of_child {v w : Json ν} {step : Step} (h : v.child step = some w) {name : String}
    (hname : name ∈ w.names) : name ∈ v.names := by
  unfold child at h
  split at h
  · rw [names, mem_namesOfItems]
    exact ⟨w, List.mem_of_getElem? h, hname⟩
  next members name' =>
    obtain ⟨before, after, rfl, -⟩ := List.lookup_eq_some_iff.mp h
    rw [names, mem_namesOfMembers]
    exact ⟨(name', w), by simp, .inr hname⟩
  · cases h

theorem distinctItems_iff {items : List (Json ν)} :
    DistinctItems items ↔ ∀ v ∈ items, Distinct v := by
  induction items with
  | nil => simp [DistinctItems]
  | cons v items ih => simp [DistinctItems, ih]

theorem Distinct.child {v w : Json ν} {step : Step} (h : v.Distinct)
    (hchild : v.child step = some w) : w.Distinct := by
  unfold Json.child at hchild
  split at hchild
  · exact distinctItems_iff.mp h w (List.mem_of_getElem? hchild)
  next members name =>
    obtain ⟨before, after, rfl, -⟩ := List.lookup_eq_some_iff.mp hchild
    exact distinctMembers_iff.mp h.2 (name, w) (by simp)
  · cases hchild

/-- Where no two members have one name, leaving some out does not uncover others. -/
theorem lookup_filter_map {members : List (String × Json ν)}
    (hnames : (members.map Prod.fst).Nodup) (keeps : String → Json ν → Bool)
    (f : Json ν → Json ν) (name : String) :
    ((members.filter fun m => keeps m.1 m.2).map fun m => (m.1, f m.2)).lookup name =
      ((members.lookup name).filter (keeps name)).map f := by
  induction members with
  | nil => rfl
  | cons m members ih =>
    obtain ⟨key, v⟩ := m
    rw [List.map_cons, List.nodup_cons] at hnames
    have hrest := ih hnames.2
    rw [List.filter_cons, List.lookup_cons]
    by_cases hkey : name = key
    · subst hkey
      have hnone : members.lookup name = none := by
        rw [List.lookup_eq_none_iff]
        intro m hm
        have hne : name ≠ m.1 := fun heq => hnames.1 (heq ▸ List.mem_map.mpr ⟨m, hm, rfl⟩)
        simpa using hne
      rw [hnone] at hrest
      by_cases hkeeps : keeps name v = true
      · simp [hkeeps]
      · simp [hkeeps, hrest]
    · have hne : (name == key) = false := by simpa using hkey
      rw [hne]
      split_ifs
      · rw [List.map_cons, List.lookup_cons, hne]
        exact hrest
      · exact hrest

/-- A value without what is inside of it. -/
inductive Shape (ν : Type) where
  | null
  | bool (b : Bool)
  | num (n : ν)
  | str (s : String)
  | arr (length : ℕ)
  | obj (names : List String)

def shape : Json ν → Shape ν
  | .null => .null
  | .bool b => .bool b
  | .num n => .num n
  | .str s => .str s
  | .arr items => .arr items.length
  | .obj members => .obj (members.map Prod.fst)

mutual

/-- The values are the same, but for what is under names that satisfy `p`. -/
def AgreeBut (p : String → Bool) : Json ν → Json ν → Prop
  | .arr items, .arr items' => ItemsAgree p items items'
  | .obj members, .obj members' => MembersAgree p members members'
  | .arr _, _ => False
  | .obj _, _ => False
  | v, w => v = w

def ItemsAgree (p : String → Bool) : List (Json ν) → List (Json ν) → Prop
  | [], [] => True
  | v :: items, w :: items' => AgreeBut p v w ∧ ItemsAgree p items items'
  | _, _ => False

def MembersAgree (p : String → Bool) : List (String × Json ν) → List (String × Json ν) → Prop
  | [], [] => True
  | (name, v) :: members, (name', w) :: members' =>
    name = name' ∧ (p name ∨ AgreeBut p v w) ∧ MembersAgree p members members'
  | _, _ => False

end

end Json
