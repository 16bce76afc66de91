import PulseOps.Json.Text

/-!
# Values without some of their members

The members whose name has some property are left out of a value, in its objects of every depth.

## Main definitions

* `Json.names` — the names of all members, of every depth.
* `Json.without` — the value without the members of some names.

## Main results

* `Json.distinct_without` — names stay distinct.
* `Json.without_eq_self_iff` — a value stays as it is exactly when it has no such member.
* `Json.without_congr` — only the names that the value has matter.
-/

set_option autoImplicit false

namespace Json

variable {ν : Type} (p q : String → Bool)

mutual

/-- The names of all members, of every depth. -/
def names : Json ν → List String
  | .arr items => namesOfItems items
  | .obj members => namesOfMembers members
  | _ => []

def namesOfItems : List (Json ν) → List String
  | [] => []
  | v :: items => names v ++ namesOfItems items

def namesOfMembers : List (String × Json ν) → List String
  | [] => []
  | (key, v) :: members => key :: (names v ++ namesOfMembers members)

end

theorem mem_namesOfItems {name : String} {items : List (Json ν)} :
    name ∈ namesOfItems items ↔ ∃ v ∈ items, name ∈ names v := by
  induction items with
  | nil => simp [namesOfItems]
  | cons v items ih => simp [namesOfItems, ih]

theorem mem_namesOfMembers {name : String} {members : List (String × Json ν)} :
    name ∈ namesOfMembers members ↔ ∃ m ∈ members, name = m.1 ∨ name ∈ names m.2 := by
  induction members with
  | nil => simp [namesOfMembers]
  | cons m members ih =>
    rw [namesOfMembers, List.mem_cons, List.mem_append, ih]
    simp [or_assoc]

mutual

/-- The value without the members whose name satisfies `p`, at every depth. -/
def without : Json ν → Json ν
  | .arr items => .arr (itemsWithout items)
  | .obj members => .obj (membersWithout members)
  | v => v

def itemsWithout : List (Json ν) → List (Json ν)
  | [] => []
  | v :: items => without v :: itemsWithout items

def membersWithout : List (String × Json ν) → List (String × Json ν)
  | [] => []
  | (key, v) :: members =>
    if p key then membersWithout members else (key, without v) :: membersWithout members

end

theorem membersWithout_sublist (members : List (String × Json ν)) :
    ((membersWithout p members).map Prod.fst).Sublist (members.map Prod.fst) := by
  induction members with
  | nil => simp [membersWithout]
  | cons m members ih =>
    rw [membersWithout]
    split_ifs with h
    · exact ih.trans (List.sublist_cons_self _ _)
    · exact ih.cons_cons m.1

mutual

/-- Names stay distinct. -/
theorem distinct_without : ∀ v : Json ν, v.Distinct → (without p v).Distinct
  | .null, _ => trivial
  | .bool _, _ => trivial
  | .num _, _ => trivial
  | .str _, _ => trivial
  | .arr items, h => by
    rw [without]
    exact distinct_itemsWithout items h
  | .obj members, h => by
    rw [without]
    exact ⟨h.1.sublist (membersWithout_sublist p members), distinct_membersWithout members h.2⟩

theorem distinct_itemsWithout : ∀ items : List (Json ν), DistinctItems items →
    DistinctItems (itemsWithout p items)
  | [], _ => trivial
  | v :: items, h => ⟨distinct_without v h.1, distinct_itemsWithout items h.2⟩

theorem distinct_membersWithout : ∀ members : List (String × Json ν), DistinctMembers members →
    DistinctMembers (membersWithout p members)
  | [], _ => trivial
  | (key, v) :: members, h => by
    rw [membersWithout]
    split_ifs
    · exact distinct_membersWithout members h.2
    · exact ⟨distinct_without v h.1, distinct_membersWithout members h.2⟩

end

mutual

/-- A value stays as it is exactly when it has no member with such a name. -/
theorem without_eq_self_iff : ∀ v : Json ν, without p v = v ↔ ∀ key ∈ names v, ¬ p key
  | .null => by simp [without, names]
  | .bool _ => by simp [without, names]
  | .num _ => by simp [without, names]
  | .str _ => by simp [without, names]
  | .arr items => by
    rw [without, names, arr.injEq]
    exact itemsWithout_eq_self_iff items
  | .obj members => by
    rw [without, names, obj.injEq]
    exact membersWithout_eq_self_iff members

theorem itemsWithout_eq_self_iff : ∀ items : List (Json ν),
    itemsWithout p items = items ↔ ∀ key ∈ namesOfItems items, ¬ p key
  | [] => by simp [itemsWithout, namesOfItems]
  | v :: items => by
    rw [itemsWithout, namesOfItems, List.cons.injEq, without_eq_self_iff v,
      itemsWithout_eq_self_iff items, List.forall_mem_append]

theorem membersWithout_eq_self_iff : ∀ members : List (String × Json ν),
    membersWithout p members = members ↔ ∀ key ∈ namesOfMembers members, ¬ p key
  | [] => by simp [membersWithout, namesOfMembers]
  | (key, v) :: members => by
    rw [membersWithout, namesOfMembers, List.forall_mem_cons, List.forall_mem_append]
    split_ifs with h
    · -- what is left is too short
      have hlength := (membersWithout_sublist p members).length_le
      simp only [List.length_map] at hlength
      constructor
      · intro heq
        rw [heq, List.length_cons] at hlength
        omega
      · intro hnone
        exact absurd h hnone.1
    · rw [List.cons.injEq, Prod.mk.injEq, without_eq_self_iff v,
        membersWithout_eq_self_iff members]
      simp [h]

end

variable {p q}

mutual

/-- Only the names that the value has matter. -/
theorem without_congr : ∀ v : Json ν, (∀ key ∈ names v, p key = q key) → without p v = without q v
  | .null, _ => by simp [without]
  | .bool _, _ => by simp [without]
  | .num _, _ => by simp [without]
  | .str _, _ => by simp [without]
  | .arr items, h => by
    rw [without, without, itemsWithout_congr items h]
  | .obj members, h => by
    rw [without, without, membersWithout_congr members h]

theorem itemsWithout_congr : ∀ items : List (Json ν), (∀ key ∈ namesOfItems items, p key = q key) →
    itemsWithout p items = itemsWithout q items
  | [], _ => rfl
  | v :: items, h => by
    rw [namesOfItems, List.forall_mem_append] at h
    rw [itemsWithout, itemsWithout, without_congr v h.1, itemsWithout_congr items h.2]

theorem membersWithout_congr : ∀ members : List (String × Json ν),
    (∀ key ∈ namesOfMembers members, p key = q key) →
      membersWithout p members = membersWithout q members
  | [], _ => rfl
  | (key, v) :: members, h => by
    rw [namesOfMembers, List.forall_mem_cons, List.forall_mem_append] at h
    rw [membersWithout, membersWithout, h.1, without_congr v h.2.1,
      membersWithout_congr members h.2.2]

end

end Json
