import PulseOps.Model.Realtime

/-!
# What goes out in an event

What goes out is the payload without the members of forbidden names, at every depth, and without
stack traces. Everything else goes out at its old place and as it is, but for dates: each goes out
as an object without members.

## Main definitions

* `Goes` — the places of a payload that go out.

## Main results

* `names_sanitizePayload` — no name in the data of an event is forbidden.
* `at_sanitizePayload` — what is found at a place in it.
* `shape_sanitizePayload` — what becomes of one value.
* `sanitizePayload_idem` — a second time nothing changes.
* `payload_sanitized` — the four together.
-/

set_option autoImplicit false

open Json (Step)

namespace PulseOps.Realtime

variable {ν : Type} {toLowerCase : String → String}

theorem sanitizeItems_eq_map (items : List (Payload ν)) :
    sanitizeItems toLowerCase items = items.map (sanitizePayload toLowerCase) := by
  induction items with
  | nil => rfl
  | cons v items ih => rw [sanitizeItems, ih, List.map_cons]

theorem sanitizeMembers_eq_map (members : List (String × Payload ν)) :
    sanitizeMembers toLowerCase members =
      (members.filter fun m => keepsMember toLowerCase m.1 m.2).map
        fun m => (m.1, sanitizePayload toLowerCase m.2) := by
  induction members with
  | nil => rfl
  | cons m members ih =>
    obtain ⟨name, v⟩ := m
    rw [sanitizeMembers, ih, List.filter_cons]
    split_ifs <;> rfl

theorem isObject_sanitizePayload (v : Payload ν) :
    isObject (sanitizePayload toLowerCase v) = isObject v := by
  cases v with
  | num leaf => cases leaf <;> simp [sanitizePayload, isObject]
  | _ => simp [sanitizePayload, isObject]

/-- Whether a member goes out can be seen from what becomes of it. -/
theorem keepsMember_sanitizePayload (name : String) (v : Payload ν) :
    keepsMember toLowerCase name (sanitizePayload toLowerCase v) =
      keepsMember toLowerCase name v := by
  rw [keepsMember, keepsMember, isObject_sanitizePayload]

mutual

/-- No name in the result is forbidden. -/
theorem names_sanitizePayload : ∀ v : Payload ν, ∀ name ∈ (sanitizePayload toLowerCase v).names,
    isForbiddenKey toLowerCase name = false
  | .arr items => by
    rw [sanitizePayload, Json.names]
    exact names_sanitizeItems items
  | .obj members => by
    rw [sanitizePayload, Json.names]
    exact names_sanitizeMembers members
  | .num (.date _) => by simp [sanitizePayload, Json.names, Json.namesOfMembers]
  | .null | .bool _ | .num (.num _) | .str _ => by simp [sanitizePayload, Json.names]

theorem names_sanitizeItems : ∀ items : List (Payload ν),
    ∀ name ∈ Json.namesOfItems (sanitizeItems toLowerCase items),
      isForbiddenKey toLowerCase name = false
  | [] => by simp [sanitizeItems, Json.namesOfItems]
  | v :: items => by
    intro name hname
    rw [sanitizeItems, Json.namesOfItems, List.mem_append] at hname
    exact hname.elim (names_sanitizePayload v name) (names_sanitizeItems items name)

theorem names_sanitizeMembers : ∀ members : List (String × Payload ν),
    ∀ name ∈ Json.namesOfMembers (sanitizeMembers toLowerCase members),
      isForbiddenKey toLowerCase name = false
  | [] => by simp [sanitizeMembers, Json.namesOfMembers]
  | (key, v) :: members => by
    intro name hname
    rw [sanitizeMembers] at hname
    split_ifs at hname with hkeeps
    · rw [Json.namesOfMembers, List.mem_cons, List.mem_append] at hname
      rcases hname with rfl | hname | hname
      · simp only [keepsMember, decide_eq_true_eq] at hkeeps
        exact hkeeps.1
      · exact names_sanitizePayload v name hname
      · exact names_sanitizeMembers members name hname
    · exact names_sanitizeMembers members name hname

end

mutual

/-- A second time nothing changes. -/
theorem sanitizePayload_idem : ∀ v : Payload ν,
    sanitizePayload toLowerCase (sanitizePayload toLowerCase v) = sanitizePayload toLowerCase v
  | .arr items => by rw [sanitizePayload, sanitizePayload, sanitizeItems_idem items]
  | .obj members => by rw [sanitizePayload, sanitizePayload, sanitizeMembers_idem members]
  | .num (.date _) => by simp [sanitizePayload, sanitizeMembers]
  | .null | .bool _ | .num (.num _) | .str _ => by simp [sanitizePayload]

theorem sanitizeItems_idem : ∀ items : List (Payload ν),
    sanitizeItems toLowerCase (sanitizeItems toLowerCase items) = sanitizeItems toLowerCase items
  | [] => rfl
  | v :: items => by
    rw [sanitizeItems, sanitizeItems, sanitizePayload_idem v, sanitizeItems_idem items]

theorem sanitizeMembers_idem : ∀ members : List (String × Payload ν),
    sanitizeMembers toLowerCase (sanitizeMembers toLowerCase members) =
      sanitizeMembers toLowerCase members
  | [] => rfl
  | (key, v) :: members => by
    rw [sanitizeMembers]
    split_ifs with hkeeps
    · -- the second time the test is made on the sanitized value
      rw [sanitizeMembers, keepsMember_sanitizePayload, if_pos hkeeps, sanitizePayload_idem v,
        sanitizeMembers_idem members]
    · exact sanitizeMembers_idem members

end

/-- Whether a step leads to something that goes out. -/
def goesOn (toLowerCase : String → String) : Step → Payload ν → Bool
  | .item _, _ => true
  | .member name, w => keepsMember toLowerCase name w

/-- Everything on the way to a place goes out. -/
def Goes (toLowerCase : String → String) : Payload ν → List Step → Prop
  | _, [] => True
  | v, step :: path =>
    ∃ w, v.child step = some w ∧ goesOn toLowerCase step w = true ∧ Goes toLowerCase w path

/-- One step in the result. -/
theorem child_sanitizePayload {v : Payload ν} (hv : v.Distinct) (step : Step) :
    (sanitizePayload toLowerCase v).child step =
      ((v.child step).filter (goesOn toLowerCase step)).map (sanitizePayload toLowerCase) := by
  cases v with
  | arr items =>
    rw [sanitizePayload, sanitizeItems_eq_map]
    cases step with
    | item i =>
      rw [Json.child, Json.child, List.getElem?_map]
      cases items[i]? <;> rfl
    | member name => rfl
  | obj members =>
    rw [sanitizePayload, sanitizeMembers_eq_map]
    cases step with
    | item i => rfl
    | member name => exact Json.lookup_filter_map hv.1 (keepsMember toLowerCase) _ name
  | num leaf => cases leaf <;> cases step <;> rfl
  | _ => cases step <;> rfl

/-- What is found in the result: what goes out of the payload. -/
theorem at_sanitizePayload {v w : Payload ν} (hv : v.Distinct) (path : List Step) :
    (sanitizePayload toLowerCase v).at path = some w ↔
      ∃ u, v.at path = some u ∧ Goes toLowerCase v path ∧ w = sanitizePayload toLowerCase u := by
  induction path generalizing v with
  | nil => simp [Goes, eq_comm]
  | cons step path ih =>
    rw [Json.at_cons, Json.at_cons, child_sanitizePayload hv, Goes]
    cases hchild : v.child step with
    | none => simp
    | some x =>
      cases hgoes : goesOn toLowerCase step x with
      -- what is left out has nothing below it either
      | false =>
        rw [Option.filter_some_neg hgoes]
        simp [hgoes]
      | true =>
        rw [Option.filter_some_pos hgoes, Option.map_some, Option.bind_some,
          ih (hv.child hchild)]
        simp [hgoes]

/-- The names of an object that go out. -/
def sentNames (toLowerCase : String → String) (members : List (String × Payload ν)) :
    List String :=
  (members.filter fun m => keepsMember toLowerCase m.1 m.2).map Prod.fst

/-- What becomes of one value: scalars stay, an array keeps its length, an object the names that go
out, and a date turns into an object without members. -/
theorem shape_sanitizePayload (v : Payload ν) :
    (sanitizePayload toLowerCase v).shape = match v with
      | .num (.date _) => .obj []
      | .obj members => .obj (sentNames toLowerCase members)
      | _ => v.shape := by
  cases v with
  | num leaf => cases leaf <;> rfl
  | arr items => simp [sanitizePayload, sanitizeItems_eq_map, Json.shape]
  | obj members => simp [sanitizePayload, sanitizeMembers_eq_map, Json.shape, sentNames]
  | _ => rfl

/-- No name in the data of an event is forbidden, what goes out is at its old place and as it was
unless it was a date, and to sanitize it again changes nothing. -/
theorem payload_sanitized (toLowerCase : String → String) (payload : Json.Value (Leaf ν)) :
    (∀ name ∈ (sanitizePayload toLowerCase payload.1).names,
      isForbiddenKey toLowerCase name = false) ∧
    (∀ path w, (sanitizePayload toLowerCase payload.1).at path = some w ↔
      ∃ u, payload.1.at path = some u ∧ Goes toLowerCase payload.1 path ∧
        w = sanitizePayload toLowerCase u) ∧
    (∀ u : Payload ν, (sanitizePayload toLowerCase u).shape = match u with
      | .num (.date _) => .obj []
      | .obj members => .obj (sentNames toLowerCase members)
      | _ => u.shape) ∧
    sanitizePayload toLowerCase (sanitizePayload toLowerCase payload.1) =
      sanitizePayload toLowerCase payload.1 :=
  ⟨names_sanitizePayload payload.1, fun path _ => at_sanitizePayload payload.2 path,
    shape_sanitizePayload, sanitizePayload_idem payload.1⟩

end PulseOps.Realtime
