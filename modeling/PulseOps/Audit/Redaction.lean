import PulseOps.Model.Audit

/-!
# Audit records carry no secrets

What is under a sensitive name is replaced at every depth, and what is deeper than the limit is
cut off. So the result does not depend on what was under such a name. Everything else is kept, and
to do it again changes nothing.

## Main definitions

* `Clear` — no name on the way to a place is sensitive.

## Main results

* `at_sanitizeValue_sensitive` — what is found under a sensitive name.
* `sanitizeValue_congr` — what is under sensitive names does not show.
* `shape_at_sanitizeValue` — the other places, down to the limit.
* `sanitizeValue_idem` — a second time.
* `audit_redacted` — the four together.
-/

set_option autoImplicit false

open Json (Step)

namespace PulseOps.Audit

variable {ν : Type} {toLowerCase : String → String} {maxDepth depth : ℕ} {v w : Json ν}
  {items : List (Json ν)} {members : List (String × Json ν)} {name : String}

/-- The value has no member with one of the names that JavaScript treats specially. -/
def Plain (v : Json ν) : Prop := "__proto__" ∉ v.names ∧ "constructor" ∉ v.names

/-! ### One value -/

theorem Plain.child {step : Step} (h : Plain v) (hchild : v.child step = some w) : Plain w :=
  ⟨fun hname => h.1 (Json.names_of_child hchild hname),
    fun hname => h.2 (Json.names_of_child hchild hname)⟩

theorem Plain.ne (h : Plain (.obj members)) {m : String × Json ν} (hm : m ∈ members) :
    m.1 ≠ "__proto__" ∧ m.1 ≠ "constructor" := by
  rw [Plain, Json.names, Json.mem_namesOfMembers, Json.mem_namesOfMembers] at h
  exact ⟨fun heq => h.1 ⟨m, hm, .inl heq.symm⟩, fun heq => h.2 ⟨m, hm, .inl heq.symm⟩⟩

theorem Plain.item (h : Plain (.arr items)) (hv : v ∈ items) : Plain v := by
  rw [Plain, Json.names, Json.mem_namesOfItems, Json.mem_namesOfItems] at h
  exact ⟨fun hname => h.1 ⟨v, hv, hname⟩, fun hname => h.2 ⟨v, hv, hname⟩⟩

theorem Plain.member (h : Plain (.obj members)) {m : String × Json ν} (hm : m ∈ members) :
    Plain m.2 := by
  rw [Plain, Json.names, Json.mem_namesOfMembers, Json.mem_namesOfMembers] at h
  exact ⟨fun hname => h.1 ⟨m, hm, .inr hname⟩, fun hname => h.2 ⟨m, hm, .inr hname⟩⟩

/-- Objects without a `constructor` of their own do not pass for decimals. -/
theorem passesForDecimal_eq_false (h : ∀ m ∈ members, m.1 ≠ "constructor") :
    passesForDecimal members = false := by
  have hlookup : members.lookup "constructor" = none := by
    rw [List.lookup_eq_none_iff]
    intro m hm
    simp [Ne.symm (h m hm)]
  simp [passesForDecimal, hlookup]

theorem sanitizeItems_eq_map (depth : ℕ) (items : List (Json ν)) :
    sanitizeItems toLowerCase maxDepth depth items =
      items.map (sanitizeValue toLowerCase maxDepth depth) := by
  induction items with
  | nil => rfl
  | cons v items ih => rw [sanitizeItems, ih, List.map_cons]

/-- What becomes of a member. -/
def sanitizeMember (toLowerCase : String → String) (maxDepth depth : ℕ) (name : String)
    (v : Json ν) : Json ν :=
  if isSensitiveKey toLowerCase name then redacted else sanitizeValue toLowerCase maxDepth depth v

theorem sanitizeMembers_eq_map (depth : ℕ) {members : List (String × Json ν)}
    (h : ∀ m ∈ members, m.1 ≠ "__proto__") :
    sanitizeMembers toLowerCase maxDepth depth members =
      members.map fun m => (m.1, sanitizeMember toLowerCase maxDepth depth m.1 m.2) := by
  induction members with
  | nil => rfl
  | cons m members ih =>
    rw [List.forall_mem_cons] at h
    rw [sanitizeMembers, ih h.2, List.map_cons, sanitizeMember, if_neg h.1]
    split_ifs <;> rfl

theorem lookup_map_snd (f : String → Json ν → Json ν) (members : List (String × Json ν))
    (name : String) :
    (members.map fun m => (m.1, f m.1 m.2)).lookup name = (members.lookup name).map (f name) := by
  induction members with
  | nil => rfl
  | cons m members ih =>
    rw [List.map_cons, List.lookup_cons, List.lookup_cons, ih]
    cases hname : name == m.1 with
    | true => rw [beq_iff_eq.mp hname]; rfl
    | false => rfl

theorem sanitizeValue_deep (h : maxDepth < depth) :
    sanitizeValue toLowerCase maxDepth depth v = redacted := by
  cases v <;> simp [sanitizeValue, h]

theorem sanitizeValue_arr (h : depth ≤ maxDepth) :
    sanitizeValue toLowerCase maxDepth depth (.arr items) =
      .arr (items.map (sanitizeValue toLowerCase maxDepth (depth + 1))) := by
  rw [sanitizeValue, if_neg (Nat.not_lt.mpr h), sanitizeItems_eq_map]

theorem sanitizeValue_obj (h : depth ≤ maxDepth)
    (hnames : ∀ m ∈ members, m.1 ≠ "__proto__" ∧ m.1 ≠ "constructor") :
    sanitizeValue toLowerCase maxDepth depth (.obj members) =
      .obj (members.map fun m =>
        (m.1, sanitizeMember toLowerCase maxDepth (depth + 1) m.1 m.2)) := by
  rw [sanitizeValue, if_neg (Nat.not_lt.mpr h),
    passesForDecimal_eq_false fun m hm => (hnames m hm).2, if_neg Bool.false_ne_true,
    sanitizeMembers_eq_map (depth + 1) fun m hm => (hnames m hm).1]

/-- Down to the limit a value keeps its shape. -/
theorem shape_sanitizeValue (h : depth ≤ maxDepth) (hplain : Plain v) :
    (sanitizeValue toLowerCase maxDepth depth v).shape = v.shape := by
  cases v with
  | arr items => rw [sanitizeValue_arr h, Json.shape, Json.shape, List.length_map]
  | obj members =>
    rw [sanitizeValue_obj h fun _ => hplain.ne, Json.shape, Json.shape, List.map_map]
    rfl
  | _ => rw [sanitizeValue, if_neg (Nat.not_lt.mpr h)] <;> simp

/-- What becomes of what one step leads to. -/
def sanitizeChild (toLowerCase : String → String) (maxDepth depth : ℕ) : Step → Json ν → Json ν
  | .item _ => sanitizeValue toLowerCase maxDepth depth
  | .member name => sanitizeMember toLowerCase maxDepth depth name

theorem child_sanitizeValue (h : depth ≤ maxDepth) (hplain : Plain v) (step : Step) :
    (sanitizeValue toLowerCase maxDepth depth v).child step =
      (v.child step).map (sanitizeChild toLowerCase maxDepth (depth + 1) step) := by
  cases v with
  | arr items =>
    rw [sanitizeValue_arr h]
    cases step with
    | item i => exact List.getElem?_map
    | member name => rfl
  | obj members =>
    rw [sanitizeValue_obj h fun _ => hplain.ne]
    cases step with
    | item i => rfl
    | member name =>
      exact lookup_map_snd (sanitizeMember toLowerCase maxDepth (depth + 1)) members name
  | _ =>
    rw [sanitizeValue, if_neg (Nat.not_lt.mpr h)]
    all_goals simp [Json.child]

theorem child_sanitizeValue_deep (h : maxDepth < depth) (step : Step) :
    (sanitizeValue toLowerCase maxDepth depth v).child step = none := by
  rw [sanitizeValue_deep h]
  cases step <;> rfl

/-! ### Under sensitive names -/

/-- What is found under a sensitive name in the result. -/
theorem at_sanitizeValue_sensitive (hname : isSensitiveKey toLowerCase name = true)
    (path : List Step) (hplain : Plain v)
    (h : (sanitizeValue toLowerCase maxDepth depth v).at (path ++ [.member name]) = some w) :
    w = redacted := by
  induction path generalizing v depth with
  | nil =>
    rw [List.nil_append, Json.at_cons] at h
    by_cases hdepth : depth ≤ maxDepth
    · rw [child_sanitizeValue hdepth hplain] at h
      cases hchild : v.child (.member name) with
      | none => simp [hchild] at h
      | some u => simpa [hchild, sanitizeChild, sanitizeMember, hname, eq_comm] using h
    · rw [child_sanitizeValue_deep (Nat.not_le.mp hdepth)] at h
      cases h
  | cons step path ih =>
    rw [List.cons_append, Json.at_cons] at h
    by_cases hdepth : depth ≤ maxDepth
    · rw [child_sanitizeValue hdepth hplain] at h
      cases hchild : v.child step with
      | none => simp [hchild] at h
      | some u =>
        rw [hchild, Option.map_some, Option.bind_some] at h
        -- below a sensitive name there are no places
        have hkept : sanitizeChild toLowerCase maxDepth (depth + 1) step u =
            sanitizeValue toLowerCase maxDepth (depth + 1) u := by
          cases step with
          | item i => rfl
          | member name' =>
            by_contra hredacted
            rw [sanitizeChild, sanitizeMember] at hredacted h
            split_ifs at hredacted h
            · cases path <;> simp [redacted, Json.at_cons, Json.child] at h
            · exact hredacted rfl
        rw [hkept] at h
        exact ih (hplain.child hchild) h
    · rw [child_sanitizeValue_deep (Nat.not_le.mp hdepth)] at h
      cases h

mutual

/-- What is under sensitive names does not show. -/
theorem sanitizeValue_congr : ∀ (v w : Json ν) (depth : ℕ), Plain v → Plain w →
    Json.AgreeBut (isSensitiveKey toLowerCase) v w →
    sanitizeValue toLowerCase maxDepth depth v = sanitizeValue toLowerCase maxDepth depth w
  | .arr items, w, depth, hv, hw, h => by
    cases w with
    | arr items' =>
      by_cases hdepth : depth ≤ maxDepth
      · rw [sanitizeValue_arr hdepth, sanitizeValue_arr hdepth]
        rw [items_congr items items' (depth + 1) (fun _ => hv.item) (fun _ => hw.item) h]
      · rw [sanitizeValue_deep (Nat.not_le.mp hdepth), sanitizeValue_deep (Nat.not_le.mp hdepth)]
    | _ => exact absurd h (by simp [Json.AgreeBut])
  | .obj members, w, depth, hv, hw, h => by
    cases w with
    | obj members' =>
      by_cases hdepth : depth ≤ maxDepth
      · rw [sanitizeValue_obj hdepth fun _ => hv.ne, sanitizeValue_obj hdepth fun _ => hw.ne]
        rw [members_congr members members' (depth + 1) (fun _ => hv.member) (fun _ => hw.member) h]
      · rw [sanitizeValue_deep (Nat.not_le.mp hdepth), sanitizeValue_deep (Nat.not_le.mp hdepth)]
    | _ => exact absurd h (by simp [Json.AgreeBut])
  | .null, w, _, _, _, h => by cases w <;> simp_all [Json.AgreeBut]
  | .bool _, w, _, _, _, h => by cases w <;> simp_all [Json.AgreeBut]
  | .num _, w, _, _, _, h => by cases w <;> simp_all [Json.AgreeBut]
  | .str _, w, _, _, _, h => by cases w <;> simp_all [Json.AgreeBut]

theorem items_congr : ∀ (items items' : List (Json ν)) (depth : ℕ), (∀ v ∈ items, Plain v) →
    (∀ v ∈ items', Plain v) → Json.ItemsAgree (isSensitiveKey toLowerCase) items items' →
    items.map (sanitizeValue toLowerCase maxDepth depth) =
      items'.map (sanitizeValue toLowerCase maxDepth depth)
  | [], items', _, _, _, h => by
    cases items' with
    | nil => rfl
    | cons => exact absurd h (by simp [Json.ItemsAgree])
  | v :: items, items', depth, hv, hw, h => by
    cases items' with
    | nil => exact absurd h (by simp [Json.ItemsAgree])
    | cons w items' =>
      rw [List.forall_mem_cons] at hv hw
      rw [List.map_cons, List.map_cons, sanitizeValue_congr v w depth hv.1 hw.1 h.1,
        items_congr items items' depth hv.2 hw.2 h.2]

theorem members_congr : ∀ (members members' : List (String × Json ν)) (depth : ℕ),
    (∀ m ∈ members, Plain m.2) → (∀ m ∈ members', Plain m.2) →
    Json.MembersAgree (isSensitiveKey toLowerCase) members members' →
    members.map (fun m => (m.1, sanitizeMember toLowerCase maxDepth depth m.1 m.2)) =
      members'.map (fun m => (m.1, sanitizeMember toLowerCase maxDepth depth m.1 m.2))
  | [], members', _, _, _, h => by
    cases members' with
    | nil => rfl
    | cons => exact absurd h (by simp [Json.MembersAgree])
  | (name, v) :: members, members', depth, hv, hw, h => by
    cases members' with
    | nil => exact absurd h (by simp [Json.MembersAgree])
    | cons m' members' =>
      obtain ⟨name', w⟩ := m'
      obtain ⟨rfl, hvalue, hrest⟩ := h
      rw [List.forall_mem_cons] at hv hw
      have hmember : sanitizeMember toLowerCase maxDepth depth name v =
          sanitizeMember toLowerCase maxDepth depth name w := by
        unfold sanitizeMember
        split_ifs with hname
        · rfl
        · exact sanitizeValue_congr v w depth hv.1 hw.1 (hvalue.resolve_left hname)
      rw [List.map_cons, List.map_cons, members_congr members members' depth hv.2 hw.2 hrest,
        hmember]

end

/-! ### Elsewhere -/

/-- No name on the way is sensitive. -/
def Clear (toLowerCase : String → String) (path : List Step) : Prop :=
  ∀ name, .member name ∈ path → isSensitiveKey toLowerCase name = false

/-- The other places, down to the limit. -/
theorem shape_at_sanitizeValue (path : List Step) (hclear : Clear toLowerCase path)
    (hplain : Plain v) (hlength : depth + path.length ≤ maxDepth) :
    ((sanitizeValue toLowerCase maxDepth depth v).at path).map Json.shape =
      (v.at path).map Json.shape := by
  induction path generalizing v depth with
  | nil =>
    rw [Json.at_nil, Json.at_nil, Option.map_some, Option.map_some,
      shape_sanitizeValue (by simpa using hlength) hplain]
  | cons step path ih =>
    rw [List.length_cons] at hlength
    have hchild : sanitizeChild toLowerCase maxDepth (depth + 1) step =
        sanitizeValue (ν := ν) toLowerCase maxDepth (depth + 1) := by
      cases step with
      | item i => rfl
      | member name =>
        funext w
        rw [sanitizeChild, sanitizeMember, hclear name (by simp), if_neg Bool.false_ne_true]
    rw [Json.at_cons, Json.at_cons, child_sanitizeValue (by omega) hplain, hchild]
    cases hw : v.child step with
    | none => rfl
    | some w =>
      apply ih _ (hplain.child hw) (by omega)
      intro name hname
      exact hclear name (List.mem_cons_of_mem _ hname)

/-! ### A second time -/

mutual

/-- A second time nothing changes. -/
theorem sanitizeValue_idem : ∀ (v : Json ν) (depth : ℕ), Plain v →
    sanitizeValue toLowerCase maxDepth depth (sanitizeValue toLowerCase maxDepth depth v) =
      sanitizeValue toLowerCase maxDepth depth v
  | .arr items, depth, hv => by
    by_cases hdepth : depth ≤ maxDepth
    · rw [sanitizeValue_arr hdepth, sanitizeValue_arr hdepth,
        items_idem items (depth + 1) fun _ => hv.item]
    · rw [sanitizeValue_deep (Nat.not_le.mp hdepth), sanitizeValue_deep (Nat.not_le.mp hdepth)]
  | .obj members, depth, hv => by
    by_cases hdepth : depth ≤ maxDepth
    · rw [sanitizeValue_obj hdepth fun _ => hv.ne, sanitizeValue_obj hdepth,
        members_idem members (depth + 1) fun _ => hv.member]
      -- the members of the result have the names of the old ones
      intro m hm
      obtain ⟨m', hm', rfl⟩ := List.mem_map.mp hm
      have hne := hv.ne hm'
      exact hne
    · rw [sanitizeValue_deep (Nat.not_le.mp hdepth), sanitizeValue_deep (Nat.not_le.mp hdepth)]
  | .null, depth, _ => by by_cases h : maxDepth < depth <;> simp [sanitizeValue, h, redacted]
  | .bool b, depth, _ => by by_cases h : maxDepth < depth <;> simp [sanitizeValue, h, redacted]
  | .num n, depth, _ => by by_cases h : maxDepth < depth <;> simp [sanitizeValue, h, redacted]
  | .str s, depth, _ => by by_cases h : maxDepth < depth <;> simp [sanitizeValue, h, redacted]

theorem items_idem : ∀ (items : List (Json ν)) (depth : ℕ), (∀ v ∈ items, Plain v) →
    (items.map (sanitizeValue toLowerCase maxDepth depth)).map
      (sanitizeValue toLowerCase maxDepth depth) =
        items.map (sanitizeValue toLowerCase maxDepth depth)
  | [], _, _ => rfl
  | v :: items, depth, h => by
    rw [List.forall_mem_cons] at h
    rw [List.map_cons, List.map_cons, sanitizeValue_idem v depth h.1, items_idem items depth h.2]

theorem members_idem : ∀ (members : List (String × Json ν)) (depth : ℕ),
    (∀ m ∈ members, Plain m.2) →
    (members.map fun m => (m.1, sanitizeMember toLowerCase maxDepth depth m.1 m.2)).map
      (fun m => (m.1, sanitizeMember toLowerCase maxDepth depth m.1 m.2)) =
        members.map fun m => (m.1, sanitizeMember toLowerCase maxDepth depth m.1 m.2)
  | [], _, _ => rfl
  | (name, v) :: members, depth, h => by
    rw [List.forall_mem_cons] at h
    have hmember : sanitizeMember toLowerCase maxDepth depth name
        (sanitizeMember toLowerCase maxDepth depth name v) =
          sanitizeMember toLowerCase maxDepth depth name v := by
      unfold sanitizeMember
      split_ifs
      · rfl
      · exact sanitizeValue_idem v depth h.1
    rw [List.map_cons, List.map_cons, members_idem members depth h.2, hmember]

end

/-- **Audit records carry no secrets.** -/
theorem audit_redacted (toLowerCase : String → String) (v w : Json ν) (hv : Plain v)
    (hw : Plain w) :
    (∀ path name u, isSensitiveKey toLowerCase name = true →
      (sanitizeValue toLowerCase 8 0 v).at (path ++ [.member name]) = some u → u = redacted) ∧
    (Json.AgreeBut (isSensitiveKey toLowerCase) v w →
      sanitizeValue toLowerCase 8 0 v = sanitizeValue toLowerCase 8 0 w) ∧
    (∀ path, path.length ≤ 8 → Clear toLowerCase path →
      ((sanitizeValue toLowerCase 8 0 v).at path).map Json.shape = (v.at path).map Json.shape) ∧
    sanitizeValue toLowerCase 8 0 (sanitizeValue toLowerCase 8 0 v) =
      sanitizeValue toLowerCase 8 0 v := by
  refine ⟨?_, ?_, ?_, ?_⟩
  · intro path name u hname h
    exact at_sanitizeValue_sensitive hname path hv h
  · intro hagree
    exact sanitizeValue_congr v w 0 hv hw hagree
  · intro path hlength hclear
    exact shape_at_sanitizeValue path hclear hv (by omega)
  · exact sanitizeValue_idem v 0 hv

/-- Two records of a user, with different passwords in them. -/
def oldUser : Json ℕ := .obj [("name", .str "Asha"), ("login", .obj [("pass_word", .str "one")])]

def newUser : Json ℕ := .obj [("name", .str "Asha"), ("login", .obj [("pass_word", .str "two")])]

theorem audit_redacted_users :
    sanitizeValue String.toLower 8 0 oldUser = sanitizeValue String.toLower 8 0 newUser := by
  have hsensitive : isSensitiveKey String.toLower "pass_word" = true := by decide +kernel
  have hold : Plain oldUser := by
    simp [Plain, oldUser, Json.names, Json.namesOfMembers]
  have hnew : Plain newUser := by
    simp [Plain, newUser, Json.names, Json.namesOfMembers]
  apply (audit_redacted String.toLower oldUser newUser hold hnew).2.1
  simp [oldUser, newUser, Json.AgreeBut, Json.MembersAgree, hsensitive]

end PulseOps.Audit
