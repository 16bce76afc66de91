import PulseOps.Model.CacheService
import PulseOps.ReadCommitted.LastWrites
import PulseOps.ReadCommitted.Tables

/-!
# Hits and the misses that filled them

What a request finds in the cache under a key is what the last turn has stored there that stored
anything under it, less the members that are not stored. Whoever stored it has answered with the
whole value. So a hit equals the miss that filled it if no name in the value, at any depth, looks
like that of a secret, and otherwise it lacks these members.

## Main definitions

* `stores` — the turns that store a value, and those that delete one.
* `Fills` — what a request that stores a value answers.

## Main results

* `stripSensitive_eq` — which members are not stored.
* `describes` — what one turn does to an entry.
* `hits_stripped` — what a hit is of the miss that filled it.
-/

set_option autoImplicit false

open ReadCommitted

namespace PulseOps.CacheService

variable {ν : Type} {R : Runtime ν} {requests : List (Request ν)}
  {c : Interleaved Redis (Phase ν)} {s : Redis} {i j : ℕ} {key : String} {value v w : Json.Value ν}
  {req : Request ν} {phase : Phase ν} {answer : Answer ν}

/-! ### What is stored -/

/-- The names whose members are not stored. -/
def unstored (R : Runtime ν) (name : String) : Bool :=
  isSensitiveKey R.toLowerCase name || name = "__proto__"

mutual

/-- Which members are not stored. -/
theorem stripSensitive_eq (R : Runtime ν) : ∀ v : Json ν,
    stripSensitive R v = v.without (unstored R)
  | .null => by simp [stripSensitive, Json.without]
  | .bool _ => by simp [stripSensitive, Json.without]
  | .num _ => by simp [stripSensitive, Json.without]
  | .str _ => by simp [stripSensitive, Json.without]
  | .arr items => by rw [stripSensitive, Json.without, stripItems_eq R items]
  | .obj members => by rw [stripSensitive, Json.without, stripMembers_eq R members]

theorem stripItems_eq (R : Runtime ν) : ∀ items : List (Json ν),
    stripItems R items = Json.itemsWithout (unstored R) items
  | [] => rfl
  | v :: items => by
    rw [stripItems, Json.itemsWithout, stripSensitive_eq R v, stripItems_eq R items]

theorem stripMembers_eq (R : Runtime ν) : ∀ members : List (String × Json ν),
    stripMembers R members = Json.membersWithout (unstored R) members
  | [] => rfl
  | (name, v) :: members => by
    rw [stripMembers, Json.membersWithout, stripSensitive_eq R v, stripMembers_eq R members]
    by_cases hsensitive : isSensitiveKey R.toLowerCase name = true
    · simp [unstored, hsensitive]
    · simp [unstored, hsensitive]

end

/-- What is stored of a value. -/
def stripped (R : Runtime ν) (v : Json.Value ν) : Json.Value ν :=
  ⟨stripSensitive R v.1, by rw [stripSensitive_eq]; exact Json.distinct_without _ v.1 v.2⟩

/-- Without `__proto__` it is the value less its secrets. -/
theorem stripped_val (h : "__proto__" ∉ v.1.names) :
    (stripped R v).1 = v.1.without (isSensitiveKey R.toLowerCase) := by
  change stripSensitive R v.1 = _
  rw [stripSensitive_eq]
  apply Json.without_congr
  intro name hname
  have hproto : name ≠ "__proto__" := by
    rintro rfl
    exact h hname
  simp [unstored, hproto]

theorem stripped_eq_self_iff (h : "__proto__" ∉ v.1.names) :
    stripped R v = v ↔ ∀ name ∈ v.1.names, ¬ isSensitiveKey R.toLowerCase name := by
  rw [Subtype.ext_iff, stripped_val h, Json.without_eq_self_iff]

/-- What is read of a text that was stored. -/
theorem get_of_lookup (h : s.lookup key = some (Json.write R.numbers (stripSensitive R v.1))) :
    get R s key .answered = stripped R v := by
  have hparse := Json.parseValue_write R.numbers (stripped R v)
  rw [stripped] at hparse
  simp [get, h, hparse, stripped]

theorem get_of_lookup_none (h : s.lookup key = none) : get R s key .answered = null := by
  simp [get, h]

/-! ### One turn -/

/-- Requests that are about to begin, with an empty cache. -/
def start (requests : List (Request ν)) : Interleaved Redis (Phase ν) :=
  ⟨∅, requests.map Request.begin⟩

/-- The state after the turns of a schedule. -/
def after (R : Runtime ν) (requests : List (Request ν)) (schedule : List ℕ) :
    Interleaved Redis (Phase ν) :=
  Interleaved.run (advance R) requests (start requests) schedule

/-- The turns that store a value under a key, and those that delete the key. -/
def stores (requests : List (Request ν)) : Writes Redis (Phase ν) String (Json.Value ν) where
  put c i key value := ∃ req entries answer, requests[i]? = some req ∧
    c.phases[i]? = some (.filling ((key, value) :: entries) answer) ∧ req.set key ≠ .refused
  clear c i key := ∃ req keys outcome batches answer, requests[i]? = some req ∧
    c.phases[i]? = some (.deleting ((keys, outcome) :: batches) answer) ∧
    outcome ≠ .refused ∧ key ∈ keys

/-- What one turn does to an entry. -/
theorem describes (R : Runtime ν) (requests : List (Request ν)) :
    (stores requests).Describes (advance R) requests (fun s key => s.lookup key)
      (fun v => Json.write R.numbers (stripSensitive R v.1)) where
  put := by
    rintro c i key value ⟨req, entries, answer, hreq, hphase, houtcome⟩
    simp only [Interleaved.step, hreq, hphase]
    cases entries <;> simp [advance, set, houtcome]
  clear := by
    rintro c i key ⟨req, keys, outcome, batches, answer, hreq, hphase, houtcome, hkey⟩
    simp only [Interleaved.step, hreq, hphase]
    simp [advance, del, houtcome, AList.lookup_foldl_erase, hkey]
  frame := by
    intro c i key htouch
    unfold Interleaved.step
    split
    next req phase hreq hphase =>
      cases phase with
      | looking => rfl
      | loading => rfl
      | filling entries answer =>
        cases entries with
        | nil => rfl
        | cons entry entries =>
          -- the value goes to another key, or the command has no effect
          have hentry : req.set entry.1 ≠ .refused → key ≠ entry.1 := by
            rintro houtcome rfl
            exact htouch (.inl ⟨entry.2, req, entries, answer, hreq, hphase, houtcome⟩)
          have hset : (set R c.store entry.1 entry.2.1 (req.set entry.1)).lookup key =
              c.store.lookup key := by
            unfold set
            split_ifs with houtcome
            · rfl
            · exact AList.lookup_insert_ne (hentry houtcome)
          cases entries <;> exact hset
      | deleting batches answer =>
        cases batches with
        | nil => rfl
        | cons batch batches =>
          have hbatch : batch.2 ≠ .refused → key ∉ batch.1 := by
            intro houtcome hkey
            exact htouch
              (.inr ⟨req, batch.1, batch.2, batches, answer, hreq, hphase, houtcome, hkey⟩)
          change (del c.store batch.1 batch.2).lookup key = c.store.lookup key
          unfold del
          split_ifs with houtcome
          · rfl
          · rw [AList.lookup_foldl_erase, if_neg (hbatch houtcome)]
      | done answer => rfl
    next => rfl

/-! ### What the requests answer -/

/-- What a request that stores a value under a key answers. A tenant is stored by `getById` with
its settings. -/
def Answers (req : Request ν) (key : String) (value : Json.Value ν) (answer : Answer ν) : Prop :=
  match req.call with
  | .set key' value' => key' = key ∧ value' = value
  | .getOrSet key' => key' = key ∧ answer = .found (some value) false
  | .getById id => ∃ tenant, answer = .value tenant ∧
      (tenantKey id = some key ∧ value = tenant ∨
        tenantSettingsKey id = some key ∧ value = member tenant "settings")
  | .getSettings id => tenantSettingsKey id = some key ∧ answer = .value value
  | _ => False

/-- The answer of a request that has nothing more to look up. -/
def Phase.settled : Phase ν → Option (Answer ν)
  | .filling _ answer => some answer
  | .done answer => some answer
  | _ => none

/-- What a request is about to store goes with its answer. -/
def Sound (req : Request ν) (phase : Phase ν) : Prop :=
  ∀ entries answer, phase = .filling entries answer → ∀ e ∈ entries, Answers req e.1 e.2 answer

theorem sound_of_not_filling (h : ∀ entries answer, phase ≠ .filling entries answer) :
    Sound req phase :=
  fun entries answer hphase => absurd hphase (h entries answer)

theorem sound_begin (req : Request ν) : Sound req req.begin := by
  unfold Request.begin
  split
  case h_2 key value hcall =>
    intro entries answer hphase
    cases hphase
    simp [Answers, hcall]
  case h_6 id hcall => cases tenantKey id <;> exact sound_of_not_filling (by simp)
  case h_7 id hcall => cases tenantSettingsKey id <;> exact sound_of_not_filling (by simp)
  all_goals exact sound_of_not_filling (by simp)

theorem sound_looked (cached : Json.Value ν) : Sound req (req.looked R cached) := by
  apply sound_of_not_filling
  intro entries answer
  unfold Request.looked
  split
  · split <;> simp
  · split_ifs <;> simp
  · split_ifs <;> simp
  · simp

theorem sound_loaded : Sound req (req.loaded R) := by
  unfold Request.loaded
  split
  case h_1 key value hcall _ =>
    split
    · exact sound_of_not_filling (by simp)
    · intro entries answer hphase
      cases hphase
      simp [Answers, hcall]
  case h_3 id tenant hcall _ =>
    split
    next key settingsKey hkey hsettingsKey =>
      split_ifs
      · intro entries answer hphase e he
        cases hphase
        -- the tenant goes under its own key, and its settings under theirs
        have hentry : e = (key, tenant) ∨ e = (settingsKey, member tenant "settings") := by
          rw [List.mem_cons] at he
          apply he.imp_right
          intro hsettings
          split_ifs at hsettings
          · exact List.mem_singleton.mp hsettings
          · cases hsettings
        rw [Answers, hcall]
        refine ⟨tenant, rfl, ?_⟩
        rcases hentry with rfl | rfl
        · exact .inl ⟨hkey, rfl⟩
        · exact .inr ⟨hsettingsKey, rfl⟩
      · exact sound_of_not_filling (by simp)
    next => exact sound_of_not_filling (by simp)
  case h_4 id tenant hcall _ =>
    split
    next key hkey =>
      split_ifs
      · intro entries answer hphase e he
        cases hphase
        have hentry : e = (key, member tenant "settings") := by
          split_ifs at he
          · exact List.mem_singleton.mp he
          · cases he
        rw [Answers, hcall, hentry]
        exact ⟨hkey, rfl⟩
      · exact sound_of_not_filling (by simp)
    next => exact sound_of_not_filling (by simp)
  all_goals exact sound_of_not_filling (by simp)

theorem sound_advance (h : Sound req phase) : Sound req (advance R req s phase).2 := by
  cases phase with
  | looking key => exact sound_looked _
  | loading => exact sound_loaded
  | filling entries answer =>
    match entries, h with
    | [], _ => exact sound_of_not_filling (by simp [advance])
    | [_], _ => exact sound_of_not_filling (by simp [advance])
    | _ :: entry :: entries, h =>
      intro entries' answer' hphase e he
      cases hphase
      exact h _ _ rfl e (List.mem_cons_of_mem _ he)
  | deleting batches answer =>
    apply sound_of_not_filling
    cases batches with
    | nil => simp [advance]
    | cons batch batches =>
      simp only [advance]
      split_ifs <;> simp
  | done answer => exact h

/-- An answer that stands stays. -/
theorem settled_advance (h : phase.settled = some answer) :
    (advance R req s phase).2.settled = some answer := by
  cases phase with
  | filling entries answer' =>
    match entries with
    | [] => exact h
    | [_] => exact h
    | _ :: _ :: _ => exact h
  | done answer' => exact h
  | _ => cases h

theorem reaches_after (R : Runtime ν) (requests : List (Request ν)) (schedule : List ℕ) :
    Interleaved.Reaches (advance R) requests (fun _ _ _ => True) (start requests)
      (after R requests schedule) :=
  Interleaved.Reaches.refl.run_all schedule

/-- Every request stores what goes with its answer. -/
theorem sound_after (schedule : List ℕ) (hreq : requests[i]? = some req)
    (hphase : (after R requests schedule).phases[i]? = some phase) : Sound req phase := by
  have hall := (reaches_after R requests schedule).induction
    (P := fun c => ∀ (i : ℕ) (req : Request ν) (phase : Phase ν), requests[i]? = some req →
      c.phases[i]? = some phase → Sound req phase) ?_ ?_
  · exact hall i req phase hreq hphase
  · intro i req phase hreq hphase
    rw [start, List.getElem?_map, hreq] at hphase
    cases hphase
    exact sound_begin req
  · intro c i req phase hreq hphase _ hsound j req' phase' hreq' hphase'
    rcases Interleaved.getElem?_after hphase' with ⟨rfl, rfl⟩ | ⟨_, hold⟩
    · obtain rfl : req = req' := Option.some.inj (hreq.symm.trans hreq')
      exact sound_advance (hsound j req phase hreq hphase)
    · exact hsound j req' phase' hreq' hold

/-- Who has stored a value answers with it from then on. -/
theorem settled_run (schedule : List ℕ)
    (h : (c.phases[j]?).bind Phase.settled = some answer) :
    ((Interleaved.run (advance R) requests c schedule).phases[j]?).bind Phase.settled =
      some answer := by
  have hrefl : Interleaved.Reaches (advance R) requests (fun _ _ _ => True) c c := .refl
  have hreaches := hrefl.run_all schedule
  apply hreaches.induction (P := fun c => (c.phases[j]?).bind Phase.settled = some answer) h
  intro c i req phase _ hphase _ hsettled
  by_cases hji : j = i
  · subst hji
    rw [hphase] at hsettled
    rw [Interleaved.after, List.getElem?_set_self', hphase]
    exact settled_advance hsettled
  · rw [Interleaved.after, List.getElem?_set_ne (Ne.symm hji)]
    exact hsettled

/-! ### Hits -/

/-- The turn of `j` in the schedule is the last that stored anything under the key, and it stored
the value. -/
def FilledBy (R : Runtime ν) (requests : List (Request ν)) (schedule : List ℕ) (j : ℕ)
    (key : String) (value : Json.Value ν) : Prop :=
  (stores requests).Last (advance R) requests (start requests) schedule j key value

/-- Who filled an entry answers with the value. -/
theorem FilledBy.answers {schedule : List ℕ} (h : FilledBy R requests schedule j key value) :
    ∃ req answer, requests[j]? = some req ∧ Answers req key value answer ∧
      ((after R requests schedule).phases[j]?).bind Phase.settled = some answer := by
  obtain ⟨before, later, rfl, ⟨req, entries, answer, hreq, hphase, -⟩, -⟩ := h
  refine ⟨req, answer, hreq, ?_, ?_⟩
  · exact sound_after before hreq hphase _ _ rfl (key, value) (by simp)
  · rw [after, Interleaved.run_append]
    apply settled_run
    rw [hphase]
    rfl

/-- What a look at an entry finds. -/
theorem get_after (R : Runtime ν) (requests : List (Request ν)) (schedule : List ℕ)
    (key : String) :
    (∃ j v, FilledBy R requests schedule j key v ∧
      get R (after R requests schedule).store key .answered = stripped R v) ∨
    ((∀ j v, ¬ FilledBy R requests schedule j key v) ∧
      get R (after R requests schedule).store key .answered = null) := by
  have hempty : (start requests).store.lookup key = none := rfl
  rcases (describes R requests).kept hempty schedule with ⟨j, v, hlast, hkept⟩ | ⟨hnone, hkept⟩
  · exact .inl ⟨j, v, hlast, get_of_lookup hkept⟩
  · exact .inr ⟨hnone, get_of_lookup_none hkept⟩

/-- A request that answers at once answers with what it has found. -/
theorem looked_eq (hlooked : req.looked R w = .done answer)
    (hvalue : answer = .found (some v) true ∨ answer = .value v) : v = w := by
  unfold Request.looked at hlooked
  split at hlooked
  · split at hlooked
    · cases hlooked
    · cases hlooked
      simpa [eq_comm] using hvalue
  · split_ifs at hlooked
    cases hlooked
    simpa [eq_comm] using hvalue
  · split_ifs at hlooked
    cases hlooked
    simpa [eq_comm] using hvalue
  · cases hlooked
    simpa [eq_comm] using hvalue

/-- **Hits.** What a request answers from the cache was stored by the last turn that stored
anything under the key, and the request that took it answers with the whole value. Without a
`__proto__` in the value the hit is the value less the members whose names look like those of
secrets, at every depth. Only `get` also answers, with `null`, when nothing is stored. -/
theorem hits_stripped {schedule : List ℕ} (hreq : requests[i]? = some req)
    (hget : req.get = .answered)
    (hlooking : (after R requests schedule).phases[i]? = some (.looking key))
    (hdone : (after R requests (schedule ++ [i])).phases[i]? = some (.done answer))
    (hw : answer = .found (some w) true ∨ answer = .value w) :
    (∃ j v filler filled, FilledBy R requests schedule j key v ∧
      requests[j]? = some filler ∧ Answers filler key v filled ∧
      ((after R requests schedule).phases[j]?).bind Phase.settled = some filled ∧
      ("__proto__" ∉ v.1.names → w.1 = v.1.without (isSensitiveKey R.toLowerCase) ∧
        (w = v ↔ ∀ name ∈ v.1.names, ¬ isSensitiveKey R.toLowerCase name))) ∨
    ((∀ j v, ¬ FilledBy R requests schedule j key v) ∧ w = null) := by
  have hfound : w = get R (after R requests schedule).store key .answered := by
    rw [after, Interleaved.run_concat, Interleaved.step] at hdone
    rw [after] at hlooking
    simp only [hreq, hlooking] at hdone
    rw [List.getElem?_set_self', hlooking] at hdone
    simp only [advance, hget] at hdone
    exact looked_eq (Option.some.inj hdone) hw
  rcases get_after R requests schedule key with ⟨j, v, hfilled, hv⟩ | ⟨hnone, hnull⟩
  · left
    obtain ⟨filler, filled, hfiller, hanswers, hsettled⟩ := hfilled.answers
    refine ⟨j, v, filler, filled, hfilled, hfiller, hanswers, hsettled, ?_⟩
    intro hproto
    rw [hfound, hv]
    exact ⟨stripped_val hproto, stripped_eq_self_iff hproto⟩
  · exact .inr ⟨hnone, hfound.trans hnull⟩

private theorem numeric_of_isDigit {c : Char} (h : c.isDigit = true) : Json.numeric c = true := by
  have hall : ∀ n < 10, Json.numeric (Char.ofNat (48 + n)) = true := by decide
  have hbounds : 48 ≤ c.toNat ∧ c.toNat ≤ 57 := by
    simpa [Char.isDigit, UInt32.le_iff_toNat_le] using h
  have hc := hall (c.toNat - 48) (by omega)
  rwa [show 48 + (c.toNat - 48) = c.toNat by omega, Char.ofNat_toNat] at hc

/-- Natural numbers by their decimal digits. -/
def decimals : Json.Numbers ℕ where
  text n := Nat.toDigits 10 n
  read text :=
    if text ≠ [] ∧ text.all Char.isDigit then some (Nat.ofDigitChars 10 text 0) else none
  read_text n := by
    have hdigits : ∀ c ∈ Nat.toDigits 10 n, c.isDigit = true := fun c hc =>
      Nat.isDigit_of_mem_toDigits (by omega) (by omega) hc
    rw [if_pos ⟨Nat.toDigits_ne_nil, List.all_eq_true.mpr hdigits⟩, Nat.ofDigitChars_ten_toDigits]
  text_ne_nil n := Nat.toDigits_ne_nil
  numeric_of_mem n c hc :=
    numeric_of_isDigit (Nat.isDigit_of_mem_toDigits (by omega) (by omega) hc)

def node : Runtime ℕ := ⟨decimals, fun n => n = 0, String.toLower⟩

/-- A profile, with a name in it that begins like that of a secret. -/
def profile : Json.Value ℕ :=
  ⟨.obj [("name", .str "Asha"), ("secretary", .str "Meera")], by
    simp [Json.Distinct, Json.DistinctMembers]⟩

/-- What is stored of the profile. -/
def storedProfile : Json.Value ℕ :=
  ⟨.obj [("name", .str "Asha")], by simp [Json.Distinct, Json.DistinctMembers]⟩

/-- Two visits to the profile. -/
def visits : List (Request ℕ) :=
  [{ call := .getOrSet "profile", loads := .ok (some profile) }, { call := .getOrSet "profile" }]

theorem stripped_profile : stripped node profile = storedProfile := by
  have hname : isSensitiveKey node.toLowerCase "name" = false := by decide +kernel
  have hsecretary : isSensitiveKey node.toLowerCase "secretary" = true := by decide +kernel
  apply Subtype.ext
  simp [stripped, profile, storedProfile, stripSensitive, stripMembers, hname, hsecretary]

/-- After the first visit. -/
theorem visits_stored : after node visits [0, 0, 0] =
    ⟨AList.insert "profile" (Json.write node.numbers (stripSensitive node profile.1)) ∅,
      [.done (.found (some profile) false), .looking "profile"]⟩ := rfl

/-- The second visit is served from what the first one has stored. -/
theorem visits_phases : (after node visits [0, 0, 0, 1]).phases =
    [.done (.found (some profile) false), .done (.found (some storedProfile) true)] := by
  have hget : get node (after node visits [0, 0, 0]).store "profile" .answered = storedProfile := by
    rw [visits_stored, ← stripped_profile]
    exact get_of_lookup (AList.lookup_insert _)
  rw [visits_stored] at hget
  have hlast : after node visits ([0, 0, 0] ++ [1]) =
      Interleaved.step (advance node) visits (after node visits [0, 0, 0]) 1 :=
    Interleaved.run_concat _ _ _
  have hstep : (after node visits [0, 0, 0, 1]).phases =
      [.done (.found (some profile) false),
        (Request.looked node { call := .getOrSet "profile" } storedProfile)] := by
    rw [← hget, show [0, 0, 0, 1] = [0, 0, 0] ++ [1] from rfl, hlast, visits_stored]
    rfl
  exact hstep

/-- The visits to the profile. -/
theorem hits_stripped_profile : ∃ j v, FilledBy node visits [0, 0, 0] j "profile" v ∧
    ("__proto__" ∉ v.1.names →
      storedProfile.1 = v.1.without (isSensitiveKey node.toLowerCase)) := by
  have hlooking : (after node visits [0, 0, 0]).phases[1]? = some (.looking "profile") := by
    rw [visits_stored]
    rfl
  have hdone : (after node visits ([0, 0, 0] ++ [1])).phases[1]? =
      some (.done (.found (some storedProfile) true)) := by
    rw [show [0, 0, 0] ++ [1] = [0, 0, 0, 1] from rfl, visits_phases]
    rfl
  rcases hits_stripped rfl rfl hlooking hdone (.inl rfl) with
    ⟨j, v, _, _, hfilled, _, _, _, hstored⟩ | ⟨_, hnull⟩
  · exact ⟨j, v, hfilled, fun hproto => (hstored hproto).1⟩
  · have hvalue := congrArg Subtype.val hnull
    simp [storedProfile, null] at hvalue

/-- The second visit lacks a member that the first one has answered. -/
theorem secretary_not_in_hit :
    (after node visits [0, 0, 0, 1]).phases =
      [.done (.found (some profile) false), .done (.found (some storedProfile) true)] ∧
    (member profile "secretary").1 = .str "Meera" ∧
    (member storedProfile "secretary").1 = .null ∧ storedProfile ≠ profile := by
  refine ⟨visits_phases, ?_, ?_, ?_⟩
  · rfl
  · rfl
  · intro heq
    have hvalue := congrArg Subtype.val heq
    simp [storedProfile, profile] at hvalue

end PulseOps.CacheService
