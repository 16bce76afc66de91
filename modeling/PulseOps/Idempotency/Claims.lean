import Mathlib.Data.List.Induction
import PulseOps.Model.Idempotency

/-!
# Who holds an idempotency key

A row of the table belongs to the one request that has inserted it and whose execution is
still going on or has ended in a 2xx answer. Whatever a request does, it keeps this.

## Main definitions

* `Moves` — everything the next step of a request can do.
* `Claims` — the request holds the key, and the row it has there.
* `Consistent` — the rows of the table are those of the requests that hold them.

## Main results

* `moves_of_step` — a step is one of the moves.
* `consistent_run` — every run keeps the table consistent.
-/

set_option autoImplicit false

namespace PulseOps.Idempotency

variable {ρ β Shop : Type} {sha256 : String → String}
  {handler : Request ρ → Shop → Shop × Response β} {requests : List (Request ρ)}
  {req : Request ρ} {keys keys' : Table Key (IdempotencyKey β)} {shop shop' : Shop}
  {c c' : System β Shop} {i j : ℕ} {k : Key}

/-! ### Steps -/

/-- Everything the next step of a request can do. -/
inductive Moves (sha256 : String → String) (handler : Request ρ → Shop → Shop × Response β)
    (req : Request ρ) (keys : Table Key (IdempotencyKey β)) (shop : Shop) :
    Phase β → Table Key (IdempotencyKey β) → Shop → Phase β → Prop
  | unkeyed (hreq : admission req = .unkeyed) :
      Moves sha256 handler req keys shop .arrived keys shop (.executing none)
  | invalid (hreq : admission req = .invalid) :
      Moves sha256 handler req keys shop .arrived keys shop (.done (.refused invalidIdempotencyKey))
  | taken {k : Key} {row : IdempotencyKey β} (hreq : admission req = .keyed k)
      (hrow : keys.lookup k = some row) :
      Moves sha256 handler req keys shop .arrived keys shop (.conflicted k)
  | claim {k : Key} (hreq : admission req = .keyed k) (hfree : keys.lookup k = none) :
      Moves sha256 handler req keys shop .arrived
        (keys.insert k { route := req.route, requestHash := sha256 req.body }) shop
        (.executing (some k))
  | existing {k : Key} : Moves sha256 handler req keys shop (.conflicted k) keys shop
      (.done (existingAnswer req.route (sha256 req.body) (keys.lookup k)))
  | handle : Moves sha256 handler req keys shop (.executing none) keys (handler req shop).1
      (.done (.handled (handler req shop).2))
  | execute {k : Key} : Moves sha256 handler req keys shop (.executing (some k)) keys
      (handler req shop).1 (.recording k (handler req shop).2)
  | record {k : Key} {r : Response β} :
      Moves sha256 handler req keys shop (.recording k r) (save k r keys) shop (.sending r)
  | send {r : Response β} :
      Moves sha256 handler req keys shop (.sending r) keys shop (.done (.handled r))
  | stay {a : Answer β} : Moves sha256 handler req keys shop (.done a) keys shop (.done a)

theorem moves_of_advance (phase : Phase β) : Moves sha256 handler req keys shop phase
    (advance sha256 handler req keys shop phase).1
    (advance sha256 handler req keys shop phase).2.1
    (advance sha256 handler req keys shop phase).2.2 := by
  cases phase with
  | arrived =>
    cases hreq : admission req with
    | unkeyed =>
      simp only [advance, hreq]
      exact .unkeyed hreq
    | invalid =>
      simp only [advance, hreq]
      exact .invalid hreq
    | keyed k =>
      cases hrow : keys.lookup k with
      | some row =>
        simp only [advance, hreq, hrow]
        exact .taken hreq hrow
      | none =>
        simp only [advance, hreq, hrow]
        exact .claim hreq hrow
  | conflicted k => exact .existing
  | executing claim =>
    cases claim with
    | none => exact .handle
    | some k => exact .execute
  | recording k r => exact .record
  | sending r => exact .send
  | done a => exact .stay

/-- The request `i` in its phase. -/
def At (requests : List (Request ρ)) (c : System β Shop) (i : ℕ) (req : Request ρ)
    (phase : Phase β) : Prop :=
  requests[i]? = some req ∧ c.phases[i]? = some phase

variable (sha256 handler) in
/-- A step does nothing, or it is one of the moves. -/
theorem moves_of_step (c : System β Shop) (i : ℕ) : step sha256 handler requests c i = c ∨
    ∃ req phase keys' shop' phase', At requests c i req phase ∧
      Moves sha256 handler req c.keys c.shop phase keys' shop' phase' ∧
      step sha256 handler requests c i = ⟨keys', shop', c.phases.set i phase'⟩ := by
  unfold step
  cases hreq : requests[i]? with
  | none => exact .inl rfl
  | some req =>
    cases hphase : c.phases[i]? with
    | none => exact .inl rfl
    | some phase => exact .inr ⟨req, phase, _, _, _, ⟨hreq, hphase⟩, moves_of_advance phase, rfl⟩

variable (sha256 handler) in
/-- The request `i` after its step. -/
theorem at_step {phase : Phase β} (h : At requests c i req phase) : ∃ keys' shop' phase',
    Moves sha256 handler req c.keys c.shop phase keys' shop' phase' ∧
      step sha256 handler requests c i = ⟨keys', shop', c.phases.set i phase'⟩ := by
  refine ⟨_, _, _, moves_of_advance phase, ?_⟩
  unfold step
  rw [h.1, h.2]

/-- A request and its phase after the request `i` has made a step. -/
theorem at_set {phase phase' : Phase β} {req' : Request ρ}
    (h : At requests ⟨keys', shop', c.phases.set i phase'⟩ j req' phase) :
    (j = i ∧ phase = phase') ∨ (j ≠ i ∧ At requests c j req' phase) := by
  obtain ⟨hreq, hphase⟩ := h
  by_cases hji : j = i
  · subst hji
    rw [List.getElem?_set_self'] at hphase
    obtain ⟨-, -, rfl⟩ := Option.map_eq_some_iff.mp hphase
    exact .inl ⟨rfl, rfl⟩
  · rw [List.getElem?_set_ne (Ne.symm hji)] at hphase
    exact .inr ⟨hji, hreq, hphase⟩

theorem at_set_self {phase phase' : Phase β} (h : At requests c i req phase) :
    At requests ⟨keys', shop', c.phases.set i phase'⟩ i req phase' := by
  refine ⟨h.1, ?_⟩
  rw [List.getElem?_set_self', h.2]
  rfl

theorem at_set_ne {phase phase' : Phase β} (h : At requests c j req phase) (hji : j ≠ i) :
    At requests ⟨keys', shop', c.phases.set i phase'⟩ j req phase :=
  ⟨h.1, (List.getElem?_set_ne (Ne.symm hji)).trans h.2⟩

/-! ### Holding a key -/

/-- The request comes with the key. -/
def Carries (requests : List (Request ρ)) (i : ℕ) (k : Key) : Prop :=
  ∃ req, requests[i]? = some req ∧ admission req = .keyed k

/-- The row of a request that has inserted its key and has not failed. -/
def claimRow (sha256 : String → String) (req : Request ρ) : Phase β → Option (IdempotencyKey β)
  | .executing (some _) | .recording _ _ =>
    some { route := req.route, requestHash := sha256 req.body }
  | .sending r | .done (.handled r) =>
    if r.ok then
      some
        { route := req.route
          requestHash := sha256 req.body
          statusCode := some r.statusCode
          response := some r.body }
    else none
  | _ => none

/-- The request `i` holds the key `k`, and `row` is its row. -/
def Claims (sha256 : String → String) (requests : List (Request ρ)) (c : System β Shop) (i : ℕ)
    (k : Key) (row : IdempotencyKey β) : Prop :=
  ∃ req phase, At requests c i req phase ∧ admission req = .keyed k ∧
    claimRow sha256 req phase = some row

/-- The phase belongs to a request with this admission. -/
def Phase.Fits (a : Admission) : Phase β → Prop
  | .arrived => True
  | .conflicted k => a = .keyed k
  | .executing none => a = .unkeyed
  | .executing (some k) => a = .keyed k
  | .recording k _ => a = .keyed k
  | .sending _ => ∃ k, a = .keyed k
  | .done _ => True

/-- What the handler has answered. -/
def Phase.response : Phase β → Option (Response β)
  | .recording _ r | .sending r | .done (.handled r) => some r
  | _ => none

/-- Only the run of the handler changes what the handlers share, and gives an answer. -/
theorem Moves.cases_response {phase phase' : Phase β}
    (h : Moves sha256 handler req keys shop phase keys' shop' phase') :
    (shop' = shop ∧ phase'.response = phase.response) ∨
      ∃ claim, phase = .executing claim ∧ shop' = (handler req shop).1 ∧
        phase'.response = some (handler req shop).2 := by
  cases h with
  | existing =>
    refine .inl ⟨rfl, ?_⟩
    cases keys.lookup _ with
    | none => rfl
    | some row =>
      simp only [existingAnswer]
      split_ifs
      · rfl
      · cases row.statusCode <;> rfl
  | handle => exact .inr ⟨none, rfl, rfl, rfl⟩
  | execute => exact .inr ⟨some _, rfl, rfl, rfl⟩
  | _ => exact .inl ⟨rfl, rfl⟩

/-- The request `i` has been executed, and this is what its handler has answered. -/
def Executed (c : System β Shop) (i : ℕ) (r : Response β) : Prop :=
  ∃ phase, c.phases[i]? = some phase ∧ phase.response = some r

/-- Where the answer of a request comes from: from its own handler, from the middleware, or
from another request with its key, whose answer was a 2xx one. -/
def Explained (requests : List (Request ρ)) (c : System β Shop) (a : Admission) :
    Answer β → Prop
  | .handled _ => True
  | .refused e => 400 ≤ e.statusCode
  | .replayed statusCode response => ∃ j r k, a = .keyed k ∧ Carries requests j k ∧
      Executed c j r ∧ r.ok ∧ statusCode = r.statusCode ∧ response = some r.body

/-- The rows of the table are those of the requests that hold them, every key is held by one
request, and every answer has an explanation. -/
structure Consistent (sha256 : String → String) (requests : List (Request ρ))
    (c : System β Shop) : Prop where
  fits : ∀ i req phase, At requests c i req phase → phase.Fits (admission req)
  row : ∀ k row, c.keys.lookup k = some row ↔ ∃ i, Claims sha256 requests c i k row
  unique : ∀ i j k row row', Claims sha256 requests c i k row →
    Claims sha256 requests c j k row' → i = j
  explained : ∀ i req a, At requests c i req (.done a) → Explained requests c (admission req) a

theorem consistent_start (shop : Shop) :
    Consistent sha256 requests (start (β := β) requests shop) := by
  have harrived {i : ℕ} {req : Request ρ} {phase : Phase β}
      (h : At requests (start requests shop) i req phase) : phase = .arrived := by
    obtain ⟨-, -, h⟩ := Option.map_eq_some_iff.mp (List.getElem?_map.symm.trans h.2)
    exact h.symm
  have hnone {i : ℕ} {k : Key} {row : IdempotencyKey β} :
      ¬ Claims sha256 requests (start requests shop) i k row := by
    rintro ⟨req, phase, h, -, hrow⟩
    obtain rfl := harrived h
    cases hrow
  refine ⟨fun i req phase h => ?_, fun k row => ⟨fun h => ?_, fun h => ?_⟩,
    fun i j k row row' h => (hnone h).elim, fun i req a h => ?_⟩
  · obtain rfl := harrived h
    trivial
  · cases h
  · obtain ⟨i, h⟩ := h
    exact (hnone h).elim
  · cases harrived h

/-! ### What the moves keep -/

theorem claims_iff {phase : Phase β} {row : IdempotencyKey β} (h : At requests c i req phase) :
    Claims sha256 requests c i k row ↔
      admission req = .keyed k ∧ claimRow sha256 req phase = some row := by
  constructor
  · rintro ⟨req', phase', h', hk, hrow⟩
    obtain rfl := Option.some.inj (h.1.symm.trans h'.1)
    obtain rfl := Option.some.inj (h.2.symm.trans h'.2)
    exact ⟨hk, hrow⟩
  · exact fun ⟨hk, hrow⟩ => ⟨req, phase, h, hk, hrow⟩

theorem claims_set {phase phase' : Phase β} {row : IdempotencyKey β}
    (h : At requests c i req phase) :
    Claims sha256 requests ⟨keys', shop', c.phases.set i phase'⟩ j k row ↔
      (j = i ∧ admission req = .keyed k ∧ claimRow sha256 req phase' = some row) ∨
        (j ≠ i ∧ Claims sha256 requests c j k row) := by
  by_cases hji : j = i
  · subst hji
    rw [claims_iff (at_set_self h)]
    simp
  · constructor
    · rintro ⟨req', phase'', h', hk, hrow⟩
      rcases at_set h' with ⟨rfl, -⟩ | ⟨-, h'⟩
      · exact absurd rfl hji
      · exact .inr ⟨hji, req', phase'', h', hk, hrow⟩
    · rintro (⟨rfl, -⟩ | ⟨-, req', phase'', h', hk, hrow⟩)
      · exact absurd rfl hji
      · exact ⟨req', phase'', at_set_ne h' hji, hk, hrow⟩

theorem Executed.set {phase phase' : Phase β} {r : Response β} (h : Executed c j r)
    (hat : At requests c i req phase)
    (hresponse : ∀ r, phase.response = some r → phase'.response = some r) :
    Executed ⟨keys', shop', c.phases.set i phase'⟩ j r := by
  obtain ⟨phase'', hj, hr⟩ := h
  by_cases hji : j = i
  · subst hji
    obtain rfl := Option.some.inj (hat.2.symm.trans hj)
    exact ⟨phase', (at_set_self hat).2, hresponse r hr⟩
  · exact ⟨phase'', (List.getElem?_set_ne (Ne.symm hji)).trans hj, hr⟩

theorem Explained.set {phase phase' : Phase β} {a : Admission} {x : Answer β}
    (h : Explained requests c a x) (hat : At requests c i req phase)
    (hresponse : ∀ r, phase.response = some r → phase'.response = some r) :
    Explained requests ⟨keys', shop', c.phases.set i phase'⟩ a x := by
  cases x with
  | refused e => exact h
  | handled r => trivial
  | replayed statusCode response =>
    obtain ⟨j, r, k, ha, hcarries, hexecuted, hrest⟩ := h
    exact ⟨j, r, k, ha, hcarries, hexecuted.set hat hresponse, hrest⟩

/-- A move of the request `i`: its own rows are those of its new phase, the others keep
theirs, and nobody else has the key it holds then. -/
theorem Consistent.set {phase phase' : Phase β} (h : Consistent sha256 requests c)
    (hat : At requests c i req phase) (hfits : phase'.Fits (admission req))
    (hresponse : ∀ r, phase.response = some r → phase'.response = some r)
    (hrow : ∀ k row, keys'.lookup k = some row ↔
      (admission req = .keyed k ∧ claimRow sha256 req phase' = some row) ∨
        ∃ j, j ≠ i ∧ Claims sha256 requests c j k row)
    (hfree : ∀ k row, admission req = .keyed k → claimRow sha256 req phase' = some row →
      ∀ j row', Claims sha256 requests c j k row' → j = i)
    (hanswer : ∀ a, phase' = .done a → Explained requests c (admission req) a) :
    Consistent sha256 requests ⟨keys', shop', c.phases.set i phase'⟩ where
  fits j req' phase'' hj := by
    rcases at_set hj with ⟨rfl, rfl⟩ | ⟨-, hj⟩
    · obtain rfl := Option.some.inj (hat.1.symm.trans hj.1)
      exact hfits
    · exact h.fits j req' phase'' hj
  row k row := by
    refine (hrow k row).trans ?_
    simp only [claims_set hat]
    constructor
    · rintro (⟨hk, hclaim⟩ | ⟨j, hj⟩)
      · exact ⟨i, .inl ⟨rfl, hk, hclaim⟩⟩
      · exact ⟨j, .inr hj⟩
    · rintro ⟨j, ⟨rfl, hclaim⟩ | hj⟩
      · exact .inl hclaim
      · exact .inr ⟨j, hj⟩
  unique j l k row row' hj hl := by
    rcases (claims_set hat).mp hj with ⟨rfl, hk, hclaim⟩ | ⟨hji, hj'⟩
    · rcases (claims_set hat).mp hl with ⟨rfl, -⟩ | ⟨hli, hl⟩
      · rfl
      · exact absurd (hfree k row hk hclaim l row' hl) hli
    · rcases (claims_set hat).mp hl with ⟨heq, hk, hclaim⟩ | ⟨hli, hl⟩
      · exact absurd (hfree k row' hk hclaim j row hj') hji
      · exact h.unique j l k row row' hj' hl
  explained j req' a hj := by
    rcases at_set hj with ⟨rfl, ha⟩ | ⟨-, hj⟩
    · obtain rfl := Option.some.inj (hat.1.symm.trans hj.1)
      exact (hanswer a ha.symm).set hat hresponse
    · exact (h.explained j req' a hj).set hat hresponse

/-- A move that changes nothing about who holds which key. -/
theorem Consistent.set_quiet {phase phase' : Phase β} (h : Consistent sha256 requests c)
    (hat : At requests c i req phase) (hfits : phase'.Fits (admission req))
    (hresponse : ∀ r, phase.response = some r → phase'.response = some r)
    (hclaim : ∀ k, admission req = .keyed k →
      claimRow sha256 req phase' = claimRow sha256 req phase)
    (hanswer : ∀ a, phase' = .done a → Explained requests c (admission req) a) :
    Consistent sha256 requests ⟨c.keys, shop', c.phases.set i phase'⟩ := by
  refine h.set hat hfits hresponse (fun k row => ?_) (fun k row hk hrow j row' hj => ?_) hanswer
  · rw [h.row]
    constructor
    · rintro ⟨j, hj⟩
      by_cases hji : j = i
      · subst hji
        obtain ⟨hk, hrow⟩ := (claims_iff hat).mp hj
        exact .inl ⟨hk, (hclaim k hk).trans hrow⟩
      · exact .inr ⟨j, hji, hj⟩
    · rintro (⟨hk, hrow⟩ | ⟨j, -, hj⟩)
      · exact ⟨i, (claims_iff hat).mpr ⟨hk, (hclaim k hk).symm.trans hrow⟩⟩
      · exact ⟨j, hj⟩
  · have hi : Claims sha256 requests c i k row :=
      (claims_iff hat).mpr ⟨hk, (hclaim k hk).symm.trans hrow⟩
    exact h.unique j i k row' row hj hi

/-- The row of a request has an answer if the request has ended in a 2xx one. -/
theorem claimRow_eq_some {phase : Phase β} {row : IdempotencyKey β}
    (h : claimRow sha256 req phase = some row) :
    row = { route := req.route, requestHash := sha256 req.body } ∨ ∃ r, phase.response = some r ∧
      r.ok ∧ row.statusCode = some r.statusCode ∧ row.response = some r.body := by
  unfold claimRow at h
  split at h
  · exact .inl (Option.some.inj h).symm
  · exact .inl (Option.some.inj h).symm
  · split_ifs at h with hok
    cases h
    exact .inr ⟨_, rfl, hok, rfl, rfl⟩
  · split_ifs at h with hok
    cases h
    exact .inr ⟨_, rfl, hok, rfl, rfl⟩
  · cases h

/-- A repeat is refused, or answered as the request was that holds the key. -/
theorem Consistent.explained_existing (h : Consistent sha256 requests c)
    (hk : admission req = .keyed k) (requestHash : String) : Explained requests c (admission req)
      (existingAnswer req.route requestHash (c.keys.lookup k)) := by
  cases hrow : c.keys.lookup k with
  | none => exact (by decide : 400 ≤ idempotencyRetry.statusCode)
  | some row =>
    obtain ⟨j, req', phase, hat, hk', hclaim⟩ := (h.row k row).mp hrow
    simp only [existingAnswer]
    split_ifs with hdiffers
    · exact (by decide : 400 ≤ idempotencyKeyReused.statusCode)
    · rcases claimRow_eq_some hclaim with rfl | ⟨r, hresponse, hok, hstatus, hbody⟩
      · exact (by decide : 400 ≤ idempotencyInProgress.statusCode)
      · rw [hstatus, hbody]
        exact ⟨j, r, k, hk, ⟨req', hat.1, hk'⟩, ⟨phase, hat.2, hresponse⟩, hok, rfl, rfl⟩

theorem claimRow_existingAnswer (route requestHash : String)
    (existing : Option (IdempotencyKey β)) :
    claimRow sha256 req (.done (existingAnswer route requestHash existing)) = none := by
  cases existing with
  | none => rfl
  | some row =>
    simp only [existingAnswer]
    split_ifs
    · rfl
    · cases row.statusCode <;> rfl

/-- Inserting a free key. -/
theorem Consistent.claim (h : Consistent sha256 requests c) (hat : At requests c i req .arrived)
    (hk : admission req = .keyed k) (hfree : c.keys.lookup k = none) :
    Consistent sha256 requests
      ⟨c.keys.insert k { route := req.route, requestHash := sha256 req.body }, shop',
        c.phases.set i (.executing (some k))⟩ := by
  have hnobody {j : ℕ} {row : IdempotencyKey β} : ¬ Claims sha256 requests c j k row := by
    intro hj
    have hrow := (h.row k row).mpr ⟨j, hj⟩
    rw [hfree] at hrow
    cases hrow
  refine h.set hat hk (fun r hr => nomatch hr) (fun l row => ?_) (fun l row hl _ j row' hj => ?_)
    fun a ha => nomatch ha
  · by_cases hl : l = k
    · subst hl
      rw [AList.lookup_insert]
      simp [hk, claimRow, hnobody]
    · rw [AList.lookup_insert_ne hl, h.row]
      constructor
      · rintro ⟨j, hj⟩
        refine .inr ⟨j, ?_, hj⟩
        rintro rfl
        obtain ⟨-, hrow⟩ := (claims_iff hat).mp hj
        cases hrow
      · rintro (⟨hl', -⟩ | ⟨j, -, hj⟩)
        · cases hk.symm.trans hl'
          exact absurd rfl hl
        · exact ⟨j, hj⟩
  · cases hk.symm.trans hl
    exact (hnobody hj).elim

/-- Writing the answer over the key's row, or deleting the row. -/
theorem Consistent.record {r : Response β} (h : Consistent sha256 requests c)
    (hat : At requests c i req (.recording k r)) :
    Consistent sha256 requests ⟨save k r c.keys, shop', c.phases.set i (.sending r)⟩ := by
  have hk : admission req = .keyed k := h.fits i req _ hat
  have hi : Claims sha256 requests c i k { route := req.route, requestHash := sha256 req.body } :=
    (claims_iff hat).mpr ⟨hk, rfl⟩
  have hmine (j : ℕ) (row' : IdempotencyKey β) (hj : Claims sha256 requests c j k row') : j = i :=
    h.unique j i k row' _ hj hi
  -- the row of the key is overwritten or deleted, as the claim of its holder now says
  have hlookup (l : Key) : (save k r c.keys).lookup l =
      if l = k then claimRow sha256 req (.sending r) else c.keys.lookup l := by
    simp only [save, (h.row k _).mpr ⟨i, hi⟩, claimRow]
    by_cases hl : l = k
    · subst hl
      cases r.ok <;> simp
    · cases r.ok <;> simp [hl]
  refine h.set hat ⟨k, hk⟩ (fun _ hr => hr) (fun l row => ?_) (fun l row hl _ j row' hj => ?_)
    fun a ha => nomatch ha
  · rw [hlookup]
    split_ifs with hl
    · subst hl
      constructor
      · exact fun hrow => .inl ⟨hk, hrow⟩
      · rintro (⟨-, hrow⟩ | ⟨j, hji, hj⟩)
        · exact hrow
        · exact absurd (hmine j row hj) hji
    · rw [h.row]
      constructor
      · rintro ⟨j, hj⟩
        refine .inr ⟨j, ?_, hj⟩
        rintro rfl
        obtain ⟨hl', -⟩ := (claims_iff hat).mp hj
        cases hk.symm.trans hl'
        exact hl rfl
      · rintro (⟨hl', -⟩ | ⟨j, -, hj⟩)
        · cases hk.symm.trans hl'
          exact absurd rfl hl
        · exact ⟨j, hj⟩
  · cases hk.symm.trans hl
    exact hmine j row' hj

/-- **One step.** -/
theorem Consistent.step (h : Consistent sha256 requests c) (i : ℕ) :
    Consistent sha256 requests (step sha256 handler requests c i) := by
  rcases moves_of_step sha256 handler c i with
    hstep | ⟨req, phase, keys', shop', phase', hat, hmove, hstep⟩
  · rw [hstep]
    exact h
  · rw [hstep]
    cases hmove with
    | unkeyed hreq =>
      exact h.set_quiet hat hreq (fun r hr => nomatch hr) (fun _ _ => rfl) fun a ha => nomatch ha
    | invalid hreq =>
      refine h.set_quiet hat trivial (fun r hr => nomatch hr) (fun _ _ => rfl) fun a ha => ?_
      cases ha
      exact (by decide : 400 ≤ invalidIdempotencyKey.statusCode)
    | taken hreq hrow =>
      exact h.set_quiet hat hreq (fun r hr => nomatch hr) (fun _ _ => rfl) fun a ha => nomatch ha
    | claim hreq hfree => exact h.claim hat hreq hfree
    | existing =>
      refine h.set_quiet hat trivial (fun r hr => nomatch hr) (fun _ _ => ?_) fun a ha => ?_
      · exact claimRow_existingAnswer _ _ _
      · cases ha
        -- the answer is taken from the row that is found
        exact h.explained_existing (h.fits i req _ hat) _
    | handle =>
      refine h.set_quiet hat trivial (fun r hr => nomatch hr) (fun k hk => ?_) fun a ha => ?_
      · have hfits : admission req = .unkeyed := h.fits i req _ hat
        cases hk.symm.trans hfits
      · cases ha
        trivial
    | @execute k =>
      have hfits : admission req = .keyed k := h.fits i req _ hat
      exact h.set_quiet hat hfits (fun r hr => nomatch hr) (fun _ _ => rfl) fun a ha => nomatch ha
    | record => exact h.record hat
    | send =>
      refine h.set_quiet hat trivial (fun r hr => hr) (fun _ _ => rfl) fun a ha => ?_
      cases ha
      trivial
    | stay =>
      refine h.set_quiet hat trivial (fun r hr => hr) (fun _ _ => rfl) fun a ha => ?_
      cases ha
      exact h.explained i req _ hat

variable (sha256 handler) in
/-- **Every run.** -/
theorem consistent_run (shop : Shop) (schedule : List ℕ) :
    Consistent sha256 requests (run sha256 handler requests shop schedule) := by
  induction schedule using List.reverseRec with
  | nil => exact consistent_start shop
  | append_singleton schedule i ih =>
    rw [run_concat]
    exact ih.step i

end PulseOps.Idempotency
