import PulseOps.Idempotency.Claims

/-!
# Requests with one key run once

However the steps of the requests are interleaved, a key belongs to one execution at a time,
and to the first one that succeeds for good.

## Main definitions

* `Reachable` — the systems that runs lead to.

## Main results

* `idempotent_onceOnly` — one 2xx execution for each key, whose answer all repeats get; other
  requests with the key are kept out, and a failure frees the key.
-/

set_option autoImplicit false

namespace PulseOps.Idempotency

variable {ρ β Shop : Type} {sha256 : String → String}
  {handler : Request ρ → Shop → Shop × Response β} {requests : List (Request ρ)} {shop : Shop}
  {c : System β Shop} {i j : ℕ} {k : Key}

/-- Some order of steps leads to the system. -/
def Reachable (sha256 : String → String) (handler : Request ρ → Shop → Shop × Response β)
    (requests : List (Request ρ)) (shop : Shop) (c : System β Shop) : Prop :=
  ∃ schedule, run sha256 handler requests shop schedule = c

theorem Reachable.consistent (h : Reachable sha256 handler requests shop c) :
    Consistent sha256 requests c := by
  obtain ⟨schedule, rfl⟩ := h
  exact consistent_run sha256 handler shop schedule

variable (sha256) in
/-- A request that has been executed with a 2xx answer holds its key. -/
theorem claims_of_executed {r : Response β} (hk : Carries requests i k) (hr : Executed c i r)
    (hok : r.ok) :
    ∃ row, Claims sha256 requests c i k row := by
  obtain ⟨req, hreq, hk⟩ := hk
  obtain ⟨phase, hphase, hr⟩ := hr
  have hrow : ∃ row, claimRow sha256 req phase = some row := by
    cases phase with
    | recording k r' => exact ⟨_, rfl⟩
    | sending r' =>
      cases hr
      exact ⟨_, if_pos hok⟩
    | done a =>
      cases a with
      | handled r' =>
        cases hr
        exact ⟨_, if_pos hok⟩
      | _ => cases hr
    | _ => cases hr
  obtain ⟨row, hrow⟩ := hrow
  exact ⟨row, req, phase, ⟨hreq, hphase⟩, hk, hrow⟩

/-- A 2xx answer to a request with a key is that of an execution with this key. -/
theorem Consistent.executed_of_done (h : Consistent sha256 requests c) {a : Answer β}
    (hk : Carries requests i k) (ha : c.phases[i]? = some (.done a)) (hok : a.statusCode < 300) :
    ∃ j r, Carries requests j k ∧ Executed c j r ∧ a.statusCode = r.statusCode ∧
      a.body = some r.body := by
  obtain ⟨req, hreq, hkey⟩ := hk
  have hexplained := h.explained i req a ⟨hreq, ha⟩
  cases a with
  | refused e =>
    have hstatus : 400 ≤ e.statusCode := hexplained
    have hsmall : e.statusCode < 300 := hok
    omega
  | replayed statusCode response =>
    obtain ⟨j, r, l, hl, hcarries, hexecuted, -, hstatus, hbody⟩ := hexplained
    cases hkey.symm.trans hl
    exact ⟨j, r, hcarries, hexecuted, hstatus, hbody⟩
  | handled r => exact ⟨i, r, ⟨req, hreq, hkey⟩, ⟨_, ha, rfl⟩, rfl, rfl⟩

/-- While a request holds the key, nobody else executes under it. -/
theorem Consistent.not_executing (h : Consistent sha256 requests c) {req : Request ρ}
    {row : IdempotencyKey β} (hrow : Claims sha256 requests c j k row)
    (hreq : requests[i]? = some req) (hk : admission req = .keyed k) (hij : i ≠ j)
    (claim : Option Key) : c.phases[i]? ≠ some (.executing claim) := by
  intro hphase
  have hat : At requests c i req (.executing claim) := ⟨hreq, hphase⟩
  cases claim with
  | none =>
    have hfits : admission req = .unkeyed := h.fits i req _ hat
    cases hk.symm.trans hfits
  | some l =>
    have hi : Claims sha256 requests c i k
        { route := req.route, requestHash := sha256 req.body } := (claims_iff hat).mpr ⟨hk, rfl⟩
    exact hij (h.unique i j k _ row hi hrow)

/-- The row is that of the request that holds the key. -/
theorem claimRow_request {req : Request ρ} {phase : Phase β} {row : IdempotencyKey β}
    (h : claimRow sha256 req phase = some row) :
    row.route = req.route ∧ row.requestHash = sha256 req.body := by
  unfold claimRow at h
  split at h
  · cases h
    exact ⟨rfl, rfl⟩
  · cases h
    exact ⟨rfl, rfl⟩
  · split_ifs at h
    cases h
    exact ⟨rfl, rfl⟩
  · split_ifs at h
    cases h
    exact ⟨rfl, rfl⟩
  · cases h

variable (handler) in
/-- The next step of another request, while the key is held. -/
theorem step_other (h : Consistent sha256 requests c) (hsha256 : sha256.Injective)
    {req req' : Request ρ} {row : IdempotencyKey β} (hrow : Claims sha256 requests c j k row)
    (hreq' : requests[j]? = some req') (hreq : requests[i]? = some req)
    (hk : admission req = .keyed k) (hdiffer : req.route ≠ req'.route ∨ req.body ≠ req'.body) :
    (∀ claim, (step sha256 handler requests c i).phases[i]? ≠ some (.executing claim)) ∧
      ∀ statusCode response,
        (step sha256 handler requests c i).phases[i]? =
            some (.done (.replayed statusCode response)) →
          c.phases[i]? = some (.done (.replayed statusCode response)) := by
  have hij : i ≠ j := by
    rintro rfl
    obtain rfl := Option.some.inj (hreq.symm.trans hreq')
    simp at hdiffer
  have hlookup : c.keys.lookup k = some row := (h.row k row).mpr ⟨j, hrow⟩
  rcases moves_of_step sha256 handler c i with
    hstep | ⟨req₀, phase, keys', shop', phase', hat, hmove, hstep⟩
  · rw [hstep]
    exact ⟨h.not_executing hrow hreq hk hij, fun _ _ hphase => hphase⟩
  · obtain rfl := Option.some.inj (hreq.symm.trans hat.1)
    have hphase' : (step sha256 handler requests c i).phases[i]? = some phase' := by
      rw [hstep]
      exact (at_set_self hat).2
    simp only [hphase', Option.some.injEq]
    cases hmove with
    | unkeyed hunkeyed => cases hk.symm.trans hunkeyed
    | claim hkey hfree =>
      -- the row is there, so the key cannot be claimed
      cases hk.symm.trans hkey
      rw [hlookup] at hfree
      cases hfree
    | @existing l =>
      -- the row names another request, so the answer is a refusal
      have hfits : admission req = .keyed l := h.fits i req _ hat
      cases hk.symm.trans hfits
      obtain ⟨req₁, phase, hat', -, hclaim⟩ := hrow
      obtain rfl := Option.some.inj (hreq'.symm.trans hat'.1)
      obtain ⟨hroute, hhash⟩ := claimRow_request hclaim
      have hreused : existingAnswer req.route (sha256 req.body) (c.keys.lookup k) =
          .refused idempotencyKeyReused := by
        rw [hlookup]
        refine if_pos ?_
        rw [hroute, hhash]
        exact hdiffer.imp Ne.symm fun hbody heq => hbody (hsha256 heq.symm)
      rw [hreused]
      exact ⟨fun _ h => (nomatch h), fun _ _ h => nomatch h⟩
    | stay => exact ⟨fun _ h => (nomatch h), fun _ _ h => h ▸ hat.2⟩
    | _ => exact ⟨fun _ h => (nomatch h), fun _ _ h => nomatch h⟩

/-- A failed execution frees the key. -/
theorem step_failed {r : Response β} (hphase : c.phases[i]? = some (.recording k r))
    (hi : i < requests.length) (hfailed : ¬ r.ok) :
    (step sha256 handler requests c i).keys.lookup k = none ∧
      (step sha256 handler requests c i).phases[i]? = some (.sending r) := by
  have hat : At requests c i requests[i] (.recording k r) :=
    ⟨List.getElem?_eq_getElem hi, hphase⟩
  obtain ⟨keys', shop', phase', hmove, hstep⟩ := at_step sha256 handler hat
  rw [hstep]
  cases hmove
  refine ⟨?_, (at_set_self hat).2⟩
  simp [save, hfailed]

/-- **Requests with one key run once.** In every run, at most one request with the key is
executed with a 2xx answer, and every 2xx answer to a request with the key is that one. While
the key is held, a request with another route or body than the one that holds it is neither
executed nor given the stored answer, and an execution that has failed frees the key. -/
theorem idempotent_onceOnly (hsha256 : sha256.Injective)
    (h : Reachable sha256 handler requests shop c) :
    (∀ i j r r', Carries requests i k → Carries requests j k → Executed c i r →
      Executed c j r' → r.ok → r'.ok → i = j) ∧
    (∀ i a, Carries requests i k → c.phases[i]? = some (.done a) → 200 ≤ a.statusCode →
      a.statusCode < 300 → ∃ j r, Carries requests j k ∧ Executed c j r ∧ r.ok ∧
        a.statusCode = r.statusCode ∧ a.body = some r.body) ∧
    (∀ row, c.keys.lookup k = some row → ∃ j req', requests[j]? = some req' ∧
      Claims sha256 requests c j k row ∧ ∀ i req, requests[i]? = some req →
        admission req = .keyed k → req.route ≠ req'.route ∨ req.body ≠ req'.body →
        (∀ claim, c.phases[i]? ≠ some (.executing claim) ∧
          (step sha256 handler requests c i).phases[i]? ≠ some (.executing claim)) ∧
        ∀ statusCode response,
          (step sha256 handler requests c i).phases[i]? =
            some (.done (.replayed statusCode response)) →
          c.phases[i]? = some (.done (.replayed statusCode response))) ∧
    (∀ i r, Carries requests i k → c.phases[i]? = some (.recording k r) → ¬ r.ok →
      (step sha256 handler requests c i).keys.lookup k = none ∧
        (step sha256 handler requests c i).phases[i]? = some (.sending r)) := by
  have hc := h.consistent
  refine ⟨fun i j r r' hi hj hr hr' hok hok' => ?_, fun i a hi ha hlow hhigh => ?_,
    fun row hrow => ?_, fun i r hi hphase hfailed => ?_⟩
  · -- who has executed with success holds the row for good, and it has one holder
    obtain ⟨row, hrow⟩ := claims_of_executed sha256 hi hr hok
    obtain ⟨row', hrow'⟩ := claims_of_executed sha256 hj hr' hok'
    exact hc.unique i j k row row' hrow hrow'
  · -- the answer is the one that is stored in the row
    obtain ⟨j, r, hj, hr, hstatus, hbody⟩ := hc.executed_of_done hi ha hhigh
    refine ⟨j, r, hj, hr, ?_, hstatus, hbody⟩
    rw [hstatus] at hlow hhigh
    exact decide_eq_true ⟨hlow, hhigh⟩
  · -- another request with the key finds the row
    obtain ⟨j, hj⟩ := (hc.row k row).mp hrow
    obtain ⟨req', phase, hat, -, -⟩ := id hj
    refine ⟨j, req', hat.1, hj, fun i req hreq hk hdiffer => ?_⟩
    have hij : i ≠ j := by
      rintro rfl
      obtain rfl := Option.some.inj (hreq.symm.trans hat.1)
      simp at hdiffer
    obtain ⟨hexecuting, hreplayed⟩ := step_other handler hc hsha256 hj hat.1 hreq hk
      hdiffer
    exact ⟨fun claim => ⟨hc.not_executing hj hreq hk hij claim, hexecuting claim⟩, hreplayed⟩
  · -- a failure deletes the row
    obtain ⟨req, hreq, -⟩ := hi
    exact step_failed hphase (List.getElem?_eq_some_iff.mp hreq).1 hfailed

namespace Sample

/-- A stand-in for the hash function: a mark in front of the text. -/
def mark (text : String) : String := "#" ++ text

theorem mark_injective : mark.Injective := by
  intro text text' h
  have hlist := congrArg String.toList h
  simp only [mark, String.toList_append] at hlist
  exact String.toList_inj.mp (List.append_cancel_left hlist)

/-- A till that counts its sales, and refuses one of no money. -/
def till (req : Request ℕ) (sales : ℕ) : ℕ × Response ℕ :=
  if req.context = 0 then (sales, ⟨400, 0⟩) else (sales + 1, ⟨201, sales + 1⟩)

/-- A sale of the amount, with a key. -/
def sale (amount : ℕ) (body : String) : Request ℕ where
  method := "POST"
  baseUrl := "/pos"
  path := "/sales"
  idempotencyKey := some "sale-0001"
  scopeId := some "shop"
  body := body
  context := amount

/-- A sale of nothing, one of 5 that is sent twice, and one of 7. -/
def sales : List (Request ℕ) := [sale 0 "0", sale 5 "5", sale 5 "5", sale 7 "7"]

end Sample

open Sample in
/-- The sale of nothing frees the key, the sale of 5 happens once, its repeat is answered
from the table, and the sale of 7 is refused. -/
theorem idempotent_onceOnly_sample : ∃ c, Reachable mark till sales 0 c ∧
    c.phases = [.done (.handled ⟨400, 0⟩), .done (.handled ⟨201, 1⟩),
      .done (.replayed 201 (some 1)), .done (.refused idempotencyKeyReused)] ∧
    (∀ i j r r', Carries sales i ("shop", "sale-0001") → Carries sales j ("shop", "sale-0001") →
      Executed c i r → Executed c j r' → r.ok → r'.ok → i = j) := by
  have hphases : (run mark till sales 0 [0, 0, 0, 0, 1, 1, 1, 1, 2, 3, 2, 3]).phases =
      [.done (.handled ⟨400, 0⟩), .done (.handled ⟨201, 1⟩), .done (.replayed 201 (some 1)),
        .done (.refused idempotencyKeyReused)] := by
    decide +kernel
  exact ⟨_, ⟨_, rfl⟩, hphases, (idempotent_onceOnly mark_injective ⟨_, rfl⟩).1⟩

end PulseOps.Idempotency
