import PulseOps.Idempotency.Claims

/-!
# Keys of different owners

A row of the table does not say whose request has inserted it. As long as nobody comes upon a
row of somebody else, every owner's requests take the course they would take if the others
sent no keys, provided that the headers of the others have not kept them from anything: what
the middleware has answered itself, the handler would have refused at once.

Both runs go through the same schedule. A request without its header has answered when the
same request with the header still records its answer, but it executes its statements in the
same turns.

## Main definitions

* `withoutKeys` — the same requests, where only one owner sends keys.
* `Undisturbed` — the next step of a request does not come upon another owner's row.
* `Statements.Upholds` — what the handlers keep, and what an owner may see.
* `Statements.Spared` — a request that the middleware answers would have been refused at once.
* `Statements.Follows` — where a request is that has lost its header.

## Main results

* `Statements.consistent_run` — the table of keys is consistent in every run.
* `Statements.upheld_run` — in an undisturbed run every owner sees its own answers.
* `Statements.beside_run` — in an undisturbed run an owner's requests are not affected by the
  keys of the others.
-/

set_option autoImplicit false

namespace PulseOps.Idempotency

variable {ρ β Shop ω : Type} {sha256 : String → String}
  {handler : Request ρ → Shop → Shop × Response β} {requests : List (Request ρ)}
  {req : Request ρ} {shop : Shop} {c c' : System β Shop} {i j : ℕ} {k : Key}
  {owner : ρ → ω} {o : ω}

/-- The requests with the `Idempotency-Key` headers of the other owners removed. -/
def withoutKeys [DecidableEq ω] (owner : ρ → ω) (o : ω) (requests : List (Request ρ)) :
    List (Request ρ) :=
  requests.map fun req => if owner req.context = o then req else { req with idempotencyKey := none }

/-- If the `INSERT` or the `findUnique` of the request `i` is next and finds a row, then it is
one of the same owner. -/
def Undisturbed (sha256 : String → String) (owner : ρ → ω) (requests : List (Request ρ))
    (c : System β Shop) (i : ℕ) : Prop :=
  ∀ req phase k, At requests c i req phase →
    (phase = .arrived ∧ admission req = .keyed k) ∨ phase = .conflicted k →
    ∀ j row req', Claims sha256 requests c j k row → requests[j]? = some req' →
      owner req'.context = owner req.context

/-- What a request looks at before its next step decides the step. -/
theorem advance_congr {keys keys' : Table Key (IdempotencyKey β)} {shop shop' : Shop}
    {phase : Phase β}
    (hkeys : ∀ k, (phase = .arrived ∧ admission req = .keyed k) ∨ phase = .conflicted k →
      keys.lookup k = keys'.lookup k)
    (hshop : ∀ claim, phase = .executing claim → (handler req shop).2 = (handler req shop').2) :
    (advance sha256 handler req keys shop phase).2.2 =
      (advance sha256 handler req keys' shop' phase).2.2 := by
  cases phase with
  | arrived =>
    cases hreq : admission req with
    | unkeyed => simp only [advance, hreq]
    | invalid => simp only [advance, hreq]
    | keyed k =>
      simp only [advance, hreq, hkeys k (.inl ⟨rfl, hreq⟩)]
      cases keys'.lookup k <;> rfl
  | conflicted k => simp only [advance, hkeys k (.inr rfl)]
  | executing claim =>
    cases claim <;> simp only [advance, hshop _ rfl]
  | _ => rfl

section Owners

variable [DecidableEq ω]

theorem getElem?_withoutKeys (h : requests[i]? = some req) (ho : owner req.context = o) :
    (withoutKeys owner o requests)[i]? = some req := by
  rw [withoutKeys, List.getElem?_map, h]
  simp [ho]

/-- Only the owner's requests have keys. -/
theorem owner_of_keyed (h : (withoutKeys owner o requests)[i]? = some req)
    (hk : admission req = .keyed k) : requests[i]? = some req ∧ owner req.context = o := by
  rw [withoutKeys, List.getElem?_map, Option.map_eq_some_iff] at h
  obtain ⟨req', hreq', rfl⟩ := h
  split_ifs with ho
  · exact ⟨hreq', ho⟩
  · rw [if_neg ho] at hk
    cases hk

/-- The systems of two runs in which the owner's requests have come equally far. -/
def Agree (owner : ρ → ω) (o : ω) (requests : List (Request ρ)) (c c' : System β Shop) : Prop :=
  ∀ (i : ℕ) (req : Request ρ), requests[i]? = some req → owner req.context = o →
    c'.phases[i]? = c.phases[i]?

/-- The owner holds the same keys in both runs, and in the second nobody else holds any. -/
theorem Agree.claims {row : IdempotencyKey β} (h : Agree owner o requests c c') :
    Claims sha256 (withoutKeys owner o requests) c' i k row ↔
      Claims sha256 requests c i k row ∧
        ∃ req : Request ρ, requests[i]? = some req ∧ owner req.context = o := by
  constructor
  · rintro ⟨req, phase, hat, hk, hrow⟩
    obtain ⟨hreq, ho⟩ := owner_of_keyed hat.1 hk
    exact ⟨⟨req, phase, ⟨hreq, (h i req hreq ho).symm.trans hat.2⟩, hk, hrow⟩, req, hreq, ho⟩
  · rintro ⟨⟨req, phase, hat, hk, hrow⟩, req', hreq', ho⟩
    obtain rfl := Option.some.inj (hat.1.symm.trans hreq')
    exact ⟨req, phase, ⟨getElem?_withoutKeys hreq' ho, (h i req hreq' ho).trans hat.2⟩, hk, hrow⟩

/-- The tables have the same row under a key, unless it is another owner's. -/
theorem Agree.lookup (h : Agree owner o requests c c') (hc : Consistent sha256 requests c)
    (hc' : Consistent sha256 (withoutKeys owner o requests) c')
    (hmine : ∀ j row req, Claims sha256 requests c j k row → requests[j]? = some req →
      owner req.context = o) : c.keys.lookup k = c'.keys.lookup k := by
  apply Option.ext
  intro row
  rw [hc.row, hc'.row]
  constructor
  · rintro ⟨j, hj⟩
    obtain ⟨req, phase, hat, -⟩ := id hj
    exact ⟨j, h.claims.mpr ⟨hj, req, hat.1, hmine j row req hj hat.1⟩⟩
  · rintro ⟨j, hj⟩
    exact ⟨j, (h.claims.mp hj).1⟩

end Owners

/-! ### Handlers of several statements -/

/-- A repeat is answered from the row it comes upon. -/
theorem Moves.replayed {keys keys' : Table Key (IdempotencyKey β)} {shop' : Shop}
    {phase phase' : Phase β} {statusCode : ℕ} {response : Option β}
    (hmove : Moves sha256 handler req keys shop phase keys' shop' phase')
    (hphase' : phase' = .done (.replayed statusCode response)) :
    (∃ k, phase = .conflicted k ∧ existingAnswer req.route (sha256 req.body) (keys.lookup k) =
        .replayed statusCode response) ∨
      phase = .done (.replayed statusCode response) := by
  cases hmove with
  | @existing k => exact .inl ⟨k, rfl, by injection hphase'⟩
  | stay => exact .inr hphase'
  | _ => cases hphase'

/-- To pass an answer on does not touch what the handlers share. -/
theorem shop_advance {keys : Table Key (IdempotencyKey β)} {phase : Phase β} (r : Response β) :
    (advance sha256 (fun _ shop => (shop, r)) req keys shop phase).2.1 = shop := by
  rcases (moves_of_advance phase).cases_response with ⟨hshop, -⟩ | ⟨claim, -, hshop, -⟩
  · exact hshop
  · exact hshop

namespace Statements

variable {τ : Type} [Inhabited (Response β)] {h : Statements ρ β Shop τ} {d d' : Running β Shop τ}
  {keys keys' : Table Key (IdempotencyKey β)} {phase phase' : Phase β} {work work' : τ}

/-- A statement. -/
theorem advance_statement {claim : Option Key} (hwork : h.answer work = none) :
    h.advance sha256 req keys shop (.executing claim) work =
      (keys, (h.statement req.context work shop).1, .executing claim,
        (h.statement req.context work shop).2) := by
  simp only [advance, hwork]

/-- A step of the middleware; the handler, if it is called, has come to its answer. -/
theorem advance_middleware (phase : Phase β)
    (hphase : ∀ claim, phase = .executing claim → (h.answer work).isSome) :
    h.advance sha256 req keys shop phase work =
      ((Idempotency.advance sha256 (fun _ shop => (shop, (h.answer work).getD default)) req keys
          shop phase).1, shop,
        (Idempotency.advance sha256 (fun _ shop => (shop, (h.answer work).getD default)) req keys
          shop phase).2.2, work) := by
  unfold advance
  split
  · rename_i claim hnone
    have hsome := hphase claim rfl
    rw [hnone] at hsome
    cases hsome
  · exact Prod.ext rfl (Prod.ext (shop_advance _) rfl)

omit [Inhabited (Response β)] in
variable (h) in
/-- Every step of a request is one of the two. -/
theorem statement_or_middleware (phase : Phase β) (work : τ) :
    (∃ claim, phase = .executing claim ∧ h.answer work = none) ∨
      ∀ claim, phase = .executing claim → (h.answer work).isSome := by
  by_cases hstatement : ∃ claim, phase = .executing claim ∧ h.answer work = none
  · exact .inl hstatement
  · exact .inr fun claim hclaim => Option.isSome_iff_ne_none.mpr fun hnone =>
      hstatement ⟨claim, hclaim, hnone⟩

/-- The request `i` with what its handler has come to. -/
def At (requests : List (Request ρ)) (d : Running β Shop τ) (i : ℕ) (req : Request ρ)
    (phase : Phase β) (work : τ) : Prop :=
  Idempotency.At requests d.system i req phase ∧ d.works[i]? = some work

variable (h) (sha256) in
theorem step_of_at (hat : At requests d i req phase work) : h.step sha256 requests d i =
    ⟨⟨(h.advance sha256 req d.system.keys d.system.shop phase work).1,
        (h.advance sha256 req d.system.keys d.system.shop phase work).2.1,
        d.system.phases.set i (h.advance sha256 req d.system.keys d.system.shop phase work).2.2.1⟩,
      d.works.set i (h.advance sha256 req d.system.keys d.system.shop phase work).2.2.2⟩ := by
  unfold step
  simp only [hat.1.1, hat.1.2, hat.2]

variable (h) in
/-- What the system makes of a step: a statement moves what the handlers share, and otherwise
it is the middleware's. -/
theorem system_step (d : Running β Shop τ) (i : ℕ) :
    (∃ shop, (h.step sha256 requests d i).system = { d.system with shop }) ∨
      ∃ r, (h.step sha256 requests d i).system =
        Idempotency.step sha256 (fun _ shop => (shop, r)) requests d.system i := by
  cases hreq : requests[i]? with
  | none => exact .inl ⟨d.system.shop, by simp only [step, hreq]⟩
  | some req =>
    cases hphase : d.system.phases[i]? with
    | none => exact .inl ⟨d.system.shop, by simp only [step, hreq, hphase]⟩
    | some phase =>
      cases hwork : d.works[i]? with
      | none => exact .inl ⟨d.system.shop, by simp only [step, hreq, hphase, hwork]⟩
      | some work =>
        rw [step_of_at sha256 h ⟨⟨hreq, hphase⟩, hwork⟩]
        rcases statement_or_middleware h phase work with ⟨claim, rfl, hnone⟩ | hmiddleware
        · obtain ⟨hlt, heq⟩ := List.getElem?_eq_some_iff.mp hphase
          refine .inl ⟨(h.statement req.context work d.system.shop).1, ?_⟩
          rw [advance_statement hnone]
          simp only [← heq, List.set_getElem_self]
        · refine .inr ⟨(h.answer work).getD default, ?_⟩
          rw [advance_middleware phase hmiddleware, Idempotency.step]
          simp only [hreq, hphase]
          rw [shop_advance]

variable (h) (sha256) in
/-- **Every run.** -/
theorem consistent_run (shop : Shop) (schedule : List ℕ) :
    Consistent sha256 requests (h.run sha256 requests shop schedule).system := by
  induction schedule using List.reverseRec with
  | nil => exact consistent_start shop
  | append_singleton schedule i ih =>
    rw [run_concat]
    rcases system_step h (h.run sha256 requests shop schedule) i with ⟨shop', hstep⟩ | ⟨r, hstep⟩
    · rw [hstep]
      exact ⟨ih.fits, ih.row, ih.unique, ih.explained⟩
    · rw [hstep]
      exact ih.step i

/-! ### Whose answers -/

/-- What the handlers keep: `W` of the work of each, and `B` of the answers that its owner may
see. -/
structure Upholds (h : Statements ρ β Shop τ) (owner : ρ → ω) (W : ρ → Shop → τ → Prop)
    (B : ω → Shop → β → Prop) : Prop where
  first : ∀ context shop, W context shop h.first
  next : ∀ {context shop work}, W context shop work →
    W context (h.statement context work shop).1 (h.statement context work shop).2
  others : ∀ {context shop work} context' work', W context shop work →
    W context (h.statement context' work' shop).1 work
  answers : ∀ {context shop work r}, W context shop work → h.answer work = some r →
    B (owner context) shop r.body
  stays : ∀ {o shop body} context work, B o shop body →
    B o (h.statement context work shop).1 body

/-- What is so in every state of a run. -/
structure Upheld (owner : ρ → ω) (W : ρ → Shop → τ → Prop) (B : ω → Shop → β → Prop)
    (requests : List (Request ρ)) (d : Running β Shop τ) : Prop where
  work : ∀ i req phase work, At requests d i req phase work → W req.context d.system.shop work
  response : ∀ i req phase r, Idempotency.At requests d.system i req phase →
    phase.response = some r → B (owner req.context) d.system.shop r.body
  replayed : ∀ i req statusCode body,
    Idempotency.At requests d.system i req (.done (.replayed statusCode (some body))) →
    B (owner req.context) d.system.shop body

variable {W : ρ → Shop → τ → Prop} {B : ω → Shop → β → Prop}

omit [Inhabited (Response β)] in
theorem upheld_start (hW : h.Upholds owner W B) (shop : Shop) :
    Upheld owner W B requests (h.start requests shop) := by
  have harrived {i : ℕ} {req : Request ρ} {phase : Phase β}
      (hat : Idempotency.At requests (Idempotency.start requests shop) i req phase) :
      phase = .arrived := by
    obtain ⟨-, -, heq⟩ := Option.map_eq_some_iff.mp (List.getElem?_map.symm.trans hat.2)
    exact heq.symm
  refine ⟨fun i req phase work hat => ?_, fun i req phase r hat hr => ?_,
    fun i req statusCode body hat => ?_⟩
  · obtain ⟨-, -, rfl⟩ := Option.map_eq_some_iff.mp (List.getElem?_map.symm.trans hat.2)
    exact hW.first _ _
  · obtain rfl := harrived hat
    cases hr
  · cases harrived hat

omit [Inhabited (Response β)] in
/-- A repeat shows the answer of the request that holds the key. -/
theorem Upheld.existing (hd : Upheld owner W B requests d)
    (hc : Consistent sha256 requests d.system)
    (hfree : Undisturbed sha256 owner requests d.system i)
    (hat : Idempotency.At requests d.system i req (.conflicted k)) {statusCode : ℕ} {body : β}
    (hexisting : existingAnswer req.route (sha256 req.body) (d.system.keys.lookup k) =
      .replayed statusCode (some body)) : B (owner req.context) d.system.shop body := by
  cases hrow : d.system.keys.lookup k with
  | none =>
    rw [hrow] at hexisting
    cases hexisting
  | some row =>
    -- some request has inserted the row, and by the condition it is one of the same owner
    obtain ⟨j, hj⟩ := (hc.row k row).mp hrow
    obtain ⟨req', phase, hat', hk, hclaim⟩ := id hj
    have howner := hfree req _ k hat (.inr rfl) j row req' hj hat'.1
    rw [hrow] at hexisting
    simp only [existingAnswer] at hexisting
    split_ifs at hexisting
    rcases claimRow_eq_some hclaim with rfl | ⟨r, hr, -, hstatus, hresponse⟩
    · cases hexisting
    · rw [hstatus] at hexisting
      injection hexisting with _ hbody
      obtain rfl := Option.some.inj (hresponse.symm.trans hbody)
      rw [← howner]
      exact hd.response j req' phase r hat' hr

omit [Inhabited (Response β)] in
/-- A statement of a handler. -/
theorem Upheld.statement (hd : Upheld owner W B requests d) (hW : h.Upholds owner W B)
    {claim : Option Key} (hat : At requests d i req (.executing claim) work) :
    Upheld owner W B requests
      ⟨⟨d.system.keys, (h.statement req.context work d.system.shop).1,
          d.system.phases.set i (.executing claim)⟩,
        d.works.set i (h.statement req.context work d.system.shop).2⟩ := by
  have hold {j : ℕ} {req' : Request ρ} {phase : Phase β}
      (hj : Idempotency.At requests ⟨d.system.keys,
        (h.statement req.context work d.system.shop).1,
        d.system.phases.set i (.executing claim)⟩ j req' phase) :
      Idempotency.At requests d.system j req' phase := by
    rcases at_set hj with ⟨rfl, rfl⟩ | ⟨-, hj'⟩
    · exact ⟨hj.1, hat.1.2⟩
    · exact hj'
  refine ⟨fun j req' phase work' hj => ?_, fun j req' phase r hj hr => ?_,
    fun j req' statusCode body hj => ?_⟩
  · by_cases hji : j = i
    · subst hji
      obtain rfl := Option.some.inj (hat.1.1.symm.trans hj.1.1)
      have hwork' := hj.2
      rw [List.getElem?_set_self', hat.2] at hwork'
      obtain rfl := Option.some.inj hwork'
      exact hW.next (hd.work j req _ work hat)
    · refine hW.others _ _ (hd.work j req' phase work' ⟨hold hj.1, ?_⟩)
      exact (List.getElem?_set_ne (Ne.symm hji)).symm.trans hj.2
  · exact hW.stays _ _ (hd.response j req' phase r (hold hj) hr)
  · exact hW.stays _ _ (hd.replayed j req' statusCode body (hold hj))

/-- A step of the middleware, which passes on what the handler has answered, or what the row
of the key says. -/
theorem Upheld.middleware (hd : Upheld owner W B requests d) (hW : h.Upholds owner W B)
    (hc : Consistent sha256 requests d.system)
    (hfree : Undisturbed sha256 owner requests d.system i) (hat : At requests d i req phase work)
    (hmiddleware : ∀ claim, phase = .executing claim → (h.answer work).isSome) :
    Upheld owner W B requests
      ⟨⟨keys, d.system.shop, d.system.phases.set i (Idempotency.advance sha256
          (fun _ shop => (shop, (h.answer work).getD default)) req d.system.keys d.system.shop
          phase).2.2⟩, d.works.set i work⟩ := by
  refine ⟨fun j req' phase' work' hj => ?_, fun j req' phase' r hj hr => ?_,
    fun j req' statusCode body hj => ?_⟩
  · -- the work of the handler
    have hwork' : d.works[j]? = some work' := by
      have hset := hj.2
      by_cases hji : j = i
      · subst hji
        rw [List.getElem?_set_self', hat.2] at hset
        exact hat.2.trans hset
      · exact (List.getElem?_set_ne (Ne.symm hji)).symm.trans hset
    rcases at_set hj.1 with ⟨rfl, -⟩ | ⟨-, hj'⟩
    · exact hd.work j req' phase work' ⟨⟨hj.1.1, hat.1.2⟩, hwork'⟩
    · exact hd.work j req' phase' work' ⟨hj', hwork'⟩
  · -- an answer that is about to be stored is one of the handler
    rcases at_set hj with ⟨rfl, rfl⟩ | ⟨-, hj'⟩
    · obtain rfl := Option.some.inj (hat.1.1.symm.trans hj.1)
      rcases (moves_of_advance phase).cases_response with ⟨-, hsame⟩ | ⟨claim, hclaim, -, hnew⟩
      · exact hd.response j req phase r hat.1 (hsame.symm.trans hr)
      · obtain ⟨r', hr'⟩ := Option.isSome_iff_exists.mp (hmiddleware claim hclaim)
        obtain rfl := Option.some.inj (hnew.symm.trans hr)
        rw [hr']
        exact hW.answers (hd.work j req phase work hat) hr'
    · exact hd.response j req' phase' r hj' hr
  · -- an answer that is replayed was stored for the same owner
    rcases at_set hj with ⟨rfl, hdone⟩ | ⟨-, hj'⟩
    · obtain rfl := Option.some.inj (hat.1.1.symm.trans hj.1)
      rcases (moves_of_advance phase).replayed hdone.symm with ⟨k, rfl, hexisting⟩ | rfl
      · exact hd.existing hc hfree hat.1 hexisting
      · exact hd.replayed j req statusCode body hat.1
    · exact hd.replayed j req' statusCode body hj'

theorem Upheld.step (hd : Upheld owner W B requests d) (hW : h.Upholds owner W B)
    (hc : Consistent sha256 requests d.system)
    (hfree : Undisturbed sha256 owner requests d.system i) :
    Upheld owner W B requests (h.step sha256 requests d i) := by
  by_cases hat : ∃ req phase work, At requests d i req phase work
  · obtain ⟨req, phase, work, hat⟩ := hat
    rw [step_of_at sha256 h hat]
    rcases statement_or_middleware h phase work with ⟨claim, rfl, hnone⟩ | hmiddleware
    · rw [advance_statement hnone]
      exact hd.statement hW hat
    · rw [advance_middleware phase hmiddleware]
      exact hd.middleware hW hc hfree hat hmiddleware
  · -- there is no such request
    have hsame : h.step sha256 requests d i = d := by
      unfold Statements.step
      split
      · rename_i req phase work hreq hphase hwork
        exact absurd ⟨req, phase, work, ⟨hreq, hphase⟩, hwork⟩ hat
      · rfl
    rw [hsame]
    exact hd

variable (sha256) in
/-- **Own answers.** If no step of the run comes upon another owner's row, every answer is one
that the owner of its request may see. -/
theorem upheld_run (hW : h.Upholds owner W B) {schedule : List ℕ}
    (hfree : ∀ before i, before ++ [i] <+: schedule →
      Undisturbed sha256 owner requests (h.run sha256 requests shop before).system i) :
    Upheld owner W B requests (h.run sha256 requests shop schedule) := by
  induction schedule using List.reverseRec with
  | nil => exact upheld_start hW shop
  | append_singleton schedule i ih =>
    rw [run_concat]
    have hd := ih fun before j hb => hfree before j (hb.trans (List.prefix_append _ _))
    exact hd.step hW (consistent_run sha256 h shop schedule) (hfree schedule i List.prefix_rfl)

omit [Inhabited (Response β)] in
/-- The body of an answer, whichever way it was given. -/
theorem Upheld.body (hd : Upheld owner W B requests d) {a : Answer β} {body : β}
    (hat : Idempotency.At requests d.system i req (.done a)) (hbody : a.body = some body) :
    B (owner req.context) d.system.shop body := by
  cases a with
  | refused e => cases hbody
  | replayed statusCode response =>
    obtain rfl : response = some body := hbody
    exact hd.replayed i req statusCode body hat
  | handled r =>
    obtain rfl := Option.some.inj hbody
    exact hd.response i req _ r hat rfl

/-! ### Two runs -/

section TwoRuns

variable [DecidableEq ω]

/-- The handler would answer at once, and its first statement does not touch what the handlers
share. -/
def Stops (h : Statements ρ β Shop τ) (context : ρ) (shop : Shop) : Prop :=
  (h.statement context h.first shop).1 = shop ∧
    (h.answer (h.statement context h.first shop).2).isSome

/-- The turn of a request whose header the middleware has found taken or malformed. -/
def Suppressed (req : Request ρ) : Phase β → Prop
  | .conflicted _ => True
  | .done _ => admission req = .invalid
  | _ => False

instance (req : Request ρ) (phase : Phase β) : Decidable (Suppressed req phase) := by
  cases phase <;> unfold Suppressed <;> infer_instance

/-- If the next step is that of a request of another owner that the middleware answers, then the
handler would have answered it at once. -/
def Spared (h : Statements ρ β Shop τ) (owner : ρ → ω) (o : ω) (requests : List (Request ρ))
    (c : System β Shop) (i : ℕ) : Prop :=
  ∀ req phase, Idempotency.At requests c i req phase → owner req.context ≠ o →
    Suppressed req phase → h.Stops req.context c.shop

/-- Where a request is that has lost its header, when the same request with its header is at the
first phase. -/
inductive Follows (h : Statements ρ β Shop τ) (req : Request ρ) :
    Phase β → τ → Phase β → τ → Prop
  | arrived : Follows h req .arrived h.first .arrived h.first
  | executing {claim : Option Key} {work : τ} :
      Follows h req (.executing claim) work (.executing none) work
  | recording {k : Key} {r : Response β} {work work' : τ} {a : Answer β} :
      Follows h req (.recording k r) work (.done a) work'
  | sending {r : Response β} {work work' : τ} {a : Answer β} :
      Follows h req (.sending r) work (.done a) work'
  | done {a a' : Answer β} {work work' : τ} : Follows h req (.done a) work (.done a') work'
  /-- the middleware answers, and the handler begins -/
  | conflicted {k : Key} {work : τ} :
      Follows h req (.conflicted k) work (.executing none) h.first
  | malformed {a : Answer β} {work : τ} (hreq : admission req = .invalid) :
      Follows h req (.done a) work (.executing none) h.first
  /-- the middleware has answered, and so has the handler -/
  | stopping {a : Answer β} {work work' : τ} (hwork : (h.answer work').isSome) :
      Follows h req (.done a) work (.executing none) work'

variable (sha256) in
/-- The handler begins where it would stop. -/
theorem Stops.advance (hstops : h.Stops req.context shop) (keys : Table Key (IdempotencyKey β))
    (a : Answer β) (work : τ) :
    (h.advance sha256 { req with idempotencyKey := none } keys shop (.executing none)
        h.first).2.1 = shop ∧
      h.Follows req (.done a) work
        (h.advance sha256 { req with idempotencyKey := none } keys shop (.executing none)
          h.first).2.2.1
        (h.advance sha256 { req with idempotencyKey := none } keys shop (.executing none)
          h.first).2.2.2 := by
  cases hfirst : h.answer h.first with
  | none =>
    rw [advance_statement hfirst]
    exact ⟨hstops.1, .stopping hstops.2⟩
  | some r =>
    rw [advance_middleware _ fun _ _ => by rw [hfirst]; rfl]
    exact ⟨rfl, .done⟩

variable (sha256) in
/-- A request of another owner, in both runs. -/
theorem Follows.advance (hp : h.Follows req phase work phase' work')
    (keys keys' : Table Key (IdempotencyKey β))
    (hstops : Suppressed req phase → h.Stops req.context shop) :
    (h.advance sha256 { req with idempotencyKey := none } keys' shop phase' work').2.1 =
        (h.advance sha256 req keys shop phase work).2.1 ∧
      h.Follows req (h.advance sha256 req keys shop phase work).2.2.1
        (h.advance sha256 req keys shop phase work).2.2.2
        (h.advance sha256 { req with idempotencyKey := none } keys' shop phase' work').2.2.1
        (h.advance sha256 { req with idempotencyKey := none } keys' shop phase' work').2.2.2 := by
  have hended {a : Answer β} {keys : Table Key (IdempotencyKey β)} {req : Request ρ} {work : τ} :
      h.advance sha256 req keys shop (.done a) work = (keys, shop, .done a, work) := by
    rw [advance_middleware (.done a) (by simp)]
    rfl
  cases hp with
  | arrived =>
    rw [advance_middleware .arrived (by simp), advance_middleware .arrived (by simp)]
    -- without its header the request goes to the handler; with it, that depends on the key
    refine ⟨rfl, ?_⟩
    change h.Follows req _ h.first (.executing none) h.first
    cases hreq : admission req with
    | unkeyed =>
      simp only [Idempotency.advance, hreq]
      exact .executing
    | invalid =>
      simp only [Idempotency.advance, hreq]
      exact .malformed hreq
    | keyed k =>
      cases hrow : keys.lookup k with
      | some row =>
        simp only [Idempotency.advance, hreq, hrow]
        exact .conflicted
      | none =>
        simp only [Idempotency.advance, hreq, hrow]
        exact .executing
  | @executing claim =>
    cases hwork : h.answer work with
    | none =>
      rw [advance_statement hwork, advance_statement hwork]
      exact ⟨rfl, .executing⟩
    | some r =>
      have hsome : (h.answer work).isSome := by rw [hwork]; rfl
      rw [advance_middleware (.executing claim) fun _ _ => hsome,
        advance_middleware (.executing none) fun _ _ => hsome]
      refine ⟨rfl, ?_⟩
      cases claim with
      | none => exact .done
      | some k => exact .recording
  | @recording k r =>
    rw [hended, advance_middleware (.recording k r) (by simp)]
    exact ⟨rfl, .sending⟩
  | @sending r =>
    rw [hended, advance_middleware (.sending r) (by simp)]
    exact ⟨rfl, .done⟩
  | done =>
    rw [hended, hended]
    exact ⟨rfl, .done⟩
  | @conflicted k =>
    rw [advance_middleware (.conflicted k) (by simp)]
    exact (hstops trivial).advance sha256 keys' _ work
  | @malformed a _ hreq =>
    rw [hended]
    exact (hstops hreq).advance sha256 keys' a _
  | stopping hwork =>
    rw [hended, advance_middleware (.executing none) fun _ _ => hwork]
    exact ⟨rfl, .done⟩

/-- Two runs in which the handlers share the same, the owner's requests have come equally far,
and the others follow. -/
structure Beside (h : Statements ρ β Shop τ) (owner : ρ → ω) (o : ω)
    (requests : List (Request ρ)) (d d' : Running β Shop τ) : Prop where
  shop : d'.system.shop = d.system.shop
  paired : ∀ i req, requests[i]? = some req → ∃ phase work phase' work',
    At requests d i req phase work ∧
      d'.system.phases[i]? = some phase' ∧ d'.works[i]? = some work' ∧
      if owner req.context = o then phase' = phase ∧ work' = work
        else h.Follows req phase work phase' work'

omit [Inhabited (Response β)] in
theorem beside_start (shop : Shop) : h.Beside owner o requests (h.start requests shop)
    (h.start (withoutKeys owner o requests) shop) := by
  refine ⟨rfl, fun i req hreq => ⟨.arrived, h.first, .arrived, h.first, ⟨⟨hreq, ?_⟩, ?_⟩, ?_, ?_,
    ?_⟩⟩
  · exact (List.getElem?_map ..).trans (congrArg _ hreq)
  · exact (List.getElem?_map ..).trans (congrArg _ hreq)
  · simp [start, Idempotency.start, withoutKeys, hreq]
  · simp [start, withoutKeys, hreq]
  · split_ifs
    · exact ⟨rfl, rfl⟩
    · exact .arrived

omit [Inhabited (Response β)] in
/-- The owner's requests have come equally far. -/
theorem Beside.agree (hb : h.Beside owner o requests d d') :
    Agree owner o requests d.system d'.system := by
  intro i req hreq ho
  obtain ⟨phase, work, phase', work', ⟨hat, -⟩, hphase', -, hpaired⟩ := hb.paired i req hreq
  rw [if_pos ho] at hpaired
  rw [hphase', hat.2, hpaired.1]

omit [Inhabited (Response β)] in
/-- The request `i` has come to other phases. -/
theorem Beside.set (hb : h.Beside owner o requests d d') (hreq : requests[i]? = some req)
    (hpaired : if owner req.context = o then phase' = phase ∧ work' = work
      else h.Follows req phase work phase' work') :
    h.Beside owner o requests
      ⟨⟨keys, shop, d.system.phases.set i phase⟩, d.works.set i work⟩
      ⟨⟨keys', shop, d'.system.phases.set i phase'⟩, d'.works.set i work'⟩ := by
  refine ⟨rfl, fun j req' hreq' => ?_⟩
  obtain ⟨phase₀, work₀, phase₀', work₀', ⟨hat, hwork⟩, hphase', hwork', hold⟩ :=
    hb.paired j req' hreq'
  by_cases hji : j = i
  · subst hji
    obtain rfl := Option.some.inj (hreq.symm.trans hreq')
    refine ⟨phase, work, phase', work', ⟨at_set_self hat, ?_⟩, ?_, ?_, hpaired⟩
    · rw [List.getElem?_set_self', hwork]
      rfl
    · rw [List.getElem?_set_self', hphase']
      rfl
    · rw [List.getElem?_set_self', hwork']
      rfl
  · have hij : i ≠ j := Ne.symm hji
    refine ⟨phase₀, work₀, phase₀', work₀', ⟨at_set_ne hat hji, ?_⟩, ?_, ?_, hold⟩
    · exact (List.getElem?_set_ne hij).trans hwork
    · exact (List.getElem?_set_ne hij).trans hphase'
    · exact (List.getElem?_set_ne hij).trans hwork'

/-- What a request with its header looks at decides its step. -/
theorem advance_congr (hkeys : ∀ k, (phase = .arrived ∧ admission req = .keyed k) ∨
      phase = .conflicted k → keys.lookup k = keys'.lookup k) :
    (h.advance sha256 req keys shop phase work).2 =
      (h.advance sha256 req keys' shop phase work).2 := by
  rcases statement_or_middleware h phase work with ⟨claim, rfl, hnone⟩ | hmiddleware
  · rw [advance_statement hnone, advance_statement hnone]
  · rw [advance_middleware phase hmiddleware, advance_middleware phase hmiddleware]
    exact congrArg (fun phase' => (shop, phase', work))
      (Idempotency.advance_congr hkeys fun _ _ => rfl)

/-- One step of the same request in both runs. -/
theorem Beside.step (hb : h.Beside owner o requests d d')
    (hc : Consistent sha256 requests d.system)
    (hc' : Consistent sha256 (withoutKeys owner o requests) d'.system)
    (hfree : Undisturbed sha256 owner requests d.system i)
    (hspared : h.Spared owner o requests d.system i) :
    h.Beside owner o requests (h.step sha256 requests d i)
      (h.step sha256 (withoutKeys owner o requests) d' i) := by
  cases hreq : requests[i]? with
  | none =>
    have hnone : (withoutKeys owner o requests)[i]? = none := by
      rw [withoutKeys, List.getElem?_map, hreq]
      rfl
    simp only [Statements.step, hreq, hnone]
    exact hb
  | some req =>
    obtain ⟨phase, work, phase', work', hat, hphase', hwork', hpaired⟩ := hb.paired i req hreq
    rw [step_of_at sha256 h hat]
    by_cases ho : owner req.context = o
    · -- a request of the owner finds the same under its key in both runs
      rw [if_pos ho] at hpaired
      obtain ⟨rfl, rfl⟩ := hpaired
      rw [step_of_at sha256 h ⟨⟨getElem?_withoutKeys hreq ho, hphase'⟩, hwork'⟩, hb.shop]
      have hkeys (k : Key) (hk : (phase' = .arrived ∧ admission req = .keyed k) ∨
          phase' = .conflicted k) : d.system.keys.lookup k = d'.system.keys.lookup k :=
        hb.agree.lookup hc hc' fun j row req' hj hreq' =>
          (hfree req phase' k hat.1 hk j row req' hj hreq').trans ho
      rw [advance_congr hkeys]
      refine hb.set hreq ?_
      rw [if_pos ho]
      exact ⟨rfl, rfl⟩
    · -- a request of another owner has lost its header
      rw [if_neg ho] at hpaired
      have hreq' : (withoutKeys owner o requests)[i]? =
          some { req with idempotencyKey := none } := by
        rw [withoutKeys, List.getElem?_map, hreq]
        simp [ho]
      rw [step_of_at sha256 h ⟨⟨hreq', hphase'⟩, hwork'⟩, hb.shop]
      obtain ⟨hshop, hfollows⟩ := hpaired.advance sha256 d.system.keys d'.system.keys
        fun hsuppressed => hspared req phase hat.1 ho hsuppressed
      rw [hshop]
      refine hb.set hreq ?_
      rw [if_neg ho]
      exact hfollows

/-- **Owners apart.** If no step of the run comes upon another owner's row, and what the
middleware answers of the others the handler would have refused at once, then the owner's
requests come to the same phases, answers included, as if the other requests had no keys, and
the handlers leave the same behind. -/
theorem beside_run {schedule : List ℕ}
    (hfree : ∀ before i, before ++ [i] <+: schedule →
      Undisturbed sha256 owner requests (h.run sha256 requests shop before).system i)
    (hspared : ∀ before i, before ++ [i] <+: schedule →
      h.Spared owner o requests (h.run sha256 requests shop before).system i) :
    h.Beside owner o requests (h.run sha256 requests shop schedule)
      (h.run sha256 (withoutKeys owner o requests) shop schedule) := by
  induction schedule using List.reverseRec with
  | nil => exact beside_start shop
  | append_singleton schedule i ih =>
    rw [run_concat, run_concat]
    have hbeside := ih (fun before j hb => hfree before j (hb.trans (List.prefix_append _ _)))
      fun before j hb => hspared before j (hb.trans (List.prefix_append _ _))
    exact hbeside.step (consistent_run sha256 h _ _) (consistent_run sha256 h _ _)
      (hfree schedule i List.prefix_rfl) (hspared schedule i List.prefix_rfl)

end TwoRuns

end Statements

end PulseOps.Idempotency
