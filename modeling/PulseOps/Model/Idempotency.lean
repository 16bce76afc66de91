import PulseOps.Model.Rows

/-!
# Requests with an `Idempotency-Key`

The middleware `idempotent` of `common/middleware/idempotency.js` around an arbitrary handler.
A request goes through the middleware and its handler in steps, and the steps of any number
of requests are interleaved: every statement on the table of keys is a step of its own, and
so are the run of the handler and the sending of its answer. What the handlers share is one
more part of the state.

The statements on the table succeed, and nothing is cleaned up: the night's job is left out,
and with it the column `created_at`.

A handler of several statements runs one of them at a step, so that the statements of the
handlers are interleaved too; `res.json` is then called in a step of its own.
-/

set_option autoImplicit false

namespace PulseOps.Idempotency

/-! ### Requests and answers -/

/-- What a handler passes to `res.json`, with the status it has set. -/
structure Response (β : Type) where
  statusCode : ℕ
  body : β
  deriving DecidableEq, Repr

/-- `statusCode >= 200 && statusCode < 300`. -/
def Response.ok {β : Type} (r : Response β) : Bool := 200 ≤ r.statusCode ∧ r.statusCode < 300

/-- What a client receives. -/
inductive Answer (β : Type) where
  /-- an error of the middleware itself -/
  | refused (e : AppError)
  /-- the stored answer, with `Idempotent-Replayed` -/
  | replayed (statusCode : ℕ) (response : Option β)
  /-- what the handler has answered -/
  | handled (r : Response β)
  deriving DecidableEq, Repr

/-- The status a client sees. -/
def Answer.statusCode {β : Type} : Answer β → ℕ
  | .refused e => e.statusCode
  | .replayed statusCode _ => statusCode
  | .handled r => r.statusCode

/-- The body of a stored answer or of one from a handler. -/
def Answer.body {β : Type} : Answer β → Option β
  | .refused _ => none
  | .replayed _ response => response
  | .handled r => some r.body

/-- A request. The body is given as the text of `JSON.stringify(req.body ?? {})`, and
`context` is what else the handler looks at. -/
structure Request (ρ : Type) where
  method : String
  baseUrl : String
  path : String
  idempotencyKey : Option String
  scopeId : Option Uuid
  body : String
  context : ρ
  deriving DecidableEq, Repr

/-- `${req.method} ${req.baseUrl}${req.route?.path ?? req.path}`. -/
def Request.route {ρ : Type} (req : Request ρ) : String :=
  req.method ++ " " ++ req.baseUrl ++ req.path

/-- The primary key of the table. -/
abbrev Key := Uuid × String

/-- A row of `idempotency_keys`. -/
structure IdempotencyKey (β : Type) where
  route : String
  requestHash : String
  statusCode : Option ℕ := none
  response : Option β := none
  deriving DecidableEq, Repr

/-! ### Errors -/

def invalidIdempotencyKey : AppError :=
  ⟨"Idempotency-Key must be 8–255 letters, digits or ._:-", 400, "INVALID_IDEMPOTENCY_KEY"⟩

def idempotencyRetry : AppError := ⟨"Please retry the request", 409, "IDEMPOTENCY_RETRY"⟩

def idempotencyKeyReused : AppError :=
  ⟨"This Idempotency-Key was already used for a different request", 422,
    "IDEMPOTENCY_KEY_REUSED"⟩

def idempotencyInProgress : AppError :=
  ⟨"The same request is still being processed", 409, "IDEMPOTENCY_IN_PROGRESS"⟩

/-! ### The middleware -/

/-- `/^[A-Za-z0-9_.:-]{8,255}$/`. -/
def keyPattern (key : String) : Bool :=
  8 ≤ key.length ∧ key.length ≤ 255 ∧
    key.toList.all fun ch => ch.isAlphanum || ch ∈ ['_', '.', ':', '-']

/-- How `idempotent` treats a request before it asks the database. -/
inductive Admission where
  /-- `next()`: no header, or no scope -/
  | unkeyed
  | invalid
  | keyed (k : Key)
  deriving DecidableEq, Repr

variable {ρ β Shop : Type}

/-- The checks in front of the `INSERT`. An empty header or scope counts as none. -/
def admission (req : Request ρ) : Admission :=
  match req.idempotencyKey.filter (· ≠ "") with
  | none => .unkeyed
  | some key =>
    if keyPattern key then
      match req.scopeId.filter (· ≠ "") with
      | none => .unkeyed
      | some scopeId => .keyed (scopeId, key)
    else .invalid

/-- Where a request is. -/
inductive Phase (β : Type) where
  | arrived
  /-- the `INSERT` has found the key taken -/
  | conflicted (k : Key)
  /-- the handler runs; with a key, `res.json` is the one that saves first -/
  | executing (claim : Option Key)
  /-- `res.json` was called under the key, and the row is not written yet -/
  | recording (k : Key) (r : Response β)
  /-- the row is written, and the answer is not sent yet -/
  | sending (r : Response β)
  | done (a : Answer β)
  deriving DecidableEq, Repr

/-- The table of keys, what the handlers share, and the requests. -/
structure System (β Shop : Type) where
  keys : Table Key (IdempotencyKey β)
  shop : Shop
  phases : List (Phase β)

/-- The answer to a repeat, from the row that `findUnique` returns. -/
def existingAnswer (route requestHash : String) : Option (IdempotencyKey β) → Answer β
  | none => .refused idempotencyRetry
  | some existing =>
    if existing.route ≠ route ∨ existing.requestHash ≠ requestHash then
      .refused idempotencyKeyReused
    else
      match existing.statusCode with
      | none => .refused idempotencyInProgress
      | some statusCode => .replayed statusCode existing.response

/-- The save in the wrapped `res.json`: a 2xx answer is kept, any other frees the key. That
the row is gone is only logged. -/
def save (k : Key) (r : Response β) (keys : Table Key (IdempotencyKey β)) :
    Table Key (IdempotencyKey β) :=
  if r.ok then
    match keys.lookup k with
    | none => keys
    | some row =>
      keys.insert k { row with statusCode := some r.statusCode, response := some r.body }
  else keys.erase k

variable (sha256 : String → String) (handler : Request ρ → Shop → Shop × Response β)

/-- The next step of a request. -/
def advance (req : Request ρ) (keys : Table Key (IdempotencyKey β)) (shop : Shop) :
    Phase β → Table Key (IdempotencyKey β) × Shop × Phase β
  | .arrived =>
    match admission req with
    | .unkeyed => (keys, shop, .executing none)
    | .invalid => (keys, shop, .done (.refused invalidIdempotencyKey))
    | .keyed k =>
      -- `INSERT … ON CONFLICT DO NOTHING`
      match keys.lookup k with
      | some _ => (keys, shop, .conflicted k)
      | none =>
        (keys.insert k { route := req.route, requestHash := sha256 req.body }, shop,
          .executing (some k))
  | .conflicted k =>
    (keys, shop, .done (existingAnswer req.route (sha256 req.body) (keys.lookup k)))
  | .executing claim =>
    let (shop', r) := handler req shop
    match claim with
    | none => (keys, shop', .done (.handled r))
    | some k => (keys, shop', .recording k r)
  | .recording k r => (save k r keys, shop, .sending r)
  | .sending r => (keys, shop, .done (.handled r))
  | .done a => (keys, shop, .done a)

/-- One step of the request `i`; nothing happens if there is no such request. -/
def step (requests : List (Request ρ)) (c : System β Shop) (i : ℕ) : System β Shop :=
  match requests[i]?, c.phases[i]? with
  | some req, some phase =>
    let (keys, shop, phase') := advance sha256 handler req c.keys c.shop phase
    ⟨keys, shop, c.phases.set i phase'⟩
  | _, _ => c

/-- No key is taken, and no request has been looked at. -/
def start (requests : List (Request ρ)) (shop : Shop) : System β Shop :=
  ⟨∅, shop, requests.map fun _ => .arrived⟩

/-- The requests take their steps in the order of the schedule. -/
def run (requests : List (Request ρ)) (shop : Shop) (schedule : List ℕ) : System β Shop :=
  schedule.foldl (step sha256 handler requests) (start requests shop)

theorem run_concat (requests : List (Request ρ)) (shop : Shop) (schedule : List ℕ) (i : ℕ) :
    run sha256 handler requests shop (schedule ++ [i]) =
      step sha256 handler requests (run sha256 handler requests shop schedule) i := by
  simp [run]

/-! ### Handlers of several statements -/

/-- A handler that asks the database several times: how it begins, what its next statement
does, and the answer it has come to. -/
structure Statements (ρ β Shop ω : Type) where
  first : ω
  statement : ρ → ω → Shop → Shop × ω
  answer : ω → Option (Response β)

/-- The system, and how far the handler of each request is. -/
structure Running (β Shop ω : Type) where
  system : System β Shop
  works : List ω

namespace Statements

variable {ω : Type} [Inhabited (Response β)] (h : Statements ρ β Shop ω)

/-- The next step of a request: a statement of its handler, or a step of the middleware, in
which a handler that has come to its answer passes it to `res.json`. -/
def advance (req : Request ρ) (keys : Table Key (IdempotencyKey β)) (shop : Shop)
    (phase : Phase β) (work : ω) : Table Key (IdempotencyKey β) × Shop × Phase β × ω :=
  match phase, h.answer work with
  | .executing claim, none =>
    let (shop', work') := h.statement req.context work shop
    (keys, shop', .executing claim, work')
  | phase, answer =>
    let (keys', shop', phase') :=
      Idempotency.advance sha256 (fun _ shop => (shop, answer.getD default)) req keys shop phase
    (keys', shop', phase', work)

/-- One step of the request `i`; nothing happens if there is no such request. -/
def step (requests : List (Request ρ)) (c : Running β Shop ω) (i : ℕ) : Running β Shop ω :=
  match requests[i]?, c.system.phases[i]?, c.works[i]? with
  | some req, some phase, some work =>
    let (keys, shop, phase', work') := h.advance sha256 req c.system.keys c.system.shop phase work
    ⟨⟨keys, shop, c.system.phases.set i phase'⟩, c.works.set i work'⟩
  | _, _, _ => c

/-- No key is taken, and no request has been looked at. -/
def start (requests : List (Request ρ)) (shop : Shop) : Running β Shop ω :=
  ⟨Idempotency.start requests shop, requests.map fun _ => h.first⟩

/-- The requests take their steps in the order of the schedule. -/
def run (requests : List (Request ρ)) (shop : Shop) (schedule : List ℕ) : Running β Shop ω :=
  schedule.foldl (h.step sha256 requests) (h.start requests shop)

theorem run_concat (requests : List (Request ρ)) (shop : Shop) (schedule : List ℕ) (i : ℕ) :
    h.run sha256 requests shop (schedule ++ [i]) =
      h.step sha256 requests (h.run sha256 requests shop schedule) i := by
  simp [run]

end Statements

end PulseOps.Idempotency
