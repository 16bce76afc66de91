import PulseOps.Model.Payments
import PulseOps.ReadCommitted.Statements

/-!
# The webhook queue

`jobs/queues/webhook.queue.js`, `jobs/processors/webhook.processor.js` and the `webhookHandler`
of `payments/payments.controller.js`: the way of a generic event from the provider to
`PaymentService.handleWebhook`. A delivery becomes a job of the queue, and a worker handles
it; while Redis is away the request handles it itself.

The queue itself is BullMQ. It keeps a job under its id, finished ones too until they are
cleaned up, and ignores a job whose id it has. A job is handled at least once: a worker may
take it again after an error or a stall.

A payload whose metadata names a secret is refused before it reaches the queue; that check
is left out with the metadata.
-/

set_option autoImplicit false

open ReadCommitted Program

namespace PulseOps

deriving instance DecidableEq for PaymentService.WebhookPayload

/-- A request to `POST /payments/webhook`. -/
structure Delivery where
  rawBody : String
  payload : PaymentService.WebhookPayload
  signature : Option String
  deriving DecidableEq

namespace PaymentService

/-- Lengths count UTF-16 units. -/
def utf16Length (s : String) : ℕ := (s.toList.map fun c => if c.val < 0x10000 then 1 else 2).sum

/-- `webhookSchema`. -/
def WebhookPayload.valid (payload : WebhookPayload) : Bool :=
  let short (x : Option String) : Bool := x.all fun s => utf16Length s ≤ 255
  (payload.eventId.any fun id => id ≠ "" ∧ utf16Length id ≤ 255) ∧
    short payload.providerPaymentId ∧ short payload.providerTransactionId ∧
    payload.type ∈ [.paymentSucceeded, .paymentFailed, .paymentRefunded, .chargeSucceeded,
      .chargeFailed]

end PaymentService

open PaymentService

/-- An event, its tenant and its payment, as `handleWebhook` has found them before it opens
its transaction. -/
structure Handling where
  delivery : Delivery
  eventId : String
  tenantId : Uuid
  payment : Uuid × Payment

namespace PaymentService

/-- The first half of `handleWebhook`; none when it stops with an error. -/
def locate (env : Environment) (d : Delivery) (s : Db) : Option Handling :=
  if verifyWebhookSignature env d.rawBody d.signature then do
    let eventId ← truthy d.payload.eventId
    let found := findForWebhook d.payload s
    let tenantId ← truthy d.payload.tenantId <|> found.map (·.2.tenantId)
    let payment ← found
    return ⟨d, eventId, tenantId, payment⟩
  else none

end PaymentService

/-- The row of an event. -/
def Handling.event (h : Handling) : PaymentWebhookEvent :=
  { tenantId := h.tenantId
    paymentId := some h.payment.1
    eventId := h.eventId
    providerEventId := some h.eventId
    providerPaymentId := truthy h.delivery.payload.providerPaymentId <|>
      h.payment.2.providerPaymentId
    type := h.delivery.payload.type.text
    payload := some
      { providerTransactionId := truthy h.delivery.payload.providerTransactionId
        amount := h.delivery.payload.amount } }

/-- The transaction of `handleWebhook`. -/
def Handling.record (h : Handling) : Sql (Option Payment) := do
  perform (Statement.insertPaymentWebhookEvent h.event)
  applyWebhook h.tenantId h.payment.1 h.payment.2 h.eventId h.delivery.payload
  query (PaymentRepository.findById h.payment.1 h.tenantId)

namespace PaymentService

/-- `handleWebhook` finds the payment and then records the event. -/
theorem runs_handleWebhook {answer : Call → Reply} {env : Environment} {d : Delivery} {s : Db}
    {a : Option Payment} {es : List Edit} :
    Runs answer (handleWebhook env d.rawBody d.payload d.signature) s a es ↔
      ∃ h, locate env d s = some h ∧ Runs answer h.record s a es := by
  simp only [handleWebhook, orThrow, ensure, runs_orRaise_bind, runs_require_bind,
    runs_query_bind, locate, Option.ite_none_right_eq_some, Option.bind_eq_bind,
    Option.bind_eq_some_iff]
  constructor
  · rintro ⟨eventId, hid, hsig, tenantId, htenant, payment, hfound, hrun⟩
    exact ⟨_, ⟨hsig, eventId, hid, tenantId, htenant, payment, hfound, rfl⟩, hrun⟩
  · rintro ⟨h, ⟨hsig, eventId, hid, tenantId, htenant, payment, hfound, hh⟩, hrun⟩
    obtain rfl := Option.some.inj hh
    exact ⟨eventId, hid, hsig, tenantId, htenant, payment, hfound, hrun⟩

end PaymentService

namespace WebhookQueue

/-- A custom id of BullMQ cannot contain `:`, so the queue writes `-` in its place. -/
def sanitize (id : String) : String :=
  String.ofList (id.toList.map fun c => if c = ':' then '-' else c)

/-- The job id of an event. -/
def jobId (eventId : String) : String := sanitize ("webhook-" ++ eventId)

/-- Two events can only share a job id when one of their ids has a colon. -/
theorem eq_of_jobId_eq {id id' : String} (hid : ':' ∉ id.toList) (hid' : ':' ∉ id'.toList)
    (h : jobId id = jobId id') : id = id' := by
  have hkept {cs : List Char} (hcs : ':' ∉ cs) :
      cs.map (fun c => if c = ':' then '-' else c) = cs := by
    have hsame : ∀ c ∈ cs, (if c = ':' then '-' else c) = c := by
      intro c hc
      apply if_neg
      rintro rfl
      exact hcs hc
    rw [List.map_congr_left hsame, List.map_id']
  unfold jobId sanitize at h
  rw [String.ofList_inj, String.toList_append, String.toList_append, List.map_append,
    List.map_append, hkept hid, hkept hid'] at h
  exact String.toList_inj.mp (List.append_cancel_left h)

end WebhookQueue

/-- The job id `enqueueWebhook` gives a delivery. -/
def Delivery.jobId (d : Delivery) : String :=
  WebhookQueue.jobId (d.payload.eventId.getD "undefined")

/-- Deliveries on their way: the transactions that handle them, each with the event it is
for, the jobs the queue keeps, and what was accepted so far, newest first. -/
structure Intake where
  db : Config sales Unit
  handling : List Handling
  jobs : List Delivery
  accepted : List Delivery

inductive WebhookAction where
  /-- a request arrives and goes to the queue -/
  | enqueue (d : Delivery)
  /-- a request arrives while Redis is away -/
  | fallback (d : Delivery)
  /-- the queue cleans up a job -/
  | remove (jobId : String)
  /-- a worker, or the request itself, starts to handle a delivery -/
  | handle (d : Delivery)
  | database (x : Action sales)

namespace Intake

/-- Nothing has been delivered yet. -/
def start (s : Db) : Intake := ⟨.start s [], [], [], []⟩

/-- The queue has a job with the id of this delivery. -/
def drops (σ : Intake) (d : Delivery) : Bool := σ.jobs.any fun job => job.jobId = d.jobId

/-- What lets a request in: the schema of the route and the signature. -/
def admits (env : Environment) (d : Delivery) : Bool :=
  d.payload.valid ∧ verifyWebhookSignature env d.rawBody d.signature

/-- One step of the way. -/
def step (env : Environment) (σ : Intake) : WebhookAction → Option Intake
  | .enqueue d =>
    if admits env d then
      some (if σ.drops d then σ
        else { σ with jobs := d :: σ.jobs, accepted := d :: σ.accepted })
    else none
  | .fallback d =>
    if admits env d then some { σ with accepted := d :: σ.accepted } else none
  | .remove jobId => some { σ with jobs := σ.jobs.filter (·.jobId ≠ jobId) }
  | .handle d =>
    if d ∈ σ.accepted then
      some (match locate env d σ.db.committed with
        | none => σ
        | some h =>
          { σ with
            db := σ.db.spawn (do let _ ← h.record)
            handling := σ.handling ++ [h] })
    else none
  | .database x => (σ.db.step (.free sales) x).map fun db => { σ with db }

/-- A whole run. -/
def run (env : Environment) (σ : Intake) : List WebhookAction → Option Intake
  | [] => some σ
  | x :: xs => (σ.step env x).bind fun σ' => σ'.run env xs

/-- The next statement of a transaction meets a unique index, and `handleWebhook` answers
that the event is a duplicate. -/
def refuses (σ : Intake) (i : ℕ) : Prop := σ.db.Stops i (.database .uniqueViolation)

end Intake

end PulseOps
