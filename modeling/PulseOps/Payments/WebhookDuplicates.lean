import PulseOps.Model.WebhookQueue
import PulseOps.Payments.Runs

/-!
# Duplicate deliveries of an event

Providers deliver an event again until it is acknowledged. Two places drop the deliveries
that are too many: the queue, by the job id, and `handleWebhook`, by the unique indexes its
transaction meets. Neither goes by the event itself. The job id writes `-` for `:` and does
not name the tenant, one index is over the event id of all tenants, and another is over the
transactions of payments.

So an event can be dropped that was never delivered before. A step can only go wrong where
another event has the job id, the event id or the transaction id; everywhere else a duplicate
answer is right.

## Main definitions

* `SameEvent` — two deliveries of one event.
* `Intake.Recorded` — the event was recorded before, by a transaction of its own.
* `Intake.Exact` — a duplicate answer of the next step is right.
* `Intake.Apart` — the next step meets no other event.

## Main results

* `Intake.Reaches.sound` — what is on record was accepted.
* `reaches_exact` — where a step meets no other event, its duplicate answer is right.
* `colonEvent_not_exact` — `evt:1` drops `evt-1`.
-/

set_option autoImplicit false

open ReadCommitted Program

namespace PulseOps

open PaymentService

variable {env : Environment} {s s' s₀ : Db} {e : Edit} {es : List Edit} {h : Handling}
  {σ σ' : Intake} {x : WebhookAction}

/-! ### Right answers -/

/-- The tenant an event is for: the one it names, or that of its payment. -/
def Delivery.tenantIn (d : Delivery) (s : Db) : Option Uuid :=
  truthy d.payload.tenantId <|> (findForWebhook d.payload s).map (·.2.tenantId)

/-- Two deliveries of one event. -/
def SameEvent (s : Db) (d d' : Delivery) : Prop :=
  d.payload.eventId = d'.payload.eventId ∧ d.tenantIn s = d'.tenantIn s

instance (s : Db) (d d' : Delivery) : Decidable (SameEvent s d d') :=
  inferInstanceAs (Decidable (_ ∧ _))

/-- The row records this event: a generic one, so its payload is on record. -/
def Handling.RecordedBy (h : Handling) (row : PaymentWebhookEvent) : Prop :=
  row.tenantId = h.tenantId ∧ row.eventId = h.eventId ∧ row.payload.isSome

/-- The event was recorded before the run, or by a transaction that has committed, for a
delivery that was accepted. -/
def Intake.Recorded (s₀ : Db) (σ : Intake) (h : Handling) : Prop :=
  (∃ row ∈ s₀.paymentWebhookEvents, h.RecordedBy row) ∨
    ∃ (j : ℕ) (h' : Handling) (t : Transaction sales), σ.handling[j]? = some h' ∧
      σ.db.sessions[j]? = some (.committed () t) ∧ h'.delivery ∈ σ.accepted ∧
      h'.tenantId = h.tenantId ∧ h'.eventId = h.eventId

/-- When the next step answers a delivery as a duplicate, its event was accepted before. -/
def Intake.Exact (s₀ : Db) (σ : Intake) : WebhookAction → Prop
  | .enqueue d => σ.drops d = true →
      ∃ d' ∈ σ.accepted, SameEvent σ.db.committed d' d
  | .database (.advance i) => ∀ h, σ.handling[i]? = some h → σ.refuses i → σ.Recorded s₀ h
  | _ => True

/-- The next step meets no other event: no job of another event has its job id, its event id
is not on record for another tenant or provider, and its transaction id is not taken. -/
def Intake.Apart (σ : Intake) : WebhookAction → Prop
  | .enqueue d => ∀ job ∈ σ.jobs, job.jobId = d.jobId → SameEvent σ.db.committed job d
  | .database (.advance i) =>
    (∀ row next t, σ.db.sessions[i]? =
        some (.running (.write (Statement.insertPaymentWebhookEvent row) next) t) →
      ∀ row' ∈ σ.db.committed.paymentWebhookEvents, row'.eventId = row.eventId →
        row'.tenantId = row.tenantId ∧ row'.payload.isSome) ∧
    ∀ x next t, σ.db.sessions[i]? =
        some (.running (.write (Statement.insertPaymentTransaction x) next) t) →
      ∀ x' ∈ σ.db.committed.paymentTransactions, x'.tenantId = x.tenantId →
        x'.providerTransactionId ≠ x.providerTransactionId
  | _ => True

/-- The runs from a database to which nothing has been delivered yet. -/
inductive Intake.Reaches (env : Environment) (s₀ : Db) : Intake → Prop
  | start : Reaches env s₀ (.start s₀)
  | step {σ σ' : Intake} {x : WebhookAction} :
      Reaches env s₀ σ → σ.step env x = some σ' → Reaches env s₀ σ'

theorem Intake.reaches_of_run {xs : List WebhookAction} (hσ : Intake.Reaches env s₀ σ)
    (hrun : σ.run env xs = some σ') : Intake.Reaches env s₀ σ' := by
  induction xs generalizing σ with
  | nil =>
    obtain rfl : σ = σ' := by simpa [Intake.run] using hrun
    exact hσ
  | cons x xs ih =>
    obtain ⟨σ'', hstep, hrest⟩ := Option.bind_eq_some_iff.mp hrun
    exact ih (hσ.step hstep) hrest

/-! ### The statements of a transaction -/

/-- The writing statements of the transaction that records an event: the event, then the
status of its payment, then the transaction of the payment. -/
def Handling.Writes (h : Handling) (es : List Edit) (edit : Db → Except Failure Edit) : Prop :=
  (es = [] ∧ edit = Statement.insertPaymentWebhookEvent h.event) ∨
    (es = [.paymentWebhookEventInsert h.event] ∧ ∃ status : PaymentStatus,
      edit = Statement.updatePayment h.payment.1 fun row => { row with status }) ∨
    (∃ row, es = [.paymentWebhookEventInsert h.event, .paymentUpdate h.payment.1 row]) ∧
      ∃ x, edit = Statement.insertPaymentTransaction x

/-- No other event is recorded. -/
def Handling.Leaves (h : Handling) (es : List Edit) : Prop :=
  ∀ row, .paymentWebhookEventInsert row ∈ es → row = h.event

/-- The program of a transaction. -/
theorem Handling.issues (h : Handling) :
    (do let _ ← h.record : Sql Unit).Issues h.Writes h.Leaves [] := by
  have hfirst : h.Leaves [.paymentWebhookEventInsert h.event] := by simp [Handling.Leaves]
  refine Issues.bind (H := h.Leaves) ?_ fun _ _ hes => hes
  refine Issues.bind (H := (· = [.paymentWebhookEventInsert h.event])) ?_ fun _ es hes => ?_
  · refine issues_perform (.inl ⟨rfl, rfl⟩) fun s e he => ?_
    rw [Statement.insertPaymentWebhookEvent_eq_ok he]
    rfl
  subst hes
  refine Issues.bind (H := h.Leaves) ?_ fun _ _ hes _ => hes
  unfold applyWebhook
  split
  · exact hfirst
  rename_i targetStatus _
  split
  swap
  · exact hfirst
  refine issues_lockRow_bind (issues_query_bind fun s => ?_)
  split
  · exact hfirst
  refine Issues.bind (H := fun es => ∃ row,
    es = [.paymentWebhookEventInsert h.event, .paymentUpdate h.payment.1 row]) ?_ ?_
  · refine issues_perform (.inr (.inl ⟨rfl, targetStatus, rfl⟩)) fun s e he => ?_
    obtain ⟨row, -, rfl⟩ := Statement.updatePayment_eq_ok he
    exact ⟨_, rfl⟩
  rintro _ es ⟨row, rfl⟩
  refine issues_query_bind fun s => ?_
  split
  · simp [Handling.Leaves, Issues]
  refine issues_perform (.inr (.inr ⟨⟨row, rfl⟩, _, rfl⟩)) fun s e he => ?_
  rw [Statement.insertPaymentTransaction_eq_ok he]
  simp [Handling.Leaves]

/-! ### The provider ids of payments -/

/-- What the unique index of payments is over. -/
def Payment.indexKey (p : Payment) : Uuid × Option String := (p.tenantId, p.providerPaymentId)

/-- The unique index of payments on their provider ids. -/
def UniqueProviderIds (s : Db) : Prop :=
  ∀ id id' p p', s.payments.lookup id = some p → s.payments.lookup id' = some p' →
    p.providerPaymentId.isSome → p.indexKey = p'.indexKey → id = id'

/-- The index is as it was. -/
def SameIndex (s₀ s : Db) : Prop :=
  ∀ id, (s.payments.lookup id).map Payment.indexKey = (s₀.payments.lookup id).map Payment.indexKey

/-- The edit leaves the index as it was. -/
def KeepsIndex (s₀ : Db) (e : Edit) : Prop := ∀ s, SameIndex s₀ s → SameIndex s₀ (s.apply e)

theorem SameIndex.replay (hs : SameIndex s₀ s) (hes : ∀ e ∈ es, KeepsIndex s₀ e) :
    SameIndex s₀ (sales.replay es s) := by
  induction es generalizing s with
  | nil => exact hs
  | cons e es ih =>
    apply ih (hes e List.mem_cons_self s hs)
    exact fun e' he' => hes e' (List.mem_cons_of_mem _ he')

/-- A payment that only changes its status stays where it is in the index. -/
theorem keepsIndex_paymentUpdate {id : Uuid} {row : Payment} (hs : SameIndex s₀ s)
    (hrow : s.payments.lookup id = some row) (status : PaymentStatus) :
    KeepsIndex s₀ (.paymentUpdate id { row with status }) := by
  intro s' hs' id'
  change ((s'.payments.insert id { row with status }).lookup id').map Payment.indexKey = _
  rcases lookup_insert_cases s'.payments id id' { row with status } with ⟨rfl, h⟩ | ⟨-, h⟩
  · rw [h, ← hs id', hrow]
    rfl
  · rw [h]
    exact hs' id'

/-- The edits of a transaction leave the index as it was. -/
theorem Handling.Writes.keepsIndex {edit : Db → Except Failure Edit} (hw : h.Writes es edit)
    (hs : SameIndex s₀ s) (he : edit s = .ok e) : KeepsIndex s₀ e := by
  rcases hw with ⟨-, rfl⟩ | ⟨-, status, rfl⟩ | ⟨-, x, rfl⟩
  · obtain rfl := Statement.insertPaymentWebhookEvent_eq_ok he
    exact fun s' hs' => hs'
  · obtain ⟨row, hrow, rfl⟩ := Statement.updatePayment_eq_ok he
    exact keepsIndex_paymentUpdate hs hrow status
  · obtain rfl := Statement.insertPaymentTransaction_eq_ok he
    exact fun s' hs' => hs'

/-- So the index cannot stop a change of the status. -/
theorem updatePayment_ne_uniqueViolation (hunique : UniqueProviderIds s₀) (hs : SameIndex s₀ s)
    (id : Uuid) (status : PaymentStatus) :
    Statement.updatePayment id (fun row => { row with status }) s ≠
      .error (.database .uniqueViolation) := by
  intro hstop
  unfold Statement.updatePayment at hstop
  split at hstop
  · cases hstop
  rename_i row hrow
  split_ifs at hstop with hany
  obtain ⟨⟨id', p⟩, hmem, hp⟩ := List.any_eq_true.mp hany
  simp only [decide_eq_true_eq] at hp
  obtain ⟨hne, hsome, htenant, hprovider⟩ := hp
  have hp' : s.payments.lookup id' = some p := AList.mem_lookup_iff.mpr hmem
  -- both rows were in the index before the run
  have hindex := hs id
  have hindex' := hs id'
  rw [hrow, Option.map_some] at hindex
  rw [hp', Option.map_some] at hindex'
  obtain ⟨row₀, hrow₀, hkey₀⟩ := Option.map_eq_some_iff.mp hindex.symm
  obtain ⟨p₀, hp₀, hkey₀'⟩ := Option.map_eq_some_iff.mp hindex'.symm
  have hkey : p.indexKey = row.indexKey := Prod.ext htenant hprovider
  have hsome₀ : p₀.providerPaymentId.isSome := by
    have hsame : p₀.providerPaymentId = row.providerPaymentId :=
      congrArg Prod.snd (hkey₀'.trans hkey)
    rw [hsame]
    exact hsome
  exact hne (hunique id' id p₀ row₀ hp₀ hrow₀ hsome₀ (hkey₀'.trans (hkey.trans hkey₀.symm)))

/-! ### What is on record was accepted -/

/-- The invariant of the runs. -/
structure Intake.Sound (s₀ : Db) (σ : Intake) : Prop where
  jobs : ∀ d ∈ σ.jobs, d ∈ σ.accepted
  handled : ∀ h ∈ σ.handling, h.delivery ∈ σ.accepted
  length : σ.handling.length = σ.db.sessions.length
  issues : ∀ (i : ℕ) (h : Handling) (p : Sql Unit) (t : Transaction sales),
    σ.handling[i]? = some h → σ.db.sessions[i]? = some (.running p t) →
      p.Issues h.Writes h.Leaves t.edits
  keeps : ∀ (i : ℕ) (p : Sql Unit) (t : Transaction sales),
    σ.db.sessions[i]? = some (.running p t) → ∀ e ∈ t.edits, KeepsIndex s₀ e
  index : SameIndex s₀ σ.db.committed
  recorded : ∀ row ∈ σ.db.committed.paymentWebhookEvents, row ∈ s₀.paymentWebhookEvents ∨
    ∃ (j : ℕ) (h : Handling) (t : Transaction sales), σ.handling[j]? = some h ∧
      σ.db.sessions[j]? = some (.committed () t) ∧ row = h.event

namespace Intake.Sound

theorem start (s₀ : Db) : (Intake.start s₀).Sound s₀ where
  jobs _ hd := absurd hd List.not_mem_nil
  handled _ hh := absurd hh List.not_mem_nil
  length := rfl
  issues _ _ _ _ hh _ := nomatch hh
  keeps _ _ _ hi := nomatch hi
  index _ := rfl
  recorded _ hrow := .inl hrow

/-- More may be accepted, and the queue may forget. -/
theorem accept (hσ : σ.Sound s₀) {jobs accepted : List Delivery}
    (hsub : ∀ d ∈ σ.accepted, d ∈ accepted) (hjobs : ∀ d ∈ jobs, d ∈ accepted) :
    ({ σ with jobs, accepted } : Intake).Sound s₀ where
  jobs := hjobs
  handled h hh := hsub _ (hσ.handled h hh)
  length := hσ.length
  issues := hσ.issues
  keeps := hσ.keeps
  index := hσ.index
  recorded := hσ.recorded

/-- A transaction is opened for an accepted delivery. -/
theorem handle (hσ : σ.Sound s₀) (hd : h.delivery ∈ σ.accepted) :
    ({ σ with
        db := σ.db.spawn (do let _ ← h.record)
        handling := σ.handling ++ [h] } : Intake).Sound s₀ where
  jobs := hσ.jobs
  handled h' hh' := by
    rcases List.mem_append.mp hh' with hh' | hh'
    · exact hσ.handled h' hh'
    · exact List.mem_singleton.mp hh' ▸ hd
  length := by
    change (σ.handling ++ [h]).length = (σ.db.sessions ++ [_]).length
    rw [List.length_append, List.length_append, hσ.length]
    rfl
  issues i h' p t hh' hi := by
    rcases Config.getElem?_spawn hi with hi | ⟨rfl, hnew⟩
    · -- a transaction from before keeps its delivery
      have hlt : i < σ.handling.length := hσ.length ▸ (List.getElem?_eq_some_iff.mp hi).1
      rw [List.getElem?_append_left hlt] at hh'
      exact hσ.issues i h' p t hh' hi
    · -- the new one has written nothing yet
      rw [← hσ.length, List.getElem?_concat_length] at hh'
      cases hnew
      cases hh'
      exact h.issues
  keeps i p t hi e he := by
    rcases Config.getElem?_spawn hi with hi | ⟨-, hnew⟩
    · exact hσ.keeps i p t hi e he
    · cases hnew
      exact absurd he List.not_mem_nil
  index := hσ.index
  recorded row hrow := by
    rcases hσ.recorded row hrow with hmem | ⟨j, h', t, hh', hj, rfl⟩
    · exact .inl hmem
    · have hlt : j < σ.handling.length := (List.getElem?_eq_some_iff.mp hh').1
      refine .inr ⟨j, h', t, ?_, Config.getElem?_spawn_of_some hj, rfl⟩
      exact (List.getElem?_append_left hlt).trans hh'

/-- What the statement of a transaction sees. -/
theorem view {i : ℕ} {p : Sql Unit} {t : Transaction sales} (hσ : σ.Sound s₀)
    (hi : σ.db.sessions[i]? = some (.running p t)) : SameIndex s₀ (t.view σ.db.committed) :=
  hσ.index.replay (hσ.keeps i p t hi)

/-- One step of the database. -/
theorem database {db : Config sales Unit} (hσ : σ.Sound s₀)
    (hm : Moves (.free sales) σ.db db) : ({ σ with db } : Intake).Sound s₀ where
  jobs := hσ.jobs
  handled := hσ.handled
  length := hσ.length.trans hm.length_sessions.symm
  issues i h p t hh hi := by
    rcases hm.running hi with hi | ⟨p', t', hi', ha⟩
    · exact hσ.issues i h p t hh hi
    · exact (hσ.issues i h p' t' hh hi').advances ha
  keeps i p t hi e he := by
    rcases hm.running hi with hi | ⟨p', t', hi', ha⟩
    · exact hσ.keeps i p t hi e he
    have hkeeps := hσ.keeps i p' t' hi'
    cases ha with
    | write hedit =>
      rcases List.mem_append.mp he with he | he
      · exact hkeeps e he
      obtain rfl := List.mem_singleton.mp he
      have hlt : i < σ.handling.length := hσ.length ▸ (List.getElem?_eq_some_iff.mp hi').1
      obtain ⟨h, hh⟩ : ∃ h, σ.handling[i]? = some h := ⟨_, List.getElem?_eq_getElem hlt⟩
      exact (hσ.issues i h _ _ hh hi').1.keepsIndex (hσ.view hi') hedit
    | _ => exact hkeeps e he
  index := by
    rcases hm.committed_eq with heq | ⟨i, a, t, hi, heq, -⟩
    · exact heq ▸ hσ.index
    · exact heq ▸ hσ.view hi
  recorded row hrow := by
    have hold (hmem : row ∈ σ.db.committed.paymentWebhookEvents) :
        row ∈ s₀.paymentWebhookEvents ∨ ∃ (j : ℕ) (h : Handling) (t : Transaction sales),
          σ.handling[j]? = some h ∧ db.sessions[j]? = some (.committed () t) ∧ row = h.event := by
      rcases hσ.recorded row hmem with hmem | ⟨j, h, t, hh, hj, hrow⟩
      · exact .inl hmem
      · exact .inr ⟨j, h, t, hh, hm.committed_session hj, hrow⟩
    rcases hm.committed_eq with heq | ⟨i, a, t, hi, heq, hsessions⟩
    · exact hold (heq ▸ hrow)
    rw [heq] at hrow
    rcases mem_events_replay hrow with hmem | hmem
    · exact hold hmem
    -- the row is the one of the transaction that has just committed
    have hlt : i < σ.db.sessions.length := (List.getElem?_eq_some_iff.mp hi).1
    obtain ⟨h, hh⟩ : ∃ h, σ.handling[i]? = some h := ⟨_, List.getElem?_eq_getElem (hσ.length ▸ hlt)⟩
    refine .inr ⟨i, h, t, hh, ?_, hσ.issues i h _ _ hh hi row hmem⟩
    rw [hsessions, List.getElem?_set_self hlt]

end Intake.Sound

theorem locate_delivery {d : Delivery} (hlocate : locate env d s = some h) : h.delivery = d := by
  simp only [locate, Option.ite_none_right_eq_some, Option.bind_eq_bind,
    Option.bind_eq_some_iff] at hlocate
  obtain ⟨-, eventId, -, tenantId, -, payment, -, hh⟩ := hlocate
  obtain rfl := Option.some.inj hh
  rfl

/-- One step keeps the invariant. -/
theorem Intake.Sound.step (hσ : σ.Sound s₀) (hstep : σ.step env x = some σ') : σ'.Sound s₀ := by
  cases x with
  | enqueue d =>
    simp only [Intake.step, Option.ite_none_right_eq_some, Option.some.injEq] at hstep
    obtain ⟨-, rfl⟩ := hstep
    split
    · exact hσ
    · refine hσ.accept (fun _ hd => List.mem_cons_of_mem _ hd) fun d' hd' => ?_
      rcases List.mem_cons.mp hd' with rfl | hd'
      · exact List.mem_cons_self
      · exact List.mem_cons_of_mem _ (hσ.jobs d' hd')
  | fallback d =>
    simp only [Intake.step, Option.ite_none_right_eq_some, Option.some.injEq] at hstep
    obtain ⟨-, rfl⟩ := hstep
    exact hσ.accept (fun _ hd => List.mem_cons_of_mem _ hd)
      fun d' hd' => List.mem_cons_of_mem _ (hσ.jobs d' hd')
  | remove jobId =>
    obtain rfl := Option.some.inj hstep
    exact hσ.accept (fun _ hd => hd) fun d' hd' => hσ.jobs d' (List.mem_filter.mp hd').1
  | handle d =>
    simp only [Intake.step, Option.ite_none_right_eq_some, Option.some.injEq] at hstep
    obtain ⟨hd, rfl⟩ := hstep
    split
    · exact hσ
    · rename_i h hlocate
      exact hσ.handle (locate_delivery hlocate ▸ hd)
  | database x =>
    obtain ⟨db, hdb, rfl⟩ := Option.map_eq_some_iff.mp hstep
    exact hσ.database (moves_of_step hdb)

/-- The invariant holds in every run. -/
theorem Intake.Reaches.sound (hreach : Intake.Reaches env s₀ σ) : σ.Sound s₀ := by
  induction hreach with
  | start => exact .start s₀
  | step _ hstep ih => exact ih.step hstep

/-! ### Exact answers -/

theorem insertPaymentWebhookEvent_stops {row : PaymentWebhookEvent}
    (hstop : Statement.insertPaymentWebhookEvent row s = .error (.database .uniqueViolation)) :
    ∃ row' ∈ s.paymentWebhookEvents, row'.eventId = row.eventId := by
  unfold Statement.insertPaymentWebhookEvent at hstop
  split_ifs at hstop with hany hpayment
  · obtain ⟨row', hmem, hid⟩ := List.any_eq_true.mp hany
    exact ⟨row', hmem, of_decide_eq_true hid⟩
  · simp at hstop

theorem insertPaymentTransaction_stops {x : PaymentTransaction}
    (hstop : Statement.insertPaymentTransaction x s = .error (.database .uniqueViolation)) :
    ∃ x' ∈ s.paymentTransactions, x'.tenantId = x.tenantId ∧
      x'.providerTransactionId = x.providerTransactionId := by
  unfold Statement.insertPaymentTransaction at hstop
  split_ifs at hstop with hamount hany hpayment
  · simp at hstop
  · obtain ⟨x', hmem, hx'⟩ := List.any_eq_true.mp hany
    exact ⟨x', hmem, (of_decide_eq_true hx').2⟩
  · simp at hstop

/-- **Exactness.** In every run, a step that meets no other event only answers a delivery as a
duplicate when the same event was accepted before. -/
theorem reaches_exact (hunique : UniqueProviderIds s₀) (hreach : Intake.Reaches env s₀ σ)
    (hx : σ.Apart x) : σ.Exact s₀ x := by
  have hsound := hreach.sound
  cases x with
  | enqueue d =>
    intro hdrops
    obtain ⟨job, hjob, hid⟩ := List.any_eq_true.mp hdrops
    exact ⟨job, hsound.jobs job hjob, hx job hjob (of_decide_eq_true hid)⟩
  | database x =>
    cases x with
    | advance i =>
      intro h hh hrefuses
      obtain ⟨edit, next, t, hi, hstop⟩ := hrefuses
      obtain ⟨hevent, htransaction⟩ := hx
      -- which of its statements the transaction has come to
      rcases (hsound.issues i h _ t hh hi).1
        with ⟨hes, rfl⟩ | ⟨-, status, rfl⟩ | ⟨⟨row, hes⟩, x, rfl⟩
      · have hview : t.view σ.db.committed = σ.db.committed := by rw [Transaction.view, hes]; rfl
        rw [hview] at hstop
        obtain ⟨row, hrow, hid⟩ := insertPaymentWebhookEvent_stops hstop
        obtain ⟨htenant, hgeneric⟩ := hevent _ next t hi row hrow hid
        rcases hsound.recorded row hrow with hmem | ⟨j, h', t', hh', hj, rfl⟩
        · exact .inl ⟨row, hmem, htenant, hid, hgeneric⟩
        · have haccepted := hsound.handled h' (List.mem_of_getElem? hh')
          exact .inr ⟨j, h', t', hh', hj, haccepted, htenant, hid⟩
      · exact absurd hstop (updatePayment_ne_uniqueViolation hunique (hsound.view hi) _ _)
      · have hview : (t.view σ.db.committed).paymentTransactions =
            σ.db.committed.paymentTransactions := by rw [Transaction.view, hes]; rfl
        obtain ⟨x', hx', htenant, hid⟩ := insertPaymentTransaction_stops hstop
        rw [hview] at hx'
        exact absurd hid (htransaction x next t hi x' hx' htenant)
    | reply i r => trivial
    | rollback i => trivial
  | _ => trivial

/-! ### Two events of one shop -/

namespace PaymentSample

/-- Signatures are checked, and all of them are `4f8a`. -/
def signedEnv : Environment :=
  { paymentWebhookSecret := "hook", hmacSha256 := fun _ _ => "4f8a" }

/-- The provider says that the payment has succeeded. -/
def deliveryOf (eventId : String) : Delivery :=
  { rawBody := eventId
    payload :=
      { eventId := some eventId, type := .paymentSucceeded, paymentId := some "payment"
        tenantId := some "shop" }
    signature := some "4f8a" }

theorem uniqueProviderIds_begunShop : UniqueProviderIds begunShop := by
  have hlookup {id : Uuid} {row : Payment} (h : begunShop.payments.lookup id = some row) :
      id = "payment" := by
    by_contra hne
    have hnone : begunShop.payments.lookup id = none := AList.lookup_insert_ne hne
    rw [hnone] at h
    cases h
  intro id id' p p' hp hp' _ _
  exact (hlookup hp).trans (hlookup hp').symm

end PaymentSample

open PaymentSample in
/-- An event that is delivered again is dropped, and that is right. -/
theorem reaches_exact_sample :
    ∃ σ : Intake, Intake.Reaches signedEnv begunShop σ ∧
      σ.drops (deliveryOf "evt:1") = true ∧
        ∃ d ∈ σ.accepted, SameEvent σ.db.committed d (deliveryOf "evt:1") := by
  have hrun : ((Intake.start begunShop).run signedEnv [.enqueue (deliveryOf "evt:1")]).map
      (fun σ => (σ.drops (deliveryOf "evt:1"), decide (∀ job ∈ σ.jobs,
        job.jobId = (deliveryOf "evt:1").jobId →
          SameEvent σ.db.committed job (deliveryOf "evt:1")))) = some (true, true) := by
    decide +kernel
  obtain ⟨σ, hσ, hend⟩ := Option.map_eq_some_iff.mp hrun
  obtain ⟨hdrops, hapart⟩ := Prod.mk.inj hend
  have hreach := Intake.reaches_of_run .start hσ
  have hjobs := of_decide_eq_true hapart
  have hexact := reaches_exact (x := .enqueue (deliveryOf "evt:1")) uniqueProviderIds_begunShop
    hreach hjobs
  exact ⟨σ, hreach, hdrops, hexact hdrops⟩

open PaymentSample in
/-- The shop's event `evt-1` is dropped although only its event `evt:1` was delivered. -/
theorem colonEvent_not_exact :
    ∃ σ : Intake, Intake.Reaches signedEnv begunShop σ ∧
      (σ.step signedEnv (.enqueue (deliveryOf "evt-1"))).isSome ∧
        ¬ σ.Exact begunShop (.enqueue (deliveryOf "evt-1")) := by
  have hrun : ((Intake.start begunShop).run signedEnv [.enqueue (deliveryOf "evt:1")]).map
      (fun σ => ((σ.step signedEnv (.enqueue (deliveryOf "evt-1"))).isSome,
        σ.drops (deliveryOf "evt-1"), decide (∃ d ∈ σ.accepted,
          SameEvent σ.db.committed d (deliveryOf "evt-1")))) = some (true, true, false) := by
    decide +kernel
  obtain ⟨σ, hσ, hend⟩ := Option.map_eq_some_iff.mp hrun
  obtain ⟨hstep, hend⟩ := Prod.mk.inj hend
  obtain ⟨hdrops, hnone⟩ := Prod.mk.inj hend
  exact ⟨σ, Intake.reaches_of_run .start hσ, hstep, fun h => of_decide_eq_false hnone (h hdrops)⟩

end PulseOps
