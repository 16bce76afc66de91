import PulseOps.Model.Support

/-!
# What support sessions write

A support token is let through by the method of the request and by the name of the
permission, not by what the handler does. Every handler behind such a route only reads, but
for the list of counters, which creates the default counter of a tenant that has none. As long
as the tenants have their counters, no support request writes anything but the activity log.

## Main definitions

* `Route.Reachable` — the routes whose guards let a support token pass.
* `HasCounter` — `ensureDefault` has nothing to create.
* `CountersStand` — no turn of `ensureDefault` meets a tenant without a counter.

## Main results

* `readsOnly_of_reachable` — the handlers behind these routes do not write.
* `support_requests_read_only` — under `CountersStand` no row but the activity log changes.
-/

set_option autoImplicit false

open ReadCommitted

namespace PulseOps.Support

open Accounts (Millis)
open Routes

variable {ρ : Type} {s s' : Store ρ} {req : Request} {phase : Phase}
  {context : Context}

/-! ### The routes -/

/-- Whether none of the calls writes. The list of counters is looked at on its own. -/
def Handler.readsOnly : Handler → Bool
  | .calls calls => calls.all fun call => !call.operation.writes
  | .listRegisters => true
  | .other => false

/-- Whether `authenticate()` and `authorize()` let a support token pass. -/
def Route.reachable (r : Route) : Bool :=
  r.allowSupport && r.method = .get && (refusal true r.guards).isNone

/-- The handlers behind the routes that a support token gets through to. -/
theorem readsOnly_of_reachable :
    ∀ r ∈ apiRouter, Route.reachable r = true → Handler.readsOnly r.handler = true := by
  decide +kernel

/-- What `validate` refuses is not asked of the other guards. -/
theorem refusal_true {valid : Bool} {guards : List Guard} (h : refusal valid guards = none) :
    refusal true guards = none := by
  induction guards with
  | nil => rfl
  | cons guard guards ih =>
    cases guard with
    | validate =>
      cases valid with
      | true => exact h
      | false => simp [refusal] at h
    | authorize permission =>
      rw [refusal] at h ⊢
      cases hpermission : authorizeSupport permission with
      | error e => simp [hpermission] at h
      | ok =>
        rw [hpermission] at h
        exact ih h

/-- The routes that serve a reading method are those of `GET`. -/
theorem method_of_read (r : Route) (hmethod : req.method ∈ readMethods)
    (hroute : r ∈ apiRouter) (hserves : r.serves req.method = true) : r.method = .get := by
  have hmethods : ∀ r ∈ apiRouter, r.method ≠ .head ∧ r.method ≠ .options := by decide +kernel
  obtain ⟨hhead, hoptions⟩ := hmethods r hroute
  simp only [Route.serves, decide_eq_true_eq] at hserves
  simp only [readMethods, List.mem_cons, List.not_mem_nil, or_false] at hmethod
  grind

/-! ### One turn -/

/-- `ensureDefault` finds a counter, or `cashRegister.create` meets one with its name. -/
def HasCounter (tenantId : Uuid) (s : Store ρ) : Prop :=
  ∃ r ∈ s.sales.cashRegisters.entries, r.2.tenantId = tenantId ∧
    (r.2.isActive = true ∨ r.2.name = CashRegisterService.defaultRegister)

/-- The request is not about to write. -/
def Phase.Clear (req : Request) (s : Store ρ) : Phase → Prop
  | .granting _ => req.route.allowSupport = true
  | .calling _ calls => ∀ call ∈ calls, call.operation.writes = false
  | .creating context => ∃ r ∈ s.sales.cashRegisters.entries,
      r.2.tenantId = context.tenantId ∧ r.2.name = CashRegisterService.defaultRegister
  | .other => False
  | _ => True

theorem sales_of_rows (h : s'.rows = s.rows) : s'.sales = s.sales := by
  have hsales : s'.rows.sales = s.rows.sales := by rw [h]
  exact hsales

theorem Phase.Clear.congr (h : phase.Clear req s) (hrows : s'.rows = s.rows) :
    phase.Clear req s' := by
  cases phase with
  | creating context =>
    rw [Phase.Clear, sales_of_rows hrows]
    exact h
  | _ => exact h

theorem clear_listing : (listing context).Clear req s := by
  intro call hcall
  cases List.mem_singleton.mp hcall
  rfl

/-- A live session gets to a handler that reads, or to an answer. -/
theorem clear_dispatch (hsupport : req.route.allowSupport = true) :
    (dispatch req context).Clear req s := by
  unfold dispatch
  split
  next hmethod =>
    split
    next => trivial
    next hrefusal =>
      have hreads : Handler.readsOnly req.route.handler = true := by
        apply readsOnly_of_reachable req.route req.mounted
        have hget : req.route.method = .get :=
          method_of_read req.route hmethod req.mounted req.served
        simp [Route.reachable, hsupport, hget, refusal_true hrefusal]
      cases hhandler : req.route.handler with
      | calls calls =>
        rw [hhandler] at hreads
        simpa [Handler.start, Phase.Clear, Handler.readsOnly] using hreads
      | listRegisters => trivial
      | other => simp [hhandler, Handler.readsOnly] at hreads
  next => trivial

/-- A support token that `authenticate` accepts is one that the route accepts. -/
theorem authenticate_eq_ok {result : Option Context} (hsupport : req.carriesSupport)
    (h : authenticate req.route.allowSupport req.token = .ok result) :
    req.route.allowSupport = true ∧ result.isSome = true := by
  unfold authenticate at h
  split at h
  next => cases h
  next decoded htoken =>
    split at h
    next => cases h
    next =>
      rw [hsupport decoded htoken] at h
      simp only [Option.getD_some] at h
      split at h
      next hallow =>
        refine ⟨hallow, ?_⟩
        split at h
        next =>
          split at h
          next => cases h; rfl
          next => cases h
        next => cases h
      next => cases h

/-- `findFirst` of an active counter comes back with nothing. -/
theorem not_active_of_findFirst {tenantId : Uuid}
    (h : CashRegisterService.findFirst (fun r => r.tenantId = tenantId ∧ r.isActive) s.sales =
      none) {r : Sigma fun _ : Uuid => CashRegister}
    (hr : r ∈ s.sales.cashRegisters.entries) (htenant : r.2.tenantId = tenantId) :
    r.2.isActive = false := by
  simp only [CashRegisterService.findFirst, Option.map_eq_none_iff, List.find?_eq_none,
    decide_eq_true_eq] at h
  simpa [htenant] using h r hr

/-- The unique index answers in place of the insert. -/
theorem insertCashRegister_of_name {tenantId : Uuid} (registerId : Uuid)
    (h : ∃ r ∈ s.sales.cashRegisters.entries,
      r.2.tenantId = tenantId ∧ r.2.name = CashRegisterService.defaultRegister) :
    Statement.insertCashRegister registerId (defaultCounter tenantId) s.sales =
      .ok .nothing := by
  obtain ⟨r, hr, hname⟩ := h
  apply if_pos
  rw [List.any_eq_true]
  exact ⟨r, hr, decide_eq_true hname⟩

/-- **One turn** of a support request, if it meets no tenant without a counter. -/
theorem advance_clear (env : Surroundings ρ) (hsupport : req.carriesSupport)
    (hclear : phase.Clear req s)
    (hcounter : ∀ context, phase = .ensureDefault context → HasCounter context.tenantId s) :
    (advance env req s phase).1.rows = s.rows ∧
      (advance env req s phase).2.Clear req (advance env req s phase).1 := by
  cases phase with
  | arrived =>
    cases hresult : authenticate req.route.allowSupport req.token with
    | error e => simp [advance, hresult, Phase.Clear]
    | ok result =>
      obtain ⟨hallow, hsome⟩ := authenticate_eq_ok hsupport hresult
      obtain ⟨context, rfl⟩ := Option.isSome_iff_exists.mp hsome
      simp only [advance, hresult]
      split_ifs
      · exact ⟨rfl, hallow⟩
      · exact ⟨rfl, trivial⟩
  | granting context =>
    simp only [advance]
    split_ifs
    · exact ⟨rfl, clear_dispatch hclear⟩
    · exact ⟨rfl, trivial⟩
  | calling context calls =>
    cases calls with
    | nil => exact ⟨rfl, trivial⟩
    | cons call calls =>
      -- a call may be made, skipped, or end the request; none of its operations writes
      have hreads : call.operation.writes = false := hclear call (List.mem_cons_self ..)
      have hrest : ∀ c ∈ calls, c.operation.writes = false :=
        fun c hc => hclear c (List.mem_cons_of_mem _ hc)
      simp only [advance]
      cases env.move req call s with
      | call => simpa [hreads, Phase.Clear] using hrest
      | skip => exact ⟨rfl, hrest⟩
      | answer statusCode => exact ⟨rfl, trivial⟩
  | ensureDefault context =>
    simp only [advance]
    split
    next => exact ⟨rfl, clear_listing⟩
    next hnone =>
      -- without a default counter the code creates one, but the tenant has a counter
      obtain ⟨r, hr, htenant, hstands⟩ := hcounter context rfl
      refine ⟨rfl, r, hr, htenant, hstands.resolve_left fun hactive => ?_⟩
      rw [not_active_of_findFirst hnone hr htenant] at hactive
      cases hactive
  | creating context =>
    rw [advance, insertCashRegister_of_name req.registerId hclear]
    exact ⟨rfl, trivial⟩
  | findingDefault context => exact ⟨rfl, clear_listing⟩
  | other => exact hclear.elim
  | answered context statusCode => exact ⟨rfl, trivial⟩
  | done statusCode => exact ⟨rfl, trivial⟩

/-! ### Runs -/

/-- No turn of `ensureDefault` meets a tenant without a counter. -/
def CountersStand (c : Interleaved (Store ρ) Phase) (_ : Request) (phase : Phase) : Prop :=
  ∀ context, phase = .ensureDefault context → HasCounter context.tenantId c.store

variable {requests : List Request} {c : Interleaved (Store ρ) Phase}

/-- The rows are those of `s`, and no request is about to write. -/
structure Unwritten (requests : List Request) (s : Store ρ) (c : Interleaved (Store ρ) Phase) :
    Prop where
  rows : c.store.rows = s.rows
  clear {i : ℕ} {req : Request} {phase : Phase} (hreq : requests[i]? = some req)
    (hphase : c.phases[i]? = some phase) : phase.Clear req c.store

theorem unwritten_start : Unwritten requests s (start requests s) where
  rows := rfl
  clear {i req phase} _ hphase := by
    obtain ⟨-, harrived⟩ : _ ∧ Phase.arrived = phase := by
      simpa [start, List.getElem?_replicate] using hphase
    subst harrived
    trivial

theorem Unwritten.after {env : Surroundings ρ} {i : ℕ} (h : Unwritten requests s c)
    (hsupport : ∀ req ∈ requests, req.carriesSupport) (hreq : requests[i]? = some req)
    (hphase : c.phases[i]? = some phase) (hstands : CountersStand c req phase) :
    Unwritten requests s (Interleaved.after (advance env) c i req phase) := by
  obtain ⟨hsame, hnext⟩ := advance_clear env
    (hsupport req (List.mem_of_getElem? hreq)) (h.clear hreq hphase) hstands
  refine ⟨hsame.trans h.rows, fun hreq' hphase' => ?_⟩
  rcases Interleaved.getElem?_after hphase' with ⟨rfl, rfl⟩ | ⟨-, hother⟩
  · cases hreq.symm.trans hreq'
    exact hnext
  · -- the other requests see the same rows as before
    exact (h.clear hreq' hother).congr hsame

/-- **Support requests** change no row but those of the activity log, as long as
`ensureDefault` meets no tenant without a counter. -/
theorem support_requests_read_only (env : Surroundings ρ)
    (hsupport : ∀ req ∈ requests, req.carriesSupport)
    (hc : Interleaved.Reaches (advance env) requests CountersStand (start requests s) c) :
    c.store.rows = s.rows := by
  have hunwritten : Unwritten requests s c :=
    hc.induction unwritten_start fun c i req phase hreq hphase hstands h =>
      h.after hsupport hreq hphase hstands
  exact hunwritten.rows

namespace Sample

def session : SupportSession :=
  { tenantId := "t", platformUserId := "p", reason := "a question", expiresAt := 100 }

/-- A tenant with a live support session, and the counters of `registers`. -/
def shop (registers : Table Uuid CashRegister) : Store Unit where
  accounts :=
    { tenants := (∅ : Table Uuid Accounts.Tenant).insert "t" ⟨"shop", .active⟩
      users := (∅ : Table Uuid Accounts.User).insert "p"
        ⟨"platform", "p@x", "h", "P", "Q", .active, true⟩ }
  sales := { cashRegisters := registers }
  supportSessions := (∅ : Table Uuid SupportSession).insert
    "00000000-0000-4000-8000-000000000001" session
  platformGrants := [⟨"p", "platform:tenant", "access"⟩]
  activityLogs := []
  others := ()

/-- `GET /cash-registers` with a support token. -/
def listRegisters : Request where
  route := ⟨.get, "/cash-registers/", [.authorize "cash_register:read"], .listRegisters, true⟩
  method := .get
  originalUrl := "/api/v1/cash-registers"
  token := .ok
    { sub := some "p", tenantId := some "t"
      sessionId := some "00000000-0000-4000-8000-000000000001", scope := some .support }
  now := 50
  registerId := "r"
  mounted := by decide +kernel
  served := rfl

/-- Handlers make all their calls, and nothing else happens. -/
def calm : Surroundings Unit where
  move := fun _ _ _ => .call
  write := fun _ s => s
  other := fun _ s => (s, .done 200)

theorem listRegisters_carriesSupport : listRegisters.carriesSupport := by
  intro decoded h
  cases h
  rfl

/-- The condition, on a run. -/
def countersStand (c : Interleaved (Store Unit) Phase) (_ : Request) : Phase → Bool
  | .ensureDefault context => c.store.sales.cashRegisters.entries.any fun r =>
      r.2.tenantId = context.tenantId ∧
        (r.2.isActive ∨ r.2.name = CashRegisterService.defaultRegister)
  | _ => true

theorem countersStand_of_test {c : Interleaved (Store Unit) Phase} {req : Request}
    {phase : Phase} (h : countersStand c req phase = true) : CountersStand c req phase := by
  intro context hphase
  subst hphase
  obtain ⟨r, hr, hcounter⟩ := List.any_eq_true.mp h
  exact ⟨r, hr, by simpa using hcounter⟩

/-- The list of the counters of a tenant that has none. -/
def created : Interleaved (Store Unit) Phase :=
  Interleaved.run (advance calm) [listRegisters] (start [listRegisters] (shop ∅)) [0, 0, 0, 0]

end Sample

open Sample

/-- A tenant whose only counter is there already: two lists, turn by turn. -/
theorem support_requests_read_only_shop :
    (Interleaved.run (advance calm) [listRegisters, listRegisters]
      (start [listRegisters, listRegisters] (shop ((∅ : Table Uuid CashRegister).insert "r1"
        ⟨"t", "Front desk", true⟩))) [0, 1, 0, 1, 0, 1, 0, 1, 0, 1, 0, 1]).store.rows =
      (shop ((∅ : Table Uuid CashRegister).insert "r1" ⟨"t", "Front desk", true⟩)).rows := by
  have hsupport : ∀ req ∈ [listRegisters, listRegisters], req.carriesSupport := by
    simp [listRegisters_carriesSupport]
  exact support_requests_read_only calm hsupport
    (Interleaved.Reaches.run (fun _ _ _ => countersStand_of_test) .refl _ (by decide +kernel))

/-- A tenant without a counter: the list creates one. -/
theorem support_request_writes :
    listRegisters.carriesSupport ∧
      created.store.sales.cashRegisters.lookup "r" = some ⟨"t", "Main counter", true⟩ ∧
      created.store.rows ≠ (shop ∅).rows := by
  have hcreated : created.store.sales.cashRegisters.lookup "r" =
      some ⟨"t", "Main counter", true⟩ := by
    decide +kernel
  refine ⟨listRegisters_carriesSupport, hcreated, fun h => ?_⟩
  rw [sales_of_rows h] at hcreated
  cases hcreated

end PulseOps.Support
