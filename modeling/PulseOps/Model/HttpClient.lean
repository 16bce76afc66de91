import Mathlib.Algebra.Order.Field.Rat
import PulseOps.Json.Text
import PulseOps.Model.Rows

/-!
# Calls to providers

`integrations/http/http-client.js`, `integrations/errors/integration-error.js`, and those calls of
the HTTP providers in `integrations/` that have an effect: charges, refunds, mails, text messages
and shipments.

The provider at the other end is a parameter, with a state of its own, and so is how the runtime
lower-cases. What is recorded for the metrics and how the body of a response is read are left out.
-/

set_option autoImplicit false

namespace PulseOps.Integrations

/-! ### Errors -/

/-- `IntegrationErrorCode`. -/
inductive IntegrationErrorCode where
  | timeout
  | unavailable
  | authentication
  | validation
  | rejection
  | notFound
  | rateLimit
  | configuration
  | unknown
  deriving DecidableEq, Repr

/-- `IntegrationError`, with the status of the provider from its details. -/
structure IntegrationError where
  message : String
  code : IntegrationErrorCode
  statusCode : ℕ
  provider : String
  providerStatus : Option ℕ := none
  deriving DecidableEq, Repr

/-- `isRetryable`. -/
def IntegrationError.isRetryable (e : IntegrationError) : Bool :=
  if e.code = .validation then false
  else if e.code = .authentication then false
  else if e.code = .configuration then false
  else if e.code = .notFound then false
  else if e.code = .rejection then false
  else if 400 ≤ e.statusCode ∧ e.statusCode < 500 ∧ e.statusCode ≠ 408 ∧ e.statusCode ≠ 429 then
    false
  else e.code = .timeout ∨ e.code = .unavailable ∨ e.statusCode = 429 ∨ e.statusCode = 408 ∨
    500 ≤ e.statusCode

/-- `mapHttpStatusToCode`. -/
def mapHttpStatusToCode (status : ℕ) : IntegrationErrorCode :=
  if status = 408 ∨ status = 504 then .timeout
  else if status = 429 then .rateLimit
  else if status = 401 ∨ status = 403 then .authentication
  else if status = 404 then .notFound
  else if status = 400 ∨ status = 422 then .validation
  else if 500 ≤ status then .unavailable
  else .rejection

/-- What `fetch` throws. -/
structure FetchError where
  name : Option String := none
  message : Option String := none
  code : Option String := none
  statusCode : Option ℕ := none
  status : Option ℕ := none
  responseStatus : Option ℕ := none
  deriving DecidableEq, Repr

/-- `error.statusCode || error.status || error.response.status`. -/
def FetchError.anyStatus (e : FetchError) : Option ℕ :=
  e.statusCode.filter (· ≠ 0) <|> e.status.filter (· ≠ 0) <|> e.responseStatus.filter (· ≠ 0)

/-- `text.includes(part)`. -/
def includes (text part : String) : Bool := part.toList <:+: text.toList

/-- `normalizeProviderError`. -/
def normalizeProviderError (toLowerCase : String → String) (provider : String) (e : FetchError) :
    IntegrationError :=
  let msg := (truthy e.message).getD "Provider error"
  if e.name = some "AbortError" ∨ includes (toLowerCase msg) "abort" ∨
      includes (toLowerCase msg) "timeout" ∨ e.code = some "ETIMEDOUT" then
    { message := "Provider " ++ provider ++ " timed out", code := .timeout, statusCode := 504
      provider }
  else if e.code = some "ECONNREFUSED" ∨ e.code = some "ENOTFOUND" ∨
      includes msg "fetch failed" ∨ includes msg "Network" then
    { message := "Provider " ++ provider ++ " unavailable", code := .unavailable
      statusCode := 502, provider }
  else
    match e.anyStatus with
    | some status =>
      { message := "Provider " ++ provider ++ " error", code := mapHttpStatusToCode status
        statusCode := if 400 ≤ status ∧ status < 600 then status else 502
        provider, providerStatus := some status }
    | none =>
      { message := "Provider " ++ provider ++ " error", code := .unknown, statusCode := 502
        provider }

/-! ### One request -/

structure HttpRequest where
  url : String
  /-- the header `Authorization` -/
  authorization : Option String
  /-- the header `Idempotency-Key` -/
  idempotencyKey : Option String
  body : Json ℚ

/-- A response. `β` is the type of its body. -/
structure Response (β : Type) where
  status : ℕ
  body : β

variable {β W : Type}

/-- `response.ok`. -/
def Response.ok (r : Response β) : Bool := 200 ≤ r.status ∧ r.status ≤ 299

/-- The options of `requestWithRetry`, with their defaults. -/
structure Options where
  timeoutMs : ℕ := 5000
  retries : ℕ := 2
  provider : String := "http"
  retryDelayMs : ℕ := 200
  idempotent : Bool := true

variable (toLowerCase : String → String)

/-- What `fetchWithTimeout` makes of what `fetch` throws. -/
def fetchFailure (o : Options) (e : FetchError) : IntegrationError :=
  if e.name = some "AbortError" then
    { message := "Provider " ++ o.provider ++ " timed out after " ++ toString o.timeoutMs ++ "ms"
      code := .timeout, statusCode := 504, provider := o.provider }
  else normalizeProviderError toLowerCase o.provider e

/-- `fetchWithTimeout`. -/
def fetchWithTimeout (o : Options) (fetch : W → Except FetchError (Response β) × W) (w : W) :
    Except IntegrationError (Response β) × W :=
  match fetch w with
  | (.ok res, w') => (.ok res, w')
  | (.error e, w') => (.error (fetchFailure toLowerCase o e), w')

/-! ### Retries -/

/-- `isRetryableStatus`. -/
def isRetryableStatus (status : ℕ) : Bool :=
  status = 408 ∨ status = 429 ∨ status = 502 ∨ status = 503 ∨ status = 504

/-- The error for a response that is not ok. -/
def statusError (provider : String) (status : ℕ) : IntegrationError :=
  { message := "Provider " ++ provider ++ " returned " ++ toString status
    code := if status = 429 then .rateLimit
      else if status = 404 then .notFound
      else if status = 401 ∨ status = 403 then .authentication
      else if 500 ≤ status then .unavailable
      else .rejection
    statusCode := status, provider, providerStatus := some status }

/-- How `requestWithRetry` ends: with a response or an error (`null` if there is none), after how
long each pause was, and with what the provider's state has become. -/
structure Outcome (β W : Type) where
  result : Except (Option IntegrationError) (Response β)
  pauses : List ℕ
  state : W

/-- `sleep(ms)` first. -/
def Outcome.afterPause (ms : ℕ) (out : Outcome β W) : Outcome β W :=
  { out with pauses := ms :: out.pauses }

/-- The loop of `requestWithRetry`: `left` more rounds. -/
def requestLoop (o : Options) (fetch : W → Except FetchError (Response β) × W)
    (maxAttempts : ℕ) : ℕ → Option IntegrationError → W → Outcome β W
  | 0, lastError, w => ⟨.error lastError, [], w⟩
  | left + 1, lastError, w =>
    let attempt := maxAttempts - left
    let next (lastError : Option IntegrationError) (w : W) :=
      (requestLoop o fetch maxAttempts left lastError w).afterPause (o.retryDelayMs * attempt)
    -- the `catch` clause, also of what is thrown for a response
    let caught (err : IntegrationError) (w : W) : Outcome β W :=
      if err.isRetryable = false ∨ o.idempotent = false ∨ maxAttempts ≤ attempt then
        ⟨.error (some err), [], w⟩
      else next (some err) w
    match fetchWithTimeout toLowerCase o fetch w with
    | (.error err, w') => caught err w'
    | (.ok res, w') =>
      if res.ok then ⟨.ok res, [], w'⟩
      else if isRetryableStatus res.status ∧ attempt < maxAttempts then next lastError w'
      else
        let err := statusError o.provider res.status
        if err.isRetryable ∧ o.idempotent ∧ attempt < maxAttempts then next lastError w'
        else caught err w'

def Options.maxAttempts (o : Options) : ℕ := if o.idempotent then o.retries + 1 else 1

/-- `requestWithRetry`. -/
def requestWithRetry (o : Options) (fetch : W → Except FetchError (Response β) × W) (w : W) :
    Outcome β W :=
  requestLoop toLowerCase o fetch o.maxAttempts o.maxAttempts none w

/-! ### Providers -/

/-- `HttpPaymentProvider`, `HttpEmailProvider`, `HttpSmsProvider` and `HttpShippingProvider`. -/
structure HttpProvider where
  baseUrl : Option String
  apiKey : Option String
  timeoutMs : ℕ := 5000
  retries : ℕ := 2

/-- `baseUrl.replace(/\/$/, '')`. -/
def withoutSlash (url : String) : String :=
  if url.toList.getLast? = some '/' then String.ofList url.toList.dropLast else url

/-- `{ code: VALIDATION, statusCode: 400 }`. -/
def invalid (provider message : String) : IntegrationError :=
  { message, code := .validation, statusCode := 400, provider }

def optional (x : Option String) : Json ℚ := x.elim .null .str

/-- `toString` of a decimal of the database: no zero at the end of a fraction. -/
def decimalText (amount : Cents) : String :=
  let whole := (if amount < 0 then "-" else "") ++ toString (amount.natAbs / 100)
  let cents := amount.natAbs % 100
  if cents = 0 then whole
  else if cents % 10 = 0 then whole ++ "." ++ toString (cents / 10)
  else if cents < 10 then whole ++ ".0" ++ toString cents
  else whole ++ "." ++ toString cents

/-- The calls of the providers that have an effect. -/
inductive Call where
  /-- the amount comes as the text of the total of an order -/
  | charge (amount : Cents) (currency orderId tenantId : String) (idempotencyKey : Option String)
  | refund (paymentId : String) (amount : ℚ) (currency : String)
  | sendEmail (recipient subject : String) (html text template : Option String)
      (values : Json ℚ) (tenantId : String)
  | sendSms (recipient message tenantId : String)
  | createShipment (orderId : String) (origin destination : Json ℚ) (tenantId : String)

namespace Call

/-- The name of the provider. -/
def provider : Call → String
  | charge .. => "http-payment"
  | refund .. => "http-payment"
  | sendEmail .. => "http-email"
  | sendSms .. => "http-sms"
  | createShipment .. => "http-shipping"

/-- What `_ensureConfig` says. -/
def unconfigured (c : Call) : IntegrationError :=
  { message := match c with
      | charge .. => "Payment provider URL not configured"
      | refund .. => "Payment provider URL not configured"
      | sendEmail .. => "Email provider URL not configured"
      | sendSms .. => "SMS provider URL not configured"
      | createShipment .. => "Shipping provider URL not configured"
    code := .configuration, statusCode := 500, provider := c.provider }

/-- The check of the arguments. The text of an amount is never empty, and `Number` reads it. -/
def check : Call → Except IntegrationError Unit
  | charge amount _ _ _ _ =>
    if amount ≤ 0 then .error (invalid "http-payment" "Invalid amount") else .ok ()
  | sendEmail recipient subject _ _ _ _ _ =>
    if recipient = "" ∨ subject = "" then .error (invalid "http-email" "Invalid email parameters")
    else .ok ()
  | sendSms recipient message _ =>
    if recipient = "" ∨ message = "" then .error (invalid "http-sms" "Invalid SMS parameters")
    else .ok ()
  | refund .. => .ok ()
  | createShipment .. => .ok ()

def path : Call → String
  | charge .. => "/charges"
  | refund .. => "/refunds"
  | sendEmail .. => "/send"
  | sendSms .. => "/send"
  | createShipment .. => "/shipments"

/-- The key of a charge, if it has one that is not empty. -/
def key : Call → Option String
  | charge _ _ _ _ idempotencyKey => truthy idempotencyKey
  | _ => none

def body : Call → Json ℚ
  | charge amount currency orderId tenantId _ =>
    .obj [("amount", .str (decimalText amount)), ("currency", .str currency),
      ("orderId", .str orderId), ("tenantId", .str tenantId)]
  | refund paymentId amount currency =>
    .obj [("paymentId", .str paymentId), ("amount", .num amount), ("currency", .str currency)]
  | sendEmail recipient subject html text template values tenantId =>
    .obj [("to", .str recipient), ("subject", .str subject), ("html", optional html),
      ("text", optional text), ("template", optional template), ("variables", values),
      ("tenantId", .str tenantId)]
  | sendSms recipient message tenantId =>
    .obj [("to", .str recipient), ("message", .str message), ("tenantId", .str tenantId)]
  | createShipment orderId origin destination tenantId =>
    .obj [("orderId", .str orderId), ("origin", origin), ("destination", destination),
      ("tenantId", .str tenantId)]

/-- The options given to `requestWithRetry`. -/
def options (p : HttpProvider) (c : Call) : Options :=
  { timeoutMs := p.timeoutMs
    provider := c.provider
    retries := match c with
      | charge .. => p.retries
      | refund .. => 1
      | sendEmail .. => p.retries
      | sendSms .. => 1
      | createShipment .. => 0
    idempotent := c.key.isSome }

def request (p : HttpProvider) (baseUrl : String) (c : Call) : HttpRequest where
  url := withoutSlash baseUrl ++ c.path
  authorization := (truthy p.apiKey).map ("Bearer " ++ ·)
  idempotencyKey := c.key
  body := c.body

/-- `charge`, `refund`, `send` and `createShipment`. -/
def run (fetch : HttpRequest → W → Except FetchError (Response β) × W) (p : HttpProvider)
    (c : Call) (w : W) : Except IntegrationError (Response β) × W :=
  match truthy p.baseUrl, c.check with
  | none, _ => (.error c.unconfigured, w)
  | some _, .error e => (.error e, w)
  | some baseUrl, .ok () =>
    let out := requestWithRetry toLowerCase (c.options p) (fetch (c.request p baseUrl)) w
    (out.result.mapError fun e => e.getD (normalizeProviderError toLowerCase c.provider {}),
      out.state)

end Call

end PulseOps.Integrations
