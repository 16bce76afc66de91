import PulseOps.Model.Gst

/-!
# The payment providers

The clients of `integrations/payment`, the shop's own Razorpay account
(`payment-gateway.service.js`) and the signatures of incoming webhooks (`webhook.util.js`).
A call that fails raises here, in the middle of the transaction that made it.
-/

set_option autoImplicit false

open ReadCommitted Program

namespace PulseOps

/-- `(cents / 100).toFixed(2)`. -/
def fromCents (cents : Cents) : String :=
  let digits := toString (cents.natAbs % 100)
  (if cents < 0 then "-" else "") ++ toString (cents.natAbs / 100) ++ "." ++
    String.ofList (List.replicate (2 - digits.length) '0') ++ digits

/-! ### Signatures -/

/-- The value of a hexadecimal digit. -/
def hexDigit (c : Char) : Option ℕ :=
  if c.isDigit then some (c.toNat - '0'.toNat)
  else if 'a' ≤ c ∧ c ≤ 'f' then some (c.toNat - 'a'.toNat + 10)
  else if 'A' ≤ c ∧ c ≤ 'F' then some (c.toNat - 'A'.toNat + 10)
  else none

/-- `Buffer.from(text, 'hex')`: pairs of digits, up to the first that is none. -/
def hexBytes : List Char → List ℕ
  | c :: d :: rest =>
    match hexDigit c, hexDigit d with
    | some x, some y => (16 * x + y) :: hexBytes rest
    | _, _ => []
  | _ => []

/-- `verifyWebhookSignature` of `webhook.util.js`, over the exact bytes of the body. -/
def verifyWebhookSignature (env : Environment) (rawBody : String)
    (signature : Option String) : Bool :=
  match truthy signature with
  | none => false
  | some given =>
    let expected := env.hmacSha256 env.paymentWebhookSecret rawBody
    env.paymentWebhookSecret ≠ "" ∧ hexBytes expected.toList = hexBytes given.toList

namespace Razorpay

/-- `signatureMatches` of the Razorpay client. -/
def signatureMatches (env : Environment) (payload secret : String)
    (signature : Option String) : Bool :=
  secret ≠ "" ∧ signature = some (env.hmacSha256 secret payload)

/-- The browser's proof of payment, made with the shop's key secret. -/
def checkoutSignatureValid (env : Environment) (keySecret orderId paymentId : String)
    (signature : Option String) : Bool :=
  signatureMatches env (orderId ++ "|" ++ paymentId) keySecret signature

/-- Webhooks are signed over the raw body with the webhook secret. -/
def webhookSignatureValid (env : Environment) (webhookSecret rawBody : String)
    (signature : Option String) : Bool :=
  signatureMatches env rawBody webhookSecret signature

/-! ### Amounts -/

/-- `MINOR_UNIT_DIGITS`: most currencies have two decimals. -/
def minorUnitDigits (currency : String) : ℕ :=
  let code := String.ofList (currency.toList.map Char.toUpper)
  if code ∈ ["JPY", "KRW", "VND", "CLP", "PYG", "UGX", "ISK"] then 0
  else if code ∈ ["BHD", "KWD", "OMR", "JOD", "TND"] then 3
  else 2

/-- An amount in the smallest unit of its currency. -/
def toMinorUnits (amount : Cents) (currency : String) : ℤ :=
  Gst.roundDiv (amount * 10 ^ minorUnitDigits currency) 100

/-! ### Calls -/

/-- Decrypted keys of the shop's account. -/
structure Credentials where
  keyId : String
  keySecret : String
  webhookSecret : Option String
  deriving DecidableEq, Repr

/-- `credentialsFor`: none when the shop has no account, or it is disabled or unreadable. -/
def credentialsFor (tenantId : Uuid) (includeDisabled : Bool) (s : Db) : Option Credentials :=
  ((s.paymentGateways.lookup tenantId).filter fun row => row.enabled ∨ includeDisabled).bind
    fun row => (truthy row.keySecret).map fun keySecret =>
      { keyId := row.keyId, keySecret, webhookSecret := row.webhookSecret }

def modeOf (keyId : String) : String :=
  if "rzp_live_".toList.isPrefixOf keyId.toList then "live" else "test"

/-- Razorpay cannot be reached, or its answer does not come. -/
def unavailable : Failure :=
  .app ⟨"Online payment is not available right now. Please try again shortly.", 502,
    "PAYMENT_PROVIDER_ERROR"⟩

/-- Create an order at Razorpay; its id, when the answer can be read. -/
def createOrder (credentials : Credentials) (amountMinor : ℤ) (currency receipt : String)
    (tenantId orderId : Uuid) : Sql (Option String) := do
  match ← send (.createOrder credentials.keyId amountMinor currency receipt tenantId orderId) with
  | .orderCreated id => return some id
  | .unreadable _ => return none
  | .rejected e => .raise (.app e)
  | _ => .raise unavailable

/-- Send a refund to Razorpay; its id, when the answer can be read. -/
def refundPayment (credentials : Credentials) (razorpayPaymentId : String) (amountMinor : ℤ)
    (paymentId : Uuid) (reason : Option String) : Sql (Option String) := do
  match ← send (.refundPayment credentials.keyId razorpayPaymentId amountMinor paymentId
    reason) with
  | .refundAccepted id => return some id
  | .unreadable _ => return none
  | .rejected e => .raise (.app e)
  | _ => .raise unavailable

/-- Payments received on a QR code. -/
def qrPayments (credentials : Credentials) (qrId : String) : Sql (List QrPayment) := do
  match ← send (.qrPayments credentials.keyId qrId) with
  | .qrReceived items => return items
  | .unreadable _ => return []
  | .rejected e => .raise (.app e)
  | _ => .raise unavailable

end Razorpay

namespace PaymentProvider

/-- `createPaymentProvider`: the mock unless the configuration names a real one. -/
def providerName (env : Environment) : String :=
  if env.paymentProvider ∈ ["http", "stripe", "adyen"] then "http" else "mock"

/-- Charge through the HTTP provider; the mock is never asked. -/
def charge (env : Environment) (amount : Cents) (currency : String) (orderId tenantId : Uuid) :
    Sql (Option String) :=
  if providerName env = "mock" then return none
  else do
    match ← send (.charge amount currency orderId tenantId
      (tenantId ++ ":" ++ orderId ++ ":" ++ toString amount)) with
    | .charged id => return truthy id
    | .unreadable _ => return none
    | .rejected e => .raise (.integration e.message)
    | _ => .raise (.integration "Payment provider error")

end PaymentProvider

end PulseOps
