import PulseOps.Model.Auth
import PulseOps.Model.PointOfSale
import PulseOps.Model.Routes
import PulseOps.ReadCommitted.Interleaved

/-!
# Support sessions

`support/support.service.js` with the parts of `auth/auth.middleware.js` and
`auth/authorization.middleware.js` that a support token goes through, and the handlers behind
them. One turn of a request is one call to Prisma.

What a reading handler answers does not matter here. Which of its calls it makes depends on
the filters, the cache and the rows it finds, and is left to the surroundings, as is all that
a handler does for a token of another scope. The rows of the tables that nothing here reads
by name are of an arbitrary type.
-/

set_option autoImplicit false

open ReadCommitted

namespace PulseOps.Support

open Accounts (Millis platformTenantSlug)
open Routes

/-! ### Rows -/

/-- A row of `support_sessions`. -/
structure SupportSession where
  tenantId : Uuid
  platformUserId : Uuid
  reason : String
  expiresAt : Millis
  endedAt : Option Millis := none
  deriving DecidableEq, Repr

/-- A permission of a platform role that the user holds. -/
structure PlatformGrant where
  userId : Uuid
  resource : String
  action : String
  deriving DecidableEq, Repr

structure ActivityLog where
  tenantId : Uuid
  userId : Uuid
  action : String
  description : String
  supportSessionId : Uuid
  statusCode : ℕ
  ipAddress : Option String
  userAgent : Option String
  deriving DecidableEq, Repr

/-- The tables: those of the accounts, those of the sales core, those of support access, the
activity log, and all others. -/
structure Store (ρ : Type) where
  accounts : Accounts.Db
  sales : PulseOps.Db
  supportSessions : Table Uuid SupportSession
  platformGrants : List PlatformGrant
  activityLogs : List ActivityLog
  others : ρ

/-- The rows of every table but the activity log. -/
def Store.rows {ρ : Type} (s : Store ρ) : Store ρ := { s with activityLogs := [] }

/-! ### Requests -/

/-- The `scope` of an access token. -/
inductive Scope where
  | tenant
  | platform
  | customer
  | support
  deriving DecidableEq, Repr

/-- The claims of an access token. -/
structure DecodedToken where
  sub : Option Uuid
  tenantId : Option Uuid
  sessionId : Option String
  email : Option String := none
  scope : Option Scope
  deriving DecidableEq, Repr

/-- Why there are no claims. -/
inductive TokenError where
  /-- no `Bearer` token in the header -/
  | missing
  | expired
  | invalid
  deriving DecidableEq, Repr

structure Request where
  route : Route
  method : Method
  originalUrl : String
  /-- what `verifyAccessToken` makes of the header -/
  token : Except TokenError DecodedToken
  /-- when the session is looked up -/
  now : Millis
  /-- whether `validate` lets the request pass -/
  valid : Bool := true
  /-- the id that a new counter would get -/
  registerId : Uuid
  ip : Option String := none
  userAgent : Option String := none
  mounted : route ∈ apiRouter
  served : route.serves method = true

/-- Whether the request carries a support token, if it carries a token that can be read. -/
def Request.carriesSupport (req : Request) : Prop :=
  ∀ decoded, req.token = .ok decoded → decoded.scope = some .support

/-- `req.context` of a support request. -/
structure Context where
  userId : Uuid
  tenantId : Uuid
  sessionId : Uuid
  email : Option String := none
  deriving DecidableEq, Repr

/-- Where a request is. -/
inductive Phase where
  /-- the token is read, and `supportSession.findFirst` comes next -/
  | arrived
  /-- `platformUserRole.findFirst` -/
  | granting (context : Context)
  /-- the calls of the handler that are left -/
  | calling (context : Context) (calls : List PrismaCall)
  /-- the first call of `ensureDefault` -/
  | ensureDefault (context : Context)
  /-- `cashRegister.create` -/
  | creating (context : Context)
  /-- the counter with the default name, after a unique violation -/
  | findingDefault (context : Context)
  /-- a handler that is not written out -/
  | other
  /-- the response is on its way, and the activity log comes next -/
  | answered (context : Context) (statusCode : ℕ)
  | done (statusCode : ℕ)
  deriving DecidableEq, Repr

/-- What a handler does about its next call. -/
inductive Move where
  | call
  | skip
  | answer (statusCode : ℕ)
  deriving DecidableEq, Repr

/-- What the code here does not settle. -/
structure Surroundings (ρ : Type) where
  /-- which calls a handler makes -/
  move : Request → PrismaCall → Store ρ → Move
  /-- what a writing call writes -/
  write : PrismaCall → Store ρ → Store ρ
  /-- what the other handlers do, one turn at a time -/
  other : Request → Store ρ → Store ρ × Phase

/-! ### Errors -/

def unauthorized : AppError := ⟨"Authentication required", 401, "UNAUTHORIZED"⟩

def tokenExpired : AppError := ⟨"Access token has expired", 401, "TOKEN_EXPIRED"⟩

def invalidToken : AppError := ⟨"Invalid access token", 401, "INVALID_TOKEN"⟩

def invalidTokenClaims : AppError := ⟨"Invalid token claims", 401, "INVALID_TOKEN_CLAIMS"⟩

def customerTokenForbidden : AppError :=
  ⟨"Shopper tokens only work on the storefront API", 403, "CUSTOMER_TOKEN_FORBIDDEN"⟩

def platformTokenForbidden : AppError :=
  ⟨"Platform token cannot access tenant resources", 403, "PLATFORM_TOKEN_FORBIDDEN"⟩

def supportTokenForbidden : AppError :=
  ⟨"Support sessions cannot use this endpoint", 403, "SUPPORT_TOKEN_FORBIDDEN"⟩

def sessionRevoked : AppError := ⟨"Support session has ended", 401, "SESSION_REVOKED"⟩

def supportReadOnly : AppError := ⟨"Support sessions are read-only", 403, "SUPPORT_READ_ONLY"⟩

def TokenError.toAppError : TokenError → AppError
  | missing => unauthorized
  | expired => tokenExpired
  | invalid => invalidToken

/-! ### Authentication -/

/-- `READ_METHODS`. -/
def readMethods : List Method := [.get, .head, .options]

/-- `UUID_RE`. -/
def isUuid (s : String) : Bool :=
  let groups := s.toList.splitOn '-'
  groups.map List.length = [8, 4, 4, 4, 12] ∧ groups.all fun group => group.all fun c =>
    ('0' ≤ c ∧ c ≤ '9') ∨ ('a' ≤ c ∧ c ≤ 'f') ∨ ('A' ≤ c ∧ c ≤ 'F')

/-- The claims that every token must have. -/
def requiredClaims (decoded : DecodedToken) : Option (Uuid × String) := do
  return (← truthy decoded.sub, ← truthy decoded.sessionId)

/-- What `authenticate` makes of the token: the context of a support request, nothing for a
token of a tenant's own user, or an error. -/
def authenticate (allowSupport : Bool) (token : Except TokenError DecodedToken) :
    Except AppError (Option Context) :=
  match token with
  | .error e => .error e.toAppError
  | .ok decoded =>
    match requiredClaims decoded with
    | none => .error invalidTokenClaims
    | some (sub, sessionId) =>
      match decoded.scope.getD .tenant with
      | .customer => .error customerTokenForbidden
      | .platform => .error platformTokenForbidden
      | .tenant => .ok none
      | .support =>
        if allowSupport then
          match truthy decoded.tenantId with
          | some tenantId =>
            if isUuid sessionId then .ok (some ⟨sub, tenantId, sessionId, decoded.email⟩)
            else .error invalidTokenClaims
          | none => .error invalidTokenClaims
        else .error supportTokenForbidden

variable {ρ : Type}

/-- `isActiveTenant`. -/
def isActiveTenant (tenant : Accounts.Tenant) : Bool :=
  tenant.slug ≠ platformTenantSlug ∧ (tenant.status = .active ∨ tenant.status = .trial)

/-- The first call of `findActive`: the session with its tenant and its holder. -/
def findSession (context : Context) (now : Millis) (s : Store ρ) : Bool :=
  match s.supportSessions.lookup context.sessionId with
  | none => false
  | some session =>
    session.platformUserId = context.userId ∧ session.tenantId = context.tenantId ∧
      session.endedAt = none ∧ now < session.expiresAt ∧
      (s.accounts.tenants.lookup session.tenantId).any isActiveTenant ∧
      (s.accounts.users.lookup session.platformUserId).any (·.status = .active)

/-- The second call of `findActive`. -/
def hasSupportGrant (context : Context) (s : Store ρ) : Bool :=
  ⟨context.userId, "platform:tenant", "access"⟩ ∈ s.platformGrants

/-- `authorize`, for a support request. -/
def authorizeSupport (permission : String) : Except AppError Unit :=
  if (":read".toList).isSuffixOf permission.toList then .ok () else .error supportReadOnly

/-- The guards of the route, in their order: the status they answer, or none. -/
def refusal (valid : Bool) : List Guard → Option ℕ
  | [] => none
  | .validate :: guards => if valid then refusal valid guards else some 400
  | .authorize permission :: guards =>
    match authorizeSupport permission with
    | .error e => some e.statusCode
    | .ok () => refusal valid guards

/-! ### Handlers -/

/-- Where a handler begins. -/
def Handler.start (context : Context) : Handler → Phase
  | .calls calls => .calling context calls
  | .listRegisters => .ensureDefault context
  | .other => .other

/-- A live session: the method, the guards of the route, and the handler. -/
def dispatch (req : Request) (context : Context) : Phase :=
  if req.method ∈ readMethods then
    match refusal req.valid req.route.guards with
    | some statusCode => .answered context statusCode
    | none => Handler.start context req.route.handler
  else .answered context supportReadOnly.statusCode

/-- The counter of `ensureDefault`. -/
def defaultCounter (tenantId : Uuid) : CashRegister :=
  { tenantId, name := CashRegisterService.defaultRegister }

/-- What `list` does after `ensureDefault`. -/
def listing (context : Context) : Phase := .calling context [⟨.cashRegister, .findMany⟩]

/-- `logRequest`. -/
def logRequest (req : Request) (context : Context) (statusCode : ℕ) : ActivityLog where
  tenantId := context.tenantId
  userId := context.userId
  action := "support.view"
  description := (match req.method with
    | .get => "GET " | .head => "HEAD " | .options => "OPTIONS " | .post => "POST "
    | .put => "PUT " | .patch => "PATCH " | .delete => "DELETE ") ++
    String.ofList (req.originalUrl.toList.takeWhile (· ≠ '?'))
  supportSessionId := context.sessionId
  statusCode
  ipAddress := req.ip
  userAgent := req.userAgent

/-- One turn. -/
def advance (env : Surroundings ρ) (req : Request) (s : Store ρ) : Phase → Store ρ × Phase
  | .arrived =>
    match authenticate req.route.allowSupport req.token with
    | .error e => (s, .done e.statusCode)
    | .ok none => (s, .other)
    | .ok (some context) =>
      if findSession context req.now s then (s, .granting context)
      else (s, .done sessionRevoked.statusCode)
  | .granting context =>
    if hasSupportGrant context s then (s, dispatch req context)
    else (s, .done sessionRevoked.statusCode)
  | .calling context [] => (s, .answered context 200)
  | .calling context (call :: calls) =>
    match env.move req call s with
    | .answer statusCode => (s, .answered context statusCode)
    | .skip => (s, .calling context calls)
    | .call =>
      (if call.operation.writes then env.write call s else s, .calling context calls)
  | .ensureDefault context =>
    match CashRegisterService.findFirst
        (fun r => r.tenantId = context.tenantId ∧ r.isActive) s.sales with
    | some _ => (s, listing context)
    | none => (s, .creating context)
  | .creating context =>
    match Statement.insertCashRegister req.registerId (defaultCounter context.tenantId)
        s.sales with
    | .ok .nothing => (s, .findingDefault context)
    | .ok e => ({ s with sales := s.sales.apply e }, listing context)
    | .error _ => (s, .answered context 500)
  | .findingDefault context => (s, listing context)
  | .other => env.other req s
  | .answered context statusCode =>
    ({ s with activityLogs := s.activityLogs ++ [logRequest req context statusCode] },
      .done statusCode)
  | .done statusCode => (s, .done statusCode)

/-- The requests have arrived. -/
def start (requests : List Request) (s : Store ρ) : Interleaved (Store ρ) Phase :=
  ⟨s, requests.map fun _ => .arrived⟩

end PulseOps.Support
