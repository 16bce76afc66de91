import PulseOps.Json.Paths
import PulseOps.Model.Auth
import PulseOps.Model.Support

/-!
# The socket server

`realtime/socket.auth.js`, `realtime/socket.server.js` and `realtime/realtime.service.js`: who may
open a socket, which rooms it joins, and what is sent to a room.

How tokens are verified and how the runtime lower-cases are parameters. The room that every
socket has under its own id is left out: nothing is sent to it.
-/

set_option autoImplicit false

namespace PulseOps.Realtime

variable {ν : Type}

/-! ### Opening a socket -/

/-- Where the handshake may have a token; what is not a string is none. -/
structure Handshake where
  authToken : Option String := none
  authorization : Option String := none
  queryToken : Option String := none
  deriving DecidableEq, Repr

/-- `slice(7)` of a text that starts with `Bearer `. -/
def afterBearer (s : String) : Option String :=
  if "Bearer ".toList.isPrefixOf s.toList then some (String.ofList (s.toList.drop 7)) else none

/-- `extractToken`. -/
def extractToken (h : Handshake) : Option String :=
  match truthy h.authToken with
  | some token => some ((afterBearer token).getD token)
  | none => (truthy h.authorization).bind afterBearer <|> truthy h.queryToken

/-- Why `verifyAccessToken` throws. -/
inductive TokenError where
  /-- `TokenExpiredError` -/
  | expired
  /-- `JsonWebTokenError` -/
  | invalid
  | other
  deriving DecidableEq, Repr

/-- The claims of a token. -/
structure Claims where
  sub : Option String := none
  tenantId : Option String := none
  sessionId : Option String := none
  email : Option String := none
  scope : Option String := none
  deriving DecidableEq, Repr

/-- `socket.context`. -/
structure Context where
  userId : Uuid
  tenantId : Uuid
  sessionId : Uuid
  email : Option String
  scope : String
  deriving DecidableEq, Repr

/-- The states that the statements of the handshake read: `isSessionActive`, then the platform
role or the member of the tenant, then the platform user. -/
structure Reads where
  session : Accounts.Db
  grant : Accounts.Db
  user : Accounts.Db
  now : Accounts.Millis

/-- The checks for a platform token. -/
def checkPlatformUser (userId : Uuid) (reads : Reads) : Except String Unit :=
  if Accounts.AuthRepository.hasPlatformRole userId reads.grant = false then
    .error "PLATFORM_ACCESS_DENIED"
  else if (reads.user.users.lookup userId).any (·.status = .active) then .ok ()
  else .error "USER_NOT_FOUND"

/-- The checks for any other token. -/
def checkTenantUser (userId tenantId : Uuid) (s : Accounts.Db) : Except String Unit :=
  match Accounts.AuthRepository.findUserByIdAndTenant userId tenantId s with
  | none => .error "USER_NOT_FOUND"
  | some (_, user) =>
    if user.status ≠ .active then .error "USER_NOT_FOUND"
    else
      match s.tenants.lookup tenantId with
      | none => .error "TENANT_INACTIVE"
      | some tenant =>
        if tenant.status ≠ .active ∧ tenant.status ≠ .trial then .error "TENANT_INACTIVE"
        else if tenant.slug = Accounts.platformTenantSlug then .error "PLATFORM_TENANT_FORBIDDEN"
        else .ok ()

/-- The claims that every token must have. -/
def requiredClaims (decoded : Claims) : Option (Uuid × Uuid × Uuid) := do
  let sub ← truthy decoded.sub
  let tenantId ← truthy decoded.tenantId
  let sessionId ← (truthy decoded.sessionId).filter Support.isUuid
  return (sub, tenantId, sessionId)

/-- `socketAuthMiddleware`: the context of the socket, or the code of the error. -/
def socketAuth (verifyAccessToken : Accounts.Millis → String → Except TokenError Claims)
    (h : Handshake) (reads : Reads) : Except String Context :=
  match truthy (extractToken h) with
  | none => .error "UNAUTHORIZED"
  | some token =>
    match verifyAccessToken reads.now token with
    | .error .expired => .error "TOKEN_EXPIRED"
    | .error .invalid => .error "INVALID_TOKEN"
    | .error .other => .error "AUTH_FAILED"
    | .ok decoded =>
      let scope := (truthy decoded.scope).getD "tenant"
      match requiredClaims decoded with
      | none => .error "INVALID_TOKEN_CLAIMS"
      | some (sub, tenantId, sessionId) =>
        if Accounts.AuthRepository.isSessionActive sessionId sub reads.now reads.session then
          match if scope = "platform" then checkPlatformUser sub reads
              else checkTenantUser sub tenantId reads.grant with
          | .error code => .error code
          | .ok () => .ok ⟨sub, tenantId, sessionId, decoded.email, scope⟩
        else .error "SESSION_REVOKED"

/-! ### Payloads -/

/-- `FORBIDDEN_KEYS`. -/
def forbiddenKeys : List String :=
  ["password", "passwordHash", "password_hash", "hash", "refreshToken", "refresh_token",
    "accessToken", "access_token", "token", "secret", "apiSecret", "api_secret",
    "webhookSecret", "webhook_secret", "providerSecret", "credentials", "authorization",
    "cookie", "cookies"]

/-- The patterns of `isForbiddenKey`. -/
def forbiddenPatterns : List String :=
  ["password", "secret", "credential", "authorization", "cookie", "refresh_token",
    "access_token"]

/-- `isForbiddenKey`. -/
def isForbiddenKey (toLowerCase : String → String) (key : String) : Bool :=
  key ∈ forbiddenKeys ∨ toLowerCase key ∈ forbiddenKeys ∨
    forbiddenPatterns.any fun p => p.toList <:+: (toLowerCase key).toList

/-- Stack traces, under these names. -/
def stackKeys : List String := ["stack", "stackTrace", "stacktrace"]

/-- What stands in a payload where JSON has a number: a number, or a `Date`, which is an object
without enumerable properties of its own. -/
inductive Leaf (ν : Type) where
  | num (n : ν)
  | date (milliseconds : ℤ)
  deriving DecidableEq, Repr

/-- What the services hand to `emitRealtime`: rows as Prisma returns them, with their dates. -/
abbrev Payload (ν : Type) : Type := Json (Leaf ν)

/-- `v !== null && typeof v === 'object'`. -/
def isObject : Payload ν → Bool
  | .arr _ => true
  | .obj _ => true
  | .num (.date _) => true
  | _ => false

/-- Whether a member of a payload goes out. Assigning to `__proto__` makes no member. -/
def keepsMember (toLowerCase : String → String) (key : String) (v : Payload ν) : Bool :=
  isForbiddenKey toLowerCase key = false ∧ (isObject v ∨ key ∉ stackKeys) ∧ key ≠ "__proto__"

section

variable (toLowerCase : String → String)

mutual

/-- `sanitizePayload`. `Object.entries` of a `Date` is empty. -/
def sanitizePayload : Payload ν → Payload ν
  | .arr items => .arr (sanitizeItems items)
  | .obj members => .obj (sanitizeMembers members)
  | .num (.date _) => .obj []
  | v => v

def sanitizeItems : List (Payload ν) → List (Payload ν)
  | [] => []
  | v :: items => sanitizePayload v :: sanitizeItems items

/-- The loop over `Object.entries`. -/
def sanitizeMembers : List (String × Payload ν) → List (String × Payload ν)
  | [] => []
  | (key, v) :: members =>
    if keepsMember toLowerCase key v then (key, sanitizePayload v) :: sanitizeMembers members
    else sanitizeMembers members

end

end

/-! ### The server -/

/-- `ALLOWED_EVENTS`. -/
def allowedEvents : List String :=
  ["order.created", "order.updated", "inventory.low_stock", "payment.completed",
    "notification.created"]

def tenantRoom (tenantId : Uuid) : String := "tenant:" ++ tenantId

def userRoom (userId : Uuid) : String := "user:" ++ userId

/-- An open socket. -/
structure Socket where
  id : String
  context : Context
  rooms : List String

/-- The rooms a client may ask for. -/
def allowedRooms (ctx : Context) : List String := [tenantRoom ctx.tenantId, userRoom ctx.userId]

/-- What `emitRealtime` sends. -/
structure Envelope (ν : Type) where
  event : String
  data : Payload ν
  tenantId : Option String
  timestamp : String

/-- What goes out over a socket. -/
inductive Message (ν : Type) where
  /-- `connected`, with the rooms -/
  | connected (userId tenantId : Uuid) (rooms : List String)
  /-- `error`, and the code of the answer to the request -/
  | refused (code : String)
  /-- the answer to a request for a room -/
  | accepted (room : String)
  | event (envelope : Envelope ν)

/-- The open sockets, and everything that went out so far with the id of its socket. -/
structure Server (ν : Type) where
  sockets : List Socket := []
  sent : List (String × Message ν) := []

/-- The room a client asks for, by itself or under `room` or a second name. -/
def requestedRoom (second : String) : Json ν → Option String
  | .str room => truthy (some room)
  | .obj members =>
    match members.lookup "room", members.lookup second with
    | some (.str room), _ => truthy (some room)
    | _, some (.str room) => truthy (some room)
    | _, _ => none
  | _ => none

/-- The answer to a client that asks for a room. No room is joined. -/
def answerRoom (ctx : Context) (missing : String) (room : Option String) : Message ν :=
  match room with
  | none => .refused missing
  | some room => if room ∈ allowedRooms ctx then .accepted room else .refused "FORBIDDEN"

/-- The room an event is sent to: that of the user, if there is one, else that of the tenant. -/
def targetRoom (tenantId userId : Option String) : Option String :=
  (truthy userId).map userRoom <|> (truthy tenantId).map tenantRoom

/-- What happens to the server: the clients connect, ask for rooms and leave, and the services
call `emitRealtime`. -/
inductive Action (ν : Type) where
  | connect (id : String) (handshake : Handshake) (reads : Reads)
  | join (id : String) (payload : Json ν)
  | subscribe (id : String) (payload : Json ν)
  | disconnect (id : String)
  | emit (event : String) (payload : Payload ν) (tenantId userId : Option String)
      (timestamp : String)

namespace Server

/-- Answer every socket with the id. -/
def answer (id : String) (message : Context → Message ν) (server : Server ν) : Server ν :=
  { server with
    sent := server.sent ++
      (server.sockets.filter (·.id = id)).map fun socket => (id, message socket.context) }

/-- `io.to(room).emit(event, envelope)`. -/
def sendTo (room : String) (envelope : Envelope ν) (server : Server ν) : Server ν :=
  { server with
    sent := server.sent ++ (server.sockets.filter fun socket => room ∈ socket.rooms).map
      fun socket => (socket.id, .event envelope) }

variable (verifyAccessToken : Accounts.Millis → String → Except TokenError Claims)
  (toLowerCase : String → String)

/-- `emitRealtime`. -/
def emitRealtime (event : String) (payload : Payload ν) (tenantId userId : Option String)
    (timestamp : String) (server : Server ν) : Server ν :=
  if event ∉ allowedEvents then server
  else
    match targetRoom tenantId userId with
    | none => server
    | some room => server.sendTo room
        { event, data := sanitizePayload toLowerCase payload, tenantId := truthy tenantId
          timestamp }

/-- The handler of `connection`: the socket joins the room of its tenant and of its user. -/
def connected (id : String) (ctx : Context) (server : Server ν) : Server ν :=
  { sockets := server.sockets ++ [⟨id, ctx, allowedRooms ctx⟩]
    sent := server.sent ++ [(id, .connected ctx.userId ctx.tenantId (allowedRooms ctx))] }

/-- One step. -/
def step (server : Server ν) : Action ν → Server ν
  | .connect id handshake reads =>
    match socketAuth verifyAccessToken handshake reads with
    | .error _ => server
    | .ok ctx => server.connected id ctx
  | .join id payload =>
    server.answer id fun ctx => answerRoom ctx "INVALID_ROOM" (requestedRoom "rooms" payload)
  | .subscribe id payload =>
    server.answer id fun ctx => answerRoom ctx "FORBIDDEN" (requestedRoom "channel" payload)
  | .disconnect id => { server with sockets := server.sockets.filter (·.id ≠ id) }
  | .emit event payload tenantId userId timestamp =>
    server.emitRealtime toLowerCase event payload tenantId userId timestamp

/-- A whole run, from a server without sockets. -/
def run (actions : List (Action ν)) : Server ν :=
  actions.foldl (step verifyAccessToken toLowerCase) {}

end Server

end PulseOps.Realtime
