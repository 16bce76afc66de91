import PulseOps.Model.Rows
import PulseOps.ReadCommitted.Observation

/-!
# Storefront sign-in

The tables of the shoppers and `StorefrontAuthService` of `storefront/storefront.auth.js`:
redeeming an emailed code, rotating the refresh token of a session and signing out. A third
instance of `ReadCommitted.Database`: the sales core does not touch these tables.

A session has one row, which holds the hash of its current refresh token. A conditional
`updateMany` of one row is a single statement here, which looks at the row when it has its
lock; one of many rows finds them first and looks at each again before it writes.

Registering, signing in with a password and sending the code are left out, and so are the
client's address and browser, the emails and the only value of the column `type`. A request
that has written commits before it throws: it ends in an error here, where one that has not
written stops.
-/

set_option autoImplicit false

open ReadCommitted Program

namespace PulseOps.Storefront

/-- Milliseconds since the epoch. -/
abbrev Millis := ℤ

/-! ### Rows and edits -/

/-- The columns of a customer that the storefront reads. -/
structure Customer where
  tenantId : Uuid
  email : String
  firstName : String
  lastName : String
  phone : Option String
  passwordHash : Option String := none
  emailVerifiedAt : Option Millis := none
  lastLoginAt : Option Millis := none
  deletedAt : Option Millis := none
  deriving DecidableEq, Repr

structure CustomerSession where
  tenantId : Uuid
  customerId : Uuid
  refreshTokenHash : String
  expiresAt : Millis
  revokedAt : Option Millis := none
  lastUsedAt : Option Millis := none
  deriving DecidableEq, Repr

structure CustomerToken where
  tenantId : Uuid
  customerId : Uuid
  tokenHash : String
  expiresAt : Millis
  usedAt : Option Millis := none
  deriving DecidableEq, Repr

structure Db where
  customers : Table Uuid Customer := ∅
  customerSessions : Table Uuid CustomerSession := ∅
  customerTokens : Table Uuid CustomerToken := ∅

/-- What one writing statement does. -/
inductive Edit where
  /-- an `UPDATE` of no rows -/
  | nothing
  | customerUpdate (id : Uuid) (row : Customer)
  | sessionInsert (id : Uuid) (row : CustomerSession)
  | sessionUpdate (id : Uuid) (row : CustomerSession)
  | sessionsRevoke (ids : List Uuid) (revokedAt : Millis)
  | tokenUpdate (id : Uuid) (row : CustomerToken)
  deriving DecidableEq

/-- Lockable rows. -/
inductive Key where
  | customer (id : Uuid)
  | session (id : Uuid)
  | token (id : Uuid)
  deriving DecidableEq, Repr

/-- The service asks nobody outside before it commits. -/
inductive Call where
  deriving DecidableEq

namespace Db

/-- Revoke one session, if it is there. -/
def revokeSession (t : Table Uuid CustomerSession) (revokedAt : Millis) (id : Uuid) :
    Table Uuid CustomerSession :=
  match t.lookup id with
  | none => t
  | some row => t.insert id { row with revokedAt := some revokedAt }

/-- The state after one edit. -/
@[simp] def apply (s : Db) : Edit → Db
  | .nothing => s
  | .customerUpdate id row => { s with customers := s.customers.insert id row }
  | .sessionInsert id row => { s with customerSessions := s.customerSessions.insert id row }
  | .sessionUpdate id row => { s with customerSessions := s.customerSessions.insert id row }
  | .sessionsRevoke ids revokedAt =>
    { s with
      customerSessions := ids.foldl (fun t id => revokeSession t revokedAt id) s.customerSessions }
  | .tokenUpdate id row => { s with customerTokens := s.customerTokens.insert id row }

/-- Whether a lockable row exists. -/
def present (s : Db) : Key → Bool
  | .customer id => (s.customers.lookup id).isSome
  | .session id => (s.customerSessions.lookup id).isSome
  | .token id => (s.customerTokens.lookup id).isSome

end Db

/-- The rows an edit takes. -/
def Edit.footprint : Edit → List Key
  | .nothing => []
  | .customerUpdate id _ => [.customer id]
  | .sessionInsert id _ => [.session id]
  | .sessionUpdate id _ => [.session id]
  | .sessionsRevoke ids _ => ids.map .session
  | .tokenUpdate id _ => [.token id]

/-- `{ count }` of an `updateMany`. -/
def Edit.count : Edit → ℕ
  | .nothing => 0
  | .sessionsRevoke ids _ => ids.length
  | _ => 1

/-- The storefront's tables as a database. -/
def storefront : Database Db Key Edit Call Unit Failure where
  apply := Db.apply
  footprint := Edit.footprint
  present := Db.present

/-- Programs over the storefront's tables. -/
abbrev Sql (α : Type) := Program storefront α

@[simp] theorem storefront_apply (s : Db) (e : Edit) : storefront.apply s e = s.apply e := rfl

@[simp] theorem storefront_footprint (e : Edit) : storefront.footprint e = e.footprint := rfl

/-- Stop with an `AppError` unless `P` holds. -/
def ensure (P : Prop) [Decidable P] (e : AppError) : Sql Unit := .require P (.app e)

/-- The value, or stop with an `AppError`. -/
def orThrow {α : Type} (x : Option α) (e : AppError) : Sql α := .orRaise x (.app e)

/-! ### Writing statements and their constraints -/

namespace Statement

/-- An `update` by its id, which fails when the row is gone. -/
def updateRow {ρ : Type} (table : Db → Table Uuid ρ) (edit : Uuid → ρ → Edit) (id : Uuid)
    (change : ρ → ρ) (s : Db) : Except Failure Edit :=
  match (table s).lookup id with
  | none => .error (.database .recordNotFound)
  | some row => .ok (edit id (change row))

/-- An `updateMany` by an id and a condition. -/
def updateRowWhere {ρ : Type} (table : Db → Table Uuid ρ) (edit : Uuid → ρ → Edit) (id : Uuid)
    (p : ρ → Bool) (change : ρ → ρ) (s : Db) : Except Failure Edit :=
  match ((table s).lookup id).filter p with
  | none => .ok .nothing
  | some row => .ok (edit id (change row))

/-- `customer.update`. -/
def updateCustomer : Uuid → (Customer → Customer) → Db → Except Failure Edit :=
  updateRow Db.customers .customerUpdate

/-- `customerSession.update`. -/
def updateSession : Uuid → (CustomerSession → CustomerSession) → Db → Except Failure Edit :=
  updateRow Db.customerSessions .sessionUpdate

/-- `customerSession.updateMany` of one session. -/
def updateSessionWhere : Uuid → (CustomerSession → Bool) → (CustomerSession → CustomerSession) →
    Db → Except Failure Edit :=
  updateRowWhere Db.customerSessions .sessionUpdate

/-- `customerToken.updateMany` of one token. -/
def updateTokenWhere : Uuid → (CustomerToken → Bool) → (CustomerToken → CustomerToken) →
    Db → Except Failure Edit :=
  updateRowWhere Db.customerTokens .tokenUpdate

/-- The `where` of the `updateMany` that ends a customer's sessions. -/
def openSessionOf (customerId : Uuid) (row : CustomerSession) : Bool :=
  row.customerId = customerId ∧ row.revokedAt = none

/-- The second half of that `updateMany`: of the rows it has found, those that still meet the
`where`. -/
def revokeSessions (customerId : Uuid) (found : List Uuid) (now : Millis) (s : Db) :
    Except Failure Edit :=
  .ok (.sessionsRevoke
    (found.filter fun id => (s.customerSessions.lookup id).any (openSessionOf customerId)) now)

/-- `customerSession.create`. -/
def insertSession (id : Uuid) (row : CustomerSession) (s : Db) : Except Failure Edit :=
  if (s.customerSessions.lookup id).isSome then .error (.database .uniqueViolation)
  else if (s.customers.lookup row.customerId).isSome then .ok (.sessionInsert id row)
  else .error (.database .foreignKeyViolation)

variable {s : Db} {e : Edit} {id : Uuid}

theorem updateRow_eq_ok {ρ : Type} {table : Db → Table Uuid ρ} {edit : Uuid → ρ → Edit}
    {change : ρ → ρ} : updateRow table edit id change s = .ok e ↔
      ∃ row, (table s).lookup id = some row ∧ e = edit id (change row) := by
  unfold updateRow
  split
  · simp_all
  · rename_i row hrow
    simp [hrow, eq_comm]

theorem updateRowWhere_eq_ok {ρ : Type} {table : Db → Table Uuid ρ} {edit : Uuid → ρ → Edit}
    {p : ρ → Bool} {change : ρ → ρ} (h : updateRowWhere table edit id p change s = .ok e) :
    e = .nothing ∨ ∃ row, (table s).lookup id = some row ∧ p row = true ∧
      e = edit id (change row) := by
  unfold updateRowWhere at h
  split at h
  · exact .inl (Except.ok.inj h).symm
  · rename_i row hrow
    obtain ⟨hlookup, hp⟩ := Option.filter_eq_some_iff.mp hrow
    exact .inr ⟨row, hlookup, hp, (Except.ok.inj h).symm⟩

theorem insertSession_eq_ok {row : CustomerSession} (h : insertSession id row s = .ok e) :
    s.customerSessions.lookup id = none ∧ e = .sessionInsert id row := by
  unfold insertSession at h
  split_ifs at h with hid hcustomer
  exact ⟨by simpa using hid, (Except.ok.inj h).symm⟩

end Statement

/-! ### Requests and their results -/

/-- The text in front of the first dot: `refreshToken.split('.')[0]`. -/
def sessionIdOf (refreshToken : String) : Uuid :=
  String.ofList (refreshToken.toList.takeWhile (· ≠ '.'))

/-- A refresh token: the id of its session and a secret. -/
def refreshTokenOf (sessionId : Uuid) (secret : String) : String := sessionId ++ "." ++ secret

/-- `SESSION_DAYS` in milliseconds. -/
def sessionLifetime : Millis := 30 * 86400000

/-- A request to `refresh`, with the clock and the random bytes of its run. -/
structure RefreshRequest where
  storeId : Uuid
  refreshToken : String
  now : Millis
  secret : String
  deriving DecidableEq, Repr

/-- A request to `logout`. -/
structure LogoutRequest where
  storeId : Uuid
  refreshToken : String
  now : Millis
  deriving DecidableEq, Repr

/-- A request to `setPassword`, with the hash of the password, the clock, and the id and the
random bytes of the new session. -/
structure SetPasswordRequest where
  storeId : Uuid
  token : String
  passwordHash : String
  now : Millis
  newSessionId : Uuid
  secret : String
  deriving DecidableEq, Repr

inductive AuthRequest where
  | refresh (r : RefreshRequest)
  | logout (r : LogoutRequest)
  | setPassword (r : SetPasswordRequest)
  deriving DecidableEq, Repr

/-- What `toProfile` shows of a customer. -/
structure Profile where
  id : Uuid
  email : String
  firstName : String
  lastName : String
  phone : Option String
  emailVerified : Bool
  deriving DecidableEq, Repr

/-- What `tokensFor` answers; the access token is given by its claims. -/
structure Tokens where
  sub : Uuid
  tenantId : Uuid
  refreshToken : String
  sessionId : Uuid
  customer : Profile
  deriving DecidableEq, Repr

inductive AuthResponse where
  | tokens (result : Tokens)
  | loggedOut
  deriving DecidableEq, Repr

/-! ### Service -/

namespace StorefrontAuthService

variable (sha256 : String → String)

def invalidRefresh : AppError := ⟨"Invalid or expired refresh token", 401, "INVALID_REFRESH_TOKEN"⟩

def invalidToken : AppError := ⟨"This link is invalid or has expired", 400, "INVALID_TOKEN"⟩

/-- `toProfile`. -/
def toProfile (id : Uuid) (c : Customer) : Profile where
  id := id
  email := c.email
  firstName := c.firstName
  lastName := c.lastName
  phone := c.phone
  emailVerified := c.emailVerifiedAt.isSome

/-- `tokensFor`. -/
def tokensFor (storeId customerId : Uuid) (customer : Customer) (sessionId : Uuid)
    (refreshToken : String) : Tokens where
  sub := customerId
  tenantId := storeId
  refreshToken := refreshToken
  sessionId := sessionId
  customer := toProfile customerId customer

/-- The session of a store with the id, and its customer. -/
def findSession (sessionId storeId : Uuid) (s : Db) : Option (CustomerSession × Customer) :=
  ((s.customerSessions.lookup sessionId).filter (·.tenantId = storeId)).bind fun session =>
    (s.customers.lookup session.customerId).map fun customer => (session, customer)

/-- The code with the hash, and its customer. -/
def findToken (tokenHash : String) (s : Db) : Option (Uuid × CustomerToken × Customer) :=
  (s.customerTokens.entries.find? fun x => x.2.tokenHash = tokenHash).bind fun x =>
    (s.customers.lookup x.2.customerId).map fun customer => (x.1, x.2, customer)

/-- What `refresh` asks of a session before it compares the hashes. -/
def usable (now : Millis) (session : CustomerSession) (customer : Customer) : Bool :=
  session.revokedAt = none ∧ now ≤ session.expiresAt ∧ customer.deletedAt = none

/-- `refresh`: rotation with reuse detection. -/
def refresh (r : RefreshRequest) : Sql (Except Failure AuthResponse) := do
  let sessionId := sessionIdOf r.refreshToken
  let found ← query (findSession sessionId r.storeId)
  let (session, customer) ← orThrow found invalidRefresh
  ensure (usable r.now session customer = true) invalidRefresh
  if session.refreshTokenHash ≠ sha256 r.refreshToken then
    perform (Statement.updateSession sessionId fun row => { row with revokedAt := some r.now })
    return .error (.app invalidRefresh)
  else do
    let next := refreshTokenOf sessionId r.secret
    let rotated ← execute (Statement.updateSessionWhere sessionId
      (fun row => row.refreshTokenHash = session.refreshTokenHash ∧ row.revokedAt = none)
      fun row => { row with refreshTokenHash := sha256 next, lastUsedAt := some r.now })
    ensure (rotated.count ≠ 0) invalidRefresh
    return .ok (.tokens (tokensFor r.storeId session.customerId customer sessionId next))

/-- `logout`. -/
def logout (r : LogoutRequest) : Sql (Except Failure AuthResponse) := do
  perform (Statement.updateSessionWhere (sessionIdOf r.refreshToken)
    (fun row => row.tenantId = r.storeId ∧ row.refreshTokenHash = sha256 r.refreshToken ∧
      row.revokedAt = none)
    fun row => { row with revokedAt := some r.now })
  return .ok .loggedOut

/-- `customerSession.updateMany` of all open sessions of a customer. -/
def revokeSessions (customerId : Uuid) (now : Millis) : Sql Unit := do
  let found ← query fun s =>
    (s.customerSessions.entries.filter fun x =>
      Statement.openSessionOf customerId x.2).map (·.1)
  perform (Statement.revokeSessions customerId found now)

/-- `issueSession`: the row is created with a placeholder for the hash. -/
def issueSession (storeId customerId : Uuid) (customer : Customer) (newSessionId : Uuid)
    (secret : String) (now : Millis) : Sql Tokens := do
  perform (Statement.insertSession newSessionId
    { tenantId := storeId, customerId, refreshTokenHash := "pending",
      expiresAt := now + sessionLifetime })
  let refreshToken := refreshTokenOf newSessionId secret
  perform (Statement.updateSession newSessionId fun row =>
    { row with refreshTokenHash := sha256 refreshToken })
  return tokensFor storeId customerId customer newSessionId refreshToken

/-- What `setPassword` writes over the customer it has read with the code. -/
def verified (r : SetPasswordRequest) (customer row : Customer) : Customer :=
  { row with
    passwordHash := some r.passwordHash
    emailVerifiedAt := customer.emailVerifiedAt <|> some r.now
    lastLoginAt := some r.now }

/-- The row an `update` of a customer has written. -/
def updatedCustomer : Edit → Option Customer
  | .customerUpdate _ row => some row
  | _ => none

/-- `setPassword`: redeems the emailed code, ends the customer's sessions and signs in. -/
def setPassword (r : SetPasswordRequest) : Sql (Except Failure AuthResponse) := do
  let found ← query (findToken (sha256 r.token))
  let (id, record, customer) ← orThrow found invalidToken
  ensure (record.tenantId = r.storeId ∧ record.usedAt = none ∧ r.now ≤ record.expiresAt ∧
    customer.deletedAt = none) invalidToken
  let claimed ← execute (Statement.updateTokenWhere id (fun row => row.usedAt = none)
    fun row => { row with usedAt := some r.now })
  ensure (claimed.count ≠ 0) invalidToken
  let updated ← execute (Statement.updateCustomer record.customerId (verified r customer))
  let shown ← Program.orRaise (updatedCustomer updated) .typeError
  revokeSessions record.customerId r.now
  let tokens ← issueSession sha256 r.storeId record.customerId shown r.newSessionId r.secret r.now
  return .ok (.tokens tokens)

/-- The program of a request. -/
def program : AuthRequest → Sql (Except Failure AuthResponse)
  | .refresh r => refresh sha256 r
  | .logout r => logout sha256 r
  | .setPassword r => setPassword sha256 r

end StorefrontAuthService

end PulseOps.Storefront
