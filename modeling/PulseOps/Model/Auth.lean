import PulseOps.Model.Accounts
import PulseOps.ReadCommitted.Requests

/-!
# Staff sign-in

`AuthService` of `auth/auth.service.js` over `auth/auth.repository.js`: signing in and out,
rotating a refresh token, ending sessions, changing and resetting a password, confirming an email
address. Only the rotation opens a transaction. Every other statement commits by itself, so a
request is a sequence of transactions here, and `AuthPoint` says where between two of them it
is.

What `randomUUID` and `randomBytes` draw comes with the request, and so does the hash that
argon2 makes of a new password. An `AppError` thrown after a statement has committed is a
result; one thrown before leaves nothing to commit.

`register` is left out.
-/

set_option autoImplicit false

open ReadCommitted Program

namespace PulseOps.Accounts

/-- The hash functions of `node:crypto` and of argon2. -/
structure Crypto where
  hashToken : String → String
  verifyPassword : String → String → Bool

/-- `PLATFORM_TENANT_SLUG`. -/
def platformTenantSlug : String := "__platform"

/-- `parseExpiry('7d')`. -/
def refreshTokenLifetime : Millis := 7 * 24 * 60 * 60 * 1000

inductive Scope where
  | tenant
  | platform
  deriving DecidableEq, Repr

/-! ### Repository -/

namespace AuthRepository

/-- The row of a table with the given hash. -/
def findByHash {ρ : Type} (hash : ρ → String) (tokenHash : String) (t : Table Uuid ρ) :
    Option (Uuid × ρ) :=
  (t.entries.find? fun x => hash x.2 = tokenHash).map fun x => (x.1, x.2)

/-- `findRefreshTokenByHash`. -/
def findRefreshTokenByHash (tokenHash : String) (s : Db) : Option (Uuid × RefreshToken) :=
  findByHash (·.tokenHash) tokenHash s.refreshTokens

/-- `findPasswordResetTokenByHash`. -/
def findPasswordResetTokenByHash (tokenHash : String) (s : Db) : Option (Uuid × OneTimeToken) :=
  findByHash (·.tokenHash) tokenHash s.passwordResetTokens

/-- `findEmailVerificationTokenByHash`. -/
def findEmailVerificationTokenByHash (tokenHash : String) (s : Db) :
    Option (Uuid × OneTimeToken) :=
  findByHash (·.tokenHash) tokenHash s.emailVerificationTokens

/-- `findUserById`. -/
def findUserById (id : Uuid) (s : Db) : Option (Uuid × User) :=
  (s.users.lookup id).map fun row => (id, row)

/-- `findUserByEmail`. -/
def findUserByEmail (email : String) (s : Db) : Option (Uuid × User) :=
  findByHash (·.email) email s.users

/-- `findUserByIdAndTenant`. -/
def findUserByIdAndTenant (id tenantId : Uuid) (s : Db) : Option (Uuid × User) :=
  if s.memberships.lookup (tenantId, id) = some .active then findUserById id s else none

/-- `hasPlatformRole`. -/
def hasPlatformRole (userId : Uuid) (s : Db) : Bool := userId ∈ s.platformUserRoles

/-- `isSessionActive`. -/
def isSessionActive (sessionId userId : Uuid) (now : Millis) (s : Db) : Bool :=
  s.refreshTokens.entries.any fun x =>
    x.2.sessionId = some sessionId ∧ x.2.userId = userId ∧ x.2.revokedAt = none ∧
      now < x.2.expiresAt

/-- `updateUser`. -/
def updateUser (id : Uuid) (change : User → User) : Sql Unit :=
  perform (Statement.updateUser id change)

/-- `refreshToken.updateMany` with `data: { revokedAt: new Date() }`. -/
def revoke (w : Revocation) (now : Millis) : Sql ℕ := do
  let found ← query fun s => (s.refreshTokens.entries.filter fun x => w.selects x.2).map (·.1)
  let e ← execute (Statement.revokeRefreshTokens w found now)
  return e.count

/-- `revokeSession`. -/
def revokeSession (sessionId userId tenantId : Uuid) : Millis → Sql ℕ :=
  revoke (.session sessionId userId tenantId)

/-- `revokeUserSessions`. -/
def revokeUserSessions (userId : Uuid) (keepSessionId : Option Uuid) : Millis → Sql ℕ :=
  revoke (.user userId (truthy keepSessionId))

/-- `revokeAllUserRefreshTokens`. -/
def revokeAllUserRefreshTokens (userId : Uuid) : Millis → Sql ℕ := revoke (.user userId none)

/-- `markPasswordResetTokenUsed`. -/
def markPasswordResetTokenUsed (tokenHash : String) (now : Millis) : Sql Unit := do
  let token ← query (findPasswordResetTokenByHash tokenHash)
  match token with
  | none => return ()
  | some (id, _) =>
    perform (Statement.updatePasswordResetToken id fun row => { row with usedAt := some now })

/-- `markEmailVerificationTokenUsed`. -/
def markEmailVerificationTokenUsed (tokenHash : String) (now : Millis) : Sql Unit := do
  let token ← query (findEmailVerificationTokenByHash tokenHash)
  match token with
  | none => return ()
  | some (id, _) =>
    perform (Statement.updateEmailVerificationToken id fun row => { row with usedAt := some now })

end AuthRepository

/-! ### Requests and their results -/

structure Client where
  userAgent : Option String := none
  ipAddress : Option String := none
  deriving DecidableEq, Repr

/-- A request to `refresh`, with the clock and the random values of its run. -/
structure RefreshRequest where
  refreshToken : String
  client : Client := {}
  now : Millis
  newSessionId : Uuid
  newTokenId : Uuid
  newToken : String
  deriving DecidableEq, Repr

/-- What `toSafeUser` shows of a user. -/
structure SafeUser where
  id : Uuid
  tenantId : Uuid
  email : String
  firstName : String
  lastName : String
  status : UserStatus
  emailVerified : Bool
  scope : Scope
  deriving DecidableEq, Repr

/-- The claims `generateAccessToken` signs. -/
structure AccessClaims where
  sub : Uuid
  tenantId : Uuid
  sessionId : Uuid
  email : String
  scope : Scope
  deriving DecidableEq, Repr

structure RefreshResult where
  user : SafeUser
  accessToken : AccessClaims
  refreshToken : String
  sessionId : Uuid
  scope : Scope
  deriving DecidableEq, Repr

inductive AuthRequest where
  | refresh (r : RefreshRequest)
  | changePassword (userId : Uuid) (sessionId : Option Uuid)
      (currentPassword newPassword newPasswordHash : String) (now : Millis)
  | revokeSession (userId tenantId sessionId : Uuid) (now : Millis)
  | logoutAll (userId : Uuid) (now : Millis)
  | resetPassword (token passwordHash : String) (now : Millis)
  | verifyEmail (token : String) (now : Millis)
  deriving DecidableEq, Repr

inductive AuthResponse where
  | refreshed (result : RefreshResult)
  | otherSessionsRevoked (count : ℕ)
  | sessionRevoked
  | sessionsRevoked (count : ℕ)
  | message (text : String)
  deriving DecidableEq, Repr

/-- Where a request is between two of its transactions. -/
inductive AuthPoint where
  | request (r : AuthRequest)
  /-- `changePassword` has written the new password -/
  | revokeOtherSessions (userId : Uuid) (sessionId : Option Uuid) (now : Millis)
  /-- `resetPassword` has written the new password -/
  | markPasswordResetTokenUsed (tokenHash : String) (userId : Uuid) (now : Millis)
  /-- `resetPassword` has marked its token -/
  | revokeAllUserRefreshTokens (userId : Uuid) (now : Millis)
  /-- `verifyEmail` has set the flag -/
  | markEmailVerificationTokenUsed (tokenHash : String) (now : Millis)
  | done (result : Except Failure AuthResponse)

/-! ### Service -/

namespace AuthService

variable (crypto : Crypto)

/-- `toSafeUser`. -/
def toSafeUser (id : Uuid) (user : User) (tenantId : Uuid) (scope : Scope) : SafeUser where
  id := id
  tenantId := tenantId
  email := user.email
  firstName := user.firstName
  lastName := user.lastName
  status := user.status
  emailVerified := user.emailVerified
  scope := scope

/-- `hasActiveTenant`: the user has come with its membership of the tenant. -/
def hasActiveTenant (tenantId : Uuid) (s : Db) : Bool :=
  (s.tenants.lookup tenantId).any fun t => t.status = .active ∨ t.status = .trial

/-- `refresh`: a platform token or a tenant token. -/
def scopeOf (storedToken : RefreshToken) (s : Db) : Scope :=
  if (s.tenants.lookup storedToken.tenantId).any (·.slug = platformTenantSlug) then .platform
  else .tenant

/-- `refresh`: the user of a platform token. -/
def platformUser (storedToken : RefreshToken) (email : String) : Sql (Uuid × User) := do
  let byEmail ← query (AuthRepository.findUserByEmail email)
  let byId ← query (AuthRepository.findUserById storedToken.userId)
  let user ← orThrow (byEmail <|> byId) "User not found or inactive" 401 "USER_NOT_FOUND"
  ensure (user.2.status = .active) "User not found or inactive" 401 "USER_NOT_FOUND"
  let hasPlatform ← query (AuthRepository.hasPlatformRole user.1)
  ensure (hasPlatform = true) "Platform access denied" 403 "PLATFORM_ACCESS_DENIED"
  return user

/-- `refresh`: the user of a tenant token, read together with its membership and tenant. -/
def tenantUser (storedToken : RefreshToken) : Sql (Uuid × User) := do
  let (found, tenantActive) ← query fun s =>
    (AuthRepository.findUserByIdAndTenant storedToken.userId storedToken.tenantId s,
      hasActiveTenant storedToken.tenantId s)
  let user ← orThrow found "User not found or inactive" 401 "USER_NOT_FOUND"
  ensure (user.2.status = .active) "User not found or inactive" 401 "USER_NOT_FOUND"
  ensure (tenantActive = true) "Tenant is not active" 403 "TENANT_INACTIVE"
  return user

/-- `refresh`: a rotated token has come back, so its session ends. A legacy token has no
session, and its user is signed out everywhere. -/
def endReplayedSession (storedToken : RefreshToken) (now : Millis) : Sql ℕ :=
  match truthy storedToken.sessionId with
  | some sessionId =>
    AuthRepository.revokeSession sessionId storedToken.userId storedToken.tenantId now
  | none => AuthRepository.revokeAllUserRefreshTokens storedToken.userId now

/-- The row a rotation writes. -/
def rotatedToken (req : RefreshRequest) (storedToken : RefreshToken) (userId : Uuid) :
    RefreshToken where
  tenantId := storedToken.tenantId
  userId := userId
  tokenHash := crypto.hashToken req.newToken
  expiresAt := req.now + refreshTokenLifetime
  sessionId := some (storedToken.sessionId.getD req.newSessionId)
  userAgent := req.client.userAgent <|> storedToken.userAgent
  ipAddress := req.client.ipAddress <|> storedToken.ipAddress

/-- `refresh`: the transaction. -/
def rotate (req : RefreshRequest) (storedToken : RefreshToken) (userId : Uuid) : Sql Unit := do
  let found ← query (AuthRepository.findRefreshTokenByHash (crypto.hashToken req.refreshToken))
  let oldToken ← orThrow found "Invalid refresh token" 401 "INVALID_REFRESH_TOKEN"
  perform (Statement.updateRefreshToken oldToken.1 fun row =>
    { row with revokedAt := some req.now })
  perform (Statement.insertRefreshToken req.newTokenId (rotatedToken crypto req storedToken userId))

/-- What `refresh` answers. -/
def refreshResult (req : RefreshRequest) (storedToken : RefreshToken) (user : Uuid × User)
    (scope : Scope) : RefreshResult where
  user := toSafeUser user.1 user.2 storedToken.tenantId scope
  accessToken :=
    { sub := user.1
      tenantId := storedToken.tenantId
      sessionId := storedToken.sessionId.getD req.newSessionId
      email := user.2.email
      scope }
  refreshToken := req.newToken
  sessionId := storedToken.sessionId.getD req.newSessionId
  scope := scope

/-- `refresh`: the user behind a token. -/
def tokenUser (storedToken : RefreshToken) (email : Option String) : Scope → Sql (Uuid × User)
  | .platform => platformUser storedToken (email.getD "")
  | .tenant => tenantUser storedToken

/-- `refresh` of a token that has been revoked. -/
def refuseReplay (req : RefreshRequest) (storedToken : RefreshToken) :
    Sql (Except Failure AuthResponse) := do
  let _ ← endReplayedSession storedToken req.now
  return .error (.app ⟨"Refresh token has been revoked", 401, "REFRESH_TOKEN_REVOKED"⟩)

/-- `refresh` of a token that was read unrevoked. -/
def exchange (req : RefreshRequest) (storedToken : RefreshToken) (email : Option String) :
    Sql (Except Failure AuthResponse) := do
  let scope ← query (scopeOf storedToken)
  let user ← tokenUser storedToken email scope
  rotate crypto req storedToken user.1
  return .ok (.refreshed (refreshResult req storedToken user scope))

/-- `refresh`: the token comes with the email address of its user. -/
def refresh (req : RefreshRequest) : Sql (Except Failure AuthResponse) := do
  let presented ← query fun s =>
    (AuthRepository.findRefreshTokenByHash (crypto.hashToken req.refreshToken) s).map fun x =>
      (x, (s.users.lookup x.2.userId).map (·.email))
  let ((_, storedToken), email) ← orThrow presented "Invalid refresh token" 401
    "INVALID_REFRESH_TOKEN"
  ensure (req.now ≤ storedToken.expiresAt) "Refresh token has expired" 401 "REFRESH_TOKEN_EXPIRED"
  if storedToken.revokedAt.isSome then refuseReplay req storedToken
  else exchange crypto req storedToken email

/-- `findActiveUser`. -/
def findActiveUser (userId : Uuid) : Sql (Uuid × User) := do
  let found ← query (AuthRepository.findUserById userId)
  let user ← orThrow found "User not found or inactive" 401 "USER_NOT_FOUND"
  ensure (user.2.status = .active) "User not found or inactive" 401 "USER_NOT_FOUND"
  return user

/-- `changePassword`, up to the new password. -/
def changePassword (userId : Uuid) (sessionId : Option Uuid)
    (currentPassword newPassword newPasswordHash : String) (now : Millis) : Sql AuthPoint := do
  let user ← findActiveUser userId
  ensure (crypto.verifyPassword user.2.passwordHash currentPassword = true)
    "Current password is incorrect" 400 "INVALID_CURRENT_PASSWORD"
  ensure (crypto.verifyPassword user.2.passwordHash newPassword = false)
    "New password must be different from the current password" 400 "PASSWORD_UNCHANGED"
  AuthRepository.updateUser userId fun row => { row with passwordHash := newPasswordHash }
  return .revokeOtherSessions userId sessionId now

/-- `revokeSession`. -/
def revokeSession (userId tenantId sessionId : Uuid) (now : Millis) : Sql AuthResponse := do
  let count ← AuthRepository.revokeSession sessionId userId tenantId now
  ensure (count ≠ 0) "Session not found" 404 "SESSION_NOT_FOUND"
  return .sessionRevoked

/-- `logoutAll`. -/
def logoutAll (userId : Uuid) (now : Millis) : Sql AuthResponse := do
  let count ← AuthRepository.revokeUserSessions userId none now
  return .sessionsRevoked count

/-- `resetPassword`, up to the new password. -/
def resetPassword (token passwordHash : String) (now : Millis) : Sql AuthPoint := do
  let found ← query (AuthRepository.findPasswordResetTokenByHash (crypto.hashToken token))
  let (_, storedToken) ← orThrow found "Invalid or expired reset token" 400 "INVALID_RESET_TOKEN"
  ensure (now ≤ storedToken.expiresAt) "Reset token has expired" 400 "RESET_TOKEN_EXPIRED"
  ensure (storedToken.usedAt = none) "Reset token has already been used" 400 "RESET_TOKEN_USED"
  AuthRepository.updateUser storedToken.userId fun row => { row with passwordHash }
  return .markPasswordResetTokenUsed (crypto.hashToken token) storedToken.userId now

/-- `verifyEmail`, up to the flag. -/
def verifyEmail (token : String) (now : Millis) : Sql AuthPoint := do
  let found ← query (AuthRepository.findEmailVerificationTokenByHash (crypto.hashToken token))
  let (_, storedToken) ← orThrow found "Invalid or expired verification token" 400
    "INVALID_VERIFICATION_TOKEN"
  ensure (now ≤ storedToken.expiresAt) "Verification token has expired" 400
    "VERIFICATION_TOKEN_EXPIRED"
  ensure (storedToken.usedAt = none) "Verification token has already been used" 400
    "VERIFICATION_TOKEN_USED"
  AuthRepository.updateUser storedToken.userId fun row => { row with emailVerified := true }
  return .markEmailVerificationTokenUsed (crypto.hashToken token) now

/-- The first transaction of a request. -/
def begin : AuthRequest → Sql AuthPoint
  | .refresh r => do return .done (← refresh crypto r)
  | .changePassword userId sessionId currentPassword newPassword newPasswordHash now =>
    changePassword crypto userId sessionId currentPassword newPassword newPasswordHash now
  | .revokeSession userId tenantId sessionId now => do
    return .done (.ok (← revokeSession userId tenantId sessionId now))
  | .logoutAll userId now => do return .done (.ok (← logoutAll userId now))
  | .resetPassword token passwordHash now => resetPassword crypto token passwordHash now
  | .verifyEmail token now => verifyEmail crypto token now

/-- The transactions of the requests, one after the other. -/
def code : AuthPoint → Option (Sql AuthPoint)
  | .request r => some (begin crypto r)
  | .revokeOtherSessions userId sessionId now => some do
    let count ← AuthRepository.revokeUserSessions userId sessionId now
    return .done (.ok (.otherSessionsRevoked count))
  | .markPasswordResetTokenUsed tokenHash userId now => some do
    AuthRepository.markPasswordResetTokenUsed tokenHash now
    return .revokeAllUserRefreshTokens userId now
  | .revokeAllUserRefreshTokens userId now => some do
    let _ ← AuthRepository.revokeAllUserRefreshTokens userId now
    return .done (.ok (.message "Password has been reset successfully"))
  | .markEmailVerificationTokenUsed tokenHash now => some do
    AuthRepository.markEmailVerificationTokenUsed tokenHash now
    return .done (.ok (.message "Email verified successfully"))
  | .done _ => none

end AuthService

/-! ### Signing in and out -/

/-- A request to `login`, with the clock and the random values of its run. -/
structure LoginRequest where
  email : String
  password : String
  scope : Option Scope := none
  tenantId : Option Uuid := none
  tenantSlug : Option String := none
  client : Client := {}
  now : Millis
  tokenId : Uuid
  sessionId : Uuid
  refreshToken : String
  deriving DecidableEq, Repr

/-- A membership with its tenant. -/
structure Membership where
  tenantId : Uuid
  status : MembershipStatus
  tenant : Option Tenant
  deriving DecidableEq, Repr

/-- Where a request is between two of its transactions, if it may also sign in or out. -/
inductive SignInPoint where
  | auth (pt : AuthPoint)
  | login (r : LoginRequest)
  | logout (refreshToken : Option String) (now : Millis)
  /-- `login` has made its checks -/
  | updateLastLogin (r : LoginRequest) (user : Uuid × User) (tenantId : Uuid) (scope : Scope)
  | generateRefreshToken (r : LoginRequest) (user : Uuid × User) (tenantId : Uuid) (scope : Scope)
  | signedIn (result : RefreshResult)
  | loggedOut

namespace AuthRepository

/-- `memberships: { include: { tenant: true } }`. -/
def membershipsOf (userId : Uuid) (s : Db) : List Membership :=
  (s.memberships.entries.filter fun m => m.1.2 = userId).map fun m =>
    ⟨m.1.1, m.2, s.tenants.lookup m.1.1⟩

/-- `findUserByEmail`, with the memberships it includes. -/
def findUserWithMemberships (email : String) (s : Db) :
    Option ((Uuid × User) × List Membership) :=
  (findUserByEmail email s).map fun user => (user, membershipsOf user.1 s)

/-- `findUserByEmailAndTenant`. -/
def findUserByEmailAndTenant (email : String) (tenantId : Uuid) (s : Db) : Option (Uuid × User) :=
  (s.users.entries.find? fun x => x.2.email = email ∧
    s.memberships.lookup (tenantId, x.1) = some .active).map fun x => (x.1, x.2)

/-- `findTenantBySlug`. -/
def findTenantBySlug (slug : String) (s : Db) : Option (Uuid × Tenant) :=
  findByHash (·.slug) slug s.tenants

/-- `findTenantById`. -/
def findTenantById (id : Uuid) (s : Db) : Option Tenant := s.tenants.lookup id

/-- `updateLastLogin`. The column it writes is not kept here. -/
def updateLastLogin (userId : Uuid) : Sql Unit := updateUser userId id

/-- `revokeRefreshToken`. -/
def revokeRefreshToken (tokenHash : String) (now : Millis) : Sql Unit := do
  let token ← query (findRefreshTokenByHash tokenHash)
  match token with
  | none => return ()
  | some (id, _) =>
    perform (Statement.updateRefreshToken id fun row => { row with revokedAt := some now })

end AuthRepository

namespace AuthService

variable (crypto : Crypto)

/-- Whether a tenant may be used. -/
def isOpen (tenant : Tenant) : Bool := tenant.status = .active ∨ tenant.status = .trial

/-- `platformLogin`: the tenant that platform sessions are stored under. -/
def platformTenantId (user : User) (memberships : List Membership) : Sql Uuid :=
  match memberships.find? fun m => m.tenant.any (·.slug = platformTenantSlug) with
  | some m => return m.tenantId
  | none => do
    let tenant ← query (AuthRepository.findTenantBySlug platformTenantSlug)
    return (tenant.map (·.1)).getD user.tenantId

/-- `platformLogin`, up to its checks. -/
def platformLogin (r : LoginRequest) : Sql SignInPoint := do
  let found ← query (AuthRepository.findUserWithMemberships r.email)
  let (user, memberships) ← orThrow found "Invalid credentials" 401 "INVALID_CREDENTIALS"
  ensure (user.2.status = .active) "Account is not active" 403 "ACCOUNT_INACTIVE"
  ensure (crypto.verifyPassword user.2.passwordHash r.password = true) "Invalid credentials" 401
    "INVALID_CREDENTIALS"
  let hasPlatform ← query (AuthRepository.hasPlatformRole user.1)
  ensure (hasPlatform = true) "Platform access denied" 403 "PLATFORM_ACCESS_DENIED"
  let tenantId ← platformTenantId user.2 memberships
  let tenant ← query (AuthRepository.findTenantById tenantId)
  ensure (tenant.all isOpen = true) "Platform tenant is not active" 403 "TENANT_INACTIVE"
  return .updateLastLogin r user tenantId .platform

/-- `tenantLogin`: the tenant that the request names. -/
def namedTenant (r : LoginRequest) : Sql (Option (Uuid × Option Tenant)) :=
  match truthy r.tenantSlug with
  | some slug => do
    let found ← query (AuthRepository.findTenantBySlug slug)
    let tenant ← orThrow found "Tenant not found" 404 "TENANT_NOT_FOUND"
    ensure (tenant.2.slug ≠ platformTenantSlug) "Platform tenant cannot be used for tenant login"
      403 "PLATFORM_TENANT_FORBIDDEN"
    return some (tenant.1, some tenant.2)
  | none => return (truthy r.tenantId).map fun id => (id, none)

/-- `tenantLogin`: the only tenant of the user. -/
def onlyTenant (r : LoginRequest) : Sql (Uuid × Option Tenant) := do
  let found ← query (AuthRepository.findUserWithMemberships r.email)
  let (globalUser, memberships) ← orThrow found "Invalid credentials" 401 "INVALID_CREDENTIALS"
  match memberships.filter fun m =>
    m.tenant.map (·.slug) ≠ some platformTenantSlug ∧ m.status = .active with
  | [] => do
    ensure (crypto.verifyPassword globalUser.2.passwordHash r.password = true)
      "Invalid credentials" 401 "INVALID_CREDENTIALS"
    let hasPlatform ← query (AuthRepository.hasPlatformRole globalUser.1)
    ensure (hasPlatform = false) "Use platform login for this account" 403 "USE_PLATFORM_LOGIN"
    throwApp "Tenant not found for user" 404 "TENANT_NOT_FOUND"
  | [m] => return (m.tenantId, m.tenant)
  | _ :: _ :: _ =>
    throwApp "Multiple tenants found, tenantSlug or tenantId required" 400 "TENANT_REQUIRED"

/-- `tenantLogin`: the tenant to sign in to, with its row if that has been read. -/
def resolvedTenant (r : LoginRequest) : Option (Uuid × Option Tenant) → Sql (Uuid × Option Tenant)
  | some tenant => return tenant
  | none => onlyTenant crypto r

/-- `tenantLogin`: the row of the tenant. -/
def tenantRow (tenantId : Uuid) : Option Tenant → Sql Tenant
  | some tenant => return tenant
  | none => do
    let found ← query (AuthRepository.findTenantById tenantId)
    orThrow found "Tenant not found" 404 "TENANT_NOT_FOUND"

/-- `tenantLogin`, up to its checks. The user comes with the membership and its tenant. -/
def tenantLogin (r : LoginRequest) : Sql SignInPoint := do
  let named ← namedTenant r
  let (tenantId, known) ← resolvedTenant crypto r named
  let (found, tenantActive) ← query fun s =>
    (AuthRepository.findUserByEmailAndTenant r.email tenantId s, hasActiveTenant tenantId s)
  let user ← orThrow found "Invalid credentials" 401 "INVALID_CREDENTIALS"
  let tenant ← tenantRow tenantId known
  ensure (isOpen tenant = true) "Tenant is not active" 403 "TENANT_INACTIVE"
  ensure (tenantActive = true) "Tenant is not active" 403 "TENANT_INACTIVE"
  ensure (user.2.status = .active) "Account is not active" 403 "ACCOUNT_INACTIVE"
  ensure (crypto.verifyPassword user.2.passwordHash r.password = true) "Invalid credentials" 401
    "INVALID_CREDENTIALS"
  return .updateLastLogin r user tenantId .tenant

/-- `login`, up to its checks. -/
def login (r : LoginRequest) : Sql SignInPoint :=
  match r.scope.getD .tenant with
  | .platform => platformLogin crypto r
  | .tenant => tenantLogin crypto r

/-- `logout`. -/
def logout (refreshToken : Option String) (now : Millis) : Sql Unit :=
  match truthy refreshToken with
  | some token => AuthRepository.revokeRefreshToken (crypto.hashToken token) now
  | none => return ()

/-- `generateRefreshToken`: the row. -/
def loginToken (r : LoginRequest) (userId tenantId : Uuid) : RefreshToken where
  tenantId := tenantId
  userId := userId
  tokenHash := crypto.hashToken r.refreshToken
  expiresAt := r.now + refreshTokenLifetime
  sessionId := some r.sessionId
  userAgent := r.client.userAgent
  ipAddress := r.client.ipAddress

/-- What `login` answers. -/
def loginResult (r : LoginRequest) (user : Uuid × User) (tenantId : Uuid) (scope : Scope) :
    RefreshResult where
  user := toSafeUser user.1 user.2 tenantId scope
  accessToken :=
    { sub := user.1
      tenantId := tenantId
      sessionId := r.sessionId
      email := user.2.email
      scope }
  refreshToken := r.refreshToken
  sessionId := r.sessionId
  scope := scope

/-- The transactions of the requests, one after the other. -/
def signInCode : SignInPoint → Option (Sql SignInPoint)
  | .auth pt => (code crypto pt).map fun p => do return .auth (← p)
  | .login r => some (login crypto r)
  | .logout refreshToken now => some do
    logout crypto refreshToken now
    return .loggedOut
  | .updateLastLogin r user tenantId scope => some do
    AuthRepository.updateLastLogin user.1
    return .generateRefreshToken r user tenantId scope
  | .generateRefreshToken r user tenantId scope => some do
    perform (Statement.insertRefreshToken r.tokenId (loginToken crypto r user.1 tenantId))
    return .signedIn (loginResult r user tenantId scope)
  | .signedIn _ => none
  | .loggedOut => none

end AuthService

end PulseOps.Accounts
