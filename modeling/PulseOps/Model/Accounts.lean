import PulseOps.Model.Rows
import PulseOps.ReadCommitted.Program

/-!
# The database of the staff accounts

The tables behind `auth/auth.repository.js` and `users/users.repository.js`, the edits the
services make to them, and the rows that can be locked: a second instance of
`ReadCommitted.Database`. No row of the sales core is read or written by these services.

An `updateMany` finds its rows first, waits for their locks and looks at each of them again
before it writes. It is a read and a writing statement here, and its edit keeps what the
statement was asked for.

As in the sales core, the `KEY SHARE` lock of a foreign key is left out. The audit and
activity logs, time stamps that nobody compares and the permissions of the roles are left
out as well.
-/

set_option autoImplicit false

open ReadCommitted

namespace PulseOps.Accounts

/-- Milliseconds since the epoch. -/
abbrev Millis := ℤ

/-! ### Rows -/

inductive TenantStatus where
  | active
  | trial
  | suspended
  | cancelled
  deriving DecidableEq, Repr

/-- The columns of a tenant that the account services read. -/
structure Tenant where
  slug : String
  status : TenantStatus
  deriving DecidableEq, Repr

inductive UserStatus where
  | active
  | inactive
  | suspended
  deriving DecidableEq, Repr

structure User where
  tenantId : Uuid
  email : String
  passwordHash : String
  firstName : String
  lastName : String
  status : UserStatus
  emailVerified : Bool
  deriving DecidableEq, Repr

inductive MembershipStatus where
  | active
  | inactive
  | suspended
  deriving DecidableEq, Repr

structure Role where
  tenantId : Uuid
  name : String
  deriving DecidableEq, Repr

/-- A row of `user_roles`. -/
structure UserRole where
  tenantId : Uuid
  userId : Uuid
  roleId : Uuid
  deriving DecidableEq, Repr

structure RefreshToken where
  tenantId : Uuid
  userId : Uuid
  tokenHash : String
  expiresAt : Millis
  revokedAt : Option Millis := none
  /-- null for legacy rows -/
  sessionId : Option Uuid := none
  userAgent : Option String := none
  ipAddress : Option String := none
  deriving DecidableEq, Repr

/-- A row of `password_reset_tokens` or of `email_verification_tokens`. -/
structure OneTimeToken where
  tenantId : Uuid
  userId : Uuid
  tokenHash : String
  expiresAt : Millis
  usedAt : Option Millis := none
  deriving DecidableEq, Repr

/-! ### Tables and edits -/

/-- The tables of the account services. A membership is found by its tenant and user, and of
the platform roles only the users who hold one are kept. -/
structure Db where
  tenants : Table Uuid Tenant := ∅
  users : Table Uuid User := ∅
  memberships : Table (Uuid × Uuid) MembershipStatus := ∅
  platformUserRoles : List Uuid := []
  roles : Table Uuid Role := ∅
  userRoles : List UserRole := []
  refreshTokens : Table Uuid RefreshToken := ∅
  passwordResetTokens : Table Uuid OneTimeToken := ∅
  emailVerificationTokens : Table Uuid OneTimeToken := ∅

/-- The `where` of an `updateMany` that revokes refresh tokens. -/
inductive Revocation where
  | session (sessionId userId tenantId : Uuid)
  | user (userId : Uuid) (keepSessionId : Option Uuid)
  deriving DecidableEq, Repr

/-- Whether the `where` names the session and the user of a row. -/
def Revocation.names : Revocation → RefreshToken → Bool
  | .session sessionId userId tenantId, row =>
    row.sessionId = some sessionId ∧ row.userId = userId ∧ row.tenantId = tenantId
  | .user userId none, row => row.userId = userId
  | .user userId (some keep), row =>
    row.userId = userId ∧ (row.sessionId = none ∨ row.sessionId ≠ some keep)

/-- Whether a row meets the `where`: all of them ask for `revokedAt: null`. -/
def Revocation.selects (w : Revocation) (row : RefreshToken) : Bool :=
  row.revokedAt = none ∧ w.names row

/-- What one writing statement does. -/
inductive Edit where
  /-- an `INSERT` or a `DELETE` of no rows -/
  | nothing
  | userUpdate (id : Uuid) (row : User)
  | userDelete (id : Uuid)
  | userRolesInsert (rows : List UserRole)
  | userRoleDelete (row : UserRole)
  | refreshTokenInsert (id : Uuid) (row : RefreshToken)
  | refreshTokenUpdate (id : Uuid) (row : RefreshToken)
  | refreshTokensRevoke (w : Revocation) (ids : List Uuid) (revokedAt : Millis)
  | passwordResetTokenUpdate (id : Uuid) (row : OneTimeToken)
  | emailVerificationTokenUpdate (id : Uuid) (row : OneTimeToken)
  deriving DecidableEq

/-- Lockable rows. -/
inductive Key where
  | user (id : Uuid)
  | userRole (row : UserRole)
  | refreshToken (id : Uuid)
  | passwordResetToken (id : Uuid)
  | emailVerificationToken (id : Uuid)
  deriving DecidableEq, Repr

/-- The services ask nobody outside before they commit. -/
inductive Call where
  deriving DecidableEq

/-- The rows of a table that satisfy `p`. -/
def filterTable {ρ : Type} (p : ρ → Bool) (t : Table Uuid ρ) : Table Uuid ρ :=
  (t.entries.filterMap fun x => if p x.2 then none else some x.1).foldl (fun t id => t.erase id) t

namespace Db

/-- Deleting a user deletes everything that refers to it (`ON DELETE CASCADE`). -/
def deleteUser (s : Db) (id : Uuid) : Db :=
  { s with
    users := s.users.erase id
    memberships := (s.memberships.keys.filter (·.2 = id)).foldl
      (fun t k => t.erase k) s.memberships
    platformUserRoles := s.platformUserRoles.filter (· ≠ id)
    userRoles := s.userRoles.filter (·.userId ≠ id)
    refreshTokens := filterTable (·.userId ≠ id) s.refreshTokens
    passwordResetTokens := filterTable (·.userId ≠ id) s.passwordResetTokens
    emailVerificationTokens := filterTable (·.userId ≠ id) s.emailVerificationTokens }

/-- Revoke one token, if it is there. -/
def revokeToken (t : Table Uuid RefreshToken) (revokedAt : Millis) (id : Uuid) :
    Table Uuid RefreshToken :=
  match t.lookup id with
  | none => t
  | some row => t.insert id { row with revokedAt := some revokedAt }

/-- The state after one edit. -/
@[simp] def apply (s : Db) : Edit → Db
  | .nothing => s
  | .userUpdate id row => { s with users := s.users.insert id row }
  | .userDelete id => s.deleteUser id
  | .userRolesInsert rows => { s with userRoles := s.userRoles ++ rows }
  | .userRoleDelete row => { s with userRoles := s.userRoles.filter (· ≠ row) }
  | .refreshTokenInsert id row => { s with refreshTokens := s.refreshTokens.insert id row }
  | .refreshTokenUpdate id row => { s with refreshTokens := s.refreshTokens.insert id row }
  | .refreshTokensRevoke _ ids revokedAt =>
    { s with refreshTokens := ids.foldl (fun t id => revokeToken t revokedAt id) s.refreshTokens }
  | .passwordResetTokenUpdate id row =>
    { s with passwordResetTokens := s.passwordResetTokens.insert id row }
  | .emailVerificationTokenUpdate id row =>
    { s with emailVerificationTokens := s.emailVerificationTokens.insert id row }

/-- Whether a lockable row exists. -/
def present (s : Db) : Key → Bool
  | .user id => (s.users.lookup id).isSome
  | .userRole row => row ∈ s.userRoles
  | .refreshToken id => (s.refreshTokens.lookup id).isSome
  | .passwordResetToken id => (s.passwordResetTokens.lookup id).isSome
  | .emailVerificationToken id => (s.emailVerificationTokens.lookup id).isSome

end Db

/-- The rows an edit takes. -/
def Edit.footprint : Edit → List Key
  | .nothing => []
  | .userUpdate id _ => [.user id]
  | .userDelete id => [.user id]
  | .userRolesInsert rows => rows.map .userRole
  | .userRoleDelete row => [.userRole row]
  | .refreshTokenInsert id _ => [.refreshToken id]
  | .refreshTokenUpdate id _ => [.refreshToken id]
  | .refreshTokensRevoke _ ids _ => ids.map .refreshToken
  | .passwordResetTokenUpdate id _ => [.passwordResetToken id]
  | .emailVerificationTokenUpdate id _ => [.emailVerificationToken id]

/-- `{ count }` of an `updateMany` or a `deleteMany`. -/
def Edit.count : Edit → ℕ
  | .nothing => 0
  | .refreshTokensRevoke _ ids _ => ids.length
  | _ => 1

/-- The account services as a database. -/
def accounts : Database Db Key Edit Call Unit Failure where
  apply := Db.apply
  footprint := Edit.footprint
  present := Db.present

/-- Programs over the accounts database. -/
abbrev Sql (α : Type) := Program accounts α

@[simp] theorem accounts_apply (s : Db) (e : Edit) : accounts.apply s e = s.apply e := rfl

@[simp] theorem accounts_present (s : Db) (k : Key) : accounts.present s k = s.present k := rfl

@[simp] theorem accounts_footprint (e : Edit) : accounts.footprint e = e.footprint := rfl

/-- Stop with an `AppError`. -/
def throwApp {α : Type} (message : String) (statusCode : ℕ) (code : String) : Sql α :=
  .raise (.app ⟨message, statusCode, code⟩)

/-- Stop with an `AppError` unless `P` holds. -/
def ensure (P : Prop) [Decidable P] (message : String) (statusCode : ℕ) (code : String) :
    Sql Unit :=
  .require P (.app ⟨message, statusCode, code⟩)

/-- The value, or stop with an `AppError`. -/
def orThrow {α : Type} (x : Option α) (message : String) (statusCode : ℕ) (code : String) :
    Sql α :=
  .orRaise x (.app ⟨message, statusCode, code⟩)

/-! ### Writing statements and their constraints -/

namespace Statement

/-- An `update` by its id, which fails when the row is gone. -/
def updateRow {ρ : Type} (table : Db → Table Uuid ρ) (edit : Uuid → ρ → Edit) (id : Uuid)
    (change : ρ → ρ) (s : Db) : Except Failure Edit :=
  match (table s).lookup id with
  | none => .error (.database .recordNotFound)
  | some row => .ok (edit id (change row))

/-- `user.update`. -/
def updateUser : Uuid → (User → User) → Db → Except Failure Edit :=
  updateRow Db.users .userUpdate

/-- `user.delete`. -/
def deleteUser (id : Uuid) (s : Db) : Except Failure Edit :=
  if (s.users.lookup id).isSome then .ok (.userDelete id)
  else .error (.database .recordNotFound)

/-- `userRole.createMany` with `skipDuplicates`. -/
def insertUserRoles (rows : List UserRole) (s : Db) : Except Failure Edit :=
  if rows.all fun row => (s.users.lookup row.userId).isSome ∧ (s.roles.lookup row.roleId).isSome
  then .ok (.userRolesInsert (rows.filter (· ∉ s.userRoles)))
  else .error (.database .foreignKeyViolation)

/-- `userRole.deleteMany` by tenant, user and role. -/
def deleteUserRole (row : UserRole) (s : Db) : Except Failure Edit :=
  if row ∈ s.userRoles then .ok (.userRoleDelete row) else .ok .nothing

/-- `refreshToken.create`. -/
def insertRefreshToken (id : Uuid) (row : RefreshToken) (s : Db) : Except Failure Edit :=
  if (s.refreshTokens.lookup id).isSome then .error (.database .uniqueViolation)
  else if (s.users.lookup row.userId).isSome ∧ (s.tenants.lookup row.tenantId).isSome then
    .ok (.refreshTokenInsert id row)
  else .error (.database .foreignKeyViolation)

/-- `refreshToken.update`. -/
def updateRefreshToken : Uuid → (RefreshToken → RefreshToken) → Db → Except Failure Edit :=
  updateRow Db.refreshTokens .refreshTokenUpdate

/-- The second half of `refreshToken.updateMany`: of the rows it has found, those that still
meet the `where`. -/
def revokeRefreshTokens (w : Revocation) (found : List Uuid) (now : Millis) (s : Db) :
    Except Failure Edit :=
  .ok (.refreshTokensRevoke w
    (found.filter fun id => (s.refreshTokens.lookup id).any w.selects) now)

/-- `passwordResetToken.update`. -/
def updatePasswordResetToken : Uuid → (OneTimeToken → OneTimeToken) → Db → Except Failure Edit :=
  updateRow Db.passwordResetTokens .passwordResetTokenUpdate

/-- `emailVerificationToken.update`. -/
def updateEmailVerificationToken :
    Uuid → (OneTimeToken → OneTimeToken) → Db → Except Failure Edit :=
  updateRow Db.emailVerificationTokens .emailVerificationTokenUpdate

variable {s : Db} {e : Edit} {id : Uuid}

theorem updateRow_eq_ok {ρ : Type} {table : Db → Table Uuid ρ} {edit : Uuid → ρ → Edit}
    {change : ρ → ρ} : updateRow table edit id change s = .ok e ↔
      ∃ row, (table s).lookup id = some row ∧ e = edit id (change row) := by
  unfold updateRow
  split
  · simp_all
  · rename_i row hrow
    simp [hrow, eq_comm]

@[simp] theorem updateUser_eq_ok {change : User → User} : updateUser id change s = .ok e ↔
    ∃ row, s.users.lookup id = some row ∧ e = .userUpdate id (change row) := updateRow_eq_ok

@[simp] theorem updateRefreshToken_eq_ok {change : RefreshToken → RefreshToken} :
    updateRefreshToken id change s = .ok e ↔
      ∃ row, s.refreshTokens.lookup id = some row ∧ e = .refreshTokenUpdate id (change row) :=
  updateRow_eq_ok

@[simp] theorem updatePasswordResetToken_eq_ok {change : OneTimeToken → OneTimeToken} :
    updatePasswordResetToken id change s = .ok e ↔
      ∃ row, s.passwordResetTokens.lookup id = some row ∧
        e = .passwordResetTokenUpdate id (change row) := updateRow_eq_ok

@[simp] theorem updateEmailVerificationToken_eq_ok {change : OneTimeToken → OneTimeToken} :
    updateEmailVerificationToken id change s = .ok e ↔
      ∃ row, s.emailVerificationTokens.lookup id = some row ∧
        e = .emailVerificationTokenUpdate id (change row) := updateRow_eq_ok

theorem insertRefreshToken_eq_ok {row : RefreshToken}
    (h : insertRefreshToken id row s = .ok e) :
    s.refreshTokens.lookup id = none ∧ e = .refreshTokenInsert id row := by
  unfold insertRefreshToken at h
  split_ifs at h with hid hrefs
  exact ⟨by simpa using hid, (Except.ok.inj h).symm⟩

end Statement

end PulseOps.Accounts
