import PulseOps.Model.Accounts
import PulseOps.ReadCommitted.Requests

/-!
# The users of a tenant

`UserService` of `users/users.service.js` over `users/users.repository.js`: changing and
deleting a user, giving and taking away roles. A user can belong to several tenants, and the
service changes the one row they share.

Every request has one transaction that writes. What `update` and `removeRole` read for their
answers comes after it, so these requests go on to a second one.

The lists and the overview are left out, and so is the cache of permissions.
-/

set_option autoImplicit false

open ReadCommitted Program

namespace PulseOps.Accounts

/-- `TENANT_ADMIN_ROLE`. -/
def tenantAdminRole : String := "admin"

/-! ### Repository -/

namespace UserRepository

/-- `findByIdAndTenant`. -/
def findByIdAndTenant (id tenantId : Uuid) (s : Db) : Option User :=
  if s.memberships.lookup (tenantId, id) = some .active then s.users.lookup id else none

/-- `findUserRoles`: the roles of a user in a tenant, with their ids. -/
def findUserRoles (userId tenantId : Uuid) (s : Db) : List (Uuid × Role) :=
  (s.userRoles.filter fun r => r.userId = userId ∧ r.tenantId = tenantId).filterMap fun r =>
    (s.roles.lookup r.roleId).map fun role => (r.roleId, role)

/-- `findById`: the user with the roles of the tenant. -/
def findById (id tenantId : Uuid) (s : Db) : Option (User × List (Uuid × Role)) :=
  (findByIdAndTenant id tenantId s).map fun user => (user, findUserRoles id tenantId s)

/-- `findRolesByIds`. -/
def findRolesByIds (roleIds : List Uuid) (tenantId : Uuid) (s : Db) : List Uuid :=
  (s.roles.entries.filter fun x => x.1 ∈ roleIds ∧ x.2.tenantId = tenantId).map (·.1)

/-- `findRoleById`. -/
def findRoleById (roleId tenantId : Uuid) (s : Db) : Option Role :=
  (s.roles.lookup roleId).filter (·.tenantId = tenantId)

/-- `userRole.count` of a role. -/
def countHolders (tenantId roleId : Uuid) (s : Db) : ℕ :=
  (s.userRoles.filter fun r => r.tenantId = tenantId ∧ r.roleId = roleId).length

/-- `assignRoles`. -/
def assignRoles (userId tenantId : Uuid) (roleIds : List Uuid) : Sql (List (Uuid × Role)) := do
  let membership ← query fun s => s.memberships.lookup (tenantId, userId)
  if membership = some .active then
    let existing ← query fun s =>
      (s.userRoles.filter fun r =>
        r.tenantId = tenantId ∧ r.userId = userId ∧ r.roleId ∈ roleIds).map (·.roleId)
    let newRoles := roleIds.filter (· ∉ existing)
    if newRoles = [] then query (findUserRoles userId tenantId)
    else do
      perform (Statement.insertUserRoles (newRoles.map fun roleId => ⟨tenantId, userId, roleId⟩))
      query (findUserRoles userId tenantId)
  else return []

/-- What `removeRole` reports. -/
structure RemovedRole where
  removed : ℕ
  lastHolder : Bool

/-- `removeRole`: the `deleteMany`. -/
def deleteUserRole (userId tenantId roleId : Uuid) : Sql RemovedRole := do
  let e ← execute (Statement.deleteUserRole ⟨tenantId, userId, roleId⟩)
  return { removed := e.count, lastHolder := false }

/-- `removeRole`: the holders of the guarded role are counted in the same transaction. -/
def removeRole (userId tenantId roleId : Uuid) (guardRoleName roleName : String) :
    Sql RemovedRole := do
  if roleName = guardRoleName then
    let holders ← query (countHolders tenantId roleId)
    if holders ≤ 1 then return { removed := 0, lastHolder := true }
    else deleteUserRole userId tenantId roleId
  else deleteUserRole userId tenantId roleId

end UserRepository

/-! ### Requests and their results -/

/-- The body of `PATCH /users/:id`. -/
structure UpdateUser where
  firstName : Option String := none
  lastName : Option String := none
  status : Option String := none
  email : Option String := none
  passwordHash : Option String := none
  tenantId : Option Uuid := none
  deriving DecidableEq, Repr

/-- What `toUserResponse` shows of a user. -/
structure UserView where
  id : Uuid
  tenantId : Uuid
  email : String
  firstName : String
  lastName : String
  status : UserStatus
  emailVerified : Bool
  roles : List (Uuid × String)
  deriving DecidableEq, Repr

inductive UserRequest where
  | update (id tenantId : Uuid) (data : UpdateUser)
  | delete (id tenantId : Uuid)
  | assignRoles (userId tenantId : Uuid) (roleIds : List Uuid)
  | removeRole (userId tenantId roleId : Uuid)
  deriving DecidableEq, Repr

inductive UserResponse where
  | user (view : UserView)
  | deleted (message : String)
  | roles (roles : List (Uuid × String))
  deriving DecidableEq, Repr

/-- Where a request is between two of its transactions. -/
inductive UserPoint where
  | request (r : UserRequest)
  /-- `update` has written the user -/
  | updated (id tenantId : Uuid) (user : Option User)
  /-- `removeRole` has deleted the assignment -/
  | roleRemoved (userId tenantId : Uuid)
  | done (result : Except Failure UserResponse)

/-! ### Service -/

namespace UserService

/-- `toUserRoleResponse`. -/
def toUserRoleResponse (role : Uuid × Role) : Uuid × String := (role.1, role.2.name)

/-- `toUserResponse`. -/
def toUserResponse (id : Uuid) (user : User) (roles : List (Uuid × Role)) : UserView where
  id := id
  tenantId := user.tenantId
  email := user.email
  firstName := user.firstName
  lastName := user.lastName
  status := user.status
  emailVerified := user.emailVerified
  roles := roles.map toUserRoleResponse

/-- The value of the enum `UserStatus`. -/
def validStatus : String → Option UserStatus
  | "ACTIVE" => some .active
  | "INACTIVE" => some .inactive
  | "SUSPENDED" => some .suspended
  | _ => none

/-- `updateData`, written over a user. -/
def updateData (data : UpdateUser) (user : User) : User :=
  { user with
    firstName := data.firstName.getD user.firstName
    lastName := data.lastName.getD user.lastName
    status := (data.status.bind validStatus).getD user.status }

/-- The row an `update` has written. -/
def updatedUser : Edit → Option User
  | .userUpdate _ row => some row
  | _ => none

/-- `update`, up to the end of its transaction. -/
def update (id tenantId : Uuid) (data : UpdateUser) : Sql UserPoint := do
  let found ← query (UserRepository.findByIdAndTenant id tenantId)
  let _ ← orThrow found "User not found" 404 "USER_NOT_FOUND"
  ensure (∀ status ∈ data.status, (validStatus status).isSome = true) "Invalid status value" 400
    "INVALID_STATUS"
  ensure (data.email = none) "Email cannot be modified through this endpoint" 400
    "EMAIL_MODIFICATION_FORBIDDEN"
  ensure (data.passwordHash = none) "Password cannot be modified through this endpoint" 400
    "PASSWORD_MODIFICATION_FORBIDDEN"
  ensure (data.tenantId = none) "Tenant cannot be modified" 400 "TENANT_MODIFICATION_FORBIDDEN"
  if data.firstName = none ∧ data.lastName = none ∧ data.status = none then
    let current ← query (UserRepository.findById id tenantId)
    let (user, roles) ← Program.orRaise current .typeError
    return .done (.ok (.user (toUserResponse id user roles)))
  else do
    let e ← execute (Statement.updateUser id (updateData data))
    return .updated id tenantId (updatedUser e)

/-- `update`: the user is fetched with roles for the response. -/
def showUser (id tenantId : Uuid) (updated : Option User) : Sql UserPoint := do
  let withRoles ← query (UserRepository.findById id tenantId)
  let (user, roles) ← Program.orRaise (withRoles <|> updated.map fun user => (user, [])) .typeError
  return .done (.ok (.user (toUserResponse id user roles)))

/-- `delete`. -/
def delete (id tenantId : Uuid) : Sql UserPoint := do
  let found ← query (UserRepository.findByIdAndTenant id tenantId)
  let _ ← orThrow found "User not found" 404 "USER_NOT_FOUND"
  perform (Statement.deleteUser id)
  return .done (.ok (.deleted "User deleted successfully"))

/-- `assignRoles`. -/
def assignRoles (userId tenantId : Uuid) (roleIds : List Uuid) : Sql UserPoint := do
  let found ← query (UserRepository.findByIdAndTenant userId tenantId)
  let _ ← orThrow found "User not found" 404 "USER_NOT_FOUND"
  let uniqueRoleIds := roleIds.eraseDups
  let roles ← query (UserRepository.findRolesByIds uniqueRoleIds tenantId)
  ensure (roles.length = uniqueRoleIds.length) "One or more roles do not exist in this tenant" 400
    "INVALID_ROLE_IDS"
  let userRoles ← UserRepository.assignRoles userId tenantId uniqueRoleIds
  return .done (.ok (.roles (userRoles.map toUserRoleResponse)))

/-- `removeRole`, up to the end of its transaction. -/
def removeRole (userId tenantId roleId : Uuid) : Sql UserPoint := do
  let found ← query (UserRepository.findByIdAndTenant userId tenantId)
  let _ ← orThrow found "User not found" 404 "USER_NOT_FOUND"
  let foundRole ← query (UserRepository.findRoleById roleId tenantId)
  let role ← orThrow foundRole "Role not found" 404 "ROLE_NOT_FOUND"
  let result ← UserRepository.removeRole userId tenantId roleId tenantAdminRole role.name
  ensure (result.lastHolder = false)
    "Cannot remove the admin role from the last admin of this tenant" 409 "LAST_ADMIN_ROLE"
  ensure (result.removed ≠ 0) "Role is not assigned to this user" 404 "ROLE_NOT_ASSIGNED"
  return .roleRemoved userId tenantId

/-- The first transaction of a request. -/
def begin : UserRequest → Sql UserPoint
  | .update id tenantId data => update id tenantId data
  | .delete id tenantId => delete id tenantId
  | .assignRoles userId tenantId roleIds => assignRoles userId tenantId roleIds
  | .removeRole userId tenantId roleId => removeRole userId tenantId roleId

/-- The transactions of the requests, one after the other. -/
def code : UserPoint → Option (Sql UserPoint)
  | .request r => some (begin r)
  | .updated id tenantId user => some (showUser id tenantId user)
  | .roleRemoved userId tenantId => some do
    let remaining ← query (UserRepository.findUserRoles userId tenantId)
    return .done (.ok (.roles (remaining.map toUserRoleResponse)))
  | .done _ => none

end UserService

end PulseOps.Accounts
