import PulseOps.Model.Users
import PulseOps.ReadCommitted.Interleaved

/-!
# Permissions and their cache

`getUserPermissions` of `auth/authorization.middleware.js` with its cache, and the requests
that change what it reads: `assignRoles` and `removeRole` of `users/users.service.js`, and
`assignPermissions`, `replacePermissions`, `removePermission` and `delete` of
`roles/roles.service.js`, over their repositories.

One turn of a request is one statement or one command of the cache. What a transaction writes
is visible from its commit on, so its last statement and the commit are one turn, and what its
earlier statements have found is kept in the phase. The commands of the cache succeed and no
entry expires; the key of an entry is the pair of ids that its text is made of. `SCAN` goes
through the slots of the key space, in an order of its own each time, which is given with the
request.

What the changes answer is left out.
-/

set_option autoImplicit false

open ReadCommitted

namespace PulseOps.Permissions

open Accounts (UserRole UserRepository.findByIdAndTenant UserRepository.findRolesByIds
  UserRepository.findRoleById UserRepository.countHolders tenantAdminRole)

/-! ### Rows -/

structure Permission where
  tenantId : Uuid
  name : String
  description : Option String := none
  resource : String
  action : String
  deriving DecidableEq, Repr

/-- A row of `role_permissions`. -/
structure RolePermission where
  tenantId : Uuid
  roleId : Uuid
  permissionId : Uuid
  deriving DecidableEq, Repr

/-- The tables of the staff accounts, with the permissions of the roles. -/
structure Db extends Accounts.Db where
  /-- the roles with `is_system` -/
  systemRoles : List Uuid := []
  permissions : Table Uuid Permission := ∅
  rolePermissions : List RolePermission := []

/-- What is cached of a permission. -/
structure PermissionView where
  id : Uuid
  name : String
  resource : String
  action : String
  description : Option String
  deriving DecidableEq, Repr

/-- `userPermissionsKey(tenantId, userId)`. -/
structure CacheKey where
  tenantId : Uuid
  userId : Uuid
  deriving DecidableEq, Repr

structure Store where
  db : Db
  cache : Table CacheKey (List PermissionView) := ∅

/-- The order in which a `SCAN` comes to the keys. -/
structure Scan where
  slots : ℕ
  slot : CacheKey → Fin slots

/-! ### Requests -/

inductive Request where
  | getUserPermissions (userId tenantId : Uuid)
  | assignRoles (userId tenantId : Uuid) (roleIds : List Uuid)
  | removeRole (userId tenantId roleId : Uuid)
  | assignPermissions (id tenantId : Uuid) (permissionIds : List Uuid) (scan : Scan)
  | replacePermissions (id tenantId : Uuid) (permissionIds : List Uuid) (scan : Scan)
  | removePermission (id tenantId permissionId : Uuid) (scan : Scan)
  | delete (id tenantId : Uuid) (scan : Scan)

/-- What is left of an answer. -/
inductive Response where
  | permissions (permissions : List PermissionView)
  | changed
  deriving DecidableEq, Repr

/-- Where a request is. -/
inductive Phase where
  /-- the first statement or command comes next -/
  | arrived
  /-- `userRole.findMany` -/
  | loadingRoles
  /-- `rolePermission.findMany` -/
  | loadingPermissions (roleIds : List Uuid)
  /-- `cache.set` -/
  | filling (permissions : List PermissionView)
  /-- the second check before the transaction -/
  | checking
  /-- the first statement of the transaction -/
  | opened
  /-- the second one, with what the first has found -/
  | finding (ids : List Uuid)
  /-- the statement that writes last, and the commit -/
  | committing (ids : List Uuid)
  /-- `cache.del` of one entry -/
  | deleting
  /-- `SCAN` at a cursor -/
  | scanning (cursor : ℕ)
  /-- `DEL` of the keys that `SCAN` has returned -/
  | removing (keys : List CacheKey) (cursor : ℕ)
  | done (result : Except Failure Response)
  deriving DecidableEq

def refused (e : AppError) : Phase := .done (.error (.app e))

/-! ### Errors -/

def userNotFound : AppError := ⟨"User not found", 404, "USER_NOT_FOUND"⟩

def invalidRoleIds : AppError :=
  ⟨"One or more roles do not exist in this tenant", 400, "INVALID_ROLE_IDS"⟩

def roleNotFound : AppError := ⟨"Role not found", 404, "ROLE_NOT_FOUND"⟩

def lastAdminRole : AppError :=
  ⟨"Cannot remove the admin role from the last admin of this tenant", 409, "LAST_ADMIN_ROLE"⟩

def roleNotAssigned : AppError := ⟨"Role is not assigned to this user", 404, "ROLE_NOT_ASSIGNED"⟩

def systemRolePermissionsImmutable : AppError :=
  ⟨"Cannot modify system role permissions", 403, "SYSTEM_ROLE_IMMUTABLE"⟩

def systemRoleUndeletable : AppError :=
  ⟨"Cannot delete system role", 403, "SYSTEM_ROLE_IMMUTABLE"⟩

def invalidPermissionIds : AppError :=
  ⟨"One or more permissions do not exist in this tenant", 400, "INVALID_PERMISSION_IDS"⟩

def permissionNotAssigned : AppError :=
  ⟨"Permission is not assigned to this role", 404, "PERMISSION_NOT_ASSIGNED"⟩

namespace Db

/-! ### What is read -/

/-- `userRole.findMany({ where: { userId, tenantId } })`. -/
def roleIdsOf (s : Db) (userId tenantId : Uuid) : List Uuid :=
  (s.userRoles.filter fun r => r.userId = userId ∧ r.tenantId = tenantId).map (·.roleId)

/-- `rolePermission.findMany` of some roles, with the permissions. -/
def permissionsOf (s : Db) (tenantId : Uuid) (roleIds : List Uuid) : List PermissionView :=
  (s.rolePermissions.filter fun rp => rp.tenantId = tenantId ∧ rp.roleId ∈ roleIds).filterMap
    fun rp => (s.permissions.lookup rp.permissionId).map fun p =>
      ⟨rp.permissionId, p.name, p.resource, p.action, p.description⟩

/-- What the database grants a user in a tenant. -/
def grants (s : Db) (key : CacheKey) : List PermissionView :=
  s.permissionsOf key.tenantId (s.roleIdsOf key.userId key.tenantId)

/-- `RoleRepository.isSystemRole`. -/
def isSystemRole (s : Db) (id tenantId : Uuid) : Bool :=
  (UserRepository.findRoleById id tenantId s.toDb).isSome ∧ id ∈ s.systemRoles

/-- `RoleRepository.findPermissionsByIds`. -/
def findPermissionsByIds (s : Db) (permissionIds : List Uuid) (tenantId : Uuid) : List Uuid :=
  (s.permissions.entries.filter fun e => e.1 ∈ permissionIds ∧ e.2.tenantId = tenantId).map (·.1)

/-- `RoleService.getMutableRole`: the error, if there is one. -/
def getMutableRole (s : Db) (id tenantId : Uuid) : Option AppError :=
  if (UserRepository.findRoleById id tenantId s.toDb).isNone then some roleNotFound
  else if id ∈ s.systemRoles then some systemRolePermissionsImmutable
  else none

/-- `RoleService.assertTenantPermissions`. -/
def assertTenantPermissions (s : Db) (permissionIds : List Uuid) (tenantId : Uuid) : Bool :=
  (s.findPermissionsByIds permissionIds tenantId).length = permissionIds.eraseDups.length

/-! ### What is written -/

/-- The foreign key of `role_id` and its trigger: the role is one of the tenant. -/
def checkRole (s : Db) (tenantId roleId : Uuid) : Except DatabaseError Unit :=
  match s.roles.lookup roleId with
  | none => .error .foreignKeyViolation
  | some role => if role.tenantId = tenantId then .ok () else .error .checkViolation

/-- `userRole.createMany` with `skipDuplicates`. -/
def createUserRoles (s : Db) (userId tenantId : Uuid) (roleIds : List Uuid) :
    Except DatabaseError Db := do
  roleIds.forM (s.checkRole tenantId)
  let rows := (roleIds.map fun roleId => (⟨tenantId, userId, roleId⟩ : UserRole)).filter
    (· ∉ s.userRoles)
  return { s with userRoles := s.userRoles ++ rows }

/-- `userRole.deleteMany`. -/
def deleteUserRoles (s : Db) (userId tenantId roleId : Uuid) : Db :=
  { s with userRoles := s.userRoles.filter (· ≠ ⟨tenantId, userId, roleId⟩) }

/-- `rolePermission.createMany` with `skipDuplicates`. -/
def createRolePermissions (s : Db) (roleId tenantId : Uuid) (permissionIds : List Uuid) :
    Except DatabaseError Db := do
  permissionIds.forM fun _ => s.checkRole tenantId roleId
  let rows := (permissionIds.map fun id => (⟨tenantId, roleId, id⟩ : RolePermission)).filter
    (· ∉ s.rolePermissions)
  return { s with rolePermissions := s.rolePermissions ++ rows }

/-- `rolePermission.deleteMany` of the permissions that were found. -/
def deleteRolePermissions (s : Db) (roleId tenantId : Uuid) (permissionIds : List Uuid) : Db :=
  { s with rolePermissions := s.rolePermissions.filter fun rp =>
      ¬ (rp.tenantId = tenantId ∧ rp.roleId = roleId ∧ rp.permissionId ∈ permissionIds) }

/-- The permissions of a role. -/
def rolePermissionIds (s : Db) (roleId tenantId : Uuid) : List Uuid :=
  (s.rolePermissions.filter fun rp => rp.tenantId = tenantId ∧ rp.roleId = roleId).map
    (·.permissionId)

/-- `role.delete`, with its assignments and permissions (`ON DELETE CASCADE`). -/
def deleteRole (s : Db) (id : Uuid) : Db :=
  { s with
    roles := s.roles.erase id
    userRoles := s.userRoles.filter (·.roleId ≠ id)
    rolePermissions := s.rolePermissions.filter (·.roleId ≠ id) }

end Db

/-! ### The cache -/

/-- `CacheService.delByPattern`, after the slot `cursor`. -/
def Scan.next (scan : Scan) (cursor : ℕ) : Phase :=
  if cursor + 1 < scan.slots then .scanning (cursor + 1) else .done (.ok .changed)

/-- `invalidateTenantPermissionsCache`: the keys of the tenant, slot by slot. -/
def invalidateTenant (tenantId : Uuid) (scan : Scan) (s : Store) : Phase → Store × Phase
  | .scanning cursor =>
    (s, .removing (s.cache.keys.filter fun key =>
      key.tenantId = tenantId ∧ (scan.slot key : ℕ) = cursor) cursor)
  | .removing keys cursor =>
    ({ s with cache := keys.foldl (fun t key => t.erase key) s.cache }, scan.next cursor)
  | phase => (s, phase)

/-- `cache.del(userPermissionsKey(tenantId, userId))`. -/
def invalidateUser (userId tenantId : Uuid) (s : Store) : Store × Phase :=
  ({ s with cache := s.cache.erase ⟨tenantId, userId⟩ }, .done (.ok .changed))

/-- The commit, or the error of the statement before it. -/
def commit (s : Store) (next : Phase) : Except DatabaseError Db → Store × Phase
  | .ok db => ({ s with db }, next)
  | .error e => (s, .done (.error (.database e)))

/-! ### The services, turn by turn -/

/-- `getUserPermissions`. -/
def advanceGetUserPermissions (userId tenantId : Uuid) (s : Store) : Phase → Store × Phase
  | .arrived =>
    match s.cache.lookup ⟨tenantId, userId⟩ with
    | some cached => (s, .done (.ok (.permissions cached)))
    | none => (s, .loadingRoles)
  | .loadingRoles =>
    let roleIds := s.db.roleIdsOf userId tenantId
    (s, if roleIds = [] then .filling [] else .loadingPermissions roleIds)
  | .loadingPermissions roleIds => (s, .filling (s.db.permissionsOf tenantId roleIds))
  | .filling result =>
    ({ s with cache := s.cache.insert ⟨tenantId, userId⟩ result },
      .done (.ok (.permissions result)))
  | phase => (s, phase)

/-- `UserService.assignRoles`. -/
def advanceAssignRoles (userId tenantId : Uuid) (roleIds : List Uuid) (s : Store) :
    Phase → Store × Phase
  | .arrived =>
    if (UserRepository.findByIdAndTenant userId tenantId s.db.toDb).isNone then
      (s, refused userNotFound)
    else (s, .checking)
  | .checking =>
    if (UserRepository.findRolesByIds roleIds.eraseDups tenantId s.db.toDb).length =
        roleIds.eraseDups.length then (s, .opened)
    else (s, refused invalidRoleIds)
  | .opened =>
    -- without an active membership the transaction ends here
    if s.db.memberships.lookup (tenantId, userId) = some .active then (s, .finding [])
    else (s, .deleting)
  | .finding _ =>
    let existing := s.db.roleIdsOf userId tenantId
    (s, .committing (roleIds.eraseDups.filter (· ∉ existing)))
  | .committing newRoles => commit s .deleting (s.db.createUserRoles userId tenantId newRoles)
  | .deleting => invalidateUser userId tenantId s
  | phase => (s, phase)

/-- `UserService.removeRole`. -/
def advanceRemoveRole (userId tenantId roleId : Uuid) (s : Store) : Phase → Store × Phase
  | .arrived =>
    if (UserRepository.findByIdAndTenant userId tenantId s.db.toDb).isNone then
      (s, refused userNotFound)
    else (s, .checking)
  | .checking =>
    match UserRepository.findRoleById roleId tenantId s.db.toDb with
    | none => (s, refused roleNotFound)
    | some role => (s, if role.name = tenantAdminRole then .opened else .committing [])
  | .opened =>
    if UserRepository.countHolders tenantId roleId s.db.toDb ≤ 1 then (s, refused lastAdminRole)
    else (s, .committing [])
  | .committing _ =>
    if ⟨tenantId, userId, roleId⟩ ∈ s.db.userRoles then
      commit s .deleting (.ok (s.db.deleteUserRoles userId tenantId roleId))
    else (s, refused roleNotAssigned)
  | .deleting => invalidateUser userId tenantId s
  | phase => (s, phase)

/-- `RoleService.assignPermissions`. -/
def advanceAssignPermissions (id tenantId : Uuid) (permissionIds : List Uuid) (scan : Scan)
    (s : Store) : Phase → Store × Phase
  | .arrived =>
    match s.db.getMutableRole id tenantId with
    | some e => (s, refused e)
    | none => (s, .checking)
  | .checking =>
    if s.db.assertTenantPermissions permissionIds tenantId then (s, .opened)
    else (s, refused invalidPermissionIds)
  | .opened =>
    let valid := s.db.findPermissionsByIds permissionIds tenantId
    (s, .finding (permissionIds.filter (· ∈ valid)))
  | .finding valid =>
    let existing := s.db.rolePermissionIds id tenantId
    (s, .committing (valid.filter (· ∉ existing)))
  | .committing newPermissions =>
    commit s (.scanning 0) (s.db.createRolePermissions id tenantId newPermissions)
  | phase => invalidateTenant tenantId scan s phase

/-- `RoleService.replacePermissions`. -/
def advanceReplacePermissions (id tenantId : Uuid) (permissionIds : List Uuid) (scan : Scan)
    (s : Store) : Phase → Store × Phase
  | .arrived =>
    match s.db.getMutableRole id tenantId with
    | some e => (s, refused e)
    | none => (s, .checking)
  | .checking =>
    if s.db.assertTenantPermissions permissionIds.eraseDups tenantId then (s, .opened)
    else (s, refused invalidPermissionIds)
  | .opened =>
    -- what the `deleteMany` takes
    (s, .committing ((s.db.rolePermissionIds id tenantId).filter (· ∉ permissionIds)))
  | .committing doomed =>
    commit s (.scanning 0) ((s.db.deleteRolePermissions id tenantId doomed).createRolePermissions
      id tenantId permissionIds.eraseDups)
  | phase => invalidateTenant tenantId scan s phase

/-- `RoleService.removePermission`. -/
def advanceRemovePermission (id tenantId permissionId : Uuid) (scan : Scan) (s : Store) :
    Phase → Store × Phase
  | .arrived =>
    match s.db.getMutableRole id tenantId with
    | some e => (s, refused e)
    | none =>
      if permissionId ∈ s.db.rolePermissionIds id tenantId then (s, .committing [])
      else (s, refused permissionNotAssigned)
  | .committing _ =>
    commit s (.scanning 0) (.ok (s.db.deleteRolePermissions id tenantId [permissionId]))
  | phase => invalidateTenant tenantId scan s phase

/-- `RoleService.delete`. -/
def advanceDelete (id tenantId : Uuid) (scan : Scan) (s : Store) : Phase → Store × Phase
  | .arrived =>
    if s.db.isSystemRole id tenantId then (s, refused systemRoleUndeletable) else (s, .checking)
  | .checking =>
    if (UserRepository.findRoleById id tenantId s.db.toDb).isNone then (s, refused roleNotFound)
    else (s, .committing [])
  | .committing _ =>
    -- P2025 becomes ROLE_NOT_FOUND
    if (UserRepository.findRoleById id tenantId s.db.toDb).isNone then (s, refused roleNotFound)
    else commit s (.scanning 0) (.ok (s.db.deleteRole id))
  | phase => invalidateTenant tenantId scan s phase

/-- The next turn of a request. -/
def advance : Request → Store → Phase → Store × Phase
  | .getUserPermissions userId tenantId => advanceGetUserPermissions userId tenantId
  | .assignRoles userId tenantId roleIds => advanceAssignRoles userId tenantId roleIds
  | .removeRole userId tenantId roleId => advanceRemoveRole userId tenantId roleId
  | .assignPermissions id tenantId permissionIds scan =>
    advanceAssignPermissions id tenantId permissionIds scan
  | .replacePermissions id tenantId permissionIds scan =>
    advanceReplacePermissions id tenantId permissionIds scan
  | .removePermission id tenantId permissionId scan =>
    advanceRemovePermission id tenantId permissionId scan
  | .delete id tenantId scan => advanceDelete id tenantId scan

/-- Nobody has started yet. -/
def start (requests : List Request) (s : Store) : Interleaved Store Phase :=
  ⟨s, requests.map fun _ => .arrived⟩

end PulseOps.Permissions
