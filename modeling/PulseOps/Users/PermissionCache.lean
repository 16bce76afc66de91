import PulseOps.Model.Permissions
import PulseOps.ReadCommitted.CacheAside
import PulseOps.ReadCommitted.Tables

/-!
# The cache of permissions

Every change of what users are granted is followed by the deletion of the entries it touches.
A reader that has loaded before the change can still write its entry after the deletion, and
then the entry stays wrong. Where no change commits and deletes the entry between the two,
changes take effect.

## Main definitions

* `Request.clears` — which entries a request will still delete.
* `loadsAt`, `setAt`, `changedAt` — what the turns of a schedule do.
* `SetsInTime` — no change commits and deletes an entry between a reader's load and its set.

## Main results

* `turn_advance` — everything one turn can do.
* `lawful` — changes announce the entries they touch and delete them.
* `fillsCurrent_of_setsInTime` — what a reader writes is granted, or the entry will be deleted.
* `getUserPermissions_current` — under the condition, changes take effect.
-/

set_option autoImplicit false

open ReadCommitted

namespace PulseOps.Permissions

variable {s : Store} {db db' : Db} {key : CacheKey} {userId tenantId id : Uuid}
  {req : Request} {phase : Phase} {requests : List Request} {c c' : Interleaved Store Phase}

/-! ### Which entries will be deleted -/

/-- The keys that `SCAN` has still to come to, and those it has returned. -/
def Scan.clears (scan : Scan) (tenantId : Uuid) : Phase → CacheKey → Prop
  | .scanning cursor, key => key.tenantId = tenantId ∧ cursor ≤ scan.slot key
  | .removing keys cursor, key =>
    key.tenantId = tenantId ∧ (key ∈ keys ∨ cursor < scan.slot key)
  | _, _ => False

/-- The entry of the user whose roles a request changes. -/
def Request.userKey : Request → Option CacheKey
  | .assignRoles userId tenantId _ => some ⟨tenantId, userId⟩
  | .removeRole userId tenantId _ => some ⟨tenantId, userId⟩
  | _ => none

/-- The tenant in which a request changes a role, and its way through the keys. -/
def Request.scanOf : Request → Option (Uuid × Scan)
  | .assignPermissions _ tenantId _ scan => some (tenantId, scan)
  | .replacePermissions _ tenantId _ scan => some (tenantId, scan)
  | .removePermission _ tenantId _ scan => some (tenantId, scan)
  | .delete _ tenantId scan => some (tenantId, scan)
  | _ => none

/-- The request has committed, and will delete the entry. -/
def Request.clears (req : Request) (phase : Phase) (key : CacheKey) : Prop :=
  (phase = .deleting ∧ req.userKey = some key) ∨
    ∃ tenantId scan, req.scanOf = some (tenantId, scan) ∧ scan.clears tenantId phase key

/-- The cache, and what it is a cache of. -/
def cacheAside : CacheAside Request Store Phase CacheKey (List PermissionView) where
  advance := advance
  cached s key := s.cache.lookup key
  truth s key := s.db.grants key
  clears := Request.clears

/-- The permissions of a role are those of its tenant: the trigger
`role_permissions_role_id_same_tenant`. -/
def Db.SameTenant (db : Db) : Prop :=
  ∀ rp ∈ db.rolePermissions, ∃ role, db.roles.lookup rp.roleId = some role ∧
    role.tenantId = rp.tenantId

/-! ### The turns of a schedule -/

instance (scan : Scan) (tenantId : Uuid) (phase : Phase) (key : CacheKey) :
    Decidable (scan.clears tenantId phase key) := by
  cases phase <;> unfold Scan.clears <;> infer_instance

instance (req : Request) (phase : Phase) (key : CacheKey) : Decidable (req.clears phase key) :=
  decidable_of_iff ((phase = .deleting ∧ req.userKey = some key) ∨
    ∃ x ∈ req.scanOf, x.2.clears x.1 phase key) (by
      refine or_congr Iff.rfl ⟨fun ⟨x, hx, h⟩ => ⟨x.1, x.2, hx, h⟩, fun ⟨t, scan, hx, h⟩ => ?_⟩
      exact ⟨(t, scan), hx, h⟩)

/-- The state before the turn `k`. -/
abbrev before (requests : List Request) (s : Store) (schedule : List ℕ) (k : ℕ) :
    Interleaved Store Phase :=
  Interleaved.stateBefore advance requests (start requests s) schedule k

/-- The turn `k` is the first statement of the load of the reader `i`. -/
def loadsAt (requests : List Request) (s : Store) (schedule : List ℕ) (i k : ℕ) : Bool :=
  schedule[k]? = some i ∧ (before requests s schedule k).phases[i]? = some .loadingRoles

/-- The entry that a turn of the request sets. -/
def Request.sets : Request → Phase → Option CacheKey
  | .getUserPermissions userId tenantId, .filling _ => some ⟨tenantId, userId⟩
  | _, _ => none

/-- The reader and the entry, if the turn `k` sets one. -/
def setAt (requests : List Request) (s : Store) (schedule : List ℕ) (k : ℕ) :
    Option (ℕ × CacheKey) :=
  schedule[k]?.bind fun i => requests[i]?.bind fun req =>
    (before requests s schedule k).phases[i]?.bind fun phase =>
      (req.sets phase).map fun key => (i, key)

/-- Whether the request `j` has committed and will still delete the entry. -/
def willDelete (requests : List Request) (c : Interleaved Store Phase) (j : ℕ) (key : CacheKey) :
    Bool :=
  requests[j]?.any fun req => c.phases[j]?.any fun phase => req.clears phase key

/-- The request, if the turn `k` commits a change that touches the entry. -/
def changedAt (requests : List Request) (s : Store) (schedule : List ℕ) (key : CacheKey) (k : ℕ) :
    Option ℕ :=
  schedule[k]?.filter fun j => !willDelete requests (before requests s schedule k) j key &&
    willDelete requests (before requests s schedule (k + 1)) j key

/-- A change of the entry that is committed between the turns `a` and `d` has not deleted the
entry before the turn `d`. -/
def NoneDeleted (requests : List Request) (s : Store) (schedule : List ℕ) (key : CacheKey)
    (a d : ℕ) : Prop :=
  ∀ b < d, a < b → ∀ j ∈ changedAt requests s schedule key b,
    willDelete requests (before requests s schedule d) j key = true

/-- No change commits and deletes an entry between the load and the set of a reader. -/
def SetsInTime (requests : List Request) (s : Store) (schedule : List ℕ) : Prop :=
  ∀ d < schedule.length, ∀ x ∈ setAt requests s schedule d, ∀ a < d,
    loadsAt requests s schedule x.1 a = true → NoneDeleted requests s schedule x.2 a d

instance (requests : List Request) (s : Store) (schedule : List ℕ) (key : CacheKey) (a d : ℕ) :
    Decidable (NoneDeleted requests s schedule key a d) := by
  unfold NoneDeleted
  infer_instance

instance (requests : List Request) (s : Store) (schedule : List ℕ) :
    Decidable (SetsInTime requests s schedule) := by
  unfold SetsInTime
  infer_instance

/-! ### What the writes do to the grants -/

namespace Db

theorem checkRole_eq_ok {u : Unit} (h : db.checkRole tenantId id = .ok u) :
    ∃ role, db.roles.lookup id = some role ∧ role.tenantId = tenantId := by
  cases hrole : db.roles.lookup id with
  | none => simp [checkRole, hrole] at h
  | some role =>
    refine ⟨role, rfl, ?_⟩
    by_contra hne
    simp [checkRole, hrole, hne] at h

theorem createUserRoles_eq_ok {roleIds : List Uuid}
    (h : db.createUserRoles userId tenantId roleIds = .ok db') :
    ∃ rows : List Accounts.UserRole, (∀ row ∈ rows, row.userId = userId ∧ row.tenantId = tenantId) ∧
      db' = { db with userRoles := db.userRoles ++ rows } := by
  unfold createUserRoles at h
  cases hcheck : roleIds.forM (db.checkRole tenantId) with
  | error e => simp [hcheck, bind, Except.bind] at h
  | ok u =>
    simp only [hcheck, bind, Except.bind, pure, Except.pure, Except.ok.injEq] at h
    refine ⟨_, ?_, h.symm⟩
    intro row hrow
    obtain ⟨roleId, -, rfl⟩ := List.mem_map.mp (List.mem_filter.mp hrow).1
    exact ⟨rfl, rfl⟩

theorem createRolePermissions_eq_ok {permissionIds : List Uuid}
    (h : db.createRolePermissions id tenantId permissionIds = .ok db') :
    ∃ rows : List RolePermission, (∀ row ∈ rows, row.tenantId = tenantId ∧
        ∃ role, db.roles.lookup row.roleId = some role ∧ role.tenantId = tenantId) ∧
      db' = { db with rolePermissions := db.rolePermissions ++ rows } := by
  unfold createRolePermissions at h
  cases hcheck : permissionIds.forM fun _ => db.checkRole tenantId id with
  | error e => simp [hcheck, bind, Except.bind] at h
  | ok u =>
    simp only [hcheck, bind, Except.bind, pure, Except.pure, Except.ok.injEq] at h
    refine ⟨_, ?_, h.symm⟩
    intro row hrow
    obtain ⟨permissionId, hmem, rfl⟩ := List.mem_map.mp (List.mem_filter.mp hrow).1
    cases permissionIds with
    | nil => simp at hmem
    | cons p ps =>
      refine ⟨rfl, ?_⟩
      cases hrole : db.checkRole tenantId id with
      | error e => simp [List.forM_cons, hrole, bind, Except.bind] at hcheck
      | ok u => exact checkRole_eq_ok hrole

/-- The permissions of roles depend on the rows of the tenant. -/
theorem permissionsOf_congr (hpermissions : db'.permissions = db.permissions)
    (hrows : db'.rolePermissions.filter (·.tenantId = tenantId) =
      db.rolePermissions.filter (·.tenantId = tenantId)) (roleIds : List Uuid) :
    db'.permissionsOf tenantId roleIds = db.permissionsOf tenantId roleIds := by
  have hsplit (rows : List RolePermission) :
      (rows.filter fun rp => rp.tenantId = tenantId ∧ rp.roleId ∈ roleIds) =
        (rows.filter (·.tenantId = tenantId)).filter (·.roleId ∈ roleIds) := by
    rw [List.filter_filter]
    apply List.filter_congr
    intro rp _
    rw [Bool.decide_and, Bool.and_comm]
  rw [permissionsOf, permissionsOf, hsplit, hsplit, hpermissions, hrows]

/-- The grants of a user depend on its roles and on the rows of the tenant. -/
theorem grants_congr (hpermissions : db'.permissions = db.permissions)
    (hroles : db'.roleIdsOf key.userId key.tenantId = db.roleIdsOf key.userId key.tenantId)
    (hrows : db'.rolePermissions.filter (·.tenantId = key.tenantId) =
      db.rolePermissions.filter (·.tenantId = key.tenantId)) :
    db'.grants key = db.grants key := by
  rw [grants, grants, hroles, permissionsOf_congr hpermissions hrows]

/-- New assignments of one user. -/
theorem grants_addUserRoles {rows : List Accounts.UserRole}
    (hrows : ∀ row ∈ rows, row.userId = userId ∧ row.tenantId = tenantId)
    (hkey : key ≠ ⟨tenantId, userId⟩) :
    ({ db with userRoles := db.userRoles ++ rows } : Db).grants key = db.grants key := by
  refine grants_congr rfl ?_ rfl
  have hnone : (rows.filter fun r => r.userId = key.userId ∧ r.tenantId = key.tenantId) = [] := by
    apply List.filter_eq_nil_iff.mpr
    intro row hrow hmatch
    obtain ⟨huser, htenant⟩ := hrows row hrow
    obtain ⟨huser', htenant'⟩ := of_decide_eq_true hmatch
    apply hkey
    rw [← huser, ← htenant, huser', htenant']
  simp only [roleIdsOf, List.filter_append, hnone, List.append_nil]

/-- One assignment less. -/
theorem grants_deleteUserRoles {roleId : Uuid} (hkey : key ≠ ⟨tenantId, userId⟩) :
    (db.deleteUserRoles userId tenantId roleId).grants key = db.grants key := by
  refine grants_congr rfl ?_ rfl
  simp only [roleIdsOf, deleteUserRoles, List.filter_filter]
  congr 1
  apply List.filter_congr
  intro r _
  by_cases hmatch : r.userId = key.userId ∧ r.tenantId = key.tenantId
  · have hne : r ≠ ⟨tenantId, userId, roleId⟩ := by
      intro heq
      obtain ⟨huser, htenant⟩ := hmatch
      apply hkey
      rw [heq] at huser htenant
      exact (congrArg₂ CacheKey.mk htenant huser).symm
    simp [hmatch, hne]
  · simp [hmatch]

/-- Other tenants have other rows in `role_permissions`. -/
theorem filter_addRolePermissions {rows : List RolePermission} {other : Uuid}
    (hrows : ∀ row ∈ rows, row.tenantId = tenantId) (hother : other ≠ tenantId) :
    (db.rolePermissions ++ rows).filter (·.tenantId = other) =
      db.rolePermissions.filter (·.tenantId = other) := by
  have hnone : rows.filter (·.tenantId = other) = [] := by
    apply List.filter_eq_nil_iff.mpr
    intro row hrow hmatch
    exact hother ((of_decide_eq_true hmatch).symm.trans (hrows row hrow))
  rw [List.filter_append, hnone, List.append_nil]

theorem filter_deleteRolePermissions {permissionIds : List Uuid} {other : Uuid}
    (hother : other ≠ tenantId) :
    (db.deleteRolePermissions id tenantId permissionIds).rolePermissions.filter
      (·.tenantId = other) = db.rolePermissions.filter (·.tenantId = other) := by
  simp only [deleteRolePermissions, List.filter_filter]
  apply List.filter_congr
  intro rp _
  by_cases hmatch : rp.tenantId = other
  · simp [hmatch, hother]
  · simp [hmatch]

theorem mem_roleIdsOf {roleId : Uuid} :
    roleId ∈ db.roleIdsOf userId tenantId ↔ ⟨tenantId, userId, roleId⟩ ∈ db.userRoles := by
  simp only [roleIdsOf, List.mem_map, List.mem_filter, decide_eq_true_eq]
  constructor
  · rintro ⟨r, ⟨hr, rfl, rfl⟩, rfl⟩
    exact hr
  · intro hr
    exact ⟨_, ⟨hr, rfl, rfl⟩, rfl⟩

/-- The role that is deleted has permissions in its own tenant only. -/
theorem filter_deleteRole (hdb : db.SameTenant) {role : Accounts.Role} {other : Uuid}
    (hrole : db.roles.lookup id = some role) (hother : other ≠ role.tenantId) :
    (db.deleteRole id).rolePermissions.filter (·.tenantId = other) =
      db.rolePermissions.filter (·.tenantId = other) := by
  simp only [deleteRole, List.filter_filter]
  apply List.filter_congr
  intro rp hrp
  by_cases htenant : rp.tenantId = other
  · have hne : rp.roleId ≠ id := by
      rintro rfl
      obtain ⟨role', hrole', htenant'⟩ := hdb rp hrp
      obtain rfl := Option.some.inj (hrole.symm.trans hrole')
      exact hother (htenant.symm.trans htenant'.symm)
    simp [htenant, hne]
  · simp [htenant]

/-- A user of another tenant may lose the role, but it has granted nothing there. -/
theorem grants_deleteRole (hdb : db.SameTenant) {role : Accounts.Role}
    (hrole : db.roles.lookup id = some role) (hkey : key.tenantId ≠ role.tenantId) :
    (db.deleteRole id).grants key = db.grants key := by
  have hrows (roleIds : List Uuid) :
      (db.deleteRole id).permissionsOf key.tenantId roleIds =
        db.permissionsOf key.tenantId roleIds := by
    refine permissionsOf_congr ?_ (filter_deleteRole hdb hrole hkey) roleIds
    rfl
  rw [grants, hrows, grants, permissionsOf, permissionsOf]
  congr 1
  apply List.filter_congr
  intro rp hrp
  by_cases htenant : rp.tenantId = key.tenantId
  · have hne : rp.roleId ≠ id := by
      rintro rfl
      obtain ⟨role', hrole', htenant'⟩ := hdb rp hrp
      obtain rfl := Option.some.inj (hrole.symm.trans hrole')
      exact hkey (htenant.symm.trans htenant'.symm)
    simp [htenant, mem_roleIdsOf, deleteRole, hne]
  · simp [htenant]

/-! ### The trigger -/

theorem SameTenant.add {rows : List RolePermission} (hdb : db.SameTenant)
    (hrows : ∀ row ∈ rows, ∃ role, db.roles.lookup row.roleId = some role ∧
      role.tenantId = row.tenantId) :
    ({ db with rolePermissions := db.rolePermissions ++ rows } : Db).SameTenant := by
  intro rp hrp
  rcases List.mem_append.mp hrp with hold | hnew
  · exact hdb rp hold
  · exact hrows rp hnew

theorem SameTenant.deleteRolePermissions {permissionIds : List Uuid} (hdb : db.SameTenant) :
    (db.deleteRolePermissions id tenantId permissionIds).SameTenant :=
  fun rp hrp => hdb rp (List.mem_of_mem_filter hrp)

theorem SameTenant.deleteRole (hdb : db.SameTenant) : (db.deleteRole id).SameTenant := by
  intro rp hrp
  obtain ⟨hrp, hne⟩ := List.mem_filter.mp hrp
  obtain ⟨role, hrole, htenant⟩ := hdb rp hrp
  exact ⟨role, (AList.lookup_erase_ne (of_decide_eq_true hne)).trans hrole, htenant⟩

end Db

/-! ### One turn -/

/-- Everything a turn can do, and what it does to the grants. -/
inductive Turn (s : Store) : Request → Phase → Store → Phase → Prop
  /-- the store stays, and nothing was to be deleted -/
  | quiet {req : Request} {phase phase' : Phase} (hclears : ∀ key, ¬ req.clears phase key) :
      Turn s req phase s phase'
  | fill {userId tenantId : Uuid} {result : List PermissionView} :
      Turn s (.getUserPermissions userId tenantId) (.filling result)
        { s with cache := s.cache.insert ⟨tenantId, userId⟩ result }
        (.done (.ok (.permissions result)))
  | commitUser {req : Request} {phase : Phase} {db : Db} {key : CacheKey}
      (hclears : ∀ key, ¬ req.clears phase key) (hkey : req.userKey = some key)
      (hgrants : ∀ key', key' ≠ key → db.grants key' = s.db.grants key')
      (hrows : ∀ tenantId roleIds,
        db.permissionsOf tenantId roleIds = s.db.permissionsOf tenantId roleIds)
      (hsame : s.db.SameTenant → db.SameTenant) :
      Turn s req phase { s with db } .deleting
  | commitTenant {req : Request} {phase : Phase} {db : Db} {tenantId : Uuid} {scan : Scan}
      (hclears : ∀ key, ¬ req.clears phase key) (hscan : req.scanOf = some (tenantId, scan))
      (hgrants : s.db.SameTenant → ∀ key : CacheKey, key.tenantId ≠ tenantId →
        db.grants key = s.db.grants key)
      (hrows : s.db.SameTenant → ∀ other, other ≠ tenantId → ∀ roleIds,
        db.permissionsOf other roleIds = s.db.permissionsOf other roleIds)
      (hsame : s.db.SameTenant → db.SameTenant) :
      Turn s req phase { s with db } (.scanning 0)
  | delete {req : Request} {key : CacheKey} {phase' : Phase} (hkey : req.userKey = some key) :
      Turn s req .deleting { s with cache := s.cache.erase key } phase'
  | scan {req : Request} {tenantId : Uuid} {scan : Scan} {cursor : ℕ}
      (hscan : req.scanOf = some (tenantId, scan)) :
      Turn s req (.scanning cursor) s (.removing (s.cache.keys.filter fun key =>
        key.tenantId = tenantId ∧ (scan.slot key : ℕ) = cursor) cursor)
  | remove {req : Request} {tenantId : Uuid} {scan : Scan} {keys : List CacheKey} {cursor : ℕ}
      (hscan : req.scanOf = some (tenantId, scan)) :
      Turn s req (.removing keys cursor)
        { s with cache := keys.foldl (fun t key => t.erase key) s.cache } (scan.next cursor)

/-- Before the commit, and after the last deletion, nothing is going to be deleted. -/
theorem not_clears (hdeleting : phase ≠ .deleting) (hscanning : ∀ n, phase ≠ .scanning n)
    (hremoving : ∀ keys n, phase ≠ .removing keys n) (req : Request) (key : CacheKey) :
    ¬ req.clears phase key := by
  rintro (⟨rfl, -⟩ | ⟨tenantId, scan, -, hscan⟩)
  · exact hdeleting rfl
  · cases phase with
    | scanning n => exact hscanning n rfl
    | removing keys n => exact hremoving keys n rfl
    | _ => exact hscan

theorem turn_advanceGetUserPermissions (userId tenantId : Uuid) (s : Store) (phase : Phase) :
    Turn s (.getUserPermissions userId tenantId) phase
      (advanceGetUserPermissions userId tenantId s phase).1
      (advanceGetUserPermissions userId tenantId s phase).2 := by
  have hclears (phase : Phase) (key : CacheKey) :
      ¬ (Request.getUserPermissions userId tenantId).clears phase key := by
    rintro (⟨-, hkey⟩ | ⟨_, _, hscan, -⟩)
    · cases hkey
    · cases hscan
  cases phase with
  | arrived =>
    simp only [advanceGetUserPermissions]
    split <;> exact .quiet (hclears _)
  | filling result => exact .fill
  | _ => exact .quiet (hclears _)

/-- A commit, or the error instead of it. -/
theorem turn_commit {next : Phase} (hclears : ∀ key, ¬ req.clears phase key)
    (result : Except DatabaseError Db)
    (hok : ∀ db, result = .ok db → Turn s req phase { s with db } next) :
    Turn s req phase (commit s next result).1 (commit s next result).2 := by
  cases result with
  | error e => exact .quiet hclears
  | ok db => exact hok db rfl

theorem turn_advanceAssignRoles (userId tenantId : Uuid) (roleIds : List Uuid) (s : Store)
    (phase : Phase) : Turn s (.assignRoles userId tenantId roleIds) phase
      (advanceAssignRoles userId tenantId roleIds s phase).1
      (advanceAssignRoles userId tenantId roleIds s phase).2 := by
  have hscans (phase : Phase) (hphase : phase ≠ .deleting) (key : CacheKey) :
      ¬ (Request.assignRoles userId tenantId roleIds).clears phase key := by
    rintro (⟨hdeleting, -⟩ | ⟨_, _, hscan, -⟩)
    · exact hphase hdeleting
    · cases hscan
  cases phase with
  | arrived | checking | opened =>
    simp only [advanceAssignRoles]
    split <;> exact .quiet (hscans _ (by simp))
  | committing newRoles =>
    apply turn_commit (hscans _ (by simp))
    intro db hdb
    obtain ⟨rows, hrows, rfl⟩ := Db.createUserRoles_eq_ok hdb
    exact .commitUser (hscans _ (by simp)) rfl
      (fun key' hkey' => Db.grants_addUserRoles hrows hkey') (fun _ _ => rfl) fun h => h
  | deleting => exact .delete rfl
  | _ => exact .quiet (hscans _ (by simp))

theorem turn_advanceRemoveRole (userId tenantId roleId : Uuid) (s : Store) (phase : Phase) :
    Turn s (.removeRole userId tenantId roleId) phase
      (advanceRemoveRole userId tenantId roleId s phase).1
      (advanceRemoveRole userId tenantId roleId s phase).2 := by
  have hscans (phase : Phase) (hphase : phase ≠ .deleting) (key : CacheKey) :
      ¬ (Request.removeRole userId tenantId roleId).clears phase key := by
    rintro (⟨hdeleting, -⟩ | ⟨_, _, hscan, -⟩)
    · exact hphase hdeleting
    · cases hscan
  cases phase with
  | arrived | checking | opened =>
    simp only [advanceRemoveRole]
    split <;> exact .quiet (hscans _ (by simp))
  | committing _ =>
    simp only [advanceRemoveRole]
    split
    · exact .commitUser (hscans _ (by simp)) rfl
        (fun key' hkey' => Db.grants_deleteUserRoles hkey') (fun _ _ => rfl) fun h => h
    · exact .quiet (hscans _ (by simp))
  | deleting => exact .delete rfl
  | _ => exact .quiet (hscans _ (by simp))

/-- The way through the keys of the tenant. -/
theorem turn_invalidateTenant {scan : Scan} (hscan : req.scanOf = some (tenantId, scan))
    (huser : req.userKey = none) (s : Store) (phase : Phase) :
    Turn s req phase (invalidateTenant tenantId scan s phase).1
      (invalidateTenant tenantId scan s phase).2 := by
  cases phase with
  | scanning cursor => exact .scan hscan
  | removing keys cursor => exact .remove hscan
  | deleting =>
    refine .quiet fun key hclears => ?_
    rcases hclears with ⟨-, hkey⟩ | ⟨_, _, -, hnone⟩
    · rw [huser] at hkey
      cases hkey
    · exact hnone
  | _ => exact .quiet fun key => not_clears (by simp) (by simp) (by simp) req key

theorem turn_advanceAssignPermissions (id tenantId : Uuid) (permissionIds : List Uuid)
    (scan : Scan) (s : Store) (phase : Phase) :
    Turn s (.assignPermissions id tenantId permissionIds scan) phase
      (advanceAssignPermissions id tenantId permissionIds scan s phase).1
      (advanceAssignPermissions id tenantId permissionIds scan s phase).2 := by
  cases phase with
  | arrived | checking =>
    simp only [advanceAssignPermissions]
    split <;> exact .quiet fun key => not_clears (by simp) (by simp) (by simp) _ key
  | opened | finding _ => exact .quiet fun key => not_clears (by simp) (by simp) (by simp) _ key
  | committing newPermissions =>
    have hclears (key : CacheKey) : ¬ (Request.assignPermissions id tenantId permissionIds
        scan).clears (.committing newPermissions) key :=
      not_clears (by simp) (by simp) (by simp) _ key
    apply turn_commit hclears
    intro db hdb
    obtain ⟨rows, hrows, rfl⟩ := Db.createRolePermissions_eq_ok hdb
    have hother {other : Uuid} (hother : other ≠ tenantId) :
        (s.db.rolePermissions ++ rows).filter (·.tenantId = other) =
          s.db.rolePermissions.filter (·.tenantId = other) :=
      Db.filter_addRolePermissions (fun row hrow => (hrows row hrow).1) hother
    refine .commitTenant hclears rfl (fun _ key hkey => Db.grants_congr rfl rfl (hother hkey))
      (fun _ other hne => Db.permissionsOf_congr rfl (hother hne)) fun hsame => hsame.add ?_
    · intro row hrow
      obtain ⟨htenant, hrole⟩ := hrows row hrow
      exact htenant.symm ▸ hrole
  | _ => exact turn_invalidateTenant rfl rfl s _

theorem turn_advanceReplacePermissions (id tenantId : Uuid) (permissionIds : List Uuid)
    (scan : Scan) (s : Store) (phase : Phase) :
    Turn s (.replacePermissions id tenantId permissionIds scan) phase
      (advanceReplacePermissions id tenantId permissionIds scan s phase).1
      (advanceReplacePermissions id tenantId permissionIds scan s phase).2 := by
  cases phase with
  | arrived | checking =>
    simp only [advanceReplacePermissions]
    split <;> exact .quiet fun key => not_clears (by simp) (by simp) (by simp) _ key
  | opened => exact .quiet fun key => not_clears (by simp) (by simp) (by simp) _ key
  | committing doomed =>
    have hclears (key : CacheKey) : ¬ (Request.replacePermissions id tenantId permissionIds
        scan).clears (.committing doomed) key :=
      not_clears (by simp) (by simp) (by simp) _ key
    apply turn_commit hclears
    intro db hdb
    obtain ⟨rows, hrows, rfl⟩ := Db.createRolePermissions_eq_ok hdb
    have hother {other : Uuid} (hother : other ≠ tenantId) :
        ((s.db.deleteRolePermissions id tenantId doomed).rolePermissions ++ rows).filter
          (·.tenantId = other) = s.db.rolePermissions.filter (·.tenantId = other) :=
      (Db.filter_addRolePermissions (fun row hrow => (hrows row hrow).1) hother).trans
        (Db.filter_deleteRolePermissions hother)
    refine .commitTenant hclears rfl (fun _ key hkey => Db.grants_congr rfl rfl (hother hkey))
      (fun _ other hne => Db.permissionsOf_congr rfl (hother hne)) fun hsame =>
        hsame.deleteRolePermissions.add ?_
    · intro row hrow
      obtain ⟨htenant, hrole⟩ := hrows row hrow
      exact htenant.symm ▸ hrole
  | _ => exact turn_invalidateTenant rfl rfl s _

theorem turn_advanceRemovePermission (id tenantId permissionId : Uuid) (scan : Scan)
    (s : Store) (phase : Phase) :
    Turn s (.removePermission id tenantId permissionId scan) phase
      (advanceRemovePermission id tenantId permissionId scan s phase).1
      (advanceRemovePermission id tenantId permissionId scan s phase).2 := by
  cases phase with
  | arrived =>
    simp only [advanceRemovePermission]
    split
    · exact .quiet fun key => not_clears (by simp) (by simp) (by simp) _ key
    · split <;> exact .quiet fun key => not_clears (by simp) (by simp) (by simp) _ key
  | committing _ =>
    exact .commitTenant (fun key => not_clears (by simp) (by simp) (by simp) _ key) rfl
      (fun _ _ hkey => Db.grants_congr rfl rfl (Db.filter_deleteRolePermissions hkey))
      (fun _ _ hne => Db.permissionsOf_congr rfl (Db.filter_deleteRolePermissions hne))
      fun hsame => hsame.deleteRolePermissions
  | _ => exact turn_invalidateTenant rfl rfl s _

theorem turn_advanceDelete (id tenantId : Uuid) (scan : Scan) (s : Store) (phase : Phase) :
    Turn s (.delete id tenantId scan) phase (advanceDelete id tenantId scan s phase).1
      (advanceDelete id tenantId scan s phase).2 := by
  cases phase with
  | arrived | checking =>
    simp only [advanceDelete]
    split <;> exact .quiet fun key => not_clears (by simp) (by simp) (by simp) _ key
  | committing _ =>
    simp only [advanceDelete]
    split
    · exact .quiet fun key => not_clears (by simp) (by simp) (by simp) _ key
    next hfound =>
      obtain ⟨role, hrole⟩ :=
        Option.ne_none_iff_exists'.mp (Option.isNone_iff_eq_none.not.mp hfound)
      obtain ⟨hlookup, htenant⟩ := Option.filter_eq_some_iff.mp hrole
      obtain rfl := of_decide_eq_true htenant
      exact .commitTenant (fun key => not_clears (by simp) (by simp) (by simp) _ key) rfl
        (fun hsame key hkey => Db.grants_deleteRole hsame hlookup hkey)
        (fun hsame _ hne => Db.permissionsOf_congr rfl (Db.filter_deleteRole hsame hlookup hne))
        fun hsame => hsame.deleteRole
  | _ => exact turn_invalidateTenant rfl rfl s _

/-- Everything one turn can do. -/
theorem turn_advance (req : Request) (s : Store) (phase : Phase) :
    Turn s req phase (advance req s phase).1 (advance req s phase).2 := by
  cases req with
  | getUserPermissions userId tenantId =>
    exact turn_advanceGetUserPermissions userId tenantId s phase
  | assignRoles userId tenantId roleIds =>
    exact turn_advanceAssignRoles userId tenantId roleIds s phase
  | removeRole userId tenantId roleId =>
    exact turn_advanceRemoveRole userId tenantId roleId s phase
  | assignPermissions id tenantId permissionIds scan =>
    exact turn_advanceAssignPermissions id tenantId permissionIds scan s phase
  | replacePermissions id tenantId permissionIds scan =>
    exact turn_advanceReplacePermissions id tenantId permissionIds scan s phase
  | removePermission id tenantId permissionId scan =>
    exact turn_advanceRemovePermission id tenantId permissionId scan s phase
  | delete id tenantId scan => exact turn_advanceDelete id tenantId scan s phase

/-! ### The changes announce what they delete -/

variable {s' : Store} {phase' : Phase}

theorem Turn.sameTenant (h : Turn s req phase s' phase') (hs : s.db.SameTenant) :
    s'.db.SameTenant := by
  cases h with
  | commitUser _ _ _ _ hsame => exact hsame hs
  | commitTenant _ _ _ _ hsame => exact hsame hs
  | _ => exact hs

/-- A user who is granted something else has an entry that will be deleted. -/
theorem Turn.announces (h : Turn s req phase s' phase') (hs : s.db.SameTenant)
    (hne : s'.db.grants key ≠ s.db.grants key) : req.clears phase' key := by
  cases h with
  | @commitUser _ _ _ changed _ hkey hgrants =>
    have heq : key = changed := by
      by_contra hother
      exact hne (hgrants key hother)
    exact .inl ⟨rfl, heq ▸ hkey⟩
  | @commitTenant _ _ _ tenantId scan _ hscan hgrants =>
    have htenant : key.tenantId = tenantId := by
      by_contra hother
      exact hne (hgrants hs key hother)
    exact .inr ⟨tenantId, scan, hscan, htenant, Nat.zero_le _⟩
  | _ => exact absurd rfl hne

/-- `SCAN` returns the keys of its slot that are in the cache. -/
theorem Turn.deletes (h : Turn s req phase s' phase') (hclears : req.clears phase key) :
    req.clears phase' key ∨ s'.cache.lookup key = none := by
  cases h with
  | quiet hquiet | commitUser hquiet | commitTenant hquiet => exact absurd hclears (hquiet key)
  | fill =>
    exact absurd hclears (not_clears (by simp) (by simp) (by simp) _ key)
  | @delete _ deleted _ hkey =>
    right
    rcases hclears with ⟨-, hkey'⟩ | ⟨_, _, -, hnone⟩
    · obtain rfl := Option.some.inj (hkey.symm.trans hkey')
      exact AList.lookup_erase _ _
    · exact hnone.elim
  | @scan _ tenantId scan cursor hscan =>
    rcases hclears with ⟨hphase, -⟩ | ⟨tenantId', scan', hscan', htenant, hcursor⟩
    · cases hphase
    obtain ⟨rfl, rfl⟩ := Prod.mk.inj (Option.some.inj (hscan.symm.trans hscan'))
    -- the slot of the key is this one or comes later
    rcases Nat.eq_or_lt_of_le hcursor with hslot | hlater
    · by_cases hcached : key ∈ s.cache
      · left
        refine .inr ⟨tenantId, scan, hscan, htenant, .inl (List.mem_filter.mpr ⟨?_, ?_⟩)⟩
        · exact AList.mem_keys.mpr hcached
        · exact decide_eq_true ⟨htenant, hslot.symm⟩
      · exact .inr (AList.lookup_eq_none.mpr hcached)
    · exact .inl (.inr ⟨tenantId, scan, hscan, htenant, .inr hlater⟩)
  | @remove _ tenantId scan keys cursor hscan =>
    rcases hclears with ⟨hphase, -⟩ | ⟨tenantId', scan', hscan', htenant, hkey⟩
    · cases hphase
    obtain ⟨rfl, rfl⟩ := Prod.mk.inj (Option.some.inj (hscan.symm.trans hscan'))
    by_cases hdeleted : key ∈ keys
    · right
      rw [AList.lookup_foldl_erase, if_pos hdeleted]
    · -- the key is in a later slot, so this slot is not the last one
      have hlater : cursor < scan.slot key := hkey.resolve_left hdeleted
      have hnext : cursor + 1 < scan.slots := by omega
      left
      rw [Scan.next, if_pos hnext]
      exact .inr ⟨tenantId, scan, hscan, htenant, hlater⟩

/-- Changes announce the entries they touch, and delete them. -/
theorem lawful : cacheAside.Lawful fun s => s.db.SameTenant where
  keeps {req s phase} hs := (turn_advance req s phase).sameTenant hs
  announces {req s phase _} hs hne := (turn_advance req s phase).announces hs hne
  deletes {req s phase _} _ hclears := (turn_advance req s phase).deletes hclears

/-! ### What readers write -/

/-- A reader writes what is granted at that moment, unless the entry will still be deleted. -/
def FillsCurrent (requests : List Request) (c : Interleaved Store Phase) : Request → Phase → Prop
  | .getUserPermissions userId tenantId, .filling result =>
    result = c.store.db.grants ⟨tenantId, userId⟩ ∨
      cacheAside.Pending requests c ⟨tenantId, userId⟩
  | _, _ => True

theorem Db.permissionsOf_nil (db : Db) (tenantId : Uuid) : db.permissionsOf tenantId [] = [] := by
  simp [permissionsOf]

/-- What a reader has loaded is what is granted. -/
def Loaded (db : Db) (key : CacheKey) : Phase → Prop
  | .loadingPermissions roleIds => db.permissionsOf key.tenantId roleIds = db.grants key
  | .filling result => result = db.grants key
  | _ => True

/-- Between the two statements of its load, and before it sets the entry. -/
def Phase.loads : Phase → Bool
  | .loadingPermissions _ | .filling _ => true
  | _ => false

/-- A turn that does not commit a change of the entry. -/
theorem Turn.loaded {read : Phase} (h : Turn s req phase s' phase') (hs : s.db.SameTenant)
    (hquiet : ¬ req.clears phase key → ¬ req.clears phase' key) (hread : Loaded s.db key read) :
    Loaded s'.db key read := by
  have hsame {db : Db} (hgrants : db.grants key = s.db.grants key)
      (hrows : ∀ roleIds, db.permissionsOf key.tenantId roleIds =
        s.db.permissionsOf key.tenantId roleIds) : Loaded db key read := by
    cases read with
    | loadingPermissions roleIds => exact (hrows roleIds).trans (hread.trans hgrants.symm)
    | filling result => exact hread.trans hgrants.symm
    | _ => trivial
  cases h with
  | @commitUser _ _ _ changed hclears hkey hgrants hrows =>
    refine hsame (hgrants key ?_) (hrows key.tenantId)
    rintro rfl
    exact hquiet (hclears key) (.inl ⟨rfl, hkey⟩)
  | @commitTenant _ _ _ tenantId scan hclears hscan hgrants hrows =>
    have hne : key.tenantId ≠ tenantId := fun htenant =>
      hquiet (hclears key) (.inr ⟨tenantId, scan, hscan, htenant, Nat.zero_le _⟩)
    exact hsame (hgrants hs key hne) (hrows hs _ hne)
  | _ => exact hread

theorem arrived_not_loads :
    (advanceGetUserPermissions userId tenantId s .arrived).2.loads = false := by
  unfold advanceGetUserPermissions
  cases s.cache.lookup ⟨tenantId, userId⟩ <;> rfl

/-- The turns of a reader itself. -/
theorem loaded_advance (h : Loaded s.db ⟨tenantId, userId⟩ phase)
    (hloads : (advanceGetUserPermissions userId tenantId s phase).2.loads = true) :
    (phase = .loadingRoles ∨ phase.loads = true) ∧
      Loaded (advanceGetUserPermissions userId tenantId s phase).1.db ⟨tenantId, userId⟩
        (advanceGetUserPermissions userId tenantId s phase).2 := by
  cases phase with
  | arrived => exact absurd hloads (by simp [arrived_not_loads])
  | loadingRoles =>
    refine ⟨.inl rfl, ?_⟩
    simp only [advanceGetUserPermissions]
    split_ifs with hroles
    · rw [Loaded, Db.grants, hroles, Db.permissionsOf_nil]
    · rfl
  | loadingPermissions roleIds => exact ⟨.inr rfl, h⟩
  | _ => cases hloads

variable {schedule : List ℕ} {i k : ℕ}

theorem sameTenant_before (hs : s.db.SameTenant) (hk : k ≤ schedule.length) :
    (before requests s schedule k).store.db.SameTenant := by
  have hstart : (before requests s schedule 0).store.db.SameTenant := hs
  refine Interleaved.stateBefore_induction
    (P := fun _ (c : Interleaved Store Phase) => c.store.db.SameTenant) hstart
    (fun k i req phase _ _ _ _ hc => ?_) (fun _ _ _ _ hc => hc) (Nat.zero_le k) hk
  exact (turn_advance req _ phase).sameTenant hc

/-- Where the request of a turn is after it. -/
theorem phase_after (hi : schedule[k]? = some i) (hreq : requests[i]? = some req)
    (hphase : (before requests s schedule k).phases[i]? = some phase) :
    (before requests s schedule (k + 1)).phases[i]? =
      some (advance req (before requests s schedule k).store phase).2 := by
  rw [before, Interleaved.stateBefore_succ hi, Interleaved.step]
  simp only [hreq, hphase]
  rw [List.getElem?_set_self', hphase]
  rfl

theorem willDelete_iff {c : Interleaved Store Phase} {j : ℕ} (hreq : requests[j]? = some req)
    (hphase : c.phases[j]? = some phase) :
    willDelete requests c j key = true ↔ req.clears phase key := by
  simp [willDelete, hreq, hphase]

/-- A reader that has loaded, with the turn at which it has begun: what it has loaded is granted,
or a change of the entry has been committed since. -/
def LoadedSince (requests : List Request) (s : Store) (schedule : List ℕ) (key : CacheKey)
    (i k : ℕ) (c : Interleaved Store Phase) : Prop :=
  ∀ phase, c.phases[i]? = some phase → phase.loads = true →
    ∃ a < k, loadsAt requests s schedule i a = true ∧ (Loaded c.store.db key phase ∨
      ∃ b < k, a < b ∧ ∃ j, changedAt requests s schedule key b = some j)

theorem loadedSince_before (hs : s.db.SameTenant)
    (hreq : requests[i]? = some (.getUserPermissions userId tenantId))
    (hk : k ≤ schedule.length) : LoadedSince requests s schedule ⟨tenantId, userId⟩ i k
      (before requests s schedule k) := by
  -- a load goes on, unless a change that is still to delete the entry has been committed
  have hlater {k : ℕ} {phase phase' : Phase} {db db' : Db} (hloaded : Loaded db ⟨tenantId, userId⟩
      phase → Loaded db' ⟨tenantId, userId⟩ phase')
      (h : ∃ a < k, loadsAt requests s schedule i a = true ∧
        (Loaded db ⟨tenantId, userId⟩ phase ∨
          ∃ b < k, a < b ∧ ∃ j, changedAt requests s schedule ⟨tenantId, userId⟩ b = some j)) :
      ∃ a < k + 1, loadsAt requests s schedule i a = true ∧
        (Loaded db' ⟨tenantId, userId⟩ phase' ∨
          ∃ b < k + 1, a < b ∧ ∃ j, changedAt requests s schedule ⟨tenantId, userId⟩ b =
            some j) := by
    obtain ⟨a, hak, ha, hcases⟩ := h
    refine ⟨a, Nat.lt_succ_of_lt hak, ha, hcases.imp hloaded ?_⟩
    rintro ⟨b, hbk, hab, hj⟩
    exact ⟨b, Nat.lt_succ_of_lt hbk, hab, hj⟩
  refine Interleaved.stateBefore_induction (P := LoadedSince requests s schedule
    ⟨tenantId, userId⟩ i) (fun phase hphase hloads => ?_)
    (fun k j req phase _ hj hreqj hphase hc phase' hphase' hloads => ?_)
    (fun k j _ _ hc phase hphase hloads => hlater id (hc phase hphase hloads)) (Nat.zero_le k) hk
  · -- at the start every request has only arrived
    rw [Interleaved.stateBefore, List.take_zero] at hphase
    obtain ⟨_, -, rfl⟩ := List.mem_map.mp (List.mem_of_getElem? hphase)
    cases hloads
  · rcases Interleaved.getElem?_after hphase' with ⟨rfl, rfl⟩ | ⟨hne, hother⟩
    · -- a turn of the reader itself
      obtain rfl := Option.some.inj (hreq.symm.trans hreqj)
      by_cases hfirst : phase = .loadingRoles
      · -- the load begins here
        subst hfirst
        refine ⟨k, Nat.lt_succ_self k, decide_eq_true ⟨hj, hphase⟩, .inl ?_⟩
        have hnone : Loaded (before requests s schedule k).store.db ⟨tenantId, userId⟩
            .loadingRoles := trivial
        exact (loaded_advance hnone hloads).2
      · have hloads' : phase.loads = true := by
          cases phase with
          | arrived => exact absurd hloads (by simp [advance, arrived_not_loads])
          | loadingRoles => exact absurd rfl hfirst
          | loadingPermissions | filling => rfl
          | _ => cases hloads
        exact hlater (fun h => (loaded_advance h hloads).2) (hc phase hphase hloads')
    · -- a turn of another request
      obtain ⟨a, hak, ha, hcases⟩ := hc phase' hother hloads
      by_cases hquiet : ¬ req.clears phase ⟨tenantId, userId⟩ →
          ¬ req.clears (advance req (before requests s schedule k).store phase).2
            ⟨tenantId, userId⟩
      · exact hlater (fun h => (turn_advance req _ phase).loaded
          (sameTenant_before hs (List.getElem?_eq_some_iff.mp hj).1.le) hquiet h)
          ⟨a, hak, ha, hcases⟩
      · -- the turn commits a change of the entry
        push Not at hquiet
        refine ⟨a, Nat.lt_succ_of_lt hak, ha, .inr ⟨k, Nat.lt_succ_self k, hak, j, ?_⟩⟩
        have hafter := phase_after hj hreqj hphase
        refine Option.filter_eq_some_iff.mpr ⟨hj, ?_⟩
        rw [Bool.and_eq_true, (willDelete_iff hreqj hafter).mpr hquiet.2]
        refine ⟨?_, rfl⟩
        rw [Bool.not_eq_true', Bool.eq_false_iff, ne_eq, willDelete_iff hreqj hphase]
        exact hquiet.1

/-- **What readers write.** Where entries are set in time, a reader writes what is granted, or
the entry will still be deleted. -/
theorem fillsCurrent_of_setsInTime (hs : s.db.SameTenant)
    (hsets : SetsInTime requests s schedule) (hi : schedule[k]? = some i)
    (hreq : requests[i]? = some req)
    (hphase : (before requests s schedule k).phases[i]? = some phase) :
    FillsCurrent requests (before requests s schedule k) req phase := by
  cases req with
  | getUserPermissions userId tenantId =>
    cases phase with
    | filling result =>
      have hk := (List.getElem?_eq_some_iff.mp hi).1
      obtain ⟨a, hak, ha, hloaded | ⟨b, hbk, hab, j, hj⟩⟩ :=
        loadedSince_before hs hreq hk.le _ hphase rfl
      · exact .inl hloaded
      · have hset : setAt requests s schedule k = some (i, ⟨tenantId, userId⟩) := by
          simp [setAt, hi, hreq, hphase, Request.sets]
        have hwill := hsets k hk _ hset a hak ha b hbk hab j hj
        obtain ⟨req, hreq', hwill⟩ := (Option.any_eq_true _ _).mp hwill
        obtain ⟨phase, hphase', hclears⟩ := (Option.any_eq_true _ _).mp hwill
        exact .inr ⟨j, req, phase, hreq', hphase', by
          exact of_decide_eq_true (p := req.clears phase _) hclears⟩
    | _ => trivial
  | _ => trivial

/-- Only readers write entries. -/
theorem Turn.cached (h : Turn s req phase s' phase') {v : List PermissionView}
    (hv : s'.cache.lookup key = some v) :
    s.cache.lookup key = some v ∨
      req = .getUserPermissions key.userId key.tenantId ∧ phase = .filling v := by
  cases h with
  | quiet | commitUser | commitTenant | scan => exact .inl hv
  | fill =>
    rcases AList.lookup_insert_eq_some.mp hv with ⟨rfl, rfl⟩ | ⟨-, hv⟩
    · exact .inr ⟨rfl, rfl⟩
    · exact .inl hv
  | delete => exact .inl (AList.lookup_erase_eq_some.mp hv).2
  | remove =>
    rw [AList.lookup_foldl_erase] at hv
    split_ifs at hv
    exact .inl hv

theorem FillsCurrent.fillsWell (h : FillsCurrent requests c req phase) :
    cacheAside.FillsWell requests c req phase := by
  intro key v hv
  rcases (turn_advance req c.store phase).cached hv with hold | ⟨rfl, rfl⟩
  · exact .inl hold
  · exact .inr h

/-- Every entry is what is granted, or it will be deleted. -/
theorem coherent_of_reaches (hs : s.db.SameTenant)
    (hcache : ∀ key v, s.cache.lookup key = some v → v = s.db.grants key)
    (h : Interleaved.Reaches advance requests (FillsCurrent requests) (start requests s) c) :
    c.store.db.SameTenant ∧ cacheAside.Coherent requests c := by
  have hstart : cacheAside.Coherent requests (start requests s) :=
    fun key v hv => .inl (hcache key v hv)
  exact CacheAside.reaches_coherent lawful (fun _ _ _ hturn => hturn.fillsWell) hs hstart h

/-! ### Readers after the changes -/

/-- A change that has committed and has not deleted everything yet. -/
def Phase.invalidates : Phase → Bool
  | .deleting | .scanning _ | .removing _ _ => true
  | _ => false

theorem Request.clears.invalidates (h : req.clears phase key) : phase.invalidates = true := by
  cases hphase : phase with
  | deleting | scanning | removing => rfl
  | _ => exact absurd h (not_clears (by simp [hphase]) (by simp [hphase]) (by simp [hphase]) _ _)

/-- What nobody commits stays. -/
theorem Turn.db_eq (h : Turn s req phase s' phase') (hphase : phase.invalidates = false)
    (hphase' : phase'.invalidates = false) : s'.db = s.db := by
  cases h with
  | quiet | fill => rfl
  | commitUser | commitTenant => cases hphase'
  | delete | scan | remove => cases hphase

/-- No change is between its commit and its last deletion, and the entries are right. -/
structure Settled (db : Db) (c : Interleaved Store Phase) : Prop where
  db_eq : c.store.db = db
  idle : ∀ (i : ℕ) (phase : Phase), c.phases[i]? = some phase → phase.invalidates = false
  current : ∀ (key : CacheKey) (v : List PermissionView),
    c.store.cache.lookup key = some v → v = db.grants key

theorem Settled.not_pending (hc : Settled db c) : ¬ cacheAside.Pending requests c key := by
  rintro ⟨i, req, phase, -, hphase, hclears⟩
  have hbusy := Request.clears.invalidates hclears
  rw [hc.idle i phase hphase] at hbusy
  cases hbusy

/-- A turn that commits nothing. -/
theorem Settled.after (hc : Settled db c) (hphase : c.phases[i]? = some phase)
    (hfills : FillsCurrent requests c req phase)
    (hidle : (advance req c.store phase).2.invalidates = false) :
    Settled db (c.after advance i req phase) := by
  have hdb := (turn_advance req c.store phase).db_eq (hc.idle i phase hphase) hidle
  refine ⟨hdb.trans hc.db_eq, ?_, ?_⟩
  · intro j phase' hphase'
    rcases Interleaved.getElem?_after hphase' with ⟨-, rfl⟩ | ⟨-, hother⟩
    · exact hidle
    · exact hc.idle j phase' hother
  · intro key v hv
    rcases hfills.fillsWell key v hv with hold | htruth | hpending
    · exact hc.current key v hold
    · rw [← hc.db_eq]
      exact htruth
    · exact absurd hpending hc.not_pending

/-- What a reader knows that has started after the changes. -/
def Reads (db : Db) (key : CacheKey) : Phase → Prop
  | .arrived | .loadingRoles => True
  | .loadingPermissions roleIds => roleIds = db.roleIdsOf key.userId key.tenantId
  | .filling result | .done (.ok (.permissions result)) => result = db.grants key
  | _ => False

theorem Settled.reads_after (hc : Settled db c) (h : Reads db ⟨tenantId, userId⟩ phase) :
    Reads db ⟨tenantId, userId⟩
      (advance (.getUserPermissions userId tenantId) c.store phase).2 := by
  simp only [advance]
  cases phase with
  | arrived =>
    unfold advanceGetUserPermissions
    cases hcached : c.store.cache.lookup ⟨tenantId, userId⟩ with
    | none => trivial
    | some v => exact hc.current _ _ hcached
  | loadingRoles =>
    simp only [advanceGetUserPermissions, hc.db_eq]
    split_ifs with hroles
    · rw [Reads, Db.grants, hroles, Db.permissionsOf_nil]
    · rfl
  | loadingPermissions roleIds =>
    obtain rfl : roleIds = db.roleIdsOf userId tenantId := h
    rw [advanceGetUserPermissions, hc.db_eq]
    rfl
  | _ => exact h

/-- Entries that nobody will delete are what is granted. -/
theorem settled_of_coherent (hc : cacheAside.Coherent requests c)
    (hidle : ∀ phase ∈ c.phases, phase.invalidates = false) : Settled c.store.db c := by
  have hidle' (i : ℕ) (phase : Phase) (hphase : c.phases[i]? = some phase) :
      phase.invalidates = false :=
    hidle phase (List.mem_of_getElem? hphase)
  refine ⟨rfl, hidle', fun key v hv => hc.current ?_ hv⟩
  rintro ⟨i, req, phase, -, hphase, hclears⟩
  have hbusy := Request.clears.invalidates hclears
  rw [hidle' i phase hphase] at hbusy
  cases hbusy

/-- The phases after a turn, where no change is being invalidated then. -/
theorem invalidates_after (hi : schedule[k]? = some i) (hreq : requests[i]? = some req)
    (hphase : (before requests s schedule k).phases[i]? = some phase)
    (hidle : ∀ phase ∈ (before requests s schedule (k + 1)).phases, phase.invalidates = false) :
    (advance req (before requests s schedule k).store phase).2.invalidates = false :=
  hidle _ (List.mem_of_getElem? (phase_after hi hreq hphase))

/-- **Changes take effect.** Where no change commits and deletes an entry between the load and
the set of a reader, a reader that arrives at the turn `l`, when no change is being
invalidated, and meets no further commit, answers what the database grants. -/
theorem getUserPermissions_current {l : ℕ} {result : Except Failure Response}
    (hs : s.db.SameTenant)
    (hcache : ∀ key v, s.cache.lookup key = some v → v = s.db.grants key)
    (hsets : SetsInTime requests s schedule) (hl : l ≤ schedule.length)
    (hidle : ∀ k, l ≤ k → k ≤ schedule.length →
      ∀ phase ∈ (before requests s schedule k).phases, phase.invalidates = false)
    (hreq : requests[i]? = some (.getUserPermissions userId tenantId))
    (harrived : (before requests s schedule l).phases[i]? = some .arrived)
    (hdone : (Interleaved.run advance requests (start requests s) schedule).phases[i]? =
      some (.done result)) :
    result = .ok (.permissions ((Interleaved.run advance requests (start requests s)
      schedule).store.db.grants ⟨tenantId, userId⟩)) := by
  have hreaches : Interleaved.Reaches advance requests (FillsCurrent requests)
      (start requests s) (before requests s schedule l) :=
    Interleaved.reaches_stateBefore
      (fun k j req phase hj hreqj hphase => fillsCurrent_of_setsInTime hs hsets hj hreqj hphase) hl
  have hcoherent := (coherent_of_reaches hs hcache hreaches).2
  have hsettled := settled_of_coherent hcoherent (hidle l (Nat.le_refl l) hl)
  let P (_ : ℕ) (c : Interleaved Store Phase) : Prop :=
    Settled (before requests s schedule l).store.db c ∧ ∀ phase, c.phases[i]? = some phase →
      Reads (before requests s schedule l).store.db ⟨tenantId, userId⟩ phase
  -- the reader knows nothing that is not in the database any more
  have hend : P schedule.length (before requests s schedule schedule.length) := by
    refine Interleaved.stateBefore_induction (P := P) ⟨hsettled, fun phase hphase => ?_⟩
      (fun k j req phase hlk hj hreqj hphase hP => ?_) (fun _ _ _ _ hP => hP) hl
      (Nat.le_refl _)
    · obtain rfl := Option.some.inj (harrived.symm.trans hphase)
      trivial
    · obtain ⟨hc, hknown⟩ := hP
      have hnext := (List.getElem?_eq_some_iff.mp hj).1
      have hquiet := invalidates_after hj hreqj hphase (hidle (k + 1) (Nat.le_succ_of_le hlk) hnext)
      refine ⟨hc.after hphase (fillsCurrent_of_setsInTime hs hsets hj hreqj hphase) hquiet,
        fun phase' hphase' => ?_⟩
      rcases Interleaved.getElem?_after hphase' with ⟨rfl, rfl⟩ | ⟨-, hother⟩
      · obtain rfl := Option.some.inj (hreq.symm.trans hreqj)
        exact hc.reads_after (hknown phase hphase)
      · exact hknown phase' hother
  rw [before, Interleaved.stateBefore_length] at hend
  obtain ⟨hc, hreads⟩ := hend
  rw [hc.db_eq]
  have hanswer := hreads _ hdone
  match result, hanswer with
  | .ok (.permissions v), hanswer => exact congrArg (Except.ok ∘ Response.permissions) hanswer

/-! ### A revoked role -/

namespace Sample

def user : Accounts.User :=
  { tenantId := "t", email := "ada@shop.test", passwordHash := "h", firstName := "Ada",
    lastName := "B", status := .active, emailVerified := true }

/-- A user with one role, which has one permission. -/
def shop : Db where
  users := (∅ : Table Uuid Accounts.User).insert "u" user
  memberships := (∅ : Table (Uuid × Uuid) Accounts.MembershipStatus).insert ("t", "u") .active
  roles := (∅ : Table Uuid Accounts.Role).insert "r" ⟨"t", "Cashier"⟩
  userRoles := [⟨"t", "u", "r"⟩]
  permissions := (∅ : Table Uuid Permission).insert "p"
    { tenantId := "t", name := "refund:create", resource := "refund", action := "create" }
  rolePermissions := [⟨"t", "r", "p"⟩]

theorem shop_sameTenant : shop.SameTenant := by
  intro rp hrp
  obtain rfl := List.mem_singleton.mp hrp
  exact ⟨⟨"t", "Cashier"⟩, rfl, rfl⟩

/-- A reader, the revocation, and another reader. -/
def threeRequests : List Request :=
  [.getUserPermissions "u" "t", .removeRole "u" "t" "r", .getUserPermissions "u" "t"]

def run (schedule : List ℕ) : Interleaved Store Phase :=
  Interleaved.run advance threeRequests (start threeRequests ⟨shop, ∅⟩) schedule

end Sample

open Permissions.Sample

/-- The role is revoked while the first reader has loaded it, but the entry is deleted after the
reader has set it; the second reader then answers that nothing is granted. -/
theorem getUserPermissions_current_revoked :
    (run [0, 0, 0, 1, 1, 1, 0, 1, 2, 2, 2]).phases[2]? =
        some (.done (.ok (.permissions []))) ∧
      (.ok (.permissions []) : Except Failure Response) =
        .ok (.permissions ((run [0, 0, 0, 1, 1, 1, 0, 1, 2, 2, 2]).store.db.grants
          ⟨"t", "u"⟩)) := by
  have hdone : (run [0, 0, 0, 1, 1, 1, 0, 1, 2, 2, 2]).phases[2]? =
      some (.done (.ok (.permissions []))) := by
    decide +kernel
  have hsets : SetsInTime threeRequests ⟨shop, ∅⟩ [0, 0, 0, 1, 1, 1, 0, 1, 2, 2, 2] := by
    decide +kernel
  refine ⟨hdone, getUserPermissions_current (l := 8) shop_sameTenant (fun key v hv => ?_) hsets
    (by decide) (fun k hlk hk => ?_) rfl (by decide +kernel) hdone⟩
  · cases hv
  · have hcases : k = 8 ∨ k = 9 ∨ k = 10 ∨ k = 11 := by
      have hk' : k ≤ 11 := hk
      omega
    rcases hcases with rfl | rfl | rfl | rfl <;> decide +kernel

/-- The revocation has deleted the entry before the reader sets it. -/
example : ¬ SetsInTime threeRequests ⟨shop, ∅⟩ [0, 0, 0, 1, 1, 1, 1, 0, 2] := by decide +kernel

/-- The first reader has read before the role is revoked, and writes its entry after the
entry was deleted: the second one still answers the permission that nobody is granted. -/
theorem getUserPermissions_stale :
    (run [0, 0, 0, 1, 1, 1, 1, 0]).phases =
        [.done (.ok (.permissions [⟨"p", "refund:create", "refund", "create", none⟩])),
          .done (.ok .changed), .arrived] ∧
      (run [0, 0, 0, 1, 1, 1, 1, 0]).store.db.grants ⟨"t", "u"⟩ = [] ∧
      (run [0, 0, 0, 1, 1, 1, 1, 0, 2]).phases[2]? =
        some (.done (.ok (.permissions [⟨"p", "refund:create", "refund", "create", none⟩]))) ∧
      (run [0, 0, 0, 1, 1, 1, 1, 0, 2]).store.db.grants ⟨"t", "u"⟩ = [] := by
  decide +kernel

end PulseOps.Permissions
