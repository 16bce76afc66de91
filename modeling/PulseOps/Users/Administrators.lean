import PulseOps.Model.Users
import PulseOps.ReadCommitted.Moments
import PulseOps.ReadCommitted.Tables

/-!
# The administrators of a tenant

`removeRole` keeps the last holder of the admin role from losing it, but counts holders who
are disabled, and counts before it deletes. `update` and `delete` do not look at the role at
all. A tenant that has an administrator keeps one in a run where these pass the test of
`removeRole` as well, where nobody takes the role away between the count and the commit of
`removeRole`, and where the holders that are counted are not disabled.

## Main definitions

* `isAdministrator` — an active user with an active membership who holds the admin role.
* `Edit.takes` — an edit that deletes an assignment or disables its user.
* `SeveralHold`, `CountsStand`, `OthersActive` — the three conditions on a run.
* `Fits` — what a request may write.

## Main results

* `restsOn_removeRole` — what `removeRole` deletes rests on its count.
* `nodup_of_serves` — no role is assigned twice.
* `counted_of_written` — what `removeRole` has counted is still there when it commits.
* `administrators_kept` — a tenant that has an administrator keeps one.
-/

set_option autoImplicit false

open ReadCommitted Program Contract

namespace PulseOps.Accounts

open UserService

/-- The role is the admin role of the tenant. -/
def isAdminRole (tenantId roleId : Uuid) (s : Db) : Bool :=
  (s.roles.lookup roleId).any fun role => role.tenantId = tenantId ∧ role.name = tenantAdminRole

/-- An active user with an active membership of the tenant who holds its admin role. -/
def isAdministrator (tenantId userId : Uuid) (s : Db) : Bool :=
  (s.users.lookup userId).any (·.status = .active) ∧
    s.memberships.lookup (tenantId, userId) = some .active ∧
    s.userRoles.any fun r =>
      r.tenantId = tenantId ∧ r.userId = userId ∧ isAdminRole tenantId r.roleId s = true

/-- The tenant has an administrator. -/
def HasAdministrator (tenantId : Uuid) (s : Db) : Prop :=
  ∃ userId, isAdministrator tenantId userId s = true

/-! ### Who takes the role away -/

/-- An active user with an active membership. -/
def isActiveMember (tenantId userId : Uuid) (s : Db) : Bool :=
  (s.users.lookup userId).any (·.status = .active) ∧
    s.memberships.lookup (tenantId, userId) = some .active

/-- The assignments of the admin role of the tenant. -/
def adminRows (tenantId : Uuid) (s : Db) : List UserRole :=
  s.userRoles.filter fun r => r.tenantId = tenantId ∧ isAdminRole tenantId r.roleId s = true

/-- Whether an edit deletes the assignment, by itself or with its user. -/
def Edit.deletesRow (row : UserRole) : Edit → Bool
  | .userDelete id => id = row.userId
  | .userRoleDelete r => r = row
  | _ => false

/-- Whether an edit deletes the assignment or disables its user. -/
def Edit.takes (row : UserRole) : Edit → Bool
  | .userUpdate id user => id = row.userId ∧ user.status ≠ .active
  | e => e.deletesRow row

/-- Whether an edit is the `deleteMany` of `removeRole`. -/
def Edit.removesRole : Edit → Bool
  | .userRoleDelete _ => true
  | _ => false

/-! ### Conditions on a run -/

/-- The requests as a system to be looked at turn by turn. -/
abbrev userMachine : Machine accounts UserPoint (Service accounts UserPoint) (Turn accounts) :=
  Service.machine code {}

abbrev userStart (s₀ : Db) (requests : List UserRequest) : Service accounts UserPoint :=
  .start s₀ (requests.map .request)

/-- What the turn `m` commits, with the state it commits to. -/
def commitOn (s₀ : Db) (requests : List UserRequest) (us : List (Turn accounts)) (m : ℕ) :
    Option (Db × Commit accounts) :=
  (userMachine.committedAt (userStart s₀ requests) us m).bind fun s =>
    (userMachine.commitAt (userStart s₀ requests) us m).map fun z => (s, z)

/-- The statement of `removeRole` that counts the holders: it has found the user and the role
before. -/
def countStatement : ℕ := 2

/-- `update` and `delete` pass the test of `removeRole`: when one of them disables or deletes a
user with the admin role, the role has several holders. -/
def SeveralHold (tenantId : Uuid) (s₀ : Db) (requests : List UserRequest)
    (us : List (Turn accounts)) : Prop :=
  ∀ m < us.length, ∀ w ∈ commitOn s₀ requests us m, ∀ row ∈ adminRows tenantId w.1,
    (w.2.edits.any fun e => e.takes row && !e.removesRole) = true →
      2 ≤ UserRepository.countHolders tenantId row.roleId w.1

/-- Whether a commit deletes an assignment of the role. -/
def deletesHolder (tenantId roleId : Uuid) (v : Db × Commit accounts) : Bool :=
  (adminRows tenantId v.1).any fun row =>
    row.roleId = roleId ∧ v.2.edits.any (·.deletesRow row) = true

/-- Between the turns `k` and `m` nobody deletes an assignment of the role. -/
def NobodyDeletes (tenantId roleId : Uuid) (s₀ : Db) (requests : List UserRequest)
    (us : List (Turn accounts)) (k m : ℕ) : Prop :=
  ∀ l < m, k < l → ∀ v ∈ commitOn s₀ requests us l, deletesHolder tenantId roleId v = false

instance (tenantId roleId : Uuid) (s₀ : Db) (requests : List UserRequest)
    (us : List (Turn accounts)) (k m : ℕ) :
    Decidable (NobodyDeletes tenantId roleId s₀ requests us k m) := by
  unfold NobodyDeletes
  infer_instance

/-- What `removeRole` has counted still counts: between its count and its commit nobody deletes
an assignment of the role. -/
def CountsStand (tenantId : Uuid) (s₀ : Db) (requests : List UserRequest)
    (us : List (Turn accounts)) : Prop :=
  ∀ m < us.length, ∀ w ∈ commitOn s₀ requests us m, ∀ row ∈ adminRows tenantId w.1,
    .userRoleDelete row ∈ w.2.edits →
      ∀ k ∈ (userMachine.turns us w.2.session m)[countStatement]?,
        NobodyDeletes tenantId row.roleId s₀ requests us k m

/-- Whether everybody else who holds the role of an assignment is an active member. -/
def othersActive (tenantId : Uuid) (row : UserRole) (s : Db) : Bool :=
  (adminRows tenantId s).all fun other =>
    other.roleId = row.roleId ∧ other.userId ≠ row.userId →
      isActiveMember tenantId other.userId s = true

/-- Nobody is counted who is disabled: when a holder of the admin role is deleted or disabled or
loses it, the other holders are active users with active memberships. -/
def OthersActive (tenantId : Uuid) (s₀ : Db) (requests : List UserRequest)
    (us : List (Turn accounts)) : Prop :=
  ∀ m < us.length, ∀ w ∈ commitOn s₀ requests us m, ∀ row ∈ adminRows tenantId w.1,
    w.2.edits.any (·.takes row) = true → othersActive tenantId row w.1 = true

/-- The three conditions. -/
structure Careful (tenantId : Uuid) (s₀ : Db) (requests : List UserRequest)
    (us : List (Turn accounts)) : Prop where
  several : SeveralHold tenantId s₀ requests us
  counts : CountsStand tenantId s₀ requests us
  active : OthersActive tenantId s₀ requests us

variable {s : Db} {e : Edit} {tenantId userId : Uuid}

/-- The parts of `isAdministrator`. -/
theorem isAdministrator_iff : isAdministrator tenantId userId s = true ↔
    (∃ user, s.users.lookup userId = some user ∧ user.status = .active) ∧
      s.memberships.lookup (tenantId, userId) = some .active ∧
      ∃ roleId, ⟨tenantId, userId, roleId⟩ ∈ s.userRoles ∧
        isAdminRole tenantId roleId s = true := by
  unfold isAdministrator
  simp only [decide_eq_true_eq, List.any_eq_true]
  refine and_congr ?_ (and_congr Iff.rfl ?_)
  · cases s.users.lookup userId <;> simp
  · constructor
    · rintro ⟨r, hr, rfl, rfl, hadmin⟩
      exact ⟨r.roleId, hr, hadmin⟩
    · rintro ⟨roleId, hr, hadmin⟩
      exact ⟨_, hr, rfl, rfl, hadmin⟩

/-- The assignments of the admin role. -/
theorem mem_adminRows {row : UserRole} : row ∈ adminRows tenantId s ↔
    row ∈ s.userRoles ∧ row.tenantId = tenantId ∧ isAdminRole tenantId row.roleId s = true := by
  simp [adminRows]

/-- An administrator is an active member with an assignment of the admin role. -/
theorem isAdministrator_iff_row : isAdministrator tenantId userId s = true ↔
    isActiveMember tenantId userId s = true ∧
      ∃ row ∈ adminRows tenantId s, row.userId = userId := by
  simp only [isAdministrator, isActiveMember, decide_eq_true_eq, and_assoc]
  refine and_congr_right fun _ => and_congr_right fun _ => ?_
  simp only [List.any_eq_true, decide_eq_true_eq, mem_adminRows]
  constructor
  · rintro ⟨r, hr, htenant, huser, hadmin⟩
    exact ⟨r, ⟨hr, htenant, hadmin⟩, huser⟩
  · rintro ⟨r, ⟨hr, htenant, hadmin⟩, huser⟩
    exact ⟨r, hr, htenant, huser, hadmin⟩

/-! ### One edit -/

theorem isAdminRole_apply (tenantId roleId : Uuid) (s : Db) (e : Edit) :
    isAdminRole tenantId roleId (s.apply e) = isAdminRole tenantId roleId s := by
  cases e <;> rfl

theorem Edit.deletesRow_of_takes {row : UserRole} (h : e.takes row = false) :
    e.deletesRow row = false := by
  cases e with
  | userUpdate => rfl
  | _ => exact h

/-- An edit takes the role away from one user only. -/
theorem Edit.takes_other {row other : UserRole} (h : e.takes row = true)
    (hne : other.userId ≠ row.userId) : e.takes other = false := by
  cases e with
  | userUpdate id user =>
    obtain ⟨rfl, -⟩ := of_decide_eq_true h
    exact decide_eq_false fun heq => hne heq.1.symm
  | userDelete id =>
    obtain rfl := of_decide_eq_true h
    exact decide_eq_false fun heq => hne heq.symm
  | userRoleDelete r =>
    obtain rfl := of_decide_eq_true h
    exact decide_eq_false fun heq => hne (congrArg UserRole.userId heq).symm
  | _ => cases h

/-- An assignment that an edit does not delete. -/
theorem mem_userRoles_apply {row : UserRole} (hrow : row ∈ s.userRoles)
    (he : e.deletesRow row = false) : row ∈ (s.apply e).userRoles := by
  cases e with
  | userDelete id =>
    refine List.mem_filter.mpr ⟨hrow, decide_eq_true ?_⟩
    rintro rfl
    simp [Edit.deletesRow] at he
  | userRolesInsert rows => exact List.mem_append_left _ hrow
  | userRoleDelete r =>
    refine List.mem_filter.mpr ⟨hrow, decide_eq_true ?_⟩
    rintro rfl
    simp [Edit.deletesRow] at he
  | _ => exact hrow

/-- An active member whom an edit neither deletes nor disables. -/
theorem isActiveMember_apply {row : UserRole}
    (h : isActiveMember tenantId row.userId s = true) (he : e.takes row = false) :
    isActiveMember tenantId row.userId (s.apply e) = true := by
  simp only [isActiveMember, decide_eq_true_eq] at h ⊢
  obtain ⟨hactive, hmember⟩ := h
  cases e with
  | userUpdate id user =>
    refine ⟨?_, hmember⟩
    by_cases hid : id = row.userId
    · subst hid
      simpa [Db.apply, Edit.takes] using he
    · simpa [Db.apply, AList.lookup_insert_ne (Ne.symm hid)] using hactive
  | userDelete id =>
    have hid : row.userId ≠ id := by
      rintro rfl
      simp [Edit.takes, Edit.deletesRow] at he
    refine ⟨?_, ?_⟩
    · simpa [Db.apply, Db.deleteUser, AList.lookup_erase_ne hid] using hactive
    · simpa [Db.apply, Db.deleteUser, AList.lookup_foldl_erase, hid] using hmember
  | _ => exact ⟨hactive, hmember⟩

/-- An administrator of whom an edit does not take the role is still one. -/
theorem isAdministrator_apply {row : UserRole}
    (hactive : isActiveMember tenantId row.userId s = true) (hrow : row ∈ adminRows tenantId s)
    (he : e.takes row = false) : isAdministrator tenantId row.userId (s.apply e) = true := by
  obtain ⟨hmem, htenant, hadmin⟩ := mem_adminRows.mp hrow
  refine isAdministrator_iff_row.mpr ⟨isActiveMember_apply hactive he, row, ?_, rfl⟩
  refine mem_adminRows.mpr ⟨mem_userRoles_apply hmem (Edit.deletesRow_of_takes he), htenant, ?_⟩
  rwa [isAdminRole_apply]

/-- While no assignment of the role is deleted, the number of holders does not fall. -/
theorem countHolders_apply {roleId : Uuid} (hadmin : isAdminRole tenantId roleId s = true)
    (he : ∀ row ∈ adminRows tenantId s, row.roleId = roleId → e.deletesRow row = false) :
    UserRepository.countHolders tenantId roleId s ≤
      UserRepository.countHolders tenantId roleId (s.apply e) := by
  have hkept : ∀ row ∈ s.userRoles, row.tenantId = tenantId ∧ row.roleId = roleId →
      e.deletesRow row = false := by
    rintro row hrow ⟨htenant, rfl⟩
    exact he row (mem_adminRows.mpr ⟨hrow, htenant, hadmin⟩) rfl
  -- what a deletion filters out is no assignment of the role
  have hfilter {p : UserRole → Bool} (hp : ∀ row ∈ s.userRoles,
      row.tenantId = tenantId ∧ row.roleId = roleId → p row = true) :
      (s.userRoles.filter p).filter (fun r => r.tenantId = tenantId ∧ r.roleId = roleId) =
        s.userRoles.filter fun r => r.tenantId = tenantId ∧ r.roleId = roleId := by
    rw [List.filter_filter]
    refine List.filter_congr fun row hrow => ?_
    by_cases hrole : row.tenantId = tenantId ∧ row.roleId = roleId
    · simp [hrole, hp row hrow hrole]
    · simp [hrole]
  unfold UserRepository.countHolders
  cases e with
  | userDelete id =>
    refine (congrArg List.length (hfilter fun row hrow hrole => ?_)).ge
    have hne := hkept row hrow hrole
    simp only [Edit.deletesRow, decide_eq_false_iff_not] at hne
    exact decide_eq_true (Ne.symm hne)
  | userRoleDelete r =>
    refine (congrArg List.length (hfilter fun row hrow hrole => ?_)).ge
    have hne := hkept row hrow hrole
    simp only [Edit.deletesRow, decide_eq_false_iff_not] at hne
    exact decide_eq_true (Ne.symm hne)
  | userRolesInsert rows =>
    change _ ≤ ((s.userRoles ++ rows).filter _).length
    rw [List.filter_append, List.length_append]
    exact Nat.le_add_right _ _
  | _ => exact le_refl _

/-- Of two holders, one is another one than a given user. -/
theorem exists_other_holder {roleId : Uuid} (hnodup : s.userRoles.Nodup)
    (hcount : 2 ≤ UserRepository.countHolders tenantId roleId s) (userId : Uuid) :
    ∃ row ∈ s.userRoles, row.tenantId = tenantId ∧ row.roleId = roleId ∧ row.userId ≠ userId := by
  by_contra hnone
  push Not at hnone
  -- otherwise every assignment of the role is the same row
  have hsame : s.userRoles.filter (fun r => r.tenantId = tenantId ∧ r.roleId = roleId) =
      List.replicate (UserRepository.countHolders tenantId roleId s)
        ⟨tenantId, userId, roleId⟩ := by
    refine List.eq_replicate_iff.mpr ⟨rfl, fun row hrow => ?_⟩
    obtain ⟨hmem, hrole⟩ := List.mem_filter.mp hrow
    obtain ⟨rfl, rfl⟩ := of_decide_eq_true hrole
    obtain rfl := hnone row hmem rfl rfl
    rfl
  have hone := List.nodup_replicate.mp (hsame ▸ hnodup.filter _)
  omega

/-! ### Every transaction -/

/-- What a request may write: assignments that are not there, and a deletion if that is what
it asks for. -/
structure Fits (pt : UserPoint) (s : Db) (e : Edit) : Prop where
  assigns : ∀ rows, e = .userRolesInsert rows → rows.Nodup ∧ ∀ x ∈ rows, x ∉ s.userRoles
  removes : ∀ x, e = .userRoleDelete x →
    pt = .request (.removeRole x.userId x.tenantId x.roleId)

variable {pt : UserPoint}

/-- An edit of another table. -/
theorem Fits.of_ne (hinsert : ∀ rows, e ≠ .userRolesInsert rows)
    (hdelete : ∀ x, e ≠ .userRoleDelete x) : Fits pt s e :=
  ⟨fun rows h => absurd h (hinsert rows), fun x h => absurd h (hdelete x)⟩

theorem fits_updateUser {change : User → User}
    (he : Statement.updateUser userId change s = .ok e) : Fits pt s e := by
  unfold Statement.updateUser Statement.updateRow at he
  split at he
  · cases he
  · obtain rfl := Except.ok.inj he
    exact .of_ne (fun _ => nofun) fun _ => nofun

theorem fits_deleteUser (he : Statement.deleteUser userId s = .ok e) : Fits pt s e := by
  unfold Statement.deleteUser at he
  split_ifs at he
  obtain rfl := Except.ok.inj he
  exact .of_ne (fun _ => nofun) fun _ => nofun

theorem fits_insertUserRoles {rows : List UserRole} (hrows : rows.Nodup)
    (he : Statement.insertUserRoles rows s = .ok e) : Fits pt s e := by
  unfold Statement.insertUserRoles at he
  split_ifs at he
  obtain rfl := Except.ok.inj he
  refine ⟨?_, nofun⟩
  rintro rows' ⟨⟩
  exact ⟨hrows.filter _, fun x hx => of_decide_eq_true (List.mem_filter.mp hx).2⟩

theorem fits_deleteUserRole {row : UserRole}
    (hpt : pt = .request (.removeRole row.userId row.tenantId row.roleId))
    (he : Statement.deleteUserRole row s = .ok e) : Fits pt s e := by
  unfold Statement.deleteUserRole at he
  split_ifs at he <;> obtain rfl := Except.ok.inj he
  · exact ⟨nofun, by rintro x ⟨⟩; exact hpt⟩
  · exact .of_ne (fun _ => nofun) fun _ => nofun

theorem once_deleteUserRole {β : Type} {userId tenantId roleId : Uuid}
    {f : UserRepository.RemovedRole → Sql β} (hf : ∀ r, (f r).ReadsOnly) :
    (UserRepository.deleteUserRole userId tenantId roleId >>= f).Once
      (Fits (.request (.removeRole userId tenantId roleId))) := by
  unfold UserRepository.deleteUserRole
  rw [bind_assoc]
  exact once_execute_bind (fun _ _ => fits_deleteUserRole rfl) fun _ => hf _

theorem once_removeRole {β : Type} {userId tenantId roleId : Uuid}
    (guardRoleName roleName : String) {f : UserRepository.RemovedRole → Sql β}
    (hf : ∀ r, (f r).ReadsOnly) :
    (UserRepository.removeRole userId tenantId roleId guardRoleName roleName >>= f).Once
      (Fits (.request (.removeRole userId tenantId roleId))) := by
  unfold UserRepository.removeRole
  split_ifs
  · rw [bind_assoc]
    refine (ReadsOnly.query _).once_bind fun holders => ?_
    split_ifs
    · exact (hf _).once
    · exact once_deleteUserRole hf
  · exact once_deleteUserRole hf

theorem once_assignRoles {β : Type} (userId tenantId : Uuid) {roleIds : List Uuid}
    (hroles : roleIds.Nodup) {f : List (Uuid × Role) → Sql β} (hf : ∀ r, (f r).ReadsOnly) :
    (UserRepository.assignRoles userId tenantId roleIds >>= f).Once (Fits pt) := by
  unfold UserRepository.assignRoles
  rw [bind_assoc]
  refine (ReadsOnly.query _).once_bind fun membership => ?_
  split_ifs
  · rw [bind_assoc]
    refine (ReadsOnly.query _).once_bind fun existing => ?_
    dsimp only
    split_ifs
    · exact ((ReadsOnly.query _).bind hf).once
    · rw [bind_assoc]
      refine once_perform_bind (fun s e he => fits_insertUserRoles ?_ he)
        ((ReadsOnly.query _).bind hf)
      exact (hroles.filter _).map fun _ _ h => (UserRole.mk.inj h).2.2
  · exact (hf _).once

/-- `new Set(..)` keeps each value once. -/
private theorem nodup_eraseDups (xs : List Uuid) : xs.eraseDups.Nodup := by
  induction hn : xs.length using Nat.strong_induction_on generalizing xs with
  | _ n ih =>
  cases xs with
  | nil => exact .nil
  | cons x xs =>
    rw [List.eraseDups_cons, List.nodup_cons]
    refine ⟨by simp [List.mem_eraseDups], ih _ ?_ _ rfl⟩
    rw [← hn, List.length_cons]
    exact Nat.lt_succ_of_le (List.length_filter_le _ _)

theorem once_begin (r : UserRequest) : (begin r).Once (Fits (.request r)) := by
  cases r with
  | update id tenantId data =>
    refine (ReadsOnly.query _).once_bind fun found => (ReadsOnly.orRaise _ _).once_bind fun _ => ?_
    refine (ReadsOnly.require _ _).once_bind fun _ => (ReadsOnly.require _ _).once_bind fun _ => ?_
    refine (ReadsOnly.require _ _).once_bind fun _ => (ReadsOnly.require _ _).once_bind fun _ => ?_
    split_ifs
    · refine ReadsOnly.once ?_
      exact (ReadsOnly.query _).bind fun _ => (ReadsOnly.orRaise _ _).bind fun _ => .ret _
    · exact once_execute_bind (fun _ _ => fits_updateUser) fun _ => .ret _
  | delete id tenantId =>
    refine (ReadsOnly.query _).once_bind fun found => (ReadsOnly.orRaise _ _).once_bind fun _ => ?_
    exact once_perform_bind (fun _ _ => fits_deleteUser) (.ret _)
  | assignRoles userId tenantId roleIds =>
    refine (ReadsOnly.query _).once_bind fun found => (ReadsOnly.orRaise _ _).once_bind fun _ => ?_
    refine (ReadsOnly.query _).once_bind fun roles => (ReadsOnly.require _ _).once_bind fun _ => ?_
    exact once_assignRoles userId tenantId (nodup_eraseDups _) fun _ => .ret _
  | removeRole userId tenantId roleId =>
    refine (ReadsOnly.query _).once_bind fun found => (ReadsOnly.orRaise _ _).once_bind fun _ => ?_
    refine (ReadsOnly.query _).once_bind fun found => ?_
    refine (ReadsOnly.orRaise _ _).once_bind fun role => once_removeRole _ _ fun result => ?_
    exact (ReadsOnly.require _ _).bind fun _ => (ReadsOnly.require _ _).bind fun _ => .ret _

theorem once_code {p : Sql UserPoint} (hp : code pt = some p) : p.Once (Fits pt) := by
  cases pt with
  | request r =>
    obtain rfl := Option.some.inj hp
    exact once_begin r
  | updated id tenantId user =>
    obtain rfl := Option.some.inj hp
    exact ((ReadsOnly.query _).bind fun _ => (ReadsOnly.orRaise _ _).bind fun _ => .ret _).once
  | roleRemoved userId tenantId =>
    obtain rfl := Option.some.inj hp
    exact ((ReadsOnly.query _).bind fun _ => .ret _).once
  | done result => cases hp

/-! ### No role is assigned twice -/

/-- No role is assigned twice, and an assignment whose key is locked does not appear. -/
def assignmentContract : Contract accounts where
  inv s := s.userRoles.Nodup
  evolves _ _ := True
  agree k s s' := ∀ row, k = .userRole row → row ∈ s'.userRoles → row ∈ s.userRoles
  evolves_refl _ := trivial
  evolves_trans _ _ := trivial
  agree_refl _ _ _ _ h := h
  agree_trans h h' row hk hrow := h row hk (h' row hk hrow)

/-- What is about to be assigned is not there, and its keys are locked. -/
def AssignsFresh (e : Edit) (t : Transaction accounts) (s : Db) : Prop :=
  ∀ rows, e = .userRolesInsert rows →
    rows.Nodup ∧ ∀ x ∈ rows, x ∉ s.userRoles ∧ Key.userRole x ∈ t.held

/-- An edit keeps the contract. -/
theorem AssignsFresh.guarantee {t : Transaction accounts} (h : AssignsFresh e t s)
    (hedits : t.edits = [e]) (hs : s.userRoles.Nodup) :
    assignmentContract.Guarantee {} t s := by
  have hview : t.view s = s.apply e := by rw [Transaction.view, hedits]; rfl
  have hfilter {p : UserRole → Bool} (hroles : (s.apply e).userRoles = s.userRoles.filter p) :
      assignmentContract.Guarantee {} t s := by
    refine ⟨?_, trivial, fun k _ _ row _ hrow => ?_⟩
    · change (t.view s).userRoles.Nodup
      rw [hview, hroles]
      exact hs.filter _
    · rw [hview, hroles] at hrow
      exact (List.mem_filter.mp hrow).1
  have hkept (hroles : (s.apply e).userRoles = s.userRoles) :
      assignmentContract.Guarantee {} t s :=
    hfilter (p := fun _ => true) (hroles.trans (List.filter_true _).symm)
  cases e with
  | userRolesInsert rows =>
    obtain ⟨hrows, hnew⟩ := h rows rfl
    refine ⟨?_, trivial, fun k hk _ row hrow hmem => ?_⟩
    · change (t.view s).userRoles.Nodup
      rw [hview]
      exact List.nodup_append.mpr ⟨hs, hrows, fun x hx y hy hxy => (hnew y hy).1 (hxy ▸ hx)⟩
    · rw [hview] at hmem
      rcases List.mem_append.mp hmem with hmem | hmem
      · exact hmem
      · exact absurd (hrow ▸ (hnew row hmem).2) hk
  | userDelete id => exact hfilter rfl
  | userRoleDelete r => exact hfilter rfl
  | _ => exact hkept rfl

/-- In no run a role is assigned twice. -/
theorem nodup_of_serves {s₀ : Db} {pts : List UserPoint} {x : Service accounts UserPoint}
    (hs₀ : s₀.userRoles.Nodup) (h : Serves code {} (.start s₀ pts) x) :
    x.committed.userRoles.Nodup := by
  refine (serves_chain (L := assignmentContract) (W := .none Db) (A := fun _ _ _ => True)
    (Q := fun _ _ _ _ _ => True) (E := fun _ _ => True) (I := fun s => s.userRoles.Nodup) hs₀
    (fun _ _ _ _ _ _ _ => trivial) (fun i pt p s hp _ _ => ?_) (fun _ _ _ => trivial) hs₀
    (fun s i pt a t _ _ _ hg _ => ⟨hg.inv, trivial⟩) h).1 x.committed
    (List.mem_of_head? h.head_history)
  have hpublish {a : UserPoint} {t : Transaction accounts} {s : Db}
      (hg : assignmentContract.Guarantee {} t s) :
      Contract.Owes assignmentContract (.none Db) {} (fun _ _ => True) (fun _ _ _ => True)
        i a t s :=
    fun _ _ => ⟨hg, fun _ _ => trivial, trivial, trivial⟩
  refine (once_code hp).wp (F := AssignsFresh) (fun t s e _ _ hfits => ?_)
    (fun e t s s' hF hrely => ?_) (fun e t s k hF => ?_) (fun _ _ _ _ _ hF => hF)
    (fun a t s hs hedits => hpublish ?_) (fun a t s e hs hedits hF => hpublish ?_) rfl
  · -- the statement locks what it assigns
    intro rows heq
    obtain ⟨hrows, hnew⟩ := hfits.assigns rows heq
    refine ⟨hrows, fun x hx => ⟨hnew x hx, ?_⟩⟩
    subst heq
    exact List.mem_append_left _ (List.mem_map_of_mem hx)
  · -- others do not assign what is locked
    intro rows heq
    obtain ⟨hrows, hnew⟩ := hF rows heq
    refine ⟨hrows, fun x hx => ⟨fun hmem => (hnew x hx).1 ?_, (hnew x hx).2⟩⟩
    exact hrely.agree _ (hnew x hx).2 x rfl hmem
  · intro rows heq
    obtain ⟨hrows, hnew⟩ := hF rows heq
    exact ⟨hrows, fun x hx => ⟨(hnew x hx).1, List.mem_cons_of_mem _ (hnew x hx).2⟩⟩
  · -- a transaction that has written nothing
    have hview : t.view s = s := by rw [Transaction.view, hedits]; rfl
    refine ⟨?_, trivial, fun k _ _ row _ hrow => ?_⟩
    · rw [hview]
      exact hs
    · rwa [hview] at hrow
  · exact hF.guarantee hedits hs

/-! ### What `removeRole` has counted -/

/-- What `removeRole` deletes rests on its count, its third statement. -/
theorem restsOn_removeRole {roleId : Uuid} :
    (begin (.removeRole userId tenantId roleId)).RestsOn
      (fun s => isAdminRole tenantId roleId s = true)
      (fun s es => es ≠ [] → 2 ≤ UserRepository.countHolders tenantId roleId s)
      countStatement := by
  refine restsOn_query_bind_succ fun _ _ => restsOn_orRaise_bind fun _ _ => ?_
  refine restsOn_query_bind_succ fun s hs => restsOn_orRaise_bind fun role hrole => ?_
  have hname : role.name = tenantAdminRole := by
    obtain ⟨hlookup, -⟩ := Option.filter_eq_some_iff.mp hrole
    rw [isAdminRole, hlookup] at hs
    exact (of_decide_eq_true hs).2
  unfold UserRepository.removeRole
  rw [if_pos hname, bind_assoc]
  refine restsOn_query_bind fun s' _ => ?_
  split_ifs with hholders
  · exact ReadsOnly.writes ((ReadsOnly.require _ _).bind fun _ => (ReadsOnly.require _ _).bind
      fun _ => .ret _) fun h => absurd rfl h
  · refine (once_deleteUserRole fun result => ?_).writes.mono fun _ _ _ => by omega
    exact (ReadsOnly.require _ _).bind fun _ => (ReadsOnly.require _ _).bind fun _ => .ret _

/-! ### Runs -/

section Runs

variable {s₀ : Db} {requests : List UserRequest} {us : List (Turn accounts)}
  {x x' y : Service accounts UserPoint} {u : Turn accounts} {i l m : ℕ} {roleId : Uuid}

/-- The turn `m` commits the edit `e` of the session `i`, which is at the point `pt`. -/
structure WrittenAt (s₀ : Db) (requests : List UserRequest) (us : List (Turn accounts))
    (x : Service accounts UserPoint) (m i : ℕ) (pt : UserPoint) (e : Edit) : Prop where
  point : x.points[i]? = some pt
  ended : ∃ a t, x.sessions[i]? = some (.running (.ret a) t) ∧ t.edits = [e]
  removes : ∀ row, e = .userRoleDelete row →
    pt = .request (.removeRole row.userId row.tenantId row.roleId)
  seen : commitOn s₀ requests us m = some (x.committed, ⟨i, [e], x.committed.apply e⟩)

/-- A turn changes nothing, or commits one edit. -/
theorem written_of_turn (hx : moment userMachine.step (userStart s₀ requests) us m = some x)
    (hu : us[m]? = some u) (hstep : userMachine.step x u = some x') :
    x'.committed = x.committed ∨ ∃ i pt e, WrittenAt s₀ requests us x m i pt e ∧
      x'.committed = x.committed.apply e := by
  rcases userMachine.commit_or_same hx hu hstep with ⟨hsame, -⟩ | ⟨a, t, -, hi, hconfig, hcommit⟩
  · exact .inl hsame
  have hview : x'.committed = t.view x.committed := congrArg Config.committed hconfig
  obtain ⟨pt, p, hpt, hp⟩ := Service.exists_code (Service.serves_moment hx) hi
  have hcode : userMachine.code x (userMachine.session u) = some p :=
    (congrArg (·.bind code) hpt).trans hp
  rcases userMachine.writes_of_moment Service.fresh_start hx hi hcode (once_code hp).writes with
    hnone | ⟨s, e, hone, hfits⟩
  · rw [hview, Transaction.view, hnone]
    exact .inl rfl
  · rw [Transaction.view, hone] at hview hcommit
    refine .inr ⟨_, pt, e, ⟨hpt, ⟨a, t, hi, hone⟩, hfits.removes, ?_⟩, hview⟩
    rw [commitOn, hcommit, Machine.committedAt, hx]
    rfl

/-- Nobody changes the roles. -/
theorem isAdminRole_of_moment (hx : moment userMachine.step (userStart s₀ requests) us m = some x) :
    isAdminRole tenantId roleId x.committed = isAdminRole tenantId roleId s₀ := by
  refine moment_induction (P := fun _ (x : Service accounts UserPoint) =>
    isAdminRole tenantId roleId x.committed = isAdminRole tenantId roleId s₀) rfl
    (fun k x u x' hx hu hstep ih => ?_) hx
  rcases written_of_turn hx hu hstep with hsame | ⟨i, pt, e, -, hview⟩
  · rw [hsame]
    exact ih
  · rw [hview, isAdminRole_apply]
    exact ih

/-- While nobody deletes an assignment of the admin role, the number of holders does not fall. -/
theorem countHolders_of_moment
    (hl : moment userMachine.step (userStart s₀ requests) us l = some y)
    (hadmin : isAdminRole tenantId roleId s₀ = true)
    (hkept : ∀ k, l ≤ k → k < m → ∀ v ∈ commitOn s₀ requests us k,
      deletesHolder tenantId roleId v = false)
    (hlm : l ≤ m) (hx : moment userMachine.step (userStart s₀ requests) us m = some x) :
    UserRepository.countHolders tenantId roleId y.committed ≤
      UserRepository.countHolders tenantId roleId x.committed := by
  refine moment_induction_from (m := m) (P := fun _ (x : Service accounts UserPoint) =>
    UserRepository.countHolders tenantId roleId y.committed ≤
      UserRepository.countHolders tenantId roleId x.committed) hl le_rfl
    (fun k x u x' hlk hkm hx hu hstep ih => ih.trans ?_) hlm hx
  rcases written_of_turn hx hu hstep with hsame | ⟨i, pt, e, hwritten, hview⟩
  · rw [hsame]
  · rw [hview]
    refine countHolders_apply ((isAdminRole_of_moment hx).trans hadmin) fun row hrow hrole => ?_
    have hnone := List.any_eq_false.mp (hkept k hlk hkm _ hwritten.seen) row hrow
    simpa [hrole] using hnone

/-- What `removeRole` has counted is still there when it commits. -/
theorem counted_of_written (hcounts : CountsStand tenantId s₀ requests us) (hlen : m < us.length)
    (hx : moment userMachine.step (userStart s₀ requests) us m = some x) {row : UserRole}
    (hrow : row ∈ adminRows tenantId x.committed)
    (hwritten : WrittenAt s₀ requests us x m i pt (.userRoleDelete row)) :
    2 ≤ UserRepository.countHolders tenantId row.roleId x.committed := by
  obtain ⟨-, rfl, hadmin⟩ := mem_adminRows.mp hrow
  rw [isAdminRole_of_moment hx] at hadmin
  obtain ⟨a, t, hi, hone⟩ := hwritten.ended
  have hpt := hwritten.removes row rfl
  have hcode : userMachine.code x i =
      some (begin (.removeRole row.userId row.tenantId row.roleId)) := by
    change x.points[i]?.bind code = _
    rw [hwritten.point, hpt]
    rfl
  obtain ⟨k, y, hk, hy, hcount⟩ := userMachine.restsOn_of_moment Service.fresh_start hx hi hcode
    (fun _ _ _ hy => (isAdminRole_of_moment hy).trans hadmin) restsOn_removeRole
  have hmem := List.mem_of_getElem? hk
  refine (hcount (by simp [hone])).trans (countHolders_of_moment hy hadmin ?_
    (Machine.lt_of_mem_turns hmem).le hx)
  intro l hkl hlm v hv
  rcases Nat.eq_or_lt_of_le hkl with rfl | hlt
  · -- the count itself is no commit
    rw [commitOn, userMachine.commitAt_of_mem_turns hx hi hmem] at hv
    simp at hv
  · exact hcounts m hlen _ hwritten.seen row hrow List.mem_cons_self k hk l hlm hlt v hv

/-- One commit of a run that meets the conditions leaves the tenant an administrator. -/
theorem HasAdministrator.written (h : HasAdministrator tenantId x.committed)
    (hcareful : Careful tenantId s₀ requests us) (hnodup : x.committed.userRoles.Nodup)
    (hlen : m < us.length)
    (hx : moment userMachine.step (userStart s₀ requests) us m = some x)
    (hwritten : WrittenAt s₀ requests us x m i pt e) :
    HasAdministrator tenantId (x.committed.apply e) := by
  obtain ⟨userId, huser⟩ := h
  obtain ⟨hactive, row, hrow, rfl⟩ := isAdministrator_iff_row.mp huser
  by_cases htakes : e.takes row = true
  · have hcount : 2 ≤ UserRepository.countHolders tenantId row.roleId x.committed := by
      by_cases hremoves : e.removesRole = true
      · cases e with
        | userRoleDelete r =>
          obtain rfl : r = row := of_decide_eq_true htakes
          exact counted_of_written hcareful.counts hlen hx hrow hwritten
        | _ => cases hremoves
      · exact hcareful.several m hlen _ hwritten.seen row hrow (by simp [htakes, hremoves])
    obtain ⟨other, hmem, htenant, hrole, hne⟩ := exists_other_holder hnodup hcount row.userId
    have hother : other ∈ adminRows tenantId x.committed :=
      mem_adminRows.mpr ⟨hmem, htenant, hrole ▸ (mem_adminRows.mp hrow).2.2⟩
    have hothers : othersActive tenantId row x.committed = true :=
      hcareful.active m hlen _ hwritten.seen row hrow (by simp [htakes])
    have hstays : isActiveMember tenantId other.userId x.committed = true :=
      of_decide_eq_true (List.all_eq_true.mp hothers other hother) ⟨hrole, hne⟩
    exact ⟨_, isAdministrator_apply hstays hother (Edit.takes_other htakes hne)⟩
  · exact ⟨_, isAdministrator_apply hactive hrow (Bool.not_eq_true _ ▸ htakes)⟩

/-- At every moment of a run that meets the conditions the tenant has an administrator. -/
theorem hasAdministrator_of_moment (hadmin : HasAdministrator tenantId s₀)
    (hnodup : s₀.userRoles.Nodup) (hcareful : Careful tenantId s₀ requests us)
    (hlen : m ≤ us.length) (hx : moment userMachine.step (userStart s₀ requests) us m = some x) :
    HasAdministrator tenantId x.committed := by
  refine moment_induction_from (m := m) (P := fun _ (x : Service accounts UserPoint) =>
    HasAdministrator tenantId x.committed) rfl hadmin
    (fun k x u x' _ hkm hx hu hstep ih => ?_) (Nat.zero_le m) hx
  rcases written_of_turn hx hu hstep with hsame | ⟨i, pt, e, hwritten, hview⟩
  · rw [hsame]
    exact ih
  · rw [hview]
    exact ih.written hcareful (nodup_of_serves hnodup (Service.serves_moment hx))
      (hkm.trans_le hlen) hx hwritten

end Runs

/-- **Administrators.** A tenant that has an administrator keeps one in every run in which
`update` and `delete` pass the test of `removeRole`, what `removeRole` has counted still counts
when it commits, and no holder is disabled who is counted. -/
theorem administrators_kept {requests : List UserRequest} {us : List (Turn accounts)} {s₀ : Db}
    {x : Service accounts UserPoint} (hadmin : HasAdministrator tenantId s₀)
    (hnodup : s₀.userRoles.Nodup)
    (hrun : (Service.start s₀ (requests.map .request)).run code {} us = some x)
    (hcareful : Careful tenantId s₀ requests us) :
    ∀ s ∈ x.history s₀, HasAdministrator tenantId s := by
  intro s hs
  have hx : moment userMachine.step (userStart s₀ requests) us us.length = some x :=
    Service.moment_length.trans hrun
  obtain ⟨k, y, hk, hy, rfl⟩ := userMachine.mem_history hx hs rfl rfl
  exact hasAdministrator_of_moment hadmin hnodup hcareful hk hy

/-! ### A shop that changes hands -/

namespace Sample

def owner : User where
  tenantId := "shop"
  email := "owner@shop"
  passwordHash := "$secret"
  firstName := "Meera"
  lastName := "Iyer"
  status := .active
  emailVerified := true

/-- A shop with two users, of whom the owner is the administrator. -/
def staffed : Db where
  tenants := AList.insert "shop" ⟨"shop", .active⟩ ∅
  users := AList.insert "owner" owner (AList.insert "helper" { owner with email := "h@shop" } ∅)
  memberships :=
    AList.insert ("shop", "owner") .active (AList.insert ("shop", "helper") .active ∅)
  roles := AList.insert "r1" ⟨"shop", "admin"⟩ ∅
  userRoles := [⟨"shop", "owner", "r1"⟩]

/-- The helper becomes an administrator, the owner loses the role and is deleted, and the
helper is renamed. -/
def handOver : List UserRequest :=
  [.assignRoles "helper" "shop" ["r1"], .removeRole "owner" "shop" "r1",
    .update "helper" "shop" { firstName := some "Asha" }, .delete "owner" "shop"]

/-- The owner is disabled. -/
def disableOwner : List UserRequest :=
  [.update "owner" "shop" { status := some "INACTIVE" }]

/-- The session `i` runs `n` statements. -/
def userSteps (i n : ℕ) : List (Turn accounts) :=
  List.replicate n (.act (.advance i))

/-- The session `i` starts a transaction and runs `n` statements of it. -/
def userTurns (i n : ℕ) : List (Turn accounts) :=
  .resume i :: userSteps i n

/-- The helper is renamed between the count and the commit of `removeRole`. -/
def renamedMeanwhile : List (Turn accounts) :=
  userTurns 0 7 ++ userTurns 1 3 ++ userTurns 2 3 ++ userSteps 1 2 ++ userTurns 3 3

end Sample

open Accounts.Sample in
/-- The owner has handed the admin role over to the helper, and is gone. -/
theorem administrators_kept_sample : ∃ x,
    (Service.start staffed (handOver.map .request)).run code {} renamedMeanwhile = some x ∧
    x.committed.users.keys = ["helper"] ∧ isAdministrator "shop" "helper" x.committed = true ∧
    ∀ s ∈ x.history staffed, HasAdministrator "shop" s := by
  have hrun : ((Service.start staffed (handOver.map .request)).run code {} renamedMeanwhile).map
      (fun x => (x.committed.users.keys, isAdministrator "shop" "helper" x.committed)) =
      some (["helper"], true) := by
    decide +kernel
  obtain ⟨x, hx, hend⟩ := Option.map_eq_some_iff.mp hrun
  obtain ⟨hkeys, hhelper⟩ := Prod.mk.inj hend
  have hseveral : SeveralHold "shop" staffed handOver renamedMeanwhile := by
    unfold SeveralHold
    decide +kernel
  have hcounts : CountsStand "shop" staffed handOver renamedMeanwhile := by
    unfold CountsStand
    decide +kernel
  have hactive : OthersActive "shop" staffed handOver renamedMeanwhile := by
    unfold OthersActive
    decide +kernel
  exact ⟨x, hx, hkeys, hhelper, administrators_kept ⟨"owner", by decide +kernel⟩ (by decide) hx
    ⟨hseveral, hcounts, hactive⟩⟩

open Accounts.Sample in
/-- `update` disables the only administrator of the shop. -/
theorem update_disablesLastAdministrator : ∃ x,
    Serves code {} (.start staffed (disableOwner.map .request)) x ∧
      HasAdministrator "shop" staffed ∧ ¬ HasAdministrator "shop" x.committed := by
  have hrun : ((Service.start staffed (disableOwner.map .request)).run code {}
      (userTurns 0 3)).map (fun x => x.committed.userRoles.all fun r =>
        !isAdministrator "shop" r.userId x.committed) = some true := by
    decide +kernel
  obtain ⟨x, hx, hnobody⟩ := Option.map_eq_some_iff.mp hrun
  refine ⟨x, serves_of_run .refl hx, ⟨"owner", by decide +kernel⟩, ?_⟩
  rintro ⟨userId, hadmin⟩
  obtain ⟨-, -, roleId, hrole, -⟩ := isAdministrator_iff.mp hadmin
  have hnot := List.all_eq_true.mp hnobody _ hrole
  rw [hadmin] at hnot
  cases hnot

end PulseOps.Accounts
