import Mathlib.Data.List.MinMax
import PulseOps.Model.Rows
import PulseOps.ReadCommitted.Designation
import PulseOps.ReadCommitted.Serial

/-!
# The domains of the shops

`addDomain`, `makePrimary`, `verifyDomain` and `removeDomain` of
`workspace/workspace.service.js` over `workspace/workspace.repository.js`. Any number of shops
may claim a domain by adding it; one of them can have it verified through a DNS record, and
the claims of the others are dropped then. One domain of each shop is its primary one.

What DNS answers, the identifier and the token that are drawn, and the time are given with
the requests. A request is one program that runs alone. The audit log is left out.
-/

set_option autoImplicit false

open ReadCommitted Program

namespace PulseOps.Domains

/-! ### Rows and edits -/

structure TenantDomain where
  tenantId : Uuid
  domain : String
  verified : Bool := false
  primary : Bool := false
  verificationToken : Option String
  verifiedAt : Option ℤ := none
  createdAt : ℤ
  deriving DecidableEq, Repr

structure Db where
  domains : Table Uuid TenantDomain := ∅

/-- What one writing statement does. -/
inductive Edit where
  | domainInsert (id : Uuid) (row : TenantDomain)
  | domainUpdate (id : Uuid) (row : TenantDomain)
  /-- `primary: false` on some rows -/
  | domainsUnset (ids : List Uuid)
  | domainsDelete (ids : List Uuid)
  deriving DecidableEq

/-- Lockable rows and unique index entries. -/
inductive Key where
  | domain (id : Uuid)
  | claim (tenantId : Uuid) (domain : String)
  | verified (domain : String)
  | primary (tenantId : Uuid)
  deriving DecidableEq, Repr

/-- DNS is asked before any transaction, and its answer is given. -/
inductive Call where
  deriving DecidableEq

def noAnswer : Call → Unit := nofun

/-- `"tenant_domains_tenant_id_domain_key"`: a shop claims a domain once. -/
def claim : Designation TenantDomain (Uuid × String) where
  group row := (row.tenantId, row.domain)
  flag _ := true

/-- `"tenant_domains_domain_verified_key"`: a domain is verified for one shop. -/
def verifiedDomain : Designation TenantDomain String where
  group row := row.domain
  flag row := row.verified

/-- `"tenant_domains_tenant_id_primary_key"`: a shop has one primary domain. -/
def primaryDomain : Designation TenantDomain Uuid where
  group row := row.tenantId
  flag row := row.primary

namespace Db

/-- The state after one edit. -/
@[simp] def apply (s : Db) : Edit → Db
  | .domainInsert id row => { s with domains := s.domains.insert id row }
  | .domainUpdate id row => { s with domains := s.domains.insert id row }
  | .domainsUnset ids =>
    { s with
      domains := s.domains.mapRows fun id row =>
        { row with primary := if id ∈ ids then false else row.primary } }
  | .domainsDelete ids => { s with domains := s.domains.keep fun id _ => id ∉ ids }

/-- Whether a lockable row exists. -/
def present (s : Db) : Key → Bool
  | .domain id => (s.domains.lookup id).isSome
  | _ => false

end Db

/-- The index entries of a row. -/
def TenantDomain.indexKeys (row : TenantDomain) : List Key :=
  .claim row.tenantId row.domain :: (if row.verified then [.verified row.domain] else []) ++
    (if row.primary then [.primary row.tenantId] else [])

/-- The rows and unique index entries an edit takes. -/
def Edit.footprint : Edit → List Key
  | .domainInsert id row => .domain id :: row.indexKeys
  | .domainUpdate id row => .domain id :: row.indexKeys
  | .domainsUnset ids => ids.map .domain
  | .domainsDelete ids => ids.map .domain

/-- The row an `update` has written. -/
def Edit.updatedRow : Edit → Option TenantDomain
  | .domainUpdate _ row => some row
  | _ => none

/-- The domains of all shops as a database. -/
def registry : Database Db Key Edit Call Unit Failure where
  apply := Db.apply
  footprint := Edit.footprint
  present := Db.present

/-- Programs over the domains. -/
abbrev Sql (α : Type) := Program registry α

@[simp] theorem registry_apply (s : Db) (e : Edit) : registry.apply s e = s.apply e := rfl

/-! ### Writing statements and their constraints -/

namespace Statement

/-- The three unique indexes. -/
def indexesAdmit (id : Uuid) (row : TenantDomain) (s : Db) : Bool :=
  claim.admits s.domains id row ∧ verifiedDomain.admits s.domains id row ∧
    primaryDomain.admits s.domains id row

/-- `tenantDomain.create`. -/
def insertDomain (id : Uuid) (row : TenantDomain) (s : Db) : Except Failure Edit :=
  if (s.domains.lookup id).isNone ∧ indexesAdmit id row s = true then .ok (.domainInsert id row)
  else .error (.database .uniqueViolation)

/-- `tenantDomain.update`. -/
def updateDomain (id : Uuid) (change : TenantDomain → TenantDomain) (s : Db) :
    Except Failure Edit :=
  match s.domains.lookup id with
  | none => .error (.database .recordNotFound)
  | some row =>
    if indexesAdmit id (change row) s then .ok (.domainUpdate id (change row))
    else .error (.database .uniqueViolation)

/-- `tenantDomain.delete`. -/
def deleteDomain (id : Uuid) (s : Db) : Except Failure Edit :=
  if (s.domains.lookup id).isSome then .ok (.domainsDelete [id])
  else .error (.database .recordNotFound)

variable {id : Uuid} {s : Db} {e : Edit} {row : TenantDomain}

theorem indexesAdmit_iff : indexesAdmit id row s = true ↔
    claim.Admits s.domains id row ∧ verifiedDomain.Admits s.domains id row ∧
      primaryDomain.Admits s.domains id row := by
  simp [indexesAdmit]

theorem insertDomain_eq_ok (h : insertDomain id row s = .ok e) :
    s.domains.lookup id = none ∧ indexesAdmit id row s = true ∧ e = .domainInsert id row := by
  unfold insertDomain at h
  split_ifs at h with hadmit
  exact ⟨Option.isNone_iff_eq_none.mp hadmit.1, hadmit.2, (Except.ok.inj h).symm⟩

theorem updateDomain_eq_ok {change : TenantDomain → TenantDomain} :
    updateDomain id change s = .ok e ↔ ∃ row, s.domains.lookup id = some row ∧
      indexesAdmit id (change row) s = true ∧ e = .domainUpdate id (change row) := by
  unfold updateDomain
  split
  · simp_all
  · rename_i row hrow
    split_ifs with hadmit
    · constructor
      · intro h
        exact ⟨row, hrow, hadmit, (Except.ok.inj h).symm⟩
      · rintro ⟨row', hrow', -, rfl⟩
        obtain rfl := Option.some.inj (hrow.symm.trans hrow')
        rfl
    · simp [hrow, hadmit]

theorem deleteDomain_eq_ok (h : deleteDomain id s = .ok e) : e = .domainsDelete [id] := by
  unfold deleteDomain at h
  split_ifs at h
  exact (Except.ok.inj h).symm

end Statement

/-! ### Repository -/

namespace WorkspaceRepository

/-- `findVerifiedDomain`. -/
def findVerifiedDomain (domain : String) (s : Db) : Option Uuid :=
  (s.domains.entries.find? fun x => x.2.domain = domain ∧ x.2.verified = true).map (·.1)

/-- `findDomain`. -/
def findDomain (domainId tenantId : Uuid) (s : Db) : Option TenantDomain :=
  (s.domains.lookup domainId).filter fun row => row.tenantId = tenantId

/-- `createDomain`. -/
def createDomain (id tenantId : Uuid) (domain verificationToken : String) (now : ℤ) : Sql Unit :=
  perform (Statement.insertDomain id
    { tenantId, domain, verificationToken := some verificationToken, createdAt := now })

/-- `tenantDomain.update`, with the row it has written. -/
def updateReturning (domainId : Uuid) (change : TenantDomain → TenantDomain) :
    Sql TenantDomain := do
  let e ← execute (Statement.updateDomain domainId change)
  Program.orRaise e.updatedRow .typeError

/-- `markVerified`. -/
def markVerified (domainId : Uuid) (now : ℤ) : Sql TenantDomain :=
  updateReturning domainId fun row => { row with verified := true, verifiedAt := some now }

/-- The unverified claims on a domain, but for one row. -/
def unverifiedClaims (domain : String) (exceptId : Uuid) (s : Db) : List (Uuid × Uuid) :=
  (s.domains.entries.filter fun x =>
    x.2.domain = domain ∧ x.2.verified = false ∧ x.1 ≠ exceptId).map fun x => (x.1, x.2.tenantId)

/-- `deleteUnverifiedClaims`: the identifiers and shops of the claims that are gone. -/
def deleteUnverifiedClaims (domain : String) (exceptId : Uuid) : Sql (List (Uuid × Uuid)) := do
  let claims ← query (unverifiedClaims domain exceptId)
  record (.domainsDelete (claims.map (·.1)))
  return claims

/-- `deleteDomain`. -/
def deleteDomain (domainId : Uuid) : Sql Unit := perform (Statement.deleteDomain domainId)

/-- The primary domains of a shop. -/
def primaries (tenantId : Uuid) (s : Db) : List Uuid :=
  (s.domains.entries.filter fun x => x.2.tenantId = tenantId ∧ x.2.primary = true).map (·.1)

/-- `setPrimary`. -/
def setPrimary (domainId tenantId : Uuid) : Sql TenantDomain := do
  perform fun s => .ok (.domainsUnset (primaries tenantId s))
  updateReturning domainId fun row => { row with primary := true }

/-- The oldest domain of a shop. -/
def oldest (tenantId : Uuid) (s : Db) : Option Uuid :=
  (@List.argmin _ ℤ Int.instLinearOrder.toPreorder Int.decLt (fun x => x.2.createdAt)
    (s.domains.entries.filter fun x => x.2.tenantId = tenantId)).map (·.1)

/-- `ensurePrimary`. -/
def ensurePrimary (tenantId : Uuid) : Sql Unit := do
  let primary ← query fun s => (primaries tenantId s).head?
  match primary with
  | some _ => return ()
  | none =>
    let first ← query (oldest tenantId)
    match first with
    | none => return ()
    | some id => perform (Statement.updateDomain id fun row => { row with primary := true })

end WorkspaceRepository

/-! ### Service -/

structure VerificationRecord where
  type : String
  name : String
  value : Option String
  deriving DecidableEq, Repr

/-- `verificationRecord`. -/
def verificationRecord (row : TenantDomain) : VerificationRecord :=
  ⟨"TXT", "_pulseops-verify." ++ row.domain, row.verificationToken⟩

/-- A domain as it is shown. -/
structure DomainView where
  id : Uuid
  domain : String
  primary : Bool
  verified : Bool
  verifiedAt : Option ℤ
  verification : Option VerificationRecord
  createdAt : ℤ
  deriving DecidableEq, Repr

/-- `toDomain`. -/
def toDomain (id : Uuid) (row : TenantDomain) : DomainView where
  id := id
  domain := row.domain
  primary := row.primary
  verified := row.verified
  verifiedAt := row.verifiedAt
  verification := if row.verified then none else some (verificationRecord row)
  createdAt := row.createdAt

namespace WorkspaceService

open WorkspaceRepository

def domainTaken : AppError := ⟨"This domain is already registered", 409, "DOMAIN_TAKEN"⟩

def domainNotFound : AppError := ⟨"Domain not found", 404, "DOMAIN_NOT_FOUND"⟩

def verificationFailed (record : VerificationRecord) : AppError :=
  ⟨"TXT record " ++ record.name ++ " with the verification value was not found " ++
    "(DNS changes can take a while to appear)", 422, "DOMAIN_VERIFICATION_FAILED"⟩

/-- `catch (err) { if (err?.code === 'P2002') throw domainTaken(); throw err; }`. -/
def catchUniqueViolation : Failure → Failure
  | .database .uniqueViolation => .app domainTaken
  | e => e

/-- `addDomain`. -/
def addDomain (tenantId : Uuid) (domain : String) (id : Uuid) (token : String) (now : ℤ) :
    Sql DomainView := do
  let taken ← query (findVerifiedDomain domain)
  Program.require (taken = none) (.app domainTaken)
  mapError catchUniqueViolation do
    createDomain id tenantId domain token now
    ensurePrimary tenantId
    let created ← query (findDomain id tenantId)
    toDomain id <$> Program.orRaise created .typeError

/-- `makePrimary`. -/
def makePrimary (tenantId domainId : Uuid) : Sql DomainView := do
  let found ← query (findDomain domainId tenantId)
  let existing ← Program.orRaise found (.app domainNotFound)
  if existing.primary then return toDomain domainId existing
  else toDomain domainId <$> setPrimary domainId tenantId

/-- Whether the TXT records hold the value; a lookup that fails holds none. -/
def holds (records : Option (List (List String))) (value : Option String) : Bool :=
  value.any fun v => v ∈ (records.getD []).map String.join

/-- `verifyDomain`. `resolveTxt` is what DNS answers, chunk by chunk. -/
def verifyDomain (tenantId domainId : Uuid) (resolveTxt : String → Option (List (List String)))
    (now : ℤ) : Sql DomainView := do
  let found ← query (findDomain domainId tenantId)
  let existing ← Program.orRaise found (.app domainNotFound)
  if existing.verified then return toDomain domainId existing
  else do
    let record := verificationRecord existing
    Program.require (holds (resolveTxt record.name) record.value = true)
      (.app (verificationFailed record))
    let taken ← query (findVerifiedDomain existing.domain)
    Program.require (taken = none) (.app domainTaken)
    mapError catchUniqueViolation do
      let verified ← markVerified domainId now
      let dropped ← deleteUnverifiedClaims existing.domain domainId
      forM dropped fun c => ensurePrimary c.2
      return toDomain domainId verified

/-- `removeDomain`. -/
def removeDomain (tenantId domainId : Uuid) : Sql Unit := do
  let found ← query (findDomain domainId tenantId)
  let _ ← Program.orRaise found (.app domainNotFound)
  deleteDomain domainId
  ensurePrimary tenantId

end WorkspaceService

/-- The requests that write domains. -/
inductive DomainRequest where
  | add (tenantId : Uuid) (domain : String) (id : Uuid) (token : String) (now : ℤ)
  | makePrimary (tenantId domainId : Uuid)
  | verify (tenantId domainId : Uuid) (resolveTxt : String → Option (List (List String)))
      (now : ℤ)
  | remove (tenantId domainId : Uuid)

/-- The program of a request. -/
def DomainRequest.program : DomainRequest → Sql (Option DomainView)
  | .add tenantId domain id token now =>
    some <$> WorkspaceService.addDomain tenantId domain id token now
  | .makePrimary tenantId domainId => some <$> WorkspaceService.makePrimary tenantId domainId
  | .verify tenantId domainId resolveTxt now =>
    some <$> WorkspaceService.verifyDomain tenantId domainId resolveTxt now
  | .remove tenantId domainId =>
    (fun _ => none) <$> WorkspaceService.removeDomain tenantId domainId

end PulseOps.Domains
