import PulseOps.Model.Auth
import PulseOps.Model.CacheService
import PulseOps.Model.Domains
import PulseOps.Model.Products
import PulseOps.Model.Settings
import PulseOps.ReadCommitted.Autocommit

/-!
# Tenants and their cache

`tenants/tenants.service.js` with its cache, and the other services that write what it caches:
`updateName`, the settings, the tax profile and the domains of `workspace/workspace.service.js`,
`platform/platform.service.js` and `assignPlan` of `platform-ops/platform-ops.controller.js`.
Requests come one after the other, and each statement commits by itself.

Commands of the cache succeed and no entry expires. Ids are UUIDs, so the keys of the three
kinds of entries that `common/cache/cache.keys.js` makes of them never meet, and each kind is a
table here. An entry is what `CacheService.set` has stored: `stripSensitive` leaves out every
key whose name looks like a secret. The keys of a settings document are looked at, and nothing
inside of their values.

What a tenant is created with besides its row, answers of writes, time stamps that nobody reads
and audit logs are left out.
-/

set_option autoImplicit false

open ReadCommitted

namespace PulseOps.Tenants

open Accounts (TenantStatus)
open Accounts (platformTenantSlug)

/-! ### Rows -/

structure TenantRow where
  name : String
  slug : String
  status : TenantStatus := .trial
  plan : String := "free"
  deriving DecidableEq, Repr

structure PlanRow where
  name : String
  /-- `limits.products`; `none` is unlimited -/
  products : Option ℕ := none
  isActive : Bool := true
  deriving DecidableEq, Repr

/-- Tenants with what belongs to them. Plans are found by their code. -/
structure Db where
  tenants : Table Uuid TenantRow := ∅
  plans : Table String PlanRow := ∅
  settings : Settings.Db := {}
  domains : Domains.Db := {}
  catalogue : Products.Catalogue := {}

/-- A domain as a tenant includes it. -/
structure DomainEntry where
  id : Uuid
  tenantId : Uuid
  domain : String
  verified : Bool
  primary : Bool
  /-- `none` where the key is left out -/
  verificationToken : Option (Option String)
  verifiedAt : Option ℤ
  createdAt : ℤ
  deriving DecidableEq, Repr

/-- A tenant with its settings and domains. -/
structure TenantView where
  id : Uuid
  tenant : TenantRow
  settings : Option Settings.Document
  domains : List DomainEntry
  deriving DecidableEq

namespace TenantRepository

def domainEntry (id : Uuid) (row : Domains.TenantDomain) : DomainEntry where
  id := id
  tenantId := row.tenantId
  domain := row.domain
  verified := row.verified
  primary := row.primary
  verificationToken := some row.verificationToken
  verifiedAt := row.verifiedAt
  createdAt := row.createdAt

/-- The rows of the domains of a tenant. -/
def domainRows (id : Uuid) (s : Domains.Db) : List (Sigma fun _ : Uuid => Domains.TenantDomain) :=
  s.domains.entries.filter fun e => e.2.tenantId = id

/-- `findById`. -/
def findById (s : Db) (id : Uuid) : Option TenantView :=
  (s.tenants.lookup id).map fun row =>
    ⟨id, row, s.settings.tenantSettings.lookup id,
      (domainRows id s.domains).map fun e => domainEntry e.1 e.2⟩

/-- `existsBySlug`. -/
def existsBySlug (s : Db) (slug : String) : Bool :=
  s.tenants.entries.any fun e => e.2.slug = slug

/-- `"tenants_slug_key"`: no other tenant has the slug. -/
def slugFree (s : Db) (id : Uuid) (slug : String) : Bool :=
  s.tenants.entries.all fun e => e.2.slug = slug → e.1 = id

end TenantRepository

/-! ### The cache -/

/-- `isSensitiveKey`. -/
def isSensitiveKey (key : String) : Bool := CacheService.isSensitiveKey String.toLower key

/-- `stripSensitive` of a settings document. -/
def stripDocument (d : Settings.Document) : Settings.Document :=
  { d with settings := d.settings.keep fun key _ => ¬ isSensitiveKey key }

/-- `stripSensitive` of a tenant: of the keys of its row and of its domains, only
`verificationToken` is sensitive. -/
def stripTenant (v : TenantView) : TenantView :=
  { v with
    settings := v.settings.map stripDocument
    domains := v.domains.map fun d => { d with verificationToken := none } }

/-- The entries by their keys: `tenantKey`, `tenantSettingsKey`, and `productListKey` with the
hash that its text ends in. -/
structure Cache where
  tenants : Table Uuid TenantView := ∅
  settings : Table Uuid Settings.Document := ∅
  productLists : Table (Uuid × String) Products.ProductPage := ∅

structure Store where
  db : Db := {}
  cache : Cache := {}

/-- Requests over the database and the cache. -/
abbrev Service (α : Type) := Autocommit Store Failure α

open Autocommit

/-- A writing statement of the database. -/
def inDb (f : Db → Except Failure Db) : Service Unit :=
  write fun s => (f s.db).map fun db => { s with db }

namespace CacheService

/-- `set` of a tenant and of its settings, as far as it has any. -/
def setTenant (id : Uuid) (v : TenantView) (s : Store) : Store :=
  { s with cache := { s.cache with
      tenants := s.cache.tenants.insert id (stripTenant v)
      settings := match v.settings with
        | some d => s.cache.settings.insert id (stripDocument d)
        | none => s.cache.settings } }

def setSettings (id : Uuid) (d : Settings.Document) (s : Store) : Store :=
  { s with cache := { s.cache with settings := s.cache.settings.insert id (stripDocument d) } }

/-- `del` of the entries of a tenant and of its settings. -/
def delTenant (id : Uuid) (s : Store) : Store :=
  { s with cache := { s.cache with
      tenants := s.cache.tenants.erase id
      settings := s.cache.settings.erase id } }

/-- `set` of a list. No key of a product is sensitive. -/
def setProductList (key : Uuid × String) (page : Products.ProductPage) (s : Store) : Store :=
  { s with cache := { s.cache with productLists := s.cache.productLists.insert key page } }

/-- `delByPattern(productListPattern(tenantId))`. -/
def delProductLists (tenantId : Uuid) (s : Store) : Store :=
  { s with cache := { s.cache with
      productLists := s.cache.productLists.keep fun key _ => key.1 ≠ tenantId } }

end CacheService

/-! ### Plans -/

def planReserved : AppError := ⟨"This plan is reserved", 400, "PLAN_RESERVED"⟩

def planNotFound (code : String) : AppError :=
  ⟨"Plan " ++ code ++ " does not exist", 400, "PLAN_NOT_FOUND"⟩

def planInactive (code : String) : AppError :=
  ⟨"Plan " ++ code ++ " is not active", 400, "PLAN_INACTIVE"⟩

/-- `RESERVED_PLAN`. -/
def reservedPlan : String := "platform"

/-- `assertAssignablePlan`. -/
def assertAssignablePlan (code : Option String) : Service Unit :=
  check fun s => match code with
    | none => .ok ()
    | some code =>
      if code = reservedPlan then .error (.app planReserved)
      else match s.db.plans.lookup code with
        | none => .error (.app (planNotFound code))
        | some plan => if plan.isActive then .ok () else .error (.app (planInactive code))

/-! ### `TenantService` -/

/-- The fields that a request gives for a tenant. -/
structure TenantData where
  name : Option String := none
  slug : Option String := none
  status : Option TenantStatus := none
  plan : Option String := none
  deriving DecidableEq, Repr

/-- The given fields are set. -/
def TenantData.merge (data : TenantData) (row : TenantRow) : TenantRow where
  name := data.name.getD row.name
  slug := data.slug.getD row.slug
  status := data.status.getD row.status
  plan := data.plan.getD row.plan

namespace TenantRepository

/-- `tenant.create`, with the defaults of a status and a plan that are not given. -/
def create (id : Uuid) (name slug : String) (status : Option TenantStatus)
    (plan : Option String) (s : Db) : Except Failure Db :=
  if (s.tenants.lookup id).isNone ∧ slugFree s id slug = true then
    .ok { s with
      tenants := s.tenants.insert id
        ⟨name, slug, status.getD .trial, (truthy plan).getD "free"⟩ }
  else .error (.database .uniqueViolation)

/-- `tenant.update`. -/
def update (id : Uuid) (data : TenantData) (s : Db) : Except Failure Db :=
  match s.tenants.lookup id with
  | none => .error (.database .recordNotFound)
  | some row =>
    if slugFree s id (data.merge row).slug then
      .ok { s with tenants := s.tenants.insert id (data.merge row) }
    else .error (.database .uniqueViolation)

/-- The catalogue without the rows of a tenant. -/
def withoutTenant (id : Uuid) (c : Products.Catalogue) : Products.Catalogue where
  products := c.products.keep fun _ row => row.tenantId ≠ id
  variants := c.variants.keep fun _ row => row.tenantId ≠ id
  images := c.images.keep fun _ row => row.tenantId ≠ id
  categories := c.categories.keep fun _ row => row.tenantId ≠ id
  attributeDefinitions := c.attributeDefinitions.keep fun _ row => row.tenantId ≠ id
  productCategories := c.productCategories.filter (·.tenantId ≠ id)
  variantAttributes := c.variantAttributes.filter (·.tenantId ≠ id)

/-- `tenant.delete`, with everything that belongs to the tenant. Rows of other tables may keep
it from being deleted. -/
def delete (id : Uuid) (restricted : Bool) (s : Db) : Except Failure Db :=
  if (s.tenants.lookup id).isNone then .error (.database .recordNotFound)
  else if restricted then .error (.database .foreignKeyViolation)
  else .ok { s with
    tenants := s.tenants.keep fun k _ => k ≠ id
    settings := { s.settings with
      tenantSettings := s.settings.tenantSettings.keep fun k _ => k ≠ id }
    domains := { s.domains with domains := s.domains.domains.keep fun _ row => row.tenantId ≠ id }
    catalogue := withoutTenant id s.catalogue }

end TenantRepository

def tenantNotFound : AppError := ⟨"Tenant not found", 404, "TENANT_NOT_FOUND"⟩

def slugExists : AppError := ⟨"Tenant with this slug already exists", 409, "TENANT_SLUG_EXISTS"⟩

namespace TenantService

/-- What `getById` reads on a miss: the internal platform tenant is never found. -/
def findAddressable (s : Db) (id : Uuid) : Option TenantView :=
  (TenantRepository.findById s id).filter fun v => v.tenant.slug ≠ platformTenantSlug

/-- `create`. -/
def create (id : Uuid) (name slug : String) (status : Option TenantStatus)
    (plan : Option String) : Service Unit := do
  assertAssignablePlan plan
  let existingSlug ← find fun s => TenantRepository.existsBySlug s.db slug
  demand (existingSlug = false) (.app slugExists)
  inDb (TenantRepository.create id name slug status plan)

/-- `getById`. -/
def getById (id : Uuid) : Service TenantView := do
  let cached ← find fun s => s.cache.tenants.lookup id
  match cached with
  | some v => return v
  | none =>
    let found ← find fun s => findAddressable s.db id
    let tenant ← orFail found (.app tenantNotFound)
    Autocommit.update (CacheService.setTenant id tenant)
    return tenant

/-- `getSettings`. -/
def getSettings (tenantId : Uuid) : Service (Option Settings.Document) := do
  let cached ← find fun s => s.cache.settings.lookup tenantId
  match cached with
  | some d => return some d
  | none =>
    let found ← find fun s => TenantRepository.findById s.db tenantId
    let tenant ← orFail found (.app tenantNotFound)
    forSome tenant.settings fun d => Autocommit.update (CacheService.setSettings tenantId d)
    return tenant.settings

/-- `update`. -/
def update (id : Uuid) (data : TenantData) : Service Unit := do
  assertAssignablePlan data.plan
  let _ ← getById id
  let existingSlug ← find fun s =>
    (truthy data.slug).any fun slug => TenantRepository.existsBySlug s.db slug
  demand (existingSlug = false) (.app slugExists)
  inDb (TenantRepository.update id data)
  Autocommit.update (CacheService.delTenant id)

/-- `delete`. -/
def delete (id : Uuid) (restricted : Bool) : Service Unit := do
  let _ ← getById id
  inDb (TenantRepository.delete id restricted)
  Autocommit.update (CacheService.delTenant id)

end TenantService

/-! ### `WorkspaceService` -/

namespace WorkspaceService

/-- `updateName`. -/
def updateName (tenantId : Uuid) (name : String) : Service Unit := do
  let before ← find fun s => TenantRepository.findById s.db tenantId
  let _ ← orFail before (.app tenantNotFound)
  inDb (TenantRepository.update tenantId { name })

/-- `updateSettings` and `updateTaxProfile`: the document belongs to a tenant. -/
def changeSettings (tenantId : Uuid) (r : Settings.SettingsRequest) : Service Unit :=
  inDb fun s =>
    match (r.program tenantId).run Settings.noAnswer s.settings with
    | .error e => .error e
    | .ok (_, es) =>
      if (s.tenants.lookup tenantId).isSome then
        .ok { s with settings := Settings.workspace.replay es s.settings }
      else .error (.database .foreignKeyViolation)

/-- The tenant whose domains a request is about. -/
def tenantOf : Domains.DomainRequest → Uuid
  | .add tenantId _ _ _ _ => tenantId
  | .makePrimary tenantId _ => tenantId
  | .verify tenantId _ _ _ => tenantId
  | .remove tenantId _ => tenantId

/-- `addDomain`, `makePrimary`, `verifyDomain` and `removeDomain`: a domain belongs to a
tenant. -/
def changeDomains (r : Domains.DomainRequest) : Service Unit :=
  inDb fun s =>
    match r.program.run Domains.noAnswer s.domains with
    | .error e => .error e
    | .ok (_, es) =>
      if (s.tenants.lookup (tenantOf r)).isSome then
        .ok { s with domains := Domains.registry.replay es s.domains }
      else .error (.database .foreignKeyViolation)

end WorkspaceService

/-! ### `PlatformService` -/

def tenantRequired : AppError := ⟨"Tenant ID required", 400, "TENANT_REQUIRED"⟩

def platformTenantHidden : AppError := ⟨"Platform tenant not accessible", 404, "TENANT_NOT_FOUND"⟩

def slugReserved : AppError := ⟨"Reserved slug", 400, "SLUG_RESERVED"⟩

def userExists : AppError := ⟨"User with this email already exists", 409, "USER_ALREADY_EXISTS"⟩

namespace PlatformService

/-- `getTenantById`. -/
def getTenantById (id : Uuid) : Service TenantView := do
  demand (id ≠ "") (.app tenantRequired)
  let found ← find fun s => TenantRepository.findById s.db id
  let tenant ← orFail found (.app tenantNotFound)
  demand (tenant.tenant.slug ≠ platformTenantSlug) (.app platformTenantHidden)
  return tenant

/-- `createTenantWithAdmin`, where an account may have the address of the administrator, and
`createTenantOnly` without one. -/
def createTenant (id : Uuid) (name slug : String) (status : Option TenantStatus)
    (plan : Option String) (emailTaken : Bool) : Service Unit := do
  assertAssignablePlan plan
  demand (slug ≠ platformTenantSlug) (.app slugReserved)
  let existing ← find fun s => TenantRepository.existsBySlug s.db slug
  demand (existing = false) (.app slugExists)
  demand (emailTaken = false) (.app userExists)
  inDb (TenantRepository.create id name slug status plan)

/-- `updateTenant`. -/
def updateTenant (id : Uuid) (data : TenantData) : Service Unit := do
  let tenant ← getTenantById id
  assertAssignablePlan data.plan
  let slug := (truthy data.slug).filter (· ≠ tenant.tenant.slug)
  demand (slug ≠ some platformTenantSlug) (.app slugReserved)
  let existing ← find fun s => slug.any fun slug => TenantRepository.existsBySlug s.db slug
  demand (existing = false) (.app slugExists)
  inDb (TenantRepository.update id data)

/-- `updateTenantStatus`. -/
def updateTenantStatus (id : Uuid) (status : TenantStatus) : Service Unit := do
  let _ ← getTenantById id
  inDb (TenantRepository.update id { status := some status })

/-- `assignPlan` of the controller. -/
def assignPlan (id : Uuid) (plan : String) : Service Unit := do
  let found ← find fun s => TenantService.findAddressable s.db id
  let _ ← orFail found (.app tenantNotFound)
  assertAssignablePlan (some plan)
  inDb (TenantRepository.update id { plan := some plan })

end PlatformService

end PulseOps.Tenants
