import PulseOps.Model.CatalogueServices

/-!
# Attribute definitions

`AttributeService` of `attributes/attributes.service.js` over `AttributeRepository`: a tenant
defines attributes, and may neither delete one that variants use nor change its data type. The
list of values that may be offered for an attribute is left out, since what is stored for a
variant is not compared with it.
-/

set_option autoImplicit false

open ReadCommitted

namespace PulseOps.Products

open Autocommit
open Tenants (Service)

def attributeMissing : AppError := ⟨"Attribute not found", 404, "ATTRIBUTE_NOT_FOUND"⟩

def attributeCodeExists : AppError :=
  ⟨"Attribute with this code already exists", 409, "ATTRIBUTE_CODE_EXISTS"⟩

def attributeTypeInUse : AppError :=
  ⟨"Cannot change data type of attribute that is in use by variants", 409, "ATTRIBUTE_IN_USE"⟩

def attributeInUse : AppError :=
  ⟨"Cannot delete attribute that is in use by variants", 409, "ATTRIBUTE_IN_USE"⟩

/-- The fields an attribute is created with. -/
structure AttributeData where
  name : String
  code : String
  dataType : AttributeDataType
  isRequired : Option Bool := none
  description : Option String := none
  deriving DecidableEq, Repr

/-- The fields that are given for an attribute. -/
structure AttributeChanges where
  name : Option String := none
  code : Option String := none
  dataType : Option AttributeDataType := none
  isRequired : Option Bool := none
  description : Option String := none
  deriving DecidableEq, Repr

/-- The given fields are set. -/
def AttributeChanges.merge (changes : AttributeChanges) (row : AttributeDefinition) :
    AttributeDefinition :=
  { row with
    name := changes.name.getD row.name
    code := changes.code.getD row.code
    dataType := changes.dataType.getD row.dataType
    isRequired := changes.isRequired.getD row.isRequired
    description := changes.description <|> row.description }

namespace AttributeRepository

/-- Whether an attribute of the tenant, other than the excluded one, has the code. -/
def existsByCode (code : String) (tenantId : Uuid) (excludeId : Option Uuid) (c : Catalogue) :
    Bool :=
  c.attributeDefinitions.entries.any fun e =>
    e.2.code = code ∧ e.2.tenantId = tenantId ∧ excludeId ≠ some e.1

/-- `_count.variantAttributes`. -/
def variantAttributeCount (id : Uuid) (c : Catalogue) : ℕ :=
  (c.variantAttributes.filter (·.attributeDefinitionId = id)).length

/-- `findById`. -/
def findById (id tenantId : Uuid) (c : Catalogue) : Option (AttributeDefinition × ℕ) :=
  ((c.attributeDefinitions.lookup id).filter (·.tenantId = tenantId)).map fun row =>
    (row, variantAttributeCount id c)

/-- `create`, for a tenant that exists or not. -/
def create (id tenantId : Uuid) (data : AttributeData) (tenantExists : Bool) (c : Catalogue) :
    Except Failure Catalogue :=
  if (c.attributeDefinitions.lookup id).isSome ∨ existsByCode data.code tenantId none c then
    .error (.database .uniqueViolation)
  else if ¬ tenantExists then .error (.database .foreignKeyViolation)
  else .ok { c with
    attributeDefinitions := c.attributeDefinitions.insert id
      { tenantId
        name := data.name
        code := data.code
        dataType := data.dataType
        isRequired := data.isRequired.getD false
        description := data.description } }

/-- `update`. -/
def update (id : Uuid) (changes : AttributeChanges) (c : Catalogue) : Except Failure Catalogue :=
  match c.attributeDefinitions.lookup id with
  | none => .error (.database .recordNotFound)
  | some row =>
    if existsByCode (changes.merge row).code row.tenantId (some id) c then
      .error (.database .uniqueViolation)
    else .ok { c with
      attributeDefinitions := c.attributeDefinitions.insert id (changes.merge row) }

/-- `delete`. What variants have of the attribute goes with it. -/
def delete (id : Uuid) (c : Catalogue) : Except Failure Catalogue :=
  if (c.attributeDefinitions.lookup id).isNone then .error (.database .recordNotFound)
  else .ok { c with
    attributeDefinitions := c.attributeDefinitions.keep fun k _ => k ≠ id
    variantAttributes := c.variantAttributes.filter (·.attributeDefinitionId ≠ id) }

end AttributeRepository

namespace AttributeService

/-- `create`. -/
def create (tenantId : Uuid) (data : AttributeData) (id : Uuid) : Service Unit := do
  let existingCode ← find fun s =>
    AttributeRepository.existsByCode data.code tenantId none s.db.catalogue
  demand (existingCode = false) (.app attributeCodeExists)
  let tenantExists ← find fun s => (s.db.tenants.lookup tenantId).isSome
  inCatalogue (AttributeRepository.create id tenantId data tenantExists)

/-- `getById`. -/
def getById (id tenantId : Uuid) : Service (AttributeDefinition × ℕ) := do
  let attr ← find fun s => AttributeRepository.findById id tenantId s.db.catalogue
  orFail attr (.app attributeMissing)

/-- `update`. -/
def update (id tenantId : Uuid) (changes : AttributeChanges) : Service Unit := do
  let _ ← getById id tenantId
  forSome (truthy changes.code) fun code => do
    let existingCode ← find fun s =>
      AttributeRepository.existsByCode code tenantId (some id) s.db.catalogue
    demand (existingCode = false) (.app attributeCodeExists)
  forSome changes.dataType fun dataType => do
    let current ← getById id tenantId
    demand (¬ (current.1.dataType ≠ dataType ∧ 0 < current.2)) (.app attributeTypeInUse)
  inCatalogue (AttributeRepository.update id changes)

/-- `delete`. -/
def delete (id tenantId : Uuid) : Service Unit := do
  let attr ← getById id tenantId
  demand (¬ 0 < attr.2) (.app attributeInUse)
  inCatalogue (AttributeRepository.delete id)

end AttributeService

end PulseOps.Products
