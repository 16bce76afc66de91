import Mathlib.Data.List.MinMax
import PulseOps.Model.Workspace
import PulseOps.ReadCommitted.Designation
import PulseOps.ReadCommitted.Serial

/-!
# Customers and their addresses

`CustomerService` of `customers/customers.service.js` over `customers/customers.repository.js`,
with the tax fields of `customers/customers.validation.js`. Each request is one program: what
it reads before and after its transaction is read in the same program, which is all there is
to see as long as the requests come one after the other.

The identifiers that the database generates and the time of an insertion are given with the
requests. The audit log, the lists and the lengths of texts are left out.
-/

set_option autoImplicit false

open ReadCommitted Program

namespace PulseOps.Customers

open WorkspaceService (slice taxFieldsAccepted)

/-! ### Rows and edits -/

structure CustomerRow extends Customer where
  /-- JSON text -/
  metadata : String := "\x7b\x7d"
  deriving DecidableEq, Repr

structure AddressRow extends CustomerAddress where
  createdAt : ℤ
  deriving DecidableEq, Repr

structure Db where
  customers : Table Uuid CustomerRow := ∅
  addresses : Table Uuid AddressRow := ∅

/-- What one writing statement does. -/
inductive Edit where
  | customerInsert (id : Uuid) (row : CustomerRow)
  | customerUpdate (id : Uuid) (row : CustomerRow)
  | addressInsert (id : Uuid) (row : AddressRow)
  | addressUpdate (id : Uuid) (row : AddressRow)
  /-- `isDefault: false` on some rows -/
  | addressesUnset (ids : List Uuid)
  | addressDelete (id : Uuid)
  deriving DecidableEq

/-- Lockable rows and unique index entries. -/
inductive Key where
  | customer (id : Uuid)
  | customerEmail (tenantId : Uuid) (email : String)
  | address (id : Uuid)
  | defaultAddress (customerId : Uuid) (type : AddressType)
  deriving DecidableEq, Repr

/-- The service asks nobody outside. -/
inductive Call where
  deriving DecidableEq

def noAnswer : Call → Unit := nofun

/-- The addresses of a customer, by their type; one of them is the default. -/
def defaultAddress : Designation AddressRow (Uuid × AddressType) where
  group row := (row.customerId, row.type)
  flag row := row.isDefault

namespace Db

/-- The state after one edit. -/
@[simp] def apply (s : Db) : Edit → Db
  | .customerInsert id row => { s with customers := s.customers.insert id row }
  | .customerUpdate id row => { s with customers := s.customers.insert id row }
  | .addressInsert id row => { s with addresses := s.addresses.insert id row }
  | .addressUpdate id row => { s with addresses := s.addresses.insert id row }
  | .addressesUnset ids =>
    { s with
      addresses := s.addresses.mapRows fun id row =>
        { row with isDefault := if id ∈ ids then false else row.isDefault } }
  | .addressDelete id => { s with addresses := s.addresses.erase id }

/-- Whether a lockable row exists. -/
def present (s : Db) : Key → Bool
  | .customer id => (s.customers.lookup id).isSome
  | .address id => (s.addresses.lookup id).isSome
  | _ => false

end Db

/-- The entry of a customer in the index of the emails in use. -/
def CustomerRow.emailKeys (row : CustomerRow) : List Key :=
  if row.deleted then [] else [.customerEmail row.tenantId row.email]

/-- The entry of an address in the index of the default addresses. -/
def AddressRow.defaultKeys (row : AddressRow) : List Key :=
  if row.isDefault then [.defaultAddress row.customerId row.type] else []

/-- The rows and unique index entries an edit takes. -/
def Edit.footprint : Edit → List Key
  | .customerInsert id row => .customer id :: row.emailKeys
  | .customerUpdate id row => .customer id :: row.emailKeys
  | .addressInsert id row => .address id :: row.defaultKeys
  | .addressUpdate id row => .address id :: row.defaultKeys
  | .addressesUnset ids => ids.map .address
  | .addressDelete id => [.address id]

/-- The customers of all shops as a database. -/
def directory : Database Db Key Edit Call Unit Failure where
  apply := Db.apply
  footprint := Edit.footprint
  present := Db.present

/-- Programs over the customers. -/
abbrev Sql (α : Type) := Program directory α

@[simp] theorem directory_apply (s : Db) (e : Edit) : directory.apply s e = s.apply e := rfl

/-! ### Writing statements and their constraints -/

namespace Statement

/-- No other customer of the shop uses the email (`WHERE "deleted_at" IS NULL`). -/
def emailFree (id : Uuid) (row : CustomerRow) (s : Db) : Bool :=
  row.deleted || s.customers.entries.all fun x =>
    x.1 = id ∨ x.2.deleted = true ∨ x.2.tenantId ≠ row.tenantId ∨ x.2.email ≠ row.email

/-- `customer.create`. -/
def insertCustomer (id : Uuid) (row : CustomerRow) (s : Db) : Except Failure Edit :=
  if (s.customers.lookup id).isNone ∧ emailFree id row s = true then .ok (.customerInsert id row)
  else .error (.database .uniqueViolation)

/-- `customer.update`. -/
def updateCustomer (id : Uuid) (change : CustomerRow → CustomerRow) (s : Db) :
    Except Failure Edit :=
  match s.customers.lookup id with
  | none => .error (.database .recordNotFound)
  | some row =>
    if emailFree id (change row) s then .ok (.customerUpdate id (change row))
    else .error (.database .uniqueViolation)

/-- `customerAddress.create`. -/
def insertAddress (id : Uuid) (row : AddressRow) (s : Db) : Except Failure Edit :=
  if (s.addresses.lookup id).isSome then .error (.database .uniqueViolation)
  else if (s.customers.lookup row.customerId).isNone then .error (.database .foreignKeyViolation)
  else if defaultAddress.admits s.addresses id row then .ok (.addressInsert id row)
  else .error (.database .uniqueViolation)

/-- `customerAddress.update`. -/
def updateAddress (id : Uuid) (change : AddressRow → AddressRow) (s : Db) : Except Failure Edit :=
  match s.addresses.lookup id with
  | none => .error (.database .recordNotFound)
  | some row =>
    if defaultAddress.admits s.addresses id (change row) then .ok (.addressUpdate id (change row))
    else .error (.database .uniqueViolation)

/-- `customerAddress.delete`. -/
def deleteAddress (id : Uuid) (s : Db) : Except Failure Edit :=
  if (s.addresses.lookup id).isSome then .ok (.addressDelete id)
  else .error (.database .recordNotFound)

variable {id : Uuid} {s : Db} {e : Edit}

@[simp] theorem insertCustomer_eq_ok {row : CustomerRow} : insertCustomer id row s = .ok e ↔
    (s.customers.lookup id = none ∧ emailFree id row s = true) ∧ e = .customerInsert id row := by
  unfold insertCustomer
  split_ifs with hfree
  · rw [Option.isNone_iff_eq_none] at hfree
    simp [hfree, eq_comm]
  · rw [Option.isNone_iff_eq_none] at hfree
    simp [hfree]

@[simp] theorem updateCustomer_eq_ok {change : CustomerRow → CustomerRow} :
    updateCustomer id change s = .ok e ↔ ∃ row, s.customers.lookup id = some row ∧
      emailFree id (change row) s = true ∧ e = .customerUpdate id (change row) := by
  unfold updateCustomer
  split
  · simp_all
  · rename_i row hrow
    split_ifs with hfree
    · constructor
      · intro h
        exact ⟨row, hrow, hfree, (Except.ok.inj h).symm⟩
      · rintro ⟨row', hrow', -, rfl⟩
        obtain rfl := Option.some.inj (hrow.symm.trans hrow')
        rfl
    · simp [hrow, hfree]

theorem insertAddress_eq_ok {row : AddressRow} (h : insertAddress id row s = .ok e) :
    s.addresses.lookup id = none ∧ defaultAddress.Admits s.addresses id row ∧
      e = .addressInsert id row := by
  unfold insertAddress at h
  split_ifs at h with hid hcustomer hadmits
  exact ⟨by simpa using hid, Designation.admits_iff.mp hadmits, (Except.ok.inj h).symm⟩

@[simp] theorem updateAddress_eq_ok {change : AddressRow → AddressRow} :
    updateAddress id change s = .ok e ↔ ∃ row, s.addresses.lookup id = some row ∧
      defaultAddress.Admits s.addresses id (change row) ∧ e = .addressUpdate id (change row) := by
  unfold updateAddress
  split
  · simp_all
  · rename_i row hrow
    split_ifs with hadmits
    · rw [Designation.admits_iff] at hadmits
      simp [hrow, hadmits, eq_comm]
    · rw [Designation.admits_iff] at hadmits
      simp [hrow, hadmits]

@[simp] theorem deleteAddress_eq_ok : deleteAddress id s = .ok e ↔
    (s.addresses.lookup id).isSome ∧ e = .addressDelete id := by
  unfold deleteAddress
  split_ifs with hid <;> simp [hid, eq_comm]

end Statement

/-! ### Bodies -/

/-- `addressBodySchema`. A field that is not given and one that is `null` are the same. -/
structure AddressBody where
  type : AddressType
  label : Option String := none
  firstName : Option String := none
  lastName : Option String := none
  company : Option String := none
  line1 : String
  line2 : Option String := none
  city : String
  state : Option String := none
  postalCode : Option String := none
  country : String
  phone : Option String := none
  isDefault : Option Bool := none
  deriving DecidableEq, Repr

/-- `updateAddressSchema`: any of the fields, and `null` where a field may be cleared. -/
structure AddressChanges where
  type : Option AddressType := none
  label : Option (Option String) := none
  firstName : Option (Option String) := none
  lastName : Option (Option String) := none
  company : Option (Option String) := none
  line1 : Option String := none
  line2 : Option (Option String) := none
  city : Option String := none
  state : Option (Option String) := none
  postalCode : Option (Option String) := none
  country : Option String := none
  phone : Option (Option String) := none
  isDefault : Option Bool := none
  deriving DecidableEq, Repr

/-- The body of `createCustomerSchema`. A field that is not given and one that is `null` are
the same. -/
structure CreateCustomer where
  email : String
  firstName : String
  lastName : String
  phone : Option String := none
  metadata : Option String := none
  addresses : List AddressBody := []
  customerType : Option CustomerType := none
  companyName : Option String := none
  gstin : Option String := none
  pan : Option String := none
  stateCode : Option String := none
  deriving DecidableEq, Repr

/-- The body of `updateCustomerSchema`. -/
structure UpdateCustomer where
  email : Option String := none
  firstName : Option String := none
  lastName : Option String := none
  phone : Option (Option String) := none
  metadata : Option String := none
  customerType : Option CustomerType := none
  companyName : Option (Option String) := none
  gstin : Option (Option String) := none
  pan : Option (Option String) := none
  stateCode : Option (Option String) := none
  deriving DecidableEq, Repr

/-- `createCustomerSchema`. -/
def CreateCustomer.accepted (data : CreateCustomer) : Bool :=
  taxFieldsAccepted data.gstin data.pan data.stateCode ∧
    (data.customerType = some .business → (truthy data.companyName).isSome)

/-- `updateCustomerSchema`. -/
def UpdateCustomer.accepted (data : UpdateCustomer) : Bool :=
  taxFieldsAccepted data.gstin.join data.pan.join data.stateCode.join ∧ data ≠ {}

/-! ### Repository -/

/-- A customer as it is shown, with the addresses. -/
structure CustomerView where
  row : CustomerRow
  addresses : List (Uuid × AddressRow)

namespace CustomerRepository

/-- The row of a new customer. -/
def newRow (data : CreateCustomer) (tenantId : Uuid) : CustomerRow where
  tenantId := tenantId
  email := data.email
  firstName := data.firstName
  lastName := data.lastName
  phone := data.phone
  metadata := data.metadata.getD "\x7b\x7d"
  customerType := data.customerType.getD .consumer
  companyName := data.companyName
  gstin := data.gstin
  pan := data.pan <|> (truthy data.gstin).map fun g => slice g 2 12
  stateCode := data.stateCode <|> (truthy data.gstin).map fun g => slice g 0 2

/-- `create`. -/
def create (id : Uuid) (data : CreateCustomer) (tenantId : Uuid) : Sql Unit :=
  perform (Statement.insertCustomer id (newRow data tenantId))

/-- A customer of the shop that is not deleted. -/
def active (id tenantId : Uuid) (s : Db) : Option CustomerRow :=
  (s.customers.lookup id).filter fun row => row.tenantId = tenantId ∧ row.deleted = false

/-- `ADDRESS_ORDER`: by type, the default first, then the older ones first. -/
def addressOrder (a b : Uuid × AddressRow) : Bool :=
  if a.2.type ≠ b.2.type then a.2.type = .shipping
  else if a.2.isDefault ≠ b.2.isDefault then a.2.isDefault
  else a.2.createdAt ≤ b.2.createdAt

/-- `findById`: the customer with all addresses. -/
def findById (id tenantId : Uuid) (s : Db) : Option CustomerView :=
  (active id tenantId s).map fun row =>
    { row
      addresses := ((s.addresses.entries.filter fun x => x.2.customerId = id).map
        fun x => (x.1, x.2)).mergeSort addressOrder }

/-- `findByEmail`. -/
def findByEmail (email : String) (tenantId : Uuid) (s : Db) : Option Uuid :=
  (s.customers.entries.find? fun x =>
    x.2.email = email ∧ x.2.tenantId = tenantId ∧ x.2.deleted = false).map (·.1)

/-- The fields that are given, written over a customer. -/
def changed (data : UpdateCustomer) (row : CustomerRow) : CustomerRow :=
  { row with
    email := data.email.getD row.email
    firstName := data.firstName.getD row.firstName
    lastName := data.lastName.getD row.lastName
    phone := data.phone.getD row.phone
    metadata := data.metadata.getD row.metadata
    customerType := data.customerType.getD row.customerType
    companyName := data.companyName.getD row.companyName
    gstin := data.gstin.getD row.gstin
    pan := data.pan.getD row.pan
    stateCode := data.stateCode.getD row.stateCode }

/-- `update`. -/
def update (id : Uuid) (data : UpdateCustomer) : Sql Unit :=
  perform (Statement.updateCustomer id (changed data))

/-- `softDelete`. -/
def softDelete (id : Uuid) : Sql Unit :=
  perform (Statement.updateCustomer id fun row => { row with deleted := true })

/-- The `where` of the addresses of a customer of one type. -/
def ofType (customerId tenantId : Uuid) (type : AddressType) (row : AddressRow) : Bool :=
  row.tenantId = tenantId ∧ row.customerId = customerId ∧ row.type = type

/-- `findAddress`. -/
def findAddress (addressId customerId tenantId : Uuid) (s : Db) : Option AddressRow :=
  (s.addresses.lookup addressId).filter fun row =>
    row.customerId = customerId ∧ row.tenantId = tenantId

/-- `findDefaultAddress`. -/
def findDefaultAddress (customerId tenantId : Uuid) (type : AddressType) (s : Db) : Option Uuid :=
  (s.addresses.entries.find? fun x =>
    ofType customerId tenantId type x.2 ∧ x.2.isDefault = true).map (·.1)

/-- The row of a new address. -/
def newAddress (data : AddressBody) (customerId tenantId : Uuid) (now : ℤ) : AddressRow where
  tenantId := tenantId
  customerId := customerId
  type := data.type
  label := data.label
  firstName := data.firstName
  lastName := data.lastName
  company := data.company
  line1 := data.line1
  line2 := data.line2
  city := data.city
  state := data.state
  postalCode := data.postalCode
  country := data.country
  phone := data.phone
  isDefault := data.isDefault.getD false
  createdAt := now

/-- `createAddress`. -/
def createAddress (addressId : Uuid) (data : AddressBody) (customerId tenantId : Uuid)
    (now : ℤ) : Sql Unit :=
  perform (Statement.insertAddress addressId (newAddress data customerId tenantId now))

/-- The fields that are given, written over an address. -/
def changedAddress (data : AddressChanges) (row : AddressRow) : AddressRow :=
  { row with
    type := data.type.getD row.type
    label := data.label.getD row.label
    firstName := data.firstName.getD row.firstName
    lastName := data.lastName.getD row.lastName
    company := data.company.getD row.company
    line1 := data.line1.getD row.line1
    line2 := data.line2.getD row.line2
    city := data.city.getD row.city
    state := data.state.getD row.state
    postalCode := data.postalCode.getD row.postalCode
    country := data.country.getD row.country
    phone := data.phone.getD row.phone
    isDefault := data.isDefault.getD row.isDefault }

/-- `updateAddress`. -/
def updateAddress (addressId : Uuid) (data : AddressChanges) : Sql Unit :=
  perform (Statement.updateAddress addressId (changedAddress data))

/-- `deleteAddress`. -/
def deleteAddress (addressId : Uuid) : Sql Unit := perform (Statement.deleteAddress addressId)

/-- The default addresses of a customer of one type. -/
def defaults (customerId tenantId : Uuid) (type : AddressType) (s : Db) : List Uuid :=
  (s.addresses.entries.filter fun x =>
    ofType customerId tenantId type x.2 ∧ x.2.isDefault = true).map (·.1)

/-- `clearDefault`. -/
def clearDefault (customerId tenantId : Uuid) (type : AddressType) : Sql Unit :=
  perform fun s => .ok (.addressesUnset (defaults customerId tenantId type s))

/-- The oldest address of a customer of one type. -/
def oldest (customerId tenantId : Uuid) (type : AddressType) (s : Db) : Option Uuid :=
  (@List.argmin _ ℤ Int.instLinearOrder.toPreorder Int.decLt (fun x => x.2.createdAt)
    (s.addresses.entries.filter fun x => ofType customerId tenantId type x.2)).map (·.1)

/-- `ensureDefault`. -/
def ensureDefault (customerId tenantId : Uuid) (type : AddressType) : Sql Unit := do
  let current ← query (findDefaultAddress customerId tenantId type)
  match current with
  | some _ => return ()
  | none =>
    let first ← query (oldest customerId tenantId type)
    match first with
    | none => return ()
    | some id => perform (Statement.updateAddress id fun row => { row with isDefault := true })

end CustomerRepository

/-! ### Service -/

namespace CustomerService

open CustomerRepository

def emailExists : AppError :=
  ⟨"A customer with this email already exists", 409, "CUSTOMER_EMAIL_EXISTS"⟩

def customerNotFound : AppError := ⟨"Customer not found", 404, "CUSTOMER_NOT_FOUND"⟩

def addressNotFound : AppError := ⟨"Address not found", 404, "ADDRESS_NOT_FOUND"⟩

/-- `catch (err) { if (isUniqueViolation(err)) throw emailExists(); throw err; }`. -/
def catchUniqueViolation : Failure → Failure
  | .database .uniqueViolation => .app emailExists
  | e => e

/-- `getById`. -/
def getById (id tenantId : Uuid) : Sql CustomerView := do
  let customer ← query (findById id tenantId)
  Program.orRaise customer (.app customerNotFound)

/-- `addAddress`: the first address of a type becomes the default. -/
def addAddress (customerId tenantId : Uuid) (addressId : Uuid) (data : AddressBody) (now : ℤ) :
    Sql (Option AddressRow) := do
  if data.isDefault = some true then clearDefault customerId tenantId data.type
  createAddress addressId data customerId tenantId now
  ensureDefault customerId tenantId data.type
  query (findAddress addressId customerId tenantId)

/-- `create`; `addressIds` are the identifiers of the addresses. -/
def create (id tenantId : Uuid) (data : CreateCustomer) (addressIds : List Uuid) (now : ℤ) :
    Sql CustomerView := do
  let other ← query (findByEmail data.email tenantId)
  Program.require (other = none) (.app emailExists)
  mapError catchUniqueViolation do
    CustomerRepository.create id data tenantId
    forM (addressIds.zip data.addresses) fun (addressId, address) => do
      let _ ← addAddress id tenantId addressId address now
  getById id tenantId

/-- `update`. -/
def update (id tenantId : Uuid) (data : UpdateCustomer) : Sql CustomerView := do
  let existing ← getById id tenantId
  let other ← query fun s => data.email.bind (findByEmail · tenantId s)
  Program.require (∀ email ∈ truthy data.email, email ≠ existing.row.email → other = none)
    (.app emailExists)
  mapError catchUniqueViolation (CustomerRepository.update id data)
  getById id tenantId

/-- `delete`. -/
def delete (id tenantId : Uuid) : Sql Unit := do
  let _ ← getById id tenantId
  softDelete id

/-- `createAddress`. -/
def createAddress (id tenantId : Uuid) (addressId : Uuid) (data : AddressBody) (now : ℤ) :
    Sql (Option AddressRow) := do
  let _ ← getById id tenantId
  addAddress id tenantId addressId data now

/-- `updateAddress`. -/
def updateAddress (id addressId tenantId : Uuid) (data : AddressChanges) :
    Sql (Option AddressRow) := do
  let _ ← getById id tenantId
  let found ← query (findAddress addressId id tenantId)
  let existing ← Program.orRaise found (.app addressNotFound)
  let type := data.type.getD existing.type
  if data.isDefault = some true then clearDefault id tenantId type
  CustomerRepository.updateAddress addressId data
  ensureDefault id tenantId existing.type
  if type ≠ existing.type then ensureDefault id tenantId type
  query (findAddress addressId id tenantId)

/-- `deleteAddress`. -/
def deleteAddress (id addressId tenantId : Uuid) : Sql Unit := do
  let _ ← getById id tenantId
  let found ← query (findAddress addressId id tenantId)
  let existing ← Program.orRaise found (.app addressNotFound)
  CustomerRepository.deleteAddress addressId
  ensureDefault id tenantId existing.type

end CustomerService

/-- The requests that write customers or addresses. -/
inductive CustomerRequest where
  | create (id tenantId : Uuid) (data : CreateCustomer) (addressIds : List Uuid) (now : ℤ)
  | update (id tenantId : Uuid) (data : UpdateCustomer)
  | delete (id tenantId : Uuid)
  | createAddress (id tenantId addressId : Uuid) (data : AddressBody) (now : ℤ)
  | updateAddress (id addressId tenantId : Uuid) (data : AddressChanges)
  | deleteAddress (id addressId tenantId : Uuid)

inductive CustomerResult where
  | customer (view : CustomerView)
  | address (row : Option AddressRow)
  | deleted

/-- The program of a request. -/
def CustomerRequest.program : CustomerRequest → Sql CustomerResult
  | .create id tenantId data addressIds now =>
    .customer <$> CustomerService.create id tenantId data addressIds now
  | .update id tenantId data => .customer <$> CustomerService.update id tenantId data
  | .delete id tenantId => (fun _ => .deleted) <$> CustomerService.delete id tenantId
  | .createAddress id tenantId addressId data now =>
    .address <$> CustomerService.createAddress id tenantId addressId data now
  | .updateAddress id addressId tenantId data =>
    .address <$> CustomerService.updateAddress id addressId tenantId data
  | .deleteAddress id addressId tenantId =>
    (fun _ => .deleted) <$> CustomerService.deleteAddress id addressId tenantId

end PulseOps.Customers
