import PulseOps.Model.Gst

/-!
# The workspace's tax profile

`updateTaxProfile` of `workspace/workspace.service.js`: the GST identity that is printed on
invoices, with the invoice prefix among its fields.
-/

set_option autoImplicit false

open ReadCommitted Program

namespace PulseOps

namespace WorkspaceService

/-- The body of the request: a key that is not given, one that is cleared by `null`, or a
new value. -/
structure TaxProfileChanges where
  legalName : Option (Option String) := none
  tradeName : Option (Option String) := none
  registrationType : Option (Option RegistrationType) := none
  gstin : Option (Option String) := none
  pan : Option (Option String) := none
  stateCode : Option (Option String) := none
  address : Option (Option String) := none
  phone : Option (Option String) := none
  email : Option (Option String) := none
  bankName : Option (Option String) := none
  accountNumber : Option (Option String) := none
  ifsc : Option (Option String) := none
  upiId : Option (Option String) := none
  signatory : Option (Option String) := none
  invoicePrefix : Option (Option String) := none
  invoiceTerms : Option (Option String) := none
  pricesIncludeTax : Option (Option Bool) := none
  deriving DecidableEq

/-- Given keys are set, `null` clears them, the others are kept. -/
def TaxProfileChanges.merge (changes : TaxProfileChanges) (before : TaxProfile) : TaxProfile where
  legalName := changes.legalName.getD before.legalName
  tradeName := changes.tradeName.getD before.tradeName
  registrationType := changes.registrationType.getD before.registrationType
  gstin := changes.gstin.getD before.gstin
  pan := changes.pan.getD before.pan
  stateCode := changes.stateCode.getD before.stateCode
  address := changes.address.getD before.address
  phone := changes.phone.getD before.phone
  email := changes.email.getD before.email
  bankName := changes.bankName.getD before.bankName
  accountNumber := changes.accountNumber.getD before.accountNumber
  ifsc := changes.ifsc.getD before.ifsc
  upiId := changes.upiId.getD before.upiId
  signatory := changes.signatory.getD before.signatory
  invoicePrefix := changes.invoicePrefix.getD before.invoicePrefix
  invoiceTerms := changes.invoiceTerms.getD before.invoiceTerms
  pricesIncludeTax := changes.pricesIncludeTax.getD before.pricesIncludeTax

/-- `value.slice(from, to)`. -/
def slice (value : String) (start stop : ℕ) : String :=
  String.ofList ((value.toList.drop start).take (stop - start))

/-- The checks that `taxProfileBody` and the schemas of the customers make of the tax fields
that are given: each of them by itself, and the GSTIN against the state. -/
def taxFieldsAccepted (gstin pan stateCode : Option String) : Bool :=
  gstin.all Gst.isValidGstin ∧ pan.all Gst.isValidPan ∧ stateCode.all Gst.isStateCode ∧
    gstin.all fun g => stateCode.all fun code => slice g 0 2 = code

/-- `taxProfileBody`, as far as the tax fields go. -/
def TaxProfileChanges.accepted (changes : TaxProfileChanges) : Bool :=
  taxFieldsAccepted changes.gstin.join changes.pan.join changes.stateCode.join ∧ changes ≠ {}

/-- A GSTIN carries the state and the PAN; they are filled in when they were not given. -/
def fillFromGstin (profile : TaxProfile) : TaxProfile :=
  match truthy profile.gstin with
  | none => profile
  | some gstin =>
    { profile with
      stateCode := profile.stateCode <|> some (slice gstin 0 2)
      pan := profile.pan <|> some (slice gstin 2 12) }

/-- Partial update of the tax profile; the other settings are kept. -/
def updateTaxProfile (tenantId : Uuid) (changes : TaxProfileChanges) : Sql TaxProfile := do
  let settings ← query fun s => (s.tenantSettings.lookup tenantId).getD {}
  let next := fillFromGstin (changes.merge settings.taxProfile)
  ensure ((truthy next.gstin).all fun gstin => next.stateCode = some (slice gstin 0 2))
    "The GSTIN belongs to a different state than the business state" 400 "GSTIN_STATE_MISMATCH"
  record (.tenantSettingsUpsert tenantId { settings with taxProfile := next })
  return next

end WorkspaceService

end PulseOps
