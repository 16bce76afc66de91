import PulseOps.Model.Workspace
import PulseOps.ReadCommitted.ReadOnce

/-!
# The settings document of a shop

`updateSettings` and `updateTaxProfile` of `workspace/workspace.service.js` over
`TenantSettings.metadata`, as requests that overlap. Both read the whole document, change a
part of it and write the whole document back, without a lock on the row.

An edit also holds the document that the request has read. That is no part of the statement,
and no request looks at it. The audit log is left out.
-/

set_option autoImplicit false

open ReadCommitted Program

namespace PulseOps.Settings

open WorkspaceService

/-! ### Documents and edits -/

/-- `TenantSettings.metadata`: `taxProfile`, and the other keys. -/
@[ext] structure Document where
  settings : Metadata := ∅
  taxProfile : TaxProfile := {}

/-- Documents are compared row by row. -/
instance : DecidableEq Document := fun d d' =>
  decidable_of_iff (d.settings.entries = d'.settings.entries ∧ d.taxProfile = d'.taxProfile)
    ⟨fun h => Document.ext (AList.ext h.1) h.2, fun h => h ▸ ⟨rfl, rfl⟩⟩

structure Db where
  tenantSettings : Table Uuid Document := ∅

/-- What one writing statement does. -/
inductive Edit where
  /-- the document before it that the request has read, and the new one -/
  | settingsUpsert (tenantId : Uuid) (found row : Document)
  deriving DecidableEq

/-- Lockable rows. -/
inductive Key where
  | tenantSettings (tenantId : Uuid)
  deriving DecidableEq, Repr

/-- The requests ask nobody outside. -/
inductive Call where
  deriving DecidableEq

def noAnswer : Call → Unit := nofun

/-- The state after one edit. -/
@[simp] def Db.apply (s : Db) : Edit → Db
  | .settingsUpsert tenantId _ row =>
    { s with tenantSettings := s.tenantSettings.insert tenantId row }

/-- Whether a lockable row exists. -/
def Db.present (s : Db) : Key → Bool
  | .tenantSettings tenantId => (s.tenantSettings.lookup tenantId).isSome

/-- The rows an edit takes. -/
def Edit.footprint : Edit → List Key
  | .settingsUpsert tenantId _ _ => [.tenantSettings tenantId]

/-- The settings of all shops as a database. -/
def workspace : Database Db Key Edit Call Unit Failure where
  apply := Db.apply
  footprint := Edit.footprint
  present := Db.present

/-- Programs over the settings. -/
abbrev Sql (α : Type) := Program workspace α

@[simp] theorem workspace_apply (s : Db) (e : Edit) : workspace.apply s e = s.apply e := rfl

/-! ### Service -/

/-- `SETTING_KEYS`. -/
def settingKeys : List String :=
  ["currency", "timezone", "locale", "contactEmail", "contactPhone", "gstRatePercent"]

/-- `toSettings`. -/
def toSettings (settings : Metadata) : List (String × JsonValue) :=
  settingKeys.map fun key => (key, (settings.lookup key).getD .null)

/-- What a request answers. -/
inductive Answer where
  | settings (view : List (String × JsonValue))
  | taxProfile (profile : TaxProfile) (stateName : Option String)

/-- The document of a shop, if it has none the empty one. -/
def findSettings (tenantId : Uuid) (s : Db) : Document :=
  (s.tenantSettings.lookup tenantId).getD {}

/-- Given keys are set, `null` clears them, the others are kept. -/
def applyChange (settings : Metadata) (key : String) : Option JsonValue → Metadata
  | none => settings.erase key
  | some value => settings.insert key value

/-- The body of the request, key by key. -/
abbrev SettingsChanges := Table String (Option JsonValue)

def applyChanges (changes : SettingsChanges) (settings : Metadata) : Metadata :=
  changes.entries.foldl (fun settings c => applyChange settings c.1 c.2) settings

/-- `updateSettings`. -/
def updateSettings (tenantId : Uuid) (changes : SettingsChanges) : Sql Answer := do
  let current ← query (findSettings tenantId)
  let next := applyChanges changes current.settings
  record (.settingsUpsert tenantId current { current with settings := next })
  return .settings (toSettings next)

/-- `updateTaxProfile`. -/
def updateTaxProfile (tenantId : Uuid) (changes : TaxProfileChanges) : Sql Answer := do
  let metadata ← query (findSettings tenantId)
  let next := fillFromGstin (changes.merge metadata.taxProfile)
  Program.require
    ((truthy next.gstin).all fun gstin => next.stateCode = some (slice gstin 0 2))
    (.app ⟨"The GSTIN belongs to a different state than the business state", 400,
      "GSTIN_STATE_MISMATCH"⟩)
  record (.settingsUpsert tenantId metadata { metadata with taxProfile := next })
  return .taxProfile next (next.stateCode.bind Gst.stateName)

inductive SettingsRequest where
  | settings (changes : SettingsChanges)
  | taxProfile (changes : TaxProfileChanges)

/-- The program of a request of the shop. -/
def SettingsRequest.program (tenantId : Uuid) : SettingsRequest → Sql Answer
  | .settings changes => updateSettings tenantId changes
  | .taxProfile changes => updateTaxProfile tenantId changes

end PulseOps.Settings
