import PulseOps.Model.Settings

/-!
# Concurrent changes of the settings

`updateSettings` and `updateTaxProfile` write back a document that they have read before. If
another request commits in between, its changes are overwritten, even if the two have no key
in common. As long as every request commits on the document it has read, the requests might
as well have come one after the other, and what one of them has set stays until another one
sets it.

## Main definitions

* `DocumentKey` — a key of the document, or of the tax profile in it.
* `SettingsRequest.change` — what a request does to a key that it names.
* `settingsStand` — every request commits on the document it has read.

## Main results

* `value_of_unnamed` — a request leaves alone what it does not name.
* `settings_serial` — the requests that commit are applied one after the other.
-/

set_option autoImplicit false

open ReadCommitted Program

namespace PulseOps.Settings

open WorkspaceService

/-! ### Keys -/

/-- The keys of the tax profile. -/
inductive TaxKey where
  | legalName
  | tradeName
  | registrationType
  | gstin
  | pan
  | stateCode
  | address
  | phone
  | email
  | bankName
  | accountNumber
  | ifsc
  | upiId
  | signatory
  | invoicePrefix
  | invoiceTerms
  | pricesIncludeTax
  deriving DecidableEq

/-- The value of a key. -/
inductive Value where
  | json (value : JsonValue)
  | text (value : String)
  | registration (value : RegistrationType)
  | flag (value : Bool)
  deriving DecidableEq

namespace TaxKey

/-- What the profile has for a key. -/
def get (profile : TaxProfile) : TaxKey → Option Value
  | legalName => profile.legalName.map .text
  | tradeName => profile.tradeName.map .text
  | registrationType => profile.registrationType.map .registration
  | gstin => profile.gstin.map .text
  | pan => profile.pan.map .text
  | stateCode => profile.stateCode.map .text
  | address => profile.address.map .text
  | phone => profile.phone.map .text
  | email => profile.email.map .text
  | bankName => profile.bankName.map .text
  | accountNumber => profile.accountNumber.map .text
  | ifsc => profile.ifsc.map .text
  | upiId => profile.upiId.map .text
  | signatory => profile.signatory.map .text
  | invoicePrefix => profile.invoicePrefix.map .text
  | invoiceTerms => profile.invoiceTerms.map .text
  | pricesIncludeTax => profile.pricesIncludeTax.map .flag

/-- What the body gives for a key. -/
def given (changes : TaxProfileChanges) : TaxKey → Option (Option Value)
  | legalName => changes.legalName.map (·.map .text)
  | tradeName => changes.tradeName.map (·.map .text)
  | registrationType => changes.registrationType.map (·.map .registration)
  | gstin => changes.gstin.map (·.map .text)
  | pan => changes.pan.map (·.map .text)
  | stateCode => changes.stateCode.map (·.map .text)
  | address => changes.address.map (·.map .text)
  | phone => changes.phone.map (·.map .text)
  | email => changes.email.map (·.map .text)
  | bankName => changes.bankName.map (·.map .text)
  | accountNumber => changes.accountNumber.map (·.map .text)
  | ifsc => changes.ifsc.map (·.map .text)
  | upiId => changes.upiId.map (·.map .text)
  | signatory => changes.signatory.map (·.map .text)
  | invoicePrefix => changes.invoicePrefix.map (·.map .text)
  | invoiceTerms => changes.invoiceTerms.map (·.map .text)
  | pricesIncludeTax => changes.pricesIncludeTax.map (·.map .flag)

/-- The keys that a GSTIN fills in. -/
def filledIn (key : TaxKey) : Bool := key = stateCode ∨ key = pan

end TaxKey

inductive DocumentKey where
  | setting (name : String)
  | tax (key : TaxKey)
  deriving DecidableEq

/-- What the document has for a key. -/
def Document.value (d : Document) : DocumentKey → Option Value
  | .setting name => (d.settings.lookup name).map .json
  | .tax key => key.get d.taxProfile

/-- The keys that another key may fill in. -/
def DocumentKey.filledIn : DocumentKey → Bool
  | .setting _ => false
  | .tax key => key.filledIn

/-- What the request does to a key that it names: it sets a value, or clears the key. -/
def SettingsRequest.change : SettingsRequest → DocumentKey → Option (Option Value)
  | .settings changes, .setting name => (changes.lookup name).map (·.map .json)
  | .taxProfile changes, .tax key => key.given changes
  | _, _ => none

/-- The document after the request. -/
def SettingsRequest.next (d : Document) : SettingsRequest → Document
  | .settings changes => { d with settings := applyChanges changes d.settings }
  | .taxProfile changes =>
    { d with taxProfile := fillFromGstin (changes.merge d.taxProfile) }

/-! ### One request -/

/-- Giving a key what the body has for it. -/
theorem lookup_applyChange (settings : Metadata) (key name : String) (c : Option JsonValue) :
    (applyChange settings key c).lookup name =
      if name = key then c else settings.lookup name := by
  cases c with
  | none =>
    split_ifs with h
    · rw [h]
      exact AList.lookup_erase _ _
    · exact AList.lookup_erase_ne h
  | some value =>
    split_ifs with h
    · rw [h]
      exact AList.lookup_insert _
    · exact AList.lookup_insert_ne h

theorem lookup_foldl_applyChange {cs : List (Sigma fun _ : String => Option JsonValue)}
    (hcs : cs.NodupKeys) (settings : Metadata) (name : String) :
    (cs.foldl (fun settings c => applyChange settings c.1 c.2) settings).lookup name =
      (cs.dlookup name).getD (settings.lookup name) := by
  induction cs generalizing settings with
  | nil => rfl
  | cons c cs ih =>
    rw [List.nodupKeys_cons] at hcs
    rw [List.foldl_cons, ih hcs.2, lookup_applyChange]
    by_cases h : name = c.1
    · -- the key comes once, and so nothing later changes it
      subst h
      rw [if_pos rfl, List.dlookup_cons_eq, List.dlookup_eq_none.mpr hcs.1]
      rfl
    · rw [if_neg h, List.dlookup_cons_ne _ _ h]

theorem lookup_applyChanges (changes : SettingsChanges) (settings : Metadata) (name : String) :
    (applyChanges changes settings).lookup name =
      (changes.lookup name).getD (settings.lookup name) :=
  lookup_foldl_applyChange changes.nodupKeys settings name

theorem map_getD {α β : Type} (f : α → β) (given : Option (Option α)) (old : Option α) :
    (given.getD old).map f = (given.map (·.map f)).getD (old.map f) := by
  cases given <;> rfl

theorem get_merge (changes : TaxProfileChanges) (profile : TaxProfile) (key : TaxKey) :
    key.get (changes.merge profile) = (key.given changes).getD (key.get profile) := by
  cases key <;> exact map_getD _ _ _

/-- A GSTIN only fills in what is missing. -/
theorem get_fillFromGstin (profile : TaxProfile) (key : TaxKey)
    (h : (key.get profile).isSome = true ∨ key.filledIn = false) :
    key.get (fillFromGstin profile) = key.get profile := by
  unfold fillFromGstin
  cases truthy profile.gstin with
  | none => rfl
  | some gstin =>
    cases key with
    | stateCode =>
      have hsome : profile.stateCode.isSome = true := by simpa [TaxKey.get, TaxKey.filledIn] using h
      obtain ⟨code, hcode⟩ := Option.isSome_iff_exists.mp hsome
      simp [TaxKey.get, hcode]
    | pan =>
      have hsome : profile.pan.isSome = true := by simpa [TaxKey.get, TaxKey.filledIn] using h
      obtain ⟨pan, hpan⟩ := Option.isSome_iff_exists.mp hsome
      simp [TaxKey.get, hpan]
    | _ => rfl

/-- What the document has for a key after a request, unless a GSTIN fills it in. -/
theorem value_next (r : SettingsRequest) (d : Document) (key : DocumentKey)
    (h : ((r.change key).getD (d.value key)).isSome = true ∨ key.filledIn = false) :
    (r.next d).value key = (r.change key).getD (d.value key) := by
  cases r with
  | settings changes =>
    cases key with
    | setting name =>
      simp only [SettingsRequest.next, Document.value, SettingsRequest.change, lookup_applyChanges]
      exact map_getD _ _ _
    | tax key => rfl
  | taxProfile changes =>
    cases key with
    | setting name => rfl
    | tax key =>
      have hmerge := get_merge changes d.taxProfile key
      refine (get_fillFromGstin _ key ?_).trans hmerge
      rw [hmerge]
      exact h

/-- What a request sets a key to. -/
theorem value_of_named {r : SettingsRequest} {key : DocumentKey} {w : Option Value}
    (h : r.change key = some w) (hw : w.isSome = true ∨ key.filledIn = false) (d : Document) :
    (r.next d).value key = w := by
  have hvalue := value_next r d key (by rwa [h])
  rwa [h] at hvalue

/-- A request leaves alone what it does not name. -/
theorem value_of_unnamed {r : SettingsRequest} {key : DocumentKey} {w : Option Value}
    {d : Document} (h : r.change key = none) (hw : w.isSome = true ∨ key.filledIn = false)
    (hd : d.value key = w) : (r.next d).value key = w := by
  have hvalue := value_next r d key (by rw [h, hd]; exact hw)
  rw [h, hd] at hvalue
  exact hvalue

variable {tenantId : Uuid} {r : SettingsRequest} {s s₀ : Db} {a : Answer} {es : List Edit}

/-- What is left of a request once it has read the document. -/
def SettingsRequest.rest (tenantId : Uuid) (d : Document) (r : SettingsRequest) : Sql Answer :=
  match r with
  | .settings changes => do
    record (.settingsUpsert tenantId d (r.next d))
    return .settings (toSettings (applyChanges changes d.settings))
  | .taxProfile changes => do
    let next := fillFromGstin (changes.merge d.taxProfile)
    Program.require
      ((truthy next.gstin).all fun gstin => next.stateCode = some (slice gstin 0 2))
      (.app ⟨"The GSTIN belongs to a different state than the business state", 400,
        "GSTIN_STATE_MISMATCH"⟩)
    record (.settingsUpsert tenantId d (r.next d))
    return .taxProfile next (next.stateCode.bind Gst.stateName)

theorem program_eq (tenantId : Uuid) (r : SettingsRequest) :
    r.program tenantId = select fun s => r.rest tenantId (findSettings tenantId s) := by
  cases r <;> rfl

/-- A request that runs alone writes one document. -/
theorem edits_of_runs (h : Runs noAnswer (r.program tenantId) s a es) :
    es =
      [.settingsUpsert tenantId (findSettings tenantId s) (r.next (findSettings tenantId s))] := by
  rw [program_eq, runs_select] at h
  cases r with
  | settings changes =>
    obtain ⟨es', hrest, rfl⟩ := runs_record_bind.mp h
    obtain ⟨-, rfl⟩ := runs_ret.mp hrest
    rfl
  | taxProfile changes =>
    obtain ⟨-, h⟩ := runs_require_bind.mp h
    obtain ⟨es', hrest, rfl⟩ := runs_record_bind.mp h
    obtain ⟨-, rfl⟩ := runs_ret.mp hrest
    rfl

theorem findSettings_of_runs (h : Runs noAnswer (r.program tenantId) s a es) :
    findSettings tenantId (workspace.replay es s) = r.next (findSettings tenantId s) := by
  rw [edits_of_runs h]
  simp [findSettings]

/-! ### Overlapping requests -/

/-- The document that a request of the shop has read before it wrote. -/
def found (tenantId : Uuid) : List Edit → Option Document
  | [.settingsUpsert id found _] => if id = tenantId then some found else none
  | _ => none

/-- Every request commits on the document it has read: no other request has changed it since. -/
def settingsStand (tenantId : Uuid) : Discipline workspace where
  commit s t := found tenantId t.edits = some (findSettings tenantId s)

theorem found_singleton (tenantId : Uuid) (d d' : Document) :
    found tenantId ([] ++ [.settingsUpsert tenantId d d']) = some d := by
  simp [found]

theorem blind_rest (tenantId : Uuid) (d : Document) (r : SettingsRequest) :
    (r.rest tenantId d).Blind := by
  cases r with
  | settings changes => exact blind_record trivial
  | taxProfile changes => exact blind_require (blind_record trivial)

theorem writes_rest (tenantId : Uuid) (d : Document) (r : SettingsRequest) :
    (r.rest tenantId d).Writes (fun es => found tenantId es = some d) [] := by
  cases r with
  | settings changes =>
    intro s e he
    obtain rfl := Except.ok.inj he
    exact found_singleton tenantId d _
  | taxProfile changes =>
    refine (ReadsOnly.require _ _).writes_bind fun _ s e he => ?_
    obtain rfl := Except.ok.inj he
    exact found_singleton tenantId d _

/-- The requests read the document first, and note it in what they write. -/
theorem readOnce_program (tenantId : Uuid) (requests : List SettingsRequest) :
    ReadOnce (settingsStand tenantId) (requests.map (·.program tenantId)) (findSettings tenantId)
      (found tenantId) := by
  refine ⟨fun p hp => ?_, fun s t h => of_decide_eq_true h⟩
  obtain ⟨r, -, rfl⟩ := List.mem_map.mp hp
  exact ⟨fun d => r.rest tenantId d, program_eq tenantId r,
    fun d => ⟨blind_rest tenantId d r, writes_rest tenantId d r⟩⟩

/-- In a serial log, what a request has set stays until a later one names the key. -/
theorem value_of_serialLog {requests : List SettingsRequest} {log : List (Commit workspace)}
    (h : SerialLog noAnswer (requests.map (·.program tenantId)) s₀ log s)
    {later earlier : List (Commit workspace)} {x : Commit workspace}
    (hlog : log = later ++ x :: earlier) (hr : requests[x.session]? = some r)
    {key : DocumentKey} {w : Option Value} (hchange : r.change key = some w)
    (hw : w.isSome = true ∨ key.filledIn = false)
    (hlater : ∀ y ∈ later, ∀ r', requests[y.session]? = some r' → r'.change key = none) :
    (findSettings tenantId s).value key = w := by
  induction h generalizing later with
  | nil => simp at hlog
  | @commit log s i p a es hlog' hp hrun ih =>
    rw [List.getElem?_map, Option.map_eq_some_iff] at hp
    obtain ⟨r', hr', rfl⟩ := hp
    rw [findSettings_of_runs hrun]
    cases later with
    | nil =>
      obtain ⟨rfl, rfl⟩ := List.cons.inj hlog
      obtain rfl := Option.some.inj (hr.symm.trans hr')
      exact value_of_named hchange hw _
    | cons y later =>
      obtain ⟨rfl, rfl⟩ := List.cons.inj hlog
      rw [List.forall_mem_cons] at hlater
      exact value_of_unnamed (hlater.1 r' hr') hw (ih rfl hlater.2)

/-- **Settings.** When every request commits on the document it has read, the requests that
have committed are applied one after the other, each of them once. A value that one of them
has set, or a key it has cleared, stays until a later one names the key; only a GSTIN may fill
in a state code or a PAN that was cleared. -/
theorem settings_serial {requests : List SettingsRequest} {c : Config workspace Answer}
    (h : Reaches (settingsStand tenantId)
      (.start s₀ (requests.map (·.program tenantId))) c) :
    SerialLog noAnswer (requests.map (·.program tenantId)) s₀ c.log c.committed ∧
    ((c.log.map Commit.session).Nodup ∧ ∀ i, i ∈ c.log.map Commit.session ↔
      ∃ a t, c.sessions[i]? = some (.committed a t)) ∧
    ∀ later x earlier r key w, c.log = later ++ x :: earlier →
      requests[x.session]? = some r → r.change key = some w →
      (w.isSome = true ∨ key.filledIn = false) →
      (∀ y ∈ later, ∀ r', requests[y.session]? = some r' → r'.change key = none) →
      (findSettings tenantId c.committed).value key = w := by
  have hserial : SerialLog noAnswer (requests.map (·.program tenantId)) s₀ c.log c.committed :=
    (readOnce_program tenantId requests).serialLog h
  refine ⟨hserial, h.log_sessions, ?_⟩
  intro later x earlier r key w hlog hr hchange hw hlater
  exact value_of_serialLog hserial hlog hr hchange hw hlater

namespace Sample

/-- One request sets the currency, another one the time zone. -/
def currencyAndTimezone : List SettingsRequest :=
  [.settings (AList.insert "currency" (some (.str "USD")) ∅),
    .settings (AList.insert "timezone" (some (.str "Asia/Kolkata")) ∅)]

def sessions : List (Sql Answer) := currencyAndTimezone.map (·.program "shop")

/-- The sessions take their turns. -/
def turns (is : List ℕ) : List (Action workspace) := is.map .advance

end Sample

open Settings.Sample in
/-- One request after the other: the currency is still there. -/
theorem settings_serial_sample : ∃ c, Reaches (settingsStand "shop") (.start {} sessions) c ∧
    (findSettings "shop" c.committed).value (.setting "currency") =
      some (.json (.str "USD")) := by
  have hrun : ((Config.start {} sessions).run (settingsStand "shop")
      (turns [0, 0, 0, 1, 1, 1])).map (fun c => c.log.map Commit.session) = some [1, 0] := by
    decide +kernel
  obtain ⟨c, hc, hlog⟩ := Option.map_eq_some_iff.mp hrun
  have hreach := reaches_of_run .refl hc
  obtain ⟨-, -, hvalue⟩ := @settings_serial "shop" {} currencyAndTimezone c hreach
  refine ⟨c, hreach, ?_⟩
  obtain ⟨y, rest, hy, hsecond, hrest⟩ := List.map_eq_cons_iff.mp hlog
  obtain ⟨x, rest', hx, hfirst, -⟩ := List.map_eq_cons_iff.mp hrest
  refine hvalue [y] x rest' (.settings (AList.insert "currency" (some (.str "USD")) ∅))
    (.setting "currency") _ ?_ ?_ ?_ (.inr rfl) ?_
  · rw [hy, hx]
    rfl
  · rw [hfirst]
    rfl
  · decide +kernel
  · intro y' hy' r' hr'
    obtain rfl := List.mem_singleton.mp hy'
    rw [hsecond] at hr'
    obtain rfl := Option.some.inj hr'
    decide +kernel

open Settings.Sample in
/-- Both requests read before either writes: the currency is gone. -/
theorem settings_lost : ∃ c, Reaches (.free workspace) (.start {} sessions) c ∧
    (∀ i < 2, i ∈ c.log.map Commit.session) ∧
    (findSettings "shop" c.committed).value (.setting "currency") = none ∧
    ∀ is ∈ [[0, 0, 0, 1, 1, 1], [1, 1, 1, 0, 0, 0]],
      ((Config.start {} sessions).run (.free workspace) (turns is)).map
        (fun c => (findSettings "shop" c.committed).value (.setting "currency")) =
          some (some (.json (.str "USD"))) := by
  have hrun : ((Config.start {} sessions).run (.free workspace)
      (turns [0, 1, 0, 0, 1, 1])).map (fun c => (c.log.map Commit.session,
        (findSettings "shop" c.committed).value (.setting "currency"))) =
          some ([1, 0], none) := by
    decide +kernel
  obtain ⟨c, hc, hfields⟩ := Option.map_eq_some_iff.mp hrun
  obtain ⟨hlog, hvalue⟩ := Prod.mk.inj hfields
  refine ⟨c, reaches_of_run .refl hc, ?_, hvalue, by decide +kernel⟩
  rw [hlog]
  decide

end PulseOps.Settings
