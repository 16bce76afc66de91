import PulseOps.Model.Customers

/-!
# The GST identity of shops and customers

A GSTIN carries the state code of its holder in its first two digits and the PAN in the ten
characters after them. Invoices are split by the state code, so the three should agree
wherever a GSTIN is stored: in the tax profile of a shop and in the row of a customer.

`updateTaxProfile` checks the state code against the GSTIN, but not the PAN. `create` fills
in what is missing and keeps a PAN that is given. `update` writes what it is given, field by
field. The schemas compare a GSTIN with a state code only if one request gives both.

## Main definitions

* `Books.Consistent` — wherever a GSTIN is stored, the state code and the PAN are those of it.
* `TaxCall.keepsIdentity` — the condition a call has to meet.

## Main results

* `consistent_step_iff` — one call keeps the books consistent exactly if it meets the condition.
* `gstIdentity_iff` — the same of a sequence of calls.
-/

set_option autoImplicit false

open ReadCommitted Program

namespace PulseOps.TaxIdentity

open Customers WorkspaceService

/-- The state code and the PAN are those of the GSTIN, if there is one. -/
def Agrees (gstin pan stateCode : Option String) : Prop :=
  ∀ g, truthy gstin = some g → stateCode = some (slice g 0 2) ∧ pan = some (slice g 2 12)

/-- The settings of the shops, and the customers of all shops. -/
structure Books where
  shops : PulseOps.Db
  directory : Customers.Db

structure Books.Consistent (x : Books) : Prop where
  shops : ∀ tenantId settings, x.shops.tenantSettings.lookup tenantId = some settings →
    Agrees settings.taxProfile.gstin settings.taxProfile.pan settings.taxProfile.stateCode
  customers : ∀ id row, x.directory.customers.lookup id = some row →
    Agrees row.gstin row.pan row.stateCode

/-- The calls that write tax fields. -/
inductive TaxCall where
  | updateTaxProfile (tenantId : Uuid) (changes : TaxProfileChanges)
  | create (id : Uuid) (data : CreateCustomer) (tenantId : Uuid)
  | update (id : Uuid) (data : UpdateCustomer)

/-- The schema of the body accepts it. -/
def TaxCall.accepted : TaxCall → Bool
  | .updateTaxProfile _ changes => changes.accepted
  | .create _ data _ => data.accepted
  | .update _ data => data.accepted

/-- The books after a call that runs alone. -/
def Books.step (answer : PulseOps.Call → Reply) (x : Books) : TaxCall → Books
  | .updateTaxProfile tenantId changes =>
    { x with shops := (updateTaxProfile tenantId changes).after answer x.shops }
  | .create id data tenantId =>
    { x with
      directory := (CustomerRepository.create id data tenantId).after noAnswer x.directory }
  | .update id data =>
    { x with directory := (CustomerRepository.update id data).after noAnswer x.directory }

/-! ### The conditions -/

/-- If the profile is to have a GSTIN of the state it is to have, then the PAN that is given,
or the stored one, is that of the GSTIN or there is none. -/
abbrev profileKeepsIdentity (changes : TaxProfileChanges) (stored : TaxProfile) : Prop :=
  ∀ g ∈ truthy (changes.gstin.getD stored.gstin),
    (∀ code ∈ changes.stateCode.getD stored.stateCode, code = slice g 0 2) →
      ∀ pan ∈ changes.pan.getD stored.pan, pan = slice g 2 12

/-- A PAN that is given with a GSTIN is that of the GSTIN. -/
abbrev createKeepsIdentity (data : CreateCustomer) : Prop :=
  ∀ g ∈ truthy data.gstin, ∀ pan ∈ data.pan, pan = slice g 2 12

/-- A new GSTIN comes with its state code and PAN, unless the stored ones are already those.
While the stored GSTIN stays, a state code or a PAN that is given is that of it. -/
abbrev updateKeepsIdentity (data : UpdateCustomer) (stored : CustomerRow) : Prop :=
  (∀ given ∈ data.gstin, ∀ g ∈ truthy given,
    data.stateCode.getD stored.stateCode = some (slice g 0 2) ∧
      data.pan.getD stored.pan = some (slice g 2 12)) ∧
  (data.gstin = none → ∀ g ∈ truthy stored.gstin,
    (∀ code ∈ data.stateCode, code = some (slice g 0 2)) ∧
      ∀ pan ∈ data.pan, pan = some (slice g 2 12))

/-- The condition on a call and the books it meets. A call that the database refuses, since
the row or the email is taken or the row is not there, meets it. -/
def TaxCall.keepsIdentity (x : Books) : TaxCall → Prop
  | .updateTaxProfile tenantId changes =>
    profileKeepsIdentity changes ((x.shops.tenantSettings.lookup tenantId).getD {}).taxProfile
  | .create id data tenantId =>
    x.directory.customers.lookup id = none →
      Statement.emailFree id (CustomerRepository.newRow data tenantId) x.directory = true →
        createKeepsIdentity data
  | .update id data =>
    ∀ row ∈ x.directory.customers.lookup id,
      Statement.emailFree id (CustomerRepository.changed data row) x.directory = true →
        updateKeepsIdentity data row

variable {answer : PulseOps.Call → Reply} {x : Books} {tenantId id : Uuid}

/-! ### One row -/

/-- The profile that is stored. -/
theorem agrees_fillFromGstin {next : TaxProfile}
    (hstate : (truthy (fillFromGstin next).gstin).all fun g =>
      (fillFromGstin next).stateCode = some (slice g 0 2)) :
    Agrees (fillFromGstin next).gstin (fillFromGstin next).pan (fillFromGstin next).stateCode ↔
      ∀ g, truthy next.gstin = some g → ∀ pan, next.pan = some pan → pan = slice g 2 12 := by
  unfold Agrees
  unfold fillFromGstin at hstate ⊢
  cases hg : truthy next.gstin with
  | none => simp [hg]
  | some gstin =>
    simp only [hg, Option.some.injEq, forall_eq'] at hstate ⊢
    have hcode : (next.stateCode <|> some (slice gstin 0 2)) = some (slice gstin 0 2) := by
      simpa using hstate
    cases hpan : next.pan with
    | none => simp [hcode]
    | some pan => simp [hcode]

/-- The check of `updateTaxProfile`: a state code that is given, or stored, is the GSTIN's. -/
theorem stateMatches_iff {next : TaxProfile} :
    (truthy (fillFromGstin next).gstin).all (fun g =>
      (fillFromGstin next).stateCode = some (slice g 0 2)) = true ↔
      ∀ g, truthy next.gstin = some g → ∀ code, next.stateCode = some code →
        code = slice g 0 2 := by
  unfold fillFromGstin
  cases hg : truthy next.gstin with
  | none => simp [hg]
  | some gstin =>
    cases hcode : next.stateCode with
    | none => simp [hg]
    | some code => simp [hg]

/-- The row of a new customer. -/
theorem agrees_newRow {data : CreateCustomer} (haccepted : data.accepted = true) :
    Agrees (CustomerRepository.newRow data tenantId).gstin
      (CustomerRepository.newRow data tenantId).pan
      (CustomerRepository.newRow data tenantId).stateCode ↔ createKeepsIdentity data := by
  unfold Agrees CustomerRepository.newRow
  dsimp only
  refine forall_congr' fun g => forall_congr' fun hg => ?_
  have hgstin : data.gstin = some g := (Option.filter_eq_some_iff.mp hg).1
  -- the schema has compared the state code with the GSTIN
  have hstate : ∀ code, data.stateCode = some code → slice g 0 2 = code := by
    intro code hcode
    simp only [CreateCustomer.accepted, taxFieldsAccepted, decide_eq_true_eq] at haccepted
    simpa [hgstin, hcode] using haccepted.1.2.2.2
  have hcode : (data.stateCode <|> (truthy data.gstin).map fun g => slice g 0 2) =
      some (slice g 0 2) := by
    cases hdata : data.stateCode with
    | none => simp [hg]
    | some code => simp [hstate code hdata]
  rw [hcode, hg]
  cases data.pan with
  | none => simp
  | some pan => simp

/-- The row of a customer after a change. -/
theorem agrees_changed {data : UpdateCustomer} {row : CustomerRow}
    (h : Agrees row.gstin row.pan row.stateCode) :
    Agrees (CustomerRepository.changed data row).gstin (CustomerRepository.changed data row).pan
      (CustomerRepository.changed data row).stateCode ↔ updateKeepsIdentity data row := by
  unfold Agrees updateKeepsIdentity CustomerRepository.changed
  dsimp only
  cases data.gstin with
  | some given =>
    constructor
    · exact fun hall => ⟨fun given' hgiven => Option.some.inj hgiven ▸ hall, nofun⟩
    · exact fun hall => hall.1 given rfl
  | none =>
    rw [and_iff_right (by simp), forall_prop_of_true rfl]
    refine forall_congr' fun g => forall_congr' fun hg => ?_
    obtain ⟨hcode, hpan⟩ := h g hg
    refine and_congr ?_ ?_
    · cases data.stateCode with
      | none => simp [hcode]
      | some code => simp
    · cases data.pan with
      | none => simp [hpan]
      | some pan => simp

/-! ### One call -/

/-- A table of which one row is written keeps a property of its rows exactly if the new row
has it. -/
theorem forall_lookup_insert {ρ : Type} {P : ρ → Prop} {t : Table Uuid ρ} (k : Uuid) (new : ρ)
    (h : ∀ id row, t.lookup id = some row → P row) :
    (∀ id row, (t.insert k new).lookup id = some row → P row) ↔ P new := by
  constructor
  · exact fun hall => hall k new (AList.lookup_insert _)
  · intro hnew id row hrow
    rcases AList.lookup_insert_eq_some.mp hrow with ⟨-, rfl⟩ | ⟨-, hold⟩
    · exact hnew
    · exact h id row hold

/-- One statement, alone. -/
theorem after_perform (edit : Customers.Db → Except Failure Customers.Edit)
    (s : Customers.Db) : (perform edit : Customers.Sql Unit).after noAnswer s =
      match edit s with
      | .ok e => s.apply e
      | .error _ => s := by
  unfold after edits perform
  rw [run]
  cases edit s <;> rfl

theorem after_updateTaxProfile (changes : TaxProfileChanges) (s : PulseOps.Db) :
    (updateTaxProfile tenantId changes).after answer s =
      let settings := (s.tenantSettings.lookup tenantId).getD {}
      let next := fillFromGstin (changes.merge settings.taxProfile)
      if (truthy next.gstin).all fun gstin => next.stateCode = some (slice gstin 0 2) then
        s.apply (.tenantSettingsUpsert tenantId { settings with taxProfile := next })
      else s := by
  dsimp only
  split_ifs with hstate
  · have hruns : Runs answer (updateTaxProfile tenantId changes) s _ _ :=
      runs_require_bind.mpr ⟨hstate, runs_record_bind.mpr ⟨[], runs_ret.mpr ⟨rfl, rfl⟩, rfl⟩⟩
    exact hruns.after_eq
  · refine after_of_not_succeeds fun hsucc => hstate ?_
    exact (succeeds_require_bind.mp hsucc).1

/-- A call keeps the books consistent exactly if it meets its condition. -/
theorem consistent_step_iff {c : TaxCall} (h : x.Consistent) (haccepted : c.accepted = true) :
    (x.step answer c).Consistent ↔ c.keepsIdentity x := by
  cases c with
  | updateTaxProfile tenantId changes =>
    rw [Books.step, after_updateTaxProfile, TaxCall.keepsIdentity]
    dsimp only
    generalize (x.shops.tenantSettings.lookup tenantId).getD {} = settings
    split_ifs with hstate
    · have hrows := forall_lookup_insert (P := fun settings : TenantSettings =>
        Agrees settings.taxProfile.gstin settings.taxProfile.pan settings.taxProfile.stateCode)
        tenantId { settings with taxProfile := fillFromGstin (changes.merge settings.taxProfile) }
        h.shops
      rw [agrees_fillFromGstin hstate] at hrows
      have hcodes := stateMatches_iff.mp hstate
      constructor
      · exact fun hstep g hg _ => hrows.mp hstep.shops g hg
      · exact fun hkeeps => ⟨hrows.mpr fun g hg => hkeeps g hg (hcodes g hg), h.customers⟩
    · -- the state codes differ, and the call fails
      refine iff_of_true h fun g hg hcode => absurd ?_ hstate
      rw [stateMatches_iff]
      intro g' hg'
      obtain rfl := Option.some.inj (hg.symm.trans hg')
      exact hcode
  | create id data tenantId =>
    rw [Books.step, CustomerRepository.create, after_perform]
    cases hedit : Customers.Statement.insertCustomer id (CustomerRepository.newRow data tenantId)
        x.directory with
    | ok e =>
      obtain ⟨⟨hnew, hfree⟩, rfl⟩ := Customers.Statement.insertCustomer_eq_ok.mp hedit
      have hrows := forall_lookup_insert (P := fun row : CustomerRow =>
        Agrees row.gstin row.pan row.stateCode) id (CustomerRepository.newRow data tenantId)
        h.customers
      rw [agrees_newRow haccepted] at hrows
      constructor
      · exact fun hstep _ _ => hrows.mp hstep.customers
      · exact fun hkeeps => ⟨h.shops, hrows.mpr (hkeeps hnew hfree)⟩
    -- a row that is refused leaves the books as they are
    | error e =>
      refine iff_of_true h fun hnew hfree => ?_
      rw [Customers.Statement.insertCustomer_eq_ok.mpr ⟨⟨hnew, hfree⟩, rfl⟩] at hedit
      cases hedit
  | update id data =>
    rw [Books.step, CustomerRepository.update, after_perform]
    cases hedit : Statement.updateCustomer id (CustomerRepository.changed data) x.directory with
    | ok e =>
      obtain ⟨row, hrow, hfree, rfl⟩ := Statement.updateCustomer_eq_ok.mp hedit
      have hrows := forall_lookup_insert (P := fun row : CustomerRow =>
        Agrees row.gstin row.pan row.stateCode) id (CustomerRepository.changed data row)
        h.customers
      rw [agrees_changed (h.customers id row hrow)] at hrows
      constructor
      · intro hstep row' hrow' _
        obtain rfl := Option.some.inj (hrow.symm.trans hrow')
        exact hrows.mp hstep.customers
      · exact fun hkeeps => ⟨h.shops, hrows.mpr (hkeeps row hrow hfree)⟩
    -- so does a change that is refused
    | error e =>
      refine iff_of_true h fun row hrow hfree => ?_
      rw [Statement.updateCustomer_eq_ok.mpr ⟨row, hrow, hfree, rfl⟩] at hedit
      cases hedit

/-! ### Sequences of calls -/

/-- Every call meets its condition in the books it finds. -/
def KeepsIdentity (answer : PulseOps.Call → Reply) : Books → List TaxCall → Prop
  | _, [] => True
  | x, c :: calls => c.keepsIdentity x ∧ KeepsIdentity answer (x.step answer c) calls

/-- **GST identity.** Whatever the calls, the books are consistent after each of them exactly
if every call meets its condition. -/
theorem gstIdentity_iff (hx : x.Consistent) (calls : List TaxCall)
    (haccepted : ∀ c ∈ calls, c.accepted = true) :
    (∀ y ∈ calls.scanl (Books.step answer) x, y.Consistent) ↔ KeepsIdentity answer x calls := by
  induction calls generalizing x with
  | nil => simpa [KeepsIdentity] using hx
  | cons c calls ih =>
    rw [List.forall_mem_cons] at haccepted
    have hstep : (x.step answer c).Consistent ↔ c.keepsIdentity x :=
      consistent_step_iff hx haccepted.1
    rw [List.scanl_cons, List.forall_mem_cons, KeepsIdentity]
    constructor
    · rintro ⟨-, hall⟩
      have hnext : (x.step answer c).Consistent := hall _ (List.mem_of_head? (by simp))
      exact ⟨hstep.mp hnext, (ih hnext haccepted.2).mp hall⟩
    · rintro ⟨hc, hrest⟩
      exact ⟨hx, (ih (hstep.mpr hc) haccepted.2).mpr hrest⟩

namespace Sample

def noReply : PulseOps.Call → Reply := fun _ => .rejected ⟨"unreachable", 503, "UNREACHABLE"⟩

/-- A profile gets a GSTIN, and then the state it is of. -/
def registered : List TaxCall :=
  [.updateTaxProfile "shop" { gstin := some (some "29ABCDE1234F1ZW") },
    .updateTaxProfile "shop" { stateCode := some (some "29") }]

/-- A profile gets a GSTIN, and then that of another business of the same state. -/
def reRegistered : List TaxCall :=
  [.updateTaxProfile "shop" { gstin := some (some "29ABCDE1234F1ZW") },
    .updateTaxProfile "shop" { gstin := some (some "29AAPFU0939F1ZR") }]

/-- A customer with a GSTIN gets one of another state. -/
def moved : List TaxCall :=
  [.create "c1"
      { email := "asha@example.com"
        firstName := "Asha"
        lastName := "Rao"
        gstin := some "29ABCDE1234F1ZW" } "shop",
    .update "c1" { gstin := some (some "27AAPFU0939F1ZV") }]

theorem consistent_empty : Books.Consistent ⟨{}, {}⟩ := by
  refine ⟨fun tenantId settings h => ?_, fun id row h => ?_⟩
  · simp at h
  · simp at h

end Sample

open Sample in
/-- A GSTIN alone fills in the state code and the PAN. -/
theorem gstIdentity_iff_sample :
    (∀ c ∈ registered, c.accepted = true) ∧
      ∀ y ∈ registered.scanl (Books.step noReply) ⟨{}, {}⟩, y.Consistent := by
  have haccepted : ∀ c ∈ registered, c.accepted = true := by decide +kernel
  refine ⟨haccepted, (gstIdentity_iff consistent_empty registered haccepted).mpr ⟨?_, ?_, trivial⟩⟩
  · change profileKeepsIdentity _ _
    decide +kernel
  · change profileKeepsIdentity _ _
    decide +kernel

open Sample in
/-- The shop keeps the PAN of its first GSTIN, and the customer the state of the first one. -/
theorem gstIdentity_broken :
    (∀ c ∈ reRegistered ++ moved, c.accepted = true) ∧
      ¬ (∀ y ∈ reRegistered.scanl (Books.step noReply) ⟨{}, {}⟩, y.Consistent) ∧
      ¬ ∀ y ∈ moved.scanl (Books.step noReply) ⟨{}, {}⟩, y.Consistent := by
  refine ⟨by decide +kernel, fun hall => ?_, fun hall => ?_⟩
  · have hprofile : ((reRegistered.foldl (Books.step noReply)
        ⟨{}, {}⟩).shops.tenantSettings.lookup "shop").map
          (fun settings => (settings.taxProfile.gstin, settings.taxProfile.pan)) =
        some (some "29AAPFU0939F1ZR", some "ABCDE1234F") := by
      decide +kernel
    obtain ⟨settings, hsettings, hfields⟩ := Option.map_eq_some_iff.mp hprofile
    obtain ⟨hgstin, hpan⟩ := Prod.mk.inj hfields
    have hagrees := (hall _ (by simp [reRegistered])).shops "shop" settings hsettings
    have hpan' := (hagrees "29AAPFU0939F1ZR" (by rw [hgstin]; decide)).2
    rw [hpan] at hpan'
    exact absurd hpan' (by decide +kernel)
  · have hrow : ((moved.foldl (Books.step noReply)
        ⟨{}, {}⟩).directory.customers.lookup "c1").map
          (fun row => (row.gstin, row.stateCode)) =
        some (some "27AAPFU0939F1ZV", some "29") := by
      decide +kernel
    obtain ⟨row, hlookup, hfields⟩ := Option.map_eq_some_iff.mp hrow
    obtain ⟨hgstin, hstate⟩ := Prod.mk.inj hfields
    have hagrees := (hall _ (by simp [moved])).customers "c1" row hlookup
    have hstate' := (hagrees "27AAPFU0939F1ZV" (by rw [hgstin]; decide)).1
    rw [hstate] at hstate'
    exact absurd hstate' (by decide +kernel)

end PulseOps.TaxIdentity
