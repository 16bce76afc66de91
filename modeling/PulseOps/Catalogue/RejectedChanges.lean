import PulseOps.Catalogue.Rules

/-!
# Variant changes that are rejected

A variant and its attributes are written by statements that are committed one by one. `create`
stores the row of the variant and then its attributes, `update` the attributes and then the
fields. Where the second of the two is refused, the first one stays although the request has
failed.

## Main definitions

* `VariantRequest` — the calls of `create` and of `update`.
* `VariantRequest.NothingOnError` — a call that fails has changed nothing.
* `VariantRequest.Harmless` — the second statement is not refused after the first has written.

## Main results

* `setAttributes_eq_ok` — when the attributes of a variant can be set.
* `create_nothing_iff`, `update_nothing_iff`, `rejected_change_iff` — a failing call changes
  nothing exactly if it is harmless.
-/

set_option autoImplicit false

open ReadCommitted Autocommit

namespace PulseOps.Products

open Tenants (Store Service)

variable {isNumber : String → Bool} {c c' : Catalogue} {s s' : Store}
  {tenantId productId variantId id : Uuid}

/-! ### The attributes of a variant -/

/-- The attributes of a variant of the tenant can be set if they are valid. -/
theorem setAttributes_eq_ok {attributes : List AttributeInput}
    (howner : (c.variants.lookup variantId).map (·.tenantId) = some tenantId) :
    VariantRepository.setAttributes isNumber variantId tenantId attributes c = .ok c' ↔
      ValuesValid isNumber tenantId attributes c ∧
        c' = { c with variantAttributes := valuesSet variantId tenantId attributes c } := by
  constructor
  · exact of_setAttributes_ok
  · rintro ⟨hvalues, rfl⟩
    refine bind_eq_ok.mpr ⟨(), checkValues_eq_ok.mpr hvalues, bind_eq_ok.mpr ⟨⟨⟩, ?_, rfl⟩⟩
    rw [forM_eq_ok]
    intro _ _
    exact checkOwner_eq_ok.mpr howner

/-- Rows with new ids leave the table as it was only if there are none, before and after. -/
theorem valuesSet_eq_iff {attributes : List AttributeInput}
    (hfresh : ∀ a ∈ attributes, ∀ b ∈ c.variantAttributes, b.id ≠ a.id) :
    valuesSet variantId tenantId attributes c = c.variantAttributes ↔
      attributes = [] ∧
        ∀ b ∈ c.variantAttributes, ¬ (b.variantId = variantId ∧ b.tenantId = tenantId) := by
  unfold valuesSet
  constructor
  · intro h
    have hnil : attributes = [] := by
      apply List.eq_nil_iff_forall_not_mem.mpr
      intro a ha
      have hmem : (⟨a.id, tenantId, variantId, a.attributeDefinitionId, a.value⟩ :
          VariantAttribute) ∈ c.variantAttributes := by
        rw [← h]
        exact List.mem_append_right _ (List.mem_map_of_mem ha)
      exact hfresh a ha _ hmem rfl
    subst hnil
    rw [List.map_nil, List.append_nil, List.filter_eq_self] at h
    refine ⟨rfl, fun b hb => ?_⟩
    simpa [imp_iff_not_or] using h b hb
  · rintro ⟨rfl, hnone⟩
    rw [List.map_nil, List.append_nil, List.filter_eq_self]
    intro b hb
    simpa [imp_iff_not_or] using hnone b hb

/-! ### The requests -/

/-- Products, variants and their attributes are as they were. -/
structure SameRows (s s' : Store) : Prop where
  products : s'.db.catalogue.products = s.db.catalogue.products
  variants : s'.db.catalogue.variants = s.db.catalogue.variants
  variantAttributes : s'.db.catalogue.variantAttributes = s.db.catalogue.variantAttributes

theorem SameRows.refl (s : Store) : SameRows s s := ⟨rfl, rfl, rfl⟩

/-- A call of `VariantService.create` or of `VariantService.update`. -/
inductive VariantRequest where
  | create (productId : Uuid) (data : VariantData) (id : Uuid) (now : ℤ)
  | update (variantId : Uuid) (changes : VariantChanges)
      (attributes : Option (List AttributeInput)) (productId : Option Uuid)

namespace VariantRequest

def perform (isNumber : String → Bool) (tenantId : Uuid) : VariantRequest → Service Unit
  | .create productId data id now =>
    VariantService.create isNumber productId tenantId data id now
  | .update variantId changes attributes productId =>
    VariantService.update isNumber variantId tenantId changes attributes productId

/-- If the call is rejected, nothing has changed. -/
def NothingOnError (isNumber : String → Bool) (tenantId : Uuid) (r : VariantRequest)
    (s : Store) : Prop :=
  (r.perform isNumber tenantId).After (fun answer s' => ∀ e, answer = .error e → SameRows s s') s

/-- The attributes that the call gives. -/
def attributes : VariantRequest → List AttributeInput
  | .create _ data _ _ => data.attributes
  | .update _ _ attributes _ => attributes.getD []

/-- The ids of new attribute rows are not in use. -/
def FreshIds (r : VariantRequest) (s : Store) : Prop :=
  ∀ a ∈ r.attributes, ∀ b ∈ s.db.catalogue.variantAttributes, b.id ≠ a.id

end VariantRequest

/-- `create` passes its checks and stores the row of the variant. -/
structure StoresVariant (tenantId productId : Uuid) (data : VariantData) (id : Uuid)
    (s : Store) : Prop where
  product : (s.db.catalogue.findProduct productId tenantId).isSome = true
  sku : VariantService.skuTaken tenantId (some data.sku) s = false
  barcode : VariantService.barcodeTaken tenantId (truthy data.barcode) s = false
  amounts : fits (some data.price) ∧ fits data.costPrice ∧ fits data.mrp
  id : s.db.catalogue.variants.lookup id = none

/-- `update` passes its checks and comes to the attributes. -/
structure FindsVariant (variantId tenantId : Uuid) (changes : VariantChanges)
    (productId : Option Uuid) (row : VariantRow) (s : Store) : Prop where
  found : s.db.catalogue.findVariant variantId tenantId = some row
  product : (truthy productId).all fun p => row.productId = p
  sku : VariantService.skuTaken tenantId ((truthy changes.sku).filter (· ≠ row.sku)) s = false
  barcode : VariantService.barcodeTaken tenantId
    ((truthy changes.barcode.join).filter fun b => some b ≠ row.barcode) s = false

/-- The fields that are given for a variant cannot be stored. -/
def RefusesFields (variantId : Uuid) (changes : VariantChanges) (row : VariantRow)
    (c : Catalogue) : Prop :=
  changes ≠ {} ∧ ((changes.merge row).fits = false ∨
    c.skuFree variantId row.tenantId (changes.merge row).sku = false)

/-- The statement that comes second is not refused after the first one has changed anything: a
new variant has valid attributes, and fields that cannot be stored come with no attributes to
replace. -/
def VariantRequest.Harmless (isNumber : String → Bool) (tenantId : Uuid) (s : Store) :
    VariantRequest → Prop
  | .create productId data id _ => StoresVariant tenantId productId data id s →
      ValuesValid isNumber tenantId data.attributes s.db.catalogue
  | .update variantId changes attributes productId => ∀ row values, attributes = some values →
      FindsVariant variantId tenantId changes productId row s →
      ValuesValid isNumber tenantId values s.db.catalogue →
      RefusesFields variantId changes row s.db.catalogue →
      values = [] ∧ ∀ b ∈ s.db.catalogue.variantAttributes,
        ¬ (b.variantId = variantId ∧ b.tenantId = tenantId)

/-! ### A new variant -/

section Create

variable {data : VariantData} {now : ℤ}

/-- The row of a new variant. -/
def VariantData.row (data : VariantData) (tenantId productId : Uuid) (now : ℤ) : VariantRow where
  tenantId := tenantId
  productId := productId
  sku := data.sku
  barcode := data.barcode
  price := data.price
  costPrice := data.costPrice
  mrp := data.mrp
  status := data.status.getD .draft
  createdAt := now

/-- The catalogue with a new variant. -/
def Catalogue.withVariant (c : Catalogue) (id : Uuid) (row : VariantRow) : Catalogue :=
  { c with variants := c.variants.insert id row }

theorem createRow_ok (h : StoresVariant tenantId productId data id s) (now : ℤ) :
    VariantRepository.create id tenantId productId data now s.db.catalogue =
      .ok (s.db.catalogue.withVariant id (data.row tenantId productId now)) := by
  obtain ⟨product, hproduct⟩ := Option.isSome_iff_exists.mp h.product
  obtain ⟨hlookup, htenant⟩ := Option.filter_eq_some_iff.mp hproduct
  have howner : checkOwner ((s.db.catalogue.products.lookup productId).map (·.tenantId))
      tenantId = .ok () := by
    rw [checkOwner_eq_ok, hlookup, Option.map_some, of_decide_eq_true htenant]
  have hsku : s.db.catalogue.skuFree id tenantId data.sku = true := by
    have hnot := h.sku
    unfold VariantService.skuTaken at hnot
    unfold Catalogue.skuFree
    rw [List.all_eq_true]
    intro e he
    rw [Option.any_some, List.any_eq_false] at hnot
    have hother := hnot e he
    simp only [decide_eq_true_eq] at hother ⊢
    intro hsame
    exact absurd hsame hother
  have hamounts : (data.row tenantId productId now).fits = true := decide_eq_true h.amounts
  refine bind_eq_ok.mpr ⟨(), howner, ?_⟩
  change (if ¬ (data.row tenantId productId now).fits = true then _ else _) = _
  rw [if_neg (not_not.mpr hamounts), if_neg (by simp [h.id, hsku])]
  rfl

theorem of_createRow_ok
    (h : VariantRepository.create id tenantId productId data now c = .ok c') :
    (fits (some data.price) ∧ fits data.costPrice ∧ fits data.mrp) ∧
      c.variants.lookup id = none ∧ c' = c.withVariant id (data.row tenantId productId now) := by
  obtain ⟨_, _, hc'⟩ := bind_eq_ok.mp h
  dsimp only at hc'
  split_ifs at hc' with hfits hunique
  refine ⟨?_, ?_, (Except.ok.inj hc').symm⟩
  · simpa [VariantRow.fits] using hfits
  · simpa using fun hsome => hunique (Or.inl hsome)

/-- The attributes of a new variant are refused if and only if they are not valid. -/
theorem setAttributes_created {attributes : List AttributeInput} :
    (∃ c', VariantRepository.setAttributes isNumber id tenantId attributes
      (c.withVariant id (data.row tenantId productId now)) = .ok c') ↔
      ValuesValid isNumber tenantId attributes c := by
  have howner : ((c.withVariant id (data.row tenantId productId now)).variants.lookup id).map
      (·.tenantId) = some tenantId := by
    rw [Catalogue.withVariant, AList.lookup_insert]
    rfl
  simp only [setAttributes_eq_ok howner, exists_and_left, exists_eq, and_true]
  rfl

theorem create_nothing_iff : (VariantRequest.create productId data id now).NothingOnError
    isNumber tenantId s ↔
      (VariantRequest.create productId data id now).Harmless isNumber tenantId s := by
  have hstart : ∀ e : Failure, (∀ e', (Except.error e : Except Failure Unit) = .error e' →
      SameRows s s) := fun _ _ _ => SameRows.refl s
  unfold VariantRequest.NothingOnError VariantRequest.Harmless VariantRequest.perform
    VariantService.create
  constructor
  · intro h hstores
    obtain ⟨product, hproduct⟩ := Option.isSome_iff_exists.mp hstores.product
    -- the checks pass and the row is stored
    rw [after_find_bind, after_orFail_bind] at h
    have hsku := h.1 product hproduct
    rw [after_find_bind, after_demand_bind] at hsku
    have hbarcode := hsku.1 hstores.sku
    rw [after_find_bind, after_demand_bind] at hbarcode
    have hwrite := hbarcode.1 hstores.barcode
    rw [after_inCatalogue_bind] at hwrite
    have hvalues := hwrite.1 _ (createRow_ok hstores now)
    -- attributes that are refused would leave it there
    by_contra hinvalid
    have hgiven : data.attributes ≠ [] := by
      rintro hnil
      apply hinvalid
      rw [hnil]
      intro a ha
      cases ha
    rw [after_onlyIf] at hvalues
    have hset := (after_inCatalogue_iff.mp (hvalues.1 hgiven)).2
    cases hresult : VariantRepository.setAttributes isNumber id tenantId data.attributes
      (s.db.catalogue.withVariant id (data.row tenantId productId now)) with
    | ok c' => exact hinvalid (setAttributes_created.mp ⟨c', hresult⟩)
    | error e =>
      have hsame := (hset e hresult e rfl).variants
      have hlookup : s.db.catalogue.variants.lookup id =
          some (data.row tenantId productId now) := by
        rw [← hsame]
        exact AList.lookup_insert _
      rw [hstores.id] at hlookup
      cases hlookup
  · intro h
    rw [after_find_bind]
    apply After.orFail (fun product hproduct => ?_) hstart
    rw [after_find_bind]
    apply After.demand (fun hsku => ?_) hstart
    rw [after_find_bind]
    apply After.demand (fun hbarcode => ?_) hstart
    rw [after_inCatalogue_bind]
    refine ⟨fun c' hc' => ?_, fun e _ => hstart e⟩
    obtain ⟨hamounts, hid, rfl⟩ := of_createRow_ok hc'
    have hvalid := h ⟨by rw [hproduct]; rfl, hsku, hbarcode, hamounts, hid⟩
    rw [after_onlyIf]
    refine ⟨fun _ => ?_, fun _ e he => by cases he⟩
    rw [after_inCatalogue_iff]
    constructor
    · intro c'' _ e he
      cases he
    · intro e he
      obtain ⟨c'', hc''⟩ := setAttributes_created.mpr hvalid
      rw [hc''] at he
      cases he

end Create

/-! ### A variant that is changed -/

section Update

variable {changes : VariantChanges} {attributes : Option (List AttributeInput)}
  {byProduct : Option Uuid} {row : VariantRow}

/-- The fields of a stored variant are refused by the columns or by the index on SKUs. -/
theorem updateRow_eq_error (hrow : c.variants.lookup variantId = some row) :
    (∃ e, VariantRepository.update variantId changes c = .error e) ↔
      (changes.merge row).fits = false ∨
        c.skuFree variantId row.tenantId (changes.merge row).sku = false := by
  unfold VariantRepository.update
  rw [hrow]
  dsimp only
  cases hfits : (changes.merge row).fits with
  | false => simp
  | true =>
    cases hsku : c.skuFree variantId row.tenantId (changes.merge row).sku <;> simp

/-- What follows once the variant is found. -/
theorem after_of_getById {α : Type} {Q : Except Failure α → Store → Prop}
    {f : VariantRow → Service α}
    (h : (VariantService.getById variantId tenantId byProduct >>= f).After Q s)
    (hfound : s.db.catalogue.findVariant variantId tenantId = some row)
    (hproduct : (truthy byProduct).all fun p => row.productId = p) : (f row).After Q s := by
  rw [after_bind] at h
  unfold VariantService.getById at h
  rw [after_find_bind, after_orFail_bind] at h
  have hrow := h.1 row hfound
  rw [after_demand_bind] at hrow
  exact hrow.1 hproduct

theorem update_nothing_iff
    (hfresh : (VariantRequest.update variantId changes attributes byProduct).FreshIds s) :
    (VariantRequest.update variantId changes attributes byProduct).NothingOnError
      isNumber tenantId s ↔
        (VariantRequest.update variantId changes attributes byProduct).Harmless
          isNumber tenantId s := by
  have hstart : ∀ e : Failure, (∀ e', (Except.error e : Except Failure Unit) = .error e' →
      SameRows s s) := fun _ _ _ => SameRows.refl s
  unfold VariantRequest.NothingOnError VariantRequest.Harmless VariantRequest.perform
    VariantService.update
  constructor
  · rintro h row values rfl hfinds hvalid ⟨hgiven, hrefused⟩
    obtain ⟨hlookup, htenant⟩ := Option.filter_eq_some_iff.mp hfinds.found
    have howner : (s.db.catalogue.variants.lookup variantId).map (·.tenantId) =
        some tenantId := by
      rw [hlookup, Option.map_some, of_decide_eq_true htenant]
    -- the checks pass and the attributes are set
    have hfound := after_of_getById h hfinds.found hfinds.product
    rw [after_find_bind, after_demand_bind] at hfound
    have hsku := hfound.1 hfinds.sku
    rw [after_find_bind, after_demand_bind] at hsku
    have hbarcode := hsku.1 hfinds.barcode
    rw [forSome_some, after_inCatalogue_bind] at hbarcode
    have hfields := hbarcode.1 _ ((setAttributes_eq_ok howner).mpr ⟨hvalid, rfl⟩)
    -- the fields are refused, so that the attributes must be those of before
    rw [after_onlyIf] at hfields
    obtain ⟨e, he⟩ := (updateRow_eq_error (c := { s.db.catalogue with
      variantAttributes := valuesSet variantId tenantId values s.db.catalogue })
      hlookup).mpr hrefused
    have hsame := (after_inCatalogue_iff.mp (hfields.1 hgiven)).2 e he e rfl
    exact (valuesSet_eq_iff hfresh).mp hsame.variantAttributes
  · intro h
    apply VariantService.after_getById (fun row hfound hproduct => ?_) hstart
    rw [after_find_bind]
    apply After.demand (fun hsku => ?_) hstart
    rw [after_find_bind]
    apply After.demand (fun hbarcode => ?_) hstart
    have hfinds : FindsVariant variantId tenantId changes byProduct row s :=
      ⟨hfound, hproduct, hsku, hbarcode⟩
    obtain ⟨hlookup, htenant⟩ := Option.filter_eq_some_iff.mp hfound
    cases attributes with
    | none =>
      rw [forSome_none, after_pure_bind, after_onlyIf]
      refine ⟨fun _ => ?_, fun _ e he => by cases he⟩
      rw [after_inCatalogue_iff]
      exact ⟨fun _ _ e he => (by cases he), fun e _ => hstart e⟩
    | some values =>
      have howner : (s.db.catalogue.variants.lookup variantId).map (·.tenantId) =
          some tenantId := by
        rw [hlookup, Option.map_some, of_decide_eq_true htenant]
      rw [forSome_some, after_inCatalogue_bind]
      refine ⟨fun c' hc' => ?_, fun e _ => hstart e⟩
      obtain ⟨hvalid, rfl⟩ := (setAttributes_eq_ok howner).mp hc'
      rw [after_onlyIf]
      refine ⟨fun hgiven => ?_, fun _ e he => by cases he⟩
      rw [after_inCatalogue_iff]
      refine ⟨fun _ _ e he => (by cases he), fun e he _ _ => ?_⟩
      have hrefused := (updateRow_eq_error (c := { s.db.catalogue with
        variantAttributes := valuesSet variantId tenantId values s.db.catalogue })
        hlookup).mp ⟨e, he⟩
      have hnone := h row values rfl hfinds hvalid ⟨hgiven, hrefused⟩
      exact ⟨rfl, rfl, (valuesSet_eq_iff hfresh).mpr hnone⟩

end Update

/-- A call that is rejected has changed nothing, exactly if it is harmless. -/
theorem rejected_change_iff (isNumber : String → Bool) (tenantId : Uuid) (r : VariantRequest)
    (s : Store) (hfresh : r.FreshIds s) :
    r.NothingOnError isNumber tenantId s ↔ r.Harmless isNumber tenantId s := by
  cases r with
  | create productId data id now => exact create_nothing_iff
  | update variantId changes attributes productId => exact update_nothing_iff hfresh

/-! ### A variant that stays -/

/-- A product without variants. -/
def tea : ProductRow where
  tenantId := "shop"
  name := "Tea"
  createdAt := 0
  updatedAt := 0

/-- A shop with this one product. -/
def oneProduct : Store where
  db := { catalogue := { products := AList.insert "tea" tea ∅ } }

/-- A variant with an attribute that is not defined. -/
def undefinedAttribute : VariantRequest :=
  .create "tea" { sku := "TEA-1", price := 500, attributes := [⟨"a", "colour", "green"⟩] } "v" 0

theorem oneProduct_fresh : undefinedAttribute.FreshIds oneProduct := by
  intro a _ b hb
  cases hb

theorem rejected_change_iff_oneProduct :
    undefinedAttribute.FreshIds oneProduct ∧
    (undefinedAttribute.NothingOnError (fun _ => false) "shop" oneProduct ↔
      undefinedAttribute.Harmless (fun _ => false) "shop" oneProduct) :=
  ⟨oneProduct_fresh,
    rejected_change_iff _ _ undefinedAttribute oneProduct oneProduct_fresh⟩

/-- The request is answered with an error and leaves the variant. -/
theorem undefinedAttribute_stays :
    ¬ ∀ (isNumber : String → Bool) (tenantId : Uuid) (r : VariantRequest) (s : Store),
      r.FreshIds s → r.NothingOnError isNumber tenantId s := by
  intro h
  have hsame := h (fun _ => false) "shop" undefinedAttribute oneProduct
    oneProduct_fresh (.app (attributeNotFound "colour")) (by decide +kernel)
  have hlookup : ((undefinedAttribute.perform (fun _ => false) "shop"
      oneProduct).2.db.catalogue.variants.lookup "v").isSome = true := by decide +kernel
  rw [hsame.variants] at hlookup
  revert hlookup
  decide +kernel

end PulseOps.Products
