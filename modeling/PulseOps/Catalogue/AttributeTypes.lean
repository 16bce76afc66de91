import PulseOps.Catalogue.Rules
import PulseOps.Model.Attributes

/-!
# Values of the type of their attribute

Values are checked when they are stored for a variant, against the data type that their attribute
has at that time. `AttributeService` lets the type be changed, and the attribute be deleted, only
while no variant has a value of it, so that the checks of the two services fit together and
every stored value is of the type that its attribute has now.

## Main definitions

* `Catalogue.WellTyped` — every stored value is of the type of its attribute.
* `Operation` — the requests that write attributes, products and variants.

## Main results

* `wellTyped_define`, `wellTyped_setValues`, `Catalogue.WellTyped.mono` — what a statement keeps.
* `wellTyped_perform` — what a request keeps, also one that fails partway.
* `run_wellTyped`, `attribute_values_typed` — every run.
-/

set_option autoImplicit false

open ReadCommitted Autocommit

namespace PulseOps.Products

open Tenants (Store Service)

variable {isNumber : String → Bool} {c c' : Catalogue} {s : Store}
  {tenantId productId variantId id : Uuid}

/-- Every stored value is of the type that its attribute has. -/
def Catalogue.WellTyped (isNumber : String → Bool) (c : Catalogue) : Prop :=
  ∀ a ∈ c.variantAttributes, ∃ d, c.attributeDefinitions.lookup a.attributeDefinitionId = some d ∧
    validateAttributeValue isNumber d.dataType a.value = true

open Catalogue (WellTyped)

/-! ### Statements -/

/-- The definitions stay and no value comes. -/
theorem Catalogue.WellTyped.mono (h : c.WellTyped isNumber)
    (hdefinitions : c'.attributeDefinitions = c.attributeDefinitions)
    (hsub : ∀ a ∈ c'.variantAttributes, a ∈ c.variantAttributes) : c'.WellTyped isNumber := by
  intro a ha
  rw [hdefinitions]
  exact h a (hsub a ha)

/-- A definition comes or changes, and its type only if there are no values of it. -/
theorem wellTyped_define (h : c.WellTyped isNumber) {row' : AttributeDefinition}
    (hsame : ∀ row, c.attributeDefinitions.lookup id = some row → row'.dataType = row.dataType ∨
      ∀ a ∈ c.variantAttributes, a.attributeDefinitionId ≠ id) :
    ({ c with attributeDefinitions := c.attributeDefinitions.insert id row' } :
      Catalogue).WellTyped isNumber := by
  intro a ha
  obtain ⟨d, hd, hvalue⟩ := h a ha
  by_cases hid : a.attributeDefinitionId = id
  · rw [hid] at hd
    refine ⟨row', by rw [hid, AList.lookup_insert], ?_⟩
    rcases hsame d hd with htype | hnone
    · rw [htype]
      exact hvalue
    · exact absurd hid (hnone a ha)
  · exact ⟨d, by rw [AList.lookup_insert_ne hid, hd], hvalue⟩

theorem wellTyped_setValues {attributes : List AttributeInput} (h : c.WellTyped isNumber)
    (hset : VariantRepository.setAttributes isNumber variantId tenantId attributes c = .ok c') :
    c'.WellTyped isNumber := by
  obtain ⟨hvalid, rfl⟩ := of_setAttributes_ok hset
  intro a ha
  rcases List.mem_append.mp ha with hold | hnew
  · exact h a (List.mem_of_mem_filter hold)
  · obtain ⟨x, hx, rfl⟩ := List.mem_map.mp hnew
    obtain ⟨d, hd, _, hvalue⟩ := hvalid x hx
    exact ⟨d, hd, hvalue⟩

/-- A definition without values is deleted. -/
theorem wellTyped_deleteDefinition (h : c.WellTyped isNumber)
    (hdelete : AttributeRepository.delete id c = .ok c') : c'.WellTyped isNumber := by
  unfold AttributeRepository.delete at hdelete
  split_ifs at hdelete
  obtain rfl := (Except.ok.inj hdelete).symm
  intro a ha
  obtain ⟨ha, hid⟩ := List.mem_filter.mp ha
  obtain ⟨d, hd, hvalue⟩ := h a ha
  exact ⟨d, AList.lookup_keep_eq_some.mpr ⟨hd, hid⟩, hvalue⟩

theorem wellTyped_createDefinition {data : AttributeData} {tenantExists : Bool}
    (h : c.WellTyped isNumber)
    (hcreate : AttributeRepository.create id tenantId data tenantExists c = .ok c') :
    c'.WellTyped isNumber := by
  unfold AttributeRepository.create at hcreate
  split_ifs at hcreate with hunique
  obtain rfl := (Except.ok.inj hcreate).symm
  apply wellTyped_define h
  intro row hrow
  simp [hrow] at hunique

/-- The type of a definition in use is not changed. -/
theorem wellTyped_updateDefinition {changes : AttributeChanges} (h : c.WellTyped isNumber)
    (hsame : ∀ dataType row, changes.dataType = some dataType →
      c.attributeDefinitions.lookup id = some row →
        row.dataType = dataType ∨ AttributeRepository.variantAttributeCount id c = 0)
    (hupdate : AttributeRepository.update id changes c = .ok c') : c'.WellTyped isNumber := by
  unfold AttributeRepository.update at hupdate
  cases hrow : c.attributeDefinitions.lookup id with
  | none => simp [hrow] at hupdate
  | some row =>
    simp only [hrow] at hupdate
    split_ifs at hupdate
    obtain rfl := (Except.ok.inj hupdate).symm
    apply wellTyped_define h
    intro row' hrow'
    obtain rfl := Option.some.inj (hrow.symm.trans hrow')
    cases hdata : changes.dataType with
    | none =>
      left
      simp [AttributeChanges.merge, hdata]
    | some dataType =>
      rcases hsame dataType row hdata hrow with htype | hcount
      · left
        simp [AttributeChanges.merge, hdata, htype]
      · right
        intro a ha hid
        have hmem : a ∈ c.variantAttributes.filter (·.attributeDefinitionId = id) :=
          List.mem_filter.mpr ⟨ha, decide_eq_true hid⟩
        rw [List.length_eq_zero_iff.mp hcount] at hmem
        cases hmem

/-! ### Statements on products and variants -/

/-- A statement that leaves the definitions and stores no value. -/
def LeavesTypes (f : Catalogue → Except Failure Catalogue) : Prop :=
  ∀ c c', f c = .ok c' → c'.attributeDefinitions = c.attributeDefinitions ∧
    ∀ a ∈ c'.variantAttributes, a ∈ c.variantAttributes

theorem leavesTypes_createProduct {data : ProductData} {now : ℤ} {tenantExists : Bool} :
    LeavesTypes (ProductRepository.create id tenantId data now tenantExists) := by
  intro c c' h
  unfold ProductRepository.create at h
  split_ifs at h
  obtain rfl := (Except.ok.inj h).symm
  exact ⟨rfl, fun _ ha => ha⟩

theorem leavesTypes_updateProduct {changes : ProductChanges} {now : ℤ} :
    LeavesTypes (ProductRepository.update id changes now) := by
  intro c c' h
  unfold ProductRepository.update at h
  split at h
  · cases h
  · split_ifs at h
    obtain rfl := (Except.ok.inj h).symm
    exact ⟨rfl, fun _ ha => ha⟩

theorem leavesTypes_deleteProduct : LeavesTypes (ProductRepository.delete id) := by
  intro c c' h
  unfold ProductRepository.delete at h
  split_ifs at h
  obtain rfl := (Except.ok.inj h).symm
  exact ⟨rfl, fun _ ha => List.mem_of_mem_filter ha⟩

theorem leavesTypes_setCategories {categoryIds : List Uuid} {primaryCategoryId : Option Uuid} :
    LeavesTypes (ProductRepository.setCategories productId tenantId categoryIds
      primaryCategoryId) := by
  intro c c' h
  obtain ⟨_, _, hc'⟩ := bind_eq_ok.mp h
  obtain rfl := (Except.ok.inj hc').symm
  exact ⟨rfl, fun _ ha => ha⟩

theorem leavesTypes_createVariant {data : VariantData} {now : ℤ} :
    LeavesTypes (VariantRepository.create id tenantId productId data now) := by
  intro c c' h
  obtain ⟨_, _, hc'⟩ := bind_eq_ok.mp h
  dsimp only at hc'
  split_ifs at hc'
  obtain rfl := (Except.ok.inj hc').symm
  exact ⟨rfl, fun _ ha => ha⟩

theorem leavesTypes_updateVariant {changes : VariantChanges} :
    LeavesTypes (VariantRepository.update id changes) := by
  intro c c' h
  unfold VariantRepository.update at h
  split at h
  · cases h
  · split_ifs at h
    obtain rfl := (Except.ok.inj h).symm
    exact ⟨rfl, fun _ ha => ha⟩

theorem leavesTypes_deleteVariant {ordered : Bool} :
    LeavesTypes (VariantRepository.delete id ordered) := by
  intro c c' h
  unfold VariantRepository.delete at h
  split_ifs at h
  obtain rfl := (Except.ok.inj h).symm
  exact ⟨rfl, fun _ ha => List.mem_of_mem_filter ha⟩

/-! ### Requests -/

/-- The stored values are of their types, whatever the request has answered. -/
def Typed (isNumber : String → Bool) (s : Store) : Prop := s.db.catalogue.WellTyped isNumber

theorem typed_inCatalogue {f : Catalogue → Except Failure Catalogue} (h : Typed isNumber s)
    (hf : ∀ c', f s.db.catalogue = .ok c' → c'.WellTyped isNumber) :
    (inCatalogue f).After (fun _ s' => Typed isNumber s') s :=
  after_inCatalogue_iff.mpr ⟨hf, fun _ _ => h⟩

theorem LeavesTypes.typed {f : Catalogue → Except Failure Catalogue} (hf : LeavesTypes f)
    (h : Typed isNumber s) : (inCatalogue f).After (fun _ s' => Typed isNumber s') s := by
  apply typed_inCatalogue h
  intro c' hc'
  obtain ⟨hdefinitions, hsub⟩ := hf _ _ hc'
  exact Catalogue.WellTyped.mono h hdefinitions hsub

theorem typed_invalidate (h : Typed isNumber s) :
    (ProductService.invalidateProductListCache tenantId).After
      (fun _ s' => Typed isNumber s') s := h

theorem typed_setAttributes {attributes : List AttributeInput} (h : Typed isNumber s) :
    (inCatalogue (VariantRepository.setAttributes isNumber variantId tenantId attributes)).After
      (fun _ s' => Typed isNumber s') s :=
  typed_inCatalogue h fun _ hc' => wellTyped_setValues h hc'

/-- A part that is done or not. -/
theorem typed_onlyIf {P : Prop} [Decidable P] {p : Service Unit} (h : Typed isNumber s)
    (hp : p.After (fun _ s' => Typed isNumber s') s) :
    (onlyIf P p).After (fun _ s' => Typed isNumber s') s :=
  after_onlyIf.mpr ⟨fun _ => hp, fun _ => h⟩

namespace AttributeService

/-- The attribute is found with the number of its values, or the request fails. -/
theorem after_getById {α : Type} {Q : Except Failure α → Store → Prop}
    {f : AttributeDefinition × ℕ → Service α}
    (hf : ∀ row, s.db.catalogue.attributeDefinitions.lookup id = some row →
      (f (row, AttributeRepository.variantAttributeCount id s.db.catalogue)).After Q s)
    (herror : ∀ e, Q (.error e) s) : (getById id tenantId >>= f).After Q s := by
  rw [after_bind]
  unfold getById
  rw [after_find_bind]
  unfold AttributeRepository.findById
  cases hrow : (s.db.catalogue.attributeDefinitions.lookup id).filter
      (·.tenantId = tenantId) with
  | none => exact herror _
  | some row => exact hf row (Option.filter_eq_some_iff.mp hrow).1

theorem typed_create {data : AttributeData} (h : Typed isNumber s) :
    (create tenantId data id).After (fun _ s' => Typed isNumber s') s := by
  unfold create
  rw [after_find_bind]
  apply After.demand (fun _ => ?_) fun _ => h
  rw [after_find_bind]
  exact typed_inCatalogue h fun _ hc' => wellTyped_createDefinition h hc'

theorem typed_update {changes : AttributeChanges} (h : Typed isNumber s) :
    (update id tenantId changes).After (fun _ s' => Typed isNumber s') s := by
  unfold update
  apply after_getById (fun _ _ => ?_) fun _ => h
  have hchecked : (forSome changes.dataType (fun dataType => do
      let current ← getById id tenantId
      demand (¬ (current.1.dataType ≠ dataType ∧ 0 < current.2)) (.app attributeTypeInUse)) >>=
      fun _ => inCatalogue (AttributeRepository.update id changes)).After
        (fun _ s' => Typed isNumber s') s := by
    rw [after_bind, after_forSome]
    constructor
    · intro dataType hdata
      apply after_getById (fun row hrow => ?_) fun _ => h
      rw [after_demand]
      refine ⟨fun hfree => ?_, fun _ => h⟩
      -- another type has passed the check, so that there are no values
      apply typed_inCatalogue h
      intro c' hc'
      apply wellTyped_updateDefinition h _ hc'
      intro dataType' row' hdata' hrow'
      obtain rfl := Option.some.inj (hdata.symm.trans hdata')
      obtain rfl := Option.some.inj (hrow.symm.trans hrow')
      by_cases htype : row.dataType = dataType
      · exact Or.inl htype
      · right
        by_contra hcount
        exact hfree ⟨htype, Nat.pos_of_ne_zero hcount⟩
    · intro hnone
      apply typed_inCatalogue h
      intro c' hc'
      apply wellTyped_updateDefinition h _ hc'
      intro dataType row hdata
      rw [hnone] at hdata
      cases hdata
  rw [after_bind, after_forSome]
  constructor
  · intro code _
    rw [after_find_bind, after_demand]
    exact ⟨fun _ => hchecked, fun _ => h⟩
  · intro _
    exact hchecked

theorem typed_delete (h : Typed isNumber s) :
    (delete id tenantId).After (fun _ s' => Typed isNumber s') s := by
  unfold delete
  apply after_getById (fun _ _ => ?_) fun _ => h
  apply After.demand (fun _ => ?_) fun _ => h
  exact typed_inCatalogue h fun _ hc' => wellTyped_deleteDefinition h hc'

end AttributeService

namespace ProductService

theorem typed_create {data : ProductData} {now : ℤ} (h : Typed isNumber s) :
    (create tenantId data id now).After (fun _ s' => Typed isNumber s') s := by
  unfold create assertWithinPlan checkCategories
  apply After.check (fun _ => ?_) fun _ => h
  apply After.check (fun _ => ?_) fun _ => h
  rw [after_find_bind]
  apply After.bind (leavesTypes_createProduct.typed h)
  intro _ s₁ h₁
  apply After.bind (typed_onlyIf h₁ (leavesTypes_setCategories.typed h₁))
  intro _ s₂ h₂
  exact typed_invalidate h₂

theorem typed_update {categories : List Uuid} {primaryCategoryId : Option Uuid}
    {changes : ProductChanges} {now : ℤ} (h : Typed isNumber s) :
    (update id tenantId categories primaryCategoryId changes now).After
      (fun _ s' => Typed isNumber s') s := by
  unfold update checkCategories
  apply after_getById (fun _ _ => ?_) fun _ => h
  apply After.bind
  · apply typed_onlyIf h
    exact After.check (fun _ => leavesTypes_setCategories.typed h) fun _ => h
  · intro _ s₁ h₁
    apply After.bind (typed_onlyIf h₁ (leavesTypes_updateProduct.typed h₁))
    intro _ s₂ h₂
    exact typed_invalidate h₂

theorem typed_delete (h : Typed isNumber s) :
    (delete id tenantId).After (fun _ s' => Typed isNumber s') s := by
  unfold delete
  apply after_getById (fun _ _ => ?_) fun _ => h
  rw [after_find_bind]
  apply After.demand (fun _ => ?_) fun _ => h
  apply After.bind (leavesTypes_deleteProduct.typed h)
  intro _ s₁ h₁
  exact typed_invalidate h₁

theorem typed_setCategories {categoryIds : List Uuid} {primaryCategoryId : Option Uuid}
    (h : Typed isNumber s) : (setCategories productId tenantId categoryIds primaryCategoryId).After
      (fun _ s' => Typed isNumber s') s := by
  unfold setCategories checkCategories
  apply after_getById (fun _ _ => ?_) fun _ => h
  apply After.check (fun _ => ?_) fun _ => h
  apply After.bind (leavesTypes_setCategories.typed h)
  intro _ s₁ h₁
  exact typed_invalidate h₁

end ProductService

namespace VariantService

theorem typed_create {data : VariantData} {now : ℤ} (h : Typed isNumber s) :
    (create isNumber productId tenantId data id now).After (fun _ s' => Typed isNumber s') s := by
  unfold create
  rw [after_find_bind]
  apply After.orFail (fun _ _ => ?_) fun _ => h
  rw [after_find_bind]
  apply After.demand (fun _ => ?_) fun _ => h
  rw [after_find_bind]
  apply After.demand (fun _ => ?_) fun _ => h
  apply After.bind (leavesTypes_createVariant.typed h)
  intro _ s₁ h₁
  exact typed_onlyIf h₁ (typed_setAttributes h₁)

theorem typed_update {changes : VariantChanges} {attributes : Option (List AttributeInput)}
    {byProduct : Option Uuid} (h : Typed isNumber s) :
    (update isNumber variantId tenantId changes attributes byProduct).After
      (fun _ s' => Typed isNumber s') s := by
  unfold update
  apply after_getById (fun _ _ _ => ?_) fun _ => h
  rw [after_find_bind]
  apply After.demand (fun _ => ?_) fun _ => h
  rw [after_find_bind]
  apply After.demand (fun _ => ?_) fun _ => h
  apply After.bind
  · exact after_forSome.mpr ⟨fun _ _ => typed_setAttributes h, fun _ => h⟩
  · intro _ s₁ h₁
    exact typed_onlyIf h₁ (leavesTypes_updateVariant.typed h₁)

theorem typed_delete {byProduct : Option Uuid} {ordered : Bool} (h : Typed isNumber s) :
    (delete variantId tenantId byProduct ordered).After (fun _ s' => Typed isNumber s') s := by
  unfold delete
  apply after_getById (fun _ _ _ => ?_) fun _ => h
  exact leavesTypes_deleteVariant.typed h

theorem typed_set {attributes : List AttributeInput} {byProduct : Option Uuid}
    (h : Typed isNumber s) :
    (setAttributes isNumber variantId tenantId attributes byProduct).After
      (fun _ s' => Typed isNumber s') s := by
  unfold setAttributes
  apply after_getById (fun _ _ _ => ?_) fun _ => h
  exact typed_setAttributes h

end VariantService

/-! ### Runs -/

/-- The requests that write attribute definitions, products and variants. -/
inductive Operation where
  | createAttribute (tenantId : Uuid) (data : AttributeData) (id : Uuid)
  | updateAttribute (id tenantId : Uuid) (changes : AttributeChanges)
  | deleteAttribute (id tenantId : Uuid)
  | createProduct (tenantId : Uuid) (data : ProductData) (id : Uuid) (now : ℤ)
  | updateProduct (id tenantId : Uuid) (categories : List Uuid)
      (primaryCategoryId : Option Uuid) (changes : ProductChanges) (now : ℤ)
  | deleteProduct (id tenantId : Uuid)
  | setCategories (productId tenantId : Uuid) (categoryIds : List Uuid)
      (primaryCategoryId : Option Uuid)
  | createVariant (productId tenantId : Uuid) (data : VariantData) (id : Uuid) (now : ℤ)
  | updateVariant (variantId tenantId : Uuid) (changes : VariantChanges)
      (attributes : Option (List AttributeInput)) (productId : Option Uuid)
  | deleteVariant (variantId tenantId : Uuid) (productId : Option Uuid) (ordered : Bool)
  | setAttributes (variantId tenantId : Uuid) (attributes : List AttributeInput)
      (productId : Option Uuid)

namespace Operation

def perform (isNumber : String → Bool) : Operation → Service Unit
  | .createAttribute tenantId data id => AttributeService.create tenantId data id
  | .updateAttribute id tenantId changes => AttributeService.update id tenantId changes
  | .deleteAttribute id tenantId => AttributeService.delete id tenantId
  | .createProduct tenantId data id now => ProductService.create tenantId data id now
  | .updateProduct id tenantId categories primaryCategoryId changes now =>
    ProductService.update id tenantId categories primaryCategoryId changes now
  | .deleteProduct id tenantId => ProductService.delete id tenantId
  | .setCategories productId tenantId categoryIds primaryCategoryId =>
    ProductService.setCategories productId tenantId categoryIds primaryCategoryId
  | .createVariant productId tenantId data id now =>
    VariantService.create isNumber productId tenantId data id now
  | .updateVariant variantId tenantId changes attributes productId =>
    VariantService.update isNumber variantId tenantId changes attributes productId
  | .deleteVariant variantId tenantId productId ordered =>
    VariantService.delete variantId tenantId productId ordered
  | .setAttributes variantId tenantId attributes productId =>
    VariantService.setAttributes isNumber variantId tenantId attributes productId

/-- What the operations leave, one after the other; of a failing one what it has committed. -/
def run (isNumber : String → Bool) (s : Store) (operations : List Operation) : Store :=
  operations.foldl (fun s operation => (operation.perform isNumber s).2) s

end Operation

/-- An operation keeps the stored values of their types. -/
theorem typed_perform (h : Typed isNumber s) (operation : Operation) :
    (operation.perform isNumber).After (fun _ s' => Typed isNumber s') s := by
  cases operation with
  | createAttribute => exact AttributeService.typed_create h
  | updateAttribute => exact AttributeService.typed_update h
  | deleteAttribute => exact AttributeService.typed_delete h
  | createProduct => exact ProductService.typed_create h
  | updateProduct => exact ProductService.typed_update h
  | deleteProduct => exact ProductService.typed_delete h
  | setCategories => exact ProductService.typed_setCategories h
  | createVariant => exact VariantService.typed_create h
  | updateVariant => exact VariantService.typed_update h
  | deleteVariant => exact VariantService.typed_delete h
  | setAttributes => exact VariantService.typed_set h

theorem run_typed (h : Typed isNumber s) (operations : List Operation) :
    Typed isNumber (Operation.run isNumber s operations) := by
  induction operations generalizing s with
  | nil => exact h
  | cons operation operations ih => exact ih (typed_perform h operation)

/-- However the operations on attributes, products and variants follow each other, every stored
value is of the type that its attribute has. -/
theorem attribute_values_typed (isNumber : String → Bool) (s : Store)
    (hstart : s.db.catalogue.variantAttributes = []) (operations : List Operation) :
    (Operation.run isNumber s operations).db.catalogue.WellTyped isNumber := by
  apply run_typed
  intro a ha
  rw [hstart] at ha
  cases ha

/-! ### A run -/

/-- A colour is defined, a red tea is stored, and the colour is to become a number. -/
def recolour : List Operation :=
  [.createAttribute "shop" { name := "Colour", code := "colour", dataType := .text } "d",
    .createProduct "shop" { name := "Tea" } "p" 0,
    .createVariant "p" "shop" { sku := "T", price := 100, attributes := [⟨"a", "d", "red"⟩] } "v" 1,
    .updateAttribute "d" "shop" { dataType := some .number }]

/-- A shop without a catalogue. -/
def emptyShop : Store where
  db := { tenants := AList.insert "shop" ⟨"Shop", "shop", .active, "free"⟩ ∅ }

theorem attribute_values_typed_recolour : emptyShop.db.catalogue.variantAttributes = [] ∧
    (Operation.run (fun _ => false) emptyShop recolour).db.catalogue.WellTyped fun _ => false :=
  ⟨rfl, attribute_values_typed _ emptyShop rfl recolour⟩

/-- The value is stored, and stays a text. -/
example : (Operation.run (fun _ => false) emptyShop recolour).db.catalogue.variantAttributes =
      [⟨"a", "shop", "v", "d", "red"⟩] ∧
    ((Operation.run (fun _ => false) emptyShop recolour).db.catalogue.attributeDefinitions.lookup
      "d").map (·.dataType) = some .text := by
  decide +kernel

end PulseOps.Products
