import PulseOps.Caching.Statements
import PulseOps.Catalogue.Rules

/-!
# What the services of the catalogue write

Each request of a tenant writes rows of this tenant, and of the cache it only deletes lists. The
requests of `ProductService` either change nothing or delete all lists of the tenant at their
end, with one exception: an update that has set the categories of a product can still fail on
its price.

## Main definitions

* `Writes` — rows of one tenant are written, and no entry of the cache.
* `Settled` — nothing has changed, or no list of the tenant is cached.

## Main results

* `writes_createVariant`, `writes_updateImage` and the like — every request.
* `settled_create`, `settled_update`, `settled_delete`, `settled_setCategories` — the requests
  of `ProductService`.
-/

set_option autoImplicit false

open ReadCommitted Autocommit

namespace PulseOps.Products

open Tenants (Store Service inDb)

variable {c c' : Catalogue} {s s' s'' : Store} {tenantId id productId variantId : Uuid}

/-! ### The statements -/

theorem confined_create {data : ProductData} {now : ℤ} {tenantExists : Bool}
    (h : ProductRepository.create id tenantId data now tenantExists c = .ok c') :
    Confined tenantId c c' := by
  unfold ProductRepository.create at h
  split_ifs at h with _ hexists _
  obtain rfl := (Except.ok.inj h).symm
  apply confined_insertProduct rfl
  intro old hold
  simp [hold] at hexists

theorem confined_update {changes : ProductChanges} {now : ℤ}
    (hold : ∀ old, c.products.lookup id = some old → old.tenantId = tenantId)
    (h : ProductRepository.update id changes now c = .ok c') : Confined tenantId c c' := by
  unfold ProductRepository.update at h
  cases hrow : c.products.lookup id with
  | none => simp [hrow] at h
  | some row =>
    simp only [hrow] at h
    split_ifs at h with hfits
    obtain rfl := (Except.ok.inj h).symm
    exact confined_insertProduct (hold row hrow) hold

theorem confined_delete
    (hold : ∀ old, c.products.lookup id = some old → old.tenantId = tenantId)
    (h : ProductRepository.delete id c = .ok c') : Confined tenantId c c' := by
  unfold ProductRepository.delete at h
  split_ifs at h
  obtain rfl := (Except.ok.inj h).symm
  exact confined_withoutProduct hold

theorem checkLinks_eq_ok {categoryIds : List Uuid} {u : Unit} :
    ProductRepository.checkLinks productId tenantId categoryIds c = .ok u ↔
      ∀ categoryId ∈ categoryIds, c.owner (.product productId) = some tenantId ∧
        c.owner (.category categoryId) = some tenantId := by
  unfold ProductRepository.checkLinks
  rw [forM_eq_ok]
  apply forall₂_congr
  intro categoryId _
  rw [bind_eq_ok]
  simp only [checkOwner_eq_ok]
  exact ⟨fun ⟨_, h⟩ => h, fun h => ⟨⟨⟩, h⟩⟩

theorem confined_setCategories {categoryIds : List Uuid} {primaryCategoryId : Option Uuid}
    (h : ProductRepository.setCategories productId tenantId categoryIds primaryCategoryId c =
      .ok c') : Confined tenantId c c' := by
  obtain ⟨u, hcheck, hc'⟩ := bind_eq_ok.mp h
  obtain rfl := (Except.ok.inj hc').symm
  rw [checkLinks_eq_ok] at hcheck
  apply confined_setLinks
  · intro l hl
    exact (of_decide_eq_true hl).2
  · intro l hl
    obtain ⟨categoryId, hmem, rfl⟩ := List.mem_map.mp hl
    exact ⟨rfl, hcheck categoryId (List.mem_eraseDups.mp hmem)⟩

/-- The links of a product of the tenant to categories of the tenant can be set. -/
theorem exists_setCategories {categoryIds : List Uuid} (primaryCategoryId : Option Uuid)
    (hproduct : c.owner (.product productId) = some tenantId)
    (hcategories : ∀ categoryId ∈ categoryIds, c.owner (.category categoryId) = some tenantId) :
    ∃ c', ProductRepository.setCategories productId tenantId categoryIds primaryCategoryId c =
      .ok c' := by
  have hcheck : ProductRepository.checkLinks productId tenantId categoryIds c = .ok () :=
    checkLinks_eq_ok.mpr fun categoryId hmem => ⟨hproduct, hcategories categoryId hmem⟩
  unfold ProductRepository.setCategories
  rw [hcheck]
  exact ⟨_, rfl⟩

theorem confined_createVariantRow {data : VariantData} {now : ℤ}
    (h : VariantRepository.create id tenantId productId data now c = .ok c') :
    Confined tenantId c c' := by
  obtain ⟨u, howner, hc'⟩ := bind_eq_ok.mp h
  dsimp only at hc'
  split_ifs at hc' with _ hunique
  obtain rfl := (Except.ok.inj hc').symm
  apply confined_insertVariant rfl
  · intro old hold
    exact absurd (Or.inl (by rw [hold]; rfl)) hunique
  · intro _
    exact checkOwner_eq_ok.mp howner

theorem confined_updateVariantRow {changes : VariantChanges}
    (hold : ∀ old, c.variants.lookup id = some old → old.tenantId = tenantId)
    (h : VariantRepository.update id changes c = .ok c') : Confined tenantId c c' := by
  unfold VariantRepository.update at h
  cases hrow : c.variants.lookup id with
  | none => simp [hrow] at h
  | some row =>
    simp only [hrow] at h
    split_ifs at h
    obtain rfl := (Except.ok.inj h).symm
    have htenant : (changes.merge row).tenantId = tenantId := hold row hrow
    apply confined_insertVariant htenant hold
    intro hc
    have howner := hc _ _ (.variant hrow)
    rw [hold row hrow] at howner
    exact howner

theorem confined_deleteVariantRow {ordered : Bool}
    (hold : ∀ old, c.variants.lookup id = some old → old.tenantId = tenantId)
    (h : VariantRepository.delete id ordered c = .ok c') : Confined tenantId c c' := by
  unfold VariantRepository.delete at h
  split_ifs at h
  obtain rfl := (Except.ok.inj h).symm
  exact confined_withoutVariant hold

theorem confined_setAttributes {isNumber : String → Bool} {attributes : List AttributeInput}
    (h : VariantRepository.setAttributes isNumber variantId tenantId attributes c = .ok c') :
    Confined tenantId c c' := by
  obtain ⟨u, hvalues, hrest⟩ := bind_eq_ok.mp h
  obtain ⟨u', howner, hc'⟩ := bind_eq_ok.mp hrest
  obtain rfl := (Except.ok.inj hc').symm
  apply confined_setValues
  · intro a ha
    exact (of_decide_eq_true ha).2
  · intro a ha
    obtain ⟨x, hx, rfl⟩ := List.mem_map.mp ha
    refine ⟨rfl, checkOwner_eq_ok.mp (forM_eq_ok.mp howner x hx), ?_⟩
    obtain ⟨d, hd, htenant, _⟩ := checkValues_eq_ok.mp hvalues x hx
    rw [Catalogue.owner, hd, Option.map_some, htenant]

theorem confined_createImageRow {variantId : Option Uuid} {storageKey url : String}
    {data : ImageData}
    (h : ProductImageRepository.create id tenantId productId variantId storageKey url data c =
      .ok c') : Confined tenantId c c' := by
  obtain ⟨u, hproduct, hrest⟩ := bind_eq_ok.mp h
  obtain ⟨u', hvariant, hc'⟩ := bind_eq_ok.mp hrest
  split_ifs at hc' with hunique
  obtain rfl := (Except.ok.inj hc').symm
  apply confined_insertImage rfl
  · intro old hold
    exact absurd (by rw [hold]; rfl) hunique
  · intro _
    exact checkOwner_eq_ok.mp hproduct
  · intro _ v hv
    have hv : variantId = some v := hv
    rw [hv] at hvariant
    exact checkOwner_eq_ok.mp hvariant

/-- An image that keeps the tenant and what it belongs to. -/
theorem confined_updateImageRow {change : ImageRow → ImageRow}
    (hchange : ∀ row, (change row).tenantId = row.tenantId ∧
      (change row).productId = row.productId ∧ (change row).variantId = row.variantId)
    (hold : ∀ old, c.images.lookup id = some old → old.tenantId = tenantId)
    (h : ProductImageRepository.updateRow id change c = .ok c') : Confined tenantId c c' := by
  unfold ProductImageRepository.updateRow at h
  cases hrow : c.images.lookup id with
  | none => simp [hrow] at h
  | some row =>
    simp only [hrow] at h
    obtain rfl := (Except.ok.inj h).symm
    obtain ⟨htenant, hproduct, hvariant⟩ := hchange row
    apply confined_insertImage (htenant.trans (hold row hrow)) hold
    · intro hc
      have howner := hc _ _ (.image hrow)
      rw [hold row hrow] at howner
      rw [hproduct]
      exact howner
    · intro hc v hv
      have howner := hc _ _ (.imageVariant hrow (hvariant.symm.trans hv))
      rw [hold row hrow] at howner
      exact howner

theorem confined_setPrimary {variantId : Option Uuid}
    (hold : ∀ old, c.images.lookup id = some old → old.tenantId = tenantId)
    (h : ProductImageRepository.setPrimary id tenantId productId variantId c = .ok c') :
    Confined tenantId c c' := by
  have hcleared (old : ImageRow) (hlookup : (ProductImageRepository.clearPrimary productId
      tenantId variantId c).images.lookup id = some old) : old.tenantId = tenantId := by
    rw [ProductImageRepository.clearPrimary, AList.lookup_mapRows] at hlookup
    obtain ⟨row, hrow, rfl⟩ := Option.map_eq_some_iff.mp hlookup
    have htenant := hold row hrow
    split_ifs <;> exact htenant
  apply confined_clearPrimary.trans
  unfold ProductImageRepository.setPrimary at h
  apply confined_updateImageRow _ hcleared h
  intro row
  exact ⟨rfl, rfl, rfl⟩

theorem confined_updateImageData {data : ImageData}
    (hold : ∀ old, c.images.lookup id = some old → old.tenantId = tenantId)
    (h : ProductImageRepository.update id data c = .ok c') : Confined tenantId c c' := by
  unfold ProductImageRepository.update at h
  apply confined_updateImageRow _ hold h
  intro row
  exact ⟨rfl, rfl, rfl⟩

theorem confined_deleteImageRow
    (hold : ∀ old, c.images.lookup id = some old → old.tenantId = tenantId)
    (h : ProductImageRepository.delete id c = .ok c') : Confined tenantId c c' := by
  unfold ProductImageRepository.delete at h
  split_ifs at h
  obtain rfl := (Except.ok.inj h).symm
  exact confined_deleteImage hold

/-! ### Requests -/

/-- Rows of one tenant are written, and no entry of the cache. -/
structure Writes (tenantId : Uuid) (s s' : Store) : Prop where
  rows : Confined tenantId s.db.catalogue s'.db.catalogue
  db : s'.db = { s.db with catalogue := s'.db.catalogue }
  tenants : s'.cache.tenants = s.cache.tenants
  settings : s'.cache.settings = s.cache.settings
  lists : ∀ key page, s'.cache.productLists.lookup key = some page →
    s.cache.productLists.lookup key = some page

theorem Writes.refl (tenantId : Uuid) (s : Store) : Writes tenantId s s where
  rows := Confined.refl tenantId _
  db := rfl
  tenants := rfl
  settings := rfl
  lists _ _ h := h

/-- One more statement. -/
theorem Writes.inCatalogue {f : Catalogue → Except Failure Catalogue} (h : Writes tenantId s s')
    (hf : ∀ c', f s'.db.catalogue = .ok c' → Confined tenantId s'.db.catalogue c') :
    (inCatalogue f).After (fun _ s'' => Writes tenantId s s'') s' := by
  rw [after_inCatalogue_iff]
  constructor
  · intro c' hc'
    refine ⟨h.rows.trans (hf c' hc'), ?_, h.tenants, h.settings, h.lists⟩
    dsimp only
    rw [h.db]
  · intro e _
    exact h

/-- Lists that are deleted. -/
theorem Writes.delProductLists (h : Writes tenantId s s') :
    Writes tenantId s (Tenants.CacheService.delProductLists tenantId s') where
  rows := h.rows
  db := h.db
  tenants := h.tenants
  settings := h.settings
  lists key page hkey := h.lists key page (AList.lookup_keep_eq_some.mp hkey).1

/-- Rows of the tenant stay rows of the tenant. -/
theorem owned_of_keep {ρ : Type} {table table' : Table Uuid ρ} {tenantOf : ρ → Uuid}
    (hkeep : ∀ t, t ≠ tenantId → (table'.keep fun _ r => tenantOf r = t) =
      table.keep fun _ r => tenantOf r = t)
    (hold : ∀ old, table.lookup id = some old → tenantOf old = tenantId) :
    ∀ new, table'.lookup id = some new → tenantOf new = tenantId := by
  intro new hnew
  by_contra ht
  have hpart : (table'.keep fun _ r => tenantOf r = tenantOf new).lookup id = some new :=
    AList.lookup_keep_eq_some.mpr ⟨hnew, decide_eq_true rfl⟩
  rw [hkeep _ ht] at hpart
  exact ht (hold new (AList.lookup_keep_eq_some.mp hpart).1)

/-- A row that is found as one of the tenant. -/
theorem owned_of_filter {ρ : Type} {table : Table Uuid ρ} {tenantOf : ρ → Uuid} {row : ρ}
    (h : (table.lookup id).filter (fun r => tenantOf r = tenantId) = some row) :
    ∀ old, table.lookup id = some old → tenantOf old = tenantId := by
  obtain ⟨hrow, htenant⟩ := Option.filter_eq_some_iff.mp h
  intro old hold
  obtain rfl := Option.some.inj (hrow.symm.trans hold)
  exact of_decide_eq_true htenant

section Owners

variable (hc : s.db.catalogue.SameTenant)

include hc in
theorem Writes.owns_product {row : ProductRow} (h : Writes tenantId s s')
    (hrow : s.db.catalogue.findProduct id tenantId = some row) :
    ∀ old, s'.db.catalogue.products.lookup id = some old → old.tenantId = tenantId :=
  owned_of_keep (fun t ht => congrArg Catalogue.products ((h.rows hc).2 t ht))
    (owned_of_filter hrow)

include hc in
theorem Writes.owns_variant {row : VariantRow} (h : Writes tenantId s s')
    (hrow : s.db.catalogue.findVariant id tenantId = some row) :
    ∀ old, s'.db.catalogue.variants.lookup id = some old → old.tenantId = tenantId :=
  owned_of_keep (fun t ht => congrArg Catalogue.variants ((h.rows hc).2 t ht))
    (owned_of_filter hrow)

include hc in
theorem Writes.owns_image {row : ImageRow} (h : Writes tenantId s s')
    (hrow : s.db.catalogue.findImage id tenantId = some row) :
    ∀ old, s'.db.catalogue.images.lookup id = some old → old.tenantId = tenantId :=
  owned_of_keep (fun t ht => congrArg Catalogue.images ((h.rows hc).2 t ht))
    (owned_of_filter hrow)

end Owners

/-! ### `ProductService` -/

/-- A part that is done or not. -/
theorem Writes.onlyIf {P : Prop} [Decidable P] {p : Service Unit} (h : Writes tenantId s s')
    (hp : P → p.After (fun _ s'' => Writes tenantId s s'') s') :
    (onlyIf P p).After (fun _ s'' => Writes tenantId s s'') s' :=
  after_onlyIf.mpr ⟨hp, fun _ => h⟩

/-- The last part of a request of `ProductService`. -/
theorem Writes.invalidate (h : Writes tenantId s s') :
    (ProductService.invalidateProductListCache tenantId).After
      (fun _ s'' => Writes tenantId s s'') s' := by
  unfold ProductService.invalidateProductListCache
  rw [after_update]
  exact h.delProductLists

namespace ProductService

theorem writes_create {data : ProductData} {now : ℤ} :
    (create tenantId data id now).After (fun _ s' => Writes tenantId s s') s := by
  have hstart := Writes.refl tenantId s
  unfold create assertWithinPlan checkCategories
  apply After.check (fun _ => ?_) fun _ => hstart
  apply After.check (fun _ => ?_) fun _ => hstart
  rw [after_find_bind]
  apply After.bind (hstart.inCatalogue fun c' hc' => confined_create hc')
  intro _ s₁ h₁
  apply After.bind (h₁.onlyIf fun _ => h₁.inCatalogue fun c' hc' => confined_setCategories hc')
  intro _ s₂ h₂
  exact h₂.invalidate

theorem writes_update (hc : s.db.catalogue.SameTenant) {categories : List Uuid}
    {primaryCategoryId : Option Uuid} {changes : ProductChanges} {now : ℤ} :
    (update id tenantId categories primaryCategoryId changes now).After
      (fun _ s' => Writes tenantId s s') s := by
  have hstart := Writes.refl tenantId s
  unfold update checkCategories
  apply after_getById (fun row hrow => ?_) fun _ => hstart
  apply After.bind
  · apply hstart.onlyIf
    intro _
    apply After.check (fun _ => ?_) fun _ => hstart
    exact hstart.inCatalogue fun c' hc' => confined_setCategories hc'
  · intro _ s₁ h₁
    apply After.bind (h₁.onlyIf fun _ => h₁.inCatalogue fun c' hc' =>
      confined_update (h₁.owns_product hc hrow) hc')
    intro _ s₂ h₂
    exact h₂.invalidate

theorem writes_delete (hc : s.db.catalogue.SameTenant) :
    (delete id tenantId).After (fun _ s' => Writes tenantId s s') s := by
  have hstart := Writes.refl tenantId s
  unfold delete
  apply after_getById (fun row hrow => ?_) fun _ => hstart
  rw [after_find_bind]
  apply After.demand (fun _ => ?_) fun _ => hstart
  apply After.bind (hstart.inCatalogue fun c' hc' =>
    confined_delete (hstart.owns_product hc hrow) hc')
  intro _ s₁ h₁
  exact h₁.invalidate

theorem writes_setCategories {categoryIds : List Uuid} {primaryCategoryId : Option Uuid} :
    (setCategories productId tenantId categoryIds primaryCategoryId).After
      (fun _ s' => Writes tenantId s s') s := by
  have hstart := Writes.refl tenantId s
  unfold setCategories checkCategories
  apply after_getById (fun row hrow => ?_) fun _ => hstart
  apply After.check (fun _ => ?_) fun _ => hstart
  apply After.bind (hstart.inCatalogue fun c' hc' => confined_setCategories hc')
  intro _ s₁ h₁
  exact h₁.invalidate

end ProductService

/-! ### `VariantService` and `ProductImageService` -/

namespace VariantService

variable {isNumber : String → Bool}

theorem writes_create {data : VariantData} {now : ℤ} :
    (create isNumber productId tenantId data id now).After
      (fun _ s' => Writes tenantId s s') s := by
  have hstart := Writes.refl tenantId s
  unfold create
  rw [after_find_bind]
  apply After.orFail (fun _ _ => ?_) fun _ => hstart
  rw [after_find_bind]
  apply After.demand (fun _ => ?_) fun _ => hstart
  rw [after_find_bind]
  apply After.demand (fun _ => ?_) fun _ => hstart
  apply After.bind (hstart.inCatalogue fun c' hc' => confined_createVariantRow hc')
  intro _ s₁ h₁
  exact h₁.onlyIf fun _ => h₁.inCatalogue fun c' hc' => confined_setAttributes hc'

theorem writes_update (hc : s.db.catalogue.SameTenant) {changes : VariantChanges}
    {attributes : Option (List AttributeInput)} {productId : Option Uuid} :
    (update isNumber variantId tenantId changes attributes productId).After
      (fun _ s' => Writes tenantId s s') s := by
  have hstart := Writes.refl tenantId s
  unfold update
  apply after_getById (fun row hrow _ => ?_) fun _ => hstart
  rw [after_find_bind]
  apply After.demand (fun _ => ?_) fun _ => hstart
  rw [after_find_bind]
  apply After.demand (fun _ => ?_) fun _ => hstart
  apply After.bind
  · apply after_forSome.mpr ⟨fun values _ => ?_, fun _ => hstart⟩
    exact hstart.inCatalogue fun c' hc' => confined_setAttributes hc'
  · intro _ s₁ h₁
    exact h₁.onlyIf fun _ => h₁.inCatalogue fun c' hc' =>
      confined_updateVariantRow (h₁.owns_variant hc hrow) hc'

theorem writes_delete (hc : s.db.catalogue.SameTenant) {productId : Option Uuid}
    {ordered : Bool} :
    (delete variantId tenantId productId ordered).After (fun _ s' => Writes tenantId s s') s := by
  have hstart := Writes.refl tenantId s
  unfold delete
  apply after_getById (fun row hrow _ => ?_) fun _ => hstart
  exact hstart.inCatalogue fun c' hc' =>
    confined_deleteVariantRow (hstart.owns_variant hc hrow) hc'

theorem writes_setAttributes {attributes : List AttributeInput} {productId : Option Uuid} :
    (setAttributes isNumber variantId tenantId attributes productId).After
      (fun _ s' => Writes tenantId s s') s := by
  have hstart := Writes.refl tenantId s
  unfold setAttributes
  apply after_getById (fun _ _ _ => ?_) fun _ => hstart
  exact hstart.inCatalogue fun c' hc' => confined_setAttributes hc'

end VariantService

namespace ProductImageService

variable {upload : Except Failure (String × String)} {data : ImageData}

theorem writes_addImage {variantId : Option Uuid} :
    (addImage productId tenantId variantId upload data id).After
      (fun _ s' => Writes tenantId s s') s := by
  have hstart := Writes.refl tenantId s
  unfold addImage
  apply After.check (fun _ => ?_) fun _ => hstart
  apply After.bind
  · apply hstart.onlyIf
    intro _
    apply hstart.inCatalogue
    intro c' hc'
    obtain rfl := (Except.ok.inj hc').symm
    exact confined_clearPrimary
  · intro _ s₁ h₁
    apply h₁.inCatalogue
    intro c' hc'
    cases upload with
    | error e => cases hc'
    | ok file => exact confined_createImageRow hc'

theorem writes_createProductImage :
    (createProductImage productId tenantId upload data id).After
      (fun _ s' => Writes tenantId s s') s := by
  unfold createProductImage
  rw [after_find_bind]
  apply After.orFail (fun _ _ => ?_) fun _ => Writes.refl tenantId s
  exact writes_addImage

theorem writes_createVariantImage :
    (createVariantImage productId variantId tenantId upload data id).After
      (fun _ s' => Writes tenantId s s') s := by
  unfold createVariantImage
  rw [after_find_bind]
  apply After.orFail (fun _ _ => ?_) fun _ => Writes.refl tenantId s
  rw [after_find_bind]
  apply After.orFail (fun _ _ => ?_) fun _ => Writes.refl tenantId s
  exact writes_addImage

theorem writes_updateImage (hc : s.db.catalogue.SameTenant) {productId : Option Uuid} :
    (updateImage id tenantId data productId).After (fun _ s' => Writes tenantId s s') s := by
  have hstart := Writes.refl tenantId s
  unfold updateImage
  apply after_getImage (fun row hrow => ?_) fun _ => hstart
  apply After.bind
  · exact hstart.onlyIf fun _ => hstart.inCatalogue fun c' hc' =>
      confined_setPrimary (hstart.owns_image hc hrow) hc'
  · intro _ s₁ h₁
    exact h₁.inCatalogue fun c' hc' =>
      confined_updateImageData (h₁.owns_image hc hrow) hc'

theorem writes_deleteImage (hc : s.db.catalogue.SameTenant) {productId : Option Uuid}
    {fileDeleted : Except Failure Unit} :
    (deleteImage id tenantId productId fileDeleted).After
      (fun _ s' => Writes tenantId s s') s := by
  have hstart := Writes.refl tenantId s
  unfold deleteImage
  apply after_getImage (fun row hrow => ?_) fun _ => hstart
  apply After.check (fun _ => ?_) fun _ => hstart
  exact hstart.inCatalogue fun c' hc' =>
    confined_deleteImageRow (hstart.owns_image hc hrow) hc'

end ProductImageService

/-! ### The lists are deleted -/

/-- Nothing has changed in the database, or no list of the tenant is cached. -/
def Settled (tenantId : Uuid) (s s' : Store) : Prop :=
  s'.db = s.db ∨ ∀ hash, s'.cache.productLists.lookup (tenantId, hash) = none

theorem settled_delProductLists :
    Settled tenantId s (Tenants.CacheService.delProductLists tenantId s') := by
  right
  intro hash
  rw [← Option.not_isSome_iff_eq_none, Option.isSome_iff_exists]
  rintro ⟨page, hpage⟩
  exact of_decide_eq_true (AList.lookup_keep_eq_some.mp hpage).2 rfl

/-- The categories that have been checked are those of the tenant. -/
theorem owner_of_checked {categoryIds : List Uuid}
    (h : (forM categoryIds fun catId =>
      if (c.findCategory catId tenantId).isSome then Except.ok ()
      else Except.error (Failure.app (categoryNotFound catId))) = .ok ()) :
    ∀ categoryId ∈ categoryIds, c.owner (.category categoryId) = some tenantId := by
  intro categoryId hmem
  have hcheck := forM_eq_ok.mp h categoryId hmem
  split_ifs at hcheck with hfound
  obtain ⟨row, hrow⟩ := Option.isSome_iff_exists.mp hfound
  obtain ⟨hlookup, htenant⟩ := Option.filter_eq_some_iff.mp hrow
  rw [Catalogue.owner, hlookup, Option.map_some, of_decide_eq_true htenant]

theorem owner_of_findProduct {row : ProductRow} (h : c.findProduct id tenantId = some row) :
    c.owner (.product id) = some tenantId := by
  obtain ⟨hlookup, htenant⟩ := Option.filter_eq_some_iff.mp h
  rw [Catalogue.owner_product hlookup, of_decide_eq_true htenant]

namespace ProductService

/-- The categories of a product of the tenant are set before the lists are deleted. -/
theorem settled_setLinks {categoryIds : List Uuid} {primaryCategoryId : Option Uuid}
    {k : Unit → Service Unit}
    (hproduct : s'.db.catalogue.owner (.product productId) = some tenantId)
    (hcategories : ∀ categoryId ∈ categoryIds,
      s'.db.catalogue.owner (.category categoryId) = some tenantId)
    {Q : Except Failure Unit → Store → Prop}
    (hk : ∀ c', ProductRepository.setCategories productId tenantId categoryIds primaryCategoryId
      s'.db.catalogue = .ok c' → (k ()).After Q { s' with db := { s'.db with catalogue := c' } }) :
    (inCatalogue (ProductRepository.setCategories productId tenantId categoryIds
      primaryCategoryId) >>= k).After Q s' := by
  refine after_inCatalogue_bind.mpr ⟨hk, ?_⟩
  intro e he
  obtain ⟨c', hc'⟩ := exists_setCategories primaryCategoryId hproduct hcategories
  rw [hc'] at he
  cases he

theorem settled_setCategories {categoryIds : List Uuid} {primaryCategoryId : Option Uuid} :
    (setCategories productId tenantId categoryIds primaryCategoryId).After
      (fun _ s' => Settled tenantId s s') s := by
  have hstart : Settled tenantId s s := .inl rfl
  unfold setCategories checkCategories
  apply after_getById (fun row hrow => ?_) fun _ => hstart
  apply After.check (fun hcheck => ?_) fun _ => hstart
  apply settled_setLinks (owner_of_findProduct hrow) (owner_of_checked hcheck)
  intro c' _
  exact settled_delProductLists

theorem settled_delete : (delete id tenantId).After (fun _ s' => Settled tenantId s s') s := by
  have hstart : Settled tenantId s s := .inl rfl
  unfold delete
  apply after_getById (fun row hrow => ?_) fun _ => hstart
  rw [after_find_bind]
  apply After.demand (fun _ => ?_) fun _ => hstart
  rw [after_inCatalogue_bind]
  constructor
  · intro c' _
    exact settled_delProductLists
  · intro e _
    exact hstart

theorem create_eq_ok {data : ProductData} {now : ℤ} {tenantExists : Bool}
    (h : ProductRepository.create id tenantId data now tenantExists c = .ok c') :
    ∃ row : ProductRow, row.tenantId = tenantId ∧
      c' = { c with products := c.products.insert id row } := by
  unfold ProductRepository.create at h
  split_ifs at h
  obtain rfl := (Except.ok.inj h).symm
  exact ⟨_, rfl, rfl⟩

theorem settled_create {data : ProductData} {now : ℤ} :
    (create tenantId data id now).After (fun _ s' => Settled tenantId s s') s := by
  have hstart : Settled tenantId s s := .inl rfl
  unfold create assertWithinPlan checkCategories
  apply After.check (fun _ => ?_) fun _ => hstart
  apply After.check (fun hcheck => ?_) fun _ => hstart
  rw [after_find_bind]
  rw [after_inCatalogue_bind]
  constructor
  · intro c' hc'
    unfold onlyIf
    split_ifs
    · -- the product that has just come belongs to the tenant, as the checked categories do
      obtain ⟨row, hrow, rfl⟩ := create_eq_ok hc'
      apply settled_setLinks
      · rw [Catalogue.owner_product (AList.lookup_insert _), hrow]
      · exact owner_of_checked hcheck
      · intro c'' _
        exact settled_delProductLists
    · exact settled_delProductLists
  · intro e _
    exact hstart

/-- A product of which the price fits into its column can be updated. -/
theorem exists_update {row : ProductRow} {changes : ProductChanges} (now : ℤ)
    (hrow : c.products.lookup id = some row) (hfits : fits changes.basePrice = true) :
    ∃ c', ProductRepository.update id changes now c = .ok c' := by
  unfold ProductRepository.update
  rw [hrow]
  dsimp only
  rw [if_pos hfits]
  exact ⟨_, rfl⟩

theorem products_setCategories {categoryIds : List Uuid} {primaryCategoryId : Option Uuid}
    (h : ProductRepository.setCategories productId tenantId categoryIds primaryCategoryId c =
      .ok c') : c'.products = c.products := by
  obtain ⟨u, -, hset⟩ := bind_eq_ok.mp h
  obtain rfl := (Except.ok.inj hset).symm
  rfl

/-- The last two parts of `update`, when the fields can be written. -/
theorem settled_fields {changes : ProductChanges} {now : ℤ}
    (h : ∀ e, ProductRepository.update id changes now s'.db.catalogue = .error e →
      Settled tenantId s s') :
    (onlyIf (changes ≠ {}) (inCatalogue (ProductRepository.update id changes now)) >>=
      fun _ => invalidateProductListCache tenantId).After
        (fun _ s'' => Settled tenantId s s'') s' := by
  unfold onlyIf
  split_ifs
  · rw [after_inCatalogue_bind]
    constructor
    · intro c' _
      exact settled_delProductLists
    · exact h
  · exact settled_delProductLists

/-- An update that sets the categories changes nothing or deletes the lists, provided that the
price fits into its column. -/
theorem settled_update {categories : List Uuid} {primaryCategoryId : Option Uuid}
    {changes : ProductChanges} {now : ℤ}
    (hfits : categories = [] ∨ fits changes.basePrice = true) :
    (update id tenantId categories primaryCategoryId changes now).After
      (fun _ s' => Settled tenantId s s') s := by
  have hstart : Settled tenantId s s := .inl rfl
  unfold update checkCategories
  apply after_getById (fun row hrow => ?_) fun _ => hstart
  rw [after_bind, after_onlyIf]
  constructor
  · intro hcategories
    apply After.check (fun hcheck => ?_) fun _ => hstart
    rw [after_inCatalogue_iff]
    constructor
    · intro c' hc'
      apply settled_fields
      intro e he
      -- the product is still there
      have hlookup : c'.products.lookup id = some row := by
        rw [products_setCategories hc']
        exact (Option.filter_eq_some_iff.mp hrow).1
      obtain ⟨c'', hc''⟩ := exists_update now hlookup (hfits.resolve_left hcategories)
      cases hc''.symm.trans he
    · intro e he
      obtain ⟨c', hc'⟩ := exists_setCategories primaryCategoryId (owner_of_findProduct hrow)
        (owner_of_checked hcheck)
      cases hc'.symm.trans he
  · intro _
    apply settled_fields
    intro e _
    exact hstart

end ProductService

end PulseOps.Products
