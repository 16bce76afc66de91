import PulseOps.Model.CatalogueServices
import PulseOps.ReadCommitted.Tables

/-!
# The rows of one tenant

Rows of the catalogue belong to tenants, and a row only points at rows of its own tenant. The
list of the products of a tenant then reads nothing but rows of that tenant. Of the options it
reads what the key of its entry in the cache is made of.

## Main definitions

* `Catalogue.part` — the rows of one tenant, as a catalogue of their own.
* `Catalogue.SameTenant` — every reference points at a row of the same tenant.

## Main results

* `list_part` — the list of a tenant is that of its rows.
* `list_eq_of_payload` — options with one payload list the same products.
-/

set_option autoImplicit false

open ReadCommitted

namespace PulseOps.Products

variable {c c' c'' : Catalogue} {t tenantId id : Uuid} {texts : Texts} {options : ListOptions}

/-! ### Parts and references -/

/-- The rows of one tenant. -/
def Catalogue.part (t : Uuid) (c : Catalogue) : Catalogue where
  products := c.products.keep fun _ row => row.tenantId = t
  variants := c.variants.keep fun _ row => row.tenantId = t
  images := c.images.keep fun _ row => row.tenantId = t
  categories := c.categories.keep fun _ row => row.tenantId = t
  attributeDefinitions := c.attributeDefinitions.keep fun _ row => row.tenantId = t
  productCategories := c.productCategories.filter (·.tenantId = t)
  variantAttributes := c.variantAttributes.filter (·.tenantId = t)

/-- What a row can point at. -/
inductive Parent where
  | product (id : Uuid)
  | variant (id : Uuid)
  | category (id : Uuid)
  | definition (id : Uuid)
  deriving DecidableEq

/-- The tenant of a row. -/
def Catalogue.owner (c : Catalogue) : Parent → Option Uuid
  | .product id => (c.products.lookup id).map (·.tenantId)
  | .variant id => (c.variants.lookup id).map (·.tenantId)
  | .category id => (c.categories.lookup id).map (·.tenantId)
  | .definition id => (c.attributeDefinitions.lookup id).map (·.tenantId)

/-- A row of a tenant points at another row. -/
inductive Catalogue.Refers (c : Catalogue) : Parent → Uuid → Prop
  | linkProduct {l : ProductCategory} : l ∈ c.productCategories →
      Refers c (.product l.productId) l.tenantId
  | linkCategory {l : ProductCategory} : l ∈ c.productCategories →
      Refers c (.category l.categoryId) l.tenantId
  | variant {id : Uuid} {v : VariantRow} : c.variants.lookup id = some v →
      Refers c (.product v.productId) v.tenantId
  | attributeVariant {a : VariantAttribute} : a ∈ c.variantAttributes →
      Refers c (.variant a.variantId) a.tenantId
  | attributeDefinition {a : VariantAttribute} : a ∈ c.variantAttributes →
      Refers c (.definition a.attributeDefinitionId) a.tenantId
  | image {id : Uuid} {i : ImageRow} : c.images.lookup id = some i →
      Refers c (.product i.productId) i.tenantId
  | imageVariant {id v : Uuid} {i : ImageRow} : c.images.lookup id = some i →
      i.variantId = some v → Refers c (.variant v) i.tenantId

/-- References are to rows of the same tenant: the foreign keys and their triggers. -/
def Catalogue.SameTenant (c : Catalogue) : Prop :=
  ∀ parent t, c.Refers parent t → c.owner parent = some t

/-- A reference to a row of a tenant is one of the tenant. -/
theorem Catalogue.SameTenant.eq (hc : c.SameTenant) {parent : Parent}
    (href : c.Refers parent tenantId) (howner : c.owner parent = some t) : tenantId = t :=
  Option.some.inj ((hc _ _ href).symm.trans howner)

theorem Catalogue.owner_product {p : ProductRow} (hp : c.products.lookup id = some p) :
    c.owner (.product id) = some p.tenantId := by
  rw [owner, hp, Option.map_some]

theorem Catalogue.owner_variant {v : VariantRow} (hv : c.variants.lookup id = some v) :
    c.owner (.variant id) = some v.tenantId := by
  rw [owner, hv, Option.map_some]

theorem lookup_of_mem {ρ : Type} {table : Table Uuid ρ} {e : Sigma fun _ : Uuid => ρ}
    (h : e ∈ table.entries) : table.lookup e.1 = some e.2 :=
  AList.mem_lookup_iff.mpr h

/-- A test that only rows of the part can pass. -/
theorem any_part {α : Type} {xs : List α} {p q q' : α → Bool}
    (h : ∀ x ∈ xs, q x = true → p x = true) (hsame : ∀ x ∈ xs, p x = true → q' x = q x) :
    (xs.filter p).any q' = xs.any q := by
  rw [List.any_filter, Bool.eq_iff_iff, List.any_eq_true, List.any_eq_true]
  constructor
  · rintro ⟨x, hx, hq⟩
    rw [Bool.and_eq_true] at hq
    exact ⟨x, hx, (hsame x hx hq.1).symm.trans hq.2⟩
  · rintro ⟨x, hx, hq⟩
    refine ⟨x, hx, ?_⟩
    rw [h x hx hq, hsame x hx (h x hx hq), hq]
    rfl

/-- A row of the tenant is read in its part. -/
theorem lookup_part {ρ : Type} {table : Table Uuid ρ} {p : Uuid → ρ → Bool}
    (h : ∀ row, table.lookup id = some row → p id row = true) :
    (table.keep p).lookup id = table.lookup id := by
  apply Option.ext
  intro row
  rw [AList.lookup_keep_eq_some]
  exact and_iff_left_of_imp (h row)

/-! ### The list reads one part -/

namespace Catalogue

/-- The definition of an attribute of the tenant. -/
theorem definition_part (hc : c.SameTenant) {a : VariantAttribute} (ha : a ∈ c.variantAttributes)
    (ht : a.tenantId = t) : (c.part t).attributeDefinitions.lookup a.attributeDefinitionId =
      c.attributeDefinitions.lookup a.attributeDefinitionId := by
  apply lookup_part
  intro d hd
  have howner : c.owner (.definition a.attributeDefinitionId) = some d.tenantId := by
    rw [owner, hd, Option.map_some]
  exact decide_eq_true ((hc.eq (.attributeDefinition ha) howner).symm.trans ht)

/-- The category of a link of the tenant. -/
theorem category_part (hc : c.SameTenant) {l : ProductCategory} (hl : l ∈ c.productCategories)
    (ht : l.tenantId = t) : (c.part t).categories.lookup l.categoryId =
      c.categories.lookup l.categoryId := by
  apply lookup_part
  intro row hrow
  have howner : c.owner (.category l.categoryId) = some row.tenantId := by
    rw [owner, hrow, Option.map_some]
  exact decide_eq_true ((hc.eq (.linkCategory hl) howner).symm.trans ht)

theorem attributesMatch_part (hc : c.SameTenant) {v : VariantRow}
    (hv : c.variants.lookup id = some v) (ht : v.tenantId = t) (filters : Table String String) :
    (c.part t).attributesMatch t id filters = c.attributesMatch t id filters := by
  apply any_part
  · intro a ha hmatch
    have hid : a.variantId = id := by
      simp only [Bool.decide_and, Bool.and_eq_true, decide_eq_true_eq] at hmatch
      exact hmatch.1
    have htenant := hc.eq (.attributeVariant ha) (hid ▸ owner_variant hv)
    exact decide_eq_true (htenant.trans ht)
  · intro a ha hpart
    rw [definition_part hc ha (of_decide_eq_true hpart)]

theorem variantMatches_part (hc : c.SameTenant) {v : VariantRow}
    (hv : c.variants.lookup id = some v) (ht : v.tenantId = t) (productId : Uuid) :
    (c.part t).variantMatches texts t options productId id v =
      c.variantMatches texts t options productId id v := by
  have hattributes : (c.part t).attributesMatch t id = c.attributesMatch t id :=
    funext fun filters => attributesMatch_part hc hv ht filters
  unfold variantMatches
  rw [hattributes]

theorem productMatches_part (hc : c.SameTenant) (id : Uuid) (p : ProductRow) :
    (c.part t).productMatches texts t options id p = c.productMatches texts t options id p := by
  have hlinks (categoryId : Uuid) : ((c.part t).productCategories.any fun l =>
        l.productId = id ∧ l.categoryId = categoryId ∧ l.tenantId = t) =
      c.productCategories.any fun l =>
        l.productId = id ∧ l.categoryId = categoryId ∧ l.tenantId = t := by
    apply any_part
    · intro l _ hl
      exact decide_eq_true (of_decide_eq_true hl).2.2
    · intro l _ _
      rfl
  have hvariants : ((c.part t).variants.entries.any fun v =>
        (c.part t).variantMatches texts t options id v.1 v.2) =
      c.variants.entries.any fun v => c.variantMatches texts t options id v.1 v.2 := by
    apply any_part
    · intro v _ hv
      unfold variantMatches at hv
      exact decide_eq_true (of_decide_eq_true hv).2.1
    · intro v hv hpart
      exact variantMatches_part hc (lookup_of_mem hv) (of_decide_eq_true hpart) id
  unfold productMatches
  simp only [hlinks, hvariants]

/-- The images of a row of the tenant. -/
theorem primaryImage_part {belongs : ImageRow → Bool}
    (h : ∀ i ∈ c.images.entries, belongs i.2 = true → i.2.tenantId = t) :
    (c.part t).primaryImage belongs = c.primaryImage belongs := by
  unfold primaryImage
  have hfilter := List.filter_filter_of_imp (l := c.images.entries)
    (p := fun i => i.2.tenantId = t) (q := fun i => belongs i.2 ∧ i.2.isPrimary = true)
    fun i hi hq => decide_eq_true (h i hi (of_decide_eq_true hq).1)
  exact congrArg (fun xs => (xs.map fun i => (i.1, i.2)).take 1) hfilter

variable {p : ProductRow}

theorem categoriesOf_part (hc : c.SameTenant) (hp : c.products.lookup id = some p)
    (ht : p.tenantId = t) : (c.part t).categoriesOf id = c.categoriesOf id := by
  have howner {l : ProductCategory} (hl : l ∈ c.productCategories)
      (hid : l.productId = id) : l.tenantId = t :=
    (hc.eq (.linkProduct hl) (hid ▸ owner_product hp)).trans ht
  have hfilter := List.filter_filter_of_imp (l := c.productCategories) (p := (·.tenantId = t))
    (q := (·.productId = id)) fun l hl hq =>
      decide_eq_true (howner hl (of_decide_eq_true hq))
  unfold categoriesOf
  change ((c.productCategories.filter (·.tenantId = t)).filter (·.productId = id)).map _ = _
  rw [hfilter]
  apply List.map_congr_left
  intro l hl
  obtain ⟨hmem, hid⟩ := List.mem_filter.mp hl
  rw [category_part hc hmem (howner hmem (of_decide_eq_true hid))]

theorem variantEntries_part (hc : c.SameTenant) (hp : c.products.lookup id = some p)
    (ht : p.tenantId = t) : (c.part t).variantEntries id = c.variantEntries id := by
  apply List.filter_filter_of_imp
  intro v hv hid
  have htenant := hc.eq (.variant (lookup_of_mem hv)) (of_decide_eq_true hid ▸ owner_product hp)
  exact decide_eq_true (htenant.trans ht)

theorem variantView_part (hc : c.SameTenant) {v : VariantRow}
    (hv : c.variants.lookup id = some v) (ht : v.tenantId = t) :
    (c.part t).variantView id v = c.variantView id v := by
  have howner {a : VariantAttribute} (ha : a ∈ c.variantAttributes)
      (hid : a.variantId = id) : a.tenantId = t :=
    (hc.eq (.attributeVariant ha) (hid ▸ owner_variant hv)).trans ht
  have hattributes : (c.part t).attributesOf id = c.attributesOf id := by
    have hfilter := List.filter_filter_of_imp (l := c.variantAttributes) (p := (·.tenantId = t))
      (q := (·.variantId = id)) fun a ha hq =>
        decide_eq_true (howner ha (of_decide_eq_true hq))
    unfold attributesOf
    change ((c.variantAttributes.filter (·.tenantId = t)).filter (·.variantId = id)).map _ = _
    rw [hfilter]
    apply List.map_congr_left
    intro a ha
    obtain ⟨hmem, hid⟩ := List.mem_filter.mp ha
    rw [definition_part hc hmem (howner hmem (of_decide_eq_true hid))]
  have himages : ((c.part t).primaryImage fun i => i.variantId = some id) =
      c.primaryImage fun i => i.variantId = some id := by
    apply primaryImage_part
    intro i hi hbelongs
    have href := Catalogue.Refers.imageVariant (lookup_of_mem hi) (of_decide_eq_true hbelongs)
    exact (hc.eq href (owner_variant hv)).trans ht
  unfold variantView
  rw [hattributes, himages]

theorem productView_part (hc : c.SameTenant) (hp : c.products.lookup id = some p)
    (ht : p.tenantId = t) : (c.part t).productView id p = c.productView id p := by
  have hentries := variantEntries_part hc hp ht
  have hvariants : (c.part t).variantsOf id = c.variantsOf id := by
    unfold variantsOf
    rw [hentries]
    apply List.map_congr_left
    intro v hv
    have hmem := List.mem_of_mem_take hv
    rw [List.mem_mergeSort, List.mem_filter] at hmem
    obtain ⟨hrow, hid⟩ := List.mem_filter.mp hmem.1
    have htenant := hc.eq (.variant (lookup_of_mem hrow))
      (of_decide_eq_true hid ▸ owner_product hp)
    exact variantView_part hc (lookup_of_mem hrow) (htenant.trans ht)
  have himages : ((c.part t).primaryImage fun i => i.productId = id) =
      c.primaryImage fun i => i.productId = id := by
    apply primaryImage_part
    intro i hi hbelongs
    have htenant := hc.eq (.image (lookup_of_mem hi))
      (of_decide_eq_true hbelongs ▸ owner_product hp)
    exact htenant.trans ht
  unfold productView
  rw [categoriesOf_part hc hp ht, hvariants, himages, hentries]

end Catalogue

/-- **One tenant.** The list of the products of a tenant reads the rows of this tenant. -/
theorem list_part (hc : c.SameTenant) :
    ProductRepository.list texts (c.part t) t options =
      ProductRepository.list texts c t options := by
  have hfound : ((c.part t).products.entries.filter fun e =>
        (c.part t).productMatches texts t options e.1 e.2) =
      c.products.entries.filter fun e => c.productMatches texts t options e.1 e.2 := by
    simp only [Catalogue.productMatches_part hc]
    apply List.filter_filter_of_imp
    intro e _ hmatch
    unfold Catalogue.productMatches at hmatch
    exact decide_eq_true (of_decide_eq_true hmatch).1
  unfold ProductRepository.list
  rw [hfound]
  dsimp only
  congr 1
  apply List.map_congr_left
  intro e he
  have hmem := List.mem_of_mem_drop (List.mem_of_mem_take he)
  rw [List.mem_mergeSort] at hmem
  obtain ⟨hrow, hmatch⟩ := List.mem_filter.mp hmem
  unfold Catalogue.productMatches at hmatch
  exact Catalogue.productView_part hc (lookup_of_mem hrow) (of_decide_eq_true hmatch).1

/-! ### Options with one payload -/

section Payload

variable {options' : ListOptions}

theorem truthy_eq_of_getD {x y : Option String} (h : x.getD "" = y.getD "") :
    truthy x = truthy y := by
  have htruthy (z : Option String) : truthy z = truthy (some (z.getD "")) := by
    cases z <;> rfl
  rw [htruthy x, htruthy y, h]

/-- The attribute filters, as rows. -/
def filterRows (options : ListOptions) : List (Sigma fun _ : String => String) :=
  (options.attributeFilters.getD ∅).entries

theorem attributeFilters_eq_none (h : filterRows options = []) :
    Catalogue.attributeFilters options = none := by
  unfold Catalogue.attributeFilters
  unfold filterRows at h
  cases hfilters : options.attributeFilters with
  | none => rfl
  | some filters =>
    rw [hfilters, Option.getD_some] at h
    simp [Option.filter, h]

theorem attributeFilters_eq_some (h : filterRows options ≠ []) :
    ∃ filters, Catalogue.attributeFilters options = some filters ∧
      filters.entries = filterRows options := by
  unfold Catalogue.attributeFilters
  unfold filterRows at h ⊢
  cases hfilters : options.attributeFilters with
  | none =>
    rw [hfilters] at h
    exact absurd rfl h
  | some filters =>
    rw [hfilters, Option.getD_some] at h
    exact ⟨filters, by simp [Option.filter, h], rfl⟩

/-- The filters of two options agree on every variant. -/
theorem attributeFilters_agree (h : (filterRows options).Perm (filterRows options')) :
    (Catalogue.attributeFilters options).isSome = (Catalogue.attributeFilters options').isSome ∧
      ∀ id, (Catalogue.attributeFilters options).all (c.attributesMatch t id) =
        (Catalogue.attributeFilters options').all (c.attributesMatch t id) := by
  by_cases hempty : filterRows options = []
  · have hempty' : filterRows options' = [] := (hempty ▸ h).nil_eq.symm
    rw [attributeFilters_eq_none hempty, attributeFilters_eq_none hempty']
    exact ⟨rfl, fun _ => rfl⟩
  · have hne' : filterRows options' ≠ [] := by
      intro hempty'
      exact hempty (hempty' ▸ h).eq_nil
    obtain ⟨filters, hfilters, hrows⟩ := attributeFilters_eq_some hempty
    obtain ⟨filters', hfilters', hrows'⟩ := attributeFilters_eq_some hne'
    rw [hfilters, hfilters']
    refine ⟨rfl, fun id => ?_⟩
    have hperm : filters.entries.Perm filters'.entries := by
      rw [hrows, hrows']
      exact h
    simp only [Option.all_some, Catalogue.attributesMatch, hperm.all_eq]

theorem filterRows_perm (h : options.payload = options'.payload) :
    (filterRows options).Perm (filterRows options') := by
  have hsorted : (filterRows options).mergeSort (fun a b => a.1 ≤ b.1) =
      (filterRows options').mergeSort fun a b => a.1 ≤ b.1 :=
    congrArg ListPayload.attributeFilters h
  have hleft := List.mergeSort_perm (filterRows options) fun a b => a.1 ≤ b.1
  rw [hsorted] at hleft
  exact hleft.symm.trans (List.mergeSort_perm _ _)

theorem productMatches_eq_of_payload (h : options.payload = options'.payload) (id : Uuid)
    (p : ProductRow) : c.productMatches texts t options id p =
      c.productMatches texts t options' id p := by
  obtain ⟨hsome, hall⟩ := attributeFilters_agree (c := c) (t := t) (filterRows_perm h)
  have hsearch := truthy_eq_of_getD (congrArg ListPayload.search h)
  have hcategory := truthy_eq_of_getD (congrArg ListPayload.categoryId h)
  have hsku := truthy_eq_of_getD (congrArg ListPayload.sku h)
  have hbarcode := truthy_eq_of_getD (congrArg ListPayload.barcode h)
  have hstatus : options.status = options'.status := congrArg ListPayload.status h
  have hmin : options.minPrice = options'.minPrice := congrArg ListPayload.minPrice h
  have hmax : options.maxPrice = options'.maxPrice := congrArg ListPayload.maxPrice h
  have hfilters : Catalogue.hasVariantFilters options = Catalogue.hasVariantFilters options' := by
    unfold Catalogue.hasVariantFilters
    rw [hsku, hbarcode, hmin, hmax, hsome]
  have hvariants : (fun v : Sigma fun _ : Uuid => VariantRow =>
      c.variantMatches texts t options id v.1 v.2) =
        fun v => c.variantMatches texts t options' id v.1 v.2 := by
    funext v
    unfold Catalogue.variantMatches
    rw [hsku, hbarcode, hmin, hmax, hall]
  unfold Catalogue.productMatches
  rw [hsearch, hstatus, hcategory, hfilters, hvariants]

/-- **Keys of lists.** Options with one payload list the same products. -/
theorem list_eq_of_payload (h : options.payload = options'.payload) :
    ProductRepository.list texts c t options = ProductRepository.list texts c t options' := by
  have hpage : options.page.getD 1 = options'.page.getD 1 := congrArg ListPayload.page h
  have hlimit : options.limit.getD 20 = options'.limit.getD 20 := congrArg ListPayload.limit h
  have hsortBy : options.sortBy.getD "createdAt" = options'.sortBy.getD "createdAt" :=
    congrArg ListPayload.sortBy h
  have hsortOrder : options.sortOrder.getD "desc" = options'.sortOrder.getD "desc" :=
    congrArg ListPayload.sortOrder h
  have horder (a b : ProductRow) : orderBy texts options a b = orderBy texts options' a b := by
    unfold orderBy
    rw [hsortBy, hsortOrder]
  simp only [ProductRepository.list, hpage, hlimit, horder, productMatches_eq_of_payload h]

end Payload

end PulseOps.Products
