import PulseOps.Caching.TenantRows

/-!
# What the statements of the catalogue write

Each statement writes rows of one tenant, given that the row it is asked for belongs to this
tenant, and keeps every reference within one tenant.

## Main definitions

* `Confined` — a change of the rows of one tenant.

## Main results

* `confined_insertProduct` … `confined_withoutTenant` — the statements, by the tables they
  write.
* `Confined.list_eq` — the lists of other tenants stay as they are.
-/

set_option autoImplicit false

open ReadCommitted

namespace PulseOps.Products

variable {c c' c'' : Catalogue} {t tenantId id productId : Uuid} {texts : Texts}
  {options : ListOptions}

/-- A change of rows of one tenant. -/
def Confined (tenantId : Uuid) (c c' : Catalogue) : Prop :=
  c.SameTenant → c'.SameTenant ∧ ∀ t, t ≠ tenantId → c'.part t = c.part t

theorem Confined.refl (tenantId : Uuid) (c : Catalogue) : Confined tenantId c c :=
  fun h => ⟨h, fun _ _ => rfl⟩

theorem Confined.trans (h : Confined tenantId c c') (h' : Confined tenantId c' c'') :
    Confined tenantId c c'' := by
  intro hc
  obtain ⟨hc', hparts⟩ := h hc
  obtain ⟨hc'', hparts'⟩ := h' hc'
  exact ⟨hc'', fun t ht => (hparts' t ht).trans (hparts t ht)⟩

/-- **Isolation.** Other tenants are listed the same products. -/
theorem Confined.list_eq (h : Confined tenantId c c') (hc : c.SameTenant) (ht : t ≠ tenantId) :
    ProductRepository.list texts c' t options = ProductRepository.list texts c t options := by
  obtain ⟨hc', hparts⟩ := h hc
  rw [← list_part hc', hparts t ht, list_part hc]

/-! ### References -/

namespace Catalogue

/-- References are read off four tables. -/
theorem Refers.mono {parent : Parent} (h : c'.Refers parent t)
    (hlinks : ∀ l ∈ c'.productCategories, l ∈ c.productCategories)
    (hvariants : ∀ id v, c'.variants.lookup id = some v → c.variants.lookup id = some v)
    (hattributes : ∀ a ∈ c'.variantAttributes, a ∈ c.variantAttributes)
    (himages : ∀ id i, c'.images.lookup id = some i → c.images.lookup id = some i) :
    c.Refers parent t := by
  cases h with
  | linkProduct h => exact .linkProduct (hlinks _ h)
  | linkCategory h => exact .linkCategory (hlinks _ h)
  | variant h => exact .variant (hvariants _ _ h)
  | attributeVariant h => exact .attributeVariant (hattributes _ h)
  | attributeDefinition h => exact .attributeDefinition (hattributes _ h)
  | image h => exact .image (himages _ _ h)
  | imageVariant h hv => exact .imageVariant (himages _ _ h) hv

/-- A change keeps references within one tenant if the rows that are still referred to stay,
and new references are to rows of their tenant. -/
theorem SameTenant.step (hc : c.SameTenant)
    (howner : ∀ parent t, c'.Refers parent t → c.owner parent = some t →
      c'.owner parent = some t)
    (hrefers : ∀ parent t, c'.Refers parent t → c.Refers parent t ∨ c.owner parent = some t) :
    c'.SameTenant := by
  intro parent t h
  rcases hrefers parent t h with hold | hnew
  · exact howner parent t h (hc parent t hold)
  · exact howner parent t h hnew

end Catalogue

open Catalogue

/-! ### Rows that are written -/

/-- A row that comes in the place of one of the same tenant. -/
theorem keep_insert_tenant {ρ : Type} {table : Table Uuid ρ} {tenantOf : ρ → Uuid} {row : ρ}
    (hrow : tenantOf row = tenantId)
    (hold : ∀ old, table.lookup id = some old → tenantOf old = tenantId) (ht : t ≠ tenantId) :
    ((table.insert id row).keep fun _ r => tenantOf r = t) =
      table.keep fun _ r => tenantOf r = t := by
  apply AList.keep_insert_out
  · exact decide_eq_false fun h => ht (h.symm.trans hrow)
  · intro old hlookup
    exact decide_eq_false fun h => ht (h.symm.trans (hold old hlookup))

/-- Rows of a tenant in the place of others of the tenant. -/
theorem filter_replaced {ρ : Type} {rows rows' : List ρ} {tenantOf : ρ → Uuid} {gone : ρ → Bool}
    (ht : t ≠ tenantId) (hgone : ∀ r, gone r = true → tenantOf r = tenantId)
    (hrows' : ∀ r ∈ rows', tenantOf r = tenantId) :
    (rows.filter (fun r => ¬ gone r) ++ rows').filter (fun r => tenantOf r = t) =
      rows.filter fun r => tenantOf r = t := by
  have hnew : rows'.filter (fun r => tenantOf r = t) = [] := by
    rw [List.filter_eq_nil_iff]
    intro r hr h
    exact ht ((of_decide_eq_true h).symm.trans (hrows' r hr))
  rw [List.filter_append, hnew, List.append_nil]
  apply List.filter_filter_of_imp
  intro r _ h
  apply decide_eq_true
  intro hr
  exact ht ((of_decide_eq_true h).symm.trans (hgone r hr))

theorem confined_insertProduct {row : ProductRow} (hrow : row.tenantId = tenantId)
    (hold : ∀ old, c.products.lookup id = some old → old.tenantId = tenantId) :
    Confined tenantId c { c with products := c.products.insert id row } := by
  intro hc
  constructor
  · apply hc.step
    · intro parent t _ howner
      cases parent with
      | product k =>
        by_cases hk : k = id
        · subst hk
          obtain ⟨old, hlookup, rfl⟩ := Option.map_eq_some_iff.mp howner
          change (AList.lookup k (c.products.insert k row)).map (·.tenantId) = _
          rw [AList.lookup_insert, Option.map_some, hrow, hold old hlookup]
        · change (AList.lookup k (c.products.insert id row)).map (·.tenantId) = _
          rw [AList.lookup_insert_ne hk]
          exact howner
      | variant k => exact howner
      | category k => exact howner
      | definition k => exact howner
    · intro parent t h
      exact .inl (h.mono (fun _ h => h) (fun _ _ h => h) (fun _ h => h) fun _ _ h => h)
  · intro t ht
    simp only [part, keep_insert_tenant hrow hold ht]

theorem confined_insertVariant {row : VariantRow} (hrow : row.tenantId = tenantId)
    (hold : ∀ old, c.variants.lookup id = some old → old.tenantId = tenantId)
    (hproduct : c.SameTenant → c.owner (.product row.productId) = some tenantId) :
    Confined tenantId c { c with variants := c.variants.insert id row } := by
  intro hc
  constructor
  · apply hc.step
    · intro parent t _ howner
      cases parent with
      | variant k =>
        by_cases hk : k = id
        · subst hk
          obtain ⟨old, hlookup, rfl⟩ := Option.map_eq_some_iff.mp howner
          change (AList.lookup k (c.variants.insert k row)).map (·.tenantId) = _
          rw [AList.lookup_insert, Option.map_some, hrow, hold old hlookup]
        · change (AList.lookup k (c.variants.insert id row)).map (·.tenantId) = _
          rw [AList.lookup_insert_ne hk]
          exact howner
      | product k => exact howner
      | category k => exact howner
      | definition k => exact howner
    · intro parent t h
      cases h with
      | variant h =>
        rcases AList.lookup_insert_eq_some.mp h with ⟨rfl, rfl⟩ | ⟨-, hother⟩
        · rw [hrow]
          exact .inr (hproduct hc)
        · exact .inl (.variant hother)
      | linkProduct h => exact .inl (.linkProduct h)
      | linkCategory h => exact .inl (.linkCategory h)
      | attributeVariant h => exact .inl (.attributeVariant h)
      | attributeDefinition h => exact .inl (.attributeDefinition h)
      | image h => exact .inl (.image h)
      | imageVariant h hv => exact .inl (.imageVariant h hv)
  · intro t ht
    simp only [part, keep_insert_tenant hrow hold ht]

theorem confined_insertImage {row : ImageRow} (hrow : row.tenantId = tenantId)
    (hold : ∀ old, c.images.lookup id = some old → old.tenantId = tenantId)
    (hproduct : c.SameTenant → c.owner (.product row.productId) = some tenantId)
    (hvariant : c.SameTenant → ∀ v, row.variantId = some v →
      c.owner (.variant v) = some tenantId) :
    Confined tenantId c { c with images := c.images.insert id row } := by
  intro hc
  constructor
  · apply hc.step
    · intro parent t _ howner
      cases parent <;> exact howner
    · intro parent t h
      cases h with
      | image h =>
        rcases AList.lookup_insert_eq_some.mp h with ⟨rfl, rfl⟩ | ⟨-, hother⟩
        · rw [hrow]
          exact .inr (hproduct hc)
        · exact .inl (.image hother)
      | imageVariant h hv =>
        rcases AList.lookup_insert_eq_some.mp h with ⟨rfl, rfl⟩ | ⟨-, hother⟩
        · rw [hrow]
          exact .inr (hvariant hc _ hv)
        · exact .inl (.imageVariant hother hv)
      | linkProduct h => exact .inl (.linkProduct h)
      | linkCategory h => exact .inl (.linkCategory h)
      | variant h => exact .inl (.variant h)
      | attributeVariant h => exact .inl (.attributeVariant h)
      | attributeDefinition h => exact .inl (.attributeDefinition h)
  · intro t ht
    simp only [part, keep_insert_tenant hrow hold ht]

/-- Links of a tenant in the place of others of the tenant. -/
theorem confined_setLinks {gone : ProductCategory → Bool} {links : List ProductCategory}
    (hgone : ∀ l, gone l = true → l.tenantId = tenantId)
    (hlinks : ∀ l ∈ links, l.tenantId = tenantId ∧
      c.owner (.product l.productId) = some tenantId ∧
        c.owner (.category l.categoryId) = some tenantId) :
    Confined tenantId c
      { c with productCategories := c.productCategories.filter (fun l => ¬ gone l) ++ links } := by
  have hmem {l : ProductCategory}
      (h : l ∈ c.productCategories.filter (fun l => ¬ gone l) ++ links) :
      l ∈ c.productCategories ∨ l ∈ links := by
    rcases List.mem_append.mp h with hold | hnew
    · exact .inl (List.mem_of_mem_filter hold)
    · exact .inr hnew
  intro hc
  constructor
  · apply hc.step
    · intro parent t _ howner
      cases parent <;> exact howner
    · -- only the two references of a link can be new
      intro parent t h
      cases h with
      | linkProduct h =>
        rcases hmem h with hold | hnew
        · exact .inl (.linkProduct hold)
        · obtain ⟨htenant, hproduct, -⟩ := hlinks _ hnew
          rw [htenant]
          exact .inr hproduct
      | linkCategory h =>
        rcases hmem h with hold | hnew
        · exact .inl (.linkCategory hold)
        · obtain ⟨htenant, -, hcategory⟩ := hlinks _ hnew
          rw [htenant]
          exact .inr hcategory
      | variant h => exact .inl (.variant h)
      | attributeVariant h => exact .inl (.attributeVariant h)
      | attributeDefinition h => exact .inl (.attributeDefinition h)
      | image h => exact .inl (.image h)
      | imageVariant h hv => exact .inl (.imageVariant h hv)
  · intro t ht
    simp only [part]
    rw [filter_replaced ht hgone fun l hl => (hlinks l hl).1]

/-- Attributes of a tenant in the place of others of the tenant. -/
theorem confined_setValues {gone : VariantAttribute → Bool} {values : List VariantAttribute}
    (hgone : ∀ a, gone a = true → a.tenantId = tenantId)
    (hvalues : ∀ a ∈ values, a.tenantId = tenantId ∧
      c.owner (.variant a.variantId) = some tenantId ∧
        c.owner (.definition a.attributeDefinitionId) = some tenantId) :
    Confined tenantId c
      { c with variantAttributes := c.variantAttributes.filter (fun a => ¬ gone a) ++ values } := by
  have hmem {a : VariantAttribute}
      (h : a ∈ c.variantAttributes.filter (fun a => ¬ gone a) ++ values) :
      a ∈ c.variantAttributes ∨ a ∈ values := by
    rcases List.mem_append.mp h with hold | hnew
    · exact .inl (List.mem_of_mem_filter hold)
    · exact .inr hnew
  intro hc
  constructor
  · apply hc.step
    · intro parent t _ howner
      cases parent <;> exact howner
    · -- only the two references of a value can be new
      intro parent t h
      cases h with
      | attributeVariant h =>
        rcases hmem h with hold | hnew
        · exact .inl (.attributeVariant hold)
        · obtain ⟨htenant, hvariant, -⟩ := hvalues _ hnew
          rw [htenant]
          exact .inr hvariant
      | attributeDefinition h =>
        rcases hmem h with hold | hnew
        · exact .inl (.attributeDefinition hold)
        · obtain ⟨htenant, -, hdefinition⟩ := hvalues _ hnew
          rw [htenant]
          exact .inr hdefinition
      | linkProduct h => exact .inl (.linkProduct h)
      | linkCategory h => exact .inl (.linkCategory h)
      | variant h => exact .inl (.variant h)
      | image h => exact .inl (.image h)
      | imageVariant h hv => exact .inl (.imageVariant h hv)
  · intro t ht
    simp only [part]
    rw [filter_replaced ht hgone fun a ha => (hvalues a ha).1]

theorem confined_clearPrimary {variantId : Option Uuid} : Confined tenantId c
    (ProductImageRepository.clearPrimary productId tenantId variantId c) := by
  have hrow (i : ImageRow) :
      (if i.productId = productId ∧ i.tenantId = tenantId ∧ i.variantId = variantId then
        { i with isPrimary := false } else i : ImageRow).tenantId = i.tenantId := by
    split_ifs <;> rfl
  intro hc
  constructor
  · apply hc.step
    · intro parent t _ howner
      cases parent <;> exact howner
    · intro parent t h
      -- an image points where it did
      have himage {id : Uuid} {i' : ImageRow}
          (h : (ProductImageRepository.clearPrimary productId tenantId variantId c).images.lookup id
            = some i') : ∃ i, c.images.lookup id = some i ∧ i'.productId = i.productId ∧
              i'.variantId = i.variantId ∧ i'.tenantId = i.tenantId := by
        rw [ProductImageRepository.clearPrimary, AList.lookup_mapRows] at h
        obtain ⟨i, hi, rfl⟩ := Option.map_eq_some_iff.mp h
        refine ⟨i, hi, ?_⟩
        split_ifs <;> exact ⟨rfl, rfl, rfl⟩
      cases h with
      | image h =>
        obtain ⟨i, hi, hproduct, -, htenant⟩ := himage h
        rw [hproduct, htenant]
        exact .inl (.image hi)
      | imageVariant h hv =>
        obtain ⟨i, hi, -, hvariant, htenant⟩ := himage h
        rw [htenant]
        exact .inl (.imageVariant hi (hvariant.symm.trans hv))
      | linkProduct h => exact .inl (.linkProduct h)
      | linkCategory h => exact .inl (.linkCategory h)
      | variant h => exact .inl (.variant h)
      | attributeVariant h => exact .inl (.attributeVariant h)
      | attributeDefinition h => exact .inl (.attributeDefinition h)
  · intro t ht
    simp only [part, ProductImageRepository.clearPrimary]
    rw [AList.keep_mapRows_out]
    · intro e _ hi
      rw [if_neg]
      intro h
      exact ht ((of_decide_eq_true hi).symm.trans h.2.1)
    · intro k i hi
      rw [hrow]
      exact hi

/-! ### Rows that are deleted -/

/-- A deletion that leaves the rows of another tenant. -/
theorem keep_deleted {ρ : Type} {table : Table Uuid ρ} {tenantOf : ρ → Uuid}
    {stays : Uuid → ρ → Bool}
    (h : ∀ k r, table.lookup k = some r → tenantOf r = t → stays k r = true) :
    ((table.keep stays).keep fun _ r => tenantOf r = t) = table.keep fun _ r => tenantOf r = t := by
  apply AList.keep_keep_out
  intro e he hpart
  exact h e.1 e.2 (lookup_of_mem he) (of_decide_eq_true hpart)

theorem filter_deleted {ρ : Type} {rows : List ρ} {tenantOf : ρ → Uuid} {stays : ρ → Bool}
    (h : ∀ r ∈ rows, tenantOf r = t → stays r = true) :
    (rows.filter stays).filter (fun r => tenantOf r = t) = rows.filter fun r => tenantOf r = t := by
  apply List.filter_filter_of_imp
  intro r hr hpart
  exact h r hr (of_decide_eq_true hpart)

theorem confined_deleteImage
    (hold : ∀ old, c.images.lookup id = some old → old.tenantId = tenantId) :
    Confined tenantId c { c with images := c.images.keep fun k _ => k ≠ id } := by
  intro hc
  constructor
  · apply hc.step
    · intro parent t _ howner
      cases parent <;> exact howner
    · intro parent t h
      exact .inl (h.mono (fun _ h => h) (fun _ _ h => h) (fun _ h => h)
        fun _ _ h => (AList.lookup_keep_eq_some.mp h).1)
  · intro t ht
    simp only [part]
    rw [keep_deleted]
    intro k i hi htenant
    apply decide_eq_true
    rintro rfl
    exact ht (htenant.symm.trans (hold i hi))

theorem confined_withoutVariant
    (hold : ∀ old, c.variants.lookup id = some old → old.tenantId = tenantId) :
    Confined tenantId c (c.withoutVariant id) := by
  intro hc
  -- what points at the variant is of its tenant
  have hother {t' : Uuid} (href : c.Refers (.variant id) t') : t' = tenantId := by
    have howner := hc _ _ href
    obtain ⟨old, hlookup, rfl⟩ := Option.map_eq_some_iff.mp howner
    exact hold old hlookup
  constructor
  · apply hc.step
    · intro parent t h howner
      cases parent with
      | variant k =>
        have hk : k ≠ id := by
          cases h with
          | attributeVariant h => exact of_decide_eq_true (List.mem_filter.mp h).2
          | imageVariant h hv =>
            intro hk
            exact of_decide_eq_true (AList.lookup_keep_eq_some.mp h).2 (hk ▸ hv)
        change ((c.variants.keep fun k _ => k ≠ id).lookup k).map (·.tenantId) = some t
        obtain ⟨old, hlookup, htenant⟩ := Option.map_eq_some_iff.mp howner
        rw [AList.lookup_keep_eq_some.mpr ⟨hlookup, decide_eq_true hk⟩, Option.map_some, htenant]
      | product k => exact howner
      | category k => exact howner
      | definition k => exact howner
    · intro parent t h
      exact .inl (h.mono (fun _ h => h) (fun _ _ h => (AList.lookup_keep_eq_some.mp h).1)
        (fun _ h => List.mem_of_mem_filter h) fun _ _ h => (AList.lookup_keep_eq_some.mp h).1)
  · intro t ht
    simp only [part, withoutVariant]
    rw [keep_deleted, keep_deleted, filter_deleted]
    · intro a ha htenant
      apply decide_eq_true
      intro hid
      exact ht (htenant.symm.trans (hother (hid ▸ .attributeVariant ha)))
    · intro k i hi htenant
      apply decide_eq_true
      intro hid
      exact ht (htenant.symm.trans (hother (.imageVariant hi hid)))
    · intro k v hv htenant
      apply decide_eq_true
      rintro rfl
      exact ht (htenant.symm.trans (hold v hv))

theorem confined_withoutProduct
    (hold : ∀ old, c.products.lookup id = some old → old.tenantId = tenantId) :
    Confined tenantId c (c.withoutProduct id) := by
  intro hc
  -- what points at the product or at one of its variants is of its tenant
  have hproduct {t' : Uuid} (href : c.Refers (.product id) t') : t' = tenantId := by
    obtain ⟨old, hlookup, rfl⟩ := Option.map_eq_some_iff.mp (hc _ _ href)
    exact hold old hlookup
  have hvariant {k t' : Uuid} (hk : c.variantOf id k = true) (href : c.Refers (.variant k) t') :
      t' = tenantId := by
    obtain ⟨v, hv, hid⟩ := (Option.any_eq_true _ _).mp hk
    have htenant := hc.eq href (owner_variant hv)
    exact htenant.trans (hproduct (of_decide_eq_true hid ▸ .variant hv))
  constructor
  · apply hc.step
    · intro parent t h howner
      cases parent with
      | product k =>
        have hk : k ≠ id := by
          cases h with
          | linkProduct h => exact of_decide_eq_true (List.mem_filter.mp h).2
          | variant h => exact of_decide_eq_true (AList.lookup_keep_eq_some.mp h).2
          | image h => exact (of_decide_eq_true (AList.lookup_keep_eq_some.mp h).2).1
        change ((c.products.keep fun k _ => k ≠ id).lookup k).map (·.tenantId) = some t
        obtain ⟨old, hlookup, htenant⟩ := Option.map_eq_some_iff.mp howner
        rw [AList.lookup_keep_eq_some.mpr ⟨hlookup, decide_eq_true hk⟩, Option.map_some, htenant]
      | variant k =>
        have hk : ¬ c.variantOf id k = true := by
          cases h with
          | attributeVariant h => exact of_decide_eq_true (List.mem_filter.mp h).2
          | imageVariant h hv =>
            intro hk
            apply (of_decide_eq_true (AList.lookup_keep_eq_some.mp h).2).2
            rw [hv]
            exact hk
        obtain ⟨old, hlookup, htenant⟩ := Option.map_eq_some_iff.mp howner
        have hstays : old.productId ≠ id := by
          intro hid
          apply hk
          rw [variantOf, hlookup, Option.any_some, decide_eq_true hid]
        change ((c.variants.keep fun _ row => row.productId ≠ id).lookup k).map (·.tenantId) =
          some t
        rw [AList.lookup_keep_eq_some.mpr ⟨hlookup, decide_eq_true hstays⟩, Option.map_some,
          htenant]
      | category k => exact howner
      | definition k => exact howner
    · intro parent t h
      exact .inl (h.mono (fun _ h => List.mem_of_mem_filter h)
        (fun _ _ h => (AList.lookup_keep_eq_some.mp h).1) (fun _ h => List.mem_of_mem_filter h)
        fun _ _ h => (AList.lookup_keep_eq_some.mp h).1)
  · intro t ht
    simp only [part, withoutProduct]
    rw [keep_deleted, keep_deleted, keep_deleted, filter_deleted, filter_deleted]
    · intro a ha htenant
      apply decide_eq_true
      intro hgone
      exact ht (htenant.symm.trans (hvariant hgone (.attributeVariant ha)))
    · intro l hl htenant
      apply decide_eq_true
      intro hid
      exact ht (htenant.symm.trans (hproduct (hid ▸ .linkProduct hl)))
    · intro k i hi htenant
      apply decide_eq_true
      constructor
      · intro hid
        exact ht (htenant.symm.trans (hproduct (hid ▸ .image hi)))
      · intro hgone
        obtain ⟨v, hv, hof⟩ := (Option.any_eq_true _ _).mp hgone
        exact ht (htenant.symm.trans (hvariant hof (.imageVariant hi hv)))
    · intro k v hv htenant
      apply decide_eq_true
      intro hid
      exact ht (htenant.symm.trans (hproduct (hid ▸ .variant hv)))
    · intro k p hp htenant
      apply decide_eq_true
      rintro rfl
      exact ht (htenant.symm.trans (hold p hp))

/-- A tenant goes with all its rows. -/
theorem confined_withoutTenant :
    Confined tenantId c (Tenants.TenantRepository.withoutTenant tenantId c) := by
  intro hc
  constructor
  · apply hc.step
    · intro parent t h howner
      -- the row that still refers is of another tenant
      have ht : t ≠ tenantId := by
        cases h with
        | linkProduct h => exact of_decide_eq_true (List.mem_filter.mp h).2
        | linkCategory h => exact of_decide_eq_true (List.mem_filter.mp h).2
        | variant h => exact of_decide_eq_true (AList.lookup_keep_eq_some.mp h).2
        | attributeVariant h => exact of_decide_eq_true (List.mem_filter.mp h).2
        | attributeDefinition h => exact of_decide_eq_true (List.mem_filter.mp h).2
        | image h => exact of_decide_eq_true (AList.lookup_keep_eq_some.mp h).2
        | imageVariant h _ => exact of_decide_eq_true (AList.lookup_keep_eq_some.mp h).2
      have hstays {ρ : Type} {table : Table Uuid ρ} {tenantOf : ρ → Uuid} {k : Uuid}
          (h : (table.lookup k).map tenantOf = some t) :
          ((table.keep fun _ row => tenantOf row ≠ tenantId).lookup k).map tenantOf = some t := by
        obtain ⟨row, hlookup, rfl⟩ := Option.map_eq_some_iff.mp h
        rw [AList.lookup_keep_eq_some.mpr ⟨hlookup, decide_eq_true ht⟩, Option.map_some]
      cases parent <;> exact hstays howner
    · intro parent t h
      exact .inl (h.mono (fun _ h => List.mem_of_mem_filter h)
        (fun _ _ h => (AList.lookup_keep_eq_some.mp h).1) (fun _ h => List.mem_of_mem_filter h)
        fun _ _ h => (AList.lookup_keep_eq_some.mp h).1)
  · intro t ht
    have hstays {ρ : Type} (tenantOf : ρ → Uuid) (r : ρ) (htenant : tenantOf r = t) :
        decide (tenantOf r ≠ tenantId) = true := by
      rw [htenant]
      exact decide_eq_true ht
    simp only [part, Tenants.TenantRepository.withoutTenant]
    rw [keep_deleted fun _ r _ => hstays _ r, keep_deleted fun _ r _ => hstays _ r,
      keep_deleted fun _ r _ => hstays _ r, keep_deleted fun _ r _ => hstays _ r,
      keep_deleted fun _ r _ => hstays _ r, filter_deleted fun r _ => hstays _ r,
      filter_deleted fun r _ => hstays _ r]

end PulseOps.Products
