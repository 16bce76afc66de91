import Mathlib.Data.String.Basic
import PulseOps.Model.Products
import PulseOps.ReadCommitted.Pages
import PulseOps.ReadCommitted.Tables

/-!
# Filters by attributes

`ProductRepository.list` asks for one row of `product_variant_attributes` that satisfies the
conditions of all attribute filters. A row has one definition and this has one code, so that
the filters of two codes are never satisfied together, whatever attributes a variant has. With
the filter of one code the list is that of the products with such a variant.

## Main definitions

* `Catalogue.hasAttribute`, `Catalogue.WantedVariant`, `Catalogue.Wanted` — what the options
  ask for, with an attribute for each code.
* `Lists` — a product is on one of the pages.

## Main results

* `attributesMatch_iff`, `attributesMatch_eq_false` — one code, and more than one.
* `lists_iff` — the pages show the products that satisfy the query.
* `attribute_filters_iff` — the list is the wanted one if one code is given at most, or no
  product is wanted.
-/

set_option autoImplicit false

namespace PulseOps.Products

variable {texts : Texts} {s : Catalogue} {tenantId variantId id : Uuid} {options : ListOptions}

/-! ### What is asked for -/

namespace Catalogue

/-- The variant has an attribute with the code and the value. -/
def hasAttribute (s : Catalogue) (tenantId variantId : Uuid) (code value : String) : Prop :=
  ∃ a ∈ s.variantAttributes, a.variantId = variantId ∧
    (∃ d, s.attributeDefinitions.lookup a.attributeDefinitionId = some d ∧ d.code = code ∧
      d.tenantId = tenantId) ∧ a.value = value

variable (texts : Texts) (s : Catalogue) (tenantId : Uuid) (options : ListOptions)

/-- The variant satisfies the filters on SKU, barcode and price, and has for every code an
attribute with the value. -/
def WantedVariant (productId variantId : Uuid) (v : VariantRow) : Prop :=
  v.productId = productId ∧ v.tenantId = tenantId ∧
    (truthy options.sku).all (contained texts (some v.sku)) ∧
    (truthy options.barcode).all (contained texts v.barcode) ∧
    options.minPrice.all (fun price => price * 100 ≤ ((v.price : ℤ) : ℚ)) ∧
    options.maxPrice.all (fun price => ((v.price : ℤ) : ℚ) ≤ price * 100) ∧
    ∀ filters, options.attributeFilters = some filters → ∀ f ∈ filters.entries,
      s.hasAttribute tenantId variantId f.1 f.2

/-- The product is one of the tenant that satisfies the other conditions and has such a variant,
if there is any filter on variants. -/
def Wanted (id : Uuid) (p : ProductRow) : Prop :=
  p.tenantId = tenantId ∧
    (truthy options.search).all (fun search => contained texts (some p.name) search ∨
      contained texts p.description search ∨ contained texts p.brand search) ∧
    options.status.all (fun status => p.status = status) ∧
    (truthy options.categoryId).all (fun categoryId => s.productCategories.any fun l =>
      l.productId = id ∧ l.categoryId = categoryId ∧ l.tenantId = tenantId) ∧
    (hasVariantFilters options →
      ∃ v ∈ s.variants.entries, WantedVariant texts s tenantId options id v.1 v.2)

end Catalogue

/-- The product is on a page of the list. -/
def Lists (texts : Texts) (s : Catalogue) (tenantId : Uuid) (options : ListOptions) (id : Uuid) :
    Prop :=
  ∃ page : ℕ+, ∃ view ∈
    (ProductRepository.list texts s tenantId { options with page := some page }).data,
    view.id = id

/-- The list is exactly that of the wanted products. -/
def ListsWanted (texts : Texts) (s : Catalogue) (tenantId : Uuid) (options : ListOptions) :
    Prop :=
  ∀ id, Lists texts s tenantId options id ↔
    ∃ p, s.products.lookup id = some p ∧ s.Wanted texts tenantId options id p

/-- At most one attribute code is given. -/
def AtMostOneCode (options : ListOptions) : Prop :=
  ∀ filters, options.attributeFilters = some filters → filters.entries.length ≤ 1

/-! ### Attributes -/

open Catalogue

/-- The filter of one code. -/
theorem attributesMatch_iff {filters : Table String String} {f : Sigma fun _ : String => String}
    (hf : filters.entries = [f]) :
    s.attributesMatch tenantId variantId filters = true ↔
      s.hasAttribute tenantId variantId f.1 f.2 := by
  unfold Catalogue.attributesMatch hasAttribute
  rw [hf, List.any_eq_true]
  simp only [List.all_cons, List.all_nil, Bool.and_true, decide_eq_true_eq, Option.any_eq_true,
    Bool.decide_and, Bool.and_eq_true]

/-- No row has two codes. -/
theorem attributesMatch_eq_false {filters : Table String String}
    (hf : 1 < filters.entries.length) : s.attributesMatch tenantId variantId filters = false := by
  have hkeys := filters.nodupKeys
  cases hentries : filters.entries with
  | nil => simp [hentries] at hf
  | cons f rest =>
    cases rest with
    | nil => simp [hentries] at hf
    | cons g rest =>
      have hne : f.1 ≠ g.1 := by
        rw [hentries, List.nodupKeys_cons] at hkeys
        intro h
        exact hkeys.1 (by simp [h])
      unfold Catalogue.attributesMatch
      rw [List.any_eq_false, hentries]
      intro a _ hmatch
      -- the definition of the row would have both codes
      cases hd : s.attributeDefinitions.lookup a.attributeDefinitionId with
      | none => simp [hd] at hmatch
      | some d =>
        simp only [hd, List.all_cons, Option.any_some, decide_eq_true_eq, Bool.and_eq_true,
          Bool.decide_and] at hmatch
        obtain ⟨_, ⟨⟨hcode, _⟩, _⟩, ⟨⟨hcode', _⟩, _⟩, _⟩ := hmatch
        exact hne (hcode.symm.trans hcode')

/-! ### The list -/

/-- The pages show the products that satisfy the query. -/
theorem lists_iff (hlimit : ∀ limit, options.limit = some limit → limit ≤ 100) :
    Lists texts s tenantId options id ↔
      ∃ p, s.products.lookup id = some p ∧ s.productMatches texts tenantId options id p = true := by
  let found := s.products.entries.filter fun e => s.productMatches texts tenantId options e.1 e.2
  let sorted := found.mergeSort fun a b => orderBy texts options a.2 b.2
  let limit : ℕ := options.limit.getD 20
  -- the schema allows no larger limit, so the repository does not cut it
  have htake : min limit 100 = limit := by
    apply min_eq_left
    cases hgiven : options.limit with
    | none => simp [limit, hgiven]
    | some n =>
      have hle : (n : ℕ) ≤ 100 := (PNat.coe_le_coe n 100).mpr (hlimit n hgiven)
      simpa [limit, hgiven] using hle
  have hdata (page : ℕ+) : (ProductRepository.list texts s tenantId
      { options with page := some page }).data =
        (sorted.page limit (page - 1)).map fun e => s.productView e.1 e.2 := by
    change ((sorted.drop ((page - 1) * limit)).take (min limit 100)).map _ = _
    rw [htake]
    rfl
  -- some page shows the product if the sorted list has it
  have hpages : Lists texts s tenantId options id ↔ ∃ n, ∃ e ∈ sorted.page limit n, e.1 = id := by
    unfold Lists
    simp only [hdata, List.mem_map, exists_exists_and_eq_and]
    constructor
    · rintro ⟨page, e, he, hid⟩
      exact ⟨_, e, he, hid⟩
    · rintro ⟨n, e, he, hid⟩
      exact ⟨n.succPNat, e, he, hid⟩
  have hmem (e : Sigma fun _ : Uuid => ProductRow) :
      (∃ n, e ∈ sorted.page limit n) ↔ e ∈ found := by
    rw [List.exists_mem_page (options.limit.getD 20).pos, List.mem_mergeSort]
  rw [hpages]
  constructor
  · rintro ⟨n, e, he, rfl⟩
    obtain ⟨hentry, hmatch⟩ := List.mem_filter.mp ((hmem e).mp ⟨n, he⟩)
    exact ⟨e.2, AList.mem_entries_iff_lookup.mp hentry, hmatch⟩
  · rintro ⟨p, hp, hmatch⟩
    obtain ⟨n, hn⟩ := (hmem ⟨id, p⟩).mpr
      (List.mem_filter.mpr ⟨AList.mem_entries_iff_lookup.mpr hp, hmatch⟩)
    exact ⟨n, ⟨id, p⟩, hn, rfl⟩

/-- With one code at most, a variant that satisfies the query is a wanted one. -/
theorem variantMatches_iff (hone : AtMostOneCode options) {productId : Uuid} {v : VariantRow} :
    s.variantMatches texts tenantId options productId variantId v = true ↔
      s.WantedVariant texts tenantId options productId variantId v := by
  have hattributes : (attributeFilters options).all (s.attributesMatch tenantId variantId) =
      true ↔ ∀ filters, options.attributeFilters = some filters → ∀ f ∈ filters.entries,
        s.hasAttribute tenantId variantId f.1 f.2 := by
    unfold attributeFilters
    cases hfilters : options.attributeFilters with
    | none => simp
    | some filters =>
      have hle := hone filters hfilters
      match hentries : filters.entries with
      | [] => simp [Option.filter, hentries]
      | [f] => simp [Option.filter, hentries, attributesMatch_iff hentries]
      | _ :: _ :: _ => simp [hentries] at hle
  unfold variantMatches WantedVariant
  rw [← hattributes]
  simp only [decide_eq_true_eq, Bool.decide_and, Bool.and_eq_true]

theorem productMatches_iff (hone : AtMostOneCode options) {p : ProductRow} :
    s.productMatches texts tenantId options id p = true ↔
      s.Wanted texts tenantId options id p := by
  unfold productMatches Wanted
  simp only [List.any_eq_true, variantMatches_iff hone, decide_eq_true_eq]

/-- With two codes no product satisfies the query. -/
theorem productMatches_eq_false (htwo : ¬ AtMostOneCode options) (p : ProductRow) :
    s.productMatches texts tenantId options id p = false := by
  unfold AtMostOneCode at htwo
  push Not at htwo
  obtain ⟨filters, hfilters, hlength⟩ := htwo
  have hgiven : attributeFilters options = some filters := by
    have hne : filters.entries ≠ [] := by
      intro hnil
      simp [hnil] at hlength
    simp [attributeFilters, hfilters, Option.filter, hne]
  have hvariants : hasVariantFilters options = true := by
    simp [hasVariantFilters, hgiven]
  have hnone : (s.variants.entries.any fun v =>
      s.variantMatches texts tenantId options id v.1 v.2) = false := by
    rw [List.any_eq_false]
    intro v _ hmatch
    unfold variantMatches at hmatch
    simp [hgiven, attributesMatch_eq_false hlength] at hmatch
  unfold productMatches
  simp [hvariants, hnone]

/-- The list is the wanted one if one attribute code is given at most, or if the wanted list is
empty. -/
theorem attribute_filters_iff (texts : Texts) (s : Catalogue) (tenantId : Uuid)
    (options : ListOptions) (hlimit : ∀ limit, options.limit = some limit → limit ≤ 100) :
    ListsWanted texts s tenantId options ↔
      AtMostOneCode options ∨
        ∀ id p, s.products.lookup id = some p → ¬ s.Wanted texts tenantId options id p := by
  unfold ListsWanted
  simp only [lists_iff hlimit]
  by_cases hone : AtMostOneCode options
  · apply iff_of_true _ (Or.inl hone)
    intro id
    simp only [productMatches_iff hone]
  · have hfalse (id : Uuid) : ¬ ∃ p, s.products.lookup id = some p ∧
        s.productMatches texts tenantId options id p = true := by
      rintro ⟨p, _, hmatch⟩
      rw [productMatches_eq_false hone] at hmatch
      cases hmatch
    simp only [hfalse, hone, false_iff, false_or, not_exists, not_and]

/-! ### A shirt that is not found -/

/-- PostgreSQL in the C locale. -/
def plainTexts : Texts := ⟨fun _ _ => false, inferInstance⟩

def shirt : ProductRow where
  tenantId := "shop"
  name := "Shirt"
  createdAt := 0
  updatedAt := 0

def redMedium : VariantRow where
  tenantId := "shop"
  productId := "shirt"
  sku := "S-RM"
  price := 900
  status := .active
  createdAt := 0

def colour : AttributeDefinition where
  tenantId := "shop"
  name := "Colour"
  code := "colour"
  dataType := .text

def size : AttributeDefinition where
  tenantId := "shop"
  name := "Size"
  code := "size"
  dataType := .text

/-- A shirt with a variant that is red and of size M. -/
def shirts : Catalogue where
  products := AList.insert "shirt" shirt ∅
  variants := AList.insert "rm" redMedium ∅
  attributeDefinitions := AList.insert "d1" colour (AList.insert "d2" size ∅)
  variantAttributes := [⟨"a1", "shop", "rm", "d1", "red"⟩, ⟨"a2", "shop", "rm", "d2", "M"⟩]

/-- `?attribute[colour]=red&attribute[size]=M`. -/
def redAndMedium : ListOptions where
  attributeFilters := some (AList.insert "colour" "red" (AList.insert "size" "M" ∅))

theorem attribute_filters_iff_shirts :
    (∀ limit, redAndMedium.limit = some limit → limit ≤ 100) ∧
    (ListsWanted plainTexts shirts "shop" redAndMedium ↔
      AtMostOneCode redAndMedium ∨ ∀ id p, shirts.products.lookup id = some p →
        ¬ shirts.Wanted plainTexts "shop" redAndMedium id p) := by
  constructor
  · intro limit h
    cases h
  · apply attribute_filters_iff
    intro limit h
    cases h

theorem wanted_shirt : shirts.Wanted plainTexts "shop" redAndMedium "shirt" shirt := by
  refine ⟨rfl, rfl, rfl, rfl, fun _ => ⟨⟨"rm", redMedium⟩, by decide +kernel, rfl, rfl, rfl, rfl,
    rfl, rfl, ?_⟩⟩
  intro filters hfilters f hf
  obtain rfl := Option.some.inj hfilters
  have hcases : f = ⟨"colour", "red"⟩ ∨ f = ⟨"size", "M"⟩ := by simpa [AList.insert] using hf
  rcases hcases with rfl | rfl
  · exact ⟨⟨"a1", "shop", "rm", "d1", "red"⟩, by simp [shirts], rfl,
      ⟨colour, by decide +kernel, rfl, rfl⟩, rfl⟩
  · exact ⟨⟨"a2", "shop", "rm", "d2", "M"⟩, by simp [shirts], rfl,
      ⟨size, by decide +kernel, rfl, rfl⟩, rfl⟩

/-- The red shirt of size M is on no page of the list of red shirts of size M. -/
theorem shirt_not_listed :
    ¬ ∀ (texts : Texts) (s : Catalogue) (tenantId : Uuid) (options : ListOptions),
      (∀ limit, options.limit = some limit → limit ≤ 100) →
        ListsWanted texts s tenantId options := by
  intro h
  have hlimit : ∀ limit, redAndMedium.limit = some limit → limit ≤ 100 := by
    intro limit hgiven
    cases hgiven
  have hlisted := (h plainTexts shirts "shop" redAndMedium hlimit "shirt").mpr
    ⟨shirt, by decide +kernel, wanted_shirt⟩
  obtain ⟨p, hp, hmatch⟩ := (lists_iff hlimit).mp hlisted
  obtain rfl : p = shirt := by
    have hshirt : shirts.products.lookup "shirt" = some shirt := by decide +kernel
    exact Option.some.inj (hp.symm.trans hshirt)
  revert hmatch
  decide +kernel

end PulseOps.Products
