import Mathlib.Data.Set.Card
import PulseOps.Model.Catalog

/-!
# The two paths of the catalogue

The cards of `listProducts` come from one aggregating query, the page of a product from
`getProduct` reads objects with their relations. The group of a product in the query has the
variants that `getProduct` returns, so both show the same products, prices and availability.
Ties are broken by the identifier: the order leaves the database no choice, and pages that
were asked for one by one fit together.

## Main definitions

* `cards` — the cards on the first pages.

## Main results

* `sellable_group` — the rows that the query joins with a product.
* `orderBy_unique` — there is one way to sort the rows.
* `total_eq` — the number of matches, on every page.
* `listProducts_agrees` — the cards and `getProduct`.
-/

set_option autoImplicit false

namespace PulseOps.Catalog

variable {s : Db} {tenantId id : Uuid} {filters : Filters} {p : ProductRow} {r : Ranked}

/-! ### The group of a product -/

/-- The trigger keeps the stock of a variant in its tenant. -/
theorem stockInTenant_eq {e : Sigma fun _ : Uuid => VariantRow}
    (he : e ∈ s.variants.entries) : s.stockInTenant e.2.tenantId e.1 = s.stockOf e.1 := by
  have hlookup : s.variants.lookup e.1 = some e.2 := AList.mem_lookup_iff.mpr he
  have hfilter : (s.inventory.entries.filter fun i =>
      i.2.tenantId = e.2.tenantId ∧ i.2.productVariantId = e.1) =
      s.inventory.entries.filter fun i => i.2.productVariantId = e.1 := by
    apply List.filter_congr
    intro i hi
    by_cases hid : i.2.productVariantId = e.1
    · have htenant := s.inventory_sameTenant i hi e.2 (hid ▸ hlookup)
      simp [hid, htenant]
    · simp [hid]
  rw [Db.stockInTenant, Db.stockOf, hfilter]

/-- The rows that the query joins with a product are its sellable variants. -/
theorem sellable_group (s : Db) (tenantId id : Uuid) :
    (s.sellable tenantId).filter (·.productId = id) =
      (s.sellableVariants tenantId id).map fun e =>
        ⟨e.2.productId, e.2.price, s.stockOf e.1⟩ := by
  rw [Db.sellable, Db.sellableVariants, List.filter_filterMap, ← List.filterMap_eq_map,
    List.filterMap_filter]
  apply List.filterMap_congr
  intro e he
  rw [stockInTenant_eq he]
  by_cases hsellable : sellableVariant tenantId e.2 = true
  · have h := hsellable
    simp only [sellableVariant, decide_eq_true_eq] at h
    by_cases hid : e.2.productId = id <;> simp [h, hid, hsellable]
  · have h := hsellable
    simp only [sellableVariant, decide_eq_true_eq] at h
    simp [h, hsellable]

/-- A product that the unfiltered query lists. -/
structure Listed (s : Db) (tenantId id : Uuid) (p : ProductRow) : Prop where
  tenant : p.tenantId = tenantId
  status : p.status = .active
  kept : p.deleted = false
  sellable : s.sellableVariants tenantId id ≠ []

/-- What a group says of a product. -/
structure Summary (s : Db) (tenantId id : Uuid) (r : Ranked) : Prop where
  minPrice : ((s.sellableVariants tenantId id).map (·.2.price)).min? = some r.minPrice
  maxPrice : ((s.sellableVariants tenantId id).map (·.2.price)).max? = some r.maxPrice
  inStock : r.inStock = (s.sellableVariants tenantId id).any fun e => 0 < s.stockOf e.1

theorem rank_eq_some (h : s.rank tenantId filters id p = some r) :
    r.id = id ∧ Summary s tenantId id r := by
  unfold Db.rank at h
  split at h
  next =>
    dsimp only at h
    split at h
    next minPrice maxPrice hmin hmax =>
      split at h
      next =>
        cases h
        rw [sellable_group, List.map_map] at hmin hmax
        refine ⟨rfl, hmin, hmax, ?_⟩
        simp [sellable_group, List.any_map, Function.comp_def]
      next => cases h
    next => cases h
  next => cases h

theorem isSome_rank_iff : (s.rank tenantId {} id p).isSome ↔ Listed s tenantId id p := by
  simp only [Db.rank, and_true]
  constructor
  · intro h
    split_ifs at h with hlisted
    · refine ⟨hlisted.1, hlisted.2.1, hlisted.2.2, fun hnil => ?_⟩
      simp [sellable_group, hnil] at h
    · simp at h
  · intro h
    rw [if_pos ⟨h.tenant, h.status, h.kept⟩]
    have hprices : ((s.sellable tenantId).filter (·.productId = id)).map (·.price) ≠ [] := by
      simpa [sellable_group] using h.sellable
    obtain ⟨minPrice, hmin⟩ := Option.isSome_iff_exists.mp (List.isSome_min?_of_ne_nil hprices)
    obtain ⟨maxPrice, hmax⟩ := Option.isSome_iff_exists.mp (List.isSome_max?_of_ne_nil hprices)
    simp [hmin, hmax]

/-! ### `getProduct` -/

theorem getProduct_eq_ok {store : Store} {view : ProductView}
    (h : getProduct s store id = .ok view) : view.variants =
      ((s.sellableVariants store.id id).mergeSort fun a b => a.2.price ≤ b.2.price).map fun e =>
        { id := e.1, sku := e.2.sku, price := e.2.price, inStock := 0 < s.stockOf e.1 } := by
  simp only [getProduct] at h
  split at h
  next => cases h
  next =>
    split_ifs at h
    cases h
    rfl

theorem exists_getProduct_iff (store : Store) : (∃ view, getProduct s store id = .ok view) ↔
    ∃ p, s.products.lookup id = some p ∧ Listed s store.id id p := by
  simp only [getProduct]
  cases hlookup : s.products.lookup id with
  | none => simp
  | some p =>
    simp only [Option.some.injEq, exists_eq_left']
    split_ifs with hlisted
    · exact ⟨fun _ => ⟨hlisted.1, hlisted.2.1, hlisted.2.2.1, hlisted.2.2.2⟩, fun _ => ⟨_, rfl⟩⟩
    · constructor
      · rintro ⟨view, hview⟩
        cases hview
      · intro h
        exact absurd ⟨h.tenant, h.status, h.kept, h.sellable⟩ hlisted

/-- The prices and the availability of a card are those of the product's page. -/
theorem Summary.agrees {store : Store} {view : ProductView} (h : Summary s store.id id r)
    (hview : getProduct s store id = .ok view) :
    IsLeast {x | x ∈ view.variants.map (·.price)} r.minPrice ∧
      IsGreatest {x | x ∈ view.variants.map (·.price)} r.maxPrice ∧
      (r.inStock = true ↔ ∃ v ∈ view.variants, v.inStock = true) := by
  have hvariants := getProduct_eq_ok hview
  have hprices (x : Cents) : x ∈ view.variants.map (·.price) ↔
      x ∈ (s.sellableVariants store.id id).map (·.2.price) := by
    simp [hvariants, List.mem_mergeSort]
  obtain ⟨hmin, hminLe⟩ := List.min?_eq_some_iff.mp h.minPrice
  obtain ⟨hmax, hleMax⟩ := List.max?_eq_some_iff.mp h.maxPrice
  refine ⟨⟨(hprices _).mpr hmin, fun x hx => hminLe x ((hprices x).mp hx)⟩,
    ⟨(hprices _).mpr hmax, fun x hx => hleMax x ((hprices x).mp hx)⟩, ?_⟩
  rw [h.inStock, hvariants]
  simp [List.mem_mergeSort]

/-! ### The rows of the query -/

theorem mem_ranked : r ∈ s.ranked tenantId filters ↔
    ∃ p, s.products.lookup r.id = some p ∧ s.rank tenantId filters r.id p = some r := by
  simp only [Db.ranked, List.mem_filterMap]
  constructor
  · rintro ⟨e, he, hrank⟩
    have hid := (rank_eq_some hrank).1
    exact ⟨e.2, hid ▸ AList.mem_lookup_iff.mpr he, hid ▸ hrank⟩
  · rintro ⟨p, hlookup, hrank⟩
    exact ⟨⟨r.id, p⟩, AList.mem_lookup_iff.mp hlookup, hrank⟩

/-- Every product has one group. -/
theorem nodup_ranked (s : Db) (tenantId : Uuid) (filters : Filters) :
    ((s.ranked tenantId filters).map (·.id)).Nodup := by
  have hsublist (l : List (Sigma fun _ : Uuid => ProductRow)) :
      ((l.filterMap fun e => s.rank tenantId filters e.1 e.2).map (·.id)).Sublist l.keys := by
    induction l with
    | nil => exact .slnil
    | cons e l ih =>
      rw [List.keys_cons]
      cases hrank : s.rank tenantId filters e.1 e.2 with
      | none => simpa [List.filterMap_cons, hrank] using ih.cons e.1
      | some r => simpa [List.filterMap_cons, hrank, (rank_eq_some hrank).1] using ih
  exact (hsublist s.products.entries).nodup s.products.nodupKeys

/-- Rows with one identifier are one row. -/
theorem eq_of_mem_ranked {r r' : Ranked} (h : r ∈ s.ranked tenantId filters)
    (h' : r' ∈ s.ranked tenantId filters) (hid : r.id = r'.id) : r = r' := by
  obtain ⟨p, hp, hr⟩ := mem_ranked.mp h
  obtain ⟨p', hp', hr'⟩ := mem_ranked.mp h'
  rw [hid] at hp hr
  obtain rfl := Option.some.inj (hp.symm.trans hp')
  exact Option.some.inj (hr.symm.trans hr')

/-! ### Sorting -/

section Order

variable {β : Type} (order : LinearOrder β) (collation : LinearOrder Uuid) (key : Ranked → β)

theorem orderedBy_total (a b : Ranked) :
    (orderedBy order collation key a b || orderedBy order collation key b a) = true := by
  simp only [orderedBy, Bool.or_eq_true, decide_eq_true_eq]
  rcases lt_trichotomy (key a) (key b) with hlt | heq | hgt
  · exact .inl (.inl hlt)
  · rcases collation.le_total a.id b.id with hle | hle
    · exact .inl (.inr ⟨heq, hle⟩)
    · exact .inr (.inr ⟨heq.symm, hle⟩)
  · exact .inr (.inl hgt)

theorem orderedBy_trans (a b c : Ranked) (hab : orderedBy order collation key a b = true)
    (hbc : orderedBy order collation key b c = true) :
    orderedBy order collation key a c = true := by
  simp only [orderedBy, decide_eq_true_eq] at *
  rcases hab with hab | ⟨hab, hab'⟩
  · rcases hbc with hbc | ⟨hbc, -⟩
    · exact .inl (lt_trans hab hbc)
    · exact .inl (hbc ▸ hab)
  · rcases hbc with hbc | ⟨hbc, hbc'⟩
    · exact .inl (hab ▸ hbc)
    · exact .inr ⟨hab.trans hbc, collation.le_trans _ _ _ hab' hbc'⟩

theorem orderedBy_id (a b : Ranked) (hab : orderedBy order collation key a b = true)
    (hba : orderedBy order collation key b a = true) : a.id = b.id := by
  simp only [orderedBy, decide_eq_true_eq] at hab hba
  rcases hab with hab | ⟨hab, hab'⟩
  · rcases hba with hba | ⟨hba, -⟩
    · exact absurd (hab.trans hba) (lt_irrefl _)
    · exact absurd hab (hba ▸ lt_irrefl _)
  · rcases hba with hba | ⟨-, hba'⟩
    · exact absurd hba (hab ▸ lt_irrefl _)
    · exact collation.le_antisymm _ _ hab' hba'

end Order

variable (collation : LinearOrder String)

theorem pairwise_mergeSort_orderBy (sort : SortBy) (rows : List Ranked) :
    (rows.mergeSort (orderBy collation sort)).Pairwise (orderBy collation sort · ·) := by
  apply List.pairwise_mergeSort
  · cases sort <;> exact orderedBy_trans _ _ _
  · cases sort <;> exact orderedBy_total _ _ _

/-- **There is one way to sort the rows**, so that queries for different pages cut one list. -/
theorem orderBy_unique (sort : SortBy) {rows : List Ranked}
    (hperm : rows.Perm (s.ranked tenantId filters))
    (hsorted : rows.Pairwise (orderBy collation sort · ·)) :
    rows = (s.ranked tenantId filters).mergeSort (orderBy collation sort) := by
  apply List.Perm.eq_of_pairwise _ hsorted (pairwise_mergeSort_orderBy collation sort _)
  · exact hperm.trans (List.mergeSort_perm _ _).symm
  · intro a b ha hb hab hba
    have hid : a.id = b.id := by
      cases sort with
      | newest => exact orderedBy_id inferInstance collation (fun a => -a.createdAt) a b hab hba
      | priceAsc => exact orderedBy_id inferInstance collation (fun a => a.minPrice) a b hab hba
      | priceDesc => exact orderedBy_id inferInstance collation (fun a => -a.maxPrice) a b hab hba
      | name => exact orderedBy_id collation collation (fun a => a.name) a b hab hba
    exact eq_of_mem_ranked (hperm.mem_iff.mp ha) (List.mem_mergeSort.mp hb) hid

/-! ### Pages -/

variable (s) (store : Store) (sort : SortBy) (limit : ℕ+)

/-- The cards on the first `n` pages. -/
def cards (n : ℕ) : List ProductCard :=
  (List.range n).flatMap fun k => (listProducts s collation store {} sort k.succPNat limit).data

theorem cards_eq (n : ℕ) : cards s collation store sort limit n =
    ((((s.ranked store.id {}).mergeSort (orderBy collation sort)).take (n * limit)).map
      (productCard store)) := by
  rw [← List.flatMap_page, List.map_flatMap]
  simp [cards, listProducts, queryPage, Function.comp_def]

/-- The window count of a page that is not empty. -/
theorem windowTotal_queryPage {filters : Filters} {page : ℕ+}
    (h : queryPage s collation tenantId filters sort page limit ≠ []) :
    windowTotal (queryPage s collation tenantId filters sort page limit) =
      (s.ranked tenantId filters).length := by
  obtain ⟨row, rows, hrows⟩ := List.exists_cons_of_ne_nil h
  have hmem : row ∈ queryPage s collation tenantId filters sort page limit := by
    simp [hrows]
  simp only [queryPage, List.mem_map] at hmem
  obtain ⟨r, -, rfl⟩ := hmem
  simp [windowTotal, hrows]

/-- The first page is empty only if nothing matches. -/
theorem queryPage_one_eq_nil {filters : Filters} :
    queryPage s collation tenantId filters sort 1 limit = [] ↔
      s.ranked tenantId filters = [] := by
  have hfirst : (1 : ℕ+).natPred = 0 := rfl
  rw [queryPage, List.map_eq_nil_iff, hfirst, List.page_zero_eq_nil limit.pos,
    ← List.length_eq_zero_iff, List.length_mergeSort, List.length_eq_zero_iff]

/-- The number of matches, on every page and past the last one. -/
theorem total_eq (filters : Filters) (page : ℕ+) :
    (listProducts s collation store filters sort page limit).pageMeta.total =
      (s.ranked store.id filters).length := by
  have hone (limit : ℕ+) : windowTotal (queryPage s collation store.id filters sort 1 limit) =
      (s.ranked store.id filters).length := by
    by_cases hnil : queryPage s collation store.id filters sort 1 limit = []
    · rw [hnil, (queryPage_one_eq_nil s collation sort limit).mp hnil]
      rfl
    · exact windowTotal_queryPage s collation sort limit hnil
  simp only [listProducts]
  split_ifs with hpast
  · exact hone 1
  · by_cases hnil : queryPage s collation store.id filters sort page limit = []
    · have hpage : page = 1 := by
        simp only [hnil, List.isEmpty_nil, true_and, not_lt] at hpast
        exact le_antisymm hpast one_le
      exact hpage ▸ hone limit
    · exact windowTotal_queryPage s collation sort limit hnil

theorem mem_ranked_id : id ∈ (s.ranked store.id {}).map (·.id) ↔
    ∃ view, getProduct s store id = .ok view := by
  rw [exists_getProduct_iff, List.mem_map]
  constructor
  · rintro ⟨r, hr, rfl⟩
    obtain ⟨p, hp, hrank⟩ := mem_ranked.mp hr
    exact ⟨p, hp, isSome_rank_iff.mp (by simp [hrank])⟩
  · rintro ⟨p, hp, hlisted⟩
    obtain ⟨r, hrank⟩ := Option.isSome_iff_exists.mp (isSome_rank_iff.mpr hlisted)
    have hid := (rank_eq_some hrank).1
    exact ⟨r, mem_ranked.mpr ⟨p, hid ▸ hp, hid ▸ hrank⟩, hid⟩

/-- **The two paths agree.** In every state of the catalogue, for every order and page size,
the pages without filters show each product once that `getProduct` finds, and no other; with
the least and the greatest price of the variants that `getProduct` returns, and in stock if
one of these is. On every page, also past the last one, the total is their number. -/
theorem listProducts_agrees :
    (∀ n, ((cards s collation store sort limit n).map (·.id)).Nodup) ∧
    (∀ productId, (∃ n, productId ∈ (cards s collation store sort limit n).map (·.id)) ↔
      ∃ view, getProduct s store productId = .ok view) ∧
    (∀ n, ∀ card ∈ cards s collation store sort limit n, ∀ view,
      getProduct s store card.id = .ok view →
        IsLeast {x | x ∈ view.variants.map (·.price)} card.priceFrom ∧
        IsGreatest {x | x ∈ view.variants.map (·.price)} card.priceTo ∧
        (card.inStock = true ↔ ∃ v ∈ view.variants, v.inStock = true)) ∧
    ∀ page, (listProducts s collation store {} sort page limit).pageMeta.total =
      {productId | ∃ view, getProduct s store productId = .ok view}.ncard := by
  -- the first `n` pages are a beginning of one sorted list
  have hids (n : ℕ) : (cards s collation store sort limit n).map (·.id) =
      (((s.ranked store.id {}).mergeSort (orderBy collation sort)).map (·.id)).take
        (n * limit) := by
    rw [cards_eq, List.map_map, List.map_take]
    rfl
  have hperm : (((s.ranked store.id {}).mergeSort (orderBy collation sort)).map (·.id)).Perm
      ((s.ranked store.id {}).map (·.id)) := (List.mergeSort_perm _ _).map _
  refine ⟨fun n => ?_, fun productId => ?_, fun n card hcard view hview => ?_, fun page => ?_⟩
  · rw [hids]
    exact (hperm.nodup_iff.mpr (nodup_ranked s store.id {})).sublist (List.take_sublist _ _)
  · rw [← mem_ranked_id, ← hperm.mem_iff, ← List.mem_flatMap_page limit.pos]
    simp only [hids, List.flatMap_page]
  · rw [cards_eq, List.mem_map] at hcard
    obtain ⟨r, hr, rfl⟩ := hcard
    obtain ⟨p, -, hrank⟩ := mem_ranked.mp (List.mem_mergeSort.mp (List.mem_of_mem_take hr))
    exact (rank_eq_some hrank).2.agrees hview
  · have hset : {productId | ∃ view, getProduct s store productId = .ok view} =
        ↑((s.ranked store.id {}).map (·.id)).toFinset := by
      ext productId
      simp only [Set.mem_ofPred_eq, List.coe_toFinset]
      exact (mem_ranked_id s store).symm
    rw [total_eq, hset, Set.ncard_coe_finset,
      List.toFinset_card_of_nodup (nodup_ranked s store.id {}), List.length_map]

namespace Sample

def variant (tenantId productId sku : String) (price : Cents) : VariantRow :=
  { tenantId, productId, sku, price, status := .active }

def product (tenantId name : String) : ProductRow :=
  { tenantId, name, status := .active, createdAt := 0 }

/-- Mugs at two prices, the dearer ones in two warehouses; shirts that are sold out, a poster
without variants, and the pens of another shop. -/
def stocked : Db where
  products := ((((∅ : Table Uuid ProductRow).insert "mug" (product "shop" "Mug")).insert
    "shirt" (product "shop" "Shirt")).insert "poster" (product "shop" "Poster")).insert
    "pen" (product "other" "Pen")
  variants := ((((∅ : Table Uuid VariantRow).insert "m2" (variant "shop" "mug" "M2" 1500)).insert
    "m1" (variant "shop" "mug" "M1" 1200)).insert "s1" (variant "shop" "shirt" "S1" 90000)).insert
    "p1" (variant "other" "pen" "P1" 300)
  inventory := (((∅ : Table Uuid InventoryRow).insert "i1" ⟨"shop", "m2", "north", 3⟩).insert
    "i2" ⟨"shop", "m2", "south", 2⟩).insert "i3" ⟨"other", "p1", "west", 9⟩
  inventory_sameTenant := by decide +kernel

def shop : Store := ⟨"shop", "INR"⟩

def mug : ProductView where
  id := "mug"
  name := "Mug"
  brand := none
  description := none
  currency := "INR"
  variants := [⟨"m1", "M1", 1200, false⟩, ⟨"m2", "M2", 1500, true⟩]

theorem getProduct_mug : getProduct stocked shop "mug" = .ok mug := by
  have hvariants : stocked.sellableVariants shop.id "mug" =
      [⟨"m1", variant "shop" "mug" "M1" 1200⟩, ⟨"m2", variant "shop" "mug" "M2" 1500⟩] := by
    decide +kernel
  have hlookup : stocked.products.lookup "mug" = some (product "shop" "Mug") := by decide +kernel
  have hstock : stocked.stockOf "m1" = 0 ∧ stocked.stockOf "m2" = 5 := by decide +kernel
  simp only [getProduct, hlookup, hvariants]
  rw [List.mergeSort_of_pairwise (by decide)]
  simp [product, variant, shop, mug, hstock]

end Sample

open Catalog.Sample in
/-- On pages of one card, the mugs are listed with their least price and in stock; the poster is
not listed. -/
theorem listProducts_agrees_stocked :
    (∃ n, "mug" ∈ (cards stocked inferInstance shop .priceAsc 1 n).map (·.id)) ∧
      (¬ ∃ n, "poster" ∈ (cards stocked inferInstance shop .priceAsc 1 n).map (·.id)) ∧
      ∀ n, ∀ card ∈ cards stocked inferInstance shop .priceAsc 1 n, card.id = "mug" →
        card.priceFrom = 1200 ∧ card.inStock = true := by
  obtain ⟨-, hlisted, hcards, -⟩ :=
    listProducts_agrees stocked (inferInstance : LinearOrder String) shop .priceAsc 1
  refine ⟨(hlisted "mug").mpr ⟨mug, getProduct_mug⟩, fun h => ?_, fun n card hcard hid => ?_⟩
  · obtain ⟨view, hview⟩ := (hlisted "poster").mp h
    have hnone : (getProduct stocked shop "poster").isOk = false := by decide +kernel
    rw [hview] at hnone
    cases hnone
  · obtain ⟨hleast, -, hstock⟩ := hcards n card hcard mug (by rw [hid, getProduct_mug])
    have hprice : IsLeast {x | x ∈ mug.variants.map (·.price)} 1200 := by
      refine ⟨by simp [mug], fun x hx => ?_⟩
      simp only [mug, List.map_cons, List.map_nil, Set.mem_ofPred_eq, List.mem_cons,
        List.not_mem_nil, or_false] at hx
      rcases hx with rfl | rfl
      · exact le_rfl
      · decide
    exact ⟨hleast.unique hprice, hstock.mpr ⟨⟨"m2", "M2", 1500, true⟩, by simp [mug], rfl⟩⟩

end PulseOps.Catalog
