import PulseOps.Model.ProductImages
import PulseOps.ReadCommitted.Designation
import PulseOps.ReadCommitted.Takeover

/-!
# Primary images

Whoever makes an image primary first clears the others of its product or variant. The two are
separate statements, `updateImage` makes its image primary a second time after `setPrimary`
has committed, and no index stands behind them. As long as no image is made primary while
another request has cleared the others and has yet to make its own image primary, a product
has at most one primary image without a variant, and a variant at most one.

## Main definitions

* `primaryImages` — the images by what they belong to, and which are primary.
* `takeover` — what the requests clear and make primary.
* `FreshIds` — new images get ids of their own.

## Main results

* `turn_advance` — everything one turn can do.
* `lawful` — requests clear what they find before they make an image primary.
* `one_primary_undisturbed` — at most one primary image in all runs under the condition.
-/

set_option autoImplicit false

open ReadCommitted

namespace PulseOps.ProductImages

open Autocommit Products

variable {c c' : Catalogue} {w w' : ImageSet} {k : Uuid} {req : ImageRequest}
  {phase phase' : Progress} {requests : List ImageRequest} {s : Store}
  {x x₀ : Interleaved Store Progress} {new : NewImage}

/-! ### What images belong to -/

/-- What an image belongs to. -/
inductive Owner where
  | product (id : Uuid)
  | variant (id : Uuid)
  deriving DecidableEq, Repr

def ImageSet.owner (w : ImageSet) : Owner :=
  match w.variantId with
  | none => .product w.productId
  | some v => .variant v

/-- The primary images of a product without a variant, and those of a variant. -/
def primaryImages : Designation ImageRow Owner := ⟨fun row => (imageSet row).owner, (·.isPrimary)⟩

/-- The same by the fields that `updateMany` asks for. -/
def primariesBySet : Designation ImageRow ImageSet := ⟨imageSet, (·.isPrimary)⟩

/-- The product exists and is one of the tenant, and so is its variant. -/
structure ImageSet.Stands (w : ImageSet) (c : Catalogue) : Prop where
  product : ∃ row, c.products.lookup w.productId = some row ∧ row.tenantId = w.tenantId
  variant : ∀ v, w.variantId = some v →
    ∃ row, c.variants.lookup v = some row ∧ row.productId = w.productId ∧ row.tenantId = w.tenantId

/-- The images are of products and variants that belong together. -/
def ImagesStand (c : Catalogue) : Prop :=
  ∀ k row, c.images.lookup k = some row → (imageSet row).Stands c

theorem ImageSet.Stands.congr (h : w.Stands c) (hproducts : c'.products = c.products)
    (hvariants : c'.variants = c.variants) : w.Stands c' where
  product := hproducts ▸ h.product
  variant := hvariants ▸ h.variant

/-- A product has one tenant, and a variant one product. -/
theorem ImageSet.Stands.eq_of_owner (h : w.Stands c) (h' : w'.Stands c)
    (howner : w.owner = w'.owner) : w = w' := by
  obtain ⟨productId, tenantId, variantId⟩ := w
  obtain ⟨productId', tenantId', variantId'⟩ := w'
  cases variantId with
  | none =>
    cases variantId' with
    | none =>
      obtain rfl := Owner.product.inj howner
      obtain ⟨row, hrow, rfl⟩ := h.product
      obtain ⟨row', hrow', rfl⟩ := h'.product
      obtain rfl := Option.some.inj (hrow.symm.trans hrow')
      rfl
    | some v' => cases howner
  | some v =>
    cases variantId' with
    | none => cases howner
    | some v' =>
      obtain rfl := Owner.variant.inj howner
      obtain ⟨row, hrow, rfl, rfl⟩ := h.variant v rfl
      obtain ⟨row', hrow', rfl, rfl⟩ := h'.variant v rfl
      obtain rfl := Option.some.inj (hrow.symm.trans hrow')
      rfl

/-- The two ways to say that there is at most one primary image agree. -/
theorem ImagesStand.atMostOne (h : ImagesStand c)
    (hone : ∀ w, primariesBySet.AtMostOne c.images w) (o : Owner) :
    primaryImages.AtMostOne c.images o := by
  rintro k k' ⟨row, hrow, rfl, hflag⟩ ⟨row', hrow', howner, hflag'⟩
  have heq : imageSet row' = imageSet row := (h k' row' hrow').eq_of_owner (h k row hrow) howner
  exact hone (imageSet row) k k' ⟨row, hrow, rfl, hflag⟩ ⟨row', hrow', heq, hflag'⟩

theorem atMostOne_bySet (hone : ∀ o, primaryImages.AtMostOne c.images o) (w : ImageSet) :
    primariesBySet.AtMostOne c.images w := by
  rintro k k' ⟨row, hrow, rfl, hflag⟩ ⟨row', hrow', hset, hflag'⟩
  have howner : (imageSet row').owner = (imageSet row).owner := congrArg ImageSet.owner hset
  exact hone (imageSet row).owner k k' ⟨row, hrow, rfl, hflag⟩ ⟨row', hrow', howner, hflag'⟩

/-! ### The statements -/

theorem ImageSet.selects_iff {row : ImageRow} :
    w.selects row = true ↔ imageSet row = w ∧ row.isPrimary = true := by
  simp [ImageSet.selects]

/-- `updateMany` finds the primary images. -/
theorem ImageSet.mem_primaries : k ∈ w.primaries c ↔ primariesBySet.Holder c.images w k := by
  unfold ImageSet.primaries
  constructor
  · intro hk
    obtain ⟨e, he, rfl⟩ := List.mem_map.mp hk
    obtain ⟨hmem, hselects⟩ := List.mem_filter.mp he
    obtain ⟨hset, hflag⟩ := selects_iff.mp hselects
    exact ⟨e.2, AList.mem_entries_iff_lookup.mp hmem, hset, hflag⟩
  · rintro ⟨row, hrow, hset, hflag⟩
    have hmem : (⟨k, row⟩ : Sigma fun _ : Uuid => ImageRow) ∈ c.images.entries :=
      AList.mem_entries_iff_lookup.mpr hrow
    exact List.mem_map.mpr
      ⟨⟨k, row⟩, List.mem_filter.mpr ⟨hmem, selects_iff.mpr ⟨hset, hflag⟩⟩, rfl⟩

theorem ImageSet.mem_recheck {keys : List Uuid} :
    k ∈ w.recheck keys c ↔ k ∈ keys ∧ primariesBySet.Holder c.images w k := by
  unfold ImageSet.recheck
  rw [List.mem_filter]
  refine and_congr_right fun _ => ?_
  rw [Option.any_eq_true]
  constructor
  · rintro ⟨row, hrow, hselects⟩
    exact ⟨row, hrow, selects_iff.mp hselects⟩
  · rintro ⟨row, hrow, hselects⟩
    exact ⟨row, hrow, selects_iff.mpr hselects⟩

theorem lookup_clear {keys : List Uuid} {row' : ImageRow}
    (h : (clear keys c).images.lookup k = some row') :
    ∃ row, c.images.lookup k = some row ∧ imageSet row' = imageSet row ∧
      (row'.isPrimary = true → row.isPrimary = true ∧ k ∉ keys) := by
  rw [clear, AList.lookup_mapRows] at h
  obtain ⟨row, hrow, rfl⟩ := Option.map_eq_some_iff.mp h
  refine ⟨row, hrow, ?_, ?_⟩
  · split_ifs <;> rfl
  · split_ifs with hk
    · intro hflag
      cases hflag
    · exact fun hflag => ⟨hflag, hk⟩

theorem lookup_publish {keys : List Uuid} {id : Uuid} {row' : ImageRow}
    (h : (publish keys id c).images.lookup k = some row') :
    ∃ row, c.images.lookup k = some row ∧ imageSet row' = imageSet row ∧
      (row'.isPrimary = true → k = id ∨ row.isPrimary = true ∧ k ∉ keys) := by
  rw [publish, AList.lookup_mapRows] at h
  obtain ⟨cleared, hcleared, rfl⟩ := Option.map_eq_some_iff.mp h
  obtain ⟨row, hrow, hset, hflag⟩ := lookup_clear hcleared
  refine ⟨row, hrow, ?_, ?_⟩
  · split_ifs <;> exact hset
  · split_ifs with hk
    · exact fun _ => .inl hk
    · exact fun h => .inr (hflag h)

theorem create_eq_ok {file : String × String}
    (h : ProductImageRepository.create new.id new.tenantId new.productId new.variantId
      file.1 file.2 new.data c = .ok c') :
    c.images.lookup new.id = none ∧ ∃ row, imageSet row = new.set ∧
      row.isPrimary = new.data.isPrimary.getD false ∧
      c' = { c with images := c.images.insert new.id row } := by
  unfold ProductImageRepository.create at h
  cases hproduct : checkOwner ((c.products.lookup new.productId).map (·.tenantId)) new.tenantId with
  | error e => simp [hproduct, bind, Except.bind] at h
  | ok u =>
    cases hvariant : ProductImageRepository.checkVariant new.tenantId new.variantId c with
    | error e => simp [hproduct, hvariant, bind, Except.bind] at h
    | ok u =>
      simp only [hproduct, hvariant, bind, Except.bind] at h
      split_ifs at h with hid
      refine ⟨Option.not_isSome_iff_eq_none.mp hid, _, ?_, ?_, (Except.ok.inj h).symm⟩ <;> rfl

theorem update_eq_ok {id : Uuid} {data : ImageData}
    (h : ProductImageRepository.update id data c = .ok c') :
    ∃ row row', c.images.lookup id = some row ∧ imageSet row' = imageSet row ∧
      row'.isPrimary = data.isPrimary.getD row.isPrimary ∧
      c' = { c with images := c.images.insert id row' } := by
  unfold ProductImageRepository.update ProductImageRepository.updateRow at h
  cases hrow : c.images.lookup id with
  | none => simp [hrow] at h
  | some row =>
    rw [hrow] at h
    refine ⟨row, _, rfl, ?_, ?_, (Except.ok.inj h).symm⟩ <;> rfl

theorem delete_eq_ok {id : Uuid} (h : ProductImageRepository.delete id c = .ok c') :
    c' = { c with images := c.images.keep fun k _ => k ≠ id } := by
  unfold ProductImageRepository.delete at h
  split_ifs at h
  exact (Except.ok.inj h).symm

theorem getImage_eq_ok {id tenantId : Uuid} {productId : Option Uuid} {image : ImageRow}
    (h : getImage c id tenantId productId = .ok image) :
    c.images.lookup id = some image ∧ image.tenantId = tenantId := by
  unfold getImage at h
  split at h
  next => cases h
  next found hfound =>
    split_ifs at h
    obtain rfl := Except.ok.inj h
    obtain ⟨hrow, htenant⟩ := Option.filter_eq_some_iff.mp hfound
    exact ⟨hrow, of_decide_eq_true htenant⟩

theorem findProduct_eq_some {id tenantId : Uuid} {product : ProductRow}
    (h : c.findProduct id tenantId = some product) :
    ∃ row, c.products.lookup id = some row ∧ row.tenantId = tenantId := by
  obtain ⟨hrow, htenant⟩ := Option.filter_eq_some_iff.mp h
  exact ⟨product, hrow, of_decide_eq_true htenant⟩

/-! ### Turns -/

/-- What a request knows about the rows that it has found. -/
def Knows (c : Catalogue) : ImageRequest → Progress → Prop
  | .add new, .productFound =>
    ∃ row, c.products.lookup new.productId = some row ∧ row.tenantId = new.tenantId
  | .add new, .stored _ | .add new, .clearing _ _ | .add new, .cleared _ => new.set.Stands c
  | .updateImage id tenantId _ _ _, .found image | .updateImage id tenantId _ _ _, .opened image _
  | .updateImage id tenantId _ _ _, .emptied image _
  | .updateImage id tenantId _ _ _, .marked image _
  | .updateImage id tenantId _ _ _, .primary image =>
    image.tenantId = tenantId ∧
      ∀ row, c.images.lookup id = some row → imageSet row = imageSet image
  | _, _ => True

/-- Everything a turn can do to the catalogue. -/
inductive Turn (c : Catalogue) : ImageRequest → Progress → Catalogue → Progress → Prop
  | waits {req : ImageRequest} {phase : Progress} : Turn c req phase c phase
  | fails {req : ImageRequest} {phase : Progress} {e : Failure} : Turn c req phase c (.failed e)
  | finds_product {new : NewImage}
      (hproduct : ∃ row, c.products.lookup new.productId = some row ∧
        row.tenantId = new.tenantId) : Turn c (.add new) .started c .productFound
  | stores {new : NewImage} {phase : Progress} {file : String × String}
      (hphase : phase = .started ∨ phase = .productFound) (hstands : new.set.Stands c) :
      Turn c (.add new) phase c (.stored file)
  | finds {new : NewImage} {file : String × String} :
      Turn c (.add new) (.stored file) c (.clearing file (new.set.primaries c))
  | clears {new : NewImage} {file : String × String} {keys : List Uuid} :
      Turn c (.add new) (.clearing file keys) (clear (new.set.recheck keys c) c) (.cleared file)
  | inserts {new : NewImage} {phase : Progress} {file : String × String} {c' : Catalogue}
      (hphase : (phase = .stored file ∧ new.data.isPrimary ≠ some true) ∨ phase = .cleared file)
      (hcreate : ProductImageRepository.create new.id new.tenantId new.productId new.variantId
        file.1 file.2 new.data c = .ok c') : Turn c (.add new) phase c' .done
  | gets {id tenantId : Uuid} {data : ImageData} {productId : Option Uuid}
      {aborted : Option Failure} {image : ImageRow} (hlookup : c.images.lookup id = some image)
      (htenant : image.tenantId = tenantId) :
      Turn c (.updateImage id tenantId data productId aborted) .started c (.found image)
  | opens {id tenantId : Uuid} {data : ImageData} {productId : Option Uuid}
      {aborted : Option Failure} {image : ImageRow} :
      Turn c (.updateImage id tenantId data productId aborted) (.found image) c
        (.opened image (ImageSet.primaries ⟨image.productId, tenantId, image.variantId⟩ c))
  | empties {id tenantId : Uuid} {data : ImageData} {productId : Option Uuid}
      {aborted : Option Failure} {image : ImageRow} {keys : List Uuid} :
      Turn c (.updateImage id tenantId data productId aborted) (.opened image keys) c
        (.emptied image (ImageSet.recheck ⟨image.productId, tenantId, image.variantId⟩ keys c))
  | marks {id tenantId : Uuid} {data : ImageData} {productId : Option Uuid}
      {aborted : Option Failure} {image : ImageRow} {keys : List Uuid} :
      Turn c (.updateImage id tenantId data productId aborted) (.emptied image keys) c
        (.marked image keys)
  | commits {id tenantId : Uuid} {data : ImageData} {productId : Option Uuid}
      {aborted : Option Failure} {image : ImageRow} {keys : List Uuid} :
      Turn c (.updateImage id tenantId data productId aborted) (.marked image keys)
        (publish keys id c) (.primary image)
  | updates {id tenantId : Uuid} {data : ImageData} {productId : Option Uuid}
      {aborted : Option Failure} {phase : Progress} {image : ImageRow} {c' : Catalogue}
      (hphase : (phase = .found image ∧ data.isPrimary ≠ some true) ∨ phase = .primary image)
      (hupdate : ProductImageRepository.update id data c = .ok c') :
      Turn c (.updateImage id tenantId data productId aborted) phase c' .done
  | gets_to_delete {id tenantId : Uuid} {productId : Option Uuid}
      {fileDeleted : Except Failure Unit} {image : ImageRow} :
      Turn c (.deleteImage id tenantId productId fileDeleted) .started c (.found image)
  | deletes {id tenantId : Uuid} {productId : Option Uuid} {fileDeleted : Except Failure Unit}
      {image : ImageRow} {c' : Catalogue} (hdelete : ProductImageRepository.delete id c = .ok c') :
      Turn c (.deleteImage id tenantId productId fileDeleted) (.found image) c' .done

/-- The turn that a request takes. -/
abbrev Takes (req : ImageRequest) (s : Store) (phase : Progress) : Prop :=
  Turn s.catalogue req phase (advance req s phase).1.catalogue (advance req s phase).2

theorem NewImage.turn_store (hphase : phase = .started ∨ phase = .productFound)
    (hstands : new.set.Stands c) : Turn c (.add new) phase c new.store := by
  unfold NewImage.store
  split
  next file hfile => exact .stores hphase hstands
  next e he => exact .fails

theorem NewImage.turn_insert {file : String × String}
    (hphase : (phase = .stored file ∧ new.data.isPrimary ≠ some true) ∨ phase = .cleared file) :
    Turn s.catalogue (.add new) phase (new.insert file s).1.catalogue (new.insert file s).2 := by
  unfold NewImage.insert Store.finish
  split
  next c' hcreate => exact .inserts hphase hcreate
  next e he => exact .fails

theorem turn_add (hknows : Knows s.catalogue (.add new) phase) :
    Takes (.add new) s phase := by
  unfold Takes advance NewImage.advance
  cases phase with
  | started =>
    dsimp only
    split
    next => exact .fails
    next product hproduct =>
      obtain ⟨row, hrow, htenant⟩ := findProduct_eq_some hproduct
      by_cases hvariant : new.variantId.isSome = true
      · rw [if_pos hvariant]
        exact .finds_product ⟨row, hrow, htenant⟩
      · rw [if_neg hvariant]
        refine new.turn_store (.inl rfl) ⟨⟨row, hrow, htenant⟩, fun v hv => ?_⟩
        exact absurd (Option.isSome_of_eq_some hv) hvariant
  | productFound =>
    dsimp only
    split
    next => exact .fails
    next variant hvariant =>
      obtain ⟨v, hv, hfilter⟩ := Option.bind_eq_some_iff.mp hvariant
      obtain ⟨hfound, hproduct⟩ := Option.filter_eq_some_iff.mp hfilter
      obtain ⟨hrow, htenant⟩ := Option.filter_eq_some_iff.mp hfound
      refine new.turn_store (.inr rfl) ⟨hknows, fun v' hv' => ?_⟩
      obtain rfl := Option.some.inj (hv.symm.trans hv')
      exact ⟨variant, hrow, of_decide_eq_true hproduct, of_decide_eq_true htenant⟩
  | stored file =>
    dsimp only
    split_ifs with hprimary
    · exact .finds
    · exact new.turn_insert (.inl ⟨rfl, hprimary⟩)
  | clearing file keys =>
    dsimp only
    split_ifs
    · exact .waits
    · exact .clears
  | cleared file => exact new.turn_insert (.inr rfl)
  | _ => exact .waits

theorem turn_updateRow {id tenantId : Uuid} {data : ImageData} {productId : Option Uuid}
    {aborted : Option Failure} {image : ImageRow}
    (hphase : (phase = .found image ∧ data.isPrimary ≠ some true) ∨ phase = .primary image) :
    Turn s.catalogue (.updateImage id tenantId data productId aborted) phase
      (updateRow id data s phase).1.catalogue (updateRow id data s phase).2 := by
  unfold updateRow
  split_ifs
  · exact .waits
  · unfold Store.finish
    split
    next c' hupdate => exact .updates hphase hupdate
    next e he => exact .fails

theorem turn_update {id tenantId : Uuid} {data : ImageData} {productId : Option Uuid}
    {aborted : Option Failure} :
    Takes (.updateImage id tenantId data productId aborted) s phase := by
  unfold Takes advance advanceUpdate
  cases phase with
  | started =>
    dsimp only
    split
    next => exact .fails
    next image himage =>
      obtain ⟨hrow, htenant⟩ := getImage_eq_ok himage
      exact .gets hrow htenant
  | found image =>
    dsimp only
    -- only an image that becomes the primary one opens a transaction
    split_ifs with hprimary
    · exact .opens
    · exact turn_updateRow (.inl ⟨rfl, hprimary⟩)
  | opened image keys =>
    dsimp only
    split_ifs
    · exact .waits
    · exact .empties
  | emptied image keys =>
    dsimp only
    split
    next => exact .fails
    next =>
      split_ifs
      · exact .waits
      · exact .fails
      · exact .marks
  | marked image keys => exact .commits
  | primary image => exact turn_updateRow (.inr rfl)
  | _ => exact .waits

theorem turn_delete {id tenantId : Uuid} {productId : Option Uuid}
    {fileDeleted : Except Failure Unit} :
    Takes (.deleteImage id tenantId productId fileDeleted) s phase := by
  unfold Takes advance advanceDelete
  cases phase with
  | started =>
    dsimp only
    split
    next => exact .fails
    next => exact .fails
    next => exact .gets_to_delete
  | found image =>
    dsimp only
    split_ifs
    · exact .waits
    · unfold Store.finish
      split
      next c' hdelete => exact .deletes hdelete
      next e he => exact .fails
  | _ => exact .waits

/-- Everything one turn can do. -/
theorem turn_advance (hknows : Knows s.catalogue req phase) : Takes req s phase := by
  cases req with
  | add new => exact turn_add hknows
  | updateImage id tenantId data productId aborted => exact turn_update
  | deleteImage id tenantId productId fileDeleted => exact turn_delete

/-! ### What the requests are about to do -/

/-- A request that has begun to clear the images of a set, for one of them. -/
def claims : ImageRequest → Progress → Option (ImageSet × Uuid)
  | .add new, .clearing _ _ | .add new, .cleared _ => some (new.set, new.id)
  | .updateImage id tenantId _ _ _, .opened image _
  | .updateImage id tenantId _ _ _, .emptied image _
  | .updateImage id tenantId _ _ _, .marked image _
  | .updateImage id tenantId _ _ _, .primary image =>
    some (⟨image.productId, tenantId, image.variantId⟩, id)
  | _, _ => none

/-- A turn that makes an image primary: the creation of a new image, the commit of `setPrimary`
and the update that follows it. -/
def makesPrimary : ImageRequest → Progress → Option (ImageSet × Uuid)
  | .add new, .cleared _ => some (new.set, new.id)
  | .updateImage id tenantId _ _ _, .marked image _
  | .updateImage id tenantId _ _ _, .primary image =>
    some (⟨image.productId, tenantId, image.variantId⟩, id)
  | _, _ => none

/-- The rows that `updateMany` has found, or that `setPrimary` has yet to commit. -/
def Progress.keys : Progress → List Uuid
  | .clearing _ keys | .opened _ keys | .emptied _ keys | .marked _ keys => keys
  | _ => []

/-- Primary images, as marks that requests take and give. -/
def takeover : Takeover ImageRequest Store Progress ImageSet Uuid where
  advance := advance
  holds s := primariesBySet.Holder s.catalogue.images
  claims := claims
  gives := makesPrimary
  found phase k := k ∈ phase.keys

/-- The image that a request has found. -/
def sought : ImageRequest → Progress → Option Uuid
  | .updateImage id _ _ _ _, .found _ | .updateImage id _ _ _ _, .opened _ _
  | .updateImage id _ _ _ _, .emptied _ _ | .updateImage id _ _ _ _, .marked _ _
  | .updateImage id _ _ _ _, .primary _ => some id
  | _, _ => none

/-- The image that a request has still to create. -/
def coming : ImageRequest → Progress → Option Uuid
  | .add new, .started | .add new, .productFound | .add new, .stored _
  | .add new, .clearing _ _ | .add new, .cleared _ => some new.id
  | _, _ => none

/-- New images have ids of their own. -/
def FreshIds (requests : List ImageRequest) (c : Catalogue) : Prop :=
  ∀ (i : ℕ) (new : NewImage), requests[i]? = some (.add new) → c.images.lookup new.id = none ∧
    ∀ (j : ℕ) (new' : NewImage), requests[j]? = some (.add new') → new'.id = new.id → j = i

/-- What holds in every run: the images are of products and variants that belong together, the
requests know what they have found, and an id that is still to come is not in use. -/
structure Sound (requests : List ImageRequest) (x : Interleaved Store Progress) : Prop where
  stand : ImagesStand x.store.catalogue
  knows : ∀ (i : ℕ) (req : ImageRequest) (phase : Progress), requests[i]? = some req →
    x.phases[i]? = some phase → Knows x.store.catalogue req phase
  unseen : ∀ (i : ℕ) (req : ImageRequest) (phase : Progress), requests[i]? = some req →
    x.phases[i]? = some phase → ∀ id, coming req phase = some id →
      x.store.catalogue.images.lookup id = none ∧
        ∀ (j : ℕ) (req' : ImageRequest) (phase' : Progress), requests[j]? = some req' →
          x.phases[j]? = some phase' → sought req' phase' ≠ some id ∧
            (coming req' phase' = some id → j = i)

/-! ### What a turn does -/

theorem Turn.products_eq (h : Turn c req phase c' phase') : c'.products = c.products := by
  cases h with
  | inserts hphase hcreate =>
    obtain ⟨-, row, -, -, rfl⟩ := create_eq_ok hcreate
    rfl
  | updates hphase hupdate =>
    obtain ⟨row, row', -, -, -, rfl⟩ := update_eq_ok hupdate
    rfl
  | deletes hdelete =>
    obtain rfl := delete_eq_ok hdelete
    rfl
  | _ => rfl

theorem Turn.variants_eq (h : Turn c req phase c' phase') : c'.variants = c.variants := by
  cases h with
  | inserts hphase hcreate =>
    obtain ⟨-, row, -, -, rfl⟩ := create_eq_ok hcreate
    rfl
  | updates hphase hupdate =>
    obtain ⟨row, row', -, -, -, rfl⟩ := update_eq_ok hupdate
    rfl
  | deletes hdelete =>
    obtain rfl := delete_eq_ok hdelete
    rfl
  | _ => rfl

theorem getD_eq_true {given : Option Bool} {old : Bool} :
    given.getD old = true ↔ given = some true ∨ (given = none ∧ old = true) := by
  cases given with
  | none => simp
  | some b => simp

/-- An image after a turn: one from before it, or the new one. -/
theorem Turn.rows (h : Turn c req phase c' phase') (hknows : Knows c req phase)
    {row' : ImageRow} (hrow' : c'.images.lookup k = some row') :
    (∃ row, c.images.lookup k = some row ∧ imageSet row' = imageSet row ∧
      (row'.isPrimary = true → row.isPrimary = true ∨
        makesPrimary req phase = some (imageSet row', k))) ∨
    (coming req phase = some k ∧ phase' = .done ∧ (imageSet row').Stands c ∧
      (row'.isPrimary = true → makesPrimary req phase = some (imageSet row', k))) := by
  cases h with
  | clears =>
    obtain ⟨row, hrow, hset, hflag⟩ := lookup_clear hrow'
    exact .inl ⟨row, hrow, hset, fun hprimary => .inl (hflag hprimary).1⟩
  | @inserts new _ file _ hphase hcreate =>
    obtain ⟨hnone, row, hset, hprimary, rfl⟩ := create_eq_ok hcreate
    rcases AList.lookup_insert_eq_some.mp hrow' with ⟨rfl, rfl⟩ | ⟨-, hold⟩
    · right
      -- the request asks for no primary image, or has cleared the others
      rcases hphase with ⟨rfl, hnot⟩ | rfl
      · refine ⟨rfl, rfl, hset ▸ hknows, fun hflag => absurd ?_ hnot⟩
        rcases getD_eq_true.mp (hprimary.symm.trans hflag) with hgiven | ⟨-, hfalse⟩
        · exact hgiven
        · cases hfalse
      · exact ⟨rfl, rfl, hset ▸ hknows, fun _ => hset ▸ rfl⟩
    · exact .inl ⟨row', hold, rfl, fun hflag => .inl hflag⟩
  | @commits id tenantId _ _ _ image keys =>
    obtain ⟨row, hrow, hset, hflag⟩ := lookup_publish hrow'
    refine .inl ⟨row, hrow, hset, fun hprimary => ?_⟩
    rcases hflag hprimary with rfl | ⟨hold, -⟩
    · obtain ⟨rfl, himage⟩ := hknows
      exact .inr (by rw [hset, himage row hrow]; rfl)
    · exact .inl hold
  | @updates id tenantId data _ _ _ image _ hphase hupdate =>
    obtain ⟨row, changed, hrow, hset, hprimary, rfl⟩ := update_eq_ok hupdate
    rcases AList.lookup_insert_eq_some.mp hrow' with ⟨rfl, rfl⟩ | ⟨-, hold⟩
    · refine .inl ⟨row, hrow, hset, fun hflag => ?_⟩
      rcases hphase with ⟨rfl, hnot⟩ | rfl
      · rcases getD_eq_true.mp (hprimary.symm.trans hflag) with hgiven | ⟨-, hold⟩
        · exact absurd hgiven hnot
        · exact .inl hold
      · obtain ⟨rfl, himage⟩ := hknows
        exact .inr (by rw [hset, himage row hrow]; rfl)
    · exact .inl ⟨row', hold, rfl, fun hflag => .inl hflag⟩
  | deletes hdelete =>
    obtain rfl := delete_eq_ok hdelete
    exact .inl ⟨row', (AList.lookup_keep_eq_some.mp hrow').1, rfl, fun hflag => .inl hflag⟩
  | _ => exact .inl ⟨row', hrow', rfl, fun hflag => .inl hflag⟩

/-- Images become primary only where a turn says so. -/
theorem Turn.announces (h : Turn c req phase c' phase') (hknows : Knows c req phase)
    (hholds : primariesBySet.Holder c'.images w k) :
    primariesBySet.Holder c.images w k ∨ makesPrimary req phase = some (w, k) := by
  obtain ⟨row', hrow', rfl, hflag⟩ := hholds
  rcases h.rows hknows hrow' with ⟨row, hrow, hset, hprimary⟩ | ⟨-, -, -, hprimary⟩
  · rcases hprimary hflag with hold | hmakes
    · exact .inl ⟨row, hrow, hset.symm, hold⟩
    · exact .inr hmakes
  · exact .inr (hprimary hflag)

/-- A request that has begun to clear goes on with it. -/
theorem Turn.clears_found (h : Turn s.catalogue req phase c' phase')
    (hcleared : takeover.Cleared s req phase) :
    takeover.Cleared { s with catalogue := c' } req phase' := by
  cases h with
  | waits => exact hcleared
  | @finds new file =>
    intro w k hclaims k' hk'
    obtain ⟨rfl, rfl⟩ := Prod.mk.inj (Option.some.inj hclaims)
    exact .inr (ImageSet.mem_primaries.mpr hk')
  | @clears new file keys =>
    rintro w k hclaims k' ⟨row', hrow', hset', hflag'⟩
    obtain ⟨rfl, rfl⟩ := Prod.mk.inj (Option.some.inj hclaims)
    -- an image that is primary afterwards was so before, and was not among those found
    obtain ⟨row, hrow, hset, hflag⟩ := lookup_clear hrow'
    obtain ⟨hprimary, hout⟩ := hflag hflag'
    have hold : primariesBySet.Holder s.catalogue.images new.set k' :=
      ⟨row, hrow, hset.symm.trans hset', hprimary⟩
    rcases hcleared new.set new.id rfl k' hold with heq | hfound
    · exact .inl heq
    · exact absurd (ImageSet.mem_recheck.mpr ⟨hfound, hold⟩) hout
  | opens =>
    intro w k hclaims k' hk'
    obtain ⟨rfl, rfl⟩ := Prod.mk.inj (Option.some.inj hclaims)
    exact .inr (ImageSet.mem_primaries.mpr hk')
  | empties =>
    intro w k hclaims k' hk'
    obtain ⟨rfl, rfl⟩ := Prod.mk.inj (Option.some.inj hclaims)
    rcases hcleared _ _ rfl k' hk' with heq | hfound
    · exact .inl heq
    · exact .inr (ImageSet.mem_recheck.mpr ⟨hfound, hk'⟩)
  | marks => exact hcleared
  | commits =>
    rintro w k hclaims k' ⟨row', hrow', hset', hflag'⟩
    obtain ⟨rfl, rfl⟩ := Prod.mk.inj (Option.some.inj hclaims)
    -- the commit makes one image primary and clears those that were found
    obtain ⟨row, hrow, hset, hflag⟩ := lookup_publish hrow'
    rcases hflag hflag' with rfl | ⟨hprimary, hout⟩
    · exact .inl rfl
    · rcases hcleared _ _ rfl k' ⟨row, hrow, hset.symm.trans hset', hprimary⟩ with heq | hfound
      · exact .inl heq
      · exact absurd hfound hout
  | fails =>
    intro w k hclaims
    cases req <;> cases hclaims
  | _ =>
    intro w k hclaims
    cases hclaims

/-- Whoever makes an image primary has cleared the others. -/
theorem takes_advance (hknows : Knows s.catalogue req phase)
    (hcleared : takeover.Cleared s req phase) {k' : Uuid}
    (hmakes : makesPrimary req phase = some (w, k))
    (hholds : primariesBySet.Holder (advance req s phase).1.catalogue.images w k') : k' = k := by
  have hclaims : claims req phase = some (w, k) := by
    unfold makesPrimary at hmakes
    split at hmakes
    next => exact hmakes
    next => exact hmakes
    next => exact hmakes
    next => cases hmakes
  rcases (turn_advance hknows).announces hknows hholds with hold | hnew
  · rcases hcleared w k hclaims k' hold with heq | hfound
    · exact heq
    · -- only the commit of `setPrimary` finds rows that it has still to clear
      unfold makesPrimary at hmakes
      split at hmakes
      next => cases hfound
      next id tenantId data productId aborted image keys =>
        obtain ⟨rfl, rfl⟩ := Prod.mk.inj (Option.some.inj hmakes)
        obtain ⟨row', hrow', -, hflag'⟩ := hholds
        obtain ⟨row, -, -, hflag⟩ := lookup_publish hrow'
        rcases hflag hflag' with heq | ⟨-, hout⟩
        · exact heq
        · exact absurd hfound hout
      next => cases hfound
      next => cases hmakes
  · rw [hmakes] at hnew
    exact (Prod.mk.inj (Option.some.inj hnew)).2.symm

/-! ### What the requests know -/

/-- What one request knows outlasts the turns of the others. -/
theorem Turn.knows_other (h : Turn c req phase c' phase') (hknows : Knows c req phase)
    {req' : ImageRequest} {phase'' : Progress} (hknows' : Knows c req' phase'')
    (hunseen : ∀ id, coming req phase = some id → sought req' phase'' ≠ some id) :
    Knows c' req' phase'' := by
  have himage {id tenantId : Uuid} {image : ImageRow}
      (hfound : image.tenantId = tenantId ∧
        ∀ row, c.images.lookup id = some row → imageSet row = imageSet image)
      (hid : coming req phase ≠ some id) : image.tenantId = tenantId ∧
        ∀ row, c'.images.lookup id = some row → imageSet row = imageSet image := by
    refine ⟨hfound.1, fun row' hrow' => ?_⟩
    rcases h.rows hknows hrow' with ⟨row, hrow, hset, -⟩ | ⟨hcoming, -⟩
    · exact hset.trans (hfound.2 row hrow)
    · exact absurd hcoming hid
  unfold Knows at hknows' ⊢
  split
  next => exact h.products_eq ▸ hknows'
  next => exact ImageSet.Stands.congr hknows' h.products_eq h.variants_eq
  next => exact ImageSet.Stands.congr hknows' h.products_eq h.variants_eq
  next => exact ImageSet.Stands.congr hknows' h.products_eq h.variants_eq
  next => exact himage hknows' fun hid => hunseen _ hid rfl
  next => exact himage hknows' fun hid => hunseen _ hid rfl
  next => exact himage hknows' fun hid => hunseen _ hid rfl
  next => exact himage hknows' fun hid => hunseen _ hid rfl
  next => exact himage hknows' fun hid => hunseen _ hid rfl
  next => trivial

theorem Turn.knows_own (h : Turn c req phase c' phase') (hknows : Knows c req phase) :
    Knows c' req phase' := by
  cases h with
  | fails => cases req <;> trivial
  | finds_product hproduct => exact hproduct
  | stores hphase hstands => exact hstands
  | clears => exact ImageSet.Stands.congr hknows rfl rfl
  | gets hlookup htenant =>
    refine ⟨htenant, fun row hrow => ?_⟩
    obtain rfl := Option.some.inj (hlookup.symm.trans hrow)
    rfl
  | commits =>
    refine ⟨hknows.1, fun row' hrow' => ?_⟩
    obtain ⟨row, hrow, hset, -⟩ := lookup_publish hrow'
    exact hset.trans (hknows.2 row hrow)
  | inserts => trivial
  | updates => trivial
  | gets_to_delete => trivial
  | deletes => trivial
  | _ => exact hknows

/-- A request that still has its image to create had it before. -/
theorem Turn.coming_before (h : Turn c req phase c' phase') {id : Uuid}
    (hcoming : coming req phase' = some id) : coming req phase = some id := by
  cases h with
  | fails => cases req <;> cases hcoming
  | stores hphase hstands =>
    rcases hphase with rfl | rfl
    · exact hcoming
    · exact hcoming
  | inserts => cases hcoming
  | gets => cases hcoming
  | opens => cases hcoming
  | empties => cases hcoming
  | marks => cases hcoming
  | commits => cases hcoming
  | updates => cases hcoming
  | gets_to_delete => cases hcoming
  | deletes => cases hcoming
  | _ => exact hcoming

/-- An image that a request has found is there, or was when it found it. -/
theorem Turn.sought_before (h : Turn c req phase c' phase') {id : Uuid}
    (hsought : sought req phase' = some id) :
    sought req phase = some id ∨ c.images.lookup id ≠ none := by
  cases h with
  | waits => exact .inl hsought
  | fails => cases req <;> cases hsought
  | gets hlookup htenant =>
    obtain rfl := Option.some.inj hsought
    exact .inr (by simp [hlookup])
  | opens => exact .inl hsought
  | empties => exact .inl hsought
  | marks => exact .inl hsought
  | commits => exact .inl hsought
  | _ => cases hsought

theorem coming_done : coming req .done = none := by
  cases req <;> rfl

variable {i : ℕ}

theorem Sound.turn (h : Sound requests x) (hreq : requests[i]? = some req)
    (hphase : x.phases[i]? = some phase) : Takes req x.store phase :=
  turn_advance (h.knows i req phase hreq hphase)

/-- Where the requests were before a turn. -/
theorem Sound.before (h : Sound requests x) (hreq : requests[i]? = some req)
    (hphase : x.phases[i]? = some phase) {j : ℕ} {req' : ImageRequest} {phase'' : Progress}
    (hreq' : requests[j]? = some req')
    (hafter : (x.after advance i req phase).phases[j]? = some phase'') :
    ∃ phase', x.phases[j]? = some phase' ∧ ∀ id,
      (coming req' phase'' = some id → coming req' phase' = some id) ∧
      (sought req' phase'' = some id →
        sought req' phase' = some id ∨ x.store.catalogue.images.lookup id ≠ none) := by
  rcases Interleaved.getElem?_after hafter with ⟨rfl, rfl⟩ | ⟨-, hsame⟩
  · obtain rfl := Option.some.inj (hreq.symm.trans hreq')
    have hturn := h.turn hreq hphase
    exact ⟨phase, hphase, fun id => ⟨hturn.coming_before, hturn.sought_before⟩⟩
  · exact ⟨phase'', hsame, fun id => ⟨fun h => h, .inl⟩⟩

theorem Sound.unseen_after (h : Sound requests x) (hreq : requests[i]? = some req)
    (hphase : x.phases[i]? = some phase) {j : ℕ} {req' : ImageRequest} {phase'' : Progress}
    (hreq' : requests[j]? = some req')
    (hafter : (x.after advance i req phase).phases[j]? = some phase'') {id : Uuid}
    (hcoming : coming req' phase'' = some id) :
    (x.after advance i req phase).store.catalogue.images.lookup id = none := by
  obtain ⟨phase', hphase', hbefore⟩ := h.before hreq hphase hreq' hafter
  obtain ⟨hnone, halone⟩ := h.unseen j req' phase' hreq' hphase' id ((hbefore id).1 hcoming)
  by_contra hsome
  obtain ⟨row', hrow'⟩ := Option.ne_none_iff_exists'.mp hsome
  rcases (h.turn hreq hphase).rows (h.knows i req phase hreq hphase) hrow' with
    ⟨row, hrow, -⟩ | ⟨hown, hdone, -⟩
  · rw [hnone] at hrow
    cases hrow
  · -- only the request whose image it is can have created it, and then it is done
    obtain rfl := (halone i req phase hreq hphase).2 hown
    rcases Interleaved.getElem?_after hafter with ⟨-, rfl⟩ | ⟨hne, -⟩
    · rw [hdone, coming_done] at hcoming
      cases hcoming
    · exact absurd rfl hne

/-- One turn. -/
theorem Sound.after (h : Sound requests x) (hreq : requests[i]? = some req)
    (hphase : x.phases[i]? = some phase) : Sound requests (x.after advance i req phase) where
  stand k row' hrow' := by
    have hturn := h.turn hreq hphase
    have hstands : (imageSet row').Stands x.store.catalogue := by
      rcases hturn.rows (h.knows i req phase hreq hphase) hrow' with
        ⟨row, hrow, hset, -⟩ | ⟨-, -, hstands, -⟩
      · exact hset ▸ h.stand k row hrow
      · exact hstands
    exact hstands.congr hturn.products_eq hturn.variants_eq
  knows j req' phase'' hreq' hafter := by
    have hknows := h.knows i req phase hreq hphase
    rcases Interleaved.getElem?_after hafter with ⟨rfl, rfl⟩ | ⟨-, hsame⟩
    · obtain rfl := Option.some.inj (hreq.symm.trans hreq')
      exact (h.turn hreq hphase).knows_own hknows
    · refine (h.turn hreq hphase).knows_other hknows (h.knows j req' phase'' hreq' hsame) ?_
      intro id hcoming
      exact ((h.unseen i req phase hreq hphase id hcoming).2 j req' phase'' hreq' hsame).1
  unseen j req' phase'' hreq' hafter id hcoming := by
    refine ⟨h.unseen_after hreq hphase hreq' hafter hcoming,
      fun l other phaseₗ hother hafterₗ => ?_⟩
    obtain ⟨phase', hphase', hbefore⟩ := h.before hreq hphase hreq' hafter
    obtain ⟨hnone, halone⟩ := h.unseen j req' phase' hreq' hphase' id ((hbefore id).1 hcoming)
    obtain ⟨phaseₗ', hphaseₗ', hbeforeₗ⟩ := h.before hreq hphase hother hafterₗ
    obtain ⟨hnot, honly⟩ := halone l other phaseₗ' hother hphaseₗ'
    refine ⟨fun hsought => ?_, fun hcomingₗ => honly ((hbeforeₗ id).1 hcomingₗ)⟩
    rcases (hbeforeₗ id).2 hsought with hold | hfound
    · exact hnot hold
    · exact hfound hnone

/-! ### Every run -/

/-- Requests clear what they find before they make an image primary. -/
theorem lawful : takeover.Lawful requests (Sound requests) where
  keeps hreq hphase h := h.after hreq hphase
  announces hreq hphase h hholds :=
    (h.turn hreq hphase).announces (h.knows _ _ _ hreq hphase) hholds
  clears hreq hphase h hcleared := (h.turn hreq hphase).clears_found hcleared
  takes hreq hphase h hcleared hgives hholds :=
    takes_advance (h.knows _ _ _ hreq hphase) hcleared hgives hholds

theorem started_of_start {c₀ : Catalogue} (h : (start requests c₀).phases[i]? = some phase) :
    phase = .started := by
  obtain ⟨req, -, rfl⟩ := List.mem_map.mp (List.mem_of_getElem? h)
  rfl

theorem sound_start {c₀ : Catalogue} (hids : FreshIds requests c₀) (hstand : ImagesStand c₀) :
    Sound requests (start requests c₀) where
  stand := hstand
  knows i req phase hreq hphase := by
    obtain rfl := started_of_start hphase
    cases req <;> trivial
  unseen i req phase hreq hphase id hcoming := by
    obtain rfl := started_of_start hphase
    cases req with
    | add new =>
      obtain rfl := Option.some.inj hcoming
      obtain ⟨hnone, honly⟩ := hids i new hreq
      refine ⟨hnone, fun j req' phase' hreq' hphase' => ?_⟩
      obtain rfl := started_of_start hphase'
      cases req' with
      | add new' =>
        refine ⟨fun h => (by cases h), fun h => honly j new' hreq' (Option.some.inj h)⟩
      | updateImage => exact ⟨fun h => (by cases h), fun h => (by cases h)⟩
      | deleteImage => exact ⟨fun h => (by cases h), fun h => (by cases h)⟩
    | updateImage => cases hcoming
    | deleteImage => cases hcoming

/-- No request has begun to clear anything. -/
theorem cleared_started : takeover.Cleared s req .started := by
  intro w k hclaims
  cases req <;> cases hclaims

/-- **Primary images.** As long as no image is made primary between the clearing statement of
another request and the last statement in which that makes its own image of the same product or
variant primary, every product has at most one primary image without a variant, and every
variant at most one. -/
theorem one_primary_undisturbed {c₀ : Catalogue} (hids : FreshIds requests c₀)
    (hstand : ImagesStand c₀) (hone : ∀ o, primaryImages.AtMostOne c₀.images o)
    (h : Interleaved.Reaches advance requests (takeover.Undisturbed requests)
      (start requests c₀) x) (o : Owner) : primaryImages.AtMostOne x.store.catalogue.images o := by
  have hsound : Sound requests x :=
    h.induction (sound_start hids hstand) fun _ _ _ _ hreq hphase _ hx => hx.after hreq hphase
  have horderly : takeover.Orderly requests (Sound requests) (start requests c₀) := by
    refine ⟨sound_start hids hstand, atMostOne_bySet hone, fun i req phase _ hphase => ?_⟩
    obtain rfl := started_of_start hphase
    exact cleared_started
  exact hsound.stand.atMostOne (fun w => Takeover.reaches_unique lawful horderly h w) o

namespace Sample

/-- A shop with a product that has no images. -/
def shop : Catalogue where
  products := (∅ : Table Uuid ProductRow).insert "p"
    { tenantId := "t", name := "Mug", createdAt := 0, updatedAt := 0 }

/-- A primary image for the product. -/
def upload (id : Uuid) : ImageRequest :=
  createProductImage "p" "t" (.ok (id, "/" ++ id)) { isPrimary := some true } id

def uploads : List ImageRequest := [upload "i1", upload "i2"]

theorem freshIds_uploads : FreshIds uploads shop := by
  rintro (_ | _ | i) new hnew
  · obtain rfl := ImageRequest.add.inj (Option.some.inj hnew)
    refine ⟨rfl, fun j new' hnew' hid => ?_⟩
    rcases j with _ | _ | j
    · rfl
    · obtain rfl := ImageRequest.add.inj (Option.some.inj hnew')
      exact absurd hid (by decide)
    · cases hnew'
  · obtain rfl := ImageRequest.add.inj (Option.some.inj hnew)
    refine ⟨rfl, fun j new' hnew' hid => ?_⟩
    rcases j with _ | _ | j
    · obtain rfl := ImageRequest.add.inj (Option.some.inj hnew')
      exact absurd hid (by decide)
    · rfl
    · cases hnew'
  · cases hnew

theorem imagesStand_shop : ImagesStand shop := by
  intro k row hrow
  cases hrow

theorem atMostOne_shop (o : Owner) : primaryImages.AtMostOne shop.images o := by
  rintro k k' ⟨row, hrow, -⟩
  cases hrow

/-- The condition, on a run. -/
def undisturbed (requests : List ImageRequest) (x : Interleaved Store Progress)
    (req : ImageRequest) (phase : Progress) : Bool :=
  (makesPrimary req phase).all fun (w, k) => (requests.zip x.phases).all fun (req', phase') =>
    (claims req' phase').all fun (w', k') => w' ≠ w ∨ k' = k

theorem undisturbed_of_test {x : Interleaved Store Progress} {req : ImageRequest}
    {phase : Progress} (h : undisturbed requests x req phase = true) :
    takeover.Undisturbed requests x req phase := by
  intro w k hmakes j req' phase' hreq' hphase' k' hclaims
  have hmem : (req', phase') ∈ requests.zip x.phases :=
    List.mem_of_getElem? (List.getElem?_zip_eq_some.mpr ⟨hreq', hphase'⟩)
  have hall := (Option.all_eq_true _ _).mp h (w, k) hmakes
  have hother := (Option.all_eq_true _ _).mp (List.all_eq_true.mp hall _ hmem) (w, k') hclaims
  exact (of_decide_eq_true hother).resolve_left fun hne => hne rfl

end Sample

open ProductImages.Sample

/-- Two primary images, one after the other. -/
theorem one_primary_undisturbed_uploads :
    primaryImages.AtMostOne (Interleaved.run advance uploads (start uploads shop)
      [0, 0, 0, 0, 1, 1, 1, 1]).store.catalogue.images (.product "p") :=
  one_primary_undisturbed freshIds_uploads imagesStand_shop atMostOne_shop
    (Interleaved.Reaches.run (fun _ _ _ => undisturbed_of_test) .refl _ (by decide +kernel)) _

/-- Two primary images that are created after both requests have cleared the others. -/
theorem two_primary_images : ¬ ∀ (requests : List ImageRequest) (c₀ : Catalogue)
    (x : Interleaved Store Progress), FreshIds requests c₀ → ImagesStand c₀ →
      (∀ o, primaryImages.AtMostOne c₀.images o) →
      Interleaved.Reaches advance requests (fun _ _ _ => True) (start requests c₀) x →
      ∀ o, primaryImages.AtMostOne x.store.catalogue.images o := by
  intro h
  have hone := h uploads shop _ freshIds_uploads imagesStand_shop atMostOne_shop
    (Interleaved.Reaches.run_all .refl [0, 0, 0, 1, 1, 1, 0, 1]) (.product "p")
  have hholder (id : Uuid) (hid : id ∈ ["i1", "i2"]) :
      primaryImages.Holder (Interleaved.run advance uploads (start uploads shop)
        [0, 0, 0, 1, 1, 1, 0, 1]).store.catalogue.images (.product "p") id := by
    refine ⟨⟨"t", "p", none, id, some ("/" ++ id), none, 0, true⟩, ?_, rfl, rfl⟩
    rcases List.mem_pair.mp hid with rfl | rfl
    · decide +kernel
    · decide +kernel
  exact absurd (hone "i1" "i2" (hholder "i1" (by simp)) (hholder "i2" (by simp))) (by decide)

end PulseOps.ProductImages
