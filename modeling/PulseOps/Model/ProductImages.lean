import PulseOps.Model.CatalogueServices
import PulseOps.ReadCommitted.Interleaved

/-!
# Image requests that run at the same time

`ProductImageService` of `product-images/product-images.service.js` once more, for requests
that run at the same time. One turn of a request is a statement that commits by itself, a
statement of the transaction of `setPrimary`, or its commit.

`updateMany` takes two turns. In the first one it finds the rows; in the second one, once no
open transaction holds any of them, it looks at each again and changes those that still match.
A row that starts to match in between is not among them.
-/

set_option autoImplicit false

open ReadCommitted

namespace PulseOps.ProductImages

open Autocommit Products

/-! ### The images of a product or of a variant -/

/-- The images that one `updateMany` is about: those of a product that belong to no variant, or
those of a variant. -/
structure ImageSet where
  productId : Uuid
  tenantId : Uuid
  variantId : Option Uuid
  deriving DecidableEq, Repr

/-- The images that the row is one of. -/
def imageSet (row : ImageRow) : ImageSet := ⟨row.productId, row.tenantId, row.variantId⟩

/-- `where: { productId, tenantId, variantId, isPrimary: true }`. -/
def ImageSet.selects (w : ImageSet) (row : ImageRow) : Bool := imageSet row = w ∧ row.isPrimary

/-- The rows that `updateMany` finds. -/
def ImageSet.primaries (w : ImageSet) (c : Catalogue) : List Uuid :=
  (c.images.entries.filter fun e => w.selects e.2).map (·.1)

/-- Those of them that match when it comes to change them. -/
def ImageSet.recheck (w : ImageSet) (keys : List Uuid) (c : Catalogue) : List Uuid :=
  keys.filter fun k => (c.images.lookup k).any w.selects

/-- `data: { isPrimary: false }`. -/
def clear (keys : List Uuid) (c : Catalogue) : Catalogue :=
  { c with
    images := c.images.mapRows fun k row =>
      if k ∈ keys then { row with isPrimary := false } else row }

/-- What `setPrimary` commits: the rows it has changed, and the one it has set. -/
def publish (keys : List Uuid) (id : Uuid) (c : Catalogue) : Catalogue :=
  { c with
    images := (clear keys c).images.mapRows fun k row =>
      if k = id then { row with isPrimary := true } else row }

/-! ### Requests -/

/-- An image to be added, with what the checks of the file and the storage answer, and with the
id that its row gets. -/
structure NewImage where
  id : Uuid
  productId : Uuid
  tenantId : Uuid
  variantId : Option Uuid
  upload : Except Failure (String × String)
  data : ImageData

def NewImage.set (new : NewImage) : ImageSet := ⟨new.productId, new.tenantId, new.variantId⟩

/-- `aborted` is the error with which the database ends the transaction of `setPrimary`, as it
does with one of two that wait for each other. -/
inductive ImageRequest where
  | add (new : NewImage)
  | updateImage (id tenantId : Uuid) (data : ImageData) (productId : Option Uuid)
      (aborted : Option Failure := none)
  | deleteImage (id tenantId : Uuid) (productId : Option Uuid) (fileDeleted : Except Failure Unit)

/-- `createProductImage`. -/
def createProductImage (productId tenantId : Uuid) (upload : Except Failure (String × String))
    (data : ImageData) (id : Uuid) : ImageRequest :=
  .add { id, productId, tenantId, variantId := none, upload, data }

/-- `createVariantImage`. -/
def createVariantImage (productId variantId tenantId : Uuid)
    (upload : Except Failure (String × String)) (data : ImageData) (id : Uuid) : ImageRequest :=
  .add { id, productId, tenantId, variantId := some variantId, upload, data }

/-- How far a request has come. -/
inductive Progress where
  | started
  /-- `createVariantImage` looks for the variant next -/
  | productFound
  /-- the file is stored -/
  | stored (file : String × String)
  /-- `updateMany` has found the rows -/
  | clearing (file : String × String) (keys : List Uuid)
  /-- it has committed -/
  | cleared (file : String × String)
  /-- `getImage` has answered -/
  | found (image : ImageRow)
  /-- `setPrimary` has begun, and its `updateMany` has found the rows -/
  | opened (image : ImageRow) (keys : List Uuid)
  /-- it has changed and holds them -/
  | emptied (image : ImageRow) (keys : List Uuid)
  /-- its second statement has set the row -/
  | marked (image : ImageRow) (keys : List Uuid)
  /-- `setPrimary` has committed -/
  | primary (image : ImageRow)
  | done
  | failed (e : Failure)

/-- The tables, and the rows that open transactions hold. -/
structure Store where
  catalogue : Catalogue
  locks : List Uuid := []

/-- Whether a statement of a request that holds the rows `own` waits for one of the rows. -/
def Store.waits (s : Store) (own keys : List Uuid) : Bool :=
  keys.any fun k => k ∈ s.locks ∧ k ∉ own

/-- The transaction that holds the rows is over. -/
def Store.release (s : Store) (own : List Uuid) : Store :=
  { s with locks := s.locks.filter fun k => k ∉ own }

/-- The end of a request whose last statement this is. -/
def Store.finish (s : Store) (result : Except Failure Catalogue) : Store × Progress :=
  match result with
  | .ok catalogue => ({ s with catalogue }, .done)
  | .error e => (s, .failed e)

/-- The file is checked and stored. -/
def NewImage.store (new : NewImage) : Progress :=
  match new.upload with
  | .ok file => .stored file
  | .error e => .failed e

/-- `productImage.create`. -/
def NewImage.insert (new : NewImage) (file : String × String) (s : Store) : Store × Progress :=
  s.finish <| ProductImageRepository.create new.id new.tenantId new.productId new.variantId
    file.1 file.2 new.data s.catalogue

/-- One turn of `createProductImage` or `createVariantImage`. -/
def NewImage.advance (new : NewImage) (s : Store) : Progress → Store × Progress
  | .started =>
    match s.catalogue.findProduct new.productId new.tenantId with
    | none => (s, .failed (.app productNotFound))
    | some _ => (s, if new.variantId.isSome then .productFound else new.store)
  | .productFound =>
    match new.variantId.bind fun v =>
      (s.catalogue.findVariant v new.tenantId).filter (·.productId = new.productId) with
    | none => (s, .failed (.app variantOfOtherProduct))
    | some _ => (s, new.store)
  | .stored file =>
    if new.data.isPrimary = some true then
      (s, .clearing file (new.set.primaries s.catalogue))
    else new.insert file s
  | .clearing file keys =>
    if s.waits [] keys then (s, .clearing file keys)
    else
      ({ s with catalogue := clear (new.set.recheck keys s.catalogue) s.catalogue }, .cleared file)
  | .cleared file => new.insert file s
  | phase => (s, phase)

/-- `getImage`. -/
def getImage (c : Catalogue) (id tenantId : Uuid) (productId : Option Uuid) :
    Except Failure ImageRow :=
  match c.findImage id tenantId with
  | none => .error (.app imageNotFound)
  | some image =>
    if (truthy productId).all fun p => image.productId = p then .ok image
    else .error (.app imageNotFound)

/-- `repository.update`. -/
def updateRow (id : Uuid) (data : ImageData) (s : Store) (phase : Progress) : Store × Progress :=
  if s.waits [] [id] then (s, phase)
  else s.finish (ProductImageRepository.update id data s.catalogue)

/-- One turn of `updateImage`. -/
def advanceUpdate (id tenantId : Uuid) (data : ImageData) (productId : Option Uuid)
    (aborted : Option Failure) (s : Store) : Progress → Store × Progress
  | .started =>
    match getImage s.catalogue id tenantId productId with
    | .error e => (s, .failed e)
    | .ok image => (s, .found image)
  | .found image =>
    if data.isPrimary = some true then
      (s, .opened image (ImageSet.primaries ⟨image.productId, tenantId, image.variantId⟩
        s.catalogue))
    else updateRow id data s (.found image)
  | .opened image keys =>
    if s.waits [] keys then (s, .opened image keys)
    else
      let held := ImageSet.recheck ⟨image.productId, tenantId, image.variantId⟩ keys s.catalogue
      ({ s with locks := held ++ s.locks }, .emptied image held)
  | .emptied image held =>
    match aborted with
    | some e => (s.release held, .failed e)
    | none =>
      if s.waits held [id] then (s, .emptied image held)
      else if (s.catalogue.images.lookup id).isNone then
        (s.release held, .failed (.database .recordNotFound))
      else ({ s with locks := id :: s.locks }, .marked image held)
  | .marked image held =>
    ({ s with catalogue := publish held id s.catalogue }.release (id :: held), .primary image)
  | .primary image => updateRow id data s (.primary image)
  | phase => (s, phase)

/-- One turn of `deleteImage`. The file goes first. -/
def advanceDelete (id tenantId : Uuid) (productId : Option Uuid)
    (fileDeleted : Except Failure Unit) (s : Store) : Progress → Store × Progress
  | .started =>
    match getImage s.catalogue id tenantId productId, fileDeleted with
    | .error e, _ => (s, .failed e)
    | .ok _, .error e => (s, .failed e)
    | .ok image, .ok () => (s, .found image)
  | .found image =>
    if s.waits [] [id] then (s, .found image)
    else s.finish (ProductImageRepository.delete id s.catalogue)
  | phase => (s, phase)

/-- One turn of a request. -/
def advance : ImageRequest → Store → Progress → Store × Progress
  | .add new => new.advance
  | .updateImage id tenantId data productId aborted =>
    advanceUpdate id tenantId data productId aborted
  | .deleteImage id tenantId productId fileDeleted =>
    advanceDelete id tenantId productId fileDeleted

/-- No request has had a turn. -/
def start (requests : List ImageRequest) (c : Catalogue) : Interleaved Store Progress :=
  ⟨⟨c, []⟩, requests.map fun _ => .started⟩

end PulseOps.ProductImages
