import PulseOps.Model.Rows
import PulseOps.ReadCommitted.Designation
import PulseOps.ReadCommitted.Interleaved
import PulseOps.ReadCommitted.ParentMap
import PulseOps.ReadCommitted.RoseTree

/-!
# Categories

The requests of `CategoryService` in `categories/categories.service.js` that write, over
`categories/categories.repository.js` and the constraints of the tables. The service opens no
transaction: every statement commits by itself, so one turn of a request is one statement with
what the service does up to the next one.

The schemas of `categories/categories.validation.js` have admitted the requests, so a parent
that is given is a UUID and a slug is not empty. The identifier that the database generates is
given with the request. Time stamps and what else of a product's category nothing here reads
are left out.
-/

set_option autoImplicit false

open ReadCommitted

namespace PulseOps.Categories

/-! ### Rows and requests -/

structure CategoryRow where
  tenantId : Uuid
  parentId : Option Uuid
  name : String
  slug : String
  description : Option String
  sortOrder : ℤ
  isActive : Bool
  deriving DecidableEq, Repr

structure ProductCategoryRow where
  tenantId : Uuid
  productId : Uuid
  categoryId : Uuid
  deriving DecidableEq, Repr

structure Db where
  categories : Table Uuid CategoryRow := ∅
  productCategories : Table Uuid ProductCategoryRow := ∅

/-- `createCategorySchema`. -/
structure CategoryData where
  name : String
  slug : String
  description : Option String := none
  parentId : Option Uuid := none
  sortOrder : Option ℤ := none
  isActive : Option Bool := none
  deriving DecidableEq, Repr

/-- `updateCategorySchema`; `none` is a property that is not given. -/
structure CategoryChanges where
  name : Option String := none
  slug : Option String := none
  description : Option String := none
  parentId : Option (Option Uuid) := none
  sortOrder : Option ℤ := none
  isActive : Option Bool := none
  deriving DecidableEq, Repr

inductive Request where
  | create (tenantId id : Uuid) (data : CategoryData)
  | update (id tenantId : Uuid) (data : CategoryChanges)
  | delete (id tenantId : Uuid)
  deriving DecidableEq, Repr

/-! ### Errors -/

def categorySlugExists : AppError :=
  ⟨"Category with this slug already exists", 409, "CATEGORY_SLUG_EXISTS"⟩

def parentCategoryNotFound : AppError :=
  ⟨"Parent category not found", 404, "PARENT_CATEGORY_NOT_FOUND"⟩

def categoryNotFound : AppError := ⟨"Category not found", 404, "CATEGORY_NOT_FOUND"⟩

def invalidParentCategory : AppError :=
  ⟨"Category cannot be its own parent", 400, "INVALID_PARENT_CATEGORY"⟩

def categoryCycleDetected : AppError :=
  ⟨"Category hierarchy would create a cycle", 400, "CATEGORY_CYCLE_DETECTED"⟩

def categoryHasChildren : AppError :=
  ⟨"Cannot delete category with children. Reassign or delete children first.", 409,
    "CATEGORY_HAS_CHILDREN"⟩

def categoryHasProducts : AppError :=
  ⟨"Cannot delete category with associated products. Remove products first.", 409,
    "CATEGORY_HAS_PRODUCTS"⟩

namespace Db

/-! ### The statements of the repository -/

def findById (s : Db) (id tenantId : Uuid) : Option CategoryRow :=
  (s.categories.lookup id).filter (·.tenantId = tenantId)

def existsBySlug (s : Db) (slug : String) (tenantId : Uuid) (excludeId : Option Uuid) : Bool :=
  s.categories.entries.any fun e =>
    e.2.slug = slug ∧ e.2.tenantId = tenantId ∧ excludeId ≠ some e.1

def hasChildren (s : Db) (id tenantId : Uuid) : Bool :=
  s.categories.entries.any fun e => e.2.parentId = some id ∧ e.2.tenantId = tenantId

def hasProducts (s : Db) (id tenantId : Uuid) : Bool :=
  s.productCategories.entries.any fun e => e.2.categoryId = id ∧ e.2.tenantId = tenantId

/-- The trigger `categories_parent_id_same_tenant` and the foreign key of `parent_id`. -/
def checkParent (s : Db) (tenantId : Uuid) : Option Uuid → Except DatabaseError Unit
  | none => .ok ()
  | some parentId =>
    match s.categories.lookup parentId with
    | none => .error .foreignKeyViolation
    | some parent => if parent.tenantId = tenantId then .ok () else .error .checkViolation

def create (s : Db) (tenantId id : Uuid) (data : CategoryData) :
    Except DatabaseError (Db × CategoryRow) := do
  let row : CategoryRow := {
    tenantId
    parentId := data.parentId
    name := data.name
    slug := data.slug
    description := data.description
    sortOrder := data.sortOrder.getD 0
    isActive := data.isActive.getD true }
  s.checkParent tenantId row.parentId
  if (s.categories.lookup id).isSome ∨ s.existsBySlug row.slug tenantId none then
    .error .uniqueViolation
  .ok ({ s with categories := s.categories.insert id row }, row)

/-- The properties that are given replace those of the row. -/
def changed (data : CategoryChanges) (row : CategoryRow) : CategoryRow where
  tenantId := row.tenantId
  parentId := data.parentId.getD row.parentId
  name := data.name.getD row.name
  slug := data.slug.getD row.slug
  description := data.description <|> row.description
  sortOrder := data.sortOrder.getD row.sortOrder
  isActive := data.isActive.getD row.isActive

/-- `update` looks at the identifier only. -/
def update (s : Db) (id : Uuid) (data : CategoryChanges) :
    Except DatabaseError (Db × CategoryRow) :=
  match s.categories.lookup id with
  | none => .error .recordNotFound
  | some row => do
    -- a parent that is not set is not checked again
    s.checkParent row.tenantId data.parentId.join
    let row' := changed data row
    if s.existsBySlug row'.slug row'.tenantId (some id) then
      .error .uniqueViolation
    .ok ({ s with categories := s.categories.insert id row' }, row')

/-- The row without its parent, if this is `id`. -/
def orphaned (id : Uuid) (row : CategoryRow) : CategoryRow :=
  if row.parentId = some id then { row with parentId := none } else row

/-- `delete`, with `ON DELETE SET NULL` for the children and `CASCADE` for the products. -/
def delete (s : Db) (id : Uuid) : Except DatabaseError (Db × CategoryRow) :=
  match s.categories.lookup id with
  | none => .error .recordNotFound
  | some row =>
    .ok ({
      categories := (s.categories.erase id).mapRows fun _ => orphaned id
      productCategories := s.productCategories.keep fun _ r => r.categoryId ≠ id }, row)

/-! ### `wouldCreateCycle` -/

/-- `parent?.parentId ?? null` -/
def parentOf (s : Db) (tenantId currentId : Uuid) : Option Uuid :=
  (s.findById currentId tenantId).bind (·.parentId)

/-- The loop on a store that nobody else writes to; `none` when the turns run out. -/
def wouldCreateCycle (s : Db) (categoryId tenantId : Uuid) : ℕ → Option Uuid → Option Bool
  | _, none => some false
  | 0, some _ => none
  | n + 1, some currentId =>
    if currentId = categoryId then some true
    else s.wouldCreateCycle categoryId tenantId n (s.parentOf tenantId currentId)

/-! ### `getTree` -/

/-- A category, as the query returns it. -/
abbrev Entry := Sigma fun _ : Uuid => CategoryRow

/-- The active categories in the order of `sortOrder`. -/
def activeCategories (s : Db) (tenantId : Uuid) : List Entry :=
  (s.categories.entries.filter fun e => e.2.tenantId = tenantId ∧ e.2.isActive = true).mergeSort
    fun a b => a.2.sortOrder ≤ b.2.sortOrder

/-- The nodes with the children they have got, and the roots. -/
structure Nodes where
  categoryMap : Table Uuid (List Entry) := ∅
  roots : List Entry := []

/-- The first loop: a node for every category. -/
def addNode (nodes : Nodes) (cat : Entry) : Nodes :=
  { nodes with categoryMap := nodes.categoryMap.insert cat.1 [] }

/-- The second loop: the node comes below its parent or among the roots. -/
def place (nodes : Nodes) (cat : Entry) : Nodes :=
  match cat.2.parentId with
  | some parentId =>
    match nodes.categoryMap.lookup parentId with
    | some children =>
      { nodes with categoryMap := nodes.categoryMap.insert parentId (children ++ [cat]) }
    | none => { nodes with roots := nodes.roots ++ [cat] }
  | none => { nodes with roots := nodes.roots ++ [cat] }

def Nodes.children (nodes : Nodes) (cat : Entry) : List Entry :=
  (nodes.categoryMap.lookup cat.1).getD []

/-- `getTree`. The nodes refer to each other; they are read from the roots, as deep as there are
categories. -/
def getTree (s : Db) (tenantId : Uuid) : Option (List (RoseTree Entry)) :=
  let categories := s.activeCategories tenantId
  let nodes := categories.foldl place (categories.foldl addNode {})
  nodes.roots.mapM (RoseTree.grow nodes.children categories.length)

/-- Who names whom as the parent. -/
def parents (s : Db) : ParentMap Uuid := fun id => (s.categories.lookup id).map (·.parentId)

end Db

/-! ### The service, statement by statement -/

/-- Where a request is. -/
inductive Phase where
  /-- the first statement comes next -/
  | arrived
  | checkingSlug (slug : String)
  | findingParent (parentId : Uuid)
  /-- `wouldCreateCycle` reads this category next -/
  | climbing (currentId : Uuid)
  | countingChildren
  | countingProducts
  /-- the statement that writes comes next -/
  | writing
  | done (r : Except Failure CategoryRow)

def refused (e : AppError) : Phase := .done (.error (.app e))

/-- The end of a request with the statement that writes. -/
def written (s : Db) : Except DatabaseError (Db × CategoryRow) → Db × Phase
  | .ok (s', row) => (s', .done (.ok row))
  | .error e => (s, .done (.error (.database e)))

/-- `CategoryService.create`. -/
def advanceCreate (tenantId id : Uuid) (data : CategoryData) (s : Db) : Phase → Db × Phase
  | .arrived =>
    if s.existsBySlug data.slug tenantId none then (s, refused categorySlugExists)
    else
      match data.parentId with
      | some parentId => (s, .findingParent parentId)
      | none => (s, .writing)
  | .findingParent parentId =>
    match s.findById parentId tenantId with
    | none => (s, refused parentCategoryNotFound)
    | some _ => (s, .writing)
  | .writing => written s (s.create tenantId id data)
  | phase => (s, phase)

/-- The head of the loop: what comes after `currentId` was set. -/
def climb (id : Uuid) : Option Uuid → Phase
  | none => .writing
  | some currentId => if currentId = id then refused categoryCycleDetected else .climbing currentId

/-- From `if (data.parentId)` on, up to the next statement. -/
def parentChecks (id : Uuid) (data : CategoryChanges) : Phase :=
  match data.parentId.join with
  | none => .writing
  | some parentId =>
    if parentId = id then refused invalidParentCategory else .findingParent parentId

/-- `CategoryService.update`. -/
def advanceUpdate (id tenantId : Uuid) (data : CategoryChanges) (s : Db) : Phase → Db × Phase
  | .arrived =>
    match s.findById id tenantId with
    | none => (s, refused categoryNotFound)
    | some _ =>
      match data.slug with
      | some slug => (s, .checkingSlug slug)
      | none => (s, parentChecks id data)
  | .checkingSlug slug =>
    if s.existsBySlug slug tenantId (some id) then (s, refused categorySlugExists)
    else (s, parentChecks id data)
  | .findingParent parentId =>
    match s.findById parentId tenantId with
    | none => (s, refused parentCategoryNotFound)
    | some _ => (s, climb id (some parentId))
  | .climbing currentId => (s, climb id (s.parentOf tenantId currentId))
  | .writing => written s (s.update id data)
  | phase => (s, phase)

/-- `CategoryService.delete`. -/
def advanceDelete (id tenantId : Uuid) (s : Db) : Phase → Db × Phase
  | .arrived =>
    match s.findById id tenantId with
    | none => (s, refused categoryNotFound)
    | some _ => (s, .countingChildren)
  | .countingChildren =>
    if s.hasChildren id tenantId then (s, refused categoryHasChildren)
    else (s, .countingProducts)
  | .countingProducts =>
    if s.hasProducts id tenantId then (s, refused categoryHasProducts) else (s, .writing)
  | .writing => written s (s.delete id)
  | phase => (s, phase)

/-- The next turn of a request. -/
def advance : Request → Db → Phase → Db × Phase
  | .create tenantId id data => advanceCreate tenantId id data
  | .update id tenantId data => advanceUpdate id tenantId data
  | .delete id tenantId => advanceDelete id tenantId

/-- Nobody has started yet. -/
def start (requests : List Request) (s : Db) : Interleaved Db Phase :=
  ⟨s, requests.map fun _ => .arrived⟩

end PulseOps.Categories
