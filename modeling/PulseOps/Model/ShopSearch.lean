import PulseOps.Model.Catalog
import PulseOps.Texts.Like

/-!
# Shop search

`likePattern` of `storefront/storefront.catalog.js`, and the filter that `listProducts` makes of
`search`. How the database lower-cases is a parameter: one character after the other, as it does
with the collations of the C library.
-/

set_option autoImplicit false

namespace PulseOps.Catalog

open Like (Lowering)

/-- `likePattern`. -/
def likePattern (text : String) : String :=
  let escaped := text.toList.flatMap fun c => if c ∈ ['\\', '%', '_'] then ['\\', c] else [c]
  String.ofList ('%' :: (escaped ++ ['%']))

/-- `text ILIKE pattern`; `none` is an error. -/
def ilike (L : Lowering) (text pattern : String) : Option Bool :=
  Like.ilike L text.toList pattern.toList

/-- Whether the column is known to match. `NULL` is not. -/
def columnMatches (L : Lowering) (column : Option String) (pattern : String) : Bool :=
  column.any fun text => ilike L text pattern = some true

/-- `p.name ILIKE … OR p.brand ILIKE … OR p.description ILIKE …` -/
def searchFilter (L : Lowering) (search : Option String) (p : ProductRow) : Bool :=
  match search with
  | none => true
  | some search =>
    if search = "" then true
    else
      let pattern := likePattern search
      columnMatches L (some p.name) pattern || columnMatches L p.brand pattern ||
        columnMatches L p.description pattern

end PulseOps.Catalog
