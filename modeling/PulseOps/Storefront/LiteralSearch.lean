import PulseOps.Model.ShopSearch

/-!
# Search is literal

`likePattern` escapes the characters that `ILIKE` would read as wildcards, so that a search finds
the texts that contain it and no others.

## Main results

* `likePattern_literal` — which texts match the pattern of a search.
* `searchFilter_iff` — which products a search finds.
-/

set_option autoImplicit false

namespace PulseOps.Catalog

open Like (Lowering)

/-- The text contains the search, without regard to case. -/
def Contains (L : Lowering) (text search : String) : Prop :=
  L.apply search.toList <:+: L.apply text.toList

instance (L : Lowering) (text search : String) : Decidable (Contains L text search) :=
  inferInstanceAs (Decidable (_ <:+: _))

/-- The pattern is the escaped search between two `%`. -/
theorem toList_likePattern (search : String) :
    (likePattern search).toList = '%' :: (Like.escape search.toList ++ ['%']) := by
  rw [likePattern, String.toList_ofList]
  rfl

/-- **Literal search.** A text matches the pattern exactly when it contains the search; the
pattern is always well-formed. -/
theorem likePattern_literal (L : Lowering) (search text : String) :
    ilike L text (likePattern search) = some (decide (Contains L text search)) := by
  rw [ilike, toList_likePattern]
  exact Like.ilike_surrounded L search.toList text.toList

/-- A percent sign of the search is no wildcard, and the case does not count. -/
theorem likePattern_literal_ascii :
    ilike Like.Lowering.ascii "Shirt, 100% COTTON" (likePattern "0% cotton") = some true ∧
      ilike Like.Lowering.ascii "Shirt, 100 % COTTON" (likePattern "0% cotton") = some false := by
  rw [likePattern_literal, likePattern_literal]
  decide +kernel

/-- A search finds the products that contain it in one of three texts. -/
theorem searchFilter_iff {L : Lowering} {search : String} (hsearch : search ≠ "")
    {p : ProductRow} : searchFilter L (some search) p = true ↔
      Contains L p.name search ∨ (∃ brand, p.brand = some brand ∧ Contains L brand search) ∨
        ∃ description, p.description = some description ∧ Contains L description search := by
  have hcolumn : ∀ column, columnMatches L column (likePattern search) = true ↔
      ∃ text, column = some text ∧ Contains L text search := by
    intro column
    cases column with
    | none => simp [columnMatches]
    | some text =>
      simp [columnMatches, ilike, toList_likePattern, Like.ilike_surrounded, Contains]
  rw [searchFilter, if_neg hsearch]
  simp only [Bool.or_eq_true, hcolumn, or_assoc]
  simp

end PulseOps.Catalog
