import PulseOps.Model.CatalogueServices

/-!
# Rules for the requests of the catalogue

What holds after the statements that the services of the catalogue are made of, and when the
checks in front of them pass.

## Main definitions

* `ValuesValid` — attributes that may be set.

## Main results

* `after_inCatalogue_iff`, `after_inCatalogue_bind` — a writing statement of the catalogue.
* `ProductService.after_getById`, `VariantService.after_getById`,
  `ProductImageService.after_getImage` — what the requests look up first.
* `checkOwner_eq_ok`, `forM_eq_ok`, `bind_eq_ok` — checks that pass.
* `checkValues_eq_ok`, `of_setAttributes_ok` — the attributes of a variant.
-/

set_option autoImplicit false

open ReadCommitted Autocommit

namespace PulseOps.Products

open Tenants (Store Service inDb)

variable {c c' : Catalogue} {s : Store} {tenantId id variantId : Uuid} {α : Type}
  {Q : Except Failure α → Store → Prop}

/-! ### Statements -/

/-- A writing statement changes the catalogue or answers an error. -/
theorem after_inCatalogue_iff {Q : Except Failure Unit → Store → Prop}
    {f : Catalogue → Except Failure Catalogue} :
    (inCatalogue f).After Q s ↔
      (∀ c', f s.db.catalogue = .ok c' →
        Q (.ok ()) { s with db := { s.db with catalogue := c' } }) ∧
      ∀ e, f s.db.catalogue = .error e → Q (.error e) s := by
  unfold inCatalogue inDb
  rw [after_write]
  cases hc : f s.db.catalogue <;> simp [hc, Except.map]

theorem after_inCatalogue_bind {f : Catalogue → Except Failure Catalogue}
    {k : Unit → Service α} :
    (inCatalogue f >>= k).After Q s ↔
      (∀ c', f s.db.catalogue = .ok c' →
        (k ()).After Q { s with db := { s.db with catalogue := c' } }) ∧
      ∀ e, f s.db.catalogue = .error e → Q (.error e) s := by
  rw [after_bind, after_inCatalogue_iff]

/-! ### Rows that are looked up -/

/-- The product is found, or the request fails. -/
theorem ProductService.after_getById {f : ProductRow → Service α}
    (hf : ∀ row, s.db.catalogue.findProduct id tenantId = some row → (f row).After Q s)
    (herror : ∀ e, Q (.error e) s) : (ProductService.getById id tenantId >>= f).After Q s := by
  rw [after_bind]
  unfold ProductService.getById
  rw [after_find_bind]
  cases hfound : s.db.catalogue.findProduct id tenantId with
  | none => exact herror _
  | some row => exact hf row hfound

/-- The variant is found and belongs to the product, or the request fails. -/
theorem VariantService.after_getById {productId : Option Uuid} {f : VariantRow → Service α}
    (hf : ∀ row, s.db.catalogue.findVariant variantId tenantId = some row →
      ((truthy productId).all fun p => row.productId = p) = true → (f row).After Q s)
    (herror : ∀ e, Q (.error e) s) :
    (VariantService.getById variantId tenantId productId >>= f).After Q s := by
  rw [after_bind]
  unfold VariantService.getById
  rw [after_find_bind]
  apply After.orFail
  · intro row hrow
    apply After.demand
    · intro hproduct
      exact hf row hrow hproduct
    · exact herror
  · exact herror

/-- The image is found, or the request fails. -/
theorem ProductImageService.after_getImage {productId : Option Uuid} {f : ImageRow → Service α}
    (hf : ∀ row, s.db.catalogue.findImage id tenantId = some row → (f row).After Q s)
    (herror : ∀ e, Q (.error e) s) :
    (ProductImageService.getImage id tenantId productId >>= f).After Q s := by
  rw [after_bind]
  unfold ProductImageService.getImage
  rw [after_find_bind]
  apply After.orFail
  · intro row hrow
    apply After.demand
    · intro _
      exact hf row hrow
    · exact herror
  · exact herror

/-! ### Checks -/

theorem checkOwner_eq_ok {owner : Option Uuid} {u : Unit} :
    checkOwner owner tenantId = .ok u ↔ owner = some tenantId := by
  unfold checkOwner
  cases owner with
  | none => simp
  | some t => by_cases ht : t = tenantId <;> simp [ht]

/-- A loop of checks passes if each of them does. -/
theorem forM_eq_ok {ε α : Type} {f : α → Except ε PUnit} {xs : List α} {u : PUnit} :
    forM xs f = .ok u ↔ ∀ x ∈ xs, f x = .ok ⟨⟩ := by
  induction xs with
  | nil => simp [pure, Except.pure]
  | cons x xs ih =>
    rw [List.forM_cons, List.forall_mem_cons, ← ih]
    cases f x <;> simp [bind, Except.bind]

/-- A first part that has succeeded. -/
theorem bind_eq_ok {ε α β : Type} {x : Except ε α} {f : α → Except ε β} {b : β} :
    (x >>= f) = .ok b ↔ ∃ a, x = .ok a ∧ f a = .ok b := by
  cases x <;> simp [bind, Except.bind]

/-! ### The attributes of a variant -/

variable {isNumber : String → Bool} {attributes : List AttributeInput}

/-- The attributes are of definitions of the tenant, and their values are of these types. -/
def ValuesValid (isNumber : String → Bool) (tenantId : Uuid) (attributes : List AttributeInput)
    (c : Catalogue) : Prop :=
  ∀ a ∈ attributes, ∃ d, c.attributeDefinitions.lookup a.attributeDefinitionId = some d ∧
    d.tenantId = tenantId ∧ validateAttributeValue isNumber d.dataType a.value = true

/-- The rows that `setAttributes` leaves. -/
def valuesSet (variantId tenantId : Uuid) (attributes : List AttributeInput) (c : Catalogue) :
    List VariantAttribute :=
  c.variantAttributes.filter
      (fun a => ¬ decide (a.variantId = variantId ∧ a.tenantId = tenantId)) ++
    attributes.map fun a => ⟨a.id, tenantId, variantId, a.attributeDefinitionId, a.value⟩

theorem checkValues_eq_ok {u : Unit} :
    VariantRepository.checkValues isNumber tenantId attributes c = .ok u ↔
      ValuesValid isNumber tenantId attributes c := by
  unfold VariantRepository.checkValues ValuesValid
  rw [forM_eq_ok]
  apply forall₂_congr
  intro a _
  cases hd : (c.attributeDefinitions.lookup a.attributeDefinitionId) with
  | none => simp
  | some d =>
    by_cases htenant : d.tenantId = tenantId
    · cases hvalue : validateAttributeValue isNumber d.dataType a.value <;>
        simp [Option.filter, htenant, hvalue]
    · simp [Option.filter, htenant]

theorem of_setAttributes_ok
    (h : VariantRepository.setAttributes isNumber variantId tenantId attributes c = .ok c') :
    ValuesValid isNumber tenantId attributes c ∧
      c' = { c with variantAttributes := valuesSet variantId tenantId attributes c } := by
  obtain ⟨_, hvalues, hrest⟩ := bind_eq_ok.mp h
  obtain ⟨_, _, hc'⟩ := bind_eq_ok.mp hrest
  exact ⟨checkValues_eq_ok.mp hvalues, (Except.ok.inj hc').symm⟩

end PulseOps.Products
