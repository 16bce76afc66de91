import Mathlib.Algebra.Order.BigOperators.Group.List
import PulseOps.Model.CartView

/-!
# The cart's verdict and the checkout

The cart says that it is ready when every line can be sold and the stock of all warehouses
together covers it. A checkout takes each line from one active warehouse. A line that passes the
second test passes the first; the converse fails for stock that is spread over warehouses, or
lies in inactive ones.

## Main definitions

* `PassesValidation` — a checkout gets past the checks of the cart.
* `OnlyTogether` — every line is covered by all warehouses together, and some line by none alone.

## Main results

* `pickWarehouse_isSome_iff`, `issueOf_eq_none_iff` — the two tests of a line.
* `cart_verdict_iff` — when the verdict agrees with the checkout.
-/

set_option autoImplicit false

open ReadCommitted Program

namespace PulseOps.Cart

/-! ### Lines -/

section Lines

variable {v : Variant} {q : ℕ}

/-- One active warehouse covers the quantity. -/
def CoveredByOne (v : Variant) (q : ℕ) : Prop := ∃ i ∈ v.inventory, i.isActive ∧ q ≤ i.quantity

instance : Decidable (CoveredByOne v q) :=
  inferInstanceAs (Decidable (∃ i ∈ v.inventory, i.isActive ∧ q ≤ i.quantity))

theorem CoveredByOne.le_stockOf (h : CoveredByOne v q) : q ≤ stockOf v := by
  obtain ⟨i, hi, -, hle⟩ := h
  exact hle.trans (List.le_sum_of_mem (List.mem_map_of_mem hi))

theorem pickWarehouse_isSome_iff : (pickWarehouse v q).isSome ↔ CoveredByOne v q := by
  rw [pickWarehouse, Option.isSome_map, List.isSome_head?, ← List.length_pos_iff_ne_nil,
    List.length_pos_iff_exists_mem]
  simp only [List.mem_mergeSort, List.mem_filter, Bool.and_eq_true, decide_eq_true_eq]
  rfl

theorem issueOf_eq_none_iff {v : CatalogVariant} :
    issueOf v q = none ↔ isSellable v = true ∧ q ≤ stockOf v.variant := by
  unfold issueOf
  split_ifs with hsellable hstock
  · simp [hsellable]
  · simp [hsellable, hstock]
  · simp [Bool.not_eq_false _ ▸ hsellable, not_lt.mp hstock]

end Lines

/-! ### Carts -/

variable {store : Catalog.Store} {customerId orderId : Uuid} {catalog : Uuid → CatalogVariant}
  {items : List (ItemKey × CartItem)} {s : Db}

/-- The checkout of the customer, with the catalog that the cart is shown by. -/
def checkoutOf (store : Catalog.Store) (customerId orderId : Uuid)
    (catalog : Uuid → CatalogVariant) : CheckoutRequest where
  storeId := store.id
  customerId := customerId
  orderId := orderId
  catalog := fun id => (catalog id).variant

/-- The checkout gets past the checks of the cart: it throws neither `CART_EMPTY` nor
`CART_NOT_READY`. -/
def PassesValidation (r : CheckoutRequest) (s : Db) : Prop :=
  (readCart r).run (fun c => nomatch c) s ≠ .error (.app cartEmpty) ∧
    (readCart r).run (fun c => nomatch c) s ≠ .error (.app cartNotReady)

/-- The cart is not empty, every line can be sold and is covered by the stock of all warehouses
together, and some line is covered by no active warehouse alone. -/
def OnlyTogether (catalog : Uuid → CatalogVariant) (items : List (ItemKey × CartItem)) : Prop :=
  (∀ x ∈ items, isSellable (catalog x.1.2) = true ∧
    x.2.quantity ≤ stockOf (catalog x.1.2).variant) ∧
  ∃ x ∈ items, ¬ CoveredByOne (catalog x.1.2).variant x.2.quantity

theorem readyForCheckout_iff : (getCart store customerId catalog s).readyForCheckout = true ↔
    findItems store.id customerId s ≠ [] ∧ ∀ x ∈ findItems store.id customerId s,
      isSellable (catalog x.1.2) = true ∧ x.2.quantity ≤ stockOf (catalog x.1.2).variant := by
  simp only [getCart, Bool.and_eq_true, Bool.not_eq_true', List.isEmpty_map, List.all_map,
    List.all_eq_true, Function.comp_apply, cartLine, Option.isNone_iff_eq_none,
    issueOf_eq_none_iff, List.isEmpty_eq_false_iff]

/-- A row becomes a line of the order when it can be sold and one warehouse covers it. -/
theorem orderLine_isSome_iff {x : ItemKey × CartItem} :
    (orderLine (fun id => (catalog id).variant) x).isSome ↔
      isSellable (catalog x.1.2) = true ∧ CoveredByOne (catalog x.1.2).variant x.2.quantity := by
  rw [orderLine, Option.isSome_map]
  change (if isSellable (catalog x.1.2) = true then _ else none : Option Uuid).isSome ↔ _
  by_cases hsellable : isSellable (catalog x.1.2) = true
  · rw [if_pos hsellable, pickWarehouse_isSome_iff]
    exact (and_iff_right hsellable).symm
  · rw [if_neg hsellable]
    simp [hsellable]

theorem isSome_mapM_iff {α β : Type} {f : α → Option β} {xs : List α} :
    (xs.mapM f).isSome ↔ ∀ x ∈ xs, (f x).isSome := by
  induction xs with
  | nil => simp
  | cons x xs ih =>
    rw [List.mapM_cons, List.forall_mem_cons, ← ih]
    cases hx : f x with
    | none => simp
    | some y => cases hxs : xs.mapM f <;> simp

theorem run_readCart (r : CheckoutRequest) (s : Db) (answer : Call → Unit) :
    (readCart r).run answer s =
      if findItems r.storeId r.customerId s = [] then .error (.app cartEmpty)
      else match (findItems r.storeId r.customerId s).mapM (orderLine r.catalog) with
        | none => .error (.app cartNotReady)
        | some lines => .ok (.place r lines, []) := by
  change ((ensure (findItems r.storeId r.customerId s ≠ []) cartEmpty >>= fun _ =>
    orThrow ((findItems r.storeId r.customerId s).mapM (orderLine r.catalog)) cartNotReady >>=
      fun lines => pure (CartPoint.place r lines)).run answer s) = _
  by_cases hitems : findItems r.storeId r.customerId s = []
  · rw [if_pos hitems, ensure, require, if_neg (not_not.mpr hitems)]
    rfl
  · rw [if_neg hitems, ensure, require, if_pos hitems]
    cases (findItems r.storeId r.customerId s).mapM (orderLine r.catalog) <;> rfl

theorem passesValidation_iff :
    PassesValidation (checkoutOf store customerId orderId catalog) s ↔
      findItems store.id customerId s ≠ [] ∧ ∀ x ∈ findItems store.id customerId s,
        isSellable (catalog x.1.2) = true ∧
          CoveredByOne (catalog x.1.2).variant x.2.quantity := by
  have hlines : ((findItems store.id customerId s).mapM
      (orderLine fun id => (catalog id).variant)).isSome ↔ ∀ x ∈ findItems store.id customerId s,
        isSellable (catalog x.1.2) = true ∧
          CoveredByOne (catalog x.1.2).variant x.2.quantity := by
    rw [isSome_mapM_iff]
    exact forall₂_congr fun x _ => orderLine_isSome_iff
  rw [← hlines, PassesValidation, run_readCart]
  change (if findItems store.id customerId s = [] then _ else _) ≠ _ ∧ _ ↔ _
  by_cases hitems : findItems store.id customerId s = []
  · simp [hitems]
  · cases hmap : (findItems store.id customerId s).mapM
        (orderLine fun id => (catalog id).variant) with
    | none => simp [checkoutOf, hitems, hmap]
    | some lines => simp [checkoutOf, hitems, hmap]

/-- The cart is ready for checkout exactly when a checkout gets past the checks of the cart,
unless all warehouses together cover every line and some line is covered by none alone. -/
theorem cart_verdict_iff :
    ((getCart store customerId catalog s).readyForCheckout = true ↔
      PassesValidation (checkoutOf store customerId orderId catalog) s) ↔
      ¬ OnlyTogether catalog (findItems store.id customerId s) := by
  rw [readyForCheckout_iff, passesValidation_iff]
  constructor
  · intro hverdict ⟨hready, x, hx, halone⟩
    have hpasses := hverdict.mp ⟨List.ne_nil_of_mem hx, hready⟩
    exact halone (hpasses.2 x hx).2
  · intro htogether
    constructor
    · intro ⟨hitems, hready⟩
      refine ⟨hitems, fun x hx => ⟨(hready x hx).1, ?_⟩⟩
      by_contra halone
      exact htogether ⟨hready, x, hx, halone⟩
    · intro ⟨hitems, hcovered⟩
      exact ⟨hitems, fun x hx => ⟨(hcovered x hx).1, (hcovered x hx).2.le_stockOf⟩⟩

/-! ### A spread stock -/

namespace Sample

/-- Three lamps in the north and three in the south. -/
def lamps : CatalogVariant :=
  { status := .active
    productId := "lamp"
    productName := "Lamp"
    productStatus := .active
    sku := "LAMP"
    price := 129900
    inventory := [⟨"north", 3, true, true⟩, ⟨"south", 3, true, false⟩] }

/-- Five lamps in the cart. -/
def fiveLamps : Db :=
  { cartItems := (∅ : Table ItemKey CartItem).insert ("shopper", "lamps") ⟨"shop", 5, 0⟩ }

end Sample

open Cart.Sample

/-- Six lamps cover five, and no warehouse has them: the cart is ready, and the checkout throws
`CART_NOT_READY`. -/
theorem ready_cart_refused :
    (getCart ⟨"shop", "INR"⟩ "shopper" (fun _ => lamps) fiveLamps).readyForCheckout = true ∧
      ¬ PassesValidation (checkoutOf ⟨"shop", "INR"⟩ "shopper" "order" fun _ => lamps)
        fiveLamps := by
  rw [readyForCheckout_iff, passesValidation_iff]
  decide +kernel

end PulseOps.Cart
