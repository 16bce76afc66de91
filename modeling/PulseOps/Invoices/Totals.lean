import Mathlib.Algebra.Order.BigOperators.Group.List
import Mathlib.Tactic.Linarith
import PulseOps.Stock.Requests

/-!
# The amounts of an invoice

`create` rounds the tax of each line to the paisa, splits it into CGST, SGST and IGST with a
second rounding, and adds up the lines in several separate sums. All of this happens in whole
paise before the transaction of the order starts, and the rows are written from it.

With tax-inclusive prices the tax comes out of the price. A tax that the request gives itself is
the exception: it is added on top of the price whether prices include tax or not.

## Main definitions

* `Order.AddsUp` — the amounts of an order agree with each other and with its lines.
* `StoresOrder` — the order and the lines that a run of `create` stored before its callback.
* `markedPrice` — what the lines cost by their prices and discounts.

## Main results

* `invoice_adds_up` — every order adds up, and has one line for each item of the request.
* `inclusive_total_marked` — the order of a tax-inclusive shop costs the marked prices exactly
  when no item of the request gives a tax of its own.
-/

set_option autoImplicit false

open ReadCommitted Program

namespace PulseOps

/-- The amounts of a line agree with each other, and its tax is split as the kind of supply
asks. -/
structure OrderItem.AddsUp (supply : SupplyType) (it : OrderItem) : Prop where
  lineTotal : it.taxableValue + it.tax = it.lineTotal
  split : it.cgst + it.sgst + it.igst = it.tax
  intra : supply = .intra → it.igst = 0 ∧ |it.cgst - it.sgst| ≤ 1
  inter : supply = .inter → it.cgst = 0 ∧ it.sgst = 0

/-- The amounts of an order agree with each other and with its lines. -/
structure Order.AddsUp (o : Order) (items : List OrderItem) : Prop where
  lines : ∀ it ∈ items, it.AddsUp o.supplyType
  taxTotal : o.taxTotal = (items.map (·.tax)).sum
  cgstTotal : o.cgstTotal = (items.map (·.cgst)).sum
  sgstTotal : o.sgstTotal = (items.map (·.sgst)).sum
  igstTotal : o.igstTotal = (items.map (·.igst)).sum
  split : o.taxTotal = o.cgstTotal + o.sgstTotal + o.igstTotal
  total : o.subtotal - o.discountTotal + o.taxTotal + o.shippingTotal = o.total
  lineTotals : o.total = (items.map (·.lineTotal)).sum + o.shippingTotal

/-! ### Lines -/

namespace Gst

theorem splitTax_sum (tax : Cents) (intraState : Bool) :
    (splitTax tax intraState).cgst + (splitTax tax intraState).sgst +
      (splitTax tax intraState).igst = tax := by
  unfold splitTax
  split <;> simp

/-- The odd paisa is the only difference between CGST and SGST. -/
theorem splitTax_intra (tax : ℤ) :
    (splitTax tax true).igst = 0 ∧ |(splitTax tax true).cgst - (splitTax tax true).sgst| ≤ 1 := by
  have hlower : -1 ≤ tax / 2 - (tax - tax / 2) := by omega
  have hupper : tax / 2 - (tax - tax / 2) ≤ 1 := by omega
  exact ⟨rfl, abs_le.mpr ⟨hlower, hupper⟩⟩

end Gst

namespace OrderService

variable {inclusive intraState : Bool} {item : ItemInput} {it : ItemCalculation}
  {tenantId userId orderId : Uuid} {items : List ItemInput}
  {calculations : List ItemCalculation}

/-- The row of a line has the amounts of the line. -/
theorem TaxedItem.addsUp (h : TaxedItem inclusive intraState item it) :
    (orderItemRow tenantId orderId it).AddsUp (if intraState then .intra else .inter) where
  lineTotal := h.lineTotal.symm
  split := by
    change it.split.cgst + it.split.sgst + it.split.igst = it.tax
    rw [h.split]
    exact Gst.splitTax_sum it.tax intraState
  intra := by
    intro hintra
    change it.split.igst = 0 ∧ |it.split.cgst - it.split.sgst| ≤ 1
    rw [h.split]
    cases intraState with
    | false => cases hintra
    | true => exact Gst.splitTax_intra it.tax
  inter := by
    intro hinter
    change it.split.cgst = 0 ∧ it.split.sgst = 0
    rw [h.split]
    cases intraState with
    | false => exact ⟨rfl, rfl⟩
    | true => cases hinter

/-- Tax-inclusive, a line costs the marked price and the tax that the request gives. -/
theorem TaxedItem.lineTotal_inclusive (h : TaxedItem true intraState item it) :
    it.lineTotal = it.unitPrice * it.quantity - it.discount + item.tax.getD 0 := by
  have htax := h.tax
  rw [h.lineTotal]
  cases hgiven : item.tax with
  | none =>
    -- the tax taken out of the price is what was taken from the taxable value
    simp only [hgiven, Gst.lineTax, if_true, Gst.LineTax.mk.injEq] at htax
    rw [← htax.1, ← htax.2]
    simp
  | some tax =>
    simp only [hgiven, Gst.lineTax, Gst.LineTax.mk.injEq] at htax
    rw [← htax.1, ← htax.2]
    rfl

/-! ### Sums over the lines -/

theorem lines_addUp (h : List.Forall₂ (TaxedItem inclusive intraState) items calculations) :
    ∀ it ∈ calculations,
      (orderItemRow tenantId orderId it).AddsUp (if intraState then .intra else .inter) := by
  induction h with
  | nil => exact fun it hit => absurd hit List.not_mem_nil
  | cons hitem _ ih => exact List.forall_mem_cons.mpr ⟨hitem.addsUp, ih⟩

theorem sum_split (h : List.Forall₂ (TaxedItem inclusive intraState) items calculations) :
    (calculations.map (·.tax)).sum = (calculations.map (·.split.cgst)).sum +
      (calculations.map (·.split.sgst)).sum + (calculations.map (·.split.igst)).sum := by
  induction h with
  | nil => rfl
  | cons hitem _ ih =>
    have hsplit := hitem.split ▸ Gst.splitTax_sum _ intraState
    simp only [List.map_cons, List.sum_cons]
    linarith

theorem sum_lineTotal (h : List.Forall₂ (TaxedItem inclusive intraState) items calculations) :
    (calculations.map (·.lineTotal)).sum =
      (calculations.map fun it => it.taxable + it.discount).sum -
        (calculations.map (·.discount)).sum + (calculations.map (·.tax)).sum := by
  induction h with
  | nil => rfl
  | cons hitem _ ih =>
    simp only [List.map_cons, List.sum_cons, hitem.lineTotal]
    linarith

/-- Tax-inclusive, the lines cost the marked prices and the taxes that the request gives. -/
theorem sum_lineTotal_inclusive
    (h : List.Forall₂ (TaxedItem true intraState) items calculations) :
    (calculations.map (·.lineTotal)).sum =
      (calculations.map fun it => it.unitPrice * it.quantity - it.discount).sum +
        (items.map fun item => item.tax.getD 0).sum := by
  induction h with
  | nil => rfl
  | cons hitem _ ih =>
    simp only [List.map_cons, List.sum_cons, hitem.lineTotal_inclusive]
    linarith

/-- Taxes are not negative, so that together they vanish only if each of them does. -/
theorem sum_explicitTax_eq_zero_iff
    (h : List.Forall₂ (TaxedItem inclusive intraState) items calculations) :
    (items.map fun item => item.tax.getD 0).sum = 0 ↔ ∀ item ∈ items, item.tax.getD 0 = 0 := by
  have hnonneg : ∀ tax ∈ items.map fun item => item.tax.getD 0, 0 ≤ tax := by
    induction h with
    | nil => simp
    | cons hitem _ ih =>
      rw [List.map_cons]
      exact List.forall_mem_cons.mpr ⟨hitem.explicitTax, ih⟩
  constructor
  · intro hsum item hitem
    exact List.all_zero_of_le_zero_le_of_sum_eq_zero hnonneg hsum (List.mem_map_of_mem hitem)
  · intro hzero
    refine List.sum_eq_zero fun tax htax => ?_
    obtain ⟨item, hitem, rfl⟩ := List.mem_map.mp htax
    exact hzero item hitem

/-! ### Runs -/

/-- A row sells what an item of the request asked for. -/
structure SoldAs (item : ItemInput) (row : OrderItem) : Prop where
  variant : row.productVariantId = item.resolvedVariantId
  quantity : row.quantity = item.quantity
  discount : row.discount = item.discount.getD 0

/-- A run of `create` that wrote `es` stored the order `order` with the lines `items`, one for
each item of the request, and then ran the callback. -/
structure StoresOrder (answer : Call → Reply) (s : Db) (orderId : Uuid) (body : CreateBody)
    (inTx : Uuid → Order → Sql Unit) (es : List Edit) (order : Order)
    (items : List OrderItem) : Prop where
  sold : List.Forall₂ SoldAs body.items items
  shipping : order.shippingTotal = body.shippingTotal.getD 0
  stored : ∃ es₁ es₂ u, es = es₁ ++ es₂ ∧
    (sales.replay es₁ s).orders.lookup orderId = some order ∧
    (sales.replay es₁ s).orderItems = s.orderItems ++ items ∧
    Runs answer (inTx orderId order) (sales.replay es₁ s) u es₂

variable {answer : Call → Reply} {s : Db} {es : List Edit} {env : Environment}
  {body : CreateBody} {inTx : Uuid → Order → Sql Unit} {r : Option Order}

/-- The rows are written from the draft. -/
theorem runs_create_stores (h : Runs answer (create env tenantId userId orderId body inTx) s r es) :
    ∃ d n, Drafted (Gst.resolveOrderDefaults env tenantId s) body d ∧
      StoresOrder answer s orderId body inTx es (orderRow env tenantId d n)
        (d.items.map (orderItemRow tenantId orderId)) := by
  obtain ⟨d, es₀, _, hd, hplace, rfl⟩ := run_bind.mp h
  have hdrafted := runs_prepare hd
  obtain rfl := (prepare_readsOnly env tenantId body).run_edits hd
  rw [Database.replay_nil] at hplace
  obtain ⟨n, ws, es', u, hws, -, hin, rfl⟩ := runs_place hplace
  refine ⟨d, n, hdrafted, ?_, hdrafted.shipping, _, es', u, rfl, ?_, ?_, hin⟩
  · rw [List.forall₂_map_right_iff]
    exact hdrafted.items.imp fun _ _ hitem => ⟨hitem.variant, hitem.quantity, hitem.discount⟩
  · rw [replay_placedEdits hws]
    exact AList.lookup_insert _
  · rw [replay_placedEdits hws]

theorem Drafted.addsUp {defaults : Gst.OrderDefaults} {d : OrderDraft}
    (h : Drafted defaults body d) (n : ℕ) :
    (orderRow env tenantId d n).AddsUp (d.items.map (orderItemRow tenantId orderId)) where
  lines := by
    intro row hrow
    obtain ⟨it, hit, rfl⟩ := List.mem_map.mp hrow
    exact lines_addUp h.items it hit
  taxTotal := by
    rw [List.map_map]
    rfl
  cgstTotal := by
    rw [List.map_map]
    rfl
  sgstTotal := by
    rw [List.map_map]
    rfl
  igstTotal := by
    rw [List.map_map]
    rfl
  split := sum_split h.items
  total := rfl
  lineTotals := by
    rw [List.map_map]
    exact congrArg (· + d.shippingCents) (sum_lineTotal h.items).symm

/-- In every run of `create` the order it stores adds up. -/
theorem invoice_adds_up
    (h : Runs answer (create env tenantId userId orderId body inTx) s r es) :
    ∃ order items, StoresOrder answer s orderId body inTx es order items ∧
      order.AddsUp items := by
  obtain ⟨d, n, hdrafted, hstores⟩ := runs_create_stores h
  exact ⟨_, _, hstores, hdrafted.addsUp n⟩

end OrderService

namespace Sample

/-- The shop, with prices that include tax. -/
def inclusiveShop : Db :=
  { shop with
    tenantSettings := (∅ : Table Uuid TenantSettings).insert "shop"
      { taxProfile := { pricesIncludeTax := some true } } }

/-- Two shirts, with a tax of 36 paise given in the request. -/
def taxedLine : OrderService.ItemInput := { line "north" 2 with tax := some 36 }

/-- A customer buys the given lines. -/
def purchase (items : List OrderService.ItemInput) : Sql (Option Order) :=
  OrderService.create {} "shop" "user" "order" (body items)

end Sample

namespace OrderService

open Sample

/-- Two lines, one of them with a tax of its own. -/
theorem invoice_adds_up_shop : ∃ r es order items,
    Runs noAnswer (purchase [line "north" 3, taxedLine]) inclusiveShop r es ∧
      StoresOrder noAnswer inclusiveShop "order" (body [line "north" 3, taxedLine])
        (fun _ _ => return ()) es order items ∧ order.AddsUp items := by
  obtain ⟨r, es, h⟩ := exists_runs noAnswer (purchase [line "north" 3, taxedLine]) inclusiveShop
    (by decide +kernel)
  obtain ⟨order, items, hstores, hsum⟩ := invoice_adds_up h
  exact ⟨r, es, order, items, h, hstores, hsum⟩

variable {answer : Call → Reply} {s : Db} {es : List Edit} {env : Environment}
  {tenantId userId orderId : Uuid} {body : CreateBody} {inTx : Uuid → Order → Sql Unit}
  {r : Option Order}

/-- The marked prices of the lines, less their discounts. -/
def markedPrice (items : List OrderItem) : Cents :=
  (items.map fun it => it.unitPrice * it.quantity - it.discount).sum

/-- While the prices of the workspace include tax, the order that a run of `create` stores costs
the marked prices and the shipping exactly when no item of the request gives a tax. -/
theorem inclusive_total_marked
    (hinclusive : (Gst.resolveOrderDefaults env tenantId s).taxProfile.pricesIncludeTax =
      some true)
    (h : Runs answer (create env tenantId userId orderId body inTx) s r es) :
    ∃ order items, StoresOrder answer s orderId body inTx es order items ∧
      (order.total = markedPrice items + order.shippingTotal ↔
        ∀ item ∈ body.items, item.tax.getD 0 = 0) := by
  obtain ⟨d, n, hdrafted, hstores⟩ := runs_create_stores h
  refine ⟨_, _, hstores, ?_⟩
  have hitems := hdrafted.items
  rw [hinclusive, Option.getD_some] at hitems
  have hprice : markedPrice (d.items.map (orderItemRow tenantId orderId)) =
      (d.items.map fun it => it.unitPrice * it.quantity - it.discount).sum := by
    rw [markedPrice, List.map_map]
    rfl
  have hadds : (orderRow env tenantId d n).AddsUp
      (d.items.map (orderItemRow tenantId orderId)) := hdrafted.addsUp n
  rw [← sum_explicitTax_eq_zero_iff hitems, hadds.lineTotals, hprice, List.map_map]
  change (d.items.map (·.lineTotal)).sum + _ = _ ↔ _
  rw [sum_lineTotal_inclusive hitems]
  constructor
  · intro heq
    linarith
  · intro hzero
    rw [hzero, add_zero]

/-- Three shirts at the marked price. -/
theorem inclusive_total_marked_shop : ∃ r es order items,
    Runs noAnswer (purchase [line "north" 3]) inclusiveShop r es ∧
      StoresOrder noAnswer inclusiveShop "order" (Sample.body [line "north" 3])
        (fun _ _ => return ()) es order items ∧
      order.total = markedPrice items + order.shippingTotal := by
  obtain ⟨r, es, h⟩ := exists_runs noAnswer (purchase [line "north" 3]) inclusiveShop
    (by decide +kernel)
  obtain ⟨order, items, hstores, hiff⟩ := inclusive_total_marked (by decide +kernel) h
  exact ⟨r, es, order, items, h, hstores, hiff.mpr (by decide)⟩

/-- Two shirts at 100 paise with a tax of 36 paise given in the request cost 236 paise. -/
theorem marked_price_exceeded :
    ¬ ∀ r es, Runs noAnswer (purchase [taxedLine]) inclusiveShop r es →
      ∃ order items, StoresOrder noAnswer inclusiveShop "order" (Sample.body [taxedLine])
        (fun _ _ => return ()) es order items ∧
        order.total = markedPrice items + order.shippingTotal := by
  intro hclaim
  obtain ⟨r, es, h⟩ := exists_runs noAnswer (purchase [taxedLine]) inclusiveShop
    (by decide +kernel)
  obtain ⟨order, items, hstores, htotal⟩ := hclaim r es h
  obtain ⟨es₁, es₂, u, rfl, horder, hitems, hin⟩ := hstores.stored
  -- the callback writes nothing, so that everything was stored before it
  obtain ⟨-, rfl⟩ := runs_ret.mp hin
  rw [List.append_nil] at h
  rw [← h.after_eq] at horder hitems
  have hcost : (((purchase [taxedLine]).after noAnswer inclusiveShop).orders.lookup "order").map
      (·.total) = some 236 := by decide +kernel
  have hmarked : markedPrice ((purchase [taxedLine]).after noAnswer inclusiveShop).orderItems =
      200 := by decide +kernel
  rw [horder, Option.map_some, htotal, hstores.shipping] at hcost
  rw [hitems] at hmarked
  change markedPrice items = 200 at hmarked
  rw [hmarked] at hcost
  exact absurd hcost (by decide)

end OrderService

end PulseOps
