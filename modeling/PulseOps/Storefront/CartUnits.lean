import PulseOps.Storefront.CartRuns

/-!
# What becomes of the units of a cart

Two checkouts that have read the same rows order them twice, and a row that is put into the
cart after a checkout has read it is deleted without having been ordered. Where the checkouts
of a customer do not overlap so, and nothing is put into the cart between the reading and the
deletion, every unit is ordered once at most, and leaves the cart for a reason.

## Main definitions

* `placedAt`, `clearedAt`, `filledAt` — what the turns of a schedule do.
* `CheckoutsApart`, `NothingPutSince` — the two conditions on a run.

## Main results

* `CommitsAt.fresh` — the id of an order that is being placed is not taken.
* `gone_of_cleared` — after its deletion nothing is left of what a checkout has read.
* `once_of_moment` — no unit is in two orders.
* `cart_unitsKept` — no unit is ordered twice or lost.
* `cart_ordersTwiceOrLoses` — what happens otherwise.
-/

set_option autoImplicit false

open ReadCommitted Program

namespace PulseOps.Cart

/-- Whether the order has a line with the units of this request. -/
def Order.has (order : Order) (put : ℕ) : Bool := order.lines.any (·.put = put)

/-! ### Conditions on a run -/

/-- The session and the customer, if the turn `m` commits an order. -/
def placedAt (requests : List CartRequest) (us : List (Turn carts)) (m : ℕ) : Option (ℕ × Uuid) :=
  (editsAt requests us m).bind fun z => z.2.findSome? fun
    | .orderInsert _ order => some (z.1, order.customerId)
    | _ => none

/-- The session, if the turn `m` commits the deletion of a checkout. -/
def clearedAt (requests : List CartRequest) (us : List (Turn carts)) (m : ℕ) : Option ℕ :=
  (editsAt requests us m).bind fun z => z.2.findSome? fun
    | .cartItemsDelete _ (some _) => some z.1
    | _ => none

/-- The customer, if the turn `m` commits units that are put into the cart. -/
def filledAt (requests : List CartRequest) (us : List (Turn carts)) (m : ℕ) : Option Uuid :=
  (editsAt requests us m).bind fun z => z.2.findSome? fun
    | .cartItemSet key _ => some key.1
    | _ => none

/-- The customer of a checkout. -/
def customerOf (requests : List CartRequest) (i : ℕ) : Option Uuid :=
  requests[i]?.bind fun
    | .checkout r => some r.customerId
    | _ => none

/-- Before the turn `k` the checkout `i` has committed its deletion. -/
def ClearedBefore (requests : List CartRequest) (us : List (Turn carts)) (i k : ℕ) : Prop :=
  ∃ d < k, clearedAt requests us d = some i

/-- When a checkout commits its order, the checkouts of the customer that have committed theirs
had committed their deletions before this one read the cart. -/
def CheckoutsApart (requests : List CartRequest) (us : List (Turn carts)) : Prop :=
  ∀ m < us.length, ∀ p ∈ placedAt requests us m, ∀ l < m, ∀ p' ∈ placedAt requests us l,
    p'.2 = p.2 → ∀ k ∈ readAt us p.1, ClearedBefore requests us p'.1 k

/-- Between the turns `k` and `d` nothing is put into the cart of the checkout `i`. -/
def NothingPutBetween (requests : List CartRequest) (us : List (Turn carts)) (i k d : ℕ) : Prop :=
  ∀ l < d, k < l → filledAt requests us l ≠ customerOf requests i

/-- Between the reading of a checkout and its `DELETE`, the second statement of its last
transaction, nothing is put into the cart. -/
def NothingPutSince (requests : List CartRequest) (us : List (Turn carts)) : Prop :=
  ∀ m < us.length, ∀ i ∈ clearedAt requests us m, ∀ k ∈ readAt us i,
    ∀ d ∈ (cartMachine.turns us i m)[1]?, NothingPutBetween requests us i k d

instance (requests : List CartRequest) (us : List (Turn carts)) (i k : ℕ) :
    Decidable (ClearedBefore requests us i k) := by
  unfold ClearedBefore
  infer_instance

instance (requests : List CartRequest) (us : List (Turn carts)) :
    Decidable (CheckoutsApart requests us) := by
  unfold CheckoutsApart
  infer_instance

instance (requests : List CartRequest) (us : List (Turn carts)) (i k d : ℕ) :
    Decidable (NothingPutBetween requests us i k d) := by
  unfold NothingPutBetween
  infer_instance

instance (requests : List CartRequest) (us : List (Turn carts)) :
    Decidable (NothingPutSince requests us) := by
  unfold NothingPutSince
  infer_instance

section Units

variable {requests : List CartRequest} {us : List (Turn carts)} {s : Db} {i j k l m : ℕ}
  {r : CheckoutRequest} {lines : List OrderLine} {pt a : CartPoint}
  {x x' y : Service carts CartPoint} {u : Turn carts} {t : Transaction carts}
  {key : ItemKey} {row : CartItem} {put : ℕ} {id : Uuid} {order : Order}

/-! ### The orders -/

theorem Order.has_iff {order : Order} {put : ℕ} :
    order.has put = true ↔ ∃ line ∈ order.lines, line.put = put := by
  simp [Order.has]

/-- What a transaction has locked is, when it commits, as its last statement has seen it. -/
theorem CommitsAt.same_of_held {τ : Type} (h : CommitsAt requests us m i pt a t x)
    (hx : cartMoment requests us m = some x) (f : Db → τ) {held : Key} {e : Edit}
    (he : e ∈ t.edits) (hheld : held ∈ e.footprint)
    (hsee : ∀ (e : Edit) (s : Db), held ∉ e.footprint → f (s.apply e) = f s)
    (hlast : (cartMachine.turns us i m).getLast? = some k)
    (hy : cartMoment requests us k = some y) : f y.committed = f x.committed := by
  have hmem : held ∈ t.held :=
    cartMachine.footprint_held Service.fresh_start hx h.ended he hheld
  obtain ⟨y', hy', hsame⟩ := cartMachine.same_of_held f hsee Service.fresh_start
    (fun l y hy => (Service.serves_moment hy).locksDisjoint) hx h.ended hlast hmem
  obtain rfl := Option.some.inj (hy.symm.trans hy')
  exact hsame

/-- The id of an order that is being placed is not taken: its row is held since the check. -/
theorem CommitsAt.fresh (h : CommitsAt requests us m i (.place r lines) a t x)
    (hx : cartMoment requests us m = some x) : x.committed.orders.lookup r.orderId = none := by
  obtain ⟨p, ss, hp, hfinishes, hss⟩ := h.finished
  cases hp
  obtain ⟨s, rfl, -, hnone, hedits⟩ := finishes_placeOrder hfinishes
  obtain ⟨k, y, hk, hy, rfl⟩ := cartMachine.exists_turn hss (n := 0) rfl
  have hlast : (cartMachine.turns us i m).getLast? = some k := by
    have hlength := congrArg List.length hss
    rw [List.length_map] at hlength
    rw [List.getLast?_eq_getElem?, hlength]
    exact hk
  have hsee : ∀ (e : Edit) (s : Db), Key.order r.orderId ∉ e.footprint →
      (s.apply e).orders.lookup r.orderId = s.orders.lookup r.orderId := by
    intro e s he
    cases e with
    | orderInsert id row =>
      refine AList.lookup_insert_ne fun heq => he ?_
      rw [heq]
      exact List.mem_singleton_self _
    | _ => rfl
  exact (h.same_of_held hx (fun s => s.orders.lookup r.orderId) (hedits ▸ List.mem_cons_self)
    (List.mem_singleton_self _) hsee hlast hy).symm.trans hnone

/-- An order that is there after a commit was there before, or is the one that is placed. -/
theorem CommitsAt.lookup (h : CommitsAt requests us m i pt a t x)
    (horder : (t.view x.committed).orders.lookup id = some order) :
    x.committed.orders.lookup id = some order ∨ ∃ r lines, pt = .place r lines ∧
      id = r.orderId ∧ order = ⟨r.storeId, r.customerId, lines⟩ ∧
      t.edits = [.orderInsert r.orderId ⟨r.storeId, r.customerId, lines⟩] := by
  have hwork := h.work
  generalize hedits : t.edits = es at hwork
  rw [Transaction.view, hedits] at horder
  cases hwork with
  | @placed r lines =>
    by_cases hid : id = r.orderId
    · subst hid
      obtain rfl := Option.some.inj ((AList.lookup_insert _).symm.trans horder)
      exact .inr ⟨r, lines, rfl, rfl, rfl, rfl⟩
    · exact .inl ((AList.lookup_insert_ne hid).symm.trans horder)
  | _ => exact .inl horder

/-- An order stays. -/
theorem order_kept (hl : cartMoment requests us l = some y)
    (horder : y.committed.orders.lookup id = some order) (hlm : l ≤ m)
    (hm : cartMoment requests us m = some x) : x.committed.orders.lookup id = some order := by
  refine moment_induction_from (m := m) (P := fun _ (x : Service carts CartPoint) =>
    x.committed.orders.lookup id = some order) hl horder
    (fun k x u x' _ _ hx hu hstep ih => ?_) hlm hm
  rcases commits_of_turn hx hu hstep with ⟨hsame, -⟩ | ⟨pt, a, t, hcommits, rfl⟩
  · rw [hsame]
    exact ih
  · have hwork := hcommits.work
    change (carts.replay t.edits x.committed).orders.lookup id = some order
    generalize hedits : t.edits = es at hwork
    cases hwork with
    | @placed r lines =>
      have hne : id ≠ r.orderId := by
        rintro rfl
        rw [hcommits.fresh hx] at ih
        cases ih
      exact (AList.lookup_insert_ne hne).trans ih
    | _ => exact ih

/-- Every order has been placed by a checkout. -/
theorem placedBy_of_moment (hm : cartMoment requests us m = some x)
    (horder : x.committed.orders.lookup id = some order) :
    ∃ j r lines, PlacedBy requests us m j r lines ∧ id = r.orderId ∧
      order = ⟨r.storeId, r.customerId, lines⟩ := by
  refine moment_induction (P := fun m (x : Service carts CartPoint) =>
    ∀ id order, x.committed.orders.lookup id = some order →
      ∃ j r lines, PlacedBy requests us m j r lines ∧ id = r.orderId ∧
        order = ⟨r.storeId, r.customerId, lines⟩)
    (by rintro _ _ ⟨⟩) (fun k x u x' hx hu hstep ih id order horder => ?_) hm id order horder
  have hbefore (horder : x.committed.orders.lookup id = some order) :
      ∃ j r lines, PlacedBy requests us (k + 1) j r lines ∧ id = r.orderId ∧
        order = ⟨r.storeId, r.customerId, lines⟩ := by
    obtain ⟨j, r, lines, hplaced, heq⟩ := ih id order horder
    exact ⟨j, r, lines, hplaced.mono (Nat.le_succ k), heq⟩
  rcases commits_of_turn hx hu hstep with ⟨hsame, -⟩ | ⟨pt, a, t, hcommits, rfl⟩
  · exact hbefore (hsame ▸ horder)
  · rcases hcommits.lookup horder with horder | ⟨r, lines, rfl, rfl, rfl, hedits⟩
    · exact hbefore horder
    · refine ⟨_, r, lines, ⟨ReadBy.mono hcommits.opened.known (Nat.le_succ k), k,
        Nat.lt_succ_self k, ?_⟩, rfl, rfl⟩
      rw [hcommits.edits, hedits]

/-- The order of a checkout that has placed it is there. -/
theorem PlacedBy.lookup (h : PlacedBy requests us m i r lines)
    (hm : cartMoment requests us m = some x) :
    x.committed.orders.lookup r.orderId = some ⟨r.storeId, r.customerId, lines⟩ := by
  obtain ⟨l, hlm, hedits⟩ := h.placed
  obtain ⟨y', hy'⟩ := exists_moment hm hlm
  obtain ⟨y, u, hy, hu, hstep⟩ := exists_of_moment_succ hy'
  rcases commits_of_turn hy hu hstep with ⟨-, hnone⟩ | ⟨pt, a, t, hcommits, rfl⟩
  · rw [hnone] at hedits
    cases hedits
  · obtain ⟨-, hes⟩ := Prod.mk.inj (Option.some.inj (hcommits.edits.symm.trans hedits))
    refine order_kept hy' ?_ hlm hm
    change (carts.replay t.edits y.committed).orders.lookup r.orderId = _
    rw [hes]
    exact AList.lookup_insert _

/-! ### What a checkout has read -/

/-- The lines of an order are the rows it was made from. -/
theorem mapM_orderLine {catalog : Uuid → Variant} {items : List (ItemKey × CartItem)}
    (h : items.mapM (orderLine catalog) = some lines) :
    lines.map (fun line => (line.productVariantId, line.quantity, line.put)) =
      items.map fun x => (x.1.2, x.2.quantity, x.2.put) := by
  induction items generalizing lines with
  | nil =>
    obtain rfl : [] = lines := Option.some.inj h
    rfl
  | cons x items ih =>
    rw [List.mapM_cons] at h
    obtain ⟨line, hline, h⟩ := Option.bind_eq_some_iff.mp h
    obtain ⟨rest, hrest, h⟩ := Option.bind_eq_some_iff.mp h
    obtain rfl : line :: rest = lines := Option.some.inj h
    obtain ⟨warehouseId, -, rfl⟩ := Option.map_eq_some_iff.mp hline
    rw [List.map_cons, List.map_cons, ih hrest]

/-- The rows of a customer are rows of different variants. -/
theorem findItems_nodup (storeId customerId : Uuid) (s : Db) :
    ((findItems storeId customerId s).map fun x => x.1.2).Nodup := by
  unfold findItems
  rw [List.map_map]
  have hkeys : ((s.cartItems.entries.filter fun x =>
      x.1.1 = customerId ∧ x.2.tenantId = storeId).map Sigma.fst).Nodup :=
    List.Nodup.sublist (List.filter_sublist.map _) s.cartItems.nodupKeys
  have hvariants : (((s.cartItems.entries.filter fun x =>
      x.1.1 = customerId ∧ x.2.tenantId = storeId).map Sigma.fst).map Prod.snd).Nodup := by
    refine hkeys.map_on fun key hkey key' hkey' heq => ?_
    obtain ⟨x, hx, rfl⟩ := List.mem_map.mp hkey
    obtain ⟨x', hx', rfl⟩ := List.mem_map.mp hkey'
    have hx := (of_decide_eq_true (List.mem_filter.mp hx).2).1
    have hx' := (of_decide_eq_true (List.mem_filter.mp hx').2).1
    exact Prod.ext (hx.trans hx'.symm) heq
  rw [List.map_map] at hvariants
  exact hvariants

/-- A line of an order is a row that its checkout has read, which its customer had put there. -/
theorem ReadBy.line (h : ReadBy requests us m i r lines) {line : OrderLine} (hline : line ∈ lines) :
    ∃ k y key row, readAt us i = some k ∧ k < m ∧ cartMoment requests us k = some y ∧
      y.committed.cartItems.lookup key = some row ∧ key.1 = r.customerId ∧
      row.tenantId = r.storeId ∧ row.put = line.put ∧
      FromPut requests r.customerId line.productVariantId line.quantity line.put := by
  obtain ⟨k, y, hk, hkm, hy, -, hlines⟩ := h.read
  have hmem := List.mem_map_of_mem (f := fun line : OrderLine =>
    (line.productVariantId, line.quantity, line.put)) hline
  rw [mapM_orderLine hlines] at hmem
  obtain ⟨⟨key, row⟩, hx, heq⟩ := List.mem_map.mp hmem
  obtain ⟨hvariant, heq⟩ := Prod.mk.inj heq
  obtain ⟨hquantity, hput⟩ := Prod.mk.inj heq
  obtain ⟨hlookup, hcustomer, hstore⟩ := mem_findItems.mp hx
  have hfrom := (items_of_moment hy hlookup).1
  refine ⟨k, y, key, row, hk, hkm, hy, hlookup, hcustomer, hstore, hput, ?_⟩
  rw [← hcustomer, ← hvariant, ← hquantity, ← hput]
  exact hfrom

theorem ReadBy.distinct (h : ReadBy requests us m i r lines) :
    (lines.map OrderLine.productVariantId).Nodup := by
  obtain ⟨k, y, -, -, -, -, hlines⟩ := h.read
  have hvariants := congrArg (List.map Prod.fst) (mapM_orderLine hlines)
  rw [List.map_map, List.map_map] at hvariants
  have hsame : lines.map OrderLine.productVariantId =
      (findItems r.storeId r.customerId y.committed).map fun x => x.1.2 := hvariants
  rw [hsame]
  exact findItems_nodup _ _ _

/-! ### The deletion of a checkout -/

/-- What the two statements of the deletion have seen, and what it deletes. -/
theorem CommitsAt.deletion (h : CommitsAt requests us m i (.clear r) a t x) :
    ∃ k₀ k₁ y₀ y₁, cartMachine.turns us i m = [k₀, k₁] ∧ cartMoment requests us k₀ = some y₀ ∧
      cartMoment requests us k₁ = some y₁ ∧
      t.edits = [.cartItemsDelete (((findItems r.storeId r.customerId y₀.committed).map
        (·.1)).filter fun key => (y₁.committed.cartItems.lookup key).any (·.tenantId = r.storeId))
        (some r.orderId)] := by
  obtain ⟨p, ss, hp, hfinishes, hss⟩ := h.finished
  cases hp
  obtain ⟨s₀, s₁, rfl, -, hedits⟩ := finishes_deleteItems.mp hfinishes
  obtain ⟨k₀, y₀, hk₀, hy₀, rfl⟩ := cartMachine.exists_turn hss (n := 0) rfl
  obtain ⟨k₁, y₁, hk₁, hy₁, rfl⟩ := cartMachine.exists_turn hss (n := 1) rfl
  have hlength := congrArg List.length hss
  rw [List.length_map] at hlength
  obtain ⟨k, k', hks⟩ := List.length_eq_two.mp hlength
  rw [hks] at hk₀ hk₁
  obtain rfl := Option.some.inj hk₀
  obtain rfl := Option.some.inj hk₁
  exact ⟨k, k', y₀, y₁, hks, hy₀, hy₁, hedits⟩

/-- The session that commits the deletion of a checkout. -/
theorem commitsAt_of_cleared (hx : cartMoment requests us m = some x) (hu : us[m]? = some u)
    (hstep : cartMachine.step x u = some x') (hcleared : clearedAt requests us m = some j) :
    ∃ r a t, CommitsAt requests us m j (.clear r) a t x ∧ x' = x.commit j a t := by
  rcases commits_of_turn hx hu hstep with ⟨-, hnone⟩ | ⟨pt, a, t, hcommits, rfl⟩
  · rw [clearedAt, hnone] at hcleared
    cases hcleared
  · rw [clearedAt, hcommits.edits, Option.bind_some] at hcleared
    have hwork := hcommits.work
    generalize hedits : t.edits = es at hwork
    rw [hedits] at hcleared
    cases hwork with
    | @cleared r keys hkeys =>
      obtain rfl : u.session = j := Option.some.inj hcleared
      exact ⟨r, _, t, hcommits, rfl⟩
    | _ => cases hcleared

/-- A session reads the cart before it does anything else. -/
theorem readAt_le (hk : readAt us i = some k) (hl : IsOwn us i l) : k ≤ l := by
  obtain ⟨hlt, -, hfirst⟩ := List.findIdx?_eq_some_iff_getElem.mp hk
  by_contra hlk
  obtain ⟨u, hu, hsession, hresumes⟩ := hl
  obtain ⟨hlt', rfl⟩ := List.getElem?_eq_some_iff.mp hu
  exact hfirst l (Nat.lt_of_not_le hlk) (by simp [hsession, hresumes])

theorem readAt_lt_of_cleared {d : ℕ} (hm : cartMoment requests us m = some x) (hdm : d < m)
    (hcleared : clearedAt requests us d = some j) (hk : readAt us j = some k) : k < d := by
  obtain ⟨x₁, hx₁⟩ := exists_moment hm hdm
  obtain ⟨x₀, u, hx₀, hu, hstep⟩ := exists_of_moment_succ hx₁
  obtain ⟨r, a, t, hcommits, -⟩ := commitsAt_of_cleared hx₀ hu hstep hcleared
  obtain ⟨k₀, k₁, -, -, hturns, -⟩ := hcommits.deletion
  have hmem : k₀ ∈ cartMachine.turns us j d := hturns ▸ List.mem_cons_self
  obtain ⟨v, hv, hsession, hresumes⟩ := Machine.session_of_mem_turns hmem
  exact (readAt_le hk ⟨v, hv, hsession, hresumes⟩).trans_lt (Machine.lt_of_mem_turns hmem)

/-- After its deletion nothing is left of what a checkout has read. -/
theorem gone_of_cleared {d : ℕ} (hcleared : clearedAt requests us d = some j)
    (hrequest : requests[j]? = some (.checkout r)) (hk : readAt us j = some k)
    (hy : cartMoment requests us k = some y)
    (hrow : y.committed.cartItems.lookup key = some row) (hcustomer : key.1 = r.customerId)
    (hstore : row.tenantId = r.storeId) (hdm : d < m) (hm : cartMoment requests us m = some x) :
    x.committed.cartItems.lookup key ≠ some row := by
  have hfinished := (items_of_moment hy hrow).2
  obtain ⟨x₁, hx₁⟩ := exists_moment hm hdm
  obtain ⟨x₀, u, hx₀, hu, hstep⟩ := exists_of_moment_succ hx₁
  obtain ⟨r', a, t, hcommits, rfl⟩ := commitsAt_of_cleared hx₀ hu hstep hcleared
  obtain ⟨k₀, k₁, y₀, y₁, hturns, hy₀, hy₁, hedits⟩ := hcommits.deletion
  obtain ⟨lines, hplaced⟩ : ∃ lines, PlacedBy requests us d j r' lines := hcommits.opened.known
  obtain rfl : r' = r := by
    have heq := hplaced.request.symm.trans hrequest
    cases heq
    rfl
  have hown {l : ℕ} (hl : l ∈ cartMachine.turns us j d) : k ≤ l ∧ l < d := by
    obtain ⟨v, hv, hsession, hresumes⟩ := Machine.session_of_mem_turns hl
    exact ⟨readAt_le hk ⟨v, hv, hsession, hresumes⟩, Machine.lt_of_mem_turns hl⟩
  obtain ⟨hk₀, hk₀d⟩ := hown (hturns ▸ List.mem_cons_self : k₀ ∈ _)
  obtain ⟨hk₁, hk₁d⟩ := hown (hturns ▸ List.mem_cons_of_mem _ List.mem_cons_self : k₁ ∈ _)
  -- the deletion finds the row, unless it has left the cart before
  by_contra hleft
  have hthere {l : ℕ} {y' : Service carts CartPoint} (hkl : k ≤ l) (hlm : l ≤ m)
      (hy' : cartMoment requests us l = some y') :
      y'.committed.cartItems.lookup key = some row := by
    by_contra hgone
    exact row_gone hy' (hfinished.stays hy hkl hy') hgone hlm hm hleft
  have hafter := hthere (Nat.le_succ_of_le (hk₀.trans hk₀d.le)) hdm hx₁
  have hview : (carts.replay t.edits x₀.committed).cartItems.lookup key = some row := hafter
  rw [hedits] at hview
  have hkey : key ∈ ((findItems r'.storeId r'.customerId y₀.committed).map (·.1)).filter
      fun key => (y₁.committed.cartItems.lookup key).any (·.tenantId = r'.storeId) := by
    refine List.mem_filter.mpr ⟨List.mem_map.mpr ⟨(key, row), mem_findItems.mpr
      ⟨hthere hk₀ (hk₀d.le.trans hdm.le) hy₀, hcustomer, hstore⟩, rfl⟩, ?_⟩
    rw [hthere hk₁ (hk₁d.le.trans hdm.le) hy₁]
    exact decide_eq_true hstore
  have hnone := (AList.lookup_foldl_erase _ x₀.committed.cartItems key).symm.trans hview
  rw [if_pos hkey] at hnone
  cases hnone

/-- The row that a deletion takes out of the cart was there at its `DELETE`. -/
theorem CommitsAt.row_of_deleted (h : CommitsAt requests us m i (.clear r) a t x)
    (hx : cartMoment requests us m = some x)
    (hrow : x.committed.cartItems.lookup key = some row)
    (hgone : (t.view x.committed).cartItems.lookup key ≠ some row) :
    ∃ d y, (cartMachine.turns us i m)[1]? = some d ∧ cartMoment requests us d = some y ∧
      y.committed.cartItems.lookup key = some row ∧ key.1 = r.customerId ∧
      row.tenantId = r.storeId := by
  obtain ⟨k₀, k₁, y₀, y₁, hturns, -, hy₁, hedits⟩ := h.deletion
  have hkey : key ∈ ((findItems r.storeId r.customerId y₀.committed).map (·.1)).filter
      fun key => (y₁.committed.cartItems.lookup key).any (·.tenantId = r.storeId) := by
    by_contra hnot
    refine hgone ?_
    rw [Transaction.view, hedits]
    refine (AList.lookup_foldl_erase _ x.committed.cartItems key).trans ?_
    rw [if_neg hnot, hrow]
  obtain ⟨hfound, hstill⟩ := List.mem_filter.mp hkey
  obtain ⟨item, hitem, rfl⟩ := List.mem_map.mp hfound
  have hsee : ∀ (e : Edit) (s : Db), Key.cartItem item.1 ∉ e.footprint →
      (s.apply e).cartItems.lookup item.1 = s.cartItems.lookup item.1 := by
    intro e s he
    cases e with
    | cartItemSet key row =>
      refine AList.lookup_insert_ne fun heq => he ?_
      rw [heq]
      exact List.mem_singleton_self _
    | cartItemsDelete keys orderId =>
      refine (AList.lookup_foldl_erase keys s.cartItems item.1).trans (if_neg fun hmem => he ?_)
      exact List.mem_map_of_mem hmem
    | _ => rfl
  have hlast : (cartMachine.turns us i m).getLast? = some k₁ := by rw [hturns]; rfl
  -- the row is locked from the `DELETE` on
  have hthere : y₁.committed.cartItems.lookup item.1 = some row :=
    (h.same_of_held hx (fun s => s.cartItems.lookup item.1) (hedits ▸ List.mem_cons_self)
      (List.mem_map_of_mem hkey) hsee hlast hy₁).trans hrow
  rw [hthere] at hstill
  exact ⟨k₁, y₁, by rw [hturns]; rfl, hy₁, hthere, (mem_findItems.mp hitem).2.1,
    of_decide_eq_true hstill⟩

/-- While nothing is put into the cart of the customer, a row that is there has been there. -/
theorem row_of_nothingPut {customerId : Uuid} (hk : cartMoment requests us k = some y)
    (hnone : ∀ l, k ≤ l → l < m → filledAt requests us l ≠ some customerId) (hkm : k ≤ m)
    (hm : cartMoment requests us m = some x) (hcustomer : key.1 = customerId)
    (hrow : x.committed.cartItems.lookup key = some row) :
    y.committed.cartItems.lookup key = some row := by
  refine moment_induction_from (m := m) (P := fun _ (x : Service carts CartPoint) =>
    x.committed.cartItems.lookup key = some row → y.committed.cartItems.lookup key = some row) hk
    (fun h => h) (fun l x u x' hkl hlm hx hu hstep ih hrow => ih ?_) hkm hm hrow
  rcases commits_of_turn hx hu hstep with ⟨hsame, -⟩ | ⟨pt, a, t, hcommits, rfl⟩
  · exact hsame ▸ hrow
  · rcases hcommits.item hrow with hbefore | ⟨-, -, hedits, -⟩
    · exact hbefore
    · refine absurd ?_ (hnone l hkl hlm)
      rw [filledAt, hcommits.edits, Option.bind_some, hedits, ← hcustomer]
      rfl

/-! ### Runs -/

/-- The order that is being placed has no unit of an earlier one: the checkout of that one had
deleted what it has read. -/
theorem CommitsAt.not_has (h : CommitsAt requests us m i (.place r lines) a t x)
    (hapart : CheckoutsApart requests us) (hlen : m < us.length)
    (hx : cartMoment requests us m = some x)
    (hedits : t.edits = [.orderInsert r.orderId ⟨r.storeId, r.customerId, lines⟩])
    (horder : x.committed.orders.lookup id = some order) (hput : order.has put) :
    (⟨r.storeId, r.customerId, lines⟩ : Order).has put = false := by
  refine Bool.eq_false_iff.mpr fun hline => ?_
  obtain ⟨j, r', lines', hplaced, rfl, rfl⟩ := placedBy_of_moment hx horder
  have hread : ReadBy requests us m i r lines := h.opened.known
  obtain ⟨line, hmem, rfl⟩ := Order.has_iff.mp hline
  obtain ⟨line', hmem', hsame⟩ := Order.has_iff.mp hput
  obtain ⟨kᵢ, y, key, row, hkᵢ, -, hy, hrow, hcustomer, -, hrowput, -⟩ := hread.line hmem
  obtain ⟨kⱼ, y', key', row', hkⱼ, -, hy', hrow', hcustomer', hstore', hrowput', -⟩ :=
    hplaced.toReadBy.line hmem'
  have hputs : row.put = row'.put := hrowput.trans (hsame.symm.trans hrowput'.symm)
  -- both lines come from one row, and so both checkouts are of one customer
  have hkeys : key = key' := by
    rcases Nat.le_total kᵢ kⱼ with hle | hle
    · exact (eq_of_put hy hrow hle hy' hrow' hputs.symm).1.symm
    · exact (eq_of_put hy' hrow' hle hy hrow hputs).1
  have hcustomers : r'.customerId = r.customerId := by rw [← hcustomer', ← hcustomer, hkeys]
  obtain ⟨l, hlm, hplacedAt⟩ := hplaced.placed
  have hfirst : placedAt requests us l = some (j, r'.customerId) := by
    rw [placedAt, hplacedAt]
    rfl
  have hsecond : placedAt requests us m = some (i, r.customerId) := by
    rw [placedAt, h.edits, Option.bind_some, hedits]
    rfl
  obtain ⟨d, hdk, hcleared⟩ := hapart m hlen _ hsecond l hlm _ hfirst hcustomers kᵢ hkᵢ
  -- the earlier checkout has deleted what it has read
  have hgone := gone_of_cleared hcleared hplaced.request hkⱼ hy' hrow' hcustomer' hstore' hdk hy
  have hle : kⱼ ≤ kᵢ := (readAt_lt_of_cleared hy hdk hcleared hkⱼ).le.trans hdk.le
  obtain ⟨rfl, rfl⟩ := eq_of_put hy' hrow' hle hy hrow hputs
  exact hgone hrow

/-- No unit is in two orders. -/
theorem once_of_moment (hapart : CheckoutsApart requests us) (hlen : m ≤ us.length)
    (hm : cartMoment requests us m = some x) {id id' : Uuid} {order order' : Order}
    (horder : x.committed.orders.lookup id = some order)
    (horder' : x.committed.orders.lookup id' = some order') (hput : order.has put)
    (hput' : order'.has put) : id = id' := by
  refine moment_induction_from (m := m) (P := fun _ (x : Service carts CartPoint) =>
    ∀ id id' order order' put, x.committed.orders.lookup id = some order →
      x.committed.orders.lookup id' = some order' → order.has put → order'.has put → id = id')
    rfl (by rintro _ _ _ _ _ ⟨⟩) (fun k x u x' _ hkm hx hu hstep ih => ?_) (Nat.zero_le m) hm
    id id' order order' put horder horder' hput hput'
  rcases commits_of_turn hx hu hstep with ⟨hsame, -⟩ | ⟨pt, a, t, hcommits, rfl⟩
  · intro id id' order order' put horder horder'
    rw [hsame] at horder horder'
    exact ih id id' order order' put horder horder'
  intro id id' order order' put horder horder' hput hput'
  rcases hcommits.lookup horder with horder | ⟨r, lines, hpt, rfl, rfl, hedits⟩
  · rcases hcommits.lookup horder' with horder' | ⟨r, lines, hpt, rfl, rfl, hedits⟩
    · exact ih id id' order order' put horder horder' hput hput'
    · subst hpt
      rw [hcommits.not_has hapart (hkm.trans_le hlen) hx hedits horder hput] at hput'
      cases hput'
  · rcases hcommits.lookup horder' with horder' | ⟨r', lines', hpt', rfl, rfl, hedits'⟩
    · subst hpt
      rw [hcommits.not_has hapart (hkm.trans_le hlen) hx hedits horder' hput'] at hput
      cases hput
    · rw [hpt] at hpt'
      cases hpt'
      rfl

/-- What a checkout deletes, it has ordered: nothing has been put there since it has read the
cart. -/
theorem CommitsAt.ordered {keys : List ItemKey} (h : CommitsAt requests us m i (.clear r) a t x)
    (hput : NothingPutSince requests us) (hlen : m < us.length)
    (hx : cartMoment requests us m = some x)
    (hedits : t.edits = [.cartItemsDelete keys (some r.orderId)])
    (hrow : x.committed.cartItems.lookup key = some row)
    (hgone : (t.view x.committed).cartItems.lookup key ≠ some row) :
    ∃ order, requests[i]? = some (.checkout r) ∧ r.customerId = key.1 ∧
      x.committed.orders.lookup r.orderId = some order ∧ order.has row.put := by
  obtain ⟨lines, hplaced⟩ : ∃ lines, PlacedBy requests us m i r lines := h.opened.known
  obtain ⟨d, y₁, hd, hy₁, hthere, hcustomer, hstore⟩ := h.row_of_deleted hx hrow hgone
  obtain ⟨k, y, hk, -, hy, hnone, hlines⟩ := hplaced.read
  have hcleared : clearedAt requests us m = some i := by
    rw [clearedAt, h.edits, Option.bind_some, hedits]
    rfl
  have hcustomerOf : customerOf requests i = some r.customerId := by
    rw [customerOf, hplaced.request]
    rfl
  have hkd : k ≤ d := by
    obtain ⟨v, hv, hsession, hresumes⟩ :=
      Machine.session_of_mem_turns (List.mem_of_getElem? hd)
    exact readAt_le hk ⟨v, hv, hsession, hresumes⟩
  -- nothing has been put there since the checkout has read the cart, so it has read the row
  have hread : y.committed.cartItems.lookup key = some row := by
    refine row_of_nothingPut hy (fun l hkl hld heq => ?_) hkd hy₁ hcustomer hthere
    rcases Nat.eq_or_lt_of_le hkl with rfl | hlt
    · rw [filledAt, hnone] at heq
      cases heq
    · exact hput m hlen i hcleared k hk d hd l hld hlt (heq.trans hcustomerOf.symm)
  have hitem := mem_findItems (x := (key, row)).mpr ⟨hread, hcustomer, hstore⟩
  have hline := List.mem_map_of_mem (f := fun x : ItemKey × CartItem =>
    (x.1.2, x.2.quantity, x.2.put)) hitem
  rw [← mapM_orderLine hlines] at hline
  obtain ⟨line, hmem, heq⟩ := List.mem_map.mp hline
  refine ⟨_, hplaced.request, hcustomer.symm, hplaced.lookup hx, ?_⟩
  exact Order.has_iff.mpr ⟨line, hmem, (Prod.mk.inj (Prod.mk.inj heq).2).2⟩

/-- A row that a commit takes out of the cart or writes over: the customer's own request does
it, or a checkout that has ordered the row. -/
theorem CommitsAt.removes (h : CommitsAt requests us m i pt a t x)
    (hput : NothingPutSince requests us) (hlen : m < us.length)
    (hx : cartMoment requests us m = some x)
    (hrow : x.committed.cartItems.lookup key = some row)
    (hgone : (t.view x.committed).cartItems.lookup key ≠ some row) :
    ∃ q, requests[i]? = some q ∧ (q.ownCart = some key.1 ∨ ∃ r order, q = .checkout r ∧
      r.customerId = key.1 ∧ x.committed.orders.lookup r.orderId = some order ∧
      order.has row.put) := by
  have hknown := h.opened.known
  have hwork := h.work
  generalize hedits : t.edits = es at hwork
  cases hwork with
  | nothing => exact absurd hrow (by rwa [Transaction.view, hedits] at hgone)
  | read => exact absurd hrow (by rwa [Transaction.view, hedits] at hgone)
  | placed => exact absurd hrow (by rwa [Transaction.view, hedits] at hgone)
  | @set r row' hquantity hput' =>
    refine ⟨_, hknown.2, .inl ?_⟩
    -- another customer's row is not the one that is gone
    by_contra hcustomer
    refine hgone ?_
    rw [Transaction.view, hedits]
    refine (AList.lookup_insert_ne ?_).trans hrow
    rintro rfl
    exact hcustomer rfl
  | @removed q customerId keys hcart hkeys =>
    refine ⟨q, hknown.2, .inl (hcart.trans (congrArg some (hkeys key ?_).symm))⟩
    by_contra hnot
    refine hgone ?_
    rw [Transaction.view, hedits]
    exact (AList.lookup_foldl_erase keys x.committed.cartItems key).trans
      ((if_neg hnot).trans hrow)
  | @cleared r keys hkeys =>
    obtain ⟨order, hcheckout, hcustomer, horder, hhas⟩ :=
      h.ordered hput hlen hx hedits hrow hgone
    exact ⟨_, hcheckout, .inr ⟨r, order, rfl, hcustomer, horder, hhas⟩⟩

/-- **The units of a cart.** In every run in which the checkouts of a customer keep apart and
nothing is put into the cart between the reading of a checkout and its deletion, the units of
a request are in one order at most and there in one line, with the variant and the quantity
that its customer has put into the cart, and a row leaves the cart only through a request of
its customer to set or clear it, or through a checkout of this customer that has ordered it. -/
theorem cart_unitsKept (hrun : (cartStart requests).run code {} us = some x)
    (hapart : CheckoutsApart requests us) (hput : NothingPutSince requests us) :
    (∀ id id' order order' line line', x.committed.orders.lookup id = some order →
      x.committed.orders.lookup id' = some order' → line ∈ order.lines → line' ∈ order'.lines →
      line.put = line'.put → id = id' ∧ line = line') ∧
    (∀ id order line, x.committed.orders.lookup id = some order → line ∈ order.lines →
      FromPut requests order.customerId line.productVariantId line.quantity line.put) ∧
    (∀ m < us.length, ∀ y y' key row, cartMoment requests us m = some y →
      cartMoment requests us (m + 1) = some y' → y.committed.cartItems.lookup key = some row →
      y'.committed.cartItems.lookup key ≠ some row → ∃ i q a t, requests[i]? = some q ∧
        y.sessions[i]? = some (.running (.ret a) t) ∧ y' = y.commit i a t ∧
        (q.ownCart = some key.1 ∨ ∃ r order, q = .checkout r ∧ r.customerId = key.1 ∧
          y.committed.orders.lookup r.orderId = some order ∧ order.has row.put)) := by
  have hx : cartMoment requests us us.length = some x := Service.moment_length.trans hrun
  have hlines : ∀ id order line, x.committed.orders.lookup id = some order → line ∈ order.lines →
      FromPut requests order.customerId line.productVariantId line.quantity line.put := by
    intro id order line horder hline
    obtain ⟨j, r, lines, hplaced, -, rfl⟩ := placedBy_of_moment hx horder
    obtain ⟨-, -, -, -, -, -, -, -, -, -, -, hfrom⟩ := hplaced.toReadBy.line hline
    exact hfrom
  refine ⟨fun id id' order order' line line' horder horder' hline hline' hputs => ?_, hlines,
    fun m hlen y y' key row hy hy' hrow hgone => ?_⟩
  · obtain rfl := once_of_moment hapart le_rfl hx horder horder'
      (Order.has_iff.mpr ⟨line, hline, rfl⟩) (Order.has_iff.mpr ⟨line', hline', hputs.symm⟩)
    refine ⟨rfl, ?_⟩
    obtain rfl := Option.some.inj (horder.symm.trans horder')
    -- one request puts one variant, and an order has one line for it
    obtain ⟨r, hr, -, hvariant, -⟩ := hlines id order line horder hline
    obtain ⟨r', hr', -, hvariant', -⟩ := hlines id order line' horder hline'
    rw [← hputs, hr] at hr'
    cases hr'
    obtain ⟨j, r₀, lines, hplaced, -, rfl⟩ := placedBy_of_moment hx horder
    exact List.inj_on_of_nodup_map hplaced.toReadBy.distinct hline hline'
      (hvariant.symm.trans hvariant')
  · obtain ⟨y₁, u, hy₁, hu, hstep⟩ := exists_of_moment_succ hy'
    obtain rfl := Option.some.inj (hy.symm.trans hy₁)
    rcases commits_of_turn hy hu hstep with ⟨hsame, -⟩ | ⟨pt, a, t, hcommits, rfl⟩
    · exact absurd (hsame ▸ hrow) hgone
    · obtain ⟨q, hq, hcases⟩ := hcommits.removes hput hlen hy hrow hgone
      exact ⟨u.session, q, a, t, hq, hcommits.ended, rfl, hcases⟩

end Units

/-! ### A pen and a cup -/

namespace Sample

/-- Everything is sold, from one warehouse. -/
def catalog (_ : Uuid) : Variant := ⟨true, [⟨"main", 10, true, true⟩]⟩

def put (variantId : Uuid) (quantity : ℕ) : CartRequest :=
  .setCartItem ⟨"store", "asha", variantId, quantity, catalog⟩

def order (orderId : Uuid) : CartRequest := .checkout ⟨"store", "asha", orderId, catalog⟩

/-- Another customer fills a cart. -/
def putElsewhere (variantId : Uuid) (quantity : ℕ) : CartRequest :=
  .setCartItem ⟨"store", "ravi", variantId, quantity, catalog⟩

/-- The session `i` starts a transaction and runs `n` statements of it. -/
def turns (i n : ℕ) : List (Turn carts) := .resume i :: List.replicate n (.act (.advance i))

/-- The requests whose units an order has. -/
def puts (x : Service carts CartPoint) (orderId : Uuid) : Option (List ℕ) :=
  (x.committed.orders.lookup orderId).map fun order => order.lines.map (·.put)

/-- A pen is ordered, and then a cup. -/
def shopping : List CartRequest :=
  [put "pen" 2, order "o1", put "cup" 1, order "o2", putElsewhere "pen" 5]

/-- While the pen is being ordered another customer fills a cart. The cup is put there after
the first checkout has deleted the pen, and before it has committed. -/
def oneAfterTheOther : List (Turn carts) :=
  turns 0 2 ++ turns 1 2 ++ turns 4 2 ++ turns 1 2 ++ turns 1 2 ++ turns 2 2 ++
    [.act (.advance 1)] ++ turns 3 2 ++ turns 3 2 ++ turns 3 3

end Sample

open Cart.Sample in
/-- Each of the two checkouts orders what is in the cart, and the other cart stays. -/
theorem cart_unitsKept_sample : ∃ x,
    (cartStart shopping).run code {} oneAfterTheOther = some x ∧
    (puts x "o1", puts x "o2", x.committed.cartItems.entries.map (·.1)) =
      (some [0], some [2], [("ravi", "pen")]) ∧
    ∀ id id' order order' line line', x.committed.orders.lookup id = some order →
      x.committed.orders.lookup id' = some order' → line ∈ order.lines → line' ∈ order'.lines →
      line.put = line'.put → id = id' ∧ line = line' := by
  have hrun : ((cartStart shopping).run code {} oneAfterTheOther).map
      (fun x => (puts x "o1", puts x "o2", x.committed.cartItems.entries.map (·.1))) =
        some (some [0], some [2], [("ravi", "pen")]) := by
    decide +kernel
  obtain ⟨x, hx, hstate⟩ := Option.map_eq_some_iff.mp hrun
  have hapart : CheckoutsApart shopping oneAfterTheOther := by decide +kernel
  have hput : NothingPutSince shopping oneAfterTheOther := by decide +kernel
  exact ⟨x, hx, hstate, (cart_unitsKept hx hapart hput).1⟩

open Cart.Sample in
/-- Two checkouts read the cart before one of them has deleted it, and both order the pen. And
a cup that is put into the cart while a checkout places its order is deleted with the rest,
though no order has it. -/
theorem cart_ordersTwiceOrLoses :
    (∃ x, Serves code {} (.start {} (waiting [put "pen" 2, order "o1", order "o2"])) x ∧
      puts x "o1" = some [0] ∧ puts x "o2" = some [0]) ∧
    ∃ x x', Serves code {} (.start {} (waiting [put "pen" 2, order "o1", put "cup" 1])) x ∧
      x.run code {} (turns 1 3) = some x' ∧
      (x.committed.cartItems.lookup ("asha", "cup")).map (·.put) = some 2 ∧
      x'.committed.cartItems.lookup ("asha", "cup") = none ∧
      x'.committed.orders.keys = ["o1"] ∧ puts x' "o1" = some [0] := by
  have htwice : ((Service.start {} (waiting [put "pen" 2, order "o1", order "o2"])).run code {}
      (turns 0 2 ++ turns 1 2 ++ turns 2 2 ++ turns 1 2 ++ turns 2 2)).map
      (fun x => (puts x "o1", puts x "o2")) = some (some [0], some [0]) := by
    decide +kernel
  have hlost : ((Service.start {} (waiting [put "pen" 2, order "o1", put "cup" 1])).run code {}
      (turns 0 2 ++ turns 1 2 ++ turns 2 2 ++ turns 1 2)).bind (fun x =>
        (x.run code {} (turns 1 3)).map fun x' =>
          ((x.committed.cartItems.lookup ("asha", "cup")).map (·.put),
            x'.committed.cartItems.lookup ("asha", "cup"), x'.committed.orders.keys,
            puts x' "o1")) = some (some 2, none, ["o1"], some [0]) := by
    decide +kernel
  obtain ⟨x, hx, hputs⟩ := Option.map_eq_some_iff.mp htwice
  obtain ⟨y, hy, hrest⟩ := Option.bind_eq_some_iff.mp hlost
  obtain ⟨y', hy', hstate⟩ := Option.map_eq_some_iff.mp hrest
  obtain ⟨hfirst, hsecond⟩ := Prod.mk.inj hputs
  obtain ⟨hcup, hstate⟩ := Prod.mk.inj hstate
  obtain ⟨hgone, hstate⟩ := Prod.mk.inj hstate
  obtain ⟨hkeys, hpen⟩ := Prod.mk.inj hstate
  exact ⟨⟨x, serves_of_run .refl hx, hfirst, hsecond⟩,
    y, y', serves_of_run .refl hy, hy', hcup, hgone, hkeys, hpen⟩

end PulseOps.Cart
