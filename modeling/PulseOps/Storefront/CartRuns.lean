import PulseOps.Model.Cart
import PulseOps.ReadCommitted.Moments
import PulseOps.ReadCommitted.Tables

/-!
# How the requests for a cart run

A checkout reads the cart, places an order of the rows it has read, and then deletes whatever
rows there are: three transactions, with nothing that ties them together. This file follows the
requests turn by turn: what each turn commits, and what a request has done by the time it is at
one of its points. The units of a row tell which request has put it there, and a row that has
left the cart does not come back.

## Main definitions

* `FromPut` — units that a request has put into the cart.
* `readAt`, `editsAt` — the turn at which a checkout reads, and what a turn commits.
* `CartWork` — everything a transaction of a request can write.
* `ReadBy`, `PlacedBy` — what a checkout has done before a turn.

## Main results

* `CartWork.of_finishes` — every transaction does one of these things.
* `runKnown_of_moment` — what the requests know at every moment of a run.
* `items_of_moment` — the rows of the cart come from requests that have come to their ends.
* `row_gone` — a row that has left the cart does not come back.
-/

set_option autoImplicit false

open ReadCommitted Program

namespace PulseOps.Cart

/-- The units are those that the request `put` has put into the customer's cart. -/
def FromPut (requests : List CartRequest) (customerId productVariantId : Uuid) (quantity put : ℕ) :
    Prop :=
  ∃ r, requests[put]? = some (.setCartItem r) ∧ r.customerId = customerId ∧
    r.variantId = productVariantId ∧ r.quantity = quantity

/-- The customer whose cart a request is about, unless it is a checkout. -/
def CartRequest.ownCart : CartRequest → Option Uuid
  | .setCartItem r => some r.customerId
  | .clearCart r => some r.customerId
  | .checkout _ => none

/-! ### Turns -/

/-- The requests as a system to be looked at turn by turn. -/
abbrev cartMachine : Machine carts CartPoint (Service carts CartPoint) (Turn carts) :=
  Service.machine code {}

abbrev cartStart (requests : List CartRequest) : Service carts CartPoint :=
  .start {} (waiting requests)

/-- The turn of the first statement of a session. A checkout reads the cart with it. -/
def readAt (us : List (Turn carts)) (i : ℕ) : Option ℕ :=
  us.findIdx? fun u => u.session = i && !u.resumes

/-- The session whose transaction the turn `m` commits, and what it has written. -/
def editsAt (requests : List CartRequest) (us : List (Turn carts)) (m : ℕ) :
    Option (ℕ × List Edit) :=
  (cartMachine.commitAt (cartStart requests) us m).map fun z => (z.session, z.edits)

variable {requests : List CartRequest} {us : List (Turn carts)} {s : Db} {i j k l m : ℕ}

/-! ### What the transactions do -/

/-- Everything the transaction of the session `i` can do, from one point to the next. -/
inductive CartWork (i : ℕ) : CartPoint → CartPoint → List Edit → Prop
  | nothing {q : CartRequest} : CartWork i (.request i q) .done [.nothing]
  | set {r : SetCartItemRequest} {row : CartItem} (hquantity : row.quantity = r.quantity)
      (hput : row.put = i) :
      CartWork i (.request i (.setCartItem r)) .done
        [.cartItemSet (r.customerId, r.variantId) row]
  | removed {q : CartRequest} {customerId : Uuid} {keys : List ItemKey}
      (hcart : q.ownCart = some customerId) (hkeys : ∀ key ∈ keys, key.1 = customerId) :
      CartWork i (.request i q) .done [.cartItemsDelete keys none]
  | read {r : CheckoutRequest} {lines : List OrderLine} :
      CartWork i (.request i (.checkout r)) (.place r lines) []
  | placed {r : CheckoutRequest} {lines : List OrderLine} :
      CartWork i (.place r lines) (.clear r)
        [.orderInsert r.orderId ⟨r.storeId, r.customerId, lines⟩]
  | cleared {r : CheckoutRequest} {keys : List ItemKey}
      (hkeys : ∀ key ∈ keys, key.1 = r.customerId) :
      CartWork i (.clear r) .done [.cartItemsDelete keys (some r.orderId)]

variable {r : CheckoutRequest} {lines : List OrderLine} {pt a : CartPoint} {ss : List Db}
  {es : List Edit}

theorem finishes_deleteItems {storeId customerId : Uuid} {orderId : Option Uuid} :
    (deleteItems storeId customerId orderId >>= fun _ => pure pt).Finishes [] ss a es ↔
      ∃ s₀ s₁, ss = [s₀, s₁] ∧ a = pt ∧
        es = [.cartItemsDelete (((findItems storeId customerId s₀).map (·.1)).filter fun key =>
          (s₁.cartItems.lookup key).any (·.tenantId = storeId)) orderId] := by
  unfold deleteItems
  rw [bind_assoc, finishes_query_bind]
  constructor
  · rintro ⟨s₀, _, rfl, h⟩
    obtain ⟨s₁, _, rfl, e, he, h⟩ := finishes_perform_bind.mp h
    obtain ⟨rfl, rfl, rfl⟩ := finishes_pure.mp h
    obtain rfl := Except.ok.inj he
    exact ⟨s₀, s₁, rfl, rfl, rfl⟩
  · rintro ⟨s₀, s₁, rfl, rfl, rfl⟩
    exact ⟨s₀, _, rfl, finishes_perform_bind.mpr ⟨s₁, _, rfl, _, rfl,
      finishes_pure.mpr ⟨rfl, rfl, rfl⟩⟩⟩

theorem finishes_readCart (h : (readCart r).Finishes [] ss a es) :
    ∃ s lines, ss = [s] ∧ a = .place r lines ∧ es = [] ∧
      (findItems r.storeId r.customerId s).mapM (orderLine r.catalog) = some lines := by
  obtain ⟨s, _, rfl, h⟩ := finishes_query_bind.mp h
  obtain ⟨-, h⟩ := finishes_require_bind.mp h
  obtain ⟨lines, hlines, h⟩ := finishes_orRaise_bind.mp h
  obtain ⟨rfl, rfl, rfl⟩ := finishes_pure.mp h
  exact ⟨s, lines, rfl, rfl, rfl, hlines⟩

theorem finishes_placeOrder (h : (placeOrder r lines).Finishes [] ss a es) :
    ∃ s, ss = [s] ∧ a = .clear r ∧ s.orders.lookup r.orderId = none ∧
      es = [.orderInsert r.orderId ⟨r.storeId, r.customerId, lines⟩] := by
  obtain ⟨s, _, rfl, e, he, h⟩ := finishes_perform_bind.mp h
  obtain ⟨rfl, rfl, rfl⟩ := finishes_pure.mp h
  unfold Statement.insertOrder at he
  split_ifs at he with hsome
  obtain rfl := Except.ok.inj he
  exact ⟨s, rfl, rfl, Option.not_isSome_iff_eq_none.mp hsome, rfl⟩

theorem finishes_setCartItem {r : SetCartItemRequest} (h : (setCartItem r i).Finishes [] ss a es) :
    CartWork i (.request i (.setCartItem r)) a es := by
  unfold setCartItem at h
  split_ifs at h with hzero
  · obtain ⟨s, _, -, e, he, h⟩ := finishes_perform_bind.mp h
    obtain ⟨-, rfl, rfl⟩ := finishes_pure.mp h
    unfold Statement.deleteCartItem at he
    split at he <;> obtain rfl := Except.ok.inj he
    · exact .nothing
    · exact .removed rfl fun key hkey => by rw [List.mem_singleton.mp hkey]
  · obtain ⟨variant, -, h⟩ := finishes_orRaise_bind.mp h
    obtain ⟨-, h⟩ := finishes_require_bind.mp h
    obtain ⟨s, _, -, e, he, h⟩ := finishes_perform_bind.mp h
    obtain ⟨-, rfl, rfl⟩ := finishes_pure.mp h
    obtain rfl := Except.ok.inj he
    refine .set ?_ ?_
    · split <;> rfl
    · split <;> rfl

theorem mem_findItems {storeId customerId : Uuid} {x : ItemKey × CartItem} :
    x ∈ findItems storeId customerId s ↔
      s.cartItems.lookup x.1 = some x.2 ∧ x.1.1 = customerId ∧ x.2.tenantId = storeId := by
  unfold findItems
  simp only [List.mem_map, List.mem_filter, decide_eq_true_eq]
  constructor
  · rintro ⟨y, ⟨hy, hcustomer, hstore⟩, rfl⟩
    exact ⟨AList.mem_lookup_iff.mpr hy, hcustomer, hstore⟩
  · rintro ⟨hlookup, hcustomer, hstore⟩
    exact ⟨⟨x.1, x.2⟩, ⟨AList.mem_lookup_iff.mp hlookup, hcustomer, hstore⟩, rfl⟩

/-- **Every transaction.** -/
theorem CartWork.of_finishes {p : Sql CartPoint} (hp : code pt = some p)
    (hpt : ∀ put q, pt = .request put q → put = i) (h : p.Finishes [] ss a es) :
    CartWork i pt a es := by
  -- what is deleted was found in the cart of the customer
  have hown {storeId customerId : Uuid} {s₀ : Db} {f : ItemKey → Bool} {key : ItemKey}
      (hkey : key ∈ ((findItems storeId customerId s₀).map (·.1)).filter f) :
      key.1 = customerId := by
    obtain ⟨x, hx, rfl⟩ := List.mem_map.mp (List.mem_filter.mp hkey).1
    exact (mem_findItems.mp hx).2.1
  cases pt with
  | request put q =>
    obtain rfl := hpt put q rfl
    cases q with
    | setCartItem r =>
      cases hp
      exact finishes_setCartItem h
    | clearCart r =>
      cases hp
      obtain ⟨s₀, s₁, -, rfl, rfl⟩ := finishes_deleteItems.mp h
      exact .removed rfl fun key => hown
    | checkout r =>
      cases hp
      obtain ⟨s, lines, -, rfl, rfl, -⟩ := finishes_readCart h
      exact .read
  | place r lines =>
    cases hp
    obtain ⟨s, -, rfl, -, rfl⟩ := finishes_placeOrder h
    exact .placed
  | clear r =>
    cases hp
    obtain ⟨s₀, s₁, -, rfl, rfl⟩ := finishes_deleteItems.mp h
    exact .cleared fun key => hown
  | done => cases hp

/-- A request that sets or clears has one transaction, and clearing is the last of a checkout. -/
def CartPoint.isLast : CartPoint → Bool
  | .request _ (.checkout _) => false
  | .place _ _ => false
  | _ => true

theorem CartWork.done (h : CartWork i pt a es) (hlast : pt.isLast = true) : a = .done := by
  cases h with
  | read => cases hlast
  | placed => cases hlast
  | _ => rfl

/-! ### Where a request is -/

abbrev cartMoment (requests : List CartRequest) (us : List (Turn carts)) (m : ℕ) :
    Option (Service carts CartPoint) :=
  moment cartMachine.step (cartStart requests) us m

/-- The turn `k` runs a statement of the session `i` or commits its transaction. -/
def IsOwn (us : List (Turn carts)) (i k : ℕ) : Prop :=
  ∃ u, us[k]? = some u ∧ u.session = i ∧ u.resumes = false

/-- Before the turn `m` the checkout `r` of the session `i` has read the rows that become the
lines of its order. -/
structure ReadBy (requests : List CartRequest) (us : List (Turn carts)) (m i : ℕ)
    (r : CheckoutRequest) (lines : List OrderLine) : Prop where
  request : requests[i]? = some (.checkout r)
  read : ∃ k y, readAt us i = some k ∧ k < m ∧ cartMoment requests us k = some y ∧
    editsAt requests us k = none ∧
    (findItems r.storeId r.customerId y.committed).mapM (orderLine r.catalog) = some lines

/-- Before the turn `m` it has placed its order too. -/
structure PlacedBy (requests : List CartRequest) (us : List (Turn carts)) (m i : ℕ)
    (r : CheckoutRequest) (lines : List OrderLine) : Prop extends
    ReadBy requests us m i r lines where
  placed : ∃ l < m, editsAt requests us l =
    some (i, [.orderInsert r.orderId ⟨r.storeId, r.customerId, lines⟩])

theorem ReadBy.mono (h : ReadBy requests us l i r lines) (hlm : l ≤ m) :
    ReadBy requests us m i r lines := by
  obtain ⟨k, y, hk, hkl, hy, hnone, hlines⟩ := h.read
  exact ⟨h.request, k, y, hk, hkl.trans_le hlm, hy, hnone, hlines⟩

theorem PlacedBy.mono (h : PlacedBy requests us l i r lines) (hlm : l ≤ m) :
    PlacedBy requests us m i r lines := by
  obtain ⟨l', hl', hplaced⟩ := h.placed
  exact ⟨h.toReadBy.mono hlm, l', hl'.trans_le hlm, hplaced⟩

/-- What a request has done before the turn `m` that is at the point. -/
def PointKnown (requests : List CartRequest) (us : List (Turn carts)) (m i : ℕ) :
    CartPoint → Prop
  | .request put q => put = i ∧ requests[i]? = some q
  | .place r lines => ReadBy requests us m i r lines
  | .clear r => ∃ lines, PlacedBy requests us m i r lines
  | .done => True

theorem PointKnown.mono (h : PointKnown requests us l i pt) (hlm : l ≤ m) :
    PointKnown requests us m i pt := by
  cases pt with
  | request => exact h
  | place r lines => exact ReadBy.mono h hlm
  | clear r =>
    obtain ⟨lines, hplaced⟩ := h
    exact ⟨lines, hplaced.mono hlm⟩
  | done => trivial

/-- A request that waits at a point. Before its first transaction it has run nothing. -/
structure WaitsAt (requests : List CartRequest) (us : List (Turn carts)) (m i : ℕ)
    (pt : CartPoint) : Prop where
  known : PointKnown requests us m i pt
  unread : ∀ put q, pt = .request put q → ∀ k < m, ¬ IsOwn us i k

/-- A request in a transaction. In its first one it has run the statements of this one only. -/
structure OpenAt (requests : List CartRequest) (us : List (Turn carts)) (m i : ℕ)
    (pt : CartPoint) : Prop where
  known : PointKnown requests us m i pt
  reading : ∀ put q, pt = .request put q → ∀ k < m, IsOwn us i k → k ∈ cartMachine.turns us i m

/-- The turn `m` commits the transaction `t` of the session `i`, which goes on from `a`. -/
structure CommitsAt (requests : List CartRequest) (us : List (Turn carts)) (m i : ℕ)
    (pt a : CartPoint) (t : Transaction carts) (x : Service carts CartPoint) : Prop where
  ended : x.sessions[i]? = some (.running (.ret a) t)
  opened : OpenAt requests us m i pt
  finished : ∃ p ss, code pt = some p ∧ p.Finishes [] ss a t.edits ∧
    (cartMachine.turns us i m).map (cartMachine.committedAt (cartStart requests) us) = ss.map some
  edits : editsAt requests us m = some (i, t.edits)
  work : CartWork i pt a t.edits

variable {x x' y : Service carts CartPoint} {u : Turn carts} {t : Transaction carts}

/-- The turn of the only statement of the first transaction. -/
theorem readAt_of_turns (hopen : OpenAt requests us m i pt) {put : ℕ} {q : CartRequest}
    (hpt : pt = .request put q) (hturns : cartMachine.turns us i m = [k]) :
    readAt us i = some k := by
  have hmem : k ∈ cartMachine.turns us i m := hturns ▸ List.mem_singleton_self k
  obtain ⟨u, hu, hsession, hresumes⟩ := Machine.session_of_mem_turns hmem
  obtain ⟨hlt, rfl⟩ := List.getElem?_eq_some_iff.mp hu
  have hsession : (us[k]).session = i := hsession
  have hresumes : (us[k]).resumes = false := hresumes
  refine List.findIdx?_eq_some_iff_getElem.mpr ⟨hlt, by simp [hsession, hresumes], ?_⟩
  intro j hj
  -- an earlier turn of the session would be a statement of this transaction
  have hnot : ¬ IsOwn us i j := fun hown => by
    have hmem' := hopen.reading put q hpt j (hj.trans (Machine.lt_of_mem_turns hmem)) hown
    rw [hturns, List.mem_singleton] at hmem'
    exact hj.ne hmem'
  intro hown
  simp only [Bool.and_eq_true, decide_eq_true_eq, Bool.not_eq_true'] at hown
  exact hnot ⟨_, List.getElem?_eq_getElem _, hown⟩

/-- What a request knows when it goes on. -/
theorem CommitsAt.next (h : CommitsAt requests us m i pt a t x)
    (hx : cartMoment requests us m = some x) :
    WaitsAt requests us (m + 1) i a := by
  obtain ⟨p, ss, hp, hfinishes, hss⟩ := h.finished
  have hknown := h.opened.known
  cases pt with
  | request put q =>
    obtain ⟨rfl, hq⟩ := hknown
    cases q with
    | checkout r =>
      cases hp
      obtain ⟨s, lines, rfl, rfl, -, hlines⟩ := finishes_readCart hfinishes
      -- the transaction has read one state, and so it has had one turn
      obtain ⟨k, y, hk, hy, rfl⟩ := cartMachine.exists_turn hss (n := 0) rfl
      have hlength := congrArg List.length hss
      rw [List.length_map] at hlength
      have hturns : cartMachine.turns us put m = [k] := by
        obtain ⟨k', hk'⟩ := List.length_eq_one_iff.mp hlength
        rw [hk'] at hk ⊢
        exact congrArg (fun k => [k]) (Option.some.inj hk)
      have hmem : k ∈ cartMachine.turns us put m := hturns ▸ List.mem_singleton_self k
      have hlt : k < m := Machine.lt_of_mem_turns hmem
      have hnone : editsAt requests us k = none :=
        congrArg _ (cartMachine.commitAt_of_mem_turns hx h.ended hmem)
      exact ⟨⟨hq, k, y, readAt_of_turns h.opened rfl hturns, Nat.lt_succ_of_lt hlt, hy, hnone,
        hlines⟩, nofun⟩
    | setCartItem r => exact h.work.done rfl ▸ ⟨trivial, nofun⟩
    | clearCart r => exact h.work.done rfl ▸ ⟨trivial, nofun⟩
  | place r lines =>
    cases hp
    obtain ⟨s, -, rfl, -, hes⟩ := finishes_placeOrder hfinishes
    refine ⟨⟨lines, ReadBy.mono hknown (Nat.le_succ m), m, Nat.lt_succ_self m, ?_⟩, nofun⟩
    rw [h.edits, hes]
  | clear r => exact h.work.done rfl ▸ ⟨trivial, nofun⟩
  | done => cases hp

/-- What the requests know at every moment of a run. -/
structure RunKnown (requests : List CartRequest) (us : List (Turn carts)) (m : ℕ)
    (x : Service carts CartPoint) : Prop where
  waits : ∀ i pt t, x.sessions[i]? = some (.committed pt t) → WaitsAt requests us m i pt
  opened : ∀ i p t, x.sessions[i]? = some (.running p t) →
    ∃ pt, x.points[i]? = some pt ∧ OpenAt requests us m i pt

theorem pointKnown_waiting (h : (waiting requests)[i]? = some pt) :
    PointKnown requests us m i pt ∧ ∃ put q, pt = .request put q := by
  unfold waiting at h
  rw [List.getElem?_map, List.getElem?_zipIdx, Option.map_map, Option.map_eq_some_iff] at h
  obtain ⟨q, hq, rfl⟩ := h
  exact ⟨⟨Nat.zero_add i, hq⟩, _, q, rfl⟩

/-- The commit of a transaction, told by what its request knows. -/
theorem RunKnown.commitsAt (hknown : RunKnown requests us m x)
    (hx : cartMoment requests us m = some x) (hu : us[m]? = some u)
    (hstep : cartMachine.step x u = some (x.commit u.session a t))
    (hi : x.sessions[u.session]? = some (.running (.ret a) t)) :
    ∃ pt, CommitsAt requests us m u.session pt a t x := by
  obtain ⟨pt, hpt, hopen⟩ := hknown.opened _ _ _ hi
  obtain ⟨pt', p, hpt', hp⟩ := Service.exists_code (Service.serves_moment hx) hi
  obtain rfl := Option.some.inj (hpt.symm.trans hpt')
  have hcode : cartMachine.code x u.session = some p := (congrArg (·.bind code) hpt).trans hp
  obtain ⟨ss, hfinishes, hss⟩ := cartMachine.finishes_of_moment Service.fresh_start hx hi hcode
  have hput : ∀ put q, pt = .request put q → put = u.session := by
    rintro put q rfl
    exact hopen.known.1
  refine ⟨pt, hi, hopen, ⟨p, ss, hp, hfinishes, hss⟩, ?_, .of_finishes hp hput hfinishes⟩
  exact congrArg _ (cartMachine.commitAt_of_commit hx hu hstep rfl)

/-- The turn of another session is none of this one. -/
theorem IsOwn.before (hown : IsOwn us i l) (hu : us[m]? = some u) (hne : i ≠ u.session)
    (hl : l < m + 1) : l < m := by
  obtain ⟨v, hv, rfl, -⟩ := hown
  refine (Nat.lt_succ_iff_lt_or_eq.mp hl).resolve_right ?_
  rintro rfl
  obtain rfl := Option.some.inj (hu.symm.trans hv)
  exact hne rfl

theorem WaitsAt.other (h : WaitsAt requests us m i pt) (hu : us[m]? = some u)
    (hne : i ≠ u.session) : WaitsAt requests us (m + 1) i pt :=
  ⟨h.known.mono (Nat.le_succ m), fun put q hpt l hl hown =>
    h.unread put q hpt l (hown.before hu hne hl) hown⟩

theorem OpenAt.other (h : OpenAt requests us m i pt) (hu : us[m]? = some u)
    (hne : i ≠ u.session) : OpenAt requests us (m + 1) i pt := by
  refine ⟨h.known.mono (Nat.le_succ m), fun put q hpt l hl hown => ?_⟩
  rw [cartMachine.turns_other hu (Ne.symm hne)]
  exact h.reading put q hpt l (hown.before hu hne hl) hown

/-- A statement of the session itself is one of its transaction. -/
theorem OpenAt.own (h : OpenAt requests us m u.session pt) (hu : us[m]? = some u)
    (hresumes : u.resumes = false) : OpenAt requests us (m + 1) u.session pt := by
  refine ⟨h.known.mono (Nat.le_succ m), fun put q hpt l hl hown => ?_⟩
  have hturns : cartMachine.turns us u.session (m + 1) =
      cartMachine.turns us u.session m ++ [m] := cartMachine.turns_own hu rfl hresumes
  rw [hturns]
  rcases Nat.lt_succ_iff_lt_or_eq.mp hl with hlm | rfl
  · exact List.mem_append_left _ (h.reading put q hpt l hlm hown)
  · exact List.mem_append_right _ (List.mem_singleton_self l)

/-- A transaction that has just begun has run nothing yet. -/
theorem WaitsAt.resume (h : WaitsAt requests us m u.session pt) (hu : us[m]? = some u)
    (hresumes : u.resumes = true) : OpenAt requests us (m + 1) u.session pt := by
  refine ⟨h.known.mono (Nat.le_succ m), fun put q hpt l hl hown => ?_⟩
  rcases Nat.lt_succ_iff_lt_or_eq.mp hl with hlm | rfl
  · exact absurd hown (h.unread put q hpt l hlm)
  · obtain ⟨v, hv, -, hnot⟩ := hown
    obtain rfl := Option.some.inj (hu.symm.trans hv)
    exact Bool.noConfusion (hresumes.symm.trans hnot)

theorem runKnown_of_moment (hm : cartMoment requests us m = some x) :
    RunKnown requests us m x := by
  refine moment_induction (P := RunKnown requests us) ⟨fun i pt t hi => ?_, fun i p t hi => ?_⟩
    (fun k x u x' hx hu hstep ih => ?_) hm
  · -- at the start every request waits, and none is in a transaction
    rw [Service.sessions_start, List.getElem?_map, Option.map_eq_some_iff] at hi
    obtain ⟨pt', hpt', hi⟩ := hi
    obtain ⟨rfl, -⟩ := Session.committed.inj hi
    exact ⟨(pointKnown_waiting hpt').1, fun _ _ _ k hk => absurd hk (Nat.not_lt_zero k)⟩
  · rw [Service.sessions_start, List.getElem?_map, Option.map_eq_some_iff] at hi
    obtain ⟨_, -, hi⟩ := hi
    cases hi
  cases Service.goes_of_turn hstep with
  | @advance p t y hresumes hi hy =>
    refine ⟨fun i pt t' hi' => ?_, fun i p' t' hi' => ?_⟩
    · rcases getElem?_setSession hi' with ⟨rfl, h⟩ | ⟨hne, h⟩
      · -- the session goes on with its transaction, so it does not wait
        subst h
        cases hy
      · exact (ih.waits i pt t' h).other hu hne
    · rcases getElem?_setSession hi' with ⟨rfl, -⟩ | ⟨hne, h⟩
      · obtain ⟨pt, hpt, hopen⟩ := ih.opened _ p t hi
        exact ⟨pt, hpt, hopen.own hu hresumes⟩
      · obtain ⟨pt, hpt, hopen⟩ := ih.opened i p' t' h
        exact ⟨pt, hpt, hopen.other hu hne⟩
  | @commit a t hresumes hi =>
    obtain ⟨pt, hcommits⟩ := ih.commitsAt hx hu hstep hi
    refine ⟨fun i pt' t' hi' => ?_, fun i p' t' hi' => ?_⟩
    · rcases getElem?_setSession hi' with ⟨rfl, h⟩ | ⟨hne, h⟩
      · obtain ⟨rfl, -⟩ := Session.committed.inj h
        exact hcommits.next hx
      · exact (ih.waits i pt' t' h).other hu hne
    · rcases getElem?_setSession hi' with ⟨rfl, h⟩ | ⟨hne, h⟩
      · cases h
      · obtain ⟨pt', hpt', hopen⟩ := ih.opened i p' t' h
        exact ⟨pt', hpt', hopen.other hu hne⟩
  | @resume pt p t hresumes hi hcode =>
    refine ⟨fun i pt' t' hi' => ?_, fun i p' t' hi' => ?_⟩
    · rcases getElem?_setSession hi' with ⟨rfl, h⟩ | ⟨hne, h⟩
      · cases h
      · exact (ih.waits i pt' t' h).other hu hne
    · rcases getElem?_setSession hi' with ⟨rfl, -⟩ | ⟨hne, h⟩
      · have hwait := ih.waits _ _ _ hi
        have hlt := (List.getElem?_eq_some_iff.mp hi).1
        have hlength := (Service.points_of_serves (Service.serves_moment hx)).1
        exact ⟨pt, List.getElem?_set_self (hlength ▸ hlt), hwait.resume hu hresumes⟩
      · obtain ⟨pt', hpt', hopen⟩ := ih.opened i p' t' h
        exact ⟨pt', (List.getElem?_set_ne (Ne.symm hne)).trans hpt', hopen.other hu hne⟩

/-- A turn changes nothing, or commits a transaction. -/
theorem commits_of_turn (hx : cartMoment requests us m = some x) (hu : us[m]? = some u)
    (hstep : cartMachine.step x u = some x') :
    (x'.committed = x.committed ∧ editsAt requests us m = none) ∨
      ∃ pt a t, CommitsAt requests us m u.session pt a t x ∧ x' = x.commit u.session a t := by
  have hsame (hlog : x'.config.log = x.config.log) : editsAt requests us m = none := by
    exact congrArg _ (cartMachine.commitAt_of_same hx hu hstep hlog)
  cases Service.goes_of_turn hstep with
  | advance => exact .inl ⟨rfl, hsame rfl⟩
  | resume => exact .inl ⟨rfl, hsame rfl⟩
  | commit _ hi =>
    obtain ⟨pt, hcommits⟩ := (runKnown_of_moment hx).commitsAt hx hu hstep hi
    exact .inr ⟨pt, _, _, hcommits, rfl⟩

/-! ### The rows of the cart -/

variable {key : ItemKey} {row : CartItem} {put : ℕ} {id : Uuid} {order : Order}

/-- The request of the session has come to its end. -/
def Finished (x : Service carts CartPoint) (i : ℕ) : Prop :=
  ∃ t, x.sessions[i]? = some (.committed .done t)

theorem Finished.turn (h : Finished x i) (hgoes : x.Goes code u x') :
    u.session ≠ i ∧ Finished x' i := by
  obtain ⟨t, hi⟩ := h
  have hne : u.session ≠ i := by
    rintro rfl
    cases hgoes with
    | advance _ hi' => cases hi.symm.trans hi'
    | commit _ hi' => cases hi.symm.trans hi'
    | resume _ hi' hcode =>
      obtain ⟨rfl, -⟩ := Session.committed.inj (Option.some.inj (hi.symm.trans hi'))
      cases hcode
  refine ⟨hne, t, ?_⟩
  cases hgoes <;> exact (List.getElem?_set_ne hne).trans hi

theorem Finished.stays (h : Finished y i) (hl : cartMoment requests us l = some y) (hlm : l ≤ m)
    (hm : cartMoment requests us m = some x) : Finished x i :=
  moment_induction_from (m := m) (P := fun _ (x : Service carts CartPoint) => Finished x i) hl h
    (fun _ _ _ _ _ _ _ _ hstep ih => (ih.turn (Service.goes_of_turn hstep)).2) hlm hm

/-- A row that is in the cart after a commit was there before, or the request has put it there
and has come to its end. -/
theorem CommitsAt.item (h : CommitsAt requests us m i pt a t x)
    (hrow : (t.view x.committed).cartItems.lookup key = some row) :
    x.committed.cartItems.lookup key = some row ∨ (row.put = i ∧ a = .done ∧
      t.edits = [.cartItemSet key row] ∧ FromPut requests key.1 key.2 row.quantity i) := by
  have hknown := h.opened.known
  have hwork := h.work
  have hdelete {keys : List ItemKey} {orderId : Option Uuid}
      (hedits : t.edits = [.cartItemsDelete keys orderId]) :
      x.committed.cartItems.lookup key = some row := by
    rw [Transaction.view, hedits] at hrow
    have hlookup := (AList.lookup_foldl_erase keys x.committed.cartItems key).symm.trans hrow
    split_ifs at hlookup
    exact hlookup
  generalize hedits : t.edits = es at hwork
  cases hwork with
  | nothing =>
    rw [Transaction.view, hedits] at hrow
    exact .inl hrow
  | read =>
    rw [Transaction.view, hedits] at hrow
    exact .inl hrow
  | placed =>
    rw [Transaction.view, hedits] at hrow
    exact .inl hrow
  | removed => exact .inl (hdelete hedits)
  | cleared => exact .inl (hdelete hedits)
  | @set r row' hquantity hput =>
    -- the row that is put, and the rows beside it
    rw [Transaction.view, hedits] at hrow
    by_cases hkey : key = (r.customerId, r.variantId)
    · subst hkey
      obtain rfl := Option.some.inj ((AList.lookup_insert _).symm.trans hrow)
      exact .inr ⟨hput, rfl, rfl, r, hknown.2, rfl, rfl, hquantity.symm⟩
    · exact .inl ((AList.lookup_insert_ne hkey).symm.trans hrow)

/-- The rows of the cart come from requests that have come to their ends. -/
theorem items_of_moment (hm : cartMoment requests us m = some x)
    (hrow : x.committed.cartItems.lookup key = some row) :
    FromPut requests key.1 key.2 row.quantity row.put ∧ Finished x row.put := by
  refine moment_induction (P := fun _ (x : Service carts CartPoint) =>
    ∀ key row, x.committed.cartItems.lookup key = some row →
      FromPut requests key.1 key.2 row.quantity row.put ∧ Finished x row.put)
    (by rintro _ _ ⟨⟩) (fun k x u x' hx hu hstep ih key row hrow => ?_) hm key row hrow
  have hgoes := Service.goes_of_turn hstep
  rcases commits_of_turn hx hu hstep with ⟨hsame, -⟩ | ⟨pt, a, t, hcommits, rfl⟩
  · rw [hsame] at hrow
    exact ⟨(ih key row hrow).1, ((ih key row hrow).2.turn hgoes).2⟩
  · rcases hcommits.item hrow with hbefore | ⟨hput, rfl, -, hfrom⟩
    · exact ⟨(ih key row hbefore).1, ((ih key row hbefore).2.turn hgoes).2⟩
    · rw [hput]
      exact ⟨hfrom, t, List.getElem?_set_self (List.getElem?_eq_some_iff.mp hcommits.ended).1⟩

/-- What becomes of the row of a request that has come to its end: it is not put there again. -/
theorem row_stays {S : Option CartItem → Prop} (hnone : S none)
    (hother : ∀ row : CartItem, row.put ≠ put → S (some row))
    (hl : cartMoment requests us l = some y) (hfinished : Finished y put)
    (hS : S (y.committed.cartItems.lookup key)) (hlm : l ≤ m)
    (hm : cartMoment requests us m = some x) : S (x.committed.cartItems.lookup key) := by
  refine (moment_induction_from (m := m) (P := fun _ (x : Service carts CartPoint) =>
    Finished x put ∧ S (x.committed.cartItems.lookup key)) hl ⟨hfinished, hS⟩
    (fun k x u x' _ _ hx hu hstep ih => ?_) hlm hm).2
  -- a request that has come to its end has no turn any more
  obtain ⟨hne, hfinished'⟩ := ih.1.turn (Service.goes_of_turn hstep)
  refine ⟨hfinished', ?_⟩
  rcases commits_of_turn hx hu hstep with ⟨hsame, -⟩ | ⟨pt, a, t, hcommits, rfl⟩
  · rw [hsame]
    exact ih.2
  · cases hrow : (t.view x.committed).cartItems.lookup key with
    | none =>
      change S ((t.view x.committed).cartItems.lookup key)
      exact hrow ▸ hnone
    | some row =>
      change S ((t.view x.committed).cartItems.lookup key)
      rw [hrow]
      rcases hcommits.item hrow with hbefore | ⟨hput, -⟩
      · exact hbefore ▸ ih.2
      · exact hother row (hput ▸ hne)

/-- A row that has left the cart does not come back. -/
theorem row_gone (hl : cartMoment requests us l = some y) (hfinished : Finished y row.put)
    (hgone : y.committed.cartItems.lookup key ≠ some row) (hlm : l ≤ m)
    (hm : cartMoment requests us m = some x) : x.committed.cartItems.lookup key ≠ some row :=
  row_stays (S := fun o => o ≠ some row) (fun h => nomatch h)
    (fun _ hput heq => hput (congrArg CartItem.put (Option.some.inj heq))) hl hfinished hgone hlm hm

/-- Two rows of one request are one row. -/
theorem eq_of_put {key' : ItemKey} {row' : CartItem} (hl : cartMoment requests us l = some y)
    (hrow : y.committed.cartItems.lookup key = some row) (hlm : l ≤ m)
    (hm : cartMoment requests us m = some x)
    (hrow' : x.committed.cartItems.lookup key' = some row') (hput : row'.put = row.put) :
    key' = key ∧ row' = row := by
  obtain ⟨⟨r, hr, hcustomer, hvariant, -⟩, hfinished⟩ := items_of_moment hl hrow
  obtain ⟨⟨r', hr', hcustomer', hvariant', -⟩, -⟩ := items_of_moment hm hrow'
  rw [hput, hr] at hr'
  cases hr'
  have hkey : key' = key :=
    Prod.ext (hcustomer'.symm.trans hcustomer) (hvariant'.symm.trans hvariant)
  subst hkey
  refine ⟨rfl, row_stays (S := fun o => ∀ row', o = some row' → row'.put = row.put → row' = row)
    (fun _ h => nomatch h) (fun row₁ hne row' heq hput => ?_) hl hfinished
    (fun row₁ heq _ => Option.some.inj (heq.symm.trans hrow)) hlm hm row' hrow' hput⟩
  exact absurd (Option.some.inj heq ▸ hput) hne

end PulseOps.Cart
