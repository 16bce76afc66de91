import Mathlib.Algebra.Order.BigOperators.Group.List
import PulseOps.CashDrawer.Steps
import PulseOps.Stock.Requests

/-!
# The drawer never goes below zero

Cash out is checked against movements that are read under the row lock of the shift. Counter
sales do not take that lock, but they only add cash: what was in the drawer at the check is
still there when the cash is taken out.

## Main definitions

* `DrawerNonneg` — what the drawers hold is not negative.
* `growing` — the law: a locked shift can only gain cash.

## Main results

* `ShiftWork.drawerNonneg` — one transaction.
* `drawer_nonneg` — every run.
-/

set_option autoImplicit false

open ReadCommitted Program Contract

namespace PulseOps

open CashRegisterService

variable {s s₀ : Db} {t : Transaction sales} {R : Discipline sales} {id : Uuid}

/-- Every shift holds no less than nothing, now and in what was stored when it was closed, and
every movement belongs to a shift. -/
structure DrawerNonneg (s : Db) : Prop where
  linked : MovementsLinked s
  total : ∀ id row, s.cashSessions.lookup id = some row →
    0 ≤ (sessionTotals row (movementsOf id s)).expectedCash
  stored : ∀ id row expected, s.cashSessions.lookup id = some row →
    row.expectedCash = some expected → 0 ≤ expected

/-- Under its lock a shift can only gain cash. -/
def growing : ShiftLaw where
  inv := DrawerNonneg
  drift ms ms' := net ms ≤ net ms'
  drift_refl _ := le_rfl
  drift_trans h h' := h.trans h'
  reads row ms := 0 ≤ (sessionTotals row ms).expectedCash
  reads_of_inv hs hrow := hs.total _ _ hrow

theorem net_nonneg_of_soldTo {ms : List CashMovement} (h : ∀ m ∈ ms, SoldTo id t m) :
    0 ≤ net ms := by
  apply List.sum_nonneg
  intro x hx
  obtain ⟨m, hm, rfl⟩ := List.mem_map.mp hx
  obtain ⟨-, -, htype, hpos⟩ := h m hm
  rw [CashMovement.signed, htype]
  exact hpos.le

/-- Staff take out no more than they counted, and put in no less than nothing. -/
theorem covered_signed {tenantId userId : Uuid} {body : MovementBody} {total : Cents}
    (hvalid : body.valid = true) (htotal : 0 ≤ total)
    (hcover : body.type = .cashOut → body.amount ≤ total) :
    0 ≤ total + (movementRow tenantId userId id body).signed := by
  simp only [MovementBody.valid, Bool.decide_and, Bool.decide_or, Bool.and_eq_true,
    Bool.or_eq_true, decide_eq_true_eq] at hvalid
  obtain ⟨htype | htype, hpos⟩ := hvalid
  · simp only [CashMovement.signed, movementRow, htype]
    exact add_nonneg htotal hpos.le
  · simp only [CashMovement.signed, movementRow, htype, ← sub_eq_add_neg]
    exact sub_nonneg.mpr (hcover htype)

/-- One transaction leaves no drawer below zero. -/
theorem ShiftWork.drawerNonneg (hs : DrawerNonneg s) (h : ShiftWork growing t s) :
    DrawerNonneg (t.view s) where
  linked := h.linked hs.linked
  total id row hrow := by
    cases h.step hrow with
    | opened hvalid hnone hms =>
      rw [hms, hs.linked.movementsOf_eq_nil hnone, expectedCash_eq]
      exact add_nonneg (of_decide_eq_true hvalid) le_rfl
    | @moved tenantId userId body _ ms hvalid hopen hcover hlocked hdrift hms =>
      -- what was read has only grown since
      have hgrown : (sessionTotals row ms).expectedCash ≤
          (sessionTotals row (movementsOf id s)).expectedCash := by
        rw [expectedCash_eq, expectedCash_eq]
        exact add_le_add_right hdrift _
      have hnonneg : 0 ≤ (sessionTotals row (movementsOf id s)).expectedCash +
          (movementRow tenantId userId id body).signed :=
        covered_signed hvalid (hs.total id row hlocked) fun htype => (hcover htype).trans hgrown
      rw [hms, expectedCash_eq, net_append, ← add_assoc, ← expectedCash_eq]
      simpa [net] using hnonneg
    | @closed userId body row' ms hopen hlocked hreads hdrift hms =>
      rw [hms]
      exact hs.total id row' hlocked
    | sold hrow hsold hms =>
      rw [hms, expectedCash_eq, net_append, ← add_assoc, ← expectedCash_eq]
      exact add_nonneg (hs.total id row hrow) (net_nonneg_of_soldTo hsold)
  stored id row expected hrow hexpected := by
    cases h.step hrow with
    | opened hvalid hnone hms => cases hexpected
    | moved hvalid hopen hcover hlocked hdrift hms => exact hs.stored id row _ hlocked hexpected
    | closed hopen hlocked hreads hdrift hms =>
      obtain rfl := Option.some.inj hexpected
      exact hreads
    | sold hrow hsold hms => exact hs.stored id row _ hrow hexpected

theorem ShiftWork.guarantee_growing (hs : DrawerNonneg s) (h : ShiftWork growing t s) :
    growing.contract.Guarantee R t s where
  inv := h.drawerNonneg hs
  evolves := h.evolves
  agree key hkey _ id hid := by
    subst hid
    obtain ⟨hrow, ms, hms, hsold⟩ := h.apart hkey
    refine ⟨hrow.symm, ?_⟩
    change net _ ≤ net _
    rw [hms, net_append]
    exact le_add_of_nonneg_right (net_nonneg_of_soldTo hsold)

/-! ### Every run -/

variable {requests : List CashRequest} {c : Config sales Unit}

theorem drawerNonneg_of_reaches (hs₀ : DrawerNonneg s₀) (hvalid : ∀ r ∈ requests, r.valid = true)
    (h : Reaches locksShifts (.start s₀ (requests.map CashRequest.program)) c) :
    ∀ s ∈ c.history s₀, DrawerNonneg s := by
  intro s hs
  refine (of_reaches (L := growing.contract) (Q := fun _ _ _ => True) hs₀ (fun p hp => ?_)
    h s hs).1
  obtain ⟨r, hr, rfl⟩ := List.mem_map.mp hp
  have hwork : growing.contract.Triple locksShifts
      (shiftTables.After (L := growing.contract) .none []) r.program fun _ => ShiftWork growing :=
    r.triple (fun _ _ _ h => h) (hvalid r hr)
  refine wp_mono (hwork {} s₀ hs₀ (.start trivial)) fun _ t s ht hs _ => ?_
  exact ⟨ht.guarantee_growing hs, trivial⟩

/-- However opening, sales, cash in, cash out and closing interleave: no shift, open or closed,
ever expects less than nothing in its drawer. -/
theorem drawer_nonneg (hs₀ : DrawerNonneg s₀) (hvalid : ∀ r ∈ requests, r.valid = true)
    (h : Reaches locksShifts (.start s₀ (requests.map CashRequest.program)) c) :
    ∀ s ∈ c.history s₀, ∀ id row, s.cashSessions.lookup id = some row →
      0 ≤ (sessionTotals row (movementsOf id s)).expectedCash ∧
        ∀ expected, row.expectedCash = some expected → 0 ≤ expected := by
  intro s hmem id row hrow
  have hs := drawerNonneg_of_reaches hs₀ hvalid h s hmem
  exact ⟨hs.total id row hrow, fun expected => hs.stored id row expected hrow⟩

namespace Sample

/-- The shop with a counter. -/
def counter : Db :=
  { shop with
    cashRegisters := (∅ : Table Uuid CashRegister).insert "till"
      { tenantId := "shop", name := "Main counter" } }

/-- One shirt, paid in cash. -/
def cashSale : PosService.SaleBody :=
  { customerId := some "customer"
    warehouseId := some "north"
    registerId := some "till"
    items := [{ variantId := "shirt", quantity := 1 }]
    payments := [{ method := .cash, amount := 118, ids := ⟨"paid", "c", "t"⟩ }] }

theorem counter_drawerNonneg : DrawerNonneg counter where
  linked m hm := absurd hm List.not_mem_nil
  total id row hrow := by cases hrow
  stored id row expected hrow := by cases hrow

/-- A shift with a float of 5, one sale and everything but the float taken out again. -/
def drawerRequests : List CashRequest :=
  [.openRegister "shop" "clerk" "till" "shift" { openingFloat := 500 },
    .sale {} "shop" "clerk" "order" "walkIn" "till" cashSale,
    .addMovement "shop" "clerk" "shift" { type := .cashOut, amount := 118 },
    .close "shop" "clerk" "shift" { countedCash := 500 }]

end Sample

open Sample in
/-- Cash is taken out while a sale is still open, then the shift is closed. -/
theorem drawer_nonneg_sample :
    ∃ (c : Config sales Unit) (row : CashSession),
      Reaches locksShifts (.start counter (drawerRequests.map CashRequest.program)) c ∧
        c.committed.cashSessions.lookup "shift" = some row ∧ row.expectedCash = some 500 ∧
        0 ≤ (sessionTotals row (movementsOf "shift" c.committed)).expectedCash ∧
        ∀ expected, row.expectedCash = some expected → 0 ≤ expected := by
  have hrun : ((Config.start counter (drawerRequests.map CashRequest.program)).run locksShifts
      (List.replicate 4 (.advance 0) ++ List.replicate 20 (.advance 1) ++
        List.replicate 5 (.advance 2) ++ List.replicate 7 (.advance 1) ++
        List.replicate 5 (.advance 3))).map
      (fun c => (c.committed.cashSessions.lookup "shift").map (·.expectedCash)) =
        some (some (some 500)) := by
    decide +kernel
  obtain ⟨c, hc, hclosed⟩ := Option.map_eq_some_iff.mp hrun
  obtain ⟨row, hrow, hexpected⟩ := Option.map_eq_some_iff.mp hclosed
  have hreach := reaches_of_run .refl hc
  obtain ⟨older, holder⟩ := hreach.exists_history
  exact ⟨c, row, hreach, hrow, hexpected, drawer_nonneg counter_drawerNonneg (by decide) hreach
    c.committed (by simp [holder]) "shift" row hrow⟩

end PulseOps
