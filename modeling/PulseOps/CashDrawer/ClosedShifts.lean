import PulseOps.CashDrawer.NonNegative

/-!
# The books of a closed shift

A shift is closed over movements that are read under its row lock. A counter sale picks its
shift long before it adds its cash, and does not look at the shift again: closing can slip in
between, and the cash lands in a shift whose books are done. Where every sale finds its shift
still open, closed books stay as they are.

## Main definitions

* `ClosedBooks` — a closed shift has stored what its drawer should hold.
* `openSales` — the condition: cash of sales goes into open shifts.

## Main results

* `ShiftWork.closedBooks`, `ShiftWork.frozen` — one transaction.
* `closed_books_stay` — every run.
* `saleAfterClose_not_closedBooks` — without the condition.
-/

set_option autoImplicit false

open ReadCommitted Program Contract

namespace PulseOps

open CashRegisterService

variable {s s₀ : Db} {t : Transaction sales} {id : Uuid} {row : CashSession}

/-- A closed shift has stored the float with all its movements, and the difference of what was
counted. -/
def ClosedBooks (s : Db) : Prop :=
  ∀ id row, s.cashSessions.lookup id = some row → row.status = .closed →
    ∃ expected counted, row.expectedCash = some expected ∧ row.countedCash = some counted ∧
      row.variance = some (counted - expected) ∧
        expected = row.openingFloat + net (movementsOf id s)

/-- Closed shifts keep their rows, and gain no movement. -/
def Frozen (s s' : Db) : Prop :=
  ∀ id row, s.cashSessions.lookup id = some row → row.status = .closed →
    s'.cashSessions.lookup id = some row ∧ movementsOf id s' = movementsOf id s

theorem Frozen.refl (s : Db) : Frozen s s := fun _ _ hrow _ => ⟨hrow, rfl⟩

theorem Frozen.trans {s₁ s₂ s₃ : Db} (h : Frozen s₁ s₂) (h' : Frozen s₂ s₃) : Frozen s₁ s₃ := by
  intro id row hrow hclosed
  obtain ⟨hrow₂, hms₂⟩ := h id row hrow hclosed
  obtain ⟨hrow₃, hms₃⟩ := h' id row hrow₂ hclosed
  exact ⟨hrow₃, hms₃.trans hms₂⟩

/-- Under its lock a shift gains nothing at all. -/
def still : ShiftLaw where
  inv s := MovementsLinked s ∧ ClosedBooks s
  drift := Eq
  drift_refl _ := rfl
  drift_trans h h' := h.trans h'
  reads _ _ := True
  reads_of_inv _ _ := trivial

/-- Cash of sales goes into shifts that are open when the sale commits. The foreign key of the
movements keeps the row of their shift from being locked by anybody else until then. -/
def openSales : Discipline sales where
  write := locksShifts.write
  commit s t := (movementsIn t.edits).all fun m =>
    m.type = .sale → (s.cashSessions.lookup m.sessionId).any (·.status = .open)
  alone t := (movementsIn t.edits).map fun m => .cashSession m.sessionId

/-- A closed shift is sold nothing. -/
theorem not_soldTo_of_closed (hok : openSales.commit s t = true)
    (hrow : s.cashSessions.lookup id = some row) (hclosed : row.status = .closed)
    {m : CashMovement} : ¬ SoldTo id t m := by
  rintro ⟨hedit, rfl, htype, -⟩
  have hopen := List.all_eq_true.mp hok m (mem_movementsIn.mpr hedit)
  simp only [htype, hrow, Option.any_some, hclosed] at hopen
  simp at hopen

/-- One transaction closes its shift with the movements the shift has. -/
theorem ShiftWork.closedBooks (hok : openSales.commit s t = true) (hs : ClosedBooks s)
    (h : ShiftWork still t s) : ClosedBooks (t.view s) := by
  intro id row hrow hclosed
  cases h.step hrow with
  | opened hvalid hnone hms => cases hclosed
  | moved hvalid hopen hcover hlocked hdrift hms =>
    rw [hopen] at hclosed
    cases hclosed
  | @closed userId body row' ms hopen hlocked hreads hdrift hms =>
    refine ⟨_, _, rfl, rfl, rfl, ?_⟩
    rw [hms, ← show ms = movementsOf id s from hdrift]
    exact expectedCash_eq row' ms
  | @sold _ ms hlocked hsold hms =>
    have hnone : ms = [] := List.eq_nil_iff_forall_not_mem.mpr fun m hm =>
      not_soldTo_of_closed hok hlocked hclosed (hsold m hm)
    rw [hms, hnone, List.append_nil]
    exact hs id row hlocked hclosed

/-- One transaction leaves the closed shifts alone. -/
theorem ShiftWork.frozen (hok : openSales.commit s t = true) (h : ShiftWork still t s) :
    Frozen s (t.view s) := by
  intro id row hrow hclosed
  obtain ⟨row', hrow'⟩ := Option.isSome_iff_exists.mp (h.evolves id (by rw [hrow]; rfl))
  have hstep := h.step hrow'
  generalize hnew : row' = new at hstep
  cases hstep with
  | opened hvalid hnone hms =>
    rw [hrow] at hnone
    cases hnone
  | moved hvalid hopen hcover hlocked hdrift hms =>
    obtain rfl := Option.some.inj (hrow.symm.trans hlocked)
    rw [hopen] at hclosed
    cases hclosed
  | closed hopen hlocked hreads hdrift hms =>
    obtain rfl := Option.some.inj (hrow.symm.trans hlocked)
    rw [hopen] at hclosed
    cases hclosed
  | @sold _ ms hlocked hsold hms =>
    have hnone : ms = [] := List.eq_nil_iff_forall_not_mem.mpr fun m hm =>
      not_soldTo_of_closed hok hrow hclosed (hsold m hm)
    rw [hms, hnone, List.append_nil]
    exact ⟨hrow'.trans ((congrArg some hnew).trans (hlocked.symm.trans hrow)), rfl⟩

theorem ShiftWork.guarantee_still (hok : openSales.commit s t = true) (hs : still.inv s)
    (h : ShiftWork still t s) : still.contract.Guarantee openSales t s where
  inv := ⟨h.linked hs.1, h.closedBooks hok hs.2⟩
  evolves := h.evolves
  agree key hkey halone id hid := by
    subst hid
    obtain ⟨hrow, ms, hms, hsold⟩ := h.apart hkey
    -- what is sold to the shift was committed with nobody else holding its lock
    have hnone : ms = [] := List.eq_nil_iff_forall_not_mem.mpr fun m hm => by
      obtain ⟨hedit, rfl, -⟩ := hsold m hm
      exact halone (List.mem_map_of_mem (mem_movementsIn.mpr hedit))
    rw [hnone, List.append_nil] at hms
    exact ⟨hrow.symm, hms.symm⟩

/-! ### Every run -/

variable {requests : List CashRequest} {c : Config sales Unit}

/-- Where every sale finds its shift open when it commits: a closed shift has stored its float
with all its movements and the difference of the cash counted, and neither its row nor its
movements change in any later commit. -/
theorem closed_books_stay (hlinked : MovementsLinked s₀) (hs₀ : ClosedBooks s₀)
    (hvalid : ∀ r ∈ requests, r.valid = true)
    (h : Reaches openSales (.start s₀ (requests.map CashRequest.program)) c) :
    ∀ s ∈ c.history s₀, ClosedBooks s ∧ Frozen s c.committed := by
  have hinv : still.contract.inv s₀ := ⟨hlinked, hs₀⟩
  have hps : ∀ p ∈ requests.map CashRequest.program, still.contract.wp openSales
      (still.contract.Commits openSales fun _ => ShiftWork still) p {} s₀ := by
    intro p hp
    obtain ⟨r, hr, rfl⟩ := List.mem_map.mp hp
    have hlocks : ∀ s t e, openSales.write s t e = true → locksShifts.write s t e = true :=
      fun _ _ _ h => h
    have hwork : still.contract.Triple openSales
        (shiftTables.After (L := still.contract) .none []) r.program fun _ => ShiftWork still :=
      r.triple hlocks (hvalid r hr)
    refine wp_mono (hwork {} s₀ hinv (.start trivial)) fun _ t s ht hs hok => ?_
    exact ⟨ht.guarantee_still hok hs, ht⟩
  obtain ⟨hall, hchain⟩ := reaches_chain (I := ClosedBooks) (E := Frozen) hinv hps hs₀
    (fun s a t hs hok _ _ hwork => ⟨hwork.closedBooks hok hs, hwork.frozen hok⟩) h
  obtain ⟨older, holder⟩ := h.exists_history
  rw [holder] at hchain hall ⊢
  intro s hmem
  exact ⟨hall s hmem, rel_of_isChain Frozen.refl (fun _ _ _ => Frozen.trans) hchain s hmem⟩

namespace Sample

theorem counter_linked : MovementsLinked counter := fun _ hm => absurd hm List.not_mem_nil

theorem counter_closedBooks : ClosedBooks counter := fun _ _ hrow => by cases hrow

/-- A shift with one sale in it that is closed. -/
def dayRequests : List CashRequest :=
  [.openRegister "shop" "clerk" "till" "shift" { openingFloat := 500 },
    .sale {} "shop" "clerk" "order" "walkIn" "till" cashSale,
    .close "shop" "clerk" "shift" { countedCash := 600 }]

end Sample

open Sample in
/-- The sale commits first, and the drawer is 18 short. -/
theorem closed_books_stay_sample :
    ∃ (c : Config sales Unit) (row : CashSession),
      Reaches openSales (.start counter (dayRequests.map CashRequest.program)) c ∧
        c.committed.cashSessions.lookup "shift" = some row ∧ row.variance = some (-18) ∧
        ClosedBooks c.committed ∧ Frozen c.committed c.committed := by
  have hrun : ((Config.start counter (dayRequests.map CashRequest.program)).run openSales
      (List.replicate 4 (.advance 0) ++ List.replicate 27 (.advance 1) ++
        List.replicate 5 (.advance 2))).map
      (fun c => (c.committed.cashSessions.lookup "shift").map (·.variance)) =
        some (some (some (-18))) := by
    decide +kernel
  obtain ⟨c, hc, hclosed⟩ := Option.map_eq_some_iff.mp hrun
  obtain ⟨row, hrow, hvariance⟩ := Option.map_eq_some_iff.mp hclosed
  have hreach := reaches_of_run .refl hc
  obtain ⟨older, holder⟩ := hreach.exists_history
  have hstay := closed_books_stay counter_linked counter_closedBooks (by decide) hreach
    c.committed (by simp [holder])
  exact ⟨c, row, hreach, hrow, hvariance, hstay⟩

open Sample in
/-- The sale has picked its shift, the shift is closed, and the cash lands in it afterwards. -/
theorem saleAfterClose_not_closedBooks :
    MovementsLinked counter ∧ ClosedBooks counter ∧ (∀ r ∈ dayRequests, r.valid = true) ∧
      ∃ c : Config sales Unit,
        Reaches locksShifts (.start counter (dayRequests.map CashRequest.program)) c ∧
          ¬ (∀ s ∈ c.history counter, ClosedBooks s ∧ Frozen s c.committed) := by
  have hrun : ((Config.start counter (dayRequests.map CashRequest.program)).run locksShifts
      (List.replicate 4 (.advance 0) ++ List.replicate 5 (.advance 1) ++
        List.replicate 5 (.advance 2) ++ List.replicate 22 (.advance 1))).map
      (fun c => ((c.committed.cashSessions.lookup "shift").map
        fun (row : CashSession) => (row.status, row.expectedCash, row.openingFloat),
          net (movementsOf "shift" c.committed))) =
        some (some (.closed, some 500, 500), 118) := by
    decide +kernel
  obtain ⟨c, hc, hstate⟩ := Option.map_eq_some_iff.mp hrun
  obtain ⟨hsession, hnet⟩ := Prod.mk.inj hstate
  obtain ⟨row, hrow, hfields⟩ := Option.map_eq_some_iff.mp hsession
  simp only [Prod.mk.injEq] at hfields
  obtain ⟨hclosed, hexpected, hfloat⟩ := hfields
  have hreach := reaches_of_run .refl hc
  obtain ⟨older, holder⟩ := hreach.exists_history
  refine ⟨counter_linked, counter_closedBooks, by decide, c, hreach, fun hstay => ?_⟩
  obtain ⟨expected, counted, hstored, -, -, htotal⟩ :=
    (hstay c.committed (by simp [holder])).1 "shift" row hrow hclosed
  obtain rfl := Option.some.inj (hexpected.symm.trans hstored)
  rw [hfloat, hnet] at htotal
  exact absurd htotal (by decide)

end PulseOps
