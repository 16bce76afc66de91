import PulseOps.CashDrawer.Shifts

/-!
# One shift across one transaction

What a transaction does to the shifts, seen from one shift: how its row came to be what it is
and which movements it gained. A shift whose lock the transaction does not hold keeps its row
and can only gain the cash of sales.

## Main definitions

* `ShiftStep` — everything that can happen to one shift.

## Main results

* `ShiftWork.step` — a transaction does one of these things to every shift.
* `ShiftWork.apart` — the shifts it holds no lock on.
-/

set_option autoImplicit false

open ReadCommitted Program Contract

namespace PulseOps

open CashRegisterService

variable {law : ShiftLaw} {K : law.contract.Knowledge} {R : Discipline sales}
  {t : Transaction sales} {s : Db} {es : List Edit} {id : Uuid} {row : CashSession}

/-- The committed invariant behind the foreign key of the movements. -/
def MovementsLinked (s : Db) : Prop :=
  ∀ m ∈ s.cashMovements, (s.cashSessions.lookup m.sessionId).isSome

/-- A shift that was never opened has no movements. -/
theorem MovementsLinked.movementsOf_eq_nil (hs : MovementsLinked s)
    (hnone : s.cashSessions.lookup id = none) : movementsOf id s = [] := by
  rw [movementsOf, List.filter_eq_nil_iff]
  intro m hm hid
  have hlinked := hs m hm
  rw [of_decide_eq_true hid, hnone] at hlinked
  cases hlinked

theorem cashSessions_view (h : shiftTables.After K es t s) :
    (t.view s).cashSessions = (sales.replay es s).cashSessions :=
  cashSessions_of_see h.see_view

theorem cashMovements_view (h : shiftTables.After K es t s) :
    (t.view s).cashMovements = s.cashMovements ++ movementsIn es :=
  (congrArg Prod.snd h.see_view).trans (cashMovements_replay es s)

theorem movementsOf_view (h : shiftTables.After K es t s) :
    movementsOf id (t.view s) =
      movementsOf id s ++ (movementsIn es).filter (·.sessionId = id) :=
  (movementsOf_of_see h.see_view).trans (movementsOf_replay es s)

/-- The cash of a sale that the transaction adds to the shift. -/
def SoldTo (id : Uuid) (t : Transaction sales) (m : CashMovement) : Prop :=
  .cashMovementInsert m ∈ t.edits ∧ m.sessionId = id ∧ m.type = .sale ∧ 0 < m.amount

theorem soldTo_of_mem (hes : ∀ e ∈ es, AddsSale e) (h : shiftTables.After K es t s) :
    ∀ m ∈ (movementsIn es).filter (·.sessionId = id), SoldTo id t m := by
  intro m hm
  obtain ⟨hm, hid⟩ := List.mem_filter.mp hm
  have hedit : .cashMovementInsert m ∈ t.edits.filter shiftTables.touches :=
    h.edits ▸ mem_movementsIn.mp hm
  exact ⟨(List.mem_filter.mp hedit).1, of_decide_eq_true hid, sale_of_addsSale hes m hm⟩

/-- How a shift came to have its row, and which movements it gained. -/
inductive ShiftStep (law : ShiftLaw) (t : Transaction sales) (s : Db) (id : Uuid) :
    CashSession → Prop
  | opened {tenantId userId registerId : Uuid} {body : OpenBody} (hvalid : body.valid = true)
      (hnone : s.cashSessions.lookup id = none)
      (hms : movementsOf id (t.view s) = movementsOf id s) :
      ShiftStep law t s id (openRow tenantId registerId userId body)
  | moved {tenantId userId : Uuid} {body : MovementBody} {row : CashSession}
      {ms : List CashMovement} (hvalid : body.valid = true) (hopen : row.status = .open)
      (hcover : body.type = .cashOut → body.amount ≤ (sessionTotals row ms).expectedCash)
      (hrow : s.cashSessions.lookup id = some row) (hdrift : law.drift ms (movementsOf id s))
      (hms : movementsOf id (t.view s) =
        movementsOf id s ++ [movementRow tenantId userId id body]) : ShiftStep law t s id row
  | closed {userId : Uuid} {body : CloseBody} {row : CashSession} {ms : List CashMovement}
      (hopen : row.status = .open) (hrow : s.cashSessions.lookup id = some row)
      (hreads : law.reads row ms) (hdrift : law.drift ms (movementsOf id s))
      (hms : movementsOf id (t.view s) = movementsOf id s) :
      ShiftStep law t s id (closedRow userId body row (sessionTotals row ms).expectedCash row)
  | sold {row : CashSession} {ms : List CashMovement} (hrow : s.cashSessions.lookup id = some row)
      (hsold : ∀ m ∈ ms, SoldTo id t m) (hms : movementsOf id (t.view s) = movementsOf id s ++ ms) :
      ShiftStep law t s id row

/-- A shift that is only there. -/
theorem ShiftStep.kept (hrow : s.cashSessions.lookup id = some row)
    (hms : movementsOf id (t.view s) = movementsOf id s) : ShiftStep law t s id row :=
  .sold hrow (fun _ hm => absurd hm List.not_mem_nil) (hms.trans (List.append_nil _).symm)

/-- A transaction does one of these things to every shift. -/
theorem ShiftWork.step (h : ShiftWork law t s)
    (hrow : (t.view s).cashSessions.lookup id = some row) : ShiftStep law t s id row := by
  cases h with
  | @opened tenantId userId registerId id' body hvalid h =>
    rw [cashSessions_view h] at hrow
    have hms : movementsOf id (t.view s) = movementsOf id s := by
      rw [movementsOf_view h]
      exact List.append_nil _
    -- here as below: the shift the request is about, and the shifts it leaves alone
    by_cases hid : id = id'
    · subst hid
      rw [Database.replay_cons, Database.replay_nil] at hrow
      simp only [sales_apply, Db.apply, AList.lookup_insert, Option.some.injEq] at hrow
      exact hrow ▸ .opened hvalid h.knows.2 hms
    · rw [Database.replay_cons, Database.replay_nil] at hrow
      simp only [sales_apply, Db.apply, AList.lookup_insert_ne hid] at hrow
      exact .kept hrow hms
  | @moved tenantId userId id' body row' ms hvalid hopen hcover h =>
    rw [cashSessions_view h] at hrow
    change s.cashSessions.lookup id = some row at hrow
    have hms : movementsOf id (t.view s) = movementsOf id s ++ (movementsIn
        [.cashMovementInsert (movementRow tenantId userId id' body)]).filter (·.sessionId = id) :=
      movementsOf_view h
    by_cases hid : id = id'
    · subst hid
      obtain ⟨-, hlocked, -, hdrift⟩ := h.knows
      obtain rfl := Option.some.inj (hlocked.symm.trans hrow)
      have hadded : (movementsIn [.cashMovementInsert (movementRow tenantId userId id body)]).filter
          (·.sessionId = id) = [movementRow tenantId userId id body] := by
        simp [movementsIn, movementRow]
      rw [hadded] at hms
      exact .moved hvalid hopen hcover hrow hdrift hms
    · refine .kept hrow (hms.trans ?_)
      simp [movementsIn, movementRow, Ne.symm hid]
  | @closed userId id' body row' ms hopen h =>
    rw [cashSessions_view h] at hrow
    have hms : movementsOf id (t.view s) = movementsOf id s := by
      rw [movementsOf_view h]
      exact List.append_nil _
    by_cases hid : id = id'
    · subst hid
      obtain ⟨-, hlocked, hreads, hdrift⟩ := h.knows
      rw [Database.replay_cons, Database.replay_nil] at hrow
      simp only [sales_apply, Db.apply, AList.lookup_insert, Option.some.injEq] at hrow
      exact hrow ▸ .closed hopen hlocked hreads hdrift hms
    · rw [Database.replay_cons, Database.replay_nil] at hrow
      simp only [sales_apply, Db.apply, AList.lookup_insert_ne hid] at hrow
      exact .kept hrow hms
  | sold hes h =>
    rw [cashSessions_view h, sessions_of_addsSale hes] at hrow
    exact .sold hrow (soldTo_of_mem hes h) (movementsOf_view h)

/-- The shifts whose lock the transaction does not hold. -/
theorem ShiftWork.apart (h : ShiftWork law t s) (hid : .cashSession id ∉ t.held) :
    (t.view s).cashSessions.lookup id = s.cashSessions.lookup id ∧
      ∃ ms, movementsOf id (t.view s) = movementsOf id s ++ ms ∧ ∀ m ∈ ms, SoldTo id t m := by
  have hother {id' : Uuid} (hheld : Key.cashSession id' ∈ t.held) : id ≠ id' := by
    rintro rfl
    exact hid hheld
  cases h with
  | @opened tenantId userId registerId id' body hvalid h =>
    refine ⟨?_, [], by rw [movementsOf_view h]; rfl, fun _ hm => absurd hm List.not_mem_nil⟩
    rw [cashSessions_view h]
    exact AList.lookup_insert_ne (hother h.knows.1)
  | @moved tenantId userId id' body row' ms hvalid hopen hcover h =>
    refine ⟨by rw [cashSessions_view h]; rfl, [], ?_, fun _ hm => absurd hm List.not_mem_nil⟩
    rw [movementsOf_view h]
    simp [movementsIn, movementRow, Ne.symm (hother h.knows.1)]
  | @closed userId id' body row' ms hopen h =>
    refine ⟨?_, [], by rw [movementsOf_view h]; rfl, fun _ hm => absurd hm List.not_mem_nil⟩
    rw [cashSessions_view h]
    exact AList.lookup_insert_ne (hother h.knows.1)
  | sold hes h =>
    refine ⟨?_, _, movementsOf_view h, soldTo_of_mem hes h⟩
    rw [cashSessions_view h, sessions_of_addsSale hes]

/-- A shift that was opened stays in the books. -/
theorem ShiftWork.evolves (h : ShiftWork law t s) : law.contract.evolves s (t.view s) := by
  intro id hid
  have hinsert (id' : Uuid) (row : CashSession) :
      ((s.cashSessions.insert id' row).lookup id).isSome := by
    by_cases heq : id = id'
    · rw [heq, AList.lookup_insert]
      rfl
    · rwa [AList.lookup_insert_ne heq]
  cases h with
  | opened _ h =>
    rw [cashSessions_view h]
    exact hinsert _ _
  | moved _ _ _ h =>
    rw [cashSessions_view h]
    exact hid
  | closed _ h =>
    rw [cashSessions_view h]
    exact hinsert _ _
  | sold hes h =>
    rw [cashSessions_view h, sessions_of_addsSale hes]
    exact hid

/-- Every movement belongs to a shift. -/
theorem ShiftWork.linked (hs : MovementsLinked s) (h : ShiftWork law t s) :
    MovementsLinked (t.view s) := by
  have hevolves := h.evolves
  intro m hm
  cases h with
  | opened _ h =>
    rw [cashMovements_view h] at hm
    exact hevolves _ (hs m (by simpa [movementsIn] using hm))
  | @moved tenantId userId id' body row ms _ _ _ h =>
    rw [cashMovements_view h] at hm
    rcases List.mem_append.mp hm with hm | hm
    · exact hevolves _ (hs m hm)
    · obtain rfl : m = movementRow tenantId userId id' body := by
        simpa [movementsIn] using hm
      apply hevolves
      rw [movementRow, h.knows.2.1]
      rfl
  | closed _ h =>
    rw [cashMovements_view h] at hm
    exact hevolves _ (hs m (by simpa [movementsIn] using hm))
  | sold hes h =>
    rw [cashMovements_view h] at hm
    rcases List.mem_append.mp hm with hm | hm
    · exact hevolves _ (hs m hm)
    · exact hevolves _ (h.knows m hm)

end PulseOps
