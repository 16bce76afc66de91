import PulseOps.Model.Storefront

/-!
# Customer sessions and codes

What the requests of the storefront do to the sessions and to the emailed codes. A session
stays its customer's and a revoked one stays revoked; a code that has been used stays used.
Whoever creates a session holds the lock of its customer, so that under this lock nobody else
adds one.

## Main definitions

* `StoreAges` — one state of the tables some time after another.
* `sessionContract` — what the requests agree on.
* `StoreStep` — a step that keeps the contract, and where the hashes after it come from.

## Main results

* `StoreStep.trans` and the lemmas about one edit each.
-/

set_option autoImplicit false

open ReadCommitted Program Contract

namespace PulseOps.Storefront

/-! ### Ageing -/

/-- A session some time later: it is the same customer's, and it stays revoked. -/
structure CustomerSession.Ages (row row' : CustomerSession) : Prop where
  customerId : row'.customerId = row.customerId
  revoked : row.revokedAt.isSome → row'.revokedAt.isSome

theorem CustomerSession.Ages.refl (row : CustomerSession) : row.Ages row := ⟨rfl, id⟩

theorem CustomerSession.Ages.trans {row row' row'' : CustomerSession} (h : row.Ages row')
    (h' : row'.Ages row'') : row.Ages row'' :=
  ⟨h'.customerId.trans h.customerId, fun hrow => h'.revoked (h.revoked hrow)⟩

/-- A code some time later: it is the same customer's code, and it stays used. -/
structure CustomerToken.Ages (row row' : CustomerToken) : Prop where
  customerId : row'.customerId = row.customerId
  tokenHash : row'.tokenHash = row.tokenHash
  used : row.usedAt.isSome → row'.usedAt.isSome

theorem CustomerToken.Ages.refl (row : CustomerToken) : row.Ages row := ⟨rfl, rfl, id⟩

theorem CustomerToken.Ages.trans {row row' row'' : CustomerToken} (h : row.Ages row')
    (h' : row'.Ages row'') : row.Ages row'' :=
  ⟨h'.customerId.trans h.customerId, h'.tokenHash.trans h.tokenHash,
    fun hrow => h'.used (h.used hrow)⟩

/-- The state `s'` some time after `s`. -/
structure StoreAges (s s' : Db) : Prop where
  sessions : ∀ id row, s.customerSessions.lookup id = some row →
    ∃ row', s'.customerSessions.lookup id = some row' ∧ row.Ages row'
  tokens : ∀ id row, s.customerTokens.lookup id = some row →
    ∃ row', s'.customerTokens.lookup id = some row' ∧ row.Ages row'

variable {s s' s'' : Db}

theorem StoreAges.refl (s : Db) : StoreAges s s :=
  ⟨fun _ row h => ⟨row, h, .refl row⟩, fun _ row h => ⟨row, h, .refl row⟩⟩

theorem StoreAges.trans (h : StoreAges s s') (h' : StoreAges s' s'') : StoreAges s s'' where
  sessions id row hrow := by
    obtain ⟨row', hrow', hage⟩ := h.sessions id row hrow
    obtain ⟨row'', hrow'', hage'⟩ := h'.sessions id row' hrow'
    exact ⟨row'', hrow'', hage.trans hage'⟩
  tokens id row hrow := by
    obtain ⟨row', hrow', hage⟩ := h.tokens id row hrow
    obtain ⟨row'', hrow'', hage'⟩ := h'.tokens id row' hrow'
    exact ⟨row'', hrow'', hage.trans hage'⟩

/-! ### The contract -/

/-- No two codes have the same hash: the unique index. -/
def CodesDiffer (s : Db) : Prop :=
  ∀ ⦃id id' row row'⦄, s.customerTokens.lookup id = some row →
    s.customerTokens.lookup id' = some row' → row.tokenHash = row'.tokenHash → id = id'

/-- The session is the customer's. -/
def HasSession (customerId id : Uuid) (s : Db) : Prop :=
  ∃ row, s.customerSessions.lookup id = some row ∧ row.customerId = customerId

/-- What the requests agree on. The lock of a customer also keeps the set of the customer's
sessions. -/
def sessionContract : Contract storefront where
  inv := CodesDiffer
  evolves := StoreAges
  agree
    | .session id, s, s' => s.customerSessions.lookup id = s'.customerSessions.lookup id
    | .token id, s, s' => s.customerTokens.lookup id = s'.customerTokens.lookup id
    | .customer customerId, s, s' => ∀ i, HasSession customerId i s ↔ HasSession customerId i s'
  evolves_refl := .refl
  evolves_trans := .trans
  agree_refl k s := by
    cases k with
    | customer customerId => exact fun _ => Iff.rfl
    | _ => rfl
  agree_trans {k s₁ s₂ s₃} h h' := by
    cases k with
    | customer customerId => exact fun id => (h id).trans (h' id)
    | _ => exact h.trans h'

/-- A step that keeps the contract while the locks `held` are held. The hash of a session is
the one it had, or one of those described by `fresh`. -/
structure StoreStep (held : List Key) (fresh : String → Prop) (s s' : Db) : Prop where
  codes : CodesDiffer s → CodesDiffer s'
  ages : StoreAges s s'
  agree : ∀ k ∉ held, sessionContract.agree k s s'
  hashes : ∀ id row', s'.customerSessions.lookup id = some row' → fresh row'.refreshTokenHash ∨
    ∃ row, s.customerSessions.lookup id = some row ∧ row.refreshTokenHash = row'.refreshTokenHash

variable {held : List Key} {fresh : String → Prop} {id : Uuid}

theorem StoreStep.refl (s : Db) : StoreStep held fresh s s where
  codes h := h
  ages := .refl s
  agree k _ := sessionContract.agree_refl k s
  hashes _ row h := .inr ⟨row, h, rfl⟩

theorem StoreStep.trans (h : StoreStep held fresh s s') (h' : StoreStep held fresh s' s'') :
    StoreStep held fresh s s'' where
  codes hs := h'.codes (h.codes hs)
  ages := h.ages.trans h'.ages
  agree k hk := sessionContract.agree_trans (h.agree k hk) (h'.agree k hk)
  hashes id row'' hrow'' := by
    rcases h'.hashes id row'' hrow'' with hfresh | ⟨row', hrow', heq⟩
    · exact .inl hfresh
    · rw [← heq]
      exact h.hashes id row' hrow'

/-- A step that leaves the codes alone. -/
theorem StoreStep.of_sessions (htokens : s'.customerTokens = s.customerTokens)
    (hsessions : ∀ id row, s.customerSessions.lookup id = some row →
      ∃ row', s'.customerSessions.lookup id = some row' ∧ row.Ages row')
    (hsession : ∀ id, .session id ∉ held →
      s.customerSessions.lookup id = s'.customerSessions.lookup id)
    (hcustomer : ∀ customerId, .customer customerId ∉ held →
      ∀ id, HasSession customerId id s' → HasSession customerId id s)
    (hhashes : ∀ id row', s'.customerSessions.lookup id = some row' →
      fresh row'.refreshTokenHash ∨ ∃ row, s.customerSessions.lookup id = some row ∧
        row.refreshTokenHash = row'.refreshTokenHash) : StoreStep held fresh s s' where
  codes h := by
    unfold CodesDiffer
    rw [htokens]
    exact h
  ages := by
    refine ⟨hsessions, ?_⟩
    rw [htokens]
    exact fun _ row h => ⟨row, h, .refl row⟩
  agree k hk := by
    cases k with
    | session id => exact hsession id hk
    | token id => exact congrArg (AList.lookup id) htokens.symm
    | customer customerId =>
      refine fun id => ⟨?_, hcustomer customerId hk id⟩
      rintro ⟨row, hrow, rfl⟩
      obtain ⟨row', hrow', hage⟩ := hsessions id row hrow
      exact ⟨row', hrow', hage.customerId⟩
  hashes := hhashes

/-- Writing over a session. -/
theorem storeStep_sessionUpdate {row row' : CustomerSession} (hheld : .session id ∈ held)
    (hrow : s.customerSessions.lookup id = some row) (hage : row.Ages row')
    (hhash : fresh row'.refreshTokenHash ∨ row.refreshTokenHash = row'.refreshTokenHash) :
    StoreStep held fresh s (s.apply (.sessionUpdate id row')) := by
  have hlookup (i : Uuid) : (s.apply (.sessionUpdate id row')).customerSessions.lookup i =
      if i = id then some row' else s.customerSessions.lookup i := by
    split_ifs with hi
    · subst hi
      exact AList.lookup_insert _
    · exact AList.lookup_insert_ne hi
  refine .of_sessions rfl (fun i r hr => ?_) (fun i hi => ?_) (fun customerId _ i h => ?_) ?_
  · rw [hlookup]
    split_ifs with heq
    · subst heq
      obtain rfl := Option.some.inj (hrow.symm.trans hr)
      exact ⟨row', rfl, hage⟩
    · exact ⟨r, hr, .refl r⟩
  · rw [hlookup, if_neg]
    rintro rfl
    exact hi hheld
  · obtain ⟨r, hr, hcustomer⟩ := h
    rw [hlookup] at hr
    split_ifs at hr with heq
    · subst heq
      cases hr
      exact ⟨row, hrow, hage.customerId.symm.trans hcustomer⟩
    · exact ⟨r, hr, hcustomer⟩
  · intro i r hr
    rw [hlookup] at hr
    split_ifs at hr with heq
    · subst heq
      cases hr
      exact hhash.imp_right fun h => ⟨row, hrow, h⟩
    · exact .inr ⟨r, hr, rfl⟩

/-- Creating a session, under the lock of its customer. -/
theorem storeStep_sessionInsert {row' : CustomerSession} (hheld : .session id ∈ held)
    (hcustomer : .customer row'.customerId ∈ held)
    (hnone : s.customerSessions.lookup id = none) (hhash : fresh row'.refreshTokenHash) :
    StoreStep held fresh s (s.apply (.sessionInsert id row')) := by
  have hlookup (i : Uuid) : (s.apply (.sessionInsert id row')).customerSessions.lookup i =
      if i = id then some row' else s.customerSessions.lookup i := by
    split_ifs with hi
    · subst hi
      exact AList.lookup_insert _
    · exact AList.lookup_insert_ne hi
  refine .of_sessions rfl (fun i r hr => ?_) (fun i hi => ?_) (fun customerId hk i h => ?_) ?_
  · rw [hlookup, if_neg]
    · exact ⟨r, hr, .refl r⟩
    · rintro rfl
      rw [hnone] at hr
      cases hr
  · rw [hlookup, if_neg]
    rintro rfl
    exact hi hheld
  · obtain ⟨r, hr, rfl⟩ := h
    rw [hlookup] at hr
    split_ifs at hr
    · cases hr
      exact absurd hcustomer hk
    · exact ⟨r, hr, rfl⟩
  · intro i r hr
    rw [hlookup] at hr
    split_ifs at hr
    · cases hr
      exact .inl hhash
    · exact .inr ⟨r, hr, rfl⟩

/-- The sessions `ids` revoked. -/
theorem lookup_sessionsRevoke (s : Db) (ids : List Uuid) (now : Millis) (id : Uuid) :
    (s.apply (.sessionsRevoke ids now)).customerSessions.lookup id =
      if id ∈ ids then (s.customerSessions.lookup id).map fun row =>
        { row with revokedAt := some now }
      else s.customerSessions.lookup id := by
  have hone (T : Table Uuid CustomerSession) (i id : Uuid) :
      (Db.revokeSession T now i).lookup id =
        if id = i then (T.lookup id).map fun row => { row with revokedAt := some now }
        else T.lookup id := by
    unfold Db.revokeSession
    split_ifs with hid
    · subst hid
      cases h : T.lookup id with
      | none => simp [h]
      | some row => simp
    · cases T.lookup i with
      | none => rfl
      | some row => exact AList.lookup_insert_ne hid
  simp only [Db.apply]
  generalize s.customerSessions = T
  induction ids generalizing T with
  | nil => rfl
  | cons i ids ih =>
    rw [List.foldl_cons, ih, hone]
    by_cases hid : id = i
    · subst hid
      simp only [if_true, List.mem_cons, true_or]
      split_ifs
      · cases T.lookup id <;> rfl
      · rfl
    · simp [hid]

/-- Ending sessions. -/
theorem storeStep_sessionsRevoke {ids : List Uuid} (now : Millis)
    (hheld : ∀ id ∈ ids, .session id ∈ held) :
    StoreStep held fresh s (s.apply (.sessionsRevoke ids now)) := by
  have hold {i : Uuid} {r : CustomerSession}
      (hr : (s.apply (.sessionsRevoke ids now)).customerSessions.lookup i = some r) :
      ∃ row, s.customerSessions.lookup i = some row ∧
        row.refreshTokenHash = r.refreshTokenHash ∧ row.customerId = r.customerId := by
    rw [lookup_sessionsRevoke] at hr
    split_ifs at hr
    · obtain ⟨row, hrow, rfl⟩ := Option.map_eq_some_iff.mp hr
      exact ⟨row, hrow, rfl, rfl⟩
    · exact ⟨r, hr, rfl, rfl⟩
  refine .of_sessions rfl (fun i r hr => ?_) (fun i hi => ?_) (fun customerId hk i h => ?_) ?_
  · rw [lookup_sessionsRevoke, hr]
    split_ifs
    · exact ⟨_, rfl, rfl, fun _ => rfl⟩
    · exact ⟨r, rfl, .refl r⟩
  · rw [lookup_sessionsRevoke, if_neg fun hmem => hi (hheld i hmem)]
  · obtain ⟨r, hr, rfl⟩ := h
    obtain ⟨row, hrow, -, hcustomer⟩ := hold hr
    exact ⟨row, hrow, hcustomer⟩
  · intro i r hr
    obtain ⟨row, hrow, hhash, -⟩ := hold hr
    exact .inr ⟨row, hrow, hhash⟩

/-- Writing over a code. -/
theorem storeStep_tokenUpdate {row row' : CustomerToken} (hheld : .token id ∈ held)
    (hrow : s.customerTokens.lookup id = some row) (hage : row.Ages row') :
    StoreStep held fresh s (s.apply (.tokenUpdate id row')) := by
  have hlookup (i : Uuid) : (s.apply (.tokenUpdate id row')).customerTokens.lookup i =
      if i = id then some row' else s.customerTokens.lookup i := by
    split_ifs with hi
    · subst hi
      exact AList.lookup_insert _
    · exact AList.lookup_insert_ne hi
  -- no code gets another hash
  have hold {i : Uuid} {r : CustomerToken}
      (hr : (s.apply (.tokenUpdate id row')).customerTokens.lookup i = some r) :
      ∃ row, s.customerTokens.lookup i = some row ∧ row.tokenHash = r.tokenHash := by
    rw [hlookup] at hr
    split_ifs at hr with heq
    · subst heq
      cases hr
      exact ⟨row, hrow, hage.tokenHash.symm⟩
    · exact ⟨r, hr, rfl⟩
  refine ⟨fun h i j r r' hr hr' heq => ?_, ⟨fun i r hr => ⟨r, hr, .refl r⟩, fun i r hr => ?_⟩,
    fun k hk => ?_, fun i r hr => .inr ⟨r, hr, rfl⟩⟩
  · obtain ⟨r₀, hr₀, hhash⟩ := hold hr
    obtain ⟨r₁, hr₁, hhash'⟩ := hold hr'
    exact h hr₀ hr₁ (by rw [hhash, hhash', heq])
  · rw [hlookup]
    split_ifs with heq
    · subst heq
      obtain rfl := Option.some.inj (hrow.symm.trans hr)
      exact ⟨row', rfl, hage⟩
    · exact ⟨r, hr, .refl r⟩
  · cases k with
    | token i =>
      change s.customerTokens.lookup i = _
      rw [hlookup, if_neg]
      rintro rfl
      exact hk hheld
    | session i => rfl
    | customer customerId => exact fun i => Iff.rfl

/-- Writing over a customer. -/
theorem storeStep_customerUpdate (id : Uuid) (row : Customer) :
    StoreStep held fresh s (s.apply (.customerUpdate id row)) where
  codes h := h
  ages := ⟨fun _ r hr => ⟨r, hr, .refl r⟩, fun _ r hr => ⟨r, hr, .refl r⟩⟩
  agree k _ := by
    cases k with
    | customer customerId => exact fun i => Iff.rfl
    | _ => rfl
  hashes i r hr := .inr ⟨r, hr, rfl⟩

end PulseOps.Storefront
