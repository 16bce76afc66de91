import PulseOps.Model.Auth
import PulseOps.ReadCommitted.Observation

/-!
# The table of refresh tokens

What rotations and revocations do to the refresh tokens. A row is never deleted, and all of
it but `revokedAt` is written once; so a token only ages, from unrevoked to revoked.

## Main definitions

* `Ages` — one table of tokens some time after another.
* `HashesDiffer` — no two tokens have the same hash.
* `Unused` — the random values of a request are not in the table yet.
* `tokenContract` — the contract of the requests that write to the table.

## Main results

* `lookup_revokeAll` — what an `updateMany` leaves.
* `triple_revoke` — which edit an `updateMany` makes.
-/

set_option autoImplicit false

open ReadCommitted Program Contract

namespace PulseOps.Accounts

abbrev Tokens := Table Uuid RefreshToken

variable {T T' T'' : Tokens} {id : Uuid} {row row' : RefreshToken}

/-! ### Ageing -/

/-- A row some time later: another `revokedAt` perhaps, but never none again. -/
structure RefreshToken.Ages (row row' : RefreshToken) : Prop where
  same : row' = { row with revokedAt := row'.revokedAt }
  revoked : row.revokedAt.isSome → row'.revokedAt.isSome

theorem RefreshToken.Ages.refl (row : RefreshToken) : row.Ages row := ⟨rfl, id⟩

theorem RefreshToken.Ages.trans {row'' : RefreshToken} (h : row.Ages row')
    (h' : row'.Ages row'') : row.Ages row'' where
  same := by rw [h'.same, h.same]
  revoked hrow := h'.revoked (h.revoked hrow)

/-- Revoking a row, again perhaps. -/
theorem RefreshToken.ages_revoked (row : RefreshToken) (now : Millis) :
    row.Ages { row with revokedAt := some now } := ⟨rfl, fun _ => rfl⟩

theorem RefreshToken.Ages.tokenHash (h : row.Ages row') : row'.tokenHash = row.tokenHash := by
  rw [h.same]

theorem RefreshToken.Ages.sessionId (h : row.Ages row') : row'.sessionId = row.sessionId := by
  rw [h.same]

theorem RefreshToken.Ages.userId (h : row.Ages row') : row'.userId = row.userId := by
  rw [h.same]

theorem RefreshToken.Ages.tenantId (h : row.Ages row') : row'.tenantId = row.tenantId := by
  rw [h.same]

/-- The table `T'` some time after `T`. -/
def Ages (T T' : Tokens) : Prop :=
  ∀ id row, T.lookup id = some row → ∃ row', T'.lookup id = some row' ∧ row.Ages row'

theorem Ages.refl (T : Tokens) : Ages T T := fun _ row h => ⟨row, h, .refl row⟩

theorem Ages.trans (h : Ages T T') (h' : Ages T' T'') : Ages T T'' := by
  intro id row hrow
  obtain ⟨row', hrow', hage⟩ := h id row hrow
  obtain ⟨row'', hrow'', hage'⟩ := h' id row' hrow'
  exact ⟨row'', hrow'', hage.trans hage'⟩

/-! ### What the edits leave -/

/-- The rows `ids` revoked. -/
def revokeAll (T : Tokens) (now : Millis) (ids : List Uuid) : Tokens :=
  ids.foldl (fun T id => Db.revokeToken T now id) T

theorem lookup_revokeToken (T : Tokens) (now : Millis) (id id' : Uuid) :
    (Db.revokeToken T now id').lookup id =
      if id = id' then (T.lookup id).map fun row => { row with revokedAt := some now }
      else T.lookup id := by
  unfold Db.revokeToken
  split_ifs with hid
  · subst hid
    cases h : T.lookup id with
    | none => simp [h]
    | some row => simp
  · cases T.lookup id' with
    | none => rfl
    | some row => exact AList.lookup_insert_ne hid

/-- What an `updateMany` leaves. -/
theorem lookup_revokeAll (T : Tokens) (now : Millis) (ids : List Uuid) (id : Uuid) :
    (revokeAll T now ids).lookup id =
      if id ∈ ids then (T.lookup id).map fun row => { row with revokedAt := some now }
      else T.lookup id := by
  induction ids generalizing T with
  | nil => rfl
  | cons id' ids ih =>
    change (revokeAll (Db.revokeToken T now id') now ids).lookup id = _
    rw [ih, lookup_revokeToken]
    by_cases hid : id = id'
    · subst hid
      simp only [if_true, List.mem_cons, true_or]
      split_ifs
      · cases T.lookup id <;> rfl
      · rfl
    · simp [hid]

theorem ages_revokeAll (T : Tokens) (now : Millis) (ids : List Uuid) :
    Ages T (revokeAll T now ids) := by
  intro id row hrow
  rw [lookup_revokeAll, hrow]
  split_ifs
  · exact ⟨_, rfl, row.ages_revoked now⟩
  · exact ⟨row, rfl, .refl row⟩

/-- A rotation: the row `id` is revoked and the row `id'` is new. -/
theorem ages_rotate {id' : Uuid} {now : Millis} (hid : T.lookup id = some row)
    (hid' : T.lookup id' = none) :
    Ages T ((T.insert id { row with revokedAt := some now }).insert id' row') := by
  intro i r hi
  have hne : i ≠ id' := by
    rintro rfl
    rw [hid'] at hi
    cases hi
  rw [AList.lookup_insert_ne hne]
  by_cases hi' : i = id
  · subst hi'
    obtain rfl : row = r := Option.some.inj (hid.symm.trans hi)
    exact ⟨_, AList.lookup_insert _, row.ages_revoked now⟩
  · exact ⟨r, by rw [AList.lookup_insert_ne hi', hi], .refl r⟩

/-- The rows after a rotation. -/
theorem lookup_rotate {id' i : Uuid} {old new r : RefreshToken}
    (h : ((T.insert id old).insert id' new).lookup i = some r) :
    (i = id' ∧ r = new) ∨ (i = id ∧ r = old) ∨ (i ≠ id' ∧ i ≠ id ∧ T.lookup i = some r) := by
  by_cases hi' : i = id'
  · subst hi'
    rw [AList.lookup_insert] at h
    exact .inl ⟨rfl, (Option.some.inj h).symm⟩
  rw [AList.lookup_insert_ne hi'] at h
  by_cases hi : i = id
  · subst hi
    rw [AList.lookup_insert] at h
    exact .inr (.inl ⟨rfl, (Option.some.inj h).symm⟩)
  · rw [AList.lookup_insert_ne hi] at h
    exact .inr (.inr ⟨hi', hi, h⟩)

/-! ### Hashes -/

/-- No two tokens have the same hash. -/
def HashesDiffer (T : Tokens) : Prop :=
  ∀ ⦃id id' row row'⦄, T.lookup id = some row → T.lookup id' = some row' →
    row.tokenHash = row'.tokenHash → id = id'

/-- The token that a request presents is the one with its hash. -/
theorem findByHash_eq_some {ρ : Type} {hash : ρ → String} {tokenHash : String}
    {t : Table Uuid ρ} {x : Uuid × ρ} (h : AuthRepository.findByHash hash tokenHash t = some x) :
    t.lookup x.1 = some x.2 ∧ hash x.2 = tokenHash := by
  obtain ⟨y, hy, rfl⟩ := Option.map_eq_some_iff.mp h
  have hmem := List.mem_of_find?_eq_some hy
  have hhash := List.find?_some hy
  simp only [decide_eq_true_eq] at hhash
  exact ⟨AList.mem_lookup_iff.mpr hmem, hhash⟩

theorem HashesDiffer.revokeAll (h : HashesDiffer T) (now : Millis) (ids : List Uuid) :
    HashesDiffer (revokeAll T now ids) := by
  have hold {id : Uuid} {row : RefreshToken}
      (hrow : (Accounts.revokeAll T now ids).lookup id = some row) :
      ∃ row₀, T.lookup id = some row₀ ∧ row₀.tokenHash = row.tokenHash := by
    rw [lookup_revokeAll] at hrow
    split_ifs at hrow
    · obtain ⟨row₀, hrow₀, rfl⟩ := Option.map_eq_some_iff.mp hrow
      exact ⟨row₀, hrow₀, rfl⟩
    · exact ⟨row, hrow, rfl⟩
  intro id id' row row' hrow hrow' heq
  obtain ⟨r, hr, hhash⟩ := hold hrow
  obtain ⟨r', hr', hhash'⟩ := hold hrow'
  exact h hr hr' (by rw [hhash, hhash', heq])

theorem HashesDiffer.rotate {id' : Uuid} {now : Millis} (h : HashesDiffer T)
    (hid : T.lookup id = some row)
    (hnew : ∀ id r, T.lookup id = some r → r.tokenHash ≠ row'.tokenHash) :
    HashesDiffer ((T.insert id { row with revokedAt := some now }).insert id' row') := by
  have hold {i : Uuid} {r : RefreshToken}
      (hr : ((T.insert id { row with revokedAt := some now }).insert id' row').lookup i = some r) :
      (i = id' ∧ r = row') ∨ ∃ r₀, T.lookup i = some r₀ ∧ r₀.tokenHash = r.tokenHash := by
    rcases lookup_rotate hr with hi | ⟨rfl, rfl⟩ | ⟨-, -, hi⟩
    · exact .inl hi
    · exact .inr ⟨row, hid, rfl⟩
    · exact .inr ⟨r, hi, rfl⟩
  intro i j r r' hr hr' heq
  rcases hold hr with ⟨rfl, rfl⟩ | ⟨r₀, hr₀, hhash⟩ <;>
    rcases hold hr' with ⟨rfl, rfl⟩ | ⟨r₁, hr₁, hhash'⟩
  · rfl
  · exact absurd (hhash'.trans heq.symm) (hnew _ _ hr₁)
  · exact absurd (hhash.trans heq) (hnew _ _ hr₀)
  · exact h hr₀ hr₁ (by rw [hhash, hhash', heq])

/-! ### Random values -/

/-- The random values of a request are not in the table yet. -/
def Unused (crypto : Crypto) (r : RefreshRequest) (T : Tokens) : Prop :=
  ∀ id row, T.lookup id = some row →
    row.tokenHash ≠ crypto.hashToken r.newToken ∧ row.sessionId ≠ some r.newSessionId

variable {crypto : Crypto}

theorem Unused.revokeAll {r : RefreshRequest} (h : Unused crypto r T) (now : Millis)
    (ids : List Uuid) : Unused crypto r (revokeAll T now ids) := by
  intro id row hrow
  rw [lookup_revokeAll] at hrow
  split_ifs at hrow
  · obtain ⟨row₀, hrow₀, rfl⟩ := Option.map_eq_some_iff.mp hrow
    exact h id row₀ hrow₀
  · exact h id row hrow

/-! ### The contract -/

/-- Who has which email address. -/
def emails (s : Db) (id : Uuid) : Option String := (s.users.lookup id).map (·.email)

theorem emails_userUpdate {s : Db} {id : Uuid} {u u' : User} (hu : s.users.lookup id = some u)
    (hemail : u'.email = u.email) : emails (s.apply (.userUpdate id u')) = emails s := by
  funext id'
  unfold emails
  by_cases hid : id' = id
  · subst hid
    simp [hu, hemail]
  · simp [AList.lookup_insert_ne hid]

/-- What the requests that write refresh tokens agree on, for an invariant of one's own. -/
def tokenContract (J : Db → Prop) : Contract accounts where
  inv s := HashesDiffer s.refreshTokens ∧ J s
  evolves s s' := Ages s.refreshTokens s'.refreshTokens ∧ emails s' = emails s
  agree
    | .refreshToken id, s, s' => s.refreshTokens.lookup id = s'.refreshTokens.lookup id
    | .user id, s, s' => s.users.lookup id = s'.users.lookup id
    | _, _, _ => True
  evolves_refl s := ⟨.refl _, rfl⟩
  evolves_trans h h' := ⟨h.1.trans h'.1, h'.2.trans h.2⟩
  agree_refl k s := by cases k <;> trivial
  agree_trans {k s₁ s₂ s₃} h h' := by
    cases k <;> first | trivial | exact h.trans h'

/-- The tables of the users and their refresh tokens. -/
def tokenTables : Observation accounts (Tokens × Table Uuid User) where
  see s := (s.refreshTokens, s.users)
  touches
    | .userUpdate _ _ => true
    | .userDelete _ => true
    | .refreshTokenInsert _ _ => true
    | .refreshTokenUpdate _ _ => true
    | .refreshTokensRevoke _ _ _ => true
    | _ => false
  see_apply {s e} he := by cases e <;> simp_all
  see_congr {s s' e} h := by cases e <;> simp_all [Db.deleteUser]

/-- What the others leave alone for a request: its random values. -/
def randomValues (crypto : Crypto) (requests : List AuthRequest) : Ownership Db where
  keeps i s s' := ∀ r, requests[i]? = some (.refresh r) →
    Unused crypto r s.refreshTokens → Unused crypto r s'.refreshTokens
  keeps_refl _ _ _ _ h := h
  keeps_trans h h' r hr hunused := h' r hr (h r hr hunused)

/-- The contract, as the request `i` may rely on it. -/
abbrev tokenView (J : Db → Prop) (crypto : Crypto) (requests : List AuthRequest) (i : ℕ) :
    Contract accounts := (tokenContract J).ownedBy (randomValues crypto requests) i

section Statements

variable {J : Db → Prop} {requests : List AuthRequest} {i : ℕ} {R : Discipline accounts}

/-- The row of a token under its lock. -/
def lockedToken (J : Db → Prop) (crypto : Crypto) (requests : List AuthRequest) (i : ℕ)
    (id : Uuid) (x : Option RefreshToken) : (tokenView J crypto requests i).Knowledge :=
  .under (.refreshToken id) (fun s => s.refreshTokens.lookup id = x)
    fun hagree hx => Eq.trans (Eq.symm hagree) hx

/-- A token was read as `stored` at some time. -/
def readToken (J : Db → Prop) (crypto : Crypto) (requests : List AuthRequest) (i : ℕ)
    (id : Uuid) (stored : RefreshToken) : (tokenView J crypto requests i).Knowledge :=
  .lasting (fun s => ∃ row, s.refreshTokens.lookup id = some row ∧ stored.Ages row)
    fun _ _ hev ⟨row, hrow, hage⟩ =>
      let ⟨row', hrow', hage'⟩ := hev.1.1 id row hrow
      ⟨row', hrow', hage.trans hage'⟩

/-- The random values of a request are unused. -/
def unusedValues (J : Db → Prop) (crypto : Crypto) (requests : List AuthRequest) (i : ℕ)
    (r : RefreshRequest) (hr : requests[i]? = some (.refresh r)) :
    (tokenView J crypto requests i).Knowledge :=
  .lasting (fun s => Unused crypto r s.refreshTokens) fun _ _ hev h => hev.2 r hr h

/-- The rows of an `updateMany` under their locks: each of them still meets the `where`. -/
def selectedTokens (J : Db → Prop) (crypto : Crypto) (requests : List AuthRequest) (i : ℕ)
    (w : Revocation) (ids : List Uuid) : (tokenView J crypto requests i).Knowledge :=
  .all ids fun id => .under (.refreshToken id)
    (fun s => (s.refreshTokens.lookup id).any w.selects = true) fun hagree h =>
      (congrArg (fun x => Option.any w.selects x) hagree).symm.trans h

variable {K : (tokenView J crypto requests i).Knowledge}

/-- What an `updateMany` writes. -/
theorem triple_revoke (w : Revocation) (now : Millis) :
    (tokenView J crypto requests i).Triple R (tokenTables.After K [])
      (AuthRepository.revoke w now) fun n t s => ∃ ids, n = ids.length ∧
        tokenTables.After (K.and (selectedTokens J crypto requests i w ids))
          [.refreshTokensRevoke w ids now] t s := by
  refine (Observation.triple_readsOnly (.query _)).bind fun found => ?_
  refine Observation.triple_makes (E := fun ids => .refreshTokensRevoke w ids now)
    (P := fun _ => True)
    (A := fun ids => K.and (selectedTokens J crypto requests i w ids)) ?_ fun ids _ => ?_
  · intro t s e hs h he _
    obtain rfl := Except.ok.inj he
    have htokens : (t.view s).refreshTokens = s.refreshTokens := congrArg Prod.fst h.see_view
    rw [htokens]
    refine ⟨_, rfl, rfl, trivial, K.mono (List.subset_append_right _ _) h.knows, fun id hid => ?_⟩
    refine ⟨List.mem_append_left _ (List.mem_map_of_mem hid), ?_⟩
    simpa using (List.mem_filter.mp hid).2
  · exact fun t s hs h s' hr => ⟨ids, rfl, Observation.After.stable t s s' hs h hr⟩

/-- The policy lets a token be rotated only while it is unrevoked. -/
def RotatesUnrevoked (R : Discipline accounts) : Prop :=
  ∀ s t id row, R.write s t (.refreshTokenUpdate id row) = true →
    ((t.view s).refreshTokens.lookup id).any (·.revokedAt = none) = true

/-- What a rotation writes: the token it finds is unrevoked and has the hash of the request. -/
theorem triple_rotate (hR : RotatesUnrevoked R) (req : RefreshRequest) (stored : RefreshToken)
    (userId : Uuid) : (tokenView J crypto requests i).Triple R (tokenTables.After K [])
      (AuthService.rotate crypto req stored userId) fun _ t s => ∃ id row,
        row.tokenHash = crypto.hashToken req.refreshToken ∧ row.revokedAt = none ∧
        tokenTables.After ((K.and (lockedToken J crypto requests i id (some row))).and
            (lockedToken J crypto requests i req.newTokenId none))
          [.refreshTokenUpdate id { row with revokedAt := some req.now },
            .refreshTokenInsert req.newTokenId (AuthService.rotatedToken crypto req stored userId)]
          t s := by
  refine Observation.triple_query
    (A := fun found => K.and (.lasting (fun s => ∀ x ∈ found, ∃ row,
      s.refreshTokens.lookup x.1 = some row ∧ x.2.Ages row ∧
        row.tokenHash = crypto.hashToken req.refreshToken) ?_)) ?_ fun found => ?_
  · -- others may revoke the token before it is locked, but its hash stays
    intro s s' _ _ hev h x hx
    obtain ⟨row, hrow, hage, hhash⟩ := h x hx
    obtain ⟨row', hrow', hage'⟩ := hev.1.1 _ _ hrow
    exact ⟨row', hrow', hage.trans hage', hage'.tokenHash.trans hhash⟩
  · intro held s v _ hK hsee
    refine ⟨hK, fun x hx => ?_⟩
    have htokens : v.refreshTokens = s.refreshTokens := congrArg Prod.fst hsee
    obtain ⟨hrow, hhash⟩ := findByHash_eq_some hx
    rw [htokens] at hrow
    exact ⟨_, hrow, .refl _, hhash⟩
  · refine Triple.orRaise_bind fun old hold => ?_
    refine Observation.triple_makes
      (E := fun row : RefreshToken =>
        .refreshTokenUpdate old.1 { row with revokedAt := some req.now })
      (P := fun row =>
        row.tokenHash = crypto.hashToken req.refreshToken ∧ row.revokedAt = none)
      (A := fun row => K.and (lockedToken J crypto requests i old.1 (some row))) ?_
      fun row hfound => ?_
    · intro t s e hs h he hok
      obtain ⟨row, hrow, rfl⟩ := Statement.updateRefreshToken_eq_ok.mp he
      -- the update has gone through, so the policy has seen the row unrevoked
      have hlive := hR s t _ _ hok
      have htokens : (t.view s).refreshTokens = s.refreshTokens := congrArg Prod.fst h.see_view
      rw [hrow] at hlive
      rw [htokens] at hrow
      obtain ⟨row', hrow', -, hhash⟩ := h.knows.2 old hold
      obtain rfl : row' = row := Option.some.inj (hrow'.symm.trans hrow)
      refine ⟨row', rfl, rfl, ⟨hhash, by simpa using hlive⟩, ?_⟩
      exact ⟨K.mono (List.subset_append_right _ _) h.knows.1,
        List.mem_append_left _ (List.mem_singleton_self _), hrow⟩
    · refine Observation.triple_makes (P := fun _ => True)
        (E := fun _ : Unit => .refreshTokenInsert req.newTokenId
          (AuthService.rotatedToken crypto req stored userId))
        (A := fun _ => (K.and (lockedToken J crypto requests i old.1 (some row))).and
          (lockedToken J crypto requests i req.newTokenId none)) ?_ fun _ _ => ?_
      · intro t s e hs h he _
        obtain ⟨hnone, rfl⟩ := Statement.insertRefreshToken_eq_ok he
        have htokens : (t.view s).refreshTokens = s.refreshTokens.insert old.1
            { row with revokedAt := some req.now } := congrArg Prod.fst h.see_view
        rw [htokens] at hnone
        have hne : req.newTokenId ≠ old.1 := by
          intro heq
          rw [heq, AList.lookup_insert] at hnone
          cases hnone
        rw [AList.lookup_insert_ne hne] at hnone
        exact ⟨(), rfl, rfl, trivial, Knowledge.mono _ (List.subset_append_right _ _) h.knows,
          List.mem_append_left _ (List.mem_singleton_self _), hnone⟩
      · exact fun t s hs h s' hr => ⟨old.1, row, hfound.1, hfound.2,
          Observation.After.stable t s s' hs h hr⟩

end Statements

end PulseOps.Accounts
