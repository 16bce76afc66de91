import PulseOps.Storefront.Sessions

/-!
# What the storefront's sign-in requests do

Every transaction of a request rotates the token of one session, or ends one session, or
redeems a code, or writes nothing.

## Main definitions

* `SessionWork` — everything a transaction of a request can do.

## Main results

* `triple_program` — every request does one of these things.
* `SessionWork.step` — all of them keep the contract.
-/

set_option autoImplicit false

open ReadCommitted Program Contract

namespace PulseOps.Storefront

open StorefrontAuthService

/-- The random bytes of a request. -/
def AuthRequest.secret : AuthRequest → Option String
  | .refresh r => some r.secret
  | .logout _ => none
  | .setPassword r => some r.secret

/-! ### What is known under locks -/

/-- All the tables. -/
abbrev tables : Observation storefront Db := .whole storefront

/-- The row of a session under its lock. -/
def lockedSession (id : Uuid) (x : Option CustomerSession) : sessionContract.Knowledge :=
  .under (.session id) (fun s => s.customerSessions.lookup id = x)
    fun hagree hx => Eq.trans (Eq.symm hagree) hx

/-- The row of a code under its lock. -/
def lockedToken (id : Uuid) (row : CustomerToken) : sessionContract.Knowledge :=
  .under (.token id) (fun s => s.customerTokens.lookup id = some row)
    fun hagree hx => Eq.trans (Eq.symm hagree) hx

/-- A code was read as `stored` at some time. -/
def readToken (id : Uuid) (stored : CustomerToken) : sessionContract.Knowledge :=
  .lasting (fun s => ∃ row, s.customerTokens.lookup id = some row ∧ stored.Ages row)
    fun _ _ hev ⟨row, hrow, hage⟩ =>
      let ⟨row', hrow', hage'⟩ := hev.tokens id row hrow
      ⟨row', hrow', hage.trans hage'⟩

/-- Every session of a customer is revoked or one of `ids`. Nobody adds a session while the
customer is locked. -/
def sawSessions (customerId : Uuid) (ids : List Uuid) : sessionContract.Knowledge where
  holds held s := .customer customerId ∈ held ∧ ∀ id row,
    s.customerSessions.lookup id = some row → row.customerId = customerId →
      row.revokedAt.isSome ∨ id ∈ ids
  mono hsub h := ⟨hsub h.1, h.2⟩
  stable {t s s'} _ h hr := by
    refine ⟨h.1, fun id row' hrow' hcustomer => ?_⟩
    have hagree := hr.agree _ h.1 id
    obtain ⟨row, hrow, hcustomer₀⟩ := hagree.mpr ⟨row', hrow', hcustomer⟩
    refine (h.2 id row hrow hcustomer₀).imp_left fun hrevoked => ?_
    obtain ⟨row'', hrow'', hage⟩ := hr.evolves.sessions id row hrow
    obtain rfl := Option.some.inj (hrow''.symm.trans hrow')
    exact hage.revoked hrevoked

/-! ### What a transaction does -/

variable (sha256 : String → String)

/-- The row of a new session, before and after it gets its hash. -/
def newSession (r : SetPasswordRequest) (customerId : Uuid) (refreshTokenHash : String) :
    CustomerSession where
  tenantId := r.storeId
  customerId := customerId
  refreshTokenHash := refreshTokenHash
  expiresAt := r.now + sessionLifetime

/-- What `setPassword` writes: the code is used, the customer has a password, the sessions
`ids` are revoked and there is a new one. -/
def redeemEdits (r : SetPasswordRequest) (id : Uuid) (row : CustomerToken) (customerId : Uuid)
    (customer : Customer) (ids : List Uuid) : List Edit :=
  [.tokenUpdate id { row with usedAt := some r.now },
    .customerUpdate customerId customer,
    .sessionsRevoke ids r.now,
    .sessionInsert r.newSessionId (newSession r customerId "pending"),
    .sessionUpdate r.newSessionId
      (newSession r customerId (sha256 (refreshTokenOf r.newSessionId r.secret)))]

/-- Everything the transaction of a request can do before the request ends with `a`. -/
inductive SessionWork (sha256 : String → String) :
    AuthRequest → Except Failure AuthResponse → Transaction storefront → Db → Prop
  | rotated {r : RefreshRequest} {result : Tokens} {row : CustomerSession}
      {t : Transaction storefront} {s : Db}
      (hhash : row.refreshTokenHash = sha256 r.refreshToken) (hlive : row.revokedAt = none)
      (h : tables.After (lockedSession (sessionIdOf r.refreshToken) (some row))
        [.sessionUpdate (sessionIdOf r.refreshToken)
          { row with
            refreshTokenHash := sha256 (refreshTokenOf (sessionIdOf r.refreshToken) r.secret)
            lastUsedAt := some r.now }] t s) :
      SessionWork sha256 (.refresh r) (.ok (.tokens result)) t s
  | ended {q : AuthRequest} {a : Except Failure AuthResponse} {id : Uuid} {row : CustomerSession}
      {now : Millis} {t : Transaction storefront} {s : Db} (ha : ∀ result, a ≠ .ok (.tokens result))
      (h : tables.After (lockedSession id (some row))
        [.sessionUpdate id { row with revokedAt := some now }] t s) : SessionWork sha256 q a t s
  | idle {q : AuthRequest} {a : Except Failure AuthResponse} {t : Transaction storefront} {s : Db}
      (ha : ∀ result, a ≠ .ok (.tokens result))
      (h : tables.After (.none : sessionContract.Knowledge) [.nothing] t s) :
      SessionWork sha256 q a t s
  | redeemed {r : SetPasswordRequest} {result : Tokens} {id : Uuid} {row : CustomerToken}
      {customer : Customer} {ids : List Uuid} {t : Transaction storefront} {s : Db}
      (hhash : row.tokenHash = sha256 r.token) (hunused : row.usedAt = none)
      (h : tables.After (((lockedToken id row).and (sawSessions row.customerId ids)).and
          (lockedSession r.newSessionId none))
        (redeemEdits sha256 r id row row.customerId customer ids) t s) :
      SessionWork sha256 (.setPassword r) (.ok (.tokens result)) t s

variable {sha256} {R : Discipline storefront} {K : sessionContract.Knowledge} {es : List Edit}

theorem SessionWork.stable (q : AuthRequest) (a : Except Failure AuthResponse) :
    sessionContract.Stable (SessionWork sha256 q a) := by
  intro t s s' hs h hr
  cases h with
  | rotated hhash hlive h => exact .rotated hhash hlive (Observation.After.stable t s s' hs h hr)
  | ended ha h => exact .ended ha (Observation.After.stable t s s' hs h hr)
  | idle ha h => exact .idle ha (Observation.After.stable t s s' hs h hr)
  | redeemed hhash hunused h =>
    exact .redeemed hhash hunused (Observation.After.stable t s s' hs h hr)

/-! ### Statements -/

variable {β : Type} {Q : β → Transaction storefront → Db → Prop}

/-- An `updateMany` of one session, as the first statement that writes. -/
theorem triple_updateSessionWhere {id : Uuid} {p : CustomerSession → Bool}
    {change : CustomerSession → CustomerSession} {f : Edit → Sql β}
    (hnone : sessionContract.Triple R (tables.After K [.nothing]) (f .nothing) Q)
    (hsome : ∀ row, p row = true → sessionContract.Triple R
      (tables.After (lockedSession id (some row)) [.sessionUpdate id (change row)])
      (f (.sessionUpdate id (change row))) Q) :
    sessionContract.Triple R (tables.After K [])
      (.write (Statement.updateSessionWhere id p change) f) Q := by
  refine Observation.triple_makes (P := fun x : Option CustomerSession => ∀ row ∈ x, p row = true)
    (E := fun x => x.elim .nothing fun row => .sessionUpdate id (change row))
    (A := fun x => x.elim K fun row => lockedSession id (some row)) ?_ fun x hx => ?_
  · intro t s e hs h he _
    have hview : t.view s = s := h.see_view
    rw [hview] at he
    rcases Statement.updateRowWhere_eq_ok he with rfl | ⟨row, hrow, hp, rfl⟩
    · exact ⟨none, rfl, rfl, fun _ h => (nomatch h), h.knows⟩
    · refine ⟨some row, rfl, rfl, fun r hr => ?_, List.mem_append_left _ ?_, hrow⟩
      · cases hr
        exact hp
      · exact List.mem_singleton_self _
  · cases x with
    | none => exact hnone
    | some row => exact hsome row (hx row rfl)

/-- An `update` of one session, as the first statement that writes. -/
theorem triple_updateSession {id : Uuid} {change : CustomerSession → CustomerSession}
    {f : Edit → Sql β}
    (hf : ∀ row, sessionContract.Triple R
      (tables.After (lockedSession id (some row)) [.sessionUpdate id (change row)])
      (f (.sessionUpdate id (change row))) Q) :
    sessionContract.Triple R (tables.After K [])
      (.write (Statement.updateSession id change) f) Q := by
  refine Observation.triple_makes (P := fun _ => True)
    (E := fun row : CustomerSession => Edit.sessionUpdate id (change row))
    (A := fun row => lockedSession id (some row)) ?_ fun row _ => hf row
  intro t s e hs h he _
  have hview : t.view s = s := h.see_view
  rw [hview] at he
  obtain ⟨row, hrow, rfl⟩ := Statement.updateRow_eq_ok.mp he
  exact ⟨row, rfl, rfl, trivial, List.mem_append_left _ (List.mem_singleton_self _), hrow⟩

theorem triple_refresh (r : RefreshRequest) :
    sessionContract.Triple R (tables.After (.none : sessionContract.Knowledge) [])
      (refresh sha256 r) (SessionWork sha256 (.refresh r)) := by
  refine (Observation.triple_readsOnly (.query _)).bind fun found => ?_
  refine Triple.orRaise_bind ?_
  rintro ⟨session, customer⟩ -
  refine Triple.require_bind fun _ => ?_
  split_ifs with hhash
  · refine triple_updateSession fun row t s hs h s' hr => ?_
    exact SessionWork.stable _ _ t s s' hs (.ended (fun _ h => (nomatch h)) h) hr
  · have hpresented := not_not.mp hhash
    refine triple_updateSessionWhere ?_ fun row hp => ?_
    · exact Triple.require_bind fun hcount => absurd rfl hcount
    · simp only [decide_eq_true_eq] at hp
      refine Triple.require_bind fun _ t s hs h s' hr => ?_
      exact SessionWork.stable _ _ t s s' hs (.rotated (hp.1.trans hpresented) hp.2 h) hr

theorem triple_logout (r : LogoutRequest) :
    sessionContract.Triple R (tables.After (.none : sessionContract.Knowledge) [])
      (logout sha256 r) (SessionWork sha256 (.logout r)) := by
  refine triple_updateSessionWhere ?_ fun row _ t s hs h s' hr => ?_
  · intro t s hs h s' hr
    exact SessionWork.stable _ _ t s s' hs (.idle (fun _ h => (nomatch h)) h) hr
  · exact SessionWork.stable _ _ t s s' hs (.ended (fun _ h => (nomatch h)) h) hr

/-! ### Redeeming a code -/

theorem findToken_eq_some {tokenHash : String} {s : Db} {x : Uuid × CustomerToken × Customer}
    (h : findToken tokenHash s = some x) :
    s.customerTokens.lookup x.1 = some x.2.1 ∧ x.2.1.tokenHash = tokenHash := by
  obtain ⟨y, hy, hx⟩ := Option.bind_eq_some_iff.mp h
  obtain ⟨customer, -, rfl⟩ := Option.map_eq_some_iff.mp hx
  have hhash := List.find?_some hy
  simp only [decide_eq_true_eq] at hhash
  exact ⟨AList.mem_lookup_iff.mpr (List.mem_of_find?_eq_some hy), hhash⟩

/-- The `updateMany` that claims a code. -/
theorem triple_claim {id : Uuid} {stored : CustomerToken} {now : Millis} {f : Edit → Sql β}
    (hnone : sessionContract.Triple R (tables.After (readToken id stored) [.nothing])
      (f .nothing) Q)
    (hsome : ∀ row, stored.Ages row → row.usedAt = none → sessionContract.Triple R
      (tables.After (lockedToken id row) [.tokenUpdate id { row with usedAt := some now }])
      (f (.tokenUpdate id { row with usedAt := some now })) Q) :
    sessionContract.Triple R (tables.After (readToken id stored) [])
      (.write (Statement.updateTokenWhere id (fun row => row.usedAt = none)
        fun row => { row with usedAt := some now }) f) Q := by
  refine Observation.triple_makes
    (P := fun x : Option CustomerToken => ∀ row ∈ x, stored.Ages row ∧ row.usedAt = none)
    (E := fun x => x.elim .nothing fun row => .tokenUpdate id { row with usedAt := some now })
    (A := fun x => x.elim (readToken id stored) fun row => lockedToken id row) ?_ fun x hx => ?_
  · intro t s e hs h he _
    have hview : t.view s = s := h.see_view
    rw [hview] at he
    rcases Statement.updateRowWhere_eq_ok he with rfl | ⟨row, hrow, hp, rfl⟩
    · exact ⟨none, rfl, rfl, fun _ h => (nomatch h), h.knows⟩
    · obtain ⟨row', hrow', hage⟩ := h.knows
      obtain rfl := Option.some.inj (hrow.symm.trans hrow')
      refine ⟨some row, rfl, rfl, fun r hr => ?_, List.mem_append_left _ ?_, hrow⟩
      · cases hr
        exact ⟨hage, of_decide_eq_true hp⟩
      · exact List.mem_singleton_self _
  · cases x with
    | none => exact hnone
    | some row => exact hsome row (hx row rfl).1 (hx row rfl).2

/-- The `updateMany` that ends the sessions of a locked customer: it sees all of them. -/
theorem triple_revokeSessions {customerId : Uuid} {now : Millis} {f : Unit → Sql β}
    (hlocked : ∀ held s, K.holds held s → .customer customerId ∈ held)
    (hsessions : ∀ s, (storefront.replay es s).customerSessions = s.customerSessions)
    (hf : ∀ ids, sessionContract.Triple R
      (tables.After (K.and (sawSessions customerId ids)) (es ++ [.sessionsRevoke ids now]))
      (f ()) Q) :
    sessionContract.Triple R (tables.After K es)
      (StorefrontAuthService.revokeSessions customerId now >>= f) Q := by
  unfold StorefrontAuthService.revokeSessions
  rw [bind_assoc]
  refine Observation.triple_query (A := fun found => K.and (sawSessions customerId found)) ?_
    fun found => ?_
  · -- the statement finds every session of the customer that is not revoked
    intro held s v _ hK hsee
    refine ⟨hK, hlocked held s hK, fun id row hrow hcustomer => ?_⟩
    have hview : v.customerSessions = s.customerSessions :=
      (congrArg Db.customerSessions hsee).trans (hsessions s)
    cases hrevoked : row.revokedAt with
    | some at_ => exact .inl rfl
    | none =>
      refine .inr (List.mem_map.mpr ⟨⟨id, row⟩, List.mem_filter.mpr ⟨?_, ?_⟩, rfl⟩)
      · rw [hview]
        exact AList.mem_lookup_iff.mp hrow
      · exact decide_eq_true ⟨hcustomer, hrevoked⟩
  · -- and looks at those again when it has their locks
    refine Observation.triple_makes (P := fun _ => True)
      (E := fun ids : List Uuid => Edit.sessionsRevoke ids now)
      (A := fun ids => K.and (sawSessions customerId ids)) ?_ fun ids _ => hf ids
    intro t s e hs h he _
    obtain rfl := Except.ok.inj he
    have hview : (t.view s).customerSessions = s.customerSessions :=
      (congrArg Db.customerSessions h.see_view).trans (hsessions s)
    refine ⟨_, rfl, rfl, trivial, K.mono (List.subset_append_right _ _) h.knows.1,
      List.mem_append_right _ (hlocked _ _ h.knows.1), fun id row hrow hcustomer => ?_⟩
    rcases h.knows.2.2 id row hrow hcustomer with hrevoked | hfound
    · exact .inl hrevoked
    · cases hrevoked : row.revokedAt with
      | some at_ => exact .inl rfl
      | none =>
        refine .inr (List.mem_filter.mpr ⟨hfound, ?_⟩)
        rw [hview, hrow]
        exact decide_eq_true ⟨hcustomer, hrevoked⟩

/-- The `update` that locks a customer. -/
theorem triple_updateCustomer {customerId : Uuid} {change : Customer → Customer}
    {f : Edit → Sql β}
    (hf : ∀ row, sessionContract.Triple R
      (tables.After (K.and (.locked (.customer customerId)))
        (es ++ [.customerUpdate customerId (change row)]))
      (f (.customerUpdate customerId (change row))) Q) :
    sessionContract.Triple R (tables.After K es)
      (.write (Statement.updateCustomer customerId change) f) Q := by
  refine Observation.triple_makes (P := fun _ => True)
    (E := fun row : Customer => Edit.customerUpdate customerId (change row))
    (A := fun _ => K.and (.locked (.customer customerId))) ?_ fun row _ => hf row
  intro t s e hs h he _
  obtain ⟨row, -, rfl⟩ := Statement.updateRow_eq_ok.mp he
  exact ⟨row, rfl, rfl, trivial, K.mono (List.subset_append_right _ _) h.knows,
    List.mem_append_left _ (List.mem_singleton_self _)⟩

/-- The two statements that create a session. -/
theorem triple_issueSession {r : SetPasswordRequest} {customerId : Uuid} {customer : Customer}
    {f : Tokens → Sql β}
    (hnone : ∀ s, (storefront.replay es s).customerSessions.lookup r.newSessionId = none →
      s.customerSessions.lookup r.newSessionId = none)
    (hf : ∀ tokens, sessionContract.Triple R
      (tables.After (K.and (lockedSession r.newSessionId none))
        (es ++ [.sessionInsert r.newSessionId (newSession r customerId "pending")] ++
          [.sessionUpdate r.newSessionId (newSession r customerId
            (sha256 (refreshTokenOf r.newSessionId r.secret)))])) (f tokens) Q) :
    sessionContract.Triple R (tables.After K es)
      (issueSession sha256 r.storeId customerId customer r.newSessionId r.secret r.now >>= f)
      Q := by
  unfold issueSession
  simp only [bind_assoc]
  refine Observation.triple_makes (P := fun _ => True)
    (E := fun _ : Unit => .sessionInsert r.newSessionId (newSession r customerId "pending"))
    (A := fun _ => K.and (lockedSession r.newSessionId none)) ?_ fun _ _ => ?_
  · intro t s e hs h he _
    obtain ⟨hview, rfl⟩ := Statement.insertSession_eq_ok he
    have hsee : t.view s = storefront.replay es s := h.see_view
    rw [hsee] at hview
    exact ⟨(), rfl, rfl, trivial, K.mono (List.subset_append_right _ _) h.knows,
      List.mem_append_left _ (List.mem_singleton_self _), hnone s hview⟩
  · refine Observation.triple_makes (P := fun _ => True)
      (E := fun _ : Unit => .sessionUpdate r.newSessionId (newSession r customerId
        (sha256 (refreshTokenOf r.newSessionId r.secret))))
      (A := fun _ => K.and (lockedSession r.newSessionId none)) ?_ fun _ _ => hf _
    intro t s e hs h he _
    obtain ⟨row, hrow, rfl⟩ := Statement.updateRow_eq_ok.mp he
    -- the row is the one just created
    have hsee : t.view s = (storefront.replay es s).apply
        (.sessionInsert r.newSessionId (newSession r customerId "pending")) := by
      refine h.see_view.trans ?_
      rw [Database.replay_append]
      rfl
    rw [hsee] at hrow
    obtain rfl := Option.some.inj ((AList.lookup_insert _).symm.trans hrow)
    exact ⟨(), rfl, rfl, trivial, Knowledge.mono _ (List.subset_append_right _ _) h.knows⟩

theorem triple_setPassword (r : SetPasswordRequest) :
    sessionContract.Triple R (tables.After (.none : sessionContract.Knowledge) [])
      (setPassword sha256 r) (SessionWork sha256 (.setPassword r)) := by
  refine Observation.triple_query (A := fun found => Knowledge.and
    (.fact (∀ x ∈ found, x.2.1.tokenHash = sha256 r.token))
    (.all found.toList fun x => readToken x.1 x.2.1)) ?_ fun found => ?_
  · intro held s v _ _ hsee
    refine ⟨fun x hx => (findToken_eq_some hx).2, fun x hx => ?_⟩
    obtain ⟨hrow, -⟩ := findToken_eq_some (Option.mem_toList.mp hx)
    obtain rfl : v = s := hsee
    exact ⟨_, hrow, .refl _⟩
  refine Triple.orRaise_bind ?_
  rintro ⟨id, record, customer⟩ rfl
  refine Triple.require_bind fun _ => ?_
  have hknown (t : Transaction storefront) (s : Db) (h : tables.After (Knowledge.and
      (.fact (∀ x ∈ some (id, record, customer), x.2.1.tokenHash = sha256 r.token))
      (.all (some (id, record, customer)).toList fun x => readToken x.1 x.2.1)) [] t s) :
      record.tokenHash = sha256 r.token ∧ tables.After (readToken id record) [] t s :=
    ⟨h.knows.1 _ rfl, h.mono fun hK => hK.2 _ (List.mem_singleton_self _)⟩
  refine Triple.pre ?_ fun t s _ h => hknown t s h
  refine Triple.of_and fun hrecord => ?_
  -- the code is marked by a conditional update, whose count is checked
  refine triple_claim (Triple.require_bind fun hcount => absurd rfl hcount)
    fun row hage hunused => ?_
  refine Triple.require_bind fun _ => ?_
  refine triple_updateCustomer fun row' => ?_
  refine Triple.orRaise_bind fun shown _ => ?_
  -- the customer is locked by the update of the password
  refine triple_revokeSessions (fun held s hK => hK.2) (fun s => rfl) fun ids => ?_
  refine triple_issueSession (fun s hnone => ?_) fun tokens => ?_
  · -- the identifier of the new session is free
    change ((s.apply (.sessionsRevoke ids r.now)).customerSessions.lookup r.newSessionId) = none
      at hnone
    rw [lookup_sessionsRevoke] at hnone
    split_ifs at hnone
    · exact Option.map_eq_none_iff.mp hnone
    · exact hnone
  · intro t s hs h s' hr
    have hafter : tables.After
        (((lockedToken id row).and (sawSessions row.customerId ids)).and
          (lockedSession r.newSessionId none))
        (redeemEdits sha256 r id row row.customerId (verified r customer row') ids) t s := by
      rw [hage.customerId]
      exact h.mono fun hK => ⟨⟨hK.1.1.1, hK.1.2⟩, hK.2⟩
    exact SessionWork.stable _ _ t s s' hs
      (.redeemed (hage.tokenHash.trans hrecord) hunused hafter) hr

/-- **Every request.** -/
theorem triple_program (q : AuthRequest) :
    sessionContract.Triple R (tables.After (.none : sessionContract.Knowledge) [])
      (program sha256 q) (SessionWork sha256 q) := by
  cases q with
  | refresh r => exact triple_refresh r
  | logout r => exact triple_logout r
  | setPassword r => exact triple_setPassword r

/-! ### What all of it keeps -/

/-- The hash of a token with the secret of the request. -/
def Issues (sha256 : String → String) (q : AuthRequest) (refreshTokenHash : String) : Prop :=
  ∃ secret sessionId, q.secret = some secret ∧
    refreshTokenHash = sha256 (refreshTokenOf sessionId secret)

variable {q : AuthRequest} {a : Except Failure AuthResponse} {t : Transaction storefront} {s : Db}

/-- The state after a redeemed code: the two edits of the new session come to one. -/
theorem replay_redeemEdits (r : SetPasswordRequest) (id : Uuid) (row : CustomerToken)
    (customerId : Uuid) (customer : Customer) (ids : List Uuid) (s : Db) :
    storefront.replay (redeemEdits sha256 r id row customerId customer ids) s =
      (((s.apply (.tokenUpdate id { row with usedAt := some r.now })).apply
        (.customerUpdate customerId customer)).apply (.sessionsRevoke ids r.now)).apply
        (.sessionInsert r.newSessionId (newSession r customerId
          (sha256 (refreshTokenOf r.newSessionId r.secret)))) := by
  simp [redeemEdits, Database.replay_cons, AList.insert_insert]

/-- **What a request does keeps the contract**, and the hashes it writes are its own. -/
theorem SessionWork.step (h : SessionWork sha256 q a t s) :
    StoreStep t.held (Issues sha256 q) s (t.view s) := by
  cases h with
  | @rotated r result row _ _ hhash hlive h =>
    have hview : t.view s = _ := h.see_view
    rw [hview]
    refine storeStep_sessionUpdate h.knows.1 h.knows.2 ⟨rfl, fun hrow => hrow⟩ (.inl ?_)
    exact ⟨r.secret, sessionIdOf r.refreshToken, rfl, rfl⟩
  | ended ha h =>
    have hview : t.view s = _ := h.see_view
    rw [hview]
    exact storeStep_sessionUpdate h.knows.1 h.knows.2 ⟨rfl, fun _ => rfl⟩ (.inr rfl)
  | idle ha h =>
    have hview : t.view s = s := h.see_view
    rw [hview]
    exact .refl s
  | @redeemed r result id row customer ids _ _ hhash hunused h =>
    obtain ⟨⟨⟨htoken, hrow⟩, hcustomer, hsaw⟩, hsession, hnone⟩ := h.knows
    have hview : t.view s = _ := h.see_view.trans (replay_redeemEdits r id row _ customer ids s)
    rw [hview]
    have hrevoked : ∀ i ∈ ids, Key.session i ∈ t.held := fun i hi =>
      h.covered (.sessionsRevoke ids r.now) (by simp [redeemEdits]) _
        (List.mem_map_of_mem hi)
    have hage : row.Ages { row with usedAt := some r.now } := ⟨rfl, rfl, fun _ => rfl⟩
    refine (storeStep_tokenUpdate htoken hrow hage).trans ?_
    refine (storeStep_customerUpdate row.customerId customer).trans ?_
    refine (storeStep_sessionsRevoke r.now hrevoked).trans ?_
    refine storeStep_sessionInsert hsession hcustomer ?_ ⟨r.secret, r.newSessionId, rfl, rfl⟩
    rw [lookup_sessionsRevoke]
    split_ifs
    · exact Option.map_eq_none_iff.mpr hnone
    · exact hnone

end PulseOps.Storefront
