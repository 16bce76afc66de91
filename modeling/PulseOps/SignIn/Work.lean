import PulseOps.SignIn.Tokens

/-!
# What the sign-in requests do to the refresh tokens

Every transaction of a sign-in request rotates one token, or runs one `updateMany`, or
changes one user, or leaves users and tokens alone. What else a property needs is a law: an
invariant of the tables that these steps keep.

## Main definitions

* `TokenWork` — everything a transaction can do to the tokens.
* `TokenLaw` — an invariant that all of it keeps.
* `TokenLaw.Starts` — what a run starts from.

## Main results

* `triple_code` — every transaction does one of these things.
* `TokenWork.publishes` — all of them keep the contract of the law.
* `TokenLaw.Starts.induction` — so the law holds in every run.
-/

set_option autoImplicit false

open ReadCommitted Program Contract

namespace PulseOps.Accounts

open AuthService

/-- The revocation that ends the session of a replayed token. -/
def replayTarget (stored : RefreshToken) : Revocation :=
  match truthy stored.sessionId with
  | some sessionId => .session sessionId stored.userId stored.tenantId
  | none => .user stored.userId none

/-- The revocation that a request runs at a point, if it runs one. -/
def revocationAt : AuthPoint → Option Revocation
  | .request (.revokeSession userId tenantId sessionId _) =>
    some (.session sessionId userId tenantId)
  | .request (.logoutAll userId _) => some (.user userId none)
  | .revokeOtherSessions userId sessionId _ => some (.user userId (truthy sessionId))
  | .revokeAllUserRefreshTokens userId _ => some (.user userId none)
  | _ => none

/-- Whether the transaction of a point revokes tokens. -/
def AuthPoint.revokes : AuthPoint → Bool
  | .request (.refresh _) => true
  | pt => (revocationAt pt).isSome

/-- Neither the start of a request nor the end of a rotation. -/
def AuthPoint.plain : AuthPoint → Bool
  | .request _ => false
  | .done (.ok (.refreshed _)) => false
  | _ => true

variable {J : Db → Prop} {U : RefreshToken → Uuid → Prop} {crypto : Crypto}
  {requests : List AuthRequest} {i : ℕ} {R : Discipline accounts}

/-- Everything the transaction of the point `pt` can do to the refresh tokens before the
request goes on from `a`. `U` holds of a token and of the user a rotation found for it. -/
inductive TokenWork (J : Db → Prop) (U : RefreshToken → Uuid → Prop) (crypto : Crypto)
    (requests : List AuthRequest) (i : ℕ) :
    AuthPoint → AuthPoint → Transaction accounts → Db → Prop
  | rotated {r : RefreshRequest} {result : RefreshResult} {stored row : RefreshToken}
      {id₀ id userId : Uuid} {t : Transaction accounts} {s : Db}
      (hr : requests[i]? = some (.refresh r))
      (hstored : stored.tokenHash = crypto.hashToken r.refreshToken)
      (hrow : row.tokenHash = crypto.hashToken r.refreshToken) (hlive : row.revokedAt = none)
      (howner : U stored userId)
      (h : tokenTables.After
        ((((unusedValues J crypto requests i r hr).and
            (readToken J crypto requests i id₀ stored)).and
          (lockedToken J crypto requests i id (some row))).and
          (lockedToken J crypto requests i r.newTokenId none))
        [.refreshTokenUpdate id { row with revokedAt := some r.now },
          .refreshTokenInsert r.newTokenId (rotatedToken crypto r stored userId)] t s) :
      TokenWork J U crypto requests i (.request (.refresh r))
        (.done (.ok (.refreshed result))) t s
  | replayed {r : RefreshRequest} {stored : RefreshToken} {id₀ : Uuid} {ids : List Uuid}
      {e : Failure} {t : Transaction accounts} {s : Db}
      (hr : requests[i]? = some (.refresh r))
      (hstored : stored.tokenHash = crypto.hashToken r.refreshToken)
      (hrevoked : stored.revokedAt.isSome)
      (h : tokenTables.After
        ((readToken J crypto requests i id₀ stored).and
          (selectedTokens J crypto requests i (replayTarget stored) ids))
        [.refreshTokensRevoke (replayTarget stored) ids r.now] t s) :
      TokenWork J U crypto requests i (.request (.refresh r)) (.done (.error e)) t s
  | revoked {pt a : AuthPoint} {w : Revocation} {ids : List Uuid} {now : Millis}
      {t : Transaction accounts} {s : Db} (hpt : revocationAt pt = some w)
      (ha : a.plain = true)
      (hsession : a = .done (.ok .sessionRevoked) → ids ≠ [])
      (h : tokenTables.After (selectedTokens J crypto requests i w ids)
        [.refreshTokensRevoke w ids now] t s) : TokenWork J U crypto requests i pt a t s
  | user {pt a : AuthPoint} {id : Uuid} {u u' : User} {t : Transaction accounts} {s : Db}
      (hpt : pt.revokes = false) (ha : a.plain = true)
      (hemail : u'.email = u.email)
      (h : tokenTables.After
        (.under (L := tokenView J crypto requests i) (.user id)
          (fun s => s.users.lookup id = some u)
          fun hagree hu => Eq.trans (Eq.symm hagree) hu)
        [.userUpdate id u'] t s) : TokenWork J U crypto requests i pt a t s
  | aside {pt a : AuthPoint} {t : Transaction accounts} {s : Db} (hpt : pt.revokes = false)
      (ha : a.plain = true)
      (h : tokenTables.After (.none : (tokenView J crypto requests i).Knowledge) [] t s) :
      TokenWork J U crypto requests i pt a t s

/-! ### Every transaction -/

section Programs

variable {K : (tokenView J crypto requests i).Knowledge} {es : List Edit}

/-- The email address of a user, if there is one. -/
def emailOf (J : Db → Prop) (crypto : Crypto) (requests : List AuthRequest) (i : ℕ)
    (userId : Uuid) (email : Option String) : (tokenView J crypto requests i).Knowledge :=
  .lasting (fun s => emails s userId = email) fun _ _ hev h => (congrFun hev.1.2 userId).trans h

/-- `U` holds of a stored token and of the user its `refresh` finds. -/
def FindsOwner (J : Db → Prop) (U : RefreshToken → Uuid → Prop) (crypto : Crypto)
    (requests : List AuthRequest) (i : ℕ) (R : Discipline accounts) : Prop :=
  ∀ (K : (tokenView J crypto requests i).Knowledge) (id₀ : Uuid) (stored : RefreshToken)
    (email : Option String) (scope : Scope), (tokenView J crypto requests i).Triple R
      (tokenTables.After ((K.and (readToken J crypto requests i id₀ stored)).and
        (emailOf J crypto requests i stored.userId email)) [])
      (tokenUser stored email scope)
      fun user t s => U stored user.1 ∧
        tokenTables.After (K.and (readToken J crypto requests i id₀ stored)) [] t s

theorem endReplayedSession_eq (stored : RefreshToken) (now : Millis) :
    endReplayedSession stored now = AuthRepository.revoke (replayTarget stored) now := by
  unfold endReplayedSession replayTarget
  cases truthy stored.sessionId <;> rfl

/-- What the others do afterwards does not change what a transaction has done. -/
theorem TokenWork.stable (pt a : AuthPoint) :
    (tokenView J crypto requests i).Stable (TokenWork J U crypto requests i pt a) := by
  intro t s s' hs h hr
  cases h with
  | rotated hreq hstored hrow hlive howner h =>
    exact .rotated hreq hstored hrow hlive howner (Observation.After.stable t s s' hs h hr)
  | replayed hreq hstored hrevoked h =>
    exact .replayed hreq hstored hrevoked (Observation.After.stable t s s' hs h hr)
  | revoked hpt ha hsession h =>
    exact .revoked hpt ha hsession (Observation.After.stable t s s' hs h hr)
  | user hpt ha hemail h => exact .user hpt ha hemail (Observation.After.stable t s s' hs h hr)
  | aside hpt ha h => exact .aside hpt ha (Observation.After.stable t s s' hs h hr)

/-- What `refresh` learns from its first read. -/
def presented (J : Db → Prop) (crypto : Crypto) (requests : List AuthRequest) (i : ℕ)
    (r : RefreshRequest) (x : (Uuid × RefreshToken) × Option String) :
    (tokenView J crypto requests i).Knowledge :=
  ((readToken J crypto requests i x.1.1 x.1.2).and
    (emailOf J crypto requests i x.1.2.userId x.2)).and
    (.fact (x.1.2.tokenHash = crypto.hashToken r.refreshToken))

theorem triple_exchange (hR : RotatesUnrevoked R) (hU : FindsOwner J U crypto requests i R)
    {r : RefreshRequest} (hr : requests[i]? = some (.refresh r)) {id₀ : Uuid}
    {stored : RefreshToken} (hstored : stored.tokenHash = crypto.hashToken r.refreshToken)
    (email : Option String) : (tokenView J crypto requests i).Triple R
      (tokenTables.After (((unusedValues J crypto requests i r hr).and
        (readToken J crypto requests i id₀ stored)).and
        (emailOf J crypto requests i stored.userId email)) [])
      (exchange crypto r stored email)
      fun a => TokenWork J U crypto requests i (.request (.refresh r)) (.done a) := by
  refine (Observation.triple_readsOnly (.query _)).bind fun scope => ?_
  refine (hU _ id₀ stored email scope).bind fun user => Triple.of_and fun howner => ?_
  refine (triple_rotate hR r stored user.1).bind fun _ => ?_
  refine Triple.of_exists fun id => Triple.of_exists fun row => Triple.of_and fun hrow =>
    Triple.of_and fun hlive => ?_
  intro t s hs h s' hrely
  exact TokenWork.stable _ _ t s s' hs (.rotated hr hstored hrow hlive howner h) hrely

theorem triple_refresh (hR : RotatesUnrevoked R) (hU : FindsOwner J U crypto requests i R)
    {r : RefreshRequest} (hr : requests[i]? = some (.refresh r)) :
    (tokenView J crypto requests i).Triple R
      (tokenTables.After (unusedValues J crypto requests i r hr) []) (refresh crypto r)
      fun a => TokenWork J U crypto requests i (.request (.refresh r)) (.done a) := by
  refine Observation.triple_query (A := fun p => (unusedValues J crypto requests i r hr).and
    (.all p.toList fun x => presented J crypto requests i r x)) ?_ fun p => ?_
  · intro held s v _ hK hsee
    obtain ⟨htokens, husers⟩ := Prod.mk.inj hsee
    refine ⟨hK, fun x hx => ?_⟩
    obtain ⟨y, hy, rfl⟩ := Option.map_eq_some_iff.mp (Option.mem_toList.mp hx)
    obtain ⟨hrow, hhash⟩ := findByHash_eq_some hy
    rw [htokens] at hrow
    have hemail : emails s y.2.userId = (v.users.lookup y.2.userId).map (·.email) := by
      rw [husers]
      rfl
    exact ⟨⟨⟨_, hrow, .refl _⟩, hemail⟩, hhash⟩
  refine Triple.orRaise_bind ?_
  rintro ⟨⟨id₀, stored⟩, email⟩ rfl
  refine Triple.require_bind fun _ => ?_
  have hknown (t : Transaction accounts) (s : Db)
      (h : tokenTables.After ((unusedValues J crypto requests i r hr).and
        (.all [((id₀, stored), email)] fun x => presented J crypto requests i r x)) [] t s) :
      stored.tokenHash = crypto.hashToken r.refreshToken ∧
        tokenTables.After (((unusedValues J crypto requests i r hr).and
          (readToken J crypto requests i id₀ stored)).and
          (emailOf J crypto requests i stored.userId email)) [] t s := by
    have hx := h.knows.2 _ (List.mem_singleton_self _)
    exact ⟨hx.2, h.mono fun hK => ⟨⟨hK.1, hx.1.1⟩, hx.1.2⟩⟩
  refine Triple.pre ?_ fun t s _ h => hknown t s h
  refine Triple.of_and fun hstored => ?_
  -- a revoked token that is presented again ends its session
  split_ifs with hrevoked
  · unfold refuseReplay
    rw [endReplayedSession_eq]
    refine (triple_revoke (replayTarget stored) r.now).bind fun n => ?_
    refine Triple.of_exists fun ids => Triple.of_and fun _ => ?_
    intro t s hs h s' hrely
    have hwork : tokenTables.After ((readToken J crypto requests i id₀ stored).and
        (selectedTokens J crypto requests i (replayTarget stored) ids))
        [.refreshTokensRevoke (replayTarget stored) ids r.now] t s :=
      h.mono fun hK => ⟨hK.1.1.2, hK.2⟩
    exact TokenWork.stable _ _ t s s' hs (.replayed hr hstored hrevoked hwork) hrely
  · exact triple_exchange hR hU hr hstored email

/-- The row of a user under its lock. -/
def lockedUser (J : Db → Prop) (crypto : Crypto) (requests : List AuthRequest) (i : ℕ)
    (id : Uuid) (u : User) : (tokenView J crypto requests i).Knowledge :=
  .under (.user id) (fun s => s.users.lookup id = some u)
    fun hagree hu => Eq.trans (Eq.symm hagree) hu

/-- A change of a user that does not touch the email address, and what is left to do. -/
theorem triple_updateUser_bind {pt a : AuthPoint} (hpt : pt.revokes = false)
    (ha : a.plain = true) (id : Uuid) {change : User → User}
    (hchange : ∀ u, (change u).email = u.email) :
    (tokenView J crypto requests i).Triple R (tokenTables.After K [])
      (AuthRepository.updateUser id change >>= fun _ => return a)
      (TokenWork J U crypto requests i pt) := by
  refine Observation.triple_makes (P := fun _ => True)
    (E := fun u => .userUpdate id (change u)) (A := lockedUser J crypto requests i id) ?_
    fun u _ => ?_
  · intro t s e hs h he _
    obtain ⟨u, hu, rfl⟩ := Statement.updateUser_eq_ok.mp he
    have husers : (t.view s).users = s.users := congrArg Prod.snd h.see_view
    rw [husers] at hu
    exact ⟨u, rfl, rfl, trivial, List.mem_append_left _ (List.mem_singleton_self _), hu⟩
  · intro t s hs h s' hrely
    exact TokenWork.stable _ _ t s s' hs (.user hpt ha (hchange u) h) hrely

/-- An `updateMany`, and an answer that is not a rotation. -/
theorem triple_revoke_bind {pt : AuthPoint} {w : Revocation} {now : Millis}
    (hpt : revocationAt pt = some w) (answer : ℕ → AuthPoint)
    (ha : ∀ n, (answer n).plain = true)
    (hsession : ∀ n, answer n ≠ .done (.ok .sessionRevoked)) :
    (tokenView J crypto requests i).Triple R (tokenTables.After K [])
      (AuthRepository.revoke w now >>= fun n => return (answer n))
      (TokenWork J U crypto requests i pt) := by
  refine (triple_revoke w now).bind fun n => Triple.of_exists fun ids => Triple.of_and fun _ => ?_
  intro t s hs h s' hrely
  exact TokenWork.stable _ _ t s s' hs (.revoked hpt (ha n) (fun hn => absurd hn (hsession n))
    (h.mono fun hK => hK.2)) hrely

theorem triple_revokeSession (userId tenantId sessionId : Uuid) (now : Millis) :
    (tokenView J crypto requests i).Triple R (tokenTables.After K [])
      (begin crypto (.revokeSession userId tenantId sessionId now))
      (TokenWork J U crypto requests i
        (.request (.revokeSession userId tenantId sessionId now))) := by
  unfold begin AuthService.revokeSession
  simp only [bind_assoc]
  refine (triple_revoke (.session sessionId userId tenantId) now).bind fun n => ?_
  refine Triple.of_exists fun ids => Triple.of_and fun hn => Triple.require_bind fun hcount => ?_
  intro t s hs h s' hrely
  have hids : ids ≠ [] := by
    rintro rfl
    exact hcount hn
  exact TokenWork.stable _ _ t s s' hs
    (.revoked rfl rfl (fun _ => hids) (h.mono fun hK => hK.2)) hrely

/-- A request that has written nothing to users and tokens so far, and ends. -/
theorem triple_aside {pt : AuthPoint} (hpt : pt.revokes = false) {p : Sql Unit} {a : AuthPoint}
    (ha : a.plain = true)
    (hp : p.Emits fun e => tokenTables.touches e = false) :
    (tokenView J crypto requests i).Triple R (tokenTables.After K [])
      (p >>= fun _ => return a) (TokenWork J U crypto requests i pt) := by
  refine (Observation.triple_emits hp).bind fun _ t s hs h s' hrely => ?_
  exact TokenWork.stable _ _ t s s' hs (.aside hpt ha (h.mono fun _ => trivial)) hrely

theorem markPasswordResetTokenUsed_emits (tokenHash : String) (now : Millis) :
    (AuthRepository.markPasswordResetTokenUsed tokenHash now).Emits
      fun e => tokenTables.touches e = false := by
  refine (ReadsOnly.query _).emits.bind fun token => ?_
  cases token with
  | none => trivial
  | some x =>
    refine emits_perform fun s e he => ?_
    obtain ⟨row, -, rfl⟩ := Statement.updatePasswordResetToken_eq_ok.mp he
    rfl

theorem markEmailVerificationTokenUsed_emits (tokenHash : String) (now : Millis) :
    (AuthRepository.markEmailVerificationTokenUsed tokenHash now).Emits
      fun e => tokenTables.touches e = false := by
  refine (ReadsOnly.query _).emits.bind fun token => ?_
  cases token with
  | none => trivial
  | some x =>
    refine emits_perform fun s e he => ?_
    obtain ⟨row, -, rfl⟩ := Statement.updateEmailVerificationToken_eq_ok.mp he
    rfl

/-- What a request knows at its points: its random values are unused before its first
transaction has committed. -/
def Awaits (crypto : Crypto) (requests : List AuthRequest) (i : ℕ) (pt : AuthPoint) (s : Db) :
    Prop :=
  ∀ q, pt = .request q → requests[i]? = some q ∧
    ∀ r, q = .refresh r → Unused crypto r s.refreshTokens

theorem findActiveUser_readsOnly (userId : Uuid) : (findActiveUser userId).ReadsOnly :=
  (ReadsOnly.query _).bind fun _ => (ReadsOnly.orRaise _ _).bind fun _ =>
    (ReadsOnly.require _ _).bind fun _ => .ret _

/-- **Every transaction.** -/
theorem triple_code (hR : RotatesUnrevoked R) (hU : FindsOwner J U crypto requests i R)
    {pt : AuthPoint} {p : Sql AuthPoint} (hp : code crypto pt = some p) {s : Db}
    (hs : (tokenView J crypto requests i).inv s) (ha : Awaits crypto requests i pt s) :
    (tokenView J crypto requests i).wp R (TokenWork J U crypto requests i pt) p {} s := by
  have hstart : tokenTables.After (.none : (tokenView J crypto requests i).Knowledge) [] {} s :=
    .start trivial
  cases pt with
  -- the transaction that a request begins with; the others follow in later turns
  | request q =>
    obtain rfl := Option.some.inj hp
    obtain ⟨hq, hunused⟩ := ha q rfl
    cases q with
    | refresh r =>
      refine ((triple_refresh hR hU hq).bind fun a => ?_) {} s hs (.start (hunused r rfl))
      exact fun t s hs h s' hrely => TokenWork.stable _ _ t s s' hs h hrely
    | changePassword userId sessionId currentPassword newPassword newPasswordHash now =>
      refine ((Observation.triple_readsOnly (findActiveUser_readsOnly userId)).bind
        fun user => ?_) {} s hs hstart
      refine Triple.require_bind fun _ => Triple.require_bind fun _ => ?_
      exact triple_updateUser_bind rfl rfl userId fun _ => rfl
    | revokeSession userId tenantId sessionId now =>
      exact triple_revokeSession userId tenantId sessionId now {} s hs hstart
    | logoutAll userId now =>
      exact triple_revoke_bind (by rfl) (fun n => .done (.ok (.sessionsRevoked n)))
        (fun _ => rfl) (by simp) {} s hs hstart
    | resetPassword token passwordHash now =>
      refine ((Observation.triple_readsOnly (.query _)).bind fun found => ?_) {} s hs hstart
      refine Triple.orRaise_bind ?_
      rintro ⟨id, stored⟩ -
      refine Triple.require_bind fun _ => Triple.require_bind fun _ => ?_
      exact triple_updateUser_bind rfl rfl stored.userId fun _ => rfl
    | verifyEmail token now =>
      refine ((Observation.triple_readsOnly (.query _)).bind fun found => ?_) {} s hs hstart
      refine Triple.orRaise_bind ?_
      rintro ⟨id, stored⟩ -
      refine Triple.require_bind fun _ => Triple.require_bind fun _ => ?_
      exact triple_updateUser_bind rfl rfl stored.userId fun _ => rfl
  | revokeOtherSessions userId sessionId now =>
    obtain rfl := Option.some.inj hp
    exact triple_revoke_bind (by rfl) (fun n => .done (.ok (.otherSessionsRevoked n)))
      (fun _ => rfl) (by simp) {} s hs hstart
  | markPasswordResetTokenUsed tokenHash userId now =>
    obtain rfl := Option.some.inj hp
    exact triple_aside rfl rfl (markPasswordResetTokenUsed_emits tokenHash now) {} s hs hstart
  | revokeAllUserRefreshTokens userId now =>
    obtain rfl := Option.some.inj hp
    exact triple_revoke_bind (by rfl)
      (fun _ => .done (.ok (.message "Password has been reset successfully"))) (fun _ => rfl)
      (by simp) {} s hs hstart
  | markEmailVerificationTokenUsed tokenHash now =>
    obtain rfl := Option.some.inj hp
    exact triple_aside rfl rfl (markEmailVerificationTokenUsed_emits tokenHash now) {} s hs
      hstart
  | done result => cases hp

end Programs

/-! ### What all of it keeps -/

/-- An invariant of the users and their tokens, and what holds of the user a rotation finds
for a token, such that every transaction keeps the invariant. -/
structure TokenLaw (crypto : Crypto) where
  holds : Db → Prop
  owner : RefreshToken → Uuid → Prop
  congr : ∀ {s s' : Db}, tokenTables.see s' = tokenTables.see s → holds s → holds s'
  user : ∀ {s : Db} {id : Uuid} {u u' : User}, s.users.lookup id = some u → u'.email = u.email →
    holds s → holds (s.apply (.userUpdate id u'))
  revoke : ∀ {s : Db} (w : Revocation) (ids : List Uuid) (now : Millis), holds s →
    holds (s.apply (.refreshTokensRevoke w ids now))
  rotate : ∀ {s : Db} {r : RefreshRequest} {id userId : Uuid} {stored row : RefreshToken},
    holds s → s.refreshTokens.lookup id = some row → row.revokedAt = none → stored.Ages row →
    owner stored userId → s.refreshTokens.lookup r.newTokenId = none →
    Unused crypto r s.refreshTokens →
    holds ((s.apply (.refreshTokenUpdate id { row with revokedAt := some r.now })).apply
      (.refreshTokenInsert r.newTokenId (rotatedToken crypto r stored userId)))

/-- The random values of two requests differ. -/
def RandomValuesDiffer (crypto : Crypto) (requests : List AuthRequest) : Prop :=
  ∀ (i j : ℕ) (r r' : RefreshRequest), i ≠ j → requests[i]? = some (.refresh r) →
    requests[j]? = some (.refresh r') →
    crypto.hashToken r.newToken ≠ crypto.hashToken r'.newToken ∧ r.newSessionId ≠ r'.newSessionId

/-- The step from `s` to `s'`, seen through the users and their tokens, keeps the contract of
the law while the locks `held` are held, and leaves the random values of other requests
alone. -/
structure TokenStep (law : TokenLaw crypto) (requests : List AuthRequest) (i : ℕ)
    (held : List Key) (s s' : Db) : Prop where
  hashes : HashesDiffer s'.refreshTokens
  holds : law.holds s'
  ages : Ages s.refreshTokens s'.refreshTokens
  emails : emails s' = emails s
  tokens : ∀ id, .refreshToken id ∉ held → s.refreshTokens.lookup id = s'.refreshTokens.lookup id
  users : ∀ id, .user id ∉ held → s.users.lookup id = s'.users.lookup id
  unused : ∀ j r, j ≠ i → requests[j]? = some (.refresh r) → Unused crypto r s.refreshTokens →
    Unused crypto r s'.refreshTokens

variable {law : TokenLaw crypto} {t : Transaction accounts} {s s' : Db} {pt a : AuthPoint}

theorem TokenStep.publishes {Q : AuthPoint → Transaction accounts → Db → Prop}
    (h : TokenStep law requests i t.held s s')
    (hsee : tokenTables.see (t.view s) = tokenTables.see s') (ha : ∀ q, a ≠ .request q)
    (hQ : Q a t s) : (tokenContract law.holds).Publishes (randomValues crypto requests) R
      (Awaits crypto requests i) Q i a t s := by
  obtain ⟨htokens, husers⟩ := Prod.mk.inj hsee
  refine ⟨⟨⟨?_, ?_⟩, ⟨?_, ?_⟩, ?_⟩, ?_, fun q hq => absurd hq (ha q), hQ⟩
  · rw [htokens]
    exact h.hashes
  · exact law.congr hsee h.holds
  · rw [htokens]
    exact h.ages
  · rw [← h.emails]
    unfold Accounts.emails
    rw [husers]
  · intro k hk _
    cases k with
    | refreshToken id =>
      change s.refreshTokens.lookup id = (t.view s).refreshTokens.lookup id
      rw [htokens]
      exact h.tokens id hk
    | user id =>
      change s.users.lookup id = (t.view s).users.lookup id
      rw [husers]
      exact h.users id hk
    | _ => trivial
  · intro j hji r hr hunused
    rw [htokens]
    exact h.unused j r hji hr hunused

theorem tokenStep_refl (held : List Key) (hs : (tokenContract law.holds).inv s) :
    TokenStep law requests i held s s :=
  ⟨hs.1, hs.2, .refl _, rfl, fun _ _ => rfl, fun _ _ => rfl, fun _ _ _ _ h => h⟩

theorem tokenStep_revoke {held : List Key} (w : Revocation) (ids : List Uuid) (now : Millis)
    (hheld : ∀ id ∈ ids, .refreshToken id ∈ held) (hs : (tokenContract law.holds).inv s) :
    TokenStep law requests i held s (s.apply (.refreshTokensRevoke w ids now)) where
  hashes := hs.1.revokeAll now ids
  holds := law.revoke w ids now hs.2
  ages := ages_revokeAll _ now ids
  emails := rfl
  tokens id hid := by
    change _ = (revokeAll s.refreshTokens now ids).lookup id
    rw [lookup_revokeAll, if_neg fun hmem => hid (hheld id hmem)]
  users _ _ := rfl
  unused j r _ _ hunused := hunused.revokeAll now ids

theorem tokenStep_user {held : List Key} {id : Uuid} {u u' : User}
    (hheld : .user id ∈ held) (hu : s.users.lookup id = some u) (hemail : u'.email = u.email)
    (hs : (tokenContract law.holds).inv s) :
    TokenStep law requests i held s (s.apply (.userUpdate id u')) where
  hashes := hs.1
  holds := law.user hu hemail hs.2
  ages := .refl _
  emails := emails_userUpdate hu hemail
  tokens _ _ := rfl
  users id' hid' := by
    have hne : id' ≠ id := by
      rintro rfl
      exact hid' hheld
    exact (AList.lookup_insert_ne hne).symm
  unused _ _ _ _ h := h

theorem tokenStep_rotate {held : List Key} {r : RefreshRequest} {id userId : Uuid}
    {stored row : RefreshToken} (hdiffer : RandomValuesDiffer crypto requests)
    (hr : requests[i]? = some (.refresh r)) (hs : (tokenContract law.holds).inv s)
    (hid : s.refreshTokens.lookup id = some row) (hlive : row.revokedAt = none)
    (hage : stored.Ages row) (howner : law.owner stored userId)
    (hnew : s.refreshTokens.lookup r.newTokenId = none) (hunused : Unused crypto r s.refreshTokens)
    (hheld : .refreshToken id ∈ held) (hheld' : .refreshToken r.newTokenId ∈ held) :
    TokenStep law requests i held s
      ((s.apply (.refreshTokenUpdate id { row with revokedAt := some r.now })).apply
        (.refreshTokenInsert r.newTokenId (rotatedToken crypto r stored userId))) where
  hashes := hs.1.rotate hid fun id' r' hr' => (hunused id' r' hr').1
  holds := law.rotate hs.2 hid hlive hage howner hnew hunused
  ages := ages_rotate hid hnew
  emails := rfl
  tokens id' hid' := by
    have hne : id' ≠ id := by
      rintro rfl
      exact hid' hheld
    have hne' : id' ≠ r.newTokenId := by
      rintro rfl
      exact hid' hheld'
    exact ((AList.lookup_insert_ne hne').trans (AList.lookup_insert_ne hne)).symm
  users _ _ := rfl
  unused j r' hji hr' hunused' := by
    obtain ⟨hhash, hsession⟩ := hdiffer i j r r' (Ne.symm hji) hr hr'
    intro id' row' hrow'
    rcases lookup_rotate hrow' with ⟨-, rfl⟩ | ⟨-, rfl⟩ | ⟨-, -, hold⟩
    · refine ⟨hhash, fun heq => ?_⟩
      -- the session is that of the old token, which is in the table, or it is a new one
      cases hstored : stored.sessionId with
      | none =>
        simp only [rotatedToken, hstored, Option.getD_none, Option.some.injEq] at heq
        exact hsession heq
      | some σ =>
        simp only [rotatedToken, hstored, Option.getD_some] at heq
        exact (hunused' id row hid).2 (by rw [hage.sessionId, hstored, heq])
    · exact hunused' id row hid
    · exact hunused' id' row' hold

theorem TokenWork.publishes (hdiffer : RandomValuesDiffer crypto requests)
    (hs : (tokenContract law.holds).inv s)
    (h : TokenWork law.holds law.owner crypto requests i pt a t s) :
    (tokenContract law.holds).Publishes (randomValues crypto requests) R
      (Awaits crypto requests i) (TokenWork law.holds law.owner crypto requests i pt) i a t s := by
  have hplain {b : AuthPoint} (hb : b.plain = true) (q : AuthRequest) : b ≠ .request q := by
    rintro rfl
    cases hb
  have hwork := h
  cases h with
  | rotated hr hstored hrow hlive howner h =>
    obtain ⟨⟨⟨hunused, row', hrow', hage⟩, hid, hlookup⟩, hid', hnone⟩ := h.knows
    -- the token read first is the one found in the transaction, since their hashes agree
    obtain rfl := hs.1 hrow' hlookup (by rw [hage.tokenHash, hstored, hrow])
    obtain rfl := Option.some.inj (hrow'.symm.trans hlookup)
    refine TokenStep.publishes (tokenStep_rotate hdiffer hr hs hlookup hlive hage howner hnone
      hunused hid hid') h.see_view (fun q hq => nomatch hq) hwork
  | @replayed r stored id₀ ids e _ _ hr hstored hrevoked h =>
    refine TokenStep.publishes (tokenStep_revoke (replayTarget stored) ids r.now
      (fun id hid => ?_) hs) h.see_view (fun q hq => nomatch hq) hwork
    exact (h.knows.2 id hid).1
  | @revoked _ _ w ids now _ _ hpt ha hsession h =>
    refine TokenStep.publishes (tokenStep_revoke w ids now (fun id hid => ?_) hs) h.see_view
      (hplain ha) hwork
    exact (h.knows id hid).1
  | user hpt ha hemail h =>
    exact TokenStep.publishes (tokenStep_user h.knows.1 h.knows.2 hemail hs) h.see_view
      (hplain ha) hwork
  | aside hpt ha h =>
    exact TokenStep.publishes (tokenStep_refl _ hs) h.see_view (hplain ha) hwork

/-! ### Runs -/

/-- What the runs of the sign-in requests start from, for a law and a policy. -/
structure TokenLaw.Starts (law : TokenLaw crypto) (R : Policy accounts AuthPoint)
    (requests : List AuthRequest) (s₀ : Db) : Prop where
  rotates : RotatesUnrevoked R.toDiscipline
  finds : ∀ i, FindsOwner law.holds law.owner crypto requests i R.toDiscipline
  differ : RandomValuesDiffer crypto requests
  unused : ∀ r, .refresh r ∈ requests → Unused crypto r s₀.refreshTokens
  hashes : HashesDiffer s₀.refreshTokens
  holds : law.holds s₀

namespace TokenLaw.Starts

variable {R : Policy accounts AuthPoint} {s₀ : Db} {x : Service accounts AuthPoint}

theorem awaits_stable (i : ℕ) (pt : AuthPoint) (s s' : Db) (_ : (tokenContract law.holds).inv s)
    (ha : Awaits crypto requests i pt s)
    (hr : (tokenView law.holds crypto requests i).Rely {} s s') :
    Awaits crypto requests i pt s' := by
  intro q hq
  obtain ⟨hmem, hfresh⟩ := ha q hq
  exact ⟨hmem, fun r hreq => hr.evolves.2 r (hreq ▸ hmem) (hfresh r hreq)⟩

theorem code_wp (hs₀ : law.Starts R requests s₀) (i : ℕ) (pt : AuthPoint) (p : Sql AuthPoint)
    (s : Db) (hp : code crypto pt = some p) (hs : (tokenContract law.holds).inv s)
    (ha : Awaits crypto requests i pt s) :
    (tokenView law.holds crypto requests i).wp R.toDiscipline
      ((tokenContract law.holds).Owes (randomValues crypto requests) R.toDiscipline
        (Awaits crypto requests i) (TokenWork law.holds law.owner crypto requests i pt) i) p {} s :=
  wp_mono (triple_code hs₀.rotates (hs₀.finds i) hp hs ha)
    fun _ _ _ hwork hinv _ => hwork.publishes hs₀.differ hinv

theorem awaits_start (hs₀ : law.Starts R requests s₀) (i : ℕ) (pt : AuthPoint)
    (hpt : (requests.map AuthPoint.request)[i]? = some pt) : Awaits crypto requests i pt s₀ := by
  intro q hq
  subst hq
  rw [List.getElem?_map, Option.map_eq_some_iff] at hpt
  obtain ⟨q', hq', heq⟩ := hpt
  cases heq
  exact ⟨hq', fun r hr => hs₀.unused r (hr ▸ List.mem_of_getElem? hq')⟩

/-- **The law holds in every run**, and what every commit keeps is kept. -/
theorem induction {I : Service accounts AuthPoint → Prop} (hs₀ : law.Starts R requests s₀)
    (hstart : I (.start s₀ (requests.map .request)))
    (hcommit : ∀ (x : Service accounts AuthPoint) (i : ℕ) (pt a : AuthPoint)
      (t : Transaction accounts), I x → x.sessions[i]? = some (.running (.ret a) t) →
      R.commit x.committed t = true → (tokenContract law.holds).inv x.committed →
      (tokenContract law.holds).Guarantee R.toDiscipline t x.committed →
      TokenWork law.holds law.owner crypto requests i pt a t x.committed → I (x.commit i a t))
    (habort : ∀ (x : Service accounts AuthPoint) (i : ℕ) (t : Transaction accounts), I x →
      I (x.setSession i (.aborted t)))
    (hrun : ∀ (x : Service accounts AuthPoint) (i : ℕ) (p : Sql AuthPoint)
      (t : Transaction accounts), I x → I (x.setSession i (.running p t)))
    (hresume : ∀ (x : Service accounts AuthPoint) (i : ℕ) (pt : AuthPoint) (p : Sql AuthPoint),
      I x → I (x.resume i pt p))
    (h : Serves (code crypto) R (.start s₀ (requests.map .request)) x) : I x :=
  serves_induction (L := tokenContract law.holds) (A := Awaits crypto requests)
    (W := randomValues crypto requests) (Q := TokenWork law.holds law.owner crypto requests)
    ⟨hs₀.hashes, hs₀.holds⟩ awaits_stable hs₀.code_wp hs₀.awaits_start hstart
    (fun x i pt a t hI _ hi hok _ hinv hg hwork => hcommit x i pt a t hI hi hok hinv hg hwork)
    (fun x i _ t hI _ => habort x i t hI) (fun x i _ p _ t hI _ => hrun x i p t hI)
    (fun x i pt p _ hI _ _ _ _ => hresume x i pt p hI) h

/-- What a transaction of a run has done when it comes to commit. -/
theorem work {i : ℕ} {a : AuthPoint} {t : Transaction accounts}
    (hs₀ : law.Starts R requests s₀)
    (h : Serves (code crypto) R (.start s₀ (requests.map .request)) x)
    (hi : x.sessions[i]? = some (.running (.ret a) t)) (hok : R.commit x.committed t = true) :
    (tokenContract law.holds).inv x.committed ∧ ∃ pt, x.points[i]? = some pt ∧
      TokenWork law.holds law.owner crypto requests i pt a t x.committed := by
  obtain ⟨hinv, pt, hpt, hpub⟩ := serves_publishes (L := tokenContract law.holds)
    (A := Awaits crypto requests) (W := randomValues crypto requests)
    (Q := TokenWork law.holds law.owner crypto requests) ⟨hs₀.hashes, hs₀.holds⟩ awaits_stable
    hs₀.code_wp hs₀.awaits_start h hi hok
  exact ⟨hinv, pt, hpt, hpub.post⟩

end TokenLaw.Starts

end PulseOps.Accounts
