import PulseOps.SignIn.Rotation

/-!
# Revocation is final

Ending a session is an `updateMany` over its tokens. A rotation that is in flight meanwhile
can leave the session a token that the statement has not seen: it may have revoked the old
token before the statement came to it, or it may come to it afterwards without looking. As
long as neither happens, a session that one of the five operations has ended stays ended.

## Main definitions

* `seesAll` — a revocation has seen every token it is meant for, and rotations find theirs
  unrevoked.
* `Ends` — which session a request ends when it completes.
* `sessionOwned` — the law that a session belongs to one user of one business.

## Main results

* `revocation_final` — once a session has been ended, it never has a live token again.
-/

set_option autoImplicit false

open ReadCommitted Program Contract

namespace PulseOps.Accounts

open AuthService

/-- Every rotation finds its token unrevoked, and a revoking statement commits only when every
row that meets its `where` by then is one it has found. -/
def seesAll : Policy accounts AuthPoint where
  write := rotatesUnrevoked.write
  commit s t := t.edits.all fun
    | .refreshTokensRevoke w ids _ =>
      s.refreshTokens.entries.all fun x => w.selects x.2 → x.1 ∈ ids
    | _ => true

/-- The session has tokens of the user. -/
def SessionOf (userId sessionId : Uuid) (s : Db) : Prop :=
  ∃ id row, s.refreshTokens.lookup id = some row ∧ row.sessionId = some sessionId ∧
    row.userId = userId

/-- A request that goes on from the point `a` after the transaction of `pt` has ended the
session: the one it names, every session of its user, every one but the caller's, or the
session of the token that was replayed. -/
inductive Ends (crypto : Crypto) : AuthPoint → AuthPoint → Db → Uuid → Prop
  | revokeSession {userId tenantId sessionId : Uuid} {now : Millis} {s : Db} :
      Ends crypto (.request (.revokeSession userId tenantId sessionId now))
        (.done (.ok .sessionRevoked)) s sessionId
  | logoutAll {userId sessionId : Uuid} {now : Millis} {n : ℕ} {s : Db}
      (h : SessionOf userId sessionId s) :
      Ends crypto (.request (.logoutAll userId now)) (.done (.ok (.sessionsRevoked n))) s sessionId
  | changePassword {userId sessionId : Uuid} {keep : Option Uuid} {now : Millis} {n : ℕ} {s : Db}
      (h : SessionOf userId sessionId s) (hkeep : truthy keep ≠ some sessionId) :
      Ends crypto (.revokeOtherSessions userId keep now)
        (.done (.ok (.otherSessionsRevoked n))) s sessionId
  | resetPassword {userId sessionId : Uuid} {now : Millis} {text : String} {s : Db}
      (h : SessionOf userId sessionId s) :
      Ends crypto (.revokeAllUserRefreshTokens userId now) (.done (.ok (.message text))) s sessionId
  | replay {r : RefreshRequest} {id sessionId : Uuid} {row : RefreshToken} {e : Failure} {s : Db}
      (hrow : s.refreshTokens.lookup id = some row)
      (hhash : row.tokenHash = crypto.hashToken r.refreshToken)
      (hsession : row.sessionId = some sessionId ∨
        truthy row.sessionId = none ∧ SessionOf row.userId sessionId s) :
      Ends crypto (.request (.refresh r)) (.done (.error e)) s sessionId

/-! ### Sessions and their users -/

/-- A session belongs to one user of one business, the user of a token exists, and no two users
have the same email address. -/
structure SessionOwned (s : Db) : Prop where
  owner : ∀ ⦃sessionId id id' row row'⦄, s.refreshTokens.lookup id = some row →
    s.refreshTokens.lookup id' = some row' → row.sessionId = some sessionId →
    row'.sessionId = some sessionId → row.userId = row'.userId ∧ row.tenantId = row'.tenantId
  user : ∀ id row, s.refreshTokens.lookup id = some row → (emails s row.userId).isSome
  email : ∀ id id' email, emails s id = some email → emails s id' = some email → id = id'

variable {crypto : Crypto} {s s' : Db}

/-- What holds of the sessions and users of all rows holds of rows that took them over. -/
theorem SessionOwned.of_rows (h : SessionOwned s) (hemails : emails s' = emails s)
    (hrows : ∀ id row, s'.refreshTokens.lookup id = some row → ∃ id₀ row₀,
      s.refreshTokens.lookup id₀ = some row₀ ∧ row₀.userId = row.userId ∧
        row₀.tenantId = row.tenantId ∧ ∀ sessionId, row.sessionId = some sessionId →
          row₀.sessionId = some sessionId ∨
            ∀ id' row', s'.refreshTokens.lookup id' = some row' →
              row'.sessionId = some sessionId → id' = id) : SessionOwned s' where
  owner σ id id' row row' hrow hrow' hσ hσ' := by
    obtain ⟨id₀, row₀, hrow₀, huser, htenant, hsession⟩ := hrows id row hrow
    obtain ⟨id₁, row₁, hrow₁, huser', htenant', hsession'⟩ := hrows id' row' hrow'
    rcases hsession σ hσ with hσ₀ | hnew
    · rcases hsession' σ hσ' with hσ₁ | hnew
      · rw [← huser, ← htenant, ← huser', ← htenant']
        exact h.owner hrow₀ hrow₁ hσ₀ hσ₁
      · obtain rfl := hnew id row hrow hσ
        obtain rfl := Option.some.inj (hrow.symm.trans hrow')
        exact ⟨rfl, rfl⟩
    · obtain rfl := hnew id' row' hrow' hσ'
      obtain rfl := Option.some.inj (hrow.symm.trans hrow')
      exact ⟨rfl, rfl⟩
  user id row hrow := by
    obtain ⟨id₀, row₀, hrow₀, huser, -⟩ := hrows id row hrow
    rw [hemails, ← huser]
    exact h.user id₀ row₀ hrow₀
  email id id' email := by
    rw [hemails]
    exact h.email id id' email

/-- A session belongs to one user of one business, and a rotation finds that user. -/
def sessionOwned (crypto : Crypto) : TokenLaw crypto where
  holds := SessionOwned
  owner stored userId := userId = stored.userId
  congr {s s'} hsee h := by
    obtain ⟨htokens, husers⟩ := Prod.mk.inj hsee
    refine h.of_rows (by unfold emails; rw [husers]) fun id row hrow => ?_
    rw [htokens] at hrow
    exact ⟨id, row, hrow, rfl, rfl, fun _ hσ => .inl hσ⟩
  user {s id u u'} hu hemail h :=
    h.of_rows (emails_userUpdate hu hemail) fun id row hrow =>
      ⟨id, row, hrow, rfl, rfl, fun _ hσ => .inl hσ⟩
  revoke {s} w ids now h := by
    refine h.of_rows rfl fun id row hrow => ?_
    change (revokeAll s.refreshTokens now ids).lookup id = some row at hrow
    rw [lookup_revokeAll] at hrow
    split_ifs at hrow
    · obtain ⟨row₀, hrow₀, rfl⟩ := Option.map_eq_some_iff.mp hrow
      exact ⟨id, row₀, hrow₀, rfl, rfl, fun _ hσ => .inl hσ⟩
    · exact ⟨id, row, hrow, rfl, rfl, fun _ hσ => .inl hσ⟩
  rotate {s r id userId stored row} h hid hlive hage howner hnone hunused := by
    refine h.of_rows rfl fun i row' hrow' => ?_
    rcases lookup_rotate hrow' with ⟨rfl, rfl⟩ | ⟨rfl, rfl⟩ | ⟨-, -, hold⟩
    · refine ⟨id, row, hid, hage.userId.trans howner.symm, hage.tenantId, fun σ hσ => ?_⟩
      cases hstored : stored.sessionId with
      | some σ' =>
        simp only [rotatedToken, hstored, Option.getD_some] at hσ
        exact .inl ((hage.sessionId.trans hstored).trans hσ)
      | none =>
        -- the session is new, so the new token is its only one
        simp only [rotatedToken, hstored, Option.getD_none] at hσ
        refine .inr fun j row'' hrow'' hσ'' => ?_
        rcases lookup_rotate hrow'' with ⟨rfl, -⟩ | ⟨-, rfl⟩ | ⟨-, -, hold⟩
        · rfl
        · exact absurd (hσ''.trans hσ.symm) (hunused id row hid).2
        · exact absurd (hσ''.trans hσ.symm) (hunused j row'' hold).2
    · exact ⟨i, row, hid, rfl, rfl, fun _ hσ => .inl hσ⟩
    · exact ⟨i, row', hold, rfl, rfl, fun _ hσ => .inl hσ⟩

variable {requests : List AuthRequest} {i : ℕ} {R : Discipline accounts}

/-- The user that `refresh` finds is the one its token was issued to. -/
theorem findsOwner_owned :
    FindsOwner (sessionOwned crypto).holds (sessionOwned crypto).owner crypto requests i R := by
  intro K id₀ stored email scope
  cases scope with
  | tenant =>
    refine Observation.triple_query (A := fun p =>
      (K.and (readToken _ crypto requests i id₀ stored)).and
        (.fact (∀ y ∈ p.1, y.1 = stored.userId))) ?_ ?_
    · intro held s v hs hK hsee
      refine ⟨hK.1, fun y hy => ?_⟩
      unfold AuthRepository.findUserByIdAndTenant at hy
      split_ifs at hy
      · obtain ⟨u, -, rfl⟩ := Option.map_eq_some_iff.mp hy
        rfl
      · cases hy
    · rintro ⟨found, tenantActive⟩
      refine Triple.orRaise_bind ?_
      rintro user rfl
      refine Triple.require_bind fun _ => Triple.require_bind fun _ => ?_
      intro t s hs h s' hr
      exact ⟨h.knows.2 user rfl, Observation.After.stable t s s' hs (h.mono fun hK => hK.1) hr⟩
  | platform =>
    refine Observation.triple_query (A := fun byEmail =>
      (K.and (readToken _ crypto requests i id₀ stored)).and
        (.fact (∀ y ∈ byEmail, y.1 = stored.userId))) ?_ fun byEmail => ?_
    · rintro held s v ⟨-, howned⟩ ⟨⟨hK, row, hrow, hage⟩, hemail⟩ hsee
      refine ⟨⟨hK, row, hrow, hage⟩, fun y hy => ?_⟩
      -- the user of a stored token exists, so its email address was read
      have hsome := howned.user id₀ row hrow
      rw [hage.userId, hemail] at hsome
      obtain ⟨address, rfl⟩ := Option.isSome_iff_exists.mp hsome
      obtain ⟨huser, haddress⟩ := findByHash_eq_some hy
      rw [(Prod.mk.inj hsee).2] at huser
      refine howned.email y.1 stored.userId address ?_ hemail
      exact (congrArg (Option.map (·.email)) huser).trans (congrArg some haddress)
    · refine Observation.triple_query (A := fun byId =>
        (K.and (readToken _ crypto requests i id₀ stored)).and
          (.fact (∀ y ∈ byEmail <|> byId, y.1 = stored.userId))) ?_ fun byId => ?_
      · intro held s v hs hK _
        refine ⟨hK.1, fun y hy => ?_⟩
        cases byEmail with
        | some z => exact hK.2 y hy
        | none =>
          obtain ⟨u, -, rfl⟩ := Option.map_eq_some_iff.mp hy
          rfl
      · refine Triple.orRaise_bind fun user huser => Triple.require_bind fun _ => ?_
        refine (Observation.triple_readsOnly (.query _)).bind fun hasPlatform => ?_
        refine Triple.require_bind fun _ => ?_
        intro t s hs h s' hr
        exact ⟨h.knows.2 user huser,
          Observation.After.stable t s s' hs (h.mono fun hK => hK.1) hr⟩

/-! ### Ended sessions -/

/-- The session has tokens, and all of them are revoked. -/
structure Ended (sessionId : Uuid) (T : Tokens) : Prop where
  started : ∃ id row, T.lookup id = some row ∧ row.sessionId = some sessionId
  revoked : ∀ id row, T.lookup id = some row → row.sessionId = some sessionId →
    row.revokedAt.isSome

variable {sessionId : Uuid} {T : Tokens}

/-- A session whose tokens are revoked or are being revoked. -/
theorem ended_revokeAll {now : Millis} {ids : List Uuid}
    (hstarted : ∃ id row, T.lookup id = some row ∧ row.sessionId = some sessionId)
    (hids : ∀ id row, T.lookup id = some row → row.sessionId = some sessionId →
      row.revokedAt = none → id ∈ ids) : Ended sessionId (revokeAll T now ids) where
  started := by
    obtain ⟨id, row, hrow, hσ⟩ := hstarted
    obtain ⟨row', hrow', hage⟩ := ages_revokeAll T now ids id row hrow
    exact ⟨id, row', hrow', hage.sessionId.trans hσ⟩
  revoked id row hrow hσ := by
    rw [lookup_revokeAll] at hrow
    split_ifs at hrow with hmem
    · obtain ⟨row₀, -, rfl⟩ := Option.map_eq_some_iff.mp hrow
      rfl
    · rw [Option.isSome_iff_ne_none]
      exact fun hnone => hmem (hids id row hrow hσ hnone)

theorem Ended.revokeAll (h : Ended sessionId T) (now : Millis) (ids : List Uuid) :
    Ended sessionId (revokeAll T now ids) := by
  refine ended_revokeAll h.started fun id row hrow hσ hnone => ?_
  have hsome := h.revoked id row hrow hσ
  rw [hnone] at hsome
  cases hsome

/-- A rotation belongs to a session that is not ended, or begins a new one. -/
theorem Ended.rotate (h : Ended sessionId T) {r : RefreshRequest} {id userId : Uuid}
    {stored row : RefreshToken} (hid : T.lookup id = some row) (hlive : row.revokedAt = none)
    (hage : stored.Ages row) (hnew : T.lookup r.newTokenId = none)
    (hunused : Unused crypto r T) :
    Ended sessionId ((T.insert id { row with revokedAt := some r.now }).insert r.newTokenId
      (rotatedToken crypto r stored userId)) where
  started := by
    obtain ⟨i, row', hrow', hσ⟩ := h.started
    have hages : Ages T ((T.insert id { row with revokedAt := some r.now }).insert r.newTokenId
      (rotatedToken crypto r stored userId)) := ages_rotate hid hnew
    obtain ⟨row'', hrow'', hage'⟩ := hages i row' hrow'
    exact ⟨i, row'', hrow'', hage'.sessionId.trans hσ⟩
  revoked i row' hrow' hσ := by
    rcases lookup_rotate hrow' with ⟨-, rfl⟩ | ⟨-, rfl⟩ | ⟨-, -, hold⟩
    · cases hstored : stored.sessionId with
      | some σ =>
        simp only [rotatedToken, hstored, Option.getD_some] at hσ
        have hsome := h.revoked id row hid ((hage.sessionId.trans hstored).trans hσ)
        rw [hlive] at hsome
        cases hsome
      | none =>
        simp only [rotatedToken, hstored, Option.getD_none] at hσ
        obtain ⟨j, row'', hrow'', hσ'⟩ := h.started
        exact absurd (hσ'.trans hσ.symm) (hunused j row'' hrow'').2
    · rfl
    · exact h.revoked i row' hold hσ

/-! ### What commits end, and what they leave ended -/

variable {t : Transaction accounts} {pt a : AuthPoint}

/-- Nothing a transaction does brings an ended session back. -/
theorem Ended.work (h : Ended sessionId s.refreshTokens) (hs : HashesDiffer s.refreshTokens)
    (hwork : TokenWork (sessionOwned crypto).holds (sessionOwned crypto).owner crypto requests i
      pt a t s) : Ended sessionId (t.view s).refreshTokens := by
  cases hwork with
  | @rotated r _ stored row id₀ id userId _ _ hr hstored hrow hlive howner hafter =>
    obtain ⟨⟨⟨hunused, row', hrow', hage⟩, hid, hlookup⟩, hid', hnone⟩ := hafter.knows
    obtain rfl := hs hrow' hlookup (by rw [hage.tokenHash, hstored, hrow])
    obtain rfl := Option.some.inj (hrow'.symm.trans hlookup)
    rw [(Prod.mk.inj hafter.see_view).1]
    exact h.rotate hlookup hlive hage hnone hunused
  | @replayed r stored id₀ ids e _ _ hr hstored hrevoked hafter =>
    rw [(Prod.mk.inj hafter.see_view).1]
    exact h.revokeAll r.now ids
  | @revoked _ _ w ids now _ _ hpt ha hsession hafter =>
    rw [(Prod.mk.inj hafter.see_view).1]
    exact h.revokeAll now ids
  | user hpt ha hemail hafter =>
    rw [(Prod.mk.inj hafter.see_view).1]
    exact h
  | aside hpt ha hafter =>
    rw [(Prod.mk.inj hafter.see_view).1]
    exact h

/-- What the `where` of a revocation names of a session, it names of all its tokens. -/
theorem SessionOwned.names (hs : SessionOwned s) {w : Revocation} {id id' : Uuid}
    {row row' : RefreshToken} (hrow : s.refreshTokens.lookup id = some row)
    (hrow' : s.refreshTokens.lookup id' = some row') (hσ : row.sessionId = some sessionId)
    (hσ' : row'.sessionId = some sessionId) (hw : w.names row = true) :
    w.names row' = true := by
  obtain ⟨huser, htenant⟩ := hs.owner hrow hrow' hσ hσ'
  cases w with
  | session σ u b =>
    simp only [Revocation.names, decide_eq_true_eq] at hw ⊢
    rwa [hσ', ← hσ, ← huser, ← htenant]
  | user u keep =>
    cases keep with
    | none =>
      simp only [Revocation.names, decide_eq_true_eq] at hw ⊢
      rwa [← huser]
    | some keep =>
      simp only [Revocation.names, decide_eq_true_eq] at hw ⊢
      rwa [hσ', ← hσ, ← huser]

/-- A statement that has seen every row it is meant for ends every session it names. -/
theorem ended_of_revokes (hs : SessionOwned s) {w : Revocation} {ids : List Uuid} {now : Millis}
    {K : (tokenView (sessionOwned crypto).holds crypto requests i).Knowledge}
    (hafter : tokenTables.After K [.refreshTokensRevoke w ids now] t s)
    (hok : seesAll.commit s t = true) {id : Uuid} {row : RefreshToken}
    (hrow : s.refreshTokens.lookup id = some row) (hσ : row.sessionId = some sessionId)
    (hw : w.names row = true) : Ended sessionId (t.view s).refreshTokens := by
  rw [(Prod.mk.inj hafter.see_view).1]
  refine ended_revokeAll ⟨id, row, hrow, hσ⟩ fun id' row' hrow' hσ' hlive => ?_
  have hmem : Edit.refreshTokensRevoke w ids now ∈ t.edits := by
    refine List.mem_of_mem_filter (p := tokenTables.touches) ?_
    rw [hafter.edits]
    exact List.mem_singleton_self _
  have hseen := List.all_eq_true.mp hok _ hmem
  simp only [List.all_eq_true, decide_eq_true_eq] at hseen
  refine hseen ⟨id', row'⟩ (AList.mem_lookup_iff.mp hrow') ?_
  simpa [Revocation.selects, hlive] using hs.names hrow hrow' hσ hσ' hw

/-- A transaction that runs a revocation and commits. -/
theorem TokenWork.revokes {J : Db → Prop} {U : RefreshToken → Uuid → Prop} {w : Revocation}
    (h : TokenWork J U crypto requests i pt a t s) (hpt : revocationAt pt = some w) :
    ∃ ids now, (a = .done (.ok .sessionRevoked) → ids ≠ []) ∧
      tokenTables.After (selectedTokens J crypto requests i w ids)
        [.refreshTokensRevoke w ids now] t s := by
  have hrevokes {pt : AuthPoint} (hpt : revocationAt pt = some w) : pt.revokes = true := by
    unfold AuthPoint.revokes
    split
    · rfl
    · rw [hpt]
      rfl
  cases h with
  | rotated => cases hpt
  | replayed => cases hpt
  | revoked hpt' ha hsession hafter =>
    obtain rfl := Option.some.inj (hpt.symm.trans hpt')
    exact ⟨_, _, hsession, hafter⟩
  | user hpt' ha hemail hafter => simp [hrevokes hpt] at hpt'
  | aside hpt' ha hafter => simp [hrevokes hpt] at hpt'

/-- A row that an `updateMany` has found is named by its `where`. -/
theorem names_of_any {w : Revocation} {x : Option RefreshToken} (h : x.any w.selects = true) :
    ∃ row, x = some row ∧ w.names row = true := by
  cases x with
  | none => cases h
  | some row =>
    simp only [Option.any_some, Revocation.selects, decide_eq_true_eq] at h
    exact ⟨row, rfl, h.2⟩

/-- The revocation after a replay names a token of the session it is meant to end. -/
theorem exists_named_of_replay {id : Uuid} {row stored : RefreshToken}
    (hrow : s.refreshTokens.lookup id = some row) (hage : stored.Ages row)
    (hsession : row.sessionId = some sessionId ∨
      truthy row.sessionId = none ∧ SessionOf row.userId sessionId s) :
    ∃ id' row', s.refreshTokens.lookup id' = some row' ∧ row'.sessionId = some sessionId ∧
      (replayTarget stored).names row' = true := by
  unfold replayTarget
  rw [← hage.sessionId, ← hage.userId, ← hage.tenantId]
  cases htruthy : truthy row.sessionId with
  | some σ =>
    have hσ : row.sessionId = some σ := (Option.filter_eq_some_iff.mp htruthy).1
    rcases hsession with heq | ⟨hnone, -⟩
    · exact ⟨id, row, hrow, heq, by simp [Revocation.names, hσ]⟩
    · rw [htruthy] at hnone
      cases hnone
  | none =>
    rcases hsession with heq | ⟨-, id', row', hrow', hσ, huser⟩
    · exact ⟨id, row, hrow, heq, by simp [Revocation.names]⟩
    · exact ⟨id', row', hrow', hσ, by simpa [Revocation.names] using huser⟩

/-- What a request ends when it completes is ended. -/
theorem ended_of_ends (hs : SessionOwned s) (hhashes : HashesDiffer s.refreshTokens)
    (hok : seesAll.commit s t = true) (hends : Ends crypto pt a s sessionId)
    (hwork : TokenWork (sessionOwned crypto).holds (sessionOwned crypto).owner crypto requests i
      pt a t s) : Ended sessionId (t.view s).refreshTokens := by
  cases hends with
  | revokeSession =>
    obtain ⟨ids, now, hids, hafter⟩ := hwork.revokes rfl
    -- it has found a token of the session, or it would not have succeeded
    obtain ⟨id, hid⟩ := List.exists_mem_of_ne_nil ids (hids rfl)
    obtain ⟨row, hrow, hnames⟩ := names_of_any (hafter.knows id hid).2
    have hσ : row.sessionId = some sessionId := by
      simp only [Revocation.names, decide_eq_true_eq] at hnames
      exact hnames.1
    exact ended_of_revokes hs hafter hok hrow hσ hnames
  | logoutAll h =>
    obtain ⟨id, row, hrow, hσ, huser⟩ := h
    obtain ⟨ids, now, -, hafter⟩ := hwork.revokes rfl
    exact ended_of_revokes hs hafter hok hrow hσ (by simpa [Revocation.names] using huser)
  | changePassword h hkeep =>
    obtain ⟨id, row, hrow, hσ, huser⟩ := h
    obtain ⟨ids, now, -, hafter⟩ := hwork.revokes rfl
    refine ended_of_revokes hs hafter hok hrow hσ ?_
    rename_i keep _ _
    cases hk : truthy keep with
    | none => simpa [Revocation.names] using huser
    | some kept =>
      have hne : kept ≠ sessionId := fun heq => hkeep (by rw [hk, heq])
      simp [Revocation.names, huser, hσ, Ne.symm hne]
  | resetPassword h =>
    obtain ⟨id, row, hrow, hσ, huser⟩ := h
    obtain ⟨ids, now, -, hafter⟩ := hwork.revokes rfl
    exact ended_of_revokes hs hafter hok hrow hσ (by simpa [Revocation.names] using huser)
  | replay hrow hhash hsession =>
    cases hwork with
    | replayed hr hstored hrevoked hafter =>
      obtain ⟨⟨row', hrow', hage⟩, -⟩ := hafter.knows
      -- the token read is the one with its hash
      obtain rfl := hhashes hrow' hrow (by rw [hage.tokenHash, hstored, hhash])
      obtain rfl := Option.some.inj (hrow'.symm.trans hrow)
      obtain ⟨id', named, hnamed, hσ, hnames⟩ := exists_named_of_replay hrow' hage hsession
      exact ended_of_revokes hs (hafter.mono fun h => h.2) hok hnamed hσ hnames
    | revoked hpt _ _ _ => cases hpt
    | user hpt _ _ _ => cases hpt
    | aside hpt _ _ => cases hpt

/-! ### Runs -/

variable {x x' y : Service accounts AuthPoint} {s₀ : Db}

theorem rotatesUnrevoked_seesAll : RotatesUnrevoked seesAll.toDiscipline :=
  fun _ _ _ _ h => h

/-- A session that has been ended in some state of a run is ended in the last one. -/
theorem ended_of_history (hs₀ : (sessionOwned crypto).Starts seesAll requests s₀)
    (h : Serves (code crypto) seesAll (.start s₀ (requests.map .request)) y) :
    ∀ s ∈ y.history s₀, Ended sessionId s.refreshTokens →
      Ended sessionId y.committed.refreshTokens := by
  refine hs₀.induction (I := fun y => ∀ s ∈ y.history s₀, Ended sessionId s.refreshTokens →
    Ended sessionId y.committed.refreshTokens) ?_ ?_ (fun _ _ _ hI => hI) (fun _ _ _ _ hI => hI)
    (fun _ _ _ _ hI => hI) h
  · intro s hs hended
    obtain rfl := List.mem_singleton.mp hs
    exact hended
  · intro x i pt a t hI hi hok hinv hg hwork s hs hended
    rcases List.mem_cons.mp hs with rfl | hs
    · exact hended
    · exact (hI s hs hended).work hinv.1 hwork

/-- No token of an ended session is in use. -/
theorem Ended.not_live (h : Ended sessionId s.refreshTokens) (now : Millis) :
    liveTokens sessionId now s = [] ∧
      ∀ userId, AuthRepository.isSessionActive sessionId userId now s = false := by
  have hrevoked {z : Sigma fun _ : Uuid => RefreshToken} (hz : z ∈ s.refreshTokens.entries)
      (hσ : z.2.sessionId = some sessionId) : z.2.revokedAt ≠ none := by
    intro hnone
    have hsome := h.revoked z.1 z.2 (AList.mem_lookup_iff.mpr hz) hσ
    rw [hnone] at hsome
    cases hsome
  refine ⟨?_, fun userId => ?_⟩
  · rw [liveTokens, List.map_eq_nil_iff, List.filter_eq_nil_iff]
    intro z hz hlive
    simp only [decide_eq_true_eq] at hlive
    exact hrevoked hz hlive.1 hlive.2.1
  · rw [AuthRepository.isSessionActive, List.any_eq_false]
    intro z hz hactive
    simp only [decide_eq_true_eq] at hactive
    exact hrevoked hz hactive.1 hactive.2.2.1

/-- **Revocation.** As long as rotations find their tokens unrevoked and a revocation has
seen every token it is meant for, a session that a request has ended never has a live token
again. -/
theorem revocation_final (hhashes : HashesDiffer s₀.refreshTokens) (howned : SessionOwned s₀)
    (hdiffer : RandomValuesDiffer crypto requests)
    (hunused : ∀ r, .refresh r ∈ requests → Unused crypto r s₀.refreshTokens)
    (h : Serves (code crypto) seesAll (.start s₀ (requests.map .request)) x)
    (hi : x.sessions[i]? = some (.running (.ret a) t)) (hpt : x.points[i]? = some pt)
    (hends : Ends crypto pt a x.committed sessionId)
    (hstep : x.turn (code crypto) seesAll (.act (.advance i)) = some x')
    (hlater : Serves (code crypto) seesAll x' y) (now : Millis) :
    liveTokens sessionId now y.committed = [] ∧
      ∀ userId, AuthRepository.isSessionActive sessionId userId now y.committed = false := by
  have hs₀ : (sessionOwned crypto).Starts seesAll requests s₀ :=
    ⟨rotatesUnrevoked_seesAll, fun _ => findsOwner_owned, hdiffer, hunused, hhashes, howned⟩
  obtain ⟨hok, -, rfl⟩ := commit_of_turn hi hstep
  -- the commit ends the session
  obtain ⟨hinv, pt', hpt', hwork⟩ := hs₀.work h hi hok
  obtain rfl := Option.some.inj (hpt.symm.trans hpt')
  have hended : Ended sessionId (t.view x.committed).refreshTokens :=
    ended_of_ends hinv.2 hinv.1 hok hends hwork
  -- and the state it leaves stays in the history
  have hsuffix : (x.commit i a t).history s₀ <:+ y.history s₀ := hlater.history_suffix s₀
  have hmem : t.view x.committed ∈ y.history s₀ := hsuffix.mem (List.mem_cons_self ..)
  have hrun := (h.turn hstep).trans hlater
  exact (ended_of_history hs₀ hrun _ hmem hended).not_live now

namespace Sample

/-- The clerk's session is the shop's only one. -/
theorem office_sessionOwned : SessionOwned office where
  owner _ _ _ _ _ h h' _ _ := by
    obtain ⟨-, rfl⟩ := lookup_office h
    obtain ⟨-, rfl⟩ := lookup_office h'
    exact ⟨rfl, rfl⟩
  user id row h := by
    obtain ⟨-, rfl⟩ := lookup_office h
    rfl
  email id id' email h h' := by
    have hclerk {id : Uuid} (h : emails office id = some email) : id = "clerk" := by
      by_contra hid
      rw [emails, office, AList.lookup_insert_ne hid] at h
      cases h
    exact (hclerk h).trans (hclerk h').symm

/-- The request that a session works on, and the answer its transaction has come to without
having committed. -/
def answering (x : Service accounts AuthPoint) (i : ℕ) : Option (AuthRequest × AuthResponse) :=
  match x.points[i]?, x.sessions[i]? with
  | some (.request r), some (.running (.ret (.done (.ok answer))) _) => some (r, answer)
  | _, _ => none

theorem of_answering {x : Service accounts AuthPoint} {i : ℕ} {r : AuthRequest}
    {answer : AuthResponse} (h : answering x i = some (r, answer)) :
    x.points[i]? = some (.request r) ∧
      ∃ t, x.sessions[i]? = some (.running (.ret (.done (.ok answer))) t) := by
  unfold answering at h
  split at h
  · rename_i hpoint hsession
    cases h
    exact ⟨hpoint, _, hsession⟩
  · cases h

/-- The clerk's token is presented while the clerk ends the session. -/
def refreshAndRevoke : List AuthRequest :=
  [.refresh (refreshOld "s1" "row1" "new1"), .revokeSession "clerk" "shop" "login" 2]

/-- The clerk's token is presented while the clerk ends all sessions. -/
def refreshAndLogoutAll : List AuthRequest :=
  [.refresh (refreshOld "s1" "row1" "new1"), .logoutAll "clerk" 2]

/-- The rotation comes to its end, `logoutAll` reads the tokens, the rotation commits, and
`logoutAll` writes. -/
def lateLogout : List (Turn accounts) :=
  turns 0 6 ++ turns 1 1 ++ [.act (.advance 0), .act (.advance 1)]

/-- With one refresh the random values are fresh. -/
theorem refreshAndRevoke_fresh : RandomValuesDiffer marks refreshAndRevoke ∧
    ∀ r, .refresh r ∈ refreshAndRevoke → Unused marks r office.refreshTokens := by
  constructor
  · intro i j r r' hij hr hr'
    match i, j with
    | 0, 0 => exact absurd rfl hij
    | 1, _ => cases hr
    | _, 1 => cases hr'
    | i + 2, _ => cases hr
    | _, j + 2 => cases hr'
  · intro r hr
    rcases List.mem_cons.mp hr with hr | hr
    · cases hr
      exact office_unused (by decide) (by decide)
    · cases List.mem_singleton.mp hr

end Sample

open Sample in
/-- The clerk has ended the session, and a request with its token is refused. -/
theorem revocation_final_sample : ∃ y, Serves (code marks) seesAll
    (.start office (refreshAndRevoke.map .request)) y ∧
    y.sessions.length = 2 ∧ refreshedSession y 0 = none ∧
    liveTokens "login" 1 y.committed = [] ∧
      ∀ userId, AuthRepository.isSessionActive "login" userId 1 y.committed = false := by
  -- before the revocation commits, after it has, and after the refused request
  have hrun : ((Service.start office (refreshAndRevoke.map .request)).run (code marks) seesAll
      (turns 1 2)).map (fun x => answering x 1) =
      some (some (.revokeSession "clerk" "shop" "login" 2, .sessionRevoked)) := by
    decide +kernel
  obtain ⟨x, hx, hanswer⟩ := Option.map_eq_some_iff.mp hrun
  obtain ⟨hpt, t, hi⟩ := of_answering hanswer
  have hrest : (((Service.start office (refreshAndRevoke.map .request)).run (code marks) seesAll
      (turns 1 2)).bind fun x => (x.turn (code marks) seesAll (.act (.advance 1))).bind fun x' =>
        (x'.run (code marks) seesAll (turns 0 4)).map
          fun y => (y.sessions.length, refreshedSession y 0)) = some (2, none) := by
    decide +kernel
  rw [hx, Option.bind_some] at hrest
  obtain ⟨x', hstep, hlater⟩ := Option.bind_eq_some_iff.mp hrest
  obtain ⟨y, hy, hstate⟩ := Option.map_eq_some_iff.mp hlater
  obtain ⟨hlength, hrefreshed⟩ := Prod.mk.inj hstate
  have hreach := serves_of_run .refl hx
  have hreach' := serves_of_run .refl hy
  obtain ⟨hdiffer, hunused⟩ := refreshAndRevoke_fresh
  exact ⟨y, (hreach.turn hstep).trans hreach', hlength, hrefreshed,
    revocation_final office_hashesDiffer office_sessionOwned hdiffer hunused hreach hi hpt
      .revokeSession hstep hreach' 1⟩

open Sample in
/-- `logoutAll` reads the tokens before a rotation has committed and comes to write after it:
it completes, and the clerk's session has a live token. -/
theorem logoutAll_missesRotation : ∃ x x' t n, Serves (code marks) {}
    (.start office (refreshAndLogoutAll.map .request)) x ∧
    x.sessions[1]? = some (.running (.ret (.done (.ok (.sessionsRevoked n)))) t) ∧
    x.points[1]? = some (.request (.logoutAll "clerk" 2)) ∧
    Ends marks (.request (.logoutAll "clerk" 2)) (.done (.ok (.sessionsRevoked n))) x.committed
      "login" ∧
    x.turn (code marks) {} (.act (.advance 1)) = some x' ∧
    liveTokens "login" 2 x'.committed = ["row1"] ∧
    AuthRepository.isSessionActive "login" "clerk" 2 x'.committed = true := by
  have hrun : ((Service.start office (refreshAndLogoutAll.map .request)).run (code marks) {}
      lateLogout).map (fun x => answering x 1) =
        some (some (.logoutAll "clerk" 2, .sessionsRevoked 0)) := by
    decide +kernel
  obtain ⟨x, hx, hanswer⟩ := Option.map_eq_some_iff.mp hrun
  obtain ⟨hpt, t, hi⟩ := of_answering hanswer
  -- the rotation's row is there, and the clerk's
  have hrow : ((Service.start office (refreshAndLogoutAll.map .request)).run (code marks) {}
      lateLogout).bind
        (fun x => (x.committed.refreshTokens.lookup "row1").map
          fun row => (row.sessionId, row.userId)) = some (some "login", "clerk") := by
    decide +kernel
  rw [hx, Option.bind_some] at hrow
  obtain ⟨row, hlookup, hcolumns⟩ := Option.map_eq_some_iff.mp hrow
  obtain ⟨hσ, huser⟩ := Prod.mk.inj hcolumns
  have hturn : ((Service.start office (refreshAndLogoutAll.map .request)).run (code marks) {}
      lateLogout).bind
        (fun x => (x.turn (code marks) {} (.act (.advance 1))).map fun x' =>
          (liveTokens "login" 2 x'.committed,
            AuthRepository.isSessionActive "login" "clerk" 2 x'.committed)) =
      some (["row1"], true) := by
    decide +kernel
  rw [hx, Option.bind_some] at hturn
  obtain ⟨x', hstep, hafter⟩ := Option.map_eq_some_iff.mp hturn
  obtain ⟨hlive, hactive⟩ := Prod.mk.inj hafter
  exact ⟨x, x', t, 0, serves_of_run .refl hx, hi, hpt, .logoutAll ⟨"row1", row, hlookup, hσ, huser⟩,
    hstep, hlive, hactive⟩

end PulseOps.Accounts
