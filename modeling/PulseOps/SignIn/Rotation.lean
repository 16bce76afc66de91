import PulseOps.SignIn.Work

/-!
# Rotation of refresh tokens

`AuthService.refresh` reads a token before it opens its transaction and does not look at
`revokedAt` again inside. Two requests with one token can both pass the first check, and both
rotate it. As long as every rotation finds its token unrevoked, a token is exchanged once and
a session has one token in use, whatever else the sign-in requests do meanwhile.

## Main definitions

* `rotatesUnrevoked` — every rotation finds its token unrevoked.
* `Exchanges` — a request has exchanged a token.
* `liveTokens` — the tokens of a session that are neither revoked nor expired.

## Main results

* `refresh_rotatesOnce` — a token is exchanged once, and a session has one live token.
-/

set_option autoImplicit false

open ReadCommitted Program Contract

namespace PulseOps.Accounts

open AuthService

/-- Every rotation finds its token unrevoked when it comes to revoke it. -/
def rotatesUnrevoked : Policy accounts AuthPoint where
  write s t
    | .refreshTokenUpdate id _ => ((t.view s).refreshTokens.lookup id).any (·.revokedAt = none)
    | _ => true

/-- The tokens of a session that are neither revoked nor expired. -/
def liveTokens (sessionId : Uuid) (now : Millis) (s : Db) : List Uuid :=
  (s.refreshTokens.entries.filter fun x =>
    x.2.sessionId = some sessionId ∧ x.2.revokedAt = none ∧ now < x.2.expiresAt).map (·.1)

/-- The request `i` has exchanged the token with the given hash for a new one. -/
def Exchanges (crypto : Crypto) (requests : List AuthRequest) (x : Service accounts AuthPoint)
    (i : ℕ) (tokenHash : String) : Prop :=
  ∃ r result t, requests[i]? = some (.refresh r) ∧
    crypto.hashToken r.refreshToken = tokenHash ∧
    x.sessions[i]? = some (.committed (.done (.ok (.refreshed result))) t)

/-! ### One token a session -/

/-- No session has two unrevoked tokens. -/
def OneUnrevoked (T : Tokens) : Prop :=
  ∀ ⦃sessionId id id' row row'⦄, T.lookup id = some row → T.lookup id' = some row' →
    row.sessionId = some sessionId → row'.sessionId = some sessionId →
    row.revokedAt = none → row'.revokedAt = none → id = id'

variable {T : Tokens} {crypto : Crypto}

theorem OneUnrevoked.revokeAll (h : OneUnrevoked T) (now : Millis) (ids : List Uuid) :
    OneUnrevoked (revokeAll T now ids) := by
  have hold {id : Uuid} {row : RefreshToken}
      (hrow : (Accounts.revokeAll T now ids).lookup id = some row)
      (hlive : row.revokedAt = none) : T.lookup id = some row := by
    rw [lookup_revokeAll] at hrow
    split_ifs at hrow
    · obtain ⟨row₀, -, rfl⟩ := Option.map_eq_some_iff.mp hrow
      cases hlive
    · exact hrow
  intro σ id id' row row' hrow hrow' hσ hσ' hlive hlive'
  exact h (hold hrow hlive) (hold hrow' hlive') hσ hσ' hlive hlive'

/-- The new token takes the place of the old one, or is the first of a new session. -/
theorem OneUnrevoked.rotate (h : OneUnrevoked T) {r : RefreshRequest} {id userId : Uuid}
    {stored row : RefreshToken} (hid : T.lookup id = some row) (hlive : row.revokedAt = none)
    (hage : stored.Ages row) (hunused : Unused crypto r T) :
    OneUnrevoked ((T.insert id { row with revokedAt := some r.now }).insert r.newTokenId
      (rotatedToken crypto r stored userId)) := by
  have hnew {i : Uuid} {row' : RefreshToken} (hne : i ≠ id) (hrow' : T.lookup i = some row')
      (hlive' : row'.revokedAt = none) :
      row'.sessionId ≠ (rotatedToken crypto r stored userId).sessionId := by
    intro heq
    cases hstored : stored.sessionId with
    | none =>
      simp only [rotatedToken, hstored, Option.getD_none] at heq
      exact (hunused i row' hrow').2 heq
    | some σ =>
      simp only [rotatedToken, hstored, Option.getD_some] at heq
      exact hne (h hrow' hid heq (hage.sessionId.trans hstored) hlive' hlive)
  intro σ i j row₁ row₂ hrow₁ hrow₂ hσ₁ hσ₂ hlive₁ hlive₂
  rcases lookup_rotate hrow₁ with ⟨rfl, rfl⟩ | ⟨-, rfl⟩ | ⟨-, hi, hrow₁⟩
  · rcases lookup_rotate hrow₂ with ⟨rfl, -⟩ | ⟨-, rfl⟩ | ⟨-, hj, hrow₂⟩
    · rfl
    · cases hlive₂
    · exact absurd (hσ₂.trans hσ₁.symm) (hnew hj hrow₂ hlive₂)
  · cases hlive₁
  · rcases lookup_rotate hrow₂ with ⟨-, rfl⟩ | ⟨-, rfl⟩ | ⟨-, -, hrow₂⟩
    · exact absurd (hσ₁.trans hσ₂.symm) (hnew hi hrow₁ hlive₁)
    · cases hlive₂
    · exact h hrow₁ hrow₂ hσ₁ hσ₂ hlive₁ hlive₂

/-- The law of the unrevoked tokens. -/
def oneUnrevoked (crypto : Crypto) : TokenLaw crypto where
  holds s := OneUnrevoked s.refreshTokens
  owner _ _ := True
  congr hsee h := by
    rw [(Prod.mk.inj hsee).1]
    exact h
  user _ _ h := h
  revoke _ ids now h := OneUnrevoked.revokeAll h now ids
  rotate h hid hlive hage _ _ hunused := OneUnrevoked.rotate h hid hlive hage hunused

theorem OneUnrevoked.liveTokens_le_one {s : Db} (h : OneUnrevoked s.refreshTokens)
    (sessionId : Uuid) (now : Millis) : (liveTokens sessionId now s).length ≤ 1 := by
  have hnodup : (liveTokens sessionId now s).Nodup :=
    List.Nodup.sublist (List.Sublist.map _ List.filter_sublist) s.refreshTokens.nodupKeys
  have hlive {id : Uuid} (hid : id ∈ liveTokens sessionId now s) : ∃ row,
      s.refreshTokens.lookup id = some row ∧ row.sessionId = some sessionId ∧
        row.revokedAt = none := by
    obtain ⟨y, hy, rfl⟩ := List.mem_map.mp hid
    obtain ⟨hmem, hp⟩ := List.mem_filter.mp hy
    simp only [decide_eq_true_eq] at hp
    exact ⟨y.2, AList.mem_lookup_iff.mpr hmem, hp.1, hp.2.1⟩
  cases heq : liveTokens sessionId now s with
  | nil => exact Nat.zero_le 1
  | cons id ids =>
    cases ids with
    | nil => exact le_refl 1
    | cons id' ids =>
      obtain ⟨row, hrow, hσ, hunrevoked⟩ := hlive (show id ∈ _ by simp [heq])
      obtain ⟨row', hrow', hσ', hunrevoked'⟩ := hlive (show id' ∈ _ by simp [heq])
      obtain rfl := h hrow hrow' hσ hσ' hunrevoked hunrevoked'
      simp [heq] at hnodup

/-! ### One exchange a token -/

variable {requests : List AuthRequest} {i : ℕ}

theorem tokenUser_readsOnly (stored : RefreshToken) (email : Option String) (scope : Scope) :
    (tokenUser stored email scope).ReadsOnly := by
  cases scope with
  | platform =>
    exact (ReadsOnly.query _).bind fun _ => (ReadsOnly.query _).bind fun _ =>
      (ReadsOnly.orRaise _ _).bind fun _ => (ReadsOnly.require _ _).bind fun _ =>
      (ReadsOnly.query _).bind fun _ => (ReadsOnly.require _ _).bind fun _ => .ret _
  | tenant =>
    exact (ReadsOnly.query _).bind fun _ => (ReadsOnly.orRaise _ _).bind fun _ =>
      (ReadsOnly.require _ _).bind fun _ => (ReadsOnly.require _ _).bind fun _ => .ret _

/-- Any user will do. -/
theorem findsOwner_any (J : Db → Prop) (R : Discipline accounts) :
    FindsOwner J (fun _ _ => True) crypto requests i R := by
  intro K id₀ stored email scope
  refine (Observation.triple_readsOnly (tokenUser_readsOnly stored email scope)).post ?_
  exact fun user t s h => ⟨trivial, h.mono fun hK => hK.1⟩

theorem rotatesUnrevoked_rotates : RotatesUnrevoked rotatesUnrevoked.toDiscipline :=
  fun _ _ _ _ h => h

/-- A rotation that commits has found its token unrevoked, and leaves it revoked. -/
theorem TokenWork.exchanged {J : Db → Prop} {U : RefreshToken → Uuid → Prop} {pt : AuthPoint}
    {result : RefreshResult} {t : Transaction accounts} {s : Db}
    (h : TokenWork J U crypto requests i pt (.done (.ok (.refreshed result))) t s) :
    ∃ r id row, requests[i]? = some (.refresh r) ∧ s.refreshTokens.lookup id = some row ∧
      row.tokenHash = crypto.hashToken r.refreshToken ∧ row.revokedAt = none ∧
      (t.view s).refreshTokens.lookup id = some { row with revokedAt := some r.now } := by
  cases h with
  | @rotated r _ stored row id₀ id userId _ _ hr hstored hrow hlive howner h =>
    obtain ⟨⟨-, -, hlookup⟩, -, hnone⟩ := h.knows
    refine ⟨r, id, row, hr, hlookup, hrow, hlive, ?_⟩
    have hne : id ≠ r.newTokenId := by
      rintro rfl
      rw [hnone] at hlookup
      cases hlookup
    have htokens : (t.view s).refreshTokens =
        (s.refreshTokens.insert id { row with revokedAt := some r.now }).insert r.newTokenId
          (rotatedToken crypto r stored userId) := congrArg Prod.fst h.see_view
    rw [htokens, AList.lookup_insert_ne hne, AList.lookup_insert]
  | revoked _ ha _ _ => cases ha
  | user _ ha _ _ => cases ha
  | aside _ ha _ => cases ha

/-- The tokens exchanged so far are revoked, and no two requests have exchanged one. -/
structure ExchangedOnce (crypto : Crypto) (requests : List AuthRequest)
    (x : Service accounts AuthPoint) : Prop where
  revoked : ∀ i tokenHash, Exchanges crypto requests x i tokenHash → ∃ id row,
    x.committed.refreshTokens.lookup id = some row ∧ row.tokenHash = tokenHash ∧
      row.revokedAt.isSome
  once : ∀ i j tokenHash, Exchanges crypto requests x i tokenHash →
    Exchanges crypto requests x j tokenHash → i = j

variable {x : Service accounts AuthPoint}

/-- A step of a session that does not end an exchange. -/
theorem ExchangedOnce.of_sessions {x' : Service accounts AuthPoint}
    (h : ExchangedOnce crypto requests x)
    (hages : Ages x.committed.refreshTokens x'.committed.refreshTokens)
    (hsessions : ∀ (j : ℕ) (result : RefreshResult) (t : Transaction accounts),
      x'.sessions[j]? = some (Session.committed (.done (.ok (.refreshed result))) t) →
      ∃ (result : RefreshResult) (t : Transaction accounts),
        x.sessions[j]? = some (Session.committed (.done (.ok (.refreshed result))) t)) :
    ExchangedOnce crypto requests x' := by
  have hold {j : ℕ} {tokenHash : String} (hj : Exchanges crypto requests x' j tokenHash) :
      Exchanges crypto requests x j tokenHash := by
    obtain ⟨r, result, t, hr, hhash, hsession⟩ := hj
    obtain ⟨result', t', hsession'⟩ := hsessions j result t hsession
    exact ⟨r, result', t', hr, hhash, hsession'⟩
  refine ⟨fun j tokenHash hj => ?_, fun j l tokenHash hj hl => h.once j l _ (hold hj) (hold hl)⟩
  obtain ⟨id, row, hrow, hhash, hrevoked⟩ := h.revoked j tokenHash (hold hj)
  obtain ⟨row', hrow', hage⟩ := hages id row hrow
  exact ⟨id, row', hrow', hage.tokenHash.trans hhash, hage.revoked hrevoked⟩

/-- Replacing a session by one that has not ended an exchange. -/
theorem ExchangedOnce.set {x' : Service accounts AuthPoint} {i : ℕ} {y : Session accounts AuthPoint}
    (h : ExchangedOnce crypto requests x) (hstate : x'.committed = x.committed)
    (hset : x'.sessions = x.sessions.set i y)
    (hy : ∀ result t, y ≠ .committed (.done (.ok (.refreshed result))) t) :
    ExchangedOnce crypto requests x' := by
  refine h.of_sessions (by rw [hstate]; exact .refl _) fun j result t hj => ?_
  rw [hset] at hj
  rcases getElem?_setSession hj with ⟨-, heq⟩ | ⟨-, hj⟩
  · exact absurd heq.symm (hy result t)
  · exact ⟨result, t, hj⟩

/-- One commit. -/
theorem ExchangedOnce.commit {J : Db → Prop} {U : RefreshToken → Uuid → Prop} {i : ℕ}
    {pt a : AuthPoint} {t : Transaction accounts} (h : ExchangedOnce crypto requests x)
    (hhashes : HashesDiffer x.committed.refreshTokens)
    (hages : Ages x.committed.refreshTokens (t.view x.committed).refreshTokens)
    (hwork : TokenWork J U crypto requests i pt a t x.committed) :
    ExchangedOnce crypto requests (x.commit i a t) := by
  by_cases ha : ∃ result, a = .done (.ok (.refreshed result))
  · obtain ⟨result, rfl⟩ := ha
    obtain ⟨r, id, row, hr, hrow, hhash, hlive, hview⟩ := hwork.exchanged
    have hcases {j : ℕ} {tokenHash : String}
        (hj : Exchanges crypto requests
          (x.commit i (.done (.ok (.refreshed result))) t) j tokenHash) :
        (j = i ∧ tokenHash = crypto.hashToken r.refreshToken) ∨
          Exchanges crypto requests x j tokenHash := by
      obtain ⟨r', result', t', hr', hhash', hsession⟩ := hj
      rcases getElem?_setSession hsession with ⟨rfl, -⟩ | ⟨-, hsession⟩
      · cases hr.symm.trans hr'
        exact .inl ⟨rfl, hhash'.symm⟩
      · exact .inr ⟨r', result', t', hr', hhash', hsession⟩
    -- nobody has exchanged this token before, since it is unrevoked
    have hfirst {j : ℕ} (hj : Exchanges crypto requests x j (crypto.hashToken r.refreshToken)) :
        False := by
      obtain ⟨id', row', hrow', hhash', hrevoked⟩ := h.revoked j _ hj
      obtain rfl := hhashes hrow hrow' (hhash.trans hhash'.symm)
      obtain rfl := Option.some.inj (hrow.symm.trans hrow')
      rw [hlive] at hrevoked
      cases hrevoked
    refine ⟨fun j tokenHash hj => ?_, fun j l tokenHash hj hl => ?_⟩
    · rcases hcases hj with ⟨rfl, rfl⟩ | hj
      · exact ⟨id, _, hview, hhash, rfl⟩
      · obtain ⟨id', row', hrow', hhash', hrevoked⟩ := h.revoked j tokenHash hj
        obtain ⟨row'', hrow'', hage⟩ := hages id' row' hrow'
        exact ⟨id', row'', hrow'', hage.tokenHash.trans hhash', hage.revoked hrevoked⟩
    · rcases hcases hj with ⟨rfl, rfl⟩ | hj'
      · rcases hcases hl with ⟨rfl, -⟩ | hl'
        · rfl
        · exact (hfirst hl').elim
      · rcases hcases hl with ⟨rfl, rfl⟩ | hl'
        · exact (hfirst hj').elim
        · exact h.once j l tokenHash hj' hl'
  · refine h.of_sessions hages fun j result t' hj => ?_
    rcases getElem?_setSession hj with ⟨-, heq⟩ | ⟨-, hj⟩
    · cases heq
      exact absurd ⟨result, rfl⟩ ha
    · exact ⟨result, t', hj⟩

/-- **Rotation.** As long as every rotation finds its token unrevoked, no token is exchanged
by two requests, and no session ever has two tokens that are neither revoked nor expired. -/
theorem refresh_rotatesOnce {s₀ : Db} (hhashes : HashesDiffer s₀.refreshTokens)
    (hone : OneUnrevoked s₀.refreshTokens) (hdiffer : RandomValuesDiffer crypto requests)
    (hunused : ∀ r, .refresh r ∈ requests → Unused crypto r s₀.refreshTokens)
    (h : Serves (code crypto) rotatesUnrevoked (.start s₀ (requests.map .request)) x) :
    (∀ i j tokenHash, Exchanges crypto requests x i tokenHash →
      Exchanges crypto requests x j tokenHash → i = j) ∧
    ∀ s ∈ x.history s₀, ∀ sessionId now, (liveTokens sessionId now s).length ≤ 1 := by
  have hall : ExchangedOnce crypto requests x ∧
      ∀ s ∈ x.history s₀, OneUnrevoked s.refreshTokens := by
    have hs₀ : (oneUnrevoked crypto).Starts rotatesUnrevoked requests s₀ :=
      ⟨rotatesUnrevoked_rotates, fun _ => findsOwner_any _ _, hdiffer, hunused, hhashes, hone⟩
    refine hs₀.induction (I := fun x => ExchangedOnce crypto requests x ∧
        ∀ s ∈ x.history s₀, OneUnrevoked s.refreshTokens) ?_ ?_ ?_ ?_ ?_ h
    · -- at the start nothing has been exchanged
      have hnone {j : ℕ} {tokenHash : String} : ¬ Exchanges crypto requests
          (.start s₀ (requests.map .request)) j tokenHash := by
        rintro ⟨r, result, t, -, -, hsession⟩
        obtain ⟨pt, hpt, hcommitted⟩ := List.mem_map.mp (List.mem_of_getElem? hsession)
        obtain ⟨q, -, rfl⟩ := List.mem_map.mp hpt
        cases hcommitted
      refine ⟨⟨fun j _ hj => (hnone hj).elim, fun j _ _ hj => (hnone hj).elim⟩, ?_⟩
      intro s hs
      obtain rfl := List.mem_singleton.mp hs
      exact hone
    · -- a commit; the other steps commit nothing
      rintro x i pt a t ⟨honce, hhistory⟩ _ _ hinv hg hwork
      refine ⟨honce.commit hinv.1 hg.evolves.1 hwork, fun s hs => ?_⟩
      rcases List.mem_cons.mp hs with rfl | hs
      · exact hg.inv.2
      · exact hhistory s hs
    · exact fun x i t hI => ⟨hI.1.set rfl rfl (fun _ _ h => nomatch h), hI.2⟩
    · exact fun x i p t hI => ⟨hI.1.set rfl rfl (fun _ _ h => nomatch h), hI.2⟩
    · exact fun x i pt p hI => ⟨hI.1.set rfl rfl (fun _ _ h => nomatch h), hI.2⟩
  exact ⟨hall.1.once, fun s hs sessionId now => (hall.2 s hs).liveTokens_le_one sessionId now⟩

namespace Sample

/-- A stand-in for the hash functions: a mark in front of the text. -/
def marks : Crypto := ⟨fun token => "#" ++ token, fun hash password => hash = "$" ++ password⟩

def clerk : User where
  tenantId := "shop"
  email := "clerk@shop"
  passwordHash := "$secret"
  firstName := "Asha"
  lastName := "Rao"
  status := .active
  emailVerified := false

/-- A token of the clerk's login. -/
def loginToken : RefreshToken where
  tenantId := "shop"
  userId := "clerk"
  tokenHash := "#old"
  expiresAt := 1000
  sessionId := some "login"

/-- A shop with one clerk, who is signed in. -/
def office : Db where
  tenants := AList.insert "shop" ⟨"shop", .active⟩ ∅
  users := AList.insert "clerk" clerk ∅
  memberships := AList.insert ("shop", "clerk") .active ∅
  refreshTokens := AList.insert "row" loginToken ∅

/-- A request with the clerk's token. -/
def refreshOld (newSessionId newTokenId newToken : String) : RefreshRequest :=
  { refreshToken := "old", now := 1, newSessionId, newTokenId, newToken }

/-- Two of them. -/
def refreshes : List AuthRequest :=
  [.refresh (refreshOld "s1" "row1" "new1"), .refresh (refreshOld "s2" "row2" "new2")]

theorem lookup_office {id : Uuid} {row : RefreshToken}
    (h : office.refreshTokens.lookup id = some row) : id = "row" ∧ row = loginToken := by
  by_cases hid : id = "row"
  · subst hid
    exact ⟨rfl, (Option.some.inj h).symm⟩
  · rw [office, AList.lookup_insert_ne hid] at h
    cases h

theorem office_hashesDiffer : HashesDiffer office.refreshTokens :=
  fun _ _ _ _ h h' _ => (lookup_office h).1.trans (lookup_office h').1.symm

theorem office_oneUnrevoked : OneUnrevoked office.refreshTokens :=
  fun _ _ _ _ _ h h' _ _ _ _ => (lookup_office h).1.trans (lookup_office h').1.symm

/-- A request whose random values are new to the shop. -/
theorem office_unused {r : RefreshRequest} (hhash : marks.hashToken r.newToken ≠ "#old")
    (hsession : r.newSessionId ≠ "login") : Unused marks r office.refreshTokens := by
  intro id row h
  obtain ⟨-, rfl⟩ := lookup_office h
  exact ⟨Ne.symm hhash, fun heq => hsession (Option.some.inj heq).symm⟩

theorem refreshes_differ : RandomValuesDiffer marks refreshes := by
  intro i j r r' hij hr hr'
  match i, j with
  | 0, 0 => exact absurd rfl hij
  | 0, 1 => cases hr; cases hr'; decide
  | 1, 0 => cases hr; cases hr'; decide
  | 1, 1 => exact absurd rfl hij
  | i + 2, _ => cases hr
  | _, j + 2 => cases hr'

theorem refreshes_unused : ∀ r, .refresh r ∈ refreshes → Unused marks r office.refreshTokens := by
  intro r hr
  rcases List.mem_cons.mp hr with hr | hr
  · cases hr
    exact office_unused (by decide) (by decide)
  · cases List.mem_singleton.mp hr
    exact office_unused (by decide) (by decide)

/-- The session `i` starts a transaction and runs `n` statements of it. -/
def turns (i n : ℕ) : List (Turn accounts) := .resume i :: List.replicate n (.act (.advance i))

/-- What a session has come to: the session its new token belongs to. -/
def refreshedSession (x : Service accounts AuthPoint) (i : ℕ) : Option Uuid :=
  match x.sessions[i]? with
  | some (.committed (.done (.ok (.refreshed result))) _) => some result.sessionId
  | _ => none

/-- The code of the error that a session has been refused with. -/
def refusal (x : Service accounts AuthPoint) (i : ℕ) : Option String :=
  match x.sessions[i]? with
  | some (.committed (.done (.error (.app e))) _) => some e.code
  | _ => none

theorem exchanges_of_refreshedSession {x : Service accounts AuthPoint} {i : ℕ}
    {r : RefreshRequest} {sessionId : Uuid} {requests : List AuthRequest}
    (hr : requests[i]? = some (.refresh r))
    (h : refreshedSession x i = some sessionId) :
    Exchanges marks requests x i (marks.hashToken r.refreshToken) := by
  unfold refreshedSession at h
  split at h
  · rename_i result t hsession
    exact ⟨r, result, t, hr, rfl, hsession⟩
  · cases h

end Sample

open Sample in
/-- Two requests with one token are under way together. The first exchanges it; the second
finds it revoked and is refused. -/
theorem refresh_rotatesOnce_sample : ∃ x, Serves (code marks) rotatesUnrevoked
    (.start office (refreshes.map .request)) x ∧ refreshedSession x 0 = some "login" ∧
    refusal x 1 = some "REFRESH_TOKEN_REVOKED" ∧
    (∀ i j tokenHash, Exchanges marks refreshes x i tokenHash →
      Exchanges marks refreshes x j tokenHash → i = j) ∧
    ∀ s ∈ x.history office, ∀ sessionId now, (liveTokens sessionId now s).length ≤ 1 := by
  have hrun : ((Service.start office (refreshes.map .request)).run (code marks)
      rotatesUnrevoked (turns 1 0 ++ turns 0 7 ++ (turns 1 4).tail)).map
      (fun x => (refreshedSession x 0, refusal x 1)) =
      some (some "login", some "REFRESH_TOKEN_REVOKED") := by
    decide +kernel
  obtain ⟨x, hx, hstate⟩ := Option.map_eq_some_iff.mp hrun
  obtain ⟨hsession, hrefusal⟩ := Prod.mk.inj hstate
  have hreach := serves_of_run .refl hx
  exact ⟨x, hreach, hsession, hrefusal, refresh_rotatesOnce office_hashesDiffer
    office_oneUnrevoked refreshes_differ refreshes_unused hreach⟩

open Sample in
/-- Both requests read the token before one of them has revoked it: it is exchanged twice, and
the login has two live tokens. -/
theorem doubleRefresh_exchangesTwice : ∃ x tokenHash,
    Serves (code marks) {} (.start office (refreshes.map .request)) x ∧
      Exchanges marks refreshes x 0 tokenHash ∧
      Exchanges marks refreshes x 1 tokenHash ∧
      liveTokens "login" 1 x.committed = ["row1", "row2"] := by
  have hrun : ((Service.start office (refreshes.map .request)).run (code marks) {}
      (turns 0 3 ++ turns 1 7 ++ List.replicate 4 (.act (.advance 0)))).map
      (fun x => (refreshedSession x 0, refreshedSession x 1, liveTokens "login" 1 x.committed)) =
      some (some "login", some "login", ["row1", "row2"]) := by
    decide +kernel
  obtain ⟨x, hx, hstate⟩ := Option.map_eq_some_iff.mp hrun
  obtain ⟨hfirst, hrest⟩ := Prod.mk.inj hstate
  obtain ⟨hsecond, hlive⟩ := Prod.mk.inj hrest
  exact ⟨x, _, serves_of_run .refl hx, exchanges_of_refreshedSession rfl hfirst,
    exchanges_of_refreshedSession (r := refreshOld "s2" "row2" "new2") rfl hsecond, hlive⟩

end PulseOps.Accounts
