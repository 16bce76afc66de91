import PulseOps.Storefront.Work

/-!
# The rules of storefront sessions

Rotation, reuse detection, signing out and a new password all write to the row of a session,
and each asks for another condition. Together they keep the rules: a refresh token is
exchanged once, a session has one token that `refresh` accepts, a revoked session stays
revoked, a new password ends every session the customer has, and a code is redeemed once.

## Main definitions

* `Exchanges`, `Redeems` — what a request has achieved.
* `Accepts` — a token that `refresh` would accept.
* `FreshSecrets` — the random bytes of the requests are new.

## Main results

* `storefront_sessions` — all five rules, in every run.
-/

set_option autoImplicit false

open ReadCommitted Program Contract

namespace PulseOps.Storefront

open StorefrontAuthService

/-- What the sessions of the system run. -/
abbrev System := Config storefront (Except Failure AuthResponse)

/-- The requests wait at their first statements. -/
def begun (sha256 : String → String) (requests : List AuthRequest) (s₀ : Db) : System :=
  .start s₀ (requests.map (program sha256))

/-- The request `i` has exchanged the refresh token. -/
def Exchanges (requests : List AuthRequest) (c : System) (i : ℕ) (refreshToken : String) : Prop :=
  ∃ r result t, requests[i]? = some (.refresh r) ∧ r.refreshToken = refreshToken ∧
    c.sessions[i]? = some (.committed (.ok (.tokens result)) t)

/-- The request `i` has redeemed the code. -/
def Redeems (requests : List AuthRequest) (c : System) (i : ℕ) (token : String) : Prop :=
  ∃ r result t, requests[i]? = some (.setPassword r) ∧ r.token = token ∧
    c.sessions[i]? = some (.committed (.ok (.tokens result)) t)

/-- `refresh` with this token, run alone on the state, answers with new tokens. -/
def Accepts (sha256 : String → String) (refreshToken : String) (s : Db) : Prop :=
  ∃ r result es, r.refreshToken = refreshToken ∧
    Runs (fun _ => ()) (refresh sha256 r) s (.ok (.tokens result)) es

/-- The session is revoked. -/
def Revoked (sessionId : Uuid) (s : Db) : Prop :=
  ∃ row, s.customerSessions.lookup sessionId = some row ∧ row.revokedAt.isSome

/-- No session has a token with the random bytes. -/
def Unused (sha256 : String → String) (secret : String) (s : Db) : Prop :=
  ∀ id row sessionId, s.customerSessions.lookup id = some row →
    row.refreshTokenHash ≠ sha256 (refreshTokenOf sessionId secret)

/-- The random bytes of the requests are new: no two requests can issue the same token, and
no session has one of these tokens at the start. -/
structure FreshSecrets (sha256 : String → String) (requests : List AuthRequest) (s₀ : Db) :
    Prop where
  differ : ∀ (i j : ℕ) (q q' : AuthRequest) (secret secret' : String), i ≠ j →
    requests[i]? = some q → requests[j]? = some q' → q.secret = some secret →
    q'.secret = some secret' → ∀ sessionId sessionId',
      refreshTokenOf sessionId secret ≠ refreshTokenOf sessionId' secret'
  unused : ∀ q ∈ requests, ∀ secret, q.secret = some secret → Unused sha256 secret s₀

variable {sha256 : String → String} {requests : List AuthRequest} {c : System} {s s' : Db}

/-! ### A token that is accepted -/

theorem Accepts.current {refreshToken : String} (h : Accepts sha256 refreshToken s) :
    ∃ row, s.customerSessions.lookup (sessionIdOf refreshToken) = some row ∧
      row.revokedAt = none ∧ row.refreshTokenHash = sha256 refreshToken := by
  obtain ⟨r, result, es, rfl, hrun⟩ := h
  unfold refresh orThrow ensure at hrun
  simp only [runs_query_bind, runs_orRaise_bind] at hrun
  obtain ⟨⟨session, customer⟩, hfound, hrun⟩ := hrun
  simp only [runs_require_bind] at hrun
  obtain ⟨husable, hrun⟩ := hrun
  obtain ⟨row, hrow, hcustomer⟩ := Option.bind_eq_some_iff.mp hfound
  obtain ⟨customer', -, heq⟩ := Option.map_eq_some_iff.mp hcustomer
  obtain rfl : row = session := congrArg Prod.fst heq
  refine ⟨row, (Option.filter_eq_some_iff.mp hrow).1, (of_decide_eq_true husable).1, ?_⟩
  split_ifs at hrun with hhash
  · obtain ⟨e, es', -, hend, -⟩ := runs_perform_bind.mp hrun
    cases (runs_ret.mp hend).1
  · exact not_not.mp hhash

/-- A session has one token that `refresh` accepts. -/
theorem Accepts.unique (hsha256 : Function.Injective sha256) {refreshToken refreshToken' : String}
    (h : Accepts sha256 refreshToken s) (h' : Accepts sha256 refreshToken' s)
    (hid : sessionIdOf refreshToken = sessionIdOf refreshToken') :
    refreshToken = refreshToken' := by
  obtain ⟨row, hrow, -, hhash⟩ := h.current
  obtain ⟨row', hrow', -, hhash'⟩ := h'.current
  rw [← hid] at hrow'
  obtain rfl := Option.some.inj (hrow.symm.trans hrow')
  exact hsha256 (hhash.symm.trans hhash')

theorem Revoked.not_accepts {sessionId : Uuid} (h : Revoked sessionId s) {refreshToken : String}
    (hid : sessionIdOf refreshToken = sessionId) : ¬ Accepts sha256 refreshToken s := by
  intro haccepts
  obtain ⟨row, hrow, hrevoked⟩ := h
  obtain ⟨row', hrow', hlive, -⟩ := haccepts.current
  rw [hid] at hrow'
  obtain rfl := Option.some.inj (hrow.symm.trans hrow')
  rw [hlive] at hrevoked
  cases hrevoked

theorem Revoked.ages {sessionId : Uuid} (h : Revoked sessionId s) (hage : StoreAges s s') :
    Revoked sessionId s' := by
  obtain ⟨row, hrow, hrevoked⟩ := h
  obtain ⟨row', hrow', hages⟩ := hage.sessions sessionId row hrow
  exact ⟨row', hrow', hages.revoked hrevoked⟩

/-! ### Tokens and codes that have been spent -/

/-- The session `i` has not ended, and has the random bytes. -/
def Holds (requests : List AuthRequest) (c : System) (i : ℕ) (secret : String) : Prop :=
  ∃ q p t, requests[i]? = some q ∧ q.secret = some secret ∧ c.sessions[i]? = some (.running p t)

/-- The tokens exchanged so far are no longer in use and nobody will issue them again, the
codes redeemed so far have been used, and nobody has spent one of them twice. -/
structure SpentOnce (sha256 : String → String) (requests : List AuthRequest) (c : System) :
    Prop where
  unused : ∀ i secret, Holds requests c i secret → Unused sha256 secret c.committed
  spent : ∀ i refreshToken row, Exchanges requests c i refreshToken →
    c.committed.customerSessions.lookup (sessionIdOf refreshToken) = some row →
    row.refreshTokenHash ≠ sha256 refreshToken
  foreign : ∀ i refreshToken j secret sessionId, Exchanges requests c i refreshToken →
    Holds requests c j secret → sha256 refreshToken ≠ sha256 (refreshTokenOf sessionId secret)
  once : ∀ i j refreshToken, Exchanges requests c i refreshToken →
    Exchanges requests c j refreshToken → i = j
  used : ∀ i token, Redeems requests c i token → ∃ id row,
    c.committed.customerTokens.lookup id = some row ∧ row.tokenHash = sha256 token ∧
      row.usedAt.isSome
  redeemedOnce : ∀ i j token, Redeems requests c i token → Redeems requests c j token → i = j

/-- The session `i` goes on without committing. -/
theorem SpentOnce.setSession {i : ℕ} {p : Sql (Except Failure AuthResponse)}
    {t : Transaction storefront} {y : Session storefront (Except Failure AuthResponse)}
    (h : SpentOnce sha256 requests c) (hi : c.sessions[i]? = some (.running p t))
    (hy : ∀ a t, y ≠ .committed a t) : SpentOnce sha256 requests (c.setSession i y) := by
  -- the sessions that have committed are the same
  have hsession {j : ℕ} {a : Except Failure AuthResponse} {t' : Transaction storefront}
      (hj : (c.setSession i y).sessions[j]? = some (.committed a t')) :
      c.sessions[j]? = some (.committed a t') := by
    rcases getElem?_setSession hj with ⟨-, heq⟩ | ⟨-, hj⟩
    · exact absurd heq.symm (hy a t')
    · exact hj
  have hexchanges {j : ℕ} {refreshToken : String}
      (hj : Exchanges requests (c.setSession i y) j refreshToken) :
      Exchanges requests c j refreshToken := by
    obtain ⟨r, result, t', hr, htoken, hj⟩ := hj
    exact ⟨r, result, t', hr, htoken, hsession hj⟩
  have hredeems {j : ℕ} {token : String} (hj : Redeems requests (c.setSession i y) j token) :
      Redeems requests c j token := by
    obtain ⟨r, result, t', hr, htoken, hj⟩ := hj
    exact ⟨r, result, t', hr, htoken, hsession hj⟩
  -- so are the secrets of those under way
  have hholds {j : ℕ} {secret : String} (hj : Holds requests (c.setSession i y) j secret) :
      Holds requests c j secret := by
    obtain ⟨q, p', t', hq, hsecret, hj⟩ := hj
    rcases getElem?_setSession hj with ⟨rfl, -⟩ | ⟨-, hj⟩
    · exact ⟨q, p, t, hq, hsecret, hi⟩
    · exact ⟨q, p', t', hq, hsecret, hj⟩
  exact
    { unused := fun j secret hj => h.unused j secret (hholds hj)
      spent := fun j refreshToken row hj => h.spent j refreshToken row (hexchanges hj)
      foreign := fun j refreshToken l secret id hj hl =>
        h.foreign j refreshToken l secret id (hexchanges hj) (hholds hl)
      once := fun j l refreshToken hj hl => h.once j l refreshToken (hexchanges hj) (hexchanges hl)
      used := fun j token hj => h.used j token (hredeems hj)
      redeemedOnce := fun j l token hj hl =>
        h.redeemedOnce j l token (hredeems hj) (hredeems hl) }

/-- A rotation that commits has found the token in use and has put another one in its place. -/
theorem SessionWork.exchanged {r : RefreshRequest} {result : Tokens}
    {t : Transaction storefront} (h : SessionWork sha256 (.refresh r) (.ok (.tokens result)) t s) :
    ∃ row row', s.customerSessions.lookup (sessionIdOf r.refreshToken) = some row ∧
      row.refreshTokenHash = sha256 r.refreshToken ∧
      (t.view s).customerSessions.lookup (sessionIdOf r.refreshToken) = some row' ∧
      row'.refreshTokenHash = sha256 (refreshTokenOf (sessionIdOf r.refreshToken) r.secret) := by
  cases h with
  | @rotated _ _ row _ _ hhash hlive h =>
    have hview : t.view s = _ := h.see_view
    rw [hview]
    exact ⟨row, _, h.knows.2, hhash, AList.lookup_insert _, rfl⟩
  | ended ha _ => exact absurd rfl (ha result)
  | idle ha _ => exact absurd rfl (ha result)

/-- A code that is redeemed was unused, and is used afterwards. -/
theorem SessionWork.redeemedCode {r : SetPasswordRequest} {result : Tokens}
    {t : Transaction storefront}
    (h : SessionWork sha256 (.setPassword r) (.ok (.tokens result)) t s) :
    ∃ id row row', s.customerTokens.lookup id = some row ∧ row.tokenHash = sha256 r.token ∧
      row.usedAt = none ∧ (t.view s).customerTokens.lookup id = some row' ∧
      row'.tokenHash = sha256 r.token ∧ row'.usedAt.isSome := by
  cases h with
  | @redeemed _ _ id row customer ids _ _ hhash hunused h =>
    have hview : t.view s = _ := h.see_view.trans (replay_redeemEdits r id row _ customer ids s)
    rw [hview]
    exact ⟨id, row, { row with usedAt := some r.now }, h.knows.1.1.2, hhash, hunused,
      AList.lookup_insert _, hhash, rfl⟩
  | ended ha _ => exact absurd rfl (ha result)
  | idle ha _ => exact absurd rfl (ha result)

/-- The session `i` goes on and commits what its request does. -/
theorem SpentOnce.commit {s₀ : Db} (hfresh : FreshSecrets sha256 requests s₀)
    (hsha256 : Function.Injective sha256) {i : ℕ} {q : AuthRequest}
    {a : Except Failure AuthResponse} {t : Transaction storefront}
    (h : SpentOnce sha256 requests c) (hs : CodesDiffer c.committed)
    (hi : c.sessions[i]? = some (.running (.ret a) t)) (hq : requests[i]? = some q)
    (hwork : SessionWork sha256 q a t c.committed) :
    SpentOnce sha256 requests (c.commit i a t) := by
  have hstep := hwork.step
  have hself (secret : String) (hsecret : q.secret = some secret) : Holds requests c i secret :=
    ⟨q, _, t, hq, hsecret, hi⟩
  -- who still has random bytes to issue is another session
  have hholds {j : ℕ} {secret : String} (hj : Holds requests (c.commit i a t) j secret) :
      j ≠ i ∧ Holds requests c j secret := by
    obtain ⟨q', p', t', hq', hsecret, hj⟩ := hj
    rcases getElem?_setSession hj with ⟨-, heq⟩ | ⟨hji, hj⟩
    · cases heq
    · exact ⟨hji, q', p', t', hq', hsecret, hj⟩
  have hexchanges {j : ℕ} {refreshToken : String}
      (hj : Exchanges requests (c.commit i a t) j refreshToken) :
      (j = i ∧ ∃ r result, q = .refresh r ∧ r.refreshToken = refreshToken ∧
        a = .ok (.tokens result)) ∨ Exchanges requests c j refreshToken := by
    obtain ⟨r, result, t', hr, htoken, hj⟩ := hj
    rcases getElem?_setSession hj with ⟨rfl, heq⟩ | ⟨-, hj⟩
    · cases heq
      exact .inl ⟨rfl, r, result, Option.some.inj (hq.symm.trans hr), htoken, rfl⟩
    · exact .inr ⟨r, result, t', hr, htoken, hj⟩
  have hredeems {j : ℕ} {token : String} (hj : Redeems requests (c.commit i a t) j token) :
      (j = i ∧ ∃ r result, q = .setPassword r ∧ r.token = token ∧ a = .ok (.tokens result)) ∨
        Redeems requests c j token := by
    obtain ⟨r, result, t', hr, htoken, hj⟩ := hj
    rcases getElem?_setSession hj with ⟨rfl, heq⟩ | ⟨-, hj⟩
    · cases heq
      exact .inl ⟨rfl, r, result, Option.some.inj (hq.symm.trans hr), htoken, rfl⟩
    · exact .inr ⟨r, result, t', hr, htoken, hj⟩
  -- the token that is exchanged has not been exchanged before
  have hfirst {r : RefreshRequest} {result : Tokens} {j : ℕ} (hr : q = .refresh r)
      (ha : a = .ok (.tokens result)) (hj : Exchanges requests c j r.refreshToken) : False := by
    subst hr ha
    obtain ⟨row, -, hrow, hhash, -⟩ := hwork.exchanged
    exact h.spent j r.refreshToken row hj hrow hhash
  have hfirstCode {r : SetPasswordRequest} {result : Tokens} {j : ℕ} (hr : q = .setPassword r)
      (ha : a = .ok (.tokens result)) (hj : Redeems requests c j r.token) : False := by
    subst hr ha
    obtain ⟨id, row, -, hrow, hhash, hunused, -⟩ := hwork.redeemedCode
    obtain ⟨id', row', hrow', hhash', hused⟩ := h.used j r.token hj
    obtain rfl := hs hrow hrow' (hhash.trans hhash'.symm)
    obtain rfl := Option.some.inj (hrow.symm.trans hrow')
    rw [hunused] at hused
    cases hused
  refine ⟨fun j secret hj => ?_, fun j refreshToken row hj hrow => ?_,
    fun j refreshToken l secret id hj hl => ?_, fun j l refreshToken hj hl => ?_,
    fun j token hj => ?_, fun j l token hj hl => ?_⟩
  · obtain ⟨hji, hj⟩ := hholds hj
    intro id row sessionId hrow
    rcases hstep.hashes id row hrow with ⟨secret', sessionId', hsecret', heq⟩ | ⟨row₀, hrow₀, heq⟩
    · obtain ⟨q', -, -, hq', hsecret, -⟩ := hj
      rw [heq]
      exact fun hsame => hfresh.differ i j q q' secret' secret (Ne.symm hji) hq hq' hsecret'
        hsecret sessionId' sessionId (hsha256 hsame)
    · rw [← heq]
      exact h.unused j secret hj id row₀ sessionId hrow₀
  · rcases hexchanges hj with ⟨rfl, r, result, rfl, rfl, rfl⟩ | hj
    · obtain ⟨row₀, row₁, hrow₀, hhash, hrow₁, hnext⟩ := hwork.exchanged
      obtain rfl := Option.some.inj (hrow.symm.trans hrow₁)
      rw [hnext, ← hhash]
      exact (h.unused j r.secret (hself _ rfl) _ row₀ _ hrow₀).symm
    · rcases hstep.hashes _ row hrow with ⟨secret, sessionId, hsecret, heq⟩ | ⟨row₀, hrow₀, heq⟩
      · rw [heq]
        exact (h.foreign j refreshToken i secret sessionId hj (hself _ hsecret)).symm
      · rw [← heq]
        exact h.spent j refreshToken row₀ hj hrow₀
  · obtain ⟨-, hissues⟩ := hholds hl
    rcases hexchanges hj with ⟨rfl, r, result, rfl, rfl, rfl⟩ | hj
    · obtain ⟨row₀, -, hrow₀, hhash, -⟩ := hwork.exchanged
      rw [← hhash]
      exact h.unused l secret hissues _ row₀ id hrow₀
    · exact h.foreign j refreshToken l secret id hj hissues
  · rcases hexchanges hj with ⟨rfl, r, result, hr, rfl, ha⟩ | hj'
    · rcases hexchanges hl with ⟨rfl, -⟩ | hl'
      · rfl
      · exact (hfirst hr ha hl').elim
    · rcases hexchanges hl with ⟨rfl, r, result, hr, rfl, ha⟩ | hl'
      · exact (hfirst hr ha hj').elim
      · exact h.once j l refreshToken hj' hl'
  · rcases hredeems hj with ⟨rfl, r, result, rfl, rfl, rfl⟩ | hj
    · obtain ⟨id, -, row', -, -, -, hrow', hhash, hused⟩ := hwork.redeemedCode
      exact ⟨id, row', hrow', hhash, hused⟩
    · obtain ⟨id, row, hrow, hhash, hused⟩ := h.used j token hj
      obtain ⟨row', hrow', hage⟩ := hstep.ages.tokens id row hrow
      exact ⟨id, row', hrow', hage.tokenHash.trans hhash, hage.used hused⟩
  · rcases hredeems hj with ⟨rfl, r, result, hr, rfl, ha⟩ | hj'
    · rcases hredeems hl with ⟨rfl, -⟩ | hl'
      · rfl
      · exact (hfirstCode hr ha hl').elim
    · rcases hredeems hl with ⟨rfl, r, result, hr, rfl, ha⟩ | hl'
      · exact (hfirstCode hr ha hj').elim
      · exact h.redeemedOnce j l token hj' hl'

/-! ### Runs -/

/-- A request that waits keeps to the contract, and commits one of the things it can do. -/
theorem wp_program {s₀ : Db} (hs₀ : CodesDiffer s₀) (i : ℕ)
    (p : Sql (Except Failure AuthResponse)) (hp : (requests.map (program sha256))[i]? = some p) :
    sessionContract.wp (.free storefront) (sessionContract.Commits (.free storefront)
      fun a t s => ∃ q, requests[i]? = some q ∧ SessionWork sha256 q a t s) p {} s₀ := by
  rw [List.getElem?_map, Option.map_eq_some_iff] at hp
  obtain ⟨q, hq, rfl⟩ := hp
  have hwork : sessionContract.wp (.free storefront) (SessionWork sha256 q) (program sha256 q) {}
      s₀ := triple_program q {} s₀ hs₀ (Observation.After.start trivial)
  refine wp_mono hwork fun a t s h hs _ => ⟨⟨?_, ?_, ?_⟩, q, hq, h⟩
  · exact h.step.codes hs
  · exact h.step.ages
  · exact fun k hk _ => h.step.agree k hk

theorem SpentOnce.start {s₀ : Db} (hfresh : FreshSecrets sha256 requests s₀) :
    SpentOnce sha256 requests (begun sha256 requests s₀) := by
  have hnone {i : ℕ} {a : Except Failure AuthResponse} {t : Transaction storefront} :
      (begun sha256 requests s₀).sessions[i]? ≠ some (.committed a t) := by
    intro hi
    obtain ⟨p, -, heq⟩ := List.mem_map.mp (List.mem_of_getElem? hi)
    cases heq
  have hexchanges {i : ℕ} {refreshToken : String} :
      ¬ Exchanges requests (begun sha256 requests s₀) i refreshToken := by
    rintro ⟨r, result, t, -, -, hi⟩
    exact hnone hi
  have hredeems {i : ℕ} {token : String} :
      ¬ Redeems requests (begun sha256 requests s₀) i token := by
    rintro ⟨r, result, t, -, -, hi⟩
    exact hnone hi
  exact
    { unused := fun i secret ⟨q, p, t, hq, hsecret, _⟩ =>
        hfresh.unused q (List.mem_of_getElem? hq) secret hsecret
      spent := fun i _ _ hi => (hexchanges hi).elim
      foreign := fun i _ _ _ _ hi => (hexchanges hi).elim
      once := fun i _ _ hi => (hexchanges hi).elim
      used := fun i _ hi => (hredeems hi).elim
      redeemedOnce := fun i _ _ hi => (hredeems hi).elim }

theorem spentOnce_of_reaches {s₀ : Db} (hsha256 : Function.Injective sha256)
    (hfresh : FreshSecrets sha256 requests s₀) (hs₀ : CodesDiffer s₀)
    (h : Reaches (.free storefront) (begun sha256 requests s₀) c) :
    SpentOnce sha256 requests c := by
  refine reaches_induction_indexed hs₀ (wp_program hs₀) (SpentOnce.start hfresh) ?_ ?_ ?_ h
  · rintro c i a t hspent hi - hs - ⟨q, hq, hwork⟩
    exact hspent.commit hfresh hsha256 hs hi hq hwork
  · exact fun c i p t hspent hi _ => hspent.setSession hi fun _ _ h => nomatch h
  · exact fun c i p p' t t' hspent hi => hspent.setSession hi fun _ _ h => nomatch h

/-- The tables only age. -/
theorem ages_of_reaches {s₀ : Db} (hs₀ : CodesDiffer s₀) {c' : System}
    (h : Reaches (.free storefront) (begun sha256 requests s₀) c)
    (h' : Reaches (.free storefront) c c') : StoreAges c.committed c'.committed := by
  refine (of_reaches (L := sessionContract) (Q := fun _ _ _ => True) hs₀ (fun p hp => ?_)
    (h.trans h') c.committed (h.committed_mem_history h')).2
  obtain ⟨i, hi⟩ := List.getElem?_of_mem hp
  exact wp_mono (wp_program hs₀ i p hi) fun a t s hcommits hs hok => ⟨(hcommits hs hok).1, trivial⟩

/-- A redeemed code has ended the sessions its customer had. -/
theorem SessionWork.endsSessions {r : SetPasswordRequest} {result : Tokens}
    {t : Transaction storefront}
    (h : SessionWork sha256 (.setPassword r) (.ok (.tokens result)) t s) :
    ∃ id record, s.customerTokens.lookup id = some record ∧
      record.tokenHash = sha256 r.token ∧ ∀ sessionId row,
        s.customerSessions.lookup sessionId = some row → row.customerId = record.customerId →
          Revoked sessionId (t.view s) := by
  cases h with
  | @redeemed _ _ id record customer ids _ _ hhash hunused h =>
    obtain ⟨⟨⟨-, hrecord⟩, -, hsaw⟩, -, hnone⟩ := h.knows
    refine ⟨id, record, hrecord, hhash, fun sessionId row hrow hcustomer => ?_⟩
    have hne : sessionId ≠ r.newSessionId := by
      rintro rfl
      rw [hnone] at hrow
      cases hrow
    have hview : t.view s = _ := h.see_view.trans (replay_redeemEdits r id record _ customer ids s)
    have hlookup : (t.view s).customerSessions.lookup sessionId =
        (s.apply (.sessionsRevoke ids r.now)).customerSessions.lookup sessionId := by
      rw [hview]
      exact AList.lookup_insert_ne hne
    rw [lookup_sessionsRevoke, hrow] at hlookup
    unfold Revoked
    rw [hlookup]
    split_ifs with hmem
    · exact ⟨_, rfl, rfl⟩
    · exact ⟨row, rfl, (hsaw sessionId row hrow hcustomer).resolve_right hmem⟩
  | ended ha _ => exact absurd rfl (ha result)
  | idle ha _ => exact absurd rfl (ha result)

/-- **The rules of storefront sessions.** In every run of refreshes, sign-outs and new
passwords, nobody exchanges a refresh token twice, every session has at most one token that
`refresh` accepts, a revoked session stays revoked and has none, the commit of `setPassword`
ends for good every session its customer had, and nobody redeems a code twice. -/
theorem storefront_sessions {s₀ : Db} (hsha256 : Function.Injective sha256)
    (hfresh : FreshSecrets sha256 requests s₀) (hs₀ : CodesDiffer s₀)
    (h : Reaches (.free storefront) (begun sha256 requests s₀) c) :
    (∀ i j refreshToken, Exchanges requests c i refreshToken →
      Exchanges requests c j refreshToken → i = j) ∧
    (∀ s ∈ c.history s₀, ∀ refreshToken refreshToken', Accepts sha256 refreshToken s →
      Accepts sha256 refreshToken' s → sessionIdOf refreshToken = sessionIdOf refreshToken' →
      refreshToken = refreshToken') ∧
    (∀ c' sessionId, Reaches (.free storefront) c c' → Revoked sessionId c.committed →
      Revoked sessionId c'.committed ∧ ∀ refreshToken, sessionIdOf refreshToken = sessionId →
        ¬ Accepts sha256 refreshToken c'.committed) ∧
    (∀ c' c'' i r result t, requests[i]? = some (.setPassword r) →
      c.sessions[i]? = some (.running (.ret (.ok (.tokens result))) t) →
      c.step (.free storefront) (.advance i) = some c' → Reaches (.free storefront) c' c'' →
      ∃ id record, c.committed.customerTokens.lookup id = some record ∧
        record.tokenHash = sha256 r.token ∧ ∀ sessionId row,
          c.committed.customerSessions.lookup sessionId = some row →
          row.customerId = record.customerId → Revoked sessionId c''.committed) ∧
    (∀ i j token, Redeems requests c i token → Redeems requests c j token → i = j) := by
  have hspent := spentOnce_of_reaches hsha256 hfresh hs₀ h
  refine ⟨hspent.once, fun s _ _ _ haccepts haccepts' => haccepts.unique hsha256 haccepts',
    fun c' sessionId h' hrevoked => ?_, fun c' c'' i r result t hr hi hstep h'' => ?_,
    hspent.redeemedOnce⟩
  · -- sessions only age
    have hrevoked' := hrevoked.ages (ages_of_reaches hs₀ h h')
    exact ⟨hrevoked', fun refreshToken hid => hrevoked'.not_accepts hid⟩
  · -- the commit of a new password revokes the sessions there are
    obtain ⟨hok, rfl⟩ := commit_of_step hi hstep
    obtain ⟨-, -, q, hq, hwork⟩ := guarantee_of_reaches hs₀ (wp_program hs₀) h hi hok
    obtain rfl := Option.some.inj (hr.symm.trans hq)
    obtain ⟨id, record, hrecord, hhash, hends⟩ := hwork.endsSessions
    refine ⟨id, record, hrecord, hhash, fun sessionId row hrow hcustomer => ?_⟩
    exact (hends sessionId row hrow hcustomer).ages (ages_of_reaches hs₀ (h.step hstep) h'')

namespace Sample

/-- A stand-in for the hash function: a mark in front of the text. -/
def mark (token : String) : String := "#" ++ token

theorem mark_injective : Function.Injective mark := by
  intro token token' h
  have hlist := congrArg String.toList h
  simp only [mark, String.toList_append] at hlist
  exact String.toList_inj.mp (List.append_cancel_left hlist)

/-- Tokens with secrets of one length differ if their secrets do. -/
theorem refreshTokenOf_ne {sessionId sessionId' : Uuid} {secret secret' : String}
    (hlength : secret.toList.length = secret'.toList.length) (hne : secret ≠ secret') :
    refreshTokenOf sessionId secret ≠ refreshTokenOf sessionId' secret' := by
  intro h
  have hlist := congrArg String.toList h
  simp only [refreshTokenOf, String.toList_append] at hlist
  exact hne (String.toList_inj.mp (List.append_inj_right' hlist hlength))

def shopper : Customer where
  tenantId := "store"
  email := "asha@mail"
  firstName := "Asha"
  lastName := "Rao"
  phone := none

/-- A store with a shopper who is signed in and has been sent a code. -/
def store : Db where
  customers := AList.insert "asha" shopper ∅
  customerSessions := AList.insert "s" ⟨"store", "asha", mark "s.old", 1000, none, none⟩ ∅
  customerTokens := AList.insert "t" ⟨"store", "asha", mark "code", 1000, none⟩ ∅

/-- The shopper's token is used twice, and somebody redeems the code. -/
def visits : List AuthRequest :=
  [.refresh ⟨"store", "s.old", 1, "one"⟩, .refresh ⟨"store", "s.old", 1, "two"⟩,
    .setPassword ⟨"store", "code", "secret", 2, "s2", "new"⟩]

theorem secrets_length {q : AuthRequest} {secret : String} (hq : q ∈ visits)
    (hsecret : q.secret = some secret) : secret.toList.length = 3 ∧ secret ≠ "old" := by
  simp only [visits, List.mem_cons, List.not_mem_nil, or_false] at hq
  rcases hq with rfl | rfl | rfl <;> cases hsecret <;> decide

theorem store_freshSecrets : FreshSecrets mark visits store where
  differ i j q q' secret secret' hij hq hq' hsecret hsecret' sessionId sessionId' := by
    have hlength := (secrets_length (List.mem_of_getElem? hq) hsecret).1
    have hlength' := (secrets_length (List.mem_of_getElem? hq') hsecret').1
    refine refreshTokenOf_ne (hlength.trans hlength'.symm) ?_
    rintro rfl
    have hnodup : (visits.map AuthRequest.secret).Nodup := by decide
    have hlt : i < (visits.map AuthRequest.secret).length := by
      rw [List.length_map]
      exact (List.getElem?_eq_some_iff.mp hq).1
    refine hij ((List.getElem?_inj hlt hnodup).mp ?_)
    rw [List.getElem?_map, List.getElem?_map, hq, hq', Option.map_some, Option.map_some, hsecret,
      hsecret']
  unused q hq secret hsecret id row sessionId hrow := by
    obtain ⟨hlength, hne⟩ := secrets_length hq hsecret
    by_cases hid : id = "s"
    · subst hid
      cases hrow
      have hdiffer : refreshTokenOf "s" "old" ≠ refreshTokenOf sessionId secret :=
        refreshTokenOf_ne hlength.symm (Ne.symm hne)
      exact fun heq => hdiffer (mark_injective heq)
    · rw [store, AList.lookup_insert_ne hid] at hrow
      cases hrow

theorem store_codesDiffer : CodesDiffer store := by
  have hlookup {id : Uuid} {row : CustomerToken} (h : store.customerTokens.lookup id = some row) :
      id = "t" := by
    by_contra hid
    rw [store, AList.lookup_insert_ne hid] at h
    cases h
  exact fun _ _ _ _ h h' _ => (hlookup h).trans (hlookup h').symm

/-- The new token a session has been given. -/
def newToken (c : System) (i : ℕ) : Option String :=
  match c.sessions[i]? with
  | some (.committed (.ok (.tokens result)) _) => some result.refreshToken
  | _ => none
end Sample

open Storefront.Sample in
/-- The first to use the token gets a new one, the code is redeemed, and the rules hold. -/
theorem storefront_sessions_sample : ∃ c, Reaches (.free storefront) (begun mark visits store) c ∧
    (newToken c 0, newToken c 2) = (some "s.one", some "s2.new") ∧
    (∀ i j refreshToken, Exchanges visits c i refreshToken →
      Exchanges visits c j refreshToken → i = j) ∧
    (∀ s ∈ c.history store, ∀ refreshToken refreshToken', Accepts mark refreshToken s →
      Accepts mark refreshToken' s → sessionIdOf refreshToken = sessionIdOf refreshToken' →
      refreshToken = refreshToken') ∧
    (∀ c' sessionId, Reaches (.free storefront) c c' → Revoked sessionId c.committed →
      Revoked sessionId c'.committed ∧ ∀ refreshToken, sessionIdOf refreshToken = sessionId →
        ¬ Accepts mark refreshToken c'.committed) ∧
    (∀ c' c'' i r result t, visits[i]? = some (.setPassword r) →
      c.sessions[i]? = some (.running (.ret (.ok (.tokens result))) t) →
      c.step (.free storefront) (.advance i) = some c' → Reaches (.free storefront) c' c'' →
      ∃ id record, c.committed.customerTokens.lookup id = some record ∧
        record.tokenHash = mark r.token ∧ ∀ sessionId row,
          c.committed.customerSessions.lookup sessionId = some row →
          row.customerId = record.customerId → Revoked sessionId c''.committed) ∧
    (∀ i j token, Redeems visits c i token → Redeems visits c j token → i = j) := by
  have hrun : ((begun mark visits store).run (.free storefront) (List.replicate 3 (.advance 0) ++
      List.replicate 8 (.advance 2))).map (fun c => (newToken c 0, newToken c 2)) =
      some (some "s.one", some "s2.new") := by
    decide +kernel
  obtain ⟨c, hc, htokens⟩ := Option.map_eq_some_iff.mp hrun
  have hreach := reaches_of_run .refl hc
  exact ⟨c, hreach, htokens, storefront_sessions mark_injective store_freshSecrets
    store_codesDiffer hreach⟩

end PulseOps.Storefront
