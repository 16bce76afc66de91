import PulseOps.SignIn.Rotation

/-!
# One-time links

`resetPassword` and `verifyEmail` look at `usedAt`, change the user and mark the token with
three statements that commit one by one. Two requests with one link can both find it unused
and both succeed. As long as the statement that marks a token finds it unused, a link takes
effect once, in whatever order the requests run and wherever one of them stops halfway.

## Main definitions

* `LinkKind` — the two tables of one-time tokens.
* `marksUnused` — every marking finds its token unused.
* `Redeems` — a request has succeeded with a link.

## Main results

* `triple_link` — what every transaction does to the two tables.
* `links_redeemedOnce` — no two requests succeed with one link.
-/

set_option autoImplicit false

open ReadCommitted Program Contract

namespace PulseOps.Accounts

open AuthService

inductive LinkKind where
  | passwordReset
  | emailVerification
  deriving DecidableEq, Repr

namespace LinkKind

def table : LinkKind → Db → Table Uuid OneTimeToken
  | passwordReset => Db.passwordResetTokens
  | emailVerification => Db.emailVerificationTokens

def update : LinkKind → Uuid → OneTimeToken → Edit
  | passwordReset => .passwordResetTokenUpdate
  | emailVerification => .emailVerificationTokenUpdate

def key : LinkKind → Uuid → Key
  | passwordReset => .passwordResetToken
  | emailVerification => .emailVerificationToken

/-- `markPasswordResetTokenUsed` and `markEmailVerificationTokenUsed`. -/
def markUsed (kind : LinkKind) (tokenHash : String) (now : Millis) : Sql Unit := do
  let token ← query fun s => AuthRepository.findByHash (·.tokenHash) tokenHash (kind.table s)
  match token with
  | none => return ()
  | some (id, _) =>
    perform (Statement.updateRow kind.table kind.update id fun row =>
      { row with usedAt := some now })

@[simp] theorem footprint_update (kind : LinkKind) (id : Uuid) (row : OneTimeToken) :
    (kind.update id row).footprint = [kind.key id] := by
  cases kind <;> rfl

theorem table_update (kind kind' : LinkKind) (id : Uuid) (row : OneTimeToken) (s : Db) :
    kind'.table (s.apply (kind.update id row)) =
      if kind' = kind then (kind.table s).insert id row else kind'.table s := by
  cases kind <;> cases kind' <;> rfl

end LinkKind

/-- The link a request presents: its kind and the hash of its token. -/
def AuthRequest.link (crypto : Crypto) : AuthRequest → Option (LinkKind × String)
  | .resetPassword token _ _ => some (.passwordReset, crypto.hashToken token)
  | .verifyEmail token _ => some (.emailVerification, crypto.hashToken token)
  | _ => none

/-- The request `i` presents the link. -/
def Presents (crypto : Crypto) (requests : List AuthRequest) (i : ℕ) (link : LinkKind × String) :
    Prop :=
  ∃ q, requests[i]? = some q ∧ q.link crypto = some link

/-- The request `i` has succeeded with the link. -/
def Redeems (crypto : Crypto) (requests : List AuthRequest) (x : Service accounts AuthPoint)
    (i : ℕ) (link : LinkKind × String) : Prop :=
  Presents crypto requests i link ∧
    ∃ answer t, x.sessions[i]? = some (.committed (.done (.ok answer)) t)

/-- Every marking finds its token unused. -/
def marksUnused : Policy accounts AuthPoint where
  write s t
    | .passwordResetTokenUpdate id _ =>
      ((t.view s).passwordResetTokens.lookup id).any (·.usedAt = none)
    | .emailVerificationTokenUpdate id _ =>
      ((t.view s).emailVerificationTokens.lookup id).any (·.usedAt = none)
    | _ => true

/-- The policy lets a token be marked only while it is unused. -/
def MarksUnused (R : Discipline accounts) : Prop :=
  ∀ s t kind id row, R.write s t (kind.update id row) = true →
    ((LinkKind.table kind (t.view s)).lookup id).any (·.usedAt = none) = true

theorem marksUnused_marks : MarksUnused marksUnused.toDiscipline := by
  intro s t kind id row h
  cases kind <;> exact h

variable {crypto : Crypto} {requests : List AuthRequest} {i : ℕ} {link : LinkKind × String}
  {R : Discipline accounts}

theorem Presents.link_eq {link' : LinkKind × String} (h : Presents crypto requests i link)
    (h' : Presents crypto requests i link') : link = link' := by
  obtain ⟨q, hq, hlink⟩ := h
  obtain ⟨q', hq', hlink'⟩ := h'
  obtain rfl := Option.some.inj (hq.symm.trans hq')
  exact Option.some.inj (hlink.symm.trans hlink')

/-! ### The contract of the two tables -/

/-- No two tokens of a kind have the same hash. -/
def LinksDiffer (s : Db) : Prop :=
  ∀ ⦃kind : LinkKind⦄ ⦃id id' row row'⦄, (kind.table s).lookup id = some row →
    (kind.table s).lookup id' = some row' → row.tokenHash = row'.tokenHash → id = id'

/-- A row some time later: nobody takes a token back out of use. -/
structure OneTimeToken.Ages (row row' : OneTimeToken) : Prop where
  tokenHash : row'.tokenHash = row.tokenHash
  used : row.usedAt.isSome → row'.usedAt.isSome

/-- The token of the link is in its table. -/
def Found (link : LinkKind × String) (s : Db) : Prop :=
  ∃ id row, (link.1.table s).lookup id = some row ∧ row.tokenHash = link.2

/-- The token of the link has been used. -/
def Used (link : LinkKind × String) (s : Db) : Prop :=
  ∃ id row, (link.1.table s).lookup id = some row ∧ row.tokenHash = link.2 ∧ row.usedAt.isSome

/-- The tokens of `s'` are those of `s` some time later. -/
def LinksAge (s s' : Db) : Prop :=
  ∀ (kind : LinkKind) id row, (kind.table s).lookup id = some row →
    ∃ row', (kind.table s').lookup id = some row' ∧ row.Ages row'

variable {s s' s'' : Db}

theorem LinksAge.refl (s : Db) : LinksAge s s := fun _ _ row h => ⟨row, h, rfl, id⟩

theorem LinksAge.trans (h : LinksAge s s') (h' : LinksAge s' s'') : LinksAge s s'' := by
  intro kind id row hrow
  obtain ⟨row', hrow', hage⟩ := h kind id row hrow
  obtain ⟨row'', hrow'', hage'⟩ := h' kind id row' hrow'
  exact ⟨row'', hrow'', hage'.tokenHash.trans hage.tokenHash, fun hu => hage'.used (hage.used hu)⟩

theorem Found.ages (h : Found link s) (hage : LinksAge s s') : Found link s' := by
  obtain ⟨id, row, hrow, hhash⟩ := h
  obtain ⟨row', hrow', hages⟩ := hage _ id row hrow
  exact ⟨id, row', hrow', hages.tokenHash.trans hhash⟩

theorem Used.ages (h : Used link s) (hage : LinksAge s s') : Used link s' := by
  obtain ⟨id, row, hrow, hhash, hused⟩ := h
  obtain ⟨row', hrow', hages⟩ := hage _ id row hrow
  exact ⟨id, row', hrow', hages.tokenHash.trans hhash, hages.used hused⟩

/-- What the requests that mark tokens agree on. -/
def linkContract : Contract accounts where
  inv := LinksDiffer
  evolves := LinksAge
  agree k s s' := ∀ (kind : LinkKind) id, k = kind.key id →
    (kind.table s).lookup id = (kind.table s').lookup id
  evolves_refl := .refl
  evolves_trans := .trans
  agree_refl _ _ _ _ _ := rfl
  agree_trans h h' kind id hk := (h kind id hk).trans (h' kind id hk)

/-- The two tables of one-time tokens. -/
def linkTables : Observation accounts (Table Uuid OneTimeToken × Table Uuid OneTimeToken) where
  see s := (s.passwordResetTokens, s.emailVerificationTokens)
  touches
    | .userDelete _ => true
    | .passwordResetTokenUpdate _ _ => true
    | .emailVerificationTokenUpdate _ _ => true
    | _ => false
  see_apply {s e} he := by cases e <;> simp_all
  see_congr {s s' e} h := by cases e <;> simp_all [Db.deleteUser]

theorem linkTables_touches (kind : LinkKind) (id : Uuid) (row : OneTimeToken) :
    linkTables.touches (kind.update id row) = true := by
  cases kind <;> rfl

theorem table_eq_of_see (h : linkTables.see s = linkTables.see s') (kind : LinkKind) :
    kind.table s = kind.table s' := by
  obtain ⟨hreset, hverify⟩ := Prod.mk.inj h
  cases kind
  · exact hreset
  · exact hverify

/-- The contract, as the request `i` may rely on it. -/
abbrev linkView (i : ℕ) : Contract accounts := linkContract.ownedBy (.none Db) i

/-! ### What the requests know and do -/

/-- The link that the transaction of a point marks. -/
def AuthPoint.marks : AuthPoint → Option (LinkKind × String)
  | .markPasswordResetTokenUsed tokenHash _ _ => some (.passwordReset, tokenHash)
  | .markEmailVerificationTokenUsed tokenHash _ => some (.emailVerification, tokenHash)
  | _ => none

/-- Whether a request that presents a link has marked it when it comes to a point. -/
def AuthPoint.marked : AuthPoint → Bool
  | .revokeOtherSessions _ _ _ => true
  | .revokeAllUserRefreshTokens _ _ => true
  | .done (.ok _) => true
  | _ => false

/-- What the request `i` knows at its points: the link it is about to mark is its own and in
the table, and past that statement its link has been used. -/
structure LinkKnown (crypto : Crypto) (requests : List AuthRequest) (i : ℕ) (pt : AuthPoint)
    (s : Db) : Prop where
  request : ∀ q, pt = .request q → requests[i]? = some q
  marks : ∀ link, pt.marks = some link → Presents crypto requests i link ∧ Found link s
  used : ∀ link, pt.marked = true → Presents crypto requests i link → Used link s

theorem LinkKnown.ages {pt : AuthPoint} (h : LinkKnown crypto requests i pt s)
    (hage : LinksAge s s') : LinkKnown crypto requests i pt s' where
  request := h.request
  marks link hpt := ⟨(h.marks link hpt).1, (h.marks link hpt).2.ages hage⟩
  used link hpt hpresents := (h.used link hpt hpresents).ages hage

/-- A point at which a request that presents no link has nothing to know. -/
theorem LinkKnown.none {pt : AuthPoint} (hrequest : ∀ q, pt ≠ .request q)
    (hmarks : pt.marks = none) (hlink : ∀ link, ¬ Presents crypto requests i link) :
    LinkKnown crypto requests i pt s where
  request q hq := absurd hq (hrequest q)
  marks link hpt := by
    rw [hmarks] at hpt
    cases hpt
  used link _ hpresents := absurd hpresents (hlink link)

/-- A point past the marking. -/
theorem LinkKnown.of_used {pt : AuthPoint} (hpt : pt.marked = true)
    (hused : ∀ link, Presents crypto requests i link → Used link s) :
    LinkKnown crypto requests i pt s := by
  refine ⟨?_, ?_, fun link _ hpresents => hused link hpresents⟩
  · rintro q rfl
    cases hpt
  · intro link hmarks
    cases pt <;> simp_all [AuthPoint.marks, AuthPoint.marked]

/-- The request goes on from the point `pt`. -/
def goesOn (crypto : Crypto) (requests : List AuthRequest) (i : ℕ) (pt : AuthPoint) :
    (linkView i).Knowledge :=
  .lasting (LinkKnown crypto requests i pt) fun _ _ hev h => h.ages hev.1

/-- The row of a token under its lock. -/
def lockedLink (i : ℕ) (kind : LinkKind) (id : Uuid) (row : OneTimeToken) :
    (linkView i).Knowledge :=
  .under (kind.key id) (fun s => (kind.table s).lookup id = some row)
    fun hagree hrow => (hagree kind id rfl).symm.trans hrow

/-- Everything the transaction of the point `pt` can do to the two tables before the request
goes on from `a`. -/
inductive LinkWork (crypto : Crypto) (requests : List AuthRequest) (i : ℕ) :
    AuthPoint → AuthPoint → Transaction accounts → Db → Prop
  | marked {pt a : AuthPoint} {link : LinkKind × String} {id : Uuid} {row : OneTimeToken}
      {now : Millis} {t : Transaction accounts} {s : Db}
      (hpresents : Presents crypto requests i link) (ha : a.marked = true)
      (hhash : row.tokenHash = link.2) (hunused : row.usedAt = none)
      (h : linkTables.After (lockedLink i link.1 id row)
        [link.1.update id { row with usedAt := some now }] t s) :
      LinkWork crypto requests i pt a t s
  | aside {pt a : AuthPoint} {t : Transaction accounts} {s : Db}
      (ha : a.marked = true → pt.marked = true ∨ ∀ link, ¬ Presents crypto requests i link)
      (h : linkTables.After (goesOn crypto requests i a) [] t s) :
      LinkWork crypto requests i pt a t s

theorem LinkWork.stable (pt a : AuthPoint) :
    (linkView i).Stable (LinkWork crypto requests i pt a) := by
  intro t s s' hs h hr
  cases h with
  | marked hpresents ha hhash hunused h =>
    exact .marked hpresents ha hhash hunused (Observation.After.stable t s s' hs h hr)
  | aside ha h => exact .aside ha (Observation.After.stable t s s' hs h hr)

/-! ### Every transaction -/

theorem isSome_findByHash {ρ : Type} {hash : ρ → String} {tokenHash : String}
    {t : Table Uuid ρ} {id : Uuid} {row : ρ} (hrow : t.lookup id = some row)
    (hhash : hash row = tokenHash) : (AuthRepository.findByHash hash tokenHash t).isSome := by
  rw [AuthRepository.findByHash, Option.isSome_map, List.find?_isSome]
  exact ⟨⟨id, row⟩, AList.mem_lookup_iff.mp hrow, decide_eq_true hhash⟩

/-- The token of the link is in its table. -/
def foundLink (i : ℕ) (link : LinkKind × String) : (linkView i).Knowledge :=
  .lasting (Found link) fun _ _ hev h => h.ages hev.1

/-- The token that a read has found is in its table. -/
def readLink (i : ℕ) (link : LinkKind × String) (token : Option (Uuid × OneTimeToken)) :
    (linkView i).Knowledge :=
  .lasting (fun s => ∃ x row, token = some x ∧ (link.1.table s).lookup x.1 = some row ∧
    row.tokenHash = link.2) fun _ _ hev ⟨x, row, hx, hrow, hhash⟩ =>
      let ⟨row', hrow', hage⟩ := hev.1 _ _ row hrow
      ⟨x, row', hx, hrow', hage.tokenHash.trans hhash⟩

/-- A statement that marks the token of a link in its table finds it unused. -/
theorem triple_markUsed (hR : MarksUnused R) (link : LinkKind × String) (now : Millis) :
    (linkView i).Triple R (linkTables.After (foundLink i link) []) (link.1.markUsed link.2 now)
      fun _ t s => ∃ id row, row.tokenHash = link.2 ∧ row.usedAt = none ∧
        linkTables.After (lockedLink i link.1 id row)
          [link.1.update id { row with usedAt := some now }] t s := by
  refine Observation.triple_query (A := readLink i link) ?_ fun token => ?_
  · rintro held s v - ⟨id, row, hrow, hhash⟩ hsee
    rw [table_eq_of_see hsee]
    obtain ⟨x, hx⟩ := Option.isSome_iff_exists.mp (isSome_findByHash hrow hhash)
    obtain ⟨hfound, hhash'⟩ := findByHash_eq_some hx
    exact ⟨x, x.2, hx, hfound, hhash'⟩
  cases token with
  | none =>
    rintro t s hs h
    -- the token was found before
    obtain ⟨x, -, hx, -⟩ := h.knows
    cases hx
  | some x =>
    refine Observation.triple_makes
      (E := fun row : OneTimeToken => link.1.update x.1 { row with usedAt := some now })
      (P := fun row => row.tokenHash = link.2 ∧ row.usedAt = none)
      (A := fun row => lockedLink i link.1 x.1 row) ?_ fun row hrow => ?_
    · intro t s e hs h he hok
      obtain ⟨row, hrow, rfl⟩ := Statement.updateRow_eq_ok.mp he
      -- by the condition the marked row is unused
      have hunused := hR s t _ _ _ hok
      rw [hrow] at hunused
      rw [table_eq_of_see h.see_view] at hrow
      obtain ⟨y, row', hy, hrow', hhash⟩ := h.knows
      obtain rfl := Option.some.inj hy
      obtain rfl := Option.some.inj (hrow'.symm.trans hrow)
      refine ⟨row', rfl, linkTables_touches _ _ _, ⟨hhash, by simpa using hunused⟩, ?_, hrow⟩
      simp
    · exact fun t s hs h s' hr => ⟨x.1, row, hrow.1, hrow.2,
        Observation.After.stable t s s' hs h hr⟩

/-- The transaction that marks a link. -/
theorem triple_mark (hR : MarksUnused R) (hpresents : Presents crypto requests i link)
    (now : Millis) {pt a : AuthPoint} (ha : a.marked = true) :
    (linkView i).Triple R (linkTables.After (foundLink i link) [])
      (link.1.markUsed link.2 now >>= fun _ => return a) (LinkWork crypto requests i pt) := by
  refine (triple_markUsed hR link now).bind fun _ => ?_
  refine Triple.of_exists fun id => Triple.of_exists fun row => Triple.of_and fun hhash =>
    Triple.of_and fun hunused => ?_
  intro t s hs h s' hr
  exact LinkWork.stable _ _ t s s' hs (.marked hpresents ha hhash hunused h) hr

/-- A transaction that leaves both tables alone. -/
theorem triple_goesOn {K : (linkView i).Knowledge} {pt : AuthPoint} {p : Sql AuthPoint}
    (hp : p.Emits fun e => linkTables.touches e = false)
    (hreturns : p.Returns fun a => ∀ held s, K.holds held s → LinkKnown crypto requests i a s ∧
      (a.marked = true → pt.marked = true ∨ ∀ link, ¬ Presents crypto requests i link)) :
    (linkView i).Triple R (linkTables.After K []) p (LinkWork crypto requests i pt) := by
  refine ((Observation.triple_emits hp).returns hreturns).post fun a t s h => ?_
  obtain ⟨ha, h⟩ := h
  obtain ⟨hknown, hmarked⟩ := ha t.held s h.knows
  exact .aside hmarked (h.mono fun _ => hknown)

theorem revoke_emits (w : Revocation) (now : Millis) :
    (AuthRepository.revoke w now).Emits fun e => linkTables.touches e = false := by
  refine (ReadsOnly.query _).emits.bind fun found => ?_
  intro s e he
  obtain rfl := Except.ok.inj he
  exact ⟨rfl, trivial⟩

theorem updateUser_emits (id : Uuid) (change : User → User) :
    (AuthRepository.updateUser id change).Emits fun e => linkTables.touches e = false := by
  refine emits_perform fun s e he => ?_
  obtain ⟨u, -, rfl⟩ := Statement.updateUser_eq_ok.mp he
  rfl

theorem rotate_emits (r : RefreshRequest) (stored : RefreshToken) (userId : Uuid) :
    (rotate crypto r stored userId).Emits fun e => linkTables.touches e = false := by
  refine (ReadsOnly.query _).emits.bind fun found => ?_
  refine (ReadsOnly.orRaise _ _).emits.bind fun old => ?_
  refine (emits_perform fun s e he => ?_).bind fun _ => emits_perform fun s e he => ?_
  · obtain ⟨row, -, rfl⟩ := Statement.updateRefreshToken_eq_ok.mp he
    rfl
  · obtain ⟨-, rfl⟩ := Statement.insertRefreshToken_eq_ok he
    rfl

theorem refresh_emits (r : RefreshRequest) :
    (refresh crypto r).Emits fun e => linkTables.touches e = false := by
  refine (ReadsOnly.query _).emits.bind fun presented =>
    (ReadsOnly.orRaise _ _).emits.bind fun x => (ReadsOnly.require _ _).emits.bind fun _ => ?_
  obtain ⟨⟨_, stored⟩, email⟩ := x
  split_ifs
  · refine Emits.bind ?_ fun _ => trivial
    rw [endReplayedSession_eq]
    exact revoke_emits _ _
  · refine (ReadsOnly.query _).emits.bind fun scope => ?_
    refine (tokenUser_readsOnly _ _ _).emits.bind fun user => ?_
    exact (rotate_emits r stored user.1).bind fun _ => trivial

/-- The first transaction of a request leaves both tables alone. -/
theorem begin_emits (q : AuthRequest) :
    (begin crypto q).Emits fun e => linkTables.touches e = false := by
  cases q with
  | refresh r => exact (refresh_emits r).bind fun _ => trivial
  | changePassword userId sessionId currentPassword newPassword newPasswordHash now =>
    refine (findActiveUser_readsOnly userId).emits.bind fun user => ?_
    refine (ReadsOnly.require _ _).emits.bind fun _ => ?_
    refine (ReadsOnly.require _ _).emits.bind fun _ => ?_
    exact (updateUser_emits _ _).bind fun _ => trivial
  | revokeSession userId tenantId sessionId now =>
    refine Emits.bind ?_ fun _ => trivial
    exact (revoke_emits _ _).bind fun n => (ReadsOnly.require _ _).emits.bind fun _ => trivial
  | logoutAll userId now =>
    refine Emits.bind (p := logoutAll userId now) ?_ fun _ => trivial
    exact (revoke_emits _ _).bind fun _ => trivial
  | resetPassword token passwordHash now =>
    refine (ReadsOnly.query _).emits.bind fun found => ?_
    refine (ReadsOnly.orRaise _ _).emits.bind fun x => ?_
    refine (ReadsOnly.require _ _).emits.bind fun _ => ?_
    refine (ReadsOnly.require _ _).emits.bind fun _ => ?_
    exact (updateUser_emits _ _).bind fun _ => trivial
  | verifyEmail token now =>
    refine (ReadsOnly.query _).emits.bind fun found => ?_
    refine (ReadsOnly.orRaise _ _).emits.bind fun x => ?_
    refine (ReadsOnly.require _ _).emits.bind fun _ => ?_
    refine (ReadsOnly.require _ _).emits.bind fun _ => ?_
    exact (updateUser_emits _ _).bind fun _ => trivial

/-- A request without a link goes on to a point where it has nothing to know. -/
theorem begin_returns {q : AuthRequest} (hlink : q.link crypto = none) :
    (begin crypto q).Returns fun a => (∀ r, a ≠ .request r) ∧ a.marks = none := by
  have hdone (result : Except Failure AuthResponse) :
      (∀ r, AuthPoint.done result ≠ .request r) ∧ (AuthPoint.done result).marks = none :=
    ⟨fun _ h => (nomatch h), rfl⟩
  cases q with
  | refresh r => exact Returns.bind_any fun result => hdone result
  | changePassword userId sessionId currentPassword newPassword newPasswordHash now =>
    refine Returns.bind_any fun user => Returns.bind_any fun _ => Returns.bind_any fun _ => ?_
    exact Returns.bind_any fun _ => ⟨fun _ h => (nomatch h), rfl⟩
  | revokeSession userId tenantId sessionId now => exact Returns.bind_any fun _ => hdone _
  | logoutAll userId now => exact Returns.bind_any fun _ => hdone _
  | resetPassword token passwordHash now => cases hlink
  | verifyEmail token now => cases hlink

/-- The first transaction of a request that presents a link: it has read the token, and goes
on to mark it. -/
theorem triple_present {pt a : AuthPoint} (hpresents : Presents crypto requests i link)
    (ha : a.marks = some link) (id : Uuid) (change : User → User) :
    (linkView i).Triple R (linkTables.After (foundLink i link) [])
      (AuthRepository.updateUser id change >>= fun _ => return a)
      (LinkWork crypto requests i pt) := by
  refine triple_goesOn ((updateUser_emits id change).bind fun _ => trivial) ?_
  refine Returns.bind_any fun _ held s hfound => ⟨⟨?_, ?_, ?_⟩, ?_⟩
  · rintro q rfl
    cases ha
  · intro link' hmarks
    obtain rfl := Option.some.inj (ha.symm.trans hmarks)
    exact ⟨hpresents, hfound⟩
  all_goals cases a <;> simp_all [AuthPoint.marks, AuthPoint.marked]

/-- The token of the link is in its table if a read has found it. -/
def presentedLink (i : ℕ) (link : LinkKind × String) (token : Option (Uuid × OneTimeToken)) :
    (linkView i).Knowledge :=
  .lasting (fun s => token.isSome → Found link s) fun _ _ hev h hsome => (h hsome).ages hev.1

/-- The read of a token that is found. -/
theorem triple_readLink {K : (linkView i).Knowledge} {β : Type} (link : LinkKind × String)
    {f : Option (Uuid × OneTimeToken) → Sql β} {Q : β → Transaction accounts → Db → Prop}
    {e : Failure} {g : Uuid × OneTimeToken → Sql β}
    (hf : ∀ token, f token = Program.orRaise token e >>= g)
    (hg : ∀ x, (linkView i).Triple R (linkTables.After (foundLink i link) []) (g x) Q) :
    (linkView i).Triple R (linkTables.After K [])
      (query (fun s => AuthRepository.findByHash (·.tokenHash) link.2 (link.1.table s)) >>= f)
      Q := by
  refine Observation.triple_query (A := fun token => presentedLink i link token) ?_ fun token => ?_
  · intro held s v _ _ hsee hsome
    obtain ⟨x, hx⟩ := Option.isSome_iff_exists.mp hsome
    obtain ⟨hrow, hhash⟩ := findByHash_eq_some hx
    rw [table_eq_of_see hsee] at hrow
    exact ⟨x.1, x.2, hrow, hhash⟩
  · rw [hf]
    refine Triple.orRaise_bind ?_
    rintro x rfl
    exact Triple.pre (hg x) fun t s _ h => h.mono fun hfound => hfound rfl

/-- A transaction past the marking, or of a request that has no link to mark. -/
theorem triple_afterwards {pt : AuthPoint} (hpt : pt.marked = true) {p : Sql ℕ}
    (answer : ℕ → AuthPoint) (hp : p.Emits fun e => linkTables.touches e = false)
    (hanswer : ∀ n, (answer n).marked = true) :
    (linkView i).Triple R (linkTables.After (goesOn crypto requests i pt) [])
      (p >>= fun n => return answer n) (LinkWork crypto requests i pt) := by
  refine triple_goesOn (hp.bind fun _ => trivial) (Returns.bind_any fun n held s hknown => ?_)
  exact ⟨.of_used (hanswer n) fun link => hknown.used link hpt, fun _ => .inl hpt⟩

/-- **Every transaction.** -/
theorem triple_link (hR : MarksUnused R) {pt : AuthPoint} {p : Sql AuthPoint}
    (hp : code crypto pt = some p) {s : Db} (hs : (linkView i).inv s)
    (ha : LinkKnown crypto requests i pt s) :
    (linkView i).wp R (LinkWork crypto requests i pt) p {} s := by
  have hstart : linkTables.After (.none : (linkView i).Knowledge) [] {} s := .start trivial
  cases pt with
  | request q =>
    obtain rfl := Option.some.inj hp
    have hq := ha.request q rfl
    cases hlink : q.link crypto with
    | none =>
      -- a request without a link has no link to use up
      have hnot (link : LinkKind × String) : ¬ Presents crypto requests i link := by
        rintro ⟨q', hq', hlink'⟩
        obtain rfl := Option.some.inj (hq.symm.trans hq')
        rw [hlink] at hlink'
        cases hlink'
      refine triple_goesOn (begin_emits q) ?_ {} s hs hstart
      refine (begin_returns hlink).mono fun a hnext held s _ => ?_
      exact ⟨.none hnext.1 hnext.2 hnot, fun _ => .inr hnot⟩
    | some link =>
      have hpresents : Presents crypto requests i link := ⟨q, hq, hlink⟩
      cases q with
      | resetPassword token passwordHash now =>
        cases hlink
        refine triple_readLink (.passwordReset, crypto.hashToken token) (fun _ => rfl)
          (fun x => ?_) {} s hs hstart
        refine Triple.require_bind fun _ => Triple.require_bind fun _ => ?_
        exact triple_present hpresents rfl x.2.userId _
      | verifyEmail token now =>
        cases hlink
        refine triple_readLink (.emailVerification, crypto.hashToken token) (fun _ => rfl)
          (fun x => ?_) {} s hs hstart
        refine Triple.require_bind fun _ => Triple.require_bind fun _ => ?_
        exact triple_present hpresents rfl x.2.userId _
      | _ => cases hlink
  | revokeOtherSessions userId sessionId now =>
    obtain rfl := Option.some.inj hp
    exact triple_afterwards (by rfl) (fun n => .done (.ok (.otherSessionsRevoked n)))
      (revoke_emits _ now) (fun _ => rfl) {} s hs (.start ha)
  | markPasswordResetTokenUsed tokenHash userId now =>
    obtain rfl := Option.some.inj hp
    obtain ⟨hpresents, hfound⟩ := ha.marks (.passwordReset, tokenHash) rfl
    exact triple_mark hR hpresents now rfl {} s hs (.start hfound)
  | revokeAllUserRefreshTokens userId now =>
    obtain rfl := Option.some.inj hp
    exact triple_afterwards (by rfl)
      (fun _ => .done (.ok (.message "Password has been reset successfully")))
      (revoke_emits _ now) (fun _ => rfl) {} s hs (.start ha)
  | markEmailVerificationTokenUsed tokenHash now =>
    obtain rfl := Option.some.inj hp
    obtain ⟨hpresents, hfound⟩ := ha.marks (.emailVerification, tokenHash) rfl
    exact triple_mark hR hpresents now rfl {} s hs (.start hfound)
  | done result => cases hp

/-! ### What all of it keeps -/

theorem lookup_update (kind kind' : LinkKind) (id id' : Uuid) (row : OneTimeToken) (s : Db) :
    (kind'.table (s.apply (kind.update id row))).lookup id' =
      if kind' = kind ∧ id' = id then some row else (kind'.table s).lookup id' := by
  rw [LinkKind.table_update]
  by_cases hkind : kind' = kind
  · subst hkind
    by_cases hid : id' = id
    · subst hid
      simp
    · simp [hid]
  · simp [hkind]

/-- Marking a token. -/
theorem linksAge_update {kind : LinkKind} {id : Uuid} {row : OneTimeToken} (now : Millis)
    (hrow : (kind.table s).lookup id = some row) :
    LinksAge s (s.apply (kind.update id { row with usedAt := some now })) := by
  intro kind' id' row' hrow'
  rw [lookup_update]
  split_ifs with h
  · obtain ⟨rfl, rfl⟩ := h
    obtain rfl := Option.some.inj (hrow.symm.trans hrow')
    exact ⟨_, rfl, rfl, fun _ => rfl⟩
  · exact ⟨row', hrow', rfl, fun hused => hused⟩

theorem LinksDiffer.update {kind : LinkKind} {id : Uuid} {row : OneTimeToken} {now : Millis}
    (h : LinksDiffer s) (hrow : (kind.table s).lookup id = some row) :
    LinksDiffer (s.apply (kind.update id { row with usedAt := some now })) := by
  have hold {kind' : LinkKind} {id' : Uuid} {row' : OneTimeToken}
      (h' : (kind'.table (s.apply (kind.update id { row with usedAt := some now }))).lookup id' =
        some row') :
      ∃ row₀, (kind'.table s).lookup id' = some row₀ ∧ row₀.tokenHash = row'.tokenHash := by
    rw [lookup_update] at h'
    split_ifs at h' with heq
    · obtain ⟨rfl, rfl⟩ := heq
      cases h'
      exact ⟨row, hrow, rfl⟩
    · exact ⟨row', h', rfl⟩
  intro kind' id₁ id₂ row₁ row₂ hrow₁ hrow₂ hhash
  obtain ⟨r₁, hr₁, hhash₁⟩ := hold hrow₁
  obtain ⟨r₂, hr₂, hhash₂⟩ := hold hrow₂
  exact h hr₁ hr₂ (by rw [hhash₁, hhash, hhash₂])

theorem LinksDiffer.congr (h : LinksDiffer s) (hsee : linkTables.see s' = linkTables.see s) :
    LinksDiffer s' := by
  intro kind id id' row row'
  rw [table_eq_of_see hsee kind]
  exact fun hrow hrow' hhash => h hrow hrow' hhash

theorem LinksAge.congr (h : LinksAge s s') (hsee : linkTables.see s'' = linkTables.see s') :
    LinksAge s s'' := by
  intro kind
  rw [table_eq_of_see hsee kind]
  exact h kind

variable {t : Transaction accounts} {pt a : AuthPoint}

theorem LinkWork.publishes (hs : linkContract.inv s) (h : LinkWork crypto requests i pt a t s) :
    linkContract.Publishes (.none Db) R (LinkKnown crypto requests i)
      (LinkWork crypto requests i pt) i a t s := by
  have hwork := h
  cases h with
  | @marked link id row now _ _ hpresents ha hhash hunused h =>
    obtain ⟨hheld, hrow⟩ := h.knows
    have hsee : linkTables.see (t.view s) =
        linkTables.see (s.apply (link.1.update id { row with usedAt := some now })) := h.see_view
    refine ⟨⟨(hs.update hrow).congr hsee, (linksAge_update now hrow).congr hsee, ?_⟩,
      fun _ _ => trivial, ?_, hwork⟩
    · rintro k hk - kind' id' rfl
      rw [table_eq_of_see hsee, lookup_update, if_neg]
      rintro ⟨rfl, rfl⟩
      exact hk hheld
    · refine .of_used ha fun link' hpresents' => ?_
      obtain rfl := hpresents.link_eq hpresents'
      have hused : Used link (s.apply (link.1.update id { row with usedAt := some now })) := by
        refine ⟨id, { row with usedAt := some now }, ?_, hhash, rfl⟩
        rw [lookup_update, if_pos ⟨rfl, rfl⟩]
      exact hused.ages ((LinksAge.refl _).congr hsee)
  | aside ha h =>
    have hsee : linkTables.see (t.view s) = linkTables.see s := h.see_view
    refine ⟨⟨hs.congr hsee, (LinksAge.refl s).congr hsee, ?_⟩, fun _ _ => trivial, ?_, hwork⟩
    · rintro k hk - kind' id' rfl
      rw [table_eq_of_see hsee]
    · exact h.knows.ages ((LinksAge.refl s).congr hsee)

/-! ### Runs -/

variable {x x' : Service accounts AuthPoint}

/-- The point that a session has come to, or whose transaction it has started. -/
def pointIn (started : Option AuthPoint) : Option (Session accounts AuthPoint) → Option AuthPoint
  | some (.committed pt _) => some pt
  | some (.running _ _) => started
  | _ => none

/-- The point of the session `i`. -/
def pointOf (x : Service accounts AuthPoint) (i : ℕ) : Option AuthPoint :=
  pointIn x.points[i]? x.sessions[i]?

/-- The request `i` presents the link and has marked it. -/
def HasMarked (crypto : Crypto) (requests : List AuthRequest) (x : Service accounts AuthPoint)
    (i : ℕ) (link : LinkKind × String) : Prop :=
  Presents crypto requests i link ∧ ∃ pt, pointOf x i = some pt ∧ pt.marked = true

/-- The links marked so far have been used, and no two requests have marked one. -/
structure MarkedOnce (crypto : Crypto) (requests : List AuthRequest)
    (x : Service accounts AuthPoint) : Prop where
  used : ∀ i link, HasMarked crypto requests x i link → Used link x.committed
  once : ∀ i j link, HasMarked crypto requests x i link → HasMarked crypto requests x j link → i = j

/-- A step at which nobody marks a link. -/
theorem MarkedOnce.of_points (h : MarkedOnce crypto requests x)
    (hage : LinksAge x.committed x'.committed)
    (hpoints : ∀ j link, HasMarked crypto requests x' j link →
      HasMarked crypto requests x j link) : MarkedOnce crypto requests x' where
  used j link hj := (h.used j link (hpoints j link hj)).ages hage
  once i j link hi hj := h.once i j link (hpoints i link hi) (hpoints j link hj)

theorem pointOf_commit_ne {j : ℕ} (hne : j ≠ i) (a : AuthPoint) (t : Transaction accounts) :
    pointOf (x.commit i a t) j = pointOf x j := by
  have hj : (x.commit i a t).sessions[j]? = x.sessions[j]? := List.getElem?_set_ne (Ne.symm hne)
  exact congrArg (pointIn x.points[j]?) hj

theorem pointOf_commit_self (hi : x.sessions[i]? = some (.running (.ret a) t)) :
    pointOf (x.commit i a t) i = some a := by
  have hset : (x.commit i a t).sessions[i]? = some (.committed a t) :=
    List.getElem?_set_self (List.getElem?_eq_some_iff.mp hi).1
  exact congrArg (pointIn x.points[i]?) hset

/-- A request that comes past the marking of its link has been there before, or its link has
not been used. -/
theorem LinkWork.first (hs : linkContract.inv s) (h : LinkWork crypto requests i pt a t s)
    (ha : a.marked = true) (hpresents : Presents crypto requests i link) :
    pt.marked = true ∨ ¬ Used link s := by
  cases h with
  | @marked link' id row now _ _ hpresents' _ hhash hunused h =>
    obtain rfl := hpresents.link_eq hpresents'
    refine .inr ?_
    rintro ⟨id', row', hrow', hhash', hused⟩
    obtain ⟨-, hrow⟩ := h.knows
    obtain rfl := hs hrow hrow' (hhash.trans hhash'.symm)
    obtain rfl := Option.some.inj (hrow.symm.trans hrow')
    rw [hunused] at hused
    cases hused
  | aside hmarked h =>
    rcases hmarked ha with hpt | hnone
    · exact .inl hpt
    · exact absurd hpresents (hnone link)

/-- One commit. -/
theorem MarkedOnce.commit (h : MarkedOnce crypto requests x) (hs : linkContract.inv x.committed)
    (hi : x.sessions[i]? = some (.running (.ret a) t)) (hpt : x.points[i]? = some pt)
    (hage : LinksAge x.committed (t.view x.committed))
    (hused : ∀ link, a.marked = true → Presents crypto requests i link →
      Used link (t.view x.committed))
    (hwork : LinkWork crypto requests i pt a t x.committed) :
    MarkedOnce crypto requests (x.commit i a t) := by
  have hcases {j : ℕ} {link : LinkKind × String}
      (hj : HasMarked crypto requests (x.commit i a t) j link) :
      (j = i ∧ a.marked = true) ∨ (j ≠ i ∧ HasMarked crypto requests x j link) := by
    obtain ⟨hpresents, pt', hpoint, hmarked⟩ := hj
    by_cases hji : j = i
    · subst hji
      rw [pointOf_commit_self hi] at hpoint
      exact .inl ⟨rfl, Option.some.inj hpoint ▸ hmarked⟩
    · rw [pointOf_commit_ne hji] at hpoint
      exact .inr ⟨hji, hpresents, pt', hpoint, hmarked⟩
  -- nobody else has marked the link that is being marked
  have hfirst {j : ℕ} {link : LinkKind × String} (ha : a.marked = true)
      (hpresents : Presents crypto requests i link) (hj : HasMarked crypto requests x j link) :
      i = j := by
    rcases hwork.first hs ha hpresents with hmarked | hunused
    · have hpoint : pointOf x i = some pt := (congrArg (pointIn x.points[i]?) hi).trans hpt
      exact h.once i j link ⟨hpresents, pt, hpoint, hmarked⟩ hj
    · exact absurd (h.used j link hj) hunused
  refine ⟨fun j link hj => ?_, fun j l link hj hl => ?_⟩
  · rcases hcases hj with ⟨rfl, ha⟩ | ⟨-, hold⟩
    · exact hused link ha hj.1
    · exact (h.used j link hold).ages hage
  · rcases hcases hj with ⟨rfl, ha⟩ | ⟨-, hold⟩
    · rcases hcases hl with ⟨rfl, -⟩ | ⟨-, hold'⟩
      · rfl
      · exact hfirst ha hj.1 hold'
    · rcases hcases hl with ⟨rfl, ha⟩ | ⟨-, hold'⟩
      · exact (hfirst ha hl.1 hold).symm
      · exact h.once j l link hold hold'

/-- The session `i` goes on without coming to a new point. -/
theorem MarkedOnce.set {y y' : Session accounts AuthPoint} {points : List AuthPoint}
    (h : MarkedOnce crypto requests x) (hi : x.sessions[i]? = some y)
    (hpoints : ∀ j, j ≠ i → points[j]? = x.points[j]?)
    (hpoint : ∀ pt, pointIn points[i]? (some y') = some pt →
      pointIn x.points[i]? (some y) = some pt) :
    MarkedOnce crypto requests ⟨x.config.setSession i y', points⟩ := by
  refine h.of_points (.refl _) fun j link hj => ?_
  obtain ⟨hpresents, pt, hpt, hmarked⟩ := hj
  refine ⟨hpresents, pt, ?_, hmarked⟩
  by_cases hji : j = i
  · subst hji
    have hset : (x.config.setSession j y').sessions[j]? = some y' :=
      List.getElem?_set_self (List.getElem?_eq_some_iff.mp hi).1
    have hpt' := hpoint pt ((congrArg (pointIn points[j]?) hset).symm.trans hpt)
    exact (congrArg (pointIn x.points[j]?) hi).trans hpt'
  · have hset : (x.config.setSession i y').sessions[j]? = x.sessions[j]? :=
      List.getElem?_set_ne (Ne.symm hji)
    have hpt' : pointIn points[j]? x.sessions[j]? = some pt :=
      (congrArg (pointIn points[j]?) hset).symm.trans hpt
    rwa [hpoints j hji] at hpt'

/-- A request that has not started has not marked its link. -/
theorem not_hasMarked_start (s₀ : Db) :
    ¬ HasMarked crypto requests (.start s₀ (requests.map .request)) i link := by
  rintro ⟨⟨q, hq, -⟩, pt, hpoint, hmarked⟩
  have hsession : (Service.start s₀ (requests.map AuthPoint.request) :
      Service accounts AuthPoint).sessions[i]? = some (.committed (.request q) {}) := by
    simp [hq]
  have hpt := (congrArg (pointIn _) hsession).symm.trans hpoint
  cases hpt
  cases hmarked

/-- **One-time links.** As long as every marking finds its token unused, no two requests
succeed with one link. -/
theorem links_redeemedOnce {s₀ : Db} (hdiffer : LinksDiffer s₀)
    (h : Serves (code crypto) marksUnused (.start s₀ (requests.map .request)) x) (i j : ℕ)
    (link : LinkKind × String) (hi : Redeems crypto requests x i link)
    (hj : Redeems crypto requests x j link) : i = j := by
  have hstart {i : ℕ} {pt : AuthPoint}
      (hpt : (requests.map AuthPoint.request)[i]? = some pt) :
      ∃ q, requests[i]? = some q ∧ pt = .request q := by
    rw [List.getElem?_map, Option.map_eq_some_iff] at hpt
    obtain ⟨q, hq, rfl⟩ := hpt
    exact ⟨q, hq, rfl⟩
  -- who redeems a link has marked it, and only one request has
  have honce : MarkedOnce crypto requests x := by
    refine serves_induction (L := linkContract) (W := .none Db) (A := LinkKnown crypto requests)
      (Q := LinkWork crypto requests) hdiffer (fun i pt s s' _ ha hr => ha.ages hr.evolves.1)
      (fun i pt p s hp hs ha => ?_) (fun i pt hpt => ?_) ?_ ?_ ?_ ?_ ?_ h
    · exact wp_mono (triple_link marksUnused_marks hp hs ha)
        fun _ _ _ hwork hinv _ => hwork.publishes hinv
    · obtain ⟨q, hq, rfl⟩ := hstart hpt
      refine ⟨?_, fun link hmarks => (nomatch hmarks), fun link hmarked => (nomatch hmarked)⟩
      rintro q' hq'
      cases hq'
      exact hq
    · exact ⟨fun i link hi => (not_hasMarked_start s₀ hi).elim,
        fun i j link hi _ => (not_hasMarked_start s₀ hi).elim⟩
    · intro x i pt a t hI hpt hi _ _ hinv hg hwork
      have hpub := hwork.publishes (R := marksUnused.toDiscipline) hinv
      exact hI.commit hinv hi hpt hg.evolves hpub.next.used hwork
    · intro x i p t hI hi
      exact hI.set hi (fun _ _ => rfl) fun pt hpoint => (nomatch hpoint)
    · intro x i p p' t t' hI hi
      exact hI.set hi (fun _ _ => rfl) fun pt hpoint => hpoint
    · intro x i pt p t hI hi _ _ _
      refine hI.set hi (fun j hji => List.getElem?_set_ne (Ne.symm hji)) fun pt' hpoint => ?_
      obtain ⟨hlt, heq⟩ := List.getElem?_eq_some_iff.mp hpoint
      rw [List.getElem_set_self] at heq
      exact congrArg some heq
  have hmarked {i : ℕ} (hi : Redeems crypto requests x i link) :
      HasMarked crypto requests x i link := by
    obtain ⟨hpresents, answer, t, hsession⟩ := hi
    exact ⟨hpresents, .done (.ok answer), congrArg (pointIn _) hsession, rfl⟩
  exact honce.once i j link (hmarked hi) (hmarked hj)

namespace Sample

/-- The token of a link that the clerk has been sent. -/
def resetToken : OneTimeToken where
  tenantId := "shop"
  userId := "clerk"
  tokenHash := "#link"
  expiresAt := 1000

/-- The clerk has been sent a link. -/
def mailed : Db := { office with passwordResetTokens := AList.insert "reset" resetToken ∅ }

/-- Two requests with it. -/
def resets : List AuthRequest :=
  [.resetPassword "link" "$first" 1, .resetPassword "link" "$second" 1]

theorem mailed_linksDiffer : LinksDiffer mailed := by
  intro kind id id' row row' h h' _
  cases kind with
  | passwordReset =>
    have hreset {id : Uuid} {row : OneTimeToken}
        (h : (LinkKind.passwordReset.table mailed).lookup id = some row) : id = "reset" := by
      by_contra hid
      rw [LinkKind.table, mailed, AList.lookup_insert_ne hid] at h
      cases h
    exact (hreset h).trans (hreset h').symm
  | emailVerification => cases h

/-- Whether a session has ended in success. -/
def succeeded (x : Service accounts AuthPoint) (i : ℕ) : Bool :=
  match x.sessions[i]? with
  | some (.committed (.done (.ok _)) _) => true
  | _ => false

/-- Whether a session has been rolled back with an error. -/
def refused (x : Service accounts AuthPoint) (i : ℕ) : Bool :=
  match x.sessions[i]? with
  | some (.aborted _) => true
  | _ => false

theorem redeems_of_succeeded {x : Service accounts AuthPoint} {i : ℕ}
    {link : LinkKind × String} {requests : List AuthRequest}
    (hpresents : Presents marks requests i link) (h : succeeded x i = true) :
    Redeems marks requests x i link := by
  unfold succeeded at h
  split at h
  · rename_i answer t hsession
    exact ⟨hpresents, answer, t, hsession⟩
  · cases h

theorem resets_present : Presents marks resets 0 (.passwordReset, "#link") ∧
    Presents marks resets 1 (.passwordReset, "#link") :=
  ⟨⟨_, rfl, rfl⟩, ⟨_, rfl, rfl⟩⟩

end Sample

open Sample in
/-- Two requests with one link are under way together. The second comes to the link when the
first has marked it, and is refused while the first goes on to its end. -/
theorem links_redeemedOnce_sample : ∃ x, Serves (code marks) marksUnused
    (.start mailed (resets.map .request)) x ∧ succeeded x 0 = true ∧
    refused x 1 = true ∧
    ∀ i j link, Redeems marks resets x i link → Redeems marks resets x j link → i = j := by
  have hrun : ((Service.start mailed (resets.map .request)).run (code marks) marksUnused
      (turns 1 0 ++ turns 0 3 ++ turns 0 3 ++ (turns 1 2).tail ++ turns 0 3)).map
      (fun x => (succeeded x 0, refused x 1)) = some (true, true) := by
    decide +kernel
  obtain ⟨x, hx, hstate⟩ := Option.map_eq_some_iff.mp hrun
  obtain ⟨hsucceeded, hrefused⟩ := Prod.mk.inj hstate
  have hreach := serves_of_run .refl hx
  exact ⟨x, hreach, hsucceeded, hrefused, links_redeemedOnce mailed_linksDiffer hreach⟩

open Sample in
/-- Both requests find the link unused before one of them has marked it: both set a password
and succeed. -/
theorem doubleReset_redeemsTwice : ∃ x,
    Serves (code marks) {} (.start mailed (resets.map .request)) x ∧
      Redeems marks resets x 0 (.passwordReset, "#link") ∧
      Redeems marks resets x 1 (.passwordReset, "#link") ∧
      (x.committed.users.lookup "clerk").map (·.passwordHash) = some "$second" := by
  have hrun : ((Service.start mailed (resets.map .request)).run (code marks) {}
      (turns 0 3 ++ turns 1 3 ++ turns 0 3 ++ turns 1 3 ++ turns 0 3 ++ turns 1 3)).map
      (fun x => (succeeded x 0, succeeded x 1,
        (x.committed.users.lookup "clerk").map (·.passwordHash))) =
      some (true, true, some "$second") := by
    decide +kernel
  obtain ⟨x, hx, hstate⟩ := Option.map_eq_some_iff.mp hrun
  obtain ⟨hfirst, hrest⟩ := Prod.mk.inj hstate
  obtain ⟨hsecond, hpassword⟩ := Prod.mk.inj hrest
  exact ⟨x, serves_of_run .refl hx, redeems_of_succeeded resets_present.1 hfirst,
    redeems_of_succeeded resets_present.2 hsecond, hpassword⟩

end PulseOps.Accounts
