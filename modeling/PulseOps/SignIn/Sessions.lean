import PulseOps.SignIn.Rotation

/-!
# Where sessions come from

A session is a chain of refresh tokens: `login` writes the first of them, and every rotation the
next. Whatever the requests do in between, each token goes back to one that was there at the
start, or to a login with the password of its user.

`login` only reads until it has made its checks, so all that it sees has been committed.

## Main definitions

* `Admitted` — what `login` has seen of a user.
* `Vouched` — the origin of a token.

## Main results

* `upholds_login` — nobody is let in without the password.
* `tokens_vouched` — every run.
-/

set_option autoImplicit false

open ReadCommitted Program

namespace PulseOps.Accounts

open AuthService

variable {crypto : Crypto} {s₀ s : Db} {H : List Db} {points : List SignInPoint}
  {row row' : RefreshToken} {userId tenantId id : Uuid} {r : LoginRequest}

/-! ### Origins -/

/-- The user with the email address of a login, who is active and whose password it is. -/
structure PasswordChecked (crypto : Crypto) (r : LoginRequest) (userId : Uuid) (s : Db) : Prop where
  exists_user : ∃ user, s.users.lookup userId = some user ∧ user.email = r.email ∧
    user.status = .active ∧ crypto.verifyPassword user.passwordHash r.password = true

/-- What `login` has seen, at moments of `H`, when it lets a user in. -/
inductive Admitted (crypto : Crypto) (H : List Db) (r : LoginRequest) (userId tenantId : Uuid) :
    Prop
  | tenant (hscope : r.scope ≠ some .platform) {s : Db} (hs : s ∈ H)
      (hchecked : PasswordChecked crypto r userId s)
      (hmember : s.memberships.lookup (tenantId, userId) = some .active)
      (hopen : hasActiveTenant tenantId s = true)
  | platform (hscope : r.scope = some .platform) {s s' s'' : Db} (hs : s ∈ H) (hs' : s' ∈ H)
      (hs'' : s'' ∈ H) (hchecked : PasswordChecked crypto r userId s)
      (hrole : userId ∈ s'.platformUserRoles)
      (hopen : (s''.tenants.lookup tenantId).all isOpen = true)

/-- A token goes back to one that was there at the start, or to a login. Only tokens of before
there were sessions do not say which session they belong to. -/
inductive Vouched (crypto : Crypto) (s₀ : Db) (H : List Db) (points : List SignInPoint)
    (row : RefreshToken) : Prop
  | stored {id : Uuid} {row₀ : RefreshToken} (hrow₀ : s₀.refreshTokens.lookup id = some row₀)
      (huser : row.userId = row₀.userId) (htenant : row.tenantId = row₀.tenantId)
      (hsession : row₀.sessionId = none ∨ row.sessionId = row₀.sessionId)
  | login {r : LoginRequest} (hr : .login r ∈ points)
      (hadmitted : Admitted crypto H r row.userId row.tenantId)
      (hsession : row.sessionId = some r.sessionId)

theorem Vouched.congr (h : Vouched crypto s₀ H points row) (huser : row'.userId = row.userId)
    (htenant : row'.tenantId = row.tenantId)
    (hsession : row.sessionId = none ∨ row'.sessionId = row.sessionId) :
    Vouched crypto s₀ H points row' := by
  cases h with
  | @stored id row₀ hrow₀ huser₀ htenant₀ hsession₀ =>
    refine .stored hrow₀ (huser.trans huser₀) (htenant.trans htenant₀) ?_
    -- a token of before there were sessions gets one when it is rotated
    rcases hsession₀ with hnone | heq
    · exact .inl hnone
    · rcases hsession with hnone | hsame
      · exact .inl (heq ▸ hnone)
      · exact .inr (hsame.trans heq)
  | @login r hr hadmitted hsession₀ =>
    refine .login hr (by rwa [huser, htenant]) ?_
    rcases hsession with hnone | hsame
    · rw [hnone] at hsession₀
      cases hsession₀
    · exact hsame.trans hsession₀

/-- The start of a request. -/
def SignInPoint.starts : SignInPoint → Bool
  | .auth (.request _) => true
  | .login _ => true
  | .logout _ _ => true
  | _ => false

/-! ### What all requests keep -/

/-- A token with its origin, and with a user that is there. -/
def Known (crypto : Crypto) (s₀ : Db) (H : List Db) (points : List SignInPoint)
    (row : RefreshToken) : Prop :=
  Vouched crypto s₀ H points row ∧ (emails s₀ row.userId).isSome

/-- The origins of the tokens, and the email addresses of the users. -/
structure Accounted (crypto : Crypto) (s₀ : Db) (H : List Db) (points : List SignInPoint)
    (s : Db) : Prop where
  tokens : ∀ id row, s.refreshTokens.lookup id = some row → Known crypto s₀ H points row
  emails : emails s = Accounts.emails s₀

/-- An edit that keeps them. -/
def Accountable (crypto : Crypto) (s₀ : Db) (H : List Db) (points : List SignInPoint) :
    Edit → Prop
  | .refreshTokenInsert _ row => Known crypto s₀ H points row
  | .refreshTokenUpdate _ row => Known crypto s₀ H points row
  | .userUpdate id row => emails s₀ id = some row.email
  | .userDelete _ => False
  | _ => True

theorem Known.congr (h : Known crypto s₀ H points row) (huser : row'.userId = row.userId)
    (htenant : row'.tenantId = row.tenantId)
    (hsession : row.sessionId = none ∨ row'.sessionId = row.sessionId) :
    Known crypto s₀ H points row' :=
  ⟨h.1.congr huser htenant hsession, huser ▸ h.2⟩

theorem Accounted.apply {e : Edit} (hs : Accounted crypto s₀ H points s)
    (he : Accountable crypto s₀ H points e) : Accounted crypto s₀ H points (s.apply e) := by
  -- a token that is written
  have hinsert {id : Uuid} {row : RefreshToken} (hrow : Known crypto s₀ H points row) :
      ∀ id' row', (s.refreshTokens.insert id row).lookup id' = some row' →
        Known crypto s₀ H points row' := by
    intro id' row' hrow'
    by_cases hid : id' = id
    · subst hid
      rw [AList.lookup_insert] at hrow'
      exact Option.some.inj hrow' ▸ hrow
    · rw [AList.lookup_insert_ne hid] at hrow'
      exact hs.tokens id' row' hrow'
  cases e with
  | refreshTokenInsert id row => exact ⟨hinsert he, hs.emails⟩
  | refreshTokenUpdate id row => exact ⟨hinsert he, hs.emails⟩
  | refreshTokensRevoke w ids revokedAt =>
    refine ⟨fun id row hrow => ?_, hs.emails⟩
    change (revokeAll s.refreshTokens revokedAt ids).lookup id = some row at hrow
    rw [lookup_revokeAll] at hrow
    split_ifs at hrow
    · obtain ⟨old, hold, rfl⟩ := Option.map_eq_some_iff.mp hrow
      exact (hs.tokens id old hold).congr rfl rfl (.inr rfl)
    · exact hs.tokens id row hrow
  | userUpdate id row =>
    refine ⟨hs.tokens, ?_⟩
    funext id'
    by_cases hid : id' = id
    · subst hid
      rw [show Accounts.emails s₀ id' = some row.email from he]
      simp [Accounts.emails]
    · rw [← hs.emails]
      simp [Accounts.emails, AList.lookup_insert_ne hid]
  | userDelete id => exact False.elim he
  | _ => exact ⟨hs.tokens, hs.emails⟩

/-- An edit of other tables. -/
theorem accountable_of_untouched {e : Edit} (he : tokenTables.touches e = false) :
    Accountable crypto s₀ H points e := by
  cases e <;> simp_all [tokenTables, Accountable]

/-! ### Rotation and revocation -/

section Requests

variable {A : Type} {Q : A → Prop}

/-- Revoking keeps the origins. -/
theorem upholds_revoke {w : Revocation} {now : Millis} :
    (AuthRepository.revoke w now).Upholds (Accounted crypto s₀ H points)
      (Accountable crypto s₀ H points) fun _ => True := by
  refine upholds_query_bind fun s _ => Upholds.bind (A := fun _ => True) ?_ fun _ _ => trivial
  intro s e _ he
  obtain rfl := Except.ok.inj he
  exact ⟨trivial, trivial⟩

/-- A change of a user that keeps the email address. -/
theorem upholds_updateUser_bind {change : User → User} (hemail : ∀ u, (change u).email = u.email)
    {f : Unit → Sql A} (h : (f ()).Upholds (Accounted crypto s₀ H points)
      (Accountable crypto s₀ H points) Q) :
    (AuthRepository.updateUser id change >>= f).Upholds (Accounted crypto s₀ H points)
      (Accountable crypto s₀ H points) Q := by
  refine upholds_perform_bind (fun s e hs he => ?_) h
  obtain ⟨user, huser, rfl⟩ := Statement.updateUser_eq_ok.mp he
  rw [Accountable, ← hs.emails, emails, huser, Option.map_some, hemail]

theorem isSome_emails_of_insertRefreshToken {e : Edit}
    (he : Statement.insertRefreshToken id row s = .ok e) : (emails s row.userId).isSome := by
  unfold Statement.insertRefreshToken at he
  split_ifs at he with _ hreferences
  rw [emails, Option.isSome_map]
  exact hreferences.1

/-- A change of a token that keeps its session. -/
theorem accountable_updateRefreshToken {now : Millis} {e : Edit}
    (hs : Accounted crypto s₀ H points s)
    (he : Statement.updateRefreshToken id (fun row => { row with revokedAt := some now }) s =
      .ok e) : Accountable crypto s₀ H points e := by
  obtain ⟨row, hrow, rfl⟩ := Statement.updateRefreshToken_eq_ok.mp he
  exact (hs.tokens id row hrow).congr rfl rfl (.inr rfl)

/-- A rotation stays in its session. -/
theorem upholds_rotate {req : RefreshRequest} (hrow : Known crypto s₀ H points row) :
    (rotate crypto req row row.userId).Upholds (Accounted crypto s₀ H points)
      (Accountable crypto s₀ H points) fun _ => True := by
  refine upholds_query_bind fun s _ => upholds_orRaise_bind fun old _ => ?_
  refine upholds_perform_bind (fun s e hs he => accountable_updateRefreshToken hs he) ?_
  intro s e _ he
  obtain ⟨-, rfl⟩ := Statement.insertRefreshToken_eq_ok he
  refine ⟨hrow.congr rfl rfl ?_, trivial⟩
  cases hsession : row.sessionId with
  | none => exact .inl rfl
  -- only a token without a session gets the one that was drawn
  | some sessionId =>
    right
    rw [rotatedToken, hsession]
    rfl

theorem upholds_logout {refreshToken : Option String} {now : Millis} :
    (logout crypto refreshToken now).Upholds (Accounted crypto s₀ H points)
      (Accountable crypto s₀ H points) fun _ => True := by
  unfold logout
  cases truthy refreshToken with
  | none => trivial
  | some token =>
    refine upholds_query_bind fun s _ => ?_
    cases AuthRepository.findRefreshTokenByHash (crypto.hashToken token) s with
    | none => trivial
    | some found =>
      exact upholds_perform_bind (fun s e hs he => accountable_updateRefreshToken hs he) trivial

/-! From here on no two users have one email address. -/

variable (hunique : ∀ id id' email, emails s₀ id = some email →
  emails s₀ id' = some email → id = id')

include hunique

/-- The user behind a token is the one it was made for. -/
theorem upholds_tokenUser {email : Option String} {scope : Scope}
    (hrow : Known crypto s₀ H points row) (hemail : email = emails s₀ row.userId) :
    (tokenUser row email scope).Upholds (Accounted crypto s₀ H points)
      (Accountable crypto s₀ H points) fun user => user.1 = row.userId := by
  cases scope with
  | tenant =>
    refine upholds_query_bind fun s _ => upholds_orRaise_bind fun user huser => ?_
    refine upholds_require_bind fun _ => upholds_require_bind fun _ => ?_
    simp only [AuthRepository.findUserByIdAndTenant] at huser
    split_ifs at huser
    obtain ⟨_, _, rfl⟩ := Option.map_eq_some_iff.mp huser
    rfl
  | platform =>
    refine upholds_query_bind fun s hs => upholds_query_bind fun s' _ => ?_
    refine upholds_orRaise_bind fun user huser => upholds_require_bind fun _ => ?_
    refine upholds_query_bind fun s'' _ => upholds_require_bind fun _ => ?_
    rw [Option.orElse_eq_orElse, Option.orElse_eq_or, Option.or_eq_some_iff] at huser
    rcases huser with hfound | ⟨-, hfound⟩
    · -- two users with one email address are the same
      obtain ⟨huser, hsame⟩ := findByHash_eq_some hfound
      obtain ⟨address, haddress⟩ := Option.isSome_iff_exists.mp hrow.2
      refine hunique _ _ address ?_ haddress
      rw [← hs.emails, emails, huser, Option.map_some, hsame, hemail, haddress]
      rfl
    · obtain ⟨_, _, rfl⟩ := Option.map_eq_some_iff.mp hfound
      rfl

theorem upholds_refresh {req : RefreshRequest} :
    (refresh crypto req).Upholds (Accounted crypto s₀ H points)
      (Accountable crypto s₀ H points) fun _ => True := by
  refine upholds_query_bind fun s hs => upholds_orRaise_bind fun x hx => ?_
  obtain ⟨found, hfound, rfl⟩ := Option.map_eq_some_iff.mp hx
  have hrow := hs.tokens _ _ (findByHash_eq_some hfound).1
  -- the email address has been read with the token
  have hemail : (s.users.lookup found.2.userId).map (·.email) = emails s₀ found.2.userId := by
    rw [← hs.emails, emails]
  refine upholds_require_bind fun _ => ?_
  split_ifs
  · -- a token that was rotated before
    refine Upholds.bind (A := fun _ => True) ?_ fun _ _ => trivial
    unfold endReplayedSession
    split <;> exact upholds_revoke
  · refine upholds_query_bind fun s' _ => ?_
    refine (upholds_tokenUser hunique hrow hemail).bind fun user huser => ?_
    rw [huser]
    exact (upholds_rotate hrow).bind fun _ _ => trivial

/-- The requests that were there before, one transaction after the other. -/
theorem upholds_code {pt : AuthPoint} {p : Sql AuthPoint} (hp : code crypto pt = some p) :
    p.Upholds (Accounted crypto s₀ H points) (Accountable crypto s₀ H points) fun _ => True := by
  cases pt with
  | request req =>
    obtain rfl := Option.some.inj hp
    cases req with
    | refresh req => exact (upholds_refresh hunique).bind fun _ _ => trivial
    -- the changes of a user keep the email address; the rest revokes tokens, or writes other tables
    | changePassword userId sessionId currentPassword newPassword newPasswordHash now =>
      refine Upholds.bind (A := fun _ => True) ?_ fun user _ => ?_
      · exact .of_emits (findActiveUser_readsOnly _).emits (returns_true _)
      refine upholds_require_bind fun _ => upholds_require_bind fun _ => ?_
      refine upholds_updateUser_bind ?_ ?_
      · exact fun _ => rfl
      · trivial
    | revokeSession userId tenantId sessionId now =>
      refine Upholds.bind (A := fun _ => True) ?_ fun _ _ => trivial
      exact upholds_revoke.bind fun _ _ => upholds_require_bind fun _ => trivial
    | logoutAll userId now =>
      refine Upholds.bind (A := fun _ => True) ?_ fun _ _ => trivial
      exact upholds_revoke.bind fun _ _ => trivial
    | resetPassword token passwordHash now =>
      refine upholds_query_bind fun s _ => upholds_orRaise_bind fun x _ => ?_
      refine upholds_require_bind fun _ => upholds_require_bind fun _ => ?_
      refine upholds_updateUser_bind ?_ ?_
      · exact fun _ => rfl
      · trivial
    | verifyEmail token now =>
      refine upholds_query_bind fun s _ => upholds_orRaise_bind fun x _ => ?_
      refine upholds_require_bind fun _ => upholds_require_bind fun _ => ?_
      refine upholds_updateUser_bind ?_ ?_
      · exact fun _ => rfl
      · trivial
  | revokeOtherSessions userId sessionId now =>
    obtain rfl := Option.some.inj hp
    exact upholds_revoke.bind fun _ _ => trivial
  | markPasswordResetTokenUsed tokenHash userId now =>
    obtain rfl := Option.some.inj hp
    refine Upholds.bind (A := fun _ => True) ?_ fun _ _ => trivial
    exact .of_emits ((markPasswordResetTokenUsed_emits tokenHash now).mono
      fun _ => accountable_of_untouched) (returns_true _)
  | revokeAllUserRefreshTokens userId now =>
    obtain rfl := Option.some.inj hp
    exact upholds_revoke.bind fun _ _ => trivial
  | markEmailVerificationTokenUsed tokenHash now =>
    obtain rfl := Option.some.inj hp
    refine Upholds.bind (A := fun _ => True) ?_ fun _ _ => trivial
    exact .of_emits ((markEmailVerificationTokenUsed_emits tokenHash now).mono
      fun _ => accountable_of_untouched) (returns_true _)
  | done result => cases hp

end Requests

/-! ### Signing in and out -/

/-- What is known of a request to sign in or out. -/
def Cleared (crypto : Crypto) (H : List Db) (points : List SignInPoint) : SignInPoint → Prop
  | .login r => .login r ∈ points
  | .updateLastLogin r user tenantId _ => .login r ∈ points ∧ Admitted crypto H r user.1 tenantId
  | .generateRefreshToken r user tenantId _ =>
    .login r ∈ points ∧ Admitted crypto H r user.1 tenantId
  | _ => True

section Login

variable {Inv : Db → Prop}

theorem platformTenantId_readsOnly (user : User) (memberships : List Membership) :
    (platformTenantId user memberships).ReadsOnly := by
  unfold platformTenantId
  split
  · exact .ret _
  · exact (ReadsOnly.query _).bind fun _ => .ret _

theorem upholds_platformLogin (hr : .login r ∈ points) (hscope : r.scope = some .platform) :
    (platformLogin crypto r).Upholds (fun s => Inv s ∧ s ∈ H) (fun _ => False)
      (Cleared crypto H points) := by
  refine upholds_query_bind fun s hs => upholds_orRaise_bind fun found hfound => ?_
  obtain ⟨user, huser, rfl⟩ := Option.map_eq_some_iff.mp hfound
  obtain ⟨hrow, hemail⟩ := findByHash_eq_some huser
  refine upholds_require_bind fun hactive => upholds_require_bind fun hpassword => ?_
  refine upholds_query_bind fun s' hs' => upholds_require_bind fun hrole => ?_
  refine Upholds.bind (.of_emits (platformTenantId_readsOnly _ _).emits (returns_true _))
    fun tenantId _ => ?_
  refine upholds_query_bind fun s'' hs'' => upholds_require_bind fun hopen => ?_
  have hchecked : PasswordChecked crypto r user.1 s := ⟨user.2, hrow, hemail, hactive, hpassword⟩
  refine ⟨hr, .platform hscope hs.2 hs'.2 hs''.2 hchecked ?_ hopen⟩
  simpa [AuthRepository.hasPlatformRole] using hrole

theorem namedTenant_readsOnly (r : LoginRequest) : (namedTenant r).ReadsOnly := by
  unfold namedTenant
  split
  · exact (ReadsOnly.query _).bind fun _ => (ReadsOnly.orRaise _ _).bind fun _ =>
      (ReadsOnly.require _ _).bind fun _ => .ret _
  · exact .ret _

theorem resolvedTenant_readsOnly (r : LoginRequest) (named : Option (Uuid × Option Tenant)) :
    (resolvedTenant crypto r named).ReadsOnly := by
  cases named with
  | some tenant => exact .ret _
  | none =>
    refine (ReadsOnly.query _).bind fun _ => (ReadsOnly.orRaise _ _).bind fun found => ?_
    dsimp only
    split
    · exact (ReadsOnly.require _ _).bind fun _ => (ReadsOnly.query _).bind fun _ =>
        (ReadsOnly.require _ _).bind fun _ => .raise _
    · exact .ret _
    · exact .raise _

theorem tenantRow_readsOnly (tenantId : Uuid) (known : Option Tenant) :
    (tenantRow tenantId known).ReadsOnly := by
  cases known with
  | some tenant => exact .ret _
  | none => exact (ReadsOnly.query _).bind fun _ => .orRaise _ _

theorem upholds_tenantLogin (hr : .login r ∈ points) (hscope : r.scope ≠ some .platform) :
    (tenantLogin crypto r).Upholds (fun s => Inv s ∧ s ∈ H) (fun _ => False)
      (Cleared crypto H points) := by
  refine Upholds.bind (.of_emits (namedTenant_readsOnly r).emits (returns_true _)) fun named _ => ?_
  refine Upholds.bind (.of_emits (resolvedTenant_readsOnly r named).emits (returns_true _))
    fun tenant _ => ?_
  refine upholds_query_bind fun s hs => upholds_orRaise_bind fun user huser => ?_
  refine Upholds.bind (.of_emits (tenantRow_readsOnly _ _).emits (returns_true _)) fun _ _ => ?_
  refine upholds_require_bind fun _ => upholds_require_bind fun hopen => ?_
  refine upholds_require_bind fun hactive => upholds_require_bind fun hpassword => ?_
  -- the membership has been read with the user
  obtain ⟨found, hfound, rfl⟩ := Option.map_eq_some_iff.mp huser
  have hrow := AList.mem_lookup_iff.mpr (List.mem_of_find?_eq_some hfound)
  have hmatch := List.find?_some hfound
  rw [decide_eq_true_eq] at hmatch
  exact ⟨hr, .tenant hscope hs.2 ⟨found.2, hrow, hmatch.1, hactive, hpassword⟩ hmatch.2 hopen⟩

/-- **Nobody is let in without the password.** -/
theorem upholds_login (hr : .login r ∈ points) :
    (login crypto r).Upholds (fun s => Inv s ∧ s ∈ H) (fun _ => False)
      (Cleared crypto H points) := by
  unfold login
  cases hscope : r.scope with
  | none => exact upholds_tenantLogin hr (by simp [hscope])
  | some scope =>
    cases scope with
    | tenant => exact upholds_tenantLogin hr (by simp [hscope])
    | platform => exact upholds_platformLogin hr hscope

end Login

/-- All the requests. -/
theorem upholds_signInCode (hunique : ∀ id id' email, emails s₀ id = some email →
      emails s₀ id' = some email → id = id') {pt : SignInPoint} {p : Sql SignInPoint}
    (hpt : Cleared crypto H points pt) (hp : signInCode crypto pt = some p) :
    p.Upholds (Accounted crypto s₀ H points) (Accountable crypto s₀ H points)
        (Cleared crypto H points) ∨
      p.Upholds (fun s => Accounted crypto s₀ H points s ∧ s ∈ H) (fun _ => False)
        (Cleared crypto H points) := by
  cases pt with
  | auth pt =>
    obtain ⟨q, hq, rfl⟩ := Option.map_eq_some_iff.mp hp
    exact .inl ((upholds_code hunique hq).bind fun _ _ => trivial)
  | login r =>
    obtain rfl := Option.some.inj hp
    exact .inr (upholds_login hpt)
  | logout refreshToken now =>
    obtain rfl := Option.some.inj hp
    exact .inl (upholds_logout.bind fun _ _ => trivial)
  | updateLastLogin r user tenantId scope =>
    obtain rfl := Option.some.inj hp
    exact .inl (upholds_updateUser_bind (fun _ => rfl) hpt)
  | generateRefreshToken r user tenantId scope =>
    obtain rfl := Option.some.inj hp
    refine .inl (upholds_perform_bind (fun s e hs he => ?_) trivial)
    obtain ⟨-, rfl⟩ := Statement.insertRefreshToken_eq_ok he
    refine ⟨.login hpt.1 hpt.2 rfl, ?_⟩
    rw [← hs.emails]
    exact isSome_emails_of_insertRefreshToken he
  | signedIn result => cases hp
  | loggedOut => cases hp

/-- **Every session starts with the password of its user.** -/
theorem tokens_vouched {R : Policy accounts SignInPoint} {x : Service accounts SignInPoint}
    (hunique : ∀ id id' email, emails s₀ id = some email → emails s₀ id' = some email → id = id')
    (husers : ∀ id row, s₀.refreshTokens.lookup id = some row →
      (s₀.users.lookup row.userId).isSome)
    (hstarts : ∀ pt ∈ points, pt.starts = true)
    (h : Serves (signInCode crypto) R (.start s₀ points) x) :
    ∀ s ∈ x.history s₀, ∀ id row, s.refreshTokens.lookup id = some row →
      Vouched crypto s₀ (x.history s₀) points row := by
  intro s hs id row hrow
  have hall : ∀ s ∈ x.history s₀, Accounted crypto s₀ (x.history s₀) points s := by
    refine serves_upholds (fun s e hs he => hs.apply he) ?_ ?_
      (fun pt p hpt hp => upholds_signInCode hunique hpt hp) h
    · refine ⟨fun id row hrow => ⟨.stored hrow rfl rfl (.inr rfl), ?_⟩, rfl⟩
      rw [emails, Option.isSome_map]
      exact husers id row hrow
    · intro pt hpt
      cases pt with
      | login r => exact hpt
      | updateLastLogin => exact absurd (hstarts _ hpt) (by simp [SignInPoint.starts])
      | generateRefreshToken => exact absurd (hstarts _ hpt) (by simp [SignInPoint.starts])
      | _ => trivial
  exact ((hall s hs).tokens id row hrow).1

namespace Sample

/-- The clerk signs in, and refreshes the new session. -/
def signIns : List SignInPoint :=
  [.login
      { email := "clerk@shop"
        password := "secret"
        tenantSlug := some "shop"
        now := 1
        tokenId := "row1"
        sessionId := "s1"
        refreshToken := "new1" },
    .auth (.request (.refresh
      { refreshToken := "new1"
        now := 2
        newSessionId := "s2"
        newTokenId := "row2"
        newToken := "new2" }))]

theorem office_emails (id id' : Uuid) (email : String) (h : emails office id = some email)
    (h' : emails office id' = some email) : id = id' := by
  have hclerk {id : Uuid} (h : emails office id = some email) : id = "clerk" := by
    by_contra hid
    rw [emails, office, AList.lookup_insert_ne hid] at h
    cases h
  exact (hclerk h).trans (hclerk h').symm

end Sample

open Sample in
/-- The token of the refresh goes back to the login. -/
theorem tokens_vouched_signIns : ∃ x, Serves (signInCode marks) {} (.start office signIns) x ∧
    (x.committed.refreshTokens.lookup "row2").map (·.sessionId) = some (some "s1") ∧
    ∀ s ∈ x.history office, ∀ id row, s.refreshTokens.lookup id = some row →
      Vouched marks office (x.history office) signIns row := by
  have hrun : ((Service.start office signIns).run (signInCode marks) {}
      (turns 0 3 ++ turns 0 2 ++ turns 0 2 ++ turns 1 7)).map
      (fun x => (x.committed.refreshTokens.lookup "row2").map (·.sessionId)) =
      some (some (some "s1")) := by
    decide +kernel
  obtain ⟨x, hx, hsession⟩ := Option.map_eq_some_iff.mp hrun
  have hreach := serves_of_run .refl hx
  refine ⟨x, hreach, hsession, tokens_vouched office_emails ?_ ?_ hreach⟩
  · intro id row hrow
    obtain ⟨-, rfl⟩ := lookup_office hrow
    rfl
  · decide

end PulseOps.Accounts
