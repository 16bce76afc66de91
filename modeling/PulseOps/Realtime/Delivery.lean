import PulseOps.Model.Realtime

/-!
# Who receives an event

A socket receives an event exactly when it is open at that moment and was opened with a token of
the user, or of the tenant, the event is for. The rooms that clients ask for make no difference.

## Main definitions

* `Admitted` — who may open a socket.
* `OpenFor` — a socket was opened for somebody and has not been closed.
* `AddressedTo` — the addressee of an event.

## Main results

* `socketAuth_eq_ok_iff` — whom a socket is opened for.
* `received_iff` — who receives an event, in any run.
-/

set_option autoImplicit false

namespace PulseOps.Realtime

variable {ν : Type} {verifyAccessToken : Accounts.Millis → String → Except TokenError Claims}
  {toLowerCase : String → String} {ctx : Context} {server : Server ν} {action : Action ν}
  {actions : List (Action ν)} {id : String} {tenantId userId : Option String} {room : String}

/-! ### Opening a socket -/

theorem truthy_eq_some_iff {v : Option String} {s : String} :
    truthy v = some s ↔ v = some s ∧ s ≠ "" := by
  simp [truthy, Option.filter_eq_some_iff]

/-- The user is one of the platform's. -/
def PlatformUser (userId : Uuid) (reads : Reads) : Prop :=
  Accounts.AuthRepository.hasPlatformRole userId reads.grant = true ∧
    ∃ user, reads.user.users.lookup userId = some user ∧ user.status = .active

/-- The user is a member of the tenant, and both are active. -/
def ActiveMember (userId tenantId : Uuid) (s : Accounts.Db) : Prop :=
  s.memberships.lookup (tenantId, userId) = some .active ∧
    (∃ user, s.users.lookup userId = some user ∧ user.status = .active) ∧
    ∃ tenant, s.tenants.lookup tenantId = some tenant ∧
      (tenant.status = .active ∨ tenant.status = .trial) ∧
      tenant.slug ≠ Accounts.platformTenantSlug

/-- The token of the handshake is a verified one, for the user and the tenant of `ctx`, its
session is active, and the user may act for the platform or for the tenant. -/
def Admitted (verifyAccessToken : Accounts.Millis → String → Except TokenError Claims)
    (h : Handshake) (reads : Reads) (ctx : Context) : Prop :=
  ∃ token decoded, extractToken h = some token ∧ token ≠ "" ∧
    verifyAccessToken reads.now token = .ok decoded ∧
    decoded.sub = some ctx.userId ∧ ctx.userId ≠ "" ∧
    decoded.tenantId = some ctx.tenantId ∧ ctx.tenantId ≠ "" ∧
    decoded.sessionId = some ctx.sessionId ∧ Support.isUuid ctx.sessionId = true ∧
    decoded.email = ctx.email ∧ (truthy decoded.scope).getD "tenant" = ctx.scope ∧
    Accounts.AuthRepository.isSessionActive ctx.sessionId ctx.userId reads.now
      reads.session = true ∧
    if ctx.scope = "platform" then PlatformUser ctx.userId reads
    else ActiveMember ctx.userId ctx.tenantId reads.grant

theorem checkPlatformUser_eq_ok_iff {userId : Uuid} {reads : Reads} :
    checkPlatformUser userId reads = .ok () ↔ PlatformUser userId reads := by
  unfold checkPlatformUser PlatformUser
  cases hrole : Accounts.AuthRepository.hasPlatformRole userId reads.grant with
  | false => simp
  | true =>
    cases huser : reads.user.users.lookup userId with
    | none => simp
    | some user => simp

theorem checkTenantUser_eq_ok_iff {userId tenantId : Uuid} {s : Accounts.Db} :
    checkTenantUser userId tenantId s = .ok () ↔ ActiveMember userId tenantId s := by
  unfold checkTenantUser ActiveMember Accounts.AuthRepository.findUserByIdAndTenant
    Accounts.AuthRepository.findUserById
  by_cases hmember : s.memberships.lookup (tenantId, userId) = some .active
  · rw [if_pos hmember]
    cases huser : s.users.lookup userId with
    | none => simp
    | some user =>
      cases htenant : s.tenants.lookup tenantId with
      | none =>
        simp only [Option.map_some]
        split_ifs <;> simp
      | some tenant =>
        simp only [Option.map_some]
        split_ifs with hactive hstatus hslug <;> simp_all
        tauto
  · simp [hmember]

theorem requiredClaims_eq_some_iff {decoded : Claims} {sub tenantId sessionId : Uuid} :
    requiredClaims decoded = some (sub, tenantId, sessionId) ↔
      (decoded.sub = some sub ∧ sub ≠ "") ∧ (decoded.tenantId = some tenantId ∧ tenantId ≠ "") ∧
      (decoded.sessionId = some sessionId ∧ sessionId ≠ "") ∧
        Support.isUuid sessionId = true := by
  simp only [requiredClaims, Option.bind_eq_bind, Option.bind_eq_some_iff, Option.pure_def,
    Option.some.injEq, Prod.mk.injEq, Option.filter_eq_some_iff, truthy_eq_some_iff]
  constructor
  · rintro ⟨_, hsub, _, htenant, _, hsession, rfl, rfl, rfl⟩
    exact ⟨hsub, htenant, hsession⟩
  · rintro ⟨hsub, htenant, hsession⟩
    exact ⟨sub, hsub, tenantId, htenant, sessionId, hsession, rfl, rfl, rfl⟩

/-- Which handshakes open a socket. -/
theorem socketAuth_eq_ok_iff {h : Handshake} {reads : Reads} :
    socketAuth verifyAccessToken h reads = .ok ctx ↔
      Admitted verifyAccessToken h reads ctx := by
  constructor
  · intro hctx
    unfold socketAuth at hctx
    split at hctx
    · cases hctx
    rename_i token htoken
    split at hctx
    · cases hctx
    · cases hctx
    · cases hctx
    rename_i decoded hdecoded
    dsimp only at hctx
    split at hctx
    · cases hctx
    rename_i sub tenantId sessionId hclaims
    obtain ⟨htoken, hempty⟩ := truthy_eq_some_iff.mp htoken
    obtain ⟨hsub, htenant, hsession, huuid⟩ := requiredClaims_eq_some_iff.mp hclaims
    split_ifs at hctx with hactive hscope
    · -- the token of a user of the platform
      split at hctx
      · cases hctx
      next hcheck =>
        obtain rfl := Except.ok.inj hctx
        exact ⟨token, decoded, htoken, hempty, hdecoded, hsub.1, hsub.2, htenant.1, htenant.2,
          hsession.1, huuid, rfl, rfl, hactive, by
            rw [if_pos hscope]
            exact checkPlatformUser_eq_ok_iff.mp hcheck⟩
    · -- any other token
      split at hctx
      · cases hctx
      next hcheck =>
        obtain rfl := Except.ok.inj hctx
        exact ⟨token, decoded, htoken, hempty, hdecoded, hsub.1, hsub.2, htenant.1, htenant.2,
          hsession.1, huuid, rfl, rfl, hactive, by
            rw [if_neg hscope]
            exact checkTenantUser_eq_ok_iff.mp hcheck⟩
  · rintro ⟨token, decoded, htoken, hempty, hdecoded, hsub, hsub', htenant, htenant', hsession,
      huuid, hemail, hscope, hactive, huser⟩
    have hsession' : ctx.sessionId ≠ "" := by
      intro heq
      rw [heq] at huuid
      exact absurd huuid (by decide +kernel)
    have hclaims := requiredClaims_eq_some_iff.mpr
      ⟨⟨hsub, hsub'⟩, ⟨htenant, htenant'⟩, ⟨hsession, hsession'⟩, huuid⟩
    unfold socketAuth
    rw [truthy_eq_some_iff.mpr ⟨htoken, hempty⟩]
    dsimp only
    rw [hdecoded]
    dsimp only
    rw [hclaims]
    dsimp only
    rw [if_pos hactive, hscope]
    split_ifs at huser ⊢
    · rw [checkPlatformUser_eq_ok_iff.mpr huser, hemail]
    · rw [checkTenantUser_eq_ok_iff.mpr huser, hemail]

/-- The socket was opened for `ctx` and has not been closed since. -/
def OpenFor (verifyAccessToken : Accounts.Millis → String → Except TokenError Claims)
    (actions : List (Action ν)) (id : String) (ctx : Context) : Prop :=
  ∃ before h reads after, actions = before ++ .connect id h reads :: after ∧
    Admitted verifyAccessToken h reads ctx ∧ ∀ action ∈ after, action ≠ .disconnect id

theorem openFor_nil : ¬ OpenFor verifyAccessToken ([] : List (Action ν)) id ctx := by
  rintro ⟨before, h, reads, after, heq, -⟩
  simp at heq

theorem openFor_concat : OpenFor verifyAccessToken (actions ++ [action]) id ctx ↔
    (∃ h reads, action = .connect id h reads ∧ Admitted verifyAccessToken h reads ctx) ∨
    (OpenFor verifyAccessToken actions id ctx ∧ action ≠ .disconnect id) := by
  constructor
  · rintro ⟨before, h, reads, after, heq, hauth, hafter⟩
    rcases List.eq_nil_or_concat after with rfl | ⟨after', last, rfl⟩
    · obtain ⟨-, hlast⟩ := List.append_inj' heq rfl
      exact .inl ⟨h, reads, by simpa using hlast, hauth⟩
    · rw [List.concat_eq_append, ← List.cons_append, ← List.append_assoc] at heq
      obtain ⟨hactions, hlast⟩ := List.append_inj' heq rfl
      obtain rfl : action = last := by simpa using hlast
      refine .inr ⟨⟨before, h, reads, after', hactions, hauth, fun a ha => ?_⟩, ?_⟩
      · exact hafter a (by simp [ha])
      · exact hafter action (by simp)
  · rintro (⟨h, reads, rfl, hauth⟩ | ⟨⟨before, h, reads, after, rfl, hauth, hafter⟩, hne⟩)
    · exact ⟨actions, h, reads, [], rfl, hauth, by simp⟩
    · refine ⟨before, h, reads, after ++ [action], by simp, hauth, fun a ha => ?_⟩
      rcases List.mem_append.mp ha with ha | ha
      · exact hafter a ha
      · rw [List.mem_singleton.mp ha]
        exact hne

/-! ### Open sockets -/

theorem run_concat : Server.run verifyAccessToken toLowerCase (actions ++ [action]) =
    (Server.run verifyAccessToken toLowerCase actions).step verifyAccessToken toLowerCase
      action := by
  simp [Server.run]

theorem sockets_emitRealtime {event timestamp : String} {payload : Payload ν} :
    (server.emitRealtime toLowerCase event payload tenantId userId timestamp).sockets =
      server.sockets := by
  unfold Server.emitRealtime
  split
  · rfl
  · split <;> rfl

/-- The open sockets after a step. -/
theorem mem_sockets_step {socket : Socket} :
    socket ∈ (server.step verifyAccessToken toLowerCase action).sockets ↔
      (∃ h reads, action = .connect socket.id h reads ∧
        Admitted verifyAccessToken h reads socket.context ∧
        socket.rooms = allowedRooms socket.context) ∨
      (socket ∈ server.sockets ∧ action ≠ .disconnect socket.id) := by
  simp only [← socketAuth_eq_ok_iff]
  cases action with
  | connect id h reads =>
    simp only [Server.step]
    split
    · -- the socket is refused
      rename_i code hcode
      constructor
      · exact fun hmem => .inr ⟨hmem, by simp⟩
      · rintro (⟨h', reads', heq, hauth, -⟩ | ⟨hmem, -⟩)
        · cases heq
          rw [hcode] at hauth
          cases hauth
        · exact hmem
    · -- the socket is let in, with the rooms of its context
      rename_i ctx hctx
      simp only [Server.connected, List.mem_append, List.mem_singleton]
      constructor
      · rintro (hmem | rfl)
        · exact .inr ⟨hmem, by simp⟩
        · exact .inl ⟨h, reads, rfl, hctx, rfl⟩
      · rintro (⟨h', reads', heq, hauth, hrooms⟩ | ⟨hmem, -⟩)
        · cases heq
          rw [hctx] at hauth
          cases hauth
          right
          cases socket
          simp_all
        · exact .inl hmem
  | join id payload => simp [Server.step, Server.answer]
  | subscribe id payload => simp [Server.step, Server.answer]
  | disconnect id =>
    simp only [Server.step, List.mem_filter, decide_eq_true_eq]
    constructor
    · rintro ⟨hmem, hne⟩
      exact .inr ⟨hmem, fun heq => hne (Action.disconnect.inj heq).symm⟩
    · rintro (⟨h, reads, heq, -⟩ | ⟨hmem, hne⟩)
      · cases heq
      · exact ⟨hmem, fun heq => hne (congrArg Action.disconnect heq.symm)⟩
  | emit event payload tenantId userId timestamp =>
    simp [Server.step, sockets_emitRealtime]

/-- The open sockets are those that were opened and not closed; each is in the rooms of the
tenant and of the user it was opened for. -/
theorem mem_sockets_run {socket : Socket} :
    socket ∈ (Server.run verifyAccessToken toLowerCase actions).sockets ↔
      OpenFor verifyAccessToken actions socket.id socket.context ∧
        socket.rooms = allowedRooms socket.context := by
  induction actions using List.reverseRecOn with
  | nil => simp [Server.run, openFor_nil]
  | append_singleton actions action ih =>
    rw [run_concat, mem_sockets_step, ih, openFor_concat]
    constructor
    · rintro (⟨h, reads, haction, hauth, hrooms⟩ | ⟨⟨hopen, hrooms⟩, hne⟩)
      · exact ⟨.inl ⟨h, reads, haction, hauth⟩, hrooms⟩
      · exact ⟨.inr ⟨hopen, hne⟩, hrooms⟩
    · rintro ⟨⟨h, reads, haction, hauth⟩ | ⟨hopen, hne⟩, hrooms⟩
      · exact .inl ⟨h, reads, haction, hauth, hrooms⟩
      · exact .inr ⟨⟨hopen, hrooms⟩, hne⟩

/-! ### Rooms -/

/-- An event with a user is for the user, and one without is for everybody of the tenant. -/
def AddressedTo (tenantId userId : Option String) (ctx : Context) : Prop :=
  match truthy userId, truthy tenantId with
  | some userId, _ => ctx.userId = userId
  | none, some tenantId => ctx.tenantId = tenantId
  | none, none => False

theorem tenantRoom_inj {a b : Uuid} : tenantRoom a = tenantRoom b ↔ a = b := by
  simp [tenantRoom]

theorem userRoom_inj {a b : Uuid} : userRoom a = userRoom b ↔ a = b := by
  simp [userRoom]

theorem tenantRoom_ne_userRoom {a b : Uuid} : tenantRoom a ≠ userRoom b := by
  intro h
  have hlist := congrArg String.toList h
  simp [tenantRoom, userRoom] at hlist

/-- Who is in the room an event is sent to. -/
theorem targetRoom_mem_allowedRooms :
    (∃ room, targetRoom tenantId userId = some room ∧ room ∈ allowedRooms ctx) ↔
      AddressedTo tenantId userId ctx := by
  unfold targetRoom AddressedTo
  cases truthy userId with
  | some user =>
    simp [allowedRooms, userRoom_inj, tenantRoom_ne_userRoom.symm, eq_comm]
  | none =>
    cases truthy tenantId with
    | some tenant => simp [allowedRooms, tenantRoom_inj, tenantRoom_ne_userRoom, eq_comm]
    | none => simp

/-! ### Events -/

/-- What `emitRealtime` sends, and to which sockets. -/
theorem mem_sent_emitRealtime {envelope : Envelope ν} {event timestamp : String}
    {payload : Payload ν} :
    (id, .event envelope) ∈
        (server.emitRealtime toLowerCase event payload tenantId userId timestamp).sent ↔
      (id, .event envelope) ∈ server.sent ∨
      (event ∈ allowedEvents ∧
        envelope = ⟨event, sanitizePayload toLowerCase payload, truthy tenantId, timestamp⟩ ∧
        ∃ room, targetRoom tenantId userId = some room ∧
          ∃ socket ∈ server.sockets, socket.id = id ∧ room ∈ socket.rooms) := by
  unfold Server.emitRealtime
  by_cases hevent : event ∈ allowedEvents
  · rw [if_neg (not_not_intro hevent)]
    cases htarget : targetRoom tenantId userId with
    | none => simp
    | some room =>
      simp only [Server.sendTo, List.mem_append, List.mem_map, List.mem_filter,
        decide_eq_true_eq, Prod.mk.injEq, Message.event.injEq, Option.some.injEq,
        exists_eq_left', hevent, true_and]
      constructor
      · rintro (hold | ⟨socket, ⟨hsocket, hroom⟩, hid, henvelope⟩)
        · exact .inl hold
        · exact .inr ⟨henvelope.symm, socket, hsocket, hid, hroom⟩
      · rintro (hold | ⟨henvelope, socket, hsocket, hid, hroom⟩)
        · exact .inl hold
        · exact .inr ⟨socket, ⟨hsocket, hroom⟩, hid, henvelope.symm⟩
  · simp [hevent]

/-- The event messages after a step. -/
theorem mem_sent_step {envelope : Envelope ν} :
    (id, .event envelope) ∈ (server.step verifyAccessToken toLowerCase action).sent ↔
      (id, .event envelope) ∈ server.sent ∨
      ∃ event payload tenantId userId timestamp,
        action = .emit event payload tenantId userId timestamp ∧ event ∈ allowedEvents ∧
        envelope = ⟨event, sanitizePayload toLowerCase payload, truthy tenantId, timestamp⟩ ∧
        ∃ room, targetRoom tenantId userId = some room ∧
          ∃ socket ∈ server.sockets, socket.id = id ∧ room ∈ socket.rooms := by
  cases action with
  | connect id' h reads =>
    simp only [Server.step]
    split <;> simp [Server.connected]
  | join id' payload =>
    simp only [Server.step, Server.answer, List.mem_append, List.mem_map]
    simp [answerRoom]
    grind
  | subscribe id' payload =>
    simp only [Server.step, Server.answer, List.mem_append, List.mem_map]
    simp [answerRoom]
    grind
  | disconnect id' => simp [Server.step]
  | emit event payload tenantId userId timestamp =>
    rw [Server.step, mem_sent_emitRealtime]
    constructor
    · rintro (hold | ⟨hevent, henvelope, hroom⟩)
      · exact .inl hold
      · exact .inr ⟨event, payload, tenantId, userId, timestamp, rfl, hevent, henvelope, hroom⟩
    · rintro (hold | ⟨event', payload', tenantId', userId', timestamp', heq, hsent⟩)
      · exact .inl hold
      · cases heq
        exact .inr hsent

/-- A socket was open for the addressee when the event was emitted. -/
theorem addressed_iff :
    (∃ room, targetRoom tenantId userId = some room ∧
      ∃ socket ∈ (Server.run verifyAccessToken toLowerCase actions).sockets,
        socket.id = id ∧ room ∈ socket.rooms) ↔
      ∃ ctx, OpenFor verifyAccessToken actions id ctx ∧ AddressedTo tenantId userId ctx := by
  constructor
  · rintro ⟨room, htarget, socket, hsocket, rfl, hroom⟩
    obtain ⟨hopen, hrooms⟩ := mem_sockets_run.mp hsocket
    rw [hrooms] at hroom
    exact ⟨socket.context, hopen, targetRoom_mem_allowedRooms.mp ⟨room, htarget, hroom⟩⟩
  · rintro ⟨ctx, hopen, haddressed⟩
    obtain ⟨room, htarget, hroom⟩ := targetRoom_mem_allowedRooms.mpr haddressed
    exact ⟨room, htarget, ⟨id, ctx, allowedRooms ctx⟩, mem_sockets_run.mpr ⟨hopen, rfl⟩, rfl, hroom⟩

/-- An event goes out over the sockets that are open, at that moment, for the user it is for, or
for anybody of the tenant if it is for no user. -/
theorem received_iff (verifyAccessToken : Accounts.Millis → String → Except TokenError Claims)
    (toLowerCase : String → String) (actions : List (Action ν)) (id : String)
    (envelope : Envelope ν) :
    (id, .event envelope) ∈ (Server.run verifyAccessToken toLowerCase actions).sent ↔
      ∃ before event payload tenantId userId timestamp after ctx,
        actions = before ++ .emit event payload tenantId userId timestamp :: after ∧
        event ∈ allowedEvents ∧
        envelope = ⟨event, sanitizePayload toLowerCase payload, truthy tenantId, timestamp⟩ ∧
        OpenFor verifyAccessToken before id ctx ∧ AddressedTo tenantId userId ctx := by
  induction actions using List.reverseRecOn with
  | nil => simp [Server.run]
  | append_singleton actions action ih =>
    rw [run_concat, mem_sent_step, ih]
    constructor
    · rintro (⟨before, event, payload, tenantId, userId, timestamp, after, ctx, rfl, hsent⟩ |
        ⟨event, payload, tenantId, userId, timestamp, rfl, hevent, henvelope, hroom⟩)
      · exact ⟨before, event, payload, tenantId, userId, timestamp, after ++ [action], ctx,
          by simp, hsent⟩
      · obtain ⟨ctx, hopen, haddressed⟩ := addressed_iff.mp hroom
        exact ⟨actions, event, payload, tenantId, userId, timestamp, [], ctx, rfl, hevent,
          henvelope, hopen, haddressed⟩
    · rintro ⟨before, event, payload, tenantId, userId, timestamp, after, ctx, heq, hevent,
        henvelope, hopen, haddressed⟩
      rcases List.eq_nil_or_concat after with rfl | ⟨after', last, rfl⟩
      · -- the last step sends the event
        obtain ⟨rfl, hlast⟩ := List.append_inj' heq rfl
        obtain rfl := List.head_eq_of_cons_eq hlast
        exact .inr ⟨event, payload, tenantId, userId, timestamp, rfl, hevent, henvelope,
          addressed_iff.mpr ⟨ctx, hopen, haddressed⟩⟩
      · -- an earlier one does
        rw [List.concat_eq_append, ← List.cons_append, ← List.append_assoc] at heq
        obtain ⟨hactions, -⟩ := List.append_inj' heq rfl
        exact .inl ⟨before, event, payload, tenantId, userId, timestamp, after', ctx, hactions,
          hevent, henvelope, hopen, haddressed⟩

end PulseOps.Realtime
