import PetaCore.Spec.AuthMiddleware

/-!
# The permissions of live sessions

A change of a user's permissions writes the row and then tells the sessions. In between, and in
any order, sessions are made from rows read earlier and sessions are refreshed from rows read
earlier. The permissions of every live session are the stored ones, or else the change that has
stored them has still to tell the sessions (`current`), as long as no step hands a session older
permissions when nothing will correct them (`inOrder`).

Key results:
- `PermissionsOk.step`: every step that is in order keeps the invariant
- `sessions_have_stored_permissions`: at rest, live sessions have the stored permissions
- `session_has_stale_permissions`: they need not when two changes overtake each other
-/

namespace PetaCore

open Run

def StoredSession.isAuthenticated (session : StoredSession) : Bool :=
  decide (session.authKind = .authenticated)

/-- The session that a request in `authenticate` holds. -/
def AuthPhase.session? : AuthPhase → Option StoredSession
  | .validateSession session | .sessionValidated session _ | .refresh session _
  | .refreshed session _ _ | .confirmExpiry session | .expiryConfirmed session _
  | .creating _ session | .created session => some session
  | .removing _ | .oauth _ _ | .traditional _ | .validated _ _ | .anonymousServers => none

namespace AuthState

variable {session : StoredSession} {s s' : AuthState} {a : AuthAction} {context : SessionContext}

variable {env : AuthEnv}

/-- The user's stored permissions are these, or the change that has stored them has still to tell
    the sessions. -/
def current (env : AuthEnv) (s : AuthState) (userId : String) (permissions : Permissions) : Bool :=
  match s.users.get? userId with
  | none => true
  | some row =>
    env.parsePermissions row.permissions == some permissions ||
      s.updates.any fun _ update => update == (userId, row.permissions, .updated)

/-- The session object is the one of a live session. -/
def isLive (s : AuthState) (number : Nat) : Bool :=
  s.sessions.store.sessions.values.any (·.number == number)

/-- Condition on a step: a session is made, refreshed or told with the stored permissions, or with
    others while the change that has stored them has still to tell the sessions; and a user's set
    of session ids is not deleted with a live session in it. -/
def inOrder (env : AuthEnv) (s : AuthState) : AuthAction → Bool
  | .createCompletes r =>
    match s.requests.get? r with
    | some ⟨_, .creating operation _, _⟩ =>
      match s.sessions.operations.get? operation with
      | some (.createSession _ session) =>
        !session.isAuthenticated || (s.contexts session.number).all fun context =>
          s.current env session.userId context.authContext.permissions
      | _ => true
    | _ => true
  | .continues r _ =>
    match s.requests.get? r with
    | some ⟨_, .refreshed session _ user, _⟩ =>
      (user.bind (·.authContext env session.userId)).all fun context =>
        !s.isLive session.number ||
          s.current env session.userId context.authContext.permissions
    | _ => true
  | .updatePushes u =>
    match s.updates.get? u with
    | some (targetId, permissions, _) =>
      (s.sessions.store.getUserSessions targetId).isEmpty ||
        (env.parsePermissions permissions).all fun parsed =>
          current env { s with updates := s.updates.erase u } targetId parsed
    | none => true
  | .store a => s.sessions.keepsListed StoredSession.isAuthenticated a
  | _ => true

/-- The object of the session is there, with the context of its user. -/
def Owned (s : AuthState) (session : StoredSession) : Prop :=
  session.number < s.sessions.operations.next ∧
    ∃ context, s.contexts session.number = some context ∧
      context.authContext.userId = session.userId

structure PermissionsOk (env : AuthEnv) (s : AuthState) : Prop where
  listed : s.sessions.LiveListed StoredSession.isAuthenticated
  owners : s.sessions.OwnersOk
  live : ∀ id session, s.sessions.store.sessions.get? id = some session → s.Owned session
  creating : ∀ i id session,
    s.sessions.operations.get? i = some (.createSession id session) → s.Owned session
  requests : ∀ r pending session, s.requests.get? r = some pending →
    pending.phase.session? = some session → s.Owned session
  current : ∀ id session context, s.sessions.store.sessions.get? id = some session →
    session.isAuthenticated = true → s.contexts session.number = some context →
    s.current env session.userId context.authContext.permissions = true

/-! ## The objects of the sessions -/

/-- The objects of `s` are there in `s'`, with contexts of the same users. -/
structure Keeps (s s' : AuthState) : Prop where
  next : s.sessions.operations.next ≤ s'.sessions.operations.next
  contexts : ∀ n context, n < s.sessions.operations.next → s.contexts n = some context →
    ∃ context', s'.contexts n = some context' ∧
      context'.authContext.userId = context.authContext.userId

theorem Owned.keeps (h : s.Owned session) (hkeeps : s.Keeps s') : s'.Owned session := by
  obtain ⟨hlt, context, hcontext, huser⟩ := h
  obtain ⟨context', hcontext', huser'⟩ := hkeeps.contexts _ context hlt hcontext
  exact ⟨Nat.lt_of_lt_of_le hlt hkeeps.next, context', hcontext', huser'.trans huser⟩

theorem Acts.next_le (h : Acts env s a s') :
    s.sessions.operations.next ≤ s'.sessions.operations.next := by
  rcases h.store_steps with hstore | ⟨_, _, hsteps⟩
  · exact Nat.le_of_eq (by rw [hstore])
  · exact SessionState.next_steps hsteps

@[simp] theorem contexts_advance (s : AuthState) (r : Nat) (pending : PendingRequest)
    (flow : Flow) : (s.advance r pending flow).contexts = s.contexts := by
  cases flow <;> rfl

@[simp] theorem contexts_arrive (s : AuthState) (request : AuthRequest) :
    (s.arrive request).contexts = s.contexts := by
  simp only [arrive]
  split <;> rfl

/-- The contexts after the sessions have been told, one after the other. -/
theorem pushed_contexts (permissions : Permissions) (sessions : List StoredSession)
    (contexts : Nat → Option SessionContext) (n : Nat) :
    sessions.foldl (fun contexts session => Function.update contexts session.number
      ((contexts session.number).map fun context =>
        { context with authContext := { context.authContext with permissions } })) contexts n =
      if sessions.any (·.number == n) then
        (contexts n).map fun context =>
          { context with authContext := { context.authContext with permissions } }
      else contexts n := by
  induction sessions generalizing contexts with
  | nil => rfl
  | cons session sessions ih =>
    rw [List.foldl_cons, ih]
    by_cases hn : session.number = n
    · subst hn
      simp only [Function.update_self, List.any_cons, beq_self_eq_true, Bool.true_or, if_true]
      -- telling an object twice is telling it once
      split
      · cases contexts session.number with
        | none | some _ => rfl
      · rfl
    · rw [Function.update_of_ne (Ne.symm hn)]
      simp [hn]

theorem contexts_pushPermissions (s : AuthState) (targetId : String) (permissions : Permissions)
    (n : Nat) : (s.pushPermissions targetId permissions).contexts n =
      if (s.sessions.store.getUserSessions targetId).any (·.number == n) then
        (s.contexts n).map fun context =>
          { context with authContext := { context.authContext with permissions } }
      else s.contexts n :=
  pushed_contexts permissions _ _ n

/-- A request refreshes the object of its session, which is one of the same user. -/
theorem contexts_applyRefresh (s : AuthState) (session : StoredSession) (now : Timestamp)
    (user : Option UserRow) (n : Nat) :
    (s.applyRefresh env session now user).contexts n = s.contexts n ∨
      (n = session.number ∧ ∃ context, user.bind (·.authContext env session.userId) = some context ∧
        (s.applyRefresh env session now user).contexts n =
          some { context with lastUserInfoRefresh := some now }) := by
  simp only [applyRefresh]
  split
  · exact .inl rfl
  · next context hcontext =>
    by_cases hn : n = session.number
    · subst hn
      exact .inr ⟨rfl, context, hcontext, by simp⟩
    · exact .inl (Function.update_of_ne hn _ _)

variable {userId : String}

theorem userId_of_bind {user : Option UserRow}
    (h : user.bind (·.authContext env userId) = some context) :
    context.authContext.userId = userId := by
  obtain ⟨row, _, hrow⟩ := Option.bind_eq_some_iff.mp h
  exact userId_authContext hrow

/-- A request that makes a session leaves the contexts of the others alone. -/
theorem contexts_createSession {r : Nat} {pending : PendingRequest} {c : SessionContext}
    {token generated : String} (hs : s.createSession env r pending c token generated = some s')
    (n : Nat) (hn : n < s.sessions.operations.next) : s'.contexts n = s.contexts n := by
  rcases (createSession_cases hs).2 with ⟨_, hcontexts, _⟩ | ⟨_, _, _, _, _, hcontexts, _⟩
  · rw [hcontexts]
  · rw [hcontexts, Function.update_of_ne (by omega)]

theorem PermissionsOk.keeps (h : s.PermissionsOk env) (hacts : Acts env s a s') : s.Keeps s' := by
  refine ⟨hacts.next_le, ?_⟩
  intro n context hn hcontext
  have hsame : s'.contexts n = s.contexts n → ∃ context', s'.contexts n = some context' ∧
      context'.authContext.userId = context.authContext.userId :=
    fun heq => ⟨context, heq.trans hcontext, rfl⟩
  cases hacts with
  | @refreshed r pending generated session now user hr hphase =>
    rw [contexts_advance] at hsame ⊢
    rcases @contexts_applyRefresh env s session now user n with heq | ⟨rfl, c, hc, heq⟩
    · exact hsame heq
    · obtain ⟨_, context', hcontext', huser⟩ :=
        h.requests r pending session hr (by rw [hphase]; rfl)
      obtain rfl := Option.some.inj (hcontext'.symm.trans hcontext)
      exact ⟨_, heq, (userId_of_bind hc).trans huser.symm⟩
  | @renewed r pending generated session user hr hphase hvalid =>
    rw [contexts_advance] at hsame ⊢
    by_cases heq : n = session.number
    · subst heq
      refine ⟨{ context with expiresAt := expiryOf user.expiresAt }, ?_, rfl⟩
      simp [hcontext]
    · exact hsame (Function.update_of_ne heq _ _)
  | connects _ _ hs | anonymousConnects _ hs => exact hsame (contexts_createSession hs n hn)
  | @updatePushes u targetId permissions parsed hu hparsed =>
    rw [contexts_pushPermissions]
    split
    · refine ⟨{ context with authContext := { context.authContext with permissions := parsed } },
        ?_, rfl⟩
      simp [hcontext]
    · exact ⟨context, hcontext, rfl⟩
  | arrives request => exact hsame (by rw [contexts_arrive])
  | reads _ _ | disableUser _ | disableThrows _ | disableReads _ _ _ | disableWrites _ _
  | disableRemoves _ | disableReturns _ _ | updateUserPermissions _ _ | updateEnds _ _ _
  | updateReads _ _ | updateWrites _ _ | store _ _ => exact hsame rfl
  | sessionValidated _ _ | refused _ _ | anonymousRefused _ | createCompletes _ _ _
  | createFails _ _ _ | authLogged _ _ => exact hsame (by rw [contexts_advance])
  | removes _ _ _ =>
    apply hsame
    rw [contexts_advance]
    rfl

/-! ## The sessions that requests hold -/

/-- The session of the next phase of a request. -/
def Flow.session? : Flow → Option StoredSession
  | .awaits phase => phase.session?
  | .passes _ | .skips | .rejects => none

theorem session?_readPhase {s : AuthState} {active : Bool} {phase phase' : AuthPhase}
    (h : s.readPhase env active phase = some phase') : phase'.session? = phase.session? := by
  cases phase with
  | oauth token fallback =>
    simp only [readPhase] at h
    split at h
    · cases h
      rfl
    · cases h
      rfl
  | validateSession _ | refresh _ _ | confirmExpiry _ | traditional _ =>
    cases h
    rfl
  | sessionValidated _ _ | refreshed _ _ _ | expiryConfirmed _ _ | removing _ | validated _ _
  | anonymousServers | creating _ _ | created _ => cases h

theorem session?_checkExpiry {s : AuthState} {session session' : StoredSession}
    (h : (s.checkExpiry session).session? = some session') : session' = session := by
  simp only [checkExpiry] at h
  split at h
  · cases h
  · split at h
    · exact (Option.some.inj h).symm
    · cases h

theorem session?_refreshUserInfoIfNeeded {s : AuthState} {session session' : StoredSession}
    (h : (s.refreshUserInfoIfNeeded session).session? = some session') : session' = session := by
  simp only [refreshUserInfoIfNeeded] at h
  split at h
  · exact session?_checkExpiry h
  · split at h
    · exact (Option.some.inj h).symm
    · split at h
      · exact (Option.some.inj h).symm
      · exact session?_checkExpiry h

/-- A request that arrives holds a live session, if any. -/
theorem session?_authenticate {s : AuthState} {request : AuthRequest}
    (h : (s.authenticate request).session? = some session) :
    ∃ id, s.sessions.store.sessions.get? id = some session := by
  simp only [authenticate] at h
  split at h
  · next session' hfound =>
    obtain ⟨id, _, hsession⟩ := Option.bind_eq_some_iff.mp hfound
    split at hsession
    · cases hsession
    split at h
    · cases h
      exact ⟨id, hsession⟩
    · obtain rfl := session?_refreshUserInfoIfNeeded h
      exact ⟨id, hsession⟩
  · split at h
    · cases h
    · split at h
      · cases h
      · split at h
        · cases h
        · split at h
          · split at h <;> cases h
          · split at h
            · cases h
            · split at h <;> cases h

/-- The requests after one of them has gone on. -/
theorem get?_advance {s : AuthState} {r r' : Nat} {pending pending' : PendingRequest} {flow : Flow}
    (hr : s.requests.get? r = some pending)
    (hr' : (s.advance r pending flow).requests.get? r' = some pending')
    (hsession : pending'.phase.session? = some session) :
    flow.session? = some session ∨ s.requests.get? r' = some pending' := by
  cases flow with
  | awaits phase =>
    simp only [advance, Table.get?_put hr] at hr'
    split at hr'
    · cases hr'
      exact .inl hsession
    · exact .inr hr'
  | passes _ | skips | rejects => exact .inr (Table.get?_of_get?_erase hr').2

/-- The object that a new session begins with. -/
theorem owned_created {operation : StoreOperation}
    (hnumber : session.number = s.sessions.operations.next)
    (huser : session.userId = context.authContext.userId)
    (hops : s'.sessions.operations = s.sessions.operations.add operation)
    (hcontexts : s'.contexts = Function.update s.contexts s.sessions.operations.next
      (some { context with lastUserInfoRefresh := some s.now })) : s'.Owned session := by
  refine ⟨?_, { context with lastUserInfoRefresh := some s.now }, ?_, huser.symm⟩
  · rw [hops, Table.next_add, hnumber]
    omega
  · rw [hcontexts, hnumber, Function.update_self]

theorem PermissionsOk.requests_step (h : s.PermissionsOk env) (hacts : Acts env s a s') {r : Nat}
    {pending : PendingRequest} (hr : s'.requests.get? r = some pending)
    (hsession : pending.phase.session? = some session) : s'.Owned session := by
  have hkeeps := h.keeps hacts
  -- the session was held before, or is a live one
  have hheld : ∀ r₀ pending₀, s.requests.get? r₀ = some pending₀ →
      pending₀.phase.session? = some session → s'.Owned session :=
    fun r₀ pending₀ hr₀ hsession₀ => (h.requests r₀ pending₀ session hr₀ hsession₀).keeps hkeeps
  have hold : s.requests.get? r = some pending → s'.Owned session :=
    fun hr₀ => hheld r pending hr₀ hsession
  have hcreate : ∀ {r₀ : Nat} {pending₀ : PendingRequest} {c : SessionContext}
      {token generated : String}, s.requests.get? r₀ = some pending₀ →
      s.createSession env r₀ pending₀ c token generated = some s' → s'.Owned session := by
    intro r₀ pending₀ c token generated hr₀ hs
    rcases (createSession_cases hs).2 with
      ⟨_, _, hrequests⟩ | ⟨id, created, hnumber, huser, hops, hcontexts, hrequests⟩
    · rw [hrequests] at hr
      exact hold (Table.get?_of_get?_erase hr).2
    · rw [hrequests, Table.get?_put hr₀] at hr
      split at hr
      · cases hr
        cases hsession
        exact owned_created hnumber huser hops hcontexts
      · exact hold hr
  cases hacts with
  | arrives request =>
    simp only [arrive] at hr
    split at hr
    · next phase heq =>
      simp only [Table.get?_add] at hr
      split at hr
      · cases hr
        have hflow : (s.authenticate request).session? = some session := by
          rw [heq]
          exact hsession
        obtain ⟨id, hlive⟩ := session?_authenticate hflow
        exact (h.live id session hlive).keeps hkeeps
      · exact hold hr
    · exact hold hr
    · exact hold hr
    · exact hold hr
  | @reads r₀ pending₀ active phase hr₀ hphase =>
    simp only [Table.get?_put hr₀] at hr
    split at hr
    · cases hr
      exact hheld r₀ pending₀ hr₀ ((session?_readPhase hphase).symm.trans hsession)
    · exact hold hr
  | @sessionValidated r₀ pending₀ generated session₀ hr₀ hphase =>
    rcases get?_advance hr₀ hr hsession with hflow | hr
    · obtain rfl := session?_refreshUserInfoIfNeeded hflow
      exact hheld r₀ pending₀ hr₀ (by rw [hphase]; rfl)
    · exact hold hr
  | @removes r₀ pending₀ generated session₀ hr₀ hphase hstore =>
    have hr₀' : (s.removeAllUserSessions session₀.userId).1.requests.get? r₀ = some pending₀ := hr₀
    rcases get?_advance hr₀' hr hsession with hflow | hr
    · cases hflow
    · exact hold hr
  | @refreshed r₀ pending₀ generated session₀ now user hr₀ hphase =>
    have hrequests : (s.applyRefresh env session₀ now user).requests = s.requests := by
      simp only [applyRefresh]
      split <;> rfl
    have hr₀' : (s.applyRefresh env session₀ now user).requests.get? r₀ = some pending₀ := by
      rw [hrequests, hr₀]
    rcases get?_advance hr₀' hr hsession with hflow | hr
    · obtain rfl := session?_checkExpiry hflow
      exact hheld r₀ pending₀ hr₀ (by rw [hphase]; rfl)
    · rw [hrequests] at hr
      exact hold hr
  | renewed hr₀ hphase hvalid =>
    simp only [advance] at hr
    exact hold (Table.get?_of_get?_erase hr).2
  | refused _ _ | anonymousRefused _
  | createFails _ _ _ => exact hold (Table.get?_of_get?_erase hr).2
  | connects hr₀ _ hs | anonymousConnects hr₀ hs => exact hcreate hr₀ hs
  | @createCompletes r₀ pending₀ operation session₀ sessions hr₀ hphase hs =>
    simp only [advance, Table.get?_put hr₀] at hr
    split at hr
    · cases hr
      refine hheld r₀ pending₀ hr₀ ?_
      rw [hphase]
      exact hsession
    · exact hold hr
  | @authLogged r₀ pending₀ session₀ ok hr₀ hphase =>
    rcases get?_advance hr₀ hr hsession with hflow | hr
    · cases ok <;> cases hflow
    · exact hold hr
  | store _ _ | disableUser _ | disableThrows _ | disableReads _ _ _ | disableWrites _ _
  | disableRemoves _ | disableReturns _ _ | updateUserPermissions _ _ | updateEnds _ _ _
  | updateReads _ _ | updateWrites _ _ | updatePushes _ _ => exact hold hr

/-- The operations that make a session hold one whose object is there. -/
theorem PermissionsOk.creating_step (h : s.PermissionsOk env) (hacts : Acts env s a s') {i : Nat}
    {id : String} (hop : s'.sessions.operations.get? i = some (.createSession id session)) :
    s'.Owned session := by
  have hkeeps := h.keeps hacts
  have hold : s.sessions.operations.get? i = some (.createSession id session) →
      s'.Owned session := fun hop₀ => (h.creating i id session hop₀).keeps hkeeps
  have hcreate : ∀ {r₀ : Nat} {pending₀ : PendingRequest} {c : SessionContext}
      {token generated : String},
      s.createSession env r₀ pending₀ c token generated = some s' → s'.Owned session := by
    intro r₀ pending₀ c token generated hs
    rcases (createSession_cases hs).2 with
      ⟨hops, _, _⟩ | ⟨_, created, hnumber, huser, hops, hcontexts, _⟩
    · rw [hops] at hop
      exact hold hop
    · have hop' := hop
      rw [hops, Table.get?_add] at hop'
      split at hop'
      · obtain ⟨rfl, rfl⟩ := StoreOperation.createSession.inj (Option.some.inj hop')
        exact owned_created hnumber huser hops hcontexts
      · exact hold hop'
  rcases hacts.store_steps with hstore | ⟨b, hb, hsteps⟩
  · rw [hstore] at hop
    exact hold hop
  rcases SessionState.createSession_steps hsteps hop with hop | ⟨_, _, _, _, rfl, _⟩
  · exact hold hop
  -- a step that makes a session is one of the two requests that do
  cases storeActs_of_storeAction hb with
  | store =>
    have hof := hacts.ofStore
    cases hof
  | connects hr =>
    cases hacts with
    | connects _ _ hs => exact hcreate hs
    | sessionValidated hr' hphase | refreshed hr' hphase | renewed hr' hphase _ =>
      obtain rfl := Option.some.inj (hr'.symm.trans hr)
      cases hphase
    | removes _ _ hnot | refused _ hnot =>
      rw [hnot] at hb
      cases hb
    | disableThrows hthrows => rcases hthrows with hthrows | hthrows <;> cases hthrows
    | updateEnds hends _ _ => rcases hends with hends | hends <;> cases hends
  | anonymousConnects _ =>
    cases hacts with
    | anonymousConnects _ hs => exact hcreate hs
    | disableThrows hthrows => rcases hthrows with hthrows | hthrows <;> cases hthrows
    | updateEnds hends _ _ => rcases hends with hends | hends <;> cases hends

/-! ## The live sessions -/

/-- A live session was live before, or its creation has just completed. -/
theorem Acts.live (hacts : Acts env s a s') {id : String}
    (hsession : s'.sessions.store.sessions.get? id = some session) :
    s.sessions.store.sessions.get? id = some session ∨
      ∃ r i request created disabled, a = .createCompletes r ∧
        s.requests.get? r = some ⟨request, .creating i created, disabled⟩ ∧
        s.sessions.operations.get? i = some (.createSession id session) := by
  rcases hacts.store_steps with hstore | ⟨b, hb, hsteps⟩
  · rw [hstore] at hsession
    exact .inl hsession
  rcases SessionState.sessions_steps hsteps hsession with hold | ⟨i, rfl, hop⟩
  · exact .inl hold
  cases storeActs_of_storeAction hb with
  | createCompletes hr => exact .inr ⟨_, i, _, _, _, rfl, hr, hop⟩
  | store =>
    have hof := hacts.ofStore
    cases hof

theorem PermissionsOk.live_step (h : s.PermissionsOk env) (hacts : Acts env s a s') {id : String}
    (hsession : s'.sessions.store.sessions.get? id = some session) : s'.Owned session := by
  have hkeeps := h.keeps hacts
  rcases hacts.live hsession with hold | ⟨_, i, _, _, _, _, _, hop⟩
  · exact (h.live id session hold).keeps hkeeps
  · exact (h.creating i id session hop).keeps hkeeps

theorem PermissionsOk.listed_step (h : s.PermissionsOk env) (hacts : Acts env s a s')
    (horder : s.inOrder env a = true) :
    s'.sessions.LiveListed StoredSession.isAuthenticated ∧ s'.sessions.OwnersOk := by
  rcases hacts.store_steps with hstore | ⟨b, hb, hsteps⟩
  · rw [hstore]
    exact ⟨h.listed, h.owners⟩
  refine ⟨h.listed.steps hsteps ?_, h.owners.steps hsteps⟩
  cases storeActs_of_storeAction hb with
  | store => exact horder
  | removes | connects _ | anonymousConnects _ | createCompletes _ | createFails _
  | disableRemoves => rfl

/-- Two sessions with one object are of one user. -/
theorem Owned.userId_eq {s : AuthState} {session session' : StoredSession} (h : s.Owned session)
    (h' : s.Owned session') (hnumber : session.number = session'.number) :
    session.userId = session'.userId := by
  obtain ⟨_, context, hcontext, huser⟩ := h
  obtain ⟨_, context', hcontext', huser'⟩ := h'
  rw [hnumber] at hcontext
  obtain rfl := Option.some.inj (hcontext.symm.trans hcontext')
  exact huser.symm.trans huser'

/-! ## The permissions of the live sessions -/

/-- What is current stays so while the stored permissions are the same and no change that has
    stored them tells the sessions. -/
theorem current_mono {permissions : Permissions} (h : s.current env userId permissions = true)
    (hrow : (s'.users.get? userId).map (·.permissions) =
      (s.users.get? userId).map (·.permissions))
    (hupdates : ∀ u text, s.updates.get? u = some (userId, text, .updated) →
      s'.updates.get? u = some (userId, text, .updated)) :
    s'.current env userId permissions = true := by
  simp only [AuthState.current] at h ⊢
  cases hrow' : s'.users.get? userId with
  | none => rfl
  | some row' =>
    cases hrow₀ : s.users.get? userId with
    | none => simp [hrow', hrow₀] at hrow
    | some row =>
      simp only [hrow', hrow₀, Option.map_some, Option.some.injEq] at hrow
      simp only [hrow₀, Bool.or_eq_true] at h
      simp only [hrow, Bool.or_eq_true]
      rcases h with hsame | hpending
      · exact .inl hsame
      · right
        obtain ⟨u, update, hu, heq⟩ := Table.any_eq_true.mp hpending
        obtain rfl := eq_of_beq heq
        exact Table.any_eq_true.mpr ⟨u, _, hupdates u _ hu, by simp⟩

theorem SameAdmin.current_mono (h : s.SameAdmin s') {permissions : Permissions}
    (hcurrent : s.current env userId permissions = true) :
    s'.current env userId permissions = true := by
  refine AuthState.current_mono hcurrent (by rw [h.users]) ?_
  intro u text hu
  rwa [h.updates]

/-- A change that has not yet written goes on; those that have written are as they were. -/
theorem get?_put_of_updated {s : AuthState} {u v : Nat}
    {update update' : String × String × PermissionsPhase} (hu : s.updates.get? u = some update)
    (hphase : update.2.2 ≠ .updated) {text : String}
    (hv : s.updates.get? v = some (userId, text, .updated)) :
    (s.updates.put u update').get? v = some (userId, text, .updated) := by
  rw [Table.get?_put hu, if_neg]
  · exact hv
  · rintro rfl
    obtain rfl := Option.some.inj (hu.symm.trans hv)
    exact hphase rfl

/-- The sessions are told, each of them, and no others. -/
theorem PermissionsOk.current_updatePushes {s : AuthState} (h : s.PermissionsOk env) {u : Nat}
    {targetId text : String} {parsed : Permissions}
    (hu : s.updates.get? u = some (targetId, text, .updated))
    (hparsed : env.parsePermissions text = some parsed)
    (horder : s.inOrder env (.updatePushes u) = true) {id : String}
    (hsession : s.sessions.store.sessions.get? id = some session)
    (hauth : session.isAuthenticated = true)
    (hcontext : (AuthState.pushPermissions { s with updates := s.updates.erase u } targetId
      parsed).contexts session.number = some context) :
    (AuthState.pushPermissions { s with updates := s.updates.erase u } targetId parsed).current env
      session.userId context.authContext.permissions = true := by
  rw [contexts_pushPermissions] at hcontext
  have hcurrent : AuthState.current env { s with updates := s.updates.erase u } session.userId
      context.authContext.permissions = true := by
    split at hcontext
    · next hany =>
      obtain ⟨told, htold, hnumber⟩ := List.any_eq_true.mp hany
      obtain ⟨huser, id', hid'⟩ := h.owners.mem_getUserSessions htold
      have hsame : session.userId = targetId :=
        ((h.live id session hsession).userId_eq (h.live id' told hid')
          (beq_iff_eq.mp hnumber).symm).trans huser
      obtain ⟨context₀, _, rfl⟩ := Option.map_eq_some_iff.mp hcontext
      have hne : (s.sessions.store.getUserSessions targetId).isEmpty = false := by
        cases hlist : s.sessions.store.getUserSessions targetId with
        | nil => simp [hlist] at htold
        | cons _ _ => rfl
      simp only [inOrder, hu, hne, hparsed, Option.all_some, Bool.false_or] at horder
      rw [hsame]
      exact horder
    · next hany =>
      -- the session is not told, so it is one of another user
      have huser : session.userId ≠ targetId := by
        rintro rfl
        refine hany (List.any_eq_true.mpr ⟨session, ?_, by simp⟩)
        exact h.listed.mem_getUserSessions hsession hauth
      have hbefore := h.current id session context hsession hauth hcontext
      refine AuthState.current_mono hbefore rfl ?_
      intro v text' hv
      rw [Table.get?_erase, if_neg]
      · exact hv
      · rintro rfl
        obtain ⟨rfl, _⟩ := Prod.mk.inj (Option.some.inj (hv.symm.trans hu))
        exact huser rfl
  exact hcurrent

theorem PermissionsOk.current_step (h : s.PermissionsOk env) (hacts : Acts env s a s')
    (horder : s.inOrder env a = true) {id : String}
    (hsession : s'.sessions.store.sessions.get? id = some session)
    (hauth : session.isAuthenticated = true) (hcontext : s'.contexts session.number = some context)
    : s'.current env session.userId context.authContext.permissions = true := by
  -- steps that leave the contexts alone and keep what is current
  have hquiet : (∀ n, n < s.sessions.operations.next → s'.contexts n = s.contexts n) →
      (∀ userId permissions, s.current env userId permissions = true →
        s'.current env userId permissions = true) →
      s.sessions.store.sessions.get? id = some session →
      s'.current env session.userId context.authContext.permissions = true := by
    intro hcontexts hcurrent hold
    obtain ⟨hlt, _⟩ := h.live id session hold
    rw [hcontexts session.number hlt] at hcontext
    exact hcurrent _ _ (h.current id session context hold hauth hcontext)
  have hold : (∀ r, a ≠ .createCompletes r) →
      s.sessions.store.sessions.get? id = some session := by
    intro hnot
    rcases hacts.live hsession with hold | ⟨r, _, _, _, _, rfl, _⟩
    · exact hold
    · exact absurd rfl (hnot r)
  have hmono : ofAdmin a = false → ∀ userId permissions,
      s.current env userId permissions = true → s'.current env userId permissions = true :=
    fun hadmin _ _ hcurrent => (hacts.sameAdmin hadmin).current_mono hcurrent
  cases hacts with
  | @refreshed r pending generated session₀ now user hr hphase =>
    have hlive := hold (by simp)
    rw [contexts_advance] at hcontext hquiet
    rcases @contexts_applyRefresh env s session₀ now user session.number with
      heq | ⟨hnumber, c, hc, heq⟩
    · rw [heq] at hcontext
      exact hmono rfl _ _ (h.current id session context hlive hauth hcontext)
    -- the object of a live session is refreshed, with permissions that are current
    · obtain rfl := Option.some.inj (heq.symm.trans hcontext)
      obtain ⟨request, _, disabled⟩ := pending
      subst hphase
      have hnumbers : s.isLive session₀.number = true := by
        refine List.any_eq_true.mpr ⟨session, Dict.mem_values_of_get? hlive, ?_⟩
        simp [hnumber]
      have huser : session.userId = session₀.userId :=
        (h.live id session hlive).userId_eq (h.requests r _ session₀ hr rfl) hnumber
      simp only [inOrder, hr, hc, Option.all_some, hnumbers, Bool.not_true, Bool.false_or]
        at horder
      rw [huser]
      exact hmono rfl _ _ horder
  | @renewed r pending generated session₀ user hr hphase hvalid =>
    have hlive := hold (by simp)
    rw [contexts_advance] at hcontext
    by_cases hnumber : session.number = session₀.number
    · simp only [hnumber, Function.update_self] at hcontext
      obtain ⟨context₀, hcontext₀, rfl⟩ := Option.map_eq_some_iff.mp hcontext
      rw [← hnumber] at hcontext₀
      exact hmono rfl _ _ (h.current id session context₀ hlive hauth hcontext₀)
    · simp only [Function.update_of_ne hnumber] at hcontext
      exact hmono rfl _ _ (h.current id session context hlive hauth hcontext)
  | connects _ _ hs
  | anonymousConnects _ hs => exact hquiet (contexts_createSession hs) (hmono rfl) (hold (by simp))
  | @createCompletes r pending operation session₀ sessions hr hphase hs =>
    rw [contexts_advance] at hcontext
    obtain ⟨request, _, disabled⟩ := pending
    subst hphase
    rcases Acts.live (.createCompletes hr rfl hs) hsession with hlive | ⟨_, i, _, _, _, ha, hr', hop⟩
    · exact hmono rfl _ _ (h.current id session context hlive hauth hcontext)
    · obtain rfl := AuthAction.createCompletes.inj ha
      rw [hr] at hr'
      obtain ⟨_, hphase, _⟩ := PendingRequest.mk.inj (Option.some.inj hr')
      obtain ⟨rfl, _⟩ := AuthPhase.creating.inj hphase
      simp only [inOrder, hr, hop, hauth, Bool.not_true, Bool.false_or] at horder
      rw [hcontext] at horder
      exact hmono rfl _ _ horder
  | @updatePushes u targetId text parsed hu hparsed =>
    exact h.current_updatePushes hu hparsed horder (hold (by simp)) hauth hcontext
  | @updateWrites u targetId text user hu huser =>
    have hlive := hold (by simp)
    by_cases htarget : session.userId = targetId
    -- the change has still to tell the sessions
    · subst htarget
      simp only [AuthState.current, Dict.get?_set_self, Bool.or_eq_true]
      right
      refine Table.any_eq_true.mpr ⟨u, (session.userId, text, .updated), ?_, by simp⟩
      rw [Table.get?_put hu, if_pos rfl]
    · refine AuthState.current_mono (h.current id session context hlive hauth hcontext) ?_ ?_
      · simp [Dict.get?_set_ne _ _ htarget]
      · exact fun v text' hv => get?_put_of_updated hu (by simp) hv
  | @disableWrites d targetId user hd huser =>
    have hlive := hold (by simp)
    refine AuthState.current_mono (h.current id session context hlive hauth hcontext) ?_
      (fun _ _ hv => hv)
    by_cases htarget : session.userId = targetId
    · simp [htarget, huser]
    · simp [Dict.get?_set_ne _ _ htarget]
  | updateUserPermissions targetId text =>
    refine hquiet (fun _ _ => rfl) ?_ (hold (by simp))
    intro userId permissions hcurrent
    refine AuthState.current_mono hcurrent rfl ?_
    intro v text' hv
    rw [Table.get?_add_of_some hv]
  | @updateEnds _ u targetId text phase hends hu hphase =>
    have hnot : ∀ r, a ≠ .createCompletes r := by
      rcases hends with rfl | rfl <;> simp
    refine hquiet (fun _ _ => rfl) ?_ (hold hnot)
    intro userId permissions hcurrent
    refine AuthState.current_mono hcurrent rfl ?_
    intro v text' hv
    rw [Table.get?_erase, if_neg]
    · exact hv
    · rintro rfl
      rw [hu] at hv
      simp [hphase] at hv
  | @updateReads u targetId text parsed hu hparsed =>
    refine hquiet (fun _ _ => rfl) ?_ (hold (by simp))
    intro userId permissions hcurrent
    exact AuthState.current_mono hcurrent rfl
      (fun v text' hv => get?_put_of_updated hu (by simp) hv)
  | @disableThrows _ d hthrows =>
    have hnot : ∀ r, a ≠ .createCompletes r := by
      rcases hthrows with rfl | rfl <;> simp
    exact hquiet (fun _ _ => rfl) (fun _ _ hcurrent => hcurrent) (hold hnot)
  | disableUser _ | disableReads _ _ _ | disableRemoves _ | disableReturns _ _ =>
    exact hquiet (fun _ _ => rfl) (fun _ _ hcurrent => hcurrent) (hold (by simp))
  | arrives _ | reads _ _ | sessionValidated _ _ | refused _ _ | anonymousRefused _
  | createFails _ _ _ | authLogged _ _
  | store _ _ => exact hquiet (by simp) (hmono rfl) (hold (by simp))
  | removes _ _ _ => exact hquiet (by simp [removeAllUserSessions]) (hmono rfl) (hold (by simp))

theorem PermissionsOk.step (h : s.PermissionsOk env) (hacts : Acts env s a s')
    (horder : s.inOrder env a = true) : s'.PermissionsOk env where
  listed := (h.listed_step hacts horder).1
  owners := (h.listed_step hacts horder).2
  live := fun _ _ => h.live_step hacts
  creating := fun _ _ _ => h.creating_step hacts
  requests := fun _ _ _ => h.requests_step hacts
  current := fun _ _ _ => h.current_step hacts horder

/-! ## Permissions at rest -/

theorem permissionsOk_init (env : AuthEnv) (now : Timestamp) (users : Dict UserRow) :
    (init now users).PermissionsOk env := by
  constructor
  case owners => exact SessionState.ownersOk_init now
  all_goals simp [init, SessionState.init, SessionStore.empty, SessionState.LiveListed]

/-- In every run whose steps are in order, with every change of permissions finished, each live
    session of a user has the permissions stored for the user. -/
theorem sessions_have_stored_permissions (env : AuthEnv) (now : Timestamp) (users : Dict UserRow)
    (trs : List (Transition AuthState AuthAction)) (s : AuthState)
    (hrun : IsRun (step env) (init now users) trs s)
    (horder : ∀ tr ∈ trs, tr.pre.inOrder env tr.act = true)
    (hupdates : ∀ u, s.updates.get? u = none) :
    ∀ id session row, s.sessions.store.sessions.get? id = some session →
      session.authKind = .authenticated → s.users.get? session.userId = some row →
      ∃ context, s.contexts session.number = some context ∧
        env.parsePermissions row.permissions = some context.authContext.permissions := by
  have hok : s.PermissionsOk env := by
    refine IsRun.history_of (G := fun tr => tr.pre.inOrder env tr.act = true)
      (P := fun _ s => s.PermissionsOk env) (permissionsOk_init env now users) ?_ hrun horder
    intro _ s a s' _ hok hs horder
    exact hok.step (acts_of_step hs) horder
  intro id session row hsession hauth hrow
  obtain ⟨_, context, hcontext, _⟩ := hok.live id session hsession
  refine ⟨context, hcontext, ?_⟩
  have hcurrent := hok.current id session context hsession
    (by simp [StoredSession.isAuthenticated, hauth]) hcontext
  simp only [AuthState.current, hrow, Bool.or_eq_true] at hcurrent
  rcases hcurrent with hsame | hpending
  · exact eq_of_beq hsame
  -- no change is left that could tell the sessions
  · obtain ⟨u, update, hu, _⟩ := Table.any_eq_true.mp hpending
    simp [hupdates u] at hu

/-- One user; a server is permitted in the second of two texts. -/
def permissionsEnv : AuthEnv :=
  { oauthUserId := fun _ => none
    calculateUserId := fun _ => "ab04"
    parsePermissions := fun text =>
      if text = "b" then
        some (Dict.empty.set "linear"
          { tools := .empty, resources := .empty, prompts := .empty, enabled := some true
            serverName := "linear", allowUserInput := false, authType := 1, category := none
            configTemplate := "", configured := false, status := none })
      else some .empty
    fingerprintToken := id }

def permissionsUsers : Dict UserRow :=
  Dict.empty.set "ab04"
    { role := .user, status := .enabled, permissions := "\x7b\x7d", userPreferences := ""
      expiresAt := 0 }

def connectRequest : AuthRequest :=
  { method := .post, sessionId := none, isInitializeRequest := true, token := some "secret-4"
    hasAuthAttempt := true, requestsAnonymous := false }

def laterRequest : AuthRequest :=
  { method := .post, sessionId := some "session-6", isInitializeRequest := false, token := none
    hasAuthAttempt := false, requestsAnonymous := false }

def connectActions : List AuthAction :=
  [.arrives connectRequest, .reads 0 true, .reads 0 true, .continues 0 "session-6",
    .createCompletes 0, .authLogged 0 true]

/-- The permissions of a connected user change, and a later request refreshes the session. -/
def refreshActions : List AuthAction :=
  connectActions ++
  [.updateUserPermissions "ab04" "b", .updateReads 0, .updateWrites 0, .updatePushes 0,
    .store (.tick 300000), .arrives laterRequest, .reads 1 true, .continues 1 ""]

theorem sessions_have_stored_permissions_refreshActions :
    ∃ s, exec (step permissionsEnv) (init 0 permissionsUsers) refreshActions = some s ∧
      ∃ context, s.contexts 0 = some context ∧
        permissionsEnv.parsePermissions "b" = some context.authContext.permissions := by
  refine ⟨(exec (step permissionsEnv) (init 0 permissionsUsers) refreshActions).get (by decide),
    by simp, ?_⟩
  apply sessions_have_stored_permissions permissionsEnv 0 permissionsUsers
    (trace (step permissionsEnv) (init 0 permissionsUsers) refreshActions) _ ?_ ?_ ?_ "session-6"
    ⟨0, "ab04", "secret-4", .authenticated⟩
    { role := .user, status := .enabled, permissions := "b", userPreferences := "", expiresAt := 0 }
  · decide
  · rfl
  · decide
  · exact isRun_trace _ _ _ (by simp)
  · decide
  · exact Table.get?_of_any (by decide)

/-- Two changes write the row in one order and tell the session in the other. -/
def overtakingActions : List AuthAction :=
  connectActions ++
  [.updateUserPermissions "ab04" "a", .updateUserPermissions "ab04" "b", .updateReads 0,
    .updateReads 1, .updateWrites 0, .updateWrites 1, .updatePushes 1, .updatePushes 0]

/-- A live session can keep permissions that are no longer stored, with nothing in progress. -/
theorem session_has_stale_permissions :
    ¬ ∀ (env : AuthEnv) (now : Timestamp) (users : Dict UserRow)
      (trs : List (Transition AuthState AuthAction)) (s : AuthState),
      IsRun (step env) (init now users) trs s → (∀ u, s.updates.get? u = none) →
      (∀ r, s.requests.get? r = none) → s.sessions.Idle →
      ∀ id session row, s.sessions.store.sessions.get? id = some session →
        session.authKind = .authenticated → s.users.get? session.userId = some row →
        ∃ context, s.contexts session.number = some context ∧
          env.parsePermissions row.permissions = some context.authContext.permissions := by
  intro h
  have hrun : IsRun (step permissionsEnv) (init 0 permissionsUsers)
      (trace (step permissionsEnv) (init 0 permissionsUsers) overtakingActions)
      ((exec (step permissionsEnv) (init 0 permissionsUsers) overtakingActions).get (by decide)) :=
    isRun_trace _ _ _ (by simp)
  obtain ⟨context, hcontext, hstored⟩ := h permissionsEnv 0 permissionsUsers _ _ hrun
    (Table.get?_of_any (by decide)) (Table.get?_of_any (by decide)) (Table.get?_of_any (by decide)) "session-6"
    ⟨0, "ab04", "secret-4", .authenticated⟩
    { role := .user, status := .enabled, permissions := "b", userPreferences := "", expiresAt := 0 }
    (by decide) rfl (by decide)
  have hstale : (((exec (step permissionsEnv) (init 0 permissionsUsers) overtakingActions).get
      (by decide)).contexts 0).all (fun context =>
        !(permissionsEnv.parsePermissions "b" == some context.authContext.permissions)) = true := by
    decide
  rw [hcontext] at hstale
  simp [hstored] at hstale

end AuthState

end PetaCore
