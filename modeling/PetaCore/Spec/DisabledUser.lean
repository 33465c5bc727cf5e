import PetaCore.Spec.AuthMiddleware

/-!
# Disabled users

After `disableUser` has returned, the middleware lets no request of the user through: the row says
that the user is disabled, which every token check reads, and the sessions whose token is not
checked again (those that are not JWTs) are gone. The second half needs that no such session is
made once `disableUser` has begun to remove the sessions (`timely`); a session whose creation is
in progress then is stored afterwards all the same.

Key results:
- `DisabledOk.step`: every timely step keeps the invariant
- `disabled_user_is_out`: no request passes for a user who was disabled when it arrived
- `disabled_user_is_in`: one can, when a session is made late
-/

namespace PetaCore

open Run

/-- A session of a user whose token is not validated again with each request. -/
def StoredSession.isOpaque (session : StoredSession) : Bool :=
  decide (session.authKind = .authenticated) && !isJwtFormat session.token

/-- A JWT names the user of its session. -/
def TokenOk (env : AuthEnv) (session : StoredSession) : Prop :=
  session.authKind = .authenticated → isJwtFormat session.token = true →
    env.oauthUserId session.token = some session.userId

/-- The user of the session is not one of `disabled`. -/
def Allowed (disabled : List String) (session : StoredSession) : Prop :=
  session.authKind = .authenticated → session.userId ∉ disabled

/-- What holds of a request that arrived when the users `disabled` had been disabled. -/
def PhaseOk (env : AuthEnv) (disabled : List String) : AuthPhase → Prop
  | .validateSession session => TokenOk env session ∧ isJwtFormat session.token = true
  | .sessionValidated session valid => valid = true → Allowed disabled session
  | .refresh session _ | .refreshed session _ _ | .confirmExpiry session
  | .expiryConfirmed session _ | .creating _ session | .created session =>
    Allowed disabled session
  | .oauth token fallback => isJwtFormat token = true → fallback = false
  | .traditional token => isJwtFormat token = false
  | .validated token context => ∀ c, context = some c →
    c.authContext.userId ∉ disabled ∧
    (isJwtFormat token = true → env.oauthUserId token = some c.authContext.userId)
  | .removing _ | .anonymousServers => True

/-- What holds of the end of a stretch of `authenticate`. -/
def FlowOk (env : AuthEnv) (disabled : List String) : AuthState.Flow → Prop
  | .awaits phase => PhaseOk env disabled phase
  | .passes session => Allowed disabled session
  | .skips | .rejects => True

/-! ## Validation -/

/-- Only an enabled user's row gives an authentication context. -/
theorem OAuthTokenValidator.validateRow_eq_some {env : AuthEnv} {now : Timestamp}
    {userId : String} {row : Option UserRow} {context : SessionContext}
    (h : validateRow env now userId row = some context) :
    (∃ r, row = some r ∧ r.status = .enabled) ∧ context.authContext.userId = userId := by
  simp only [validateRow] at h
  split at h
  · cases h
  · next r =>
    split at h
    · cases h
    · next hstatus =>
      split at h
      · cases h
      · exact ⟨⟨r, rfl, not_not.mp hstatus⟩, userId_authContext h⟩

theorem TokenValidator.validateRow_eq_some {env : AuthEnv} {now : Timestamp} {userId : String}
    {row : Option UserRow} {context : SessionContext}
    (h : validateRow env now userId row = some context) :
    (∃ r, row = some r ∧ r.status = .enabled) ∧ context.authContext.userId = userId := by
  simp only [validateRow] at h
  split at h
  · cases h
  · next r =>
    split at h
    · cases h
    · next hstatus =>
      split at h
      · cases h
      · have hcontext := (Option.filter_eq_some_iff.mp h).1
        exact ⟨⟨r, rfl, not_not.mp hstatus⟩, userId_authContext hcontext⟩

namespace AuthState

variable {env : AuthEnv}

/-- The rows of these users say that they are disabled. -/
def RowsDisabled (s : AuthState) (disabled : List String) : Prop :=
  ∀ userId ∈ disabled, ∀ row, s.users.get? userId = some row → row.status = .disabled

variable {s : AuthState} {disabled : List String}

/-- A user whose row is read as enabled is not one of the disabled ones. -/
theorem RowsDisabled.notMem (h : s.RowsDisabled disabled) {userId : String}
    (henabled : ∃ r, s.users.get? userId = some r ∧ r.status = .enabled) :
    userId ∉ disabled := by
  obtain ⟨r, hr, hstatus⟩ := henabled
  intro hmem
  have hdisabled := h userId hmem r hr
  rw [hstatus] at hdisabled
  cases hdisabled

/-- The answers of the database keep `PhaseOk`. -/
theorem phaseOk_readPhase {active : Bool}
    {phase phase' : AuthPhase} (hrows : s.RowsDisabled disabled) (h : PhaseOk env disabled phase)
    (hread : s.readPhase env active phase = some phase') : PhaseOk env disabled phase' := by
  cases phase with
  | validateSession session =>
    cases hread
    intro hvalid hkind
    cases active with
    | false => simp at hvalid
    | true =>
      have huser := h.1 hkind h.2
      simp only [huser, if_true, Option.bind_some, Option.isSome_iff_exists] at hvalid
      obtain ⟨context, hcontext⟩ := hvalid
      exact hrows.notMem (OAuthTokenValidator.validateRow_eq_some hcontext).1
  | refresh _ _ | confirmExpiry _ =>
    cases hread
    exact h
  | oauth token fallback =>
    simp only [readPhase] at hread
    split at hread
    -- the other validator is tried next
    · cases hread
      cases hjwt : isJwtFormat token with
      | false => exact hjwt
      | true => cases h hjwt
    · cases hread
      intro c hc
      cases active with
      | false => simp at hc
      | true =>
        simp only [if_true, Option.bind_eq_some_iff] at hc
        obtain ⟨userId, huser, hcontext⟩ := hc
        obtain ⟨henabled, hsame⟩ := OAuthTokenValidator.validateRow_eq_some hcontext
        rw [hsame]
        exact ⟨hrows.notMem henabled, fun _ => huser⟩
  | traditional token =>
    cases hread
    intro c hc
    obtain ⟨henabled, hsame⟩ := TokenValidator.validateRow_eq_some hc
    rw [hsame]
    refine ⟨hrows.notMem henabled, ?_⟩
    intro hjwt
    rw [show isJwtFormat token = false from h] at hjwt
    cases hjwt
  | sessionValidated _ _ | refreshed _ _ _ | expiryConfirmed _ _ | removing _ | validated _ _
  | anonymousServers | creating _ _ | created _ => cases hread

theorem flowOk_checkExpiry {session : StoredSession}
    (h : Allowed disabled session) : FlowOk env disabled (s.checkExpiry session) := by
  simp only [checkExpiry]
  split
  · exact h
  · split
    · exact h
    · exact h

theorem flowOk_refreshUserInfoIfNeeded {session : StoredSession} (h : Allowed disabled session) :
    FlowOk env disabled (s.refreshUserInfoIfNeeded session) := by
  simp only [refreshUserInfoIfNeeded]
  split
  · exact flowOk_checkExpiry h
  · split
    · exact h
    · split
      · exact h
      · exact flowOk_checkExpiry h

/-! ## The invariant -/

/-- A disable of the user has begun to remove the user's sessions, or has returned. -/
def removesSessionsOf (s : AuthState) (userId : String) : Bool :=
  s.disabled.contains userId || s.disables.any fun _ disable =>
    disable.1 == userId && match disable.2 with
      | .removing _ => true
      | _ => false

/-- Condition on a step: a session whose token is not validated again is stored only before a
    disable of its user begins to remove sessions, and a user's set of session ids is not deleted
    with a live one of these in it. -/
def timely (s : AuthState) (a : AuthAction) : Bool :=
  match s.storeAction a with
  | some (.createCompletes operation) =>
    match s.sessions.operations.get? operation with
    | some (.createSession _ session) =>
      !session.isOpaque || !s.removesSessionsOf session.userId
    | _ => true
  | some b => s.sessions.keepsListed StoredSession.isOpaque b
  | none => true

/-- The part of the invariant about the session store. -/
structure StoreOk (env : AuthEnv) (s : AuthState) : Prop where
  listed : s.sessions.LiveListed StoredSession.isOpaque
  live : ∀ id session, s.sessions.store.sessions.get? id = some session → TokenOk env session
  creating : ∀ i id session,
    s.sessions.operations.get? i = some (.createSession id session) → TokenOk env session
  leaving : ∀ d userId operation, s.disables.get? d = some (userId, .removing operation) →
    s.sessions.Leaving StoredSession.isOpaque operation userId
  left : ∀ userId ∈ s.disabled, s.sessions.Leaving StoredSession.isOpaque none userId

/-- The part of the invariant about the table `user`. -/
structure UsersOk (s : AuthState) : Prop where
  disables : ∀ d userId phase, s.disables.get? d = some (userId, phase) →
    (phase = .updated ∨ ∃ operation, phase = .removing operation) →
    ∀ row, s.users.get? userId = some row → row.status = .disabled
  disabled : s.RowsDisabled s.disabled

/-- The part of the invariant about the requests. -/
structure RequestsOk (env : AuthEnv) (s : AuthState) : Prop where
  pending : ∀ r pending, s.requests.get? r = some pending →
    (∀ userId ∈ pending.disabled, userId ∈ s.disabled) ∧
    PhaseOk env pending.disabled pending.phase
  passed : ∀ p ∈ s.passed, Allowed p.disabled p.session

variable {a : AuthAction}

/-- What the users whose sessions are being removed need of the session step. -/
theorem noLateSession {b : SessionAction} {userId : String}
    (htimely : s.timely a = true) (hb : s.storeAction a = some b)
    (hremoves : s.removesSessionsOf userId = true) (i : Nat) (id : String)
    (session : StoredSession) (hi : b = .createCompletes i)
    (hop : s.sessions.operations.get? i = some (.createSession id session))
    (huser : session.userId = userId) : session.isOpaque = false := by
  subst hi
  simp only [timely, hb, hop, huser, hremoves, Bool.not_true, Bool.or_false,
    Bool.not_eq_true'] at htimely
  exact htimely

variable {s' : AuthState}

/-- A step that touches no disable keeps the part about the session store. -/
theorem StoreOk.of_storeAction (h : s.StoreOk env)
    (hacts : Acts env s a s') (htimely : s.timely a = true)
    (htoken : ∀ requested authContext token generated,
      s.storeAction a = some (.connect requested authContext token generated) →
      getAuthKind authContext = .authenticated → isJwtFormat token = true →
      env.oauthUserId token = some authContext.userId)
    (hdisables : ∀ d userId operation, s'.disables.get? d = some (userId, .removing operation) →
      s.disables.get? d = some (userId, .removing operation) ∨
      s'.sessions.Leaving StoredSession.isOpaque operation userId)
    (hdisabled : ∀ userId ∈ s'.disabled, userId ∈ s.disabled ∨
      s'.sessions.Leaving StoredSession.isOpaque none userId) : s'.StoreOk env := by
  rcases hacts.store_steps with hstore | ⟨b, hb, hsteps⟩
  · rw [hstore] at hdisables hdisabled
    constructor
    case listed =>
      rw [hstore]
      exact h.listed
    case live =>
      rw [hstore]
      exact h.live
    case creating =>
      rw [hstore]
      exact h.creating
    case leaving =>
      rw [hstore]
      intro d userId operation hd
      rcases hdisables d userId operation hd with hold | hnew
      · exact h.leaving d userId operation hold
      · exact hnew
    case left =>
      rw [hstore]
      intro userId hmem
      rcases hdisabled userId hmem with hold | hnew
      · exact h.left userId hold
      · exact hnew
  have hremoves : ∀ d userId operation, s.disables.get? d = some (userId, .removing operation) →
      s.removesSessionsOf userId = true := by
    intro d userId operation hd
    have hany : (s.disables.any fun _ disable => disable.1 == userId && match disable.2 with
        | .removing _ => true
        | _ => false) = true :=
      Table.any_eq_true.mpr ⟨d, _, hd, by simp⟩
    simp only [removesSessionsOf, hany, Bool.or_true]
  have hkeeps : s.sessions.keepsListed StoredSession.isOpaque b = true := by
    cases b with
    | createCompletes _ => rfl
    | _ => simpa only [timely, hb] using htimely
  constructor
  case listed => exact h.listed.steps hsteps hkeeps
  case live =>
    intro id session hsession
    rcases SessionState.sessions_steps hsteps hsession with hold | ⟨i, _, hop⟩
    · exact h.live id session hold
    · exact h.creating i id session hop
  case creating =>
    intro i id session hop
    rcases SessionState.createSession_steps hsteps hop with
      hold | ⟨_, _, _, _, rfl, huser, htok, hkind⟩
    · exact h.creating i id session hold
    · intro hauth hjwt
      rw [hkind] at hauth
      rw [htok] at hjwt
      rw [huser, htok]
      exact htoken _ _ _ _ hb hauth hjwt
  case leaving =>
    intro d userId operation hd
    rcases hdisables d userId operation hd with hold | hnew
    · exact (h.leaving d userId operation hold).steps hsteps
        (noLateSession htimely hb (hremoves d userId operation hold))
    · exact hnew
  case left =>
    intro userId hmem
    rcases hdisabled userId hmem with hold | hnew
    · refine (h.left userId hold).steps hsteps (noLateSession htimely hb ?_)
      simp [removesSessionsOf, hold]
    · exact hnew

/-! ## The steps -/

/-- A request that goes on. -/
theorem RequestsOk.advance {s s' : AuthState} (h : s.RequestsOk env)
    (hrequests : s'.requests = s.requests) (hpassed : s'.passed = s.passed)
    (hdisabled : s'.disabled = s.disabled) {r : Nat} {pending : PendingRequest}
    (hr : s.requests.get? r = some pending) {flow : Flow}
    (hflow : FlowOk env pending.disabled flow) : (s'.advance r pending flow).RequestsOk env := by
  have hr' : s'.requests.get? r = some pending := by rw [hrequests, hr]
  cases flow with
  | awaits phase =>
    constructor
    · intro r' pending' hr''
      simp only [AuthState.advance, Table.get?_put hr'] at hr''
      simp only [AuthState.advance, hdisabled]
      split at hr''
      · cases hr''
        exact ⟨(h.pending r pending hr).1, hflow⟩
      · rw [hrequests] at hr''
        exact h.pending r' pending' hr''
    · simp only [AuthState.advance, hpassed]
      exact h.passed
  | passes session =>
    constructor
    · intro r' pending' hr''
      simp only [AuthState.advance] at hr'' ⊢
      have hold := (Table.get?_of_get?_erase hr'').2
      rw [hrequests] at hold
      rw [hdisabled]
      exact h.pending r' pending' hold
    · intro p hp
      simp only [AuthState.advance, hpassed, List.mem_append, List.mem_singleton] at hp
      rcases hp with hp | rfl
      · exact h.passed p hp
      · exact hflow
  | skips | rejects =>
    constructor
    · intro r' pending' hr''
      simp only [AuthState.advance] at hr'' ⊢
      have hold := (Table.get?_of_get?_erase hr'').2
      rw [hrequests] at hold
      rw [hdisabled]
      exact h.pending r' pending' hold
    · simp only [AuthState.advance, hpassed]
      exact h.passed

/-- A request that arrives on a live session is of a user who has not been disabled, or its token
    is validated again. -/
theorem flowOk_authenticate (h : s.StoreOk env) (request : AuthRequest) :
    FlowOk env s.disabled (s.authenticate request) := by
  simp only [authenticate]
  split
  · next session hfound =>
    obtain ⟨sessionId, _, hsession⟩ := Option.bind_eq_some_iff.mp hfound
    split at hsession
    · cases hsession
    split
    · next hjwt => exact ⟨h.live sessionId session hsession, hjwt⟩
    · next hjwt =>
      apply flowOk_refreshUserInfoIfNeeded
      intro hkind hmem
      have hopaque : session.isOpaque = true := by
        simp [StoredSession.isOpaque, hkind, hjwt]
      obtain ⟨i, _, hnone, _⟩ := h.left session.userId hmem sessionId session hsession rfl hopaque
      cases hnone
  · split
    · trivial
    · split
      · trivial
      · split
        · trivial
        · split
          · split
            · trivial
            · trivial
          · next token _ =>
            split
            · exact fun _ => rfl
            · next hjwt =>
              have hjwt : isJwtFormat token = false := by simpa using hjwt
              split
              · exact hjwt
              · intro hjwt'
                rw [hjwt] at hjwt'
                cases hjwt'

theorem RequestsOk.arrive (h : s.RequestsOk env) (hstore : s.StoreOk env)
    (request : AuthRequest) : (s.arrive request).RequestsOk env := by
  have hflow := flowOk_authenticate hstore request
  simp only [AuthState.arrive]
  split
  · next phase heq =>
    rw [heq] at hflow
    constructor
    · intro r pending hr
      simp only [Table.get?_add] at hr
      split at hr
      · cases hr
        exact ⟨fun _ hmem => hmem, hflow⟩
      · exact h.pending r pending hr
    · exact h.passed
  · next session heq =>
    rw [heq] at hflow
    refine ⟨h.pending, ?_⟩
    intro p hp
    rcases List.mem_append.mp hp with hp | hp
    · exact h.passed p hp
    · obtain rfl := List.mem_singleton.mp hp
      exact hflow
  · exact h
  · exact h

theorem RequestsOk.createSession (h : s.RequestsOk env) {r : Nat}
    {pending : PendingRequest} (hr : s.requests.get? r = some pending) {context : SessionContext}
    {token generated : String}
    (hallowed : getAuthKind context.authContext = .authenticated →
      context.authContext.userId ∉ pending.disabled)
    (hs : s.createSession env r pending context token generated = some s') :
    s'.RequestsOk env := by
  simp only [AuthState.createSession] at hs
  split at hs
  · cases hs
  · split at hs
    · cases hs
      refine h.advance ?_ ?_ ?_ hr ?_ <;> first | rfl | trivial
    · cases hs
      refine h.advance ?_ ?_ ?_ hr ?_ <;> first | rfl | exact hallowed

theorem RequestsOk.step (h : s.RequestsOk env)
    (hstore : s.StoreOk env) (husers : s.UsersOk) (hacts : Acts env s a s') :
    s'.RequestsOk env := by
  cases hadmin : ofAdmin a with
  | true =>
    obtain ⟨hrequests, hpassed⟩ := hacts.sameRequests hadmin
    constructor
    · intro r pending hr
      rw [hrequests] at hr
      refine ⟨?_, (h.pending r pending hr).2⟩
      intro userId hmem
      exact hacts.disabled_subset userId ((h.pending r pending hr).1 userId hmem)
    · rw [hpassed]
      exact h.passed
  | false =>
    cases hacts with
    | arrives request => exact h.arrive hstore request
    | @reads r pending active phase hr hphase =>
      have hrows : s.RowsDisabled pending.disabled := by
        intro userId hmem
        exact husers.disabled userId ((h.pending r pending hr).1 userId hmem)
      exact @RequestsOk.advance env s s h rfl rfl rfl r pending hr (.awaits phase)
        (phaseOk_readPhase hrows (h.pending r pending hr).2 hphase)
    | @sessionValidated r pending generated session hr hphase =>
      have hok := (h.pending r pending hr).2
      rw [hphase] at hok
      exact h.advance rfl rfl rfl hr (flowOk_refreshUserInfoIfNeeded (hok rfl))
    | removes hr _ _ => refine h.advance ?_ ?_ ?_ hr ?_ <;> first | rfl | trivial
    | refused hr _ => refine h.advance ?_ ?_ ?_ hr ?_ <;> first | rfl | trivial
    | anonymousRefused hr => refine h.advance ?_ ?_ ?_ hr ?_ <;> first | rfl | trivial
    | createFails hr _ _ => refine h.advance ?_ ?_ ?_ hr ?_ <;> first | rfl | trivial
    | @refreshed r pending generated session now user hr hphase =>
      have hok := (h.pending r pending hr).2
      rw [hphase] at hok
      refine h.advance ?_ ?_ ?_ hr (flowOk_checkExpiry hok)
      all_goals
        simp only [applyRefresh]
        split <;> rfl
    | @renewed r pending _ _ _ hr hphase _ | @createCompletes r pending _ _ _ hr hphase _ =>
      have hok := (h.pending r pending hr).2
      rw [hphase] at hok
      refine h.advance ?_ ?_ ?_ hr ?_ <;> first | rfl | exact hok
    | @connects r pending generated token context s' hr hphase hs =>
      have hok := (h.pending r pending hr).2
      rw [hphase] at hok
      exact h.createSession hr (fun _ => (hok context rfl).1) hs
    | anonymousConnects hr hs =>
      refine h.createSession hr ?_ hs
      intro hkind
      cases hkind
    | @authLogged r pending session ok hr hphase =>
      have hok := (h.pending r pending hr).2
      rw [hphase] at hok
      refine h.advance rfl rfl rfl hr ?_
      cases ok with
      | true => exact hok
      | false => trivial
    | store _ _ => exact ⟨h.pending, h.passed⟩
    | disableUser _ | disableReads _ _ _ | disableWrites _ _ | disableRemoves _
    | disableReturns _ _ | updateUserPermissions _ _ | updateReads _ _ | updateWrites _ _
    | updatePushes _ _ => cases hadmin
    | disableThrows hthrows => rcases hthrows with rfl | rfl <;> cases hadmin
    | updateEnds hends _ _ => rcases hends with rfl | rfl <;> cases hadmin

/-- Writes of the table that do not enable a user. -/
theorem UsersOk.of_users (h : s.UsersOk) (husers : ∀ userId row, s'.users.get? userId = some row →
      row.status = .disabled ∨ ∃ row₀, s.users.get? userId = some row₀ ∧ row.status = row₀.status)
    (hdisables : ∀ d userId phase, s'.disables.get? d = some (userId, phase) →
      (phase = .updated ∨ ∃ operation, phase = .removing operation) →
      (∃ d' phase', s.disables.get? d' = some (userId, phase') ∧
        (phase' = .updated ∨ ∃ operation, phase' = .removing operation)) ∨
      ∀ row, s'.users.get? userId = some row → row.status = .disabled)
    (hdisabled : ∀ userId ∈ s'.disabled, userId ∈ s.disabled ∨
      ∃ d operation, s.disables.get? d = some (userId, .removing operation)) : s'.UsersOk where
  disables := by
    intro d userId phase hd hphase row hrow
    rcases hdisables d userId phase hd hphase with ⟨d', phase', hold, hphase'⟩ | hwritten
    · rcases husers userId row hrow with hstatus | ⟨row₀, hrow₀, hstatus⟩
      · exact hstatus
      · rw [hstatus]
        exact h.disables d' userId phase' hold hphase' row₀ hrow₀
    · exact hwritten row hrow
  disabled := by
    intro userId hmem row hrow
    rcases husers userId row hrow with hstatus | ⟨row₀, hrow₀, hstatus⟩
    · exact hstatus
    · rw [hstatus]
      rcases hdisabled userId hmem with hold | ⟨d, operation, hd⟩
      · exact h.disabled userId hold row₀ hrow₀
      · exact h.disables d userId _ hd (.inr ⟨operation, rfl⟩) row₀ hrow₀

theorem UsersOk.step (h : s.UsersOk) (hacts : Acts env s a s') : s'.UsersOk := by
  -- a step that writes no row, and what it may do to the disables
  have hsame : s'.users = s.users →
      (∀ d userId phase, s'.disables.get? d = some (userId, phase) →
        (phase = .updated ∨ ∃ operation, phase = .removing operation) →
        ∃ d' phase', s.disables.get? d' = some (userId, phase') ∧
          (phase' = .updated ∨ ∃ operation, phase' = .removing operation)) →
      (∀ userId ∈ s'.disabled, userId ∈ s.disabled ∨
        ∃ d operation, s.disables.get? d = some (userId, .removing operation)) → s'.UsersOk := by
    intro husers hdisables hdisabled
    refine h.of_users ?_ (fun d userId phase hd hphase => .inl (hdisables d userId phase hd hphase))
      hdisabled
    intro userId row hrow
    rw [husers] at hrow
    exact .inr ⟨row, hrow, rfl⟩
  cases hadmin : ofAdmin a with
  | false =>
    have hkept := hacts.sameAdmin hadmin
    refine hsame hkept.users ?_ ?_
    · intro d userId phase hd hphase
      rw [hkept.disables] at hd
      exact ⟨d, phase, hd, hphase⟩
    · intro userId hmem
      rw [hkept.disabled] at hmem
      exact .inl hmem
  | true =>
    have hold : ∀ d userId phase, s.disables.get? d = some (userId, phase) →
        (phase = .updated ∨ ∃ operation, phase = .removing operation) →
        ∃ d' phase', s.disables.get? d' = some (userId, phase') ∧
          (phase' = .updated ∨ ∃ operation, phase' = .removing operation) :=
      fun d userId phase hd hphase => ⟨d, phase, hd, hphase⟩
    cases hacts with
    | disableUser targetId =>
      refine hsame rfl ?_ (fun _ hmem => .inl hmem)
      intro d userId phase hd hphase
      simp only [Table.get?_add] at hd
      split at hd
      · obtain ⟨rfl, rfl⟩ := Prod.mk.inj (Option.some.inj hd)
        simp at hphase
      · exact hold d userId phase hd hphase
    | @disableThrows a d hthrows =>
      refine hsame rfl ?_ (fun _ hmem => .inl hmem)
      intro d' userId phase hd hphase
      exact hold d' userId phase (Table.get?_of_get?_erase hd).2 hphase
    | @disableReads d targetId user hd huser hrole =>
      refine hsame rfl ?_ (fun _ hmem => .inl hmem)
      intro d' userId phase hd' hphase
      simp only [Table.get?_put hd] at hd'
      split at hd'
      · obtain ⟨rfl, rfl⟩ := Prod.mk.inj (Option.some.inj hd')
        simp at hphase
      · exact hold d' userId phase hd' hphase
    | @disableWrites d targetId user hd huser =>
      refine h.of_users ?_ ?_ (fun _ hmem => .inl hmem)
      · intro userId row hrow
        simp only [Dict.get?_set] at hrow
        split at hrow
        · cases hrow
          exact .inl rfl
        · exact .inr ⟨row, hrow, rfl⟩
      · intro d' userId phase hd' hphase
        simp only [Table.get?_put hd] at hd'
        split at hd'
        · obtain ⟨rfl, rfl⟩ := Prod.mk.inj (Option.some.inj hd')
          right
          intro row hrow
          simp only [Dict.get?_set_self] at hrow
          cases hrow
          rfl
        · exact .inl (hold d' userId phase hd' hphase)
    | @disableRemoves d targetId hd =>
      refine hsame rfl ?_ (fun _ hmem => .inl hmem)
      intro d' userId phase hd' hphase
      simp only [Table.get?_put hd] at hd'
      split at hd'
      · obtain ⟨rfl, rfl⟩ := Prod.mk.inj (Option.some.inj hd')
        exact ⟨d, .updated, hd, .inl rfl⟩
      · exact hold d' userId phase hd' hphase
    | @disableReturns d targetId operation hd hdone =>
      refine hsame rfl ?_ ?_
      · intro d' userId phase hd' hphase
        exact hold d' userId phase (Table.get?_of_get?_erase hd').2 hphase
      · intro userId hmem
        rcases List.mem_cons.mp hmem with rfl | hmem
        · exact .inr ⟨d, operation, hd⟩
        · exact .inl hmem
    | @updateWrites u targetId permissions user hu huser =>
      refine h.of_users ?_ (fun d userId phase hd hphase => .inl (hold d userId phase hd hphase))
        (fun _ hmem => .inl hmem)
      intro userId row hrow
      simp only [Dict.get?_set] at hrow
      split at hrow
      · next heq =>
        subst heq
        cases hrow
        exact .inr ⟨user, huser, rfl⟩
      · exact .inr ⟨row, hrow, rfl⟩
    | updateUserPermissions _ _ | updateEnds _ _ _ | updateReads _ _
    | updatePushes _ _ => exact ⟨h.disables, h.disabled⟩
    | _ => cases hadmin

/-- The tokens of the sessions that requests make. -/
theorem RequestsOk.connect_token (h : s.RequestsOk env)
    {requested : Option String} {authContext : AuthContext} {token generated : String}
    (hacts : Acts env s a s')
    (hstore : s.storeAction a = some (.connect requested authContext token generated))
    (hkind : getAuthKind authContext = .authenticated) (hjwt : isJwtFormat token = true) :
    env.oauthUserId token = some authContext.userId := by
  cases storeActs_of_storeAction hstore with
  | @connects r _ _ _ context _ hr => exact ((h.pending r _ hr).2 context rfl).2 hjwt
  -- the session would be an anonymous one
  | anonymousConnects _ => cases hkind
  | store =>
    have hof := hacts.ofStore
    cases hof

theorem StoreOk.step (h : s.StoreOk env)
    (hrequests : s.RequestsOk env) (hacts : Acts env s a s') (htimely : s.timely a = true) :
    s'.StoreOk env := by
  refine h.of_storeAction hacts htimely
    (fun _ _ _ _ hstore hkind hjwt => hrequests.connect_token hacts hstore hkind hjwt) ?_ ?_
  · intro d userId operation hd
    cases hadmin : ofAdmin a with
    | false =>
      rw [(hacts.sameAdmin hadmin).disables] at hd
      exact .inl hd
    | true =>
      cases hacts with
      | disableUser targetId =>
        simp only [Table.get?_add] at hd
        split at hd
        · cases Option.some.inj hd
        · exact .inl hd
      | disableThrows _ | disableReturns _ _ => exact .inl (Table.get?_of_get?_erase hd).2
      | disableReads hd' _ _ | disableWrites hd' _ =>
        simp only [Table.get?_put hd'] at hd
        split at hd
        · cases Option.some.inj hd
        · exact .inl hd
      | @disableRemoves d' targetId hd' =>
        simp only [Table.get?_put hd'] at hd
        split at hd
        · obtain ⟨rfl, hphase⟩ := Prod.mk.inj (Option.some.inj hd)
          obtain rfl := DisablePhase.removing.inj hphase
          exact .inr (SessionState.leaving_removeAllUserSessions h.listed targetId)
        · exact .inl hd
      | _ => first | exact .inl hd | cases hadmin
  · intro userId hmem
    cases hadmin : ofAdmin a with
    | false =>
      rw [(hacts.sameAdmin hadmin).disabled] at hmem
      exact .inl hmem
    | true =>
      cases hacts with
      | @disableReturns d targetId operation hd hdone =>
        rcases List.mem_cons.mp hmem with rfl | hmem
        -- the removal has ended, so nothing is left of what it has found
        · right
          intro id session hsession huser hopaque
          obtain ⟨i, closePromises, rfl, hop, _⟩ :=
            h.leaving d userId operation hd id session hsession huser hopaque
          simp [hop] at hdone
        · exact .inl hmem
      | _ => first | exact .inl hmem | cases hadmin

/-! ## Runs -/

/-- In every run whose steps are timely, no request is let through as a user whose `disableUser`
    had returned when the request arrived. -/
theorem disabled_user_is_out (env : AuthEnv) (now : Timestamp) (users : Dict UserRow)
    (trs : List (Transition AuthState AuthAction)) (s : AuthState)
    (hrun : IsRun (step env) (init now users) trs s)
    (htimely : ∀ tr ∈ trs, tr.pre.timely tr.act = true) :
    ∀ p ∈ s.passed, p.session.authKind = .authenticated → p.session.userId ∉ p.disabled := by
  have hok : s.StoreOk env ∧ s.UsersOk ∧ s.RequestsOk env := by
    refine IsRun.history_of (G := fun tr => tr.pre.timely tr.act = true)
      (P := fun _ s => s.StoreOk env ∧ s.UsersOk ∧ s.RequestsOk env) ?_ ?_ hrun htimely
    · refine ⟨?_, ?_, ?_⟩
      · constructor <;>
          simp [init, SessionState.init, SessionStore.empty, SessionState.LiveListed]
      · constructor <;> simp [init, RowsDisabled]
      · constructor <;> simp [init]
    · rintro _ s a s' _ ⟨hstore, husers, hrequests⟩ hs htimely
      have hacts := acts_of_step hs
      exact ⟨hstore.step hrequests hacts htimely, husers.step hacts,
        hrequests.step hstore husers hacts⟩
  exact hok.2.2.passed

/-- One user, whose token is not a JWT. -/
def exampleEnv : AuthEnv :=
  { oauthUserId := fun _ => none
    calculateUserId := fun _ => "ab03"
    parsePermissions := fun _ => some .empty
    fingerprintToken := id }

def exampleUsers : Dict UserRow :=
  Dict.empty.set "ab03"
    { role := .user, status := .enabled, permissions := "\x7b\x7d", userPreferences := ""
      expiresAt := 0 }

def initializeRequest : AuthRequest :=
  { method := .post, sessionId := none, isInitializeRequest := true, token := some "secret"
    hasAuthAttempt := true, requestsAnonymous := false }

/-- A request on an existing session. -/
def sessionRequest (sessionId : String) : AuthRequest :=
  { method := .post, sessionId := some sessionId, isInitializeRequest := false, token := none
    hasAuthAttempt := false, requestsAnonymous := false }

/-- The user connects and makes a request, is disabled, and tries both again. -/
def disableActions : List AuthAction :=
  [.arrives initializeRequest, .reads 0 true, .reads 0 true, .continues 0 "session-4",
    .createCompletes 0, .authLogged 0 true, .arrives (sessionRequest "session-4"),
    .disableUser "ab03", .disableReads 0, .disableWrites 0, .disableRemoves 0,
    .store (.userCleanupEnds 1 "session-4"), .store (.userCloseEnds 1 "session-4"),
    .store (.userSessionsClosed 1), .store (.operationReturns 1), .disableReturns 0,
    .arrives (sessionRequest "session-4"), .arrives initializeRequest, .reads 1 true,
    .reads 1 true, .continues 1 "session-5"]

theorem disabled_user_is_out_disableActions :
    ∃ s, exec (step exampleEnv) (init 0 exampleUsers) disableActions = some s ∧
      s.disabled = ["ab03"] ∧
      ∀ p ∈ s.passed, p.session.authKind = .authenticated → p.session.userId ∉ p.disabled := by
  refine ⟨(exec (step exampleEnv) (init 0 exampleUsers) disableActions).get (by decide), by simp,
    by decide, ?_⟩
  apply disabled_user_is_out exampleEnv 0 exampleUsers
    (trace (step exampleEnv) (init 0 exampleUsers) disableActions)
  · exact isRun_trace _ _ _ (by simp)
  · decide

/-- The token is validated before the user is disabled, the session is made afterwards. -/
def lateSessionActions : List AuthAction :=
  [.arrives initializeRequest, .reads 0 true, .reads 0 true, .disableUser "ab03",
    .disableReads 0, .disableWrites 0, .disableRemoves 0, .disableReturns 0,
    .continues 0 "session-4", .createCompletes 0, .authLogged 0 true,
    .arrives (sessionRequest "session-4")]

/-- A disabled user can be let through, on a session whose creation was in progress. -/
theorem disabled_user_is_in :
    ¬ ∀ (env : AuthEnv) (now : Timestamp) (users : Dict UserRow)
      (trs : List (Transition AuthState AuthAction)) (s : AuthState),
      IsRun (step env) (init now users) trs s →
      ∀ p ∈ s.passed, p.session.authKind = .authenticated → p.session.userId ∉ p.disabled := by
  intro h
  have hrun : IsRun (step exampleEnv) (init 0 exampleUsers)
      (trace (step exampleEnv) (init 0 exampleUsers) lateSessionActions)
      ((exec (step exampleEnv) (init 0 exampleUsers) lateSessionActions).get (by decide)) :=
    isRun_trace _ _ _ (by simp)
  have hpassed : ⟨⟨0, "ab03", "secret", .authenticated⟩, ["ab03"]⟩ ∈
      ((exec (step exampleEnv) (init 0 exampleUsers) lateSessionActions).get
        (by decide)).passed := by
    decide
  exact h exampleEnv 0 exampleUsers _ _ hrun _ hpassed rfl (by simp)

end AuthState

end PetaCore
