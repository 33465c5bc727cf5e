import PetaCore.Core.SessionStore

/-!
# AuthMiddleware

Every request of the MCP endpoint goes through `authenticate`, which lets it through with the
session that it names or with a new one. Beside the requests, administrators disable users and
change their permissions. All of them read and write the table `user` and the session store with
awaits in between, so that they interleave.

A read of the database and what the code does with the answer are two steps. The code between two
awaits is one step.
-/

namespace PetaCore

/-- A row of the table `user`. -/
structure UserRow where
  role : UserRole
  status : UserStatus
  permissions : String
  userPreferences : String
  /-- in seconds; zero for none -/
  expiresAt : Int
deriving DecidableEq

/-- The parts of the runtime that are not modelled. -/
structure AuthEnv where
  /-- the user id in an access token, when `jwt.verify` accepts the token -/
  oauthUserId : String → Option String
  calculateUserId : String → String
  /-- `JSON.parse` of a column with permissions -/
  parsePermissions : String → Option Permissions
  fingerprintToken : String → String

/-- What changes of a `ClientSession`. -/
structure SessionContext where
  authContext : AuthContext
  expiresAt : Option Int
  lastUserInfoRefresh : Option Timestamp

def isJwtFormat (token : String) : Bool :=
  token.toList.contains '.' && token.toList.count '.' + 1 == 3

/-- `/^[a-f0-9]{128}$/i` -/
def isHexFormat (token : String) : Bool :=
  token.toList.length == 128 &&
    token.toList.all fun c => c.isDigit || ('a' ≤ c && c ≤ 'f') || ('A' ≤ c && c ≤ 'F')

/-- `isValidPermissions`, for what has the type already -/
def isValidPermissions (permissions : Permissions) : Bool :=
  permissions.values.all (·.enabled.isSome)

/-- `Math.floor(now / 1000) > expiresAt`, where zero is no limit. -/
def hasExpired (now : Timestamp) (expiresAt : Int) : Bool :=
  decide (expiresAt > 0) && decide (now / 1000 > expiresAt)

/-- `expiresAt && expiresAt > 0 ? expiresAt : null` -/
def expiryOf (expiresAt : Int) : Option Int := if expiresAt > 0 then some expiresAt else none

/-- The authentication context of a user's row. -/
def UserRow.authContext (row : UserRow) (env : AuthEnv) (userId : String) :
    Option SessionContext :=
  let userPreferences := if row.userPreferences = "" then "\x7b\x7d" else row.userPreferences
  match env.parsePermissions row.permissions, env.parsePermissions userPreferences with
  | some permissions, some userPreferences =>
    some
      { authContext := { anonymous := false, userId, permissions, userPreferences }
        expiresAt := expiryOf row.expiresAt
        lastUserInfoRefresh := none }
  | _, _ => none

/-- `TokenValidator.validateToken`, from the user's row on. -/
def TokenValidator.validateRow (env : AuthEnv) (now : Timestamp) (userId : String)
    (row : Option UserRow) : Option SessionContext :=
  match row with
  | none => none
  | some row =>
    if row.status ≠ .enabled then none
    else if hasExpired now row.expiresAt then none
    else (row.authContext env userId).filter fun context =>
      isValidPermissions context.authContext.permissions

/-- `OAuthTokenValidator.validateToken`, from the user's row on. -/
def OAuthTokenValidator.validateRow (env : AuthEnv) (now : Timestamp) (userId : String)
    (row : Option UserRow) : Option SessionContext :=
  match row with
  | none => none
  | some row =>
    if row.status ≠ .enabled then none
    else if hasExpired now row.expiresAt then none
    else row.authContext env userId

/-- `ClientSession.isExpired` -/
def SessionContext.isExpired (context : SessionContext) (now : Timestamp) : Bool :=
  match context.expiresAt with
  | none => false
  | some expiresAt => decide (expiresAt ≠ 0) && decide (now / 1000 > expiresAt)

inductive HttpMethod where
  | post
  | delete
  | other
deriving DecidableEq

/-- What `authenticate` reads of a request. -/
structure AuthRequest where
  method : HttpMethod
  /-- the header `Mcp-Session-Id` -/
  sessionId : Option String
  isInitializeRequest : Bool
  token : Option String
  hasAuthAttempt : Bool
  requestsAnonymous : Bool
deriving DecidableEq

/-- Where a request is that `authenticate` has not yet answered. -/
inductive AuthPhase where
  /-- awaits the validation of the token of an existing session -/
  | validateSession (session : StoredSession)
  | sessionValidated (session : StoredSession) (valid : Bool)
  /-- awaits the row that `refreshUserInfo` asks for -/
  | refresh (session : StoredSession) (now : Timestamp)
  | refreshed (session : StoredSession) (now : Timestamp) (user : Option UserRow)
  /-- awaits the row that confirms the expiry -/
  | confirmExpiry (session : StoredSession)
  | expiryConfirmed (session : StoredSession) (user : Option UserRow)
  /-- awaits `removeAllUserSessions` and is then turned down -/
  | removing (operation : Option Nat)
  /-- awaits `OAuthTokenValidator`; whether `TokenValidator` is to be tried next -/
  | oauth (token : String) (fallback : Bool)
  /-- awaits `TokenValidator` -/
  | traditional (token : String)
  | validated (token : String) (context : Option SessionContext)
  /-- awaits the servers with anonymous access -/
  | anonymousServers
  /-- awaits `createSession` -/
  | creating (operation : Nat) (session : StoredSession)
  /-- awaits the log entry of the authentication -/
  | created (session : StoredSession)

/-- A request in `authenticate`. `disabled` is not of the source: the users that had been disabled
    when it arrived. -/
structure PendingRequest where
  request : AuthRequest
  phase : AuthPhase
  disabled : List String

/-- A request that was let through with a session. -/
structure PassedRequest where
  session : StoredSession
  disabled : List String
deriving DecidableEq

/-- A call of `disableUser`. -/
inductive DisablePhase where
  /-- awaits the user's row -/
  | find
  /-- awaits the update of the row -/
  | update
  | updated
  /-- awaits `removeAllUserSessions` -/
  | removing (operation : Option Nat)
deriving DecidableEq

/-- A call of `updateUserPermissions`. -/
inductive PermissionsPhase where
  /-- awaits the user's row -/
  | find
  /-- awaits the update of the row -/
  | update
  /-- the row is written; the sessions have not yet been told -/
  | updated
deriving DecidableEq

/-- The requests, the calls of administrators, the table `user` and the session store. -/
structure AuthState where
  sessions : SessionState
  users : Dict UserRow
  contexts : Nat → Option SessionContext
  requests : Table PendingRequest
  disables : Table (String × DisablePhase)
  updates : Table (String × String × PermissionsPhase)
  /-- not of the source: the users whose `disableUser` has returned -/
  disabled : List String
  /-- not of the source: the requests let through -/
  passed : List PassedRequest

inductive AuthAction where
  | arrives (request : AuthRequest)
  /-- the database answers; `active` is whether the stored access token is still good -/
  | reads (request : Nat) (active : Bool)
  /-- the request goes on; `generated` is a new session id -/
  | continues (request : Nat) (generated : String)
  /-- the servers with anonymous access are there, as permissions -/
  | anonymousConnects (request : Nat) (permissions : Option Permissions) (ipHash generated : String)
  | createCompletes (request : Nat)
  | createFails (request : Nat)
  /-- the log entry is written, or not -/
  | authLogged (request : Nat) (ok : Bool)
  | disableUser (targetId : String)
  | disableReads (disable : Nat)
  | disableWrites (disable : Nat)
  | disableRemoves (disable : Nat)
  | disableReturns (disable : Nat)
  | updateUserPermissions (targetId permissions : String)
  | updateReads (update : Nat)
  | updateWrites (update : Nat)
  | updatePushes (update : Nat)
  /-- a step of the session store that is not one of a request -/
  | store (a : SessionAction)

namespace AuthState

variable (env : AuthEnv)

def init (now : Timestamp) (users : Dict UserRow) : AuthState :=
  { sessions := .init now
    users
    contexts := fun _ => none
    requests := .empty
    disables := .empty
    updates := .empty
    disabled := []
    passed := [] }

def now (s : AuthState) : Timestamp := s.sessions.now

/-! ## Requests -/

/-- How a stretch of `authenticate` ends. -/
inductive Flow where
  | awaits (phase : AuthPhase)
  /-- `next()` with a session -/
  | passes (session : StoredSession)
  /-- `next()` without one -/
  | skips
  | rejects

/-- `USER_INFO_REFRESH_INTERVAL` -/
def userInfoRefreshInterval : Timestamp := 5 * 60 * 1000

/-- `authenticate` from the check of the session's expiry on. -/
def checkExpiry (s : AuthState) (session : StoredSession) : Flow :=
  match s.contexts session.number with
  | none => .passes session
  | some context =>
    if context.isExpired s.now then .awaits (.confirmExpiry session) else .passes session

/-- `authenticate` from `refreshUserInfoIfNeeded` on. -/
def refreshUserInfoIfNeeded (s : AuthState) (session : StoredSession) : Flow :=
  if session.authKind = .anonymous then s.checkExpiry session
  else
    match (s.contexts session.number).bind (·.lastUserInfoRefresh) with
    | none => .awaits (.refresh session s.now)
    | some lastRefresh =>
      if s.now - lastRefresh ≥ userInfoRefreshInterval then .awaits (.refresh session s.now)
      else s.checkExpiry session

/-- `authenticate` up to its first await. -/
def authenticate (s : AuthState) (request : AuthRequest) : Flow :=
  match request.sessionId.bind fun sessionId =>
      if sessionId = "" then none else s.sessions.store.sessions.get? sessionId with
  | some session =>
    if isJwtFormat session.token then .awaits (.validateSession session)
    else s.refreshUserInfoIfNeeded session
  | none =>
    if request.method = .delete ∧ request.sessionId.any (· ≠ "") then .skips
    else if request.method ≠ .post then .skips
    else if !request.isInitializeRequest then .rejects
    else
      match request.token with
      | none =>
        if !request.hasAuthAttempt && request.requestsAnonymous then .awaits .anonymousServers
        else .rejects
      | some token =>
        if isJwtFormat token then .awaits (.oauth token false)
        else if isHexFormat token then .awaits (.traditional token)
        else .awaits (.oauth token true)

/-- The request goes on as `flow` says. -/
def advance (s : AuthState) (r : Nat) (pending : PendingRequest) : Flow → AuthState
  | .awaits phase => { s with requests := s.requests.put r { pending with phase } }
  | .passes session =>
    { s with
      requests := s.requests.erase r
      passed := s.passed ++ [⟨session, pending.disabled⟩] }
  | .skips | .rejects => { s with requests := s.requests.erase r }

/-- A request arrives. -/
def arrive (s : AuthState) (request : AuthRequest) : AuthState :=
  match s.authenticate request with
  | .awaits phase =>
    { s with requests := s.requests.add { request, phase, disabled := s.disabled } }
  | .passes session => { s with passed := s.passed ++ [⟨session, s.disabled⟩] }
  | .skips | .rejects => s

/-- What the database answers in a phase. -/
def readPhase (s : AuthState) (active : Bool) : AuthPhase → Option AuthPhase
  | .validateSession session =>
    let context := if active then
      (env.oauthUserId session.token).bind fun userId =>
        OAuthTokenValidator.validateRow env s.now userId (s.users.get? userId)
      else none
    some (.sessionValidated session context.isSome)
  | .refresh session now => some (.refreshed session now (s.users.get? session.userId))
  | .confirmExpiry session => some (.expiryConfirmed session (s.users.get? session.userId))
  | .oauth token fallback =>
    let context := if active then
      (env.oauthUserId token).bind fun userId =>
        OAuthTokenValidator.validateRow env s.now userId (s.users.get? userId)
      else none
    match context, fallback with
    | none, true => some (.traditional token)
    | context, _ => some (.validated token context)
  | .traditional token =>
    let userId := env.calculateUserId token
    some (.validated token (TokenValidator.validateRow env s.now userId (s.users.get? userId)))
  | _ => none

/-- `removeAllUserSessions`, with what the caller awaits. -/
def removeAllUserSessions (s : AuthState) (userId : String) : AuthState × Option Nat :=
  let sessions := s.sessions.removeAllUserSessions userId
  ({ s with sessions }, s.sessions.begun sessions)

/-- `refreshUserInfo`, when the user's row is there. An error is caught. -/
def applyRefresh (s : AuthState) (session : StoredSession) (now : Timestamp)
    (user : Option UserRow) : AuthState :=
  match user.bind (·.authContext env session.userId) with
  | none => s
  | some context =>
    { s with
      contexts := Function.update s.contexts session.number
        (some { context with lastUserInfoRefresh := some now }) }

/-- The end of `authenticate` for a new session. -/
def createSession (s : AuthState) (r : Nat) (pending : PendingRequest)
    (context : SessionContext) (token generated : String) : Option AuthState :=
  match s.sessions.connect env.fingerprintToken pending.request.sessionId context.authContext token
      generated with
  | none => none
  | some sessions =>
    match s.sessions.begun sessions with
    -- `Session already exists`
    | none => some (AuthState.advance { s with sessions } r pending .rejects)
    | some operation =>
      let session : StoredSession :=
        { number := operation
          userId := context.authContext.userId
          token
          authKind := getAuthKind context.authContext }
      let s' : AuthState :=
        { s with
          sessions
          contexts := Function.update s.contexts operation
            (some { context with lastUserInfoRefresh := some s.now }) }
      some (s'.advance r pending (.awaits (.creating operation session)))

/-- The request goes on after an await. -/
def continueRequest (s : AuthState) (r : Nat) (pending : PendingRequest) (generated : String) :
    Option AuthState :=
  match pending.phase with
  | .sessionValidated session valid =>
    if valid then some (s.advance r pending (s.refreshUserInfoIfNeeded session))
    else
      let (s, operation) := s.removeAllUserSessions session.userId
      some (s.advance r pending (.awaits (.removing operation)))
  | .refreshed session now user =>
    let s := s.applyRefresh env session now user
    some (s.advance r pending (s.checkExpiry session))
  | .expiryConfirmed session user =>
    match user with
    | some user =>
      if hasExpired s.now user.expiresAt then
        let (s, operation) := s.removeAllUserSessions session.userId
        some (s.advance r pending (.awaits (.removing operation)))
      else
        let s :=
          { s with
            contexts := Function.update s.contexts session.number
              ((s.contexts session.number).map fun context : SessionContext =>
                { context with expiresAt := expiryOf user.expiresAt }) }
        some (s.advance r pending (.passes session))
    | none =>
      let (s, operation) := s.removeAllUserSessions session.userId
      some (s.advance r pending (.awaits (.removing operation)))
  | .removing operation =>
    if (operation.bind s.sessions.operations.get?).isSome then none
    else some (s.advance r pending .rejects)
  | .validated token context =>
    match context with
    | none => some (s.advance r pending .rejects)
    | some context => s.createSession env r pending context token generated
  | _ => none

/-- The context of a request to `/mcp/public`. -/
def anonymousContext (permissions : Permissions) (ipHash : String) : SessionContext :=
  { authContext :=
      { anonymous := true, userId := "anon:" ++ ipHash, permissions, userPreferences := .empty }
    expiresAt := none
    lastUserInfoRefresh := none }

/-! ## The step function -/

/-- The actions of the session store that are not steps of a request. -/
def ofStore : SessionAction → Bool
  | .connect _ _ _ _ | .createCompletes _ | .createFails _ => false
  | _ => true

/-- `session.updatePermissions` for the sessions of the user. -/
def pushPermissions (s : AuthState) (targetId : String) (permissions : Permissions) : AuthState :=
  { s with
    contexts := (s.sessions.store.getUserSessions targetId).foldl
      (fun contexts session => Function.update contexts session.number
        ((contexts session.number).map fun context =>
          { context with authContext := { context.authContext with permissions } }))
      s.contexts }

def step (s : AuthState) : AuthAction → Option AuthState
  | .arrives request => some (s.arrive request)
  | .reads r active =>
    match s.requests.get? r with
    | none => none
    | some pending =>
      match s.readPhase env active pending.phase with
      | none => none
      | some phase => some { s with requests := s.requests.put r { pending with phase } }
  | .continues r generated =>
    match s.requests.get? r with
    | none => none
    | some pending => s.continueRequest env r pending generated
  | .anonymousConnects r permissions ipHash generated =>
    match s.requests.get? r with
    | some ⟨request, .anonymousServers, disabled⟩ =>
      match permissions with
      | none => some (s.advance r ⟨request, .anonymousServers, disabled⟩ .rejects)
      | some permissions =>
        s.createSession env r ⟨request, .anonymousServers, disabled⟩
          (anonymousContext permissions ipHash) ("anon-" ++ ipHash) generated
    | _ => none
  | .createCompletes r =>
    match s.requests.get? r with
    | some ⟨request, .creating operation session, disabled⟩ =>
      match s.sessions.step env.fingerprintToken (.createCompletes operation) with
      | none => none
      | some sessions =>
        some (AuthState.advance { s with sessions } r
          ⟨request, .creating operation session, disabled⟩ (.awaits (.created session)))
    | _ => none
  | .createFails r =>
    match s.requests.get? r with
    | some ⟨request, .creating operation session, disabled⟩ =>
      match s.sessions.step env.fingerprintToken (.createFails operation) with
      | none => none
      | some sessions =>
        some (AuthState.advance { s with sessions } r
          ⟨request, .creating operation session, disabled⟩ .rejects)
    | _ => none
  | .authLogged r ok =>
    match s.requests.get? r with
    | some ⟨request, .created session, disabled⟩ =>
      some (s.advance r ⟨request, .created session, disabled⟩
        (if ok then .passes session else .rejects))
    | _ => none
  | .disableUser targetId => some { s with disables := s.disables.add (targetId, .find) }
  | .disableReads d =>
    match s.disables.get? d with
    | some (targetId, .find) =>
      match s.users.get? targetId with
      | none => some { s with disables := s.disables.erase d }
      | some user =>
        if user.role = .owner then some { s with disables := s.disables.erase d }
        else some { s with disables := s.disables.put d (targetId, .update) }
    | _ => none
  | .disableWrites d =>
    match s.disables.get? d with
    | some (targetId, .update) =>
      match s.users.get? targetId with
      -- the update finds no row and throws
      | none => some { s with disables := s.disables.erase d }
      | some user =>
        some { s with
          users := s.users.set targetId { user with status := .disabled }
          disables := s.disables.put d (targetId, .updated) }
    | _ => none
  | .disableRemoves d =>
    match s.disables.get? d with
    | some (targetId, .updated) =>
      let (s, operation) := s.removeAllUserSessions targetId
      some { s with disables := s.disables.put d (targetId, .removing operation) }
    | _ => none
  | .disableReturns d =>
    match s.disables.get? d with
    | some (targetId, .removing operation) =>
      if (operation.bind s.sessions.operations.get?).isSome then none
      else
        some { s with
          disables := s.disables.erase d
          disabled := targetId :: s.disabled }
    | _ => none
  | .updateUserPermissions targetId permissions =>
    some { s with updates := s.updates.add (targetId, permissions, .find) }
  | .updateReads u =>
    match s.updates.get? u with
    | some (targetId, permissions, .find) =>
      match s.users.get? targetId with
      | none => some { s with updates := s.updates.erase u }
      | some user =>
        if permissions = user.permissions then some { s with updates := s.updates.erase u }
        -- `JSON.parse` throws on the new permissions or on the old ones
        else if (env.parsePermissions permissions).isNone ||
            (env.parsePermissions user.permissions).isNone then
          some { s with updates := s.updates.erase u }
        else some { s with updates := s.updates.put u (targetId, permissions, .update) }
    | _ => none
  | .updateWrites u =>
    match s.updates.get? u with
    | some (targetId, permissions, .update) =>
      match s.users.get? targetId with
      | none => some { s with updates := s.updates.erase u }
      | some user =>
        some { s with
          users := s.users.set targetId { user with permissions }
          updates := s.updates.put u (targetId, permissions, .updated) }
    | _ => none
  | .updatePushes u =>
    match s.updates.get? u with
    | some (targetId, permissions, .updated) =>
      match env.parsePermissions permissions with
      | none => none
      | some parsed =>
        some (AuthState.pushPermissions { s with updates := s.updates.erase u } targetId parsed)
    | _ => none
  | .store a =>
    if ofStore a then
      (s.sessions.step env.fingerprintToken a).map fun sessions => { s with sessions }
    else none

end AuthState

end PetaCore
