import PetaCore.Core.ClientSession
import PetaCore.ForStd.Table

/-!
# SessionStore

The sessions of the gateway. A session is spread over five maps (`sessions`, `proxySessions`,
`userSessions`, `eventStores`, `sessionLoggers`), which `createSession` fills and the removals
empty in stages, with awaits in between. A session that its client has ended leaves a tombstone
behind, by which the client can take its id over once more.

The awaited calls end at any time: a cleanup that fails counts as one that ends, as its error is
caught; `ClientSession.close` catches the errors of everything it does.
-/

namespace PetaCore

inductive AuthKind where
  | anonymous
  | authenticated
deriving DecidableEq

/-- `getAuthKind` -/
def getAuthKind (authContext : AuthContext) : AuthKind :=
  if authContext.anonymous then .anonymous else .authenticated

/-- A `ClientSession` of the store, with the part of it that does not change. `number` tells the
    objects apart that have had the same session id. -/
structure StoredSession where
  number : Nat
  userId : String
  token : String
  authKind : AuthKind
deriving DecidableEq

structure TerminatedSessionTombstone where
  userId : String
  authKind : AuthKind
  tokenFingerprint : String
  expiresAt : Timestamp
deriving DecidableEq

/-- `SessionStore`. Of a `ProxySession` it has `closeTriggered`, of the event stores, the loggers
    and the sets of session ids that there is one. -/
structure SessionStore where
  sessions : Dict StoredSession
  proxySessions : Dict Bool
  userSessions : Dict (Dict Unit)
  eventStores : Dict Unit
  sessionLoggers : Dict Unit
  terminatedSessions : Dict TerminatedSessionTombstone
deriving DecidableEq

namespace SessionStore

def empty : SessionStore := ⟨.empty, .empty, .empty, .empty, .empty, .empty⟩

/-- `SESSION_RECONNECT_GRACE_MS` -/
def sessionReconnectGraceMs : Timestamp := 30 * 1000

/-! ## Tombstones -/

def pruneTerminatedSessions (store : SessionStore) (now : Timestamp) : SessionStore :=
  { store with
    terminatedSessions := store.terminatedSessions.filter fun tombstone =>
      !decide (tombstone.expiresAt ≤ now) }

section

-- the digest of SHA-256, in hexadecimal
variable (fingerprintToken : String → String)

def recordTerminatedSession (store : SessionStore) (now : Timestamp) (sessionId : String)
    (session : StoredSession) : SessionStore :=
  let store := store.pruneTerminatedSessions now
  { store with
    terminatedSessions := store.terminatedSessions.set sessionId
      { userId := session.userId
        authKind := session.authKind
        tokenFingerprint := fingerprintToken session.token
        expiresAt := now + sessionReconnectGraceMs } }

def consumeTerminatedSession (store : SessionStore) (now : Timestamp) (sessionId : Option String)
    (authContext : AuthContext) (token : String) : Bool × SessionStore :=
  match sessionId with
  | none => (false, store)
  | some sessionId =>
    -- the empty string is falsy
    if sessionId = "" then (false, store)
    else
      let store := store.pruneTerminatedSessions now
      match store.terminatedSessions.get? sessionId with
      | none => (false, store)
      | some tombstone =>
        let deleted :=
          { store with terminatedSessions := store.terminatedSessions.erase sessionId }
        if tombstone.expiresAt ≤ now then (false, deleted)
        else if tombstone.userId = authContext.userId ∧
            tombstone.authKind = getAuthKind authContext ∧
            tombstone.tokenFingerprint = fingerprintToken token then (true, deleted)
        else (false, store)

end

/-! ## The steps between the awaits -/

/-- `createSession` up to its first await. -/
def beginSession (store : SessionStore) (sessionId : String) : Option SessionStore :=
  if (store.sessions.get? sessionId).isSome then none
  else some
    { store with
      eventStores := store.eventStores.set sessionId ()
      sessionLoggers := store.sessionLoggers.set sessionId () }

/-- The rest of `createSession`, after the log entry and the discovery profile. -/
def completeSession (store : SessionStore) (sessionId : String) (session : StoredSession) :
    SessionStore :=
  { store with
    sessions := store.sessions.set sessionId session
    proxySessions := store.proxySessions.set sessionId false
    userSessions := store.userSessions.set session.userId
      (((store.userSessions.get? session.userId).getD .empty).set sessionId ()) }

/-- `proxySession.cleanup()` up to its first await. -/
def cleanup (store : SessionStore) (sessionId : String) : SessionStore :=
  match store.proxySessions.get? sessionId with
  | none => store
  | some _ => { store with proxySessions := store.proxySessions.set sessionId true }

/-- `removeSingleSession` between the cleanup of the proxy session and that of the user's
    temporary servers. -/
def deleteSession (store : SessionStore) (sessionId : String) (session : StoredSession) :
    SessionStore :=
  { store with
    proxySessions := store.proxySessions.erase sessionId
    sessions := store.sessions.erase sessionId
    eventStores := store.eventStores.erase sessionId
    sessionLoggers := store.sessionLoggers.erase sessionId
    userSessions :=
      match store.userSessions.get? session.userId with
      | none => store.userSessions
      | some userSessionSet =>
        let userSessionSet := userSessionSet.erase sessionId
        if userSessionSet.entries = [] then store.userSessions.erase session.userId
        else store.userSessions.set session.userId userSessionSet }

/-- `removeAllUserSessions`, for one session: the mapping is removed before the session is
    closed. -/
def removeFromMapping (store : SessionStore) (sessionId : String) : SessionStore :=
  { store with
    sessions := store.sessions.erase sessionId
    proxySessions := store.proxySessions.erase sessionId }

/-- `removeAllUserSessions`, for one session, once it is closed. -/
def removeStores (store : SessionStore) (sessionId : String) : SessionStore :=
  { store with
    eventStores := store.eventStores.erase sessionId
    sessionLoggers := store.sessionLoggers.erase sessionId }

/-- `removeAllUserSessions` when all the sessions it has found are closed. -/
def deleteUserSessions (store : SessionStore) (userId : String) : SessionStore :=
  { store with userSessions := store.userSessions.erase userId }

def getUserSessions (store : SessionStore) (userId : String) : List StoredSession :=
  match store.userSessions.get? userId with
  | none => []
  | some sessionIds => (sessionIds.entries.map Prod.fst).filterMap store.sessions.get?

end SessionStore

/-! ## Operations -/

/-- What `removeAllUserSessions` awaits for one session. -/
inductive RemovalPhase where
  | cleaning
  | closing
deriving DecidableEq

/-- An operation that awaits a call. -/
inductive StoreOperation where
  | createSession (sessionId : String) (session : StoredSession)
  /-- awaits `proxySession.cleanup()` -/
  | removeSingleSession (sessionId : String) (session : StoredSession)
  /-- awaits the calls of `closePromises`; those that have returned are not kept -/
  | removeAllUserSessions (userId : String) (closePromises : Dict RemovalPhase)
  /-- a removal that has emptied its maps and closes temporary servers and the session -/
  | removed
  /-- awaits the removal `current`, with the sessions that come after it -/
  | cleanupExpiredSessions (current : Option Nat) (expiredSessions inactiveSessions : List String)
deriving DecidableEq

/-- The store with the clock and the operations in progress. `owners` is not a field of the
    source: the ids that sessions have had, with the user of each. -/
structure SessionState where
  now : Timestamp
  store : SessionStore
  operations : Table StoreOperation
  owners : Dict String
deriving DecidableEq

inductive SessionAction where
  | tick (now : Timestamp)
  /-- a request has been authenticated and makes a session, with the id it asks for or a
      generated one -/
  | connect (requested : Option String) (authContext : AuthContext) (token generated : String)
  | createCompletes (operation : Nat)
  | createFails (operation : Nat)
  | removeSession (sessionId : String) (isUserDisconnect : Bool)
  | terminateSession (sessionId : String)
  | removeAllUserSessions (userId : String)
  | cleanupExpiredSessions (isExpired isInactive : StoredSession → Bool)
  /-- the removal that a cleanup awaits has returned -/
  | cleanupNext (operation : Nat)
  /-- `triggerOnClose` of the proxy session -/
  | transportClose (sessionId : String) (preserveForReconnect : Bool)
  /-- `proxySession.cleanup()` of a single removal ends -/
  | cleanupEnds (operation : Nat)
  /-- `proxySession.cleanup()` ends, for one session of `removeAllUserSessions` -/
  | userCleanupEnds (operation : Nat) (sessionId : String)
  /-- `session.close` returns, for one session of `removeAllUserSessions` -/
  | userCloseEnds (operation : Nat) (sessionId : String)
  /-- all the calls of `closePromises` have returned -/
  | userSessionsClosed (operation : Nat)
  | operationReturns (operation : Nat)

namespace SessionState

def init (now : Timestamp) : SessionState := ⟨now, .empty, .empty, .empty⟩

variable (fingerprintToken : String → String)

/-- The end of the middleware: `consumeTerminatedSession` chooses the id, `createSession` begins.
    `none` for a generated id that is not a new one. -/
def connect (s : SessionState) (requested : Option String) (authContext : AuthContext)
    (token generated : String) : Option SessionState :=
  let (consumed, store) :=
    s.store.consumeTerminatedSession fingerprintToken s.now requested authContext token
  let newSessionId := if consumed then requested.getD "" else generated
  if !consumed && (generated = "" || (s.owners.get? generated).isSome) then none
  else
    match store.beginSession newSessionId with
    -- `Session already exists`
    | none => some { s with store }
    | some store =>
      some { s with
        store
        operations := s.operations.add (.createSession newSessionId
          { number := s.operations.next
            userId := authContext.userId
            token
            authKind := getAuthKind authContext })
        owners := s.owners.set newSessionId authContext.userId }

/-- `removeSingleSession` up to its first await; the reason is `CLIENT_DISCONNECT` whenever there
    are options. -/
def removeSingleSession (s : SessionState) (sessionId : String) (preserveForReconnect : Bool) :
    SessionState :=
  match s.store.sessions.get? sessionId with
  | none => s
  | some session =>
    let store :=
      if preserveForReconnect then
        s.store.recordTerminatedSession fingerprintToken s.now sessionId session
      else s.store
    { s with
      store := store.cleanup sessionId
      operations := s.operations.add (.removeSingleSession sessionId session) }

/-- `removeAllUserSessions` up to its first await. -/
def removeAllUserSessions (s : SessionState) (userId : String) : SessionState :=
  match s.store.userSessions.get? userId with
  | none => s
  | some userSessionIds =>
    if userSessionIds.entries = [] then s
    else
      let sessionIds := userSessionIds.filterKeyed fun sessionId _ =>
        (s.store.sessions.get? sessionId).isSome
      { s with
        store := sessionIds.entries.foldl (fun store e => store.cleanup e.1) s.store
        operations := s.operations.add
          (.removeAllUserSessions userId (sessionIds.map fun _ => .cleaning)) }

/-- `removeSession` up to its first await. -/
def removeSession (s : SessionState) (sessionId : String) (isUserDisconnect : Bool) :
    SessionState :=
  match s.store.sessions.get? sessionId with
  | none => s
  | some session =>
    if isUserDisconnect then s.removeAllUserSessions session.userId
    else s.removeSingleSession fingerprintToken sessionId false

/-- The number of the operation that a call has begun, if it awaits anything. -/
def begun (s s' : SessionState) : Option Nat :=
  if s'.operations.next = s.operations.next then none else some s.operations.next

/-- The loops of `cleanupExpiredSessions` from one await to the next. -/
def cleanupFrom (s : SessionState) :
    List String → List String → SessionState × Option StoreOperation
  | sessionId :: expired, inactive =>
    let s' := s.removeSession fingerprintToken sessionId true
    (s', some (.cleanupExpiredSessions (s.begun s') expired inactive))
  | [], sessionId :: inactive =>
    let s' := s.removeSession fingerprintToken sessionId false
    (s', some (.cleanupExpiredSessions (s.begun s') [] inactive))
  | [], [] => (s, none)

/-- `cleanupExpiredSessions` up to its first await. -/
def cleanupExpiredSessions (s : SessionState) (isExpired isInactive : StoredSession → Bool) :
    SessionState :=
  let expired := s.store.sessions.entries.filter fun e => isExpired e.2
  let inactive := s.store.sessions.entries.filter fun e => !isExpired e.2 && isInactive e.2
  let (s, next) := s.cleanupFrom fingerprintToken (expired.map Prod.fst) (inactive.map Prod.fst)
  match next with
  | none => s
  | some next => { s with operations := s.operations.add next }

def step (s : SessionState) : SessionAction → Option SessionState
  | .tick now => if s.now ≤ now then some { s with now } else none
  | .connect requested authContext token generated =>
    s.connect fingerprintToken requested authContext token generated
  | .createCompletes operation =>
    match s.operations.get? operation with
    | some (.createSession sessionId session) =>
      some { s with
        store := s.store.completeSession sessionId session
        operations := s.operations.erase operation }
    | _ => none
  | .createFails operation =>
    match s.operations.get? operation with
    | some (.createSession _ _) => some { s with operations := s.operations.erase operation }
    | _ => none
  | .removeSession sessionId isUserDisconnect =>
    some (s.removeSession fingerprintToken sessionId isUserDisconnect)
  | .terminateSession sessionId =>
    match s.store.sessions.get? sessionId with
    | none => some s
    | some _ => some (s.removeSingleSession fingerprintToken sessionId false)
  | .removeAllUserSessions userId => some (s.removeAllUserSessions userId)
  | .cleanupExpiredSessions isExpired isInactive =>
    some (s.cleanupExpiredSessions fingerprintToken isExpired isInactive)
  | .cleanupNext operation =>
    match s.operations.get? operation with
    | some (.cleanupExpiredSessions current expired inactive) =>
      if (current.bind s.operations.get?).isSome then none
      else
        let (s, next) := s.cleanupFrom fingerprintToken expired inactive
        match next with
        | none => some { s with operations := s.operations.erase operation }
        | some next => some { s with operations := s.operations.put operation next }
    | _ => none
  | .transportClose sessionId preserveForReconnect =>
    if s.store.proxySessions.get? sessionId = some false then
      some (s.removeSingleSession fingerprintToken sessionId preserveForReconnect)
    else none
  | .cleanupEnds operation =>
    match s.operations.get? operation with
    | some (.removeSingleSession sessionId session) =>
      some { s with
        store := s.store.deleteSession sessionId session
        operations := s.operations.put operation .removed }
    | _ => none
  | .userCleanupEnds operation sessionId =>
    match s.operations.get? operation with
    | some (.removeAllUserSessions userId closePromises) =>
      if closePromises.get? sessionId = some .cleaning then
        some { s with
          store := s.store.removeFromMapping sessionId
          operations := s.operations.put operation
            (.removeAllUserSessions userId (closePromises.set sessionId .closing)) }
      else none
    | _ => none
  | .userCloseEnds operation sessionId =>
    match s.operations.get? operation with
    | some (.removeAllUserSessions userId closePromises) =>
      if closePromises.get? sessionId = some .closing then
        some { s with
          store := s.store.removeStores sessionId
          operations := s.operations.put operation
            (.removeAllUserSessions userId (closePromises.erase sessionId)) }
      else none
    | _ => none
  | .userSessionsClosed operation =>
    match s.operations.get? operation with
    | some (.removeAllUserSessions userId closePromises) =>
      if closePromises.entries = [] then
        some { s with
          store := s.store.deleteUserSessions userId
          operations := s.operations.put operation .removed }
      else none
    | _ => none
  | .operationReturns operation =>
    match s.operations.get? operation with
    | some .removed => some { s with operations := s.operations.erase operation }
    | _ => none

/-- No operation is in progress. -/
def Idle (s : SessionState) : Prop := ∀ i, s.operations.get? i = none

end SessionState

end PetaCore
