import PetaCore.Core.RequestIdMapper
import PetaCore.Core.ServerManager

/-!
# Requests on shared connections

The sessions of all users send their requests on the same downstream connections. A request goes
out under the proxy id that its session's mapper made of it; the transport's wrapper finds the
session again in that id and tells it the id of the request downstream. Cancellations follow the
maps from the client to the server, progress notifications from the server to the client.

What a client asked and what was sent for it is recorded beside the program's own state.
-/

namespace PetaCore

/-- A session id: `generateSessionId` makes them, and the id of a terminated session may be used
    again. -/
structure SessionId where
  value : String
  nonempty : value ≠ ""
  noColon : ':' ∉ value.toList
deriving DecidableEq

/-- The identity of a `ProxySession`. -/
abbrev ProxySessionRef := Nat

/-- What a `ProxySession` has for the routing of requests. -/
structure RoutedSession where
  sessionId : SessionId
  userId : String
  requestIdMapper : RequestIdMapper

/-- A downstream `Client` with the server id that its transport's wrapper was made with. Every
    request on it gets an id of its own. -/
structure TrackedClient where
  serverId : String
  used : List RequestId
  connected : Bool

/-- A request of a client: what it asked, the proxy id of its latest registration, and its latest
    request downstream. -/
structure RoutedRequest where
  session : ProxySessionRef
  originalRequestId : RequestId
  progressToken : Option RequestId
  proxyRequestId : String
  sent : Option (ClientRef × RequestId)
  completed : Bool

/-- A server context: managed ones are found by the server id, temporary ones by the user id too. -/
inductive ContextKey where
  | managed (serverId : String)
  | temporary (serverId userId : String)

/-- The sessions, the connections of the server contexts, and the requests. -/
structure RoutingState where
  proxySessions : Dict ProxySessionRef
  sessions : ProxySessionRef → Option RoutedSession
  serverContexts : Dict (Option ClientRef)
  temporaryServers : Dict (Option ClientRef)
  clients : ClientRef → Option TrackedClient
  requests : Nat → Option RoutedRequest

/-- `extractSessionIdFromProxyRequestId` -/
def extractSessionIdFromProxyRequestId (proxyRequestId : String) : Option String :=
  match proxyRequestId.toList.idxOf? ':' with
  | none => none
  | some separatorIndex =>
    if 0 < separatorIndex then some (String.ofList (proxyRequestId.toList.take separatorIndex))
    else none

/-- `rewriteProgressTokenForDownstream`, as far as the mapper is concerned. -/
def rewriteProgressTokenForDownstream (m : RequestIdMapper) (progressToken : Option RequestId)
    (proxyRequestId : String) : RequestIdMapper :=
  match progressToken with
  | none => m
  | some originalProgressToken => m.setOriginalProgressToken proxyRequestId originalProgressToken

/-- A notification that is forwarded to a server. -/
structure ForwardedCancellation where
  client : ClientRef
  requestId : RequestId
  relatedRequestId : String
deriving DecidableEq

/-- A notification that is delivered to the client of a session. -/
structure DeliveredProgress where
  session : ProxySessionRef
  progressToken : RequestId
  relatedRequestId : RequestId
deriving DecidableEq

namespace RoutingState

def init : RoutingState := ⟨.empty, fun _ => none, .empty, .empty, fun _ => none, fun _ => none⟩

/-- `getServerContext(serverID, userId)?.connection`; an empty `userId` counts as none. -/
def getConnection (st : RoutingState) (serverID userId : String) : Option ClientRef :=
  match st.serverContexts.get? serverID with
  | some connection => connection
  | none =>
    if userId = "" then none else (st.temporaryServers.get? (internalKey serverID userId)).join

/-- `handleCancelledNotification` of a session; `none` when nothing is forwarded. -/
def handleCancelledNotification (st : RoutingState) (session : RoutedSession)
    (requestId : RequestId) : Option ForwardedCancellation := do
  -- an empty proxy id counts as none, and so does an empty server id
  let proxyRequestId ← session.requestIdMapper.registered? requestId
  let mappingEntry ← session.requestIdMapper.getMappingEntry proxyRequestId
  let serverId ← mappingEntry.serverId.filter (· != "")
  let downstreamRequestId ← session.requestIdMapper.getDownstreamRequestId proxyRequestId
  let client ← st.getConnection serverId session.userId
  return ⟨client, downstreamRequestId, proxyRequestId⟩

/-- `forwardProgressToClient` -/
def forwardProgressToClient (ref : ProxySessionRef) (session : RoutedSession)
    (proxyRequestId : String) : Option DeliveredProgress := do
  let originalProgressToken ← session.requestIdMapper.getOriginalProgressToken proxyRequestId
  let originalRequestId ← session.requestIdMapper.getOriginalRequestId proxyRequestId
  return ⟨ref, originalProgressToken, originalRequestId⟩

/-- `hasTrackedProgressToken` -/
def hasTrackedProgressToken (session : RoutedSession) (proxyRequestId : String) : Bool :=
  (session.requestIdMapper.getOriginalProgressToken proxyRequestId).isSome

/-- The handler of progress notifications from a server; `none` when the notification is
    dropped. -/
def handleProgressNotification (st : RoutingState) :
    (progressToken : RequestId) → Option DeliveredProgress
  | .num _ => none
  | .str progressToken => do
    let sessionId ← extractSessionIdFromProxyRequestId progressToken
    let ref ← st.proxySessions.get? sessionId
    let proxySession ← st.sessions ref
    if hasTrackedProgressToken proxySession progressToken then
      forwardProgressToClient ref proxySession progressToken
    else
      none

/-- A session whose mapper has changed. -/
def updateMapper (st : RoutingState) (ref : ProxySessionRef)
    (f : RequestIdMapper → RequestIdMapper) : RoutingState :=
  { st with
    sessions := Function.update st.sessions ref ((st.sessions ref).map fun session =>
      { session with requestIdMapper := f session.requestIdMapper }) }

/-- The wrapped `send` of a transport, before the message goes out. -/
def trackRequest (st : RoutingState) (proxyRequestId : String) (id : RequestId)
    (serverId : String) (client : ClientRef) : RoutingState :=
  match extractSessionIdFromProxyRequestId proxyRequestId with
  | none => st
  | some sessionId =>
    match st.proxySessions.get? sessionId with
    | none => st
    | some ref =>
      st.updateMapper ref (·.registerDownstreamMapping proxyRequestId id serverId (some client))

/-- A request handler registers its request and stores the client's progress token. -/
def registerRequest (st : RoutingState) (r : Nat) (request : RoutedRequest)
    (session : RoutedSession) (method serverId : Option String) (idTime entryTime : Timestamp) :
    RoutingState :=
  let registered := session.requestIdMapper.registerClientRequest request.originalRequestId
    method serverId idTime entryTime
  let mapper := rewriteProgressTokenForDownstream registered.2 request.progressToken registered.1
  { st with
    sessions := Function.update st.sessions request.session
      (some { session with requestIdMapper := mapper })
    requests := Function.update st.requests r
      (some { request with proxyRequestId := registered.1 }) }

/-- A context with another connection, or without one. -/
def setConnection (st : RoutingState) (key : ContextKey) (connection : Option ClientRef) :
    RoutingState :=
  match key with
  | .managed serverId =>
    { st with serverContexts := st.serverContexts.set serverId connection }
  | .temporary serverId userId =>
    { st with temporaryServers := st.temporaryServers.set (internalKey serverId userId) connection }

def removeContext (st : RoutingState) : ContextKey → RoutingState
  | .managed serverId => { st with serverContexts := st.serverContexts.erase serverId }
  | .temporary serverId userId =>
    { st with temporaryServers := st.temporaryServers.erase (internalKey serverId userId) }

end RoutingState

/-! ## Runs -/

/-- What can happen to sessions, connections and requests. -/
inductive RoutingAction where
  | createSession (ref : ProxySessionRef) (sessionId : SessionId) (userId : String)
  | removeSession (ref : ProxySessionRef)
  | register (r : Nat) (ref : ProxySessionRef) (originalRequestId : RequestId)
    (progressToken : Option RequestId) (method serverId : Option String)
    (idTime entryTime : Timestamp)
  | retry (r : Nat) (method serverId : Option String) (idTime entryTime : Timestamp)
  | send (r : Nat) (client : ClientRef) (id : RequestId)
  | removeMapping (ref : ProxySessionRef) (proxyRequestId : String)
  | complete (r : Nat)
  | cleanupExpired (ref : ProxySessionRef) (now : Timestamp)
  | connect (client : ClientRef) (serverId : String)
  | ownRequest (client : ClientRef) (id : RequestId)
  | closeClient (client : ClientRef)
  | setConnection (key : ContextKey) (connection : Option ClientRef)
  | removeContext (key : ContextKey)

namespace RoutingState

/-- The client after a request with an id that it has not used; `none` when there is no such
    request. -/
def useId (st : RoutingState) (client : ClientRef) (id : RequestId) :
    Option TrackedClient := do
  let c ← st.clients client
  if c.connected && !c.used.contains id then some { c with used := id :: c.used } else none

/-- One action. -/
def step (st : RoutingState) : RoutingAction → Option RoutingState
  | .createSession ref sessionId userId =>
    -- `createSession` refuses an id that is active
    if (st.proxySessions.get? sessionId.value).isNone && (st.sessions ref).isNone then
      some { st with
        proxySessions := st.proxySessions.set sessionId.value ref
        sessions := Function.update st.sessions ref
          (some ⟨sessionId, userId, .init sessionId.value⟩) }
    else
      none
  | .removeSession ref => do
    let session ← st.sessions ref
    if st.proxySessions.get? session.sessionId.value = some ref then
      -- `destroy` clears the maps; handlers that still run keep the object
      some { st.updateMapper ref fun _ => .init session.sessionId.value with
        proxySessions := st.proxySessions.erase session.sessionId.value }
    else
      none
  | .register r ref originalRequestId progressToken method serverId idTime entryTime => do
    let session ← st.sessions ref
    if (st.requests r).isNone then
      some (st.registerRequest r ⟨ref, originalRequestId, progressToken, "", none, false⟩ session
        method serverId idTime entryTime)
    else
      none
  | .retry r method serverId idTime entryTime => do
    let request ← st.requests r
    let session ← st.sessions request.session
    if request.completed then
      none
    else
      some (st.registerRequest r request session method serverId idTime entryTime)
  | .send r client id => do
    let request ← st.requests r
    let used ← st.useId client id
    if request.completed then
      none
    else
      some { st.trackRequest request.proxyRequestId id used.serverId client with
        clients := Function.update st.clients client (some used)
        requests := Function.update st.requests r (some { request with sent := some (client, id) }) }
  | .removeMapping ref proxyRequestId => some (st.updateMapper ref (·.removeMapping proxyRequestId))
  | .complete r => do
    let request ← st.requests r
    some { st.updateMapper request.session (·.removeMapping request.proxyRequestId) with
      requests := Function.update st.requests r (some { request with completed := true }) }
  | .cleanupExpired ref now => some (st.updateMapper ref (·.cleanupExpired now))
  | .connect client serverId =>
    if (st.clients client).isNone then
      some { st with clients := Function.update st.clients client (some ⟨serverId, [], true⟩) }
    else
      none
  | .ownRequest client id => do
    let used ← st.useId client id
    some { st with clients := Function.update st.clients client (some used) }
  | .closeClient client =>
    some { st with
      clients := Function.update st.clients client
        ((st.clients client).map fun c => { c with connected := false }) }
  | .setConnection key connection => some (st.setConnection key connection)
  | .removeContext key => some (st.removeContext key)

end RoutingState

end PetaCore
