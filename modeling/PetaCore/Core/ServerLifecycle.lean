import PetaCore.Core.Types
import PetaCore.ForStd.Table

/-!
# Starting and stopping a server

One server context and everything that starts, stops or watches its connection:
`ensureServerAvailable` with the queue of a wake-up, `addServer`, `reconnectServer`,
`removeServer`, `sleepServer`, `createTemporaryServer`, and the close handler of each
transport.

Starting and stopping go on over many awaits. Each `createServerConnection` and each
`disconnectServerContext` is an entry of the table `operations`, numbered in the order in which
they begin, and a step takes one of them from one await to the next; which one it is, and how
the awaited call ends, comes with the action. So a run is an arbitrary interleaving.

The table `calls` holds the calls of `ensureServerAvailable` that wait. It also notes, for each
of them, whether the context has been online with a connection since the call.
-/

namespace PetaCore

/-- The fields of a `Server` row that its starts depend on. -/
structure LaunchSettings where
  launchConfig : String
  lazyStartEnabled : Bool
  enabled : Bool
deriving DecidableEq

/-- A `Transport` object, with the settings of the start that made it: its close handler reads
    them. -/
structure TransportRef where
  id : Nat
  serverEntity : LaunchSettings
deriving DecidableEq

/-- A `DownstreamMcpClient`, by the start that established it. -/
structure Connection where
  start : Nat
deriving DecidableEq

/-- The fields of a `ServerContext` that starts and stops write. `tokenRefresh` is the timer and
    the strategy of `startTokenRefresh`, by the start that set them. -/
structure ConnectionState where
  status : ServerStatus
  connection : Option Connection
  transport : Option TransportRef
  tokenRefresh : Option Nat
  lastError : Option String
deriving DecidableEq

namespace ConnectionState

/-- The context that the constructor makes. -/
def new : ConnectionState := ⟨.offline, none, none, none, none⟩

def clearConnectionState (c : ConnectionState) (status : ServerStatus) : ConnectionState :=
  { c with status, connection := none, transport := none }

def stopTokenRefresh (c : ConnectionState) : ConnectionState := { c with tokenRefresh := none }

def recordError (c : ConnectionState) (error : String) : ConnectionState :=
  { c with lastError := some error }

def clearError (c : ConnectionState) : ConnectionState := { c with lastError := none }

/-- `recordServerStartupError`, with the message it has chosen -/
def recordServerStartupError (c : ConnectionState) (nextMessage : String) : ConnectionState :=
  if isBlank nextMessage then c
  else if c.lastError = some nextMessage then c
  else c.recordError nextMessage

/-- `closeConnection` up to its first await. -/
def beginClose (c : ConnectionState) (status : ServerStatus) : ConnectionState :=
  match c.connection with
  | none => { c with status, transport := none }
  | some _ => { c with status }

end ConnectionState

/-! ## Operations -/

/-- Who has called `disconnectServerContext`, with what it goes on with afterwards. -/
inductive Disconnect where
  | sleepServer
  | removeServer
  | addServer (serverEntity : LaunchSettings)
  | reconnectServer (serverEntity : LaunchSettings)
deriving DecidableEq

/-- The status that is asked for. -/
def Disconnect.status : Disconnect → ServerStatus
  | .sleepServer => .sleeping
  | .removeServer | .addServer _ | .reconnectServer _ => .offline

/-- Where a `createServerConnection` is. -/
inductive StartStage where
  /-- decrypts the launch config and initializes authentication -/
  | preparing
  /-- in `ModernHttpDownstreamClient.connect` -/
  | probing
  /-- has stored the modern client, in `updateServerCapabilities` -/
  | modernStored
  /-- in `DownstreamTransportFactory.create` -/
  | opening
  /-- from `client.connect` to the ping; `fallback` after the fallback to SSE -/
  | connecting (transport : TransportRef) (fallback : Bool)
  /-- closes the HTTP transport that could not connect -/
  | fallingBack (transport : TransportRef)
  /-- has stored client and transport, in `updateServerCapabilities` -/
  | stored (transport : TransportRef)
  /-- in `logServerLifecycle` -/
  | logging
deriving DecidableEq

/-- The transport that carries the start. -/
def StartStage.transport? : StartStage → Option TransportRef
  | .connecting t _ | .stored t => some t
  | _ => none

/-- Whether the start has yet to set the status to online. -/
def StartStage.isUnpublished : StartStage → Bool
  | .stored _ | .logging => false
  | _ => true

/-- An operation under way. -/
inductive Operation where
  /-- in `createServerConnection`, with the entity it read when it began -/
  | starting (serverEntity : LaunchSettings) (stage : StartStage)
  /-- awaits the close of the connection -/
  | closing (caller : Disconnect)
  /-- `disconnectServerContext` has returned -/
  | closed (caller : Disconnect)
deriving DecidableEq

def Operation.isStarting : Operation → Bool
  | .starting _ _ => true
  | _ => false

def Operation.isClosing : Operation → Bool
  | .closing _ => true
  | _ => false

/-- What a call of `ensureServerAvailable` waits for. -/
inductive EnsureWait where
  /-- the promise of a wake-up -/
  | queued (start : Nat)
  /-- `waitForServerReady` -/
  | polling
  | returning
  | throwing
deriving DecidableEq

structure EnsureCall where
  waitsFor : EnsureWait
  wasOnline : Bool
deriving DecidableEq

/-- An entry of `serverWaitQueues`: the start, and how its promise has settled. -/
structure WaitQueue where
  start : Nat
  settled : Option Bool
deriving DecidableEq

/-- The context and the operations on it. A context that is no longer `registered` is not found
    by later calls. `transports` are those made so far, `closedTransports` those whose close
    handler has been called. -/
structure Lifecycle where
  globalEnabled : Bool
  registered : Bool
  serverEntity : LaunchSettings
  context : ConnectionState
  operations : Table Operation
  waitQueue : Option WaitQueue
  calls : Table EnsureCall
  plannedTransportCloses : List TransportRef
  transports : List TransportRef
  closedTransports : List TransportRef
deriving DecidableEq

/-- What happens to the context: a call that arrives, the next await of the operation with the
    given number ends, or a transport closes. -/
inductive LifecycleAction where
  /-- `restored` is the row that a call has read which found no context when it arrived -/
  | ensureServerAvailable (restored : Option LaunchSettings) (hasToken : Bool)
  | addServer (serverEntity : LaunchSettings)
  | reconnectServer (serverEntity : LaunchSettings)
  | removeServer
  | sleepServer
  | createTemporaryServer (serverEntity : LaunchSettings) (sleep : Bool)
  /-- authentication is done, with a token to refresh or not; HTTP servers are probed -/
  | prepared (start : Nat) (refreshes : Bool) (probe : Bool)
  | modernConnected (start : Nat)
  | modernFailed (start : Nat)
  | modernReady (start : Nat)
  | transportCreated (start : Nat)
  | httpFailed (start : Nat)
  | fallbackCreated (start : Nat)
  | connected (start : Nat)
  | ready (start : Nat)
  | startReturns (start : Nat)
  | startFails (start : Nat) (message : String)
  | closeCompletes (disconnect : Nat)
  | disconnectReturns (disconnect : Nat)
  | queueCleared
  | ensureReturns (call : Nat)
  | ensureThrows (call : Nat)
  | transportClosed (transport : TransportRef) (message : String)
deriving DecidableEq

def isLazyStartApplicable (globalEnabled : Bool) (server : LaunchSettings) : Bool :=
  globalEnabled && server.lazyStartEnabled

namespace Lifecycle

/-- A context that has just been made. -/
def init (globalEnabled : Bool) (serverEntity : LaunchSettings) : Lifecycle where
  globalEnabled
  registered := true
  serverEntity
  context := .new
  operations := .empty
  waitQueue := none
  calls := .empty
  plannedTransportCloses := []
  transports := []
  closedTransports := []

def setOperation (s : Lifecycle) (i : Nat) (op : Operation) : Lifecycle :=
  { s with operations := s.operations.put i op }

def removeOperation (s : Lifecycle) (i : Nat) : Lifecycle :=
  { s with operations := s.operations.erase i }

/-- The stage of a start that is under way. -/
def stage? (s : Lifecycle) (i : Nat) : Option (LaunchSettings × StartStage) :=
  match s.operations.get? i with
  | some (.starting serverEntity stage) => some (serverEntity, stage)
  | _ => none

/-! ## Starts -/

/-- `createServerConnection` up to its first await; it returns at once when the server is online
    or connecting. -/
def createServerConnection (s : Lifecycle) : Lifecycle :=
  match s.context.status with
  | .online | .connecting => s
  | .offline | .error | .sleeping =>
    { s with
      context.status := .connecting
      operations := s.operations.add (.starting s.serverEntity .preparing) }

/-- The promise of a start settles: those that wait for it go on. -/
def settle (s : Lifecycle) (start : Nat) (ok : Bool) : Lifecycle :=
  { s with
    waitQueue := s.waitQueue.map fun q =>
      if q.start = start then { q with settled := some ok } else q
    calls := s.calls.map fun c =>
      if c.waitsFor = .queued start then
        { c with waitsFor := if ok then .returning else .throwing }
      else c }

/-- The status that a start leaves when it fails. -/
def failedStatus (s : Lifecycle) (serverEntity : LaunchSettings) : ServerStatus :=
  if isLazyStartApplicable s.globalEnabled serverEntity then .sleeping else .error

/-- The `catch` of `createServerConnection`. -/
def startFails (s : Lifecycle) (start : Nat) (serverEntity : LaunchSettings)
    (message : String) : Lifecycle :=
  let context := (s.context.stopTokenRefresh.clearConnectionState
    (s.failedStatus serverEntity)).recordServerStartupError message
  ({ s with context }.removeOperation start).settle start false

/-- A new transport of a start. -/
def openTransport (s : Lifecycle) (start : Nat) (serverEntity : LaunchSettings)
    (fallback : Bool) : Lifecycle :=
  let t : TransportRef := ⟨s.transports.length, serverEntity⟩
  { s with transports := s.transports ++ [t] }.setOperation start
    (.starting serverEntity (.connecting t fallback))

/-! ## Stops -/

/-- `markTransportCloseAsPlanned` -/
def markTransportCloseAsPlanned (s : Lifecycle) : Lifecycle :=
  { s with plannedTransportCloses := s.plannedTransportCloses ++ s.context.transport.toList }

/-- `disconnectServerContext` up to its first await. -/
def disconnectServerContext (s : Lifecycle) (caller : Disconnect) : Lifecycle :=
  let s := { s with context := s.context.stopTokenRefresh }.markTransportCloseAsPlanned
  { s with
    context := s.context.beginClose caller.status
    operations := s.operations.add
      (if s.context.connection.isSome then .closing caller else .closed caller) }

/-! ## Entry points -/

/-- `addServer` when the launch config is the same, and after the disconnect when it is not: a
    context that has been removed meanwhile is replaced by another. -/
def addServerTail (s : Lifecycle) (serverEntity : LaunchSettings) : Lifecycle :=
  let s := { s with serverEntity }
  match s.context.status with
  | .online | .connecting => s
  | .offline | .error | .sleeping => if s.registered then s.createServerConnection else s

def addServer (s : Lifecycle) (serverEntity : LaunchSettings) : Lifecycle :=
  if s.serverEntity.launchConfig ≠ serverEntity.launchConfig then
    s.disconnectServerContext (.addServer serverEntity)
  else s.addServerTail serverEntity

/-- What the caller of `disconnectServerContext` does after it has returned. -/
def afterDisconnect (s : Lifecycle) : Disconnect → Lifecycle
  | .sleepServer => s
  | .removeServer => { s with registered := false }
  | .addServer serverEntity =>
    { s with context := s.context.clearError }.addServerTail serverEntity
  | .reconnectServer serverEntity =>
    let s := { s with context := s.context.clearError }
    if s.registered then { s with serverEntity }.createServerConnection else s

def createTemporaryServer (s : Lifecycle) (serverEntity : LaunchSettings) (sleep : Bool) :
    Lifecycle :=
  let s := { s with serverEntity }
  if s.context.status = .online then s
  else if sleep && isLazyStartApplicable s.globalEnabled serverEntity then
    { s with context.status := .sleeping }
  else s.createServerConnection

/-- `initializeManagedServerContext` and `initializeTemporaryServerContext` with the status of a
    context that is restored. -/
def restoreServerContext (s : Lifecycle) (server : LaunchSettings) : Lifecycle :=
  let initialStatus : ServerStatus :=
    if isLazyStartApplicable s.globalEnabled server then .sleeping else .offline
  let s := { s with serverEntity := server }
  if s.context.connection.isSome then s else { s with context.status := initialStatus }

/-- The context of a call that arrives: it may have had to restore it. -/
def restored (s : Lifecycle) : Option LaunchSettings → Lifecycle
  | none => s
  | some server => s.restoreServerContext server

def addCall (s : Lifecycle) (waitsFor : EnsureWait) : Lifecycle :=
  { s with calls := s.calls.add ⟨waitsFor, false⟩ }

/-- The wake-up of `ensureServerAvailable`: `wakeupServer` throws without lazy start or without
    a token. -/
def wakeupServer (s : Lifecycle) (hasToken : Bool) : Lifecycle :=
  if isLazyStartApplicable s.globalEnabled s.serverEntity && hasToken then
    let start := s.operations.next
    ({ s.createServerConnection with waitQueue := some ⟨start, none⟩ }).addCall (.queued start)
  else s.addCall .throwing

/-- `ensureServerAvailable` once it has its context, up to its first await. -/
def ensureServerAvailable (s : Lifecycle) (hasToken : Bool) : Lifecycle :=
  if s.context.status = .online then s.addCall .returning
  else
    match s.waitQueue with
    | some ⟨start, none⟩ => s.addCall (.queued start)
    | some ⟨_, some ok⟩ => s.addCall (if ok then .returning else .throwing)
    | none =>
      match s.context.status with
      | .sleeping | .offline => s.wakeupServer hasToken
      | .error =>
        if isLazyStartApplicable s.globalEnabled s.serverEntity then s.wakeupServer hasToken
        else s.addCall .throwing
      | .connecting => s.addCall .polling
      | .online => s.addCall .throwing

/-! ## Transport close events -/

/-- What the close handler of a transport does to the context when it does not ignore the
    event. -/
def closedContext (s : Lifecycle) (t : TransportRef) (message : String) : ConnectionState :=
  let shouldPreserveContext :=
    isLazyStartApplicable s.globalEnabled t.serverEntity && t.serverEntity.enabled
  let nextStatus : ServerStatus := if shouldPreserveContext then .sleeping else .error
  (s.context.recordServerStartupError message).stopTokenRefresh.clearConnectionState nextStatus

/-- `onclose` of a transport. -/
def onclose (s : Lifecycle) (t : TransportRef) (message : String) : Lifecycle :=
  if t ∈ s.plannedTransportCloses then
    { s with plannedTransportCloses := s.plannedTransportCloses.filter (· ≠ t) }
  else if s.context.transport.isSome ∧ s.context.transport ≠ some t then s
  else { s with context := s.closedContext t message }

/-! ## Steps -/

/-- The next await of a start ends. -/
def startStep (s : Lifecycle) (start : Nat) (serverEntity : LaunchSettings)
    (stage : StartStage) : LifecycleAction → Option Lifecycle
  | .prepared _ refreshes probe =>
    match stage with
    | .preparing =>
      some ({ s with context.tokenRefresh :=
        if refreshes then some start else s.context.tokenRefresh }.setOperation start
          (.starting serverEntity (if probe then .probing else .opening)))
    | _ => none
  | .modernConnected _ =>
    match stage with
    | .probing =>
      some ({ s with context.connection := some ⟨start⟩, context.transport := none }.setOperation
        start (.starting serverEntity .modernStored))
    | _ => none
  | .modernFailed _ =>
    match stage with
    | .probing | .modernStored => some (s.setOperation start (.starting serverEntity .opening))
    | _ => none
  | .modernReady _ =>
    match stage with
    | .modernStored =>
      some ({ s with context := { s.context with status := .online }.clearError }.setOperation
        start (.starting serverEntity .logging))
    | _ => none
  | .transportCreated _ =>
    match stage with
    | .opening => some (s.openTransport start serverEntity false)
    | _ => none
  | .httpFailed _ =>
    match stage with
    | .connecting t false =>
      some ({ s with plannedTransportCloses := s.plannedTransportCloses ++ [t] }.setOperation
        start (.starting serverEntity (.fallingBack t)))
    | _ => none
  | .fallbackCreated _ =>
    match stage with
    | .fallingBack _ => some (s.openTransport start serverEntity true)
    | _ => none
  | .connected _ =>
    match stage with
    | .connecting t _ =>
      some ({ s with context :=
        { s.context with status := .online, connection := some ⟨start⟩, transport := some t }
        }.setOperation start (.starting serverEntity (.stored t)))
    | _ => none
  | .ready _ =>
    match stage with
    | .stored _ =>
      some ({ s with context := s.context.clearError }.setOperation start
        (.starting serverEntity .logging))
    | _ => none
  | .startReturns _ =>
    match stage with
    | .logging => some ((s.removeOperation start).settle start true)
    | _ => none
  | .startFails _ message =>
    match stage with
    | .logging => none
    | _ => some (s.startFails start serverEntity message)
  | _ => none

/-- The next await of a disconnect ends. -/
def disconnectStep (s : Lifecycle) (i : Nat) : LifecycleAction → Option Lifecycle
  | .closeCompletes _ =>
    match s.operations.get? i with
    | some (.closing caller) =>
      some ({ s with context := s.context.clearConnectionState caller.status }.setOperation i
        (.closed caller))
    | _ => none
  | .disconnectReturns _ =>
    match s.operations.get? i with
    | some (.closed caller) => some ((s.removeOperation i).afterDisconnect caller)
    | _ => none
  | _ => none

/-- A call of `ensureServerAvailable` returns. `waitForServerReady` looks the context up again. -/
def ensureReturns (s : Lifecycle) (call : Nat) : Option Lifecycle :=
  match s.calls.get? call with
  | some ⟨.returning, _⟩ => some { s with calls := s.calls.erase call }
  | some ⟨.polling, _⟩ =>
    if s.registered ∧ s.context.status = .online then
      some { s with calls := s.calls.erase call }
    else none
  | _ => none

/-- A call of `ensureServerAvailable` throws; `waitForServerReady` may run into its timeout at
    any time. -/
def ensureThrows (s : Lifecycle) (call : Nat) : Option Lifecycle :=
  match s.calls.get? call with
  | some ⟨.throwing, _⟩ | some ⟨.polling, _⟩ => some { s with calls := s.calls.erase call }
  | _ => none

/-- A step, before the calls have seen its result. -/
def act (s : Lifecycle) (a : LifecycleAction) : Option Lifecycle :=
  match a with
  | .ensureServerAvailable restored hasToken =>
    if s.registered then
      some ((s.restored restored).ensureServerAvailable hasToken)
    else none
  | .addServer serverEntity => if s.registered then some (s.addServer serverEntity) else none
  | .reconnectServer serverEntity =>
    if s.registered then some (s.disconnectServerContext (.reconnectServer serverEntity)) else none
  -- these two have taken the context from the map before an await
  | .removeServer => some (s.disconnectServerContext .removeServer)
  | .sleepServer => some (s.disconnectServerContext .sleepServer)
  | .createTemporaryServer serverEntity sleep =>
    if s.registered then some (s.createTemporaryServer serverEntity sleep) else none
  | .prepared start _ _ | .modernConnected start | .modernFailed start | .modernReady start
  | .transportCreated start | .httpFailed start | .fallbackCreated start | .connected start
  | .ready start | .startReturns start | .startFails start _ =>
    match s.stage? start with
    | some (serverEntity, stage) => s.startStep start serverEntity stage a
    | none => none
  | .closeCompletes i | .disconnectReturns i => s.disconnectStep i a
  | .queueCleared =>
    match s.waitQueue with
    | some ⟨_, some _⟩ => some { s with waitQueue := none }
    | _ => none
  | .ensureReturns call => s.ensureReturns call
  | .ensureThrows call => s.ensureThrows call
  | .transportClosed t message =>
    if t ∈ s.transports then
      some { s.onclose t message with closedTransports := s.closedTransports ++ [t] }
    else none

def isLive (s : Lifecycle) : Bool := s.context.status == .online && s.context.connection.isSome

/-- Every call that waits sees whether the context is online with a connection. -/
def observe (s : Lifecycle) : Lifecycle :=
  if s.isLive then { s with calls := s.calls.map fun c => { c with wasOnline := true } } else s

def step (s : Lifecycle) (a : LifecycleAction) : Option Lifecycle := (s.act a).map observe

end Lifecycle

end PetaCore
