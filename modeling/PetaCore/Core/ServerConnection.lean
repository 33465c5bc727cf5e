import PetaCore.ForStd.StateTriple
import PetaCore.Core.LaunchConfig
import PetaCore.Core.TemporaryServers

/-!
# Establishing a connection to a server

`createServerConnection` from its guard to its end, for one server context: the probe with the
modern client, the transport of the launch config, the fallback from HTTP to SSE, and the steps
after a connection. How each awaited call ends is a `StartOutcomes`; what happens to the context,
to the row of the server and to the clients is a `StartState`, which a throw leaves as it is.
-/

namespace PetaCore

/-- An error of a start, as far as a handler looks at it. -/
inductive StartError where
  /-- an `McpError` with its code -/
  | mcp (code : Int)
  | other
deriving DecidableEq

/-- `isModernProtocolError` -/
def StartError.isModernProtocolError : StartError → Bool
  | .mcp code => [-32020, -32021, -32022].contains code
  | .other => false

/-- `DownstreamTransportType`; the `type` of a launch config may also be something else. -/
inductive DownstreamTransportType where
  | stdio
  | http
  | sse
  | unsupported
deriving DecidableEq

/-- `DownstreamMcpProtocolPreference` -/
inductive DownstreamMcpProtocolPreference where
  | auto
  | legacy
  | modern
deriving DecidableEq

/-! ## The launch config -/

namespace DownstreamTransportFactory

def explicitType : Option Json → DownstreamTransportType
  | some (.str "stdio") => .stdio
  | some (.str "http") => .http
  | some (.str "sse") => .sse
  | _ => .unsupported

/-- `url.toLowerCase().includes(part)` for an ASCII part in lower case. -/
def mentions (url part : String) : Bool := decide (part.toList <:+: url.toLower.toList)

/-- `detectTransportType`; `none` when it throws. -/
def detectTransportType (config : Json) : Option DownstreamTransportType :=
  let url := property? "url" config
  if isTruthyProperty (property? "type" config) then some (explicitType (property? "type" config))
  else
    match property? "mcpProtocol" config, isTruthyProperty url with
    | some (.str "modern"), true => some .http
    | _, _ =>
      if isTruthyProperty (property? "command" config) then some .stdio
      else
        match url with
        | some (.str text) =>
          if text = "" then none
          else if mentions text "/sse" || mentions text "/events" then some .sse
          else some .http
        | _ => none

/-- `canFallbackHttpToSse` -/
def canFallbackHttpToSse (config : Json) (transportType : DownstreamTransportType) : Bool :=
  transportType == .http && !isTruthyProperty (property? "type" config) &&
    match property? "url" config with
    | some (.str url) => url != ""
    | _ => false

end DownstreamTransportFactory

/-- `resolveDownstreamProtocolPreference`; `none` when it throws. -/
def resolveDownstreamProtocolPreference (launchConfig : Json) :
    Option DownstreamMcpProtocolPreference :=
  match property? "mcpProtocol" launchConfig with
  | none | some .null | some (.str "auto") => some .auto
  | some (.str "legacy") => some .legacy
  | some (.str "modern") => some .modern
  | _ => none

/-! ## The steps of a start -/

/-- The clients that a start makes: the modern one, the one on the transport of the launch config,
    and the one on the SSE transport of the fallback. -/
inductive StartClient where
  | modern
  | transport
  | sseFallback
deriving DecidableEq

/-- What a start reads, and how the calls that it awaits end. -/
structure StartOutcomes where
  category : ServerCategory
  allowUserInput : Bool
  isLazyStartApplicable : Bool
  downstreamEnabled : Bool
  /-- the launch config after it has been decrypted, authentication has been initialized and
      `resolveLaunchPlan` has been called -/
  resolvedLaunchConfig : Except StartError Json
  /-- authentication has started a token refresh timer -/
  tokenRefresh : Bool
  createTransport : Except StartError Unit
  createSSEFallbackTransport : Except StartError Unit
  /-- the runner of a custom stdio server explains why it did not start -/
  runnerFailure : Bool
  connect : StartClient → Except StartError Unit
  /-- the name in `getServerVersion` -/
  serverVersion : StartClient → Option String
  saveTransportType : StartClient → Except StartError Unit
  saveServerName : StartClient → Except StartError Unit
  ping : StartClient → Except StartError Unit
  /-- `capabilities.resources?.subscribe === true` -/
  resourcesSubscribe : StartClient → Bool
  restoreResourceSubscriptions : StartClient → Except StartError Unit
  logServerLifecycle : StartClient → Except StartError Unit

/-- The fields of the context and of the server's row that a start writes, and the clients. -/
structure StartState where
  status : ServerStatus
  connection : Option StartClient
  /-- the transport of a client -/
  transport : Option StartClient
  /-- the timer of `startTokenRefresh` is set -/
  tokenRefresh : Bool
  transportType : Option DownstreamTransportType
  serverName : String
  /-- the clients that have connected -/
  opened : List StartClient
  /-- the clients that have been closed -/
  closed : List StartClient
deriving DecidableEq

abbrev StartM := EStateM StartError StartState

namespace StartOutcomes

open StateTriple (await)

variable (o : StartOutcomes)

/-- Connect a client. The SDK closes a client whose `connect` fails, and a probe that fails leaves
    nothing open. -/
def connectClient (client : StartClient) : StartM Unit := do
  await (o.connect client)
  modify fun s => { s with opened := client :: s.opened }

/-- Cache the transport that actually connected. -/
def cacheTransportType (client : StartClient) (transportType : DownstreamTransportType) :
    StartM Unit := do
  let s ← get
  if s.transportType ≠ some transportType then
    await (o.saveTransportType client)
    modify fun s => { s with transportType := some transportType }

/-- The name for a server that has none, from what the server says about itself. -/
def filledName (client : StartClient) (serverName : String) : Option String :=
  if o.category = .customRemote ∨ o.category = .customStdio then
    match o.serverVersion client with
    | none | some "" => none
    | some name =>
      if isBlank serverName then some (trim name ++ if o.allowUserInput then " Personal" else "")
      else none
  else none

def fillServerName (client : StartClient) : StartM Unit := do
  let s ← get
  match o.filledName client s.serverName with
  | none => pure ()
  | some serverName =>
    await (o.saveServerName client)
    modify fun s => { s with serverName }

/-- Whether the subscriptions are restored. The constructor of the modern client removes
    `resources.subscribe` from the capabilities. -/
def supportsResourceSubscriptions : StartClient → Bool
  | .modern => false
  | client => o.resourcesSubscribe client

/-- `updateServerCapabilities`; the errors of all calls but the last one are caught. -/
def updateServerCapabilities (client : StartClient) : StartM Unit :=
  if o.supportsResourceSubscriptions client then await (o.restoreResourceSubscriptions client)
  else pure ()

/-- `createModernHttpServerConnection` -/
def createModernHttpServerConnection : StartM Unit := do
  o.connectClient .modern
  o.cacheTransportType .modern .http
  o.fillServerName .modern
  modify fun s => { s with connection := some .modern, transport := none }
  o.updateServerCapabilities .modern
  modify fun s => { s with status := .online }
  await (o.logServerLifecycle .modern)

/-- The probe with the modern client: whether the start is done. -/
def probeModern (preference : DownstreamMcpProtocolPreference) : StartM Bool :=
  tryCatch (do o.createModernHttpServerConnection; return true) fun error =>
    if preference = .modern || error.isModernProtocolError then throw error else return false

/-- `DownstreamTransportFactory.create` -/
def createTransportOf (config : Json) : StartM DownstreamTransportType :=
  match DownstreamTransportFactory.detectTransportType config with
  | none | some .unsupported => throw .other
  | some transportType => do
    await o.createTransport
    return transportType

/-- The handler of a `connect` that has failed. It ends in `throw error` also when the fallback has
    connected. -/
def handleConnectError (config : Json) (transportType : DownstreamTransportType)
    (error : StartError) : StartM (StartClient × DownstreamTransportType) := do
  if DownstreamTransportFactory.canFallbackHttpToSse config transportType then
    await o.createSSEFallbackTransport
    tryCatch (o.connectClient .sseFallback) fun _ => throw .other
  else if o.runnerFailure then throw .other
  throw error

/-- Create the transport and connect: the client and its transport's type. -/
def connectTransport (config : Json) : StartM (StartClient × DownstreamTransportType) := do
  let transportType ← o.createTransportOf config
  tryCatch (do o.connectClient .transport; return (.transport, transportType))
    (o.handleConnectError config transportType)

/-- The steps after `client.connect`. -/
def finishConnection (client : StartClient) (transportType : DownstreamTransportType) :
    StartM Unit := do
  o.cacheTransportType client transportType
  o.fillServerName client
  await (o.ping client)
  modify fun s => { s with status := .online, connection := some client, transport := some client }
  o.updateServerCapabilities client
  await (o.logServerLifecycle client)

/-- The transport of the launch config, with what follows. -/
def connectLegacy (config : Json) : StartM Unit := do
  let (client, transportType) ← o.connectTransport config
  o.finishConnection client transportType

/-- What a launch config asks for: the first transport's type and the protocol. `none` when the
    start throws over it. -/
def plan (config : Json) : Option (DownstreamTransportType × DownstreamMcpProtocolPreference) :=
  match DownstreamTransportFactory.detectTransportType config,
    resolveDownstreamProtocolPreference config with
  | some initialTransportType, some preference =>
    if preference = .modern ∧ initialTransportType ≠ .http then none
    else some (initialTransportType, preference)
  | _, _ => none

/-- The body of `createServerConnection`, inside its `try`. -/
def start : StartM Unit := do
  modify fun s => { s with status := .connecting }
  modify fun s => { s with tokenRefresh := o.tokenRefresh }
  let config ← await o.resolvedLaunchConfig
  match plan config with
  | none => throw .other
  | some (initialTransportType, preference) =>
    if initialTransportType = .http ∧ preference ≠ .legacy ∧ o.downstreamEnabled = true then
      let done ← o.probeModern preference
      if done then return () else o.connectLegacy config
    else if preference = .modern ∧ o.downstreamEnabled = false then throw .other
    else o.connectLegacy config

/-- `createServerConnection`. What it throws is `error` up to its text. -/
def createServerConnection : StartM Unit := do
  let s ← get
  if s.status = .online ∨ s.status = .connecting then return ()
  else
    tryCatch o.start fun error => do
      modify fun s =>
        { s with
          tokenRefresh := false
          status := if o.isLazyStartApplicable then .sleeping else .error
          connection := none
          transport := none }
      throw error

end StartOutcomes

end PetaCore
