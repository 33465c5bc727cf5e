import PetaCore.Core.AppResource
import PetaCore.Core.ResultCacheManager

/-!
# ProxySession

The handler of `resources/read`. What it reads of the rest of the gateway between two of its
waits is given by a `ResourceReadAttempt`: the server contexts at each of these moments, the
answer of the early cache lookup, and the result it gets through `executeWithCache` or from
the downstream server.

Then the requests that the session forwards, up to what they send to a downstream server: how
each handler finds the server and the item, and which check it makes before.
-/

namespace PetaCore

/-- The `ErrorCode`s of the handler. -/
inductive ErrorCode where
  | invalidParams
  | internalError
deriving DecidableEq

/-- `McpError` -/
structure McpError where
  code : ErrorCode
  message : String
deriving DecidableEq

/-- How a handler fails: with an error of its own, or with the one it has caught. -/
inductive HandlerError where
  | mcp (error : McpError)
  | thrown (error : String)
deriving DecidableEq

/-- What one attempt of `handleResourceRead` meets. -/
structure ResourceReadAttempt where
  /-- the contexts when the request comes in -/
  manager : ServerManager CapabilityConfig
  /-- `ResultCacheService.enabled` -/
  cacheEnabled : Bool
  /-- `resolveResourcePolicy` -/
  resolveResourcePolicy : ServerContext CapabilityConfig → String → Option ResolvedCachePolicy
  /-- the payload of the early lookup when it hits; a lookup that fails counts as none -/
  cached : Option ReadResourceResult
  /-- the contexts after `ensureServerAvailable`, or its error -/
  ensured : Except String (ServerManager CapabilityConfig)
  /-- whether the server has a `connection` -/
  connected : Bool
  /-- what `executeWithCache` or the downstream server answers -/
  served : Except String ReadResourceResult
  /-- the contexts when the answer is there -/
  managerAfter : ServerManager CapabilityConfig
  /-- what `recordTimeout` says about the error -/
  isReconnected : Option Bool

namespace ProxySession

open ClientSession (GatewayRoute)

/-- The `error` of an unresolved URI. -/
def invalidResourceUri (resourceUri : String) : HandlerError :=
  .mcp ⟨.invalidParams, "Invalid resource URI: " ++ resourceUri⟩

def permissionDeniedForResource (resourceUri : String) : HandlerError :=
  .mcp ⟨.invalidParams, "Permission denied for resource: " ++ resourceUri⟩

def noServerForResource (serverID : String) : HandlerError :=
  .mcp ⟨.internalError, "No server available for resource: " ++ serverID⟩

def noClientForResource (resourceUri : String) : HandlerError :=
  .mcp ⟨.internalError, "No client available for resource: " ++ resourceUri⟩

/-- Whether the handler asks the cache before it starts the server. -/
def looksUpEarly (s : ClientSession) (a : ResourceReadAttempt) (result : GatewayRoute) : Bool :=
  match a.manager.getServerContext result.serverID (some s.userId) with
  | none => false
  | some earlyResContext =>
    a.cacheEnabled && (a.resolveResourcePolicy earlyResContext result.originalName).isSome

/-- The outcome of an attempt, and whether the handler starts again. -/
structure AttemptOutcome where
  result : Except HandlerError ReadResourceResult
  retry : Bool

/-- An attempt that ends for good. -/
def AttemptOutcome.final (result : Except HandlerError ReadResourceResult) : AttemptOutcome :=
  ⟨result, false⟩

/-- `handleResourceRead` after the early lookup. -/
def readFromServer (s : ClientSession) (a : ResourceReadAttempt) (resourceUri : String)
    (result : GatewayRoute) : AttemptOutcome :=
  match a.ensured with
  | .error error => .final (.error (.thrown error))
  | .ok manager =>
    match manager.getServerContext result.serverID (some s.userId) with
    | none => .final (.error (noServerForResource result.serverID))
    | some _ =>
      if a.connected then
        match a.served with
        | .ok serverResult =>
          .final (.ok (rewriteAppResourceResult a.managerAfter s serverResult result.serverID))
        | .error error => ⟨.error (.thrown error), a.isReconnected == some false⟩
      else .final (.error (noClientForResource resourceUri))

/-- One attempt of `handleResourceRead`. -/
def attemptResourceRead (s : ClientSession) (a : ResourceReadAttempt) (resourceUri : String) :
    AttemptOutcome :=
  match s.resolveResourceUri a.manager resourceUri with
  | none => .final (.error (invalidResourceUri resourceUri))
  | some result =>
    if s.canAccessResource a.manager result.serverID result.originalName then
      if looksUpEarly s a result then
        match a.cached with
        | some payload => .final (.ok payload)
        | none => readFromServer s a resourceUri result
      else readFromServer s a resourceUri result
    else .final (.error (permissionDeniedForResource resourceUri))

/-- `handleResourceRead` with `retriesLeft` of its two retries; `attempts` is what each further
    attempt meets. -/
def handleResourceRead (s : ClientSession) (resourceUri : String)
    (attempts : Nat → ResourceReadAttempt) :
    (retriesLeft : Nat) → Except HandlerError ReadResourceResult
  | 0 => (attemptResourceRead s (attempts 0) resourceUri).result
  | retriesLeft + 1 =>
    let outcome := attemptResourceRead s (attempts 0) resourceUri
    if outcome.retry then
      handleResourceRead s resourceUri (fun i => attempts (i + 1)) retriesLeft
    else outcome.result

/-! ## Forwarded requests -/

/-- The requests that are forwarded to one server. -/
inductive LegacyRequest where
  | toolCall (name : String)
  | resourceRead (uri : String)
  | subscribe (uri : String)
  | promptGet (name : String)
  | completePrompt (name : String)
  | completeResource (uri : String)

/-- What a handler meets after its check. -/
structure ForwardAttempt where
  /-- the contexts when the request comes in -/
  manager : ServerManager CapabilityConfig
  /-- the early cache lookup hits -/
  cached : Bool
  /-- a policy, an approval or an earlier subscription ends the request -/
  stopped : Bool
  /-- the contexts after `ensureServerAvailable`, or its error -/
  ensured : Except String (ServerManager CapabilityConfig)
  /-- whether the server has a `connection` -/
  connected : Bool

/-- What a request comes to: content of the cache, or a request to the server, both for the
    item of a route. -/
inductive Delivery where
  | cached (route : GatewayRoute)
  | forwarded (route : GatewayRoute)
deriving DecidableEq

/-- The item that is delivered. -/
def Delivery.route : Delivery → GatewayRoute
  | .cached route | .forwarded route => route

/-- The server is started and looked up again, and the request goes to its connection. -/
def forwardTo (s : ClientSession) (a : ForwardAttempt) (route : GatewayRoute) :
    Option Delivery :=
  match a.ensured with
  | .error _ => none
  | .ok manager =>
    match manager.getServerContext route.serverID (some s.userId) with
    | none => none
    | some _ => if a.connected && !a.stopped then some (.forwarded route) else none

/-- A request that was let through is answered from the cache or forwarded. -/
def deliver (s : ClientSession) (a : ForwardAttempt) (route : GatewayRoute) : Option Delivery :=
  if a.cached then some (.cached route) else forwardTo s a route

/-- `handleToolCall` -/
def deliverToolCall (s : ClientSession) (a : ForwardAttempt) (toolName : String) :
    Option Delivery :=
  match s.resolveToolName a.manager toolName with
  | none => none
  | some result =>
    if s.canUseTool a.manager result.serverID result.originalName then deliver s a result
    else none

/-- `handleResourceRead` -/
def deliverResourceRead (s : ClientSession) (a : ForwardAttempt) (resourceUri : String) :
    Option Delivery :=
  match s.resolveResourceUri a.manager resourceUri with
  | none => none
  | some result =>
    if s.canAccessResource a.manager result.serverID result.originalName then deliver s a result
    else none

/-- `handleSubscribe`, with `subscribeResource` of the manager. -/
def deliverSubscribe (s : ClientSession) (a : ForwardAttempt) (resourceUri : String) :
    Option Delivery :=
  match s.parseName a.manager resourceUri with
  | none => none
  | some result =>
    if s.canAccessResource a.manager result.serverID result.originalName then
      match a.manager.getServerContext result.serverID (some s.userId) with
      | none => none
      | some c =>
        if ((c.capabilities.bind (·.resources)).bind (·.subscribe)) = some true ∧
            a.stopped = false ∧ a.connected = true then some (.forwarded result)
        else none
    else none

/-- `handlePromptGet` -/
def deliverPromptGet (s : ClientSession) (a : ForwardAttempt) (promptName : String) :
    Option Delivery :=
  match s.parseName a.manager promptName with
  | none => none
  | some parseResult =>
    if s.canUsePrompt a.manager parseResult.serverID parseResult.originalName then
      deliver s a parseResult
    else none

/-- `handleComplete` -/
def deliverComplete (s : ClientSession) (a : ForwardAttempt) (promptName : String) :
    Option Delivery :=
  match s.parseName a.manager promptName with
  | none => none
  | some result => forwardTo s a result

/-- What the session delivers for a request. -/
def deliverRequest (s : ClientSession) (a : ForwardAttempt) : LegacyRequest → Option Delivery
  | .toolCall name => deliverToolCall s a name
  | .resourceRead uri => deliverResourceRead s a uri
  | .subscribe uri => deliverSubscribe s a uri
  | .promptGet name => deliverPromptGet s a name
  | .completePrompt name => deliverComplete s a name
  | .completeResource uri => deliverComplete s a uri

/-- `handleRootsListChanged`: the contexts whose connection is told, of those that have one. -/
def handleRootsListChanged (m : ServerManager CapabilityConfig) (s : ClientSession)
    (connected : ServerContext CapabilityConfig → Bool) :
    List (ServerContext CapabilityConfig) :=
  (s.getAvailableServers m).filter connected

end ProxySession

end PetaCore
