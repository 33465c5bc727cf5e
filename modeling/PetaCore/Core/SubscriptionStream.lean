import PetaCore.Core.ModernMcpController
import PetaCore.Core.SubscribeCall

/-!
# The stream of a subscription

A request of `subscriptions/listen` from its parameters on: the filter that they make, what is
acknowledged, and the stream that is open then, which delivers the events of `modernSubscriptionBus`
that match, and closes when the client goes away or when the credentials expire. Times are in
milliseconds.

`SubscriptionListen` has the same requests as they subscribe to resources and release them. The
flags `listChanged` that `buildServerCapabilities` advertises are parameters.
-/

namespace PetaCore

/-- What the handling of a request reads of its context. -/
structure ModernRequestContext where
  authContext : AuthContext
  oauthClientId : Option String
  oauthScopes : Option (List String)
  /-- in seconds, as the next one -/
  oauthAccessTokenExpiresAt : Option Int
  expiresAt : Option Int

/-- The parameters of a request; `params` are the members of an object. -/
structure SubscriptionListenRequest where
  id : Option Json
  params : Option (List (String × Json))

structure ModernSubscriptionFilter where
  methods : List String
  serverIds : List String
  resourceUris : List String
  notifications : List (String × Json)

/-- Which lists the advertised capabilities say `listChanged` of. -/
structure ListChanged where
  tools : Bool
  prompts : Bool
  resources : Bool
deriving DecidableEq

structure AcknowledgedNotifications where
  toolsListChanged : Bool
  promptsListChanged : Bool
  resourcesListChanged : Bool
  resourceSubscriptions : List String
deriving DecidableEq

structure ModernSubscriptionEvent where
  method : String
  serverId : Option String
  scopeId : Option String
  resourceUri : Option String
  params : List (String × Json)

/-- What is written to the stream. -/
inductive SseMessage where
  | acknowledged (notifications : AcknowledgedNotifications) (subscriptionId : Json)
  | event (method : String) (params : List (String × Json))
  /-- the result of the request -/
  | complete (subscriptionId : Json)
  | heartbeat

inductive SubscriptionDropReason where
  | authExpired
  | clientClosed
deriving DecidableEq

/-! ## The filter -/

namespace ModernSubscriptionFilter

def toolsListChangedMethod : String := "notifications/tools/list_changed"

def promptsListChangedMethod : String := "notifications/prompts/list_changed"

def resourcesListChangedMethod : String := "notifications/resources/list_changed"

def resourcesUpdatedMethod : String := "notifications/resources/updated"

/-- `MODERN_SUBSCRIPTION_METHODS` -/
def supportedMethods : List String :=
  [toolsListChangedMethod, resourcesListChangedMethod, resourcesUpdatedMethod,
    promptsListChangedMethod]

def invalidParams (message : String) : ModernMcpError := ⟨400, ModernErrorCodes.invalidParams, message⟩

/-- The items of a list of non-empty texts. -/
def nonEmptyStrings (items : List Json) : List String :=
  items.filterMap fun item =>
    match item with
    | .str s => if s = "" then none else some s
    | _ => none

/-- What `buildSubscriptionNotifications` asks of a flag. -/
def checkFlag (notifications : List (String × Json)) (key : String) : Except ModernMcpError Unit :=
  match notifications.lookup key with
  | none | some (.bool _) => .ok ()
  | some _ => .error (invalidParams ("notifications." ++ key ++ " must be a boolean"))

def checkResourceSubscriptions (notifications : List (String × Json)) :
    Except ModernMcpError Unit :=
  let error := invalidParams
    "notifications.resourceSubscriptions must be an array of non-empty strings"
  match notifications.lookup "resourceSubscriptions" with
  | none => .ok ()
  | some (.arr items) =>
    if (nonEmptyStrings items).length = items.length then .ok () else .error error
  | some _ => .error error

/-- `buildSubscriptionNotifications` -/
def buildSubscriptionNotifications (params : List (String × Json)) :
    Except ModernMcpError (List (String × Json)) :=
  match params.lookup "notifications" with
  | none => .error (invalidParams "params.notifications is required")
  | some (.obj notifications) => do
    checkFlag notifications "toolsListChanged"
    checkFlag notifications "promptsListChanged"
    checkFlag notifications "resourcesListChanged"
    checkResourceSubscriptions notifications
    .ok notifications
  | some _ => .error (invalidParams "notifications must be an object")

/-- `requireStringArrayFilter` -/
def requireStringArrayFilter (params : List (String × Json)) (key : String) :
    Except ModernMcpError (List String) :=
  match params.lookup key with
  | none => .ok []
  | some (.arr items) =>
    if (nonEmptyStrings items).length ≠ items.length then
      .error (invalidParams (key ++ " must contain only non-empty strings"))
    else .ok (nonEmptyStrings items)
  | some _ => .error (invalidParams (key ++ " must be an array of strings"))

/-- `notifications[key] === true` -/
def isSet (notifications : List (String × Json)) (key : String) : Bool :=
  match notifications.lookup key with
  | some (.bool true) => true
  | _ => false

def resourceSubscriptions (notifications : List (String × Json)) : List String :=
  match notifications.lookup "resourceSubscriptions" with
  | some (.arr items) => nonEmptyStrings items
  | _ => []

/-- The methods that the notifications add to those of the request. -/
def notificationMethods (notifications : List (String × Json)) : List String :=
  (if isSet notifications "toolsListChanged" then [toolsListChangedMethod] else []) ++
  (if isSet notifications "promptsListChanged" then [promptsListChangedMethod] else []) ++
  (if isSet notifications "resourcesListChanged" then [resourcesListChangedMethod] else []) ++
  (if resourceSubscriptions notifications ≠ [] then [resourcesUpdatedMethod] else [])

/-- `buildSubscriptionFilter` -/
def build (params : List (String × Json)) : Except ModernMcpError ModernSubscriptionFilter := do
  let notifications ← buildSubscriptionNotifications params
  let methods ← requireStringArrayFilter params "methods"
  let invalidMethods := methods.filter (· ∉ supportedMethods)
  if invalidMethods ≠ [] then
    .error (invalidParams
      ("Unsupported subscription methods: " ++ ", ".intercalate invalidMethods))
  else
    let serverIds ← requireStringArrayFilter params "serverIds"
    let resourceUris ← requireStringArrayFilter params "resourceUris"
    .ok {
      methods := methods ++ notificationMethods notifications
      serverIds
      resourceUris := resourceUris ++ resourceSubscriptions notifications
      notifications }

/-- `requiredScopesForSubscription` -/
def requiredScopes (filter : ModernSubscriptionFilter) : List String :=
  (filter.methods.filterMap fun method =>
    if method = toolsListChangedMethod then some "mcp:tools"
    else if method = resourcesListChangedMethod ∨ method = resourcesUpdatedMethod then
      some "mcp:resources"
    else if method = promptsListChangedMethod then some "mcp:prompts"
    else none).eraseDups

/-- `enforceSubscriptionScopes` -/
def enforceScopes (context : ModernRequestContext) (filter : ModernSubscriptionFilter) :
    Except ModernMcpError Unit :=
  -- an empty client id counts as none
  if context.oauthClientId.getD "" = "" then .ok ()
  else
    match filter.requiredScopes.find? fun scope => scope ∉ context.oauthScopes.getD [] with
    | none => .ok ()
    | some scope =>
      .error ⟨403, ModernErrorCodes.invalidRequest, "OAuth scope required: " ++ scope⟩

/-- What is acknowledged, with the resources that have been subscribed to. -/
def acknowledge (filter : ModernSubscriptionFilter) (capabilities : ListChanged)
    (downstreamSubscriptions : List ModernSubscribed) : AcknowledgedNotifications where
  toolsListChanged := isSet filter.notifications "toolsListChanged" && capabilities.tools
  promptsListChanged := isSet filter.notifications "promptsListChanged" && capabilities.prompts
  resourcesListChanged := isSet filter.notifications "resourcesListChanged" && capabilities.resources
  resourceSubscriptions := downstreamSubscriptions.map (·.requestedUri)

end ModernSubscriptionFilter

/-! ## Events -/

namespace ModernMcpController

/-- A text that is there and is not empty. -/
def truthy (text : Option String) : Option String := text.filter (· ≠ "")

/-- `generateGatewayName` -/
def generateGatewayName (contextId name : String) : String := name ++ "_-_" ++ contextId

/-- `findResourceName` -/
def findResourceName (c : ServerContext CapabilityConfig) (uri : String) : Option String :=
  let resources := (c.lists.resources.or c.cached.resources).getD []
  let templates := (c.lists.resourceTemplates.or c.cached.resourceTemplates).getD []
  match truthy ((resources.find? fun resource => resource.uri = uri).map (·.name)) with
  | some resourceName => some resourceName
  | none => (templates.find? fun template => template.uriTemplate = uri).map (·.name)

/-- `resolveSubscriptionEventServerContext` -/
def resolveSubscriptionEventServerContext (m : ServerManager CapabilityConfig) (userId : String)
    (event : ModernSubscriptionEvent) : Option (ServerContext CapabilityConfig) :=
  match truthy event.scopeId with
  | some scopeId =>
    (m.getServerContextByID scopeId).or (m.getTemporaryServerContextByID scopeId userId)
  | none => (truthy event.serverId).bind fun serverId => m.getServerContext serverId (some userId)

/-- `subscriptionResourceUris` -/
def subscriptionResourceUris (m : ServerManager CapabilityConfig) (userId : String)
    (event : ModernSubscriptionEvent) : List String :=
  match truthy event.resourceUri with
  | none => []
  | some resourceUri =>
    match resolveSubscriptionEventServerContext m userId event with
    | none => [resourceUri]
    | some c => [resourceUri, generateGatewayName c.id resourceUri]

/-- `filter.serverIds.size > 0 && (!event.serverId || !filter.serverIds.has(event.serverId))` is
    false -/
def passesServers (filter : ModernSubscriptionFilter) (event : ModernSubscriptionEvent) : Bool :=
  filter.serverIds = [] || (truthy event.serverId).any (· ∈ filter.serverIds)

/-- `subscriptionMatches` -/
def subscriptionMatches (m : ServerManager CapabilityConfig) (userId : String)
    (filter : ModernSubscriptionFilter) (event : ModernSubscriptionEvent) : Bool :=
  if filter.methods = [] then false
  else if event.method ∉ filter.methods then false
  else if !passesServers filter event then false
  else if filter.resourceUris ≠ [] ∧
      (subscriptionResourceUris m userId event).all (· ∉ filter.resourceUris) then false
  else true

/-- `canReceiveSubscriptionEvent` -/
def canReceiveSubscriptionEvent (m : ServerManager CapabilityConfig) (authContext : AuthContext)
    (event : ModernSubscriptionEvent) : Bool :=
  if (truthy event.serverId).isNone then true
  else
    match resolveSubscriptionEventServerContext m authContext.userId event with
    | none => false
    | some c =>
      if !canAccessServer authContext c then false
      else
        match truthy event.resourceUri with
        | none => true
        | some resourceUri =>
          match truthy (findResourceName c resourceUri) with
          | none => false
          | some resourceName => canAccessResource authContext c resourceName

/-- `rewriteSubscriptionParams` -/
def rewriteSubscriptionParams (m : ServerManager CapabilityConfig) (userId : String)
    (event : ModernSubscriptionEvent) : List (String × Json) :=
  match truthy event.resourceUri, truthy event.serverId with
  | some resourceUri, some _ =>
    match resolveSubscriptionEventServerContext m userId event with
    | none => event.params
    | some c => Dict.setEntry "uri" (.str (generateGatewayName c.id resourceUri)) event.params
  | _, _ => event.params

/-- The message of an event, with the id of the subscription among its `_meta`. -/
def eventMessage (m : ServerManager CapabilityConfig) (userId : String) (subscriptionId : Json)
    (event : ModernSubscriptionEvent) : SseMessage :=
  let eventParams := rewriteSubscriptionParams m userId event
  let members :=
    match eventParams.lookup "_meta" with
    | some (.obj members) => members
    | _ => []
  .event event.method (Dict.setEntry "_meta"
    (.obj (Dict.setEntry "io.modelcontextprotocol/subscriptionId" subscriptionId members)) eventParams)

end ModernMcpController

/-! ## The stream -/

/-- A stream. `now` is the time, `authExpiryTimer` the time from which the timer may fire. -/
structure SubscriptionStream where
  context : ModernRequestContext
  filter : ModernSubscriptionFilter
  acknowledged : AcknowledgedNotifications
  subscriptionId : Json
  now : Int
  authExpiryTimer : Option Int
  closed : Option (SubscriptionDropReason × Int)
  written : List SseMessage

inductive StreamAction where
  /-- an event is published while the server contexts are these -/
  | publish (manager : ServerManager CapabilityConfig) (event : ModernSubscriptionEvent)
  | heartbeat
  | tick (time : Nat)
  /-- the timer fires -/
  | authExpires
  | clientCloses

namespace SubscriptionStream

/-- The delay that `setTimeout` waits for: it takes one millisecond when the delay is not positive
    or has no place in 32 bits. -/
def timeoutDelay (delay : Int) : Int := if 2147483647 < delay ∨ delay < 1 then 1 else delay

/-- `authExpirationMs` -/
def authExpirationMs (context : ModernRequestContext) (now : Int) : Option Int :=
  match context.oauthAccessTokenExpiresAt.or context.expiresAt with
  | none => none
  | some expirationSeconds =>
    if expirationSeconds = 0 then none else some (max 0 (expirationSeconds * 1000 - now))

/-- The stream that is open after the acknowledgement has been written. -/
def opened (context : ModernRequestContext) (filter : ModernSubscriptionFilter)
    (acknowledged : AcknowledgedNotifications) (subscriptionId : Json) (now : Int) :
    SubscriptionStream where
  context
  filter
  acknowledged
  subscriptionId
  now
  authExpiryTimer := (authExpirationMs context now).map fun delay => now + timeoutDelay delay
  closed := none
  written := [.acknowledged acknowledged subscriptionId]

/-- `handleSubscriptionListen`: the checks, the subscriptions to resources, and the stream. `now` is
    the time when the subscriptions have been made, and `capabilities` what is advertised then. -/
def handleSubscriptionListen (r : ModernSubscriber) (g : SubscriptionGateway) (turns : List Turn)
    (context : ModernRequestContext) (capabilities : ListChanged) (now : Int)
    (request : SubscriptionListenRequest) : Option (Except ModernSubscribeError SubscriptionStream) :=
  match request.params, request.id with
  | none, _ =>
    some (.error (.request (ModernSubscriptionFilter.invalidParams "params are required")))
  | some _, none =>
    some (.error (.request ⟨400, ModernErrorCodes.invalidRequest,
      "subscriptions/listen requires a JSON-RPC id"⟩))
  | some params, some subscriptionId =>
    match ModernSubscriptionFilter.build params with
    | .error error => some (.error (.request error))
    | .ok filter =>
      match filter.enforceScopes context with
      | .error error => some (.error (.request error))
      | .ok () =>
        let updated := decide (ModernSubscriptionFilter.resourcesUpdatedMethod ∈ filter.methods)
        (r.subscribeModernResources g turns updated filter.resourceUris.eraseDups).map fun result =>
          result.1.map fun downstreamSubscriptions =>
            opened context filter (filter.acknowledge capabilities downstreamSubscriptions)
              subscriptionId now

/-- The listener. -/
def deliver (s : SubscriptionStream) (m : ServerManager CapabilityConfig)
    (event : ModernSubscriptionEvent) : SubscriptionStream :=
  let userId := s.context.authContext.userId
  if !ModernMcpController.subscriptionMatches m userId s.filter event then s
  else if !ModernMcpController.canReceiveSubscriptionEvent m s.context.authContext event then s
  else
    { s with
      written := s.written ++ [ModernMcpController.eventMessage m userId s.subscriptionId event] }

/-- `closeSubscription` -/
def closeSubscription (s : SubscriptionStream) (reason : SubscriptionDropReason) :
    SubscriptionStream :=
  match s.closed with
  | some _ => s
  | none =>
    { s with
      closed := some (reason, s.now)
      authExpiryTimer := none
      written :=
        if reason = .authExpired then s.written ++ [.complete s.subscriptionId] else s.written }

/-- The listener is taken off the bus and the timers are stopped when the stream is closed. -/
def step (s : SubscriptionStream) : StreamAction → Option SubscriptionStream
  | .publish m event => if s.closed.isSome then some s else some (s.deliver m event)
  | .heartbeat =>
    if s.closed.isSome then none else some { s with written := s.written ++ [.heartbeat] }
  | .tick time => some { s with now := s.now + time }
  | .authExpires =>
    match s.authExpiryTimer with
    | none => none
    | some time => if time ≤ s.now then some (s.closeSubscription .authExpired) else none
  | .clientCloses => some (s.closeSubscription .clientClosed)

end SubscriptionStream

end PetaCore
