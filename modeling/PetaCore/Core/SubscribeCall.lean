import PetaCore.Core.ClientSession
import PetaCore.Core.HeaderAnnotations
import PetaCore.Core.SubscriptionListen

/-!
# Subscribe calls

`subscribeResource` records the session before it asks the downstream server, and
`subscribeModernResources` calls it for one URI after another and takes the earlier ones back when
a URI fails. The table is that of all scopes.

A call goes on over awaits. What other operations do in the meantime is a function on the gateway,
and what an awaited call to a downstream server comes to is given with it.
-/

namespace PetaCore

/-! ## The table -/

/-- What a `SubscriptionState` is made for. -/
structure SubscriptionScope where
  serverId : String
  userId : Option String
  resourceUri : String
  scopeId : String
deriving DecidableEq

/-- What changes of a `SubscriptionState`. -/
structure SubscriptionProgress where
  subscribedSessions : Dict Unit
  downstreamSubscribed : Bool
  /-- the call whose promise it is -/
  downstreamSubscription : Option Nat
deriving DecidableEq

/-- A `SubscriptionState`, with the scope it is for. -/
structure ScopeSubscription extends SubscriptionScope, SubscriptionProgress
deriving DecidableEq

def buildResourceSubscriptionKey (scopeId resourceUri : String) : String :=
  scopeId ++ "::" ++ resourceUri

def SubscriptionScope.key (scope : SubscriptionScope) : String :=
  buildResourceSubscriptionKey scope.scopeId scope.resourceUri

/-- `resourceSubscriptions` with its objects, which are numbered in the order in which they are
    made. An object is found under its own key only. -/
structure SubscriptionTable where
  states : Table ScopeSubscription
  resourceSubscriptions : Dict Nat
  keyed : ∀ key state, resourceSubscriptions.get? key = some state →
    ∃ value, states.get? state = some value ∧ value.key = key

namespace SubscriptionTable

theorem keyed_empty (key : String) (state : Nat)
    (h : (Dict.empty : Dict Nat).get? key = some state) :
    ∃ value, (Table.empty : Table ScopeSubscription).get? state = some value ∧ value.key = key := by
  cases h

def empty : SubscriptionTable := ⟨.empty, .empty, keyed_empty⟩

/-- The object of a key, with its number. -/
def entry (t : SubscriptionTable) (key : String) : Option (Nat × ScopeSubscription) :=
  (t.resourceSubscriptions.get? key).bind fun state =>
    (t.states.get? state).map fun value => (state, value)

/-- The objects, with one of them changed. -/
def modifyStates (t : SubscriptionTable) (state : Nat)
    (f : SubscriptionProgress → SubscriptionProgress) : Table ScopeSubscription :=
  match t.states.get? state with
  | none => t.states
  | some value =>
    t.states.put state { value with toSubscriptionProgress := f value.toSubscriptionProgress }

theorem get?_modifyStates (t : SubscriptionTable) (state : Nat)
    (f : SubscriptionProgress → SubscriptionProgress) (i : Nat) :
    (t.modifyStates state f).get? i =
      if i = state then
        (t.states.get? i).map fun value =>
          { value with toSubscriptionProgress := f value.toSubscriptionProgress }
      else t.states.get? i := by
  unfold modifyStates
  cases hstate : t.states.get? state with
  | none =>
    by_cases hi : i = state
    · simp [hi, hstate]
    · simp [hi]
  | some value =>
    simp only [Table.get?_put hstate]
    by_cases hi : i = state
    · simp [hi, hstate]
    · simp [hi]

theorem keyed_modify (t : SubscriptionTable) (state : Nat)
    (f : SubscriptionProgress → SubscriptionProgress) (key : String) (i : Nat)
    (h : t.resourceSubscriptions.get? key = some i) :
    ∃ value, (t.modifyStates state f).get? i = some value ∧ value.key = key := by
  obtain ⟨value, hvalue, hkey⟩ := t.keyed key i h
  rw [get?_modifyStates, hvalue]
  split
  · exact ⟨_, rfl, hkey⟩
  · exact ⟨value, rfl, hkey⟩

/-- An object is changed. -/
def modify (t : SubscriptionTable) (state : Nat)
    (f : SubscriptionProgress → SubscriptionProgress) : SubscriptionTable :=
  ⟨t.modifyStates state f, t.resourceSubscriptions, t.keyed_modify state f⟩

theorem keyed_create (t : SubscriptionTable) (value : ScopeSubscription) (key : String) (i : Nat)
    (h : (t.resourceSubscriptions.set value.key t.states.next).get? key = some i) :
    ∃ value', (t.states.add value).get? i = some value' ∧ value'.key = key := by
  rw [Dict.get?_set] at h
  split at h
  · next heq =>
    cases h
    exact ⟨value, t.states.get?_add_next value, heq.symm⟩
  · obtain ⟨value', hvalue', hkey⟩ := t.keyed key i h
    exact ⟨value', Table.get?_add_of_some hvalue' value, hkey⟩

/-- A new object under its key. -/
def create (t : SubscriptionTable) (value : ScopeSubscription) : SubscriptionTable :=
  ⟨t.states.add value, t.resourceSubscriptions.set value.key t.states.next, t.keyed_create value⟩

theorem keyed_delete (t : SubscriptionTable) (key₀ key : String) (i : Nat)
    (h : (t.resourceSubscriptions.erase key₀).get? key = some i) :
    ∃ value, t.states.get? i = some value ∧ value.key = key := by
  rw [Dict.get?_erase] at h
  split at h
  · cases h
  · exact t.keyed key i h

/-- `resourceSubscriptions.delete(key)` -/
def delete (t : SubscriptionTable) (key : String) : SubscriptionTable :=
  ⟨t.states, t.resourceSubscriptions.erase key, t.keyed_delete key⟩

/-- `subscribedSessions.add(sessionId)` -/
def addSession (t : SubscriptionTable) (state : Nat) (sessionId : String) : SubscriptionTable :=
  t.modify state fun p =>
    { p with subscribedSessions := p.subscribedSessions.set sessionId () }

/-- `subscribedSessions.delete(sessionId)` -/
def deleteSession (t : SubscriptionTable) (state : Nat) (sessionId : String) : SubscriptionTable :=
  t.modify state fun p =>
    { p with subscribedSessions := p.subscribedSessions.erase sessionId }

/-- `subscribedSessions.size === 0` -/
def isUnused (t : SubscriptionTable) (state : Nat) : Bool :=
  match t.states.get? state with
  | none => true
  | some value => value.subscribedSessions.entries.isEmpty

/-- The first object, in the order of the keys, that has a property. -/
def findEntry (t : SubscriptionTable) (p : ScopeSubscription → Bool) :
    Option (String × Nat) :=
  t.resourceSubscriptions.entries.find? fun e => (t.states.get? e.2).any p

end SubscriptionTable

/-! ## subscribeResource -/

inductive ProtocolEra where
  | legacy
  | modern
deriving DecidableEq

/-- What the calls read and write of the gateway: the server contexts, the era of the connection
    of a context by its id, the subscriptions, and the number of the next call to a downstream
    server. -/
structure SubscriptionGateway where
  manager : ServerManager CapabilityConfig
  connection : String → Option ProtocolEra
  table : SubscriptionTable
  nextCall : Nat

/-- What happens while an operation awaits a call to a downstream server: what the call comes to,
    and what other operations have done when the operation goes on. -/
structure AwaitedCall where
  result : Except String Unit
  others : SubscriptionGateway → SubscriptionGateway

inductive SubscribeError where
  /-- `Server … not available for subscription` -/
  | notAvailable (serverId : String)
  | downstream (error : String)
deriving DecidableEq

/-- How far `subscribeResource` comes before it awaits. -/
inductive SubscribeStage where
  | returned
  | threw (error : SubscribeError)
  /-- it awaits `state.downstreamSubscription` -/
  | awaits (key : String) (state : Nat) (sessionAlreadySubscribed : Bool) (call : Nat)
deriving DecidableEq

/-- What an `unsubscribeResourceState` awaits. -/
inductive Unsubscribing where
  /-- it awaits the promise `downstreamSubscription` of the object -/
  | waits (key : String) (state : Nat)
  /-- it awaits the downstream server -/
  | unsubscribes (key : String)
deriving DecidableEq

/-- `capabilities?.resources?.subscribe === true` -/
def ServerContext.supportsSubscribe (c : ServerContext CapabilityConfig) : Bool :=
  (c.capabilities.bind (·.resources)).bind (·.subscribe) == some true

namespace SubscriptionGateway

def setTable (g : SubscriptionGateway) (table : SubscriptionTable) : SubscriptionGateway :=
  { g with table }

/-- `findServerContextByScopeId` -/
def findServerContextByScopeId (g : SubscriptionGateway) (scopeId : String) :
    Option (ServerContext CapabilityConfig) :=
  (g.manager.serverContexts.values.find? fun c => c.id == scopeId).or
    (g.manager.temporaryServers.values.find? fun c => c.id == scopeId)

/-- Get or create the subscription state. -/
def getOrCreate (g : SubscriptionGateway) (scope : SubscriptionScope) :
    SubscriptionGateway × Nat × ScopeSubscription :=
  match g.table.entry scope.key with
  | some (state, value) => (g, state, value)
  | none =>
    let value : ScopeSubscription := ⟨scope, ⟨.empty, false, none⟩⟩
    (g.setTable (g.table.create value), g.table.states.next, value)

/-- The part of `subscribeResource` after the session has been recorded, up to its await. -/
def requestSubscription (g : SubscriptionGateway) (c : ServerContext CapabilityConfig)
    (serverId key : String) (state : Nat) (value : ScopeSubscription)
    (sessionAlreadySubscribed : Bool) : SubscriptionGateway × SubscribeStage :=
  if value.downstreamSubscribed then (g, .returned)
  else
    match g.connection c.id with
    | none => (g, .threw (.notAvailable serverId))
    | some _ =>
      match value.downstreamSubscription with
      | some call => (g, .awaits key state sessionAlreadySubscribed call)
      | none =>
        ({ g with
            table := g.table.modify state fun p =>
              { p with downstreamSubscription := some g.nextCall }
            nextCall := g.nextCall + 1 },
          .awaits key state sessionAlreadySubscribed g.nextCall)

/-- `subscribeResource` up to its await. -/
def startSubscribe (g : SubscriptionGateway) (serverId resourceUri sessionId userId : String) :
    SubscriptionGateway × SubscribeStage :=
  match g.manager.getServerContext serverId (some userId) with
  | none => (g, .returned)
  | some c =>
    if !c.supportsSubscribe then (g, .returned)
    else
      let scope : SubscriptionScope := ⟨serverId, c.userId, resourceUri, c.id⟩
      let (g, state, value) := g.getOrCreate scope
      let sessionAlreadySubscribed := (value.subscribedSessions.get? sessionId).isSome
      if sessionAlreadySubscribed && value.downstreamSubscribed then (g, .returned)
      else
        let g :=
          if sessionAlreadySubscribed then g
          else g.setTable (g.table.addSession state sessionId)
        g.requestSubscription c serverId scope.key state value sessionAlreadySubscribed

/-- The handlers of the promise `downstreamSubscription`. -/
def settle (g : SubscriptionGateway) (state call : Nat) (ok : Bool) : SubscriptionGateway :=
  g.setTable (g.table.modify state fun p =>
    if p.downstreamSubscription = some call then
      { p with
        downstreamSubscribed := p.downstreamSubscribed || ok
        downstreamSubscription := none }
    else p)

/-- The `catch` of `subscribeResource`. -/
def subscribeFails (g : SubscriptionGateway) (key : String) (state : Nat) (sessionId : String)
    (sessionAlreadySubscribed : Bool) : SubscriptionGateway :=
  let table :=
    if sessionAlreadySubscribed then g.table else g.table.deleteSession state sessionId
  g.setTable (if table.isUnused state then table.delete key else table)

/-- The gateway when the operation goes on. -/
def awaitCall (g : SubscriptionGateway) (a : AwaitedCall) (state call : Nat) :
    SubscriptionGateway :=
  a.others (g.settle state call a.result.isOk)

def subscribeResource (g : SubscriptionGateway) (a : AwaitedCall)
    (serverId resourceUri sessionId userId : String) :
    Except SubscribeError Unit × SubscriptionGateway :=
  match g.startSubscribe serverId resourceUri sessionId userId with
  | (g, .returned) => (.ok (), g)
  | (g, .threw error) => (.error error, g)
  | (g, .awaits key state sessionAlreadySubscribed call) =>
    let g := g.awaitCall a state call
    match a.result with
    | .ok () => (.ok (), g)
    | .error error =>
      (.error (.downstream error), g.subscribeFails key state sessionId sessionAlreadySubscribed)

/-! ## unsubscribeResource -/

def findResourceSubscriptionEntry (g : SubscriptionGateway) (serverId resourceUri userId : String)
    (scopeId : Option String) : Option (String × Nat) :=
  let scopeEntry :=
    match scopeId with
    | none => none
    | some scopeId =>
      if scopeId = "" then none
      else
        let subscriptionKey := buildResourceSubscriptionKey scopeId resourceUri
        (g.table.resourceSubscriptions.get? subscriptionKey).map fun state =>
          (subscriptionKey, state)
  let isOf (user : Option String) (value : ScopeSubscription) : Bool :=
    value.serverId == serverId && value.resourceUri == resourceUri && value.userId == user
  scopeEntry.or
    ((g.table.findEntry (isOf (some userId))).or (g.table.findEntry (isOf none)))

/-- `unsubscribeResourceState` from the second check of the sessions on, up to its next await. -/
def unsubscribeRest (g : SubscriptionGateway) (key : String) (state : Nat) :
    SubscriptionGateway × Option Unsubscribing :=
  match g.table.states.get? state with
  | none => (g, none)
  | some value =>
    if !value.subscribedSessions.entries.isEmpty then (g, none)
    else
      let connection :=
        (g.findServerContextByScopeId value.scopeId).bind fun c => g.connection c.id
      if value.downstreamSubscribed && connection.isSome then (g, some (.unsubscribes key))
      else (g.setTable (g.table.delete key), none)

/-- `unsubscribeResourceState` up to its first await. -/
def unsubscribeResourceState (g : SubscriptionGateway) (key : String) (state : Nat)
    (sessionId : String) : SubscriptionGateway × Option Unsubscribing :=
  let g := g.setTable (g.table.deleteSession state sessionId)
  match g.table.states.get? state with
  | none => (g, none)
  | some value =>
    if value.subscribedSessions.entries.isEmpty && value.downstreamSubscription.isSome then
      (g, some (.waits key state))
    else g.unsubscribeRest key state

/-- `unsubscribeResource` up to its first await. -/
def startUnsubscribe (g : SubscriptionGateway) (serverId resourceUri sessionId userId : String) :
    SubscriptionGateway × Option Unsubscribing :=
  let scopeId := (g.manager.getServerContext serverId (some userId)).map (·.id)
  match g.findResourceSubscriptionEntry serverId resourceUri userId scopeId with
  | none => (g, none)
  | some (key, state) => g.unsubscribeResourceState key state sessionId

/-- What an `unsubscribeResourceState` awaits has settled, and it goes on. -/
def resumeUnsubscribe (g : SubscriptionGateway) :
    Unsubscribing → SubscriptionGateway × Option Unsubscribing
  | .waits key state => g.unsubscribeRest key state
  | .unsubscribes key => (g.setTable (g.table.delete key), none)

end SubscriptionGateway

/-! ## subscribeModernResources -/

/-- A subscription that a modern request has made. `scopeId` is not of the source: the scope that
    the server context had when the session was recorded. -/
structure ModernSubscribed extends ModernResourceSubscription where
  scopeId : String
deriving DecidableEq

def ModernSubscribed.recordedKey (s : ModernSubscribed) : String :=
  buildResourceSubscriptionKey s.scopeId s.resourceUri

inductive ModernSubscribeError where
  | request (error : ModernMcpError)
  | subscribe (error : SubscribeError)
deriving DecidableEq

/-- `ModernErrorCodes.InvalidRequest` -/
def ModernErrorCodes.invalidRequest : Int := -32600

/-- A request of `subscriptions/listen`: whose it is, its subscription id, the routing and the
    permission of a URI as the gateway stands, and for each URI of the filter what happens while it
    is subscribed and before the loop goes on. -/
structure ModernSubscriber where
  userId : String
  subscriptionId : String
  resolveResourceUriForSubscription :
    SubscriptionGateway → String → Option ClientSession.GatewayRoute
  canAccessResourceById : SubscriptionGateway → ClientSession.GatewayRoute → Bool
  awaited : String → AwaitedCall
  afterwards : String → SubscriptionGateway → SubscriptionGateway

/-- What other operations do before an unsubscription goes on, and its place among those that
    have not settled yet. -/
structure Turn where
  others : SubscriptionGateway → SubscriptionGateway
  next : Nat

namespace ModernSubscriber

variable (r : ModernSubscriber)

/-- The loop over the URIs. When it throws, the subscriptions so far come with the error. -/
def subscribeEach (g : SubscriptionGateway) (subscriptions : List ModernSubscribed) :
    List String → Except (ModernSubscribeError × List ModernSubscribed) (List ModernSubscribed) ×
      SubscriptionGateway
  | [] => (.ok subscriptions, g)
  | uri :: resourceUris =>
    match r.resolveResourceUriForSubscription g uri with
    | none =>
      let error : ModernMcpError :=
        ⟨400, ModernErrorCodes.invalidParams, s!"Invalid resource subscription URI: {uri}"⟩
      (.error (.request error, subscriptions), g)
    | some route =>
      if !r.canAccessResourceById g route then
        let error : ModernMcpError :=
          ⟨403, ModernErrorCodes.invalidRequest,
            s!"Permission denied for resource subscription: {uri}"⟩
        (.error (.request error, subscriptions), g)
      else
        match g.manager.getServerContext route.serverID (some r.userId) with
        | none => subscribeEach g subscriptions resourceUris
        | some c =>
          if g.connection c.id ≠ some .legacy || !c.supportsSubscribe then
            subscribeEach g subscriptions resourceUris
          else
            match g.subscribeResource (r.awaited uri) route.serverID route.originalName
                r.subscriptionId r.userId with
            | (.error error, g) => (.error (.subscribe error, subscriptions), g)
            | (.ok (), g) =>
              let subscription : ModernSubscribed :=
                ⟨⟨route.serverID, route.originalName, uri⟩, c.id⟩
              subscribeEach (r.afterwards uri g) (subscriptions ++ [subscription]) resourceUris

/-- `cleanupModernResourceSubscriptions` up to where all its unsubscriptions await. -/
def startCleanup (g : SubscriptionGateway) :
    List ModernSubscribed → SubscriptionGateway × List Unsubscribing
  | [] => (g, [])
  | s :: subscriptions =>
    let (g, unsubscribing) :=
      g.startUnsubscribe s.serverId s.resourceUri r.subscriptionId r.userId
    let (g, rest) := startCleanup g subscriptions
    (g, unsubscribing.toList ++ rest)

/-- The unsubscriptions go on in the given turns, until all have settled. -/
def finishCleanup (g : SubscriptionGateway) (unsubscribing : List Unsubscribing) :
    List Turn → Option SubscriptionGateway
  | [] => if unsubscribing.isEmpty then some g else none
  | turn :: turns =>
    let g := turn.others g
    match unsubscribing[turn.next]? with
    | none => finishCleanup g unsubscribing turns
    | some u =>
      let (g, next) := g.resumeUnsubscribe u
      finishCleanup g (unsubscribing.eraseIdx turn.next ++ next.toList) turns

/-- `subscribeModernResources`; `updated` says whether the filter has the method
    `notifications/resources/updated`. There is no result while the clean-up has not settled. -/
def subscribeModernResources (g : SubscriptionGateway) (turns : List Turn) (updated : Bool)
    (resourceUris : List String) :
    Option (Except ModernSubscribeError (List ModernSubscribed) × SubscriptionGateway) :=
  if !updated || resourceUris.isEmpty then some (.ok [], g)
  else
    match r.subscribeEach g [] resourceUris with
    | (.ok subscriptions, g) => some (.ok subscriptions, g)
    | (.error (error, subscriptions), g) =>
      let (g, unsubscribing) := r.startCleanup g subscriptions
      (finishCleanup g unsubscribing turns).map fun g => (.error error, g)

end ModernSubscriber

end PetaCore
