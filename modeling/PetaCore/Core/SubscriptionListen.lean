import PetaCore.ForStd.Table

/-!
# SubscriptionListen

The `subscriptions/listen` requests of the modern gateway. A request subscribes to the resources of
its filter one after another, each under its subscription id, and then keeps a stream open with a
listener on `modernSubscriptionBus`, a heartbeat and a timer for the expiry of the credentials. The
handler of the `close` event of the response is attached last.

A request is given by its number. Its subscription id is made of the id of the HTTP request, so no
other request has it.
-/

namespace PetaCore

structure ModernResourceSubscription where
  serverId : String
  resourceUri : String
  requestedUri : String
deriving DecidableEq

/-- What a subscription is recorded for. -/
def ModernResourceSubscription.key (s : ModernResourceSubscription) : String × String :=
  (s.serverId, s.resourceUri)

/-- What comes of a URI of the filter. -/
inductive SubscriptionRoute where
  /-- `resolveResourceUriForSubscription` finds nothing -/
  | invalid
  | denied
  /-- the server has no legacy connection, or does not support subscriptions -/
  | skipped
  | subscribes (serverId originalName : String)
deriving DecidableEq

/-- How far the handling of a request is. -/
inductive ListenStage where
  | subscribing (resourceUris : List String) (subscriptions : List ModernResourceSubscription)
  /-- awaits `subscribeResource` -/
  | awaiting (subscription : ModernResourceSubscription) (alreadySubscribed : Bool)
      (resourceUris : List String) (subscriptions : List ModernResourceSubscription)
  /-- awaits `cleanupModernResourceSubscriptions` after an error -/
  | cleaning (error : String)
  | threw (error : String)
  /-- the stream is open, with its `close` handler -/
  | streaming (subscriptions : List ModernResourceSubscription)
  | closed
deriving DecidableEq

/-- A request: whether its response has emitted `close`, its timers, the subscriptions that are
    recorded under its subscription id and those it has tried to release. -/
structure ListenRequest where
  stage : ListenStage
  clientGone : Bool
  heartbeat : Bool
  authExpiryTimer : Bool
  recorded : List (String × String)
  releases : List (String × String)
deriving DecidableEq

/-- The requests, and those whose listener is on `modernSubscriptionBus`. -/
structure ListenState where
  requests : Table ListenRequest
  listeners : List Nat
deriving DecidableEq

inductive ListenAction where
  /-- a request with a valid filter: whether it has the method `notifications/resources/updated`,
      and its URIs -/
  | listen (updated : Bool) (resourceUris : List String)
  /-- the next URI of the filter -/
  | route (request : Nat) (route : SubscriptionRoute)
  | subscribed (request : Nat)
  | subscribeFails (request : Nat) (error : String)
  /-- the attempts to release have settled, and the error is thrown -/
  | cleaned (request : Nat)
  /-- all URIs are done: the rest of the handler, with whether the credentials expire -/
  | finish (request : Nat) (authExpiry : Bool)
  | authExpires (request : Nat)
  | clientCloses (request : Nat)
deriving DecidableEq

namespace ListenRequest

def init (updated : Bool) (resourceUris : List String) : ListenRequest where
  stage := .subscribing (if updated then resourceUris else []) []
  clientGone := false
  heartbeat := false
  authExpiryTimer := false
  recorded := []
  releases := []

/-- `cleanupModernResourceSubscriptions`, whose calls of `unsubscribeResource` may fail. -/
def cleanupModernResourceSubscriptions (r : ListenRequest)
    (subscriptions : List ModernResourceSubscription) : ListenRequest :=
  { r with releases := r.releases ++ subscriptions.map (·.key) }

/-- The `catch` of `subscribeModernResources`. -/
def rethrow (r : ListenRequest) (subscriptions : List ModernResourceSubscription)
    (error : String) : ListenRequest :=
  { r.cleanupModernResourceSubscriptions subscriptions with stage := .cleaning error }

/-- One URI in the loop of `subscribeModernResources`. -/
def subscribeUri (r : ListenRequest) (uri : String) (resourceUris : List String)
    (subscriptions : List ModernResourceSubscription) : SubscriptionRoute → ListenRequest
  | .invalid => r.rethrow subscriptions s!"Invalid resource subscription URI: {uri}"
  | .denied => r.rethrow subscriptions s!"Permission denied for resource subscription: {uri}"
  | .skipped => { r with stage := .subscribing resourceUris subscriptions }
  | .subscribes serverId originalName =>
    let subscription : ModernResourceSubscription := ⟨serverId, originalName, uri⟩
    let alreadySubscribed : Bool := subscription.key ∈ r.recorded
    { r with
      stage := .awaiting subscription alreadySubscribed resourceUris subscriptions
      recorded := if alreadySubscribed then r.recorded else r.recorded ++ [subscription.key] }

/-- `subscribeResource` has thrown, which takes the subscription back unless it was there before. -/
def subscribeFails (r : ListenRequest) (subscription : ModernResourceSubscription)
    (alreadySubscribed : Bool) (subscriptions : List ModernResourceSubscription)
    (error : String) : ListenRequest :=
  let recorded :=
    if alreadySubscribed then r.recorded
    else r.recorded.filter fun key => key ≠ subscription.key
  { r with recorded := recorded }.rethrow subscriptions error

end ListenRequest

namespace ListenState

def init : ListenState := ⟨.empty, []⟩

def setRequest (s : ListenState) (i : Nat) (r : ListenRequest) : ListenState :=
  { s with requests := s.requests.put i r }

/-- The handler after `subscribeModernResources`. -/
def finish (s : ListenState) (i : Nat) (r : ListenRequest)
    (subscriptions : List ModernResourceSubscription) (authExpiry : Bool) : ListenState :=
  { s.setRequest i
      { r with stage := .streaming subscriptions, heartbeat := true, authExpiryTimer := authExpiry }
    with listeners := s.listeners ++ [i] }

/-- `closeSubscription` -/
def closeSubscription (s : ListenState) (i : Nat) (r : ListenRequest)
    (subscriptions : List ModernResourceSubscription) : ListenState :=
  { s.setRequest i
      { r.cleanupModernResourceSubscriptions subscriptions with
        stage := .closed
        heartbeat := false
        authExpiryTimer := false }
    with listeners := s.listeners.erase i }

def step (s : ListenState) : ListenAction → Option ListenState
  | .listen updated resourceUris =>
    some { s with requests := s.requests.add (.init updated resourceUris) }
  | .route i route => do
    let r ← s.requests.get? i
    match r.stage with
    | .subscribing (uri :: resourceUris) subscriptions =>
      some (s.setRequest i (r.subscribeUri uri resourceUris subscriptions route))
    | _ => none
  | .subscribed i => do
    let r ← s.requests.get? i
    match r.stage with
    | .awaiting subscription _ resourceUris subscriptions =>
      some (s.setRequest i
        { r with stage := .subscribing resourceUris (subscriptions ++ [subscription]) })
    | _ => none
  | .subscribeFails i error => do
    let r ← s.requests.get? i
    match r.stage with
    | .awaiting subscription alreadySubscribed _ subscriptions =>
      some (s.setRequest i
        (r.subscribeFails subscription alreadySubscribed subscriptions error))
    | _ => none
  | .cleaned i => do
    let r ← s.requests.get? i
    match r.stage with
    | .cleaning error => some (s.setRequest i { r with stage := .threw error })
    | _ => none
  | .finish i authExpiry => do
    let r ← s.requests.get? i
    match r.stage with
    | .subscribing [] subscriptions => some (s.finish i r subscriptions authExpiry)
    | _ => none
  | .authExpires i => do
    let r ← s.requests.get? i
    match r.stage, r.authExpiryTimer with
    | .streaming subscriptions, true => some (s.closeSubscription i r subscriptions)
    | _, _ => none
  | .clientCloses i => do
    let r ← s.requests.get? i
    if r.clientGone then none
    else
      let gone := { r with clientGone := true }
      match r.stage with
      | .streaming subscriptions => some (s.closeSubscription i gone subscriptions)
      -- the handler is not attached yet, or has nothing more to do
      | _ => some (s.setRequest i gone)

end ListenState

end PetaCore
