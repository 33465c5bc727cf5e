import PetaCore.ForStd.Dict
import PetaCore.ForStd.Table

/-!
# Resource subscriptions of one scope

Sessions subscribe to resources of a downstream server, and the gateway subscribes once for all
of them. There is an object for each URI that has a subscriber, shared by the operations on it.
An operation goes on over awaits, and the calls to the downstream server take their time.

The objects, the calls and the operations in progress are numbered in the order in which they are
made. `connection` is the connection of the server context, by its number.
-/

namespace PetaCore

/-- A `SubscriptionState` of the scope. -/
structure SubscriptionState where
  resourceUri : String
  subscribedSessions : Dict Unit
  downstreamSubscribed : Bool
  /-- the call whose promise it is -/
  downstreamSubscription : Option Nat
deriving DecidableEq

/-- How far a call to the downstream server is. -/
inductive CallStage where
  | sent
  /-- the server has processed the request -/
  | processed
  | succeeded
  | failed
deriving DecidableEq

def CallStage.inFlight : CallStage → Bool
  | .sent | .processed => true
  | .succeeded | .failed => false

/-- A call of `subscribeResource` or `unsubscribeResource` of a connection, for an object. -/
structure DownstreamCall where
  connection : Nat
  resourceUri : String
  subscribes : Bool
  state : Nat
  stage : CallStage
deriving DecidableEq

/-- An operation of a session that awaits a call. -/
inductive SubscriptionOperation where
  | subscribe (state : Nat) (resourceUri sessionId : String) (sessionAlreadySubscribed : Bool)
      (call : Nat)
  /-- awaits the promise `downstreamSubscription` of the object -/
  | unsubscribeWaits (state : Nat) (resourceUri sessionId : String) (call : Nat)
  | unsubscribe (state : Nat) (resourceUri sessionId : String) (call : Nat)
deriving DecidableEq

/-- The subscriptions, the operations on them and the calls. `downstream` says of a connection and
    a URI whether the last request about it that the server has processed was a subscribe.
    `last` is not of the source: whether the last operation of a session on a URI that has
    completed with success was a subscribe. -/
structure Subscriptions where
  states : Table SubscriptionState
  resourceSubscriptions : Dict Nat
  calls : Table DownstreamCall
  operations : Table SubscriptionOperation
  downstream : Nat → String → Bool
  last : String → String → Bool

inductive SubscriptionAction where
  | subscribeResource (resourceUri sessionId : String)
  | unsubscribeResource (resourceUri sessionId : String)
  | cleanupSessionSubscriptions (sessionId : String)
  /-- the call that an operation awaits has settled, and the operation goes on -/
  | resumes (operation : Nat)
  /-- the server processes the request of a call -/
  | processes (call : Nat)
  | answered (call : Nat)
  | fails (call : Nat)
deriving DecidableEq

namespace Subscriptions

def init : Subscriptions := ⟨.empty, .empty, .empty, .empty, fun _ _ => false, fun _ _ => false⟩

/-- The object of a URI, with its number. -/
def entry (s : Subscriptions) (resourceUri : String) : Option (Nat × SubscriptionState) :=
  (s.resourceSubscriptions.get? resourceUri).bind fun state =>
    (s.states.get? state).map fun value => (state, value)

/-- The operation of the session has completed with success. -/
def complete (s : Subscriptions) (resourceUri sessionId : String) (subscribed : Bool) :
    Subscriptions :=
  { s with
    last := fun uri session =>
      if uri = resourceUri ∧ session = sessionId then subscribed else s.last uri session }

def setState (s : Subscriptions) (state : Nat) (value : SubscriptionState) : Subscriptions :=
  { s with states := s.states.put state value }

def deleteKey (s : Subscriptions) (resourceUri : String) : Subscriptions :=
  { s with resourceSubscriptions := s.resourceSubscriptions.erase resourceUri }

def send (s : Subscriptions) (call : DownstreamCall) : Subscriptions :=
  { s with calls := s.calls.add call }

/-! ## Subscribe -/

/-- Get or create the subscription state. -/
def getOrCreate (s : Subscriptions) (resourceUri : String) :
    Subscriptions × Nat × SubscriptionState :=
  match s.entry resourceUri with
  | some (state, value) => (s, state, value)
  | none =>
    let value : SubscriptionState := ⟨resourceUri, .empty, false, none⟩
    ({ s with
        states := s.states.add value
        resourceSubscriptions := s.resourceSubscriptions.set resourceUri s.states.next },
      s.states.next, value)

/-- `subscribeResource` up to its first await. -/
def subscribeResource (s : Subscriptions) (supported : Bool) (connection : Option Nat)
    (resourceUri sessionId : String) : Subscriptions :=
  -- the server does not support resource subscription: it returns without a subscription
  if !supported then s.complete resourceUri sessionId true
  else
    let (s, state, value) := s.getOrCreate resourceUri
    let sessionAlreadySubscribed := (value.subscribedSessions.get? sessionId).isSome
    if sessionAlreadySubscribed && value.downstreamSubscribed then
      s.complete resourceUri sessionId true
    else
      let value := { value with subscribedSessions := value.subscribedSessions.set sessionId () }
      let s := s.setState state value
      if value.downstreamSubscribed then s.complete resourceUri sessionId true
      else
        match connection with
        -- `Server not available for subscription`
        | none => s
        | some connection =>
          match value.downstreamSubscription with
          | some call =>
            { s with
              operations := s.operations.add
                (.subscribe state resourceUri sessionId sessionAlreadySubscribed call) }
          | none =>
            let call := s.calls.next
            let s := (s.send ⟨connection, resourceUri, true, state, .sent⟩).setState state
              { value with downstreamSubscription := some call }
            { s with
              operations := s.operations.add
                (.subscribe state resourceUri sessionId sessionAlreadySubscribed call) }

/-- `subscribeResource` when its call has failed: the `catch`. -/
def subscribeFails (s : Subscriptions) (state : Nat) (resourceUri sessionId : String)
    (sessionAlreadySubscribed : Bool) : Subscriptions :=
  match s.states.get? state with
  | none => s
  | some value =>
    let value :=
      if sessionAlreadySubscribed then value
      else { value with subscribedSessions := value.subscribedSessions.erase sessionId }
    let s := s.setState state value
    if value.subscribedSessions.entries = [] then s.deleteKey resourceUri else s

/-! ## Unsubscribe -/

/-- `unsubscribeResourceState` from the second check of the sessions on, with what it awaits. -/
def unsubscribeRest (s : Subscriptions) (connection : Option Nat) (state : Nat)
    (resourceUri sessionId : String) : Subscriptions × Option SubscriptionOperation :=
  match s.states.get? state with
  | none => (s, none)
  | some value =>
    if value.subscribedSessions.entries ≠ [] then (s.complete resourceUri sessionId false, none)
    else
      match value.downstreamSubscribed, connection with
      | true, some connection =>
        (s.send ⟨connection, resourceUri, false, state, .sent⟩,
          some (.unsubscribe state resourceUri sessionId s.calls.next))
      | _, _ => ((s.deleteKey resourceUri).complete resourceUri sessionId false, none)

/-- `unsubscribeResourceState` up to its first await. -/
def unsubscribeResourceState (s : Subscriptions) (connection : Option Nat) (state : Nat)
    (resourceUri sessionId : String) : Subscriptions :=
  match s.states.get? state with
  | none => s
  | some value =>
    let value := { value with subscribedSessions := value.subscribedSessions.erase sessionId }
    let s := s.setState state value
    match value.subscribedSessions.entries, value.downstreamSubscription with
    | [], some call =>
      { s with
        operations := s.operations.add (.unsubscribeWaits state resourceUri sessionId call) }
    | _, _ =>
      let (s, operation) := s.unsubscribeRest connection state resourceUri sessionId
      match operation with
      | none => s
      | some operation => { s with operations := s.operations.add operation }

/-- `unsubscribeResource` -/
def unsubscribeResource (s : Subscriptions) (connection : Option Nat)
    (resourceUri sessionId : String) : Subscriptions :=
  match s.entry resourceUri with
  | none => s.complete resourceUri sessionId false
  | some (state, _) => s.unsubscribeResourceState connection state resourceUri sessionId

/-- The objects that have the session. -/
def sessionEntries (s : Subscriptions) (sessionId : String) : List (String × Nat) :=
  s.resourceSubscriptions.entries.filter fun e =>
    (s.states.get? e.2).any fun value => (value.subscribedSessions.get? sessionId).isSome

/-- `cleanupSessionSubscriptions` up to its first await. -/
def cleanupSessionSubscriptions (s : Subscriptions) (connection : Option Nat)
    (sessionId : String) : Subscriptions :=
  (s.sessionEntries sessionId).foldl
    (fun s e => s.unsubscribeResourceState connection e.2 e.1 sessionId) s

/-! ## Calls -/

/-- How the promise of a call has settled. -/
def settled (s : Subscriptions) (number : Nat) : Option Bool :=
  (s.calls.get? number).bind fun call =>
    match call.stage with
    | .sent | .processed => none
    | .succeeded => some true
    | .failed => some false

/-- The handlers of the promise `downstreamSubscription`. -/
def settleState (s : Subscriptions) (number : Nat) (call : DownstreamCall) (ok : Bool) :
    Subscriptions :=
  match s.states.get? call.state with
  | none => s
  | some value =>
    if call.subscribes ∧ value.downstreamSubscription = some number then
      s.setState call.state
        { value with
          downstreamSubscribed := value.downstreamSubscribed || ok
          downstreamSubscription := none }
    else s

/-- An operation goes on when the call it awaits has settled. -/
def resume (s : Subscriptions) (connection : Option Nat) (i : Nat) :
    SubscriptionOperation → Option Subscriptions
  | .subscribe state resourceUri sessionId sessionAlreadySubscribed call =>
    (s.settled call).map fun ok =>
      let s := { s with operations := s.operations.erase i }
      if ok then s.complete resourceUri sessionId true
      else s.subscribeFails state resourceUri sessionId sessionAlreadySubscribed
  | .unsubscribeWaits state resourceUri sessionId call =>
    (s.settled call).map fun _ =>
      let (s, operation) := s.unsubscribeRest connection state resourceUri sessionId
      match operation with
      | none => { s with operations := s.operations.erase i }
      | some operation => { s with operations := s.operations.put i operation }
  | .unsubscribe _ resourceUri sessionId call =>
    (s.settled call).map fun _ =>
      let s := { s with operations := s.operations.erase i }
      (s.deleteKey resourceUri).complete resourceUri sessionId false

/-! ## The step function -/

variable (supported : Bool) (connection : Option Nat)

def step (s : Subscriptions) : SubscriptionAction → Option Subscriptions
  | .subscribeResource resourceUri sessionId =>
    some (s.subscribeResource supported connection resourceUri sessionId)
  | .unsubscribeResource resourceUri sessionId =>
    some (s.unsubscribeResource connection resourceUri sessionId)
  | .cleanupSessionSubscriptions sessionId =>
    some (s.cleanupSessionSubscriptions connection sessionId)
  | .resumes i =>
    match s.operations.get? i with
    | none => none
    | some operation => s.resume connection i operation
  | .processes number =>
    match s.calls.get? number with
    | some call =>
      if call.stage = .sent then
        some { s with
          calls := s.calls.put number { call with stage := .processed }
          downstream := fun connection uri =>
            if connection = call.connection ∧ uri = call.resourceUri then call.subscribes
            else s.downstream connection uri }
      else none
    | none => none
  | .answered number =>
    match s.calls.get? number with
    | some call =>
      if call.stage = .processed then
        some (settleState
          { s with calls := s.calls.put number { call with stage := .succeeded } } number call true)
      else none
    | none => none
  | .fails number =>
    match s.calls.get? number with
    | some call =>
      if call.stage.inFlight then
        some (settleState
          { s with calls := s.calls.put number { call with stage := .failed } } number call false)
      else none
    | none => none

/-- The sessions that are recorded for a URI. -/
def getResourceSubscribersForScope (s : Subscriptions) (resourceUri : String) : List String :=
  match s.entry resourceUri with
  | none => []
  | some (_, value) => value.subscribedSessions.entries.map Prod.fst

end Subscriptions

end PetaCore
