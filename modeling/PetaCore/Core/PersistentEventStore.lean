import PetaCore.ForStd.Table
import PetaCore.ForStd.JsonParse

/-!
# PersistentEventStore

The events that a client can have sent again after it has lost its stream. `storeEvent` inserts a
row of the table `mcp_events` and then returns the id of the event; calls of several streams and
sessions go on at the same time. The database takes the id of a row from a sequence when it
executes the insert, and the row is seen by queries from the commit on.

A call of `storeEvent` is given by its number. Dates are in milliseconds.
-/

namespace PetaCore

/-- A `JSONRPCMessage`. -/
structure EventMessage where
  json : Json
  held : json.Held

/-- `message.method ? message.method : 'response'` -/
def EventMessage.messageType (message : EventMessage) : String :=
  match message.json with
  | .obj members =>
    match members.lookup "method" with
    | some (.str method) => if method = "" then "response" else method
    | _ => "response"
  | _ => "response"

/-- The columns that `EventRepository.create` writes. -/
structure EventEntity where
  eventId : String
  streamId : String
  sessionId : String
  messageType : String
  messageData : String
  createdAt : Nat
  expiresAt : Nat
deriving DecidableEq

/-- A row of `mcp_events`. -/
structure EventRow extends EventEntity where
  id : Nat
deriving DecidableEq

/-- What a call of `storeEvent` is given and reads: its arguments, the clock for the event id, for
    the expiry and for the creation, and the random part of the event id. -/
structure StoreRequest where
  sessionId : String
  streamId : String
  message : EventMessage
  timestamp : Nat
  now : Nat
  createdAt : Nat
  randomStr : String

namespace StoreRequest

def eventRetentionDays : Nat := 7

/-- `generateEventId` -/
def generateEventId (r : StoreRequest) : String :=
  s!"{r.streamId}_{r.timestamp}_{r.randomStr}"

def eventEntity (r : StoreRequest) : EventEntity where
  eventId := r.generateEventId
  streamId := r.streamId
  sessionId := r.sessionId
  messageType := r.message.messageType
  messageData := r.message.json.stringify
  createdAt := r.createdAt
  expiresAt := r.now + eventRetentionDays * 24 * 60 * 60 * 1000

end StoreRequest

/-- How far a call of `storeEvent` is. -/
inductive StoreStage where
  /-- the insert is on its way to the database -/
  | called
  /-- the insert has been executed, with the id of the row, and has not committed -/
  | inserted (id : Nat)
  | committed (id : Nat)
  | returned (id : Nat)
  /-- it has thrown, with the id if the insert has been executed -/
  | threw (id : Option Nat)
deriving DecidableEq

/-- The id of the row of the call. -/
def StoreStage.id? : StoreStage → Option Nat
  | .called => none
  | .inserted id | .committed id | .returned id => some id
  | .threw id => id

/-- A call of `storeEvent`. `returnedBefore` is not of the source: the calls that had returned
    when this one was made. -/
structure StoreCall where
  request : StoreRequest
  stage : StoreStage
  returnedBefore : List Nat

/-- The table, with its sequence, and the calls. `returns` is not of the source: the calls that
    have returned, in the order in which they did. -/
structure EventStore where
  rows : List EventRow
  nextId : Nat
  calls : Table StoreCall
  returns : List Nat

inductive EventStoreAction where
  | storeEvent (request : StoreRequest)
  /-- the database executes the insert of a call -/
  | inserts (call : Nat)
  | commits (call : Nat)
  /-- the insert fails, or its answer is lost -/
  | insertFails (call : Nat)
  /-- the call returns the event id -/
  | returns (call : Nat)
  /-- the calls of `EventCleanupService` and `ProxyHandler` -/
  | deleteExpired (now : Nat)
  | deleteBefore (date : Nat)
  | deleteByStreamId (streamId : String)
  | deleteAll

namespace EventStore

def init : EventStore := ⟨[], 1, .empty, []⟩

def setStage (s : EventStore) (i : Nat) (call : StoreCall) (stage : StoreStage) : EventStore :=
  { s with calls := s.calls.put i { call with stage } }

/-- `deleteMany` -/
def deleteMany (s : EventStore) (p : EventRow → Bool) : EventStore :=
  { s with rows := s.rows.filter fun row => !p row }

def step (s : EventStore) : EventStoreAction → Option EventStore
  | .storeEvent request => some { s with calls := s.calls.add ⟨request, .called, s.returns⟩ }
  | .inserts i => do
    let call ← s.calls.get? i
    match call.stage with
    | .called => some { s.setStage i call (.inserted s.nextId) with nextId := s.nextId + 1 }
    | _ => none
  | .commits i => do
    let call ← s.calls.get? i
    match call.stage with
    | .inserted id =>
      -- `event_id` is unique
      if s.rows.any fun row => row.eventId = call.request.eventEntity.eventId then none
      else
        some { s.setStage i call (.committed id) with
          rows := s.rows ++ [⟨call.request.eventEntity, id⟩] }
    | _ => none
  | .insertFails i => do
    let call ← s.calls.get? i
    match call.stage with
    | .called | .inserted _ | .committed _ => some (s.setStage i call (.threw call.stage.id?))
    | .returned _ | .threw _ => none
  | .returns i => do
    let call ← s.calls.get? i
    match call.stage with
    | .committed id =>
      some { s.setStage i call (.returned id) with returns := s.returns ++ [i] }
    | _ => none
  | .deleteExpired now => some (s.deleteMany fun row => row.expiresAt < now)
  | .deleteBefore date => some (s.deleteMany fun row => row.createdAt < date)
  | .deleteByStreamId streamId => some (s.deleteMany fun row => row.streamId = streamId)
  | .deleteAll => some (s.deleteMany fun _ => true)

end EventStore

/-! ## Replay -/

namespace EventRepository

def findByEventIdForSession (rows : List EventRow) (eventId sessionId : String) :
    Option EventRow :=
  rows.find? fun row => row.eventId = eventId ∧ row.sessionId = sessionId

def findByStreamIdForSessionAfterId (rows : List EventRow) (sessionId streamId : String)
    (afterId : Nat) : List EventRow :=
  (rows.filter fun row =>
    row.sessionId = sessionId ∧ row.streamId = streamId ∧ afterId < row.id).insertionSort
      fun row row' => row.id ≤ row'.id

end EventRepository

/-- A call of the `send` callback, and whether it succeeded. -/
structure SendCall where
  eventId : String
  message : Json
  succeeded : Bool

namespace PersistentEventStore

/-- The loop of `replayEventsAfter`; `send` says for each call of the callback, by its number,
    whether it succeeds. -/
def replayEvents (send : Nat → Bool) (calls : List SendCall) : List EventRow → List SendCall
  | [] => calls
  | event :: events =>
    match Json.parse event.messageData.toList with
    -- `Continue processing next event`
    | none => replayEvents send calls events
    -- an error of the callback ends in the same `catch`
    | some message =>
      replayEvents send (calls ++ [⟨event.eventId, message, send calls.length⟩]) events

/-- `replayEventsAfter`: the calls of the callback and the result. The two queries see the table
    at different times. -/
def replayEventsAfter (sessionId lastEventId : String) (anchorRows eventRows : List EventRow)
    (send : Nat → Bool) : List SendCall × Except String String :=
  match EventRepository.findByEventIdForSession anchorRows lastEventId sessionId with
  | none => ([], .error s!"Invalid event ID: {lastEventId}")
  | some anchorEvent =>
    let sortedEvents := EventRepository.findByStreamIdForSessionAfterId eventRows sessionId
      anchorEvent.streamId anchorEvent.id
    (replayEvents send [] sortedEvents, .ok anchorEvent.streamId)

end PersistentEventStore

end PetaCore
