import Mathlib.Logic.Function.Basic
import PetaCore.Core.Types
import PetaCore.ForStd.Dict
import PetaCore.ForStd.Json

/-!
# RequestIdMapper

The request ids of one session: the id that the client gave, the proxy id that the gateway
makes of it, and the id of the request to the downstream server. Ids are numbers or strings, and
a `Map` tells the number `1` from the string `1`; the keys of the other maps are texts.
-/

namespace PetaCore

/-- `RequestId` and `ProgressToken` -/
inductive RequestId where
  | num (n : JsNumber)
  | str (s : String)
deriving DecidableEq

/-- The id in a template literal. -/
def RequestId.text : RequestId → String
  | num n => String.ofList n.toChars
  | str s => s

/-- The identity of a downstream `Client`. -/
abbrev ClientRef := Nat

/-- `MappingEntry` -/
structure MappingEntry where
  originalRequestId : RequestId
  proxyRequestId : String
  downstreamRequestId : Option RequestId
  originalProgressToken : Option RequestId
  serverId : Option String
  client : Option ClientRef
  timestamp : Timestamp
  method : Option String
deriving DecidableEq

/-- The key of `downstreamToProxy`. -/
def downstreamKey (downstreamRequestId : RequestId) (serverId : String) : String :=
  downstreamRequestId.text ++ ":" ++ serverId

/-- The key under which an entry is found again, when it has a downstream id and a server id
    that counts as true. -/
def MappingEntry.downstreamKey? (entry : MappingEntry) : Option String :=
  match entry.downstreamRequestId, entry.serverId with
  | some d, some s => if s = "" then none else some (downstreamKey d s)
  | _, _ => none

/-- `RequestIdMapper` -/
structure RequestIdMapper where
  sessionId : String
  clientToProxy : RequestId → Option String
  proxyToClient : Dict RequestId
  proxyToDownstream : Dict MappingEntry
  downstreamToProxy : Dict String

namespace RequestIdMapper

/-- `TTL_MS` -/
def ttlMs : Timestamp := 5 * 60 * 1000

/-- A mapper as its constructor leaves it. -/
def init (sessionId : String) : RequestIdMapper := ⟨sessionId, fun _ => none, .empty, .empty, .empty⟩

/-- `generateProxyRequestId` -/
def generateProxyRequestId (m : RequestIdMapper) (originalRequestId : RequestId)
    (timestamp : Timestamp) : String :=
  m.sessionId ++ ":" ++ originalRequestId.text ++ ":" ++ toString timestamp

/-- The mapping that a request has already; an empty proxy id counts as none. -/
def registered? (m : RequestIdMapper) (originalRequestId : RequestId) : Option String :=
  match m.clientToProxy originalRequestId with
  | none => none
  | some p => if p = "" then none else some p

/-- `registerClientRequest`, which reads the clock once for the id and once for the entry. -/
def registerClientRequest (m : RequestIdMapper) (originalRequestId : RequestId)
    (method serverId : Option String) (idTime entryTime : Timestamp) :
    String × RequestIdMapper :=
  match m.registered? originalRequestId with
  | some proxyRequestId => (proxyRequestId, m)
  | none =>
    let proxyRequestId := m.generateProxyRequestId originalRequestId idTime
    let entry : MappingEntry :=
      { originalRequestId := originalRequestId
        proxyRequestId := proxyRequestId
        downstreamRequestId := none
        originalProgressToken := none
        serverId := serverId
        client := none
        timestamp := entryTime
        method := method }
    (proxyRequestId,
      { m with
        clientToProxy := Function.update m.clientToProxy originalRequestId (some proxyRequestId)
        proxyToClient := m.proxyToClient.set proxyRequestId originalRequestId
        proxyToDownstream := m.proxyToDownstream.set proxyRequestId entry })

/-- `downstreamToProxy` without the key of an entry. -/
def withoutDownstream (m : RequestIdMapper) (entry : MappingEntry) : Dict String :=
  match entry.downstreamKey? with
  | none => m.downstreamToProxy
  | some key => m.downstreamToProxy.erase key

/-- `registerDownstreamMapping` -/
def registerDownstreamMapping (m : RequestIdMapper) (proxyRequestId : String)
    (downstreamRequestId : RequestId) (serverId : String) (client : Option ClientRef) :
    RequestIdMapper :=
  match m.proxyToDownstream.get? proxyRequestId with
  | none => m
  | some entry =>
    { m with
      proxyToDownstream := m.proxyToDownstream.set proxyRequestId
        { entry with
          downstreamRequestId := some downstreamRequestId
          serverId := some serverId
          client := client }
      downstreamToProxy := (m.withoutDownstream entry).set
        (downstreamKey downstreamRequestId serverId) proxyRequestId }

/-- `setOriginalProgressToken` -/
def setOriginalProgressToken (m : RequestIdMapper) (proxyRequestId : String)
    (progressToken : RequestId) : RequestIdMapper :=
  match m.proxyToDownstream.get? proxyRequestId with
  | none => m
  | some entry =>
    { m with
      proxyToDownstream := m.proxyToDownstream.set proxyRequestId
        { entry with originalProgressToken := some progressToken } }

/-- `getOriginalProgressToken` -/
def getOriginalProgressToken (m : RequestIdMapper) (proxyRequestId : String) :
    Option RequestId :=
  (m.proxyToDownstream.get? proxyRequestId).bind (·.originalProgressToken)

/-- `getDownstreamRequestId` -/
def getDownstreamRequestId (m : RequestIdMapper) (proxyRequestId : String) : Option RequestId :=
  (m.proxyToDownstream.get? proxyRequestId).bind (·.downstreamRequestId)

/-- `getOriginalRequestId` -/
def getOriginalRequestId (m : RequestIdMapper) (proxyRequestId : String) : Option RequestId :=
  m.proxyToClient.get? proxyRequestId

/-- `getMappingEntry` -/
def getMappingEntry (m : RequestIdMapper) (proxyRequestId : String) : Option MappingEntry :=
  m.proxyToDownstream.get? proxyRequestId

/-- `removeMapping` -/
def removeMapping (m : RequestIdMapper) (proxyRequestId : String) : RequestIdMapper :=
  match m.proxyToDownstream.get? proxyRequestId with
  | none => m
  | some entry =>
    { m with
      clientToProxy := Function.update m.clientToProxy entry.originalRequestId none
      proxyToClient := m.proxyToClient.erase proxyRequestId
      proxyToDownstream := m.proxyToDownstream.erase proxyRequestId
      downstreamToProxy := m.withoutDownstream entry }

/-- The requests that have outlived the time to live. -/
def expired (m : RequestIdMapper) (now : Timestamp) : List String :=
  (m.proxyToDownstream.entries.filter fun e => decide (now - e.2.timestamp > ttlMs)).map Prod.fst

/-- `cleanupExpired` -/
def cleanupExpired (m : RequestIdMapper) (now : Timestamp) : RequestIdMapper :=
  (m.expired now).foldl removeMapping m

end RequestIdMapper

/-! ## Runs -/

/-- A request of the client under the proxy id that it was given. -/
structure InFlight where
  request : Nat
  proxyRequestId : String
deriving DecidableEq

/-- A mapper, and the requests that are in flight: those that have been registered and have
    neither been removed nor expired since. -/
structure MapperState where
  mapper : RequestIdMapper
  inFlight : List InFlight

/-- The operations on a mapper. -/
inductive MapperAction where
  | registerClientRequest (request : Nat) (originalRequestId : RequestId)
    (method serverId : Option String) (idTime entryTime : Timestamp)
  | registerDownstreamMapping (proxyRequestId : String) (downstreamRequestId : RequestId)
    (serverId : String) (client : Option ClientRef)
  | setOriginalProgressToken (proxyRequestId : String) (progressToken : RequestId)
  | removeMapping (proxyRequestId : String)
  | cleanupExpired (now : Timestamp)

namespace MapperState

def init (sessionId : String) : MapperState := ⟨.init sessionId, []⟩

/-- The requests that still have a mapping are in flight. -/
def withMapper (st : MapperState) (m : RequestIdMapper) : MapperState :=
  ⟨m, st.inFlight.filter fun r => (m.proxyToDownstream.get? r.proxyRequestId).isSome⟩

/-- One operation. -/
def step (st : MapperState) : MapperAction → Option MapperState
  | .registerClientRequest request originalRequestId method serverId idTime entryTime =>
    let result := st.mapper.registerClientRequest originalRequestId method serverId idTime entryTime
    let started : InFlight := ⟨request, result.1⟩
    some ⟨result.2, if started ∈ st.inFlight then st.inFlight else started :: st.inFlight⟩
  | .registerDownstreamMapping proxyRequestId downstreamRequestId serverId client =>
    some (st.withMapper (st.mapper.registerDownstreamMapping proxyRequestId downstreamRequestId
      serverId client))
  | .setOriginalProgressToken proxyRequestId progressToken =>
    some (st.withMapper (st.mapper.setOriginalProgressToken proxyRequestId progressToken))
  | .removeMapping proxyRequestId =>
    some (st.withMapper (st.mapper.removeMapping proxyRequestId))
  | .cleanupExpired now => some (st.withMapper (st.mapper.cleanupExpired now))

end MapperState

end PetaCore
