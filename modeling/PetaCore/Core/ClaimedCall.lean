import PetaCore.Core.ClientRequests
import PetaCore.Core.RequestRouting
import PetaCore.Core.ToolCall

/-!
# Claimed calls

`ProxySession.handleToolCall` from the moment when it has claimed an approval request. The call goes
downstream, its outcome is written to the claimed row, and whatever happens the heartbeat of the row
and the mapping of the request id are removed. After a timeout the handler calls itself.

A claimed call is not cached, since it is one that the policy wants to be approved.
-/

namespace PetaCore

/-- A call of `markExecuted` or `markFailed`, whether or not it succeeds. -/
inductive SettleAttempt where
  | markExecuted (id : String) (executionResult : Json)
  | markFailed (id error : String)

def SettleAttempt.id : SettleAttempt → String
  | markExecuted id _ | markFailed id _ => id

/-- What the handler reads and writes: the mapper of the session, the intervals that are set with
    the row that each touches, the count of timeouts of the server context, and the outcomes it has
    tried to write. -/
structure CallWorld where
  mapper : RequestIdMapper
  heartbeats : List (Nat × String)
  nextTimer : Nat
  timeoutCount : Nat
  attempts : List SettleAttempt

/-- What a claimed call meets. `mapperThen` and `countThen` are what other requests do while the
    handler awaits for the first time, for the second, and so on. -/
structure ClaimedEnv where
  idTime : Timestamp
  entryTime : Timestamp
  mapperThen : Nat → RequestIdMapper → RequestIdMapper
  countThen : Nat → Nat → Nat
  /-- the downstream server's result, and whether its `isError` is `true` -/
  callTool : Except ForwardError (Json × Bool)
  logResponse : Except ForwardError Unit
  /-- `markExecuted` or `markFailed` after a result: whether it has found the row -/
  mark : Except ForwardError Bool
  notify : Except ForwardError Unit
  ping : PingReply
  logError : Except ForwardError Unit
  /-- `markFailed` after an error -/
  markFailed : Except ForwardError Bool
  notifyFailed : Except ForwardError Unit

/-- An execution of `handleToolCall`: one that claims nothing, or one that claims a row, with what
    its retry will be. -/
inductive ToolExecution where
  | unclaimed (outcome : ForwardOutcome) (mapperThen : RequestIdMapper → RequestIdMapper)
  | claimed (id : String) (env : ClaimedEnv) (retry : ToolExecution)

/-- The parts of the request that the mapping has. -/
structure MappedRequest where
  originalRequestId : RequestId
  serverId : String
  progressToken : Option RequestId

/-- `String(error)` -/
def ForwardError.text : ForwardError → String
  | requestTimeout message | other message => message

namespace CallWorld

/-- What other requests do during an await. -/
def meanwhile (w : CallWorld) (env : ClaimedEnv) (await : Nat) : CallWorld :=
  { w with
    mapper := env.mapperThen await w.mapper
    timeoutCount := env.countThen await w.timeoutCount }

def attempt (w : CallWorld) (a : SettleAttempt) : CallWorld :=
  { w with attempts := w.attempts ++ [a] }

/-- `registerClientRequest` and `rewriteProgressTokenForDownstream`: the proxy id, and the mapper. -/
def registerRequest (w : CallWorld) (request : MappedRequest) (env : ClaimedEnv) :
    String × RequestIdMapper :=
  let registered := w.mapper.registerClientRequest request.originalRequestId (some "tools/call")
    (some request.serverId) env.idTime env.entryTime
  (registered.1,
    rewriteProgressTokenForDownstream registered.2 request.progressToken registered.1)

/-- The `try` of the handler. -/
def tryCall (w : CallWorld) (id : String) (env : ClaimedEnv) : ForwardOutcome × CallWorld :=
  let w := w.meanwhile env 0
  match env.callTool with
  | .error error => (.error error, w)
  | .ok (serverResult, isError) =>
    let w := { w with timeoutCount := 0 }.meanwhile env 1
    match env.logResponse with
    | .error error => (.error error, w)
    | .ok () =>
      let w := w.attempt
        (if isError then .markFailed id toolReturnedError else .markExecuted id serverResult)
      let w := w.meanwhile env 2
      match env.mark with
      | .ok true =>
        match env.notify with
        | .error error => (.error error, w)
        | .ok () => (.ok serverResult, w)
      -- a failure to write counts as no row
      | .ok false | .error _ => (.ok serverResult, w)

/-- The result for an error. -/
def errorResult (errorMsg : String) : Json :=
  .obj [("content", .arr [.obj [("type", .str "text"), ("text", .str errorMsg)]]),
    ("isError", .bool true)]

/-- The `catch` of the handler. The claimed row is no longer set when it decides on a retry. -/
def catchError (w : CallWorld) (retryCount : Nat) (id : String) (env : ClaimedEnv)
    (retry : CallWorld → ForwardOutcome × CallWorld) (error : ForwardError) :
    ForwardOutcome × CallWorld :=
  let recorded := RequestSystem.recordTimeout w.timeoutCount error env.ping
  let w := { w with timeoutCount := recorded.1 }.meanwhile env 3
  match recorded.2 with
  | .error error => (.error error, w)
  | .ok isReconnected =>
    let w := w.meanwhile env 4
    match env.logError with
    | .error error => (.error error, w)
    | .ok () =>
      let w := (w.attempt (.markFailed id error.text)).meanwhile env 5
      let finish : ForwardOutcome × CallWorld :=
        if isReconnected = some false ∧ retryCount < 2 then retry w
        else (.ok (errorResult error.text), w)
      match env.markFailed with
      | .ok true =>
        match env.notifyFailed with
        | .error error => (.error error, w)
        | .ok () => finish
      | .ok false | .error _ => finish

/-- The `try` and the `catch`. -/
def tryOrCatch (w : CallWorld) (retryCount : Nat) (id : String) (env : ClaimedEnv)
    (retry : CallWorld → ForwardOutcome × CallWorld) : ForwardOutcome × CallWorld :=
  let tried := w.tryCall id env
  match tried.1 with
  | .ok serverResult => (.ok serverResult, tried.2)
  | .error error => tried.2.catchError retryCount id env retry error

/-- The mapping is made and the heartbeat set. -/
def start (w : CallWorld) (request : MappedRequest) (id : String) (env : ClaimedEnv) : CallWorld :=
  { w with
    mapper := (w.registerRequest request env).2
    heartbeats := w.heartbeats ++ [(w.nextTimer, id)]
    nextTimer := w.nextTimer + 1 }

/-- The `finally` of the handler. -/
def cleanUp (w : CallWorld) (timer : Nat) (proxyRequestId : String) : CallWorld :=
  { w with
    heartbeats := w.heartbeats.filter fun h => h.1 ≠ timer
    mapper := w.mapper.removeMapping proxyRequestId }

/-- `handleToolCall`, for a claimed call from `registerClientRequest` on. -/
def handleToolCall (request : MappedRequest) :
    ToolExecution → Nat → CallWorld → ForwardOutcome × CallWorld
  | .unclaimed outcome mapperThen, _, w => (outcome, { w with mapper := mapperThen w.mapper })
  | .claimed id env retry, retryCount, w =>
    let result := (w.start request id env).tryOrCatch retryCount id env
      (handleToolCall request retry (retryCount + 1))
    (result.1, result.2.cleanUp w.nextTimer (w.registerRequest request env).1)

end CallWorld

end PetaCore
