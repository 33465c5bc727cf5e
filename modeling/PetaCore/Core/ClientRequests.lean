import Mathlib.Logic.Function.Basic
import PetaCore.Core.ResultCacheService

/-!
# Client requests that share a forward

The cacheable tool calls and resource reads of all sessions, from their arrival to the outcome
that the client gets: `handleToolCall` and `handleResourceRead` around `executeWithCache`, with
`SingleflightRegistry`, the abort signal of a request, the client's cancellation of it, and the
retry after a timeout.

Downstream servers and the result cache are not part of the state. What they answer comes with
the step: the answer of a lookup, the answer to the forward of a key, the reply to a ping. A
promise settles in the step in which its leader leaves the registry; whoever enters before that
waits for it.
-/

namespace PetaCore

/-- An error that reaches the `catch` of a handler: an `McpError` with the code
    `RequestTimeout`, or any other. -/
inductive ForwardError where
  | requestTimeout (message : String)
  | other (message : String)
deriving DecidableEq

/-- The outcome of a forward, and of a request. -/
abbrev ForwardOutcome := Except ForwardError Json

/-- The clients of a downstream server: `Client` of the SDK, and `ModernHttpDownstreamClient`,
    which does not look at the signal of the request. -/
inductive DownstreamClient where
  | sdkClient
  | modernHttp
deriving DecidableEq

/-- What the requests use from outside, with the connection of each server context and whether
    its server stops work on a request that is cancelled. A `Client` rejects a request whose
    signal is aborted with `abortError`, and one that is sent with an aborted signal with
    `abortedError`. -/
structure ForwardEnv where
  sha256 : String → String
  connection : String → DownstreamClient
  stopsCancelled : String → Bool
  abortError : ForwardError
  abortedError : ForwardError

/-- Where the handler of a request is. -/
inductive RequestPhase where
  /-- before `executeWithCache` has looked up -/
  | starting
  /-- waits for its own forward, outside the registry; the server may have stopped work on it -/
  | forwarding (cancelled : Bool)
  /-- waits for the promise of a key in the registry -/
  | waiting (key : String)
  /-- the promise has settled -/
  | received (outcome : ForwardOutcome)
  | finished (outcome : ForwardOutcome)

/-- A request, with the server context it is routed to and its signal. -/
structure ClientRequest where
  request : CacheRequest
  context : String
  retryCount : Nat
  aborted : Bool
  phase : RequestPhase

/-- A request whose signal is aborted. -/
def ClientRequest.abort (r : ClientRequest) : ClientRequest := { r with aborted := true }

/-- A promise in the registry: the request whose factory was called, and the requests that wait
    with it, in the order of their entry. The server may have stopped work on it. -/
structure SharedForward where
  leader : Nat
  observers : List Nat
  cancelled : Bool

def SharedForward.participants (f : SharedForward) : List Nat := f.leader :: f.observers

structure RequestState where
  requests : Nat → Option ClientRequest
  inflight : String → Option SharedForward
  timeoutCount : String → Nat

namespace RequestState

def init : RequestState := ⟨fun _ => none, fun _ => none, fun _ => 0⟩

/-- What the client of a request gets. -/
def outcome (s : RequestState) (id : Nat) : Option ForwardOutcome :=
  (s.requests id).bind fun r =>
    match r.phase with
    | .finished outcome => some outcome
    | _ => none

def setRequest (s : RequestState) (id : Nat) (r : ClientRequest) : RequestState :=
  { s with requests := Function.update s.requests id (some r) }

/-- The requests of a list get the outcome of their promise. -/
def receive (s : RequestState) (ids : List Nat) (outcome : ForwardOutcome) : RequestState :=
  { s with requests := fun id =>
      if id ∈ ids then (s.requests id).map ({ · with phase := .received outcome })
      else s.requests id }

/-- `clearTimeout` of the server context of a request. -/
def clearTimeout (s : RequestState) (id : Nat) : RequestState :=
  match s.requests id with
  | some r => { s with timeoutCount := Function.update s.timeoutCount r.context 0 }
  | none => s

end RequestState

/-- What a handler learns before the forward: the cached result, that there is none, with
    `lookupVersions`, or that the request cannot be forwarded. -/
inductive LookupAnswer where
  | hit (payload : Json)
  | miss (lookupVersions : Option CacheNamespaceVersions)
  | refused (error : ForwardError)

/-- What comes of the ping of `recordTimeout`. After a timeout the server is reconnected if
    there is a token for it, and that may fail. -/
inductive PingReply where
  | answered
  | failed
  | timedOut (hasToken : Bool)
  | reconnectFailed (error : ForwardError)

inductive RequestEvent where
  | arrive (id : Nat) (request : CacheRequest) (context : String)
  | start (id : Nat) (answer : LookupAnswer)
  | abort (id : Nat)
  | cancel (id : Nat)
  | reply (key : String) (outcome : ForwardOutcome)
  | replyCancelled (key : String) (error : ForwardError)
  | rejectAborted (key : String)
  | replyOutside (id : Nat) (outcome : ForwardOutcome)
  | rejectOutside (id : Nat)
  | resume (id : Nat) (ping : PingReply)

/-- The request that an event is a step of; the answers to a shared forward are of none. -/
def RequestEvent.request? : RequestEvent → Option Nat
  | .arrive id _ _ | .start id _ | .abort id | .cancel id | .replyOutside id _
  | .rejectOutside id | .resume id _ => some id
  | .reply _ _ | .replyCancelled _ _ | .rejectAborted _ => none

namespace RequestSystem

variable (env : ForwardEnv)

/-- Whether a request of this state is rejected for its signal. -/
def rejects (r : ClientRequest) : Bool :=
  r.aborted && env.connection r.context == .sdkClient

/-- Whether the forward of a request is rejected for its signal. -/
def doomed (s : RequestState) (id : Nat) : Bool := (s.requests id).any (rejects env)

def arrive (s : RequestState) (id : Nat) (request : CacheRequest) (context : String) :
    RequestState :=
  match s.requests id with
  | some _ => s
  | none => s.setRequest id ⟨request, context, 0, false, .starting⟩

/-- `execute` of the registry up to the promise: the request joins the one that is there, or
    calls its factory. -/
def execute (s : RequestState) (id : Nat) (r : ClientRequest) (key : String) : RequestState :=
  let forward : SharedForward :=
    match s.inflight key with
    | some f => { f with observers := f.observers ++ [id] }
    | none => ⟨id, [], false⟩
  { (s.setRequest id { r with phase := .waiting key }) with
    inflight := Function.update s.inflight key (some forward) }

/-- `executeWithCache` up to the promise that the request waits for. -/
def start (s : RequestState) (id : Nat) (answer : LookupAnswer) : RequestState :=
  match s.requests id with
  | none => s
  | some r =>
    match r.phase, answer with
    | .starting, .hit payload => s.setRequest id { r with phase := .finished (.ok payload) }
    | .starting, .refused error => s.setRequest id { r with phase := .finished (.error error) }
    | .starting, .miss lookupVersions =>
      match r.request.scopeIdentity with
      | none => s.setRequest id { r with phase := .forwarding false }
      | some scopeIdentity =>
        execute s id r (singleflightKey env.sha256 r.request scopeIdentity lookupVersions)
    | _, _ => s

/-- A promise settles, and its leader leaves the registry. -/
def settle (s : RequestState) (key : String) (f : SharedForward) (outcome : ForwardOutcome) :
    RequestState :=
  { (s.receive f.participants outcome) with inflight := Function.update s.inflight key none }

/-- The signal of a request is aborted, and with it the forward whose factory is the request's
    own. A client that disconnects has the signals of all its requests aborted, one after the
    other. -/
def abort (s : RequestState) (id : Nat) : RequestState :=
  match s.requests id with
  | none => s
  | some r =>
    if r.aborted then s
    else
      match r.phase with
      | .finished _ => s
      | .forwarding _ =>
        if rejects env r.abort then
          s.setRequest id { r.abort with phase := .received (.error env.abortError) }
        else s.setRequest id r.abort
      | .waiting key =>
        match s.inflight key with
        | some f =>
          if f.leader = id ∧ rejects env r.abort then
            settle (s.setRequest id r.abort) key f (.error env.abortError)
          else s.setRequest id r.abort
        | none => s.setRequest id r.abort
      | _ => s.setRequest id r.abort

/-- Whether the server of a request stops work on it when it is told to. -/
def stops (r : ClientRequest) : Bool :=
  env.connection r.context == .sdkClient && env.stopsCancelled r.context && !rejects env r

/-- `handleCancelledNotification`: a client cancels a request, and the cancellation is passed on
    if the request has a request of its own at the server. -/
def cancel (s : RequestState) (id : Nat) : RequestState :=
  match s.requests id with
  | none => s
  | some r =>
    match r.phase with
    | .forwarding _ =>
      if stops env r then s.setRequest id { r with phase := .forwarding true } else s
    | .waiting key =>
      match s.inflight key with
      | some f =>
        if f.leader = id ∧ stops env r then
          { s with inflight := Function.update s.inflight key (some { f with cancelled := true }) }
        else s
      | none => s
    | _ => s

/-- The forward of a key ends: with the result of the server, unless it has stopped work on it,
    or with an error, which may also come from the connection. -/
def reply (s : RequestState) (key : String) (outcome : ForwardOutcome) : RequestState :=
  match s.inflight key with
  | none => s
  | some f =>
    if doomed env s f.leader then s
    else
      match outcome with
      | .ok _ => if f.cancelled then s else settle (s.clearTimeout f.leader) key f outcome
      | .error _ => settle s key f outcome

/-- The server answers a request that it has stopped work on. -/
def replyCancelled (s : RequestState) (key : String) (error : ForwardError) : RequestState :=
  match s.inflight key with
  | none => s
  | some f => if f.cancelled then settle s key f (.error error) else s

/-- The forward of a key was sent with an aborted signal. -/
def rejectAborted (s : RequestState) (key : String) : RequestState :=
  match s.inflight key with
  | none => s
  | some f =>
    if doomed env s f.leader then settle s key f (.error env.abortedError) else s

/-- A forward outside the registry ends. -/
def replyOutside (s : RequestState) (id : Nat) (outcome : ForwardOutcome) : RequestState :=
  match s.requests id with
  | none => s
  | some r =>
    match r.phase with
    | .forwarding cancelled =>
      if rejects env r then s
      else
        match outcome with
        | .ok _ =>
          if cancelled then s
          else (s.clearTimeout id).setRequest id { r with phase := .received outcome }
        | .error _ => s.setRequest id { r with phase := .received outcome }
    | _ => s

/-- A forward outside the registry was sent with an aborted signal. -/
def rejectOutside (s : RequestState) (id : Nat) : RequestState :=
  match s.requests id with
  | none => s
  | some r =>
    match r.phase with
    | .forwarding _ =>
      if rejects env r then
        s.setRequest id { r with phase := .received (.error env.abortedError) }
      else s
    | _ => s

/-- `maxTimeoutCount` -/
def maxTimeoutCount : Nat := 3

/-- `recordTimeout`: the new count, and whether the server was reconnected, if the error was a
    timeout. -/
def recordTimeout (count : Nat) (error : ForwardError) (ping : PingReply) :
    Nat × Except ForwardError (Option Bool) :=
  match error with
  | .other _ => (count, .ok none)
  | .requestTimeout _ =>
    if count + 1 ≥ maxTimeoutCount then
      match ping with
      | .answered => (0, .ok (some false))
      | .failed => (count + 1, .ok (some false))
      | .timedOut true => (0, .ok (some true))
      | .timedOut false => (count + 1, .ok (some true))
      | .reconnectFailed error => (0, .error error)
    else (count + 1, .ok (some false))

/-- The handler goes on after the promise has settled. It starts again after a timeout, twice at
    most, unless the server was reconnected. -/
def resume (s : RequestState) (id : Nat) (ping : PingReply) : RequestState :=
  match s.requests id with
  | none => s
  | some r =>
    match r.phase with
    | .received (.ok result) => s.setRequest id { r with phase := .finished (.ok result) }
    | .received (.error error) =>
      let recorded := recordTimeout (s.timeoutCount r.context) error ping
      let r' :=
        match recorded.2 with
        | .error error => { r with phase := .finished (.error error) }
        | .ok (some false) =>
          if r.retryCount < 2 then { r with phase := .starting, retryCount := r.retryCount + 1 }
          else { r with phase := .finished (.error error) }
        | .ok _ => { r with phase := .finished (.error error) }
      { (s.setRequest id r') with
        timeoutCount := Function.update s.timeoutCount r.context recorded.1 }
    | _ => s

def step (s : RequestState) : RequestEvent → RequestState
  | .arrive id request context => arrive s id request context
  | .start id answer => start env s id answer
  | .abort id => abort env s id
  | .cancel id => cancel env s id
  | .reply key outcome => reply env s key outcome
  | .replyCancelled key error => replyCancelled s key error
  | .rejectAborted key => rejectAborted env s key
  | .replyOutside id outcome => replyOutside env s id outcome
  | .rejectOutside id => rejectOutside env s id
  | .resume id ping => resume s id ping

/-- The state after a list of events, in the order given. -/
def run (events : List RequestEvent) : RequestState := events.foldl (step env) .init

end RequestSystem

end PetaCore
