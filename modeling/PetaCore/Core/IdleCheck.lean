import PetaCore.Core.ServerLifecycle

/-!
# The idle check

The contexts of the server manager with the clock, the requests that use them, and the timer
that puts idle servers to sleep. Each context is a `Lifecycle`; here it also has the time of its
last activity, which `ensureServerAvailable` writes.

`checkIdleServers` decides at one instant which servers are to sleep and then sleeps them one
after another, each when the disconnect of the one before has returned. Checks can overlap.
-/

namespace PetaCore

/-- A context with what the idle check reads of it. `lastCall` is not a field of the source: the
    time of the last call of `ensureServerAvailable`. -/
structure WatchedServer where
  server : Lifecycle
  transportType : Option String
  temporary : Bool
  lastActive : Timestamp
  lastCall : Option Timestamp
deriving DecidableEq

namespace WatchedServer

/-- Whether the step sets `lastActive`: a call finds the server online, or the call that has
    woken it up goes on. Calls that wait for the start of another one do not set it. -/
def recordsActivity (w : WatchedServer) : LifecycleAction → Bool
  | .ensureServerAvailable restored _ => (w.server.restored restored).context.status == .online
  | .queueCleared => w.server.waitQueue.any fun q => q.settled == some true
  | _ => false

def isCall : LifecycleAction → Bool
  | .ensureServerAvailable _ _ => true
  | _ => false

/-- A step of the server at the time `now`. -/
def step (w : WatchedServer) (now : Timestamp) (a : LifecycleAction) : Option WatchedServer :=
  (w.server.step a).map fun server =>
    { w with
      server
      lastActive := if w.recordsActivity a then now else w.lastActive
      lastCall := if isCall a then some now else w.lastCall }

/-- `IDLE_TIMEOUT` -/
def idleTimeout : Timestamp := 5 * 60 * 1000

def shouldSleep (w : WatchedServer) (now : Timestamp) : Bool :=
  if w.server.context.status ≠ .online then false
  else if !isLazyStartApplicable w.server.globalEnabled w.server.serverEntity then false
  else if w.transportType ≠ some "stdio" then false
  else
    let idleTime := now - w.lastActive
    decide (idleTime ≥ idleTimeout)

end WatchedServer

/-- A request that uses a server, from its call of `ensureServerAvailable` to its response. -/
structure ServerRequest where
  context : Nat
  call : Nat
  calledAt : Timestamp
deriving DecidableEq

/-- A check that sleeps servers: the context whose disconnect it awaits, with the number of the
    disconnect, and the ones that come after it. -/
structure IdleCheck where
  context : Nat
  disconnect : Nat
  serversToSleep : List Nat
deriving DecidableEq

structure IdleState where
  clock : Timestamp
  contexts : Table WatchedServer
  requests : Table ServerRequest
  checks : Table IdleCheck

inductive IdleAction where
  | advance (now : Timestamp)
  | newContext (globalEnabled : Bool) (serverEntity : LaunchSettings)
      (transportType : Option String) (temporary : Bool)
  /-- a step of a server, other than `sleepServer` -/
  | server (context : Nat) (a : LifecycleAction)
  | responds (request : Nat)
  | checkIdleServers
  /-- the disconnect that a check awaits has returned -/
  | sleepReturns (check : Nat)
deriving DecidableEq

namespace IdleState

def init (clock : Timestamp) : IdleState := ⟨clock, .empty, .empty, .empty⟩

/-- The requests after a step of a server: a call is one more, one that throws is over. -/
def requestsAfter (s : IdleState) (context : Nat) (w : WatchedServer) :
    LifecycleAction → Table ServerRequest
  | .ensureServerAvailable _ _ => s.requests.add ⟨context, w.server.calls.next, s.clock⟩
  | .ensureThrows call => s.requests.eraseIf fun r => r.context == context && r.call == call
  | _ => s.requests

/-- `sleepServer` up to its first await. -/
def sleepServer (s : IdleState) (context : Nat) (w : WatchedServer) : IdleState :=
  { s with
    contexts := s.contexts.put context
      { w with server := w.server.disconnectServerContext .sleepServer } }

/-- The loop of `checkIdleServers` from one await to the next: the context that begins to
    disconnect, with the state then and what the check awaits. -/
def sleepNext (s : IdleState) : List Nat → Option (IdleState × IdleCheck)
  | [] => none
  | context :: rest =>
    match s.contexts.get? context with
    | none => none
    | some w =>
      some (s.sleepServer context w, ⟨context, w.server.operations.next, rest⟩)

/-- The contexts of the maps that are to sleep at the time `now`, those of `serverContexts` before
    those of `temporaryServers`. -/
def serversToSleep (s : IdleState) (now : Timestamp) : List Nat :=
  let select (temporary : Bool) := (List.range s.contexts.next).filter fun context =>
    (s.contexts.get? context).any fun w =>
      w.temporary == temporary && w.server.registered && w.shouldSleep now
  select false ++ select true

/-- Whether a request has its response to come: its call has returned. -/
def isRunning (s : IdleState) (r : ServerRequest) : Bool :=
  (s.contexts.get? r.context).any fun w => (w.server.calls.get? r.call).isNone

def step (s : IdleState) : IdleAction → Option IdleState
  | .advance now => if s.clock ≤ now then some { s with clock := now } else none
  | .newContext globalEnabled serverEntity transportType temporary =>
    some { s with
      contexts := s.contexts.add
        ⟨.init globalEnabled serverEntity, transportType, temporary, s.clock, none⟩ }
  | .server context a =>
    match s.contexts.get? context with
    | none => none
    | some w =>
      if a = .sleepServer then none
      else
        (w.step s.clock a).map fun w' =>
          { s with
            contexts := s.contexts.put context w'
            requests := s.requestsAfter context w a }
  | .responds request =>
    match s.requests.get? request with
    | none => none
    | some r => if s.isRunning r then some { s with requests := s.requests.erase request } else none
  | .checkIdleServers =>
    match s.sleepNext (s.serversToSleep s.clock) with
    | none => some s
    | some (s', check) => some { s' with checks := s'.checks.add check }
  | .sleepReturns check =>
    match s.checks.get? check with
    | none => none
    | some c =>
      -- the disconnect is over when its operation is
      if (s.contexts.get? c.context).any fun w =>
          (w.server.operations.get? c.disconnect).isNone then
        match s.sleepNext c.serversToSleep with
        | none => some { s with checks := s.checks.erase check }
        | some (s', next) => some { s' with checks := s'.checks.put check next }
      else none

/-- The context that a step begins to disconnect for its sleep. -/
def beginsSleep (s : IdleState) : IdleAction → Option Nat
  | .checkIdleServers => (s.sleepNext (s.serversToSleep s.clock)).map (·.2.context)
  | .sleepReturns check =>
    (s.checks.get? check).bind fun c => (s.sleepNext c.serversToSleep).map (·.2.context)
  | _ => none

end IdleState

end PetaCore
