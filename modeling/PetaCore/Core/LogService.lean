import PetaCore.ForStd.Dict
import PetaCore.ForStd.Table

/-!
# LogService

The audit log. Entries are queued and written to the table `log` in batches, each entry of a
batch by an insert of its own, all of them at the same time. A batch of which an insert fails goes
back into the queue. Once the service is shutting down, an entry is written at once.

A call of `enqueueLog` is told apart from the others by its number.
-/

namespace PetaCore

/-- `LogEntry` -/
structure LogEntry where
  action : Nat
  userId : Option String
  serverId : Option String
  sessionId : Option String
  upstreamRequestId : Option String
  uniformRequestId : Option String
  parentUniformRequestId : Option String
  proxyRequestId : Option String
  ip : Option String
  userAgent : Option String
  tokenMask : Option String
  requestParams : Option String
  responseResult : Option String
  error : Option String
  duration : Option Nat
  statusCode : Option Nat
deriving DecidableEq

/-- A row of the table `log`, without its id. -/
structure LogRow where
  createdAt : Nat
  userid : Option String
  action : Nat
  serverId : Option String
  sessionId : String
  upstreamRequestId : String
  uniformRequestId : Option String
  parentUniformRequestId : Option String
  proxyRequestId : Option String
  ip : String
  ua : String
  tokenMask : String
  requestParams : String
  responseResult : String
  error : String
  duration : Option Nat
  statusCode : Option Nat
deriving DecidableEq

/-- `LogRepository.save`: the row that is inserted, at the time `now` in milliseconds. -/
def LogEntry.save (data : LogEntry) (now : Nat) : LogRow where
  createdAt := now / 1000
  userid := data.userId
  action := data.action
  serverId := data.serverId
  sessionId := data.sessionId.getD ""
  upstreamRequestId := data.upstreamRequestId.getD ""
  uniformRequestId := data.uniformRequestId
  parentUniformRequestId := data.parentUniformRequestId
  proxyRequestId := data.proxyRequestId
  ip := data.ip.getD ""
  ua := data.userAgent.getD ""
  tokenMask := data.tokenMask.getD ""
  requestParams := data.requestParams.getD ""
  responseResult := data.responseResult.getD ""
  error := data.error.getD ""
  duration := data.duration
  statusCode := data.statusCode

/-- An entry with the number of the call that has queued it. -/
structure QueuedLog where
  number : Nat
  entry : LogEntry
deriving DecidableEq

/-- An insert on its way to the database, and the flush that awaits it: none for an entry that is
    written at once. -/
structure LogInsert where
  flush : Option Nat
  log : QueuedLog
deriving DecidableEq

/-- The service with the table `log`, whose rows have the numbers of their entries beside them.
    `flushes` are those that await their inserts, with their batches; `next` is the number of the
    next call. -/
structure LogState where
  logQueue : List QueuedLog
  isShuttingDown : Bool
  flushTimer : Bool
  flushes : Table (List QueuedLog)
  inserts : Table LogInsert
  rows : List (Nat × LogRow)
  next : Nat
deriving DecidableEq

inductive LogAction where
  | enqueueLog (entry : LogEntry)
  | timer
  | shutdown
  /-- the database has done an insert -/
  | insertSucceeds (insert : Nat) (now : Nat)
  | insertFails (insert : Nat)
deriving DecidableEq

namespace LogState

/-- `BATCH_SIZE` -/
def batchSize : Nat := 100

def init : LogState := ⟨[], false, true, .empty, .empty, [], 0⟩

/-- `flush` up to its first await. -/
def flush (s : LogState) : LogState :=
  if s.logQueue = [] then s
  else
    { s with
      logQueue := []
      flushes := s.flushes.add s.logQueue
      inserts := s.inserts.addAll (s.logQueue.map fun log => ⟨some s.flushes.next, log⟩) }

-- what `enqueueLog` does to the texts of an entry that may hold secrets
variable (redact : LogEntry → LogEntry)

/-- `enqueueLog` with `enqueue`, up to its first await. -/
def enqueueLog (s : LogState) (entry : LogEntry) : LogState :=
  let log : QueuedLog := ⟨s.next, redact entry⟩
  let s := { s with next := s.next + 1 }
  if s.isShuttingDown then { s with inserts := s.inserts.add ⟨none, log⟩ }
  else
    let s := { s with logQueue := s.logQueue ++ [log] }
    if s.logQueue.length ≥ batchSize then s.flush else s

/-- `shutdown` up to its first await. -/
def shutdown (s : LogState) : LogState :=
  flush { s with isShuttingDown := true, flushTimer := false }

/-- An insert that its flush awaits has been done: the flush returns when it was the last one. -/
def insertDone (s : LogState) : Option Nat → LogState
  | none => s
  | some flush =>
    if s.inserts.any fun _ other => other.flush == some flush then s
    else { s with flushes := s.flushes.erase flush }

/-- The first insert of a flush that fails: the batch goes back into the queue. -/
def requeue (s : LogState) : Option Nat → LogState
  -- `Failed to save log during shutdown`
  | none => s
  | some flush =>
    match s.flushes.get? flush with
    | none => s
    | some batch =>
      { s with logQueue := batch ++ s.logQueue, flushes := s.flushes.erase flush }

def step (s : LogState) : LogAction → Option LogState
  | .enqueueLog entry => some (s.enqueueLog redact entry)
  | .timer => if s.flushTimer then some s.flush else none
  | .shutdown => some s.shutdown
  | .insertSucceeds i now =>
    (s.inserts.get? i).map fun insert =>
      insertDone
        { s with
          inserts := s.inserts.erase i
          rows := s.rows ++ [(insert.log.number, insert.log.entry.save now)] }
        insert.flush
  | .insertFails i =>
    (s.inserts.get? i).map fun insert =>
      requeue { s with inserts := s.inserts.erase i } insert.flush

end LogState

end PetaCore
