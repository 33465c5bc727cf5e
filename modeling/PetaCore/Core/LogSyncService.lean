import Mathlib.Data.List.Sort

/-!
# LogSyncService

The rows of the table `log` are sent to a webhook in batches, in the order of their ids. The ids
are handed out in order, but a row becomes visible only when its insert is committed.

A row is given by its id.
-/

namespace PetaCore

/-- What a sync awaits. -/
inductive SyncStage where
  | reading (startId : Nat)
  /-- the answer of the webhook -/
  | sending (logs : List Nat) (attempt : Nat)
  /-- the time before the next attempt -/
  | waiting (logs : List Nat) (attempt : Nat)
  /-- `updateLastSyncedLogId`, after the webhook has acknowledged -/
  | updating (logs : List Nat)
deriving DecidableEq

/-- The service, with `isSyncing` when there is a `sync`, and the tables: the column
    `lastSyncedLogId` of the proxy, the rows of `log` that are visible and the ids whose inserts are
    not committed. `attempts` and `acknowledged` are not of the source: the batches that have been
    sent, and the rows in batches that the webhook has acknowledged. -/
structure LogSyncState where
  syncTimer : Bool
  lastSyncedLogId : Nat
  proxyId : Option Nat
  webhookUrl : Option String
  isShuttingDown : Bool
  sync : Option SyncStage
  storedLogId : Nat
  rows : List Nat
  uncommitted : List Nat
  nextId : Nat
  attempts : List (List Nat)
  acknowledged : List Nat
deriving DecidableEq

inductive LogSyncAction where
  /-- an insert is given its id -/
  | insert
  | commit (id : Nat)
  | rollback (id : Nat)
  | timer
  | read
  | readFails
  | answered (ok : Bool)
  | retry
  | updated
  | updateFails
  | reloadWebhookUrl (webhookUrl : Option String)
  | shutdown
deriving DecidableEq

namespace LogSyncState

/-- `SYNC_BATCH_SIZE` -/
def syncBatchSize : Nat := 1000

/-- `RETRY_COUNT` -/
def retryCount : Nat := 1

/-- `!!webhookUrl` -/
def hasWebhook (webhookUrl : Option String) : Bool := webhookUrl.any (· ≠ "")

/-- `initialize`, on what the tables have. -/
def init (proxyId lastSyncedLogId : Nat) (webhookUrl : Option String) (rows : List Nat)
    (nextId : Nat) : LogSyncState where
  syncTimer := hasWebhook webhookUrl
  lastSyncedLogId
  proxyId := some proxyId
  webhookUrl
  isShuttingDown := false
  sync := none
  storedLogId := lastSyncedLogId
  rows
  uncommitted := []
  nextId
  attempts := []
  acknowledged := []

/-- Whether there is a webhook and a proxy. -/
def configured (s : LogSyncState) : Bool := hasWebhook s.webhookUrl && s.proxyId.any (· ≠ 0)

/-- `LogRepository.findLogsFromId` -/
def findLogsFromId (s : LogSyncState) (startId limit : Nat) : List Nat :=
  ((s.rows.filter fun id => startId ≤ id).insertionSort (· ≤ ·)).take limit

/-- `syncLogs` up to its first await. -/
def syncLogs (s : LogSyncState) : LogSyncState :=
  if s.isShuttingDown then s
  else if s.sync.isSome then s
  else if !s.configured then s
  else { s with sync := some (.reading (s.lastSyncedLogId + 1)) }

/-- An attempt of `sendLogsToWebhook` that has failed. -/
def attemptFails (s : LogSyncState) (logs : List Nat) (attempt : Nat) : LogSyncState :=
  { s with sync := if attempt < retryCount then some (.waiting logs attempt) else none }

def send (s : LogSyncState) (logs : List Nat) (attempt : Nat) : LogSyncState :=
  { s with sync := some (.sending logs attempt), attempts := s.attempts ++ [logs] }

/-- The rows have been read. -/
def found (s : LogSyncState) (logs : List Nat) : LogSyncState :=
  if logs = [] then { s with sync := none }
  else if hasWebhook s.webhookUrl then s.send logs 0
  else { s with sync := none }

def startSyncTimer (s : LogSyncState) : LogSyncState :=
  if hasWebhook s.webhookUrl then { s with syncTimer := true } else s

/-- `reloadWebhookUrl` -/
def reloadWebhookUrl (s : LogSyncState) (newWebhookUrl : Option String) : LogSyncState :=
  let hadWebhook := hasWebhook s.webhookUrl
  let s := { s with webhookUrl := newWebhookUrl }
  if !hadWebhook && hasWebhook newWebhookUrl then s.startSyncTimer
  else if hadWebhook && !hasWebhook newWebhookUrl then { s with syncTimer := false }
  else s

/-- `shutdown`. The sync it calls returns at once, and so does `shutdown`. -/
def shutdown (s : LogSyncState) : LogSyncState :=
  syncLogs { s with isShuttingDown := true, syncTimer := false }

def step (s : LogSyncState) : LogSyncAction → Option LogSyncState
  | .insert =>
    some { s with uncommitted := s.uncommitted ++ [s.nextId], nextId := s.nextId + 1 }
  | .commit id =>
    if id ∈ s.uncommitted then
      some { s with uncommitted := s.uncommitted.erase id, rows := s.rows ++ [id] }
    else none
  | .rollback id =>
    if id ∈ s.uncommitted then some { s with uncommitted := s.uncommitted.erase id } else none
  | .timer => if s.syncTimer then some s.syncLogs else none
  | .read =>
    match s.sync with
    | some (.reading startId) => some (s.found (s.findLogsFromId startId syncBatchSize))
    | _ => none
  | .readFails =>
    match s.sync with
    | some (.reading _) => some { s with sync := none }
    | _ => none
  | .answered ok =>
    match s.sync with
    | some (.sending logs attempt) =>
      if ok then
        some { s with
          sync := some (.updating logs)
          acknowledged := s.acknowledged ++ logs }
      else some (s.attemptFails logs attempt)
    | _ => none
  | .retry =>
    match s.sync with
    | some (.waiting logs attempt) =>
      if hasWebhook s.webhookUrl then some (s.send logs (attempt + 1))
      -- there is no URL to send to
      else some (s.attemptFails logs (attempt + 1))
    | _ => none
  | .updated =>
    match s.sync with
    | some (.updating logs) =>
      let lastLogId := logs.getLastD s.lastSyncedLogId
      some { s with storedLogId := lastLogId, lastSyncedLogId := lastLogId, sync := none }
    | _ => none
  | .updateFails =>
    match s.sync with
    | some (.updating _) => some { s with sync := none }
    | _ => none
  | .reloadWebhookUrl webhookUrl => some (s.reloadWebhookUrl webhookUrl)
  | .shutdown => some s.shutdown

end LogSyncState

end PetaCore
