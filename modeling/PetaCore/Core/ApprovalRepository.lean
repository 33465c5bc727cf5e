import PetaCore.ForStd.Json
import PetaCore.Core.Types

/-!
# The approval_request table

The table `approval_request` and the SQL statements of `ApprovalRepository`, each as
one atomic function of the table. A statement that sets a column from the database
clock (`NOW()`) takes `clock`; one that passes a JavaScript `new Date()` takes `now`,
which the caller read before it awaited the statement.
-/

namespace PetaCore

/-- `decision_channel` -/
inductive DecisionChannel where
  | adminApi
  | socket
deriving DecidableEq

/-- A row of `approval_request` (`ApprovalRequest`). -/
structure ApprovalRequest where
  id : String
  userId : String
  serverId : Option String
  toolName : String
  canonicalArgs : Json
  redactedArgs : Json
  policyVersion : Nat
  requestHash : String
  status : ApprovalStatus
  expiresAt : Timestamp
  decidedAt : Option Timestamp
  decisionReason : Option String
  decidedByUserId : Option String
  decidedByRole : Option UserRole
  decisionChannel : Option DecisionChannel
  executedAt : Option Timestamp
  executionError : Option String
  executionResult : Option Json
  uniformRequestId : Option String
  createdAt : Timestamp
  updatedAt : Timestamp

/-- `CreateApprovalParams` -/
structure CreateApprovalParams where
  userId : String
  serverId : Option String
  toolName : String
  canonicalArgs : Json
  redactedArgs : Json
  policyVersion : Nat
  requestHash : String
  expiresAt : Timestamp
  uniformRequestId : Option String

/-- `ApprovalDecisionActor` -/
structure ApprovalDecisionActor where
  actorUserId : Option String
  actorRole : Option UserRole
  channel : DecisionChannel

/-- The two values `decide` may write. -/
inductive Decision where
  | approved
  | rejected
deriving DecidableEq

/-- The status a decision writes. -/
def Decision.status : Decision → ApprovalStatus
  | .approved => .approved
  | .rejected => .rejected

abbrev ApprovalTable := List ApprovalRequest

namespace ApprovalTable

/-- `UPDATE approval_request SET … WHERE … RETURNING *`: the new table and the rows
    changed. -/
def updateWhere (p : ApprovalRequest → Bool) (f : ApprovalRequest → ApprovalRequest)
    (t : ApprovalTable) : ApprovalTable × List ApprovalRequest :=
  (t.map fun r => if p r then f r else r, (t.filter p).map f)

/-- The row an `INSERT` of `createOrGetPending` writes. -/
def pendingRow (params : CreateApprovalParams) (id : String) (now : Timestamp) :
    ApprovalRequest where
  id := id
  userId := params.userId
  serverId := params.serverId
  toolName := params.toolName
  canonicalArgs := params.canonicalArgs
  redactedArgs := params.redactedArgs
  policyVersion := params.policyVersion
  requestHash := params.requestHash
  status := .pending
  expiresAt := params.expiresAt
  decidedAt := none
  decisionReason := none
  decidedByUserId := none
  decidedByRole := none
  decisionChannel := none
  executedAt := none
  executionError := none
  executionResult := none
  uniformRequestId := params.uniformRequestId
  createdAt := now
  updatedAt := now

/-- The result of the `INSERT … ON CONFLICT (request_hash) WHERE … DO NOTHING`. -/
inductive InsertResult where
  | inserted (row : ApprovalRequest)
  | conflict
  | duplicateKey

/-- The `INSERT` of `createOrGetPending`. The conflict index is looked at before the row
    is written, so the primary key is only violated by a row that does not conflict. -/
def insertPending (params : CreateApprovalParams) (id : String) (now : Timestamp)
    (t : ApprovalTable) : ApprovalTable × InsertResult :=
  if t.any fun r => r.requestHash == params.requestHash && r.status.isActive then
    (t, .conflict)
  else if t.any fun r => r.id == id then
    (t, .duplicateKey)
  else
    (t ++ [pendingRow params id now], .inserted (pendingRow params id now))

/-- The `WHERE` clause of the read in `createOrGetPending` and of
    `findActiveByRequestHash`. -/
def matchesActive (requestHash : String) (now : Timestamp) (r : ApprovalRequest) : Bool :=
  r.requestHash == requestHash &&
    ((r.status.isOpen && decide (now < r.expiresAt)) || r.status == .executing)

/-- The first row in the order `ORDER BY created_at DESC`. -/
def latestCreated : List ApprovalRequest → Option ApprovalRequest
  | [] => none
  | r :: rs =>
    match latestCreated rs with
    | none => some r
    | some r' => if r.createdAt < r'.createdAt then some r' else some r

/-- `findFirst` of `createOrGetPending` and of `findActiveByRequestHash`. -/
def findActiveByRequestHash (requestHash : String) (now : Timestamp) (t : ApprovalTable) :
    Option ApprovalRequest :=
  latestCreated (t.filter (matchesActive requestHash now))

/-- `findById` -/
def findById (id : String) (t : ApprovalTable) : Option ApprovalRequest :=
  t.find? fun r => r.id == id

/-- The statement with which `createOrGetPending` expires lapsed rows of one hash. -/
def expireByRequestHash (requestHash : String) (clock : Timestamp) (t : ApprovalTable) :
    ApprovalTable × List ApprovalRequest :=
  t.updateWhere
    (fun r => r.requestHash == requestHash && r.status.isOpen && decide (r.expiresAt ≤ clock))
    (fun r => { r with status := .expired, updatedAt := clock })

/-- `decide` -/
protected def decide (id : String) (decision : Decision) (actor : ApprovalDecisionActor)
    (reason : Option String) (now : Timestamp) (t : ApprovalTable) :
    ApprovalTable × List ApprovalRequest :=
  t.updateWhere
    (fun r => r.id == id && r.status == .pending && decide (now < r.expiresAt))
    (fun r => { r with
      status := decision.status
      decidedAt := some now
      decisionReason := reason
      decidedByUserId := actor.actorUserId
      decidedByRole := actor.actorRole
      decisionChannel := some actor.channel
      updatedAt := now })

/-- The claim statement, with the column that selects the row as a parameter. -/
def claimWhere (sel : ApprovalRequest → Bool) (clock : Timestamp) (t : ApprovalTable) :
    ApprovalTable × List ApprovalRequest :=
  t.updateWhere
    (fun r => sel r && r.status == .approved && decide (clock < r.expiresAt))
    (fun r => { r with status := .executing, updatedAt := clock })

/-- `claimApprovedForExecution` -/
def claimApprovedForExecution (requestHash : String) (clock : Timestamp)
    (t : ApprovalTable) : ApprovalTable × List ApprovalRequest :=
  t.claimWhere (fun r => r.requestHash == requestHash) clock

/-- `claimApprovedForExecutionById` -/
def claimApprovedForExecutionById (id : String) (clock : Timestamp) (t : ApprovalTable) :
    ApprovalTable × List ApprovalRequest :=
  t.claimWhere (fun r => r.id == id) clock

/-- `markExecuted` -/
def markExecuted (id : String) (executionResult : Json) (now : Timestamp)
    (t : ApprovalTable) : ApprovalTable × List ApprovalRequest :=
  t.updateWhere
    (fun r => r.id == id && r.status == .executing)
    (fun r => { r with
      status := .executed
      executedAt := some now
      executionResult := some executionResult
      updatedAt := now })

/-- `markFailed` -/
def markFailed (id : String) (error : String) (now : Timestamp) (t : ApprovalTable) :
    ApprovalTable × List ApprovalRequest :=
  t.updateWhere
    (fun r => r.id == id && r.status == .executing)
    (fun r => { r with
      status := .failed
      executionError := some error
      updatedAt := now })

/-- `touchExecuting` -/
def touchExecuting (id : String) (clock : Timestamp) (t : ApprovalTable) :
    ApprovalTable × List ApprovalRequest :=
  t.updateWhere
    (fun r => r.id == id && r.status == .executing)
    (fun r => { r with updatedAt := clock })

/-- `expireStale` -/
def expireStale (clock : Timestamp) (t : ApprovalTable) :
    ApprovalTable × List ApprovalRequest :=
  t.updateWhere
    (fun r => r.status.isOpen && decide (r.expiresAt ≤ clock))
    (fun r => { r with status := .expired, updatedAt := clock })

/-- The text `recoverStaleExecuting` stores. -/
def staleExecutionError : String := "Stale EXECUTING approval recovered by sweeper timeout"

/-- `recoverStaleExecuting` -/
def recoverStaleExecuting (staleBefore clock : Timestamp) (t : ApprovalTable) :
    ApprovalTable × List ApprovalRequest :=
  t.updateWhere
    (fun r => r.status == .executing && decide (r.updatedAt ≤ staleBefore))
    (fun r => { r with
      status := .failed
      executionError := some staleExecutionError
      updatedAt := clock })

/-- `forceExpire` -/
def forceExpire (id : String) (clock : Timestamp) (t : ApprovalTable) :
    ApprovalTable × List ApprovalRequest :=
  t.updateWhere
    (fun r => r.id == id && r.status.isActive)
    (fun r => { r with status := .expired, updatedAt := clock })

/-- `countRecentCreationsByTool` -/
def countRecentCreationsByTool (userId : String) (serverId : Option String)
    (toolName : String) (since : Timestamp) (t : ApprovalTable) : Nat :=
  t.countP fun r => r.userId == userId && r.toolName == toolName && r.serverId == serverId &&
    decide (since ≤ r.createdAt)

/-- `countRecentCreationsByRequestHash` -/
def countRecentCreationsByRequestHash (userId requestHash : String) (since : Timestamp)
    (t : ApprovalTable) : Nat :=
  t.countP fun r => r.userId == userId && r.requestHash == requestHash &&
    decide (since ≤ r.createdAt)

end ApprovalTable

end PetaCore
