import PetaCore.Core.ToolCall

/-!
# ApprovalService.checkOrCreateApproval

Any number of calls of `checkOrCreateApproval` against one table, among the other statements of
`ApprovalRepository`. A call looks for an active request, counts the recent creations of the hash
and of the tool, and lets `createOrGetPending` insert; each of these is one statement. A call reads
the clock before a statement, never earlier than it read it last.
-/

namespace PetaCore

/-- `CreateApprovalInput` -/
structure CreateApprovalInput where
  userId : String
  serverId : Option String
  toolName : String
  args : Json
  policyVersion : Nat
  uniformRequestId : Option String
  expiresInMs : Option Int

/-- `requestHash` -/
def CreateApprovalInput.requestHash (sha256 : String → String) (input : CreateApprovalInput) :
    String :=
  computeHash sha256 input.userId input.serverId input.toolName input.args input.policyVersion

/-- The `CreateApprovalParams` of a call, with the clock read for the expiry. -/
def CreateApprovalInput.params (sha256 : String → String) (input : CreateApprovalInput)
    (now : Timestamp) (redactedArgs : Json) : CreateApprovalParams where
  userId := input.userId
  serverId := input.serverId
  toolName := input.toolName
  canonicalArgs := sortKeys input.args
  redactedArgs := redactedArgs
  policyVersion := input.policyVersion
  requestHash := input.requestHash sha256
  expiresAt := now + input.expiresInMs.getD defaultExpiryMs
  uniformRequestId := input.uniformRequestId

/-- `ApprovalCheckResult`, or the message that is thrown. -/
inductive CheckOutcome where
  | result (needsApproval created : Bool) (request : ApprovalRequest) (requestHash : String)
  | threw (message : String)

/-- The message of the `ApprovalRateLimitError` for a hash. -/
def tooManyRetries : String :=
  "Too many retries for this exact approval request. Please retry after 60 seconds."

/-- The message of the `ApprovalRateLimitError` for a tool. -/
def tooManyRequests (toolName : String) : String :=
  "Too many approval requests for " ++ toolName ++ ". Please retry after 60 seconds."

/-- The next statement of a call; `since` is `rateLimitWindowStart`. -/
inductive CheckPc where
  | findActive
  | countByHash
  | countByTool (since : Timestamp)
  | create (since : Timestamp) (call : CreateCall)
  | done (outcome : CheckOutcome)

/-- A call of `checkOrCreateApproval`, with its last reading of the clock. -/
structure ApprovalCheck where
  input : CreateApprovalInput
  pc : CheckPc
  read : Timestamp

namespace ApprovalCheck

variable (sha256 : String → String)

/-- The statement of `findActiveByRequestHash`. -/
def findActive (c : ApprovalCheck) (now : Timestamp) (t : ApprovalTable) : Option ApprovalCheck :=
  match c.pc with
  | .findActive =>
    let requestHash := c.input.requestHash sha256
    match t.findActiveByRequestHash requestHash now with
    | some existing =>
      let needsApproval := existing.status != .approved
      some { c with pc := .done (.result needsApproval false existing requestHash), read := now }
    | none => some { c with pc := .countByHash, read := now }
  | _ => none

/-- The statement of `countRecentCreationsByRequestHash`. -/
def countByHash (c : ApprovalCheck) (now : Timestamp) (t : ApprovalTable) : Option ApprovalCheck :=
  match c.pc with
  | .countByHash =>
    let since := now - approvalCreateRateLimitWindowMs
    let recentCreatesByHash :=
      t.countRecentCreationsByRequestHash c.input.userId (c.input.requestHash sha256) since
    if approvalCreateRateLimitPerHashCount ≤ recentCreatesByHash then
      some { c with pc := .done (.threw tooManyRetries), read := now }
    else some { c with pc := .countByTool since, read := now }
  | _ => none

/-- The statement of `countRecentCreationsByTool`, after which the clock is read for the expiry. -/
def countByTool (c : ApprovalCheck) (now : Timestamp) (redactedArgs : Json) (t : ApprovalTable) :
    Option ApprovalCheck :=
  match c.pc with
  | .countByTool since =>
    let recentCreates :=
      t.countRecentCreationsByTool c.input.userId c.input.serverId c.input.toolName since
    if approvalCreateRateLimitCount ≤ recentCreates then
      some { c with pc := .done (.threw (tooManyRequests c.input.toolName)), read := now }
    else
      let params := c.input.params sha256 now redactedArgs
      some { c with pc := .create since (.start params), read := now }
  | _ => none

/-- What a call does when `createOrGetPending` has made a step. -/
def afterCreate (c : ApprovalCheck) (since : Timestamp) (call : CreateCall) : CheckPc :=
  match call.pc with
  | .done (.returned created request) =>
    if !created && request.status == .approved then
      .done (.result false false request (c.input.requestHash sha256))
    else .done (.result true created request (c.input.requestHash sha256))
  | .done (.threw message) => .done (.threw message)
  | _ => .create since call

/-- The `INSERT` of `createOrGetPending`. -/
def insert (c : ApprovalCheck) (id : String) (now : Timestamp) (t : ApprovalTable) :
    Option (ApprovalTable × ApprovalCheck) :=
  match c.pc with
  | .create since call => do
    let (t', call') ← call.insertStep id now t
    return (t', { c with pc := c.afterCreate sha256 since call', read := now })
  | _ => none

/-- The read of `createOrGetPending` after a conflict. -/
def find (c : ApprovalCheck) (t : ApprovalTable) : Option ApprovalCheck :=
  match c.pc with
  | .create since call => do
    let call' ← call.findStep t
    return { c with pc := c.afterCreate sha256 since call' }
  | _ => none

/-- The `UPDATE` of `createOrGetPending` before a retry. -/
def expire (c : ApprovalCheck) (clock : Timestamp) (t : ApprovalTable) :
    Option (ApprovalTable × ApprovalCheck) :=
  match c.pc with
  | .create since call => do
    let (t', call') ← call.expireStep clock t
    return (t', { c with pc := c.afterCreate sha256 since call' })
  | _ => none

end ApprovalCheck

/-! ## The system -/

/-- The clock, the table and the calls made so far. -/
structure CheckState where
  clock : Timestamp
  table : ApprovalTable
  checks : List ApprovalCheck

/-- The steps of the system; `check` is the position of a call, `other` a statement of another
    operation. -/
inductive CheckAction where
  | tick (clock : Timestamp)
  | checkOrCreateApproval (input : CreateApprovalInput)
  | findActive (check : Nat) (now : Timestamp)
  | countByHash (check : Nat) (now : Timestamp)
  | countByTool (check : Nat) (now : Timestamp) (redactedArgs : Json)
  | insert (check : Nat) (id : String) (now : Timestamp)
  | find (check : Nat)
  | expire (check : Nat)
  | other (a : ApprovalAction)

/-- Whether an action is a single statement of an operation other than `createOrGetPending`. -/
def ApprovalAction.isStatement : ApprovalAction → Bool
  | .tick _ | .createOrGetPending _ | .createInsert .. | .createFind _ | .createExpire _ => false
  | .decide .. | .claimApprovedForExecution _ | .claimApprovedForExecutionById _
  | .touchExecuting _ | .markExecuted .. | .markFailed .. | .expireStale
  | .recoverStaleExecuting _ | .forceExpire _ => true

namespace CheckState

/-- An empty table, nobody calling. -/
def init (clock : Timestamp) : CheckState := ⟨clock, [], []⟩

/-- The call at a position, when it can have read the clock at `now`. -/
def reading (s : CheckState) (check : Nat) (now : Timestamp) : Option ApprovalCheck := do
  let c ← s.checks[check]?
  if c.read ≤ now ∧ now ≤ s.clock then some c else none

/-- Replace the call at a position. -/
def setCheck (s : CheckState) (check : Nat) (t : ApprovalTable) (c : ApprovalCheck) : CheckState :=
  { s with table := t, checks := s.checks.set check c }

/-- One step; `none` when the action is not enabled. -/
def step (sha256 : String → String) (s : CheckState) : CheckAction → Option CheckState
  | .tick clock => if s.clock ≤ clock then some { s with clock := clock } else none
  | .checkOrCreateApproval input =>
    some { s with checks := s.checks ++ [⟨input, .findActive, s.clock⟩] }
  | .findActive check now => do
    let c ← s.reading check now
    let c' ← c.findActive sha256 now s.table
    return s.setCheck check s.table c'
  | .countByHash check now => do
    let c ← s.reading check now
    let c' ← c.countByHash sha256 now s.table
    return s.setCheck check s.table c'
  | .countByTool check now redactedArgs => do
    let c ← s.reading check now
    let c' ← c.countByTool sha256 now redactedArgs s.table
    return s.setCheck check s.table c'
  | .insert check id now => do
    let c ← s.reading check now
    let (t, c') ← c.insert sha256 id now s.table
    return s.setCheck check t c'
  | .find check => do
    let c ← s.checks[check]?
    let c' ← c.find sha256 s.table
    return s.setCheck check s.table c'
  | .expire check => do
    let c ← s.checks[check]?
    let (t, c') ← c.expire sha256 s.clock s.table
    return s.setCheck check t c'
  | .other a =>
    if a.isStatement then do
      let approvals ← ApprovalState.step ⟨s.clock, s.table, []⟩ a
      return { s with table := approvals.table }
    else none

end CheckState

end PetaCore
