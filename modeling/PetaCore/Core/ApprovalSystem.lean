import PetaCore.Core.ApprovalRepository

/-!
# Approval requests shared by sessions, deciders and timers

The system in which any number of callers run the operations of `ApprovalRepository`
against one table. Each SQL statement is one step. All operations but
`createOrGetPending` are a single statement; `createOrGetPending` inserts, reads,
expires and retries, and its calls in progress are part of the state, so that other
callers' statements can fall between any two of its own.

The clock never goes backwards. A JavaScript `now` is read before the statement that
uses it is executed, so it may lag behind the clock but not run ahead of it.
-/

namespace PetaCore

/-! ## createOrGetPending -/

/-- `maxRetries` of `createOrGetPending` -/
def maxRetries : Nat := 3

/-- How a call of `createOrGetPending` ends. -/
inductive CreateResult where
  | returned (created : Bool) (request : ApprovalRequest)
  | threw (message : String)

/-- The next statement of a call of `createOrGetPending`. -/
inductive CreatePc where
  | insert
  | find (now : Timestamp)
  | expire
  | done (result : CreateResult)

/-- A call of `createOrGetPending` in progress. -/
structure CreateCall where
  params : CreateApprovalParams
  retryCount : Nat
  pc : CreatePc

namespace CreateCall

/-- A call that has not executed any statement yet. -/
def start (params : CreateApprovalParams) : CreateCall := ⟨params, 0, .insert⟩

/-- The message thrown when every attempt found the hash taken but no row to return. -/
def retriesExhausted (requestHash : String) : String :=
  "Failed to create or find approval request after 3 retries: " ++ requestHash

/-- The error of an insert whose random id is taken. -/
def duplicateId : String := "duplicate key value violates unique constraint"

/-- The `INSERT`, with the `id` and `now` drawn for this attempt. -/
def insertStep (c : CreateCall) (id : String) (now : Timestamp) (t : ApprovalTable) :
    Option (ApprovalTable × CreateCall) :=
  match c.pc with
  | .insert =>
    match t.insertPending c.params id now with
    | (t', .inserted row) => some (t', { c with pc := .done (.returned true row) })
    | (t', .conflict) => some (t', { c with pc := .find now })
    | (t', .duplicateKey) => some (t', { c with pc := .done (.threw duplicateId) })
  | _ => none

/-- The read after a conflict, with the `now` of this attempt. -/
def findStep (c : CreateCall) (t : ApprovalTable) : Option CreateCall :=
  match c.pc with
  | .find now =>
    match t.findActiveByRequestHash c.params.requestHash now with
    | some row => some { c with pc := .done (.returned false row) }
    | none =>
      if maxRetries ≤ c.retryCount then
        some { c with pc := .done (.threw (retriesExhausted c.params.requestHash)) }
      else
        some { c with pc := .expire }
  | _ => none

/-- The `UPDATE` that expires lapsed rows, after which the call starts over. -/
def expireStep (c : CreateCall) (clock : Timestamp) (t : ApprovalTable) :
    Option (ApprovalTable × CreateCall) :=
  match c.pc with
  | .expire =>
    some ((t.expireByRequestHash c.params.requestHash clock).1,
      { c with retryCount := c.retryCount + 1, pc := .insert })
  | _ => none

end CreateCall

/-! ## The system -/

/-- The clock, the table and the calls of `createOrGetPending` made so far. -/
structure ApprovalState where
  clock : Timestamp
  table : ApprovalTable
  creates : List CreateCall

namespace ApprovalState

/-- An empty table, nobody calling. -/
def init (clock : Timestamp) : ApprovalState := ⟨clock, [], []⟩

end ApprovalState

/-- The steps of the system. `call` is the position of a call of `createOrGetPending`. -/
inductive ApprovalAction where
  | tick (clock : Timestamp)
  | createOrGetPending (params : CreateApprovalParams)
  | createInsert (call : Nat) (id : String) (now : Timestamp)
  | createFind (call : Nat)
  | createExpire (call : Nat)
  | decide (id : String) (decision : Decision) (actor : ApprovalDecisionActor)
      (reason : Option String) (now : Timestamp)
  | claimApprovedForExecution (requestHash : String)
  | claimApprovedForExecutionById (id : String)
  | touchExecuting (id : String)
  | markExecuted (id : String) (executionResult : Json) (now : Timestamp)
  | markFailed (id : String) (error : String) (now : Timestamp)
  | expireStale
  | recoverStaleExecuting (staleBefore : Timestamp)
  | forceExpire (id : String)

namespace ApprovalState

/-- Replace the call at a position. -/
def setCreate (s : ApprovalState) (call : Nat) (t : ApprovalTable) (c : CreateCall) :
    ApprovalState :=
  { s with table := t, creates := s.creates.set call c }

/-- One step; `none` when the action is not enabled. -/
def step (s : ApprovalState) : ApprovalAction → Option ApprovalState
  | .tick clock => if s.clock ≤ clock then some { s with clock := clock } else none
  | .createOrGetPending params =>
    some { s with creates := s.creates ++ [CreateCall.start params] }
  | .createInsert call id now =>
    if now ≤ s.clock then do
      let c ← s.creates[call]?
      let (t, c') ← c.insertStep id now s.table
      return s.setCreate call t c'
    else none
  | .createFind call => do
    let c ← s.creates[call]?
    let c' ← c.findStep s.table
    return s.setCreate call s.table c'
  | .createExpire call => do
    let c ← s.creates[call]?
    let (t, c') ← c.expireStep s.clock s.table
    return s.setCreate call t c'
  | .decide id decision actor reason now =>
    if now ≤ s.clock then
      some { s with table := (s.table.decide id decision actor reason now).1 }
    else none
  | .claimApprovedForExecution requestHash =>
    some { s with table := (s.table.claimApprovedForExecution requestHash s.clock).1 }
  | .claimApprovedForExecutionById id =>
    some { s with table := (s.table.claimApprovedForExecutionById id s.clock).1 }
  | .touchExecuting id =>
    some { s with table := (s.table.touchExecuting id s.clock).1 }
  | .markExecuted id executionResult now =>
    if now ≤ s.clock then
      some { s with table := (s.table.markExecuted id executionResult now).1 }
    else none
  | .markFailed id error now =>
    if now ≤ s.clock then
      some { s with table := (s.table.markFailed id error now).1 }
    else none
  | .expireStale => some { s with table := (s.table.expireStale s.clock).1 }
  | .recoverStaleExecuting staleBefore =>
    some { s with table := (s.table.recoverStaleExecuting staleBefore s.clock).1 }
  | .forceExpire id => some { s with table := (s.table.forceExpire id s.clock).1 }

end ApprovalState

end PetaCore
