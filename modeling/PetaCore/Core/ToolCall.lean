import PetaCore.Core.ApprovalRequestHasher
import PetaCore.Core.ApprovalSystem
import PetaCore.Core.PolicySystem

/-!
# Tool calls

A `tools/call` request from its policy decision to its recorded outcome, in the legacy
gateway (`ProxySession.handleToolCall`) and in the modern one
(`ModernMcpController.callTool`). Both ask `PolicyEngine.evaluate`, let
`ApprovalService.checkOrCreateApproval` find or create an approval request, claim it,
forward the call downstream and write the outcome to the claimed row. They differ in that
the legacy gateway waits for the decision, keeps its row fresh with a heartbeat while the
call is running, records a result with `isError` as failed, and retries a call after a
timeout that did not reconnect the server.

A call is a program counter with the local variables that later code reads. Each step
executes at most one statement of the approval system or one action of the policy system,
its `CallEffect`. What the model does not decide (routing, downstream answers, whether a
log write fails) is carried by the action.
-/

namespace PetaCore

/-! ## Calls -/

/-- Which of the two gateways serves a call. -/
inductive Generation where
  | legacy
  | modern
deriving DecidableEq

/-- A `tools/call` request. -/
structure ToolCallRequest where
  generation : Generation
  userId : String
  args : Json
  uniformRequestId : Option String

/-- The downstream server and tool a request is routed to. -/
structure Route where
  serverId : String
  toolName : String
deriving DecidableEq

/-- A call whose policy decision is `requireApproval`: the result of `evaluate`, the policy
    set it comes from, and the hash `checkOrCreateApproval` computes. -/
structure Ask where
  route : Route
  result : PolicyEvaluateResult
  source : Option ToolPolicySet
  requestHash : String

/-- A call that is allowed to go downstream. -/
structure Forward where
  route : Route
  result : PolicyEvaluateResult
  approvalRequestId : Option String

/-- Where a call stands. -/
inductive CallPc where
  | resolve
  | evaluate (route : Route) (evaluation : Nat)
  | findActive (ask : Ask)
  | countByHash (ask : Ask)
  | countByTool (ask : Ask) (since : Timestamp)
  | create (ask : Ask) (call : Nat)
  | wait (ask : Ask) (id : String)
  | claim (ask : Ask) (id : String)
  | forward (f : Forward)
  | inFlight (f : Forward)
  | respond (f : Forward) (result : Json) (isError : Bool)
  | settle (f : Forward) (result : Json) (isError : Bool)
  | recover (f : Forward) (error : String)
  | logError (f : Forward) (error : String) (isReconnected : Option Bool)
  | markFailed (f : Forward) (error : String) (isReconnected : Option Bool)
  | done

/-- A call, with the number of retries made so far. -/
structure ToolCall where
  request : ToolCallRequest
  retryCount : Nat
  pc : CallPc

/-- What a step of a call does to the rest of the gateway. -/
inductive CallEffect where
  | none
  | approval (a : ApprovalAction)
  | policy (a : PolicyAction)

/-- The steps of a call. -/
inductive CallAction where
  | resolve (route : Route) (dangerLevel : DangerLevel)
  | giveUp
  | decided
  | findActive (now : Timestamp)
  | countByHash (now : Timestamp)
  | countByTool (now : Timestamp) (redactedArgs : Json)
  | created
  | poll
  | stopWaiting
  | claim
  | send
  | serveCached (result : Json) (isError : Bool)
  | cannotSend (error : String)
  | touch
  | respond (result : Json) (isError : Bool)
  | reject (error : String)
  | logged (error : Option String)
  | settle (ok : Bool) (stored : Json) (now : Timestamp)
  | recordTimeout (isReconnected : Option Bool)
  | recordTimeoutThrows
  | errorLogged (ok : Bool)
  | markFailed (ok : Bool) (now : Timestamp)

/-! ## checkOrCreateApproval -/

/-- `DEFAULT_EXPIRY_MS` -/
def defaultExpiryMs : Int := 10 * 60 * 1000

/-- `APPROVAL_CREATE_RATE_LIMIT_COUNT` -/
def approvalCreateRateLimitCount : Nat := 10

/-- `APPROVAL_CREATE_RATE_LIMIT_WINDOW_MS` -/
def approvalCreateRateLimitWindowMs : Int := 60 * 1000

/-- `APPROVAL_CREATE_RATE_LIMIT_PER_HASH_COUNT` -/
def approvalCreateRateLimitPerHashCount : Nat := 3

/-- `EXECUTING_STALE_TIMEOUT_MS` -/
def executingStaleTimeoutMs : Int := 10 * 60 * 1000

/-- The text of the error a result with `isError` is recorded with. -/
def toolReturnedError : String := "Tool returned error"

namespace ToolCall

/-- The hash under which a call with this route and policy version asks for approval. -/
def requestHash (sha256 : String → String) (c : ToolCall) (route : Route)
    (policyVersion : Nat) : String :=
  computeHash sha256 c.request.userId (some route.serverId) route.toolName c.request.args
    policyVersion

/-- The `CreateApprovalParams` of `checkOrCreateApproval`. -/
def createParams (c : ToolCall) (ask : Ask) (now : Timestamp) (redactedArgs : Json) :
    CreateApprovalParams where
  userId := c.request.userId
  serverId := some ask.route.serverId
  toolName := ask.route.toolName
  canonicalArgs := sortKeys c.request.args
  redactedArgs := redactedArgs
  policyVersion := ask.result.policyVersion
  requestHash := ask.requestHash
  expiresAt := now + defaultExpiryMs
  uniformRequestId := c.request.uniformRequestId

/-- What a call does with the request `checkOrCreateApproval` returned: claim it if it is
    approved, else wait for the decision (legacy) or answer that it is pending (modern). -/
def afterCheck (c : ToolCall) (ask : Ask) (row : ApprovalRequest) (approved : Bool) : CallPc :=
  if approved then .claim ask row.id
  else
    match c.request.generation with
    | .legacy => .wait ask row.id
    | .modern => .done

/-- What a call does after `evaluate`. -/
def afterEvaluate (sha256 : String → String) (c : ToolCall) (route : Route)
    (result : PolicyEvaluateResult) (source : Option ToolPolicySet) : CallPc :=
  match result.decision with
  | .deny => .done
  | .allow => .forward ⟨route, result, none⟩
  | .requireApproval =>
    .findActive ⟨route, result, source, c.requestHash sha256 route result.policyVersion⟩

/-- What `waitForApproval` makes of the row it polled; `none` is to go on waiting. -/
def afterPoll (ask : Ask) (id : String) : Option ApprovalRequest → Option CallPc
  | none => some .done
  | some row =>
    match row.status with
    | .approved => some (.claim ask id)
    | .pending | .executing => none
    | .rejected | .expired | .executed | .failed => some .done

/-- The first step of the error path: the legacy gateway asks `recordTimeout` and then logs,
    the modern one settles the approval first. -/
def afterError (c : ToolCall) (f : Forward) (error : String) : CallPc :=
  match c.request.generation with
  | .legacy => .recover f error
  | .modern => .markFailed f error none

/-- The end of the legacy error path: one of at most two retries, or the error result. -/
def afterFailure (c : ToolCall) (isReconnected : Option Bool) : ToolCall :=
  if isReconnected = some false ∧ c.retryCount < 2 then
    { c with retryCount := c.retryCount + 1, pc := .resolve }
  else { c with pc := .done }

/-- The statement that records the outcome of a forwarded call. -/
def settleAction (c : ToolCall) (id : String) (isError : Bool) (stored : Json)
    (now : Timestamp) : ApprovalAction :=
  match c.request.generation, isError with
  | .legacy, true => .markFailed id toolReturnedError now
  | .legacy, false | .modern, _ => .markExecuted id stored now

/-- The row whose heartbeat is running. -/
def heartbeat (c : ToolCall) : Option String :=
  match c.request.generation, c.pc with
  | .legacy, .inFlight f | .legacy, .respond f _ _ | .legacy, .settle f _ _
  | .legacy, .recover f _ | .legacy, .logError f _ _ | .legacy, .markFailed f _ _ =>
    f.approvalRequestId
  | _, _ => none

/-- One step of a call against the state of the approval and the policy system; `none`
    when the action is not enabled. -/
def step (rt : DslRuntime) (sha256 : String → String) (s : ApprovalState) (p : PolicyState)
    (c : ToolCall) : CallAction → Option (CallEffect × ToolCall)
  | .resolve route dangerLevel =>
    match c.pc with
    | .resolve =>
      let params : PolicyEvaluateParams :=
        ⟨c.request.userId, some route.serverId, route.toolName, c.request.args, dangerLevel⟩
      some (.policy (.evaluate params),
        { c with pc := .evaluate route p.evaluations.length })
    | _ => none
  | .giveUp =>
    match c.pc with
    | .resolve => some (.none, { c with pc := .done })
    | _ => none
  | .decided =>
    match c.pc with
    | .evaluate route e => do
      let ev ← p.evaluations[e]?
      let result ← ev.result rt
      return (.none, { c with pc := c.afterEvaluate sha256 route result (ev.source rt) })
    | _ => none
  | .findActive now =>
    match c.pc with
    | .findActive ask =>
      if now ≤ s.clock then
        match s.table.findActiveByRequestHash ask.requestHash now with
        | some row =>
          some (.none, { c with pc := c.afterCheck ask row (row.status == .approved) })
        | none =>
          some (.none, { c with pc := .countByHash ask })
      else none
    | _ => none
  | .countByHash now =>
    match c.pc with
    | .countByHash ask =>
      if now ≤ s.clock then
        let since := now - approvalCreateRateLimitWindowMs
        if approvalCreateRateLimitPerHashCount ≤
            s.table.countRecentCreationsByRequestHash c.request.userId ask.requestHash since then
          some (.none, { c with pc := .done })
        else some (.none, { c with pc := .countByTool ask since })
      else none
    | _ => none
  | .countByTool now redactedArgs =>
    match c.pc with
    | .countByTool ask since =>
      if now ≤ s.clock then
        if approvalCreateRateLimitCount ≤
            s.table.countRecentCreationsByTool c.request.userId (some ask.route.serverId)
              ask.route.toolName since then
          some (.none, { c with pc := .done })
        else
          some (.approval (.createOrGetPending (c.createParams ask now redactedArgs)),
            { c with pc := .create ask s.creates.length })
      else none
    | _ => none
  | .created =>
    match c.pc with
    | .create ask k => do
      let cc ← s.creates[k]?
      match cc.pc with
      | .done (.returned created row) =>
        return (.none, { c with
          pc := c.afterCheck ask row (!created && row.status == .approved) })
      | .done (.threw _) => return (.none, { c with pc := .done })
      | _ => none
    | _ => none
  | .poll =>
    match c.pc with
    | .wait ask id => do
      let pc ← afterPoll ask id (s.table.findById id)
      return (.none, { c with pc := pc })
    | _ => none
  | .stopWaiting =>
    match c.pc with
    | .wait _ _ => some (.none, { c with pc := .done })
    | _ => none
  | .claim =>
    match c.pc with
    | .claim ask id =>
      match (s.table.claimApprovedForExecutionById id s.clock).2 with
      | row :: _ =>
        some (.approval (.claimApprovedForExecutionById id),
          { c with pc := .forward ⟨ask.route, ask.result, some row.id⟩ })
      | [] =>
        some (.approval (.claimApprovedForExecutionById id), { c with pc := .done })
    | _ => none
  | .send =>
    match c.pc with
    | .forward f => some (.none, { c with pc := .inFlight f })
    | _ => none
  | .serveCached result isError =>
    match c.pc with
    | .forward f =>
      if f.result.decision = .allow then
        some (.none, { c with pc := .respond f result isError })
      else none
    | _ => none
  | .cannotSend error =>
    match c.request.generation, c.pc with
    | .modern, .forward f => some (.none, { c with pc := c.afterError f error })
    | _, _ => none
  | .touch => do
    let id ← c.heartbeat
    return (.approval (.touchExecuting id), c)
  | .respond result isError =>
    match c.pc with
    | .inFlight f => some (.none, { c with pc := .respond f result isError })
    | _ => none
  | .reject error =>
    match c.pc with
    | .inFlight f => some (.none, { c with pc := c.afterError f error })
    | _ => none
  | .logged error =>
    match c.pc with
    | .respond f result isError =>
      match error with
      | none => some (.none, { c with pc := .settle f result isError })
      | some error => some (.none, { c with pc := c.afterError f error })
    | _ => none
  | .settle ok stored now =>
    match c.pc with
    | .settle f _ isError =>
      match f.approvalRequestId, ok with
      | some id, true =>
        some (.approval (c.settleAction id isError stored now), { c with pc := .done })
      | _, _ => some (.none, { c with pc := .done })
    | _ => none
  | .recordTimeout isReconnected =>
    match c.pc with
    | .recover f error => some (.none, { c with pc := .logError f error isReconnected })
    | _ => none
  | .recordTimeoutThrows =>
    match c.pc with
    | .recover _ _ => some (.none, { c with pc := .done })
    | _ => none
  | .errorLogged ok =>
    match c.pc with
    | .logError f error isReconnected =>
      match c.request.generation, ok with
      | .legacy, true => some (.none, { c with pc := .markFailed f error isReconnected })
      | .legacy, false | .modern, _ => some (.none, { c with pc := .done })
    | _ => none
  | .markFailed ok now =>
    match c.pc with
    | .markFailed f error isReconnected =>
      let next := match c.request.generation with
        | .legacy => c.afterFailure isReconnected
        | .modern => { c with pc := .logError f error isReconnected }
      match f.approvalRequestId, ok with
      | some id, true => some (.approval (.markFailed id error now), next)
      | _, _ => some (.none, next)
    | _ => none

end ToolCall

/-! ## The gateway -/

/-- The approval system, the policy system and the calls made so far. -/
structure Gateway where
  approvals : ApprovalState
  policy : PolicyState
  calls : List ToolCall

/-- The steps of the gateway: decisions, time, the expiry sweeper and calls of
    `createOrGetPending` in progress (`approval`), the stale-executing sweeper,
    evaluations and administrators' writes (`policy`), and tool calls. -/
inductive GatewayAction where
  | approval (a : ApprovalAction)
  | recoverStaleExecuting (now : Timestamp)
  | policy (a : PolicyAction)
  | start (request : ToolCallRequest)
  | call (i : Nat) (a : CallAction)

/-- The actions of the approval system that no tool call executes itself. -/
def ApprovalAction.isBackground : ApprovalAction → Bool
  | .tick _ | .createInsert .. | .createFind _ | .createExpire _ | .decide .. | .expireStale =>
    true
  | .createOrGetPending _ | .claimApprovedForExecution _ | .claimApprovedForExecutionById _
  | .touchExecuting _ | .markExecuted .. | .markFailed .. | .recoverStaleExecuting _
  | .forceExpire _ => false

namespace Gateway

/-- No approvals, no policies, no calls. -/
def init (clock : Timestamp) : Gateway := ⟨.init clock, .init, []⟩

/-- Carry out the effect of a call. -/
def apply (g : Gateway) : CallEffect → Option Gateway
  | .none => some g
  | .approval a => do
    let s ← g.approvals.step a
    return { g with approvals := s }
  | .policy a => do
    let p ← g.policy.step g.approvals.clock a
    return { g with policy := p }

/-- One step; `none` when the action is not enabled. -/
def step (rt : DslRuntime) (sha256 : String → String) (g : Gateway) :
    GatewayAction → Option Gateway
  | .approval a => if a.isBackground then g.apply (.approval a) else none
  | .recoverStaleExecuting now =>
    if now ≤ g.approvals.clock then
      g.apply (.approval (.recoverStaleExecuting (now - executingStaleTimeoutMs)))
    else none
  | .policy a => g.apply (.policy a)
  | .start request => some { g with calls := g.calls ++ [⟨request, 0, .resolve⟩] }
  | .call i a => do
    let c ← g.calls[i]?
    let (effect, c') ← c.step rt sha256 g.approvals g.policy a
    let g' ← g.apply effect
    return { g' with calls := g'.calls.set i c' }

end Gateway

end PetaCore
