import PetaCore.Core.PolicyDsl

/-!
# Policy sets: PolicyRepository, PolicyEngine and PolicyHandler

The table `tool_policy_set`, the evaluation of a tool call against it through the
engine's cache, and the administrators' writes. Each SQL statement is one step;
evaluations and writes in progress are part of the state, so that other statements can
fall between any two of theirs.
-/

namespace PetaCore

/-! ## The table -/

/-- `status` of a policy set. The column is free text, of which only `active` counts. -/
inductive PolicySetStatus where
  | active
  | archived
deriving DecidableEq

/-- A row of `tool_policy_set`. -/
structure ToolPolicySet where
  id : String
  serverId : Option String
  version : Nat
  status : PolicySetStatus
  dsl : PolicyDsl

abbrev PolicyTable := List ToolPolicySet

/-- How a write to the table ends. -/
inductive PolicyWriteResult where
  | written (t : PolicyTable)
  | uniqueConstraint
  | notFound

namespace PolicyTable

/-- The highest version of a scope, 0 when it has none. -/
def latestVersion (serverId : Option String) (t : PolicyTable) : Nat :=
  (t.filter fun p => p.serverId == serverId).foldr (fun p m => max p.version m) 0

/-- `nextVersion` of `create` and `update` -/
def nextVersion (serverId : Option String) (t : PolicyTable) : Nat :=
  t.latestVersion serverId + 1

/-- `findById` -/
def findById (id : String) (t : PolicyTable) : Option ToolPolicySet :=
  t.find? fun p => p.id == id

/-- Whether a row other than `id` holds this version in this scope, which the two partial
    unique indexes forbid. -/
def versionTaken (id : String) (serverId : Option String) (version : Nat) (t : PolicyTable) :
    Bool :=
  t.any fun p => p.id != id && p.serverId == serverId && p.version == version

/-- The `create` statement. -/
def create (id : String) (serverId : Option String) (version : Nat) (dsl : PolicyDsl)
    (t : PolicyTable) : PolicyWriteResult :=
  if (t.findById id).isSome || t.versionTaken id serverId version then .uniqueConstraint
  else .written (t ++ [⟨id, serverId, version, .active, dsl⟩])

/-- The `update` statement that sets `dsl` and `version`, and `status` when given. -/
def update (id : String) (version : Nat) (dsl : PolicyDsl) (status : Option PolicySetStatus)
    (t : PolicyTable) : PolicyWriteResult :=
  match t.findById id with
  | none => .notFound
  | some p =>
    if t.versionTaken id p.serverId version then .uniqueConstraint
    else .written (t.map fun q =>
      if q.id == id then
        { q with version := version, dsl := dsl, status := status.getD q.status }
      else q)

/-- The `update` statement without `dsl`. -/
def updateStatus (id : String) (status : Option PolicySetStatus) (t : PolicyTable) :
    PolicyWriteResult :=
  match t.findById id with
  | none => .notFound
  | some _ =>
    .written (t.map fun q => if q.id == id then { q with status := status.getD q.status } else q)

/-- `delete` -/
def delete (id : String) (t : PolicyTable) : PolicyWriteResult :=
  match t.findById id with
  | none => .notFound
  | some _ => .written (t.filter fun q => q.id != id)

/-- `archiveByServerId` -/
def archiveByServerId (serverId : Option String) (t : PolicyTable) : PolicyTable :=
  t.map fun q =>
    if q.serverId == serverId && q.status == .active then { q with status := .archived } else q

/-- The active sets of a scope, latest version first. -/
def activeSets (serverId : Option String) (t : PolicyTable) : List ToolPolicySet :=
  (t.filter fun p => p.serverId == serverId && p.status == .active).insertionSort
    fun p q => q.version ≤ p.version

/-- `getEffectivePolicy`, when nothing is written between its two reads. -/
def getEffectivePolicy (serverId : Option String) (t : PolicyTable) : List ToolPolicySet :=
  (match serverId with | none => [] | some _ => t.activeSets serverId) ++ t.activeSets none

end PolicyTable

/-! ## Evaluation -/

/-- `PolicyEvaluateParams` -/
structure PolicyEvaluateParams where
  userId : String
  serverId : Option String
  toolName : String
  args : Json
  dangerLevel : DangerLevel

/-- `PolicyEvaluateResult` -/
structure PolicyEvaluateResult where
  decision : PolicyDecision
  policyVersion : Nat
  matchedRuleId : Option String
  reason : Option String
deriving DecidableEq

/-- `fallbackToDangerLevel` -/
def fallbackToDangerLevel (dangerLevel : DangerLevel) : PolicyEvaluateResult where
  decision :=
    match dangerLevel with
    | .approval => .requireApproval
    | .notification | .silent => .allow
  policyVersion := 0
  matchedRuleId := none
  reason := none

/-- The first policy set with a matching rule, and what that rule says. -/
def matchingSet (rt : DslRuntime) (policies : List ToolPolicySet)
    (params : PolicyEvaluateParams) : Option (ToolPolicySet × PolicyEvaluationResult) :=
  policies.findSome? fun p =>
    (p.dsl.evaluate rt ⟨params.serverId, params.toolName, params.args⟩).map fun r => (p, r)

/-- `evaluate` of `PolicyEngine`, once it has the policy sets in hand. -/
def evaluatePolicies (rt : DslRuntime) (policies : List ToolPolicySet)
    (params : PolicyEvaluateParams) : PolicyEvaluateResult :=
  match matchingSet rt policies params with
  | some (p, r) =>
    { decision := r.decision, policyVersion := p.version, matchedRuleId := some r.matchedRuleId,
      reason := r.reason }
  | none => fallbackToDangerLevel params.dangerLevel

/-- `CACHE_TTL_MS` -/
def cacheTtlMs : Int := 30000

/-- The key of the engine's cache. -/
def cacheKey (serverId : Option String) : String := serverId.getD "__global__"

/-- An entry of the engine's cache. -/
structure PolicyCacheEntry where
  policies : List ToolPolicySet
  fetchedAt : Timestamp

/-- Where a call of `evaluate` stands. `fetch` holds the time at which it looked into the
    cache and the results of the two reads of `getEffectivePolicy` so far. -/
inductive EvaluationPc where
  | fetch (now : Timestamp) (server «global» : Option (List ToolPolicySet))
  | done (policies : List ToolPolicySet)

/-- A call of `evaluate`. -/
structure Evaluation where
  params : PolicyEvaluateParams
  pc : EvaluationPc

namespace Evaluation

/-- The value `evaluate` returns. -/
def result (rt : DslRuntime) (e : Evaluation) : Option PolicyEvaluateResult :=
  match e.pc with
  | .fetch .. => none
  | .done policies => some (evaluatePolicies rt policies e.params)

/-- The policy set whose rule decided; `none` when the danger level did. -/
def source (rt : DslRuntime) (e : Evaluation) : Option ToolPolicySet :=
  match e.pc with
  | .fetch .. => none
  | .done policies => (matchingSet rt policies e.params).map (·.1)

end Evaluation

/-! ## Writes -/

/-- An administrator's write. The scope of an existing set is read before. -/
inductive PolicyWriteOp where
  | create (serverId : Option String) (dsl : PolicyDsl)
  | update (id : String) (serverId : Option String) (dsl : PolicyDsl)
      (status : Option PolicySetStatus)
  | updateStatus (id : String) (serverId : Option String) (status : Option PolicySetStatus)
  | delete (id : String) (serverId : Option String)

namespace PolicyWriteOp

/-- The scope whose cache entries the handler drops. -/
def scope : PolicyWriteOp → Option String
  | create serverId _ => serverId
  | update _ serverId _ _ => serverId
  | updateStatus _ serverId _ => serverId
  | delete _ serverId => serverId

end PolicyWriteOp

/-- The next step of a write; `version` is the number read by the last `findFirst`. -/
inductive PolicyWritePc where
  | readLatest
  | write (version : Nat)
  | clearCache
  | done
  | threw

/-- A write in progress. -/
structure PolicyWrite where
  op : PolicyWriteOp
  attempt : Nat
  pc : PolicyWritePc

namespace PolicyWrite

/-- A write that has executed no statement yet; only those with a new `dsl` need a version. -/
def start (op : PolicyWriteOp) : PolicyWrite :=
  match op with
  | .create .. | .update .. => ⟨op, 0, .readLatest⟩
  | .updateStatus .. | .delete .. => ⟨op, 0, .write 0⟩

/-- The writing statement; `newId` is the id drawn for a new row. -/
def statement (w : PolicyWrite) (version : Nat) (newId : String) (t : PolicyTable) :
    PolicyWriteResult :=
  match w.op with
  | .create serverId dsl => t.create newId serverId version dsl
  | .update id _ dsl status => t.update id version dsl status
  | .updateStatus id _ status => t.updateStatus id status
  | .delete id _ => t.delete id

/-- The write after its statement: on to the cache, another attempt, or an error. -/
def afterStatement (w : PolicyWrite) : PolicyWriteResult → PolicyWrite
  | .written _ => { w with pc := .clearCache }
  | .uniqueConstraint =>
    if w.attempt < 2 then { w with attempt := w.attempt + 1, pc := .readLatest }
    else { w with pc := .threw }
  | .notFound => { w with pc := .threw }

end PolicyWrite

/-! ## The system -/

/-- The table, the engine's cache, and the evaluations and writes made so far. -/
structure PolicyState where
  sets : PolicyTable
  cache : String → Option PolicyCacheEntry
  evaluations : List Evaluation
  writes : List PolicyWrite

/-- The steps of the system. `e` and `w` are positions of an evaluation and of a write. -/
inductive PolicyAction where
  | evaluate (params : PolicyEvaluateParams)
  | readServer (e : Nat)
  | readGlobal (e : Nat)
  | store (e : Nat)
  | create (serverId : Option String) (dsl : PolicyDsl)
  | update (id : String) (dsl : Option PolicyDsl) (status : Option PolicySetStatus)
  | delete (id : String)
  | readLatest (w : Nat)
  | write (w : Nat) (newId : String)
  | clearCache (w : Nat)
  | archiveByServerId (serverId : Option String)

namespace PolicyState

/-- No policy sets. -/
def init : PolicyState := ⟨[], fun _ => none, [], []⟩

/-- `clearCache` -/
def clearCache (serverId : Option String) (cache : String → Option PolicyCacheEntry) :
    String → Option PolicyCacheEntry :=
  match serverId with
  | some id => fun k => if k == id || k == "__global__" then none else cache k
  | none => fun _ => none

/-- A call of `evaluate` as it is after its look into the cache. -/
def startEvaluation (s : PolicyState) (clock : Timestamp) (params : PolicyEvaluateParams) :
    Evaluation :=
  let miss : Evaluation :=
    ⟨params, .fetch clock (match params.serverId with | none => some [] | some _ => none) none⟩
  match s.cache (cacheKey params.serverId) with
  | none => miss
  | some entry =>
    if clock - entry.fetchedAt < cacheTtlMs then ⟨params, .done entry.policies⟩ else miss

/-- One step at `clock`; `none` when the action is not enabled. -/
def step (clock : Timestamp) (s : PolicyState) : PolicyAction → Option PolicyState
  | .evaluate params =>
    some { s with evaluations := s.evaluations ++ [s.startEvaluation clock params] }
  | .readServer e => do
    let ev ← s.evaluations[e]?
    match ev.pc with
    | .fetch now none g =>
      let rows := s.sets.activeSets ev.params.serverId
      return { s with
        evaluations := s.evaluations.set e { ev with pc := .fetch now (some rows) g } }
    | _ => none
  | .readGlobal e => do
    let ev ← s.evaluations[e]?
    match ev.pc with
    | .fetch now server none =>
      let rows := s.sets.activeSets none
      return { s with
        evaluations := s.evaluations.set e { ev with pc := .fetch now server (some rows) } }
    | _ => none
  | .store e => do
    let ev ← s.evaluations[e]?
    match ev.pc with
    | .fetch now (some server) (some g) =>
      let key := cacheKey ev.params.serverId
      return { s with
        cache := fun k => if k == key then some ⟨server ++ g, now⟩ else s.cache k
        evaluations := s.evaluations.set e { ev with pc := .done (server ++ g) } }
    | _ => none
  | .create serverId dsl =>
    some { s with writes := s.writes ++ [PolicyWrite.start (.create serverId dsl)] }
  | .update id dsl status => do
    let p ← s.sets.findById id
    let op := match dsl with
      | some dsl => PolicyWriteOp.update id p.serverId dsl status
      | none => PolicyWriteOp.updateStatus id p.serverId status
    return { s with writes := s.writes ++ [PolicyWrite.start op] }
  | .delete id =>
    let serverId := (s.sets.findById id).bind (·.serverId)
    some { s with writes := s.writes ++ [PolicyWrite.start (.delete id serverId)] }
  | .readLatest w => do
    let wr ← s.writes[w]?
    match wr.pc with
    | .readLatest =>
      return { s with
        writes := s.writes.set w { wr with pc := .write (s.sets.nextVersion wr.op.scope) } }
    | _ => none
  | .write w newId => do
    let wr ← s.writes[w]?
    match wr.pc with
    | .write version =>
      let res := wr.statement version newId s.sets
      return { s with
        sets := match res with | .written t => t | _ => s.sets
        writes := s.writes.set w (wr.afterStatement res) }
    | _ => none
  | .clearCache w => do
    let wr ← s.writes[w]?
    match wr.pc with
    | .clearCache =>
      return { s with
        cache := clearCache wr.op.scope s.cache
        writes := s.writes.set w { wr with pc := .done } }
    | _ => none
  | .archiveByServerId serverId => some { s with sets := s.sets.archiveByServerId serverId }

end PolicyState

/-! ## One process -/

/-- The policy system of one gateway process, with its clock. -/
structure PolicyProcess where
  clock : Timestamp
  policy : PolicyState

namespace PolicyProcess

def init (clock : Timestamp) : PolicyProcess := ⟨clock, .init⟩

/-- One step at the given time, which is not before the last one. -/
def step (s : PolicyProcess) (a : Timestamp × PolicyAction) : Option PolicyProcess :=
  if s.clock ≤ a.1 then do
    let p ← s.policy.step a.1 a.2
    return ⟨a.1, p⟩
  else none

end PolicyProcess

end PetaCore
