import PetaCore.ForStd.Json
import PetaCore.Core.Types

/-!
# PolicyDslEvaluator

Evaluation of one policy set: rules in priority order, the first one that matches wins.
What a glob matches and when a condition holds rests on JavaScript's `RegExp`, `URL` and
number conversions; these two leaf operations are a parameter, `DslRuntime`.
-/

namespace PetaCore

/-- The types an extractor can coerce to. -/
inductive ExtractType where
  | string
  | number
  | boolean
  | urlHost
  | bytesLength
deriving DecidableEq

/-- An entry of `extract`. -/
structure Extractor where
  path : String
  type : ExtractType

/-- The operators of a condition. -/
inductive ConditionOp where
  | eq
  | neq
  | gt
  | gte
  | lt
  | lte
  | in
  | notIn
  | matches
deriving DecidableEq

/-- An entry of `when`. -/
structure Condition where
  left : String
  op : ConditionOp
  right : Json

/-- `match` of a rule -/
structure RuleMatch where
  tool : Option String
  serverId : Option String

/-- `effect` of a rule -/
structure RuleEffect where
  decision : PolicyDecision
  reason : Option String

/-- `PolicyRule` -/
structure PolicyRule where
  id : String
  priority : Option JsNumber
  «match» : RuleMatch
  extract : List (String × Extractor)
  when : List Condition
  effect : RuleEffect

/-- `PolicyDsl` -/
structure PolicyDsl where
  rules : List PolicyRule

/-- `PolicyEvaluationContext` -/
structure PolicyEvaluationContext where
  serverId : Option String
  toolName : String
  args : Json

/-- `PolicyEvaluationResult` of a rule that matched; `none` is the result whose
    `matchedRuleId` is null. -/
structure PolicyEvaluationResult where
  decision : PolicyDecision
  matchedRuleId : String
  reason : Option String
deriving DecidableEq

/-- The leaf operations of the evaluator: `matchGlob`, and whether a condition holds once
    its operands are resolved against the arguments and the extracted variables. -/
structure DslRuntime where
  matchGlob : String → String → Bool
  conditionHolds : List (String × Extractor) → Json → Condition → Bool

namespace PolicyRule

/-- The default priority. -/
def defaultPriority : JsNumber := JsNumber.ofNat 1000

/-- Whether a rule is not after another one by priority. -/
def priorityLe (r r' : PolicyRule) : Bool :=
  JsNumber.le (r.priority.getD defaultPriority) (r'.priority.getD defaultPriority)

/-- `matchesRule` -/
def matchesRule (rt : DslRuntime) (r : PolicyRule) (ctx : PolicyEvaluationContext) : Bool :=
  (match r.match.serverId with
    | none => true
    | some pattern =>
      match ctx.serverId with
      | none => false
      | some serverId => rt.matchGlob pattern serverId) &&
  (match r.match.tool with
    | none => true
    | some pattern => rt.matchGlob pattern ctx.toolName)

/-- Whether a rule matches the call and all its conditions hold. -/
def applies (rt : DslRuntime) (r : PolicyRule) (ctx : PolicyEvaluationContext) : Bool :=
  r.matchesRule rt ctx && r.when.all fun c => rt.conditionHolds r.extract ctx.args c

end PolicyRule

/-- `evaluate` of `PolicyDslEvaluator` -/
def PolicyDsl.evaluate (rt : DslRuntime) (dsl : PolicyDsl) (ctx : PolicyEvaluationContext) :
    Option PolicyEvaluationResult :=
  let sortedRules := dsl.rules.insertionSort fun r r' => r.priorityLe r' = true
  (sortedRules.find? fun r => r.applies rt ctx).map fun r =>
    { decision := r.effect.decision, matchedRuleId := r.id, reason := r.effect.reason }

end PetaCore
