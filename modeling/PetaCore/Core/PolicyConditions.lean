import PetaCore.Core.ExecutionResult
import PetaCore.Core.PolicyGlob
import PetaCore.ForStd.Utf8

/-!
# The conditions of a policy rule

Extraction of variables, the scope of a condition, and what its operators compare. Paths are walked
with `in`, which also finds what JavaScript objects and arrays inherit. Conversions to strings and
numbers, `URL` and `RegExp` belong to the language and are a parameter; where an evaluation throws
there is `none`.
-/

namespace PetaCore

/-! ## JavaScript values -/

/-- A number, `NaN` and the infinities included. -/
inductive JsNumeric where
  | nan
  | finite (n : JsNumber)
  | infinite (negative : Bool)
deriving DecidableEq

/-- `a < b` -/
def JsNumeric.lt : JsNumeric → JsNumeric → Bool
  | .finite a, .finite b => !JsNumber.le b a
  | .finite _, .infinite negative => !negative
  | .infinite negative, .finite _ => negative
  | .infinite negative, .infinite negative' => negative && !negative'
  | _, _ => false

/-- `a <= b` -/
def JsNumeric.le : JsNumeric → JsNumeric → Bool
  | .nan, _ | _, .nan => false
  | a, b => !b.lt a

/-- A value that is no object. -/
inductive JsPrimitive where
  | null
  | bool (b : Bool)
  | number (n : JsNumeric)
  | string (s : String)
deriving DecidableEq

/-- Where an object was made: the path to it within the arguments or within an operand of the
rule. This is its identity. -/
inductive ObjectPlace where
  | args (path : List String)
  | rule (path : List String)
deriving DecidableEq

/-- The place of a member. -/
def ObjectPlace.member (segment : String) : ObjectPlace → ObjectPlace
  | .args path => .args (path ++ [segment])
  | .rule path => .rule (path ++ [segment])

/-- The values that occur in a condition: `scope` is `conditionScope`, and the prototypes and their
functions are what objects and arrays inherit. -/
inductive PolicyValue where
  | undefined
  | primitive (p : JsPrimitive)
  | object (place : ObjectPlace) (members : List (String × Json))
  | array (place : ObjectPlace) (items : List Json)
  | scope (args : Json) (vars : List (String × JsPrimitive))
  | objectPrototype
  | arrayPrototype
  | function (name : String)

namespace PolicyValue

/-- The value of parsed JSON. -/
def ofJson (place : ObjectPlace) : Json → PolicyValue
  | .null => primitive .null
  | .bool b => primitive (.bool b)
  | .num n => primitive (.number (.finite n))
  | .str s => primitive (.string s)
  | .arr items => array place items
  | .obj members => object place members

/-- The functions of `Object.prototype`. -/
def objectFunctions : List String :=
  ["__defineGetter__", "__defineSetter__", "hasOwnProperty", "__lookupGetter__",
    "__lookupSetter__", "isPrototypeOf", "propertyIsEnumerable", "toString", "valueOf",
    "toLocaleString"]

/-- The functions of `Array.prototype`. -/
def arrayFunctions : List String :=
  ["at", "concat", "copyWithin", "fill", "find", "findIndex", "findLast", "findLastIndex",
    "lastIndexOf", "pop", "push", "reverse", "shift", "unshift", "slice", "sort", "splice",
    "includes", "indexOf", "join", "keys", "entries", "values", "forEach", "filter", "flat",
    "flatMap", "map", "every", "some", "reduce", "reduceRight", "toReversed", "toSorted",
    "toSpliced", "toLocaleString", "toString", "with"]

/-- What an object inherits; `prototype` is its prototype. -/
def objectProperty? (prototype : PolicyValue) (segment : String) : Option PolicyValue :=
  if segment = "__proto__" then some prototype
  else if segment = "constructor" then some (function "Object")
  else if objectFunctions.contains segment then some (function segment)
  else none

/-- What an array inherits. -/
def arrayProperty? (prototype : PolicyValue) (segment : String) : Option PolicyValue :=
  if segment = "constructor" then some (function "Array")
  else if arrayFunctions.contains segment then some (function ("Array." ++ segment))
  else objectProperty? prototype segment

/-- An item of an array, when the segment is its index. -/
def item? (items : List Json) (segment : String) : Option (Nat × Json) :=
  ((List.range items.length).find? fun i => toString i == segment).bind fun i =>
    items[i]?.map fun item => (i, item)

/-- `current[segment]` when `current` is an object in which `segment in current`. -/
def property? (current : PolicyValue) (segment : String) : Option PolicyValue :=
  match current with
  | object place members =>
    match members.lookup segment with
    | some value => some (ofJson (place.member segment) value)
    | none => objectProperty? objectPrototype segment
  | array place items =>
    match item? items segment with
    | some (_, item) => some (ofJson (place.member segment) item)
    | none =>
      if segment = "length" then some (primitive (.number (.finite (.ofNat items.length))))
      else arrayProperty? arrayPrototype segment
  | scope args vars =>
    if segment = "args" then some (ofJson (.args []) args)
    else match vars.lookup segment with
      | some value => some (primitive value)
      | none =>
        match args with
        | .obj members =>
          match members.lookup segment with
          | some value => some (ofJson (.args [segment]) value)
          | none => objectProperty? objectPrototype segment
        | _ => objectProperty? objectPrototype segment
  | objectPrototype => objectProperty? (primitive .null) segment
  | arrayPrototype =>
    if segment = "length" then some (primitive (.number (.finite (.ofNat 0))))
    else arrayProperty? objectPrototype segment
  | undefined | primitive _ | function _ => none

/-- The segments of a path. -/
def segments (path : String) : List String := (path.toList.splitOn '.').map String.ofList

/-- Walk a path. -/
def walk (obj : PolicyValue) (path : List String) : PolicyValue :=
  path.foldl (fun current segment => (current.property? segment).getD undefined) obj

/-- `extractByPath` -/
def extractByPath (obj : PolicyValue) (path : String) : PolicyValue :=
  if path = "" then obj else obj.walk (segments path)

/-- The items of an array. -/
def items? : PolicyValue → Option (List PolicyValue)
  | array place items =>
    some (items.mapIdx fun i item => ofJson (place.member (toString i)) item)
  | arrayPrototype => some []
  | _ => none

/-- `===`; objects are equal when they are the same one. -/
def strictEquals : PolicyValue → PolicyValue → Bool
  | undefined, undefined => true
  | primitive p, primitive q => p == q && p != .number .nan
  | object place _, object place' _ => place == place'
  | array place _, array place' _ => place == place'
  | scope _ _, scope _ _ => true
  | objectPrototype, objectPrototype => true
  | arrayPrototype, arrayPrototype => true
  | function name, function name' => name == name'
  | _, _ => false

/-- The comparison of `includes`, by which `NaN` equals itself. -/
def sameValueZero (a b : PolicyValue) : Bool :=
  match a, b with
  | primitive p, primitive q => p == q
  | a, b => a.strictEquals b

end PolicyValue

/-- `String`, `Number`, `parseFloat`, `new URL(s).hostname` and `new RegExp(pattern).test(subject)`;
`none` when they throw. -/
structure JsRuntime where
  string : PolicyValue → Option String
  number : PolicyValue → Option JsNumeric
  parseFloat : String → JsNumeric
  hostname : String → Option String
  regExpTest : String → String → Option Bool

namespace JsRuntime

variable (js : JsRuntime)

/-- `Boolean(value)` -/
def truthy : PolicyValue → Bool
  | .undefined | .primitive .null | .primitive (.number .nan) => false
  | .primitive (.bool b) => b
  | .primitive (.number n) => n != .finite (.ofNat 0)
  | .primitive (.string s) => s != ""
  | _ => true

/-- The case `'boolean'` of `coerceType`. -/
def coerceBoolean : PolicyValue → Bool
  | .primitive (.bool b) => b
  | .primitive (.string s) =>
    if lowerCase s = "true" then true
    else if lowerCase s = "false" then false
    else truthy (.primitive (.string s))
  | .primitive (.number n) => n != .finite (.ofNat 0)
  | value => truthy value
where
  /-- `toLowerCase`, as far as it can give the letters of the two words. -/
  lowerCase (s : String) : String := String.ofList (s.toList.map Char.toLower)

/-- `coerceType`; the inner `none` is `undefined`. -/
def coerceType (value : PolicyValue) : ExtractType → Option (Option JsPrimitive)
  | .string => (js.string value).map fun s => some (.string s)
  | .number => (js.string value).map fun s =>
    let parsed := js.parseFloat s
    if parsed = .nan then none else some (.number parsed)
  | .boolean => some (some (.bool (coerceBoolean value)))
  | .urlHost =>
    -- the `catch` also takes what `String` throws
    some (((js.string value).bind js.hostname).map .string)
  | .bytesLength => (js.string value).map fun s =>
    some (.number (.finite (.ofNat (Utf8.encode s.toList).length)))

/-- What one extractor yields. -/
def extractValue (e : Extractor) (args : Json) : Option (Option JsPrimitive) :=
  match (PolicyValue.ofJson (.args []) args).extractByPath e.path with
  | .undefined => some none
  | rawValue => js.coerceType rawValue e.type

/-- `vars[name] = value`, the last value first. To give `__proto__` a value that is no object has no
effect. -/
def setVar (vars : List (String × JsPrimitive)) (name : String) (value : JsPrimitive) :
    List (String × JsPrimitive) :=
  if name = "__proto__" then vars else (name, value) :: vars

/-- The loop of `extractVariables`. -/
def extractFrom (args : Json) (vars : List (String × JsPrimitive)) :
    List (String × Extractor) → Option (List (String × JsPrimitive))
  | [] => some vars
  | (name, e) :: extractors => do
    match ← js.extractValue e args with
    | none => extractFrom args vars extractors
    | some value => extractFrom args (setVar vars name value) extractors

/-- `extractVariables` -/
def extractVariables (extractors : List (String × Extractor)) (args : Json) :
    Option (List (String × JsPrimitive)) :=
  js.extractFrom args [] extractors

/-- `resolveOperand` -/
def resolveOperand (operand : Json) (scope : PolicyValue) : PolicyValue :=
  match operand with
  | .str s =>
    match s.toList with
    | '$' :: path => scope.extractByPath (String.ofList path)
    | _ => .primitive (.string s)
  | operand => PolicyValue.ofJson (.rule []) operand

/-- `evaluateCondition` -/
def evaluateCondition (left : PolicyValue) (op : ConditionOp) (right : PolicyValue) : Option Bool :=
  match op with
  | .eq => some (left.strictEquals right)
  | .neq => some (!left.strictEquals right)
  | .gt => do
    let l ← js.number left
    let r ← js.number right
    return r.lt l
  | .gte => do
    let l ← js.number left
    let r ← js.number right
    return r.le l
  | .lt => do
    let l ← js.number left
    let r ← js.number right
    return l.lt r
  | .lte => do
    let l ← js.number left
    let r ← js.number right
    return l.le r
  | .in => some (match right.items? with
    | some items => items.any fun item => left.sameValueZero item
    | none => false)
  | .notIn => some (match right.items? with
    | some items => !items.any fun item => left.sameValueZero item
    | none => false)
  | .matches => do
    let pattern ← js.string right
    if 512 < (utf16 pattern).length then return false
    let subject ← js.string left
    if 4096 < (utf16 subject).length then return false
    -- an invalid pattern is caught
    return (js.regExpTest pattern subject).getD false

/-- A condition against the arguments and the extracted variables. -/
def testCondition (args : Json) (vars : List (String × JsPrimitive)) (c : Condition) :
    Option Bool :=
  js.evaluateCondition (resolveOperand (.str c.left) (.scope args vars)) c.op
    (resolveOperand c.right (.scope args vars))

/-- `every` over the conditions -/
def allConditionsPass (args : Json) (vars : List (String × JsPrimitive)) :
    List Condition → Option Bool
  | [] => some true
  | c :: cs => do
    if ← js.testCondition args vars c then allConditionsPass args vars cs else return false

/-- The leaf operations of the evaluator. -/
def dslRuntime : DslRuntime where
  matchGlob pattern value := matchGlob (utf16 pattern) (utf16 value) == some true
  conditionHolds extract args c :=
    ((js.extractVariables extract args).bind fun vars => js.testCondition args vars c) == some true

/-- The loop of `evaluate`; the inner `none` is the result whose `matchedRuleId` is null. -/
def evaluateRules (ctx : PolicyEvaluationContext) :
    List PolicyRule → Option (Option PolicyEvaluationResult)
  | [] => some none
  | rule :: rules =>
    if !rule.matchesRule js.dslRuntime ctx then evaluateRules ctx rules
    else do
      let extractedVars ← js.extractVariables rule.extract ctx.args
      if ← js.allConditionsPass ctx.args extractedVars rule.when then
        return some ⟨rule.effect.decision, rule.id, rule.effect.reason⟩
      else evaluateRules ctx rules

/-- `evaluate`, with what it throws -/
def evaluate (dsl : PolicyDsl) (ctx : PolicyEvaluationContext) :
    Option (Option PolicyEvaluationResult) :=
  js.evaluateRules ctx (dsl.rules.insertionSort fun r r' => r.priorityLe r' = true)

end JsRuntime

end PetaCore
