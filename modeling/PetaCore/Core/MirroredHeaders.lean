import PetaCore.Core.HeaderAnnotations
import PetaCore.ForStd.Base64
import PetaCore.ForStd.Dict
import PetaCore.ForStd.Utf8

/-!
# Mirrored headers

The gateway as client puts the annotated arguments of a call into headers (`toolHeaderValues`), and
as server compares the headers of a call with its arguments (`validateToolHeaderAnnotations`).

Both sides read an argument with `args[segment]`, which finds what objects inherit from
`Object.prototype` too: its methods, and the accessor `__proto__`.
-/

namespace PetaCore

/-! ## Reading arguments -/

/-- What reading a property may give. -/
inductive JsValue where
  | undefined
  | json (value : Json)
  | method
  | objectPrototype

/-- The methods of `Object.prototype`. -/
def objectMethods : List String :=
  ["constructor", "__defineGetter__", "__defineSetter__", "hasOwnProperty", "__lookupGetter__",
    "__lookupSetter__", "isPrototypeOf", "propertyIsEnumerable", "toString", "valueOf",
    "toLocaleString"]

namespace JsValue

/-- `isJsonObject`; a method is no object here, as its `typeof` is `function`. -/
def isJsonObject : JsValue → Bool
  | .json value => PetaCore.isJsonObject value
  | .objectPrototype => true
  | _ => false

/-- `value[key]` for an object `value`. The prototype of `Object.prototype` is `null`. -/
def get : JsValue → String → JsValue
  | .json (.obj members), key =>
    match members.lookup key with
    | some value => .json value
    | none =>
      if key = "__proto__" then .objectPrototype
      else if objectMethods.contains key then .method
      else .undefined
  | .objectPrototype, key =>
    if key = "__proto__" then .json .null
    else if objectMethods.contains key then .method
    else .undefined
  | _, _ => .undefined

/-- `value === undefined || value === null` -/
def isMissing : JsValue → Bool
  | .undefined => true
  | .json .null => true
  | _ => false

/-- `String(value)` of a string, a boolean or an integer, the values that are mirrored. -/
def mirrorText? : JsValue → Option String
  | .json (.str s) => some s
  | .json (.bool b) => some (if b then "true" else "false")
  | .json (.num n) => if 0 ≤ n.exponent then some (String.ofList n.toChars) else none
  | _ => none

end JsValue

/-! ## Header values -/

/-- What stands between `=?base64?` and `?=`, if a text starts and ends with these. -/
def framedText? (value : List Char) : Option (List Char) :=
  (value.dropPrefix? "=?base64?".toList).bind (·.dropSuffix? "?=".toList)

namespace ModernHttpDownstreamCodec

/-- A character of `[\x20-\x7e]`. -/
def isPrintable (c : Char) : Bool := 0x20 ≤ c.toNat && c.toNat ≤ 0x7e

/-- `value.trim() === value`, for a printable text. -/
def isTrimmed (value : List Char) : Bool :=
  value.head? != some ' ' && value.getLast? != some ' '

/-- `encodeHeaderValue` -/
def encodeHeaderValue (value : String) : String :=
  let cs := value.toList
  let plainAscii := !cs.isEmpty && cs.all isPrintable && isTrimmed cs
  if plainAscii && (framedText? cs).isNone then value
  else String.ofList ("=?base64?".toList ++ Base64.encode (Utf8.encode cs) ++ "?=".toList)

/-- One segment of a path in `toolHeaderValues`. -/
def readSegment (value : JsValue) (segment : String) : JsValue :=
  if value.isJsonObject then value.get segment else .undefined

/-- `toolHeaderValues` -/
def toolHeaderValues (schema : Option Json) (args : Json) : Dict String :=
  ((schema.bind schemaAnnotations).getD []).foldl (fun headers ann =>
    match (ann.path.foldl readSegment (.json args)).mirrorText? with
    | some text => headers.set ann.headerName (encodeHeaderValue text)
    | none => headers) Dict.empty

end ModernHttpDownstreamCodec

namespace ModernMcpController

/-- `([A-Za-z0-9+/]*={0,2})` -/
def isBase64Text (text : List Char) : Bool :=
  [[], ['='], ['=', '=']].contains (text.dropWhile Base64.isDigit)

/-- `/=[^=]/` -/
def hasInnerPad (text : List Char) : Bool :=
  (text.zip text.tail).any fun p => p.1 == '=' && p.2 != '='

/-- `decodeHeaderMirrorValue` -/
def decodeHeaderMirrorValue (value : String) : Except ModernMcpError String :=
  match (framedText? value.toList).filter isBase64Text with
  | none => .ok value
  | some text =>
    if text.length = 0 || text.length % 4 ≠ 0 || hasInnerPad text then
      .error ⟨400, ModernErrorCodes.headerMismatch, "Invalid base64 Mcp-Param header value"⟩
    else .ok (String.ofList (Utf8.decode (Base64.decode text)))

/-- `getArgumentAtPath` -/
def getArgumentAtPath : JsValue → List String → JsValue
  | current, [] => current
  | current, segment :: path =>
    if !current.isJsonObject then .undefined
    else getArgumentAtPath (current.get segment) path

/-- The headers of a request as the platform hands them over, with their names in lower case. -/
def receivedHeaders (headers : Dict String) : Dict String :=
  Dict.ofList (headers.entries.map fun h => (lowerCase h.1, h.2))

/-- `getHeader` -/
def getHeader (headers : Dict String) (name : String) : Option String :=
  headers.get? (lowerCase name)

/-- The loop body of `validateToolHeaderAnnotations`. -/
def validateAnnotation (headers : Dict String) (args : Json) (ann : HeaderAnnotation) :
    Except ModernMcpError Unit :=
  let headerName := ann.headerName
  let propertyName := ".".intercalate ann.path
  let argumentValue := getArgumentAtPath (.json args) ann.path
  let mirroredHeaderValue := getHeader headers (lowerCase headerName)
  let mismatch : ModernMcpError := ⟨400, ModernErrorCodes.headerMismatch,
    headerName ++ " does not match tool argument " ++ propertyName⟩
  if argumentValue.isMissing then
    if mirroredHeaderValue.isSome then
      .error ⟨400, ModernErrorCodes.headerMismatch,
        headerName ++ " must be omitted when tool argument " ++ propertyName ++
          " is null or missing"⟩
    else .ok ()
  else
    match argumentValue.mirrorText? with
    | none =>
      .error ⟨400, ModernErrorCodes.invalidParams,
        "x-mcp-header argument " ++ propertyName ++ " must be a string, integer, or boolean"⟩
    | some text =>
      match mirroredHeaderValue with
      | none => .error mismatch
      | some value => do
        let decoded ← decodeHeaderMirrorValue value
        if decoded = text then .ok () else .error mismatch

/-- The loop of `validateToolHeaderAnnotations`. -/
def validateAnnotations (headers : Dict String) (args : Json) :
    List HeaderAnnotation → Except ModernMcpError Unit
  | [] => .ok ()
  | ann :: annotations => do
    validateAnnotation headers args ann
    validateAnnotations headers args annotations

/-- `validateToolHeaderAnnotations` -/
def validateToolHeaderAnnotations (headers : Dict String) (tool : Tool) (args : Json) :
    Except ModernMcpError Unit :=
  if !isJsonObject tool.inputSchema then .ok ()
  else do
    let annotations ← toolAnnotations tool.name tool.inputSchema
    validateAnnotations headers args annotations

end ModernMcpController

end PetaCore
