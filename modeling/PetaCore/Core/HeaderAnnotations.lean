import PetaCore.ForStd.Json

/-!
# Header annotations

A tool's input schema may mark an argument with `x-mcp-header`: its value is then also sent in a
header `Mcp-Param-…`. The gateway reads these annotations twice, in `ModernHttpDownstreamCodec`
when it calls a downstream server, and in `ModernMcpController` when a client calls it.

The schema is a tree, and both sides walk down its `properties`. The recursion goes over the
members of a schema to the one of that name, so that it is structural.
-/

namespace PetaCore

/-- `isJsonObject` -/
def isJsonObject : Json → Bool
  | .obj _ => true
  | _ => false

/-- A property of an object that JavaScript objects do not inherit; `none` is `undefined`. -/
def property? (key : String) : Json → Option Json
  | .obj members => members.lookup key
  | _ => none

/-- `HeaderAnnotation` -/
structure HeaderAnnotation where
  headerName : String
  path : List String
deriving DecidableEq

/-- A character of a token: a letter, a digit or one of a few marks. -/
def isTokenChar (c : Char) : Bool :=
  c.isAlphanum || "!#$%&'*+.^_`|~-".toList.contains c

/-- `Mcp-Param-${suffix}` -/
def paramHeader (suffix : String) : String := "Mcp-Param-" ++ suffix

/-- The regular expression of both sides: `Mcp-Param-`, then at least one character of a token. -/
def isParamHeader (headerName : String) : Bool :=
  match headerName.toList.dropPrefix? "Mcp-Param-".toList with
  | some suffix => !suffix.isEmpty && suffix.all isTokenChar
  | none => false

/-- `toLowerCase` of a header name that `isParamHeader` accepts, which is ASCII. -/
def lowerCase (headerName : String) : String :=
  String.ofList (headerName.toList.map Char.toLower)

/-- Whether a schema type is one of `string`, `integer` and `boolean`. -/
def isMirroredType : Option Json → Bool
  | some (.str type) => ["string", "integer", "boolean"].contains type
  | _ => false

/-! ## The client side -/

namespace ModernHttpDownstreamCodec

/-- The part of the loop body of `headerAnnotations` about the property itself: its annotation, if
    it has one, and the names seen by then. -/
def ownAnnotation (propertySchema : Json) (childPath seen : List String) :
    Option (List HeaderAnnotation × List String) :=
  match property? "x-mcp-header" propertySchema with
  | none => some ([], seen)
  | some suffix =>
    let headerName := match suffix with
      | .str suffix => paramHeader suffix
      | _ => ""
    let normalized := lowerCase headerName
    if !isMirroredType (property? "type" propertySchema) || !isParamHeader headerName ||
        seen.contains normalized then
      none
    else some ([⟨headerName, childPath⟩], seen ++ [normalized])

mutual

/-- `headerAnnotations`; it changes the set `seen`, which is returned with the result. -/
def headerAnnotations : Json → List String → List String →
    Option (List HeaderAnnotation × List String)
  | .obj members, path, seen => membersAnnotations members path seen
  | _, _, seen => some ([], seen)

/-- `headerAnnotations` on the members of the schema, which looks up `schema.properties`. -/
def membersAnnotations : List (String × Json) → List String → List String →
    Option (List HeaderAnnotation × List String)
  | [], _, seen => some ([], seen)
  | (key, value) :: members, path, seen =>
    if key = "properties" then propertiesAnnotations value path seen
    else membersAnnotations members path seen

/-- The loop of `headerAnnotations`, which runs if `schema.properties` is an object. -/
def propertiesAnnotations : Json → List String → List String →
    Option (List HeaderAnnotation × List String)
  | .obj properties, path, seen => entriesAnnotations properties path seen
  | _, _, seen => some ([], seen)

/-- The loop of `headerAnnotations` over `Object.entries(properties)`. -/
def entriesAnnotations : List (String × Json) → List String → List String →
    Option (List HeaderAnnotation × List String)
  | [], _, seen => some ([], seen)
  | (propertyName, propertySchema) :: entries, path, seen =>
    if !isJsonObject propertySchema then entriesAnnotations entries path seen
    else do
      let childPath := path ++ [propertyName]
      let (own, seen) ← ownAnnotation propertySchema childPath seen
      let (nested, seen) ← headerAnnotations propertySchema childPath seen
      let (rest, seen) ← entriesAnnotations entries path seen
      some (own ++ nested ++ rest, seen)

end

/-- `headerAnnotations(schema)`, with the defaults of the other two parameters. -/
def schemaAnnotations (schema : Json) : Option (List HeaderAnnotation) :=
  (headerAnnotations schema [] []).map (·.1)

end ModernHttpDownstreamCodec

/-! ## The server side -/

/-- `ModernMcpError` -/
structure ModernMcpError where
  httpStatus : Nat
  rpcCode : Int
  message : String
deriving DecidableEq

/-- `ModernErrorCodes.InvalidParams` -/
def ModernErrorCodes.invalidParams : Int := -32602

/-- `ModernErrorCodes.HeaderMismatch` -/
def ModernErrorCodes.headerMismatch : Int := -32020

namespace ModernMcpController

/-- The part of the loop body of `findHeaderAnnotations` about the property itself. -/
def findOwnAnnotation (propertySchema : Json) (childPath : List String) :
    Except ModernMcpError (List HeaderAnnotation) :=
  let propertyName := ".".intercalate childPath
  match property? "x-mcp-header" propertySchema with
  | none => .ok []
  | some (.str headerName) =>
    if headerName.isEmpty then
      .error ⟨400, ModernErrorCodes.invalidParams,
        "Invalid x-mcp-header annotation for " ++ propertyName⟩
    else if !isMirroredType (property? "type" propertySchema) then
      .error ⟨400, ModernErrorCodes.invalidParams, "x-mcp-header annotation for " ++ propertyName ++
        " requires string, integer, or boolean schema type"⟩
    else .ok [⟨headerName, childPath⟩]
  | some _ =>
    .error ⟨400, ModernErrorCodes.invalidParams,
      "Invalid x-mcp-header annotation for " ++ propertyName⟩

mutual

/-- `findHeaderAnnotations` -/
def findHeaderAnnotations : Json → List String →
    Except ModernMcpError (List HeaderAnnotation)
  | .obj members, path => findMembersAnnotations members path
  | _, _ => .ok []

/-- `findHeaderAnnotations` on the members of the schema, which looks up `schema.properties`. -/
def findMembersAnnotations : List (String × Json) → List String →
    Except ModernMcpError (List HeaderAnnotation)
  | [], _ => .ok []
  | (key, value) :: members, path =>
    if key = "properties" then findPropertiesAnnotations value path
    else findMembersAnnotations members path

/-- The loop of `findHeaderAnnotations`, which runs if `schema.properties` is an object. -/
def findPropertiesAnnotations : Json → List String →
    Except ModernMcpError (List HeaderAnnotation)
  | .obj properties, path => findEntriesAnnotations properties path
  | _, _ => .ok []

/-- The loop of `findHeaderAnnotations` over `Object.entries(properties)`. -/
def findEntriesAnnotations : List (String × Json) → List String →
    Except ModernMcpError (List HeaderAnnotation)
  | [], _ => .ok []
  | (propertyName, propertySchema) :: entries, path =>
    if !isJsonObject propertySchema then findEntriesAnnotations entries path
    else do
      let childPath := path ++ [propertyName]
      let own ← findOwnAnnotation propertySchema childPath
      let nested ← findHeaderAnnotations propertySchema childPath
      let rest ← findEntriesAnnotations entries path
      .ok (own ++ nested ++ rest)

end

/-- `normalizeHeaderAnnotations`, from the names in `seenHeaders` on; `toolName` is `tool.name`. -/
def normalizeHeaderAnnotations (toolName : String) :
    List HeaderAnnotation → List String → Except ModernMcpError (List HeaderAnnotation)
  | [], _ => .ok []
  | ann :: annotations, seenHeaders =>
    let propertyName := ".".intercalate ann.path
    let headerName := paramHeader ann.headerName
    let normalizedHeaderName := lowerCase headerName
    if !isParamHeader headerName then
      .error ⟨400, ModernErrorCodes.invalidParams,
        "Invalid x-mcp-header annotation for " ++ toolName ++ "." ++ propertyName⟩
    else if seenHeaders.contains normalizedHeaderName then
      .error ⟨400, ModernErrorCodes.invalidParams,
        "Duplicate x-mcp-header annotation for " ++ headerName⟩
    else do
      let rest ← normalizeHeaderAnnotations toolName annotations
        (seenHeaders ++ [normalizedHeaderName])
      .ok (⟨headerName, ann.path⟩ :: rest)

/-- The annotations of an input schema: `normalizeHeaderAnnotations(tool,
    findHeaderAnnotations(inputSchema))`. -/
def toolAnnotations (toolName : String) (inputSchema : Json) :
    Except ModernMcpError (List HeaderAnnotation) := do
  let annotations ← findHeaderAnnotations inputSchema []
  normalizeHeaderAnnotations toolName annotations []

/-- The fields of a `Tool` that are read here. -/
structure Tool where
  name : String
  inputSchema : Json

/-- `hasValidHeaderAnnotations`; the two functions throw nothing but a `ModernMcpError`. -/
def hasValidHeaderAnnotations (tool : Tool) : Bool :=
  if isJsonObject tool.inputSchema then
    match toolAnnotations tool.name tool.inputSchema with
    | .ok _ => true
    | .error _ => false
  else true

end ModernMcpController

end PetaCore
