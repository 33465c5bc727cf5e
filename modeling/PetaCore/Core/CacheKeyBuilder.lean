import PetaCore.ForStd.JsonOrder

/-!
# CacheKeyBuilder

The identities of the result cache: the hash of the request parameters, and the keys under
which results, admission counters and namespace versions are stored. `sha256` stands for
`createHash('sha256').update(…).digest('hex')`.

Request parameters are JSON values, or `undefined` (`none`) for a request without any. The
other values that `normalizeValue` tags do not come out of `JSON.parse`.
-/

namespace PetaCore

/-- `CacheScope` -/
inductive CacheScope where
  | user
  | tenant
  | «global»
deriving DecidableEq

/-- The text of a scope. -/
def CacheScope.value : CacheScope → String
  | .user => "user"
  | .tenant => "tenant"
  | .global => "global"

/-- `CacheOperationType` -/
inductive CacheOperationType where
  | tool
  | resource
  | prompt
deriving DecidableEq

/-- The text of an operation. -/
def CacheOperationType.value : CacheOperationType → String
  | .tool => "tool"
  | .resource => "resource"
  | .prompt => "prompt"

/-- `CacheNamespaceVersions` -/
structure CacheNamespaceVersions where
  globalVersion : Nat
  serverVersion : Nat
  entityVersion : Nat
deriving DecidableEq

/-! ## Parameters -/

mutual

/-- `stripDeniedFields` -/
def stripDeniedFields (denySet : List String) : Json → Json
  | .arr items => .arr (stripDeniedItems denySet items)
  | .obj members => Json.fromEntries (stripDeniedMembers denySet members)
  | a => a

def stripDeniedItems (denySet : List String) : List Json → List Json
  | [] => []
  | a :: as => stripDeniedFields denySet a :: stripDeniedItems denySet as

def stripDeniedMembers (denySet : List String) : List (String × Json) → List (String × Json)
  | [] => []
  | (k, a) :: ms =>
    if k ∈ denySet then stripDeniedMembers denySet ms
    else (k, stripDeniedFields denySet a) :: stripDeniedMembers denySet ms

end

/-- `applyFieldPolicies` -/
def applyFieldPolicies (value : Json) (denySet : List String) (allowFields : Option (List String)) :
    Json :=
  match allowFields, value with
  | some allowed, .obj members =>
    stripDeniedFields denySet (Json.fromEntries (members.filter fun m => m.1 ∈ allowed))
  | _, _ => stripDeniedFields denySet value

/-- `normalizeValue`, for JSON values. -/
def normalizeValue (value : Json) : Json :=
  Json.mapObjects (fun members => Json.propertyOrder (Json.sortEntries members)) value

mutual

/-- `stableStringify` -/
def stableChars : Json → List Char
  | .null => ['n', 'u', 'l', 'l']
  | .bool true => ['t', 'r', 'u', 'e']
  | .bool false => ['f', 'a', 'l', 's', 'e']
  | .num n => n.toChars
  | .str s => Json.quote s
  | .arr items => '[' :: ([','].intercalate (stableItems items) ++ [']'])
  | .obj members =>
    let sorted := (stableMembers members).insertionSort fun m m' => Json.keyLe m.1 m'.1 = true
    '\x7b' :: ([','].intercalate (sorted.map fun m => Json.quote m.1 ++ ':' :: m.2) ++ ['\x7d'])

def stableItems : List Json → List (List Char)
  | [] => []
  | a :: as => stableChars a :: stableItems as

def stableMembers : List (String × Json) → List (String × List Char)
  | [] => []
  | (k, a) :: ms => (k, stableChars a) :: stableMembers ms

end

/-- `stableStringify` -/
def stableStringify (value : Json) : String := String.ofList (stableChars value)

/-- The `canonical` text of `canonicalizeParams`. -/
def canonicalParams (params : Option Json) (denyFields : List String)
    (allowFields : Option (List String)) : String :=
  match params with
  | none => stableStringify (.obj [("__type", .str "undefined")])
  | some value => stableStringify (normalizeValue (applyFieldPolicies value denyFields allowFields))

/-- `canonicalizeParams` -/
def canonicalizeParams (sha256 : String → String) (params : Option Json)
    (denyFields : List String) (allowFields : Option (List String)) : String :=
  sha256 (canonicalParams params denyFields allowFields)

/-! ## Keys -/

/-- `buildEntityHash` -/
def buildEntityHash (sha256 : String → String) (entityId : String) : String := sha256 entityId

/-- `buildScopeHash` -/
def buildScopeHash (sha256 : String → String) (scopeIdentity : String) : String :=
  sha256 scopeIdentity

/-- The components of a result or admission key. -/
structure CacheKeyParts where
  operation : CacheOperationType
  serverId : String
  entityHash : String
  scopeType : CacheScope
  scopeHash : String
  versions : CacheNamespaceVersions
  requestHash : String

/-- A key of the family with this tag. -/
def buildEntryKey (tag keyPrefix : String) (parts : CacheKeyParts) : String :=
  keyPrefix ++ ":" ++ tag ++ ":v2:" ++ parts.operation.value ++ ":" ++ parts.serverId ++ ":" ++
    parts.entityHash ++ ":" ++ parts.scopeType.value ++ ":" ++ parts.scopeHash ++ ":gv" ++
    toString parts.versions.globalVersion ++ ":sv" ++ toString parts.versions.serverVersion ++
    ":ev" ++ toString parts.versions.entityVersion ++ ":" ++ parts.requestHash

/-- `buildResultEntryKey` -/
def buildResultEntryKey (keyPrefix : String) (parts : CacheKeyParts) : String :=
  buildEntryKey "rc" keyPrefix parts

/-- `buildAdmissionKey` -/
def buildAdmissionKey (keyPrefix : String) (parts : CacheKeyParts) : String :=
  buildEntryKey "rcadm" keyPrefix parts

/-- `buildNamespaceKey` -/
def buildNamespaceKey (keyPrefix : String) (parts : List String) : String :=
  keyPrefix ++ ":rcns:" ++ ":".intercalate parts

end PetaCore
