import PetaCore.ForStd.Json

/-!
# ApprovalRequestHasher

The identity of an approval request: a SHA-256 over a JSON array of who calls what with
which arguments under which policy version. `sha256` stands for
`createHash('sha256').update(…).digest('hex')`.
-/

namespace PetaCore

mutual

/-- `sortKeys` -/
def sortKeys : Json → Json
  | .arr items => .arr (sortItems items)
  | .obj members =>
    Json.fromEntries ((sortMembers members).insertionSort fun e e' => Json.keyLe e.1 e'.1 = true)
  | a => a

def sortItems : List Json → List Json
  | [] => []
  | a :: as => sortKeys a :: sortItems as

def sortMembers : List (String × Json) → List (String × Json)
  | [] => []
  | (k, a) :: ms => (k, sortKeys a) :: sortMembers ms

end

/-- `canonicalizeArgs` -/
def canonicalizeArgs (args : Json) : String := Json.stringify (sortKeys args)

/-- `APPROVAL_HASH_VERSION` -/
def approvalHashVersion : String := "v2"

/-- The `hashInput` of `computeHash`. -/
def hashInput (userId : String) (serverId : Option String) (toolName : String) (args : Json)
    (policyVersion : Nat) : String :=
  Json.stringify (.arr [
    .str approvalHashVersion,
    .str userId,
    match serverId with
    | some id => .str id
    | none => .null,
    .str toolName,
    .str (canonicalizeArgs args),
    .num (JsNumber.ofNat policyVersion)])

/-- `computeHash` -/
def computeHash (sha256 : String → String) (userId : String) (serverId : Option String)
    (toolName : String) (args : Json) (policyVersion : Nat) : String :=
  sha256 (hashInput userId serverId toolName args policyVersion)

end PetaCore
