import Mathlib.Data.List.Infix
import PetaCore.ForStd.Json

/-!
# Stored execution results

What `ApprovalService` stores of the result of an approved tool call: the result with the values
under sensitive keys replaced, or a notice with the beginning of its text when it is too long.
Texts are lists of UTF-16 code units, since a preview can end within a surrogate pair.
-/

namespace PetaCore

/-- `MAX_EXECUTION_RESULT_BYTES` -/
def MAX_EXECUTION_RESULT_BYTES : Nat := 64 * 1024

/-- `MAX_EXECUTION_RESULT_PREVIEW_CHARS` -/
def MAX_EXECUTION_RESULT_PREVIEW_CHARS : Nat := 280

/-- The UTF-16 code units of a text. -/
def utf16 (s : String) : List Nat := s.toList.flatMap Json.codeUnits

/-- The alternatives of `sensitivePattern`. -/
def sensitiveWords : List String :=
  ["password", "secret", "token", "apikey", "api_key", "authorization", "credential"]

/-- `sensitivePattern.test`. Without the flag `u`, ignoring case relates no character outside ASCII
to one of these. -/
def isSensitiveKey (keyHint : String) : Bool :=
  sensitiveWords.any fun word => decide (word.toList <:+: keyHint.toList.map Char.toLower)

/-- `'[redacted]'` -/
def redactedText : Json := .str "[redacted]"

/-- A member assigned to `result`. Under `__proto__` the assignment sets the prototype, and does
nothing when the value is no object; this member of a result stands for its prototype. -/
def assignMember (nestedKey : String) (value : Json) (rest : List (String × Json)) :
    List (String × Json) :=
  if nestedKey = "__proto__" then
    match value with
    | .null | .arr _ | .obj _ => (nestedKey, value) :: rest
    | _ => rest
  else (nestedKey, value) :: rest

namespace ApprovalService

mutual

/-- `walk`, apart from the key hint -/
def walk : Json → Json
  | .arr items => .arr (walkItems items)
  | .obj members => .obj (walkMembers members)
  | value => value

/-- `value.map` -/
def walkItems : List Json → List Json
  | [] => []
  | item :: items => walk item :: walkItems items

/-- The loop over the entries, with the key of each as its hint. -/
def walkMembers : List (String × Json) → List (String × Json)
  | [] => []
  | (nestedKey, nestedValue) :: members =>
    assignMember nestedKey
      (if isSensitiveKey nestedKey then redactedText else walk nestedValue) (walkMembers members)

end

/-- `redactSensitiveExecutionFields` -/
def redactSensitiveExecutionFields (input : Json) : Json := walk input

mutual

/-- The members of its own that a value has, which are those that `JSON.stringify` prints. -/
def ownMembers : Json → Json
  | .arr items => .arr (ownOfItems items)
  | .obj members => .obj (ownOfMembers members)
  | value => value

def ownOfItems : List Json → List Json
  | [] => []
  | item :: items => ownMembers item :: ownOfItems items

def ownOfMembers : List (String × Json) → List (String × Json)
  | [] => []
  | (key, value) :: members =>
    if key = "__proto__" then ownOfMembers members
    else (key, ownMembers value) :: ownOfMembers members

end

/-- The record that stands for a result that is not stored itself. -/
structure ResultNotice where
  kind : String
  preview : List Nat
  truncated : Bool
  originalSizeBytes : Option Nat
deriving DecidableEq

inductive StoredResult where
  | result (redactedResult : Json)
  | notice (n : ResultNotice)

def unavailableNotice : ResultNotice :=
  ⟨"execution_result_unavailable", utf16 "Execution result is unavailable for replay.", false, none⟩

/-- The notice for a text that is too long. -/
def truncatedNotice (rawJson : List Nat) : ResultNotice :=
  ⟨"execution_result_truncated", rawJson.take MAX_EXECUTION_RESULT_PREVIEW_CHARS, true,
    some rawJson.length⟩

/-- What is stored of a redacted result. -/
def storedResult (redactedResult : Json) : StoredResult :=
  let rawJson := utf16 (Json.stringify (ownMembers redactedResult))
  if rawJson.length ≤ MAX_EXECUTION_RESULT_BYTES then .result redactedResult
  else .notice (truncatedNotice rawJson)

/-- `sanitizeExecutionResult`. The `catch` is for values that are not JSON. -/
def sanitizeExecutionResult (executionResult : Json) : StoredResult :=
  match executionResult with
  | .obj members => storedResult (redactSensitiveExecutionFields (.obj members))
  | _ => .notice unavailableNotice

end ApprovalService

end PetaCore
