import Mathlib.Data.List.Infix
import PetaCore.ForStd.JsonNested
import PetaCore.ForStd.Pattern
import PetaCore.Core.Types

/-!
# Log redaction

What is taken out of log fields, error texts and log lines before they are stored or printed:
patterns that find credentials in any text, and a walk through JSON values that replaces what
stands under a sensitive key.

Nothing bounds the recursion of `redactLogValue` into texts of strings, since the patterns can make
a text longer before it is read as JSON. It has as an argument for how many texts within texts the
call stack has room; the exception that an overflow throws is caught where the last text was read,
like any other.
-/

namespace PetaCore.LogRedaction

/-- `REDACTED` -/
def REDACTED : List Char := "[REDACTED]".toList

/-! ## Patterns -/

section Patterns

open Pattern

/-- `\s` -/
def space : Pattern := one isJsWhitespace

/-- `["']` -/
def quoteMark : Pattern := oneOf ['"', '\'']

/-- `[A-Za-z0-9_.-]` -/
def keyChar : Pattern := one fun c => c.isAlphanum || ['_', '.', '-'].contains c

/-- `[-_]?` -/
def hyphen : Pattern := opt (oneOf ['-', '_'])

/-- `(["'])(?:\\.|(?!\4)[^\r\n])*(?:\4|$)`, a quoted value that need not be closed. -/
def quotedValue : Pattern :=
  chain [group 4 quoteMark,
    many (alt (seq (oneOf ['\\']) (noneOf ['\n', '\r', '\u2028', '\u2029']))
      (seq (notAhead (back 4)) (noneOf ['\r', '\n']))),
    alt (back 4) finish]

/-- `AUTH_SCHEME_TOKEN` -/
def AUTH_SCHEME_TOKEN : Pattern :=
  chain [group 1 (alt (word "bearer".toList) (word "basic".toList)), some1 space,
    some1 (one fun c => !(isJsWhitespace c || [',', ';', '"', '\''].contains c))]

/-- `QUOTED_FIELD_VALUE` -/
def QUOTED_FIELD_VALUE : Pattern :=
  chain [group 1 quoteMark, group 2 (some1 (noneOf ['"', '\'', '\\', '\r', '\n'])), back 1,
    group 3 (chain [many space, oneOf [':'], many space]), quotedValue]

/-- The key of `BARE_FIELD_VALUE` -/
def bareKey : Pattern :=
  choice [
    chain [many keyChar,
      choice [word "token".toList, word "secret".toList, word "password".toList,
        word "credential".toList],
      many keyChar],
    word "authorization".toList,
    word "key".toList,
    chain [word "api".toList, hyphen, word "key".toList],
    chain [word "proxy".toList, hyphen, word "key".toList],
    chain [word "private".toList, hyphen, word "key".toList],
    word "cookie".toList,
    chain [word "auth".toList, hyphen, word "conf".toList],
    chain [word "set".toList, hyphen, word "cookie".toList]]

/-- `BARE_FIELD_VALUE` -/
def BARE_FIELD_VALUE : Pattern :=
  chain [group 1 (opt quoteMark), group 2 bareKey, back 1,
    group 3 (chain [many space, oneOf [':', '='], many space]),
    alt quotedValue
      (group 5 (some1 (one fun c =>
        !(isJsWhitespace c || [',', ';', '&', ']', '\x7d'].contains c))))]

end Patterns

/-! ## Texts -/

/-- `toLowerCase`, as far as it leads to ASCII: outside ASCII that are the Kelvin sign and the
dotted capital `I`. -/
def lowerCase (c : Char) : List Char :=
  if c = '\u212A' then ['k']
  else if c = '\u0130' then ['i', '\u0307']
  else [c.toLower]

/-- `isSensitiveKey` -/
def isSensitiveKey (key : List Char) : Bool :=
  let normalized := (key.filter fun c => c != '-' && c != '_').flatMap lowerCase
  ["authorization", "key", "authconf", "cookie", "privatekey", "setcookie"].any
      (fun word => normalized == word.toList) ||
    ["token", "secret", "password", "credential", "apikey", "proxykey"].any
      fun word => decide (word.toList <:+: normalized)

/-- The callback of the two replacements: a field whose key is sensitive loses its value. -/
def redactField (g : Pattern.Groups) (found : List Char) : List Char :=
  if isSensitiveKey (g.get 2) then
    g.get 1 ++ g.get 2 ++ g.get 1 ++ g.get 3 ++ g.get 4 ++ REDACTED ++ g.get 4
  else found

/-- `redactText` -/
def redactText (value : List Char) : List Char :=
  BARE_FIELD_VALUE.replaceAll redactField
    (QUOTED_FIELD_VALUE.replaceAll redactField
      (AUTH_SCHEME_TOKEN.replaceAll (fun g _ => g.get 1 ++ ' ' :: REDACTED) value))

/-! ## Values -/

/-- `JSON.stringify` -/
def stringify (value : Json) : String := (Json.printed value).stringify

mutual

/-- `redactParsedValue` -/
def redactParsedValue : Json → Json
  | .str parsed =>
    match _ : Json.parse parsed.toList with
    | some value => .str (stringify (redactParsedValue value))
    | none => .str (String.ofList (redactText parsed.toList))
  | .arr items => .arr (redactParsedItems items)
  | .obj members => Json.fromEntries (redactParsedMembers members)
  | parsed => parsed
termination_by parsed => 2 * parsed.size
decreasing_by
  all_goals simp_wf
  · have := Json.size_parse_lt (by assumption)
    omega
  · simp only [Json.size]
    omega
  · simp only [Json.size]
    omega

/-- `parsed.map(redactParsedValue)` -/
def redactParsedItems : List Json → List Json
  | [] => []
  | item :: items => redactParsedValue item :: redactParsedItems items
termination_by items => 2 * Json.sizeItems items + 1
decreasing_by
  all_goals
    have := item.size_pos
    simp only [Json.sizeItems]
    omega

/-- `Object.entries(parsed).map(...)` -/
def redactParsedMembers : List (String × Json) → List (String × Json)
  | [] => []
  | (key, nestedValue) :: members =>
    (key, if isSensitiveKey key.toList then .str (String.ofList REDACTED)
      else redactParsedValue nestedValue) :: redactParsedMembers members
termination_by members => 2 * Json.sizeMembers members + 1
decreasing_by
  all_goals
    have := nestedValue.size_pos
    simp only [Json.sizeMembers]
    omega

end

/-- `redactStructuredField` -/
def redactStructuredField : Option String → Option String
  | none => none
  | some value =>
    match Json.parse value.toList with
    | some parsed => some (stringify (redactParsedValue parsed))
    | none => some (String.ofList (redactText value.toList))

/-! ## Error texts -/

mutual

/-- `containsSensitiveKey` -/
def containsSensitiveKey : Json → Bool
  | .str value =>
    match _ : Json.parse value.toList with
    | some nestedValue => containsSensitiveKey nestedValue
    | none => false
  | .arr items => itemsContainSensitiveKey items
  | .obj members => membersContainSensitiveKey members
  | _ => false
termination_by value => 2 * value.size
decreasing_by
  all_goals simp_wf
  · have := Json.size_parse_lt (by assumption)
    omega
  · simp only [Json.size]
    omega
  · simp only [Json.size]
    omega

/-- `value.some(containsSensitiveKey)` -/
def itemsContainSensitiveKey : List Json → Bool
  | [] => false
  | item :: items => containsSensitiveKey item || itemsContainSensitiveKey items
termination_by items => 2 * Json.sizeItems items + 1
decreasing_by
  all_goals
    have := item.size_pos
    simp only [Json.sizeItems]
    omega

/-- `Object.entries(value).some(...)` -/
def membersContainSensitiveKey : List (String × Json) → Bool
  | [] => false
  | (key, nestedValue) :: members =>
    isSensitiveKey key.toList || containsSensitiveKey nestedValue ||
      membersContainSensitiveKey members
termination_by members => 2 * Json.sizeMembers members + 1
decreasing_by
  all_goals
    have := nestedValue.size_pos
    simp only [Json.sizeMembers]
    omega

end

/-- `redactError` -/
def redactError (value : String) : String :=
  match Json.parse value.toList with
  | none => String.ofList (redactText value.toList)
  | some parsed =>
    if !containsSensitiveKey parsed then String.ofList (redactText value.toList)
    else
      let redactedValue := redactParsedValue parsed
      let redactedText := redactText value.toList
      match Json.parse redactedText with
      | some reparsed =>
        if stringify reparsed = stringify redactedValue then String.ofList redactedText
        else stringify redactedValue
      | none => stringify redactedValue

/-! ## Log lines -/

/-- Whether a text starts like an object, an array or a string. -/
def isJsonCandidate (redactedText : List Char) : Bool :=
  match redactedText.dropWhile isJsWhitespace with
  | c :: _ => c == '\x7b' || c == '[' || c == '"'
  | [] => false

mutual

/-- `redactLogValue`, with room on the call stack for `stack` texts within texts. -/
def redactLogValue (stack : Nat) : Json → Json
  | .str value =>
    let redactedText := redactText value.toList
    if !isJsonCandidate redactedText then .str (String.ofList redactedText)
    else
      match stack with
      | 0 => .str (String.ofList redactedText)
      | stack + 1 =>
        match Json.parse redactedText with
        | some parsed => .str (stringify (redactLogValue stack parsed))
        | none => .str (String.ofList redactedText)
  | .arr items => .arr (redactLogItems stack items)
  | .obj members => Json.fromEntries (redactLogMembers stack members)
  | value => value
termination_by value => (stack, sizeOf value)

/-- `value.map(redactLogValue)` -/
def redactLogItems (stack : Nat) : List Json → List Json
  | [] => []
  | item :: items => redactLogValue stack item :: redactLogItems stack items
termination_by items => (stack, sizeOf items)

/-- `Object.entries(value).map(...)` -/
def redactLogMembers (stack : Nat) : List (String × Json) → List (String × Json)
  | [] => []
  | (key, nestedValue) :: members =>
    (key, if isSensitiveKey key.toList then .str (String.ofList REDACTED)
      else redactLogValue stack nestedValue) :: redactLogMembers stack members
termination_by members => (stack, sizeOf members)

end

/-- `redactLogLine` -/
def redactLogLine (stack : Nat) (logLine : String) : String :=
  match Json.parse logLine.toList with
  | some parsed =>
    let ending := if ['\r', '\n'] <:+ logLine.toList then "\r\n" else "\n"
    stringify (redactLogValue stack parsed) ++ ending
  | none => String.ofList (redactText logLine.toList)

end PetaCore.LogRedaction
