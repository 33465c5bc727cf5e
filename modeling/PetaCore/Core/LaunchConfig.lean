import PetaCore.ForStd.JsonParse
import PetaCore.ForStd.SplitJoin
import PetaCore.Core.HeaderAnnotations

/-!
# Launch configs from a template

`assembleLaunchConfig` of `UserRequestHandler`: the credentials of a user are put into the launch
config of a template. Each placeholder is replaced in the text of the config, and the text is read
back before the next one.
-/

namespace PetaCore

/-- A JavaScript condition on a property of a launch config. -/
def isTruthyProperty : Option Json → Bool
  | none | some .null => false
  | some (.bool b) => b
  | some (.num n) => n.mantissa != 0
  | some (.str s) => s != ""
  | some (.arr _) | some (.obj _) => true

/-- `UserErrorCode`, as far as CONFIGURE_SERVER throws it. -/
inductive UserErrorCode where
  | serverNotFound
  | serverDisabled
  | serverConfigInvalid
  | serverNotAllowUserInput
  | serverNoConfigTemplate
  | internalError
deriving DecidableEq

/-- What a request throws: a `UserError` with its code, or an error of JavaScript or of something
    that is called. -/
inductive UserRequestError where
  | user (code : UserErrorCode)
  | other
deriving DecidableEq

/-- An entry of `authConf`, as it was sent. -/
structure AuthConf where
  key : Option Json
  value : Option Json
  dataType : Option Json

namespace UserRequestHandler

/-- `auth.dataType === 1`, the one that stands for a replacement. -/
def isStringReplacement : Option Json → Bool
  | some (.num n) => n == JsNumber.ofNat 1
  | _ => false

/-- The loop body of `assembleLaunchConfig`: the key and the value are checked, and the key is
    replaced in the text of the config. -/
def applyAuth (processedConfig : Json) (auth : AuthConf) : Except UserRequestError Json :=
  match auth.key, auth.value with
  | some (.str key), some (.str value) =>
    if key = "" then .error (.user .serverConfigInvalid)
    else if isStringReplacement auth.dataType then
      let updatedConfigStr :=
        SplitJoin.replace key.toList value.toList processedConfig.stringify.toList
      match Json.parse updatedConfigStr with
      | some config => .ok config
      | none => .error (.user .serverConfigInvalid)
    else .ok processedConfig
  | _, _ => .error (.user .serverConfigInvalid)

/-- The days that the tokens of a Notion or Figma server last. -/
def tokenDays (template : Json) : Option Nat :=
  match property? "authType" template with
  | some (.num n) =>
    if n = JsNumber.ofNat 3 then some 30
    else if n = JsNumber.ofNat 4 then some 90
    else none
  | _ => none

/-- The object that `expiresAt` is written to; `none` when there is no such property on it to
    write, and what is written is lost or throws. -/
def oauthMembers (oauth : Option Json) : Option (List (String × Json)) :=
  match oauth with
  | some (.obj members) => some members
  | oauth => if isTruthyProperty oauth then none else some []

/-- Write `oauth.expiresAt` unless there is one. A property that is written to an array is not part
    of its text, and one that is written to another value throws. -/
def setExpiresAt (expiresAt : Nat) (processedConfig : Json) : Except UserRequestError Json :=
  match processedConfig with
  | .obj members =>
    let oauth := property? "oauth" processedConfig
    if isTruthyProperty (oauth.bind (property? "expiresAt")) then .ok processedConfig
    else
      match oauthMembers oauth, oauth with
      | some fields, _ =>
        let oauth := Json.obj (Dict.setEntry "expiresAt" (.num (JsNumber.ofNat expiresAt)) fields)
        .ok (.obj (Dict.setEntry "oauth" oauth members))
      | none, some (.arr _) => .ok processedConfig
      | none, _ => .error .other
  | .arr _ => .ok processedConfig
  | _ => .error .other

/-- The last step of `assembleLaunchConfig`, at `Date.now()`. -/
def handleExpiration (template : Json) (now : Nat) (processedConfig : Json) :
    Except UserRequestError Json :=
  match tokenDays template with
  | some days => setExpiresAt (now + days * 24 * 60 * 60 * 1000) processedConfig
  | none => .ok processedConfig

/-- `assembleLaunchConfig` -/
def assembleLaunchConfig (template : Json) (authConf : List AuthConf) (now : Nat) :
    Except UserRequestError Json :=
  match property? "mcpJsonConf" template with
  | none => .error (.user .serverConfigInvalid)
  | some mcpJsonConf =>
    if isTruthyProperty (some mcpJsonConf) then
      match Json.parse mcpJsonConf.stringify.toList with
      | none => .error .other
      | some processedConfig =>
        if authConf.isEmpty then .error (.user .serverConfigInvalid)
        else do
          let processedConfig ← authConf.foldlM applyAuth processedConfig
          handleExpiration template now processedConfig
    else .error (.user .serverConfigInvalid)

end UserRequestHandler

end PetaCore
