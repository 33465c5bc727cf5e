import PetaCore.ForStd.StateTriple
import PetaCore.Core.LaunchConfig
import PetaCore.Core.TemporaryServers
import PetaCore.Core.UserSettings

/-!
# CONFIGURE_SERVER

`handleConfigureServer` of `UserRequestHandler`, from its checks to its last step: the launch config
of a user for a server is assembled by the category of the server, encrypted, stored in the row of
the user and in the sessions, and the server is started on it. How the calls that it awaits end is
a `ConfigureOutcomes`; the rows and the sessions are a `ConfigureState`, which a throw leaves as it
is.
-/

namespace PetaCore

/-- `ConfigureServerRequest` -/
structure ConfigureServerRequest where
  serverId : String
  authConf : Option (List AuthConf)
  restfulApiAuth : Option Json
  remoteAuth : Option Json
  stdioEnv : Option Json

/-- What the handler awaits, and what it takes from outside. -/
structure ConfigureOutcomes where
  /-- `ServerRepository.findByServerId` -/
  findByServerId : Except UserRequestError (Option ServerRow)
  /-- `UserRepository.findById`, of which the row comes from the state -/
  findById : Except UserRequestError Unit
  now : Nat
  /-- the exchange of an OAuth code for tokens, with the launch config that has them -/
  exchangeOAuthCode : Json → List AuthConf → Except UserRequestError Json
  /-- `new URL(url)` with parameters set, as text -/
  urlWithParams : Option Json → List (String × String) → Option String
  encryptData : Json → Except UserRequestError String
  updateLaunchConfigs : Except UserRequestError Unit
  /-- the launch config with refreshed tokens that the start stores -/
  refreshedLaunchConfig : Option String
  /-- the capabilities that the start stores when they are the first ones -/
  firstCapabilities : Option (ServerConfigWithEnabled CapabilityConfig)
  /-- how `createTemporaryServer` ends, with the capabilities of its context -/
  createTemporaryServer : Except UserRequestError (ServerConfigWithEnabled CapabilityConfig)
  updateUserPreferences : Except UserRequestError Unit
  /-- `SessionStore.updateUserPreferences` -/
  updateSessions : Except UserRequestError Unit

/-- The table `user` and the sessions. -/
structure ConfigureState where
  users : Dict UserSettings
  sessions : Table ConfigSession

abbrev ConfigureM := EStateM UserRequestError ConfigureState

namespace UserRequestHandler

/-! ## Authentication data -/

def invalid {α : Type} : Except UserRequestError α := .error (.user .serverConfigInvalid)

/-- The members of a plain record; a JSON object is one. -/
def isPlainRecord : Option Json → Option (List (String × Json))
  | some (.obj members) => some members
  | _ => none

def hasOnlyKeys (members : List (String × Json)) (keys : List String) : Bool :=
  members.all fun m => keys.contains m.1

def requireNonEmptyString (value : Option Json) : Except UserRequestError String :=
  match value with
  | some (.str s) => if isBlank s then invalid else .ok s
  | _ => invalid

def stringEntry (m : String × Json) : Except UserRequestError (String × String) :=
  match m.2 with
  | .str s => .ok (m.1, s)
  | _ => invalid

def parseStringRecord (value : Option Json) :
    Except UserRequestError (Option (List (String × String))) :=
  match value with
  | none => .ok none
  | some (.obj members) => (members.mapM stringEntry).map some
  | _ => invalid

/-- `parseRemoteAuth`: the parameters and the headers. -/
def parseRemoteAuth (value : Option Json) :
    Except UserRequestError (List (String × String) × List (String × String)) :=
  match isPlainRecord value with
  | none => invalid
  | some members => do
    if !hasOnlyKeys members ["params", "headers"] then invalid
    else
      let params ← parseStringRecord (members.lookup "params")
      let headers ← parseStringRecord (members.lookup "headers")
      if (params.getD []).isEmpty && (headers.getD []).isEmpty then invalid
      else return (params.getD [], headers.getD [])

/-- A kind of `restfulApiAuth`: its fields after `type`, all of them texts that are not empty. -/
def parseAuthFields (type : String) (members : List (String × Json)) (fields : List String) :
    Except UserRequestError Json :=
  if hasOnlyKeys members ("type" :: fields) then do
    let values ← fields.mapM fun field => do
      let value ← requireNonEmptyString (members.lookup field)
      return (field, Json.str value)
    return .obj (("type", .str type) :: values)
  else invalid

def parseRestfulApiAuth (value : Option Json) : Except UserRequestError Json :=
  match isPlainRecord value with
  | none => invalid
  | some members =>
    match members.lookup "type" with
    | some (.str "bearer") => parseAuthFields "bearer" members ["value"]
    | some (.str "basic") => parseAuthFields "basic" members ["username", "password"]
    | some (.str "header") => parseAuthFields "header" members ["header", "value"]
    | some (.str "query_param") => parseAuthFields "query_param" members ["param", "value"]
    | _ => invalid

/-! ## Launch configs by category -/

/-- `{ ...value }` -/
def spread : Option Json → List (String × Json)
  | some (.obj members) => members
  | some (.arr items) => items.zipIdx.map fun item => (toString item.2, item.1)
  | some (.str s) => s.toList.zipIdx.map fun c => (toString c.2, .str c.1.toString)
  | _ => []

/-- `{ ...first, ...second }` -/
def spreadBoth (first second : List (String × Json)) : List (String × Json) :=
  second.foldl (fun members m => Dict.setEntry m.1 m.2 members) first

/-- `value ?? fallback` -/
def orElse (value : Option Json) (fallback : Json) : Json :=
  match value with
  | none | some .null => fallback
  | some value => value

section

variable (o : ConfigureOutcomes) (server : ServerRow) (configTemplate : String)
  (data : ConfigureServerRequest)

def templateLaunchConfig : Except UserRequestError Json :=
  match data.authConf with
  | none | some [] => invalid
  | some authConf =>
    match Json.parse configTemplate.toList with
    | none => invalid
    | some .null => .error .other
    | some template =>
      let oauthConfig := property? "oAuthConfig" template
      if isTruthyProperty (oauthConfig.bind (property? "deskClientId")) then
        o.exchangeOAuthCode template authConf
      else assembleLaunchConfig template authConf o.now

def customRemoteLaunchConfig : Except UserRequestError Json := do
  let (params, headers) ← parseRemoteAuth data.remoteAuth
  if configTemplate = "\x7b\x7d" then .error (.user .serverNoConfigTemplate)
  else
    match Json.parse configTemplate.toList with
    | none => .error .other
    | some template =>
      match o.urlWithParams (property? "url" template) params with
      | none => invalid
      | some url =>
        let headers := spreadBoth (spread (property? "headers" template))
          (headers.map fun h => (h.1, .str h.2))
        return .obj [("url", .str url), ("headers", .obj headers)]

/-- Command, arguments and directory are those of the template; the environment is merged. -/
def customStdioLaunchConfig : Except UserRequestError Json :=
  if configTemplate = "\x7b\x7d" then .error (.user .serverNoConfigTemplate)
  else
    match Json.parse configTemplate.toList with
    | none | some .null => .error .other
    | some template =>
      match property? "command" template with
      | none => invalid
      | some command =>
        if isTruthyProperty (some command) then
          let env := spreadBoth (spread (property? "env" template)) (spread data.stdioEnv)
          let cwd := ((property? "cwd" template).map fun cwd => ("cwd", cwd)).toList
          .ok (.obj ([("command", command), ("args", orElse (property? "args" template) (.arr []))] ++
            cwd ++ [("env", .obj env)]))
        else invalid

def restApiLaunchConfig : Except UserRequestError Json :=
  match Json.parse configTemplate.toList with
  | none => invalid
  | some template =>
    match property? "apis" template with
    | some (.arr (.obj _ :: _)) => do
      let auth ← parseRestfulApiAuth data.restfulApiAuth
      match Json.parse server.launchConfig.toList with
      | some (.obj members) => return .obj (Dict.setEntry "auth" auth members)
      -- a property that is written to an array is not part of its text
      | some (.arr items) => return .arr items
      | _ => .error .other
    | _ => invalid

/-- The launch config by the category of the server. -/
def assembleByCategory : Except UserRequestError Json :=
  match server.category with
  | .template => templateLaunchConfig o configTemplate data
  | .customRemote => customRemoteLaunchConfig o configTemplate data
  | .customStdio => customStdioLaunchConfig configTemplate data
  | .restApi => restApiLaunchConfig server configTemplate data
  | .skills => invalid

end

/-! ## The handler -/

open StateTriple (await)

variable (o : ConfigureOutcomes)

/-- The row of a user and the sessions of the user get new launch configs. -/
def storeLaunchConfigs (userId : UserId) (launchConfigs : Dict String) (s : ConfigureState) :
    ConfigureState :=
  { users :=
      match s.users.get? userId.value with
      | some user => s.users.set userId.value { user with launchConfigs }
      | none => s.users
    sessions := s.sessions.map fun session =>
      if session.userId = userId then { session with launchConfigs } else session }

def storeUserPreferences (userId : UserId) (userPreferences : Permissions) (s : ConfigureState) :
    ConfigureState :=
  { s with
    users :=
      match s.users.get? userId.value with
      | some user => s.users.set userId.value { user with userPreferences }
      | none => s.users }

/-- `updateUserLaunchConfig` of a start: the config with refreshed tokens replaces the stored one. -/
def persistTokens (userId : UserId) (serverId : String) (s : ConfigureState) : ConfigureState :=
  match o.refreshedLaunchConfig, s.users.get? userId.value with
  | some launchConfig, some user =>
    storeLaunchConfigs userId (user.launchConfigs.set serverId launchConfig) s
  | _, _ => s

/-- The part of `updateServerCapabilities` for a server that announces its first capabilities. -/
def seedPreferences (userId : UserId) (serverId : String) (s : ConfigureState) : ConfigureState :=
  match o.firstCapabilities, s.users.get? userId.value with
  | some capabilities, some user =>
    storeUserPreferences userId (user.userPreferences.set serverId capabilities) s
  | _, _ => s

/-- `createTemporaryServer`, with what it stores whether it succeeds or not. -/
def createTemporaryServer (userId : UserId) (serverId : String) :
    ConfigureM (ServerConfigWithEnabled CapabilityConfig) := do
  modify (persistTokens o userId serverId)
  modify (seedPreferences o userId serverId)
  await o.createTemporaryServer

/-- The checks on the server: its row and its template. -/
def checkServer (server : Option ServerRow) : Except UserRequestError (ServerRow × String) :=
  match server with
  | none => .error (.user .serverNotFound)
  | some server =>
    if !server.allowUserInput then .error (.user .serverNotAllowUserInput)
    else if !server.enabled then .error (.user .serverDisabled)
    else
      match server.configTemplate with
      | none | some "" => .error (.user .serverNoConfigTemplate)
      | some configTemplate => .ok (server, configTemplate)

/-- The steps of `handleConfigureServer` up to the encrypted launch config, which write nothing. -/
def prepareLaunchConfig (userId : UserId) (data : ConfigureServerRequest) (s : ConfigureState) :
    Except UserRequestError (UserSettings × String) := do
  let found ← o.findByServerId
  let (server, configTemplate) ← checkServer found
  o.findById
  match s.users.get? userId.value with
  | none => .error (.user .internalError)
  | some user => do
    let launchConfig ← assembleByCategory o server configTemplate data
    let encryptedLaunchConfig ← o.encryptData launchConfig
    return (user, encryptedLaunchConfig)

/-- `handleConfigureServer` -/
def handleConfigureServer (userId : UserId) (data : ConfigureServerRequest) : ConfigureM Unit := do
  let s ← get
  let (user, encryptedLaunchConfig) ← await (prepareLaunchConfig o userId data s)
  await o.updateLaunchConfigs
  modify (storeLaunchConfigs userId (user.launchConfigs.set data.serverId encryptedLaunchConfig))
  let mcpCapabilities ← createTemporaryServer o userId data.serverId
  await o.updateUserPreferences
  -- the preferences are those that were read before the start
  modify (storeUserPreferences userId (user.userPreferences.set data.serverId mcpCapabilities))
  await o.updateSessions

end UserRequestHandler

end PetaCore
