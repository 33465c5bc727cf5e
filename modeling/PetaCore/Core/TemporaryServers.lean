import PetaCore.Core.ServerLifecycle
import PetaCore.Core.ServerManager

/-!
# Temporary servers and their launch configs

A server that allows user input runs once for each user who has configured it, on a launch
config of the user's own. The config is stored, encrypted, under the server in `launchConfigs`
of the user's row. Every session of the user holds a copy of `launchConfigs`, and every temporary
context has the config as `launchConfig` of its `serverEntity`: the next connection is made with
that one.

Each operation is a step as a whole. Encrypted configs are opaque here; what stands for one is
its JSON text. How a start ends comes with the action.
-/

namespace PetaCore

/-- `ServerCategory` -/
inductive ServerCategory where
  | template
  | customRemote
  | restApi
  | skills
  | customStdio
deriving DecidableEq

/-- The fields of a row of the table `server` that temporary servers depend on. -/
structure ServerRow where
  launchConfig : String
  configTemplate : Option String
  category : ServerCategory
  allowUserInput : Bool
  enabled : Bool
  lazyStartEnabled : Bool
  usePetaOauthConfig : Bool
deriving DecidableEq

/-- A context of `temporaryServers`; `serverId` is that of its entity. -/
structure TemporaryContext where
  serverId : String
  userId : UserId
  serverEntity : ServerRow
  status : ServerStatus
deriving DecidableEq

/-- A session with its copy of the user's `launchConfigs`. -/
structure ConfigSession where
  userId : UserId
  launchConfigs : Dict String

/-- The tables `server` and `user`, the sessions in the order of their creation, the managed
    contexts with their entities, and the temporary ones. -/
structure ConfigState where
  globalEnabled : Bool
  servers : Dict ServerRow
  users : Dict (Dict String)
  sessions : Table ConfigSession
  managedServers : Dict ServerRow
  temporaryServers : Dict TemporaryContext

/-- The fields of UPDATE_SERVER that matter here. -/
structure ServerUpdate where
  launchConfig : Option String
  configTemplate : Option String
  lazyStartEnabled : Option Bool
  enabled : Option Bool

inductive ConfigAction where
  | configureServer (userId : UserId) (serverId encryptedLaunchConfig : String) (started : Bool)
  | unconfigureServer (userId : UserId) (serverId : String)
  /-- the temporary servers of the session are started; `started` says for which this works -/
  | startSession (userId : UserId) (started : String → Bool)
  | endSession (session : Nat)
  | refreshUserInfo (session : Nat)
  | updateServer (serverId : String) (update : ServerUpdate)
  | refreshToken (userId : UserId) (serverId encryptedLaunchConfig : String)
  | sleepServer (userId : UserId) (serverId : String)
  | ensureServerAvailable (userId : UserId) (serverId : String) (started : Bool)
  | reconnectTemporaryServer (userId : UserId) (serverId : String) (started : Bool)
  | transportClosed (userId : UserId) (serverId : String)

namespace ServerRow

def isLazyStart (globalEnabled : Bool) (server : ServerRow) : Bool :=
  globalEnabled && server.lazyStartEnabled

/-- The categories whose config template, and launch config for user servers, UPDATE_SERVER may
    change. -/
def hasEditableConfigTemplate (server : ServerRow) : Bool :=
  server.category == .restApi || server.category == .customRemote ||
    server.category == .customStdio

end ServerRow

namespace ConfigState

def init (globalEnabled : Bool) (servers : Dict ServerRow) (users : Dict (Dict String)) :
    ConfigState :=
  ⟨globalEnabled, servers, users, .empty, .empty, .empty⟩

/-- The encrypted config stored for a server in the row of a user. -/
def storedConfig (s : ConfigState) (userId : UserId) (serverId : String) : Option String :=
  (s.users.get? userId.value).bind (·.get? serverId)

/-! ## Contexts -/

/-- How a start leaves the status. -/
def connect (s : ConfigState) (c : TemporaryContext) (started : Bool) : TemporaryContext :=
  match c.status with
  | .online | .connecting => c
  | .offline | .error | .sleeping =>
    { c with
      status :=
        if started then .online
        else if c.serverEntity.isLazyStart s.globalEnabled then .sleeping else .error }

def setContext (s : ConfigState) (c : TemporaryContext) : ConfigState :=
  { s with
    temporaryServers := s.temporaryServers.set (internalKey c.serverId c.userId.value) c }

/-- The context that `createTemporaryServer` leaves: one that exists gets the new entity. -/
def createdContext (s : ConfigState) (userId : UserId) (serverId : String)
    (serverEntity : ServerRow) (sleep started : Bool) : TemporaryContext :=
  let existing := s.temporaryServers.get? (internalKey serverId userId.value)
  let c : TemporaryContext :=
    ⟨serverId, userId, serverEntity, (existing.map (·.status)).getD .offline⟩
  if c.status = .online then c
  else if sleep && serverEntity.isLazyStart s.globalEnabled then { c with status := .sleeping }
  else s.connect c started

def createTemporaryServer (s : ConfigState) (userId : UserId) (serverId : String)
    (serverEntity : ServerRow) (sleep started : Bool) : ConfigState :=
  s.setContext (s.createdContext userId serverId serverEntity sleep started)

/-- The status of a context changes, its entity does not. -/
def setStatus (s : ConfigState) (userId : UserId) (serverId : String)
    (status : TemporaryContext → ServerStatus) : Option ConfigState :=
  let key := internalKey serverId userId.value
  (s.temporaryServers.get? key).map fun c =>
    { s with temporaryServers := s.temporaryServers.set key { c with status := status c } }

/-! ## Configuration -/

/-- `launchConfigs` of all sessions of a user are replaced. -/
def syncSessions (s : ConfigState) (userId : UserId) (launchConfigs : Dict String) :
    ConfigState :=
  { s with
    sessions := s.sessions.map fun session =>
      if session.userId = userId then { session with launchConfigs } else session }

/-- `UserRepository.updateLaunchConfigs` -/
def updateLaunchConfigs (s : ConfigState) (userId : UserId) (launchConfigs : Dict String) :
    ConfigState :=
  { s with users := s.users.set userId.value launchConfigs }

/-- `handleConfigureServer` -/
def configureServer (s : ConfigState) (userId : UserId)
    (serverId encryptedLaunchConfig : String) (started : Bool) : Option ConfigState := do
  let server ← s.servers.get? serverId
  let stored ← s.users.get? userId.value
  if server.allowUserInput && server.enabled then
    let launchConfigs := stored.set serverId encryptedLaunchConfig
    let s := (s.updateLaunchConfigs userId launchConfigs).syncSessions userId launchConfigs
    return s.createTemporaryServer userId serverId
      { server with launchConfig := encryptedLaunchConfig } false started
  else none

/-- `handleUnconfigureServer`: the copies of the sessions stay. -/
def unconfigureServer (s : ConfigState) (userId : UserId) (serverId : String) : Option ConfigState := do
  let stored ← s.users.get? userId.value
  match stored.get? serverId with
  | none => return s
  | some _ =>
    let s := { s with
      temporaryServers := s.temporaryServers.erase (internalKey serverId userId.value) }
    return s.updateLaunchConfigs userId (stored.erase serverId)

/-- What `updateUserLaunchConfig` writes for a context whose token was refreshed, if anything. -/
def persistedConfigs (s : ConfigState) (c : TemporaryContext) (encryptedLaunchConfig : String) :
    Option (Dict String) := do
  let stored ← s.users.get? c.userId.value
  let _ ← stored.get? c.serverId
  if c.serverEntity.usePetaOauthConfig then none
  else return stored.set c.serverId encryptedLaunchConfig

/-- `performTokenRefresh` with `updateUserLaunchConfig`: row and sessions get the config with the
    new tokens, the context keeps its entity. -/
def refreshToken (s : ConfigState) (userId : UserId) (serverId encryptedLaunchConfig : String) :
    Option ConfigState := do
  let c ← s.temporaryServers.get? (internalKey serverId userId.value)
  match s.persistedConfigs c encryptedLaunchConfig with
  | none => return s
  | some launchConfigs =>
    return (s.updateLaunchConfigs c.userId launchConfigs).syncSessions c.userId launchConfigs

/-! ## Sessions -/

/-- `startUserTemporaryServers` for one entry of `launchConfigs`. -/
def startTemporaryServer (started : String → Bool) (userId : UserId) (s : ConfigState)
    (entry : String × String) : ConfigState :=
  let (serverId, encryptedLaunchConfig) := entry
  let running := (s.temporaryServers.get? (internalKey serverId userId.value)).any fun c =>
    c.status == .online || c.status == .sleeping
  if running then s
  else
    match s.servers.get? serverId with
    | none => s
    | some server =>
      if server.allowUserInput then
        s.createTemporaryServer userId serverId
          { server with launchConfig := encryptedLaunchConfig } true (started serverId)
      else s

/-- A session begins with the user's row, and starts the user's servers. -/
def startSession (s : ConfigState) (userId : UserId) (started : String → Bool) :
    Option ConfigState := do
  let launchConfigs ← s.users.get? userId.value
  let s := { s with sessions := s.sessions.add ⟨userId, launchConfigs⟩ }
  return launchConfigs.entries.foldl (startTemporaryServer started userId) s

/-- A session ends; the servers of a user without sessions are closed. -/
def endSession (s : ConfigState) (session : Nat) : Option ConfigState := do
  let ended ← s.sessions.get? session
  let s := { s with sessions := s.sessions.erase session }
  if s.sessions.any fun _ other => other.userId == ended.userId then return s
  else
    let suffix := ":" ++ ended.userId.value
    return { s with
      temporaryServers := s.temporaryServers.filterKeyed fun key _ => !key.endsWith suffix }

/-- `refreshUserInfo` of the authentication middleware. -/
def refreshUserInfo (s : ConfigState) (session : Nat) : Option ConfigState := do
  let old ← s.sessions.get? session
  let launchConfigs ← s.users.get? old.userId.value
  return { s with sessions := s.sessions.put session { old with launchConfigs } }

/-- `getUserFirstSession` -/
def getUserFirstSession (s : ConfigState) (userId : UserId) : Option ConfigSession :=
  s.sessions.find? fun session => session.userId == userId

/-- The entity that `restoreTemporaryServerContext` makes a context with. -/
def restoredEntity (s : ConfigState) (userId : UserId) (serverId : String) : Option ServerRow := do
  let session ← s.getUserFirstSession userId
  let encryptedLaunchConfig ← session.launchConfigs.get? serverId
  let server ← s.servers.get? serverId
  if server.enabled && server.allowUserInput then
    return { server with launchConfig := encryptedLaunchConfig }
  else none

/-- The entity with which a call of `ensureServerAvailable` restores a context: there is neither
    a managed nor a temporary one. -/
def restores (s : ConfigState) (userId : UserId) (serverId : String) : Option ServerRow :=
  match s.managedServers.get? serverId,
    s.temporaryServers.get? (internalKey serverId userId.value) with
  | none, none => s.restoredEntity userId serverId
  | _, _ => none

/-- `ensureServerAvailable` for the user's server: a context is restored if need be, and woken up
    when lazy start applies to it. -/
def ensureServerAvailable (s : ConfigState) (userId : UserId) (serverId : String)
    (started : Bool) : Option ConfigState :=
  match s.restores userId serverId with
  | some serverEntity =>
    let lazy := serverEntity.isLazyStart s.globalEnabled
    let c : TemporaryContext :=
      ⟨serverId, userId, serverEntity, if lazy then .sleeping else .offline⟩
    some (s.setContext (if lazy then s.connect c started else c))
  | none =>
    if (s.managedServers.get? serverId).isSome then some s
    else
      s.setStatus userId serverId fun c =>
        if c.serverEntity.isLazyStart s.globalEnabled then (s.connect c started).status
        else c.status

/-! ## UPDATE_SERVER -/

/-- The row after an update, when the update is allowed. -/
def updatedRow (existing : ServerRow) (update : ServerUpdate) : Option ServerRow :=
  let launchConfig := update.launchConfig.getD existing.launchConfig
  if update.configTemplate.isSome ∧ !existing.hasEditableConfigTemplate then none
  else if launchConfig ≠ existing.launchConfig ∧ existing.allowUserInput ∧
      !existing.hasEditableConfigTemplate then none
  else
    some { existing with
      launchConfig
      configTemplate :=
        match update.configTemplate with
        | none => existing.configTemplate
        | some template =>
          if isBlank template || existing.configTemplate == some (trim template) then
            existing.configTemplate
          else some template
      lazyStartEnabled := update.lazyStartEnabled.getD existing.lazyStartEnabled
      enabled := update.enabled.getD existing.enabled }

/-- What `updateServerLaunchConfig` returns. It reads the row again, which has the new launch
    config already, so only a REST server with a managed context on another template is
    reconnected. -/
def launchConfigReconnected (s : ConfigState) (serverId : String) (server : ServerRow)
    (update : ServerUpdate) : Bool :=
  update.launchConfig.isSome && server.category == .restApi &&
    (s.managedServers.get? serverId).any fun entity =>
      entity.configTemplate != server.configTemplate

/-- The row that becomes the entity of all temporary contexts of the server, if any. -/
def replacesEntities (s : ConfigState) (serverId : String) (update : ServerUpdate) :
    Option ServerRow := do
  let existing ← s.servers.get? serverId
  let server ← updatedRow existing update
  if existing.enabled && server.enabled && existing.allowUserInput &&
      !s.launchConfigReconnected serverId server update then
    return server
  else none

/-- Lazy start is turned on by an update that `updateLazyStartEnabled` handles, which is one
    without a launch config. -/
def turnsOnLazyStart (existing server : ServerRow) (update : ServerUpdate) : Bool :=
  update.launchConfig.isNone && !existing.lazyStartEnabled && server.lazyStartEnabled

/-- `temporaryServer.serverEntity = server` for the contexts of the server, which are put to sleep
    without a connection when lazy start is turned on. The reconnections that follow when it is
    turned off are steps of their own. -/
def replaceEntities (s : ConfigState) (serverId : String) (server : ServerRow) (sleep : Bool) :
    ConfigState :=
  { s with
    temporaryServers := s.temporaryServers.map fun c =>
      if c.serverId = serverId then
        { c with
          serverEntity := server
          status :=
            if sleep && c.status != .online && c.status != .connecting then .sleeping
            else c.status }
      else c }

/-- `closeAllTemporaryServersByTemplate` -/
def closeAllTemporaryServersByTemplate (s : ConfigState) (serverId : String) : ConfigState :=
  { s with
    temporaryServers := s.temporaryServers.filterKeyed fun key _ =>
      !key.startsWith (serverId ++ ":") }

/-- The managed context after an update. -/
def updateManaged (s : ConfigState) (serverId : String) (existing server : ServerRow)
    (update : ServerUpdate) : ConfigState :=
  if existing.enabled && server.enabled then
    if s.launchConfigReconnected serverId server update ||
        (!existing.allowUserInput && ((s.managedServers.get? serverId).isSome ||
          (turnsOnLazyStart existing server update && server.isLazyStart s.globalEnabled))) then
      { s with managedServers := s.managedServers.set serverId server }
    else s
  else if existing.enabled && !server.enabled then
    if existing.allowUserInput then s
    else { s with managedServers := s.managedServers.erase serverId }
  else if !existing.enabled && server.enabled then
    { s with managedServers := s.managedServers.set serverId server }
  else s

/-- `handleUpdateServer` -/
def updateServer (s : ConfigState) (serverId : String) (update : ServerUpdate) :
    Option ConfigState := do
  let existing ← s.servers.get? serverId
  let server ← updatedRow existing update
  let contexts :=
    if existing.enabled && !server.enabled && existing.allowUserInput then
      s.closeAllTemporaryServersByTemplate serverId
    else
      match s.replacesEntities serverId update with
      | some server =>
        s.replaceEntities serverId server (turnsOnLazyStart existing server update)
      | none => s
  return { (s.updateManaged serverId existing server update) with
    servers := s.servers.set serverId server
    temporaryServers := contexts.temporaryServers }

/-! ## Steps -/

def step (s : ConfigState) : ConfigAction → Option ConfigState
  | .configureServer userId serverId encryptedLaunchConfig started =>
    s.configureServer userId serverId encryptedLaunchConfig started
  | .unconfigureServer userId serverId => s.unconfigureServer userId serverId
  | .startSession userId started => s.startSession userId started
  | .endSession session => s.endSession session
  | .refreshUserInfo session => s.refreshUserInfo session
  | .updateServer serverId update => s.updateServer serverId update
  | .refreshToken userId serverId encryptedLaunchConfig =>
    s.refreshToken userId serverId encryptedLaunchConfig
  | .sleepServer userId serverId => s.setStatus userId serverId fun _ => .sleeping
  | .ensureServerAvailable userId serverId started =>
    s.ensureServerAvailable userId serverId started
  -- the entity given is the one that the context has
  | .reconnectTemporaryServer userId serverId started =>
    s.setStatus userId serverId fun c => (s.connect { c with status := .offline } started).status
  | .transportClosed userId serverId => s.setStatus userId serverId fun c =>
    if c.serverEntity.isLazyStart s.globalEnabled && c.serverEntity.enabled then .sleeping
    else .error

end ConfigState

end PetaCore
