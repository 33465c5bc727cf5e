import PetaCore.Core.CapabilitiesService

/-!
# Capability configuration shared by administrators, users and connections

The system in which administrators edit servers and permissions, server contexts come, load
their lists and go, and users read and set their capabilities. Each operation is one step.
-/

namespace PetaCore

/-- The operations of users: both build the user's view of all servers. -/
inductive CapabilityRead where
  | getUserCapabilities (userId : UserId)
  | handleSetCapabilities (userId : UserId) (submitted : Dict SubmittedServer)

/-- The user who reads. -/
def CapabilityRead.userId : CapabilityRead → UserId
  | .getUserCapabilities userId => userId
  | .handleSetCapabilities userId _ => userId

/-- The steps of the system. `refresh` stands for `updateStatus`, `updateCapabilities` and
    the updates of the four lists of a context, `userId` saying whose. -/
inductive CapabilityAction where
  | saveServer (server : Server)
  | deleteServer (serverId : String)
  | updateServerCapabilities (serverId : String)
      (newCapabilities : ServerConfigCapabilities CapabilityConfig)
  | createUser (userId : UserId) (permissions : Permissions)
  | updatePermissions (userId : UserId) (permissions : Permissions)
  | initializeManagedServerContext (serverId : String)
  | initializeTemporaryServerContext (serverId : String) (userId : UserId)
  | refresh (serverId : String) (userId : Option UserId) (status : ServerStatus)
      (capabilities : Option ServerCapabilities) (lists : ServerLists)
  | removeServer (serverId : String)
  | closeTemporaryServer (serverId : String) (userId : UserId)
  | read (r : CapabilityRead)

/-- `getUpdatedCapabilities`: the submitted entries on top of the stored ones -/
def getUpdatedCapabilities
    (newCapabilities oldCapabilities : ServerConfigCapabilities CapabilityConfig) :
    Option (ServerConfigCapabilities CapabilityConfig) :=
  if newCapabilities.tools.entries.isEmpty && newCapabilities.resources.entries.isEmpty &&
      newCapabilities.prompts.entries.isEmpty then none
  else some ⟨oldCapabilities.tools.assign newCapabilities.tools,
    oldCapabilities.resources.assign newCapabilities.resources,
    oldCapabilities.prompts.assign newCapabilities.prompts⟩

namespace ServerContext

/-- The constructor of `ServerContext`. -/
def new (h : Heap CapabilityConfig) (id : String) (server : Server) (userId : Option String) :
    Heap CapabilityConfig × ServerContext Ref :=
  let (h', config) := server.capabilities.parse h
  (h', {
    id := id
    serverID := server.serverId
    serverEntity := server
    status := .offline
    capabilities := none
    capabilitiesConfig := config
    lists := .none
    cached := server.cached
    userId := userId })

/-- `updateServerCapabilitiesConfig` of the manager for one context: nothing happens when
    the context has this configuration already. -/
def updateCapabilitiesConfig (h : Heap CapabilityConfig) (c : ServerContext Ref)
    (config : ServerConfigCapabilities CapabilityConfig) :
    Heap CapabilityConfig × ServerContext Ref :=
  if c.serverEntity.capabilities = config then (h, c)
  else
    let (h', parsed) := config.parse h
    (h', { c with
      serverEntity := { c.serverEntity with capabilities := config }
      capabilitiesConfig := parsed })

end ServerContext

namespace CapabilityState

/-- An operation of a user. -/
def runRead (s : CapabilityState) : CapabilityRead → CapabilityState
  | .getUserCapabilities userId => (s.getUserCapabilities userId.value).1
  | .handleSetCapabilities userId submitted => s.handleSetCapabilities userId.value submitted

/-- The dictionary a context is kept in after its entry under `key` was set up from `server`:
    a new context, or the old one with the row exchanged. -/
def initializeContext (s : CapabilityState) (contexts : Dict (ServerContext Ref)) (key : String)
    (server : Server) (userId : Option String) :
    Heap CapabilityConfig × Dict (ServerContext Ref) × Nat :=
  match contexts.get? key with
  | some c => (s.heap, contexts.set key { c with serverEntity := server }, s.nextId)
  | none =>
    let (h, c) := ServerContext.new s.heap (toString s.nextId) server userId
    (h, contexts.set key c, s.nextId + 1)

/-- One step; `none` when the operation fails. -/
def step (s : CapabilityState) : CapabilityAction → Option CapabilityState
  | .saveServer server =>
    match s.servers.get? server.serverId with
    | none => some { s with servers := s.servers.set server.serverId server }
    | some old =>
      -- an edit leaves `allowUserInput` alone and `capabilities` to their own operation
      let row :=
        { server with capabilities := old.capabilities, allowUserInput := old.allowUserInput }
      some { s with servers := s.servers.set server.serverId row }
  | .deleteServer serverId => some { s with servers := s.servers.erase serverId }
  | .updateServerCapabilities serverId newCapabilities => do
    let server ← s.servers.get? serverId
    match getUpdatedCapabilities newCapabilities server.capabilities with
    | none => return s
    | some config =>
      let s' := { s with servers := s.servers.set serverId { server with capabilities := config } }
      match s.manager.serverContexts.get? serverId with
      | none => return s'
      | some c =>
        let (h, c') := c.updateCapabilitiesConfig s.heap config
        return { s' with
          heap := h
          manager := { s.manager with
            serverContexts := s.manager.serverContexts.set serverId c' } }
  | .createUser userId permissions =>
    match s.users.get? userId.value with
    | some _ => none
    | none =>
      some { s with users := s.users.set userId.value ⟨permissions, some .empty, .empty⟩ }
  | .updatePermissions userId permissions => do
    let user ← s.users.get? userId.value
    return { s with users := s.users.set userId.value { user with permissions := permissions } }
  | .initializeManagedServerContext serverId => do
    let server ← s.servers.get? serverId
    let (h, contexts, nextId) :=
      s.initializeContext s.manager.serverContexts serverId server none
    return { s with
      heap := h
      manager := { s.manager with serverContexts := contexts }
      nextId := nextId }
  | .initializeTemporaryServerContext serverId userId => do
    let server ← s.servers.get? serverId
    let (h, contexts, nextId) := s.initializeContext s.manager.temporaryServers
      (internalKey serverId userId.value) server (some userId.value)
    return { s with
      heap := h
      manager := { s.manager with temporaryServers := contexts }
      nextId := nextId }
  | .refresh serverId none status capabilities lists => do
    let c ← s.manager.serverContexts.get? serverId
    let c' := { c with status := status, capabilities := capabilities, lists := lists }
    return { s with manager := { s.manager with
      serverContexts := s.manager.serverContexts.set serverId c' } }
  | .refresh serverId (some userId) status capabilities lists => do
    let c ← s.manager.getTemporaryServer serverId userId.value
    let c' := { c with status := status, capabilities := capabilities, lists := lists }
    return { s with manager := { s.manager with
      temporaryServers :=
        s.manager.temporaryServers.set (internalKey serverId userId.value) c' } }
  | .removeServer serverId =>
    some { s with manager := { s.manager with
      serverContexts := s.manager.serverContexts.erase serverId } }
  | .closeTemporaryServer serverId userId =>
    some { s with manager := { s.manager with
      temporaryServers :=
        s.manager.temporaryServers.erase (internalKey serverId userId.value) } }
  | .read r => some (s.runRead r)

end CapabilityState

end PetaCore
