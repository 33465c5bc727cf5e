import PetaCore.Core.ServerManager
import PetaCore.ForStd.Json

/-!
# CapabilitiesService and the writers of capability configuration

A user's view of all servers (`getUserCapabilities`) and the user's own settings
(`handleSetCapabilities`), together with the other writers of the data they read: the
administrator's edits of servers and permissions, and the life of server contexts. The
view is built from the objects of the server contexts by reference, so the heap of these
objects is part of the state.
-/

namespace PetaCore

/-! ## Objects of a view -/

namespace ServerConfigCapabilities

/-- The entries that are not switched off; the others are deleted from the view. -/
def dropDisabled (h : Heap CapabilityConfig) (c : ServerConfigCapabilities Ref) :
    ServerConfigCapabilities Ref :=
  let keep := fun r => (h.read r).enabled != some false
  ⟨c.tools.filter keep, c.resources.filter keep, c.prompts.filter keep⟩

/-- The three loops that write overrides to the entries of a view. -/
def overrideAll (h : Heap CapabilityConfig) (c : ServerConfigCapabilities Ref)
    (f : CapabilityKind → CapabilityConfig → Option (CapabilityConfig → CapabilityConfig))
    (o : ServerConfigCapabilities CapabilityConfig) : Heap CapabilityConfig :=
  let h₁ := h.modifyAll c.tools (f .tool) o.tools.entries
  let h₂ := h₁.modifyAll c.resources (f .resource) o.resources.entries
  h₂.modifyAll c.prompts (f .prompt) o.prompts.entries

/-- The objects that `JSON.parse` makes of a stored configuration. -/
def parse (h : Heap CapabilityConfig) (c : ServerConfigCapabilities CapabilityConfig) :
    Heap CapabilityConfig × ServerConfigCapabilities Ref :=
  let (h₁, tools) := h.assignNew .empty c.tools.entries
  let (h₂, resources) := h₁.assignNew .empty c.resources.entries
  let (h₃, prompts) := h₂.assignNew .empty c.prompts.entries
  (h₃, ⟨tools, resources, prompts⟩)

end ServerConfigCapabilities

/-- What an override writes to an entry; only tools have a danger level. -/
def overrideEntry (kind : CapabilityKind) (o c : CapabilityConfig) : CapabilityConfig :=
  { c with
    enabled := o.enabled
    dangerLevel :=
      match kind with
      | .tool => some (o.dangerLevel.getD .silent)
      | .resource | .prompt => c.dangerLevel }

/-- The permission loops write where the permission has a boolean `enabled`. -/
def permissionOverride (kind : CapabilityKind) (o : CapabilityConfig) :
    Option (CapabilityConfig → CapabilityConfig) :=
  if o.enabled.isSome then some (overrideEntry kind o) else none

/-- The preference loops write for every entry. -/
def preferenceOverride (kind : CapabilityKind) (o : CapabilityConfig) :
    Option (CapabilityConfig → CapabilityConfig) :=
  some (overrideEntry kind o)

/-! ## State -/

/-- A row of the table `user`, with its JSON columns parsed. -/
structure User where
  permissions : Permissions
  userPreferences : Option Permissions
  launchConfigs : Dict String

/-- The tables `server` and `user`, the server contexts, the objects of their
    configurations and the counter for context ids. -/
structure CapabilityState where
  heap : Heap CapabilityConfig
  servers : Dict Server
  users : Dict User
  manager : ServerManager Ref
  nextId : Nat

namespace CapabilityState

def init : CapabilityState := ⟨[], .empty, .empty, .empty, 1⟩

/-- The server contexts with their configurations as they read now. -/
def view (s : CapabilityState) : ServerManager CapabilityConfig := s.manager.map s.heap.read

/-! ## getUserCapabilities -/

/-- Whether a server is enabled for a user by permission or public access. -/
def serverEnabled (user : User) (server : Server) : Bool :=
  ((user.permissions.get? server.serverId).bind (·.enabled)).getD server.publicAccess

/-- The context from which a user's view of a server is taken. -/
def viewContext {κ : Type} (m : ServerManager κ) (userId : String) (server : Server) :
    Option (ServerContext κ) :=
  if server.allowUserInput then m.getTemporaryServer server.serverId userId
  else m.getServerContext server.serverId none

/-- The capabilities of a server and its status, from its context or else from its row. -/
def mcpCapabilities (h : Heap CapabilityConfig) (m : ServerManager Ref) (userId : String)
    (server : Server) :
    Heap CapabilityConfig × ServerConfigCapabilities Ref × ServerStatus :=
  match viewContext m userId server with
  | some c =>
    let (h', caps) := c.getMcpCapabilities h
    (h', caps.toServerConfigCapabilities, c.status)
  | none =>
    let (h', caps) := server.capabilities.parse h
    (h', caps, .offline)

/-- One round of the loop of `getCapabilitiesFromDatabase`. -/
def serverCapabilities (h : Heap CapabilityConfig) (m : ServerManager Ref) (userId : String)
    (user : User) (server : Server) :
    Heap CapabilityConfig × ServerConfigWithEnabled Ref :=
  let (h₁, mcp, status) := mcpCapabilities h m userId server
  let caps := mcp.dropDisabled h₁
  let h₂ :=
    match user.permissions.get? server.serverId with
    | none => h₁
    | some perms => caps.overrideAll h₁ permissionOverride perms.toServerConfigCapabilities
  (h₂, {
    toServerConfigCapabilities := caps
    enabled := some (serverEnabled user server)
    serverName := server.serverName
    allowUserInput := server.allowUserInput
    authType := server.authType
    category := some server.category
    configTemplate :=
      if server.allowUserInput then server.configTemplate.getD "\x7b\x7d" else "\x7b\x7d"
    configured :=
      if server.allowUserInput then (user.launchConfigs.get? server.serverId).isSome else true
    status := some status })

/-- The loop of `getCapabilitiesFromDatabase`. -/
def collect (m : ServerManager Ref) (userId : String) (user : User)
    (h : Heap CapabilityConfig) (capabilities : Dict (ServerConfigWithEnabled Ref)) :
    List Server → Heap CapabilityConfig × Dict (ServerConfigWithEnabled Ref)
  | [] => (h, capabilities)
  | server :: servers =>
    let (h', caps) := serverCapabilities h m userId user server
    collect m userId user h' (capabilities.set server.serverId caps) servers

/-- `getCapabilitiesFromDatabase` -/
def getCapabilitiesFromDatabase (s : CapabilityState) (userId : String) (user : User) :
    Heap CapabilityConfig × Dict (ServerConfigWithEnabled Ref) :=
  collect s.manager userId user s.heap .empty (s.servers.values.filter (·.enabled))

/-- The last loop of `getUserCapabilities`, over the user's preferences. -/
def applyPreferences (h : Heap CapabilityConfig)
    (capabilities : Dict (ServerConfigWithEnabled Ref)) :
    List (String × ServerConfigWithEnabled CapabilityConfig) →
      Heap CapabilityConfig × Dict (ServerConfigWithEnabled Ref)
  | [] => (h, capabilities)
  | (serverId, prefs) :: l =>
    match capabilities.get? serverId with
    | none => applyPreferences h capabilities l
    | some caps =>
      applyPreferences
        (caps.overrideAll h preferenceOverride prefs.toServerConfigCapabilities)
        (capabilities.set serverId { caps with enabled := prefs.enabled }) l

/-- `getUserCapabilities`, which gives the view and leaves its writes in the heap. -/
def getUserCapabilities (s : CapabilityState) (userId : String) :
    CapabilityState × Dict (ServerConfigWithEnabled Ref) :=
  match s.users.get? userId with
  | none => (s, .empty)
  | some user =>
    let (h, all) := s.getCapabilitiesFromDatabase userId user
    let capabilities := (all.filter fun caps => caps.enabled != some false).map fun caps =>
      { caps with toServerConfigCapabilities := caps.dropDisabled h }
    let (h', capabilities) :=
      applyPreferences h capabilities (user.userPreferences.getD .empty).entries
    ({ s with heap := h' }, capabilities)

/-- The view of a user as a value. -/
def userView (s : CapabilityState) (userId : String) : Permissions :=
  let (s', capabilities) := s.getUserCapabilities userId
  capabilities.map (·.map s'.heap.read)

end CapabilityState

/-! ## handleSetCapabilities -/

/-- What a user submits for a tool, a resource or a prompt. -/
structure SubmittedEntry where
  enabled : Option Bool
  dangerLevel : Option Json

/-- What a user submits for a server. -/
structure SubmittedServer extends ServerConfigCapabilities SubmittedEntry where
  enabled : Option Bool

/-- `isValidDangerLevel`, with the level it accepts -/
def validDangerLevel : Json → Option DangerLevel
  | .num n =>
    if n = JsNumber.ofNat 0 then some .silent
    else if n = JsNumber.ofNat 1 then some .notification
    else if n = JsNumber.ofNat 2 then some .approval
    else none
  | _ => none

/-- An entry of the current view with what was submitted for it. -/
def submitEntry (kind : CapabilityKind) (submitted : Option SubmittedEntry)
    (current : CapabilityConfig) : CapabilityConfig :=
  match submitted with
  | none => current
  | some sub =>
    { current with
      enabled := match sub.enabled with | some b => some b | none => current.enabled
      dangerLevel :=
        match kind with
        | .tool =>
          match sub.dangerLevel.bind validDangerLevel with
          | some level => some level
          | none => current.dangerLevel
        | .resource | .prompt => current.dangerLevel }

/-- A server of the current view with what was submitted for it. -/
def submitServer (submitted : Option SubmittedServer)
    (current : ServerConfigWithEnabled CapabilityConfig) :
    ServerConfigWithEnabled CapabilityConfig :=
  match submitted with
  | none => current
  | some sub =>
    { current with
      enabled := match sub.enabled with | some b => some b | none => current.enabled
      tools := current.tools.mapKeyed fun name c => submitEntry .tool (sub.tools.get? name) c
      resources := current.resources.mapKeyed fun name c =>
        submitEntry .resource (sub.resources.get? name) c
      prompts := current.prompts.mapKeyed fun name c =>
        submitEntry .prompt (sub.prompts.get? name) c }

/-- Whether a submission has `dangerLevel: null` for a tool of the view, of which
    `toString` throws. -/
def submissionThrows (submitted : Dict SubmittedServer) (current : Permissions) : Bool :=
  current.entries.any fun e =>
    match submitted.get? e.1 with
    | none => false
    | some sub =>
      e.2.tools.entries.any fun t =>
        match (sub.tools.get? t.1).bind (·.dangerLevel) with
        | some .null => true
        | _ => false

/-- `extractEnabledFields`: a copy of the current view with the submitted fields -/
def extractEnabledFields (submitted : Dict SubmittedServer) (current : Permissions) :
    Option Permissions :=
  if submissionThrows submitted current then none
  else some (current.mapKeyed fun serverId c => submitServer (submitted.get? serverId) c)

/-- `handleSetCapabilities` -/
def CapabilityState.handleSetCapabilities (s : CapabilityState) (userId : String)
    (submitted : Dict SubmittedServer) : CapabilityState :=
  let s' := (s.getUserCapabilities userId).1
  match s'.users.get? userId, extractEnabledFields submitted (s.userView userId) with
  | some user, some prefs =>
    { s' with users := s'.users.set userId { user with userPreferences := some prefs } }
  | _, _ => s'

end PetaCore
