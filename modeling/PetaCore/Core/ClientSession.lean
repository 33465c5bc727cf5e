import PetaCore.Core.ServerManager

/-!
# ClientSession

What one session of a user may see and use: the checks on servers and on their tools,
resources and prompts, the lists shown to the client, and the names by which the client
refers to their items.
-/

namespace PetaCore

/-- `AuthContext`; `anonymous` is `kind === 'anonymous'`. -/
structure AuthContext where
  anonymous : Bool
  userId : String
  permissions : Permissions
  userPreferences : Permissions

/-- `ClientSession`, which is made for the user of its `authContext`. -/
structure ClientSession where
  authContext : AuthContext

/-- What `permissions` or `userPreferences` say about an item of a server. -/
def Permissions.itemEnabled (p : Permissions) (serverID : String) (kind : CapabilityKind)
    (name : String) : Option Bool :=
  ((p.get? serverID).bind fun perms => (perms.get kind).get? name).bind (·.enabled)

/-- What a context's configuration says about an item. -/
def ServerContext.configEnabled (c : ServerContext CapabilityConfig) (kind : CapabilityKind)
    (name : String) : Option Bool :=
  ((c.capabilitiesConfig.get kind).get? name).bind (·.enabled)

namespace ClientSession

def userId (s : ClientSession) : String := s.authContext.userId

def permissions (s : ClientSession) : Permissions := s.authContext.permissions

def userPreferences (s : ClientSession) : Permissions := s.authContext.userPreferences

/-! ## Permission checks -/

/-- The checks of `canAccessServer` on the context found for a server. -/
def canAccessServerContext (s : ClientSession) (serverID : String)
    (c : ServerContext CapabilityConfig) : Bool :=
  let isAnonymous := s.authContext.anonymous
  if !c.serverEntity.enabled then false
  else if c.status ≠ .online ∧ c.status ≠ .sleeping then false
  else if isAnonymous && !c.serverEntity.anonymousAccess then false
  else
    let serverPermsEnabled := ((s.permissions.get? serverID).bind (·.enabled)).getD
      (if isAnonymous then c.serverEntity.anonymousAccess else c.serverEntity.publicAccess)
    let userPreferencesEnabled := ((s.userPreferences.get? serverID).bind (·.enabled)).getD true
    if c.serverEntity.allowUserInput then
      if isAnonymous then false
      else if c.userId ≠ some s.userId then false
      else serverPermsEnabled && userPreferencesEnabled
    else serverPermsEnabled && userPreferencesEnabled

/-- `canAccessServer` -/
def canAccessServer (m : ServerManager CapabilityConfig) (s : ClientSession)
    (serverID : String) : Bool :=
  match m.getServerContext serverID (some s.userId) with
  | none => false
  | some c => s.canAccessServerContext serverID c

/-- `canAccessServerCapabilities` -/
def canAccessServerCapabilities (m : ServerManager CapabilityConfig) (s : ClientSession)
    (serverID : String) (type : CapabilityKind) (name : String) :
    Option (ServerContext CapabilityConfig) :=
  if !s.canAccessServer m serverID then none
  else
    match m.getServerContext serverID (some s.userId) with
    | none => none
    | some c =>
      if !c.serverEntity.enabled then none
      else if c.status ≠ .online ∧ c.status ≠ .sleeping then none
      else if (c.configEnabled type name).getD true then some c
      else none

/-- The three `can…ByServerContext` functions, which differ in the kind only. -/
def canUseByServerContext (kind : CapabilityKind) (s : ClientSession)
    (c : ServerContext CapabilityConfig) (name : String) : Bool :=
  let userPreferencesEnabled := (s.userPreferences.itemEnabled c.serverID kind name).getD true
  if c.serverEntity.allowUserInput then
    if c.userId ≠ some s.userId then false else userPreferencesEnabled
  else
    let serverPermsEnabled := (s.permissions.itemEnabled c.serverID kind name).getD true
    if !serverPermsEnabled then false else userPreferencesEnabled

/-- `canUseToolByServerContext` -/
def canUseToolByServerContext := canUseByServerContext .tool

/-- `canAccessResourceByServerContext` -/
def canAccessResourceByServerContext := canUseByServerContext .resource

/-- `canUsePromptByServerContext` -/
def canUsePromptByServerContext := canUseByServerContext .prompt

/-- The three checks of the call handlers, which differ in the kind only. -/
def canUse (kind : CapabilityKind) (m : ServerManager CapabilityConfig) (s : ClientSession)
    (serverID name : String) : Bool :=
  match s.canAccessServerCapabilities m serverID kind name with
  | none => false
  | some c => canUseByServerContext kind s c name

/-- `canUseTool` -/
def canUseTool := canUse .tool

/-- `canAccessResource` -/
def canAccessResource := canUse .resource

/-- `canUsePrompt` -/
def canUsePrompt := canUse .prompt

/-- `getDangerLevel`: the level in the user's preferences -/
def getDangerLevel (s : ClientSession) (serverID toolName : String) : Option DangerLevel :=
  ((s.userPreferences.get? serverID).bind fun prefs => prefs.tools.get? toolName).bind
    (·.dangerLevel)

/-! ## Servers -/

/-- `getAvailableServers` -/
def getAvailableServers (m : ServerManager CapabilityConfig) (s : ClientSession) :
    List (ServerContext CapabilityConfig) :=
  m.getAvailableServers.filter fun c => s.canAccessServer m c.serverID

/-- One round of the loop of `getServerCapabilities`. -/
def mergeCapabilities (merged : ServerCapabilities) (c : ServerContext CapabilityConfig) :
    ServerCapabilities :=
  match c.capabilities with
  | none => merged
  | some caps =>
    let prompts :=
      match caps.prompts with
      | none => merged.prompts
      | some p =>
        let current := merged.prompts.getD ⟨none⟩
        some (if p.listChanged = some true then { current with listChanged := some true }
          else current)
    let resources :=
      match caps.resources with
      | none => merged.resources
      | some r =>
        let current := merged.resources.getD ⟨none, none⟩
        let current :=
          if r.listChanged = some true then { current with listChanged := some true }
          else current
        some (if current.subscribe = none ∧ r.subscribe = some true then
          { current with subscribe := some true } else current)
    { prompts := prompts
      resources := resources
      completions := merged.completions || caps.completions
      logging := merged.logging || caps.logging }

/-- `getServerCapabilities`, less the constant `tools` -/
def getServerCapabilities (m : ServerManager CapabilityConfig) (s : ClientSession) :
    ServerCapabilities :=
  let merged := (s.getAvailableServers m).foldl mergeCapabilities ⟨none, none, false, false⟩
  { merged with resources := merged.resources.map fun r => { r with listChanged := some true } }

/-! ## Names -/

/-- `generateNewName` -/
def generateNewName (serverID name : String) : String := name ++ "_-_" ++ serverID

/-- What stands before and after the last occurrence of `_-_`. -/
def splitLast : List Char → Option (List Char × List Char)
  | [] => none
  | c :: cs =>
    match splitLast cs with
    | some (before, after) => some (c :: before, after)
    | none => if ['_', '-', '_'].isPrefixOf (c :: cs) then some ([], cs.drop 2) else none

/-- A server id and an item's own name. -/
structure GatewayRoute where
  serverID : String
  originalName : String
deriving DecidableEq

/-- `parseName` -/
def parseName (m : ServerManager CapabilityConfig) (s : ClientSession) (name : String) :
    Option GatewayRoute :=
  match splitLast name.toList with
  | none => none
  | some (before, after) =>
    let id := String.ofList after
    match (m.getServerContextByID id).or (m.getTemporaryServerContextByID id s.userId) with
    | none => none
    | some c => some ⟨c.serverID, String.ofList before⟩

/-! ## Lists -/

end ClientSession

namespace ServerContext

variable {κ : Type}

/-- The tools of a server: those of the connection, or else the cached ones. -/
def toolsData (c : ServerContext κ) : Option (List Tool) := c.lists.tools.or c.cached.tools

def resourcesData (c : ServerContext κ) : Option (List Resource) :=
  c.lists.resources.or c.cached.resources

def resourceTemplatesData (c : ServerContext κ) : Option (List ResourceTemplate) :=
  c.lists.resourceTemplates.or c.cached.resourceTemplates

def promptsData (c : ServerContext κ) : Option (List Prompt) := c.lists.prompts.or c.cached.prompts

end ServerContext

/-- A tool as it is listed to a client. -/
structure ListedTool where
  tool : Tool
  readonly : Bool
  destructiveHint : Bool
deriving DecidableEq

namespace ClientSession

/-- A tool under the gateway's name, with hints that follow its danger level. -/
def prefixTool (s : ClientSession) (c : ServerContext CapabilityConfig) (tool : Tool) :
    ListedTool :=
  let dangerLevel := (s.getDangerLevel c.serverID tool.name).or (c.getDangerLevel tool.name)
  let readonly := tool.readOnlyHint == some true
  let destructiveHint := tool.destructiveHint == some true
  let (readonly, destructiveHint) :=
    if destructiveHint = false ∧ dangerLevel = some .notification then (false, true)
    else if dangerLevel = some .silent then (true, false)
    else (readonly, destructiveHint)
  let uiResourceUri :=
    match tool.uiResourceUri with
    | none => none
    | some uri => if uri = "" then some uri else some (generateNewName c.id uri)
  { tool := { tool with name := generateNewName c.id tool.name, uiResourceUri := uiResourceUri }
    readonly := readonly
    destructiveHint := destructiveHint }

/-- `listTools` -/
def listTools (m : ServerManager CapabilityConfig) (s : ClientSession) : List ListedTool :=
  (s.getAvailableServers m).flatMap fun c =>
    ((c.toolsData.getD []).filter fun tool => s.canUseToolByServerContext c tool.name).map
      (s.prefixTool c)

/-- `listResources` -/
def listResources (m : ServerManager CapabilityConfig) (s : ClientSession) : List Resource :=
  (s.getAvailableServers m).flatMap fun c =>
    ((c.resourcesData.getD []).filter fun resource =>
      s.canAccessResourceByServerContext c resource.name).map fun resource =>
        { resource with uri := generateNewName c.id resource.uri }

/-- `listResourceTemplates` -/
def listResourceTemplates (m : ServerManager CapabilityConfig) (s : ClientSession) :
    List ResourceTemplate :=
  (s.getAvailableServers m).flatMap fun c =>
    ((c.resourceTemplatesData.getD []).filter fun template =>
      s.canAccessResourceByServerContext c template.name).map fun template =>
        { template with uriTemplate := generateNewName c.id template.uriTemplate }

/-- `listPrompts` -/
def listPrompts (m : ServerManager CapabilityConfig) (s : ClientSession) : List Prompt :=
  (s.getAvailableServers m).flatMap fun c =>
    ((c.promptsData.getD []).filter fun prompt =>
      s.canUsePromptByServerContext c prompt.name).map fun prompt =>
        { prompt with name := generateNewName c.id prompt.name }

/-! ## Resolving names -/

/-- The loop of `resolveToolName` and `resolveResourceUri`: the one candidate of all servers,
    `none` when there are two. -/
def resolveAmong (candidate : ServerContext CapabilityConfig → Option GatewayRoute) :
    Option GatewayRoute → List (ServerContext CapabilityConfig) → Option GatewayRoute
  | found, [] => found
  | found, c :: servers =>
    match candidate c with
    | none => resolveAmong candidate found servers
    | some route =>
      match found with
      | some _ => none
      | none => resolveAmong candidate (some route) servers

/-- `resolveToolName` -/
def resolveToolName (m : ServerManager CapabilityConfig) (s : ClientSession) (name : String) :
    Option GatewayRoute :=
  match s.parseName m name with
  | some parsed => some parsed
  | none =>
    resolveAmong (fun c =>
      match (c.toolsData.getD []).find? (·.name == name) with
      | none => none
      | some tool =>
        if s.canUseToolByServerContext c tool.name then some ⟨c.serverID, tool.name⟩ else none)
      none (s.getAvailableServers m)

/-- `resolveResourceUri` -/
def resolveResourceUri (m : ServerManager CapabilityConfig) (s : ClientSession) (uri : String) :
    Option GatewayRoute :=
  match s.parseName m uri with
  | some parsed => some parsed
  | none =>
    resolveAmong (fun c =>
      match (c.resourcesData.getD []).find? (·.uri == uri) with
      | none => none
      | some resource =>
        if s.canAccessResourceByServerContext c resource.name then
          some ⟨c.serverID, resource.uri⟩
        else none)
      none (s.getAvailableServers m)

end ClientSession

end PetaCore
