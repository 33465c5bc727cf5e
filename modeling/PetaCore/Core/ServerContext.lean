import PetaCore.Core.Types
import PetaCore.ForStd.Heap

/-!
# ServerContext

The gateway's object for one downstream server: its database row, its status, the lists it
has announced and the administrator's capability configuration. The configuration is a
dictionary of objects for each kind of capability; `getMcpCapabilities` gives these objects
out, so a context is parametrised by what it holds for an entry: a reference in the running
gateway, the value itself where nothing is written.
-/

namespace PetaCore

/-! ## Configuration -/

/-- The kinds of capabilities. -/
inductive CapabilityKind where
  | tool
  | resource
  | prompt
deriving DecidableEq

/-- `ToolCapabilityConfig`; for resources and prompts `dangerLevel` is not used. -/
structure CapabilityConfig where
  enabled : Option Bool
  description : Option String
  dangerLevel : Option DangerLevel
deriving DecidableEq, Inhabited

/-- `ServerConfigCapabilities` -/
structure ServerConfigCapabilities (κ : Type) where
  tools : Dict κ
  resources : Dict κ
  prompts : Dict κ
deriving DecidableEq

namespace ServerConfigCapabilities

variable {κ κ' : Type}

def empty : ServerConfigCapabilities κ := ⟨.empty, .empty, .empty⟩

/-- The dictionary of one kind. -/
def get (c : ServerConfigCapabilities κ) : CapabilityKind → Dict κ
  | .tool => c.tools
  | .resource => c.resources
  | .prompt => c.prompts

def map (f : κ → κ') (c : ServerConfigCapabilities κ) : ServerConfigCapabilities κ' :=
  ⟨c.tools.map f, c.resources.map f, c.prompts.map f⟩

end ServerConfigCapabilities

/-- `ServerConfigWithEnabled`: one server of `Permissions` and `McpServerCapabilities` -/
structure ServerConfigWithEnabled (κ : Type) extends ServerConfigCapabilities κ where
  enabled : Option Bool
  serverName : String
  allowUserInput : Bool
  authType : Nat
  category : Option Nat
  configTemplate : String
  configured : Bool
  status : Option ServerStatus
deriving DecidableEq

/-- `ServerConfigWithEnabled` with every entry replaced. -/
def ServerConfigWithEnabled.map {κ κ' : Type} (f : κ → κ') (c : ServerConfigWithEnabled κ) :
    ServerConfigWithEnabled κ' :=
  { c with toServerConfigCapabilities := c.toServerConfigCapabilities.map f }

/-- `Permissions`, also `McpServerCapabilities` -/
abbrev Permissions := Dict (ServerConfigWithEnabled CapabilityConfig)

/-! ## What a server announces -/

/-- A tool: its name, description and annotations, and the URI of its MCP App view. -/
structure Tool where
  name : String
  description : Option String
  readOnlyHint : Option Bool
  destructiveHint : Option Bool
  uiResourceUri : Option String
deriving DecidableEq

structure Resource where
  name : String
  uri : String
  description : Option String
deriving DecidableEq

structure ResourceTemplate where
  name : String
  uriTemplate : String
  description : Option String
deriving DecidableEq

structure Prompt where
  name : String
  description : Option String
deriving DecidableEq

/-- `capabilities.prompts` of a server -/
structure PromptsCapability where
  listChanged : Option Bool
deriving DecidableEq

/-- `capabilities.resources` of a server -/
structure ResourcesCapability where
  listChanged : Option Bool
  subscribe : Option Bool
deriving DecidableEq

/-- The negotiated `ServerCapabilities`; of `completions` and `logging` only the presence
    counts. -/
structure ServerCapabilities where
  prompts : Option PromptsCapability
  resources : Option ResourcesCapability
  completions : Bool
  logging : Bool
deriving DecidableEq

/-- The lists of a server, each of them once it is known. -/
structure ServerLists where
  tools : Option (List Tool)
  resources : Option (List Resource)
  resourceTemplates : Option (List ResourceTemplate)
  prompts : Option (List Prompt)

namespace ServerLists

def none : ServerLists := ⟨Option.none, Option.none, Option.none, Option.none⟩

/-- Whether the list that decides about a kind of capability is known. -/
def isLoaded (l : ServerLists) : CapabilityKind → Bool
  | .tool => l.tools.isSome
  | .resource => l.resources.isSome
  | .prompt => l.prompts.isSome

end ServerLists

/-! ## Contexts -/

/-- A row of the table `server`, with `capabilities` and the cached lists parsed. -/
structure Server where
  serverId : String
  serverName : String
  enabled : Bool
  capabilities : ServerConfigCapabilities CapabilityConfig
  allowUserInput : Bool
  configTemplate : Option String
  authType : Nat
  category : Nat
  publicAccess : Bool
  anonymousAccess : Bool
  cached : ServerLists

/-- `ServerContext`. `lists` are the lists loaded from the connection, `cached` those
    preloaded from the database; only a temporary server has a `userId`. -/
structure ServerContext (κ : Type) where
  id : String
  serverID : String
  serverEntity : Server
  status : ServerStatus
  capabilities : Option ServerCapabilities
  capabilitiesConfig : ServerConfigCapabilities κ
  lists : ServerLists
  cached : ServerLists
  userId : Option String

namespace ServerContext

variable {κ κ' : Type}

def map (f : κ → κ') (c : ServerContext κ) : ServerContext κ' :=
  { c with capabilitiesConfig := c.capabilitiesConfig.map f }

/-- Whether the server is `Online` or `Sleeping`. -/
def isAvailable (c : ServerContext κ) : Bool :=
  c.status == .online || c.status == .sleeping

/-- `getDangerLevel` -/
def getDangerLevel (c : ServerContext CapabilityConfig) (toolName : String) :
    Option DangerLevel :=
  (c.capabilitiesConfig.tools.get? toolName).bind (·.dangerLevel)

/-! ### getMcpCapabilities -/

/-- The entry of a loaded tool. The level of the configuration counts when it is truthy,
    which `Silent` (0) is not. -/
def toolEntry (toolValue : Option CapabilityConfig) (tool : Tool) : CapabilityConfig where
  enabled := some ((toolValue.bind (·.enabled)).getD true)
  description := tool.description
  dangerLevel :=
    match toolValue.bind (·.dangerLevel) with
    | some .notification => some .notification
    | some .approval => some .approval
    | some .silent | none =>
      if tool.destructiveHint = some true then some .notification else some .silent

/-- The entry of a loaded resource, resource template or prompt. -/
def plainEntry (value : Option CapabilityConfig) (description : Option String) :
    CapabilityConfig where
  enabled := some ((value.bind (·.enabled)).getD true)
  description := description
  dangerLevel := none

/-- The entries that `getMcpCapabilities` makes for a kind whose list is loaded. -/
def loadedEntries (config : ServerConfigCapabilities CapabilityConfig) (lists : ServerLists) :
    CapabilityKind → List (String × CapabilityConfig)
  | .tool =>
    (lists.tools.getD []).map fun tool =>
      (tool.name, toolEntry (config.tools.get? tool.name) tool)
  | .resource =>
    ((lists.resources.getD []).map fun resource =>
      (resource.name, plainEntry (config.resources.get? resource.name) resource.description)) ++
    (lists.resourceTemplates.getD []).map fun template =>
      (template.name, plainEntry (config.resources.get? template.name) template.description)
  | .prompt =>
    (lists.prompts.getD []).map fun prompt =>
      (prompt.name, plainEntry (config.prompts.get? prompt.name) prompt.description)

/-- One kind of `getMcpCapabilities`: new objects when its list is loaded, else the objects
    of the configuration themselves (`Object.assign`). -/
def kindCapabilities (h : Heap CapabilityConfig) (c : ServerContext Ref)
    (kind : CapabilityKind) : Heap CapabilityConfig × Dict Ref :=
  if c.lists.isLoaded kind then
    h.assignNew .empty (loadedEntries (c.capabilitiesConfig.map h.read) c.lists kind)
  else (h, c.capabilitiesConfig.get kind)

/-- `getMcpCapabilities` -/
def getMcpCapabilities (h : Heap CapabilityConfig) (c : ServerContext Ref) :
    Heap CapabilityConfig × ServerConfigWithEnabled Ref :=
  let (h₁, tools) := c.kindCapabilities h .tool
  let (h₂, resources) := c.kindCapabilities h₁ .resource
  let (h₃, prompts) := c.kindCapabilities h₂ .prompt
  (h₃, {
    tools := tools
    resources := resources
    prompts := prompts
    enabled := some c.serverEntity.enabled
    serverName := c.serverEntity.serverName
    allowUserInput := c.serverEntity.allowUserInput
    authType := c.serverEntity.authType
    category := some c.serverEntity.category
    configTemplate := c.serverEntity.configTemplate.getD ""
    configured := true
    status := none })

end ServerContext

end PetaCore
