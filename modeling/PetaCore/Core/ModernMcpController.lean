import PetaCore.Core.ClientSession

/-!
# ModernMcpController

The permission checks of the sessionless endpoint, which are made on a server context and the
`authContext` of the request.
-/

namespace PetaCore

namespace ModernMcpController

/-- `canAccessServer` -/
def canAccessServer (authContext : AuthContext) (c : ServerContext CapabilityConfig) : Bool :=
  if !c.serverEntity.enabled then false
  else if c.status ≠ .online ∧ c.status ≠ .sleeping then false
  else if c.serverEntity.allowUserInput then false
  else
    let isAnonymous := authContext.anonymous
    if isAnonymous && !c.serverEntity.anonymousAccess then false
    else
      let serverPermsEnabled := ((authContext.permissions.get? c.serverID).bind (·.enabled)).getD
        (if isAnonymous then c.serverEntity.anonymousAccess else c.serverEntity.publicAccess)
      let userPreferencesEnabled :=
        ((authContext.userPreferences.get? c.serverID).bind (·.enabled)).getD true
      serverPermsEnabled && userPreferencesEnabled

/-- `getAvailableServers` -/
def getAvailableServers (m : ServerManager CapabilityConfig) (authContext : AuthContext) :
    List (ServerContext CapabilityConfig) :=
  m.getAvailableServers.filter (canAccessServer authContext)

/-- `canAccessCapability` -/
def canAccessCapability (authContext : AuthContext) (c : ServerContext CapabilityConfig)
    (type : CapabilityKind) (name : String) : Bool :=
  if !canAccessServer authContext c then false
  else if c.serverEntity.allowUserInput && c.userId != some authContext.userId then false
  else (c.configEnabled type name).getD true

/-- The three checks on an item, which differ in the kind only. -/
def canUse (kind : CapabilityKind) (authContext : AuthContext)
    (c : ServerContext CapabilityConfig) (name : String) : Bool :=
  if !canAccessCapability authContext c kind name then false
  else if !c.serverEntity.allowUserInput &&
      authContext.permissions.itemEnabled c.serverID kind name == some false then false
  else (authContext.userPreferences.itemEnabled c.serverID kind name).getD true

/-- `canUseTool` -/
def canUseTool := canUse .tool

/-- `canAccessResource` -/
def canAccessResource := canUse .resource

/-- `canUsePrompt` -/
def canUsePrompt := canUse .prompt

/-- The three checks by server id. -/
def canUseById (kind : CapabilityKind) (m : ServerManager CapabilityConfig)
    (authContext : AuthContext) (serverID name : String) : Bool :=
  match m.getServerContext serverID (some authContext.userId) with
  | none => false
  | some c => canUse kind authContext c name

/-- `canUseToolById` -/
def canUseToolById := canUseById .tool

/-- `canAccessResourceById` -/
def canAccessResourceById := canUseById .resource

/-- `canUsePromptById` -/
def canUsePromptById := canUseById .prompt

end ModernMcpController

end PetaCore
