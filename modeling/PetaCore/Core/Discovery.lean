import Mathlib.Logic.Function.Basic
import PetaCore.Core.ProxySession

/-!
# Progressive disclosure

With an active discovery profile the client sees few tools directly and finds the others in the
catalog: the rules of the profile, the list of tools, the index of the catalog, its search, and the
check of a direct call. The digest of the action ids is a parameter.
-/

namespace PetaCore

/-- `DiscoveryMode` -/
inductive DiscoveryMode where
  | flat
  | hybrid
  | strict
deriving DecidableEq

/-- `DirectExposureRiskLevel` -/
inductive DirectExposureRiskLevel where
  | low
  | high
deriving DecidableEq

/-- `DiscoveryExposureRule` with its `match`. -/
structure ExposureRule where
  serverIds : Option (List String)
  riskLevels : Option (List DirectExposureRiskLevel)
  directCallable : Bool
deriving DecidableEq

/-- A discovery profile with the rules of its `config`. -/
structure DiscoveryProfile where
  enabled : Bool
  mode : DiscoveryMode
  directExposureRules : List ExposureRule

/-- `CATALOG_TOOL_NAMES` -/
inductive CatalogTool where
  | search
  | describe
  | execute
deriving DecidableEq

def CatalogTool.name : CatalogTool → String
  | search => "peta.catalog.search"
  | describe => "peta.catalog.describe"
  | execute => "peta.catalog.execute"

/-- `RESERVED_CATALOG_TOOLS`, in the order of `getCatalogToolDefinitions`. -/
def catalogTools : List CatalogTool := [.search, .describe, .execute]

namespace ExposureRule

/-- The server ids of a rule that count: none when one of them is empty. -/
def matchServerIds (rule : ExposureRule) : List String :=
  match rule.serverIds with
  | none => []
  | some ids => if ids.all (· != "") then ids else []

def matchRiskLevels (rule : ExposureRule) : List DirectExposureRiskLevel :=
  rule.riskLevels.getD []

/-- The conditions that a rule has, and whether they all hold. -/
def matched (rule : ExposureRule) (serverId : String)
    (riskLevel : Option DirectExposureRiskLevel) : Bool :=
  let hasCondition := !rule.matchServerIds.isEmpty || !rule.matchRiskLevels.isEmpty
  let serverMatched := rule.matchServerIds.isEmpty || rule.matchServerIds.contains serverId
  let riskMatched := rule.matchRiskLevels.isEmpty ||
    match riskLevel with
    | none => false
    | some level => rule.matchRiskLevels.contains level
  hasCondition && serverMatched && riskMatched

end ExposureRule

/-- `evaluateExposureRules`: the first rule that matches decides. -/
def evaluateExposureRules (rules : List ExposureRule) (serverId : String)
    (riskLevel : Option DirectExposureRiskLevel) (defaultValue : Bool) : Bool :=
  match rules with
  | [] => defaultValue
  | rule :: rules =>
    if rule.matched serverId riskLevel then rule.directCallable
    else evaluateExposureRules rules serverId riskLevel defaultValue

/-- `inferDiscoveryRiskLevel` of a tool's annotations -/
def inferDiscoveryRiskLevel (tool : Tool) : Option DirectExposureRiskLevel :=
  if tool.destructiveHint = some true then some .high
  else if tool.readOnlyHint = some true then some .low
  else none

/-! ## The catalog -/

/-- A row of the table `catalog_action`, found by its `actionId`. -/
structure CatalogAction where
  serverId : String
  originalName : String
  wireName : String
  displayName : String
  summary : String
  description : Option String
  riskLevel : Option DirectExposureRiskLevel
  enabled : Bool
deriving DecidableEq

/-- The table `catalog_action`; `actionId` is unique. -/
abbrev Catalog := Dict CatalogAction

namespace DiscoveryIndex

/-- The text that is hashed for an action id. -/
def actionText (serverId toolName : String) : String := serverId ++ "::" ++ toolName

/-- The `actionId` of a tool; `digest` is the truncated hash. -/
def actionId (digest : String → String) (serverId toolName : String) : String :=
  "ppd_" ++ digest (actionText serverId toolName)

/-- The tool's description, unless it is blank. -/
def summary (tool : Tool) : String :=
  match tool.description with
  | none => tool.name
  | some description => if isBlank description then tool.name else description

/-- `mapToolToCatalogAction`, less the id -/
def mapToolToCatalogAction (serverId : String) (tool : Tool) : CatalogAction :=
  { serverId := serverId
    originalName := tool.name
    wireName := tool.name ++ "_-_" ++ serverId
    displayName := serverId ++ "." ++ tool.name
    summary := summary tool
    description := tool.description
    riskLevel := inferDiscoveryRiskLevel tool
    enabled := true }

/-- The rows of a tool list with their ids. -/
def mapTools (digest : String → String) (serverId : String) (tools : List Tool) :
    List (String × CatalogAction) :=
  tools.map fun tool => (actionId digest serverId tool.name, mapToolToCatalogAction serverId tool)

end DiscoveryIndex

/-! ## Search -/

/-- What a search meets: the servers it may look at, what the repository found among their rows,
    and how it ranks and cuts it. -/
structure CatalogSearch where
  query : String
  serverIds : List String
  scanned : List (String × CatalogAction)
  scannedServers : ∀ e ∈ scanned, e.2.serverId ∈ serverIds
  directCallableOnly : Bool
  rank : CatalogAction → Nat
  offset : Nat
  limit : Option Nat

/-- `CatalogSearchResultItem` -/
structure CatalogSearchResultItem where
  actionId : String
  displayName : String
  summary : String
  serverId : String
  riskLevel : Option DirectExposureRiskLevel
  directCallable : Bool
deriving DecidableEq

namespace Discovery

open ClientSession (GatewayRoute)

/-- `isToolEnabledForUser`, given `User.permissions`. The column is the text of a JSON object and
    not a record, and what is not a record allows everything. -/
def isToolEnabledForUser (permissions : Json) (serverId toolName : String) : Bool :=
  match permissions with
  | .obj entries =>
    match entries.lookup serverId with
    | some (.obj serverPerms) =>
      match serverPerms.lookup "tools" with
      | some (.obj tools) =>
        match tools.lookup toolName with
        | some (.obj toolPerm) =>
          match toolPerm.lookup "enabled" with
          | some (.bool enabled) => enabled
          | _ => true
        | _ => true
      | _ => true
    | _ => true
  | _ => true

/-- The rules' answer for a row. -/
def directCallable (rules : List ExposureRule) (action : CatalogAction) : Bool :=
  evaluateExposureRules rules action.serverId action.riskLevel false

/-- A row as it is reported. -/
def resultItem (rules : List ExposureRule) (e : String × CatalogAction) :
    CatalogSearchResultItem :=
  { actionId := e.1
    displayName := e.2.displayName
    summary := e.2.summary
    serverId := e.2.serverId
    riskLevel := e.2.riskLevel
    directCallable := directCallable rules e.2 }

/-- `search` under a profile's rules; `permissionsText` is `User.permissions`. -/
def search (m : ServerManager CapabilityConfig) (s : ClientSession) (permissionsText : String)
    (rules : List ExposureRule) (input : CatalogSearch) : List CatalogSearchResultItem :=
  if isBlank input.query || input.serverIds.isEmpty then []
  else
    let toolPermissionFiltered := input.scanned.filter fun e =>
      isToolEnabledForUser (.str permissionsText) e.2.serverId e.2.originalName
    let callbackFiltered := toolPermissionFiltered.filter fun e =>
      s.canUseTool m e.2.serverId e.2.originalName
    let filtered :=
      if input.directCallableOnly then callbackFiltered.filter fun e => directCallable rules e.2
      else callbackFiltered
    let ranked := filtered.mergeSort fun a b => decide (input.rank b.2 ≤ input.rank a.2)
    let limit := min (max (input.limit.getD 10) 1) 25
    ((ranked.drop input.offset).take limit).map (resultItem rules)

/-! ## Lists and calls -/

/-- A tool of a server or of the catalog. -/
inductive ToolsListItem where
  | server (tool : ListedTool)
  | catalog (tool : CatalogTool)
deriving DecidableEq

/-- Whether a tool belongs to a server of which there is a temporary context. -/
def isTemporary (m : ServerManager CapabilityConfig) (s : ClientSession) (tool : ListedTool) :
    Bool :=
  match s.parseName m tool.tool.name with
  | none => false
  | some parsed =>
    (m.getAvailableServersFromTemporaryServers.map (·.serverID)).contains parsed.serverID

/-- Whether the rules expose a tool that is listed. -/
def isExposed (m : ServerManager CapabilityConfig) (s : ClientSession)
    (rules : List ExposureRule) (tool : ListedTool) : Bool :=
  match s.parseName m tool.tool.name with
  | none => false
  | some parsed =>
    evaluateExposureRules rules parsed.serverID (inferDiscoveryRiskLevel tool.tool) false

/-- `handleToolsList` -/
def handleToolsList (m : ServerManager CapabilityConfig) (s : ClientSession)
    (profile : Option DiscoveryProfile) : List ToolsListItem :=
  let allTools := s.listTools m
  let catalogToolDefs := catalogTools.map ToolsListItem.catalog
  match profile with
  | none => allTools.map .server
  | some profile =>
    if profile.enabled then
      let temporaryTools := (allTools.filter (isTemporary m s)).map ToolsListItem.server
      let catalogScopedTools := allTools.filter fun tool => !isTemporary m s tool
      match profile.mode with
      | .flat => allTools.map .server
      | .strict => temporaryTools ++ catalogToolDefs
      | .hybrid =>
        let filteredCatalogTools :=
          catalogScopedTools.filter (isExposed m s profile.directExposureRules)
        filteredCatalogTools.map .server ++ temporaryTools ++ catalogToolDefs
    else allTools.map .server

/-- `handleToolCall` up to the checks on the request: what it calls. -/
inductive AcceptedCall where
  | catalog (tool : CatalogTool)
  | tool (route : GatewayRoute)
deriving DecidableEq

/-- The checks of `handleToolCall`. -/
def acceptToolCall (m : ServerManager CapabilityConfig) (s : ClientSession)
    (profile : Option DiscoveryProfile) (toolName : String) : Option AcceptedCall :=
  let ppdActive : Bool :=
    match profile with
    | none => false
    | some profile => profile.enabled && profile.mode != .flat
  let reserved := if ppdActive then catalogTools.find? (·.name == toolName) else none
  match reserved with
  | some tool => some (.catalog tool)
  | none =>
    match s.resolveToolName m toolName with
    | none => none
    | some result =>
      if s.canUseTool m result.serverID result.originalName then some (.tool result) else none

end Discovery

/-! ## Rebuilds -/

namespace CatalogActionRepository

/-- `bulkUpsert`, which is one transaction -/
def bulkUpsert (catalog : Catalog) (actions : List (String × CatalogAction)) : Catalog :=
  catalog.setAll actions

/-- `deleteByServerId` -/
def deleteByServerId (catalog : Catalog) (serverId : String) : Catalog :=
  catalog.filterKeyed fun _ action => action.serverId != serverId

/-- `deleteByServerIdExcept` -/
def deleteByServerIdExcept (catalog : Catalog) (serverId : String) (keepActionIds : List String) :
    Catalog :=
  if keepActionIds.isEmpty then deleteByServerId catalog serverId
  else catalog.filterKeyed fun actionId action =>
    action.serverId != serverId || keepActionIds.contains actionId

end CatalogActionRepository

/-- What `rebuildForServer` finds of a server's tools: no context, or a context that has not loaded
    them yet, or the list. -/
inductive ToolsRead where
  | noContext
  | notLoaded
  | loaded (tools : List Tool)

/-- How far a rebuild is with its calls of the repository. -/
inductive RebuildStage where
  | started
  | upserted
  | finished
deriving DecidableEq

/-- A call of `rebuildForServer` with the tools that it has read. -/
structure Rebuild where
  serverId : String
  tools : List Tool
  stage : RebuildStage
deriving DecidableEq

/-- The catalog, and the rebuilds in the order of their starts. -/
structure IndexState where
  catalog : Catalog
  rebuilds : List Rebuild

/-- A rebuild starts, or makes one of its calls. -/
inductive IndexAction where
  | start (serverId : String) (read : ToolsRead)
  | bulkUpsert (k : Nat)
  | deleteByServerIdExcept (k : Nat)

namespace IndexState

/-- A rebuild has made a call. -/
def withCall (st : IndexState) (k : Nat) (rebuild : Rebuild) (stage : RebuildStage)
    (catalog : Catalog) : IndexState :=
  ⟨catalog, st.rebuilds.set k { rebuild with stage := stage }⟩

/-- `rebuildForServer` up to its next call of the repository. -/
def step (digest : String → String) (st : IndexState) : IndexAction → Option IndexState
  | .start serverId read =>
    match read with
    -- without a context the rows are deleted, as for an empty list
    | .noContext => some { st with rebuilds := st.rebuilds ++ [⟨serverId, [], .started⟩] }
    | .notLoaded => some st
    | .loaded tools => some { st with rebuilds := st.rebuilds ++ [⟨serverId, tools, .started⟩] }
  | .bulkUpsert k => do
    let rebuild ← st.rebuilds[k]?
    if rebuild.stage = .started ∧ rebuild.tools ≠ [] then
      some (st.withCall k rebuild .upserted (CatalogActionRepository.bulkUpsert st.catalog
        (DiscoveryIndex.mapTools digest rebuild.serverId rebuild.tools)))
    else
      none
  | .deleteByServerIdExcept k => do
    let rebuild ← st.rebuilds[k]?
    -- an empty list is not upserted
    if rebuild.stage = .upserted ∨ (rebuild.stage = .started ∧ rebuild.tools = []) then
      some (st.withCall k rebuild .finished (CatalogActionRepository.deleteByServerIdExcept
        st.catalog rebuild.serverId
        ((DiscoveryIndex.mapTools digest rebuild.serverId rebuild.tools).map Prod.fst)))
    else
      none

end IndexState

end PetaCore
