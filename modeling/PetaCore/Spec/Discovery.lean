import PetaCore.Core.Discovery
import PetaCore.Spec.ClientSession

/-!
# What progressive disclosure shows and lets through

The list, the search and the call of a managed server's tool. The list and the search ask the same
rules about the same risk level; but the list hides every tool in `STRICT` mode, the search does
not look at the mode, and the call asks nobody.

## Key results

- `disclosure_agrees_iff`: the three agree exactly for a tool that the rules expose and the list
  shows
- `hidden_tool_accepted`: a tool that is listed nowhere and can be called
-/

namespace PetaCore

open Run ClientSession Discovery CapabilityState

/-! ## One tool -/

section Tool

variable {m : ServerManager CapabilityConfig} {nextId : Nat} {s : ClientSession}
  {serverID : String} {c : ServerContext CapabilityConfig} {tool : Tool}

theorem parseName_prefixTool (hm : ContextsOk m nextId)
    (hc : m.serverContexts.get? serverID = some c) (s : ClientSession) (tool : Tool) :
    s.parseName m (s.prefixTool c tool).tool.name = some ⟨serverID, tool.name⟩ := by
  have hserver : c.serverID = serverID := (hm.placed (true, serverID) c hc).1
  have hparse := hm.parseName_generateNewName (l := (true, serverID)) (s := s) hc (.inl rfl)
    tool.name
  rw [hserver] at hparse
  exact hparse

/-- A tool that the session may use is in its list. -/
theorem prefixTool_mem_listTools (hm : ContextsOk m nextId)
    (hc : m.serverContexts.get? serverID = some c) (htool : tool ∈ c.toolsData.getD [])
    (hcan : s.canUseTool m serverID tool.name = true) : s.prefixTool c tool ∈ s.listTools m := by
  have hget : m.getServerContext serverID (some s.userId) = some c := by
    simp [ServerManager.getServerContext, hc]
  have hserver : c.serverID = serverID := (hm.placed (true, serverID) c hc).1
  have hown : OwnContext m s serverID c := ⟨hserver, (true, serverID), hc, .inl rfl⟩
  have haccess := canAccessServer_of_canUse hcan
  have havailable : c.isAvailable = true :=
    (enabled_of_canAccess ((canAccessServer_of_context hget).symm.trans haccess)).2
  unfold canUseTool at hcan
  rw [canUse_eq .tool hget] at hcan
  simp only [Bool.and_eq_true] at hcan
  unfold listTools
  rw [List.mem_flatMap]
  refine ⟨c, hown.mem_getAvailableServers havailable haccess, ?_⟩
  exact List.mem_map_of_mem (List.mem_filter.mpr ⟨htool, hcan.2⟩)

/-- The tool's server is also among the temporary ones. -/
def servedTemporarily (m : ServerManager CapabilityConfig) (serverID : String) : Bool :=
  (m.getAvailableServersFromTemporaryServers.map (·.serverID)).contains serverID

theorem isTemporary_prefixTool (hm : ContextsOk m nextId)
    (hc : m.serverContexts.get? serverID = some c) :
    isTemporary m s (s.prefixTool c tool) = servedTemporarily m serverID := by
  unfold isTemporary
  rw [parseName_prefixTool hm hc s tool]
  rfl

/-- The rules' answer for a tool of a server. -/
def exposes (rules : List ExposureRule) (serverID : String) (tool : Tool) : Bool :=
  evaluateExposureRules rules serverID (inferDiscoveryRiskLevel tool) false

theorem isExposed_prefixTool (hm : ContextsOk m nextId)
    (hc : m.serverContexts.get? serverID = some c) (rules : List ExposureRule) :
    isExposed m s rules (s.prefixTool c tool) = exposes rules serverID tool := by
  unfold isExposed
  rw [parseName_prefixTool hm hc s tool]
  rfl

/-! ## The three decisions -/

/-- The list shows the tool. -/
def ListedDirectly (m : ServerManager CapabilityConfig) (s : ClientSession)
    (profile : DiscoveryProfile) (c : ServerContext CapabilityConfig) (tool : Tool) : Prop :=
  ToolsListItem.server (s.prefixTool c tool) ∈ handleToolsList m s (some profile)

/-- A call of the tool under its listed name passes the checks. -/
def AcceptedDirectly (m : ServerManager CapabilityConfig) (s : ClientSession)
    (profile : DiscoveryProfile) (serverID : String) (c : ServerContext CapabilityConfig)
    (tool : Tool) : Prop :=
  acceptToolCall m s (some profile) (s.prefixTool c tool).tool.name =
    some (.tool ⟨serverID, tool.name⟩)

theorem mem_map_server {tools : List ListedTool} {tool : ListedTool} :
    ToolsListItem.server tool ∈ tools.map ToolsListItem.server ↔ tool ∈ tools := by
  rw [List.mem_map]
  constructor
  · intro h
    obtain ⟨tool', hmem, heq⟩ := h
    rw [← ToolsListItem.server.inj heq]
    exact hmem
  · intro h
    exact ⟨tool, h, rfl⟩

theorem server_notMem_catalog {tool : ListedTool} :
    ToolsListItem.server tool ∉ catalogTools.map ToolsListItem.catalog := by
  intro h
  obtain ⟨_, _, heq⟩ := List.mem_map.mp h
  cases heq

/-- What decides about the list. -/
theorem listedDirectly_iff (hm : ContextsOk m nextId)
    (hc : m.serverContexts.get? serverID = some c) (htool : tool ∈ c.toolsData.getD [])
    (hcan : s.canUseTool m serverID tool.name = true) {profile : DiscoveryProfile}
    (henabled : profile.enabled = true) (hmode : profile.mode ≠ .flat) :
    ListedDirectly m s profile c tool ↔
      servedTemporarily m serverID = true ∨
        (profile.mode = .hybrid ∧ exposes profile.directExposureRules serverID tool = true) := by
  have hlist := prefixTool_mem_listTools hm hc htool hcan
  have htemporary : ToolsListItem.server (s.prefixTool c tool) ∈
      ((s.listTools m).filter (isTemporary m s)).map ToolsListItem.server ↔
        servedTemporarily m serverID = true := by
    rw [mem_map_server, List.mem_filter, isTemporary_prefixTool hm hc]
    exact and_iff_right hlist
  unfold ListedDirectly handleToolsList
  simp only [henabled, if_true]
  cases hcase : profile.mode with
  | flat => exact absurd hcase hmode
  | strict =>
    simp only [List.mem_append, htemporary, server_notMem_catalog, or_false, reduceCtorEq,
      false_and]
  | hybrid =>
    simp only [List.mem_append, htemporary, server_notMem_catalog, or_false, true_and]
    rw [mem_map_server, List.mem_filter, List.mem_filter, isTemporary_prefixTool hm hc,
      isExposed_prefixTool hm hc]
    cases servedTemporarily m serverID with
    | true => simp
    | false => simp [hlist]

/-- A listed name is no name of the catalog. -/
theorem find?_catalogTools_generateNewName (id name : String) :
    catalogTools.find? (·.name == generateNewName id name) = none := by
  rw [List.find?_eq_none]
  intro t ht heq
  have hname := eq_of_beq heq
  have hmem : '_' ∈ t.name.toList := by
    rw [hname, generateNewName, String.toList_append, String.toList_append]
    simp
  cases t with
  | search | describe | execute => exact absurd hmem (by decide)

/-- Every tool that the session may use is accepted. -/
theorem acceptedDirectly (hm : ContextsOk m nextId)
    (hc : m.serverContexts.get? serverID = some c)
    (hcan : s.canUseTool m serverID tool.name = true) (profile : DiscoveryProfile) :
    AcceptedDirectly m s profile serverID c tool := by
  have hparse := parseName_prefixTool hm hc s tool
  have hcatalog : catalogTools.find? (·.name == (s.prefixTool c tool).tool.name) = none :=
    find?_catalogTools_generateNewName c.id tool.name
  unfold AcceptedDirectly acceptToolCall resolveToolName
  simp [hcatalog, hparse, hcan]

/-! ## Search -/

/-- What is reported about a row is what the rules say about it. -/
theorem mem_search {permissionsText : String} {rules : List ExposureRule} {input : CatalogSearch}
    {item : CatalogSearchResultItem} (h : item ∈ search m s permissionsText rules input) :
    ∃ e ∈ input.scanned, item = resultItem rules e := by
  unfold search at h
  split at h
  · cases h
  · obtain ⟨e, he, rfl⟩ := List.mem_map.mp h
    have hranked := List.mem_of_mem_drop (List.mem_of_mem_take he)
    rw [List.mem_mergeSort] at hranked
    refine ⟨e, ?_, rfl⟩
    split at hranked
    · exact (List.mem_filter.mp (List.mem_filter.mp (List.mem_filter.mp hranked).1).1).1
    · exact (List.mem_filter.mp (List.mem_filter.mp hranked).1).1

/-- A search that finds one row reports it to a session that may use the tool. -/
theorem resultItem_mem_search (permissionsText : String) (rules : List ExposureRule)
    (id : String) {action : CatalogAction}
    (hcan : s.canUseTool m action.serverId action.originalName = true) :
    resultItem rules (id, action) ∈ search m s permissionsText rules
      { query := "tool"
        serverIds := [action.serverId]
        scanned := [(id, action)]
        scannedServers := by simp
        directCallableOnly := false
        rank := fun _ => 0
        offset := 0
        limit := none } := by
  have hquery : isBlank "tool" = false := by decide
  simp [search, hquery, isToolEnabledForUser, hcan]

end Tool

/-! ## Agreement -/

/-- The repository only finds rows of the catalog. -/
def CatalogSearch.Of (input : CatalogSearch) (catalog : Catalog) : Prop :=
  ∀ e ∈ input.scanned, catalog.get? e.1 = some e.2

/-- The list, the search and the call decide the same about a tool. -/
structure DisclosureAgrees (digest : String → String) (catalog : Catalog)
    (m : ServerManager CapabilityConfig) (s : ClientSession) (permissionsText : String)
    (profile : DiscoveryProfile) (serverID : String) (c : ServerContext CapabilityConfig)
    (tool : Tool) : Prop where
  search : ∀ input : CatalogSearch, input.Of catalog →
    ∀ item ∈ search m s permissionsText profile.directExposureRules input,
      item.actionId = DiscoveryIndex.actionId digest serverID tool.name →
        (ListedDirectly m s profile c tool ↔ item.directCallable = true)
  call : ListedDirectly m s profile c tool ↔ AcceptedDirectly m s profile serverID c tool

/-- The row of a tool has the rules' answer for the tool. -/
theorem directCallable_mapToolToCatalogAction (rules : List ExposureRule) (serverID : String)
    (tool : Tool) :
    directCallable rules (DiscoveryIndex.mapToolToCatalogAction serverID tool) =
      exposes rules serverID tool := rfl

/-- In every state that is reached, for every tool of a managed server that a session may use and
    that is in the catalog as it is now: the list, the search and the call agree about the tool
    exactly when the rules expose it and the list looks at the rules or shows it for the sake of a
    temporary server with the same id. -/
theorem disclosure_agrees_iff {trs : List (Transition CapabilityState CapabilityAction)}
    {st : CapabilityState} (hrun : IsRun CapabilityState.step CapabilityState.init trs st)
    {s : ClientSession} {serverID : String} {c : ServerContext CapabilityConfig}
    (hc : st.view.serverContexts.get? serverID = some c) {tool : Tool}
    (htool : tool ∈ c.toolsData.getD [])
    (hcan : s.canUseTool st.view serverID tool.name = true) {profile : DiscoveryProfile}
    (henabled : profile.enabled = true) (hmode : profile.mode ≠ .flat)
    {digest : String → String} {catalog : Catalog}
    (hindexed : catalog.get? (DiscoveryIndex.actionId digest serverID tool.name) =
      some (DiscoveryIndex.mapToolToCatalogAction serverID tool)) (permissionsText : String) :
    DisclosureAgrees digest catalog st.view s permissionsText profile serverID c tool ↔
      exposes profile.directExposureRules serverID tool = true ∧
        (profile.mode = .hybrid ∨ servedTemporarily st.view serverID = true) := by
  have hm := contextsOk_of_run hrun
  have hlisted := listedDirectly_iff hm hc htool hcan henabled hmode
  have haccepted := acceptedDirectly hm hc hcan profile
  constructor
  · intro h
    have hlist := h.call.mpr haccepted
    have hcanRow : s.canUseTool st.view
        (DiscoveryIndex.mapToolToCatalogAction serverID tool).serverId
        (DiscoveryIndex.mapToolToCatalogAction serverID tool).originalName = true := hcan
    have hreported := resultItem_mem_search permissionsText profile.directExposureRules
      (DiscoveryIndex.actionId digest serverID tool.name) hcanRow
    have hdirect := (h.search _ (by simpa [CatalogSearch.Of] using hindexed) _ hreported rfl).mp
      hlist
    refine ⟨hdirect, ?_⟩
    cases hlisted.mp hlist with
    | inl htemporary => exact .inr htemporary
    | inr hhybrid => exact .inl hhybrid.1
  · intro h
    have hlist : ListedDirectly st.view s profile c tool := by
      apply hlisted.mpr
      cases h.2 with
      | inl hhybrid => exact .inr ⟨hhybrid, h.1⟩
      | inr htemporary => exact .inl htemporary
    refine ⟨?_, iff_of_true hlist haccepted⟩
    intro input hof item hitem hid
    obtain ⟨e, he, rfl⟩ := mem_search hitem
    have hrow := hof e he
    -- the row with the tool's id is the tool's
    rw [show e.1 = DiscoveryIndex.actionId digest serverID tool.name from hid, hindexed] at hrow
    have hdirect : directCallable profile.directExposureRules e.2 = true := by
      rw [← Option.some.inj hrow, directCallable_mapToolToCatalogAction]
      exact h.1
    exact iff_of_true hlist hdirect

/-! ### A tool of a shared server -/

/-- A profile with a rule that exposes the shared server. -/
def filesExposed : DiscoveryProfile := ⟨true, .hybrid, [⟨some ["files"], none, true⟩]⟩

/-- The catalog with the server's one tool. -/
def filesCatalog : Catalog :=
  Dict.empty.set (DiscoveryIndex.actionId id "files" "purge")
    (DiscoveryIndex.mapToolToCatalogAction "files" purgeTool)

/-- The server is shared, and its tool may be used. -/
theorem exists_shared_tool : ∃ st c,
    exec CapabilityState.step CapabilityState.init (shareFiles filesLists) = some st ∧
      st.view.serverContexts.get? "files" = some c ∧ purgeTool ∈ c.toolsData.getD [] ∧
      bobSession.canUseTool st.view "files" "purge" = true ∧
      servedTemporarily st.view "files" = false := by
  have hobs : (exec CapabilityState.step CapabilityState.init (shareFiles filesLists)).map
      (fun st => ((st.view.serverContexts.get? "files").map fun c =>
        decide (purgeTool ∈ c.toolsData.getD []),
        bobSession.canUseTool st.view "files" "purge", servedTemporarily st.view "files")) =
      some (some true, true, false) := by
    decide +kernel
  obtain ⟨st, hst, hobs⟩ := Option.map_eq_some_iff.mp hobs
  simp only [Prod.mk.injEq] at hobs
  obtain ⟨hcontext, hcan, htemporary⟩ := hobs
  obtain ⟨c, hc, htool⟩ := Option.map_eq_some_iff.mp hcontext
  exact ⟨st, c, hst, hc, of_decide_eq_true htool, hcan, htemporary⟩

theorem disclosure_agrees_filesExposed :
    ∃ st c, exec CapabilityState.step CapabilityState.init (shareFiles filesLists) = some st ∧
      st.view.serverContexts.get? "files" = some c ∧
      DisclosureAgrees id filesCatalog st.view bobSession "\x7b\x7d" filesExposed "files" c
        purgeTool := by
  obtain ⟨st, c, hst, hc, htool, hcan, _⟩ := exists_shared_tool
  exact ⟨st, c, hst, hc, (disclosure_agrees_iff (isRun_trace _ _ _ hst) hc htool hcan rfl
    (by decide) (Dict.get?_set_self ..) _).mpr ⟨by decide, .inl rfl⟩⟩

/-- Under a profile that hides every tool, the tool is not listed and can be called. -/
theorem hidden_tool_accepted :
    ¬ ∀ (trs : List (Transition CapabilityState CapabilityAction)) (st : CapabilityState),
      IsRun CapabilityState.step CapabilityState.init trs st →
      ∀ (s : ClientSession) (serverID : String) (c : ServerContext CapabilityConfig),
      st.view.serverContexts.get? serverID = some c → ∀ tool ∈ c.toolsData.getD [],
      s.canUseTool st.view serverID tool.name = true → ∀ profile : DiscoveryProfile,
      profile.enabled = true → profile.mode ≠ .flat →
      ∀ (digest : String → String) (catalog : Catalog),
      catalog.get? (DiscoveryIndex.actionId digest serverID tool.name) =
        some (DiscoveryIndex.mapToolToCatalogAction serverID tool) → ∀ permissionsText,
      DisclosureAgrees digest catalog st.view s permissionsText profile serverID c tool := by
  intro hall
  obtain ⟨st, c, hst, hc, htool, hcan, htemporary⟩ := exists_shared_tool
  have hrun := isRun_trace _ _ _ hst
  have hm := contextsOk_of_run hrun
  have hagrees := hall _ st hrun bobSession "files" c hc purgeTool htool hcan
    ⟨true, .strict, []⟩ rfl (by decide) id filesCatalog (Dict.get?_set_self ..) ""
  have hlisted := hagrees.call.mpr (acceptedDirectly hm hc hcan _)
  rw [listedDirectly_iff hm hc htool hcan rfl (by decide)] at hlisted
  cases hlisted with
  | inl hserved => cases htemporary.symm.trans hserved
  | inr hhybrid => cases hhybrid.1

end PetaCore
