import PetaCore.Spec.ServerManager

/-!
# What a session lists and what it may call

An item of a server passes three layers: the server's configuration, the administrator's
permissions and the user's preferences. The lists and the checks of the call handlers go through
them separately: the lists leave the configuration out, neither asks the administrator's
permissions on a server with user input, and the handlers look a resource up by its URI.

## Key results

- `listed_iff_permitted_iff`: an item is listed exactly when the three layers leave it enabled,
  and exactly when the handler's check accepts it, exactly when the layers left out agree
- `listed_but_disabled`: a tool that the configuration disables is listed
-/

namespace PetaCore

open Run CapabilityState ClientSession

/-! ## The checks of the handlers -/

section

variable {m : ServerManager CapabilityConfig} {s : ClientSession} {serverID : String}
  {c : ServerContext CapabilityConfig}

theorem canAccessServer_of_context (hc : m.getServerContext serverID (some s.userId) = some c) :
    s.canAccessServer m serverID = s.canAccessServerContext serverID c := by
  unfold canAccessServer
  rw [hc]

/-- An accessible server is enabled and available. -/
theorem enabled_of_canAccess (h : s.canAccessServerContext serverID c = true) :
    c.serverEntity.enabled = true ∧ c.isAvailable = true := by
  unfold canAccessServerContext at h
  dsimp only at h
  split at h
  · cases h
  · rename_i henabled
    split at h
    · cases h
    · rename_i hstatus
      refine ⟨by simpa using henabled, ?_⟩
      unfold ServerContext.isAvailable
      cases hcase : c.status with
      | online | sleeping => rfl
      | offline | connecting | error => exact absurd (by simp [hcase]) hstatus

/-- On a server with user input a session can access its own user's context only. -/
theorem userId_of_canAccess (h : s.canAccessServerContext serverID c = true)
    (hinput : c.serverEntity.allowUserInput = true) : c.userId = some s.userId := by
  unfold canAccessServerContext at h
  simp only [hinput, if_true] at h
  by_cases huser : c.userId = some s.userId
  · exact huser
  · simp [huser] at h

/-- The second look at the server, after `canAccessServer`, changes nothing. -/
theorem canAccessServerCapabilities_eq (hc : m.getServerContext serverID (some s.userId) = some c)
    (type : CapabilityKind) (name : String) :
    s.canAccessServerCapabilities m serverID type name =
      if s.canAccessServer m serverID && (c.configEnabled type name).getD true then some c
      else none := by
  unfold canAccessServerCapabilities
  rw [canAccessServer_of_context hc, hc]
  by_cases haccess : s.canAccessServerContext serverID c = true
  · obtain ⟨henabled, havailable⟩ := enabled_of_canAccess haccess
    have hstatus : ¬ (c.status ≠ .online ∧ c.status ≠ .sleeping) := by
      intro hstatus
      simp [ServerContext.isAvailable, hstatus.1, hstatus.2] at havailable
    simp [haccess, henabled, hstatus]
  · simp [haccess]

theorem canUse_eq (kind : CapabilityKind) (hc : m.getServerContext serverID (some s.userId) = some c)
    (name : String) :
    canUse kind m s serverID name =
      (s.canAccessServer m serverID && (c.configEnabled kind name).getD true &&
        canUseByServerContext kind s c name) := by
  unfold canUse
  rw [canAccessServerCapabilities_eq hc]
  cases s.canAccessServer m serverID with
  | false => rfl
  | true =>
    cases (c.configEnabled kind name).getD true with
    | false | true => rfl

theorem canAccessServer_of_canUse {kind : CapabilityKind} {name : String}
    (h : canUse kind m s serverID name = true) : s.canAccessServer m serverID = true := by
  cases haccess : s.canAccessServer m serverID with
  | true => rfl
  | false => simp [canUse, canAccessServerCapabilities, haccess] at h

end

/-! ## Layers -/

/-- The server's configuration leaves an item enabled. -/
def configAllows (c : ServerContext CapabilityConfig) (kind : CapabilityKind) (name : String) :
    Bool :=
  (c.configEnabled kind name).getD true

/-- The administrator's permissions for the session's user leave an item enabled. -/
def adminAllows (s : ClientSession) (c : ServerContext CapabilityConfig) (kind : CapabilityKind)
    (name : String) : Bool :=
  (s.permissions.itemEnabled c.serverID kind name).getD true

/-- The user's preferences leave an item enabled. -/
def userAllows (s : ClientSession) (c : ServerContext CapabilityConfig) (kind : CapabilityKind)
    (name : String) : Bool :=
  (s.userPreferences.itemEnabled c.serverID kind name).getD true

/-- What the checks `can…ByServerContext` ask on a context that the session can access. -/
theorem canUseByServerContext_iff {s : ClientSession} {serverID : String}
    {c : ServerContext CapabilityConfig} (haccess : s.canAccessServerContext serverID c = true)
    (kind : CapabilityKind) (name : String) :
    canUseByServerContext kind s c name = true ↔
      (c.serverEntity.allowUserInput = true ∨ adminAllows s c kind name = true) ∧
        userAllows s c kind name = true := by
  unfold canUseByServerContext adminAllows userAllows
  cases hinput : c.serverEntity.allowUserInput with
  | true =>
    have huser := userId_of_canAccess haccess hinput
    simp [huser]
  | false => simp

/-- The layers that a check goes through, for a name. -/
def CheckedLayersAllow (s : ClientSession) (c : ServerContext CapabilityConfig)
    (kind : CapabilityKind) (name : String) : Prop :=
  configAllows c kind name = true ∧
    (c.serverEntity.allowUserInput = true ∨ adminAllows s c kind name = true) ∧
    userAllows s c kind name = true

/-- A handler's check asks for access to the server and goes through the layers. -/
theorem canUse_iff {m : ServerManager CapabilityConfig} {s : ClientSession} {serverID : String}
    {c : ServerContext CapabilityConfig}
    (hc : m.getServerContext serverID (some s.userId) = some c) (kind : CapabilityKind)
    (name : String) :
    canUse kind m s serverID name = true ↔
      s.canAccessServer m serverID = true ∧ CheckedLayersAllow s c kind name := by
  rw [canUse_eq kind hc]
  simp only [Bool.and_eq_true, and_assoc]
  apply and_congr_right
  intro haccess
  rw [canAccessServer_of_context hc] at haccess
  rw [canUseByServerContext_iff haccess]
  rfl

/-! ## Items -/

/-- An item of a server. -/
inductive SessionItem where
  | tool (tool : Tool)
  | resource (resource : Resource)
  | resourceTemplate (template : ResourceTemplate)
  | prompt (prompt : Prompt)

namespace SessionItem

def kind : SessionItem → CapabilityKind
  | tool _ => .tool
  | resource _ | resourceTemplate _ => .resource
  | prompt _ => .prompt

/-- The name under which the layers know an item. -/
def name : SessionItem → String
  | tool t => t.name
  | resource r => r.name
  | resourceTemplate t => t.name
  | prompt p => p.name

/-- What the handler of a request for the item hands to its check. -/
def key : SessionItem → String
  | tool t => t.name
  | resource r => r.uri
  | resourceTemplate t => t.uriTemplate
  | prompt p => p.name

/-- The item is in the lists of a context. -/
def OfferedBy (c : ServerContext CapabilityConfig) : SessionItem → Prop
  | tool t => t ∈ c.toolsData.getD []
  | resource r => r ∈ c.resourcesData.getD []
  | resourceTemplate t => t ∈ c.resourceTemplatesData.getD []
  | prompt p => p ∈ c.promptsData.getD []

/-- The item of a context is in the list that the client gets. -/
def ListedFor (m : ServerManager CapabilityConfig) (s : ClientSession)
    (c : ServerContext CapabilityConfig) : SessionItem → Prop
  | tool t => s.prefixTool c t ∈ s.listTools m
  | resource r => { r with uri := generateNewName c.id r.uri } ∈ s.listResources m
  | resourceTemplate t =>
    { t with uriTemplate := generateNewName c.id t.uriTemplate } ∈ s.listResourceTemplates m
  | prompt p => { p with name := generateNewName c.id p.name } ∈ s.listPrompts m

end SessionItem

section

variable {m : ServerManager CapabilityConfig} {s : ClientSession} {nextId : Nat}

/-- An entry of a list comes from one item of one context, up to what its check asks. -/
theorem mem_listed_iff {α β : Type} {data : ServerContext CapabilityConfig → List α}
    {allowed : ServerContext CapabilityConfig → α → Bool}
    {out : ServerContext CapabilityConfig → α → β}
    (hout : ∀ l l' c c' a a', contextAt m l = some c → contextAt m l' = some c' →
      out c a = out c' a' → c = c' ∧ allowed c a = allowed c a')
    {c : ServerContext CapabilityConfig} (hc : c ∈ s.getAvailableServers m) {a : α}
    (ha : a ∈ data c) :
    out c a ∈ (s.getAvailableServers m).flatMap
        (fun c => ((data c).filter (allowed c)).map (out c)) ↔ allowed c a = true := by
  constructor
  · intro hmem
    obtain ⟨c', hc', hmem⟩ := List.mem_flatMap.mp hmem
    obtain ⟨a', ha', heq⟩ := List.mem_map.mp hmem
    obtain ⟨l, hl⟩ := exists_contextAt_of_mem hc
    obtain ⟨l', hl'⟩ := exists_contextAt_of_mem hc'
    obtain ⟨rfl, hallowed⟩ := hout l' l c' c a' a hl' hl heq
    rw [← hallowed]
    exact (List.mem_filter.mp ha').2
  · intro hallowed
    refine List.mem_flatMap.mpr ⟨c, hc, ?_⟩
    exact List.mem_map.mpr ⟨a, List.mem_filter.mpr ⟨ha, hallowed⟩, rfl⟩

/-- An item is listed exactly when its check on the context accepts its name. -/
theorem listedFor_iff (hm : ContextsOk m nextId) {c : ServerContext CapabilityConfig}
    (hc : c ∈ s.getAvailableServers m) (item : SessionItem) (hitem : item.OfferedBy c) :
    item.ListedFor m s c ↔ canUseByServerContext item.kind s c item.name = true := by
  cases item with
  | tool t =>
    refine mem_listed_iff (m := m) (s := s) ?_ hc hitem
    intro l l' c c' a a' hl hl' heq
    have hname : generateNewName c.id a.name = generateNewName c'.id a'.name :=
      congrArg (fun listed => listed.tool.name) heq
    obtain ⟨rfl, hname'⟩ := hm.generateNewName_inj hl hl' hname
    exact ⟨rfl, by rw [hname']⟩
  | resource r =>
    refine mem_listed_iff (m := m) (s := s) ?_ hc hitem
    intro l l' c c' a a' hl hl' heq
    have huri : generateNewName c.id a.uri = generateNewName c'.id a'.uri :=
      congrArg Resource.uri heq
    have hname : a.name = a'.name := (Resource.mk.inj heq).1
    exact ⟨(hm.generateNewName_inj hl hl' huri).1, by rw [hname]⟩
  | resourceTemplate t =>
    refine mem_listed_iff (m := m) (s := s) ?_ hc hitem
    intro l l' c c' a a' hl hl' heq
    have huri : generateNewName c.id a.uriTemplate = generateNewName c'.id a'.uriTemplate :=
      congrArg ResourceTemplate.uriTemplate heq
    have hname : a.name = a'.name := (ResourceTemplate.mk.inj heq).1
    exact ⟨(hm.generateNewName_inj hl hl' huri).1, by rw [hname]⟩
  | prompt p =>
    refine mem_listed_iff (m := m) (s := s) ?_ hc hitem
    intro l l' c c' a a' hl hl' heq
    have hname : generateNewName c.id a.name = generateNewName c'.id a'.name :=
      congrArg Prompt.name heq
    obtain ⟨rfl, hname'⟩ := hm.generateNewName_inj hl hl' hname
    exact ⟨rfl, by rw [hname']⟩

end

/-- An item of a context of the session is listed exactly when the three layers leave it
    enabled, and exactly when the check of its handler accepts it. -/
structure ListedIffPermitted (m : ServerManager CapabilityConfig) (s : ClientSession)
    (serverID : String) (c : ServerContext CapabilityConfig) (item : SessionItem) : Prop where
  permitted : item.ListedFor m s c ↔ configAllows c item.kind item.name = true ∧
    adminAllows s c item.kind item.name = true ∧ userAllows s c item.kind item.name = true
  callable : item.ListedFor m s c ↔ canUse item.kind m s serverID item.key = true

/-- What the layers that a list leaves out would have to say, and what the entries under the key
    that a handler looks up would have to say. -/
structure LayersAgree (s : ClientSession) (c : ServerContext CapabilityConfig)
    (item : SessionItem) : Prop where
  leftOut : userAllows s c item.kind item.name = true →
    c.serverEntity.allowUserInput = true ∨ adminAllows s c item.kind item.name = true →
    configAllows c item.kind item.name = true ∧ adminAllows s c item.kind item.name = true
  byKey : CheckedLayersAllow s c item.kind item.key ↔
    CheckedLayersAllow s c item.kind item.name

/-- In every state that is reached, for every item of a server that a session sees: the lists,
    the three layers and the checks of the handlers agree exactly when the server's
    configuration, and on a server with user input the administrator's permissions, disable
    nothing that the other layers leave enabled, and the layers say the same under the key that
    the handler looks up as under the item's name. -/
theorem listed_iff_permitted_iff {trs : List (Transition CapabilityState CapabilityAction)}
    {st : CapabilityState} (hrun : IsRun CapabilityState.step CapabilityState.init trs st)
    {s : ClientSession} (hs : s.HasUser st.view) {serverID : String}
    {c : ServerContext CapabilityConfig}
    (hc : st.view.getServerContext serverID (some s.userId) = some c)
    (haccess : s.canAccessServer st.view serverID = true) (item : SessionItem)
    (hitem : item.OfferedBy c) :
    ListedIffPermitted st.view s serverID c item ↔ LayersAgree s c item := by
  have hm := contextsOk_of_run hrun
  have haccess' : s.canAccessServerContext serverID c = true :=
    (canAccessServer_of_context hc).symm.trans haccess
  have hmem := (hm.ownContext hs hc).mem_getAvailableServers (enabled_of_canAccess haccess').2
    haccess
  have hlisted := (listedFor_iff hm hmem item hitem).trans
    (canUseByServerContext_iff haccess' item.kind item.name)
  have hcallable : canUse item.kind st.view s serverID item.key = true ↔
      CheckedLayersAllow s c item.kind item.key := by
    rw [canUse_iff hc, haccess]
    exact and_iff_right rfl
  constructor
  · intro h
    have hconfig : ∀ _ : userAllows s c item.kind item.name = true,
        c.serverEntity.allowUserInput = true ∨ adminAllows s c item.kind item.name = true →
        configAllows c item.kind item.name = true ∧ adminAllows s c item.kind item.name = true := by
      intro huser hadmin
      obtain ⟨hconfig, hadmin', _⟩ := h.permitted.mp (hlisted.mpr ⟨hadmin, huser⟩)
      exact ⟨hconfig, hadmin'⟩
    refine ⟨hconfig, ?_⟩
    rw [← hcallable, ← h.callable, hlisted]
    constructor
    · intro hallows
      exact ⟨(hconfig hallows.2 hallows.1).1, hallows.1, hallows.2⟩
    · intro hallows
      exact ⟨hallows.2.1, hallows.2.2⟩
  · intro h
    refine ⟨hlisted.trans ?_, hlisted.trans ?_⟩
    · constructor
      · intro hallows
        obtain ⟨hconfig, hadmin⟩ := h.leftOut hallows.2 hallows.1
        exact ⟨hconfig, hadmin, hallows.2⟩
      · intro hallows
        exact ⟨Or.inr hallows.2.1, hallows.2.2⟩
    · rw [hcallable, h.byKey]
      constructor
      · intro hallows
        exact ⟨(h.leftOut hallows.2 hallows.1).1, hallows.1, hallows.2⟩
      · intro hallows
        exact ⟨hallows.2.1, hallows.2.2⟩

/-! ### Tools that a layer disables -/

/-- A user for whom the tool of the shared server is switched off. -/
def aliceLimited : ClientSession := ⟨false, alice.value, purgeOff, .empty⟩

def purgeTool : Tool := ⟨"purge", none, none, none, none⟩

theorem listed_iff_permitted_purgeOff :
    ∃ st c, exec CapabilityState.step CapabilityState.init (shareFiles filesLists) = some st ∧
      st.view.getServerContext "files" (some aliceLimited.userId) = some c ∧
      adminAllows aliceLimited c .tool "purge" = false ∧
      ListedIffPermitted st.view aliceLimited "files" c (.tool purgeTool) := by
  have hobs : (exec CapabilityState.step CapabilityState.init (shareFiles filesLists)).map
      (fun st => ((st.view.getServerContext "files" (some aliceLimited.userId)).map fun c =>
        (c.serverEntity.allowUserInput, adminAllows aliceLimited c .tool "purge",
          decide (purgeTool ∈ c.toolsData.getD [])),
        aliceLimited.canAccessServer st.view "files")) =
      some (some (false, false, true), true) := by
    decide +kernel
  obtain ⟨st, hst, hobs⟩ := Option.map_eq_some_iff.mp hobs
  obtain ⟨hcontext, haccess⟩ := Prod.mk.inj hobs
  obtain ⟨c, hc, hobs⟩ := Option.map_eq_some_iff.mp hcontext
  simp only [Prod.mk.injEq, decide_eq_true_eq] at hobs
  obtain ⟨hinput, hadmin, htool⟩ := hobs
  refine ⟨st, c, hst, hc, hadmin, ?_⟩
  refine (listed_iff_permitted_iff (isRun_trace _ _ _ hst) (Or.inl ⟨alice, rfl⟩) hc haccess
    (.tool purgeTool) htool).mpr ⟨?_, Iff.rfl⟩
  intro _ hallows
  cases hallows with
  | inl hallows => cases hinput.symm.trans hallows
  | inr hallows => cases hadmin.symm.trans hallows

/-- The server's configuration switches the tool off for all users. -/
def closeFiles : List CapabilityAction :=
  [.saveServer { filesServer with
      capabilities := ⟨Dict.empty.set "purge" ⟨some false, none, none⟩, .empty, .empty⟩ },
    .initializeManagedServerContext "files", .refresh "files" none .online none filesLists]

theorem listed_but_disabled :
    (¬ ∀ (trs : List (Transition CapabilityState CapabilityAction)) (st : CapabilityState),
      IsRun CapabilityState.step CapabilityState.init trs st →
      ∀ (s : ClientSession), s.HasUser st.view → ∀ serverID c,
      st.view.getServerContext serverID (some s.userId) = some c →
      s.canAccessServer st.view serverID = true → ∀ item : SessionItem, item.OfferedBy c →
      ListedIffPermitted st.view s serverID c item) ∧
    (exec CapabilityState.step CapabilityState.init closeFiles).map (fun st =>
      ((bobSession.listTools st.view).map (·.tool.name),
        bobSession.canUseTool st.view "files" "purge")) = some (["purge_-_1"], false) := by
  refine ⟨?_, by decide +kernel⟩
  intro hall
  have hobs : (exec CapabilityState.step CapabilityState.init closeFiles).map
      (fun st => ((st.view.getServerContext "files" (some bobSession.userId)).map fun c =>
        (configAllows c .tool "purge", canUseByServerContext .tool bobSession c "purge",
          decide (purgeTool ∈ c.toolsData.getD []), c.isAvailable),
        bobSession.canAccessServer st.view "files")) =
      some (some (false, true, true, true), true) := by
    decide +kernel
  obtain ⟨st, hst, hobs⟩ := Option.map_eq_some_iff.mp hobs
  obtain ⟨hcontext, haccess⟩ := Prod.mk.inj hobs
  obtain ⟨c, hc, hobs⟩ := Option.map_eq_some_iff.mp hcontext
  simp only [Prod.mk.injEq, decide_eq_true_eq] at hobs
  obtain ⟨hconfig, hallowed, htool, havailable⟩ := hobs
  have hrun := isRun_trace CapabilityState.init st closeFiles hst
  have hs : bobSession.HasUser st.view := Or.inl ⟨bob, rfl⟩
  have hm := contextsOk_of_run hrun
  have hmem := (hm.ownContext hs hc).mem_getAvailableServers havailable haccess
  have hlisted := (listedFor_iff hm hmem (.tool purgeTool) htool).mpr hallowed
  have hpermitted := (hall _ st hrun bobSession hs "files" c hc haccess (.tool purgeTool)
    htool).permitted.mp hlisted
  cases hconfig.symm.trans hpermitted.1

end PetaCore
