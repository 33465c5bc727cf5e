import PetaCore.Core.Platform
import PetaCore.Spec.CapabilityIsolation

/-!
# Configured and stored danger levels

A call is decided with the danger level of the user's preferences, or else with that of the
server's configuration. Preferences are stored as a copy of the user's whole view, so they
come to hold levels that the user never chose.

## Key results

- `CapabilityState.LevelOk.step`: as long as no level is stored that differs from the
  configured one, and no level is configured that differs from a stored one, they stay
  together, whatever else administrators, connections and users do
- `CapabilityState.LevelOk.dangerLevel`: then a call is decided with the configured level
-/

namespace PetaCore

open Run

/-! ## Levels -/

/-- The level that a configuration has for a tool. -/
def toolLevel (caps : ServerConfigCapabilities CapabilityConfig) (toolName : String) :
    Option DangerLevel :=
  (caps.tools.get? toolName).bind (·.dangerLevel)

/-- The level that the administrator has configured for a tool. -/
def configuredLevel (server : Server) (toolName : String) : DangerLevel :=
  (toolLevel server.capabilities toolName).getD .silent

/-- The user's stored preference for a tool. -/
def storedEntry (user : User) (serverId toolName : String) : Option CapabilityConfig :=
  ((user.userPreferences.getD .empty).get? serverId).bind fun prefs => prefs.tools.get? toolName

/-- The level in the user's stored preferences. -/
def storedLevel (user : User) (serverId toolName : String) : Option DangerLevel :=
  (storedEntry user serverId toolName).bind (·.dangerLevel)

/-- The permission for a tool, where it overrides the server's configuration. -/
def permissionEntry (user : User) (serverId toolName : String) : Option CapabilityConfig :=
  ((user.permissions.get? serverId).bind fun perms => perms.tools.get? toolName).filter
    (·.enabled.isSome)

/-! ## The conditions on a run -/

/-- The server is not deleted, and no submission of the user carries a level for the tool. -/
def CapabilityAction.NoLevel (userId : UserId) (serverId toolName : String) :
    CapabilityAction → Prop
  | .deleteServer id => id ≠ serverId
  | .read (.handleSetCapabilities user submitted) => user = userId →
    ((submitted.get? serverId).bind fun sub => sub.tools.get? toolName).bind (·.dangerLevel) = none
  | _ => True

namespace CapabilityState

/-- The level that a copy of the view takes for the tool is the configured one: from the
    stored preference, or else from the permission, or else from what the server announces. -/
def SavesConfigured (s : CapabilityState) (user : User) (server : Server) (toolName : String) :
    Prop :=
  match storedEntry user server.serverId toolName with
  | some o => o.dangerLevel.getD .silent = configuredLevel server toolName
  | none =>
    match permissionEntry user server.serverId toolName with
    | some o => o.dangerLevel.getD .silent = configuredLevel server toolName
    | none => configuredLevel server toolName = .silent →
      ∀ c tools, s.view.serverContexts.get? server.serverId = some c →
        c.lists.tools = some tools →
        ∀ tool ∈ tools, tool.name = toolName → tool.destructiveHint ≠ some true

/-- The operation of a user does not write to the configuration of the tool itself. -/
def LeavesTool (s : CapabilityState) (serverId toolName : String) (r : CapabilityRead) : Prop :=
  ∀ user server c v, s.users.get? r.userId.value = some user →
    s.servers.get? serverId = some server → server.enabled = true →
    server.allowUserInput = false → s.view.serverContexts.get? serverId = some c →
    c.lists.isLoaded .tool = false → c.capabilitiesConfig.tools.get? toolName = some v →
    v.enabled ≠ some false → ¬Overrides user server .tool toolName

/-- The step keeps the stored level and the configured level together. -/
def KeepsLevel (userId : UserId) (serverId toolName : String) (s : CapabilityState) :
    CapabilityAction → Prop
  | .updateServerCapabilities id newCapabilities =>
    ∀ user server o, id = serverId → s.users.get? userId.value = some user →
      s.servers.get? serverId = some server → newCapabilities.tools.get? toolName = some o →
      storedLevel user serverId toolName = none ∨
        o.dangerLevel.getD .silent = configuredLevel server toolName
  | .read r =>
    LeavesTool s serverId toolName r ∧
    ∀ submitted user server, r = .handleSetCapabilities userId submitted →
      s.users.get? userId.value = some user → s.servers.get? serverId = some server →
      server.allowUserInput = false →
      (((s.userView userId.value).get? serverId).bind fun e => e.tools.get? toolName).isSome →
      SavesConfigured s user server toolName
  | _ => True

/-! ## The invariant -/

/-- The managed context of the server has the level of the row, and a stored level is the
    configured one. -/
structure LevelOk (userId : UserId) (serverId toolName : String) (s : CapabilityState) : Prop where
  ok : s.Ok
  context : ∀ server c, s.servers.get? serverId = some server →
    s.view.serverContexts.get? serverId = some c →
    toolLevel c.capabilitiesConfig toolName = toolLevel server.capabilities toolName ∧
    toolLevel c.serverEntity.capabilities toolName = toolLevel server.capabilities toolName
  unknown : s.servers.get? serverId = none → s.view.serverContexts.get? serverId = none ∧
    ∀ user, s.users.get? userId.value = some user → storedLevel user serverId toolName = none
  stored : ∀ user server level, s.users.get? userId.value = some user →
    s.servers.get? serverId = some server → server.allowUserInput = false →
    storedLevel user serverId toolName = some level → level = configuredLevel server toolName

section

variable {userId : UserId} {serverId toolName : String} {s s' : CapabilityState}

theorem LevelOk.init : LevelOk userId serverId toolName .init where
  ok := Ok.init
  context := fun _ _ h => by cases h
  unknown := fun _ => ⟨rfl, fun _ h => by cases h⟩
  stored := fun _ _ _ h => by cases h

variable {level : DangerLevel} {server : Server}

/-- Where a call is decided with a level, it is the configured one. -/
theorem LevelOk.dangerLevel (h : LevelOk userId serverId toolName s)
    (hserver : s.servers.get? serverId = some server) (hinput : server.allowUserInput = false)
    {c : ServerContext CapabilityConfig} (hc : s.view.serverContexts.get? serverId = some c)
    (hlevel : s.dangerLevel userId.value ⟨serverId, toolName⟩ = some level) :
    level = configuredLevel server toolName := by
  simp only [CapabilityState.dangerLevel, Option.bind_eq_bind, Option.bind_eq_some_iff,
    CapabilityState.session, Option.map_eq_some_iff] at hlevel
  obtain ⟨_, ⟨user, hu, rfl⟩, c', hc', hlevel⟩ := hlevel
  simp only [ServerManager.getServerContext, hc, Option.some.injEq] at hc'
  subst hc'
  have hlevel := Option.some.inj hlevel
  have hcontext : c.getDangerLevel toolName = toolLevel server.capabilities toolName :=
    (h.context server c hserver hc).1
  have hstored : ClientSession.getDangerLevel ⟨false, userId.value, user.permissions,
      user.userPreferences.getD .empty⟩ serverId toolName = storedLevel user serverId toolName :=
    rfl
  rw [hstored, hcontext] at hlevel
  cases hsl : storedLevel user serverId toolName with
  | none =>
    rw [hsl, Option.none_or] at hlevel
    exact hlevel.symm
  | some stored =>
    rw [hsl, Option.some_or, Option.getD_some] at hlevel
    rw [← hlevel]
    exact h.stored user server stored hu hserver hinput hsl

/-! ## Steps of administrators and connections -/

/-- Steps that leave the server's row, its managed context and the user's row alone. -/
theorem LevelOk.frame (h : LevelOk userId serverId toolName s) (hok : s'.Ok)
    (hserver : s'.servers.get? serverId = s.servers.get? serverId)
    (hcontext : s'.view.serverContexts.get? serverId = s.view.serverContexts.get? serverId)
    (huser : ∀ user, s'.users.get? userId.value = some user →
      storedLevel user serverId toolName = none ∨
      ∃ user₀, s.users.get? userId.value = some user₀ ∧
        user.userPreferences = user₀.userPreferences) :
    LevelOk userId serverId toolName s' := by
  have hlevel : ∀ user level, s'.users.get? userId.value = some user →
      storedLevel user serverId toolName = some level →
      ∃ user₀, s.users.get? userId.value = some user₀ ∧
        storedLevel user₀ serverId toolName = some level := by
    intro user level hu hsl
    cases huser user hu with
    | inl hnone => cases hnone.symm.trans hsl
    | inr hsame =>
      obtain ⟨user₀, hu₀, hprefs⟩ := hsame
      refine ⟨user₀, hu₀, ?_⟩
      simp only [storedLevel, storedEntry, ← hprefs]
      exact hsl
  refine ⟨hok, ?_, ?_, ?_⟩
  · intro server c hs hc
    rw [hserver] at hs
    rw [hcontext] at hc
    exact h.context server c hs hc
  · intro hnone
    rw [hserver] at hnone
    rw [hcontext]
    refine ⟨(h.unknown hnone).1, ?_⟩
    intro user hu
    cases hsl : storedLevel user serverId toolName with
    | none => rfl
    | some level =>
      obtain ⟨user₀, hu₀, hsl₀⟩ := hlevel user level hu hsl
      exact hsl₀.symm.trans ((h.unknown hnone).2 user₀ hu₀)
  · intro user server level hu hs hinput hsl
    rw [hserver] at hs
    obtain ⟨user₀, hu₀, hsl₀⟩ := hlevel user level hu hsl
    exact h.stored user₀ server level hu₀ hs hinput hsl₀

/-- The same with the server's managed context set to one that has the row's level. -/
theorem LevelOk.ofContext (h : LevelOk userId serverId toolName s) (hok : s'.Ok)
    (hserver : s'.servers = s.servers) (husers : s'.users = s.users)
    (hrow : s.servers.get? serverId = some server) {c : ServerContext CapabilityConfig}
    (hcontext : s'.view.serverContexts.get? serverId = some c)
    (hlevel : toolLevel c.capabilitiesConfig toolName = toolLevel server.capabilities toolName)
    (hentity : toolLevel c.serverEntity.capabilities toolName =
      toolLevel server.capabilities toolName) :
    LevelOk userId serverId toolName s' := by
  refine ⟨hok, ?_, ?_, ?_⟩
  · intro server' c' hs hc
    rw [hserver, hrow] at hs
    rw [hcontext] at hc
    cases hs
    cases hc
    exact ⟨hlevel, hentity⟩
  · intro hnone
    rw [hserver, hrow] at hnone
    cases hnone
  · intro user server' level hu hs
    rw [hserver] at hs
    rw [husers] at hu
    exact h.stored user server' level hu hs

/-- Editing a row leaves the level of its tools. -/
theorem LevelOk.saveServer (h : LevelOk userId serverId toolName s)
    (hstep : s.step (.saveServer server) = some s') : LevelOk userId serverId toolName s' := by
  have hok := h.ok.step hstep
  simp only [CapabilityState.step] at hstep
  by_cases hid : server.serverId = serverId
  · subst hid
    cases hold : s.servers.get? server.serverId with
    | none =>
      -- a new row: there is no context and no stored level yet
      simp only [hold, Option.some.injEq] at hstep
      subst hstep
      obtain ⟨hnone, hlevel⟩ := h.unknown hold
      refine ⟨hok, ?_, ?_, ?_⟩
      · intro server' c _ hc
        cases hnone.symm.trans hc
      · intro hget
        simp only [Dict.get?_set_self] at hget
        cases hget
      · intro user server' level hu _ _ hsl
        cases (hlevel user hu).symm.trans hsl
    | some old =>
      simp only [hold, Option.some.injEq] at hstep
      subst hstep
      refine ⟨hok, ?_, ?_, ?_⟩
      · intro server' c hs hc
        simp only [Dict.get?_set_self, Option.some.injEq] at hs
        subst hs
        exact h.context old c hold hc
      · intro hget
        simp only [Dict.get?_set_self] at hget
        cases hget
      · intro user server' level hu hs hinput hsl
        simp only [Dict.get?_set_self, Option.some.injEq] at hs
        subst hs
        exact h.stored user old level hu hold hinput hsl
  · have hrows : ∀ row, (s.servers.set server.serverId row).get? serverId =
        s.servers.get? serverId := by
      intro row
      exact Dict.get?_set_ne s.servers row (Ne.symm hid)
    cases hold : s.servers.get? server.serverId with
    | none | some _ =>
      simp only [hold, Option.some.injEq] at hstep
      subst hstep
      exact h.frame hok (hrows _) rfl fun user hu => .inr ⟨user, hu, rfl⟩

/-- The level that an update of the configuration leaves. -/
theorem toolLevel_getUpdatedCapabilities
    {newCapabilities oldCapabilities config : ServerConfigCapabilities CapabilityConfig}
    (h : getUpdatedCapabilities newCapabilities oldCapabilities = some config) :
    toolLevel config toolName =
      match newCapabilities.tools.get? toolName with
      | some o => o.dangerLevel
      | none => toolLevel oldCapabilities toolName := by
  simp only [getUpdatedCapabilities] at h
  split at h
  · cases h
  · cases h
    simp only [toolLevel, Dict.get?_assign]
    cases newCapabilities.tools.get? toolName with
    | none | some _ => simp

variable {id : String}

/-- Configuring the server: a stored level must agree with what is configured. -/
theorem LevelOk.updateServerCapabilities (h : LevelOk userId serverId toolName s)
    {newCapabilities : ServerConfigCapabilities CapabilityConfig}
    (hkeeps : KeepsLevel userId serverId toolName s (.updateServerCapabilities id newCapabilities))
    (hstep : s.step (.updateServerCapabilities id newCapabilities) = some s') :
    LevelOk userId serverId toolName s' := by
  have hok := h.ok.step hstep
  obtain ⟨server, hserver, hparts⟩ := step_updateServerCapabilities h.ok hstep
  cases hconfig : getUpdatedCapabilities newCapabilities server.capabilities with
  | none =>
    simp only [hconfig] at hparts
    subst hparts
    exact h
  | some config =>
    simp only [hconfig] at hparts
    obtain ⟨hservers, husers, hcontexts⟩ := hparts
    by_cases hid : id = serverId
    · subst hid
      have hlevel := @toolLevel_getUpdatedCapabilities toolName _ _ _ hconfig
      refine ⟨hok, ?_, ?_, ?_⟩
      · intro server' c hs hc
        rw [hservers, Dict.get?_set_self] at hs
        cases hs
        have hc' : contextAt s'.view (true, id) = some c := hc
        rw [hcontexts] at hc'
        obtain ⟨c₀, hc₀, rfl⟩ := Option.map_eq_some_iff.mp hc'
        split
        · exact ⟨rfl, rfl⟩
        · -- the context has this configuration already
          rename_i hsame
          have hconfig₀ : c₀.serverEntity.capabilities = config := by simpa using hsame
          obtain ⟨hctx, hent⟩ := h.context server c₀ hserver hc₀
          rw [hconfig₀] at hent
          exact ⟨hctx.trans hent.symm, by rw [hconfig₀]⟩
      · intro hnone
        rw [hservers, Dict.get?_set_self] at hnone
        cases hnone
      · intro user server' level hu hs hinput hsl
        rw [husers] at hu
        rw [hservers, Dict.get?_set_self] at hs
        cases hs
        have hbefore := h.stored user server level hu hserver hinput hsl
        show level = (toolLevel config toolName).getD .silent
        rw [hlevel]
        cases ho : newCapabilities.tools.get? toolName with
        | none => exact hbefore
        | some o =>
          cases hkeeps user server o rfl hu hserver ho with
          | inl hnone => cases hnone.symm.trans hsl
          | inr heq =>
            rw [hbefore]
            exact heq.symm
    · apply h.frame hok
      · rw [hservers]
        exact Dict.get?_set_ne s.servers _ (Ne.symm hid)
      · show contextAt s'.view (true, serverId) = contextAt s.view (true, serverId)
        rw [hcontexts]
        have hloc : ((true, serverId) : Bool × String) ≠ (true, id) := by
          intro heq
          exact hid (Prod.mk.inj heq).2.symm
        simp only [hloc, false_and, if_false, Option.map_id_fun']
        rfl
      · intro user hu
        rw [husers] at hu
        exact .inr ⟨user, hu, rfl⟩

/-- Setting up a managed context: a new one has the configuration of the row. -/
theorem LevelOk.initializeManagedServerContext (h : LevelOk userId serverId toolName s)
    (hstep : s.step (.initializeManagedServerContext id) = some s') :
    LevelOk userId serverId toolName s' := by
  have hok := h.ok.step hstep
  simp only [CapabilityState.step, Option.bind_eq_bind, Option.bind_eq_some_iff] at hstep
  obtain ⟨server, hserver, hstep⟩ := hstep
  obtain ⟨heap, c, hheap, hset, _, hframe, hentity, hconfig⟩ :=
    h.ok.initializeContext (true, id) server none rfl
  simp only at hheap hset
  simp only [hheap, hset] at hstep
  cases hstep
  have hview : ∀ key, (contextAt ((setContext s.manager (true, id) c).map heap.read) (true, key)) =
      if (true, key) = (true, id) then some (c.map heap.read) else contextAt s.view (true, key) :=
    fun key => contextAt_setContext_map h.ok.configs hframe (true, id) c (true, key)
  by_cases hid : id = serverId
  · subst hid
    have hcontext := hview id
    rw [if_pos rfl] at hcontext
    apply h.ofContext hok rfl rfl hserver hcontext
    · show toolLevel (c.capabilitiesConfig.map heap.read) toolName = _
      rw [hconfig]
      cases hold : contextAt s.view (true, id) with
      | none => rfl
      | some c₀ => exact (h.context server c₀ hserver hold).1
    · show toolLevel c.serverEntity.capabilities toolName = _
      rw [hentity]
  · apply h.frame hok rfl
    · have hcontext := hview serverId
      rw [if_neg (fun heq => hid (Prod.mk.inj heq).2.symm)] at hcontext
      exact hcontext
    · exact fun user hu => .inr ⟨user, hu, rfl⟩

/-- A temporary context is set up. -/
theorem LevelOk.initializeTemporaryServerContext (h : LevelOk userId serverId toolName s)
    {user : UserId} (hstep : s.step (.initializeTemporaryServerContext id user) = some s') :
    LevelOk userId serverId toolName s' := by
  have hok := h.ok.step hstep
  simp only [CapabilityState.step, Option.bind_eq_bind, Option.bind_eq_some_iff] at hstep
  obtain ⟨server, _, hstep⟩ := hstep
  obtain ⟨heap, c, hheap, hset, _, hframe, _⟩ :=
    h.ok.initializeContext (false, internalKey id user.value) server (some user.value) rfl
  simp only at hheap hset
  simp only [hheap, hset] at hstep
  cases hstep
  apply h.frame hok rfl
  · have hcontext := contextAt_setContext_map h.ok.configs hframe
      (false, internalKey id user.value) c (true, serverId)
    simp only [Prod.mk.injEq, Bool.true_eq_false, false_and, if_false] at hcontext
    exact hcontext
  · exact fun user hu => .inr ⟨user, hu, rfl⟩

/-- A connection changes status, capabilities or lists. -/
theorem LevelOk.refresh (h : LevelOk userId serverId toolName s)
    {user : Option UserId} {status : ServerStatus} {capabilities : Option ServerCapabilities}
    {lists : ServerLists}
    (hstep : s.step (.refresh id user status capabilities lists) = some s') :
    LevelOk userId serverId toolName s' := by
  have hok := h.ok.step hstep
  cases user with
  | none =>
    simp only [CapabilityState.step, Option.bind_eq_bind, Option.bind_eq_some_iff] at hstep
    obtain ⟨c, hc, hstep⟩ := hstep
    cases hstep
    have hview := fun key => contextAt_setContext_map h.ok.configs (fun _ _ => rfl) (true, id)
      { c with status := status, capabilities := capabilities, lists := lists } (true, key)
    have hold : contextAt s.view (true, id) = some (c.map s.heap.read) := by
      rw [view, contextAt_map]
      simp only [contextAt, hc, Option.map_some]
    by_cases hid : id = serverId
    · subst hid
      have hcontext := hview id
      rw [if_pos rfl] at hcontext
      cases hserver : s.servers.get? id with
      | none => cases (h.unknown hserver).1.symm.trans hold
      | some server =>
        obtain ⟨hlevel, hentity⟩ := h.context server _ hserver hold
        exact h.ofContext hok rfl rfl hserver hcontext hlevel hentity
    · apply h.frame hok rfl
      · have hcontext := hview serverId
        rw [if_neg (fun heq => hid (Prod.mk.inj heq).2.symm)] at hcontext
        exact hcontext
      · exact fun user hu => .inr ⟨user, hu, rfl⟩
  | some user =>
    simp only [CapabilityState.step, Option.bind_eq_bind, Option.bind_eq_some_iff] at hstep
    obtain ⟨c, hc, hstep⟩ := hstep
    cases hstep
    apply h.frame hok rfl
    · rfl
    · exact fun user hu => .inr ⟨user, hu, rfl⟩

/-- A managed context is removed. -/
theorem LevelOk.removeServer (h : LevelOk userId serverId toolName s)
    (hstep : s.step (.removeServer id) = some s') : LevelOk userId serverId toolName s' := by
  have hok := h.ok.step hstep
  cases hstep
  have hview : contextAt ((eraseContext s.manager (true, id)).map s.heap.read) (true, serverId) =
      if (true, serverId) = (true, id) then none else contextAt s.view (true, serverId) := by
    rw [view, contextAt_map, contextAt_map, contextAt_eraseContext]
    split <;> rfl
  by_cases hid : id = serverId
  · subst hid
    rw [if_pos rfl] at hview
    refine ⟨hok, ?_, ?_, h.stored⟩
    · intro server c _ hc
      cases hview.symm.trans hc
    · intro hnone
      exact ⟨hview, (h.unknown hnone).2⟩
  · rw [if_neg (fun heq => hid (Prod.mk.inj heq).2.symm)] at hview
    exact h.frame hok rfl hview fun user hu => .inr ⟨user, hu, rfl⟩

/-! ## Operations of users -/

/-- A preference for a tool replaces its level, `Silent` standing in for none. -/
theorem preferred_dangerLevel (user : User) (serverId toolName : String)
    (v : CapabilityConfig) :
    (preferred user serverId .tool toolName v).dangerLevel =
      match storedEntry user serverId toolName with
      | some o => some (o.dangerLevel.getD .silent)
      | none => v.dangerLevel := by
  simp only [preferred, storedEntry]
  cases (user.userPreferences.getD .empty).get? serverId with
  | none => rfl
  | some prefs =>
    have hget : (prefs.get .tool).get? toolName = prefs.tools.get? toolName := rfl
    simp only [ServerConfigCapabilities.overrideValue, hget, Option.bind_some]
    cases prefs.tools.get? toolName with
    | none | some _ => rfl

/-- So does a permission that overrides. -/
theorem permitted_dangerLevel (user : User) (serverId toolName : String)
    (v : CapabilityConfig) :
    (permitted user serverId .tool toolName v).dangerLevel =
      match permissionEntry user serverId toolName with
      | some o => some (o.dangerLevel.getD .silent)
      | none => v.dangerLevel := by
  simp only [permitted, permissionEntry]
  cases user.permissions.get? serverId with
  | none => rfl
  | some perms =>
    have hget : (perms.get .tool).get? toolName = perms.tools.get? toolName := rfl
    simp only [ServerConfigCapabilities.overrideValue, hget, Option.bind_some]
    cases perms.tools.get? toolName with
    | none => rfl
    | some o =>
      by_cases hbool : o.enabled.isSome = true
      · have hfilter : Option.filter (fun x : CapabilityConfig => x.enabled.isSome) (some o) =
            some o := by
          simp [hbool]
        rw [hfilter]
        simp [permissionOverride, hbool, overrideEntry]
      · have hnone : o.enabled = none := by simpa using hbool
        have hfilter : Option.filter (fun x : CapabilityConfig => x.enabled.isSome) (some o) =
            none := by
          simp [hnone]
        rw [hfilter]
        simp [permissionOverride, hnone]

/-- The level that a managed server announces for a tool is the configured one, except that a
    destructive tool configured as `Silent` is announced as `Notification`. -/
theorem LevelOk.announced (h : LevelOk userId serverId toolName s)
    (hserver : s.servers.get? serverId = some server) (hinput : server.allowUserInput = false)
    {a : CapabilityConfig} (ha : (announcedBy server
      (viewContext s.view userId.value server)).tools.get? toolName = some a)
    (hlevel : a.dangerLevel = some level) :
    level = configuredLevel server toolName ∨
    (configuredLevel server toolName = .silent ∧
      ∃ c tools tool, s.view.serverContexts.get? serverId = some c ∧
        c.lists.tools = some tools ∧ tool ∈ tools ∧ tool.name = toolName ∧
        tool.destructiveHint = some true) := by
  obtain rfl := h.ok.keyed serverId server hserver
  have hcontext : viewContext s.view userId.value server =
      s.view.serverContexts.get? server.serverId := by
    simp only [viewContext, hinput, Bool.false_eq_true, if_false, ServerManager.getServerContext]
    cases s.view.serverContexts.get? server.serverId <;> rfl
  rw [hcontext] at ha
  cases hc : s.view.serverContexts.get? server.serverId with
  | none =>
    simp only [hc, announcedBy] at ha
    left
    simp only [configuredLevel, toolLevel, ha, Option.bind_some, hlevel, Option.getD_some]
  | some c =>
    simp only [hc, announcedBy, ServerContext.announced, ServerContext.announcedKind] at ha
    have hconfigured : configuredLevel server toolName =
        (toolLevel c.capabilitiesConfig toolName).getD .silent := by
      rw [configuredLevel, (h.context server c hserver hc).1]
    rw [hconfigured]
    split at ha
    · -- the list is loaded: the entry is made from the tool and the configuration
      rename_i hload
      obtain ⟨tools, htools⟩ := Option.isSome_iff_exists.mp hload
      have hmem := Dict.mem_of_get?_ofList ha
      simp only [ServerContext.loadedEntries, htools, Option.getD_some] at hmem
      obtain ⟨tool, htool, hpair⟩ := List.mem_map.mp hmem
      obtain ⟨rfl, rfl⟩ := Prod.mk.inj hpair
      have hentry : toolLevel c.capabilitiesConfig tool.name =
          (c.capabilitiesConfig.tools.get? tool.name).bind (·.dangerLevel) := rfl
      rw [hentry]
      simp only [ServerContext.toolEntry] at hlevel
      split at hlevel
      iterate 2
        · rename_i hconf
          rw [hconf]
          exact .inl (Option.some.inj hlevel).symm
      iterate 2
        · rename_i hconf
          rw [hconf]
          split at hlevel
          · rename_i hhint
            exact .inr ⟨rfl, c, tools, tool, rfl, htools, htool, rfl, hhint⟩
          · exact .inl (Option.some.inj hlevel).symm
    · left
      have hget : c.capabilitiesConfig.tools.get? toolName = some a := ha
      simp only [toolLevel, hget, Option.bind_some, hlevel, Option.getD_some]

/-- The level of a tool in the user's view, where a copy of it takes the configured one. -/
theorem LevelOk.viewLevel (h : LevelOk userId serverId toolName s) {user : User}
    (hu : s.users.get? userId.value = some user)
    (hserver : s.servers.get? serverId = some server) (hinput : server.allowUserInput = false)
    (hsaves : SavesConfigured s user server toolName)
    {e : ServerConfigWithEnabled CapabilityConfig}
    (he : (s.userView userId.value).get? serverId = some e) {v : CapabilityConfig}
    (hv : e.tools.get? toolName = some v)
    (hlevel : v.dangerLevel = some level) : level = configuredLevel server toolName := by
  rw [(getUserCapabilities_spec h.ok hu).2.2] at he
  obtain ⟨server', a, hserver', ha, rfl⟩ :=
    get?_viewUser h.ok.keyed he .tool hv
  obtain rfl := Option.some.inj (hserver'.symm.trans hserver)
  obtain rfl := h.ok.keyed serverId server' hserver
  rw [preferred_dangerLevel, permitted_dangerLevel] at hlevel
  simp only [SavesConfigured] at hsaves
  cases hstored : storedEntry user server'.serverId toolName with
  | some o =>
    simp only [hstored] at hlevel hsaves
    rw [← Option.some.inj hlevel]
    exact hsaves
  | none =>
    simp only [hstored] at hlevel hsaves
    cases hperm : permissionEntry user server'.serverId toolName with
    | some o =>
      simp only [hperm] at hlevel hsaves
      rw [← Option.some.inj hlevel]
      exact hsaves
    | none =>
      simp only [hperm] at hlevel hsaves
      cases h.announced hserver hinput ha hlevel with
      | inl heq => exact heq
      | inr hhint =>
        obtain ⟨hsilent, c, tools, tool, hc, htools, htool, hname, hdestructive⟩ := hhint
        exact absurd hdestructive (hsaves hsilent c tools hc htools tool htool hname)

/-- The level that a submission without levels stores is that of the view. -/
theorem storedLevel_extractEnabledFields {submitted : Dict SubmittedServer}
    {current prefs : Permissions} {user : User}
    (h : extractEnabledFields submitted current = some prefs)
    (hno : ((submitted.get? serverId).bind fun sub => sub.tools.get? toolName).bind
      (·.dangerLevel) = none) :
    storedLevel { user with userPreferences := some prefs } serverId toolName =
      ((current.get? serverId).bind fun e => e.tools.get? toolName).bind (·.dangerLevel) := by
  simp only [extractEnabledFields] at h
  split at h
  · cases h
  · cases h
    simp only [storedLevel, storedEntry, Option.getD_some, Dict.get?_mapKeyed]
    cases current.get? serverId with
    | none => rfl
    | some e =>
      simp only [Option.map_some, Option.bind_some, submitServer]
      cases hsub : submitted.get? serverId with
      | none => rfl
      | some sub =>
        simp only [hsub, Option.bind_some] at hno
        simp only [Dict.get?_mapKeyed]
        cases e.tools.get? toolName with
        | none => rfl
        | some v =>
          simp only [Option.map_some, Option.bind_some, submitEntry]
          cases hentry : sub.tools.get? toolName with
          | none => rfl
          | some o =>
            simp only [hentry, Option.bind_some] at hno
            simp only [hno, Option.bind_none]

/-- An operation that leaves the tool's configuration leaves its level in the context. -/
theorem LevelOk.context_runRead (h : LevelOk userId serverId toolName s) {r : CapabilityRead}
    (hleaves : LeavesTool s serverId toolName r) {c' : ServerContext CapabilityConfig}
    (hc' : contextAt (s.runRead r).view (true, serverId) = some c') :
    ∃ c, contextAt s.view (true, serverId) = some c ∧
      toolLevel c'.capabilitiesConfig toolName = toolLevel c.capabilitiesConfig toolName ∧
      c'.serverEntity = c.serverEntity := by
  cases hu : s.users.get? r.userId.value with
  | none =>
    rw [contextAt_runRead_none hu] at hc'
    exact ⟨c', hc', rfl, rfl⟩
  | some user =>
    rw [contextAt_runRead, contextAt_getUserCapabilities h.ok hu] at hc'
    obtain ⟨c, hc, rfl⟩ := Option.map_eq_some_iff.mp hc'
    refine ⟨c, hc, ?_⟩
    simp only [writeBackContext]
    split
    · exact ⟨rfl, rfl⟩
    · rename_i server hfind
      have hprop := List.find?_some hfind
      simp only [Bool.and_eq_true, beq_iff_eq, viewLocation] at hprop
      obtain ⟨henabled, hloc⟩ := hprop
      split at hloc
      · cases (Prod.mk.inj hloc).1
      · rename_i hinput
        obtain rfl : server.serverId = serverId := (Prod.mk.inj hloc).2
        obtain ⟨key, hkey⟩ := Dict.mem_values (List.mem_of_find?_eq_some hfind)
        obtain rfl := h.ok.keyed key server hkey
        refine ⟨?_, rfl⟩
        simp only [toolLevel, Dict.get?_mapKeyed]
        cases hv : c.capabilitiesConfig.tools.get? toolName with
        | none => rfl
        | some v =>
          rw [Option.map_some, writeBack_eq_self]
          intro hload hon
          exact hleaves user server c v hu hkey henabled (by simpa using hinput) hc hload hv hon

/-- The operations of users. -/
theorem LevelOk.runRead (h : LevelOk userId serverId toolName s) {r : CapabilityRead}
    (hno : (CapabilityAction.read r).NoLevel userId serverId toolName)
    (hkeeps : KeepsLevel userId serverId toolName s (.read r)) :
    LevelOk userId serverId toolName (s.runRead r) := by
  have hok := h.ok.runRead r
  have hrows : (s.runRead r).servers = s.servers := servers_runRead s r
  have hcontext : ∀ server c', s.servers.get? serverId = some server →
      (s.runRead r).view.serverContexts.get? serverId = some c' →
      toolLevel c'.capabilitiesConfig toolName = toolLevel server.capabilities toolName ∧
      toolLevel c'.serverEntity.capabilities toolName =
        toolLevel server.capabilities toolName := by
    intro server c' hserver hc'
    obtain ⟨c, hc, hlevel, hentity⟩ := h.context_runRead hkeeps.1 hc'
    rw [hlevel, hentity]
    exact h.context server c hserver hc
  have hunknown : s.servers.get? serverId = none →
      (s.runRead r).view.serverContexts.get? serverId = none := by
    intro hnone
    cases hc' : (s.runRead r).view.serverContexts.get? serverId with
    | none => rfl
    | some c' =>
      obtain ⟨c, hc, _⟩ := h.context_runRead hkeeps.1 hc'
      cases (h.unknown hnone).1.symm.trans hc
  -- what the row of the user stores afterwards
  have hstored : ∀ user' level, (s.runRead r).users.get? userId.value = some user' →
      storedLevel user' serverId toolName = some level →
      ∃ server, s.servers.get? serverId = some server ∧
        (server.allowUserInput = false → level = configuredLevel server toolName) := by
    intro user' level hu' hsl
    have hold : s.users.get? userId.value = some user' →
        ∃ server, s.servers.get? serverId = some server ∧
          (server.allowUserInput = false → level = configuredLevel server toolName) := by
      intro hu
      cases hserver : s.servers.get? serverId with
      | none => cases ((h.unknown hserver).2 user' hu).symm.trans hsl
      | some server =>
        exact ⟨server, rfl, fun hinput => h.stored user' server level hu hserver hinput hsl⟩
    by_cases hown : r.userId = userId
    · subst hown
      cases runRead_cases s r with
      | inl hsame =>
        rw [hsame] at hu'
        exact hold hu'
      | inr hset =>
        obtain ⟨submitted, user, prefs, hr, hu, hprefs, hset⟩ := hset
        rw [hset] at hu'
        simp only [Dict.get?_set_self, Option.some.injEq] at hu'
        subst hu'
        have hnolevel : ((submitted.get? serverId).bind fun sub => sub.tools.get? toolName).bind
            (·.dangerLevel) = none := by
          rw [hr] at hno
          exact hno rfl
        rw [storedLevel_extractEnabledFields hprefs hnolevel] at hsl
        obtain ⟨v, hv, hlevel⟩ := Option.bind_eq_some_iff.mp hsl
        obtain ⟨e, he, htool⟩ := Option.bind_eq_some_iff.mp hv
        have hview := he
        rw [(getUserCapabilities_spec h.ok hu).2.2] at hview
        obtain ⟨server, _, hserver, _⟩ := get?_viewUser h.ok.keyed hview .tool htool
        refine ⟨server, hserver, ?_⟩
        intro hinput
        have hsaves := hkeeps.2 submitted user server hr hu hserver hinput (by rw [hv]; rfl)
        exact h.viewLevel hu hserver hinput hsaves he htool hlevel
    · rw [users_runRead_ne s r hown] at hu'
      exact hold hu'
  refine ⟨hok, ?_, ?_, ?_⟩
  · intro server c' hserver hc'
    rw [hrows] at hserver
    exact hcontext server c' hserver hc'
  · intro hnone
    rw [hrows] at hnone
    refine ⟨hunknown hnone, ?_⟩
    intro user' hu'
    cases hsl : storedLevel user' serverId toolName with
    | none => rfl
    | some level =>
      obtain ⟨server, hserver, _⟩ := hstored user' level hu' hsl
      cases hnone.symm.trans hserver
  · intro user' server level hu' hserver hinput hsl
    rw [hrows] at hserver
    obtain ⟨server', hserver', hlevel⟩ := hstored user' level hu' hsl
    obtain rfl := Option.some.inj (hserver'.symm.trans hserver)
    exact hlevel hinput

/-- Every step that meets the conditions. -/
theorem LevelOk.step (h : LevelOk userId serverId toolName s) {a : CapabilityAction}
    (hno : a.NoLevel userId serverId toolName) (hkeeps : KeepsLevel userId serverId toolName s a)
    (hstep : s.step a = some s') : LevelOk userId serverId toolName s' := by
  cases a with
  | saveServer server => exact h.saveServer hstep
  | deleteServer id =>
    have hok := h.ok.step hstep
    cases hstep
    apply h.frame hok
    · have hne : serverId ≠ id := Ne.symm hno
      simp only [Dict.get?_erase, if_neg hne]
    · rfl
    · exact fun user hu => .inr ⟨user, hu, rfl⟩
  | updateServerCapabilities id newCapabilities =>
    exact h.updateServerCapabilities hkeeps hstep
  | createUser user permissions =>
    have hok := h.ok.step hstep
    simp only [CapabilityState.step] at hstep
    split at hstep
    · cases hstep
    · cases hstep
      apply h.frame hok rfl rfl
      intro user' hu'
      simp only [Dict.get?_set] at hu'
      split at hu'
      · cases hu'
        exact .inl rfl
      · exact .inr ⟨user', hu', rfl⟩
  | updatePermissions user permissions =>
    have hok := h.ok.step hstep
    simp only [CapabilityState.step, Option.bind_eq_bind, Option.bind_eq_some_iff] at hstep
    obtain ⟨user₀, hu₀, hstep⟩ := hstep
    cases hstep
    apply h.frame hok rfl rfl
    intro user' hu'
    simp only [Dict.get?_set] at hu'
    split at hu'
    · rename_i huser
      cases hu'
      exact .inr ⟨user₀, by rw [huser]; exact hu₀, rfl⟩
    · exact .inr ⟨user', hu', rfl⟩
  | initializeManagedServerContext id => exact h.initializeManagedServerContext hstep
  | initializeTemporaryServerContext id user => exact h.initializeTemporaryServerContext hstep
  | refresh id user status capabilities lists => exact h.refresh hstep
  | removeServer id => exact h.removeServer hstep
  | closeTemporaryServer id user =>
    have hok := h.ok.step hstep
    cases hstep
    exact h.frame hok rfl rfl fun user hu => .inr ⟨user, hu, rfl⟩
  | read r =>
    cases hstep
    exact h.runRead hno hkeeps

end

end CapabilityState

end PetaCore
