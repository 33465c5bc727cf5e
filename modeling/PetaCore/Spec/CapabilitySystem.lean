import PetaCore.Spec.CapabilityView

/-!
# Configurations over whole runs

Whatever administrators, connections and users do, the objects of the server contexts'
configurations exist and none is part of two of them. So what a read writes through one
context is seen through that context only.

## Key results

- `CapabilityState.Ok.step`: every operation keeps the configurations in order
- `CapabilityState.ok_of_run`: they are in order in every state that is reached
-/

namespace PetaCore

open Run

namespace CapabilityState

/-! ## Contexts by location -/

/-- The manager with another context at a location. -/
def setContext {κ : Type} (m : ServerManager κ) (l : Bool × String) (c : ServerContext κ) :
    ServerManager κ :=
  match l with
  | (true, serverId) => { m with serverContexts := m.serverContexts.set serverId c }
  | (false, key) => { m with temporaryServers := m.temporaryServers.set key c }

/-- The manager with no context at a location. -/
def eraseContext {κ : Type} (m : ServerManager κ) (l : Bool × String) : ServerManager κ :=
  match l with
  | (true, serverId) => { m with serverContexts := m.serverContexts.erase serverId }
  | (false, key) => { m with temporaryServers := m.temporaryServers.erase key }

theorem contextAt_setContext {κ : Type} (m : ServerManager κ) (l : Bool × String)
    (c : ServerContext κ) (l' : Bool × String) :
    contextAt (setContext m l c) l' = if l' = l then some c else contextAt m l' := by
  obtain ⟨b, key⟩ := l
  obtain ⟨b', key'⟩ := l'
  cases b <;> cases b' <;> simp [setContext, contextAt, Dict.get?_set]

theorem contextAt_eraseContext {κ : Type} (m : ServerManager κ) (l l' : Bool × String) :
    contextAt (eraseContext m l) l' = if l' = l then none else contextAt m l' := by
  obtain ⟨b, key⟩ := l
  obtain ⟨b', key'⟩ := l'
  cases b <;> cases b' <;> simp [eraseContext, contextAt, Dict.get?_erase]

/-! ## Contexts by value -/

/-- Contexts read the same as long as their objects do. -/
theorem contextAt_view {h h' : Heap CapabilityConfig} {m : ServerManager Ref}
    (hok : ConfigsOk h m) (hframe : ∀ r, r < h.length → h'.read r = h.read r)
    (l : Bool × String) : contextAt (m.map h'.read) l = contextAt (m.map h.read) l := by
  rw [contextAt_map, contextAt_map]
  cases hc : contextAt m l with
  | none => rfl
  | some c =>
    simp only [Option.map_some, ServerContext.map]
    congr 2
    exact ServerConfigCapabilities.map_congr fun kind name r hr =>
      hframe r (hok.holds l c hc kind name r hr)

/-- Contexts by value after one of them was exchanged. -/
theorem contextAt_setContext_map {h h' : Heap CapabilityConfig} {m : ServerManager Ref}
    (hok : ConfigsOk h m) (hframe : ∀ r, r < h.length → h'.read r = h.read r)
    (l : Bool × String) (c : ServerContext Ref) (l' : Bool × String) :
    contextAt ((setContext m l c).map h'.read) l' =
      if l' = l then some (c.map h'.read) else contextAt (m.map h.read) l' := by
  rw [contextAt_map, contextAt_setContext]
  split
  · rfl
  · rw [← contextAt_view hok hframe, contextAt_map]

/-- A context whose configuration was updated, by value. -/
theorem updateCapabilitiesConfig_spec (h : Heap CapabilityConfig) (c : ServerContext Ref)
    (config : ServerConfigCapabilities CapabilityConfig) :
    (∀ r, r < h.length → (c.updateCapabilitiesConfig h config).1.read r = h.read r) ∧
    (c.updateCapabilitiesConfig h config).2.map (c.updateCapabilitiesConfig h config).1.read =
      if c.serverEntity.capabilities = config then c.map h.read
      else { c.map h.read with
        serverEntity := { c.serverEntity with capabilities := config }
        capabilitiesConfig := config } := by
  simp only [ServerContext.updateCapabilitiesConfig]
  split
  · exact ⟨fun _ _ => rfl, rfl⟩
  · have hbuilt := config.parse_built h
    refine ⟨hbuilt.frame, ?_⟩
    simp only [ServerContext.map, hbuilt.values]

/-! ## Configurations in order -/

section

variable {h h' : Heap CapabilityConfig} {m : ServerManager Ref} {l : Bool × String}
  {c c' : ServerContext Ref}

theorem ConfigsOk.mono (hok : ConfigsOk h m) (hle : h.length ≤ h'.length) : ConfigsOk h' m where
  holds := fun l c hc kind name r hr => Nat.lt_of_lt_of_le (hok.holds l c hc kind name r hr) hle
  separate := hok.separate

/-- A context that keeps its configuration. -/
theorem ConfigsOk.setContext_same (hok : ConfigsOk h m) (hc : contextAt m l = some c)
    (hconfig : c'.capabilitiesConfig = c.capabilitiesConfig) :
    ConfigsOk h (setContext m l c') := by
  have hold : ∀ l₁ c₁, contextAt (setContext m l c') l₁ = some c₁ →
      ∃ c₀, contextAt m l₁ = some c₀ ∧ c₁.capabilitiesConfig = c₀.capabilitiesConfig := by
    intro l₁ c₁ hc₁
    rw [contextAt_setContext] at hc₁
    split at hc₁
    · rename_i hl
      cases hc₁
      exact ⟨c, hl ▸ hc, hconfig⟩
    · exact ⟨c₁, hc₁, rfl⟩
  constructor
  · intro l₁ c₁ hc₁ kind name r hr
    obtain ⟨c₀, hc₀, heq⟩ := hold l₁ c₁ hc₁
    rw [heq] at hr
    exact hok.holds l₁ c₀ hc₀ kind name r hr
  · intro l₁ c₁ l₂ c₂ kind name kind' name' r hc₁ hc₂ hr hr'
    obtain ⟨c₀, hc₀, heq⟩ := hold l₁ c₁ hc₁
    obtain ⟨c₀', hc₀', heq'⟩ := hold l₂ c₂ hc₂
    rw [heq] at hr
    rw [heq'] at hr'
    exact hok.separate l₁ c₀ l₂ c₀' kind name kind' name' r hc₀ hc₀' hr hr'

/-- A context with a configuration that was just parsed. -/
theorem ConfigsOk.setContext_new (hok : ConfigsOk h m)
    {v : ServerConfigCapabilities CapabilityConfig}
    (hbuilt : ServerConfigCapabilities.Built h (fun _ _ _ => False) v h' c.capabilitiesConfig) :
    ConfigsOk h' (setContext m l c) := by
  have hnew : ∀ kind name r, c.capabilitiesConfig.ref? kind name = some r →
      h.length ≤ r ∧ r < h'.length := by
    intro kind name r hr
    rcases hbuilt.origin kind name r hr with ⟨ho, _⟩ | hnew
    · cases ho
    · exact hnew
  constructor
  · intro l₁ c₁ hc₁ kind name r hr
    rw [contextAt_setContext] at hc₁
    split at hc₁
    · cases hc₁
      exact (hnew kind name r hr).2
    · exact Nat.lt_of_lt_of_le (hok.holds l₁ c₁ hc₁ kind name r hr) hbuilt.grows
  · intro l₁ c₁ l₂ c₂ kind name kind' name' r hc₁ hc₂ hr hr'
    rw [contextAt_setContext] at hc₁ hc₂
    -- the new objects lie beyond all the old ones
    split at hc₁
    · rename_i hl₁
      cases hc₁
      split at hc₂
      · rename_i hl₂
        cases hc₂
        exact ⟨hl₁.trans hl₂.symm, hbuilt.separate kind name kind' name' r hr hr'⟩
      · have hlt := hok.holds l₂ c₂ hc₂ kind' name' r hr'
        exact absurd (Nat.lt_of_lt_of_le hlt (hnew kind name r hr).1) (Nat.lt_irrefl r)
    · split at hc₂
      · cases hc₂
        have hlt := hok.holds l₁ c₁ hc₁ kind name r hr
        exact absurd (Nat.lt_of_lt_of_le hlt (hnew kind' name' r hr').1) (Nat.lt_irrefl r)
      · exact hok.separate l₁ c₁ l₂ c₂ kind name kind' name' r hc₁ hc₂ hr hr'

theorem ConfigsOk.eraseContext (hok : ConfigsOk h m) : ConfigsOk h (eraseContext m l) := by
  have hold : ∀ l₁ c₁, contextAt (CapabilityState.eraseContext m l) l₁ = some c₁ →
      contextAt m l₁ = some c₁ := by
    intro l₁ c₁ hc₁
    rw [contextAt_eraseContext] at hc₁
    split at hc₁
    · cases hc₁
    · exact hc₁
  constructor
  · intro l₁ c₁ hc₁
    exact hok.holds l₁ c₁ (hold l₁ c₁ hc₁)
  · intro l₁ c₁ l₂ c₂ kind name kind' name' r hc₁ hc₂
    exact hok.separate l₁ c₁ l₂ c₂ kind name kind' name' r (hold l₁ c₁ hc₁) (hold l₂ c₂ hc₂)

end

/-! ## Steps -/

section

variable {s s' : CapabilityState}

theorem Ok.init : CapabilityState.init.Ok where
  configs := {
    holds := by
      rintro ⟨_ | _, key⟩ c hc
      · cases hc
      · cases hc
    separate := by
      rintro ⟨_ | _, key⟩ c l' c' kind name kind' name' r hc
      · cases hc
      · cases hc }
  keyed := fun _ _ h => by cases h

/-- Building a view adds objects and changes nothing else than the heap. -/
theorem getUserCapabilities_grows (hs : s.Ok) (userId : String) :
    s.heap.length ≤ (s.getUserCapabilities userId).1.heap.length := by
  cases hu : s.users.get? userId with
  | none =>
    simp only [getUserCapabilities, hu]
    exact Nat.le_refl _
  | some user => exact (getUserCapabilities_spec hs hu).1

theorem getUserCapabilities_fst (s : CapabilityState) (userId : String) :
    (s.getUserCapabilities userId).1 =
      { s with heap := (s.getUserCapabilities userId).1.heap } := by
  cases hu : s.users.get? userId with
  | none => simp only [getUserCapabilities, hu]
  | some user => rw [getUserCapabilities_eq hu]

/-- An operation of a user: it leaves the heap of building the view, and may store the
    user's preferences. -/
theorem runRead_cases (s : CapabilityState) (r : CapabilityRead) :
    s.runRead r = { s with heap := (s.getUserCapabilities r.userId.value).1.heap } ∨
    ∃ submitted user prefs, r = .handleSetCapabilities r.userId submitted ∧
      s.users.get? r.userId.value = some user ∧
      extractEnabledFields submitted (s.userView r.userId.value) = some prefs ∧
      s.runRead r = { s with
        heap := (s.getUserCapabilities r.userId.value).1.heap
        users := s.users.set r.userId.value { user with userPreferences := some prefs } } := by
  cases r with
  | getUserCapabilities userId => exact Or.inl (getUserCapabilities_fst s userId.value)
  | handleSetCapabilities userId submitted =>
    simp only [runRead, handleSetCapabilities, CapabilityRead.userId]
    rw [getUserCapabilities_fst]
    simp only
    cases hu : s.users.get? userId.value with
    | none => exact Or.inl rfl
    | some user =>
      cases hprefs : extractEnabledFields submitted (s.userView userId.value) with
      | none => exact Or.inl rfl
      | some prefs => exact Or.inr ⟨submitted, user, prefs, rfl, rfl, hprefs, rfl⟩

theorem Ok.runRead (hs : s.Ok) (r : CapabilityRead) : (s.runRead r).Ok := by
  have hconfigs : ConfigsOk (s.getUserCapabilities r.userId.value).1.heap s.manager :=
    hs.configs.mono (getUserCapabilities_grows hs r.userId.value)
  rcases runRead_cases s r with h | ⟨submitted, user, prefs, _, _, _, h⟩
  · rw [h]
    exact ⟨hconfigs, hs.keyed⟩
  · rw [h]
    exact ⟨hconfigs, hs.keyed⟩

/-- Storing a row under its own id. -/
theorem keyed_set {servers : Dict Server}
    (hkeyed : ∀ serverId server, servers.get? serverId = some server →
      server.serverId = serverId) (row : Server) {serverId : String}
    (hrow : row.serverId = serverId) (sid : String) (server : Server)
    (h : (servers.set serverId row).get? sid = some server) : server.serverId = sid := by
  rw [Dict.get?_set] at h
  split at h
  · rename_i hsid
    cases h
    rw [hrow, hsid]
  · exact hkeyed sid server h

/-- Setting up a context: a new one, or the old one with its row exchanged. -/
theorem Ok.initializeContext (hs : s.Ok) (l : Bool × String) (server : Server)
    (userId : Option String) {contexts : Dict (ServerContext Ref)}
    (hget : contexts.get? l.2 = contextAt s.manager l) :
    ∃ h c, (s.initializeContext contexts l.2 server userId).1 = h ∧
      (s.initializeContext contexts l.2 server userId).2.1 = contexts.set l.2 c ∧
      ConfigsOk h (setContext s.manager l c) ∧ (∀ r, r < s.heap.length → h.read r = s.heap.read r) ∧
      c.serverEntity = server ∧
      c.capabilitiesConfig.map h.read =
        match contextAt s.view l with
        | some c₀ => c₀.capabilitiesConfig
        | none => server.capabilities := by
  rw [view, contextAt_map]
  simp only [CapabilityState.initializeContext]
  cases hc : contexts.get? l.2 with
  | some c =>
    rw [hget] at hc
    rw [hc]
    exact ⟨_, _, rfl, rfl, hs.configs.setContext_same hc rfl, fun _ _ => rfl, rfl, rfl⟩
  | none =>
    rw [hget] at hc
    rw [hc]
    have hbuilt := server.capabilities.parse_built s.heap
    exact ⟨_, _, rfl, rfl, hs.configs.setContext_new hbuilt, hbuilt.frame, rfl, hbuilt.values⟩

/-- Every operation keeps the configurations in order. -/
theorem Ok.step (hs : s.Ok) {a : CapabilityAction} (h : s.step a = some s') : s'.Ok := by
  cases a with
  | saveServer server =>
    simp only [CapabilityState.step] at h
    cases hold : s.servers.get? server.serverId with
    | none | some _ =>
      simp only [hold, Option.some.injEq] at h
      subst h
      exact ⟨hs.configs, keyed_set hs.keyed _ rfl⟩
  | deleteServer serverId =>
    cases h
    refine ⟨hs.configs, ?_⟩
    intro sid server hget
    have hget' : (s.servers.erase serverId).get? sid = some server := hget
    rw [Dict.get?_erase] at hget'
    split at hget'
    · cases hget'
    · exact hs.keyed sid server hget'
  | updateServerCapabilities serverId newCapabilities =>
    simp only [CapabilityState.step, Option.bind_eq_bind, Option.bind_eq_some_iff] at h
    obtain ⟨server, hserver, h⟩ := h
    cases hconfig : getUpdatedCapabilities newCapabilities server.capabilities with
    | none =>
      simp only [hconfig] at h
      cases h
      exact hs
    | some config =>
      simp only [hconfig] at h
      have hkeyed := keyed_set hs.keyed { server with capabilities := config }
        (hs.keyed serverId server hserver)
      cases hc : s.manager.serverContexts.get? serverId with
      | none =>
        simp only [hc] at h
        cases h
        exact ⟨hs.configs, hkeyed⟩
      | some c =>
        simp only [hc, ServerContext.updateCapabilitiesConfig] at h
        cases h
        refine ⟨?_, hkeyed⟩
        split
        · exact hs.configs.setContext_same (l := (true, serverId)) hc rfl
        · exact hs.configs.setContext_new (l := (true, serverId)) (config.parse_built s.heap)
  | createUser userId permissions =>
    simp only [CapabilityState.step] at h
    split at h
    · cases h
    · cases h
      exact ⟨hs.configs, hs.keyed⟩
  | updatePermissions userId permissions =>
    simp only [CapabilityState.step, Option.bind_eq_bind, Option.bind_eq_some_iff] at h
    obtain ⟨user, _, h⟩ := h
    cases h
    exact ⟨hs.configs, hs.keyed⟩
  | initializeManagedServerContext serverId =>
    simp only [CapabilityState.step, Option.bind_eq_bind, Option.bind_eq_some_iff] at h
    obtain ⟨server, _, h⟩ := h
    cases h
    obtain ⟨h, c, hheap, hset, hok, _⟩ := hs.initializeContext (true, serverId) server none rfl
    refine ⟨?_, hs.keyed⟩
    simp only at hheap hset
    simp only [hheap, hset]
    exact hok
  | initializeTemporaryServerContext serverId userId =>
    simp only [CapabilityState.step, Option.bind_eq_bind, Option.bind_eq_some_iff] at h
    obtain ⟨server, _, h⟩ := h
    cases h
    obtain ⟨h, c, hheap, hset, hok, _⟩ := hs.initializeContext
      (false, internalKey serverId userId.value) server (some userId.value) rfl
    refine ⟨?_, hs.keyed⟩
    simp only at hheap hset
    simp only [hheap, hset]
    exact hok
  | refresh serverId userId status capabilities lists =>
    cases userId with
    | none =>
      simp only [CapabilityState.step, Option.bind_eq_bind, Option.bind_eq_some_iff] at h
      obtain ⟨c, hc, h⟩ := h
      cases h
      exact ⟨hs.configs.setContext_same (l := (true, serverId)) hc rfl, hs.keyed⟩
    | some userId =>
      simp only [CapabilityState.step, Option.bind_eq_bind, Option.bind_eq_some_iff] at h
      obtain ⟨c, hc, h⟩ := h
      cases h
      exact ⟨hs.configs.setContext_same (l := (false, internalKey serverId userId.value)) hc rfl,
        hs.keyed⟩
  | removeServer serverId =>
    cases h
    exact ⟨hs.configs.eraseContext (l := (true, serverId)), hs.keyed⟩
  | closeTemporaryServer serverId userId =>
    cases h
    exact ⟨hs.configs.eraseContext (l := (false, internalKey serverId userId.value)), hs.keyed⟩
  | read r =>
    cases h
    exact hs.runRead r

/-! ## Steps by value -/

/-- The configuration of a server is updated in its row and in its managed context, unless
    the context has it already. -/
theorem step_updateServerCapabilities (hs : s.Ok) {serverId : String}
    {newCapabilities : ServerConfigCapabilities CapabilityConfig}
    (h : s.step (.updateServerCapabilities serverId newCapabilities) = some s') :
    ∃ server, s.servers.get? serverId = some server ∧
      match getUpdatedCapabilities newCapabilities server.capabilities with
      | none => s' = s
      | some config =>
        s'.servers = s.servers.set serverId { server with capabilities := config } ∧
        s'.users = s.users ∧ ∀ l, contextAt s'.view l = (contextAt s.view l).map fun c =>
          if l = (true, serverId) ∧ c.serverEntity.capabilities ≠ config then
            { c with
              serverEntity := { c.serverEntity with capabilities := config }
              capabilitiesConfig := config }
          else c := by
  simp only [CapabilityState.step, Option.bind_eq_bind, Option.bind_eq_some_iff] at h
  obtain ⟨server, hserver, h⟩ := h
  refine ⟨server, hserver, ?_⟩
  cases hconfig : getUpdatedCapabilities newCapabilities server.capabilities with
  | none =>
    simp only [hconfig] at h
    exact (Option.some.inj h).symm
  | some config =>
    simp only [hconfig] at h
    have hview : contextAt s.view (true, serverId) =
        (s.manager.serverContexts.get? serverId).map (·.map s.heap.read) := by
      rw [view, contextAt_map]
      rfl
    cases hc : s.manager.serverContexts.get? serverId with
    | none =>
      simp only [hc] at h
      cases h
      refine ⟨rfl, rfl, ?_⟩
      intro l
      show contextAt s.view l = _
      by_cases hl : l = (true, serverId)
      · rw [hl, hview, hc]
        rfl
      · simp only [hl, false_and, if_false, Option.map_id_fun']
        rfl
    | some c =>
      simp only [hc] at h
      cases h
      obtain ⟨hframe, hvalue⟩ := updateCapabilitiesConfig_spec s.heap c config
      refine ⟨rfl, rfl, ?_⟩
      intro l
      show contextAt ((setContext s.manager (true, serverId)
        (c.updateCapabilitiesConfig s.heap config).2).map
        (c.updateCapabilitiesConfig s.heap config).1.read) l = _
      rw [contextAt_setContext_map hs.configs hframe, hvalue]
      by_cases hl : l = (true, serverId)
      · rw [hl, hview, hc, if_pos rfl, Option.map_some, Option.map_some]
        by_cases hsame : c.serverEntity.capabilities = config
        · rw [if_pos hsame, if_neg (fun hne => hne.2 hsame)]
        · rw [if_neg hsame, if_pos ⟨rfl, hsame⟩]
          rfl
      · simp only [hl, false_and, if_false, Option.map_id_fun']
        rfl

/-- The configurations are in order in every state that is reached. -/
theorem ok_of_run {trs : List (Transition CapabilityState CapabilityAction)}
    (h : IsRun CapabilityState.step CapabilityState.init trs s) : s.Ok :=
  h.invariant (fun _ _ _ hs hstep => hs.step hstep) Ok.init

end

end CapabilityState

end PetaCore
