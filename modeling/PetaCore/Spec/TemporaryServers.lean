import PetaCore.Core.TemporaryServers
import PetaCore.ForStd.Run

/-!
# A user's server runs on the user's config

The launch config of a temporary context is a copy of the one that is stored for its user. Most
operations that change one of the two change the other with it. Three do not: UPDATE_SERVER puts
the template's own row in the place of the entity, a token refresh is written to the row of the
user and to the sessions only, and a context is restored from a session, whose copy of the config
outlives the removal of the server.

## Key results

- `own_config_iff`: over a run, every temporary context has the stored config in every state
  exactly when no step of the three kinds leaves it behind
- `template_config_used`: UPDATE_SERVER hands the template's config to a user's server
-/

namespace PetaCore

open Run

namespace ConfigState

variable {userId : UserId} {serverId : String}

/-! ## The property and the condition -/

/-- Every temporary context has, for its next connection, the config that is stored for its
    server in the row of its user. -/
def OwnConfig (s : ConfigState) : Prop :=
  ∀ k c, s.temporaryServers.get? k = some c →
    s.storedConfig c.userId c.serverId = some c.serverEntity.launchConfig

/-- What must hold before a step: the row that UPDATE_SERVER puts in the place of entities has
    the stored config of each user of the server; the config that a token refresh stores is the
    one that is stored; and the session that a context is restored from has the stored config. -/
def keepsOwnConfig (s : ConfigState) : ConfigAction → Bool
  | .updateServer serverId update =>
    (s.replacesEntities serverId update).all fun server =>
      s.temporaryServers.values.all fun c =>
        c.serverId != serverId ||
          s.storedConfig c.userId c.serverId == some server.launchConfig
  | .refreshToken userId serverId encryptedLaunchConfig =>
    (s.temporaryServers.get? (internalKey serverId userId.value)).all fun c =>
      (s.persistedConfigs c encryptedLaunchConfig).isNone ||
        s.storedConfig c.userId c.serverId == some encryptedLaunchConfig
  | .ensureServerAvailable userId serverId _ =>
    (s.restores userId serverId).all fun serverEntity =>
      s.storedConfig userId serverId == some serverEntity.launchConfig
  | _ => true

/-- Contexts are where their server and user say. -/
def Keyed (s : ConfigState) : Prop :=
  ∀ k c, s.temporaryServers.get? k = some c → k = internalKey c.serverId c.userId.value

variable {s s' : ConfigState}

/-! ## Contexts -/

theorem get?_setContext {c : TemporaryContext} {k : String} :
    (s.setContext c).temporaryServers.get? k =
      if k = internalKey c.serverId c.userId.value then some c else s.temporaryServers.get? k :=
  Dict.get?_set _ _ _ _

theorem Keyed.setContext (h : s.Keyed) (c : TemporaryContext) : (s.setContext c).Keyed := by
  intro k c' hc'
  rw [get?_setContext] at hc'
  split at hc'
  · next hk =>
    cases hc'
    exact hk
  · exact h k c' hc'

/-- A context is put in place: it has the stored config, and so have the others. -/
theorem ownConfig_setContext_iff (c : TemporaryContext) :
    (s.setContext c).OwnConfig ↔
      s.storedConfig c.userId c.serverId = some c.serverEntity.launchConfig ∧
        ∀ k c', s.temporaryServers.get? k = some c' → k ≠ internalKey c.serverId c.userId.value →
          s.storedConfig c'.userId c'.serverId = some c'.serverEntity.launchConfig := by
  constructor
  · intro h
    constructor
    · exact h (internalKey c.serverId c.userId.value) c (by rw [get?_setContext, if_pos rfl])
    · intro k c' hc' hk
      exact h k c' (by rw [get?_setContext, if_neg hk, hc'])
  · rintro ⟨hown, hothers⟩ k c' hc'
    rw [get?_setContext] at hc'
    split at hc'
    · cases hc'
      exact hown
    · next hk => exact hothers k c' hc' hk

theorem connect_entity (s : ConfigState) (c : TemporaryContext) (started : Bool) :
    ∃ status, s.connect c started = { c with status } := by
  unfold connect
  split
  · exact ⟨c.status, rfl⟩
  · exact ⟨c.status, rfl⟩
  · exact ⟨_, rfl⟩
  · exact ⟨_, rfl⟩
  · exact ⟨_, rfl⟩

/-- `createTemporaryServer` puts a context with the given entity in place. -/
theorem createdContext_eq (s : ConfigState) (userId : UserId) (serverId : String)
    (serverEntity : ServerRow) (sleep started : Bool) :
    ∃ status, s.createdContext userId serverId serverEntity sleep started =
      ⟨serverId, userId, serverEntity, status⟩ := by
  unfold createdContext
  simp only
  split
  · exact ⟨_, rfl⟩
  · split
    · exact ⟨_, rfl⟩
    · obtain ⟨status, heq⟩ := connect_entity s _ started
      exact ⟨status, heq⟩

/-- Contexts are removed, or change their status only. -/
theorem OwnConfig.of_contexts (h : s.OwnConfig) (husers : s'.users = s.users)
    (hcontexts : ∀ k c', s'.temporaryServers.get? k = some c' →
      ∃ c, s.temporaryServers.get? k = some c ∧ c'.serverId = c.serverId ∧
        c'.userId = c.userId ∧ c'.serverEntity.launchConfig = c.serverEntity.launchConfig) :
    s'.OwnConfig := by
  intro k c' hc'
  obtain ⟨c, hc, hserver, huser, hconfig⟩ := hcontexts k c' hc'
  rw [storedConfig, husers, hserver, huser, hconfig]
  exact h k c hc

theorem Keyed.of_contexts (h : s.Keyed)
    (hcontexts : ∀ k c', s'.temporaryServers.get? k = some c' →
      ∃ c, s.temporaryServers.get? k = some c ∧ c'.serverId = c.serverId ∧
        c'.userId = c.userId) : s'.Keyed := by
  intro k c' hc'
  obtain ⟨c, hc, hserver, huser⟩ := hcontexts k c' hc'
  rw [hserver, huser]
  exact h k c hc

theorem of_setStatus {status : TemporaryContext → ServerStatus}
    (hstep : s.setStatus userId serverId status = some s') :
    s'.users = s.users ∧ ∀ k c', s'.temporaryServers.get? k = some c' →
      ∃ c, s.temporaryServers.get? k = some c ∧ c'.serverId = c.serverId ∧
        c'.userId = c.userId ∧ c'.serverEntity.launchConfig = c.serverEntity.launchConfig := by
  obtain ⟨c, hc, rfl⟩ := Option.map_eq_some_iff.mp hstep
  refine ⟨rfl, ?_⟩
  intro k c' hc'
  rw [Dict.get?_set] at hc'
  split at hc'
  · next hk =>
    cases hc'
    exact ⟨c, hk ▸ hc, rfl, rfl, rfl⟩
  · exact ⟨c', hc', rfl, rfl, rfl⟩

theorem storedConfig_updateLaunchConfigs (s : ConfigState) (userId : UserId)
    (launchConfigs : Dict String) (userId' : UserId) (serverId' : String) :
    (s.updateLaunchConfigs userId launchConfigs).storedConfig userId' serverId' =
      if userId' = userId then launchConfigs.get? serverId'
      else s.storedConfig userId' serverId' := by
  unfold updateLaunchConfigs storedConfig
  simp only [Dict.get?_set]
  by_cases huser : userId' = userId
  · rw [if_pos (congrArg UserId.value huser), if_pos huser]
    rfl
  · have hvalue : userId'.value ≠ userId.value := fun h => huser (UserId.ext_value h)
    rw [if_neg hvalue, if_neg huser]

/-- A config is stored for one server of a user: the others stay. -/
theorem storedConfig_set {serverId config : String} {stored : Dict String}
    (hstored : s.users.get? userId.value = some stored) (userId' : UserId) (serverId' : String) :
    (s.updateLaunchConfigs userId (stored.set serverId config)).storedConfig userId' serverId' =
      if userId' = userId ∧ serverId' = serverId then some config
      else s.storedConfig userId' serverId' := by
  rw [storedConfig_updateLaunchConfigs]
  by_cases huser : userId' = userId
  · subst huser
    rw [if_pos rfl, Dict.get?_set]
    by_cases hserver : serverId' = serverId
    · rw [if_pos hserver, if_pos ⟨rfl, hserver⟩]
    · rw [if_neg hserver, if_neg (fun h => hserver h.2)]
      unfold storedConfig
      rw [hstored]
      rfl
  · rw [if_neg huser, if_neg (fun h => huser h.1)]

/-! ## What each operation does -/

theorem configureServer_spec (hkeyed : s.Keyed) (hown : s.OwnConfig) {serverId config : String}
    {started : Bool} (hstep : s.configureServer userId serverId config started = some s') :
    s'.Keyed ∧ s'.OwnConfig := by
  simp only [configureServer, Option.bind_eq_bind, Option.bind_eq_some_iff] at hstep
  obtain ⟨server, -, stored, hstored, hstep⟩ := hstep
  split at hstep
  · cases hstep
    unfold createTemporaryServer
    -- whatever its status, the new context has the new config
    obtain ⟨status, heq⟩ := createdContext_eq
      ((s.updateLaunchConfigs userId (stored.set serverId config)).syncSessions userId
        (stored.set serverId config)) userId serverId { server with launchConfig := config }
      false started
    rw [heq]
    have hkeyed' : ((s.updateLaunchConfigs userId (stored.set serverId config)).syncSessions
        userId (stored.set serverId config)).Keyed := hkeyed
    refine ⟨hkeyed'.setContext _, (ownConfig_setContext_iff _).mpr ⟨?_, ?_⟩⟩
    · exact (storedConfig_set hstored userId serverId).trans (if_pos ⟨rfl, rfl⟩)
    · -- another context is that of another server or user
      intro k c hc hk
      have hother : ¬ (c.userId = userId ∧ c.serverId = serverId) := by
        rintro ⟨huser, hserver⟩
        exact hk ((hkeyed k c hc).trans (by rw [huser, hserver]))
      exact ((storedConfig_set hstored c.userId c.serverId).trans (if_neg hother)).trans
        (hown k c hc)
  · cases hstep

theorem unconfigureServer_spec (hkeyed : s.Keyed) (hown : s.OwnConfig)
    (hstep : s.unconfigureServer userId serverId = some s') : s'.Keyed ∧ s'.OwnConfig := by
  simp only [unconfigureServer, Option.bind_eq_bind, Option.bind_eq_some_iff] at hstep
  obtain ⟨stored, hstored, hstep⟩ := hstep
  split at hstep
  · cases hstep
    exact ⟨hkeyed, hown⟩
  · cases hstep
    have hget : ∀ k c, (s.temporaryServers.erase (internalKey serverId userId.value)).get? k = some c →
        k ≠ internalKey serverId userId.value ∧ s.temporaryServers.get? k = some c := by
      intro k c hc
      rw [Dict.get?_erase] at hc
      split at hc
      · cases hc
      · next hk => exact ⟨hk, hc⟩
    -- what is left are the contexts of other servers or other users
    constructor
    · intro k c hc
      exact hkeyed k c (hget k c hc).2
    · intro k c hc
      obtain ⟨hk, hc⟩ := hget k c hc
      have hsame := hown k c hc
      rw [storedConfig_updateLaunchConfigs]
      split
      · next huser =>
        have hserver : c.serverId ≠ serverId := by
          intro hserver
          exact hk ((hkeyed k c hc).trans (by rw [huser, hserver]))
        rw [Dict.get?_erase, if_neg hserver]
        rw [storedConfig, huser, hstored] at hsame
        exact hsame
      · exact hsame

/-- The servers of a session are started on the configs of the session, which are those of the
    user's row. -/
theorem startTemporaryServers_spec {stored : Dict String} (started : String → Bool)
    (entries : List (String × String)) (s : ConfigState) (hkeyed : s.Keyed) (hown : s.OwnConfig)
    (hstored : s.users.get? userId.value = some stored)
    (hentries : ∀ e ∈ entries, stored.get? e.1 = some e.2) :
    (entries.foldl (startTemporaryServer started userId) s).Keyed ∧
      (entries.foldl (startTemporaryServer started userId) s).OwnConfig := by
  -- each entry leaves the row of the user as it is, so the invariant passes to the rest
  induction entries generalizing s with
  | nil => exact ⟨hkeyed, hown⟩
  | cons e rest ih =>
    obtain ⟨serverId, config⟩ := e
    have hconfig : stored.get? serverId = some config := hentries (serverId, config) (by simp)
    have hrest : ∀ e ∈ rest, stored.get? e.1 = some e.2 :=
      fun e he => hentries e (List.mem_cons_of_mem _ he)
    rw [List.foldl_cons]
    simp only [startTemporaryServer]
    split
    · exact ih s hkeyed hown hstored hrest
    · split
      · exact ih s hkeyed hown hstored hrest
      · next server hserver =>
        split
        · unfold createTemporaryServer
          obtain ⟨status, heq⟩ := createdContext_eq s userId serverId
            { server with launchConfig := config } true (started serverId)
          rw [heq]
          refine ih _ (hkeyed.setContext _) ?_ hstored hrest
          refine (ownConfig_setContext_iff _).mpr ⟨?_, fun k c hc _ => hown k c hc⟩
          simp only [storedConfig, hstored, Option.bind_some]
          exact hconfig
        · exact ih s hkeyed hown hstored hrest

theorem startSession_spec (hkeyed : s.Keyed) (hown : s.OwnConfig) {started : String → Bool}
    (hstep : s.startSession userId started = some s') : s'.Keyed ∧ s'.OwnConfig := by
  simp only [startSession, Option.bind_eq_bind, Option.bind_eq_some_iff] at hstep
  obtain ⟨stored, hstored, hstep⟩ := hstep
  cases hstep
  refine startTemporaryServers_spec started stored.entries _ hkeyed hown hstored ?_
  intro e he
  exact (Dict.mem_entries stored e.1 e.2).mp he

theorem endSession_spec (hkeyed : s.Keyed) (hown : s.OwnConfig) {session : Nat}
    (hstep : s.endSession session = some s') : s'.Keyed ∧ s'.OwnConfig := by
  simp only [endSession, Option.bind_eq_bind, Option.bind_eq_some_iff] at hstep
  obtain ⟨ended, -, hstep⟩ := hstep
  split at hstep
  · cases hstep
    exact ⟨hkeyed, hown⟩
  · cases hstep
    constructor
    · exact hkeyed.of_contexts fun k c hc =>
        ⟨c, ((Dict.get?_filterKeyed_eq_some _ _ _ _).mp hc).1, rfl, rfl⟩
    · exact hown.of_contexts rfl fun k c hc =>
        ⟨c, ((Dict.get?_filterKeyed_eq_some _ _ _ _).mp hc).1, rfl, rfl, rfl⟩

theorem refreshUserInfo_spec (hkeyed : s.Keyed) (hown : s.OwnConfig) {session : Nat}
    (hstep : s.refreshUserInfo session = some s') : s'.Keyed ∧ s'.OwnConfig := by
  simp only [refreshUserInfo, Option.bind_eq_bind, Option.bind_eq_some_iff] at hstep
  obtain ⟨old, -, stored, -, hstep⟩ := hstep
  cases hstep
  exact ⟨hkeyed, hown⟩

theorem setStatus_spec (hkeyed : s.Keyed) (hown : s.OwnConfig)
    {status : TemporaryContext → ServerStatus}
    (hstep : s.setStatus userId serverId status = some s') : s'.Keyed ∧ s'.OwnConfig := by
  obtain ⟨husers, hcontexts⟩ := of_setStatus hstep
  constructor
  · apply hkeyed.of_contexts
    intro k c' hc'
    obtain ⟨c, hc, hserver, huser, -⟩ := hcontexts k c' hc'
    exact ⟨c, hc, hserver, huser⟩
  · exact hown.of_contexts husers hcontexts

/-- A refreshed token is stored for the server and the user of the context. -/
theorem of_persistedConfigs {c : TemporaryContext} {config : String} {launchConfigs : Dict String}
    (h : s.persistedConfigs c config = some launchConfigs) :
    ∃ stored, s.users.get? c.userId.value = some stored ∧
      launchConfigs = stored.set c.serverId config := by
  simp only [persistedConfigs, Option.bind_eq_bind, Option.bind_eq_some_iff] at h
  obtain ⟨stored, hstored, -, -, h⟩ := h
  split at h
  · cases h
  · exact ⟨stored, hstored, (Option.some.inj h).symm⟩

theorem refreshToken_spec (hkeyed : s.Keyed) (hown : s.OwnConfig) {serverId config : String}
    (hstep : s.refreshToken userId serverId config = some s') :
    s'.Keyed ∧
      (s'.OwnConfig ↔ s.keepsOwnConfig (.refreshToken userId serverId config) = true) := by
  simp only [refreshToken, Option.bind_eq_bind, Option.bind_eq_some_iff] at hstep
  obtain ⟨c, hc, hstep⟩ := hstep
  split at hstep
  · next hnone =>
    cases hstep
    refine ⟨hkeyed, ?_⟩
    simp only [keepsOwnConfig, hc, Option.all_some, hnone, Option.isNone_none, Bool.true_or,
      iff_true]
    exact hown
  · next launchConfigs hsome =>
    cases hstep
    refine ⟨hkeyed, ?_⟩
    obtain ⟨stored, hstored, rfl⟩ := of_persistedConfigs hsome
    simp only [keepsOwnConfig, hc, Option.all_some, hsome, Option.isNone_some, Bool.false_or,
      beq_iff_eq]
    have hset : ∀ userId' serverId',
        (s.updateLaunchConfigs c.userId (stored.set c.serverId config)).storedConfig userId'
          serverId' =
        if userId' = c.userId ∧ serverId' = c.serverId then some config
        else s.storedConfig userId' serverId' := storedConfig_set hstored
    constructor
    · intro h
      -- the context has kept the config that was stored
      have hnew := (hset c.userId c.serverId).symm.trans (h _ c hc)
      rw [if_pos ⟨rfl, rfl⟩] at hnew
      rw [hnew]
      exact hown _ c hc
    · intro h k c' hc'
      refine (hset c'.userId c'.serverId).trans ?_
      split
      · next hsame =>
        rw [← h, ← hsame.1, ← hsame.2]
        exact hown k c' hc'
      · exact hown k c' hc'

theorem ensureServerAvailable_spec (hkeyed : s.Keyed) (hown : s.OwnConfig) {started : Bool}
    (hstep : s.ensureServerAvailable userId serverId started = some s') :
    s'.Keyed ∧ (s'.OwnConfig ↔
      s.keepsOwnConfig (.ensureServerAvailable userId serverId started) = true) := by
  simp only [ensureServerAvailable] at hstep
  split at hstep
  · next serverEntity hrestores =>
    have hctx : ∃ status, s' = s.setContext ⟨serverId, userId, serverEntity, status⟩ := by
      cases hstep
      split
      · obtain ⟨status, heq⟩ := connect_entity s ⟨serverId, userId, serverEntity, .sleeping⟩ started
        exact ⟨status, by rw [heq]⟩
      · exact ⟨.offline, rfl⟩
    obtain ⟨status, rfl⟩ := hctx
    refine ⟨hkeyed.setContext _, ?_⟩
    simp only [keepsOwnConfig, hrestores, Option.all_some, beq_iff_eq]
    rw [ownConfig_setContext_iff]
    constructor
    · intro h
      exact h.1
    · intro h
      exact ⟨h, fun k c hc _ => hown k c hc⟩
  · next hrestores =>
    simp only [keepsOwnConfig, hrestores, Option.all_none, iff_true]
    split at hstep
    · cases hstep
      exact ⟨hkeyed, hown⟩
    · exact setStatus_spec hkeyed hown hstep

theorem updateManaged_users (s : ConfigState) (serverId : String) (existing server : ServerRow)
    (update : ServerUpdate) :
    (s.updateManaged serverId existing server update).users = s.users := by
  unfold updateManaged
  repeat' split
  all_goals rfl

theorem get?_replaceEntities (s : ConfigState) (serverId : String) (server : ServerRow)
    (sleep : Bool) (k : String) :
    (s.replaceEntities serverId server sleep).temporaryServers.get? k =
      (s.temporaryServers.get? k).map fun c =>
        if c.serverId = serverId then
          { c with
            serverEntity := server
            status :=
              if sleep && c.status != .online && c.status != .connecting then .sleeping
              else c.status }
        else c :=
  Dict.get?_map _ _ _

/-- The contexts of a server get a new entity: the others stay as they are. -/
theorem ownConfig_replaceEntities_iff (hown : s.OwnConfig) {server : ServerRow} {sleep : Bool}
    (husers : s'.users = s.users) (hcontexts :
      s'.temporaryServers = (s.replaceEntities serverId server sleep).temporaryServers) :
    s'.OwnConfig ↔ ∀ k c, s.temporaryServers.get? k = some c → c.serverId = serverId →
      s.storedConfig c.userId c.serverId = some server.launchConfig := by
  have hstored : ∀ userId' serverId', s'.storedConfig userId' serverId' =
      s.storedConfig userId' serverId' := by
    intro userId' serverId'
    rw [storedConfig, husers, storedConfig]
  constructor
  · intro h k c hc hserver
    have hget := get?_replaceEntities s serverId server sleep k
    rw [← hcontexts, hc, Option.map_some, if_pos hserver] at hget
    have hnew := h k _ hget
    rw [hstored] at hnew
    exact hnew
  · intro h k c' hc'
    rw [hcontexts, get?_replaceEntities] at hc'
    obtain ⟨c, hc, rfl⟩ := Option.map_eq_some_iff.mp hc'
    rw [hstored]
    split
    · next hserver => exact h k c hc hserver
    · exact hown k c hc

theorem updateServer_spec (hkeyed : s.Keyed) (hown : s.OwnConfig) {update : ServerUpdate}
    (hstep : s.updateServer serverId update = some s') :
    s'.Keyed ∧
      (s'.OwnConfig ↔ s.keepsOwnConfig (.updateServer serverId update) = true) := by
  simp only [updateServer, Option.bind_eq_bind, Option.bind_eq_some_iff] at hstep
  obtain ⟨existing, hexisting, server, hserver, hstep⟩ := hstep
  cases hstep
  by_cases hclose : (existing.enabled && !server.enabled && existing.allowUserInput) = true
  · -- the server is disabled, and its contexts are closed
    have hnone : s.replacesEntities serverId update = none := by
      simp only [Bool.and_eq_true, Bool.not_eq_true'] at hclose
      simp [replacesEntities, hexisting, hserver, hclose.1.2]
    simp only [keepsOwnConfig, hnone, Option.all_none, iff_true, hclose, if_true]
    constructor
    · exact hkeyed.of_contexts fun k c hc =>
        ⟨c, ((Dict.get?_filterKeyed_eq_some _ _ _ _).mp hc).1, rfl, rfl⟩
    · exact hown.of_contexts (updateManaged_users s serverId existing server update)
        fun k c hc => ⟨c, ((Dict.get?_filterKeyed_eq_some _ _ _ _).mp hc).1, rfl, rfl, rfl⟩
  · simp only [hclose]
    cases hreplaces : s.replacesEntities serverId update with
    | none =>
      simp only [keepsOwnConfig, hreplaces, Option.all_none, iff_true]
      exact ⟨hkeyed, hown.of_contexts (updateManaged_users s serverId existing server update)
        fun k c hc => ⟨c, hc, rfl, rfl, rfl⟩⟩
    | some row =>
      constructor
      · apply hkeyed.of_contexts
        intro k c' hc'
        obtain ⟨c, hc, rfl⟩ := Option.map_eq_some_iff.mp ((Dict.get?_map _ _ _).symm.trans hc')
        refine ⟨c, hc, ?_⟩
        split <;> exact ⟨rfl, rfl⟩
      · refine Iff.trans (ownConfig_replaceEntities_iff hown ?_ rfl) ?_
        · exact updateManaged_users s serverId existing server update
        simp only [keepsOwnConfig, hreplaces, Option.all_some, List.all_eq_true]
        constructor
        · intro h c hc
          obtain ⟨k, hk⟩ := Dict.mem_values hc
          by_cases hid : c.serverId = serverId
          · simp [hid, hid ▸ h k c hk hid]
          · simp [hid]
        · intro h k c hc hid
          have hall := h c (Dict.mem_values_of_get? hc)
          simpa [hid] using hall

/-- What one step does to the configs, from a state in which they are in place. -/
theorem step_spec (hkeyed : s.Keyed) (hown : s.OwnConfig) {a : ConfigAction}
    (hstep : step s a = some s') :
    s'.Keyed ∧ (s'.OwnConfig ↔ s.keepsOwnConfig a = true) := by
  -- most operations keep the configs in place without a condition
  have always : s'.Keyed ∧ s'.OwnConfig → s.keepsOwnConfig a = true →
      s'.Keyed ∧ (s'.OwnConfig ↔ s.keepsOwnConfig a = true) :=
    fun h htrue => ⟨h.1, fun _ => htrue, fun _ => h.2⟩
  cases a with
  | configureServer userId serverId config started =>
    exact always (configureServer_spec hkeyed hown hstep) rfl
  | unconfigureServer userId serverId =>
    exact always (unconfigureServer_spec hkeyed hown hstep) rfl
  | startSession userId started => exact always (startSession_spec hkeyed hown hstep) rfl
  | endSession session => exact always (endSession_spec hkeyed hown hstep) rfl
  | refreshUserInfo session => exact always (refreshUserInfo_spec hkeyed hown hstep) rfl
  | updateServer serverId update => exact updateServer_spec hkeyed hown hstep
  | refreshToken userId serverId config => exact refreshToken_spec hkeyed hown hstep
  | sleepServer _ _ | transportClosed _ _ => exact always (setStatus_spec hkeyed hown hstep) rfl
  | ensureServerAvailable userId serverId started =>
    exact ensureServerAvailable_spec hkeyed hown hstep
  | reconnectTemporaryServer userId serverId started =>
    exact always (setStatus_spec hkeyed hown hstep) rfl

/-! ## Runs -/

theorem ownConfig_of_run {trs : List (Transition ConfigState ConfigAction)} (hkeyed : s.Keyed)
    (hown : s.OwnConfig) (hrun : IsRun step s trs s') :
    (∀ tr ∈ trs, tr.post.OwnConfig) ↔ ∀ tr ∈ trs, tr.pre.keepsOwnConfig tr.act = true := by
  -- up to the first step that leaves a config behind, both sides hold together
  induction trs generalizing s with
  | nil => simp
  | cons tr trs ih =>
    obtain ⟨rfl, hstep, hrest⟩ := hrun
    obtain ⟨hkeyed', hiff⟩ := step_spec hkeyed hown hstep
    rw [List.forall_mem_cons, List.forall_mem_cons]
    constructor
    · rintro ⟨hpost, hposts⟩
      exact ⟨hiff.mp hpost, (ih hkeyed' hpost hrest).mp hposts⟩
    · rintro ⟨hkeeps, hall⟩
      have hpost := hiff.mpr hkeeps
      exact ⟨hpost, (ih hkeyed' hpost hrest).mpr hall⟩

theorem keyed_init (globalEnabled : Bool) (servers : Dict ServerRow)
    (users : Dict (Dict String)) : (init globalEnabled servers users).Keyed := by
  intro k c hc
  rw [init, Dict.get?_empty] at hc
  cases hc

theorem ownConfig_init (globalEnabled : Bool) (servers : Dict ServerRow)
    (users : Dict (Dict String)) : (init globalEnabled servers users).OwnConfig := by
  intro k c hc
  rw [init, Dict.get?_empty] at hc
  cases hc

/-- Every temporary context has the stored config in every state of a run exactly when no step
    of the run leaves a config behind. -/
theorem own_config_iff (globalEnabled : Bool) (servers : Dict ServerRow)
    (users : Dict (Dict String)) (trs : List (Transition ConfigState ConfigAction))
    (s : ConfigState) (hrun : IsRun step (init globalEnabled servers users) trs s) :
    (∀ tr ∈ trs, tr.post.OwnConfig) ↔ ∀ tr ∈ trs, tr.pre.keepsOwnConfig tr.act = true :=
  ownConfig_of_run (keyed_init globalEnabled servers users)
    (ownConfig_init globalEnabled servers users) hrun

def configUser : UserId := ⟨"c3", UserId.hex_of_all (by decide)⟩

/-- A remote server that each user configures. -/
def templateServers : Dict ServerRow :=
  Dict.empty.set "mail"
    ⟨"template config", some "https://mail", .customRemote, true, true, false, false⟩

def unconfiguredUsers : Dict (Dict String) := Dict.empty.set configUser.value .empty

/-- The template is updated before the user configures it; the server is closed, woken up and
    reconnected, and at last removed. -/
def configureAndRemove : List ConfigAction :=
  [.updateServer "mail" ⟨none, none, some true, none⟩, .startSession configUser fun _ => true,
    .configureServer configUser "mail" "user config" true, .transportClosed configUser "mail",
    .ensureServerAvailable configUser "mail" true, .sleepServer configUser "mail",
    .reconnectTemporaryServer configUser "mail" true, .unconfigureServer configUser "mail",
    .endSession 0]

theorem own_config_configureAndRemove :
    (exec step (init true templateServers unconfiguredUsers) configureAndRemove).isSome = true ∧
      ∀ tr ∈ trace step (init true templateServers unconfiguredUsers) configureAndRemove,
        tr.post.OwnConfig := by
  refine ⟨by decide, ?_⟩
  apply (own_config_iff true templateServers unconfiguredUsers _
    ((exec step (init true templateServers unconfiguredUsers) configureAndRemove).get (by decide))
    (isRun_trace _ _ _ (by simp))).mpr
  decide

/-- The template is updated after the user has configured it. -/
def updateAfterConfigure : List ConfigAction :=
  [.startSession configUser fun _ => true, .configureServer configUser "mail" "user config" true,
    .updateServer "mail" ⟨none, none, some true, none⟩]

/-- An update of the template that does not touch its config puts that config in the place of
    the user's. -/
theorem template_config_used :
    ¬ ∀ (globalEnabled : Bool) (servers : Dict ServerRow) (users : Dict (Dict String))
      (trs : List (Transition ConfigState ConfigAction)) (s : ConfigState),
      IsRun step (init globalEnabled servers users) trs s → ∀ tr ∈ trs, tr.post.OwnConfig := by
  intro h
  have hrun : IsRun step (init true templateServers unconfiguredUsers)
      (trace step (init true templateServers unconfiguredUsers) updateAfterConfigure)
      ((exec step (init true templateServers unconfiguredUsers) updateAfterConfigure).get
        (by decide)) :=
    isRun_trace _ _ _ (by simp)
  have hlast : ∃ tr ∈ trace step (init true templateServers unconfiguredUsers)
      updateAfterConfigure,
      tr.post.temporaryServers.get? "mail:c3" = some ⟨"mail", configUser,
        ⟨"template config", some "https://mail", .customRemote, true, true, true, false⟩,
        .online⟩ ∧
      tr.post.storedConfig configUser "mail" = some "user config" := by
    decide
  obtain ⟨tr, htr, hcontext, hstored⟩ := hlast
  have hown := h true templateServers unconfiguredUsers _ _ hrun tr htr _ _ hcontext
  rw [hstored] at hown
  exact absurd hown (by decide)

end ConfigState

end PetaCore
