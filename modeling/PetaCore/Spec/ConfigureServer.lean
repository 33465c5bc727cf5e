import PetaCore.Core.ConfigureServer

/-!
# What a failed configuration leaves

The launch config is stored before the server is started, and a start that fails does not take it
back. Up to then a failure leaves everything as it was; after it the new config stays under the
server, in the row of the user and in the sessions, and nothing of another server changes.

## Key results

- `Prepared`: the launch config is stored
- `Stored`: what has changed from then on
- `failed_configure`: the two kinds of failures
-/

namespace PetaCore

open Std.Do

set_option mvcgen.warning false

namespace UserRequestHandler

variable {o : ConfigureOutcomes} {userId : UserId} {data : ConfigureServerRequest}
  {s₀ s : ConfigureState} {user : UserSettings} {launchConfig : String}

/-- The launch config is prepared for the row of the user, and stored. -/
structure Prepared (o : ConfigureOutcomes) (userId : UserId) (data : ConfigureServerRequest)
    (s₀ : ConfigureState) (user : UserSettings) (launchConfig : String) : Prop where
  prepared : prepareLaunchConfig o userId data s₀ = .ok (user, launchConfig)
  updateLaunchConfigs : o.updateLaunchConfigs = .ok ()

theorem prepareLaunchConfig_user
    (h : prepareLaunchConfig o userId data s₀ = .ok (user, launchConfig)) :
    s₀.users.get? userId.value = some user := by
  unfold prepareLaunchConfig at h
  cases hfound : o.findByServerId with
  | error error => rw [hfound] at h; cases h
  | ok found =>
    cases hserver : checkServer found with
    | error error => rw [hfound] at h; simp [bind, Except.bind, hserver] at h
    | ok server =>
      cases hid : o.findById with
      | error error => rw [hfound] at h; simp [bind, Except.bind, hserver, hid] at h
      | ok _ =>
        cases hrow : s₀.users.get? userId.value with
        | none => simp [bind, Except.bind, hfound, hserver, hid, hrow] at h
        | some row =>
          simp only [bind, Except.bind, hfound, hserver, hid, hrow] at h
          split at h
          · cases h
          · split at h
            · cases h
            · obtain ⟨rfl, _⟩ := Prod.mk.inj (Except.ok.inj h)
              rfl

theorem prepareLaunchConfig_eq {found : Option ServerRow} {server : ServerRow}
    {configTemplate : String} {config : Json} (hfound : o.findByServerId = .ok found)
    (hserver : checkServer found = .ok (server, configTemplate)) (hid : o.findById = .ok ())
    (hrow : s₀.users.get? userId.value = some user)
    (hassembled : assembleByCategory o server configTemplate data = .ok config)
    (hencrypted : o.encryptData config = .ok launchConfig) :
    prepareLaunchConfig o userId data s₀ = .ok (user, launchConfig) := by
  unfold prepareLaunchConfig
  simp only [bind, Except.bind, hfound, hserver, hid, hrow, hassembled, hencrypted]
  rfl

/-- The preferences of the user after the launch config has been stored: those from before, unless
    the start has stored the first capabilities or the start was successful. -/
def PreferencesOf (o : ConfigureOutcomes) (user row : UserSettings) : Prop :=
  row.userPreferences = user.userPreferences ∨ o.firstCapabilities.isSome = true ∨
    ∃ capabilities, o.createTemporaryServer = .ok capabilities

/-- The new launch config is in the row of the user and in the sessions of the user. -/
structure StoredRow (o : ConfigureOutcomes) (userId : UserId) (serverId : String)
    (user : UserSettings) (launchConfig : String) (s₀ s : ConfigureState)
    (row : UserSettings) : Prop where
  found : s.users.get? userId.value = some row
  launchConfig : ∃ stored, row.launchConfigs.get? serverId = some stored ∧
    (stored = launchConfig ∨ o.refreshedLaunchConfig = some stored)
  otherConfigs : ∀ id, id ≠ serverId → row.launchConfigs.get? id = user.launchConfigs.get? id
  otherPreferences : ∀ id, id ≠ serverId →
    row.userPreferences.get? id = user.userPreferences.get? id
  preferences : PreferencesOf o user row
  otherUsers : ∀ id, id ≠ userId.value → s.users.get? id = s₀.users.get? id
  sessions : ∀ i, s.sessions.get? i = (s₀.sessions.get? i).map fun session =>
    if session.userId = userId then { session with launchConfigs := row.launchConfigs }
    else session

def Stored (o : ConfigureOutcomes) (userId : UserId) (serverId : String) (user : UserSettings)
    (launchConfig : String) (s₀ s : ConfigureState) : Prop :=
  ∃ row, StoredRow o userId serverId user launchConfig s₀ s row

/-! ## The writes -/

theorem storeLaunchConfigs_users {launchConfigs : Dict String}
    (h : s.users.get? userId.value = some user) (id : String) :
    (storeLaunchConfigs userId launchConfigs s).users.get? id =
      if id = userId.value then some { user with launchConfigs } else s.users.get? id := by
  simp only [storeLaunchConfigs, h, Dict.get?_set]

theorem storeUserPreferences_users {userPreferences : Permissions}
    (h : s.users.get? userId.value = some user) (id : String) :
    (storeUserPreferences userId userPreferences s).users.get? id =
      if id = userId.value then some { user with userPreferences } else s.users.get? id := by
  simp only [storeUserPreferences, h, Dict.get?_set]

theorem Stored.begin {serverId : String} (h : s₀.users.get? userId.value = some user) :
    Stored o userId serverId user launchConfig s₀
      (storeLaunchConfigs userId (user.launchConfigs.set serverId launchConfig) s₀) := by
  refine ⟨{ user with launchConfigs := user.launchConfigs.set serverId launchConfig }, ?_⟩
  exact
    { found := by rw [storeLaunchConfigs_users h, if_pos rfl]
      launchConfig := ⟨_, Dict.get?_set_self _ _ _, .inl rfl⟩
      otherConfigs := fun id hid => Dict.get?_set_ne _ _ hid
      otherPreferences := fun _ _ => rfl
      preferences := .inl rfl
      otherUsers := fun id hid => by rw [storeLaunchConfigs_users h, if_neg hid]
      sessions := fun i => Table.get?_map _ _ i }

theorem Stored.persist {serverId : String}
    (h : Stored o userId serverId user launchConfig s₀ s) :
    Stored o userId serverId user launchConfig s₀ (persistTokens o userId serverId s) := by
  obtain ⟨row, hrow⟩ := h
  unfold persistTokens
  rw [hrow.found]
  cases hrefreshed : o.refreshedLaunchConfig with
  | none => exact ⟨row, hrow⟩
  | some refreshed =>
    refine ⟨{ row with launchConfigs := row.launchConfigs.set serverId refreshed }, ?_⟩
    exact
      { found := by rw [storeLaunchConfigs_users hrow.found, if_pos rfl]
        launchConfig := ⟨_, Dict.get?_set_self _ _ _, .inr hrefreshed⟩
        otherConfigs := fun id hid => (Dict.get?_set_ne _ _ hid).trans (hrow.otherConfigs id hid)
        otherPreferences := hrow.otherPreferences
        preferences := hrow.preferences
        otherUsers := fun id hid => by
          rw [storeLaunchConfigs_users hrow.found, if_neg hid, hrow.otherUsers id hid]
        sessions := fun i => by
          -- the sessions of the user get the config once more
          show Table.get? (s.sessions.map _) i = _
          rw [Table.get?_map, hrow.sessions i, Option.map_map]
          congr 1
          funext session
          by_cases hsession : session.userId = userId
          · simp [hsession]
          · simp [hsession] }

/-- Preferences that differ under the server only. -/
theorem Stored.preferences {serverId : String} {userPreferences : Permissions}
    {capabilities : ServerConfigWithEnabled CapabilityConfig}
    (h : Stored o userId serverId user launchConfig s₀ s)
    (hbefore : ∀ id, id ≠ serverId → userPreferences.get? id = user.userPreferences.get? id)
    (hwhy : o.firstCapabilities.isSome = true ∨
      ∃ capabilities, o.createTemporaryServer = .ok capabilities) :
    Stored o userId serverId user launchConfig s₀
      (storeUserPreferences userId (userPreferences.set serverId capabilities) s) := by
  obtain ⟨row, hrow⟩ := h
  refine ⟨{ row with userPreferences := userPreferences.set serverId capabilities }, ?_⟩
  exact
    { found := by rw [storeUserPreferences_users hrow.found, if_pos rfl]
      launchConfig := hrow.launchConfig
      otherConfigs := hrow.otherConfigs
      otherPreferences := fun id hid => (Dict.get?_set_ne _ _ hid).trans (hbefore id hid)
      preferences := .inr hwhy
      otherUsers := fun id hid => by
        rw [storeUserPreferences_users hrow.found, if_neg hid, hrow.otherUsers id hid]
      sessions := hrow.sessions }

theorem Stored.seed {serverId : String} (h : Stored o userId serverId user launchConfig s₀ s) :
    Stored o userId serverId user launchConfig s₀ (seedPreferences o userId serverId s) := by
  obtain ⟨row, hrow⟩ := h
  unfold seedPreferences
  rw [hrow.found]
  cases hfirst : o.firstCapabilities with
  | none => exact ⟨row, hrow⟩
  | some capabilities =>
    have hwhy : o.firstCapabilities.isSome = true := by rw [hfirst]; rfl
    exact Stored.preferences ⟨row, hrow⟩ hrow.otherPreferences (.inl hwhy)

/-! ## The handler -/

@[spec] theorem createTemporaryServer_spec (userId : UserId) (serverId : String)
    (s₀ : ConfigureState) :
    ⦃fun s => ⌜s = s₀⌝⦄ createTemporaryServer o userId serverId
    ⦃post⟨fun capabilities s => ⌜o.createTemporaryServer = .ok capabilities ∧
        s = seedPreferences o userId serverId (persistTokens o userId serverId s₀)⌝,
      fun _ s =>
        ⌜s = seedPreferences o userId serverId (persistTokens o userId serverId s₀)⌝⟩⦄ := by
  mvcgen [createTemporaryServer]
  case vc1 hs _ _ _ _ =>
    intro hok hlast
    subst hs
    exact ⟨hok, hlast⟩
  case vc2 hs _ _ _ _ =>
    intro _ hlast
    subst hs
    exact hlast

/-- What has happened when the handler throws. -/
def Failed (o : ConfigureOutcomes) (userId : UserId) (data : ConfigureServerRequest)
    (s₀ s : ConfigureState) : Prop :=
  ((∀ user launchConfig, ¬Prepared o userId data s₀ user launchConfig) ∧ s = s₀) ∨
    ∃ user launchConfig, Prepared o userId data s₀ user launchConfig ∧
      Stored o userId data.serverId user launchConfig s₀ s

/-- The state in which the start ends. -/
theorem Prepared.started (h : Prepared o userId data s₀ user launchConfig) :
    Stored o userId data.serverId user launchConfig s₀
      (seedPreferences o userId data.serverId (persistTokens o userId data.serverId
        (storeLaunchConfigs userId (user.launchConfigs.set data.serverId launchConfig) s₀))) :=
  (Stored.begin (prepareLaunchConfig_user h.prepared)).persist.seed

theorem handleConfigureServer_spec (userId : UserId) (data : ConfigureServerRequest)
    (s₀ : ConfigureState) :
    ⦃fun s => ⌜s = s₀⌝⦄ handleConfigureServer o userId data
    ⦃post⟨fun _ s => ⌜∃ user launchConfig, Prepared o userId data s₀ user launchConfig ∧
        Stored o userId data.serverId user launchConfig s₀ s ∧
        ∃ capabilities, o.createTemporaryServer = .ok capabilities⌝,
      fun _ s => ⌜Failed o userId data s₀ s⌝⟩⦄ := by
  mvcgen [handleConfigureServer]
  case vc1 hs prepared _ hprepared _ _ hupdate _ _ _ hstart _ _ hpreferences _ _ _
  | vc2 hs prepared _ hprepared _ _ hupdate _ _ _ hstart _ _ hpreferences _ _ _ =>
    intro _ hlast
    obtain ⟨hprepared, rfl⟩ := hprepared
    obtain ⟨hupdate, rfl⟩ := hupdate
    obtain ⟨hstart, rfl⟩ := hstart
    obtain ⟨_, rfl⟩ := hpreferences
    subst hs hlast
    have hprep := Prepared.mk hprepared hupdate
    first
    | exact
        ⟨_, _, hprep, hprep.started.preferences (fun _ _ => rfl) (.inr ⟨_, hstart⟩), _, hstart⟩
    | exact .inr ⟨_, _, hprep, hprep.started.preferences (fun _ _ => rfl) (.inr ⟨_, hstart⟩)⟩
  case vc3 hs prepared _ hprepared _ _ hupdate _ _ _ hstart _ _ =>
    intro _ hlast
    obtain ⟨hprepared, rfl⟩ := hprepared
    obtain ⟨hupdate, rfl⟩ := hupdate
    obtain ⟨_, rfl⟩ := hstart
    subst hs hlast
    have hprep := Prepared.mk hprepared hupdate
    exact .inr ⟨_, _, hprep, hprep.started⟩
  case vc4 hs prepared _ hprepared _ _ hupdate _ _ _ =>
    intro hlast
    obtain ⟨hprepared, rfl⟩ := hprepared
    obtain ⟨hupdate, rfl⟩ := hupdate
    subst hs hlast
    have hprep := Prepared.mk hprepared hupdate
    exact .inr ⟨_, _, hprep, hprep.started⟩
  case vc5 hs prepared _ hprepared _ _ =>
    intro herror hlast
    obtain ⟨_, rfl⟩ := hprepared
    refine .inl ⟨fun user launchConfig hprep => ?_, hlast.trans hs⟩
    cases herror.symm.trans hprep.updateLaunchConfigs
  case vc6 hs _ _ =>
    intro herror hlast
    subst hs
    refine .inl ⟨fun user launchConfig hprep => ?_, hlast⟩
    cases herror.symm.trans hprep.prepared

theorem handleConfigureServer_of_failed_start {error : UserRequestError}
    (h : Prepared o userId data s₀ user launchConfig)
    (hstart : o.createTemporaryServer = .error error) :
    ∃ error s, handleConfigureServer o userId data s₀ = .error error s ∧
      Stored o userId data.serverId user launchConfig s₀ s := by
  have hspec := handleConfigureServer_spec userId data s₀ (o := o)
  cases hrun : handleConfigureServer o userId data s₀ with
  | ok _ s =>
    obtain ⟨_, _, _, _, capabilities, hok⟩ := StateTriple.of_ok hspec rfl hrun
    cases hstart.symm.trans hok
  | error error s =>
    obtain ⟨hnot, _⟩ | ⟨user', launchConfig', hprep, hstored⟩ := StateTriple.of_error hspec rfl hrun
    · exact absurd h (hnot user launchConfig)
    · obtain ⟨rfl, rfl⟩ := Prod.mk.inj (Except.ok.inj (h.prepared.symm.trans hprep.prepared))
      exact ⟨error, s, rfl, hstored⟩

/-- A server that users run with a command of the administrator's. -/
def commandServer : ServerRow where
  launchConfig := ""
  configTemplate := some "\x7b\"command\":\"server\"\x7d"
  category := .customStdio
  allowUserInput := true
  enabled := true
  lazyStartEnabled := false
  usePetaOauthConfig := false

/-- The server does not start. -/
def deadServer : ConfigureOutcomes where
  findByServerId := .ok (some commandServer)
  findById := .ok ()
  now := 0
  exchangeOAuthCode := fun _ _ => .error .other
  urlWithParams := fun _ _ => none
  encryptData := fun config => .ok config.stringify
  updateLaunchConfigs := .ok ()
  refreshedLaunchConfig := none
  firstCapabilities := none
  createTemporaryServer := .error .other
  updateUserPreferences := .ok ()
  updateSessions := .ok ()

theorem hex_someUser : ∀ c ∈ "a1".toList, c.isDigit = true ∨ ('a' ≤ c ∧ c ≤ 'f') :=
  UserId.hex_of_all (by decide)

def someUser : UserId := ⟨"a1", hex_someUser⟩

def stdioRequest : ConfigureServerRequest where
  serverId := "files"
  authConf := none
  restfulApiAuth := none
  remoteAuth := none
  stdioEnv := none

def noConfigs : ConfigureState where
  users := Dict.empty.set "a1" ⟨.empty, .empty⟩
  sessions := .empty

theorem deadServer_prepared : ∃ launchConfig,
    Prepared deadServer someUser stdioRequest noConfigs ⟨.empty, .empty⟩ launchConfig := by
  have hcommand : "command".toList.any (fun c => !c.isDigit) = true := by decide
  have hheld : (Json.obj [("command", .str "server")]).Held := by
    refine ⟨List.nodup_singleton "command", Json.fromEntries_of_plain ?_, trivial, trivial⟩
    intro m hm
    obtain rfl := List.mem_singleton.mp hm
    exact Json.arrayIndex?_eq_none hcommand
  have htext : (Json.obj [("command", .str "server")]).stringify =
      "\x7b\"command\":\"server\"\x7d" := by
    decide +kernel
  have hparse := Json.parse_stringify hheld
  rw [htext] at hparse
  have hassembled : assembleByCategory deadServer commandServer
      "\x7b\"command\":\"server\"\x7d" stdioRequest =
        .ok (.obj [("command", .str "server"), ("args", .arr []), ("env", .obj [])]) := by
    simp only [assembleByCategory, customStdioLaunchConfig, commandServer, hparse]
    rfl
  have hcheck : checkServer (some commandServer) =
      .ok (commandServer, "\x7b\"command\":\"server\"\x7d") := by
    simp [checkServer, commandServer]
  have hrow : noConfigs.users.get? someUser.value = some ⟨.empty, .empty⟩ :=
    Dict.get?_set_self _ _ _
  exact ⟨_, prepareLaunchConfig_eq rfl hcheck rfl hrow hassembled rfl, rfl⟩

end UserRequestHandler

end PetaCore
