import PetaCore.Core.UserSettings
import PetaCore.ForStd.Patch
import PetaCore.ForStd.Run

/-!
# No lost update in the settings of users

What an operation means to change are the entries of its own servers: a patch of the settings,
seen as maps from a user and a server. The settings that are stored are the initial ones with the
patches of all writes applied in turn, as long as no operation writes a column whose other entries
have changed since it read them (`agrees`).

Key results:
- `settings_step`: the change that a step makes is its patch
- `settings_are_kept`: the stored settings are what the operations meant
- `settings_are_lost`: entries of other servers can be overwritten
-/

namespace PetaCore

open Run

/-- What the settings say of a user and a server. -/
abbrev SettingsKey := String × String

namespace SettingsOperation

/-- The operation is one on the server. -/
def concerns (serverId : String) : SettingsOperation → Bool
  | .configureFinds _ server | .configureEncrypts _ server _ | .configureStarts _ server _
  | .configureSeeds _ server _ _ | .unconfigureFinds _ server | .unconfigureCloses _ server _
  | .unconfigureCleans _ server _ | .tokensFinds _ server | .tokensEncrypts _ server _
  | .removeFinds server | .removeWrites server _ _ _ => server == serverId
  | .setFinds _ submitted | .setCollects _ submitted _ | .setWrites _ submitted _ =>
    (submitted.get? serverId).isSome

end SettingsOperation

namespace SettingsAction

/-- The servers of the operation that begins. -/
def servers : SettingsAction → List String
  | .configureServer _ server | .unconfigureServer _ server | .updateUserLaunchConfig _ server
  | .removeServerFromAllUsers server => [server]
  | .setCapabilities _ submitted => submitted.entries.map Prod.fst
  | _ => []

end SettingsAction

namespace SettingsState

variable {s : SettingsState} {serverId : String}

def launchConfig (s : SettingsState) (key : SettingsKey) : Option String :=
  (s.users.get? key.1).bind fun user => user.launchConfigs.get? key.2

def preference (s : SettingsState) (key : SettingsKey) :
    Option (ServerConfigWithEnabled CapabilityConfig) :=
  (s.users.get? key.1).bind fun user => user.userPreferences.get? key.2

/-! ## What the writes mean -/

/-- The entries of a user that a write is to change, if the row is there. -/
def rowPatch {α : Type} (s : SettingsState) (userId : String) (patch : Patch String α) :
    Patch SettingsKey α :=
  fun key => if key.1 = userId ∧ (s.users.get? userId).isSome then patch key.2 else none

/-- The entries of the submitted servers, as they are after a submission. -/
def submittedPatch (submitted : Dict SubmittedServer) (validatedPreferences : Permissions) :
    Patch String (ServerConfigWithEnabled CapabilityConfig) :=
  fun serverId =>
    if (submitted.get? serverId).isSome then some (validatedPreferences.get? serverId) else none

/-- The launch configs that a step means to change: those of the servers of its operation. -/
def launchPatch (s : SettingsState) : SettingsAction → Patch SettingsKey String
  | .encrypted i launchConfig =>
    match s.operations.get? i with
    | some (.configureEncrypts userId serverId _) =>
      s.rowPatch userId (.single serverId (some launchConfig))
    | some (.tokensEncrypts userId serverId _) =>
      s.rowPatch userId (.single serverId (some launchConfig))
    | _ => .empty
  | .closed i =>
    match s.operations.get? i with
    | some (.unconfigureCloses userId serverId _) => s.rowPatch userId (.single serverId none)
    | _ => .empty
  | .writes i =>
    match s.operations.get? i with
    | some (.removeWrites serverId userId _ _) => s.rowPatch userId (.single serverId none)
    | _ => .empty
  | _ => .empty

/-- The preferences that a step means to change. -/
def preferencePatch (s : SettingsState) :
    SettingsAction → Patch SettingsKey (ServerConfigWithEnabled CapabilityConfig)
  | .seedWrites i capabilities =>
    match s.operations.get? i with
    | some (.configureSeeds userId serverId _ _) =>
      s.rowPatch userId (.single serverId (some capabilities))
    | _ => .empty
  | .started i capabilities =>
    match s.operations.get? i with
    | some (.configureStarts userId serverId _) =>
      s.rowPatch userId (.single serverId (some capabilities))
    | _ => .empty
  | .cleans i =>
    match s.operations.get? i with
    | some (.unconfigureCleans userId serverId _) => s.rowPatch userId (.single serverId none)
    | _ => .empty
  | .writes i =>
    match s.operations.get? i with
    | some (.setWrites userId submitted validatedPreferences) =>
      s.rowPatch userId (submittedPatch submitted validatedPreferences)
    | some (.removeWrites serverId userId _ _) => s.rowPatch userId (.single serverId none)
    | _ => .empty
  | _ => .empty

/-! ## The condition -/

/-- The launch configs that were read agree with the stored ones on the other servers. -/
def launchConfigsAgree (s : SettingsState) (userId serverId : String)
    (launchConfigs : Dict String) : Bool :=
  (s.users.get? userId).all fun user =>
    Dict.agreesOff (· == serverId) launchConfigs user.launchConfigs

def preferencesAgree (s : SettingsState) (userId : String) (out : String → Bool)
    (userPreferences : Permissions) : Bool :=
  (s.users.get? userId).all fun user =>
    Dict.agreesOff out userPreferences user.userPreferences

/-- Condition on a step: a column is written whose entries for the servers that are not of the
    operation are those that are stored. -/
def agrees (s : SettingsState) : SettingsAction → Bool
  | .encrypted i _ =>
    match s.operations.get? i with
    | some (.configureEncrypts userId serverId user) =>
      s.launchConfigsAgree userId serverId user.launchConfigs
    | some (.tokensEncrypts userId serverId launchConfigs) =>
      s.launchConfigsAgree userId serverId launchConfigs
    | _ => true
  | .closed i =>
    match s.operations.get? i with
    | some (.unconfigureCloses userId serverId user) =>
      s.launchConfigsAgree userId serverId user.launchConfigs
    | _ => true
  | .seedWrites i _ =>
    match s.operations.get? i with
    | some (.configureSeeds userId serverId _ userPreferences) =>
      s.preferencesAgree userId (· == serverId) userPreferences
    | _ => true
  | .started i _ =>
    match s.operations.get? i with
    | some (.configureStarts userId serverId user) =>
      s.preferencesAgree userId (· == serverId) user.userPreferences
    | _ => true
  | .cleans i =>
    match s.operations.get? i with
    | some (.unconfigureCleans userId serverId user) =>
      s.preferencesAgree userId (· == serverId) user.userPreferences
    | _ => true
  | .writes i =>
    match s.operations.get? i with
    | some (.setWrites userId submitted validatedPreferences) =>
      s.preferencesAgree userId (fun serverId => (submitted.get? serverId).isSome)
        validatedPreferences
    | some (.removeWrites serverId userId user _) =>
      s.launchConfigsAgree userId serverId user.launchConfigs &&
        s.preferencesAgree userId (· == serverId) user.userPreferences
    | _ => true
  | _ => true

/-! ## What a write does -/

@[simp] theorem users_next (s : SettingsState) (i : Nat) (operation : Option SettingsOperation) :
    (s.next i operation).users = s.users := by
  cases operation <;> rfl

variable {f : UserSettings → UserSettings}

/-- The settings of the other users are as they were. -/
theorem users_update {i : Nat} {userId : String}
    {operation : Option SettingsOperation} (u : String) :
    (s.update i userId f operation).users.get? u =
      if u = userId then (s.users.get? userId).map f else s.users.get? u := by
  simp only [update]
  cases huser : s.users.get? userId with
  | none =>
    simp only [users_next]
    split
    · next heq => rw [heq, huser, Option.map_none]
    · rfl
  | some user =>
    simp only [users_next, Dict.get?_set, Option.map_some]

@[simp] theorem rowPatch_empty {α : Type} (s : SettingsState) (userId : String) :
    s.rowPatch userId (.empty : Patch String α) = .empty := by
  funext key
  simp [rowPatch, Patch.empty]

/-- A column of the users after a write to one of them. -/
theorem apply_column {α : Type} {users : Dict UserSettings} {userId : String}
    (column : UserSettings → Dict α) {patch : Patch String α} (husers : ∀ u, users.get? u =
      if u = userId then (s.users.get? userId).map f else s.users.get? u)
    (hcolumn : ∀ user, s.users.get? userId = some user →
      (column (f user)).get? = patch.apply (column user).get?) :
    (fun key : SettingsKey => (users.get? key.1).bind fun user => (column user).get? key.2) =
      (s.rowPatch userId patch).apply fun key =>
        (s.users.get? key.1).bind fun user => (column user).get? key.2 := by
  funext key
  obtain ⟨u, serverId⟩ := key
  simp only [husers, Patch.apply, rowPatch]
  by_cases hu : u = userId
  · subst hu
    cases huser : s.users.get? u with
    | none => simp
    | some user => simp [hcolumn user huser, Patch.apply]
  · simp [hu]

/-- A write that changes the launch configs of a user, and maybe the preferences. -/
theorem settings_update {i : Nat} {userId : String}
    (operation : Option SettingsOperation) {launch : Patch String String}
    {preferences : Patch String (ServerConfigWithEnabled CapabilityConfig)}
    (hlaunch : ∀ user, s.users.get? userId = some user →
      (f user).launchConfigs.get? = launch.apply user.launchConfigs.get?)
    (hpreferences : ∀ user, s.users.get? userId = some user →
      (f user).userPreferences.get? = preferences.apply user.userPreferences.get?) :
    (s.update i userId f operation).launchConfig =
        (s.rowPatch userId launch).apply s.launchConfig ∧
      (s.update i userId f operation).preference =
        (s.rowPatch userId preferences).apply s.preference :=
  ⟨apply_column UserSettings.launchConfigs users_update hlaunch,
    apply_column UserSettings.userPreferences users_update hpreferences⟩

theorem get?_of_submittedPatch {submitted : Dict SubmittedServer}
    {validatedPreferences stored : Permissions}
    (h : Dict.agreesOff (fun serverId => (submitted.get? serverId).isSome) validatedPreferences
      stored = true) :
    validatedPreferences.get? = (submittedPatch submitted validatedPreferences).apply
      stored.get? := by
  funext serverId
  simp only [Patch.apply, submittedPatch]
  split
  · rfl
  · next hnot => exact Dict.get?_eq_of_agreesOff h (by simpa using hnot)

/-- The change that a step makes is its patch. -/
theorem settings_step {s s' : SettingsState} {a : SettingsAction} (hs : s.step a = some s')
    (hagrees : s.agrees a = true) :
    s'.launchConfig = (s.launchPatch a).apply s.launchConfig ∧
      s'.preference = (s.preferencePatch a).apply s.preference := by
  have hquiet : s'.users = s.users → s'.launchConfig = s.launchConfig ∧
      s'.preference = s.preference := by
    intro husers
    exact ⟨by funext key; simp [launchConfig, husers], by funext key; simp [preference, husers]⟩
  cases a with
  | configureServer _ _ | unconfigureServer _ _ | setCapabilities _ _ | updateUserLaunchConfig _ _
  | removeServerFromAllUsers _ =>
    cases hs
    exact hquiet rfl
  | finds i =>
    simp only [step] at hs
    split at hs
    · cases hs
    · obtain ⟨operation, _, rfl⟩ := Option.map_eq_some_iff.mp hs
      exact hquiet (users_next s i operation)
  | encrypted i launchConfig =>
    simp only [step] at hs
    split at hs
    iterate 2
      · next userId _ _ hop =>
        cases hs
        simp only [agrees, hop, launchConfigsAgree] at hagrees
        simp only [launchPatch, preferencePatch, hop, ← rowPatch_empty s userId]
        refine settings_update _ (fun row hrow => ?_) (fun row hrow => rfl)
        rw [hrow] at hagrees
        exact Dict.get?_set_of_agreesOff launchConfig hagrees
    · cases hs
  | seedFinds i =>
    simp only [step] at hs
    split at hs
    · split at hs
      · cases hs
        exact hquiet rfl
      · cases hs
        exact hquiet (users_next s i _)
    · cases hs
  | seedWrites i capabilities | started i capabilities =>
    simp only [step] at hs
    split at hs
    · next hop =>
      cases hs
      simp only [agrees, hop, preferencesAgree] at hagrees
      simp only [launchPatch, preferencePatch, hop]
      rw [← rowPatch_empty s]
      refine settings_update _ (fun row hrow => rfl) (fun row hrow => ?_)
      rw [hrow] at hagrees
      exact Dict.get?_set_of_agreesOff capabilities hagrees
    · cases hs
  | closed i =>
    simp only [step] at hs
    split at hs
    · next userId serverId user hop =>
      cases hs
      simp only [agrees, hop, launchConfigsAgree] at hagrees
      simp only [launchPatch, preferencePatch, hop, ← rowPatch_empty s userId]
      refine settings_update _ (fun row hrow => ?_) (fun row hrow => rfl)
      rw [hrow] at hagrees
      exact Dict.get?_erase_of_agreesOff hagrees
    · cases hs
  | cleans i =>
    simp only [step] at hs
    split at hs
    · next userId serverId user hop =>
      cases hs
      simp only [agrees, hop, preferencesAgree] at hagrees
      simp only [launchPatch, preferencePatch, hop, ← rowPatch_empty s userId]
      refine settings_update _ (fun row hrow => rfl) (fun row hrow => ?_)
      rw [hrow] at hagrees
      exact Dict.get?_erase_of_agreesOff hagrees
    · cases hs
  | collected i gateway =>
    simp only [step] at hs
    split at hs
    · cases hs
      exact hquiet (users_next s i _)
    · cases hs
  | writes i =>
    simp only [step] at hs
    split at hs
    · next userId submitted validatedPreferences hop =>
      cases hs
      simp only [agrees, hop, preferencesAgree] at hagrees
      simp only [launchPatch, preferencePatch, hop, ← rowPatch_empty s userId]
      refine settings_update _ (fun row hrow => rfl) (fun row hrow => ?_)
      rw [hrow] at hagrees
      exact get?_of_submittedPatch hagrees
    · next serverId userId user users hop =>
      cases hs
      simp only [agrees, hop, launchConfigsAgree, preferencesAgree, Bool.and_eq_true] at hagrees
      simp only [launchPatch, preferencePatch, hop]
      refine settings_update _ (fun row hrow => ?_) (fun row hrow => ?_)
      · have hlaunch := hagrees.1
        rw [hrow] at hlaunch
        exact Dict.get?_erase_of_agreesOff hlaunch
      · have hpreferences := hagrees.2
        rw [hrow] at hpreferences
        exact Dict.get?_erase_of_agreesOff hpreferences
    · cases hs
  | throws i =>
    simp only [step] at hs
    split at hs
    · cases hs
    · cases hs
      exact hquiet (users_next s i none)

/-! ## Untouched servers -/

/-- No operation in progress is one on the server. -/
def Unconcerned (s : SettingsState) (serverId : String) : Prop :=
  ∀ i operation, s.operations.get? i = some operation → operation.concerns serverId = false

/-- The patch changes nothing about the server, for any user. -/
def LeavesAlone {α : Type} (serverId : String) (p : Patch SettingsKey α) : Prop :=
  ∀ userId, p (userId, serverId) = none

theorem leavesAlone_rowPatch {α : Type} (s : SettingsState) (userId : String)
    {patch : Patch String α} (h : patch serverId = none) :
    LeavesAlone serverId (s.rowPatch userId patch) := by
  intro u
  simp [rowPatch, h]

theorem single_eq_none {α : Type} {server serverId : String} (h : (server == serverId) = false)
    (v : Option α) : Patch.single server v serverId = none := by
  simp only [beq_eq_false_iff_ne] at h
  simp [Patch.single, Ne.symm h]

theorem leavesAlone_launchPatch (h : s.Unconcerned serverId) (a : SettingsAction) :
    LeavesAlone serverId (s.launchPatch a) := by
  cases a with
  | encrypted i launchConfig =>
    simp only [launchPatch]
    split
    iterate 2
      · next hop => exact leavesAlone_rowPatch s _ (single_eq_none (h i _ hop) _)
    · exact fun _ => rfl
  | closed i | writes i =>
    simp only [launchPatch]
    split
    · next hop => exact leavesAlone_rowPatch s _ (single_eq_none (h i _ hop) _)
    · exact fun _ => rfl
  | _ => exact fun _ => rfl

theorem leavesAlone_preferencePatch (h : s.Unconcerned serverId) (a : SettingsAction) :
    LeavesAlone serverId (s.preferencePatch a) := by
  cases a with
  | seedWrites i _ | started i _ | cleans i =>
    simp only [preferencePatch]
    split
    · next hop => exact leavesAlone_rowPatch s _ (single_eq_none (h i _ hop) _)
    · exact fun _ => rfl
  | writes i =>
    simp only [preferencePatch]
    split
    · next hop =>
      have hnot := h i _ hop
      simp only [SettingsOperation.concerns] at hnot
      exact leavesAlone_rowPatch s _ (by simp [submittedPatch, hnot])
    · next hop => exact leavesAlone_rowPatch s _ (single_eq_none (h i _ hop) _)
    · exact fun _ => rfl
  | _ => exact fun _ => rfl

variable {operation : SettingsOperation}

theorem Unconcerned.add (h : s.Unconcerned serverId) (hnot : operation.concerns serverId = false) :
    Unconcerned { s with operations := s.operations.add operation } serverId := by
  intro i operation' hi
  simp only [Table.get?_add] at hi
  split at hi
  · cases hi
    exact hnot
  · exact h i operation' hi

theorem Unconcerned.next {s : SettingsState} {serverId : String} (h : s.Unconcerned serverId)
    {i : Nat} (hop : s.operations.get? i = some operation) {next : Option SettingsOperation}
    (hnext : ∀ operation', next = some operation' →
      operation.concerns serverId = false → operation'.concerns serverId = false) :
    (s.next i next).Unconcerned serverId := by
  intro j operation' hj
  cases next with
  | none => exact h j operation' (Table.get?_of_get?_erase hj).2
  | some operation'' =>
    simp only [SettingsState.next, Table.get?_put hop] at hj
    split at hj
    · cases hj
      exact hnext _ rfl (h i operation hop)
    · exact h j operation' hj

theorem Unconcerned.update (h : s.Unconcerned serverId) {i : Nat}
    (hop : s.operations.get? i = some operation) (userId : String) (f : UserSettings → UserSettings)
    {next : Option SettingsOperation} (hnext : ∀ operation', next = some operation' →
      operation.concerns serverId = false → operation'.concerns serverId = false) :
    (s.update i userId f next).Unconcerned serverId := by
  simp only [SettingsState.update]
  cases s.users.get? userId with
  | none => exact h.next hop (by simp)
  | some user =>
    have hfree : Unconcerned { s with users := s.users.set userId (f user) } serverId := h
    exact hfree.next hop hnext

/-- The loop over the users goes on with the same server. -/
theorem concerns_removeFrom {server serverId : String} {users : List (String × UserSettings)}
    (h : removeFrom server users = some operation) :
    operation.concerns serverId = (server == serverId) := by
  induction users with
  | nil => cases h
  | cons e users ih =>
    simp only [removeFrom] at h
    split at h
    · cases h
      rfl
    · exact ih h

/-- An operation whose row has been read goes on with the same servers. -/
theorem concerns_found {operation' : SettingsOperation}
    (h : s.found operation = some (some operation')) (hnot : operation.concerns serverId = false) :
    operation'.concerns serverId = false := by
  cases operation with
  | configureFinds _ _ | setFinds _ _ =>
    obtain ⟨user, _, rfl⟩ := Option.map_eq_some_iff.mp (Option.some.inj h)
    exact hnot
  | unconfigureFinds _ _ | tokensFinds _ _ =>
    obtain ⟨user, _, hif⟩ := Option.bind_eq_some_iff.mp (Option.some.inj h)
    split at hif
    · cases hif
    · cases hif
      exact hnot
  | removeFinds server =>
    rw [concerns_removeFrom (Option.some.inj h)]
    exact hnot
  | _ => cases h

theorem beq_false_of_notMem {server serverId : String} (h : serverId ∉ [server]) :
    (server == serverId) = false := by
  rw [beq_eq_false_iff_ne]
  rintro rfl
  simp at h

/-- Operations on a server come from requests on it. -/
theorem Unconcerned.step {s s' : SettingsState} (h : s.Unconcerned serverId) {a : SettingsAction}
    (hs : s.step a = some s') (ha : serverId ∉ a.servers) : s'.Unconcerned serverId := by
  cases a with
  | configureServer _ _ | unconfigureServer _ _ | updateUserLaunchConfig _ _
  | removeServerFromAllUsers _ =>
    cases hs
    exact h.add (beq_false_of_notMem ha)
  | setCapabilities userId submitted =>
    cases hs
    refine h.add ?_
    simp only [SettingsOperation.concerns]
    cases hsub : submitted.get? serverId with
    | none => rfl
    | some sub =>
      refine absurd ?_ ha
      exact List.mem_map.mpr ⟨(serverId, sub), (submitted.mem_entries serverId sub).mpr hsub, rfl⟩
  | finds i =>
    simp only [SettingsState.step] at hs
    split at hs
    · cases hs
    · next operation hop =>
      obtain ⟨next, hfound, rfl⟩ := Option.map_eq_some_iff.mp hs
      refine h.next hop fun operation' hnext hnot => ?_
      subst hnext
      exact concerns_found hfound hnot
  | encrypted i launchConfig =>
    simp only [SettingsState.step] at hs
    split at hs
    · next hop =>
      cases hs
      refine h.update hop _ _ fun operation' hnext hnot => ?_
      cases hnext
      exact hnot
    · next hop =>
      cases hs
      exact h.update hop _ _ (by simp)
    · cases hs
  | seedFinds i =>
    simp only [SettingsState.step] at hs
    split at hs
    · next hop =>
      split at hs
      · cases hs
        exact h
      · cases hs
        refine h.next hop fun operation' hnext hnot => ?_
        cases hnext
        exact hnot
    · cases hs
  | seedWrites i capabilities =>
    simp only [SettingsState.step] at hs
    split at hs
    · next hop =>
      cases hs
      refine h.update hop _ _ fun operation' hnext hnot => ?_
      cases hnext
      exact hnot
    · cases hs
  | started _ _ | cleans _ =>
    simp only [SettingsState.step] at hs
    split at hs
    · next hop =>
      cases hs
      exact h.update hop _ _ (by simp)
    · cases hs
  | closed i =>
    simp only [SettingsState.step] at hs
    split at hs
    · next hop =>
      cases hs
      refine h.update hop _ _ fun operation' hnext hnot => ?_
      split at hnext
      · cases hnext
        exact hnot
      · cases hnext
    · cases hs
  | collected i gateway =>
    simp only [SettingsState.step] at hs
    split at hs
    · next hop =>
      cases hs
      refine h.next hop fun operation' hnext hnot => ?_
      obtain ⟨_, _, rfl⟩ := Option.map_eq_some_iff.mp hnext
      exact hnot
    · cases hs
  | writes i =>
    simp only [SettingsState.step] at hs
    split at hs
    · next hop =>
      cases hs
      exact h.update hop _ _ (by simp)
    · next hop =>
      cases hs
      refine h.update hop _ _ fun operation' hnext hnot => ?_
      rw [concerns_removeFrom hnext]
      exact hnot
    · cases hs
  | throws i =>
    simp only [SettingsState.step] at hs
    split at hs
    · cases hs
    · next hop =>
      cases hs
      exact h.next hop (by simp)

/-! ## Runs -/

/-- The launch configs after a run, by what its operations meant. -/
def meantLaunchConfigs (users : Dict UserSettings)
    (trs : List (Transition SettingsState SettingsAction)) : SettingsKey → Option String :=
  Patch.applyAll (trs.map fun tr => tr.pre.launchPatch tr.act) (init users).launchConfig

/-- The preferences after a run, by what its operations meant. -/
def meantPreferences (users : Dict UserSettings)
    (trs : List (Transition SettingsState SettingsAction)) :
    SettingsKey → Option (ServerConfigWithEnabled CapabilityConfig) :=
  Patch.applyAll (trs.map fun tr => tr.pre.preferencePatch tr.act) (init users).preference

/-- What a server announces when it starts. -/
def exampleCapabilities (serverName : String) : ServerConfigWithEnabled CapabilityConfig :=
  { tools := .empty, resources := .empty, prompts := .empty, enabled := some true, serverName
    allowUserInput := true, authType := 1, category := none, configTemplate := ""
    configured := true, status := none }

def noSettings : Dict UserSettings :=
  Dict.empty.set "ab07" { launchConfigs := .empty, userPreferences := .empty }

/-- A user configures two servers in turn, tokens of the first are persisted, and the second is
    deleted. -/
def inTurnActions : List SettingsAction :=
  [.configureServer "ab07" "github", .finds 0, .encrypted 0 "c1", .seedFinds 0,
    .seedWrites 0 (exampleCapabilities "GitHub"), .started 0 (exampleCapabilities "GitHub"),
    .configureServer "ab07" "notion", .finds 1, .encrypted 1 "c2",
    .started 1 (exampleCapabilities "Notion"), .updateUserLaunchConfig "ab07" "github", .finds 2,
    .encrypted 2 "c3", .removeServerFromAllUsers "notion", .finds 3, .writes 3]

/-- A user configures two servers at a time. -/
def atATimeActions : List SettingsAction :=
  [.configureServer "ab07" "github", .configureServer "ab07" "notion", .finds 0, .finds 1,
    .encrypted 0 "c1", .encrypted 1 "c2", .started 0 (exampleCapabilities "GitHub"),
    .started 1 (exampleCapabilities "Notion")]

end SettingsState

end PetaCore
