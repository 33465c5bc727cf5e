import PetaCore.Core.CapabilitiesService
import PetaCore.ForStd.Table

/-!
# Settings of users for their servers

The columns `launchConfigs` and `userPreferences` of the table `user` are JSON objects with an
entry for each server. Five operations change them: a user configures or unconfigures a server or
sets capabilities, the gateway persists OAuth tokens, and an administrator deletes a server. Each
reads a row, does something slow, and writes whole columns. A statement and the code up to the
next await is one step.
-/

namespace PetaCore

/-- The two columns of a row of the table `user`, parsed. -/
structure UserSettings where
  launchConfigs : Dict String
  userPreferences : Permissions
deriving DecidableEq

/-- An operation, by what it awaits. The rows and columns it holds are those it has read. -/
inductive SettingsOperation where
  | configureFinds (userId serverId : String)
  /-- awaits the encryption of the launch config -/
  | configureEncrypts (userId serverId : String) (user : UserSettings)
  /-- awaits `createTemporaryServer` -/
  | configureStarts (userId serverId : String) (user : UserSettings)
  /-- the server that starts has announced its capabilities for the first time; the preferences
      are those of the row that is read for it -/
  | configureSeeds (userId serverId : String) (user : UserSettings)
      (userPreferences : Permissions)
  | unconfigureFinds (userId serverId : String)
  /-- awaits `closeTemporaryServer` -/
  | unconfigureCloses (userId serverId : String) (user : UserSettings)
  | unconfigureCleans (userId serverId : String) (user : UserSettings)
  | setFinds (userId : String) (submitted : Dict SubmittedServer)
  /-- awaits `getCapabilitiesFromDatabase` -/
  | setCollects (userId : String) (submitted : Dict SubmittedServer)
      (userPreferences : Permissions)
  | setWrites (userId : String) (submitted : Dict SubmittedServer)
      (validatedPreferences : Permissions)
  | tokensFinds (userId serverId : String)
  /-- awaits the decryption and the encryption of the launch config -/
  | tokensEncrypts (userId serverId : String) (launchConfigs : Dict String)
  | removeFinds (serverId : String)
  /-- the loop over the users, at one that is to be updated -/
  | removeWrites (serverId userId : String) (user : UserSettings)
      (users : List (String × UserSettings))

inductive SettingsAction where
  | configureServer (userId serverId : String)
  | unconfigureServer (userId serverId : String)
  | setCapabilities (userId : String) (submitted : Dict SubmittedServer)
  | updateUserLaunchConfig (userId serverId : String)
  | removeServerFromAllUsers (serverId : String)
  /-- the database answers -/
  | finds (operation : Nat)
  /-- the encrypted launch config is there and is written -/
  | encrypted (operation : Nat) (launchConfig : String)
  /-- a server that starts for the first time looks up the user -/
  | seedFinds (operation : Nat)
  | seedWrites (operation : Nat) (capabilities : ServerConfigWithEnabled CapabilityConfig)
  /-- `createTemporaryServer` has returned a context with these capabilities -/
  | started (operation : Nat) (capabilities : ServerConfigWithEnabled CapabilityConfig)
  | closed (operation : Nat)
  | cleans (operation : Nat)
  /-- the rest of the gateway, from which the capabilities are collected -/
  | collected (operation : Nat) (gateway : CapabilityState)
  | writes (operation : Nat)
  | throws (operation : Nat)

structure SettingsState where
  users : Dict UserSettings
  operations : Table SettingsOperation

namespace SettingsState

def init (users : Dict UserSettings) : SettingsState := ⟨users, .empty⟩

/-- The operation awaits something else, or has ended. -/
def next (s : SettingsState) (i : Nat) : Option SettingsOperation → SettingsState
  | none => { s with operations := s.operations.erase i }
  | some operation => { s with operations := s.operations.put i operation }

/-- `prisma.user.update`, which throws when there is no such row. -/
def update (s : SettingsState) (i : Nat) (userId : String) (f : UserSettings → UserSettings)
    (operation : Option SettingsOperation) : SettingsState :=
  match s.users.get? userId with
  | none => s.next i none
  | some user => SettingsState.next { s with users := s.users.set userId (f user) } i operation

def updateLaunchConfigs (launchConfigs : Dict String) (user : UserSettings) : UserSettings :=
  { user with launchConfigs }

def updateUserPreferences (userPreferences : Permissions) (user : UserSettings) : UserSettings :=
  { user with userPreferences }

/-- The loop of `removeServerFromAllUsers`, up to the next user that is to be updated. -/
def removeFrom (serverId : String) : List (String × UserSettings) → Option SettingsOperation
  | [] => none
  | (userId, user) :: users =>
    if (user.launchConfigs.get? serverId).isSome || (user.userPreferences.get? serverId).isSome then
      some (.removeWrites serverId userId user users)
    else removeFrom serverId users

/-- The current capabilities of `handleSetCapabilities`, with the preferences read before the
    rest. -/
def currentCapabilities (gateway : CapabilityState) (userId : String)
    (userPreferences : Permissions) : Permissions :=
  match gateway.users.get? userId with
  | none => .empty
  | some user =>
    let users := gateway.users.set userId { user with userPreferences := some userPreferences }
    CapabilityState.userView { gateway with users } userId

/-- An operation when its row has been read. -/
def found (s : SettingsState) : SettingsOperation → Option (Option SettingsOperation)
  | .configureFinds userId serverId =>
    some ((s.users.get? userId).map fun user => .configureEncrypts userId serverId user)
  | .unconfigureFinds userId serverId =>
    some ((s.users.get? userId).bind fun user =>
      -- a server that is not configured
      if (user.launchConfigs.get? serverId).isNone then none
      else some (.unconfigureCloses userId serverId user))
  | .setFinds userId submitted =>
    some ((s.users.get? userId).map fun user =>
      .setCollects userId submitted user.userPreferences)
  | .tokensFinds userId serverId =>
    some ((s.users.get? userId).bind fun user =>
      if (user.launchConfigs.get? serverId).isNone then none
      else some (.tokensEncrypts userId serverId user.launchConfigs))
  | .removeFinds serverId => some (removeFrom serverId s.users.entries)
  | _ => none

def step (s : SettingsState) : SettingsAction → Option SettingsState
  | .configureServer userId serverId =>
    some { s with operations := s.operations.add (.configureFinds userId serverId) }
  | .unconfigureServer userId serverId =>
    some { s with operations := s.operations.add (.unconfigureFinds userId serverId) }
  | .setCapabilities userId submitted =>
    some { s with operations := s.operations.add (.setFinds userId submitted) }
  | .updateUserLaunchConfig userId serverId =>
    some { s with operations := s.operations.add (.tokensFinds userId serverId) }
  | .removeServerFromAllUsers serverId =>
    some { s with operations := s.operations.add (.removeFinds serverId) }
  | .finds i =>
    match s.operations.get? i with
    | none => none
    | some operation => (s.found operation).map fun operation => s.next i operation
  | .encrypted i launchConfig =>
    match s.operations.get? i with
    | some (.configureEncrypts userId serverId user) =>
      some (s.update i userId
        (updateLaunchConfigs (user.launchConfigs.set serverId launchConfig))
        (some (.configureStarts userId serverId user)))
    | some (.tokensEncrypts userId serverId launchConfigs) =>
      some (s.update i userId (updateLaunchConfigs (launchConfigs.set serverId launchConfig)) none)
    | _ => none
  | .seedFinds i =>
    match s.operations.get? i with
    | some (.configureStarts userId serverId user) =>
      match s.users.get? userId with
      | none => some s
      | some row =>
        some (s.next i (some (.configureSeeds userId serverId user row.userPreferences)))
    | _ => none
  | .seedWrites i capabilities =>
    match s.operations.get? i with
    | some (.configureSeeds userId serverId user userPreferences) =>
      some (s.update i userId (updateUserPreferences (userPreferences.set serverId capabilities))
        (some (.configureStarts userId serverId user)))
    | _ => none
  | .started i capabilities =>
    match s.operations.get? i with
    | some (.configureStarts userId serverId user) =>
      some (s.update i userId
        (updateUserPreferences (user.userPreferences.set serverId capabilities)) none)
    | _ => none
  | .closed i =>
    match s.operations.get? i with
    | some (.unconfigureCloses userId serverId user) =>
      some (s.update i userId (updateLaunchConfigs (user.launchConfigs.erase serverId))
        (if (user.userPreferences.get? serverId).isSome then
          some (.unconfigureCleans userId serverId user)
        else none))
    | _ => none
  | .cleans i =>
    match s.operations.get? i with
    | some (.unconfigureCleans userId serverId user) =>
      some (s.update i userId (updateUserPreferences (user.userPreferences.erase serverId)) none)
    | _ => none
  | .collected i gateway =>
    match s.operations.get? i with
    | some (.setCollects userId submitted userPreferences) =>
      let current := currentCapabilities gateway userId userPreferences
      some (s.next i ((extractEnabledFields submitted current).map fun validatedPreferences =>
        .setWrites userId submitted validatedPreferences))
    | _ => none
  | .writes i =>
    match s.operations.get? i with
    | some (.setWrites userId _ validatedPreferences) =>
      some (s.update i userId (updateUserPreferences validatedPreferences) none)
    | some (.removeWrites serverId userId user users) =>
      some (s.update i userId
        (fun _ =>
          { launchConfigs := user.launchConfigs.erase serverId
            userPreferences := user.userPreferences.erase serverId })
        (removeFrom serverId users))
    | _ => none
  | .throws i =>
    match s.operations.get? i with
    | none => none
    | some _ => some (s.next i none)

end SettingsState

end PetaCore
