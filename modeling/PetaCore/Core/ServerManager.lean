import PetaCore.Core.ServerContext

/-!
# ServerManager

The gateway's server contexts: managed ones, by server id, and temporary ones, which belong
to the user who configured the server, by server id and user id.
-/

namespace PetaCore

/-- A user id: the first 32 hexadecimal digits of the hash of the user's token, by
    `calculateUserId`. -/
structure UserId where
  value : String
  hex : ∀ c ∈ value.toList, c.isDigit = true ∨ ('a' ≤ c ∧ c ≤ 'f')
deriving DecidableEq

theorem UserId.ext_value {userId userId' : UserId} (h : userId.value = userId'.value) :
    userId = userId' := by
  cases userId
  cases userId'
  simp only [UserId.mk.injEq]
  exact h

theorem UserId.hex_of_all {value : String}
    (h : value.toList.all (fun c => c.isDigit || ('a' ≤ c && c ≤ 'f')) = true) :
    ∀ c ∈ value.toList, c.isDigit = true ∨ ('a' ≤ c ∧ c ≤ 'f') := by
  intro c hc
  have hdigit := List.all_eq_true.mp h c hc
  simpa only [Bool.or_eq_true, Bool.and_eq_true, decide_eq_true_eq] using hdigit

/-- The key of `temporaryServers`. -/
def internalKey (serverId userId : String) : String := serverId ++ ":" ++ userId

/-- `ServerManager` -/
structure ServerManager (κ : Type) where
  serverContexts : Dict (ServerContext κ)
  temporaryServers : Dict (ServerContext κ)

namespace ServerManager

variable {κ κ' : Type}

def empty : ServerManager κ := ⟨.empty, .empty⟩

def map (f : κ → κ') (m : ServerManager κ) : ServerManager κ' :=
  ⟨m.serverContexts.map (·.map f), m.temporaryServers.map (·.map f)⟩

/-- `getTemporaryServer` -/
def getTemporaryServer (m : ServerManager κ) (serverId userId : String) :
    Option (ServerContext κ) :=
  m.temporaryServers.get? (internalKey serverId userId)

/-- `getServerContext`; an empty `userId` counts as none. -/
def getServerContext (m : ServerManager κ) (serverID : String) (userId : Option String) :
    Option (ServerContext κ) :=
  match m.serverContexts.get? serverID with
  | some c => some c
  | none =>
    match userId with
    | none => none
    | some userId => if userId = "" then none else m.getTemporaryServer serverID userId

/-- `getServerContextByID` -/
def getServerContextByID (m : ServerManager κ) (id : String) : Option (ServerContext κ) :=
  m.serverContexts.values.find? fun c => c.id == id

/-- `getTemporaryServerContextByID` -/
def getTemporaryServerContextByID (m : ServerManager κ) (id userId : String) :
    Option (ServerContext κ) :=
  m.temporaryServers.values.find? fun c => c.id == id && c.userId == some userId

/-- `getAvailableServersFromServerContexts` -/
def getAvailableServersFromServerContexts (m : ServerManager κ) : List (ServerContext κ) :=
  m.serverContexts.values.filter (·.isAvailable)

/-- `getAvailableServersFromTemporaryServers` -/
def getAvailableServersFromTemporaryServers (m : ServerManager κ) : List (ServerContext κ) :=
  m.temporaryServers.values.filter (·.isAvailable)

/-- `getAvailableServers` -/
def getAvailableServers (m : ServerManager κ) : List (ServerContext κ) :=
  m.getAvailableServersFromServerContexts ++ m.getAvailableServersFromTemporaryServers

end ServerManager

end PetaCore
