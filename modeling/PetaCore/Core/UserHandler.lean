import PetaCore.Core.Types
import PetaCore.ForStd.Dict
import PetaCore.ForStd.Table

/-!
# UserHandler

The administrator operations on the table `user` and the restore of a backup. Each operation is a
sequence of database statements with awaits in between, and the operations interleave. A statement
and the code up to the next await is one step; a transaction is one step.

The columns `role` and `status` are integers, as in the schema: the requests are not checked
against the enumerations.
-/

namespace PetaCore

/-- The values of `UserRole` in the column. -/
def UserRole.toInt : UserRole → Int
  | .owner => 1
  | .admin => 2
  | .user => 3
  | .guest => 4

/-- The values of `UserStatus` in the column. -/
def UserStatus.toInt : UserStatus → Int
  | .disabled => 0
  | .enabled => 1
  | .pending => 2
  | .suspended => 3

/-- A row of the table `user`, without the columns that no operation here reads. -/
structure UserRecord where
  status : Int
  role : Int
  permissions : String
  expiresAt : Int
  name : String
  encryptedToken : Option String
  proxyId : Int
  notes : Option String
deriving DecidableEq

def UserRecord.isOwner (user : UserRecord) : Bool := user.role == UserRole.owner.toInt

/-- The data of a request to create a user; `none` where the field is absent or null. -/
structure CreateUserData where
  userId : String
  status : Option Int
  role : Option Int
  permissions : Option String
  /-- `some none` for what is not a finite number -/
  expiresAt : Option (Option Int)
  name : Option String
  encryptedToken : String
  proxyId : Option Int
  notes : Option String
deriving DecidableEq

/-- The data of a request to update a user; `none` where the field is absent. -/
structure UpdateUserData where
  userId : String
  name : Option String
  notes : Option (Option String)
  permissions : Option String
  status : Option Int
  encryptedToken : Option (Option String)
deriving DecidableEq

/-- The tables of a backup; of the proxies and servers only how many there are. -/
structure BackupTables where
  users : List (String × UserRecord)
  proxies : Nat
  servers : Nat
deriving DecidableEq

/-- What goes on when `disableUser` has returned. -/
inductive AfterDisable where
  /-- `handleDisableUser` -/
  | returns
  /-- `handleUpdateUser`, with the row that it has read -/
  | update (data : UpdateUserData) (existingUser : UserRecord)
  /-- `handleDeleteUser` -/
  | delete (userId : String)
  /-- the loop of `handleDeleteUsersByProxy`, with the users that come next -/
  | deleteByProxy (proxyId : Int) (users : List String)
deriving DecidableEq

/-- An operation, by the statement that it comes to next. -/
inductive UserOperation where
  | createFinds (data : CreateUserData) (token : Option String)
  | createWrites (data : CreateUserData)
  | updateFinds (data : UpdateUserData)
  | updateWrites (data : UpdateUserData) (existingUser : UserRecord)
  | disableFinds (targetId : String) (after : AfterDisable)
  | disableWrites (targetId : String) (after : AfterDisable)
  /-- the end of `removeAllUserSessions` -/
  | disableRemoves (targetId : String) (after : AfterDisable)
  | deleteWrites (userId : String)
  | proxyFinds (proxyId : Int)
  | proxyWrites (proxyId : Int)
  | restoreFindsProxy (backup : BackupTables)
  | restoreFindsUsers (backup : BackupTables)
  | restoreFindsServers (backup : BackupTables)
  | restoreWrites (backup : BackupTables)
deriving DecidableEq

inductive UserAction where
  | createUser (data : CreateUserData) (token : Option String)
  | updateUser (data : UpdateUserData)
  | disableUser (targetId : String)
  | deleteUser (userId : String)
  | deleteUsersByProxy (proxyId : Int)
  | restoreDatabase (backup : BackupTables)
  /-- the next statement of an operation -/
  | continues (operation : Nat)
  /-- the next statement of an operation throws -/
  | throws (operation : Nat)
  /-- the tables `proxy` and `server` change -/
  | otherTables (proxies servers : Nat)

/-- The parts of the runtime that are not modelled. -/
structure UserEnv where
  /-- the user id of the token that an encrypted token decrypts to -/
  decryptedUserId : (encryptedToken token : String) → Option String
  /-- `JSON.parse` accepts the text -/
  isJson : String → Bool

structure UserState where
  users : Dict UserRecord
  proxies : Nat
  servers : Nat
  operations : Table UserOperation
deriving DecidableEq

namespace UserState

variable (env : UserEnv)

def init (proxies servers : Nat) : UserState := ⟨.empty, proxies, servers, .empty⟩

/-! ## Creation -/

/-- `handleCreateUser` up to its first await. -/
def handleCreateUser (s : UserState) (data : CreateUserData) (token : Option String) : UserState :=
  -- an empty token is none
  if data.role ≠ some UserRole.owner.toInt ∧ token.all (· = "") then s
  else if data.userId = "" then s
  else if data.encryptedToken = "" then s
  else if data.expiresAt = some none then s
  else { s with operations := s.operations.add (.createFinds data token) }

def normalizedExpiresAt (data : CreateUserData) : Int :=
  match data.expiresAt with
  | some (some expiresAt) => if expiresAt ≥ 1000000000000 then expiresAt / 1000 else expiresAt
  | _ => 0

def userData (data : CreateUserData) : UserRecord :=
  { status := data.status.getD UserStatus.enabled.toInt
    role := data.role.getD UserRole.user.toInt
    permissions := data.permissions.getD "\x7b\x7d"
    expiresAt := normalizedExpiresAt data
    name := data.name.getD ""
    encryptedToken := some data.encryptedToken
    proxyId := data.proxyId.getD 0
    notes := data.notes }

/-- `handleCreateUser` when the user is looked up: what it comes to next. -/
def createFound (s : UserState) (data : CreateUserData) (token : Option String) :
    Option UserOperation :=
  if (s.users.get? data.userId).isSome then none
  else if data.role ≠ some UserRole.owner.toInt ∧
      env.decryptedUserId data.encryptedToken (token.getD "") ≠ some data.userId then none
  else some (.createWrites data)

/-- The insertion of the new row, for an owner in a transaction that locks the table. -/
def createUser (s : UserState) (data : CreateUserData) : Option (Dict UserRecord) :=
  if data.role = some UserRole.owner.toInt then
    if s.users.values.any (·.isOwner) then none
    else if s.users.values.length > 0 then none
    else some (s.users.set data.userId (userData data))
  else if (s.users.get? data.userId).isSome then none
  else some (s.users.set data.userId (userData data))

/-! ## Update -/

/-- `handleUpdateUser` when the user is looked up. -/
def updateFound (s : UserState) (data : UpdateUserData) : Option UserOperation :=
  match s.users.get? data.userId with
  | none => none
  | some existingUser =>
    if existingUser.isOwner ∧ data.status.any (· ≠ UserStatus.enabled.toInt) then none
    else if data.status ≠ some existingUser.status ∧
        data.status = some UserStatus.disabled.toInt then
      some (.disableFinds data.userId (.update data existingUser))
    else some (.updateWrites data existingUser)

/-- The keys of `updateData` that are set. -/
def updateDataIsEmpty (data : UpdateUserData) : Bool :=
  data.name.isNone && data.notes.isNone && data.encryptedToken.isNone && data.status.isNone

/-- The columns of `updateData`. -/
def updatedRecord (data : UpdateUserData) (user : UserRecord) : UserRecord :=
  { user with
    name := data.name.getD user.name
    notes := data.notes.getD user.notes
    encryptedToken := data.encryptedToken.getD user.encryptedToken
    status := data.status.getD user.status }

/-- `UserRepository.update`, which throws when there is no such row. -/
def update (users : Dict UserRecord) (userId : String) (f : UserRecord → UserRecord) :
    Option (Dict UserRecord) :=
  (users.get? userId).map fun user => users.set userId (f user)

/-- The end of `handleUpdateUser`, with `updateUserPermissions` when permissions are given. -/
def updateUser (s : UserState) (data : UpdateUserData) (existingUser : UserRecord) :
    Option (Dict UserRecord) :=
  match data.permissions with
  | none => update s.users data.userId (updatedRecord data)
  | some permissions =>
    if permissions = existingUser.permissions then
      if updateDataIsEmpty data then some s.users
      else update s.users data.userId (updatedRecord data)
    else if !env.isJson permissions || !env.isJson existingUser.permissions then none
    else update s.users data.userId fun user => { updatedRecord data user with permissions }

/-! ## Disable and delete -/

/-- `disableUser` when the user is looked up. -/
def disableFound (s : UserState) (targetId : String) (after : AfterDisable) :
    Option UserOperation :=
  match s.users.get? targetId with
  | none => none
  | some user => if user.isOwner then none else some (.disableWrites targetId after)

/-- The loop of `handleDeleteUsersByProxy`. -/
def deleteByProxyNext (proxyId : Int) : List String → UserOperation
  | [] => .proxyWrites proxyId
  | userId :: users => .disableFinds userId (.deleteByProxy proxyId users)

/-- What the caller of `disableUser` comes to next. -/
def afterDisable : AfterDisable → Option UserOperation
  | .returns => none
  | .update data existingUser => some (.updateWrites data existingUser)
  | .delete userId => some (.deleteWrites userId)
  | .deleteByProxy proxyId users => some (deleteByProxyNext proxyId users)

/-- `handleDeleteUsersByProxy` when the users are looked up. -/
def proxyFound (s : UserState) (proxyId : Int) : Option UserOperation :=
  let users := s.users.entries.filter fun e => e.2.proxyId == proxyId
  if users.any fun e => e.2.isOwner then none
  else some (deleteByProxyNext proxyId (users.map Prod.fst))

def deleteByProxyId (users : Dict UserRecord) (proxyId : Int) : Dict UserRecord :=
  users.filter fun user => user.proxyId != proxyId

/-! ## Restore -/

/-- The transaction of `handleRestoreDatabase`: the state with the tables of the backup. -/
def restore (s : UserState) (backup : BackupTables) : Option UserState :=
  if s.proxies > 0 then none
  else if s.users.values.length > 0 then none
  else if s.servers > 0 then none
  -- two rows with one key
  else if !decide (backup.users.map Prod.fst).Nodup then none
  else
    some { s with
      users := .ofList backup.users
      proxies := backup.proxies
      servers := backup.servers }

/-! ## The step function -/

/-- The operation comes to its next statement, or has ended. -/
def next (s : UserState) (i : Nat) : Option UserOperation → UserState
  | none => { s with operations := s.operations.erase i }
  | some operation => { s with operations := s.operations.put i operation }

/-- The operation has written, or the statement has thrown. -/
def write (s : UserState) (i : Nat) (users : Option (Dict UserRecord))
    (operation : Option UserOperation) : UserState :=
  match users with
  | none => s.next i none
  | some users => UserState.next { s with users } i operation

/-- The next statement of an operation. -/
def continueOperation (s : UserState) (i : Nat) : UserOperation → UserState
  | .createFinds data token => s.next i (s.createFound env data token)
  | .createWrites data => s.write i (s.createUser data) none
  | .updateFinds data => s.next i (s.updateFound data)
  | .updateWrites data existingUser => s.write i (s.updateUser env data existingUser) none
  | .disableFinds targetId after => s.next i (s.disableFound targetId after)
  | .disableWrites targetId after =>
    s.write i (update s.users targetId fun user =>
      { user with status := UserStatus.disabled.toInt }) (some (.disableRemoves targetId after))
  | .disableRemoves _ after => s.next i (afterDisable after)
  -- `prisma.user.delete` throws when there is no such row
  | .deleteWrites userId => UserState.next { s with users := s.users.erase userId } i none
  | .proxyFinds proxyId => s.next i (s.proxyFound proxyId)
  | .proxyWrites proxyId => UserState.next { s with users := deleteByProxyId s.users proxyId } i none
  | .restoreFindsProxy backup =>
    s.next i (if s.proxies > 0 then none else some (.restoreFindsUsers backup))
  | .restoreFindsUsers backup =>
    s.next i (if s.users.values.length > 0 then none else some (.restoreFindsServers backup))
  | .restoreFindsServers backup =>
    s.next i (if s.servers > 0 then none else some (.restoreWrites backup))
  | .restoreWrites backup => ((s.restore backup).getD s).next i none

def step (s : UserState) : UserAction → Option UserState
  | .createUser data token => some (s.handleCreateUser data token)
  | .updateUser data =>
    if data.userId = "" then some s
    else some { s with operations := s.operations.add (.updateFinds data) }
  | .disableUser targetId =>
    some { s with operations := s.operations.add (.disableFinds targetId .returns) }
  | .deleteUser userId =>
    if userId = "" then some s
    else some { s with operations := s.operations.add (.disableFinds userId (.delete userId)) }
  | .deleteUsersByProxy proxyId =>
    some { s with operations := s.operations.add (.proxyFinds proxyId) }
  | .restoreDatabase backup =>
    some { s with operations := s.operations.add (.restoreFindsProxy backup) }
  | .continues i =>
    match s.operations.get? i with
    | none => none
    | some operation => some (s.continueOperation env i operation)
  | .throws i =>
    match s.operations.get? i with
    | none => none
    | some _ => some (s.next i none)
  | .otherTables proxies servers => some { s with proxies, servers }

end UserState

end PetaCore
