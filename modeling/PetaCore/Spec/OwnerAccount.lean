import PetaCore.Core.UserHandler
import PetaCore.ForStd.Run

/-!
# The owner's account

The operations protect the owner by looking at a row before they write it. What they have looked
at can be gone when they write, and an owner can be there instead. An operation `threatens` a user
when it will disable, suspend or delete the user's row without looking at it again. No operation
threatens the owner, as long as an owner is made, by `handleCreateUser` or by a restore, only when
none threatens the new row (`protects`).

Key results:
- `Guarded.step`: every step that protects the owner keeps the invariant
- `owner_stays`: there is at most one owner, who stays and stays enabled
- `owner_is_deleted`: the owner can be deleted
-/

namespace PetaCore

open Run

/-- The status is one that takes an enabled user's access away. -/
def takesAccess (status : Option Int) : Bool := status.any (· ≠ UserStatus.enabled.toInt)

/-- The caller of `disableUser` will write the user's row without looking at it again. -/
def AfterDisable.threatens (userId : String) (proxyId : Int) : AfterDisable → Bool
  | .returns => false
  | .update data _ => data.userId == userId && takesAccess data.status
  | .delete deleted => deleted == userId
  | .deleteByProxy deleted _ => deleted == proxyId

/-- The operation will disable, suspend or delete the user's row without looking at it again. -/
def UserOperation.threatens (userId : String) (proxyId : Int) : UserOperation → Bool
  | .updateWrites data _ => data.userId == userId && takesAccess data.status
  -- the row of `targetId` is looked at first
  | .disableFinds targetId after => targetId != userId && after.threatens userId proxyId
  | .disableWrites targetId after => targetId == userId || after.threatens userId proxyId
  | .disableRemoves _ after => after.threatens userId proxyId
  | .deleteWrites deleted => deleted == userId
  | .proxyWrites deleted => deleted == proxyId
  | _ => false

namespace UserState

variable {operation : UserOperation} {users : Dict UserRecord} {s : UserState} {user : UserRecord}

variable {env : UserEnv}

/-- An operation in progress threatens the row. -/
def threatened (s : UserState) (userId : String) (user : UserRecord) : Bool :=
  s.operations.any fun _ operation => operation.threatens userId user.proxyId

/-- The new rows have at most one owner, who is enabled and whom no operation threatens. -/
def protectsRows (s : UserState) (rows : List (String × UserRecord)) : Bool :=
  let owners := rows.filter fun e => e.2.isOwner
  decide (owners.length ≤ 1) && owners.all fun e =>
    e.2.status == UserStatus.enabled.toInt && !s.threatened e.1 e.2

/-- Condition on a step: rows that make an owner, new ones or ones of a backup, make a single
    enabled one whom no operation in progress threatens. -/
def protects (s : UserState) : UserAction → Bool
  | .continues i =>
    match s.operations.get? i with
    | some (.createWrites data) =>
      (s.createUser data).isNone || s.protectsRows [(data.userId, userData data)]
    | some (.restoreWrites backup) =>
      (s.restore backup).isNone || s.protectsRows backup.users
    | _ => true
  | _ => true

/-- There is at most one owner, who is enabled. -/
structure OwnerOk (users : Dict UserRecord) : Prop where
  one : ∀ u v user user', users.get? u = some user → users.get? v = some user' →
    user.isOwner = true → user'.isOwner = true → u = v
  enabled : ∀ u user, users.get? u = some user → user.isOwner = true →
    user.status = UserStatus.enabled.toInt

/-- Whoever is an owner before is one after. -/
def OwnerStays (users users' : Dict UserRecord) : Prop :=
  ∀ u user, users.get? u = some user → user.isOwner = true →
    ∃ user', users'.get? u = some user' ∧ user'.isOwner = true

/-- No operation in progress threatens an owner. -/
structure Guarded (s : UserState) : Prop where
  owner : OwnerOk s.users
  operations : ∀ i operation u user, s.operations.get? i = some operation →
    s.users.get? u = some user → user.isOwner = true → operation.threatens u user.proxyId = false

/-! ## What a write does to the owners -/

/-- The owners of `users'` are those of `users`, with the same status and proxy. -/
structure SameOwners (users users' : Dict UserRecord) : Prop where
  stays : OwnerStays users users'
  old : ∀ u user', users'.get? u = some user' → user'.isOwner = true →
    ∃ user, users.get? u = some user ∧ user.isOwner = true ∧ user'.proxyId = user.proxyId ∧
      user'.status = user.status

theorem SameOwners.refl (users : Dict UserRecord) : SameOwners users users :=
  ⟨fun _ user huser howner => ⟨user, huser, howner⟩,
    fun _ user huser howner => ⟨user, huser, howner, rfl, rfl⟩⟩

theorem OwnerOk.same {users users' : Dict UserRecord} (h : OwnerOk users)
    (hsame : SameOwners users users') : OwnerOk users' := by
  constructor
  case one =>
    intro u v user user' hu hv howner howner'
    obtain ⟨user₀, hu₀, howner₀, _⟩ := hsame.old u user hu howner
    obtain ⟨user₁, hv₁, howner₁, _⟩ := hsame.old v user' hv howner'
    exact h.one u v user₀ user₁ hu₀ hv₁ howner₀ howner₁
  case enabled =>
    intro u user hu howner
    obtain ⟨user₀, hu₀, howner₀, _, hstatus⟩ := hsame.old u user hu howner
    rw [hstatus]
    exact h.enabled u user₀ hu₀ howner₀

/-- A row is written that keeps its role and proxy, and its status if it is an owner's. -/
theorem sameOwners_update {users users' : Dict UserRecord} {userId : String}
    {f : UserRecord → UserRecord} (h : update users userId f = some users')
    (hrole : ∀ user, (f user).role = user.role) (hproxy : ∀ user, (f user).proxyId = user.proxyId)
    (hstatus : ∀ user, users.get? userId = some user → user.isOwner = true →
      (f user).status = user.status) : SameOwners users users' := by
  obtain ⟨written, hwritten, rfl⟩ := Option.map_eq_some_iff.mp h
  have howner : ∀ user, (f user).isOwner = user.isOwner := by
    intro user
    simp only [UserRecord.isOwner, hrole]
  constructor
  case stays =>
    intro u user hu huser
    by_cases heq : u = userId
    · subst heq
      obtain rfl := Option.some.inj (hwritten.symm.trans hu)
      exact ⟨f written, Dict.get?_set_self _ _ _, (howner written).trans huser⟩
    · exact ⟨user, (Dict.get?_set_ne _ _ heq).trans hu, huser⟩
  case old =>
    intro u user' hu huser'
    by_cases heq : u = userId
    · subst heq
      rw [Dict.get?_set_self] at hu
      cases hu
      rw [howner] at huser'
      exact ⟨written, hwritten, huser', hproxy written, hstatus written hwritten huser'⟩
    · rw [Dict.get?_set_ne _ _ heq] at hu
      exact ⟨user', hu, huser', rfl, rfl⟩

/-- Rows are deleted that are no owner's. -/
theorem sameOwners_of_deleted {users users' : Dict UserRecord}
    (hold : ∀ u user, users'.get? u = some user → users.get? u = some user)
    (hkept : ∀ u user, users.get? u = some user → user.isOwner = true →
      users'.get? u = some user) : SameOwners users users' where
  stays := fun u user hu howner => ⟨user, hkept u user hu howner, howner⟩
  old := fun u user hu howner => ⟨user, hold u user hu, howner, rfl, rfl⟩

/-- A row that is no owner's is added. -/
theorem sameOwners_set {userId : String} (hnew : users.get? userId = none)
    (hrole : user.isOwner = false) : SameOwners users (users.set userId user) := by
  constructor
  case stays =>
    intro u user' hu howner
    have hne : u ≠ userId := by
      rintro rfl
      simp [hnew] at hu
    exact ⟨user', (Dict.get?_set_ne _ _ hne).trans hu, howner⟩
  case old =>
    intro u user' hu howner
    by_cases heq : u = userId
    · subst heq
      rw [Dict.get?_set_self] at hu
      cases hu
      simp [hrole] at howner
    · rw [Dict.get?_set_ne _ _ heq] at hu
      exact ⟨user', hu, howner, rfl, rfl⟩

/-! ## The steps -/

theorem Guarded.same (h : s.Guarded) (hsame : SameOwners s.users users) :
    Guarded { s with users } where
  owner := h.owner.same hsame
  operations := by
    intro i operation u user hop hu howner
    obtain ⟨user₀, hu₀, howner₀, hproxy, _⟩ := hsame.old u user hu howner
    rw [hproxy]
    exact h.operations i operation u user₀ hop hu₀ howner₀

/-- The operation ends, or comes to a statement that threatens no owner. -/
theorem Guarded.next {s : UserState} (h : s.Guarded) {i : Nat} {operation : UserOperation}
    (hop : s.operations.get? i = some operation) (next : Option UserOperation)
    (hnext : ∀ operation', next = some operation' → ∀ u user, s.users.get? u = some user →
      user.isOwner = true → operation'.threatens u user.proxyId = false) :
    (s.next i next).Guarded := by
  cases next with
  | none =>
    refine ⟨h.owner, ?_⟩
    intro j operation' u user hj
    exact h.operations j operation' u user (Table.get?_of_get?_erase hj).2
  | some operation' =>
    refine ⟨h.owner, ?_⟩
    intro j operation'' u user hj hu howner
    simp only [UserState.next, Table.get?_put hop] at hj
    split at hj
    · cases hj
      exact hnext operation' rfl u user hu howner
    · exact h.operations j operation'' u user hj hu howner

theorem Guarded.add (h : s.Guarded) (hnot : ∀ u proxyId, operation.threatens u proxyId = false) :
    Guarded { s with operations := s.operations.add operation } := by
  refine ⟨h.owner, ?_⟩
  intro i operation' u user hi hu howner
  simp only [Table.get?_add] at hi
  split at hi
  · cases hi
    exact hnot u user.proxyId
  · exact h.operations i operation' u user hi hu howner

/-- New rows in an empty table. -/
theorem guarded_of_rows {rows : List (String × UserRecord)}
    (hrows : ∀ u user, users.get? u = some user → (u, user) ∈ rows)
    (hprotects : s.protectsRows rows = true) : Guarded { s with users } := by
  simp only [protectsRows, Bool.and_eq_true, decide_eq_true_eq, List.all_eq_true,
    List.mem_filter] at hprotects
  obtain ⟨hone, hall⟩ := hprotects
  have hmem : ∀ u user, users.get? u = some user → user.isOwner = true →
      (u, user) ∈ rows.filter fun e => e.2.isOwner :=
    fun u user hu howner => List.mem_filter.mpr ⟨hrows u user hu, howner⟩
  constructor
  case owner =>
    constructor
    case one =>
      intro u v user user' hu hv howner howner'
      have hu' := hmem u user hu howner
      have hv' := hmem v user' hv howner'
      cases howners : rows.filter fun e => e.2.isOwner with
      | nil => simp [howners] at hu'
      | cons e rest =>
        -- both rows are the only one of the list
        rw [howners, List.length_cons] at hone
        obtain rfl : rest = [] := List.eq_nil_of_length_eq_zero (by omega)
        rw [howners, List.mem_singleton] at hu' hv'
        exact (Prod.mk.inj (hu'.trans hv'.symm)).1
    case enabled =>
      intro u user hu howner
      have hstatus := (hall (u, user) ⟨hrows u user hu, howner⟩).1
      exact beq_iff_eq.mp hstatus
  case operations =>
    intro i operation u user hop hu howner
    have hfree := (hall (u, user) ⟨hrows u user hu, howner⟩).2
    simp only [Bool.not_eq_true', threatened] at hfree
    cases hthreat : operation.threatens u user.proxyId with
    | false => rfl
    | true =>
      have hany : (s.operations.any fun _ operation =>
          operation.threatens u user.proxyId) = true :=
        Table.any_eq_true.mpr ⟨i, operation, hop, hthreat⟩
      rw [hfree] at hany
      cases hany

theorem isOwner_userData (data : CreateUserData) :
    (userData data).isOwner = decide (data.role = some UserRole.owner.toInt) := by
  simp only [UserRecord.isOwner, userData]
  cases data.role with
  | none => rfl
  | some role => simp [beq_eq_decide]

theorem values_eq_nil (h : ¬ users.values.length > 0) (u : String) : users.get? u = none := by
  cases hu : users.get? u with
  | none => rfl
  | some user =>
    have hmem := Dict.mem_values_of_get? hu
    exact absurd (List.length_pos_of_mem hmem) h

/-- The new row of `handleCreateUser`. -/
theorem Guarded.createUser (h : s.Guarded) {data : CreateUserData}
    (hs : s.createUser data = some users)
    (hprotects : s.protectsRows [(data.userId, userData data)] = true) :
    Guarded { s with users } ∧ OwnerStays s.users users := by
  have howner := isOwner_userData data
  simp only [UserState.createUser] at hs
  split at hs
  · split at hs
    · cases hs
    split at hs
    · cases hs
    next hempty =>
    cases hs
    have hnone := values_eq_nil hempty
    refine ⟨guarded_of_rows ?_ hprotects, fun u user hu => by simp [hnone u] at hu⟩
    intro u user hu
    rw [Dict.get?_set] at hu
    split at hu
    · next heq =>
      cases hu
      simp [heq]
    · simp [hnone u] at hu
  · next hrole =>
    split at hs
    · cases hs
    next hnew =>
    cases hs
    have hsame : SameOwners s.users (s.users.set data.userId (userData data)) :=
      sameOwners_set (by simpa using hnew) (by simpa [hrole] using howner)
    exact ⟨h.same hsame, hsame.stays⟩

/-- The rows of a backup. -/
theorem guarded_restore {s s' : UserState} {backup : BackupTables}
    (hs : s.restore backup = some s') (hprotects : s.protectsRows backup.users = true) :
    s'.Guarded ∧ OwnerStays s.users s'.users := by
  simp only [UserState.restore] at hs
  split at hs
  · cases hs
  split at hs
  · cases hs
  next hempty =>
  split at hs
  · cases hs
  split at hs
  · cases hs
  cases hs
  have hnone := values_eq_nil hempty
  have hok : Guarded { s with users := .ofList backup.users } :=
    guarded_of_rows (fun u user hu => Dict.mem_of_get?_ofList hu) hprotects
  exact ⟨⟨hok.owner, hok.operations⟩, fun u user hu => by simp [hnone u] at hu⟩

theorem operations_restore {s s' : UserState} {backup : BackupTables}
    (hs : s.restore backup = some s') : s'.operations = s.operations := by
  simp only [UserState.restore] at hs
  split at hs
  · cases hs
  split at hs
  · cases hs
  split at hs
  · cases hs
  split at hs
  · cases hs
  cases hs
  rfl

/-- The update of a row, when the operation does not threaten an owner. -/
theorem sameOwners_updateUser (h : s.Guarded) {data : UpdateUserData} {existingUser : UserRecord}
    (hs : s.updateUser env data existingUser = some users)
    (hsafe : ∀ user, s.users.get? data.userId = some user → user.isOwner = true →
      takesAccess data.status = false) : SameOwners s.users users := by
  have hstatus : ∀ user, s.users.get? data.userId = some user → user.isOwner = true →
      data.status.getD user.status = user.status := by
    intro user huser howner
    have henabled := h.owner.enabled _ user huser howner
    have hnot := hsafe user huser howner
    cases hdata : data.status with
    | none => rfl
    | some status =>
      simp only [takesAccess, hdata, Option.any_some, decide_not, Bool.not_eq_false',
        decide_eq_true_eq] at hnot
      rw [Option.getD_some, hnot, henabled]
  simp only [UserState.updateUser] at hs
  split at hs
  · exact sameOwners_update hs (fun _ => rfl) (fun _ => rfl) hstatus
  · split at hs
    · split at hs
      · cases hs
        exact SameOwners.refl _
      · exact sameOwners_update hs (fun _ => rfl) (fun _ => rfl) hstatus
    · split at hs
      · cases hs
      · exact sameOwners_update hs (fun _ => rfl) (fun _ => rfl) hstatus

/-- The operations that `handleDeleteUsersByProxy` comes to. -/
theorem threatens_deleteByProxyNext {proxyId : Int} {users : List String} {u : String}
    (hne : user.proxyId ≠ proxyId) :
    (deleteByProxyNext proxyId users).threatens u user.proxyId = false := by
  cases users with
  | nil => simp [deleteByProxyNext, UserOperation.threatens, Ne.symm hne]
  | cons _ _ =>
    simp [deleteByProxyNext, UserOperation.threatens, AfterDisable.threatens, Ne.symm hne]

/-- What an operation comes to when `disableUser` has returned threatens no more than the
    operation did. -/
theorem threatens_afterDisable {after : AfterDisable} (hafter : afterDisable after = some operation)
    {u : String} (h : after.threatens u user.proxyId = false) :
    operation.threatens u user.proxyId = false := by
  cases after with
  | returns => cases hafter
  | update _ _ | delete _ =>
    cases hafter
    exact h
  | deleteByProxy proxyId users =>
    cases hafter
    apply threatens_deleteByProxyNext
    intro heq
    simp [AfterDisable.threatens, heq] at h

/-- The lookups: what an operation comes to threatens no owner that is there. -/
theorem threatens_updateFound {data : UpdateUserData} (hnext : s.updateFound data = some operation)
    {u : String} (hu : s.users.get? u = some user) (howner : user.isOwner = true) :
    operation.threatens u user.proxyId = false := by
  simp only [updateFound] at hnext
  split at hnext
  · cases hnext
  next existingUser hfound =>
  split at hnext
  · cases hnext
  next hcheck =>
  split at hnext
  · cases hnext
    simp only [UserOperation.threatens, AfterDisable.threatens]
    cases hid : data.userId == u with
    | true => simp [bne, hid]
    | false => simp
  · cases hnext
    simp only [UserOperation.threatens]
    cases hid : data.userId == u with
    | false => rfl
    | true =>
      -- the owner was looked at
      obtain rfl := beq_iff_eq.mp hid
      obtain rfl := Option.some.inj (hfound.symm.trans hu)
      simpa [howner, takesAccess] using hcheck

theorem threatens_disableFound {targetId : String} {after : AfterDisable}
    (hnext : s.disableFound targetId after = some operation) {u : String}
    (hu : s.users.get? u = some user) (howner : user.isOwner = true)
    (h : (UserOperation.disableFinds targetId after).threatens u user.proxyId = false) :
    operation.threatens u user.proxyId = false := by
  simp only [disableFound] at hnext
  split at hnext
  · cases hnext
  next target hfound =>
  split at hnext
  · cases hnext
  next hcheck =>
  cases hnext
  have hne : targetId ≠ u := by
    rintro rfl
    obtain rfl := Option.some.inj (hfound.symm.trans hu)
    exact hcheck howner
  simpa [UserOperation.threatens, hne] using h

theorem threatens_proxyFound {proxyId : Int} (hnext : s.proxyFound proxyId = some operation)
    {u : String} (hu : s.users.get? u = some user) (howner : user.isOwner = true) :
    operation.threatens u user.proxyId = false := by
  simp only [proxyFound] at hnext
  split at hnext
  · cases hnext
  next hcheck =>
  cases hnext
  apply threatens_deleteByProxyNext
  intro heq
  -- the owner would be among the users of the proxy
  have hmem : (u, user) ∈ s.users.entries.filter fun e => e.2.proxyId == proxyId :=
    List.mem_filter.mpr ⟨(s.users.mem_entries u user).mpr hu, by simp [heq]⟩
  exact hcheck (List.any_eq_true.mpr ⟨(u, user), hmem, howner⟩)

/-- A statement that writes, or throws. -/
theorem Guarded.write (h : s.Guarded) {i : Nat} (hop : s.operations.get? i = some operation)
    {users : Option (Dict UserRecord)} {next : Option UserOperation}
    (hwrites : ∀ users', users = some users' →
      Guarded { s with users := users' } ∧ OwnerStays s.users users')
    (hnext : ∀ users' operation', users = some users' → next = some operation' →
      ∀ u user, users'.get? u = some user → user.isOwner = true →
        operation'.threatens u user.proxyId = false) :
    (s.write i users next).Guarded ∧ OwnerStays s.users (s.write i users next).users := by
  cases users with
  | none =>
    refine ⟨h.next hop none (by simp), ?_⟩
    exact (SameOwners.refl s.users).stays
  | some users' =>
    obtain ⟨hok, hstays⟩ := hwrites users' rfl
    refine ⟨hok.next hop next fun operation' hnext' => hnext users' operation' rfl hnext', ?_⟩
    cases next <;> exact hstays

/-- The next statement of an operation. -/
theorem Guarded.continueOperation (h : s.Guarded) {i : Nat}
    (hop : s.operations.get? i = some operation) (hprotects : s.protects (.continues i) = true) :
    (s.continueOperation env i operation).Guarded ∧
      OwnerStays s.users (s.continueOperation env i operation).users := by
  -- statements that only look
  have hlooks : ∀ next : Option UserOperation,
      (∀ operation', next = some operation' → ∀ u user, s.users.get? u = some user →
        user.isOwner = true → operation'.threatens u user.proxyId = false) →
      (s.next i next).Guarded ∧ OwnerStays s.users (s.next i next).users := by
    intro next hnext
    refine ⟨h.next hop next hnext, ?_⟩
    cases next <;> exact (SameOwners.refl s.users).stays
  -- statements that delete rows of users whom the operation threatens
  have hdeletes : ∀ users : Dict UserRecord, SameOwners s.users users →
      (UserState.next { s with users } i none).Guarded ∧ OwnerStays s.users users :=
    fun users hsame => ⟨(h.same hsame).next hop none (by simp), hsame.stays⟩
  have hsafe := fun u user => h.operations i operation u user hop
  cases operation with
  | createFinds data token =>
    refine hlooks _ fun operation' hnext u user _ _ => ?_
    simp only [createFound] at hnext
    split at hnext
    · cases hnext
    · split at hnext
      · cases hnext
      · cases hnext
        rfl
  | createWrites data =>
    refine h.write hop ?_ (by simp)
    intro users hs
    refine h.createUser hs ?_
    simpa [protects, hop, hs] using hprotects
  | updateFinds data =>
    exact hlooks _ fun operation' hnext u user hu howner => threatens_updateFound hnext hu howner
  | updateWrites data existingUser =>
    refine h.write hop ?_ (by simp)
    intro users hs
    have hsame : SameOwners s.users users := by
      refine sameOwners_updateUser h hs fun user huser howner => ?_
      simpa [UserOperation.threatens] using hsafe data.userId user huser howner
    exact ⟨h.same hsame, hsame.stays⟩
  | disableFinds targetId after =>
    exact hlooks _ fun operation' hnext u user hu howner =>
      threatens_disableFound hnext hu howner (hsafe u user hu howner)
  | disableWrites targetId after =>
    have hsame : ∀ users, update s.users targetId (fun user =>
        { user with status := UserStatus.disabled.toInt }) = some users →
        SameOwners s.users users := by
      intro users hs
      refine sameOwners_update hs (fun _ => rfl) (fun _ => rfl) fun user huser howner => ?_
      have hnot := hsafe targetId user huser howner
      simp [UserOperation.threatens] at hnot
    refine h.write hop (fun users hs => ⟨h.same (hsame users hs), (hsame users hs).stays⟩) ?_
    intro users operation' hs hnext u user hu howner
    cases hnext
    obtain ⟨user₀, hu₀, howner₀, hproxy, _⟩ := (hsame users hs).old u user hu howner
    have hnot := hsafe u user₀ hu₀ howner₀
    simp only [UserOperation.threatens, Bool.or_eq_false_iff] at hnot ⊢
    rw [hproxy]
    exact hnot.2
  | disableRemoves targetId after =>
    exact hlooks _ fun operation' hnext u user hu howner =>
      threatens_afterDisable hnext (hsafe u user hu howner)
  | deleteWrites userId =>
    refine hdeletes _ (sameOwners_of_deleted ?_ ?_)
    · intro u user hu
      rw [Dict.get?_erase] at hu
      split at hu
      · cases hu
      · exact hu
    · intro u user hu howner
      have hnot := hsafe u user hu howner
      simp only [UserOperation.threatens, beq_eq_false_iff_ne] at hnot
      rw [Dict.get?_erase, if_neg (Ne.symm hnot)]
      exact hu
  | proxyFinds proxyId =>
    exact hlooks _ fun operation' hnext u user hu howner => threatens_proxyFound hnext hu howner
  | proxyWrites proxyId =>
    refine hdeletes _ (sameOwners_of_deleted ?_ ?_)
    · intro u user hu
      rw [deleteByProxyId, Dict.get?_filter, Option.filter_eq_some_iff] at hu
      exact hu.1
    · intro u user hu howner
      have hnot := hsafe u user hu howner
      simp only [UserOperation.threatens, beq_eq_false_iff_ne] at hnot
      rw [deleteByProxyId, Dict.get?_filter, Option.filter_eq_some_iff]
      exact ⟨hu, by simpa using Ne.symm hnot⟩
  | restoreFindsProxy _ | restoreFindsUsers _ | restoreFindsServers _ =>
    refine hlooks _ fun operation' hnext u user _ _ => ?_
    split at hnext
    · cases hnext
    · cases hnext
      rfl
  | restoreWrites backup =>
    cases hs : s.restore backup with
    | none =>
      simp only [UserState.continueOperation, hs, Option.getD_none]
      exact hlooks none (by simp)
    | some s' =>
      have hrows : s.protectsRows backup.users = true := by
        simpa [protects, hop, hs] using hprotects
      obtain ⟨hok, hstays⟩ := guarded_restore hs hrows
      have hop' : s'.operations.get? i = some (.restoreWrites backup) := by
        rw [operations_restore hs, hop]
      simp only [UserState.continueOperation, hs, Option.getD_some]
      exact ⟨hok.next hop' none (by simp), hstays⟩

theorem Guarded.step {s s' : UserState} {a : UserAction} (h : s.Guarded)
    (hs : s.step env a = some s') (hprotects : s.protects a = true) :
    s'.Guarded ∧ OwnerStays s.users s'.users := by
  have hstays := (SameOwners.refl s.users).stays
  cases a with
  | createUser data token =>
    cases hs
    simp only [handleCreateUser]
    split
    · exact ⟨h, hstays⟩
    split
    · exact ⟨h, hstays⟩
    split
    · exact ⟨h, hstays⟩
    split
    · exact ⟨h, hstays⟩
    · exact ⟨h.add fun _ _ => rfl, hstays⟩
  | updateUser data =>
    simp only [UserState.step] at hs
    split at hs
    · cases hs
      exact ⟨h, hstays⟩
    · cases hs
      exact ⟨h.add fun _ _ => rfl, hstays⟩
  | disableUser targetId =>
    cases hs
    refine ⟨h.add fun _ _ => ?_, hstays⟩
    simp [UserOperation.threatens, AfterDisable.threatens]
  | deleteUser userId =>
    simp only [UserState.step] at hs
    split at hs
    · cases hs
      exact ⟨h, hstays⟩
    · cases hs
      refine ⟨h.add fun _ _ => ?_, hstays⟩
      simp [UserOperation.threatens, AfterDisable.threatens]
  | deleteUsersByProxy _ | restoreDatabase _ =>
    cases hs
    exact ⟨h.add fun _ _ => rfl, hstays⟩
  | continues i =>
    simp only [UserState.step] at hs
    split at hs
    · cases hs
    · next operation hop =>
      cases hs
      exact h.continueOperation hop hprotects
  | throws i =>
    simp only [UserState.step] at hs
    split at hs
    · cases hs
    · next operation hop =>
      cases hs
      exact ⟨h.next hop none (by simp), hstays⟩
  | otherTables proxies servers =>
    cases hs
    exact ⟨⟨h.owner, h.operations⟩, hstays⟩

/-! ## Runs -/

/-- In every run from an empty table whose steps protect the owner there is at most one owner, who
    is enabled, and no step takes an owner away. -/
theorem owner_stays (env : UserEnv) (proxies servers : Nat)
    (trs : List (Transition UserState UserAction)) (s : UserState)
    (hrun : IsRun (step env) (init proxies servers) trs s)
    (hprotects : ∀ tr ∈ trs, tr.pre.protects tr.act = true) :
    OwnerOk s.users ∧ ∀ tr ∈ trs, OwnerStays tr.pre.users tr.post.users := by
  have hok : s.Guarded ∧ ∀ tr ∈ trs, OwnerStays tr.pre.users tr.post.users := by
    refine IsRun.history_of (G := fun tr => tr.pre.protects tr.act = true)
      (P := fun trs s => s.Guarded ∧ ∀ tr ∈ trs, OwnerStays tr.pre.users tr.post.users) ?_ ?_ hrun
      hprotects
    · refine ⟨⟨⟨?_, ?_⟩, ?_⟩, by simp⟩ <;> simp [init]
    · rintro trs s a s' _ ⟨hok, hstays⟩ hs hprotects
      obtain ⟨hok', hstays'⟩ := hok.step hs hprotects
      refine ⟨hok', ?_⟩
      intro tr htr
      rcases List.mem_append.mp htr with htr | htr
      · exact hstays tr htr
      · obtain rfl := List.mem_singleton.mp htr
        exact hstays'
  exact ⟨hok.1.owner, hok.2⟩

def exampleUserEnv : UserEnv :=
  { decryptedUserId := fun _ _ => some "ab06"
    isJson := fun _ => true }

def createData (userId : String) (role : UserRole) : CreateUserData :=
  { userId, status := none, role := some role.toInt, permissions := none, expiresAt := none
    name := none, encryptedToken := "encrypted", proxyId := none, notes := none }

def suspendData (userId : String) : UpdateUserData :=
  { userId, name := none, notes := none, permissions := none
    status := some UserStatus.suspended.toInt, encryptedToken := none }

/-- An owner and a user are created, the owner is to be suspended, the user is deleted. -/
def ownerActions : List UserAction :=
  [.createUser (createData "ab05" .owner) none, .continues 0, .continues 0,
    .createUser (createData "ab06" .user) (some "token-5"), .continues 1, .continues 1,
    .updateUser (suspendData "ab05"), .continues 2, .deleteUser "ab06", .continues 3,
    .continues 3, .continues 3, .continues 3, .deleteUsersByProxy 0, .continues 4]

theorem owner_stays_ownerActions :
    ∃ s, exec (step exampleUserEnv) (init 0 0) ownerActions = some s ∧
      s.users.entries.map Prod.fst = ["ab05"] ∧ OwnerOk s.users := by
  refine ⟨(exec (step exampleUserEnv) (init 0 0) ownerActions).get (by decide), by simp,
    by decide, ?_⟩
  refine (owner_stays exampleUserEnv 0 0 (trace (step exampleUserEnv) (init 0 0) ownerActions) _
    ?_ ?_).1
  · exact isRun_trace _ _ _ (by simp)
  · decide

/-- The users of a proxy are looked up before the first owner is created, and deleted after. -/
def bootstrapActions : List UserAction :=
  [.deleteUsersByProxy 0, .continues 0, .createUser (createData "ab05" .owner) none,
    .continues 1, .continues 1, .continues 0]

/-- The owner can be deleted. -/
theorem owner_is_deleted :
    ¬ ∀ (env : UserEnv) (proxies servers : Nat) (trs : List (Transition UserState UserAction))
      (s : UserState), IsRun (step env) (init proxies servers) trs s →
      OwnerOk s.users ∧ ∀ tr ∈ trs, OwnerStays tr.pre.users tr.post.users := by
  intro h
  have hrun : IsRun (step exampleUserEnv) (init 0 0)
      (trace (step exampleUserEnv) (init 0 0) bootstrapActions)
      ((exec (step exampleUserEnv) (init 0 0) bootstrapActions).get (by decide)) :=
    isRun_trace _ _ _ (by simp)
  have hdeleted : ((trace (step exampleUserEnv) (init 0 0) bootstrapActions).any fun tr =>
      (tr.pre.users.get? "ab05").any (·.isOwner) && (tr.post.users.get? "ab05").isNone) =
      true := by
    decide
  obtain ⟨tr, htr, hbad⟩ := List.any_eq_true.mp hdeleted
  simp only [Bool.and_eq_true, Option.any_eq_true, Option.isNone_iff_eq_none] at hbad
  obtain ⟨⟨user, huser, howner⟩, hgone⟩ := hbad
  obtain ⟨user', huser', _⟩ :=
    (h exampleUserEnv 0 0 _ _ hrun).2 tr htr "ab05" user huser howner
  simp [hgone] at huser'

end UserState

end PetaCore
