import PetaCore.Core.SessionStore
import PetaCore.ForStd.Run

/-!
# The tables of the session store

`Agree` says that the five maps of the store have the same sessions. It does not hold at every
moment, as creations and removals change the maps in stages. `Ok` is what holds at every moment
of a run that keeps to `Orderly`: a session that is in some of the maps only is one that an
operation in progress will add or remove.

Key results:
- `Ok.step`: every step keeps `Ok`
- `tables_agree`: when no operation is in progress the maps agree
- `tables_disagree`: they need not when the run does not keep to `Orderly`
-/

namespace PetaCore

namespace SessionStore

/-- The session id is in the user's set. -/
def Listed (store : SessionStore) (userId sessionId : String) : Prop :=
  ∃ sessionIds, store.userSessions.get? userId = some sessionIds ∧
    sessionIds.get? sessionId = some ()

/-- No set of session ids is empty. -/
def NoEmptySet (store : SessionStore) : Prop :=
  ∀ userId sessionIds, store.userSessions.get? userId = some sessionIds → sessionIds.entries ≠ []

/-- The five maps have the same sessions, each in the set of its own user. -/
structure Agree (store : SessionStore) : Prop where
  proxySessions : ∀ id,
    (store.proxySessions.get? id).isSome = (store.sessions.get? id).isSome
  eventStores : ∀ id, (store.eventStores.get? id).isSome = (store.sessions.get? id).isSome
  sessionLoggers : ∀ id,
    (store.sessionLoggers.get? id).isSome = (store.sessions.get? id).isSome
  userSessions : ∀ userId id, store.Listed userId id ↔
    ∃ session, store.sessions.get? id = some session ∧ session.userId = userId
  nonempty : store.NoEmptySet

variable {store : SessionStore}

/-- When the maps agree, `getUserSessions` finds exactly the user's live sessions. -/
theorem Agree.mem_getUserSessions (h : store.Agree) (userId : String) (session : StoredSession) :
    session ∈ store.getUserSessions userId ↔
      ∃ id, store.sessions.get? id = some session ∧ session.userId = userId := by
  constructor
  · intro hmem
    simp only [getUserSessions] at hmem
    split at hmem
    · cases hmem
    · next sessionIds hset =>
      simp only [List.mem_filterMap, List.mem_map, Prod.exists, exists_and_right,
        exists_eq_right] at hmem
      obtain ⟨id, ⟨_, hentry⟩, hsession⟩ := hmem
      have hlisted : store.Listed userId id :=
        ⟨sessionIds, hset, (sessionIds.mem_entries id ()).mp hentry⟩
      obtain ⟨session', hsession', huser⟩ := (h.userSessions userId id).mp hlisted
      obtain rfl := Option.some.inj (hsession'.symm.trans hsession)
      exact ⟨id, hsession, huser⟩
  · rintro ⟨id, hsession, huser⟩
    obtain ⟨sessionIds, hset, hid⟩ := (h.userSessions userId id).mpr ⟨session, hsession, huser⟩
    simp only [getUserSessions, hset, List.mem_filterMap, List.mem_map, Prod.exists,
      exists_and_right, exists_eq_right]
    exact ⟨id, ⟨(), (sessionIds.mem_entries id ()).mpr hid⟩, hsession⟩

theorem beginSession_eq_some {store' : SessionStore} {sessionId : String}
    (h : store.beginSession sessionId = some store') :
    store.sessions.get? sessionId = none ∧
      store' = { store with
        eventStores := store.eventStores.set sessionId ()
        sessionLoggers := store.sessionLoggers.set sessionId () } := by
  simp only [beginSession] at h
  split at h
  · cases h
  · next hnone => exact ⟨by simpa using hnone, (Option.some.inj h).symm⟩

/-! ## What the steps do to the sets of session ids -/

theorem listed_congr {store' : SessionStore} (h : store'.userSessions = store.userSessions)
    (userId id : String) : store'.Listed userId id ↔ store.Listed userId id := by
  simp only [Listed, h]

theorem listed_completeSession (store : SessionStore) (sessionId : String)
    (session : StoredSession) (userId id : String) :
    (store.completeSession sessionId session).Listed userId id ↔
      (userId = session.userId ∧ id = sessionId) ∨ store.Listed userId id := by
  simp only [Listed, completeSession, Dict.get?_set]
  by_cases huser : userId = session.userId
  · subst huser
    simp only [if_true, Option.some.injEq, exists_eq_left', Dict.get?_set, true_and]
    by_cases hid : id = sessionId
    · simp [hid]
    · cases store.userSessions.get? session.userId with
      | none | some _ => simp [hid]
  · simp [huser]

theorem listed_deleteSession (store : SessionStore) (sessionId : String)
    (session : StoredSession) (userId id : String) :
    (store.deleteSession sessionId session).Listed userId id ↔
      store.Listed userId id ∧ ¬ (userId = session.userId ∧ id = sessionId) := by
  simp only [Listed, deleteSession]
  cases hset : store.userSessions.get? session.userId with
  | none =>
    by_cases huser : userId = session.userId
    · simp [huser, hset]
    · simp [huser]
  | some sessionIds =>
    dsimp only
    by_cases huser : userId = session.userId
    · subst huser
      have herase : (sessionIds.erase sessionId).get? id = some () ↔
          sessionIds.get? id = some () ∧ id ≠ sessionId := by
        rw [Dict.get?_erase]
        by_cases hid : id = sessionId <;> simp [hid]
      split
      · next hempty =>
        -- the last id of the set is gone
        have hnone : (sessionIds.erase sessionId).get? id = none := by
          simp [Dict.get?, hempty]
        simp only [Dict.get?_erase, if_true, hset, Option.some.injEq, exists_eq_left', true_and]
        rw [hnone] at herase
        simpa using herase
      · simp only [Dict.get?_set_self, hset, Option.some.injEq, exists_eq_left', true_and]
        exact herase
    · split
      · simp [Dict.get?_erase, huser]
      · simp [Dict.get?_set, huser]

theorem listed_deleteUserSessions (store : SessionStore) (userId userId' id : String) :
    (store.deleteUserSessions userId).Listed userId' id ↔
      userId' ≠ userId ∧ store.Listed userId' id := by
  simp only [Listed, deleteUserSessions, Dict.get?_erase]
  by_cases huser : userId' = userId <;> simp [huser]

theorem NoEmptySet.completeSession (h : store.NoEmptySet)
    (sessionId : String) (session : StoredSession) :
    (store.completeSession sessionId session).NoEmptySet := by
  intro userId sessionIds hset hempty
  simp only [SessionStore.completeSession, Dict.get?_set] at hset
  split at hset
  · cases hset
    have hself := Dict.get?_set_self ((store.userSessions.get? session.userId).getD .empty)
      sessionId ()
    rw [Dict.get?, hempty] at hself
    cases hself
  · exact h userId sessionIds hset hempty

theorem NoEmptySet.deleteSession (h : store.NoEmptySet)
    (sessionId : String) (session : StoredSession) :
    (store.deleteSession sessionId session).NoEmptySet := by
  intro userId sessionIds hset
  simp only [SessionStore.deleteSession] at hset
  split at hset
  · exact h userId sessionIds hset
  · split at hset
    · rw [Dict.get?_erase] at hset
      split at hset
      · cases hset
      · exact h userId sessionIds hset
    · next hne =>
      rw [Dict.get?_set] at hset
      split at hset
      · cases hset
        exact hne
      · exact h userId sessionIds hset

theorem NoEmptySet.deleteUserSessions (h : store.NoEmptySet)
    (userId : String) : (store.deleteUserSessions userId).NoEmptySet := by
  intro userId' sessionIds hset
  simp only [SessionStore.deleteUserSessions, Dict.get?_erase] at hset
  split at hset
  · cases hset
  · exact h userId' sessionIds hset

/-- What `consumeTerminatedSession` does: it accepts the owner of the tombstone, which it deletes;
    other tombstones are lost only when they have expired. -/
theorem consume_cases (fingerprintToken : String → String) (store : SessionStore)
    (now : Timestamp) (requested : Option String) (authContext : AuthContext) (token : String) :
    ∃ terminatedSessions,
      (store.consumeTerminatedSession fingerprintToken now requested authContext token).2 =
        { store with terminatedSessions } ∧
      (∀ id tombstone, terminatedSessions.get? id = some tombstone →
        store.terminatedSessions.get? id = some tombstone) ∧
      ((store.consumeTerminatedSession fingerprintToken now requested authContext token).1 = true →
        ∃ id tombstone, requested = some id ∧
          store.terminatedSessions.get? id = some tombstone ∧
          terminatedSessions.get? id = none ∧ tombstone.userId = authContext.userId) := by
  have hprune : ∀ id tombstone,
      (store.pruneTerminatedSessions now).terminatedSessions.get? id = some tombstone →
      store.terminatedSessions.get? id = some tombstone := by
    intro id tombstone htomb
    simp only [pruneTerminatedSessions, Dict.get?_filter,
      Option.filter_eq_some_iff] at htomb
    exact htomb.1
  have herase : ∀ sessionId id tombstone,
      ((store.pruneTerminatedSessions now).terminatedSessions.erase sessionId).get? id =
        some tombstone → store.terminatedSessions.get? id = some tombstone := by
    intro sessionId id tombstone htomb
    rw [Dict.get?_erase] at htomb
    split at htomb
    · cases htomb
    · exact hprune id tombstone htomb
  simp only [consumeTerminatedSession]
  cases requested with
  | none => exact ⟨store.terminatedSessions, rfl, fun _ _ h => h, fun h => by cases h⟩
  | some sessionId =>
    dsimp only
    split
    · exact ⟨store.terminatedSessions, rfl, fun _ _ h => h, fun h => by cases h⟩
    · split
      · exact ⟨_, rfl, hprune, fun h => by cases h⟩
      · next tombstone htomb =>
        split
        · exact ⟨_, rfl, herase sessionId, fun h => by cases h⟩
        · split
          · next hmatches =>
            refine ⟨_, rfl, herase sessionId, fun _ => ?_⟩
            refine ⟨sessionId, tombstone, rfl, hprune sessionId tombstone htomb, ?_, hmatches.1⟩
            rw [Dict.get?_erase, if_pos rfl]
          · exact ⟨_, rfl, hprune, fun h => by cases h⟩

end SessionStore

/-! ## What holds while operations are in progress -/

/-- A removal in progress that has not yet deleted everything it will delete of the session. -/
def StoreOperation.removes (operation : StoreOperation) (sessionId : String) : Bool :=
  match operation with
  | .removeSingleSession id _ => id == sessionId
  | .removeAllUserSessions _ closePromises => (closePromises.get? sessionId).isSome
  | _ => false

/-- The operation removes all sessions of the user and has not yet deleted the user's set. -/
def StoreOperation.removesUser (operation : StoreOperation) (userId : String) : Bool :=
  match operation with
  | .removeAllUserSessions userId' _ => userId' == userId
  | _ => false

/-- The operation has deleted the session and not yet its event store. -/
def StoreOperation.closes (operation : StoreOperation) (sessionId : String) : Bool :=
  match operation with
  | .removeAllUserSessions _ closePromises => closePromises.get? sessionId == some .closing
  | _ => false

/-- The operation works on the maps of the store. -/
def StoreOperation.onMaps : StoreOperation → Bool
  | .createSession _ _ | .removeSingleSession _ _ | .removeAllUserSessions _ _ => true
  | .removed | .cleanupExpiredSessions _ _ _ => false

variable {operation : StoreOperation}

theorem StoreOperation.onMaps_of_closes {sessionId : String}
    (h : operation.closes sessionId = true) : operation.onMaps = true := by
  cases operation <;> first | rfl | cases h

theorem StoreOperation.onMaps_of_removesUser {userId : String}
    (h : operation.removesUser userId = true) : operation.onMaps = true := by
  cases operation <;> first | rfl | cases h

namespace SessionState

variable {fingerprintToken : String → String}

/-- No removal of the session is in progress. -/
def NotRemoved (s : SessionState) (sessionId : String) : Prop :=
  ∀ i operation, s.operations.get? i = some operation → operation.removes sessionId = false

/-- What holds of an operation in progress. -/
def OperationOk (s : SessionState) : StoreOperation → Prop
  | .createSession id session =>
    s.store.sessions.get? id = none ∧ s.store.eventStores.get? id = some () ∧
      s.store.terminatedSessions.get? id = none ∧ s.NotRemoved id ∧
      s.owners.get? id = some session.userId
  | .removeSingleSession id session => s.owners.get? id = some session.userId
  | .removeAllUserSessions userId closePromises =>
    ∀ id phase, closePromises.get? id = some phase →
      s.owners.get? id = some userId ∧ (phase = .closing → s.store.sessions.get? id = none)
  | .removed | .cleanupExpiredSessions _ _ _ => True

/-- A session that is not in `sessions` but in another map is the work of an operation. -/
structure Ok (s : SessionState) : Prop where
  operations : ∀ i operation, s.operations.get? i = some operation → s.OperationOk operation
  createdOnce : ∀ i j id session session',
    s.operations.get? i = some (.createSession id session) →
    s.operations.get? j = some (.createSession id session') → i = j
  proxySessions : ∀ id,
    (s.store.proxySessions.get? id).isSome = (s.store.sessions.get? id).isSome
  sessionLoggers : s.store.sessionLoggers = s.store.eventStores
  stored : ∀ id session, s.store.sessions.get? id = some session →
    s.store.eventStores.get? id = some () ∧ s.store.Listed session.userId id ∧
      s.owners.get? id = some session.userId
  eventStores : ∀ id, s.store.eventStores.get? id = some () →
    (s.store.sessions.get? id).isSome ∨
    (∃ i session, s.operations.get? i = some (.createSession id session)) ∨
    (∃ i operation, s.operations.get? i = some operation ∧ operation.closes id = true)
  tombstones : ∀ id tombstone, s.store.terminatedSessions.get? id = some tombstone →
    s.owners.get? id = some tombstone.userId
  listed : ∀ userId id, s.store.Listed userId id → s.owners.get? id = some userId ∧
    ((s.store.sessions.get? id).isSome ∨
      ∃ i operation, s.operations.get? i = some operation ∧ operation.removesUser userId = true)
  nonempty : s.store.NoEmptySet

variable {s : SessionState}

/-- With no operation in progress every event store belongs to a session. -/
theorem Ok.isSome_eventStores (h : s.Ok) (hidle : s.Idle) (id : String) :
    (s.store.eventStores.get? id).isSome = (s.store.sessions.get? id).isSome := by
  cases hsession : s.store.sessions.get? id with
  | some session => simp [(h.stored id session hsession).1]
  | none =>
    cases hstore : s.store.eventStores.get? id with
    | none => rfl
    | some _ =>
      rcases h.eventStores id hstore with hlive | ⟨i, session, hop⟩ | ⟨i, _, hop, _⟩
      · simp [hsession] at hlive
      all_goals simp [hidle i] at hop

/-- With no operation in progress the maps agree. -/
theorem Ok.agree (h : s.Ok) (hidle : s.Idle) : s.store.Agree where
  proxySessions := h.proxySessions
  eventStores := h.isSome_eventStores hidle
  sessionLoggers := by
    intro id
    rw [h.sessionLoggers]
    exact h.isSome_eventStores hidle id
  userSessions := by
    intro userId id
    constructor
    · intro hlisted
      obtain ⟨howner, hlive | ⟨i, _, hop, _⟩⟩ := h.listed userId id hlisted
      · obtain ⟨session, hsession⟩ := Option.isSome_iff_exists.mp hlive
        have huser := (h.stored id session hsession).2.2
        exact ⟨session, hsession, Option.some.inj (huser.symm.trans howner)⟩
      · simp [hidle i] at hop
    · rintro ⟨session, hsession, rfl⟩
      exact (h.stored id session hsession).2.1
  nonempty := h.nonempty

theorem ok_init (now : Timestamp) : (init now).Ok := by
  constructor
  all_goals simp [init, SessionStore.empty, SessionStore.Listed, SessionStore.NoEmptySet]

/-! ## Steps that begin or end operations -/

/-- What holds of a removal that begins. -/
def Begins (s : SessionState) : StoreOperation → Prop
  | .createSession _ _ => False
  | .removeSingleSession id session => s.store.sessions.get? id = some session
  | .removeAllUserSessions userId closePromises =>
    ∀ id phase, closePromises.get? id = some phase →
      (s.store.sessions.get? id).isSome ∧ s.store.Listed userId id ∧ phase = .cleaning
  | .removed | .cleanupExpiredSessions _ _ _ => True

/-- Steps that change nothing but tombstones and `closeTriggered`, and begin removals or end
    operations whose work on the maps is done. -/
structure Starts (s s' : SessionState) : Prop where
  now : s.now ≤ s'.now
  next : s.operations.next ≤ s'.operations.next
  sessions : s'.store.sessions = s.store.sessions
  proxySessions : ∀ id,
    (s'.store.proxySessions.get? id).isSome = (s.store.proxySessions.get? id).isSome
  userSessions : s'.store.userSessions = s.store.userSessions
  eventStores : s'.store.eventStores = s.store.eventStores
  sessionLoggers : s'.store.sessionLoggers = s.store.sessionLoggers
  owners : s'.owners = s.owners
  tombstones : ∀ id tombstone, s'.store.terminatedSessions.get? id = some tombstone →
    s.store.terminatedSessions.get? id = some tombstone ∨
    ∃ session, s.store.sessions.get? id = some session ∧ tombstone.userId = session.userId
  kept : ∀ i operation, s.operations.get? i = some operation → operation.onMaps = true →
    s'.operations.get? i = some operation
  begun : ∀ i operation, s'.operations.get? i = some operation →
    s.operations.get? i = some operation ∨ s.Begins operation

theorem Starts.refl (s : SessionState) : s.Starts s where
  now := Int.le_refl s.now
  next := Nat.le_refl _
  sessions := rfl
  proxySessions := fun _ => rfl
  userSessions := rfl
  eventStores := rfl
  sessionLoggers := rfl
  owners := rfl
  tombstones := fun _ _ h => .inl h
  kept := fun _ _ h _ => h
  begun := fun _ _ h => .inl h

variable {s' : SessionState}

theorem Starts.begins_iff (h : s.Starts s') (operation : StoreOperation) :
    s'.Begins operation ↔ s.Begins operation := by
  cases operation <;>
    simp [Begins, h.sessions, SessionStore.listed_congr h.userSessions]

theorem Starts.trans {s'' : SessionState} (h : s.Starts s') (h' : s'.Starts s'') :
    s.Starts s'' where
  now := Int.le_trans h.now h'.now
  next := Nat.le_trans h.next h'.next
  sessions := h'.sessions.trans h.sessions
  proxySessions := fun id => (h'.proxySessions id).trans (h.proxySessions id)
  userSessions := h'.userSessions.trans h.userSessions
  eventStores := h'.eventStores.trans h.eventStores
  sessionLoggers := h'.sessionLoggers.trans h.sessionLoggers
  owners := h'.owners.trans h.owners
  tombstones := by
    intro id tombstone htomb
    rcases h'.tombstones id tombstone htomb with htomb | hlive
    · exact h.tombstones id tombstone htomb
    · rw [h.sessions] at hlive
      exact .inr hlive
  kept := fun i operation hop hmaps => h'.kept i operation (h.kept i operation hop hmaps) hmaps
  begun := by
    intro i operation hop
    rcases h'.begun i operation hop with hop | hbegins
    · exact h.begun i operation hop
    · exact .inr ((h.begins_iff operation).mp hbegins)

/-- Steps that begin or end operations keep `Ok`. -/
theorem Ok.starts (h : s.Ok) (hs : s.Starts s') : s'.Ok where
  operations := by
    intro i operation hop
    rcases hs.begun i operation hop with hold | hbegins
    · have hok := h.operations i operation hold
      cases operation with
      | createSession id session =>
        obtain ⟨hnone, hevent, htomb, hremoved, howner⟩ := hok
        refine ⟨by rw [hs.sessions, hnone], by rw [hs.eventStores, hevent], ?_, ?_,
          by rw [hs.owners, howner]⟩
        · cases htomb' : s'.store.terminatedSessions.get? id with
          | none => rfl
          | some tombstone =>
            rcases hs.tombstones id tombstone htomb' with hbefore | ⟨_, hlive, _⟩
            · simp [htomb] at hbefore
            · simp [hnone] at hlive
        · intro j removal hj
          rcases hs.begun j removal hj with hbefore | hbegins
          · exact hremoved j removal hbefore
          -- a removal begins with a session that is there
          · cases removal with
            | removeSingleSession id' session' =>
              by_cases hid : id' = id
              · subst hid
                simp [Begins, hnone] at hbegins
              · simpa [StoreOperation.removes] using hid
            | removeAllUserSessions userId closePromises =>
              cases hphase : closePromises.get? id with
              | none => simp [StoreOperation.removes, hphase]
              | some phase =>
                have hlive := (hbegins id phase hphase).1
                simp [hnone] at hlive
            | createSession _ _ | removed | cleanupExpiredSessions _ _ _ => rfl
      | removeSingleSession id session =>
        simp only [OperationOk, hs.owners]
        exact hok
      | removeAllUserSessions userId closePromises =>
        simp only [OperationOk, hs.owners, hs.sessions]
        exact hok
      | removed | cleanupExpiredSessions _ _ _ => trivial
    · cases operation with
      | createSession _ _ => cases hbegins
      | removeSingleSession id session =>
        simp only [OperationOk, hs.owners]
        exact (h.stored id session hbegins).2.2
      | removeAllUserSessions userId closePromises =>
        intro id phase hphase
        obtain ⟨_, hlisted, rfl⟩ := hbegins id phase hphase
        refine ⟨?_, fun hclosing => by cases hclosing⟩
        rw [hs.owners]
        exact (h.listed userId id hlisted).1
      | removed | cleanupExpiredSessions _ _ _ => trivial
  createdOnce := by
    intro i j id session session' hi hj
    rcases hs.begun i _ hi with hi | hi
    · rcases hs.begun j _ hj with hj | hj
      · exact h.createdOnce i j id session session' hi hj
      · cases hj
    · cases hi
  proxySessions := by
    intro id
    rw [hs.proxySessions, hs.sessions]
    exact h.proxySessions id
  sessionLoggers := by rw [hs.sessionLoggers, hs.eventStores, h.sessionLoggers]
  stored := by
    intro id session hsession
    rw [hs.sessions] at hsession
    rw [hs.eventStores, hs.owners, SessionStore.listed_congr hs.userSessions]
    exact h.stored id session hsession
  eventStores := by
    intro id hevent
    rw [hs.eventStores] at hevent
    rw [hs.sessions]
    rcases h.eventStores id hevent with hlive | ⟨i, session, hop⟩ | ⟨i, operation, hop, hcloses⟩
    · exact .inl hlive
    · exact .inr (.inl ⟨i, session, hs.kept i _ hop rfl⟩)
    · have hmaps := StoreOperation.onMaps_of_closes hcloses
      exact .inr (.inr ⟨i, operation, hs.kept i _ hop hmaps, hcloses⟩)
  tombstones := by
    intro id tombstone htomb
    rw [hs.owners]
    rcases hs.tombstones id tombstone htomb with hbefore | ⟨session, hsession, huser⟩
    · exact h.tombstones id tombstone hbefore
    · rw [huser]
      exact (h.stored id session hsession).2.2
  listed := by
    intro userId id hlisted
    rw [SessionStore.listed_congr hs.userSessions] at hlisted
    rw [hs.owners, hs.sessions]
    obtain ⟨howner, hlive | ⟨i, operation, hop, huser⟩⟩ := h.listed userId id hlisted
    · exact ⟨howner, .inl hlive⟩
    · have hmaps := StoreOperation.onMaps_of_removesUser huser
      exact ⟨howner, .inr ⟨i, operation, hs.kept i _ hop hmaps, huser⟩⟩
  nonempty := by
    intro userId sessionIds hset
    rw [hs.userSessions] at hset
    exact h.nonempty userId sessionIds hset

variable {operation : StoreOperation}

/-- The operation that a step adds is one that begins. -/
theorem Starts.add (h : s.Starts s') (hbegins : s'.Begins operation) :
    s.Starts { s' with operations := s'.operations.add operation } := by
  refine h.trans { Starts.refl s' with next := by simp, kept := ?_, begun := ?_ }
  · intro i old hold _
    rw [Table.get?_add_of_some hold]
  · intro i op hop
    rw [Table.get?_add] at hop
    split at hop
    · cases hop
      exact .inr hbegins
    · exact .inl hop

variable {i : Nat}

/-- An operation that has no work left on the maps is replaced by another such one. -/
theorem Starts.put (h : s.Starts s') {old : StoreOperation} (hold : s'.operations.get? i = some old)
    (hmaps : old.onMaps = false) (hbegins : s'.Begins operation) :
    s.Starts { s' with operations := s'.operations.put i operation } := by
  refine h.trans { Starts.refl s' with next := by simp, kept := ?_, begun := ?_ }
  · intro j op hop hj
    rw [Table.get?_put hold]
    split
    · next heq =>
      subst heq
      obtain rfl := Option.some.inj (hold.symm.trans hop)
      simp [hmaps] at hj
    · exact hop
  · intro j op hop
    rw [Table.get?_put hold] at hop
    split at hop
    · cases hop
      exact .inr hbegins
    · exact .inl hop

theorem Starts.erase (h : s.Starts s') {old : StoreOperation}
    (hold : s'.operations.get? i = some old) (hmaps : old.onMaps = false) :
    s.Starts { s' with operations := s'.operations.erase i } := by
  refine h.trans { Starts.refl s' with next := by simp, kept := ?_, begun := ?_ }
  · intro j op hop hj
    rw [Table.get?_erase]
    split
    · next heq =>
      subst heq
      obtain rfl := Option.some.inj (hold.symm.trans hop)
      simp [hmaps] at hj
    · exact hop
  · intro j op hop
    exact .inl (Table.get?_of_get?_erase hop).2

theorem starts_cleanup (s : SessionState) (sessionId : String) :
    s.Starts { s with store := s.store.cleanup sessionId } := by
  simp only [SessionStore.cleanup]
  split
  · exact Starts.refl s
  · next closeTriggered hproxy =>
    refine { Starts.refl s with proxySessions := ?_ }
    intro id
    rw [Dict.get?_set]
    split
    · next heq => simp [heq, hproxy]
    · rfl

theorem starts_cleanupAll (s : SessionState) (sessionIds : List (String × Unit)) :
    s.Starts
      { s with store := sessionIds.foldl (fun store e => store.cleanup e.1) s.store } := by
  induction sessionIds generalizing s with
  | nil => exact Starts.refl s
  | cons e sessionIds ih =>
    exact (starts_cleanup s e.1).trans (ih { s with store := s.store.cleanup e.1 })

theorem starts_recordTerminatedSession (s : SessionState) {sessionId : String}
    {session : StoredSession} (hsession : s.store.sessions.get? sessionId = some session) :
    s.Starts { s with
      store := s.store.recordTerminatedSession fingerprintToken s.now sessionId session } := by
  refine { Starts.refl s with tombstones := ?_ }
  intro id tombstone htomb
  simp only [SessionStore.recordTerminatedSession, SessionStore.pruneTerminatedSessions,
    Dict.get?_set] at htomb
  split at htomb
  · next heq =>
    subst heq
    cases htomb
    exact .inr ⟨session, hsession, rfl⟩
  · rw [Dict.get?_filter, Option.filter_eq_some_iff] at htomb
    exact .inl htomb.1

theorem starts_removeSingleSession (s : SessionState) (sessionId : String)
    (preserveForReconnect : Bool) :
    s.Starts (s.removeSingleSession fingerprintToken sessionId preserveForReconnect) := by
  simp only [removeSingleSession]
  split
  · exact Starts.refl s
  · next session hsession =>
    cases preserveForReconnect with
    | false =>
      have hcleanup := starts_cleanup s sessionId
      refine hcleanup.add ?_
      rw [hcleanup.begins_iff]
      exact hsession
    | true =>
      have hrecord := @starts_recordTerminatedSession fingerprintToken s sessionId session hsession
      have hcleanup := hrecord.trans (starts_cleanup _ sessionId)
      refine hcleanup.add ?_
      rw [hcleanup.begins_iff]
      exact hsession

theorem starts_removeAllUserSessions (s : SessionState) (userId : String) :
    s.Starts (s.removeAllUserSessions userId) := by
  simp only [removeAllUserSessions]
  split
  · exact Starts.refl s
  · next userSessionIds hset =>
    split
    · exact Starts.refl s
    · have hcleanup := starts_cleanupAll s (userSessionIds.filterKeyed fun sessionId _ =>
        (s.store.sessions.get? sessionId).isSome).entries
      refine hcleanup.add ?_
      rw [hcleanup.begins_iff]
      intro id phase hphase
      rw [Dict.get?_map, Option.map_eq_some_iff] at hphase
      obtain ⟨_, hlisted, rfl⟩ := hphase
      rw [Dict.get?_filterKeyed_eq_some] at hlisted
      exact ⟨hlisted.2, ⟨userSessionIds, hset, hlisted.1⟩, rfl⟩

theorem starts_removeSession (s : SessionState) (sessionId : String) (isUserDisconnect : Bool) :
    s.Starts (s.removeSession fingerprintToken sessionId isUserDisconnect) := by
  simp only [removeSession]
  split
  · exact Starts.refl s
  · split
    · exact starts_removeAllUserSessions s _
    · exact starts_removeSingleSession s sessionId false

/-- The loops of a cleanup begin a removal at most; they do not touch other operations. -/
theorem starts_cleanupFrom (s : SessionState) (expired inactive : List String) :
    s.Starts (s.cleanupFrom fingerprintToken expired inactive).1 ∧
    ∀ next, (s.cleanupFrom fingerprintToken expired inactive).2 = some next →
      ∀ s' : SessionState, s'.Begins next := by
  cases expired with
  | cons sessionId expired =>
    refine ⟨starts_removeSession s sessionId true, ?_⟩
    intro next hnext s'
    cases hnext
    trivial
  | nil =>
    cases inactive with
    | cons sessionId inactive =>
      refine ⟨starts_removeSession s sessionId false, ?_⟩
      intro next hnext s'
      cases hnext
      trivial
    | nil =>
      refine ⟨Starts.refl s, ?_⟩
      intro next hnext
      cases hnext

theorem starts_cleanupExpiredSessions (s : SessionState)
    (isExpired isInactive : StoredSession → Bool) :
    s.Starts (s.cleanupExpiredSessions fingerprintToken isExpired isInactive) := by
  simp only [cleanupExpiredSessions]
  obtain ⟨hstarts, hnext⟩ := @starts_cleanupFrom fingerprintToken s
    ((s.store.sessions.entries.filter fun e => isExpired e.2).map Prod.fst)
    ((s.store.sessions.entries.filter fun e => !isExpired e.2 && isInactive e.2).map Prod.fst)
  split
  · exact hstarts
  · next next heq => exact hstarts.add (hnext next heq _)

theorem operations_removeSingleSession (s : SessionState) (sessionId : String)
    (preserveForReconnect : Bool) :
    (s.removeSingleSession fingerprintToken sessionId preserveForReconnect).operations =
        s.operations ∨
      ∃ operation, (s.removeSingleSession fingerprintToken sessionId
        preserveForReconnect).operations = s.operations.add operation := by
  simp only [removeSingleSession]
  split
  · exact .inl rfl
  · exact .inr ⟨_, rfl⟩

theorem operations_removeAllUserSessions (s : SessionState) (userId : String) :
    (s.removeAllUserSessions userId).operations = s.operations ∨
      ∃ operation, (s.removeAllUserSessions userId).operations = s.operations.add operation := by
  simp only [removeAllUserSessions]
  split
  · exact .inl rfl
  · split
    · exact .inl rfl
    · exact .inr ⟨_, rfl⟩

theorem operations_removeSession (s : SessionState) (sessionId : String)
    (isUserDisconnect : Bool) :
    (s.removeSession fingerprintToken sessionId isUserDisconnect).operations = s.operations ∨
      ∃ operation, (s.removeSession fingerprintToken sessionId isUserDisconnect).operations =
        s.operations.add operation := by
  simp only [removeSession]
  split
  · exact .inl rfl
  · split
    · exact operations_removeAllUserSessions s _
    · exact operations_removeSingleSession s sessionId false

/-- A removal that begins is an operation of its own. -/
theorem get?_cleanupFrom {s : SessionState} {i : Nat} {operation : StoreOperation}
    (hop : s.operations.get? i = some operation) (expired inactive : List String) :
    (s.cleanupFrom fingerprintToken expired inactive).1.operations.get? i = some operation := by
  have hkept : ∀ sessionId isUserDisconnect,
      (s.removeSession fingerprintToken sessionId isUserDisconnect).operations.get? i =
        some operation := by
    intro sessionId isUserDisconnect
    rcases @operations_removeSession fingerprintToken s sessionId isUserDisconnect with
      hsame | ⟨added, hadd⟩
    · rw [hsame, hop]
    · rw [hadd, Table.get?_add_of_some hop]
  cases expired with
  | cons sessionId expired => exact hkept sessionId true
  | nil =>
    cases inactive with
    | cons sessionId inactive => exact hkept sessionId false
    | nil => exact hop

/-- The removal that begins next does not touch the operation that awaits it. -/
theorem starts_cleanupNext (hs : s.step fingerprintToken (.cleanupNext i) = some s') : s.Starts s' := by
  simp only [SessionState.step] at hs
  split at hs
  · next current expired inactive hop =>
    split at hs
    · cases hs
    · obtain ⟨hstarts, hnext⟩ := @starts_cleanupFrom fingerprintToken s expired inactive
      have hop' := @get?_cleanupFrom fingerprintToken s i _ hop expired inactive
      split at hs
      · cases hs
        exact hstarts.erase hop' rfl
      · next next heq =>
        cases hs
        exact hstarts.put hop' rfl (hnext next heq _)
  · cases hs

@[simp] theorem terminatedSessions_cleanup (store : SessionStore) (id : String) :
    (store.cleanup id).terminatedSessions = store.terminatedSessions := by
  simp only [SessionStore.cleanup]
  split <;> rfl

theorem terminatedSessions_cleanupAll (store : SessionStore) (ids : List (String × Unit)) :
    (ids.foldl (fun store e => store.cleanup e.1) store).terminatedSessions =
      store.terminatedSessions := by
  induction ids generalizing store with
  | nil => rfl
  | cons e ids ih => rw [List.foldl_cons, ih, terminatedSessions_cleanup]

theorem terminatedSessions_removeSingleSession (s : SessionState) (id : String) :
    (s.removeSingleSession fingerprintToken id false).store.terminatedSessions =
      s.store.terminatedSessions := by
  simp only [removeSingleSession]
  split
  · rfl
  · exact terminatedSessions_cleanup s.store id

theorem terminatedSessions_removeAllUserSessions (s : SessionState) (userId : String) :
    (s.removeAllUserSessions userId).store.terminatedSessions = s.store.terminatedSessions := by
  simp only [removeAllUserSessions]
  split
  · rfl
  · split
    · rfl
    · exact terminatedSessions_cleanupAll s.store _

theorem terminatedSessions_removeSession (s : SessionState) (id : String)
    (isUserDisconnect : Bool) :
    (s.removeSession fingerprintToken id isUserDisconnect).store.terminatedSessions =
      s.store.terminatedSessions := by
  simp only [removeSession]
  split
  · rfl
  · split
    · exact terminatedSessions_removeAllUserSessions s _
    · exact terminatedSessions_removeSingleSession s id

theorem terminatedSessions_cleanupFrom (s : SessionState) (expired inactive : List String) :
    (s.cleanupFrom fingerprintToken expired inactive).1.store.terminatedSessions =
      s.store.terminatedSessions := by
  cases expired with
  | cons id expired => exact terminatedSessions_removeSession s id true
  | nil =>
    cases inactive with
    | cons id inactive => exact terminatedSessions_removeSession s id false
    | nil => rfl

theorem terminatedSessions_cleanupExpiredSessions (s : SessionState)
    (isExpired isInactive : StoredSession → Bool) :
    (s.cleanupExpiredSessions fingerprintToken isExpired isInactive).store.terminatedSessions =
      s.store.terminatedSessions := by
  simp only [cleanupExpiredSessions]
  split
  all_goals exact terminatedSessions_cleanupFrom s _ _

theorem terminatedSessions_cleanupNext (hs : s.step fingerprintToken (.cleanupNext i) = some s') :
    s'.store.terminatedSessions = s.store.terminatedSessions := by
  simp only [SessionState.step] at hs
  split at hs
  · split at hs
    · cases hs
    · split at hs
      all_goals
        cases hs
        exact terminatedSessions_cleanupFrom s _ _
  · cases hs

variable {authContext : AuthContext} {requested : Option String}

/-- What a request that makes a session does: it loses tombstones, and unless its id is in use it
    begins to create a session, with an id that its user takes over or a new one. -/
theorem connect_spec {token generated : String}
    (hs : s.connect fingerprintToken requested authContext token generated = some s') :
    ∃ terminatedSessions,
      (∀ id tombstone, terminatedSessions.get? id = some tombstone →
        s.store.terminatedSessions.get? id = some tombstone) ∧
      (s' = { s with store := { s.store with terminatedSessions } } ∨ ∃ id store,
        SessionStore.beginSession { s.store with terminatedSessions } id = some store ∧
        s' = { s with
          store
          operations := s.operations.add (.createSession id
            { number := s.operations.next
              userId := authContext.userId
              token
              authKind := getAuthKind authContext })
          owners := s.owners.set id authContext.userId } ∧
        (id = generated ∧ generated ≠ "" ∧ s.owners.get? generated = none ∨
          requested = some id ∧ (s.store.consumeTerminatedSession fingerprintToken s.now requested
            authContext token).1 = true ∧ terminatedSessions.get? id = none ∧
          ∃ tombstone, s.store.terminatedSessions.get? id = some tombstone ∧
            tombstone.userId = authContext.userId)) := by
  obtain ⟨terminatedSessions, hstore, hkept, hconsumed⟩ :=
    SessionStore.consume_cases fingerprintToken s.store s.now requested authContext token
  refine ⟨terminatedSessions, hkept, ?_⟩
  simp only [SessionState.connect, hstore] at hs
  split at hs
  · cases hs
  next hgenerated =>
  split at hs
  · exact .inl (Option.some.inj hs).symm
  next store hbegin =>
  refine .inr ⟨_, store, hbegin, (Option.some.inj hs).symm, ?_⟩
  cases hb : (s.store.consumeTerminatedSession fingerprintToken s.now requested authContext
      token).1 with
  | true =>
    obtain ⟨id, tombstone, rfl, htomb, hgone, huser⟩ := hconsumed hb
    exact .inr ⟨rfl, rfl, hgone, tombstone, htomb, huser⟩
  | false => exact .inl (by simpa [hb] using hgenerated)

/-- A request that makes a session does not touch `sessions` and `userSessions`, and adds at most
    its own operation. -/
theorem connect_cases {token generated : String}
    (hs : s.connect fingerprintToken requested authContext token generated = some s') :
    s'.store.sessions = s.store.sessions ∧ s'.store.userSessions = s.store.userSessions ∧
      s'.now = s.now ∧
      (s'.operations = s.operations ∨ ∃ id, s'.operations = s.operations.add (.createSession id
        { number := s.operations.next
          userId := authContext.userId
          token
          authKind := getAuthKind authContext })) := by
  obtain ⟨_, _, rfl | ⟨_, _, hbegin, rfl, _⟩⟩ := connect_spec hs
  · exact ⟨rfl, rfl, rfl, .inl rfl⟩
  · obtain ⟨_, rfl⟩ := SessionStore.beginSession_eq_some hbegin
    exact ⟨rfl, rfl, rfl, .inr ⟨_, rfl⟩⟩

/-- What a step can do. -/
inductive Steps (fingerprintToken : String → String) (s : SessionState) :
    SessionAction → SessionState → Prop
  | starts {a : SessionAction} {s' : SessionState} (h : s.Starts s')
      (htombs : s'.store.terminatedSessions = s.store.terminatedSessions)
      (hclose : ∀ sessionId, a ≠ .transportClose sessionId true)
      (hconnect : ∀ requested authContext token generated,
        a ≠ .connect requested authContext token generated) :
      Steps fingerprintToken s a s'
  | transportClose {sessionId : String} :
      Steps fingerprintToken s (.transportClose sessionId true)
        (s.removeSingleSession fingerprintToken sessionId true)
  | connect {requested : Option String} {authContext : AuthContext} {token generated : String}
      {s' : SessionState}
      (h : s.connect fingerprintToken requested authContext token generated = some s') :
      Steps fingerprintToken s (.connect requested authContext token generated) s'
  | createCompletes {i : Nat} {sessionId : String} {session : StoredSession}
      (hop : s.operations.get? i = some (.createSession sessionId session)) :
      Steps fingerprintToken s (.createCompletes i)
        { s with
          store := s.store.completeSession sessionId session
          operations := s.operations.erase i }
  | createFails {i : Nat} {sessionId : String} {session : StoredSession}
      (hop : s.operations.get? i = some (.createSession sessionId session)) :
      Steps fingerprintToken s (.createFails i) { s with operations := s.operations.erase i }
  | cleanupEnds {i : Nat} {sessionId : String} {session : StoredSession}
      (hop : s.operations.get? i = some (.removeSingleSession sessionId session)) :
      Steps fingerprintToken s (.cleanupEnds i)
        { s with
          store := s.store.deleteSession sessionId session
          operations := s.operations.put i .removed }
  | userCleanupEnds {i : Nat} {sessionId userId : String} {closePromises : Dict RemovalPhase}
      (hop : s.operations.get? i = some (.removeAllUserSessions userId closePromises))
      (hphase : closePromises.get? sessionId = some .cleaning) :
      Steps fingerprintToken s (.userCleanupEnds i sessionId)
        { s with
          store := s.store.removeFromMapping sessionId
          operations := s.operations.put i
            (.removeAllUserSessions userId (closePromises.set sessionId .closing)) }
  | userCloseEnds {i : Nat} {sessionId userId : String} {closePromises : Dict RemovalPhase}
      (hop : s.operations.get? i = some (.removeAllUserSessions userId closePromises))
      (hphase : closePromises.get? sessionId = some .closing) :
      Steps fingerprintToken s (.userCloseEnds i sessionId)
        { s with
          store := s.store.removeStores sessionId
          operations := s.operations.put i
            (.removeAllUserSessions userId (closePromises.erase sessionId)) }
  | userSessionsClosed {i : Nat} {userId : String} {closePromises : Dict RemovalPhase}
      (hop : s.operations.get? i = some (.removeAllUserSessions userId closePromises))
      (hdone : closePromises.entries = []) :
      Steps fingerprintToken s (.userSessionsClosed i)
        { s with
          store := s.store.deleteUserSessions userId
          operations := s.operations.put i .removed }

theorem steps_of_step {a : SessionAction}
    (hs : s.step fingerprintToken a = some s') : Steps fingerprintToken s a s' := by
  cases a with
  | tick now =>
    simp only [SessionState.step] at hs
    split at hs
    · next hle =>
      cases hs
      exact .starts { Starts.refl s with now := hle } rfl (by simp) (by simp)
    · cases hs
  | connect requested authContext token generated => exact .connect hs
  | createCompletes i =>
    simp only [SessionState.step] at hs
    split at hs
    · next sessionId session hop =>
      cases hs
      exact .createCompletes hop
    · cases hs
  | createFails i =>
    simp only [SessionState.step] at hs
    split at hs
    · next sessionId session hop =>
      cases hs
      exact .createFails hop
    · cases hs
  | removeSession sessionId isUserDisconnect =>
    cases hs
    exact .starts (starts_removeSession s sessionId isUserDisconnect)
      (terminatedSessions_removeSession s sessionId isUserDisconnect) (by simp) (by simp)
  | terminateSession sessionId =>
    simp only [SessionState.step] at hs
    split at hs
    · cases hs
      exact .starts (Starts.refl s) rfl (by simp) (by simp)
    · cases hs
      exact .starts (starts_removeSingleSession s sessionId false)
        (terminatedSessions_removeSingleSession s sessionId) (by simp) (by simp)
  | removeAllUserSessions userId =>
    cases hs
    exact .starts (starts_removeAllUserSessions s userId)
      (terminatedSessions_removeAllUserSessions s userId) (by simp) (by simp)
  | cleanupExpiredSessions isExpired isInactive =>
    cases hs
    exact .starts (starts_cleanupExpiredSessions s isExpired isInactive)
      (terminatedSessions_cleanupExpiredSessions s isExpired isInactive) (by simp) (by simp)
  | cleanupNext i =>
    exact .starts (starts_cleanupNext hs) (terminatedSessions_cleanupNext hs) (by simp) (by simp)
  | transportClose sessionId preserveForReconnect =>
    simp only [SessionState.step] at hs
    split at hs
    · cases hs
      cases preserveForReconnect with
      | true => exact .transportClose
      | false =>
        exact .starts (starts_removeSingleSession s sessionId false)
          (terminatedSessions_removeSingleSession s sessionId) (by simp) (by simp)
    · cases hs
  | cleanupEnds i =>
    simp only [SessionState.step] at hs
    split at hs
    · next sessionId session hop =>
      cases hs
      exact .cleanupEnds hop
    · cases hs
  | userCleanupEnds i sessionId =>
    simp only [SessionState.step] at hs
    split at hs
    · next userId closePromises hop =>
      split at hs
      · next hphase =>
        cases hs
        exact .userCleanupEnds hop hphase
      · cases hs
    · cases hs
  | userCloseEnds i sessionId =>
    simp only [SessionState.step] at hs
    split at hs
    · next userId closePromises hop =>
      split at hs
      · next hphase =>
        cases hs
        exact .userCloseEnds hop hphase
      · cases hs
    · cases hs
  | userSessionsClosed i =>
    simp only [SessionState.step] at hs
    split at hs
    · next userId closePromises hop =>
      split at hs
      · next hdone =>
        cases hs
        exact .userSessionsClosed hop hdone
      · cases hs
    · cases hs
  | operationReturns i =>
    simp only [SessionState.step] at hs
    split at hs
    · next hop =>
      cases hs
      exact .starts ((Starts.refl s).erase hop rfl) rfl (by simp) (by simp)
    · cases hs

/-! ## The steps that change the maps -/

variable {sessionId : String} {session : StoredSession}

/-- A creation begins with an id that is new or has been given back by its user. -/
theorem Ok.beginSession (h : s.Ok) {store : SessionStore}
    (hbegin : s.store.beginSession sessionId = some store)
    (htomb : s.store.terminatedSessions.get? sessionId = none) (hremoved : s.NotRemoved sessionId)
    (hnew : ∀ i session', s.operations.get? i ≠ some (.createSession sessionId session'))
    (howner : ∀ userId, s.owners.get? sessionId = some userId → userId = session.userId) :
    Ok { s with
      store
      operations := s.operations.add (.createSession sessionId session)
      owners := s.owners.set sessionId session.userId } := by
  obtain ⟨hnone, rfl⟩ := SessionStore.beginSession_eq_some hbegin
  have howners : ∀ id userId, s.owners.get? id = some userId →
      (s.owners.set sessionId session.userId).get? id = some userId := by
    intro id userId hid
    rw [Dict.get?_set]
    split
    · next heq =>
      subst heq
      rw [howner userId hid]
    · exact hid
  have hkept : ∀ i operation, s.operations.get? i = some operation →
      (s.operations.add (.createSession sessionId session)).get? i = some operation := by
    intro i operation hop
    rw [Table.get?_add_of_some hop]
  have hnotRemoved : ∀ id, s.NotRemoved id → ∀ i operation,
      (s.operations.add (.createSession sessionId session)).get? i = some operation →
      operation.removes id = false := by
    intro id hid i operation hop
    rw [Table.get?_add] at hop
    split at hop
    · cases hop
      rfl
    · exact hid i operation hop
  constructor
  case operations =>
    intro i operation hop
    rw [Table.get?_add] at hop
    split at hop
    · cases hop
      exact ⟨hnone, by simp, htomb, hnotRemoved sessionId hremoved, by simp⟩
    · have hok := h.operations i operation hop
      cases operation with
      | createSession id session' =>
        obtain ⟨hid, hevent, htomb', hremoved', howner'⟩ := hok
        refine ⟨hid, ?_, htomb', hnotRemoved id hremoved', howners id _ howner'⟩
        rw [Dict.get?_set]
        split
        · rfl
        · exact hevent
      | removeSingleSession id session' => exact howners id _ hok
      | removeAllUserSessions userId closePromises =>
        intro id phase hphase
        exact ⟨howners id userId (hok id phase hphase).1, (hok id phase hphase).2⟩
      | removed | cleanupExpiredSessions _ _ _ => trivial
  case createdOnce =>
    intro i j id session₁ session₂ hi hj
    rw [Table.get?_add] at hi hj
    split at hi
    · obtain ⟨rfl, rfl⟩ := StoreOperation.createSession.inj (Option.some.inj hi)
      split at hj
      · omega
      · exact absurd hj (hnew j session₂)
    · split at hj
      · obtain ⟨rfl, rfl⟩ := StoreOperation.createSession.inj (Option.some.inj hj)
        exact absurd hi (hnew i session₁)
      · exact h.createdOnce i j id session₁ session₂ hi hj
  case proxySessions => exact h.proxySessions
  case sessionLoggers =>
    show s.store.sessionLoggers.set sessionId () = s.store.eventStores.set sessionId ()
    rw [h.sessionLoggers]
  case stored =>
    intro id session' hsession
    obtain ⟨hevent, hlisted, howner'⟩ := h.stored id session' hsession
    refine ⟨?_, hlisted, howners id _ howner'⟩
    rw [Dict.get?_set]
    split
    · rfl
    · exact hevent
  case eventStores =>
    intro id hevent
    rw [Dict.get?_set] at hevent
    split at hevent
    · next heq =>
      subst heq
      refine .inr (.inl ⟨s.operations.next, session, ?_⟩)
      rw [Table.get?_add_next]
    · rcases h.eventStores id hevent with hlive | ⟨i, session', hop⟩ | ⟨i, operation, hop, hcloses⟩
      · exact .inl hlive
      · exact .inr (.inl ⟨i, session', hkept i _ hop⟩)
      · exact .inr (.inr ⟨i, operation, hkept i _ hop, hcloses⟩)
  case tombstones =>
    intro id tombstone hid
    exact howners id _ (h.tombstones id tombstone hid)
  case listed =>
    intro userId id hlisted
    obtain ⟨howner', hlive | ⟨i, operation, hop, huser⟩⟩ := h.listed userId id hlisted
    · exact ⟨howners id userId howner', .inl hlive⟩
    · exact ⟨howners id userId howner', .inr ⟨i, operation, hkept i _ hop, huser⟩⟩
  case nonempty => exact h.nonempty

/-- The session of a creation that completes. -/
theorem Ok.completeSession (h : s.Ok)
    (hop : s.operations.get? i = some (.createSession sessionId session)) :
    Ok { s with
      store := s.store.completeSession sessionId session
      operations := s.operations.erase i } := by
  obtain ⟨hnone, hevent, htomb, hremoved, howner⟩ := h.operations i _ hop
  have hkept : ∀ j operation, s.operations.get? j = some operation →
      operation ≠ .createSession sessionId session →
      (s.operations.erase i).get? j = some operation := by
    intro j operation hj hne
    rw [Table.get?_erase, if_neg]
    · exact hj
    · intro heq
      subst heq
      exact hne (Option.some.inj (hj.symm.trans hop))
  constructor
  case operations =>
    intro j operation hj
    obtain ⟨hji, hold⟩ := Table.get?_of_get?_erase hj
    have hok := h.operations j operation hold
    cases operation with
    | createSession id session' =>
      obtain ⟨hid, hevent', htomb', hremoved', howner'⟩ := hok
      have hne : id ≠ sessionId := by
        intro heq
        subst heq
        exact hji (h.createdOnce j i id session' session hold hop)
      refine ⟨?_, hevent', htomb', ?_, howner'⟩
      · show (s.store.sessions.set sessionId session).get? id = none
        rw [Dict.get?_set_ne _ _ hne, hid]
      · intro k operation hk
        exact hremoved' k operation (Table.get?_of_get?_erase hk).2
    | removeSingleSession id session' => exact hok
    | removeAllUserSessions userId closePromises =>
      intro id phase hphase
      refine ⟨(hok id phase hphase).1, ?_⟩
      intro hclosing
      have hne : id ≠ sessionId := by
        intro heq
        subst heq
        have hnot := hremoved j _ hold
        simp [StoreOperation.removes, hphase] at hnot
      show (s.store.sessions.set sessionId session).get? id = none
      rw [Dict.get?_set_ne _ _ hne]
      exact (hok id phase hphase).2 hclosing
    | removed | cleanupExpiredSessions _ _ _ => trivial
  case createdOnce =>
    intro j k id session₁ session₂ hj hk
    exact h.createdOnce j k id session₁ session₂ (Table.get?_of_get?_erase hj).2
      (Table.get?_of_get?_erase hk).2
  case proxySessions =>
    intro id
    show ((s.store.proxySessions.set sessionId false).get? id).isSome =
      ((s.store.sessions.set sessionId session).get? id).isSome
    simp only [Dict.get?_set]
    split
    · rfl
    · exact h.proxySessions id
  case sessionLoggers => exact h.sessionLoggers
  case stored =>
    intro id session' hsession
    simp only [SessionStore.completeSession, Dict.get?_set] at hsession
    rw [SessionStore.listed_completeSession]
    split at hsession
    · next heq =>
      subst heq
      cases hsession
      exact ⟨hevent, .inl ⟨rfl, rfl⟩, howner⟩
    · obtain ⟨hevent', hlisted, howner'⟩ := h.stored id session' hsession
      exact ⟨hevent', .inr hlisted, howner'⟩
  case eventStores =>
    intro id hid
    show ((s.store.sessions.set sessionId session).get? id).isSome ∨ _
    rw [Dict.get?_set]
    by_cases heq : id = sessionId
    · simp [heq]
    · rw [if_neg heq]
      rcases h.eventStores id hid with hlive | ⟨j, session', hj⟩ | ⟨j, operation, hj, hcloses⟩
      · exact .inl hlive
      · exact .inr (.inl ⟨j, session', hkept j _ hj (by simp [heq])⟩)
      · refine .inr (.inr ⟨j, operation, hkept j _ hj ?_, hcloses⟩)
        rintro rfl
        cases hcloses
  case tombstones => exact h.tombstones
  case listed =>
    intro userId id hlisted
    show _ ∧ (((s.store.sessions.set sessionId session).get? id).isSome ∨ _)
    rw [Dict.get?_set]
    rw [SessionStore.listed_completeSession] at hlisted
    rcases hlisted with ⟨rfl, rfl⟩ | hlisted
    · exact ⟨howner, .inl (by simp)⟩
    · obtain ⟨howner', hlive | ⟨j, operation, hj, huser⟩⟩ := h.listed userId id hlisted
      · refine ⟨howner', .inl ?_⟩
        split
        · rfl
        · exact hlive
      · refine ⟨howner', .inr ⟨j, operation, hkept j _ hj ?_, huser⟩⟩
        rintro rfl
        cases huser
  case nonempty => exact h.nonempty.completeSession sessionId session

/-- A step of a removal: `operation` goes on as `operation'`. What it deletes is of sessions that
    it removes, and it goes on for as long as something is left to delete. -/
structure Removal (s s' : SessionState) (i : Nat) (operation operation' : StoreOperation) :
    Prop where
  inProgress : s.operations.get? i = some operation
  operations : s'.operations = s.operations.put i operation'
  owners : s'.owners = s.owners
  terminatedSessions : s'.store.terminatedSessions = s.store.terminatedSessions
  isRemoval : ∀ id session,
    operation ≠ .createSession id session ∧ operation' ≠ .createSession id session
  removes : ∀ id, operation'.removes id = true → operation.removes id = true
  sessions : ∀ id, s'.store.sessions.get? id = s.store.sessions.get? id ∨
    (operation.removes id = true ∧ s'.store.sessions.get? id = none)
  proxySessions : ∀ id,
    (s'.store.proxySessions.get? id).isSome = (s'.store.sessions.get? id).isSome
  sessionLoggers : s'.store.sessionLoggers = s'.store.eventStores
  eventStores : ∀ id, s'.store.eventStores.get? id = s.store.eventStores.get? id ∨
    (operation.removes id = true ∧ s'.store.eventStores.get? id = none ∧
      s'.store.sessions.get? id = none)
  operationOk : s'.OperationOk operation'
  closes : ∀ id, s'.store.eventStores.get? id = some () →
    ((s.store.sessions.get? id).isSome ∧ s'.store.sessions.get? id = none ∨
      operation.closes id = true) → operation'.closes id = true
  listed : ∀ userId id, s'.store.Listed userId id → s.store.Listed userId id ∧
    ((s.store.sessions.get? id).isSome ∧ s'.store.sessions.get? id = none ∨
      operation.removesUser userId = true → operation'.removesUser userId = true)
  stored : ∀ id session, s'.store.sessions.get? id = some session →
    s'.store.Listed session.userId id
  nonempty : s'.store.NoEmptySet

variable {operation' : StoreOperation}

theorem Removal.get?_operations
    (hr : Removal s s' i operation operation') (j : Nat) :
    s'.operations.get? j = if j = i then some operation' else s.operations.get? j := by
  rw [hr.operations, Table.get?_put hr.inProgress]

/-- Sessions that no removal deletes stay as they are. -/
theorem Removal.notRemoved
    (hr : Removal s s' i operation operation') {id : String} (h : s.NotRemoved id) :
    s'.NotRemoved id ∧ s'.store.sessions.get? id = s.store.sessions.get? id ∧
      s'.store.eventStores.get? id = s.store.eventStores.get? id := by
  have hnot : operation.removes id ≠ true := by simp [h i operation hr.inProgress]
  refine ⟨?_, ?_, ?_⟩
  · intro j operation₁ hj
    rw [hr.get?_operations] at hj
    split at hj
    · cases hj
      exact Bool.eq_false_iff.mpr fun hremoves => hnot (hr.removes id hremoves)
    · exact h j operation₁ hj
  · rcases hr.sessions id with hsame | ⟨hremoves, _⟩
    · exact hsame
    · exact absurd hremoves hnot
  · rcases hr.eventStores id with hsame | ⟨hremoves, _⟩
    · exact hsame
    · exact absurd hremoves hnot

theorem Ok.removal (h : s.Ok)
    (hr : Removal s s' i operation operation') :
    s'.Ok where
  operations := by
    intro j operation₁ hj
    rw [hr.get?_operations] at hj
    split at hj
    · cases hj
      exact hr.operationOk
    · have hok := h.operations j operation₁ hj
      cases operation₁ with
      | createSession id session =>
        obtain ⟨hnone, hevent, htomb, hremoved, howner⟩ := hok
        obtain ⟨hremoved', hsessions, hevents⟩ := hr.notRemoved hremoved
        exact ⟨hsessions.trans hnone, hevents.trans hevent, by rw [hr.terminatedSessions, htomb],
          hremoved', by rw [hr.owners, howner]⟩
      | removeSingleSession id session =>
        simp only [OperationOk, hr.owners]
        exact hok
      | removeAllUserSessions userId closePromises =>
        intro id phase hphase
        rw [hr.owners]
        refine ⟨(hok id phase hphase).1, ?_⟩
        intro hclosing
        rcases hr.sessions id with hsame | ⟨_, hnone⟩
        · exact hsame.trans ((hok id phase hphase).2 hclosing)
        · exact hnone
      | removed | cleanupExpiredSessions _ _ _ => trivial
  createdOnce := by
    intro j k id session₁ session₂ hj hk
    rw [hr.get?_operations] at hj hk
    split at hj
    · exact absurd (Option.some.inj hj) (hr.isRemoval id session₁).2
    · split at hk
      · exact absurd (Option.some.inj hk) (hr.isRemoval id session₂).2
      · exact h.createdOnce j k id session₁ session₂ hj hk
  proxySessions := hr.proxySessions
  sessionLoggers := hr.sessionLoggers
  stored := by
    intro id session hsession
    refine ⟨?_, hr.stored id session hsession, ?_⟩
    · rcases hr.sessions id with hsame | ⟨_, hnone⟩
      · rcases hr.eventStores id with hevent | ⟨_, _, hnone⟩
        · rw [hevent]
          exact (h.stored id session (hsame.symm.trans hsession)).1
        · simp [hnone] at hsession
      · simp [hnone] at hsession
    · rcases hr.sessions id with hsame | ⟨_, hnone⟩
      · rw [hr.owners]
        exact (h.stored id session (hsame.symm.trans hsession)).2.2
      · simp [hnone] at hsession
  eventStores := by
    intro id hevent
    have hcloses : operation'.closes id = true → ∃ j operation₁,
        s'.operations.get? j = some operation₁ ∧ operation₁.closes id = true := by
      intro hcloses
      refine ⟨i, operation', ?_, hcloses⟩
      rw [hr.get?_operations, if_pos rfl]
    have hold : s.store.eventStores.get? id = some () := by
      rcases hr.eventStores id with hsame | ⟨_, hnone, _⟩
      · exact hsame.symm.trans hevent
      · simp [hnone] at hevent
    rcases h.eventStores id hold with hlive | ⟨j, session, hj⟩ | ⟨j, operation₁, hj, hcloses₁⟩
    · cases hsession : s'.store.sessions.get? id with
      | some session => exact .inl rfl
      | none => exact .inr (.inr (hcloses (hr.closes id hevent (.inl ⟨hlive, hsession⟩))))
    · refine .inr (.inl ⟨j, session, ?_⟩)
      rw [hr.get?_operations, if_neg]
      · exact hj
      · intro heq
        subst heq
        exact (hr.isRemoval id session).1 (Option.some.inj (hr.inProgress.symm.trans hj))
    · right
      right
      by_cases heq : j = i
      · subst heq
        obtain rfl := Option.some.inj (hr.inProgress.symm.trans hj)
        exact hcloses (hr.closes id hevent (.inr hcloses₁))
      · refine ⟨j, operation₁, ?_, hcloses₁⟩
        rw [hr.get?_operations, if_neg heq]
        exact hj
  tombstones := by
    intro id tombstone htomb
    rw [hr.terminatedSessions] at htomb
    rw [hr.owners]
    exact h.tombstones id tombstone htomb
  listed := by
    intro userId id hlisted
    obtain ⟨hbefore, hgoes⟩ := hr.listed userId id hlisted
    obtain ⟨howner, hwhere⟩ := h.listed userId id hbefore
    rw [hr.owners]
    refine ⟨howner, ?_⟩
    have huser : operation'.removesUser userId = true → ∃ j operation₁,
        s'.operations.get? j = some operation₁ ∧ operation₁.removesUser userId = true := by
      intro huser
      refine ⟨i, operation', ?_, huser⟩
      rw [hr.get?_operations, if_pos rfl]
    rcases hwhere with hlive | ⟨j, operation₁, hj, huser₁⟩
    · cases hsession : s'.store.sessions.get? id with
      | some session => exact .inl rfl
      | none => exact .inr (huser (hgoes (.inl ⟨hlive, hsession⟩)))
    · right
      by_cases heq : j = i
      · subst heq
        obtain rfl := Option.some.inj (hr.inProgress.symm.trans hj)
        exact huser (hgoes (.inr huser₁))
      · refine ⟨j, operation₁, ?_, huser₁⟩
        rw [hr.get?_operations, if_neg heq]
        exact hj
  nonempty := hr.nonempty

theorem removal_deleteSession (h : s.Ok)
    (hop : s.operations.get? i = some (.removeSingleSession sessionId session)) :
    Removal s
      { s with
        store := s.store.deleteSession sessionId session
        operations := s.operations.put i .removed }
      i (.removeSingleSession sessionId session) .removed where
  inProgress := hop
  operations := rfl
  owners := rfl
  terminatedSessions := rfl
  isRemoval := by simp
  removes := by simp [StoreOperation.removes]
  sessions := by
    intro id
    simp only [SessionStore.deleteSession, Dict.get?_erase, StoreOperation.removes, beq_iff_eq]
    by_cases hid : id = sessionId
    all_goals simp [hid]
  proxySessions := by
    intro id
    simp only [SessionStore.deleteSession, Dict.get?_erase]
    by_cases hid : id = sessionId
    · simp [hid]
    · simp only [if_neg hid]
      exact h.proxySessions id
  sessionLoggers := by simp [SessionStore.deleteSession, h.sessionLoggers]
  eventStores := by
    intro id
    simp only [SessionStore.deleteSession, Dict.get?_erase, StoreOperation.removes, beq_iff_eq]
    by_cases hid : id = sessionId
    all_goals simp [hid]
  operationOk := trivial
  closes := by
    rintro id hevent (⟨hlive, hgone⟩ | hcloses)
    · simp only [SessionStore.deleteSession, Dict.get?_erase] at hevent hgone
      split at hevent
      · cases hevent
      · next hid =>
        rw [if_neg hid] at hgone
        simp [hgone] at hlive
    · cases hcloses
  listed := by
    intro userId id hlisted
    rw [SessionStore.listed_deleteSession] at hlisted
    refine ⟨hlisted.1, ?_⟩
    rintro (⟨hlive, hgone⟩ | huser)
    · simp only [SessionStore.deleteSession, Dict.get?_erase] at hgone
      split at hgone
      · next hid =>
        subst hid
        -- the id is only in the set of the session's own user
        have howner := (h.listed userId id hlisted.1).1
        have hsession : s.owners.get? id = some session.userId := h.operations i _ hop
        exact absurd ⟨Option.some.inj (howner.symm.trans hsession), rfl⟩ hlisted.2
      · simp [hgone] at hlive
    · cases huser
  stored := by
    intro id session' hsession
    simp only [SessionStore.deleteSession, Dict.get?_erase] at hsession
    split at hsession
    · cases hsession
    · next hid =>
      rw [SessionStore.listed_deleteSession]
      exact ⟨(h.stored id session' hsession).2.1, fun heq => hid heq.2⟩
  nonempty := h.nonempty.deleteSession sessionId session

variable {closePromises : Dict RemovalPhase}

variable {userId : String}

theorem removal_removeFromMapping (h : s.Ok)
    (hop : s.operations.get? i = some (.removeAllUserSessions userId closePromises))
    (hphase : closePromises.get? sessionId = some .cleaning) :
    Removal s
      { s with
        store := s.store.removeFromMapping sessionId
        operations := s.operations.put i
          (.removeAllUserSessions userId (closePromises.set sessionId .closing)) }
      i (.removeAllUserSessions userId closePromises)
      (.removeAllUserSessions userId (closePromises.set sessionId .closing)) where
  inProgress := hop
  operations := rfl
  owners := rfl
  terminatedSessions := rfl
  isRemoval := by simp
  removes := by
    intro id
    simp only [StoreOperation.removes, Dict.get?_set]
    by_cases hid : id = sessionId
    · simp [hid, hphase]
    · simp [hid]
  sessions := by
    intro id
    simp only [SessionStore.removeFromMapping, Dict.get?_erase, StoreOperation.removes]
    by_cases hid : id = sessionId
    · simp [hid, hphase]
    · simp [hid]
  proxySessions := by
    intro id
    simp only [SessionStore.removeFromMapping, Dict.get?_erase]
    by_cases hid : id = sessionId
    · simp [hid]
    · simp only [if_neg hid]
      exact h.proxySessions id
  sessionLoggers := h.sessionLoggers
  eventStores := fun id => .inl rfl
  operationOk := by
    intro id phase hid
    rw [Dict.get?_set] at hid
    simp only [SessionStore.removeFromMapping, Dict.get?_erase]
    have hok := h.operations i _ hop
    split at hid
    · next heq =>
      subst heq
      exact ⟨(hok id .cleaning hphase).1, fun _ => if_pos rfl⟩
    · next hne =>
      rw [if_neg hne]
      exact hok id phase hid
  closes := by
    intro id _ hcloses
    simp only [StoreOperation.closes, Dict.get?_set, beq_iff_eq]
    by_cases hid : id = sessionId
    · simp [hid]
    · rw [if_neg hid]
      rcases hcloses with ⟨hlive, hgone⟩ | hcloses
      · simp only [SessionStore.removeFromMapping, Dict.get?_erase, if_neg hid] at hgone
        simp [hgone] at hlive
      · simpa only [StoreOperation.closes, beq_iff_eq] using hcloses
  listed := by
    intro userId' id hlisted
    refine ⟨hlisted, ?_⟩
    rintro (⟨hlive, hgone⟩ | huser)
    · simp only [SessionStore.removeFromMapping, Dict.get?_erase] at hgone
      split at hgone
      · next hid =>
        subst hid
        -- the session is one of the user whose sessions are removed
        have howner := (h.listed userId' id hlisted).1
        have hsession : s.owners.get? id = some userId := (h.operations i _ hop id _ hphase).1
        simpa only [StoreOperation.removesUser, beq_iff_eq] using
          Option.some.inj (hsession.symm.trans howner)
      · simp [hgone] at hlive
    · exact huser
  stored := by
    intro id session' hsession
    simp only [SessionStore.removeFromMapping, Dict.get?_erase] at hsession
    split at hsession
    · cases hsession
    · exact (h.stored id session' hsession).2.1
  nonempty := h.nonempty

theorem removal_removeStores (h : s.Ok)
    (hop : s.operations.get? i = some (.removeAllUserSessions userId closePromises))
    (hphase : closePromises.get? sessionId = some .closing) :
    Removal s
      { s with
        store := s.store.removeStores sessionId
        operations := s.operations.put i
          (.removeAllUserSessions userId (closePromises.erase sessionId)) }
      i (.removeAllUserSessions userId closePromises)
      (.removeAllUserSessions userId (closePromises.erase sessionId)) where
  inProgress := hop
  operations := rfl
  owners := rfl
  terminatedSessions := rfl
  isRemoval := by simp
  removes := by
    intro id
    simp only [StoreOperation.removes, Dict.get?_erase]
    by_cases hid : id = sessionId
    all_goals simp [hid]
  sessions := fun id => .inl rfl
  proxySessions := h.proxySessions
  sessionLoggers := by simp [SessionStore.removeStores, h.sessionLoggers]
  eventStores := by
    intro id
    simp only [SessionStore.removeStores, Dict.get?_erase, StoreOperation.removes]
    by_cases hid : id = sessionId
    · subst hid
      have hgone := (h.operations i _ hop id _ hphase).2 rfl
      simp [hphase, hgone]
    · simp [hid]
  operationOk := by
    intro id phase hid
    rw [Dict.get?_erase] at hid
    split at hid
    · cases hid
    · exact h.operations i _ hop id phase hid
  closes := by
    rintro id hevent (⟨hlive, hgone⟩ | hcloses)
    · have hgone : s.store.sessions.get? id = none := hgone
      simp [hgone] at hlive
    · simp only [SessionStore.removeStores, Dict.get?_erase] at hevent
      simp only [StoreOperation.closes, Dict.get?_erase, beq_iff_eq] at hcloses ⊢
      split at hevent
      · cases hevent
      · next hid =>
        rw [if_neg hid]
        exact hcloses
  listed := by
    intro userId' id hlisted
    refine ⟨hlisted, ?_⟩
    rintro (⟨hlive, hgone⟩ | huser)
    · have hgone : s.store.sessions.get? id = none := hgone
      simp [hgone] at hlive
    · exact huser
  stored := fun id session hsession => (h.stored id session hsession).2.1
  nonempty := h.nonempty

/-- The user's set is deleted; here it must have no id of a live session. -/
theorem removal_deleteUserSessions (h : s.Ok)
    (hop : s.operations.get? i = some (.removeAllUserSessions userId closePromises))
    (hdone : closePromises.entries = [])
    (hgone : ∀ id, s.store.Listed userId id → s.store.sessions.get? id = none) :
    Removal s
      { s with
        store := s.store.deleteUserSessions userId
        operations := s.operations.put i .removed }
      i (.removeAllUserSessions userId closePromises) .removed where
  inProgress := hop
  operations := rfl
  owners := rfl
  terminatedSessions := rfl
  isRemoval := by simp
  removes := by simp [StoreOperation.removes]
  sessions := fun id => .inl rfl
  proxySessions := h.proxySessions
  sessionLoggers := h.sessionLoggers
  eventStores := fun id => .inl rfl
  operationOk := trivial
  closes := by
    rintro id hevent (⟨hlive, hnone⟩ | hcloses)
    · have hnone : s.store.sessions.get? id = none := hnone
      simp [hnone] at hlive
    · simp [StoreOperation.closes, Dict.get?, hdone] at hcloses
  listed := by
    intro userId' id hlisted
    rw [SessionStore.listed_deleteUserSessions] at hlisted
    refine ⟨hlisted.2, ?_⟩
    rintro (⟨hlive, hnone⟩ | huser)
    · have hnone : s.store.sessions.get? id = none := hnone
      simp [hnone] at hlive
    · simp only [StoreOperation.removesUser, beq_iff_eq] at huser
      exact absurd huser.symm hlisted.1
  stored := by
    intro id session hsession
    have hlisted := (h.stored id session hsession).2.1
    rw [SessionStore.listed_deleteUserSessions]
    refine ⟨?_, hlisted⟩
    intro heq
    rw [heq] at hlisted
    have hnone := hgone id hlisted
    have hsession : s.store.sessions.get? id = some session := hsession
    simp [hnone] at hsession
  nonempty := h.nonempty.deleteUserSessions userId

/-! ## Creating a session -/

theorem starts_consume (s : SessionState) {terminatedSessions : Dict TerminatedSessionTombstone}
    (h : ∀ id tombstone, terminatedSessions.get? id = some tombstone →
      s.store.terminatedSessions.get? id = some tombstone) :
    s.Starts { s with store := { s.store with terminatedSessions } } :=
  { Starts.refl s with tombstones := fun id tombstone htomb => .inl (h id tombstone htomb) }

/-- The condition on a step under which the maps keep together: no creation fails; an id is taken
    over only when no removal of it is still in progress; a user's set is deleted only when it has
    no id of a live session, that is, when no session that the user has made meanwhile is there. -/
def orderly (fingerprintToken : String → String) (s : SessionState) : SessionAction → Bool
  | .createFails _ => false
  | .connect (some sessionId) authContext token _ =>
    !(s.store.consumeTerminatedSession fingerprintToken s.now (some sessionId) authContext token).1
      || (s.store.sessions.get? sessionId).isSome
      || !s.operations.any fun _ operation => operation.removes sessionId
  | .userSessionsClosed operation =>
    match s.operations.get? operation with
    | some (.removeAllUserSessions userId _) =>
      ((s.store.userSessions.get? userId).getD .empty).entries.all fun e =>
        (s.store.sessions.get? e.1).isNone
    | _ => true
  | _ => true

theorem Ok.connect (h : s.Ok) {token generated : String}
    (horder : orderly fingerprintToken s (.connect requested authContext token generated) = true)
    (hs : s.connect fingerprintToken requested authContext token generated = some s') :
    s'.Ok := by
  obtain ⟨terminatedSessions, hkept, rfl | ⟨id, store, hbegin, rfl, hid⟩⟩ := connect_spec hs
  -- the id is still in use
  · exact h.starts (starts_consume s hkept)
  have hok := h.starts (starts_consume s hkept)
  rcases hid with ⟨rfl, -, hnew⟩ | ⟨rfl, hb, hgone, tombstone, htomb, huser⟩
  · refine hok.beginSession hbegin ?_ ?_ ?_ ?_
    · cases htomb : terminatedSessions.get? id with
      | none => rfl
      | some tombstone =>
        have howner := h.tombstones id tombstone (hkept _ _ htomb)
        simp [hnew] at howner
    · intro i operation hop
      have hopOk := h.operations i operation hop
      cases operation with
      | removeSingleSession sessionId session =>
        have hne : sessionId ≠ id := by
          rintro rfl
          simp [OperationOk, hnew] at hopOk
        simpa [StoreOperation.removes] using hne
      | removeAllUserSessions userId closePromises =>
        cases hphase : closePromises.get? id with
        | none => simp [StoreOperation.removes, hphase]
        | some phase =>
          have howner := (hopOk id phase hphase).1
          simp [hnew] at howner
      | createSession _ _ | removed | cleanupExpiredSessions _ _ _ => rfl
    · intro i session' hop
      have howner := (h.operations i _ hop).2.2.2.2
      simp [hnew] at howner
    · intro userId howner
      have howner : s.owners.get? id = some userId := howner
      simp [hnew] at howner
  · have hnone : s.store.sessions.get? id = none := (SessionStore.beginSession_eq_some hbegin).1
    refine hok.beginSession hbegin hgone ?_ ?_ ?_
    · intro i operation hop
      simp only [orderly, hb, hnone, Bool.not_true, Option.isSome_none, Bool.false_or,
        Bool.not_eq_true'] at horder
      have hnot : ¬ (s.operations.any fun _ operation => operation.removes id) = true := by
        simp [horder]
      rw [Table.any_eq_true] at hnot
      exact Bool.eq_false_iff.mpr fun hremoves => hnot ⟨i, operation, hop, hremoves⟩
    · intro i session' hop
      have hcreating := (h.operations i _ hop).2.2.1
      simp [htomb] at hcreating
    · intro userId howner
      have htombOwner := h.tombstones id tombstone htomb
      exact (Option.some.inj (howner.symm.trans htombOwner)).trans huser

/-- Every step that is in order keeps `Ok`. -/
theorem Ok.step {a : SessionAction} (h : s.Ok)
    (hs : s.step fingerprintToken a = some s') (horder : orderly fingerprintToken s a = true) :
    s'.Ok := by
  cases steps_of_step hs with
  | starts hstarts => exact h.starts hstarts
  | @transportClose sessionId => exact h.starts (starts_removeSingleSession s sessionId true)
  | connect hconnect => exact h.connect horder hconnect
  | createCompletes hop => exact h.completeSession hop
  | createFails _ => cases horder
  | cleanupEnds hop => exact h.removal (removal_deleteSession h hop)
  | userCleanupEnds hop hphase => exact h.removal (removal_removeFromMapping h hop hphase)
  | userCloseEnds hop hphase => exact h.removal (removal_removeStores h hop hphase)
  | @userSessionsClosed i userId closePromises hop hdone =>
    refine h.removal (removal_deleteUserSessions h hop hdone ?_)
    rintro id ⟨sessionIds, hset, hid⟩
    simp only [orderly, hop, hset, Option.getD_some, List.all_eq_true,
      Option.isNone_iff_eq_none] at horder
    exact horder (id, ()) ((sessionIds.mem_entries id ()).mpr hid)

/-! ## Runs -/

/-- In every run whose steps are in order, whenever no operation is in progress the five maps
    have the same sessions, each in the set of its own user, and `getUserSessions` finds every live
    session. -/
theorem tables_agree (fingerprintToken : String → String) (now : Timestamp)
    (trs : List (Run.Transition SessionState SessionAction)) (s : SessionState)
    (hrun : Run.IsRun (step fingerprintToken) (init now) trs s)
    (horder : ∀ tr ∈ trs, orderly fingerprintToken tr.pre tr.act = true) (hidle : s.Idle) :
    s.store.Agree ∧
    ∀ id session, s.store.sessions.get? id = some session →
      session ∈ s.store.getUserSessions session.userId := by
  have hok : s.Ok := by
    refine Run.IsRun.history_of (G := fun tr => orderly fingerprintToken tr.pre tr.act = true)
      (P := fun _ s => s.Ok) (ok_init now) ?_ hrun horder
    intro _ s a s' _ hok hs horder
    exact hok.step hs horder
  have hagree := hok.agree hidle
  refine ⟨hagree, ?_⟩
  intro id session hsession
  exact (hagree.mem_getUserSessions session.userId session).mpr ⟨id, hsession, rfl⟩

theorem idle_of_any (h : (s.operations.any fun _ _ => true) = false) :
    s.Idle := Table.get?_of_any h

/-- The authentication of the user of the runs below. -/
def exampleContext : AuthContext :=
  { anonymous := false, userId := "ab01", permissions := .empty, userPreferences := .empty }

/-- A client ends its session and takes its id over; all sessions of the user are removed. -/
def orderlyActions : List SessionAction :=
  [.connect none exampleContext "token" "session-1", .createCompletes 0,
    .transportClose "session-1" true, .cleanupEnds 1, .operationReturns 1, .tick 5000,
    .connect (some "session-1") exampleContext "token" "session-2", .createCompletes 2,
    .removeAllUserSessions "ab01", .userCleanupEnds 3 "session-1", .userCloseEnds 3 "session-1",
    .userSessionsClosed 3, .operationReturns 3,
    .connect none exampleContext "token" "session-3", .createCompletes 4]

theorem tables_agree_orderlyActions :
    ∃ s, Run.exec (step id) (init 0) orderlyActions = some s ∧ s.store.Agree ∧
      ∀ id session, s.store.sessions.get? id = some session →
        session ∈ s.store.getUserSessions session.userId := by
  refine ⟨(Run.exec (step id) (init 0) orderlyActions).get (by decide), by simp, ?_⟩
  apply tables_agree id 0 (Run.trace (step id) (init 0) orderlyActions)
  · exact Run.isRun_trace _ _ _ (by simp)
  · decide
  · apply idle_of_any
    decide

/-- A session that the user makes while all the user's sessions are being removed. -/
def overlappingActions : List SessionAction :=
  [.connect none exampleContext "token" "session-1", .createCompletes 0,
    .removeAllUserSessions "ab01",
    .connect none exampleContext "token" "session-2", .createCompletes 2,
    .userCleanupEnds 1 "session-1", .userCloseEnds 1 "session-1", .userSessionsClosed 1,
    .operationReturns 1]

/-- The maps need not agree: the new session is live and in no user's set. -/
theorem tables_disagree : ¬ ∀ (now : Timestamp)
    (trs : List (Run.Transition SessionState SessionAction)) (s : SessionState),
    Run.IsRun (step id) (init now) trs s → s.Idle → s.store.Agree := by
  intro h
  have hrun : Run.IsRun (step id) (init 0) (Run.trace (step id) (init 0) overlappingActions)
      ((Run.exec (step id) (init 0) overlappingActions).get (by decide)) :=
    Run.isRun_trace _ _ _ (by simp)
  have hagree := h 0 _ _ hrun (idle_of_any (by decide))
  obtain ⟨sessionIds, hset, _⟩ := (hagree.userSessions "ab01" "session-2").mpr
    ⟨⟨2, "ab01", "token", .authenticated⟩, by decide, rfl⟩
  have hnone : ((Run.exec (step id) (init 0) overlappingActions).get
      (by decide)).store.userSessions.get? "ab01" = none := by
    decide
  rw [hnone] at hset
  cases hset

end SessionState

end PetaCore
