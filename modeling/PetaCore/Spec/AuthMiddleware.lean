import PetaCore.Core.AuthMiddleware
import PetaCore.Spec.SessionStore

/-!
# Sessions under the middleware

What the results about users need of the session store: each step of the system is at most one step
of the store, and the sessions that are being watched stay in the set of their user as long as no
set is deleted with one of them in it.

Key results:
- `acts_of_step`: what a step of the system can do
- `Acts.storeAction`: the step of the store that it makes
- `LiveListed.steps`: live sessions are in the set of their user
- `session_id_keeps_user`: a session id stays one of the same user
- `Leaving.steps`: the sessions that `removeAllUserSessions` has found leave the store
-/

namespace PetaCore

namespace SessionState

variable {s s' : SessionState} {a : SessionAction} {session : StoredSession}

variable {fingerprintToken : String → String} (watched : StoredSession → Bool)

/-- Live sessions are in the set of their user, for the sessions that are watched. -/
def LiveListed (s : SessionState) : Prop :=
  ∀ id session, s.store.sessions.get? id = some session → watched session = true →
    s.store.Listed session.userId id

/-- Condition on a step: a user's set is deleted only when no watched session that is live has its
    id in it. -/
def keepsListed (s : SessionState) : SessionAction → Bool
  | .userSessionsClosed operation =>
    match s.operations.get? operation with
    | some (.removeAllUserSessions userId _) =>
      ((s.store.userSessions.get? userId).getD .empty).entries.all fun e =>
        (s.store.sessions.get? e.1).all fun session => !watched session
    | _ => true
  | _ => true

variable {id : String}

/-- What a step does to the sessions: those after it were there before, or one has been made. -/
theorem sessions_steps (hs : Steps fingerprintToken s a s')
    (hsession : s'.store.sessions.get? id = some session) :
    s.store.sessions.get? id = some session ∨
      ∃ i, a = .createCompletes i ∧ s.operations.get? i = some (.createSession id session) := by
  cases hs with
  | starts hstarts =>
    rw [hstarts.sessions] at hsession
    exact .inl hsession
  | @transportClose sessionId =>
    rw [(starts_removeSingleSession s sessionId true).sessions] at hsession
    exact .inl hsession
  | connect hconnect =>
    rw [(connect_cases hconnect).1] at hsession
    exact .inl hsession
  | @createCompletes i sessionId created hop =>
    simp only [SessionStore.completeSession, Dict.get?_set] at hsession
    split at hsession
    · next heq =>
      subst heq
      cases hsession
      exact .inr ⟨i, rfl, hop⟩
    · exact .inl hsession
  | createFails _ | userCloseEnds _ _ | userSessionsClosed _ _ => exact .inl hsession
  | cleanupEnds _ =>
    simp only [SessionStore.deleteSession, Dict.get?_erase] at hsession
    split at hsession
    · cases hsession
    · exact .inl hsession
  | userCleanupEnds _ _ =>
    simp only [SessionStore.removeFromMapping, Dict.get?_erase] at hsession
    split at hsession
    · cases hsession
    · exact .inl hsession

/-- New sessions come from requests that make one. -/
theorem createSession_steps (hs : Steps fingerprintToken s a s') {i : Nat}
    (hop : s'.operations.get? i = some (.createSession id session)) :
    s.operations.get? i = some (.createSession id session) ∨
      ∃ requested authContext token generated, a = .connect requested authContext token generated ∧
        session.userId = authContext.userId ∧ session.token = token ∧
        session.authKind = getAuthKind authContext := by
  cases hs with
  | starts hstarts =>
    rcases hstarts.begun i _ hop with hold | hbegins
    · exact .inl hold
    · cases hbegins
  | @transportClose sessionId =>
    rcases (starts_removeSingleSession s sessionId true).begun i _ hop with
      hold | hbegins
    · exact .inl hold
    · cases hbegins
  | connect hconnect =>
    rcases (connect_cases hconnect).2.2.2 with hsame | ⟨_, hadd⟩
    · rw [hsame] at hop
      exact .inl hop
    · rw [hadd, Table.get?_add] at hop
      split at hop
      · obtain ⟨rfl, rfl⟩ := StoreOperation.createSession.inj (Option.some.inj hop)
        exact .inr ⟨_, _, _, _, rfl, rfl, rfl, rfl⟩
      · exact .inl hop
  | createCompletes _ | createFails _ => exact .inl (Table.get?_of_get?_erase hop).2
  | cleanupEnds hop' | userCleanupEnds hop' _ | userCloseEnds hop' _ | userSessionsClosed hop' _ =>
    rw [Table.get?_put hop'] at hop
    split at hop
    · cases Option.some.inj hop
    · exact .inl hop

theorem next_steps (hs : Steps fingerprintToken s a s') :
    s.operations.next ≤ s'.operations.next := by
  cases hs with
  | starts hstarts => exact hstarts.next
  | @transportClose sessionId => exact (starts_removeSingleSession s sessionId true).next
  | connect hconnect =>
    rcases (connect_cases hconnect).2.2.2 with hsame | ⟨_, hadd⟩
    · exact Nat.le_of_eq (by rw [hsame])
    · rw [hadd, Table.next_add]
      omega
  | createCompletes _ | createFails _ | cleanupEnds _ | userCleanupEnds _ _ | userCloseEnds _ _
  | userSessionsClosed _ _ => simp

variable {userId : String}

/-- What a step does to the sets: the ids in them stay, but for those of sessions that are removed
    and for the set that is deleted. -/
theorem listed_steps (hs : Steps fingerprintToken s a s')
    (hlisted : s.store.Listed userId id) (hlive : (s'.store.sessions.get? id).isSome) :
    s'.store.Listed userId id ∨ ∃ i closePromises, a = .userSessionsClosed i ∧
      s.operations.get? i = some (.removeAllUserSessions userId closePromises) := by
  cases hs with
  | starts hstarts =>
    exact .inl ((SessionStore.listed_congr hstarts.userSessions userId id).mpr hlisted)
  | @transportClose sessionId =>
    have hsame := (@starts_removeSingleSession fingerprintToken s sessionId true).userSessions
    exact .inl ((SessionStore.listed_congr hsame userId id).mpr hlisted)
  | connect hconnect =>
    have hsame := (connect_cases hconnect).2.1
    exact .inl ((SessionStore.listed_congr hsame userId id).mpr hlisted)
  | createCompletes _ =>
    rw [SessionStore.listed_completeSession]
    exact .inl (.inr hlisted)
  | createFails _ | userCleanupEnds _ _ | userCloseEnds _ _ => exact .inl hlisted
  | cleanupEnds _ =>
    rw [SessionStore.listed_deleteSession]
    refine .inl ⟨hlisted, ?_⟩
    rintro ⟨_, rfl⟩
    simp [SessionStore.deleteSession, Dict.get?_erase] at hlive
  | @userSessionsClosed i userId' closePromises hop _ =>
    rw [SessionStore.listed_deleteUserSessions]
    by_cases huser : userId = userId'
    · subst huser
      exact .inr ⟨i, closePromises, rfl, hop⟩
    · exact .inl ⟨huser, hlisted⟩

theorem LiveListed.steps {watched : StoredSession → Bool} (h : s.LiveListed watched)
    (hs : Steps fingerprintToken s a s') (hkeeps : keepsListed watched s a = true) :
    s'.LiveListed watched := by
  intro id session hsession hwatched
  rcases sessions_steps hs hsession with hbefore | ⟨i, rfl, hop⟩
  · have hlisted := h id session hbefore hwatched
    rcases listed_steps hs hlisted (by simp [hsession]) with hafter | ⟨i, closePromises, rfl, hop⟩
    · exact hafter
    -- the set that is deleted would have a watched session
    · obtain ⟨sessionIds, hset, hid⟩ := hlisted
      simp only [keepsListed, hop, hset, Option.getD_some, List.all_eq_true] at hkeeps
      have hnot := hkeeps (id, ()) ((sessionIds.mem_entries id ()).mpr hid)
      simp [hbefore, hwatched] at hnot
  · cases hs with
    | starts hstarts =>
      rw [hstarts.sessions] at hsession
      have hlisted := h id session hsession hwatched
      exact (SessionStore.listed_congr hstarts.userSessions _ _).mpr hlisted
    | @createCompletes _ sessionId created hop' =>
      obtain ⟨rfl, rfl⟩ := StoreOperation.createSession.inj
        (Option.some.inj (hop'.symm.trans hop))
      rw [SessionStore.listed_completeSession]
      exact .inl ⟨rfl, rfl⟩

/-- Each session id belongs to one user: the user of its sessions, of its tombstone and of the set
    that has it. -/
structure OwnersOk (s : SessionState) : Prop where
  sessions : ∀ id session, s.store.sessions.get? id = some session →
    s.owners.get? id = some session.userId
  creating : ∀ i id session, s.operations.get? i = some (.createSession id session) →
    s.owners.get? id = some session.userId
  listed : ∀ userId id, s.store.Listed userId id → s.owners.get? id = some userId
  tombstones : ∀ id tombstone, s.store.terminatedSessions.get? id = some tombstone →
    s.owners.get? id = some tombstone.userId

theorem OwnersOk.starts (h : s.OwnersOk) (hs : s.Starts s') : s'.OwnersOk := by
  constructor
  case sessions =>
    intro id session hsession
    rw [hs.sessions] at hsession
    rw [hs.owners]
    exact h.sessions id session hsession
  case creating =>
    intro i id session hop
    rw [hs.owners]
    rcases hs.begun i _ hop with hold | hbegins
    · exact h.creating i id session hold
    · cases hbegins
  case listed =>
    intro userId id hlisted
    rw [hs.owners]
    exact h.listed userId id ((SessionStore.listed_congr hs.userSessions userId id).mp hlisted)
  case tombstones =>
    intro id tombstone htomb
    rw [hs.owners]
    rcases hs.tombstones id tombstone htomb with hold | ⟨session, hsession, huser⟩
    · exact h.tombstones id tombstone hold
    · rw [huser]
      exact h.sessions id session hsession

/-- A new session takes an id that nobody has had, or one that its own user has had. -/
theorem OwnersOk.owners_connect (h : s.OwnersOk) {requested : Option String}
    {authContext : AuthContext} {token generated : String}
    (hs : s.connect fingerprintToken requested authContext token generated = some s')
    (howner : s.owners.get? id = some userId) : s'.owners.get? id = some userId := by
  obtain ⟨_, _, rfl | ⟨newId, _, _, rfl, hid⟩⟩ := connect_spec hs
  · exact howner
  rw [Dict.get?_set]
  split
  next heq =>
    subst heq
    rcases hid with ⟨rfl, _, hnew⟩ | ⟨_, _, _, tombstone, htomb, huser⟩
    · rw [hnew] at howner
      cases howner
    · rw [h.tombstones id tombstone htomb, huser] at howner
      exact howner
  · exact howner

theorem OwnersOk.connect (h : s.OwnersOk) {requested : Option String} {authContext : AuthContext}
    {token generated : String}
    (hs : s.connect fingerprintToken requested authContext token generated = some s') :
    s'.OwnersOk := by
  have hkeeps : ∀ id userId, s.owners.get? id = some userId → s'.owners.get? id = some userId :=
    fun _ _ => h.owners_connect hs
  obtain ⟨_, hkept, rfl | ⟨_, _, hbegin, rfl, _⟩⟩ := connect_spec hs
  · exact h.starts (starts_consume s hkept)
  have hok := h.starts (starts_consume s hkept)
  obtain ⟨_, rfl⟩ := SessionStore.beginSession_eq_some hbegin
  constructor
  case sessions => exact fun id session hsession => hkeeps id _ (hok.sessions id session hsession)
  case creating =>
    intro i id session hop
    rw [Table.get?_add] at hop
    split at hop
    · obtain ⟨rfl, rfl⟩ := StoreOperation.createSession.inj (Option.some.inj hop)
      exact Dict.get?_set_self _ _ _
    · exact hkeeps id _ (h.creating i id session hop)
  case listed => exact fun userId id hlisted => hkeeps id _ (hok.listed userId id hlisted)
  case tombstones => exact fun id tombstone htomb => hkeeps id _ (hok.tombstones id tombstone htomb)

/-- A step that takes sessions away, or stores one that was being made. -/
theorem OwnersOk.of_subset (h : s.OwnersOk) (howners : s'.owners = s.owners)
    (hsessions : ∀ id session, s'.store.sessions.get? id = some session →
      s.owners.get? id = some session.userId)
    (hcreating : ∀ i id session, s'.operations.get? i = some (.createSession id session) →
      s.operations.get? i = some (.createSession id session))
    (hlisted : ∀ userId id, s'.store.Listed userId id → s.owners.get? id = some userId)
    (htombs : s'.store.terminatedSessions = s.store.terminatedSessions) : s'.OwnersOk := by
  constructor
  case sessions => rwa [howners]
  case creating =>
    rw [howners]
    exact fun i id session hop => h.creating i id session (hcreating i id session hop)
  case listed => rwa [howners]
  case tombstones =>
    rw [howners, htombs]
    exact h.tombstones

theorem OwnersOk.steps (h : s.OwnersOk) (hs : Steps fingerprintToken s a s') : s'.OwnersOk := by
  have hsessions : ∀ id session, s'.store.sessions.get? id = some session →
      s.owners.get? id = some session.userId := by
    intro id session hsession
    rcases sessions_steps hs hsession with hold | ⟨i, _, hop⟩
    · exact h.sessions id session hold
    · exact h.creating i id session hop
  have hcreating : (∀ requested authContext token generated,
      a ≠ .connect requested authContext token generated) →
      ∀ j id session, s'.operations.get? j = some (.createSession id session) →
        s.operations.get? j = some (.createSession id session) := by
    intro hnot j id session hj
    rcases createSession_steps hs hj with hold | ⟨_, _, _, _, heq, _⟩
    · exact hold
    · exact absurd heq (hnot _ _ _ _)
  cases hs with
  | starts hstarts => exact h.starts hstarts
  | @transportClose sessionId => exact h.starts (starts_removeSingleSession s sessionId true)
  | connect hconnect => exact h.connect hconnect
  | @createCompletes i sessionId session hop =>
    refine h.of_subset rfl hsessions (hcreating (by simp)) ?_ rfl
    intro userId id hlisted
    rcases (SessionStore.listed_completeSession _ _ _ _ _).mp hlisted with ⟨rfl, rfl⟩ | hold
    · exact h.creating i _ session hop
    · exact h.listed userId id hold
  | createFails _ | userCleanupEnds _ _ | userCloseEnds _ _ =>
    exact h.of_subset rfl hsessions (hcreating (by simp)) h.listed rfl
  | cleanupEnds _ =>
    refine h.of_subset rfl hsessions (hcreating (by simp)) ?_ rfl
    intro userId id hlisted
    exact h.listed userId id ((SessionStore.listed_deleteSession _ _ _ _ _).mp hlisted).1
  | userSessionsClosed _ _ =>
    refine h.of_subset rfl hsessions (hcreating (by simp)) ?_ rfl
    intro userId id hlisted
    exact h.listed userId id ((SessionStore.listed_deleteUserSessions _ _ _ _).mp hlisted).2

theorem OwnersOk.owners_steps (h : s.OwnersOk) (hs : Steps fingerprintToken s a s')
    (howner : s.owners.get? id = some userId) : s'.owners.get? id = some userId := by
  cases hs with
  | starts hstarts => rwa [hstarts.owners]
  | @transportClose sessionId => rwa [(starts_removeSingleSession s sessionId true).owners]
  | connect hconnect => exact h.owners_connect hconnect howner
  | createCompletes _ | createFails _ | cleanupEnds _ | userCleanupEnds _ _ | userCloseEnds _ _
  | userSessionsClosed _ _ => exact howner

theorem ownersOk_init (now : Timestamp) : (init now).OwnersOk := by
  constructor <;> simp [init, SessionStore.empty, SessionStore.Listed]

/-- The store says that the session id is one of the user: with a session, with the set of the user
    or with a tombstone. -/
def BelongsTo (s : SessionState) (id userId : String) : Prop :=
  (∃ session, s.store.sessions.get? id = some session ∧ session.userId = userId) ∨
    s.store.Listed userId id ∨
    ∃ tombstone, s.store.terminatedSessions.get? id = some tombstone ∧ tombstone.userId = userId

theorem OwnersOk.owner_eq (h : s.OwnersOk) (hbelongs : s.BelongsTo id userId) :
    s.owners.get? id = some userId := by
  rcases hbelongs with ⟨session, hsession, rfl⟩ | hlisted | ⟨tombstone, htomb, rfl⟩
  · exact h.sessions id session hsession
  · exact h.listed userId id hlisted
  · exact h.tombstones id tombstone htomb

/-- In every run a session id stays one of the same user, also while removals and creations of the
    user overlap. -/
theorem session_id_keeps_user (fingerprintToken : String → String) (now : Timestamp)
    (trs : List (Run.Transition SessionState SessionAction)) (s : SessionState)
    (hrun : Run.IsRun (step fingerprintToken) (init now) trs s) (id : String) :
    ∀ tr ∈ trs, ∀ userId, tr.pre.BelongsTo id userId →
      ∀ userId', s.BelongsTo id userId' → userId' = userId := by
  intro tr htr userId hbelongs userId' hbelongs'
  obtain ⟨xs, ys, rfl⟩ := List.append_of_mem htr
  obtain ⟨hxs, hstep, hys⟩ := hrun.split
  have hpre := hxs.invariant (I := OwnersOk) (fun _ _ _ h hs => h.steps (steps_of_step hs))
    (ownersOk_init now)
  have hrest : Run.IsRun (step fingerprintToken) tr.pre (tr :: ys) s := ⟨rfl, hstep, hys⟩
  obtain ⟨hok, howner⟩ := hrest.invariant (I := fun t => t.OwnersOk ∧ t.owners.get? id = some userId)
    (fun _ _ _ h hs => ⟨h.1.steps (steps_of_step hs), h.1.owners_steps (steps_of_step hs) h.2⟩)
    ⟨hpre, hpre.owner_eq hbelongs⟩
  exact Option.some.inj ((hok.owner_eq hbelongs').symm.trans howner)

/-- A session that has taken over the id of one that its user has ended. -/
theorem session_id_keeps_user_orderlyActions : ∃ s session,
    Run.exec (step fun token => token) (init 0) (orderlyActions.take 8) = some s ∧
      s.store.sessions.get? "session-1" = some session ∧ session.number = 2 ∧
      session.userId = "ab01" := by
  obtain ⟨s, hs, hsession⟩ : ∃ s, Run.exec (step fun token => token) (init 0)
      (orderlyActions.take 8) = some s ∧ s.store.sessions.get? "session-1" =
        some ⟨2, "ab01", "token", .authenticated⟩ :=
    ⟨(Run.exec (step fun token => token) (init 0) (orderlyActions.take 8)).get (by decide),
      by simp, by decide⟩
  refine ⟨s, _, hs, hsession, rfl, ?_⟩
  exact session_id_keeps_user _ 0 _ s (Run.isRun_trace _ _ _ hs) "session-1" _
    (List.get_mem _ ⟨2, by decide⟩) "ab01"
    (.inl ⟨⟨0, "ab01", "token", .authenticated⟩, by decide, rfl⟩) _ (.inl ⟨_, hsession, rfl⟩)

/-- The sessions that `getUserSessions` finds are live ones of the user. -/
theorem OwnersOk.mem_getUserSessions {s : SessionState} (h : s.OwnersOk)
    (hmem : session ∈ s.store.getUserSessions userId) :
    session.userId = userId ∧ ∃ id, s.store.sessions.get? id = some session := by
  simp only [SessionStore.getUserSessions] at hmem
  split at hmem
  · cases hmem
  · next sessionIds hset =>
    simp only [List.mem_filterMap, List.mem_map, Prod.exists, exists_and_right,
      exists_eq_right] at hmem
    obtain ⟨id, ⟨_, hentry⟩, hsession⟩ := hmem
    have hlisted : s.store.Listed userId id :=
      ⟨sessionIds, hset, (sessionIds.mem_entries id ()).mp hentry⟩
    have howner := (h.sessions id session hsession).symm.trans (h.listed userId id hlisted)
    exact ⟨Option.some.inj howner, id, hsession⟩

/-- `getUserSessions` finds every watched session of the user. -/
theorem LiveListed.mem_getUserSessions {watched : StoredSession → Bool} {s : SessionState}
    (h : s.LiveListed watched) (hsession : s.store.sessions.get? id = some session)
    (hwatched : watched session = true) : session ∈ s.store.getUserSessions session.userId := by
  obtain ⟨sessionIds, hset, hid⟩ := h id session hsession hwatched
  simp only [SessionStore.getUserSessions, hset, List.mem_filterMap, List.mem_map, Prod.exists,
    exists_and_right, exists_eq_right]
  exact ⟨id, ⟨(), (sessionIds.mem_entries id ()).mpr hid⟩, hsession⟩

/-- The watched sessions of the user that are live are all being removed by the operation, which
    has found them. -/
def Leaving (s : SessionState) (operation : Option Nat) (userId : String) : Prop :=
  ∀ id session, s.store.sessions.get? id = some session → session.userId = userId →
    watched session = true →
    ∃ i closePromises, operation = some i ∧
      s.operations.get? i = some (.removeAllUserSessions userId closePromises) ∧
      closePromises.get? id = some .cleaning

/-- `removeAllUserSessions` finds every session that is in the user's set. -/
theorem leaving_removeAllUserSessions {watched : StoredSession → Bool} {s : SessionState}
    (h : s.LiveListed watched) (userId : String) :
    (s.removeAllUserSessions userId).Leaving watched
      (s.begun (s.removeAllUserSessions userId)) userId := by
  intro id session hsession huser hwatched
  rw [(starts_removeAllUserSessions s userId).sessions] at hsession
  obtain ⟨sessionIds, hset, hid⟩ := h id session hsession hwatched
  rw [huser] at hset
  have hne : sessionIds.entries ≠ [] := by
    intro hempty
    simp [Dict.get?, hempty] at hid
  obtain ⟨found, hfound⟩ : ∃ found, found = sessionIds.filterKeyed fun sessionId _ =>
      (s.store.sessions.get? sessionId).isSome := ⟨_, rfl⟩
  have hops : (s.removeAllUserSessions userId).operations = s.operations.add
      (.removeAllUserSessions userId (found.map fun _ => .cleaning)) := by
    simp only [removeAllUserSessions, hset, if_neg hne, hfound]
  refine ⟨s.operations.next, found.map fun _ => .cleaning, ?_, ?_, ?_⟩
  · rw [begun, hops, Table.next_add, if_neg (by omega)]
  · rw [hops, Table.get?_add_next]
  · have hid' : found.get? id = some () := by
      rw [hfound, Dict.get?_filterKeyed_eq_some]
      exact ⟨hid, by simp [hsession]⟩
    simp [hid']

/-- The operation goes on, or its sessions have left. -/
theorem Leaving.steps {watched : StoredSession → Bool} {operation : Option Nat}
    (h : s.Leaving watched operation userId) (hs : Steps fingerprintToken s a s')
    (hnew : ∀ i id session, a = .createCompletes i →
      s.operations.get? i = some (.createSession id session) → session.userId = userId →
      watched session = false) : s'.Leaving watched operation userId := by
  intro id session hsession huser hwatched
  rcases sessions_steps hs hsession with hbefore | ⟨i, rfl, hop⟩
  · obtain ⟨i, closePromises, rfl, hop, hphase⟩ := h id session hbefore huser hwatched
    refine ⟨i, ?_⟩
    simp only [true_and]
    cases hs with
    | starts hstarts => exact ⟨closePromises, hstarts.kept i _ hop rfl, hphase⟩
    | @transportClose sessionId =>
      exact ⟨closePromises, (starts_removeSingleSession s sessionId true).kept i _ hop rfl, hphase⟩
    | connect hconnect =>
      refine ⟨closePromises, ?_, hphase⟩
      rcases (connect_cases hconnect).2.2.2 with hsame | ⟨_, hadd⟩
      · rw [hsame, hop]
      · rw [hadd, Table.get?_add_of_some hop]
    | @createCompletes j _ _ hop' | @createFails j _ _ hop' =>
      refine ⟨closePromises, ?_, hphase⟩
      rw [Table.get?_erase, if_neg]
      · exact hop
      · rintro rfl
        simp [hop] at hop'
    | @cleanupEnds j _ _ hop' =>
      refine ⟨closePromises, ?_, hphase⟩
      rw [Table.get?_put hop', if_neg]
      · exact hop
      · rintro rfl
        simp [hop] at hop'
    | @userCleanupEnds j sessionId userId' closePromises' hop' hphase' =>
      have hid : id ≠ sessionId := by
        rintro rfl
        simp [SessionStore.removeFromMapping, Dict.get?_erase] at hsession
      by_cases hij : i = j
      · subst hij
        obtain ⟨rfl, rfl⟩ := StoreOperation.removeAllUserSessions.inj
          (Option.some.inj (hop'.symm.trans hop))
        refine ⟨_, by rw [Table.get?_put hop', if_pos rfl], ?_⟩
        rw [Dict.get?_set_ne _ _ hid, hphase]
      · refine ⟨closePromises, ?_, hphase⟩
        rw [Table.get?_put hop', if_neg hij, hop]
    | @userCloseEnds j sessionId userId' closePromises' hop' hphase' =>
      by_cases hij : i = j
      · subst hij
        obtain ⟨rfl, rfl⟩ := StoreOperation.removeAllUserSessions.inj
          (Option.some.inj (hop'.symm.trans hop))
        refine ⟨_, by rw [Table.get?_put hop', if_pos rfl], ?_⟩
        rw [Dict.get?_erase, if_neg]
        · exact hphase
        · rintro rfl
          rw [hphase] at hphase'
          cases hphase'
      · refine ⟨closePromises, ?_, hphase⟩
        rw [Table.get?_put hop', if_neg hij, hop]
    | @userSessionsClosed j userId' closePromises' hop' hdone =>
      refine ⟨closePromises, ?_, hphase⟩
      rw [Table.get?_put hop', if_neg]
      · exact hop
      · rintro rfl
        obtain ⟨rfl, rfl⟩ := StoreOperation.removeAllUserSessions.inj
          (Option.some.inj (hop'.symm.trans hop))
        simp [Dict.get?, hdone] at hphase
  · have hnot := hnew i id session rfl hop huser
    rw [hwatched] at hnot
    cases hnot

end SessionState

theorem userId_authContext {row : UserRow} {env : AuthEnv} {userId : String}
    {context : SessionContext} (h : row.authContext env userId = some context) :
    context.authContext.userId = userId := by
  simp only [UserRow.authContext] at h
  split at h
  · cases h
    rfl
  · cases h

namespace AuthState

variable {s s' : AuthState} {a : AuthAction}

variable {env : AuthEnv}

/-- The step that the session store makes in a step of the system. -/
def storeAction (s : AuthState) : AuthAction → Option SessionAction
  | .continues r generated =>
    match s.requests.get? r with
    | some ⟨_, .sessionValidated session false, _⟩ => some (.removeAllUserSessions session.userId)
    | some ⟨_, .expiryConfirmed session user, _⟩ =>
      if user.all fun user => hasExpired s.now user.expiresAt then
        some (.removeAllUserSessions session.userId)
      else none
    | some ⟨request, .validated token (some context), _⟩ =>
      some (.connect request.sessionId context.authContext token generated)
    | _ => none
  | .anonymousConnects r (some permissions) ipHash generated =>
    match s.requests.get? r with
    | some ⟨request, _, _⟩ =>
      some (.connect request.sessionId (anonymousContext permissions ipHash).authContext
        ("anon-" ++ ipHash) generated)
    | none => none
  | .createCompletes r =>
    match s.requests.get? r with
    | some ⟨_, .creating operation _, _⟩ => some (.createCompletes operation)
    | _ => none
  | .createFails r =>
    match s.requests.get? r with
    | some ⟨_, .creating operation _, _⟩ => some (.createFails operation)
    | _ => none
  | .disableRemoves d =>
    match s.disables.get? d with
    | some (targetId, _) => some (.removeAllUserSessions targetId)
    | none => none
  | .store a => some a
  | _ => none

/-- The steps in which the session store makes one. -/
inductive StoreActs (s : AuthState) : AuthAction → SessionAction → Prop
  | removes {r : Nat} {generated userId : String} :
      StoreActs s (.continues r generated) (.removeAllUserSessions userId)
  | connects {r : Nat} {request : AuthRequest} {token generated : String}
      {context : SessionContext} {disabled : List String}
      (hr : s.requests.get? r = some ⟨request, .validated token (some context), disabled⟩) :
      StoreActs s (.continues r generated)
        (.connect request.sessionId context.authContext token generated)
  | anonymousConnects {r : Nat} {request : AuthRequest} {phase : AuthPhase}
      {disabled : List String} {permissions : Permissions} {ipHash generated : String}
      (hr : s.requests.get? r = some ⟨request, phase, disabled⟩) :
      StoreActs s (.anonymousConnects r (some permissions) ipHash generated)
        (.connect request.sessionId (anonymousContext permissions ipHash).authContext
          ("anon-" ++ ipHash) generated)
  | createCompletes {r operation : Nat} {request : AuthRequest} {session : StoredSession}
      {disabled : List String}
      (hr : s.requests.get? r = some ⟨request, .creating operation session, disabled⟩) :
      StoreActs s (.createCompletes r) (.createCompletes operation)
  | createFails {r operation : Nat} {request : AuthRequest} {session : StoredSession}
      {disabled : List String}
      (hr : s.requests.get? r = some ⟨request, .creating operation session, disabled⟩) :
      StoreActs s (.createFails r) (.createFails operation)
  | disableRemoves {d : Nat} {targetId : String} :
      StoreActs s (.disableRemoves d) (.removeAllUserSessions targetId)
  | store {a : SessionAction} : StoreActs s (.store a) a

theorem storeActs_of_storeAction {s : AuthState} {b : SessionAction} (hb : s.storeAction a = some b) :
    s.StoreActs a b := by
  cases a with
  | continues r generated =>
    simp only [storeAction] at hb
    split at hb
    · cases hb
      exact .removes
    · split at hb
      · cases hb
        exact .removes
      · cases hb
    · next hr =>
      cases hb
      exact .connects hr
    · cases hb
  | anonymousConnects r permissions ipHash generated =>
    cases permissions with
    | none => cases hb
    | some permissions =>
      simp only [storeAction] at hb
      split at hb
      · next hr =>
        cases hb
        exact .anonymousConnects hr
      · cases hb
  | createCompletes r =>
    simp only [storeAction] at hb
    split at hb
    · next hr =>
      cases hb
      exact .createCompletes hr
    · cases hb
  | createFails r =>
    simp only [storeAction] at hb
    split at hb
    · next hr =>
      cases hb
      exact .createFails hr
    · cases hb
  | disableRemoves d =>
    simp only [storeAction] at hb
    split at hb
    · cases hb
      exact .disableRemoves
    · cases hb
  | store b =>
    cases hb
    exact .store
  | arrives _ | reads _ _ | authLogged _ _ | disableUser _ | disableReads _ | disableWrites _
  | disableReturns _ | updateUserPermissions _ _ | updateReads _ | updateWrites _
  | updatePushes _ => cases hb

@[simp] theorem sessions_advance (s : AuthState) (r : Nat) (pending : PendingRequest)
    (flow : Flow) : (s.advance r pending flow).sessions = s.sessions := by
  cases flow <;> rfl

@[simp] theorem sessions_arrive (s : AuthState) (request : AuthRequest) :
    (s.arrive request).sessions = s.sessions := by
  simp only [arrive]
  split <;> rfl

@[simp] theorem sessions_applyRefresh (s : AuthState) (session : StoredSession) (now : Timestamp)
    (user : Option UserRow) : (s.applyRefresh env session now user).sessions = s.sessions := by
  simp only [applyRefresh]
  split <;> rfl

variable {generated : String} {pending : PendingRequest} {context : SessionContext}

variable {r : Nat} {token : String}

theorem sessions_createSession
    (hs : s.createSession env r pending context token generated = some s') :
    s.sessions.connect env.fingerprintToken pending.request.sessionId context.authContext token
      generated = some s'.sessions := by
  simp only [createSession] at hs
  split at hs
  · cases hs
  · next sessions hconnect =>
    split at hs
    all_goals
      cases hs
      simpa using hconnect

/-- What a step of the system can do. -/
inductive Acts (env : AuthEnv) (s : AuthState) : AuthAction → AuthState → Prop
  | arrives (request : AuthRequest) : Acts env s (.arrives request) (s.arrive request)
  | reads {r : Nat} {pending : PendingRequest} {active : Bool} {phase : AuthPhase}
      (hr : s.requests.get? r = some pending)
      (hphase : s.readPhase env active pending.phase = some phase) :
      Acts env s (.reads r active) { s with requests := s.requests.put r { pending with phase } }
  | sessionValidated {r : Nat} {pending : PendingRequest} {generated : String}
      {session : StoredSession} (hr : s.requests.get? r = some pending)
      (hphase : pending.phase = .sessionValidated session true) :
      Acts env s (.continues r generated)
        (s.advance r pending (s.refreshUserInfoIfNeeded session))
  /-- the token of the session is no longer valid, or its user's authorization has expired -/
  | removes {r : Nat} {pending : PendingRequest} {generated : String} {session : StoredSession}
      (hr : s.requests.get? r = some pending)
      (hphase : pending.phase = .sessionValidated session false ∨
        ∃ user, pending.phase = .expiryConfirmed session user)
      (hstore : s.storeAction (.continues r generated) =
        some (.removeAllUserSessions session.userId)) :
      Acts env s (.continues r generated)
        ((s.removeAllUserSessions session.userId).1.advance r pending
          (.awaits (.removing (s.removeAllUserSessions session.userId).2)))
  | refreshed {r : Nat} {pending : PendingRequest} {generated : String} {session : StoredSession}
      {now : Timestamp} {user : Option UserRow} (hr : s.requests.get? r = some pending)
      (hphase : pending.phase = .refreshed session now user) :
      Acts env s (.continues r generated)
        ((s.applyRefresh env session now user).advance r pending
          ((s.applyRefresh env session now user).checkExpiry session))
  | renewed {r : Nat} {pending : PendingRequest} {generated : String} {session : StoredSession}
      {user : UserRow} (hr : s.requests.get? r = some pending)
      (hphase : pending.phase = .expiryConfirmed session (some user))
      (hvalid : hasExpired s.now user.expiresAt = false) :
      Acts env s (.continues r generated)
        (AuthState.advance
          { s with
            contexts := Function.update s.contexts session.number
              ((s.contexts session.number).map fun context : SessionContext =>
                { context with expiresAt := expiryOf user.expiresAt }) }
          r pending (.passes session))
  /-- the sessions are removed, or the token is not valid -/
  | refused {r : Nat} {pending : PendingRequest} {generated : String}
      (hr : s.requests.get? r = some pending)
      (hstore : s.storeAction (.continues r generated) = none) :
      Acts env s (.continues r generated) (s.advance r pending .rejects)
  | connects {r : Nat} {pending : PendingRequest} {generated token : String}
      {context : SessionContext} {s' : AuthState} (hr : s.requests.get? r = some pending)
      (hphase : pending.phase = .validated token (some context))
      (h : s.createSession env r pending context token generated = some s') :
      Acts env s (.continues r generated) s'
  | anonymousRefused {r : Nat} {pending : PendingRequest} {ipHash generated : String}
      (hr : s.requests.get? r = some pending) :
      Acts env s (.anonymousConnects r none ipHash generated) (s.advance r pending .rejects)
  | anonymousConnects {r : Nat} {pending : PendingRequest} {permissions : Permissions}
      {ipHash generated : String} {s' : AuthState} (hr : s.requests.get? r = some pending)
      (h : s.createSession env r pending (anonymousContext permissions ipHash) ("anon-" ++ ipHash)
        generated = some s') :
      Acts env s (.anonymousConnects r (some permissions) ipHash generated) s'
  | createCompletes {r : Nat} {pending : PendingRequest} {operation : Nat}
      {session : StoredSession} {sessions : SessionState} (hr : s.requests.get? r = some pending)
      (hphase : pending.phase = .creating operation session)
      (h : s.sessions.step env.fingerprintToken (.createCompletes operation) = some sessions) :
      Acts env s (.createCompletes r)
        (AuthState.advance { s with sessions } r pending (.awaits (.created session)))
  | createFails {r : Nat} {pending : PendingRequest} {operation : Nat}
      {session : StoredSession} {sessions : SessionState} (hr : s.requests.get? r = some pending)
      (hphase : pending.phase = .creating operation session)
      (h : s.sessions.step env.fingerprintToken (.createFails operation) = some sessions) :
      Acts env s (.createFails r) (AuthState.advance { s with sessions } r pending .rejects)
  | authLogged {r : Nat} {pending : PendingRequest} {session : StoredSession} {ok : Bool}
      (hr : s.requests.get? r = some pending) (hphase : pending.phase = .created session) :
      Acts env s (.authLogged r ok)
        (s.advance r pending (if ok then .passes session else .rejects))
  | disableUser (targetId : String) :
      Acts env s (.disableUser targetId) { s with disables := s.disables.add (targetId, .find) }
  /-- `disableUser` throws -/
  | disableThrows {a : AuthAction} {d : Nat} (ha : a = .disableReads d ∨ a = .disableWrites d) :
      Acts env s a { s with disables := s.disables.erase d }
  | disableReads {d : Nat} {targetId : String} {user : UserRow}
      (hd : s.disables.get? d = some (targetId, .find))
      (huser : s.users.get? targetId = some user) (hrole : user.role ≠ .owner) :
      Acts env s (.disableReads d) { s with disables := s.disables.put d (targetId, .update) }
  | disableWrites {d : Nat} {targetId : String} {user : UserRow}
      (hd : s.disables.get? d = some (targetId, .update))
      (huser : s.users.get? targetId = some user) :
      Acts env s (.disableWrites d)
        { s with
          users := s.users.set targetId { user with status := .disabled }
          disables := s.disables.put d (targetId, .updated) }
  | disableRemoves {d : Nat} {targetId : String}
      (hd : s.disables.get? d = some (targetId, .updated)) :
      Acts env s (.disableRemoves d)
        { s with
          sessions := s.sessions.removeAllUserSessions targetId
          disables := s.disables.put d (targetId,
            .removing (s.sessions.begun (s.sessions.removeAllUserSessions targetId))) }
  | disableReturns {d : Nat} {targetId : String} {operation : Option Nat}
      (hd : s.disables.get? d = some (targetId, .removing operation))
      (hdone : operation.bind s.sessions.operations.get? = none) :
      Acts env s (.disableReturns d)
        { s with disables := s.disables.erase d, disabled := targetId :: s.disabled }
  | updateUserPermissions (targetId permissions : String) :
      Acts env s (.updateUserPermissions targetId permissions)
        { s with updates := s.updates.add (targetId, permissions, .find) }
  /-- `updateUserPermissions` throws, or there is nothing to write -/
  | updateEnds {a : AuthAction} {u : Nat} {targetId permissions : String}
      {phase : PermissionsPhase} (ha : a = .updateReads u ∨ a = .updateWrites u)
      (hu : s.updates.get? u = some (targetId, permissions, phase)) (hphase : phase ≠ .updated) :
      Acts env s a { s with updates := s.updates.erase u }
  | updateReads {u : Nat} {targetId permissions : String} {parsed : Permissions}
      (hu : s.updates.get? u = some (targetId, permissions, .find))
      (hparsed : env.parsePermissions permissions = some parsed) :
      Acts env s (.updateReads u)
        { s with updates := s.updates.put u (targetId, permissions, .update) }
  | updateWrites {u : Nat} {targetId permissions : String} {user : UserRow}
      (hu : s.updates.get? u = some (targetId, permissions, .update))
      (huser : s.users.get? targetId = some user) :
      Acts env s (.updateWrites u)
        { s with
          users := s.users.set targetId { user with permissions }
          updates := s.updates.put u (targetId, permissions, .updated) }
  | updatePushes {u : Nat} {targetId permissions : String} {parsed : Permissions}
      (hu : s.updates.get? u = some (targetId, permissions, .updated))
      (hparsed : env.parsePermissions permissions = some parsed) :
      Acts env s (.updatePushes u)
        (AuthState.pushPermissions { s with updates := s.updates.erase u } targetId parsed)
  | store {a : SessionAction} {sessions : SessionState} (hof : ofStore a = true)
      (h : s.sessions.step env.fingerprintToken a = some sessions) :
      Acts env s (.store a) { s with sessions }

theorem acts_continues (hs : s.step env (.continues r generated) = some s') :
    Acts env s (.continues r generated) s' := by
  simp only [step] at hs
  split at hs
  · cases hs
  next pending hr =>
  cases hphase : pending.phase with
  | sessionValidated session valid =>
    simp only [continueRequest, hphase] at hs
    cases valid with
    | true =>
      cases hs
      exact .sessionValidated hr hphase
    | false =>
      cases hs
      refine .removes hr (.inl hphase) ?_
      obtain ⟨request, _, disabled⟩ := pending
      subst hphase
      simp only [storeAction, hr]
  | refreshed session now user =>
    simp only [continueRequest, hphase] at hs
    cases hs
    exact .refreshed hr hphase
  | expiryConfirmed session user =>
    simp only [continueRequest, hphase] at hs
    cases user with
    | none =>
      cases hs
      refine .removes hr (.inr ⟨none, hphase⟩) ?_
      obtain ⟨request, _, disabled⟩ := pending
      subst hphase
      simp [storeAction, hr]
    | some user =>
      simp only at hs
      split at hs
      · next hexpired =>
        cases hs
        refine .removes hr (.inr ⟨some user, hphase⟩) ?_
        obtain ⟨request, _, disabled⟩ := pending
        subst hphase
        simp [storeAction, hr, hexpired]
      · next hvalid =>
        cases hs
        exact .renewed hr hphase (by simpa using hvalid)
  | removing operation =>
    simp only [continueRequest, hphase] at hs
    split at hs
    · cases hs
    · cases hs
      refine .refused hr ?_
      obtain ⟨request, _, disabled⟩ := pending
      subst hphase
      simp only [storeAction, hr]
  | validated token context =>
    simp only [continueRequest, hphase] at hs
    cases context with
    | none =>
      cases hs
      refine .refused hr ?_
      obtain ⟨request, _, disabled⟩ := pending
      subst hphase
      simp only [storeAction, hr]
    | some context => exact .connects hr hphase hs
  | validateSession _ | refresh _ _ | confirmExpiry _ | oauth _ _ | traditional _
  | anonymousServers | creating _ _ | created _ => simp [continueRequest, hphase] at hs

theorem acts_of_step (hs : s.step env a = some s') : Acts env s a s' := by
  cases a with
  | arrives request =>
    cases hs
    exact .arrives request
  | reads r active =>
    simp only [step] at hs
    split at hs
    · cases hs
    · next pending hr =>
      split at hs
      · cases hs
      · next phase hphase =>
        cases hs
        exact .reads hr hphase
  | continues r generated => exact acts_continues hs
  | anonymousConnects r permissions ipHash generated =>
    simp only [step] at hs
    split at hs
    · next request disabled hr =>
      cases permissions with
      | none =>
        cases hs
        exact .anonymousRefused hr
      | some permissions => exact .anonymousConnects hr hs
    · cases hs
  | createCompletes r =>
    simp only [step] at hs
    split at hs
    · next request operation session disabled hr =>
      split at hs
      · cases hs
      · next sessions hsessions =>
        cases hs
        exact .createCompletes hr rfl hsessions
    · cases hs
  | createFails r =>
    simp only [step] at hs
    split at hs
    · next request operation session disabled hr =>
      split at hs
      · cases hs
      · next sessions hsessions =>
        cases hs
        exact .createFails hr rfl hsessions
    · cases hs
  | authLogged r ok =>
    simp only [step] at hs
    split at hs
    · next request session disabled hr =>
      cases hs
      exact .authLogged hr rfl
    · cases hs
  | disableUser targetId =>
    cases hs
    exact .disableUser targetId
  | disableReads d =>
    simp only [step] at hs
    split at hs
    · next targetId hd =>
      split at hs
      · cases hs
        exact .disableThrows (.inl rfl)
      · next user huser =>
        split at hs
        · cases hs
          exact .disableThrows (.inl rfl)
        · next hrole =>
          cases hs
          exact .disableReads hd huser hrole
    · cases hs
  | disableWrites d =>
    simp only [step] at hs
    split at hs
    · next targetId hd =>
      split at hs
      · cases hs
        exact .disableThrows (.inr rfl)
      · next user huser =>
        cases hs
        exact .disableWrites hd huser
    · cases hs
  | disableRemoves d =>
    simp only [step] at hs
    split at hs
    · next targetId hd =>
      cases hs
      exact .disableRemoves hd
    · cases hs
  | disableReturns d =>
    simp only [step] at hs
    split at hs
    · next targetId operation hd =>
      split at hs
      · cases hs
      · next hdone =>
        cases hs
        exact .disableReturns hd (by simpa using hdone)
    · cases hs
  | updateUserPermissions targetId permissions =>
    cases hs
    exact .updateUserPermissions targetId permissions
  | updateReads u =>
    simp only [step] at hs
    split at hs
    · next targetId permissions hu =>
      split at hs
      · cases hs
        exact .updateEnds (.inl rfl) hu (by simp)
      · next user huser =>
        split at hs
        · cases hs
          exact .updateEnds (.inl rfl) hu (by simp)
        · split at hs
          · cases hs
            exact .updateEnds (.inl rfl) hu (by simp)
          · next hparses =>
            cases hs
            simp only [Bool.or_eq_true, not_or, Option.isNone_iff_eq_none] at hparses
            obtain ⟨parsed, hparsed⟩ := Option.ne_none_iff_exists'.mp hparses.1
            exact .updateReads hu hparsed
    · cases hs
  | updateWrites u =>
    simp only [step] at hs
    split at hs
    · next targetId permissions hu =>
      split at hs
      · cases hs
        exact .updateEnds (.inr rfl) hu (by simp)
      · next user huser =>
        cases hs
        exact .updateWrites hu huser
    · cases hs
  | updatePushes u =>
    simp only [step] at hs
    split at hs
    · next targetId permissions hu =>
      split at hs
      · cases hs
      · next parsed hparsed =>
        cases hs
        exact .updatePushes hu hparsed
    · cases hs
  | store b =>
    simp only [step] at hs
    split at hs
    · next hof =>
      obtain ⟨sessions, hsessions, rfl⟩ := Option.map_eq_some_iff.mp hs
      exact .store hof hsessions
    · cases hs

theorem Acts.ofStore {b : SessionAction} (h : Acts env s (.store b) s') :
    AuthState.ofStore b = true := by
  cases h with
  | store hof _ => exact hof
  | disableThrows hthrows => rcases hthrows with hthrows | hthrows <;> cases hthrows
  | updateEnds hends _ _ => rcases hends with hends | hends <;> cases hends

/-- Each step of the system is at most one step of the session store. -/
theorem Acts.storeAction (h : Acts env s a s') :
    match s.storeAction a with
    | none => s'.sessions = s.sessions
    | some b => s.sessions.step env.fingerprintToken b = some s'.sessions := by
  cases h with
  | arrives request => exact sessions_arrive s request
  | reads _ _ | disableUser _ | disableReads _ _ _ | disableWrites _ _ | disableReturns _ _
  | updateUserPermissions _ _ | updateReads _ _ | updateWrites _ _ | updatePushes _ _ => rfl
  | @sessionValidated r pending _ _ hr hphase | @refreshed r pending _ _ _ _ hr hphase =>
    obtain ⟨request, _, disabled⟩ := pending
    subst hphase
    simp [AuthState.storeAction, hr]
  | removes hr hphase hstore =>
    simp [hstore, SessionState.step, removeAllUserSessions]
  | @renewed r pending generated session user hr hphase hvalid =>
    obtain ⟨request, _, disabled⟩ := pending
    subst hphase
    simp [AuthState.storeAction, hr, hvalid]
  | refused hr hstore => simp [hstore]
  | @connects r pending generated token context s' hr hphase h =>
    obtain ⟨request, _, disabled⟩ := pending
    subst hphase
    simp only [AuthState.storeAction, hr]
    exact sessions_createSession h
  | anonymousRefused _ | authLogged _ _ => simp [AuthState.storeAction]
  | anonymousConnects hr h =>
    simp only [AuthState.storeAction, hr]
    exact sessions_createSession h
  | @createCompletes r pending operation session sessions hr hphase h
  | @createFails r pending operation session sessions hr hphase h =>
    obtain ⟨request, _, disabled⟩ := pending
    subst hphase
    simp only [AuthState.storeAction, hr]
    exact h
  | disableThrows ha | updateEnds ha _ _ => rcases ha with rfl | rfl <;> rfl
  | disableRemoves hd => simp [AuthState.storeAction, hd, SessionState.step]
  | store hof h => exact h

/-- A step of the system leaves the store as it is, or is a step of it. -/
theorem Acts.store_steps (h : Acts env s a s') : s'.sessions = s.sessions ∨
    ∃ b, s.storeAction a = some b ∧
      SessionState.Steps env.fingerprintToken s.sessions b s'.sessions := by
  have hstore := h.storeAction
  cases hb : s.storeAction a with
  | none =>
    simp only [hb] at hstore
    exact .inl hstore
  | some b =>
    simp only [hb] at hstore
    exact .inr ⟨b, rfl, SessionState.steps_of_step hstore⟩

/-- The steps of `disableUser` and `updateUserPermissions`. -/
def ofAdmin : AuthAction → Bool
  | .disableUser _ | .disableReads _ | .disableWrites _ | .disableRemoves _ | .disableReturns _
  | .updateUserPermissions _ _ | .updateReads _ | .updateWrites _ | .updatePushes _ => true
  | _ => false

/-- The tables that only administrators change. -/
structure SameAdmin (s s' : AuthState) : Prop where
  users : s'.users = s.users
  disables : s'.disables = s.disables
  updates : s'.updates = s.updates
  disabled : s'.disabled = s.disabled

theorem SameAdmin.refl (s : AuthState) : s.SameAdmin s := ⟨rfl, rfl, rfl, rfl⟩

theorem SameAdmin.advance (h : s.SameAdmin s') (r : Nat) (pending : PendingRequest) (flow : Flow) :
    s.SameAdmin (s'.advance r pending flow) := by
  obtain ⟨husers, hdisables, hupdates, hdisabled⟩ := h
  cases flow <;> exact ⟨husers, hdisables, hupdates, hdisabled⟩

theorem sameAdmin_createSession
    (hs : s.createSession env r pending context token generated = some s') : s.SameAdmin s' := by
  simp only [createSession] at hs
  split at hs
  · cases hs
  · split at hs
    all_goals
      cases hs
      exact ⟨rfl, rfl, rfl, rfl⟩

/-- Requests and the session store leave the tables of the administrators alone. -/
theorem Acts.sameAdmin (h : Acts env s a s') (ha : ofAdmin a = false) : s.SameAdmin s' := by
  cases h with
  | arrives request =>
    simp only [arrive]
    split <;> exact ⟨rfl, rfl, rfl, rfl⟩
  | reads _ _ | store _ _ => exact ⟨rfl, rfl, rfl, rfl⟩
  | sessionValidated _ _ | refused _ _ | anonymousRefused _
  | authLogged _ _ => exact (SameAdmin.refl s).advance _ _ _
  | removes _ _ _ | renewed _ _ _ | createCompletes _ _ _ | createFails _ _ _ =>
    apply SameAdmin.advance
    exact ⟨rfl, rfl, rfl, rfl⟩
  | @refreshed r pending generated session now user hr hphase =>
    have hsame : s.SameAdmin (s.applyRefresh env session now user) := by
      simp only [applyRefresh]
      split <;> exact ⟨rfl, rfl, rfl, rfl⟩
    exact hsame.advance r pending _
  | connects _ _ h | anonymousConnects _ h => exact sameAdmin_createSession h
  | disableUser _ | disableReads _ _ _ | disableWrites _ _ | disableRemoves _ | disableReturns _ _
  | updateUserPermissions _ _ | updateReads _ _ | updateWrites _ _ | updatePushes _ _ => cases ha
  | disableThrows hthrows => rcases hthrows with rfl | rfl <;> cases ha
  | updateEnds hends _ _ => rcases hends with rfl | rfl <;> cases ha

/-- The tables of the requests, which the steps of administrators leave alone. -/
theorem Acts.sameRequests (h : Acts env s a s') (ha : ofAdmin a = true) :
    s'.requests = s.requests ∧ s'.passed = s.passed := by
  cases h with
  | disableUser _ | disableThrows _ | disableReads _ _ _ | disableWrites _ _ | disableRemoves _
  | disableReturns _ _ | updateUserPermissions _ _ | updateEnds _ _ _ | updateReads _ _
  | updateWrites _ _ | updatePushes _ _ => exact ⟨rfl, rfl⟩
  | arrives _ | reads _ _ | sessionValidated _ _ | removes _ _ _ | refreshed _ _ | renewed _ _ _
  | refused _ _ | connects _ _ _ | anonymousRefused _ | anonymousConnects _ _
  | createCompletes _ _ _ | createFails _ _ _ | authLogged _ _ | store _ _ => cases ha

/-- A user who has been disabled stays so. -/
theorem Acts.disabled_subset (h : Acts env s a s') (userId : String) (hmem : userId ∈ s.disabled) :
    userId ∈ s'.disabled := by
  cases hadmin : ofAdmin a with
  | false =>
    rw [(h.sameAdmin hadmin).disabled]
    exact hmem
  | true =>
    cases h with
    | disableReturns _ _ => exact List.mem_cons_of_mem _ hmem
    | _ => first | exact hmem | cases hadmin

/-- A request that makes a session: the id is in use, or an operation begins with a new object. -/
theorem createSession_cases (hs : s.createSession env r pending context token generated = some s') :
    s'.sessions.store.sessions = s.sessions.store.sessions ∧
    ((s'.sessions.operations = s.sessions.operations ∧ s'.contexts = s.contexts ∧
        s'.requests = s.requests.erase r) ∨
      ∃ id session, session.number = s.sessions.operations.next ∧
        session.userId = context.authContext.userId ∧
        s'.sessions.operations = s.sessions.operations.add (.createSession id session) ∧
        s'.contexts = Function.update s.contexts s.sessions.operations.next
          (some { context with lastUserInfoRefresh := some s.now }) ∧
        s'.requests = s.requests.put r
          { pending with phase := .creating s.sessions.operations.next session }) := by
  simp only [createSession] at hs
  split at hs
  · cases hs
  next sessions hconnect =>
  obtain ⟨hsessions, _, _, hops⟩ := SessionState.connect_cases hconnect
  rcases hops with hsame | ⟨id, hadd⟩
  · have hbegun : s.sessions.begun sessions = none := by
      rw [SessionState.begun, hsame, if_pos rfl]
    rw [hbegun] at hs
    cases hs
    exact ⟨hsessions, .inl ⟨hsame, rfl, rfl⟩⟩
  · have hbegun : s.sessions.begun sessions = some s.sessions.operations.next := by
      rw [SessionState.begun, hadd, Table.next_add, if_neg (by omega)]
    rw [hbegun] at hs
    cases hs
    exact ⟨hsessions, .inr ⟨id, _, rfl, rfl, hadd, rfl, rfl⟩⟩

end AuthState

end PetaCore
