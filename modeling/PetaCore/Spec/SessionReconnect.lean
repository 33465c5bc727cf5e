import PetaCore.Spec.SessionStore

/-!
# Taking over the id of a terminated session

A session that its client has ended leaves a tombstone, which `consumeTerminatedSession` trades
for the session id. The tombstones of a state are read off the transitions that led to it: there
is one for a session id exactly when the last termination of the id is less than 30 seconds old
and has not been used.

Key results:
- `consumeTerminatedSession_eq_true`: the answer from the tombstone
- `tombstones_step`: what one step does to the tombstone of a session id
- `reconnect_only_owner`: the answer from the history of the store
-/

namespace PetaCore

namespace SessionStore

variable (fingerprintToken : String → String)

/-- The tombstone of a session that is terminated. -/
def tombstoneOf (now : Timestamp) (session : StoredSession) : TerminatedSessionTombstone :=
  { userId := session.userId
    authKind := session.authKind
    tokenFingerprint := fingerprintToken session.token
    expiresAt := now + sessionReconnectGraceMs }

/-- The tombstone has not expired and is of the user with this authentication. -/
def Grants (tombstone : TerminatedSessionTombstone) (now : Timestamp) (authContext : AuthContext)
    (token : String) : Prop :=
  now < tombstone.expiresAt ∧ tombstone.userId = authContext.userId ∧
    tombstone.authKind = getAuthKind authContext ∧
    tombstone.tokenFingerprint = fingerprintToken token

theorem get?_pruneTerminatedSessions (store : SessionStore) (now : Timestamp) (id : String) :
    (store.pruneTerminatedSessions now).terminatedSessions.get? id =
      (store.terminatedSessions.get? id).filter fun tombstone =>
        !decide (tombstone.expiresAt ≤ now) := by
  simp only [pruneTerminatedSessions, Dict.get?_filter]

theorem get?_pruneTerminatedSessions_eq_some {store : SessionStore} {now : Timestamp}
    {id : String} {tombstone : TerminatedSessionTombstone} :
    (store.pruneTerminatedSessions now).terminatedSessions.get? id = some tombstone ↔
      store.terminatedSessions.get? id = some tombstone ∧ now < tombstone.expiresAt := by
  rw [get?_pruneTerminatedSessions, Option.filter_eq_some_iff]
  simp

/-- Who gets the session id: whoever its tombstone is of, while it has not expired. -/
theorem consumeTerminatedSession_eq_true {store : SessionStore} {now : Timestamp}
    {requested : Option String} {authContext : AuthContext} {token : String} :
    (store.consumeTerminatedSession fingerprintToken now requested authContext token).1 = true ↔
      ∃ id tombstone, requested = some id ∧ id ≠ "" ∧
        store.terminatedSessions.get? id = some tombstone ∧
        Grants fingerprintToken tombstone now authContext token := by
  simp only [consumeTerminatedSession]
  cases requested with
  | none => simp
  | some sessionId =>
    dsimp only
    by_cases hempty : sessionId = ""
    · simp [hempty]
    rw [if_neg hempty]
    simp only [Option.some.injEq, exists_and_left, exists_eq_left', hempty, ne_eq, not_false_eq_true,
      true_and]
    cases hpruned : (store.pruneTerminatedSessions now).terminatedSessions.get? sessionId with
    | none =>
      simp only [Bool.false_eq_true, false_iff, not_exists, not_and]
      intro tombstone htomb hgrants
      have hsome := get?_pruneTerminatedSessions_eq_some.mpr ⟨htomb, hgrants.1⟩
      rw [hpruned] at hsome
      cases hsome
    | some tombstone =>
      obtain ⟨htomb, hlive⟩ := get?_pruneTerminatedSessions_eq_some.mp hpruned
      dsimp only
      rw [if_neg (Int.not_le.mpr hlive)]
      simp only [htomb, Option.some.injEq, exists_eq_left', Grants, hlive, true_and]
      split
      · next hmatches => simp [hmatches]
      · next hmatches => simp [hmatches]

/-- The tombstones of `store'` are those of `store`, but for expired ones. -/
def SameTombstone (store store' : SessionStore) (now : Timestamp) (id : String) : Prop :=
  (∀ tombstone, store'.terminatedSessions.get? id = some tombstone →
    store.terminatedSessions.get? id = some tombstone) ∧
  ∀ tombstone, store.terminatedSessions.get? id = some tombstone → now < tombstone.expiresAt →
    store'.terminatedSessions.get? id = some tombstone

theorem SameTombstone.refl (store : SessionStore) (now : Timestamp) (id : String) :
    store.SameTombstone store now id :=
  ⟨fun _ h => h, fun _ h _ => h⟩

theorem sameTombstone_prune (store : SessionStore) (now : Timestamp) (id : String) :
    store.SameTombstone (store.pruneTerminatedSessions now) now id :=
  ⟨fun _ h => (get?_pruneTerminatedSessions_eq_some.mp h).1,
    fun _ h hlive => get?_pruneTerminatedSessions_eq_some.mpr ⟨h, hlive⟩⟩

/-- What `consumeTerminatedSession` leaves: the tombstone that it accepts is gone, the others are
    as they were. -/
theorem get?_consumeTerminatedSession (store : SessionStore) (now : Timestamp)
    (requested : Option String) (authContext : AuthContext) (token id : String) :
    let result := store.consumeTerminatedSession fingerprintToken now requested authContext token
    (result.1 = true ∧ requested = some id ∧ result.2.terminatedSessions.get? id = none) ∨
    (¬ (result.1 = true ∧ requested = some id) ∧ store.SameTombstone result.2 now id) := by
  simp only [consumeTerminatedSession]
  cases requested with
  | none => exact .inr ⟨by simp, SameTombstone.refl store now id⟩
  | some sessionId =>
    dsimp only
    by_cases hempty : sessionId = ""
    · rw [if_pos hempty]
      exact .inr ⟨by simp, SameTombstone.refl store now id⟩
    rw [if_neg hempty]
    cases hfound : (store.pruneTerminatedSessions now).terminatedSessions.get? sessionId with
    | none => exact .inr ⟨by simp, sameTombstone_prune store now id⟩
    | some tombstone =>
      obtain ⟨_, hlive⟩ := get?_pruneTerminatedSessions_eq_some.mp hfound
      dsimp only
      rw [if_neg (Int.not_le.mpr hlive)]
      split
      · by_cases hid : id = sessionId
        · subst hid
          exact .inl ⟨rfl, rfl, by rw [Dict.get?_erase, if_pos rfl]⟩
        · refine .inr ⟨by simp [Ne.symm hid], ?_⟩
          have hpruned := sameTombstone_prune store now id
          simp only [SameTombstone, Dict.get?_erase, if_neg hid]
          exact hpruned
      · exact .inr ⟨by simp, sameTombstone_prune store now id⟩

end SessionStore

namespace SessionState

open Run SessionStore

variable {s s' : SessionState} {a : SessionAction}

variable {fingerprintToken : String → String}

/-! ## What a step does to the tombstones -/

/-- The client of the session has ended it and may reconnect. -/
def Terminates (tr : Transition SessionState SessionAction) (id : String)
    (session : StoredSession) : Prop :=
  tr.act = .transportClose id true ∧ tr.pre.store.sessions.get? id = some session

/-- A call of `consumeTerminatedSession` for the session id returns true. -/
def TakesOver (fingerprintToken : String → String) (tr : Transition SessionState SessionAction)
    (id : String) : Prop :=
  ∃ authContext token generated, tr.act = .connect (some id) authContext token generated ∧
    (tr.pre.store.consumeTerminatedSession fingerprintToken tr.pre.now (some id) authContext
      token).1 = true

variable {authContext : AuthContext} {requested : Option String}

theorem terminatedSessions_connect {token generated : String}
    (hs : s.connect fingerprintToken requested authContext token generated = some s') :
    s'.store.terminatedSessions = (s.store.consumeTerminatedSession fingerprintToken s.now requested
      authContext token).2.terminatedSessions := by
  simp only [connect] at hs
  split at hs
  · cases hs
  · split at hs
    · cases hs
      rfl
    · next store hbegin =>
      cases hs
      obtain ⟨_, rfl⟩ := beginSession_eq_some hbegin
      rfl

/-- The time goes forward. -/
theorem now_step (hs : s.step fingerprintToken a = some s') : s.now ≤ s'.now := by
  cases steps_of_step hs with
  | starts hstarts => exact hstarts.now
  | @transportClose sessionId => exact (starts_removeSingleSession s sessionId true).now
  | connect hconnect => exact Int.le_of_eq (connect_cases hconnect).2.2.1.symm
  | createCompletes _ | createFails _ | cleanupEnds _ | userCleanupEnds _ _ | userCloseEnds _ _
  | userSessionsClosed _ _ => exact Int.le_refl s.now

/-- What one step does to the tombstone of a session id. -/
inductive TombstoneStep (fingerprintToken : String → String)
    (tr : Transition SessionState SessionAction) (id : String) : Prop
  | terminated (session : StoredSession) (h : Terminates tr id session)
      (htomb : tr.post.store.terminatedSessions.get? id =
        some (tombstoneOf fingerprintToken tr.pre.now session))
  | takenOver (h : TakesOver fingerprintToken tr id)
      (hgone : tr.post.store.terminatedSessions.get? id = none)
  | same (hterm : ∀ session, ¬ Terminates tr id session)
      (htake : ¬ TakesOver fingerprintToken tr id)
      (hsame : tr.pre.store.SameTombstone tr.post.store tr.pre.now id)

theorem tombstoneStep_connect {token generated : String}
    (hs : s.connect fingerprintToken requested authContext token generated = some s') (id : String)
    :
    TombstoneStep fingerprintToken ⟨s, .connect requested authContext token generated, s'⟩ id := by
  have htombs := terminatedSessions_connect hs
  rcases get?_consumeTerminatedSession fingerprintToken s.store s.now requested authContext token
    id with ⟨htrue, rfl, hgone⟩ | ⟨hnot, hsame⟩
  · refine .takenOver ⟨authContext, token, generated, rfl, htrue⟩ ?_
    rw [htombs, hgone]
  · refine .same ?_ ?_ ?_
    · rintro session ⟨hact, _⟩
      cases hact
    · rintro ⟨authContext', token', generated', hact, htrue⟩
      obtain ⟨rfl, rfl, rfl, rfl⟩ := SessionAction.connect.inj hact
      exact hnot ⟨htrue, rfl⟩
    · simpa only [SameTombstone, htombs] using hsame

theorem tombstoneStep_transportClose (s : SessionState) (closed id : String) :
    TombstoneStep fingerprintToken ⟨s, .transportClose closed true,
      s.removeSingleSession fingerprintToken closed true⟩ id := by
  have htake : ¬ TakesOver fingerprintToken ⟨s, .transportClose closed true,
      s.removeSingleSession fingerprintToken closed true⟩ id := by
    rintro ⟨_, _, _, hact, _⟩
    cases hact
  cases hsession : s.store.sessions.get? closed with
  | none =>
    refine .same ?_ htake ?_
    · rintro session ⟨hact, hlive⟩
      obtain ⟨rfl, _⟩ := SessionAction.transportClose.inj hact
      simp [hsession] at hlive
    · simp only [removeSingleSession, hsession]
      exact SameTombstone.refl s.store s.now id
  | some session =>
    have htombs : (s.removeSingleSession fingerprintToken closed
        true).store.terminatedSessions.get? id =
        if id = closed then some (tombstoneOf fingerprintToken s.now session)
        else (s.store.pruneTerminatedSessions s.now).terminatedSessions.get? id := by
      simp only [removeSingleSession, hsession, if_true, terminatedSessions_cleanup,
        recordTerminatedSession, Dict.get?_set]
      rfl
    by_cases hid : id = closed
    · subst hid
      exact .terminated session ⟨rfl, hsession⟩ (htombs.trans (if_pos rfl))
    · refine .same ?_ htake ?_
      · rintro session ⟨hact, _⟩
        obtain ⟨rfl, _⟩ := SessionAction.transportClose.inj hact
        exact hid rfl
      · have hpruned := sameTombstone_prune s.store s.now id
        simp only [SameTombstone, htombs, if_neg hid]
        exact hpruned

/-- Steps other than these two leave the tombstones alone. -/
theorem tombstoneStep_of_eq (htombs : s'.store.terminatedSessions = s.store.terminatedSessions)
    (hclose : ∀ sessionId, a ≠ .transportClose sessionId true)
    (hconnect : ∀ requested authContext token generated,
      a ≠ .connect requested authContext token generated) (id : String) :
    TombstoneStep fingerprintToken ⟨s, a, s'⟩ id := by
  refine .same ?_ ?_ ?_
  · rintro session ⟨hact, _⟩
    exact hclose id hact
  · rintro ⟨_, _, _, hact, _⟩
    exact hconnect _ _ _ _ hact
  · have hsame := SameTombstone.refl s.store s.now id
    simpa only [SameTombstone, htombs] using hsame

theorem tombstones_step (hs : s.step fingerprintToken a = some s') (id : String) :
    TombstoneStep fingerprintToken ⟨s, a, s'⟩ id := by
  cases steps_of_step hs with
  | starts _ htombs hclose hconnect => exact tombstoneStep_of_eq htombs hclose hconnect id
  | @transportClose sessionId => exact tombstoneStep_transportClose s sessionId id
  | connect hconnect => exact tombstoneStep_connect hconnect id
  | createCompletes _ | createFails _ | cleanupEnds _ | userCleanupEnds _ _ | userCloseEnds _ _
  | userSessionsClosed _ _ => apply tombstoneStep_of_eq <;> first | rfl | simp

/-! ## Session ids -/

/-- No session has the empty id, which would count as no id. -/
structure IdsOk (s : SessionState) : Prop where
  sessions : ∀ id session, s.store.sessions.get? id = some session → id ≠ ""
  creating : ∀ i id session, s.operations.get? i = some (.createSession id session) → id ≠ ""

theorem IdsOk.starts (h : s.IdsOk) (hs : s.Starts s') : s'.IdsOk where
  sessions := by
    intro id session hsession
    rw [hs.sessions] at hsession
    exact h.sessions id session hsession
  creating := by
    intro i id session hop
    rcases hs.begun i _ hop with hold | hbegins
    · exact h.creating i id session hold
    · cases hbegins

/-- A removal that goes on is no creation. -/
theorem IdsOk.put (h : s.IdsOk) {i : Nat} {operation operation' : StoreOperation}
    (hop : s.operations.get? i = some operation)
    (hops : s'.operations = s.operations.put i operation')
    (hnot : ∀ id session, operation' ≠ .createSession id session)
    (hsessions : ∀ id session, s'.store.sessions.get? id = some session →
      s.store.sessions.get? id = some session) : s'.IdsOk where
  sessions := fun id session hsession => h.sessions id session (hsessions id session hsession)
  creating := by
    intro j id session hj
    rw [hops, Table.get?_put hop] at hj
    split at hj
    · exact absurd (Option.some.inj hj) (hnot id session)
    · exact h.creating j id session hj

theorem IdsOk.connect (h : s.IdsOk) {token generated : String}
    (hs : s.connect fingerprintToken requested authContext token generated = some s') :
    s'.IdsOk := by
  obtain ⟨_, hkept, rfl | ⟨newId, _, hbegin, rfl, hid⟩⟩ := connect_spec hs
  · exact h.starts (starts_consume s hkept)
  obtain ⟨_, rfl⟩ := beginSession_eq_some hbegin
  refine ⟨h.sessions, ?_⟩
  intro i id session hop
  rw [Table.get?_add] at hop
  split at hop
  · obtain ⟨rfl, _⟩ := StoreOperation.createSession.inj (Option.some.inj hop)
    rcases hid with ⟨rfl, hne, _⟩ | ⟨rfl, hb, _⟩
    · exact hne
    · obtain ⟨sessionId, _, hsome, hne, _⟩ :=
        (consumeTerminatedSession_eq_true fingerprintToken).mp hb
      rwa [Option.some.inj hsome]
  · exact h.creating i id session hop

theorem IdsOk.step (h : s.IdsOk) (hs : s.step fingerprintToken a = some s') : s'.IdsOk := by
  cases steps_of_step hs with
  | starts hstarts => exact h.starts hstarts
  | @transportClose sessionId => exact h.starts (starts_removeSingleSession s sessionId true)
  | connect hconnect => exact h.connect hconnect
  | @createCompletes i sessionId session hop =>
    constructor
    · intro id session' hsession
      simp only [completeSession, Dict.get?_set] at hsession
      split at hsession
      · next heq =>
        rw [heq]
        exact h.creating i sessionId session hop
      · exact h.sessions id session' hsession
    · intro j id session' hj
      exact h.creating j id session' (Table.get?_of_get?_erase hj).2
  | createFails _ =>
    refine ⟨h.sessions, ?_⟩
    intro j id session hj
    exact h.creating j id session (Table.get?_of_get?_erase hj).2
  | cleanupEnds hop =>
    refine h.put hop rfl (by simp) ?_
    intro id session hsession
    simp only [deleteSession, Dict.get?_erase] at hsession
    split at hsession
    · cases hsession
    · exact hsession
  | userCleanupEnds hop _ =>
    refine h.put hop rfl (by simp) ?_
    intro id session hsession
    simp only [removeFromMapping, Dict.get?_erase] at hsession
    split at hsession
    · cases hsession
    · exact hsession
  | userCloseEnds hop _
  | userSessionsClosed hop _ => exact h.put hop rfl (by simp) (fun _ _ hsession => hsession)

/-! ## Runs -/

/-- The transition `tr` is the last termination of the session id, and nobody has taken the id
    over since. -/
def OpenTermination (fingerprintToken : String → String)
    (trs : List (Transition SessionState SessionAction)) (id : String)
    (tr : Transition SessionState SessionAction) (session : StoredSession) : Prop :=
  ∃ xs ys, trs = xs ++ tr :: ys ∧ Terminates tr id session ∧
    ∀ tr' ∈ ys, (∀ session', ¬ Terminates tr' id session') ∧ ¬ TakesOver fingerprintToken tr' id

theorem openTermination_last (trs : List (Transition SessionState SessionAction))
    {tr : Transition SessionState SessionAction} {id : String} {session : StoredSession}
    (h : Terminates tr id session) :
    OpenTermination fingerprintToken (trs ++ [tr]) id tr session :=
  ⟨trs, [], rfl, h, by simp⟩

/-- An open termination, when one more transition is made. -/
theorem openTermination_snoc {trs : List (Transition SessionState SessionAction)}
    {x tr : Transition SessionState SessionAction} {id : String} {session : StoredSession} :
    OpenTermination fingerprintToken (trs ++ [x]) id tr session ↔
      (tr = x ∧ Terminates x id session) ∨
      (OpenTermination fingerprintToken trs id tr session ∧
        (∀ session', ¬ Terminates x id session') ∧ ¬ TakesOver fingerprintToken x id) := by
  constructor
  · rintro ⟨xs, ys, heq, hterm, hsince⟩
    induction ys using List.reverseRecOn with
    | nil =>
      obtain ⟨_, hx⟩ := List.append_inj' heq rfl
      obtain rfl : x = tr := by simpa using hx
      exact .inl ⟨rfl, hterm⟩
    | append_singleton ys y _ =>
      rw [← List.cons_append, ← List.append_assoc] at heq
      obtain ⟨rfl, hx⟩ := List.append_inj' heq rfl
      obtain rfl : x = y := by simpa using hx
      refine .inr ⟨⟨xs, ys, rfl, hterm, ?_⟩, hsince x (by simp)⟩
      intro tr' htr'
      exact hsince tr' (by simp [htr'])
  · rintro (⟨rfl, hterm⟩ | ⟨⟨xs, ys, rfl, hterm, hsince⟩, hnot⟩)
    · exact openTermination_last trs hterm
    · refine ⟨xs, ys ++ [x], by simp, hterm, ?_⟩
      intro tr' htr'
      rcases List.mem_append.mp htr' with hmem | hmem
      · exact hsince tr' hmem
      · obtain rfl := List.mem_singleton.mp hmem
        exact hnot

/-- The tombstones of the state are the open terminations of the run that have not expired. -/
structure Recorded (fingerprintToken : String → String)
    (trs : List (Transition SessionState SessionAction)) (s : SessionState) : Prop where
  sound : ∀ id tombstone, s.store.terminatedSessions.get? id = some tombstone →
    ∃ tr session, OpenTermination fingerprintToken trs id tr session ∧
      tombstone = tombstoneOf fingerprintToken tr.pre.now session
  complete : ∀ id tr session, OpenTermination fingerprintToken trs id tr session →
    s.now < tr.pre.now + sessionReconnectGraceMs →
    s.store.terminatedSessions.get? id = some (tombstoneOf fingerprintToken tr.pre.now session)
  ids : s.IdsOk

theorem Recorded.step {trs : List (Transition SessionState SessionAction)}
    (h : Recorded fingerprintToken trs s) (hs : s.step fingerprintToken a = some s') :
    Recorded fingerprintToken (trs ++ [⟨s, a, s'⟩]) s' where
  sound := by
    intro id tombstone htomb
    cases tombstones_step hs id with
    | terminated session hterm hpost =>
      obtain rfl := Option.some.inj (hpost.symm.trans htomb)
      exact ⟨_, session, openTermination_last trs hterm, rfl⟩
    | takenOver _ hgone =>
      rw [hgone] at htomb
      cases htomb
    | same hterm htake hsame =>
      obtain ⟨tr, session, hopen, heq⟩ := h.sound id tombstone (hsame.1 tombstone htomb)
      exact ⟨tr, session, openTermination_snoc.mpr (.inr ⟨hopen, hterm, htake⟩), heq⟩
  complete := by
    intro id tr session hopen hlive
    rcases openTermination_snoc.mp hopen with ⟨rfl, hlast⟩ | ⟨hbefore, hnot, hnotTaken⟩
    · cases tombstones_step hs id with
      | terminated session' hterm hpost =>
        obtain rfl := Option.some.inj (hterm.2.symm.trans hlast.2)
        exact hpost
      | takenOver htake _ =>
        obtain ⟨_, _, _, hact, _⟩ := htake
        have hsame := hlast.1.symm.trans hact
        cases hsame
      | same hterm _ _ => exact absurd hlast (hterm session)
    · have hnow := now_step hs
      have hbeforeLive : s.now < tr.pre.now + sessionReconnectGraceMs :=
        Int.lt_of_le_of_lt hnow hlive
      have htomb := h.complete id tr session hbefore hbeforeLive
      cases tombstones_step hs id with
      | terminated session' hterm _ => exact absurd hterm (hnot session')
      | takenOver htake _ => exact absurd htake hnotTaken
      | same _ _ hsame => exact hsame.2 _ htomb hbeforeLive
  ids := h.ids.step hs

theorem recorded_init (now : Timestamp) : Recorded fingerprintToken [] (init now) where
  sound := by simp [init, SessionStore.empty]
  complete := by
    rintro id tr session ⟨xs, ys, heq, _⟩
    simp at heq
  ids := ⟨by simp [init, SessionStore.empty], by simp [init]⟩

/-- A session id is given to whoever asks for it exactly when the client of the session has ended
    it less than 30 seconds ago, the request has the session's user, kind of authentication and
    token, and the id has not been given away since; and a request that is turned down changes no
    later answer. -/
theorem reconnect_only_owner (fingerprintToken : String → String)
    (hinj : Function.Injective fingerprintToken) (now : Timestamp)
    (trs : List (Transition SessionState SessionAction)) (s : SessionState)
    (hrun : IsRun (step fingerprintToken) (init now) trs s) (id : String)
    (authContext : AuthContext) (token : String) :
    ((s.store.consumeTerminatedSession fingerprintToken s.now (some id) authContext token).1 = true ↔
      ∃ tr session, OpenTermination fingerprintToken trs id tr session ∧
        s.now < tr.pre.now + 30000 ∧ session.userId = authContext.userId ∧
        session.authKind = getAuthKind authContext ∧ session.token = token) ∧
    ((s.store.consumeTerminatedSession fingerprintToken s.now (some id) authContext token).1 = false →
      ∀ now' ≥ s.now, ∀ requested' authContext' token',
        ((s.store.consumeTerminatedSession fingerprintToken s.now (some id) authContext
          token).2.consumeTerminatedSession fingerprintToken now' requested' authContext' token').1 =
        (s.store.consumeTerminatedSession fingerprintToken now' requested' authContext' token').1) := by
  have hrecorded : Recorded fingerprintToken trs s :=
    IsRun.history (P := Recorded fingerprintToken) (recorded_init now)
      (fun _ _ _ _ _ h hs => h.step hs) hrun
  refine ⟨?_, ?_⟩
  · rw [consumeTerminatedSession_eq_true]
    constructor
    · rintro ⟨id', tombstone, hid, _, htomb, hlive, huser, hkind, htoken⟩
      cases hid
      obtain ⟨tr, session, hopen, rfl⟩ := hrecorded.sound id tombstone htomb
      exact ⟨tr, session, hopen, hlive, huser, hkind, hinj htoken⟩
    · rintro ⟨tr, session, hopen, hlive, huser, hkind, rfl⟩
      have htomb := hrecorded.complete id tr session hopen hlive
      obtain ⟨xs, ys, rfl, hterm, _⟩ := hopen
      refine ⟨id, _, rfl, ?_, htomb, hlive, huser, hkind, rfl⟩
      -- the id is of a session that was there
      obtain ⟨hxs, _, _⟩ := hrun.split
      have hbefore : Recorded fingerprintToken xs tr.pre :=
        IsRun.history (P := Recorded fingerprintToken) (recorded_init now)
          (fun _ _ _ _ _ h hs => h.step hs) hxs
      exact hbefore.ids.sessions id session hterm.2
  · intro hfalse now' hnow requested' authContext' token'
    rw [Bool.eq_iff_iff, consumeTerminatedSession_eq_true, consumeTerminatedSession_eq_true]
    have hsame : ∀ id', s.store.SameTombstone (s.store.consumeTerminatedSession fingerprintToken
        s.now (some id) authContext token).2 s.now id' := by
      intro id'
      rcases get?_consumeTerminatedSession fingerprintToken s.store s.now (some id) authContext
        token id' with ⟨htrue, _⟩ | ⟨_, hsame⟩
      · rw [hfalse] at htrue
        cases htrue
      · exact hsame
    constructor
    · rintro ⟨id', tombstone, hreq, hne, htomb, hgrants⟩
      exact ⟨id', tombstone, hreq, hne, (hsame id').1 tombstone htomb, hgrants⟩
    · rintro ⟨id', tombstone, hreq, hne, htomb, hgrants⟩
      have hlive : s.now < tombstone.expiresAt := Int.lt_of_le_of_lt hnow hgrants.1
      exact ⟨id', tombstone, hreq, hne, (hsame id').2 tombstone htomb hlive, hgrants⟩

/-- A client ends its session, somebody else asks for the id with another token. -/
def intruderActions : List SessionAction :=
  [.connect none exampleContext "token" "session-1", .createCompletes 0,
    .transportClose "session-1" true, .cleanupEnds 1, .tick 5000,
    .connect (some "session-1") exampleContext "other" "session-2"]

theorem reconnect_only_owner_intruderActions :
    ∃ s, exec (step id) (init 0) intruderActions = some s ∧
      ∃ tr session, OpenTermination id (trace (step id) (init 0) intruderActions) "session-1" tr
          session ∧
        s.now < tr.pre.now + 30000 ∧ session.userId = exampleContext.userId ∧
        session.authKind = getAuthKind exampleContext ∧ session.token = "token" := by
  refine ⟨(exec (step id) (init 0) intruderActions).get (by decide), by simp, ?_⟩
  have hrun : IsRun (step id) (init 0) (trace (step id) (init 0) intruderActions)
      ((exec (step id) (init 0) intruderActions).get (by decide)) :=
    isRun_trace _ _ _ (by simp)
  exact (reconnect_only_owner id Function.injective_id 0 _ _ hrun "session-1" exampleContext
    "token").1.mp (by decide)

end SessionState

end PetaCore
