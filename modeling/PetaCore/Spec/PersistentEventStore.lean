import PetaCore.ForStd.Run
import PetaCore.Core.PersistentEventStore

/-!
# Resumption

The ids of the rows grow in the order in which the database executes the inserts, so a call that is
made after another has returned gets the greater id. A replay sends the rows after the anchor in
the order of the ids. Calls that go on at the same time may return in another order than that of
their ids.

Key results:
- `Ok.step`: what holds of the ids is kept by every step
- `Ok.replayEvents`: the calls of the callback
- `replay_exact`: what a replay sends, in every run
-/

namespace PetaCore

open Run

namespace EventStore

/-! ## The ids of the rows -/

/-- The row of a call. -/
def IsRowOf (row : EventRow) (call : StoreCall) : Prop :=
  call.stage.id? = some row.id ∧ row.toEventEntity = call.request.eventEntity

structure Ok (s : EventStore) : Prop where
  lt : ∀ i call id, s.calls.get? i = some call → call.stage.id? = some id → id < s.nextId
  distinct : ∀ i j call call' id, s.calls.get? i = some call → s.calls.get? j = some call' →
    call.stage.id? = some id → call'.stage.id? = some id → i = j
  /-- a row in the table is that of a call whose insert is not in progress -/
  rows : ∀ row ∈ s.rows, ∃ i call, s.calls.get? i = some call ∧ IsRowOf row call ∧
    ∀ id, call.stage ≠ .inserted id
  nodup : (s.rows.map (·.id)).Nodup
  returned : ∀ i ∈ s.returns, ∃ call id, s.calls.get? i = some call ∧ call.stage = .returned id
  /-- a call gets a greater id than those that had returned when it was made -/
  later : ∀ j call i, s.calls.get? j = some call → i ∈ call.returnedBefore →
    ∃ call' id, s.calls.get? i = some call' ∧ call'.stage = .returned id ∧ id < s.nextId ∧
      ∀ id', call.stage.id? = some id' → id < id'

theorem ok_init : Ok init := by
  constructor <;> simp [init]

variable {s s' : EventStore}

theorem Ok.storeEvent (h : Ok s) (request : StoreRequest) :
    Ok { s with calls := s.calls.add ⟨request, .called, s.returns⟩ } := by
  have hkept : ∀ {i call}, s.calls.get? i = some call →
      (s.calls.add ⟨request, .called, s.returns⟩).get? i = some call := fun hi =>
    Table.get?_add_of_some hi _
  refine ⟨?_, ?_, ?_, h.nodup, ?_, ?_⟩
  · intro i call id hi hid
    rcases Table.get?_add_eq_some.mp hi with ⟨-, rfl⟩ | hi
    · cases hid
    · exact h.lt i call id hi hid
  · intro i j call call' id hi hj hid hid'
    rcases Table.get?_add_eq_some.mp hi with ⟨-, rfl⟩ | hi
    · cases hid
    · rcases Table.get?_add_eq_some.mp hj with ⟨-, rfl⟩ | hj
      · cases hid'
      · exact h.distinct i j call call' id hi hj hid hid'
  · intro row hrow
    obtain ⟨i, call, hi, hrest⟩ := h.rows row hrow
    exact ⟨i, call, hkept hi, hrest⟩
  · intro i hi
    obtain ⟨call, id, hcall, hstage⟩ := h.returned i hi
    exact ⟨call, id, hkept hcall, hstage⟩
  · intro j call i hj hi
    rcases Table.get?_add_eq_some.mp hj with ⟨-, rfl⟩ | hj
    · obtain ⟨call', id, hcall', hstage⟩ := h.returned i hi
      have hlt := h.lt i call' id hcall' (by rw [hstage]; rfl)
      exact ⟨call', id, hkept hcall', hstage, hlt, fun id' hid' => by cases hid'⟩
    · obtain ⟨call', id, hcall', hstage, hlt⟩ := h.later j call i hj hi
      exact ⟨call', id, hkept hcall', hstage, hlt⟩

variable {call : StoreCall} {i : Nat}

/-- A call goes on, with the id it has. -/
theorem Ok.setStage (h : Ok s) (hi : s.calls.get? i = some call)
    {stage : StoreStage} (hid : stage.id? = call.stage.id?) (hstage : ∀ id, stage ≠ .inserted id)
    (hnot : ∀ id, call.stage ≠ .returned id) : Ok (s.setStage i call stage) := by
  have hget : ∀ j, (s.setStage i call stage).calls.get? j =
      if j = i then some { call with stage } else s.calls.get? j :=
    fun j => Table.get?_put hi _ j
  -- a call after the step is one before it, with the same id
  have hback : ∀ j call', (s.setStage i call stage).calls.get? j = some call' →
      ∃ call'', s.calls.get? j = some call'' ∧ call''.stage.id? = call'.stage.id? ∧
        call''.returnedBefore = call'.returnedBefore := by
    intro j call' hj
    rw [hget] at hj
    split at hj
    · next heq =>
      subst heq
      cases hj
      exact ⟨call, hi, hid.symm, rfl⟩
    · exact ⟨call', hj, rfl, rfl⟩
  have hreturned : ∀ j call' id, s.calls.get? j = some call' → call'.stage = .returned id →
      (s.setStage i call stage).calls.get? j = some call' := by
    intro j call' id hj hst
    rw [hget, if_neg]
    · exact hj
    · rintro rfl
      rw [hi] at hj
      exact hnot id (Option.some.inj hj ▸ hst)
  refine ⟨?_, ?_, ?_, h.nodup, ?_, ?_⟩
  · intro j call' id hj hj'
    obtain ⟨call'', hcall'', hids, -⟩ := hback j call' hj
    exact h.lt j call'' id hcall'' (hids.trans hj')
  · intro j k call' call'' id hj hk hj' hk'
    obtain ⟨c, hc, hids, -⟩ := hback j call' hj
    obtain ⟨c', hc', hids', -⟩ := hback k call'' hk
    exact h.distinct j k c c' id hc hc' (hids.trans hj') (hids'.trans hk')
  · intro row hrow
    obtain ⟨j, call', hj, ⟨hrowid, hentity⟩, hins⟩ := h.rows row hrow
    by_cases hji : j = i
    · subst hji
      obtain rfl := Option.some.inj (hi.symm.trans hj)
      refine ⟨j, { call with stage }, by rw [hget, if_pos rfl], ⟨?_, hentity⟩, hstage⟩
      exact hid.trans hrowid
    · exact ⟨j, call', by rw [hget, if_neg hji, hj], ⟨hrowid, hentity⟩, hins⟩
  · intro j hj
    obtain ⟨call', id, hcall', hst⟩ := h.returned j hj
    exact ⟨call', id, hreturned j call' id hcall' hst, hst⟩
  · intro j call' k hj hk
    obtain ⟨c, hc, hids, hbefore⟩ := hback j call' hj
    obtain ⟨c', id, hc', hst, hlt, hgreater⟩ := h.later j c k hc (hbefore ▸ hk)
    exact ⟨c', id, hreturned k c' id hc' hst, hst, hlt, fun id' hid' =>
      hgreater id' (hids.trans hid')⟩

/-- The database gives the next id to the row of a call. -/
theorem Ok.inserts (h : Ok s) (hi : s.calls.get? i = some call) (hcalled : call.stage = .called) :
    Ok { s.setStage i call (.inserted s.nextId) with nextId := s.nextId + 1 } := by
  have hget : ∀ j, (s.calls.put i { call with stage := .inserted s.nextId }).get? j =
      if j = i then some { call with stage := .inserted s.nextId } else s.calls.get? j :=
    fun j => Table.get?_put hi _ j
  have hfresh : ∀ j call' id, (s.calls.put i { call with stage := .inserted s.nextId }).get? j =
      some call' → call'.stage.id? = some id →
      (j = i ∧ id = s.nextId) ∨ (j ≠ i ∧ s.calls.get? j = some call' ∧ id < s.nextId) := by
    intro j call' id hj hid
    rw [hget] at hj
    split at hj
    · next heq =>
      cases hj
      exact Or.inl ⟨heq, (Option.some.inj hid).symm⟩
    · next hne => exact Or.inr ⟨hne, hj, h.lt j call' id hj hid⟩
  have hkept : ∀ j call', s.calls.get? j = some call' → call'.stage ≠ .called →
      (s.calls.put i { call with stage := .inserted s.nextId }).get? j = some call' := by
    intro j call' hj hne
    rw [hget, if_neg]
    · exact hj
    · rintro rfl
      rw [hi] at hj
      exact hne (Option.some.inj hj ▸ hcalled)
  refine ⟨?_, ?_, ?_, h.nodup, ?_, ?_⟩
  · intro j call' id hj hid
    show id < s.nextId + 1
    rcases hfresh j call' id hj hid with ⟨-, rfl⟩ | ⟨-, -, hlt⟩ <;> omega
  · intro j k call' call'' id hj hk hid hid'
    rcases hfresh j call' id hj hid with ⟨rfl, rfl⟩ | ⟨hne, hj, hlt⟩
    · rcases hfresh k call'' _ hk hid' with ⟨rfl, -⟩ | ⟨-, -, hlt⟩
      · rfl
      · omega
    · rcases hfresh k call'' id hk hid' with ⟨-, rfl⟩ | ⟨-, hk, -⟩
      · omega
      · exact h.distinct j k call' call'' id hj hk hid hid'
  · intro row hrow
    obtain ⟨j, call', hj, hrowof, hins⟩ := h.rows row hrow
    refine ⟨j, call', hkept j call' hj ?_, hrowof, hins⟩
    intro hst
    have hid := hrowof.1
    rw [hst] at hid
    cases hid
  · intro j hj
    obtain ⟨call', id, hcall', hst⟩ := h.returned j hj
    exact ⟨call', id, hkept j call' hcall' (by simp [hst]), hst⟩
  · intro j call' k hj hk
    have hlater : ∃ c, s.calls.get? j = some c ∧ k ∈ c.returnedBefore ∧
        ∀ id, call'.stage.id? = some id → c.stage.id? = some id ∨ id = s.nextId := by
      have hj' := (hget j).symm.trans hj
      split at hj'
      · next heq =>
        subst heq
        cases hj'
        exact ⟨call, hi, hk, fun id hid => Or.inr (Option.some.inj hid).symm⟩
      · exact ⟨call', hj', hk, fun id hid => Or.inl hid⟩
    obtain ⟨c, hc, hkc, hids⟩ := hlater
    obtain ⟨c', id, hc', hst, hlt, hgreater⟩ := h.later j c k hc hkc
    refine ⟨c', id, hkept k c' hc' (by simp [hst]), hst, Nat.lt_succ_of_lt hlt, ?_⟩
    intro id' hid'
    cases hids id' hid' with
    | inl hold => exact hgreater id' hold
    | inr hnew => omega

/-- The row of a call is seen from its commit on. -/
theorem Ok.commits (h : Ok s) {id : Nat} (hi : s.calls.get? i = some call)
    (hins : call.stage = .inserted id) :
    Ok { s.setStage i call (.committed id) with
      rows := s.rows ++ [⟨call.request.eventEntity, id⟩] } := by
  have hid : call.stage.id? = some id := by
    rw [hins]
    rfl
  have hset : Ok (s.setStage i call (.committed id)) :=
    h.setStage hi (by rw [hid]; rfl) (by simp) (by simp [hins])
  refine ⟨hset.lt, hset.distinct, ?_, ?_, hset.returned, hset.later⟩
  · intro row hrow
    cases List.mem_append.mp hrow with
    | inl hrow => exact hset.rows row hrow
    | inr hrow =>
      rw [List.mem_singleton.mp hrow]
      refine ⟨i, { call with stage := .committed id }, ?_, ⟨rfl, rfl⟩, by simp⟩
      exact (Table.get?_put hi _ i).trans (if_pos rfl)
  · rw [List.map_append, List.nodup_append]
    refine ⟨h.nodup, by simp, ?_⟩
    intro id' hid' id'' hid'' heq
    obtain ⟨row, hrow, rfl⟩ := List.mem_map.mp hid'
    obtain ⟨j, call', hj, hrowof, hnot⟩ := h.rows row hrow
    have hrowid : row.id = id := by simpa [heq] using hid''
    obtain rfl := h.distinct i j call call' id hi hj hid (hrowid ▸ hrowof.1)
    obtain rfl := Option.some.inj (hi.symm.trans hj)
    exact hnot id hins

theorem Ok.returns (h : Ok s) {id : Nat} (hi : s.calls.get? i = some call)
    (hcommitted : call.stage = .committed id) :
    Ok { s.setStage i call (.returned id) with returns := s.returns ++ [i] } := by
  have hset : Ok (s.setStage i call (.returned id)) :=
    h.setStage hi (by rw [hcommitted]; rfl) (by simp) (by simp [hcommitted])
  refine ⟨hset.lt, hset.distinct, hset.rows, hset.nodup, ?_, hset.later⟩
  intro j hj
  cases List.mem_append.mp hj with
  | inl hj => exact hset.returned j hj
  | inr hj =>
    rw [List.mem_singleton.mp hj]
    exact ⟨{ call with stage := .returned id }, id,
      (Table.get?_put hi _ i).trans (if_pos rfl), rfl⟩

theorem Ok.deleteMany (h : Ok s) (p : EventRow → Bool) : Ok (s.deleteMany p) where
  lt := h.lt
  distinct := h.distinct
  rows row hrow := h.rows row (List.mem_of_mem_filter hrow)
  nodup := h.nodup.sublist ((List.filter_sublist).map _)
  returned := h.returned
  later := h.later

theorem Ok.step (h : Ok s) {a : EventStoreAction} (hstep : s.step a = some s') : Ok s' := by
  cases a with
  | storeEvent request =>
    cases hstep
    exact h.storeEvent request
  | inserts i =>
    obtain ⟨call, hi, hstep⟩ := Option.bind_eq_some_iff.mp hstep
    cases hstage : call.stage <;> simp only [hstage] at hstep <;> cases hstep
    exact h.inserts hi hstage
  | commits i =>
    obtain ⟨call, hi, hstep⟩ := Option.bind_eq_some_iff.mp hstep
    cases hstage : call.stage <;> simp only [hstage] at hstep <;> try cases hstep
    split at hstep
    · cases hstep
    · cases hstep
      exact h.commits hi hstage
  | insertFails i =>
    obtain ⟨call, hi, hstep⟩ := Option.bind_eq_some_iff.mp hstep
    cases hstage : call.stage <;> simp only [hstage] at hstep <;> cases hstep
    all_goals exact h.setStage hi (by simp [hstage, StoreStage.id?]) (by simp) (by simp [hstage])
  | returns i =>
    obtain ⟨call, hi, hstep⟩ := Option.bind_eq_some_iff.mp hstep
    cases hstage : call.stage <;> simp only [hstage] at hstep <;> cases hstep
    exact h.returns hi hstage
  | deleteExpired now | deleteBefore now | deleteByStreamId now | deleteAll =>
    cases hstep
    exact h.deleteMany _

theorem ok_of_isRun {trs : List (Transition EventStore EventStoreAction)}
    (h : IsRun step init trs s) : Ok s :=
  IsRun.invariant (fun _ _ _ hok hstep => Ok.step hok hstep) h ok_init

end EventStore

/-! ## Replay -/

namespace EventRepository

variable {rows : List EventRow} {sessionId streamId : String} {afterId : Nat}

theorem mem_findByStreamIdForSessionAfterId {row : EventRow} :
    row ∈ findByStreamIdForSessionAfterId rows sessionId streamId afterId ↔
      row ∈ rows ∧ row.sessionId = sessionId ∧ row.streamId = streamId ∧ afterId < row.id := by
  rw [findByStreamIdForSessionAfterId, List.mem_insertionSort, List.mem_filter,
    decide_eq_true_eq]

/-- The rows come in the order of their ids. -/
theorem pairwise_findByStreamIdForSessionAfterId (h : (rows.map (·.id)).Nodup) :
    (findByStreamIdForSessionAfterId rows sessionId streamId afterId).Pairwise
      fun row row' => row.id < row'.id := by
  have hle : (findByStreamIdForSessionAfterId rows sessionId streamId afterId).Pairwise
      fun row row' => row.id ≤ row'.id := by
    have : Std.Total fun row row' : EventRow => row.id ≤ row'.id :=
      ⟨fun row row' => Nat.le_total row.id row'.id⟩
    have : IsTrans EventRow fun row row' => row.id ≤ row'.id :=
      ⟨fun _ _ _ => Nat.le_trans⟩
    exact List.pairwise_insertionSort _ _
  have hne : (findByStreamIdForSessionAfterId rows sessionId streamId afterId).Pairwise
      fun row row' => row.id ≠ row'.id := by
    have hsorted := (List.perm_insertionSort (fun row row' : EventRow => row.id ≤ row'.id)
      (rows.filter fun row => row.sessionId = sessionId ∧ row.streamId = streamId ∧
        afterId < row.id)).map (·.id)
    refine List.pairwise_map.mp (hsorted.nodup_iff.mpr ?_)
    exact h.sublist ((List.filter_sublist).map _)
  refine hle.imp₂ (fun row row' hle hne => ?_) hne
  omega

end EventRepository

namespace PersistentEventStore

/-- A replay whose anchor is an event of the session sends the events of the stream after it. -/
theorem replayEventsAfter_of_anchor {sessionId lastEventId : String}
    {anchorRows : List EventRow} {anchor : EventRow} (eventRows : List EventRow)
    (send : Nat → Bool)
    (h : EventRepository.findByEventIdForSession anchorRows lastEventId sessionId = some anchor) :
    replayEventsAfter sessionId lastEventId anchorRows eventRows send =
      (replayEvents send [] (EventRepository.findByStreamIdForSessionAfterId eventRows sessionId
        anchor.streamId anchor.id), .ok anchor.streamId) := by
  rw [replayEventsAfter, h]

end PersistentEventStore

namespace EventStore

variable {s s' : EventStore}

/-- A row in the table is read back as the message that was stored. -/
theorem Ok.parse (h : Ok s) {row : EventRow} (hrow : row ∈ s.rows) :
    ∃ (i : Nat) (call : StoreCall), s.calls.get? i = some call ∧ IsRowOf row call ∧
      Json.parse row.messageData.toList = some call.request.message.json := by
  obtain ⟨i, call, hi, hrowof, -⟩ := h.rows row hrow
  refine ⟨i, call, hi, hrowof, ?_⟩
  rw [hrowof.2]
  exact Json.parse_stringify call.request.message.held

/-- What is sent for a list of rows: the messages of their calls. -/
def Sends (s : EventStore) (rows : List EventRow) (calls : List SendCall) : Prop :=
  List.Forall₂ (fun row c => c.eventId = row.eventId ∧
    ∃ i call, s.calls.get? i = some call ∧ IsRowOf row call ∧
      c.message = call.request.message.json) rows calls

/-- The loop calls the callback once for each row, in their order, whatever the callback does. -/
theorem Ok.replayEvents (h : Ok s) (send : Nat → Bool) {rows : List EventRow}
    (hrows : ∀ row ∈ rows, row ∈ s.rows) (calls : List SendCall) :
    ∃ rest, PersistentEventStore.replayEvents send calls rows = calls ++ rest ∧
      s.Sends rows rest := by
  induction rows generalizing calls with
  | nil => exact ⟨[], (List.append_nil calls).symm, List.Forall₂.nil⟩
  | cons row rows ih =>
    obtain ⟨i, call, hi, hrowof, hparse⟩ := h.parse (hrows row List.mem_cons_self)
    have hrest : ∀ row ∈ rows, row ∈ s.rows := fun r hr =>
      hrows r (List.mem_cons_of_mem row hr)
    obtain ⟨rest, hreplay, hsends⟩ := ih hrest
      (calls ++ [⟨row.eventId, call.request.message.json, send calls.length⟩])
    refine ⟨⟨row.eventId, call.request.message.json, send calls.length⟩ :: rest, ?_, ?_⟩
    · rw [PersistentEventStore.replayEvents, hparse]
      simp only [hreplay, List.append_assoc, List.singleton_append]
    · exact List.Forall₂.cons ⟨rfl, i, call, hi, hrowof, rfl⟩ hsends

/-- A call that was made after another had returned has the greater id. -/
theorem Ok.lt_of_returnedBefore (h : Ok s) {i j : Nat} {call call' : StoreCall}
    (hi : s.calls.get? i = some call) (hj : s.calls.get? j = some call')
    (hbefore : i ∈ call'.returnedBefore) {row row' : EventRow} (hrow : IsRowOf row call)
    (hrow' : IsRowOf row' call') : row.id < row'.id := by
  obtain ⟨c, id, hc, hstage, -, hgreater⟩ := h.later j call' i hj hbefore
  obtain rfl := Option.some.inj (hi.symm.trans hc)
  have hid : some id = some row.id := by
    rw [← hrow.1, hstage]
    rfl
  have hlt := hgreater row'.id hrow'.1
  have := Option.some.inj hid
  omega

/-- A callback that never fails has been called with success. -/
theorem succeeded_of_replayEvents {send : Nat → Bool} (hsend : ∀ n, send n = true)
    {calls : List SendCall} {rows : List EventRow} (h : ∀ c ∈ calls, c.succeeded = true) :
    ∀ c ∈ PersistentEventStore.replayEvents send calls rows, c.succeeded = true := by
  induction rows generalizing calls with
  | nil => exact h
  | cons row rows ih =>
    rw [PersistentEventStore.replayEvents]
    cases Json.parse row.messageData.toList with
    | none => exact ih h
    | some message =>
      refine ih fun c hc => ?_
      cases List.mem_append.mp hc with
      | inl hc => exact h c hc
      | inr hc =>
        rw [List.mem_singleton.mp hc]
        exact hsend calls.length

/-- Each row of the list has been sent with success, with the message of its call. -/
def Delivers (s : EventStore) (rows : List EventRow) (calls : List SendCall) : Prop :=
  s.Sends rows calls ∧ ∀ c ∈ calls, c.succeeded = true

/-- What a replay delivers, in every run, when no call of `send` fails: `s` is the store when the
    anchor is looked up and `s'` when the events are. Calls of `storeEvent` that go on at the same
    time have their events in the order in which the database has executed the inserts. -/
theorem replay_exact {trs trs' : List (Transition EventStore EventStoreAction)}
    (hrun : IsRun step init trs s) (hrun' : IsRun step s trs' s')
    {sessionId lastEventId streamId : String} {send : Nat → Bool} {calls : List SendCall}
    (hreplay : PersistentEventStore.replayEventsAfter sessionId lastEventId s.rows s'.rows send =
      (calls, .ok streamId))
    (hsent : ∀ c ∈ calls, c.succeeded = true) :
    ∃ anchor events,
      EventRepository.findByEventIdForSession s.rows lastEventId sessionId = some anchor ∧
      streamId = anchor.streamId ∧
      -- each event of the session and stream with a greater id, once, in the order of the ids
      s'.Delivers events calls ∧
      (events.Pairwise fun row row' => row.id < row'.id) ∧
      (∀ row, row ∈ events ↔ row ∈ s'.rows ∧ row.sessionId = sessionId ∧
        row.streamId = streamId ∧ anchor.id < row.id) ∧
      -- a call that was made after another had returned has the greater id
      ∀ i j call call' row row', s'.calls.get? i = some call → s'.calls.get? j = some call' →
        i ∈ call'.returnedBefore → IsRowOf row call → IsRowOf row' call' → row.id < row'.id := by
  have hok : Ok s' := ok_of_isRun ((isRun_append init s' trs trs').mpr ⟨s, hrun, hrun'⟩)
  cases hanchor : EventRepository.findByEventIdForSession s.rows lastEventId sessionId with
  | none =>
    rw [PersistentEventStore.replayEventsAfter, hanchor] at hreplay
    cases hreplay
  | some anchor =>
    rw [PersistentEventStore.replayEventsAfter_of_anchor _ send hanchor] at hreplay
    obtain ⟨rfl, hstream⟩ := Prod.mk.inj hreplay
    cases hstream
    have hmem : ∀ row, row ∈ EventRepository.findByStreamIdForSessionAfterId s'.rows sessionId
        anchor.streamId anchor.id ↔ row ∈ s'.rows ∧ row.sessionId = sessionId ∧
          row.streamId = anchor.streamId ∧ anchor.id < row.id := fun row =>
      EventRepository.mem_findByStreamIdForSessionAfterId
    obtain ⟨rest, hrest, hsends⟩ :=
      hok.replayEvents send (fun row hrow => ((hmem row).mp hrow).1) []
    refine ⟨anchor, _, rfl, rfl, ⟨?_, hsent⟩,
      EventRepository.pairwise_findByStreamIdForSessionAfterId hok.nodup, hmem, ?_⟩
    · rw [hrest]
      exact hsends
    · intro i j call call' row row' hi hj hbefore hrow hrow'
      exact hok.lt_of_returnedBefore hi hj hbefore hrow hrow'

/-! ### Two events of a stream -/

theorem held_ping : (Json.obj [("method", .str "ping")]).Held := by
  refine ⟨List.nodup_singleton "method", Json.fromEntries_of_plain ?_, ⟨trivial, trivial⟩⟩
  intro m hm
  obtain rfl := List.mem_singleton.mp hm
  exact Json.arrayIndex?_eq_none (by decide)

/-- A notification. -/
private def ping : EventMessage := ⟨_, held_ping⟩

private def pingRequest (timestamp : Nat) (randomStr : String) : StoreRequest :=
  ⟨"session-1", "stream-1", ping, timestamp, timestamp, timestamp, randomStr⟩

/-- The second event is stored after the first call has returned. -/
private def oneByOne : List EventStoreAction :=
  [.storeEvent (pingRequest 10 "a"), .inserts 0, .commits 0, .returns 0,
    .storeEvent (pingRequest 20 "b"), .inserts 1, .commits 1, .returns 1]

/-- The call that was made first returns last. -/
private def overtaken : List EventStoreAction :=
  [.storeEvent (pingRequest 10 "a"), .storeEvent (pingRequest 10 "b"), .inserts 0, .inserts 1,
    .commits 1, .returns 1, .commits 0, .returns 0]

/-- A replay after the first of two events delivers the second. -/
theorem replay_exact_oneByOne : ∃ s calls events row,
    exec step init oneByOne = some s ∧
    PersistentEventStore.replayEventsAfter "session-1" "stream-1_10_a" s.rows s.rows
      (fun _ => true) = (calls, .ok "stream-1") ∧
    s.Delivers events calls ∧ row ∈ events ∧ row.eventId = "stream-1_20_b" := by
  have hobs : (exec step init oneByOne).map (fun s =>
      ((EventRepository.findByEventIdForSession s.rows "stream-1_10_a" "session-1").map
        fun row => (row.id, row.streamId),
        s.rows.map fun row => (row.id, row.eventId, row.sessionId, row.streamId))) =
      some (some (1, "stream-1"), [(1, "stream-1_10_a", "session-1", "stream-1"),
        (2, "stream-1_20_b", "session-1", "stream-1")]) := by
    decide +kernel
  obtain ⟨s, hs, hobs⟩ := Option.map_eq_some_iff.mp hobs
  obtain ⟨hanchor, hrows⟩ := Prod.mk.inj hobs
  obtain ⟨anchor, hanchor, hfields⟩ := Option.map_eq_some_iff.mp hanchor
  obtain ⟨hid, hstream⟩ := Prod.mk.inj hfields
  have hreplay := PersistentEventStore.replayEventsAfter_of_anchor s.rows (fun _ => true) hanchor
  rw [hstream] at hreplay
  obtain ⟨anchor', events, hanchor', -, hdelivers, -, hmem, -⟩ :=
    replay_exact (isRun_trace init s oneByOne hs) ((isRun_nil s s).mpr rfl) hreplay
      (succeeded_of_replayEvents (fun _ => rfl) (by simp))
  obtain rfl := Option.some.inj (hanchor.symm.trans hanchor')
  obtain ⟨row, hrow, hrowfields⟩ : ∃ row ∈ s.rows,
      (row.id, row.eventId, row.sessionId, row.streamId) =
        (2, "stream-1_20_b", "session-1", "stream-1") := by
    rw [← List.mem_map, hrows]
    exact List.mem_cons_of_mem _ List.mem_cons_self
  simp only [Prod.mk.injEq] at hrowfields
  obtain ⟨hrowid, hevent, hsession, hrowstream⟩ := hrowfields
  exact ⟨s, _, events, row, hs, hreplay, hdelivers,
    (hmem row).mpr ⟨hrow, hsession, hrowstream, by omega⟩, hevent⟩

/-- The ids of the events whose calls have returned after that of an event, in their order. -/
def returnedAfter (s : EventStore) (sessionId streamId lastEventId : String) : List String :=
  ((((s.returns.filterMap s.calls.get?).map fun call => call.request.eventEntity).filter fun e =>
    e.sessionId = sessionId ∧ e.streamId = streamId).map fun e =>
      e.eventId).dropWhile (fun id => id ≠ lastEventId) |>.drop 1

/-- An event whose call returns after that of the anchor is not sent when its insert was executed
    before that of the anchor. -/
theorem overtaken_event_skipped :
    ¬∀ (s : EventStore) (trs : List (Transition EventStore EventStoreAction))
      (sessionId streamId lastEventId : String) (send : Nat → Bool) (calls : List SendCall),
      IsRun step init trs s → (∀ c ∈ calls, c.succeeded = true) →
      PersistentEventStore.replayEventsAfter sessionId lastEventId s.rows s.rows send =
        (calls, .ok streamId) →
      (calls.map fun c => c.eventId) = s.returnedAfter sessionId streamId lastEventId := by
  intro h
  have hobs : (exec step init overtaken).map (fun s =>
      ((PersistentEventStore.replayEventsAfter "session-1" "stream-1_10_b" s.rows s.rows
          fun _ => true).1.map fun c => c.eventId,
        (PersistentEventStore.replayEventsAfter "session-1" "stream-1_10_b" s.rows s.rows
          fun _ => true).2.toOption,
        s.returnedAfter "session-1" "stream-1" "stream-1_10_b")) =
      some ([], some "stream-1", ["stream-1_10_a"]) := by
    decide +kernel
  obtain ⟨s, hs, hobs⟩ := Option.map_eq_some_iff.mp hobs
  simp only [Prod.mk.injEq, List.map_eq_nil_iff] at hobs
  obtain ⟨hnone, hok, hafter⟩ := hobs
  have hreplay : PersistentEventStore.replayEventsAfter "session-1" "stream-1_10_b" s.rows s.rows
      (fun _ => true) = ([], .ok "stream-1") := by
    refine Prod.ext hnone ?_
    cases hresult : (PersistentEventStore.replayEventsAfter "session-1" "stream-1_10_b" s.rows
      s.rows fun _ => true).2 with
    | error e =>
      rw [hresult] at hok
      cases hok
    | ok streamId =>
      rw [hresult] at hok
      rw [Option.some.inj hok]
  have hall := h s (trace step init overtaken) "session-1" "stream-1" "stream-1_10_b"
    (fun _ => true) [] (isRun_trace init s overtaken hs) (by simp) hreplay
  rw [hafter] at hall
  cases hall

end EventStore

end PetaCore
