import PetaCore.Core.RequestIdMapper
import PetaCore.ForStd.Run

/-!
# The request-id maps over whole runs

The four maps of a mapper describe the same requests as long as no two requests in flight get the
same proxy id, and no two of them the same downstream key. Neither is excluded: the number `1` and
the string `1` have the same text, and the downstream ids start again with every connection.

## Key results

- `maps_consistent`: the maps agree in every state that is reached by operations that keep proxy
  ids and downstream keys apart
- `maps_disagree`: two request ids with the same text in one millisecond
-/

namespace PetaCore

open Run

/-! ## Mappers -/

/-- How the maps between the client's ids and the proxy ids fit together with the entries. -/
structure RequestIdMapper.EntriesOk (m : RequestIdMapper) : Prop where
  inverse : ∀ id p, m.clientToProxy id = some p ↔ m.proxyToClient.get? p = some id
  original : ∀ p, m.proxyToClient.get? p = (m.proxyToDownstream.get? p).map (·.originalRequestId)
  named : ∀ id p, m.clientToProxy id = some p → p ≠ ""

/-- How all four maps fit together. -/
structure RequestIdMapper.MapsOk (m : RequestIdMapper) : Prop extends m.EntriesOk where
  served : ∀ p e, m.proxyToDownstream.get? p = some e → e.downstreamRequestId ≠ none →
    ∃ s, e.serverId = some s ∧ s ≠ ""
  downstream : ∀ key p, m.downstreamToProxy.get? key = some p ↔
    ∃ e, m.proxyToDownstream.get? p = some e ∧ e.downstreamKey? = some key

namespace RequestIdMapper

variable {p : String} {e : MappingEntry}

variable {m : RequestIdMapper}

theorem EntriesOk.init (sessionId : String) : (RequestIdMapper.init sessionId).EntriesOk := by
  constructor
  all_goals simp [RequestIdMapper.init]

theorem MapsOk.init (sessionId : String) : (RequestIdMapper.init sessionId).MapsOk := by
  refine ⟨.init sessionId, ?_, ?_⟩
  all_goals simp [RequestIdMapper.init]

theorem generateProxyRequestId_ne_empty (id : RequestId) (t : Timestamp) :
    m.generateProxyRequestId id t ≠ "" := by
  intro h
  have hlist := congrArg String.toList h
  simp [generateProxyRequestId, String.toList_append] at hlist

variable {id : RequestId}

theorem registered?_eq_some (h : m.registered? id = some p) :
    m.clientToProxy id = some p := by
  unfold registered? at h
  split at h
  · cases h
  · rename_i p' hp'
    split at h
    · cases h
    · rw [hp', h]

/-- Without an empty proxy id the first check is a look-up. -/
theorem EntriesOk.registered?_eq (h : m.EntriesOk) (id : RequestId) :
    m.registered? id = m.clientToProxy id := by
  unfold registered?
  cases hid : m.clientToProxy id with
  | none => rfl
  | some p => simp [h.named id p hid]

theorem EntriesOk.entry_of_clientToProxy (h : m.EntriesOk) (hid : m.clientToProxy id = some p) :
    ∃ e, m.proxyToDownstream.get? p = some e ∧ e.originalRequestId = id := by
  have hp := (h.inverse id p).mp hid
  rw [h.original p] at hp
  exact Option.map_eq_some_iff.mp hp

theorem EntriesOk.clientToProxy_of_entry (h : m.EntriesOk)
    (he : m.proxyToDownstream.get? p = some e) : m.clientToProxy e.originalRequestId = some p := by
  rw [h.inverse, h.original, he]
  rfl

/-- Two entries with the same downstream key are one. -/
theorem MapsOk.eq_of_downstreamKey (h : m.MapsOk) {p p' key : String} {e e' : MappingEntry}
    (he : m.proxyToDownstream.get? p = some e) (he' : m.proxyToDownstream.get? p' = some e')
    (hkey : e.downstreamKey? = some key) (hkey' : e'.downstreamKey? = some key) : p = p' := by
  have hp := (h.downstream key p).mpr ⟨e, he, hkey⟩
  have hp' := (h.downstream key p').mpr ⟨e', he', hkey'⟩
  rw [hp] at hp'
  exact Option.some.inj hp'

/-- The downstream keys of the other entries. -/
theorem MapsOk.get?_withoutDownstream (h : m.MapsOk) (he : m.proxyToDownstream.get? p = some e)
    (key p' : String) :
    (m.withoutDownstream e).get? key = some p' ↔
      p' ≠ p ∧ ∃ e', m.proxyToDownstream.get? p' = some e' ∧ e'.downstreamKey? = some key := by
  unfold withoutDownstream
  cases hprevious : e.downstreamKey? with
  | none =>
    simp only
    rw [h.downstream]
    constructor
    · intro hex
      obtain ⟨e', he', hkey'⟩ := hex
      refine ⟨?_, e', he', hkey'⟩
      intro hp'
      rw [hp', he] at he'
      rw [← Option.some.inj he', hprevious] at hkey'
      cases hkey'
    · intro hex
      exact hex.2
  | some previous =>
    simp only [Dict.get?_erase]
    by_cases hk : key = previous
    · simp only [if_pos hk]
      constructor
      · intro hnone
        cases hnone
      · intro hex
        obtain ⟨hp', e', he', hkey'⟩ := hex
        rw [hk] at hkey'
        exact absurd (h.eq_of_downstreamKey he' he hkey' hprevious) hp'
    · simp only [if_neg hk]
      rw [h.downstream]
      constructor
      · intro hex
        obtain ⟨e', he', hkey'⟩ := hex
        refine ⟨?_, e', he', hkey'⟩
        intro hp'
        rw [hp', he] at he'
        rw [← Option.some.inj he', hprevious] at hkey'
        exact hk (Option.some.inj hkey').symm
      · intro hex
        exact hex.2

/-! ### Operations -/

/-- A request that is registered for the first time, under a proxy id that no other has. -/
theorem EntriesOk.registerNew (h : m.EntriesOk) (hid : m.clientToProxy id = none)
    (hp : m.proxyToDownstream.get? p = none) (hne : p ≠ "") (horiginal : e.originalRequestId = id) :
    EntriesOk { m with
      clientToProxy := Function.update m.clientToProxy id (some p)
      proxyToClient := m.proxyToClient.set p id
      proxyToDownstream := m.proxyToDownstream.set p e } := by
  have hclient : m.proxyToClient.get? p = none := by
    rw [h.original, hp]
    rfl
  refine ⟨?_, ?_, ?_⟩
  · intro id' p'
    simp only [Function.update_apply, Dict.get?_set]
    by_cases hid' : id' = id
    · by_cases hp' : p' = p
      · simp [hid', hp']
      · -- the new request has no other proxy id
        have hnot : m.proxyToClient.get? p' ≠ some id := by
          intro hget
          rw [← h.inverse, hid] at hget
          cases hget
        simp [hid', hp', Ne.symm hp', hnot]
    · by_cases hp' : p' = p
      · have hnot : m.clientToProxy id' ≠ some p := by
          intro hget
          rw [h.inverse, hclient] at hget
          cases hget
        simp [hid', hp', Ne.symm hid', hnot]
      · simp only [if_neg hid', if_neg hp']
        exact h.inverse id' p'
  · intro p'
    simp only [Dict.get?_set]
    by_cases hp' : p' = p
    · simp [hp', horiginal]
    · simp only [if_neg hp']
      exact h.original p'
  · intro id' p' hget
    simp only [Function.update_apply] at hget
    split at hget
    · rw [← Option.some.inj hget]
      exact hne
    · exact h.named id' p' hget

theorem MapsOk.registerNew (h : m.MapsOk) (hid : m.clientToProxy id = none)
    (hp : m.proxyToDownstream.get? p = none) (hne : p ≠ "") (horiginal : e.originalRequestId = id)
    (hnone : e.downstreamRequestId = none) :
    MapsOk { m with
      clientToProxy := Function.update m.clientToProxy id (some p)
      proxyToClient := m.proxyToClient.set p id
      proxyToDownstream := m.proxyToDownstream.set p e } := by
  have hkey : e.downstreamKey? = none := by simp [MappingEntry.downstreamKey?, hnone]
  refine ⟨h.toEntriesOk.registerNew hid hp hne horiginal, ?_, ?_⟩
  · intro p' e' hget hsome
    simp only [Dict.get?_set] at hget
    split at hget
    · rw [← Option.some.inj hget] at hsome
      exact absurd hnone hsome
    · exact h.served p' e' hget hsome
  · intro key p'
    rw [h.downstream key p']
    simp only [Dict.get?_set]
    by_cases hp' : p' = p
    · simp [hp', hp, hkey]
    · simp [hp']

/-- An entry is replaced by one of the same request. -/
theorem EntriesOk.setEntry (h : m.EntriesOk) {e e' : MappingEntry}
    (he : m.proxyToDownstream.get? p = some e)
    (horiginal : e'.originalRequestId = e.originalRequestId) (d : Dict String) :
    EntriesOk { m with
      proxyToDownstream := m.proxyToDownstream.set p e'
      downstreamToProxy := d } := by
  refine ⟨h.inverse, ?_, h.named⟩
  intro p'
  rw [h.original p']
  simp only [Dict.get?_set]
  by_cases hp' : p' = p
  · simp [hp', he, horiginal]
  · simp [hp']

theorem EntriesOk.registerDownstream (h : m.EntriesOk) (p : String) (d : RequestId) (s : String)
    (client : Option ClientRef) : (m.registerDownstreamMapping p d s client).EntriesOk := by
  unfold registerDownstreamMapping
  cases he : m.proxyToDownstream.get? p with
  | none => exact h
  | some e =>
    apply h.setEntry he
    rfl

/-- An entry gets a downstream id under a key that no other entry has. -/
theorem MapsOk.registerDownstream (h : m.MapsOk) (he : m.proxyToDownstream.get? p = some e)
    (d : RequestId) {s : String} (hs : s ≠ "") (client : Option ClientRef)
    (hfree : ∀ p' e', p' ≠ p → m.proxyToDownstream.get? p' = some e' →
      e'.downstreamKey? ≠ some (downstreamKey d s)) :
    (m.registerDownstreamMapping p d s client).MapsOk := by
  have hentries := h.toEntriesOk.registerDownstream p d s client
  unfold registerDownstreamMapping at hentries ⊢
  rw [he] at hentries ⊢
  have hkey : ({ e with
      downstreamRequestId := some d
      serverId := some s
      client := client } : MappingEntry).downstreamKey? = some (downstreamKey d s) := by
    simp [MappingEntry.downstreamKey?, hs]
  refine ⟨hentries, ?_, ?_⟩
  · intro p' e' hget hsome
    simp only [Dict.get?_set] at hget
    split at hget
    · rw [← Option.some.inj hget]
      exact ⟨s, rfl, hs⟩
    · exact h.served p' e' hget hsome
  · intro key p'
    simp only [Dict.get?_set]
    by_cases hk : key = downstreamKey d s
    · by_cases hp' : p' = p
      · simp [hk, hp', hkey]
      · simp only [if_pos hk, if_neg hp']
        constructor
        · intro heq
          exact absurd (Option.some.inj heq).symm hp'
        · intro hex
          obtain ⟨e', he', hkey'⟩ := hex
          rw [hk] at hkey'
          exact absurd hkey' (hfree p' e' hp' he')
    · simp only [if_neg hk]
      rw [h.get?_withoutDownstream he]
      by_cases hp' : p' = p
      · simp [hp', hkey, Ne.symm hk]
      · simp [hp']

theorem EntriesOk.setToken (h : m.EntriesOk) (p : String) (token : RequestId) :
    (m.setOriginalProgressToken p token).EntriesOk := by
  unfold setOriginalProgressToken
  cases he : m.proxyToDownstream.get? p with
  | none => exact h
  | some e =>
    apply h.setEntry he
    rfl

theorem MapsOk.setToken (h : m.MapsOk) (p : String) (token : RequestId) :
    (m.setOriginalProgressToken p token).MapsOk := by
  have hentries := h.toEntriesOk.setToken p token
  unfold setOriginalProgressToken at hentries ⊢
  cases he : m.proxyToDownstream.get? p with
  | none => exact h
  | some e =>
    have hkey : ({ e with originalProgressToken := some token } : MappingEntry).downstreamKey? =
        e.downstreamKey? := rfl
    simp only [he] at hentries
    refine ⟨hentries, ?_, ?_⟩
    · intro p' e' hget hsome
      simp only [Dict.get?_set] at hget
      split at hget
      · rw [← Option.some.inj hget] at hsome ⊢
        exact h.served p e he hsome
      · exact h.served p' e' hget hsome
    · intro key p'
      rw [h.downstream key p']
      simp only [Dict.get?_set]
      by_cases hp' : p' = p
      · simp [hp', he, hkey]
      · simp [hp']

theorem EntriesOk.removeMapping (h : m.EntriesOk) (p : String) :
    (m.removeMapping p).EntriesOk := by
  unfold RequestIdMapper.removeMapping
  cases he : m.proxyToDownstream.get? p with
  | none => exact h
  | some e =>
    have hid := h.clientToProxy_of_entry he
    refine ⟨?_, ?_, ?_⟩
    · intro id' p'
      simp only [Function.update_apply, Dict.get?_erase]
      by_cases hid' : id' = e.originalRequestId
      · by_cases hp' : p' = p
        · simp [hid', hp']
        · -- another request has another id
          have hnot : m.proxyToClient.get? p' ≠ some e.originalRequestId := by
            intro hget
            rw [← h.inverse, hid] at hget
            exact hp' (Option.some.inj hget).symm
          simp [hid', hp', hnot]
      · by_cases hp' : p' = p
        · have hnot : m.clientToProxy id' ≠ some p := by
            intro hget
            rw [h.inverse, h.original, he] at hget
            exact hid' (Option.some.inj hget).symm
          simp [hid', hp', hnot]
        · simp only [if_neg hid', if_neg hp']
          exact h.inverse id' p'
    · intro p'
      simp only [Dict.get?_erase]
      by_cases hp' : p' = p
      · simp [hp']
      · simp only [if_neg hp']
        exact h.original p'
    · intro id' p' hget
      simp only [Function.update_apply] at hget
      split at hget
      · cases hget
      · exact h.named id' p' hget

theorem MapsOk.removeMapping (h : m.MapsOk) (p : String) : (m.removeMapping p).MapsOk := by
  have hentries := h.toEntriesOk.removeMapping p
  unfold RequestIdMapper.removeMapping at hentries ⊢
  cases he : m.proxyToDownstream.get? p with
  | none => exact h
  | some e =>
    simp only [he] at hentries
    refine ⟨hentries, ?_, ?_⟩
    · intro p' e' hget hsome
      simp only [Dict.get?_erase] at hget
      split at hget
      · cases hget
      · exact h.served p' e' hget hsome
    · intro key p'
      rw [h.get?_withoutDownstream he]
      simp only [Dict.get?_erase]
      by_cases hp' : p' = p
      all_goals simp [hp']

/-- What removing any mapping keeps, removing the expired ones keeps. -/
theorem cleanupExpired_induct {P : RequestIdMapper → Prop}
    (hremove : ∀ m p, P m → P (m.removeMapping p)) (h : P m) (now : Timestamp) :
    P (m.cleanupExpired now) := by
  unfold RequestIdMapper.cleanupExpired
  generalize m.expired now = ps
  induction ps generalizing m with
  | nil => exact h
  | cons p ps ih => exact ih (hremove m p h)

theorem MapsOk.cleanupExpired (h : m.MapsOk) (now : Timestamp) : (m.cleanupExpired now).MapsOk :=
  cleanupExpired_induct (fun _ p hm => hm.removeMapping p) h now

/-- What the other requests have is untouched when one is removed. -/
structure Undisturbed (m m' : RequestIdMapper) (p : String) : Prop where
  client : ∀ id, m.clientToProxy id = some p → m'.clientToProxy id = some p
  original : m'.proxyToClient.get? p = m.proxyToClient.get? p
  entry : m'.proxyToDownstream.get? p = m.proxyToDownstream.get? p
  downstream : ∀ key, m.downstreamToProxy.get? key = some p →
    m'.downstreamToProxy.get? key = some p

theorem MapsOk.undisturbed (h : m.MapsOk) {p p' : String} (hne : p' ≠ p) :
    Undisturbed m (m.removeMapping p) p' := by
  unfold RequestIdMapper.removeMapping
  cases he : m.proxyToDownstream.get? p with
  | none => exact ⟨fun _ hid => hid, rfl, rfl, fun _ hkey => hkey⟩
  | some e =>
    refine ⟨?_, ?_, ?_, ?_⟩
    · intro id hid
      have hids : id ≠ e.originalRequestId := by
        intro hids
        rw [hids, h.clientToProxy_of_entry he] at hid
        exact hne (Option.some.inj hid).symm
      simp only [Function.update_apply, if_neg hids]
      exact hid
    · simp only [Dict.get?_erase, if_neg hne]
    · simp only [Dict.get?_erase, if_neg hne]
    · intro key hkey
      rw [h.downstream] at hkey
      exact (h.get?_withoutDownstream he key p').mpr ⟨hne, hkey⟩

end RequestIdMapper

/-! ## Runs -/

namespace MapperState

/-- An operation that gives no two requests in flight the same proxy id and no two entries the
    same downstream key. A request is registered again only for a retry. -/
def StepOk (st : MapperState) : MapperAction → Prop
  | .registerClientRequest request originalRequestId _ _ idTime _ =>
    (∀ p, st.mapper.registered? originalRequestId = some p →
      ∀ r ∈ st.inFlight, r.proxyRequestId = p → r.request = request) ∧
    (st.mapper.registered? originalRequestId = none →
      st.mapper.proxyToDownstream.get?
        (st.mapper.generateProxyRequestId originalRequestId idTime) = none)
  | .registerDownstreamMapping proxyRequestId downstreamRequestId serverId _ =>
    (st.mapper.proxyToDownstream.get? proxyRequestId).isSome = true → serverId ≠ "" ∧
      ∀ p e, p ≠ proxyRequestId → st.mapper.proxyToDownstream.get? p = some e →
        e.downstreamKey? ≠ some (downstreamKey downstreamRequestId serverId)
  | _ => True

/-- What holds in every state. -/
structure Ok (st : MapperState) : Prop where
  maps : st.mapper.MapsOk
  mapped : ∀ r ∈ st.inFlight, (st.mapper.proxyToDownstream.get? r.proxyRequestId).isSome = true
  distinct : ∀ r ∈ st.inFlight, ∀ r' ∈ st.inFlight,
    r.proxyRequestId = r'.proxyRequestId → r.request = r'.request

variable {st st' : MapperState}

theorem Ok.init (sessionId : String) : (MapperState.init sessionId).Ok := by
  refine ⟨.init sessionId, ?_, ?_⟩
  all_goals
    intro r hr
    simp [MapperState.init] at hr

theorem Ok.withMapper (h : st.Ok) {m : RequestIdMapper} (hm : m.MapsOk) :
    (st.withMapper m).Ok := by
  refine ⟨hm, ?_, ?_⟩
  · intro r hr
    exact (List.mem_filter.mp hr).2
  · intro r hr r' hr'
    exact h.distinct r (List.mem_filter.mp hr).1 r' (List.mem_filter.mp hr').1

variable {request : Nat}

/-- A request that is registered again keeps its proxy id. -/
theorem Ok.registerAgain (h : st.Ok) {p : String}
    (hp : (st.mapper.proxyToDownstream.get? p).isSome = true)
    (hsame : ∀ r ∈ st.inFlight, r.proxyRequestId = p → r.request = request) :
    Ok ⟨st.mapper, if (⟨request, p⟩ : InFlight) ∈ st.inFlight then st.inFlight
      else ⟨request, p⟩ :: st.inFlight⟩ := by
  split
  · exact h
  · refine ⟨h.maps, ?_, ?_⟩
    · intro r hr
      cases List.mem_cons.mp hr with
      | inl hr =>
        rw [hr]
        exact hp
      | inr hr => exact h.mapped r hr
    · intro r hr r' hr' heq
      cases List.mem_cons.mp hr with
      | inl hr =>
        cases List.mem_cons.mp hr' with
        | inl hr' => rw [hr, hr']
        | inr hr' =>
          rw [hr] at heq ⊢
          exact (hsame r' hr' heq.symm).symm
      | inr hr =>
        cases List.mem_cons.mp hr' with
        | inl hr' =>
          rw [hr'] at heq ⊢
          exact hsame r hr heq
        | inr hr' => exact h.distinct r hr r' hr' heq

/-- The maps after a request was registered. -/
theorem Ok.maps_register (h : st.Ok) (id : RequestId) (method serverId : Option String)
    (idTime entryTime : Timestamp)
    (hfree : st.mapper.registered? id = none →
      st.mapper.proxyToDownstream.get? (st.mapper.generateProxyRequestId id idTime) = none) :
    (st.mapper.registerClientRequest id method serverId idTime entryTime).2.MapsOk := by
  unfold RequestIdMapper.registerClientRequest
  cases hid : st.mapper.registered? id with
  | some p => exact h.maps
  | none =>
    have hclient : st.mapper.clientToProxy id = none := by
      rw [← h.maps.registered?_eq]
      exact hid
    exact h.maps.registerNew hclient (hfree hid)
      (RequestIdMapper.generateProxyRequestId_ne_empty id idTime) rfl rfl

/-- A request that nobody else in flight shares its proxy id with. -/
theorem Ok.registerFresh (h : st.Ok) {p : String} {m : RequestIdMapper} (hm : m.MapsOk)
    (hentries : ∀ p', (m.proxyToDownstream.get? p').isSome = true ↔
      p' = p ∨ (st.mapper.proxyToDownstream.get? p').isSome = true)
    (hfree : ∀ r ∈ st.inFlight, r.proxyRequestId ≠ p) :
    Ok ⟨m, if (⟨request, p⟩ : InFlight) ∈ st.inFlight then st.inFlight
      else ⟨request, p⟩ :: st.inFlight⟩ := by
  have hnew : (⟨request, p⟩ : InFlight) ∉ st.inFlight := by
    intro hold
    exact hfree _ hold rfl
  rw [if_neg hnew]
  refine ⟨hm, ?_, ?_⟩
  · intro r hr
    rw [hentries]
    cases List.mem_cons.mp hr with
    | inl hr => simp [hr]
    | inr hr => exact .inr (h.mapped r hr)
  · intro r hr r' hr' heq
    cases List.mem_cons.mp hr with
    | inl hr =>
      cases List.mem_cons.mp hr' with
      | inl hr' => rw [hr, hr']
      | inr hr' =>
        rw [hr] at heq
        exact absurd heq.symm (hfree r' hr')
    | inr hr =>
      cases List.mem_cons.mp hr' with
      | inl hr' =>
        rw [hr'] at heq
        exact absurd heq (hfree r hr)
      | inr hr' => exact h.distinct r hr r' hr' heq

theorem Ok.register (h : st.Ok) {id : RequestId} {method serverId : Option String}
    {idTime entryTime : Timestamp}
    (hok : st.StepOk (.registerClientRequest request id method serverId idTime entryTime))
    (hstep : st.step (.registerClientRequest request id method serverId idTime entryTime) =
      some st') : st'.Ok := by
  cases hstep
  have hmaps := h.maps_register id method serverId idTime entryTime hok.2
  unfold RequestIdMapper.registerClientRequest at hmaps ⊢
  cases hid : st.mapper.registered? id with
  | some p =>
    obtain ⟨e, he, _⟩ := h.maps.entry_of_clientToProxy (RequestIdMapper.registered?_eq_some hid)
    exact h.registerAgain (by simp [he]) (hok.1 p hid)
  | none =>
    simp only [hid] at hmaps
    apply h.registerFresh hmaps
    · intro p'
      simp only [Dict.get?_set]
      by_cases hp' : p' = st.mapper.generateProxyRequestId id idTime
      all_goals simp [hp']
    · -- nobody in flight has the new proxy id
      intro r hr heq
      have hmapped := h.mapped r hr
      rw [heq, hok.2 hid] at hmapped
      cases hmapped

theorem Ok.step (h : st.Ok) {a : MapperAction} (hok : st.StepOk a)
    (hstep : st.step a = some st') : st'.Ok := by
  cases a with
  | registerClientRequest request id method serverId idTime entryTime =>
    exact h.register hok hstep
  | registerDownstreamMapping p d s client =>
    cases hstep
    apply h.withMapper
    cases he : st.mapper.proxyToDownstream.get? p with
    | none =>
      unfold RequestIdMapper.registerDownstreamMapping
      rw [he]
      exact h.maps
    | some e =>
      obtain ⟨hs, hfree⟩ := hok (by simp [he])
      exact h.maps.registerDownstream he d hs client hfree
  | setOriginalProgressToken p token =>
    cases hstep
    exact h.withMapper (h.maps.setToken p token)
  | removeMapping p =>
    cases hstep
    exact h.withMapper (h.maps.removeMapping p)
  | cleanupExpired now =>
    cases hstep
    exact h.withMapper (h.maps.cleanupExpired now)

/-- The maps agree with each other and with the requests in flight. -/
structure Consistent (st : MapperState) : Prop where
  distinct : ∀ r ∈ st.inFlight, ∀ r' ∈ st.inFlight, r.request ≠ r'.request →
    r.proxyRequestId ≠ r'.proxyRequestId
  inverse : ∀ id p, st.mapper.clientToProxy id = some p ↔ st.mapper.proxyToClient.get? p = some id
  sameIds : ∀ p, (st.mapper.proxyToClient.get? p).isSome =
    (st.mapper.proxyToDownstream.get? p).isSome
  downstream : ∀ key p, st.mapper.downstreamToProxy.get? key = some p ↔
    ∃ e d s, st.mapper.proxyToDownstream.get? p = some e ∧ e.downstreamRequestId = some d ∧
      e.serverId = some s ∧ key = downstreamKey d s
  undisturbed : ∀ p p', p' ≠ p →
    RequestIdMapper.Undisturbed st.mapper (st.mapper.removeMapping p) p'

theorem Ok.consistent (h : st.Ok) : st.Consistent where
  distinct := by
    intro r hr r' hr' hne heq
    exact hne (h.distinct r hr r' hr' heq)
  inverse := h.maps.inverse
  sameIds := by
    intro p
    rw [h.maps.original, Option.isSome_map]
  downstream := by
    intro key p
    rw [h.maps.downstream]
    constructor
    · intro hex
      obtain ⟨e, he, hkey⟩ := hex
      unfold MappingEntry.downstreamKey? at hkey
      split at hkey
      · rename_i d s hd hs
        split at hkey
        · cases hkey
        · exact ⟨e, d, s, he, hd, hs, (Option.some.inj hkey).symm⟩
      · cases hkey
    · intro hex
      obtain ⟨e, d, s, he, hd, hs, hkey⟩ := hex
      obtain ⟨s', hs', hne⟩ := h.maps.served p e he (by simp [hd])
      obtain rfl := Option.some.inj (hs.symm.trans hs')
      exact ⟨e, he, by simp [MappingEntry.downstreamKey?, hd, hs, hne, hkey]⟩
  undisturbed := fun _ _ hne => h.maps.undisturbed hne

end MapperState

/-- In every state that is reached by operations of which each keeps the proxy ids of the requests
    in flight and the downstream keys of the entries apart, the maps are consistent. -/
theorem maps_consistent {sessionId : String}
    {trs : List (Transition MapperState MapperAction)} {st : MapperState}
    (hrun : IsRun MapperState.step (.init sessionId) trs st)
    (hok : ∀ tr ∈ trs, tr.pre.StepOk tr.act) : st.Consistent := by
  have hst : st.Ok := IsRun.history_of (G := fun tr => tr.pre.StepOk tr.act)
    (P := fun _ st => st.Ok) (MapperState.Ok.init sessionId)
    (fun _ _ _ _ _ h hstep hguard => h.step hguard hstep) hrun hok
  exact hst.consistent

/-! ### Two requests of one session -/

namespace MapperState

instance decidableStepOk (st : MapperState) : (a : MapperAction) → Decidable (st.StepOk a)
  | .registerClientRequest request originalRequestId _ _ idTime _ =>
    decidable_of_iff
      ((∀ p ∈ st.mapper.registered? originalRequestId,
        ∀ r ∈ st.inFlight, r.proxyRequestId = p → r.request = request) ∧
      (st.mapper.registered? originalRequestId = none →
        st.mapper.proxyToDownstream.get?
          (st.mapper.generateProxyRequestId originalRequestId idTime) = none)) Iff.rfl
  | .registerDownstreamMapping proxyRequestId downstreamRequestId serverId _ =>
    decidable_of_iff
      ((st.mapper.proxyToDownstream.get? proxyRequestId).isSome = true → serverId ≠ "" ∧
        ∀ e ∈ st.mapper.proxyToDownstream.entries, e.1 ≠ proxyRequestId →
          e.2.downstreamKey? ≠ some (downstreamKey downstreamRequestId serverId)) (by
      simp only [StepOk, ← Dict.mem_entries, Prod.forall]
      grind)
  | .setOriginalProgressToken _ _ => isTrue trivial
  | .removeMapping _ => isTrue trivial
  | .cleanupExpired _ => isTrue trivial

end MapperState

/-- Two requests that are registered at the same time; the first is sent to a server. -/
def requestsAtOnce (firstId secondId : RequestId) : List MapperAction :=
  [.registerClientRequest 0 firstId none none 7 7,
    .registerClientRequest 1 secondId none none 7 7,
    .registerDownstreamMapping "s:1:7" (.num ⟨4, 0, by decide⟩) "files" (some 0)]

theorem maps_consistent_requestsAtOnce :
    ∃ st, IsRun MapperState.step (.init "s")
      (trace MapperState.step (.init "s")
        (requestsAtOnce (.num ⟨1, 0, by decide⟩) (.num ⟨2, 0, by decide⟩))) st ∧ st.Consistent := by
  obtain ⟨st, hst⟩ : ∃ st, exec MapperState.step (.init "s")
      (requestsAtOnce (.num ⟨1, 0, by decide⟩) (.num ⟨2, 0, by decide⟩)) = some st := ⟨_, rfl⟩
  have hrun := isRun_trace _ _ _ hst
  exact ⟨st, hrun, maps_consistent hrun (by decide)⟩

/-- The number `1` and the string `1` have the same text, and so the same proxy id in the same
    millisecond. -/
theorem maps_disagree :
    ¬ ∀ (sessionId : String) (trs : List (Transition MapperState MapperAction)) (st : MapperState),
      IsRun MapperState.step (.init sessionId) trs st → st.Consistent := by
  intro hall
  obtain ⟨st, hst⟩ : ∃ st, exec MapperState.step (.init "s")
      (requestsAtOnce (.num ⟨1, 0, by decide⟩) (.str "1")) = some st := ⟨_, rfl⟩
  have hconsistent := hall "s" _ st (isRun_trace _ _ _ hst)
  have hflight : st.inFlight = [⟨1, "s:1:7"⟩, ⟨0, "s:1:7"⟩] := by
    have hflights : (exec MapperState.step (.init "s")
        (requestsAtOnce (.num ⟨1, 0, by decide⟩) (.str "1"))).map (·.inFlight) =
        some [⟨1, "s:1:7"⟩, ⟨0, "s:1:7"⟩] := by decide
    rw [hst] at hflights
    exact Option.some.inj hflights
  apply hconsistent.distinct ⟨1, "s:1:7"⟩ _ ⟨0, "s:1:7"⟩ _ (by decide) rfl
  all_goals simp [hflight]

end PetaCore
